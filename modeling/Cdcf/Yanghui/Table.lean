import Cdcf.Library.Triangle
import Mathlib.Algebra.Order.Ring.Int
import Mathlib.Data.List.Basic
import Mathlib.Data.List.GetD
import Mathlib.Data.List.Induction

/-!
Tables of numbers, and what the jobs over them have in common (`yanghui_config.h`,
`yanghui_actor.cc`, `yanghui_with_priority.cc`, `fake_counter.cc`).

The jobs look for the least sum of the paths down a triangle of numbers.  They work through the rows
from the top and keep the least sums of the paths to the entries of a row in an array.

* `Table`, `Triangular`, `SumsFit`, `IsAnswer`: the tables, what they are to be like, and what is
  looked for.
* `readInt`, `writeInt`, `readEntry`: places of arrays; outside of them the behaviour is undefined.
* `nextEntry`: the three cases of an entry of the next row; `leastOf`, `numberCompare`: the loop of
  a comparison, and what a worker makes of it.
* `Filled`: an array that holds the beginning of a row.
-/

namespace Cdcf

namespace Yanghui

/-! ### Numbers and tables -/

/-- `INT_MAX`. -/
def intMax : ℤ := 2147483647

/-- The number is an `int`. -/
def Fits (a : ℤ) : Prop := -2147483648 ≤ a ∧ a ≤ intMax

instance (a : ℤ) : Decidable (Fits a) := inferInstanceAs (Decidable (_ ∧ _))

/-- `std::vector<std::vector<int>>`. -/
abbrev Table := List (List ℤ)

/-- What is at a place of the table. -/
def entry (data : Table) (i j : ℕ) : ℤ := (data.getD i []).getD j 0

/-- There is a row, and each row has an entry more than the one above at least. -/
structure Triangular (data : Table) : Prop where
  ne_nil : data ≠ []
  wide : ∀ (i : ℕ) (row : List ℤ), data[i]? = some row → i < row.length

/-- The sums that are computed are of type `int`. -/
def SumsFit (data : Table) : Prop :=
  ∀ i < data.length, ∀ j ≤ i, Fits (Triangle.least (entry data) i j)

/-- The least sum of the paths through all rows. -/
def IsAnswer (data : Table) (r : ℤ) : Prop :=
  IsLeast {s | ∃ j, Triangle.Path (entry data) (data.length - 1) j s} r

lemma triangular_iff {data : Table} :
    Triangular data ↔ data ≠ [] ∧ ∀ i < data.length, i < (data.getD i []).length := by
  constructor
  · intro h
    refine ⟨h.ne_nil, fun i hi => ?_⟩
    rw [List.getD_eq_getElem _ _ hi]
    exact h.wide i _ (List.getElem?_eq_getElem hi)
  · rintro ⟨hne, hwide⟩
    refine ⟨hne, fun i row hrow => ?_⟩
    obtain ⟨hi, rfl⟩ := List.getElem?_eq_some_iff.mp hrow
    exact List.getD_eq_getElem data [] hi ▸ hwide i hi

instance (data : Table) : Decidable (Triangular data) := decidable_of_iff' _ triangular_iff

instance (data : Table) : Decidable (SumsFit data) := inferInstanceAs (Decidable (∀ _ < _, _))

/-! ### Places -/

/-- How a function is left before its last statement. -/
inductive Exit where
  | returned (result : ℤ)
  | undefined
  /-- It waits for ever. -/
  | endless
  deriving DecidableEq, Repr

section

variable {m : Type → Type*} [Monad m] [MonadExcept Exit m]

/-- `v[i]`. -/
def readInt (v : List ℤ) (i : ℕ) : m ℤ :=
  match v[i]? with
  | some a => pure a
  | none => throw .undefined

/-- `v[i] = a`. -/
def writeInt (v : List ℤ) (i : ℕ) (a : ℤ) : m (List ℤ) :=
  if i < v.length then pure (v.set i a) else throw .undefined

/-- `data[i][j]`. -/
def readEntry (data : Table) (i j : ℕ) : m ℤ :=
  match data[i]? with
  | some row => readInt row j
  | none => throw .undefined

/-- `a + b`. -/
def plus (a b : ℤ) : m ℤ := if Fits (a + b) then pure (a + b) else throw .undefined

/-- An entry of the next row: the first one, the last one, or one between.  What it is the sum of
goes to `add`. -/
def nextEntry {β : Type} (add : ℤ → ℤ → m β) (data : Table) (states : List ℤ) (i j : ℕ) : m β := do
  if j = 0 then
    add (← readInt states 0) (← readEntry data i j)
  else if j = i then
    add (← readInt states (j - 1)) (← readEntry data i j)
  else
    add (min (← readInt states (j - 1)) (← readInt states j)) (← readEntry data i j)

lemma readInt_eq {v : List ℤ} {i : ℕ} {a : ℤ} (h : v[i]? = some a) :
    readInt v i = (pure a : m ℤ) := by
  rw [readInt, h]

lemma writeInt_eq {v : List ℤ} {i : ℕ} {a : ℤ} (h : i < v.length) :
    writeInt v i a = (pure (v.set i a) : m (List ℤ)) := by
  rw [writeInt, if_pos h]

lemma plus_eq {a b : ℤ} (h : Fits (a + b)) : plus a b = (pure (a + b) : m ℤ) := by
  rw [plus, if_pos h]

lemma readEntry_eq {data : Table} (h : Triangular data) {i j : ℕ} (hi : i < data.length)
    (hj : j ≤ i) : readEntry data i j = (pure (entry data i j) : m ℤ) := by
  have hget := List.getElem?_eq_getElem hi
  have hlt := h.wide i _ hget
  have hrow : data[i][j]? = some data[i][j] := List.getElem?_eq_getElem (by omega)
  simp [readEntry, readInt, entry, hrow, hget, List.getD]

end

/-! ### Comparisons -/

/-- The loop of a comparison, which starts with `least`. -/
def leastOf (least : ℤ) (numbers : List ℤ) : ℤ :=
  numbers.foldl (fun least number => if number < least then number else least) least

lemma leastOf_append (least : ℤ) (numbers numbers' : List ℤ) :
    leastOf least (numbers ++ numbers') = leastOf (leastOf least numbers) numbers' :=
  List.foldl_append

/-- The comparison comes to the least of its start and the numbers. -/
lemma isLeast_leastOf (least : ℤ) (numbers : List ℤ) :
    IsLeast (insert least {a | a ∈ numbers}) (leastOf least numbers) := by
  induction numbers using List.reverseRecOn with
  | nil => simp [leastOf]
  | append_singleton numbers number ih =>
      have hset : insert least {a | a ∈ numbers ++ [number]}
          = insert number (insert least {a | a ∈ numbers}) := by
        ext a
        simp only [List.mem_append, List.mem_singleton, Set.mem_insert_iff, Set.mem_ofPred_eq]
        tauto
      have hmin : leastOf (leastOf least numbers) [number]
          = min number (leastOf least numbers) := by
        rw [min_def]
        simp only [leastOf, List.foldl_cons, List.foldl_nil]
        split_ifs <;> omega
      rw [hset, leastOf_append, hmin]
      exact ih.insert number

/-- No number is greater than `INT_MAX`, with which the comparison may start. -/
lemma isLeast_leastOf_intMax {numbers : List ℤ} (hne : numbers ≠ [])
    (hfit : ∀ a ∈ numbers, Fits a) : IsLeast {a | a ∈ numbers} (leastOf intMax numbers) := by
  obtain ⟨hmem, hlower⟩ := isLeast_leastOf intMax numbers
  obtain ⟨a, ha⟩ := List.exists_mem_of_ne_nil _ hne
  refine ⟨?_, fun b hb => hlower (Or.inr hb)⟩
  rcases hmem with heq | hmem
  · have hle : intMax ≤ a := heq ▸ hlower (Or.inr ha)
    rw [heq, show intMax = a from le_antisymm hle (hfit a ha).2]
    exact ha
  · exact hmem

/-- What a worker answers to `NumberCompareData`. -/
def numberCompare : List ℤ → ℤ
  | [] => 999
  | number :: numbers => leastOf number (number :: numbers)

/-- A comparison of some numbers comes to the least. -/
lemma isLeast_numberCompare {numbers : List ℤ} (hne : numbers ≠ []) :
    IsLeast {a | a ∈ numbers} (numberCompare numbers) := by
  cases numbers with
  | nil => exact absurd rfl hne
  | cons number numbers =>
      have hset : insert number {a | a ∈ number :: numbers} = {a | a ∈ number :: numbers} :=
        Set.insert_eq_of_mem List.mem_cons_self
      exact hset ▸ isLeast_leastOf number (number :: numbers)

/-! ### Rows -/

/-- The array holds the first `n` entries of the row. -/
def Filled (data : Table) (i n : ℕ) (states : List ℤ) : Prop :=
  states.length = data.length ∧ ∀ j < n, states[j]? = some (Triangle.least (entry data) i j)

variable {data : Table} {i n : ℕ} {states : List ℤ}

lemma Filled.zero (h : states.length = data.length) : Filled data i 0 states :=
  ⟨h, fun _ hj => absurd hj (Nat.not_lt_zero _)⟩

/-- One more entry. -/
lemma Filled.set (h : Filled data i n states) (hn : n < data.length) :
    Filled data i (n + 1) (states.set n (Triangle.least (entry data) i n)) := by
  refine ⟨by rw [List.length_set, h.1], fun j hj => ?_⟩
  rcases Nat.lt_succ_iff_lt_or_eq.mp hj with hlt | rfl
  · rw [List.getElem?_set_ne (by omega)]
    exact h.2 j hlt
  · exact List.getElem?_set_self (h.1 ▸ hn)

/-- The first row. -/
lemma Filled.first (h : states.length = data.length) (hpos : 0 < data.length) :
    Filled data 0 1 (states.set 0 (entry data 0 0)) :=
  (Filled.zero h).set hpos

/-- What an entry of the next row is the sum of. -/
lemma nextEntry_eq {m : Type → Type*} [Monad m] [LawfulMonad m] [MonadExcept Exit m] {β : Type}
    (add : ℤ → ℤ → m β) (h : Triangular data) {j : ℕ} (hi : i + 1 < data.length) (hj : j ≤ i + 1)
    (hstates : Filled data i (i + 1) states) :
    ∃ a b, nextEntry add data states (i + 1) j = add a b
      ∧ a + b = Triangle.least (entry data) (i + 1) j := by
  rw [Triangle.least, Triangle.below, nextEntry, readEntry_eq h hi hj]
  split
  · rw [readInt_eq (hstates.2 0 (by omega)), pure_bind, pure_bind]
    exact ⟨_, _, rfl, rfl⟩
  · split
    · rw [readInt_eq (hstates.2 (j - 1) (by omega)), pure_bind, pure_bind]
      exact ⟨_, _, rfl, rfl⟩
    · rw [readInt_eq (hstates.2 (j - 1) (by omega)), readInt_eq (hstates.2 j (by omega)),
        pure_bind, pure_bind, pure_bind]
      exact ⟨_, _, rfl, rfl⟩

/-- The last row is there. -/
lemma Filled.isRow (h : Triangular data)
    (hfilled : Filled data (data.length - 1) data.length states) :
    Triangle.IsRow (entry data) (data.length - 1) states := by
  have hpos : 0 < data.length := List.length_pos_of_ne_nil h.ne_nil
  exact ⟨by rw [hfilled.1]; omega, fun j hj => hfilled.2 j (by omega)⟩

lemma Filled.fits (hfit : SumsFit data)
    (hfilled : Filled data (data.length - 1) data.length states) : ∀ a ∈ states, Fits a := by
  intro a ha
  obtain ⟨j, hj⟩ := List.mem_iff_getElem?.mp ha
  have hlt := (List.getElem?_eq_some_iff.mp hj).1
  rw [hfilled.1] at hlt
  rw [hfilled.2 j hlt, Option.some_inj] at hj
  exact hj ▸ hfit _ (by omega) j (by omega)

lemma Filled.ne_nil (h : Triangular data) (hfilled : Filled data i n states) : states ≠ [] :=
  List.ne_nil_of_length_pos (hfilled.1 ▸ List.length_pos_of_ne_nil h.ne_nil)

end Yanghui

end Cdcf
