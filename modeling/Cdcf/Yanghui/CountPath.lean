import Cdcf.Library.Gather
import Cdcf.Yanghui.Table
import Mathlib.Tactic.Ring

/-!
The actor that counts the sums of the paths row by row, with workers that send their results to it
(`yanghui_count_path` of `yanghui_sample_actor.cc`, the additions of `simple_counter_add_load` in
`simple_counter.cc`).

The results of a row come back in any order, each with its place, and are written over the row of
the table when all are there.  Then the next row is begun; the last row goes to who has sent the
table.

* `State`, `Mail`, `receive`: the actor, what is on its way to it or is worked at, and one of them.
* `Phase`: where the actor is with a table, and how many turns are left.
* `Phase.turn`: any turn comes to the next phase; the last one to the last row.
-/

namespace Cdcf

namespace Yanghui

/-- `data[i][j] = a`. -/
def writeEntry {m : Type → Type*} [Monad m] [MonadExcept Exit m] (data : Table) (i j : ℕ) (a : ℤ) :
    m Table :=
  match data[i]? with
  | some row => do return data.set i (← writeInt row j a)
  | none => throw .undefined

/-- `data[i]`. -/
def readRow {m : Type → Type*} [Monad m] [MonadExcept Exit m] (data : Table) (i : ℕ) :
    m (List ℤ) :=
  match data[i]? with
  | some row => pure row
  | none => throw .undefined

/-- `a < b ? a + c : b + c`. -/
def plusLess {m : Type → Type*} [Monad m] [MonadExcept Exit m] (a b c : ℤ) : m ℤ :=
  if a < b then plus a c else plus b c

lemma plusLess_eq {m : Type → Type*} [Monad m] [MonadExcept Exit m] (a b c : ℤ) :
    plusLess a b c = (plus (min a b) c : m ℤ) := by
  rw [plusLess]
  split
  case isTrue h => rw [min_eq_left h.le]
  case isFalse h => rw [min_eq_right (not_lt.mp h)]

namespace CountPath

open Triangle

/-! ### The actor and its workers -/

/-- `YanghuiState`. -/
structure State where
  index : ℕ := 0
  currentResult : OrderedMap (id : ℕ → ℕ) ℤ := OrderedMap.empty
  data : Table := []

/-- What is on its way to the actor, and what the workers are asked. -/
inductive Mail where
  | data (data : Table)
  /-- The rows above are done. -/
  | index (index : ℕ)
  /-- A worker is to add. -/
  | add (a b : ℤ) (id : ℕ)
  /-- A worker is to add the last number to the less one of the others. -/
  | addLess (a b c : ℤ) (id : ℕ)
  /-- What the worker has found. -/
  | result (result : ℤ) (id : ℕ)
  deriving Inhabited

/-- The task for an entry of the row after this one. -/
def task (data : Table) (row i : ℕ) : Except Exit Mail := do
  if i = 0 then
    return .add (← readEntry data row 0) (← readEntry data (row + 1) 0) i
  else if i = row + 1 then
    return .add (← readEntry data row (i - 1)) (← readEntry data (row + 1) i) i
  else
    return .addLess (← readEntry data row (i - 1)) (← readEntry data row i)
      (← readEntry data (row + 1) i) i

/-- A mail is dealt with, by the actor or by a worker: the state after it, the mails that are sent,
and the row for who has sent the table. -/
def receive (s : State) : Mail → Except Exit (State × List Mail × Option (List ℤ))
  | .data data => do
      let number ← readEntry data 0 0
      return ({ s with data := data, currentResult := s.currentResult.assign 0 number },
        [.index 1], none)
  | .index 0 => throw .undefined
  | .index (row + 1) => do
      let data ← s.currentResult.entries.foldlM (fun data p => writeEntry data row p.1 p.2) s.data
      if row + 1 = data.length then
        let result ← readRow data row
        return ({ index := 0, currentResult := OrderedMap.empty, data := data }, [], some result)
      else
        let tasks ← (List.range (row + 2)).mapM (task data row)
        return ({ index := row + 1, currentResult := OrderedMap.empty, data := data }, tasks, none)
  | .add a b id => do
      return (s, [.result (← plus a b) id], none)
  | .addLess a b c id => do
      return (s, [.result (← plusLess a b c) id], none)
  | .result r id =>
      let s := { s with currentResult := s.currentResult.emplace id r }
      return (s, if s.index + 1 = s.currentResult.size then [.index (s.index + 1)] else [], none)

/-! ### Where the actor is -/

/-- The place and the value of what a mail of a row stands for. -/
def Mail.value? : Mail → Option (ℕ × ℤ)
  | .add a b id => some (id, a + b)
  | .addLess a b c id => some (id, min a b + c)
  | .result r id => some (id, r)
  | _ => none

/-- How many turns a mail of a row takes. -/
def Mail.effort : Mail → ℕ
  | .add _ _ _ | .addLess _ _ _ _ => 2
  | _ => 1

/-- A table that the actor can do: the sums go to the last row, which is read as a whole. -/
structure Suitable (data : Table) : Prop where
  triangular : Triangular data
  last : (data.getD (data.length - 1) []).length = data.length
  fits : SumsFit data

lemma suitable_iff {data : Table} :
    Suitable data ↔ Triangular data ∧ (data.getD (data.length - 1) []).length = data.length
      ∧ SumsFit data :=
  ⟨fun h => ⟨h.triangular, h.last, h.fits⟩, fun ⟨htriangular, hlast, hfits⟩ =>
    ⟨htriangular, hlast, hfits⟩⟩

instance (data : Table) : Decidable (Suitable data) := decidable_of_iff' _ suitable_iff

/-- From this row on, the table is as it was sent. -/
def Same (data : Table) (row : ℕ) (table : Table) : Prop :=
  table.length = data.length ∧ ∀ k, row ≤ k → table[k]? = data[k]?

/-- Some results of row `i` are there, and the others are under way. -/
structure Gathers (data : Table) (i : ℕ) (s : State) (mails : List Mail) : Prop where
  index : s.index = i
  same : Same data i s.data
  values : ∀ mail ∈ mails, mail.value?.isSome
  collecting : Collecting (least (entry data) i) (i + 1) (mails.filterMap Mail.value?)
    s.currentResult

/-- Where the actor is with the table, and the number of turns that are left. -/
inductive Phase (data : Table) : ℕ → State → List Mail → Prop
  | asked {s : State} {turns : ℕ} (h : s.currentResult = OrderedMap.empty)
      (hturns : turns + 2 = (data.length + 1) * (data.length + 1)) :
      Phase data turns s [.data data]
  | counted {s : State} {row turns : ℕ} (hrow : row < data.length) (hsame : Same data row s.data)
      (hentries : s.currentResult.entries
        = (List.range (row + 1)).map fun j => (j, least (entry data) row j))
      (hturns : turns + (row + 2) * (row + 2) = (data.length + 1) * (data.length + 1) + 1) :
      Phase data turns s [.index (row + 1)]
  | gathering {s : State} {row turns : ℕ} {mails : List Mail} (hrow : row + 1 < data.length)
      (hne : mails ≠ []) (h : Gathers data (row + 1) s mails)
      (hturns : turns + (row + 3) * (row + 3)
        = (data.length + 1) * (data.length + 1) + 1 + (mails.map Mail.effort).sum) :
      Phase data turns s mails
  | rest {s : State} (h : s.currentResult = OrderedMap.empty) : Phase data 0 s []

/-- A turn after which so many are left comes to the last row if it is the last one. -/
def Reports (data : Table) (turns : ℕ) : Option (List ℤ) → Prop
  | none => 0 < turns
  | some row => turns = 0 ∧ IsRow (entry data) (data.length - 1) row

/-- A turn that deals with the mail comes to the next phase. -/
def Advances (data : Table) (turns : ℕ) (s : State) (mail : Mail) (others : List Mail) : Prop :=
  ∃ turns' s' sent answer, turns = turns' + 1 ∧ receive s mail = .ok (s', sent, answer)
    ∧ Phase data turns' s' (others ++ sent) ∧ Reports data turns' answer

variable {data table : Table} {s : State} {turns row i : ℕ}

/-! ### The table -/

section

variable {m : Type → Type*} [Monad m] [LawfulMonad m] [MonadExcept Exit m]

/-- The first entries of the row are written. -/
lemma foldlM_writeEntry (f : ℕ → ℤ) {r : List ℤ} (hr : table[i]? = some r) {n : ℕ}
    (hn : n ≤ r.length) :
    ∃ r' : List ℤ, ((List.range n).map fun j => (j, f j)).foldlM
        (fun data p => writeEntry data i p.1 p.2) table = (pure (table.set i r') : m Table)
      ∧ r'.length = r.length ∧ ∀ j < n, r'[j]? = some (f j) := by
  have hi := (List.getElem?_eq_some_iff.mp hr).1
  induction n with
  | zero =>
      refine ⟨r, ?_, rfl, fun j hj => absurd hj (Nat.not_lt_zero j)⟩
      rw [List.range_zero, List.map_nil, List.foldlM_nil, (List.getElem?_eq_some_iff.mp hr).2.symm,
        List.set_getElem_self]
  | succ n ih =>
      obtain ⟨r', hwritten, hlength, hentries⟩ := ih (by omega)
      refine ⟨r'.set n (f n), ?_, by rw [List.length_set, hlength], fun j hj => ?_⟩
      · rw [List.range_succ, List.map_append, List.foldlM_append, hwritten, pure_bind]
        rw [List.map_singleton, List.foldlM_cons, writeEntry, List.getElem?_set_self hi]
        simp only [writeInt_eq (m := m) (show n < r'.length by omega), pure_bind, List.foldlM_nil,
          List.set_set]
      · rcases Nat.lt_succ_iff_lt_or_eq.mp hj with hlt | rfl
        · rw [List.getElem?_set_ne (by omega)]
          exact hentries j hlt
        · exact List.getElem?_set_self (by omega)

end

/-- The row is done in the table, and the rows below are as they were sent. -/
structure Written (data : Table) (row : ℕ) (table : Table) : Prop where
  same : Same data (row + 1) table
  row : ∃ r, table[row]? = some r ∧ r.length = (data.getD row []).length
    ∧ ∀ j ≤ row, r[j]? = some (least (entry data) row j)

/-- The results of the row are written over it. -/
lemma exists_written (hdata : Suitable data) (hrow : row < data.length)
    (hsame : Same data row table) :
    ∃ table', ((List.range (row + 1)).map fun j => (j, least (entry data) row j)).foldlM
        (fun data p => writeEntry data row p.1 p.2) table = (pure table' : Except Exit Table)
      ∧ Written data row table' := by
  have hget := List.getElem?_eq_getElem hrow
  have hwide := hdata.triangular.wide row _ hget
  obtain ⟨r', hwritten, hlength, hentries⟩ := foldlM_writeEntry (m := Except Exit)
    (least (entry data) row) ((hsame.2 row (Nat.le_refl row)).trans hget) hwide
  refine ⟨table.set row r', hwritten, ⟨by rw [List.length_set, hsame.1], fun k hk => ?_⟩, r', ?_⟩
  · rw [List.getElem?_set_ne (by omega)]
    exact hsame.2 k (by omega)
  · refine ⟨List.getElem?_set_self (hsame.1.symm ▸ hrow), ?_, fun j hj =>
      hentries j (Nat.lt_succ_of_le hj)⟩
    rw [hlength, List.getD_eq_getElem _ _ hrow]

/-- The last row is the one that is looked for. -/
lemma Written.isRow (hdata : Suitable data) (h : Written data row table)
    (hlast : row + 1 = data.length) :
    ∃ r, readRow table row = (pure r : Except Exit (List ℤ))
      ∧ IsRow (entry data) (data.length - 1) r := by
  obtain ⟨r, hr, hlength, hentries⟩ := h.row
  obtain rfl : row = data.length - 1 := by omega
  refine ⟨r, by rw [readRow, hr], ?_, hentries⟩
  rw [hlength, hdata.last, hlast]

/-- The task for an entry of the next row. -/
lemma Written.task (hdata : Suitable data) (h : Written data row table)
    (hrow : row + 1 < data.length) {j : ℕ} (hj : j ≤ row + 1) :
    ∃ mail : Mail, task table row j = .ok mail
      ∧ mail.value? = some (j, least (entry data) (row + 1) j) ∧ mail.effort = 2 := by
  obtain ⟨r, hr, -, hentries⟩ := h.row
  have habove : ∀ k ≤ row, readEntry table row k
      = (pure (least (entry data) row k) : Except Exit ℤ) := by
    intro k hk
    rw [readEntry, hr]
    exact readInt_eq (hentries k hk)
  have hentry : readEntry table (row + 1) j
      = (pure (entry data (row + 1) j) : Except Exit ℤ) := by
    rw [readEntry, h.same.2 (row + 1) (Nat.le_refl _)]
    exact readEntry_eq hdata.triangular hrow hj
  rw [CountPath.task, least, below]
  split
  case isTrue hzero =>
    subst hzero
    rw [habove 0 (Nat.zero_le row), hentry]
    exact ⟨_, rfl, rfl, rfl⟩
  case isFalse hzero =>
    split
    case isTrue hlast =>
      rw [habove (j - 1) (by omega), hentry]
      exact ⟨_, rfl, rfl, rfl⟩
    case isFalse hlast =>
      rw [habove (j - 1) (by omega), habove j (by omega), hentry]
      exact ⟨_, rfl, rfl, rfl⟩

/-! ### The turns -/

/-- The table arrives. -/
lemma advances_data (hdata : Suitable data) (h : s.currentResult = OrderedMap.empty)
    (hturns : turns + 2 = (data.length + 1) * (data.length + 1)) :
    Advances data turns s (.data data) [] := by
  have hrows : 0 < data.length := List.length_pos_of_ne_nil hdata.triangular.ne_nil
  have hreceive : receive s (.data data) = .ok
      ({ s with data := data, currentResult := s.currentResult.assign 0 (entry data 0 0) },
        [.index 1], none) := by
    rw [receive, readEntry_eq hdata.triangular hrows (Nat.le_refl 0), pure_bind]
    rfl
  have hsquare : 4 ≤ (data.length + 1) * (data.length + 1) :=
    Nat.mul_le_mul (show 2 ≤ data.length + 1 by omega) (show 2 ≤ data.length + 1 by omega)
  refine ⟨turns - 1, _, _, _, by omega, hreceive, ?_, ?_⟩
  · refine Phase.counted hrows ⟨rfl, fun _ _ => rfl⟩ ?_ (by omega)
    rw [h]
    rfl
  · rw [Reports]
    omega

/-- The rows above are done: the tasks of the next one are handed out, or the last one is sent. -/
lemma advances_index (hdata : Suitable data) (hrow : row < data.length)
    (hsame : Same data row s.data)
    (hentries : s.currentResult.entries
      = (List.range (row + 1)).map fun j => (j, least (entry data) row j))
    (hturns : turns + (row + 2) * (row + 2) = (data.length + 1) * (data.length + 1) + 1) :
    Advances data turns s (.index (row + 1)) [] := by
  obtain ⟨table, htable, hwritten⟩ := exists_written hdata hrow hsame
  have hlength := hwritten.same.1
  by_cases hlast : row + 1 = data.length
  · obtain ⟨r, hr, hisRow⟩ := hwritten.isRow hdata hlast
    have hreceive : receive s (.index (row + 1)) = .ok
        ({ index := 0, currentResult := OrderedMap.empty, data := table }, [], some r) := by
      rw [receive, hentries, htable, pure_bind, if_pos (hlast.trans hlength.symm), hr]
      rfl
    have hsquare : (row + 2) * (row + 2) = (data.length + 1) * (data.length + 1) := by rw [← hlast]
    exact ⟨0, _, _, _, by omega, hreceive, Phase.rest rfl, rfl, hisRow⟩
  · have htask : ∀ j ∈ List.range (row + 2), ∃ mail : Mail, CountPath.task table row j = .ok mail
        ∧ mail.value? = some (j, least (entry data) (row + 1) j) ∧ mail.effort = 2 :=
      fun j hj => hwritten.task hdata (by omega) (Nat.lt_succ_iff.mp (List.mem_range.mp hj))
    choose! task htask using htask
    have hreceive : receive s (.index (row + 1)) = .ok
        ({ index := row + 1, currentResult := OrderedMap.empty, data := table },
          (List.range (row + 2)).map task, none) := by
      rw [receive, hentries, htable, pure_bind, if_neg (by omega),
        mapM_eq_pure fun j hj => (htask j hj).1]
      rfl
    have hvalues : ((List.range (row + 2)).map task).filterMap Mail.value?
        = (List.range (row + 2)).map fun j => (j, least (entry data) (row + 1) j) :=
      filterMap_map_range fun j hj => (htask j hj).2.1
    have heffort : (((List.range (row + 2)).map task).map Mail.effort).sum = (row + 2) * 2 :=
      sum_map_range fun j hj => (htask j hj).2.2
    have hgathers : Gathers data (row + 1)
        { index := row + 1, currentResult := OrderedMap.empty, data := table }
        ((List.range (row + 2)).map task) :=
      { index := rfl
        same := hwritten.same
        values := by
          intro mail hmail
          obtain ⟨j, hj, rfl⟩ := List.mem_map.mp hmail
          rw [(htask j hj).2.1, Option.isSome_some]
        collecting := hvalues ▸ Collecting.start _ _ }
    have hsquare : (row + 3) * (row + 3) = (row + 2) * (row + 2) + (2 * (row + 2) + 1) := by ring
    have hbound : (row + 2) * (row + 2) ≤ (data.length + 1) * (data.length + 1) :=
      Nat.mul_le_mul (by omega) (by omega)
    refine ⟨turns - 1, _, _, _, by omega, hreceive, ?_, ?_⟩
    · rw [List.nil_append]
      exact Phase.gathering (by omega) (by simp) hgathers (by omega)
    · have hbound' : (row + 3) * (row + 3) ≤ (data.length + 1) * (data.length + 1) :=
        Nat.mul_le_mul (by omega) (by omega)
      rw [Reports]
      omega

/-- The order of the mails does not matter. -/
lemma Gathers.perm {mails mails' : List Mail} (h : Gathers data i s mails)
    (hperm : mails.Perm mails') : Gathers data i s mails' where
  index := h.index
  same := h.same
  values := fun mail hmail => h.values mail (hperm.mem_iff.mpr hmail)
  collecting := h.collecting.perm (hperm.filterMap Mail.value?)

/-- The value of a task is of type `int`. -/
lemma Gathers.fits_value {mail : Mail} {p : ℕ × ℤ} {others : List Mail} (hdata : Suitable data)
    (hi : i < data.length) (h : Gathers data i s (mail :: others)) (hp : mail.value? = some p) :
    Fits p.2 := by
  have hmem : p ∈ (mail :: others).filterMap Mail.value? :=
    List.mem_filterMap.mpr ⟨mail, List.mem_cons_self, hp⟩
  obtain ⟨hlt, hright⟩ := h.collecting.right hmem
  exact hright ▸ hdata.fits i hi p.1 (Nat.lt_succ_iff.mp hlt)

/-- A worker has done its task. -/
lemma advances_task {mail : Mail} {p : ℕ × ℤ} {others : List Mail} (hrow : row + 1 < data.length)
    (h : Gathers data (row + 1) s (mail :: others)) (hp : mail.value? = some p)
    (heffort : mail.effort = 2) (hreceive : receive s mail = .ok (s, [.result p.2 p.1], none))
    (hturns : turns + (row + 3) * (row + 3) = (data.length + 1) * (data.length + 1) + 1
      + ((mail :: others).map Mail.effort).sum) :
    Advances data turns s mail others := by
  have hperm : (others ++ [Mail.result p.2 p.1]).Perm (.result p.2 p.1 :: others) :=
    List.perm_append_singleton _ _
  have hvalues : (Mail.result p.2 p.1 :: others).filterMap Mail.value?
      = (mail :: others).filterMap Mail.value? := by
    rw [List.filterMap_cons_some hp, List.filterMap_cons_some (f := Mail.value?) (b := p) rfl]
  have hgathers : Gathers data (row + 1) s (others ++ [Mail.result p.2 p.1]) :=
    { index := h.index
      same := h.same
      values := by
        intro mail hmail
        rcases List.mem_cons.mp (hperm.mem_iff.mp hmail) with rfl | hmail
        · rfl
        · exact h.values mail (List.mem_cons_of_mem _ hmail)
      collecting := (hvalues ▸ h.collecting).perm (hperm.filterMap Mail.value?).symm }
  have hbound : (row + 3) * (row + 3) ≤ (data.length + 1) * (data.length + 1) :=
    Nat.mul_le_mul (by omega) (by omega)
  rw [List.map_cons, List.sum_cons, heffort] at hturns
  refine ⟨turns - 1, _, _, _, by omega, hreceive, ?_, ?_⟩
  · refine Phase.gathering hrow (by simp) hgathers ?_
    rw [List.map_append, List.sum_append, List.map_singleton, List.sum_singleton,
      show (Mail.result p.2 p.1).effort = 1 from rfl]
    omega
  · rw [Reports]
    omega

/-- A result arrives; with the last one, the row is counted. -/
lemma advances_result {r : ℤ} {id : ℕ} {others : List Mail} (hrow : row + 1 < data.length)
    (h : Gathers data (row + 1) s (.result r id :: others))
    (hturns : turns + (row + 3) * (row + 3) = (data.length + 1) * (data.length + 1) + 1
      + ((Mail.result r id :: others).map Mail.effort).sum) :
    Advances data turns s (.result r id) others := by
  have hcollecting : Collecting (least (entry data) (row + 1)) (row + 2)
      (others.filterMap Mail.value?) (s.currentResult.emplace id r) := h.collecting.arrive
  have hsize := hcollecting.size_add
  have hothers : (others.filterMap Mail.value?).length = others.length :=
    List.filterMap_length_eq_length.mpr fun mail hmail =>
      h.values mail (List.mem_cons_of_mem _ hmail)
  have hindex := h.index
  have hbound : (row + 3) * (row + 3) ≤ (data.length + 1) * (data.length + 1) :=
    Nat.mul_le_mul (by omega) (by omega)
  rw [List.map_cons, List.sum_cons, show (Mail.result r id).effort = 1 from rfl] at hturns
  by_cases hnil : others = []
  · subst hnil
    rw [List.map_nil, List.sum_nil] at hturns
    rw [List.length_nil] at hothers
    have hreceive : receive s (.result r id) = .ok
        ({ s with currentResult := s.currentResult.emplace id r }, [.index (row + 2)], none) := by
      simp only [receive]
      rw [if_pos (by omega), hindex]
      rfl
    refine ⟨turns - 1, _, _, _, by omega, hreceive, ?_, ?_⟩
    · refine Phase.counted hrow h.same hcollecting.done ?_
      rw [show row + 1 + 2 = row + 3 from rfl]
      omega
    · rw [Reports]
      omega
  · have hpos := List.length_pos_of_ne_nil hnil
    have hreceive : receive s (.result r id) = .ok
        ({ s with currentResult := s.currentResult.emplace id r }, [], none) := by
      simp only [receive]
      rw [if_neg (by omega)]
      rfl
    have hgathers : Gathers data (row + 1)
        { s with currentResult := s.currentResult.emplace id r } others :=
      ⟨h.index, h.same, fun mail hmail => h.values mail (List.mem_cons_of_mem _ hmail),
        hcollecting⟩
    refine ⟨turns - 1, _, _, _, by omega, hreceive, ?_, ?_⟩
    · rw [List.append_nil]
      exact Phase.gathering hrow hnil hgathers (by omega)
    · rw [Reports]
      omega

/-- **One turn.**  Whatever mail is dealt with next, the actor comes to the next phase, and with the
last turn to the last row. -/
theorem Phase.turn {mails others : List Mail} {mail : Mail} (hdata : Suitable data)
    (h : Phase data turns s mails) (hperm : mails.Perm (mail :: others)) :
    Advances data turns s mail others := by
  cases h with
  | asked h hturns =>
      obtain ⟨rfl, rfl⟩ := List.cons_eq_cons.mp (List.singleton_perm.mp hperm)
      exact advances_data hdata h hturns
  | counted hrow hsame hentries hturns =>
      obtain ⟨rfl, rfl⟩ := List.cons_eq_cons.mp (List.singleton_perm.mp hperm)
      exact advances_index hdata hrow hsame hentries hturns
  | gathering hrow hne h hturns =>
      have hgathers := h.perm hperm
      rw [(hperm.map Mail.effort).sum_nat] at hturns
      cases mail with
      | data | index => exact Bool.noConfusion (hgathers.values _ List.mem_cons_self)
      | add a b id =>
          refine advances_task hrow hgathers rfl rfl ?_ hturns
          rw [receive, plus_eq (hgathers.fits_value hdata hrow rfl)]
          rfl
      | addLess a b c id =>
          refine advances_task hrow hgathers rfl rfl ?_ hturns
          rw [receive, plusLess_eq, plus_eq (hgathers.fits_value hdata hrow rfl)]
          rfl
      | result r id => exact advances_result hrow hgathers hturns
  | rest h => exact absurd hperm.length_eq (by simp)

/-- No turn is left when no mail is, and only then. -/
lemma Phase.rest_iff {mails : List Mail} (h : Phase data turns s mails) :
    turns = 0 ↔ mails = [] := by
  have hpos : mails ≠ [] → 0 < turns := by
    intro hne
    cases h with
    | asked h hturns =>
        rcases Nat.eq_zero_or_pos data.length with hzero | hpos
        · rw [hzero] at hturns
          omega
        · have hsquare : 4 ≤ (data.length + 1) * (data.length + 1) :=
            Nat.mul_le_mul (show 2 ≤ data.length + 1 by omega) (show 2 ≤ data.length + 1 by omega)
          omega
    | @counted _ row _ hrow hsame hentries hturns =>
        have hbound : (row + 2) * (row + 2) ≤ (data.length + 1) * (data.length + 1) :=
          Nat.mul_le_mul (by omega) (by omega)
        omega
    | @gathering _ row _ _ hrow hne h hturns =>
        have hbound : (row + 3) * (row + 3) ≤ (data.length + 1) * (data.length + 1) :=
          Nat.mul_le_mul (by omega) (by omega)
        omega
    | rest h => exact absurd rfl hne
  constructor
  · rintro rfl
    by_contra hne
    exact Nat.lt_irrefl 0 (hpos hne)
  · rintro rfl
    cases h with
    | gathering hrow hne h hturns => exact absurd rfl hne
    | rest h => rfl

/-- With no turn left, the actor is ready for the next table. -/
lemma Phase.fresh {mails : List Mail} (h : Phase data 0 s mails) :
    s.currentResult = OrderedMap.empty := by
  obtain rfl := h.rest_iff.mp rfl
  generalize hturns : 0 = turns at h
  cases h with
  | gathering hrow hne h hturns => exact absurd rfl hne
  | rest h => exact h

end CountPath

end Yanghui

end Cdcf
