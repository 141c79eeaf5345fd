import Cdcf.Library.Gather
import Cdcf.Yanghui.Table
import Mathlib.Tactic.Ring

/-!
The actor that hands the additions of a row to a pool, all at once (`yanghui_with_priority.cc`,
`CalculatorWithPriority` of `yanghui_demo_calculator.cc`).

The results come back in any order, each with its position.  When all are there, the next row is
begun, and after the last row the pool is asked for the least of its results.

* `State`, `Mail`, `receive`: the actor, what is on its way to it or is worked at, and one of them.
* `Phase`: where the actor is with a table, and how many turns are left.
* `Phase.turn`: any turn comes to the next phase; the last one to the answer.
-/

namespace Cdcf

namespace Yanghui

namespace WithPriority

open Triangle

/-! ### The actor and its pool -/

/-- `yanghui_state`. -/
structure State where
  level_ : ℕ := 1
  count_ : ℕ := 0
  triangleData_ : Table := []
  lastLevelResults_ : List ℤ := []
  deriving DecidableEq, Repr

/-- What is on its way to the actor, and what its pool is asked. -/
inductive Mail where
  | triangle (data : Table)
  | startAtom
  /-- A worker is to add. -/
  | add (a b : ℤ) (position : ℕ)
  /-- `ResultWithPosition`. -/
  | result (result : ℤ) (position : ℕ)
  | endAtom
  /-- A worker is to find the least number. -/
  | compare (numbers : List ℤ)
  /-- What the worker has found. -/
  | final (result : ℤ)
  deriving DecidableEq, Repr, Inhabited

/-- A result was entered: with the last one of a row, the next row is begun, or the end. -/
def State.next (s : State) : State × List Mail × Option ℤ :=
  if s.level_ = s.count_ - 1 then
    if s.level_ + 1 = s.triangleData_.length then
      ({ s with level_ := 1, count_ := 0 }, [.endAtom], none)
    else
      ({ s with level_ := s.level_ + 1, count_ := 0 }, [.startAtom], none)
  else (s, [], none)

/-- A mail is dealt with, by the actor or by a worker: the state after it, the mails that are sent,
and the result for who has sent the table. -/
def receive (s : State) : Mail → Except Exit (State × List Mail × Option ℤ)
  | .triangle data => do
      let results ← writeInt (List.replicate data.length 0) 0 (← readEntry data 0 0)
      return ({ s with triangleData_ := data, lastLevelResults_ := results }, [.startAtom], none)
  | .startAtom => do
      let tasks ← (List.range (s.level_ + 1)).mapM fun j =>
        nextEntry (fun a b => pure (.add a b j)) s.triangleData_ s.lastLevelResults_ s.level_ j
      return (s, tasks, none)
  | .add a b position => do
      return (s, [.result (← plus a b) position], none)
  | .result result position => do
      let results ← writeInt s.lastLevelResults_ position result
      return { s with lastLevelResults_ := results, count_ := s.count_ + 1 }.next
  | .endAtom => return (s, [.compare s.lastLevelResults_], none)
  | .compare numbers => return (s, [.final (numberCompare numbers)], none)
  | .final result => return (s, [], some result)

/-! ### Where the actor is -/

/-- The position and the value of what a mail of a row stands for. -/
def Mail.value? : Mail → Option (ℕ × ℤ)
  | .add a b position => some (position, a + b)
  | .result r position => some (position, r)
  | _ => none

/-- How many turns a mail of a row takes. -/
def Mail.effort : Mail → ℕ
  | .add _ _ _ => 2
  | _ => 1

@[simp] lemma Mail.effort_add (a b : ℤ) (position : ℕ) : (add a b position).effort = 2 := rfl

@[simp] lemma Mail.effort_result (r : ℤ) (position : ℕ) : (result r position).effort = 1 := rfl

/-- A table that the actor can do. -/
structure Suitable (data : Table) : Prop where
  triangular : Triangular data
  rows : 2 ≤ data.length
  fits : SumsFit data

lemma suitable_iff {data : Table} :
    Suitable data ↔ Triangular data ∧ 2 ≤ data.length ∧ SumsFit data :=
  ⟨fun h => ⟨h.triangular, h.rows, h.fits⟩, fun ⟨htriangular, hrows, hfits⟩ =>
    ⟨htriangular, hrows, hfits⟩⟩

instance (data : Table) : Decidable (Suitable data) := decidable_of_iff' _ suitable_iff

/-- No row is begun. -/
structure State.Fresh (s : State) : Prop where
  level : s.level_ = 1
  count : s.count_ = 0

/-- Some results of row `i` are there, and the others are under way. -/
structure Gathers (data : Table) (i : ℕ) (s : State) (mails : List Mail) : Prop where
  level : s.level_ = i
  triangle : s.triangleData_ = data
  length : s.lastLevelResults_.length = data.length
  count : s.count_ + mails.length = i + 1
  values : ∀ mail ∈ mails, mail.value?.isSome
  gathering : Gathering (least (entry data) i) (i + 1) (mails.filterMap Mail.value?)
    (s.lastLevelResults_[·]?)

/-- Where the actor is with the table, and the number of turns that are left. -/
inductive Phase (data : Table) : ℕ → State → List Mail → Prop
  | asked {s : State} (h : s.Fresh) :
      Phase data ((data.length + 1) * (data.length + 1)) s [.triangle data]
  | starting {s : State} {i turns : ℕ} (hi : i + 1 < data.length) (hlevel : s.level_ = i + 1)
      (hcount : s.count_ = 0) (htriangle : s.triangleData_ = data)
      (hfilled : Filled data i (i + 1) s.lastLevelResults_)
      (hturns : turns + (i + 2) * (i + 2) = (data.length + 1) * (data.length + 1) + 3) :
      Phase data turns s [.startAtom]
  | gathering {s : State} {i turns : ℕ} {mails : List Mail} (hi : i + 1 < data.length)
      (hne : mails ≠ []) (h : Gathers data (i + 1) s mails)
      (hturns : turns + (i + 3) * (i + 3)
        = (data.length + 1) * (data.length + 1) + 3 + (mails.map Mail.effort).sum) :
      Phase data turns s mails
  | ending {s : State} (h : s.Fresh)
      (hfilled : Filled data (data.length - 1) data.length s.lastLevelResults_) :
      Phase data 3 s [.endAtom]
  | comparing {s : State} {numbers : List ℤ} (h : s.Fresh)
      (hanswer : IsAnswer data (numberCompare numbers)) : Phase data 2 s [.compare numbers]
  | compared {s : State} {r : ℤ} (h : s.Fresh) (hanswer : IsAnswer data r) :
      Phase data 1 s [.final r]
  | rest {s : State} (h : s.Fresh) : Phase data 0 s []

/-- A turn after which so many are left comes to the answer if it is the last one. -/
def Reports (data : Table) (turns : ℕ) : Option ℤ → Prop
  | none => 0 < turns
  | some r => turns = 0 ∧ IsAnswer data r

/-- A turn that deals with the mail comes to the next phase. -/
def Advances (data : Table) (turns : ℕ) (s : State) (mail : Mail) (others : List Mail) : Prop :=
  ∃ turns' s' sent answer, turns = turns' + 1 ∧ receive s mail = .ok (s', sent, answer)
    ∧ Phase data turns' s' (others ++ sent) ∧ Reports data turns' answer

variable {data : Table} {s : State} {turns i : ℕ}

/-! ### The turns -/

/-- The table arrives. -/
lemma advances_triangle (hdata : Suitable data) (h : s.Fresh) :
    Advances data ((data.length + 1) * (data.length + 1)) s (.triangle data) [] := by
  have hrows := hdata.rows
  have hlength : (List.replicate data.length (0 : ℤ)).length = data.length :=
    List.length_replicate
  have hreceive : receive s (.triangle data) = .ok
      ({ s with
          triangleData_ := data
          lastLevelResults_ := (List.replicate data.length 0).set 0 (entry data 0 0) },
        [.startAtom], none) := by
    rw [receive, readEntry_eq hdata.triangular (by omega) (Nat.le_refl 0), pure_bind,
      writeInt_eq (by omega), pure_bind]
    rfl
  have hsquare : 9 ≤ (data.length + 1) * (data.length + 1) :=
    Nat.mul_le_mul (show 3 ≤ data.length + 1 by omega) (show 3 ≤ data.length + 1 by omega)
  refine ⟨(data.length + 1) * (data.length + 1) - 1, _, _, _, by omega, hreceive, ?_, ?_⟩
  · exact Phase.starting (by omega) h.level h.count rfl (Filled.first hlength (by omega)) (by omega)
  · rw [Reports]
    omega

/-- The additions of the row are handed out. -/
lemma advances_start (hdata : Suitable data) (hi : i + 1 < data.length)
    (hlevel : s.level_ = i + 1) (hcount : s.count_ = 0) (htriangle : s.triangleData_ = data)
    (hfilled : Filled data i (i + 1) s.lastLevelResults_)
    (hturns : turns + (i + 2) * (i + 2) = (data.length + 1) * (data.length + 1) + 3) :
    Advances data turns s .startAtom [] := by
  have hadd : ∀ j ∈ List.range (i + 2), ∃ mail : Mail,
      nextEntry (fun a b => pure (Mail.add a b j)) data s.lastLevelResults_ (i + 1) j
        = (pure mail : Except Exit Mail)
      ∧ mail.value? = some (j, least (entry data) (i + 1) j) ∧ mail.effort = 2 := by
    intro j hj
    obtain ⟨a, b, heq, hsum⟩ := nextEntry_eq (m := Except Exit) (fun a b => pure (Mail.add a b j))
      hdata.triangular hi (Nat.lt_succ_iff.mp (List.mem_range.mp hj)) hfilled
    exact ⟨.add a b j, heq, by rw [Mail.value?, hsum], rfl⟩
  choose! task htask using hadd
  have hreceive : receive s .startAtom = .ok (s, (List.range (i + 2)).map task, none) := by
    rw [receive, hlevel, htriangle, mapM_eq_pure fun j hj => (htask j hj).1]
    rfl
  have hvalues : ((List.range (i + 2)).map task).filterMap Mail.value?
      = (List.range (i + 2)).map fun j => (j, least (entry data) (i + 1) j) :=
    filterMap_map_range fun j hj => (htask j hj).2.1
  have heffort : (((List.range (i + 2)).map task).map Mail.effort).sum = (i + 2) * 2 :=
    sum_map_range fun j hj => (htask j hj).2.2
  have hgathers : Gathers data (i + 1) s ((List.range (i + 2)).map task) :=
    { level := hlevel
      triangle := htriangle
      length := hfilled.1
      count := by rw [hcount, List.length_map, List.length_range, Nat.zero_add]
      values := by
        intro mail hmail
        obtain ⟨j, hj, rfl⟩ := List.mem_map.mp hmail
        rw [(htask j hj).2.1, Option.isSome_some]
      gathering := hvalues ▸ Gathering.start _ _ _ }
  have hsquare : (i + 3) * (i + 3) = (i + 2) * (i + 2) + (2 * (i + 2) + 1) := by ring
  have hbound : (i + 2) * (i + 2) ≤ (data.length + 1) * (data.length + 1) :=
    Nat.mul_le_mul (by omega) (by omega)
  refine ⟨turns - 1, _, _, _, by omega, hreceive, ?_, ?_⟩
  · rw [List.nil_append]
    exact Phase.gathering hi (by simp) hgathers (by omega)
  · rw [Reports]
    omega

/-- The order of the mails does not matter. -/
lemma Gathers.perm {mails mails' : List Mail} (h : Gathers data i s mails)
    (hperm : mails.Perm mails') : Gathers data i s mails' where
  level := h.level
  triangle := h.triangle
  length := h.length
  count := hperm.length_eq ▸ h.count
  values := fun mail hmail => h.values mail (hperm.mem_iff.mpr hmail)
  gathering := h.gathering.perm (hperm.filterMap Mail.value?)

/-- A worker adds. -/
lemma Gathers.add {a b : ℤ} {position : ℕ} {others : List Mail} (hdata : Suitable data)
    (hi : i < data.length) (h : Gathers data i s (.add a b position :: others)) :
    receive s (.add a b position) = .ok (s, [.result (a + b) position], none)
      ∧ Gathers data i s (others ++ [.result (a + b) position]) := by
  obtain ⟨hlt, hright⟩ : position < i + 1 ∧ a + b = least (entry data) i position :=
    h.gathering.right (position, a + b) List.mem_cons_self
  have hfits : Fits (a + b) := hright ▸ hdata.fits i hi position (Nat.lt_succ_iff.mp hlt)
  refine ⟨by rw [receive, plus_eq hfits]; rfl, ?_⟩
  have hvalues : (others ++ [Mail.result (a + b) position]).Perm
      (.result (a + b) position :: others) := List.perm_append_singleton _ _
  exact
    { level := h.level
      triangle := h.triangle
      length := h.length
      count := by
        have hcount := h.count
        rw [List.length_cons] at hcount
        rw [List.length_append, List.length_singleton]
        omega
      values := by
        intro mail hmail
        rcases List.mem_cons.mp (hvalues.mem_iff.mp hmail) with rfl | hmail
        · rfl
        · exact h.values mail (List.mem_cons_of_mem _ hmail)
      gathering := h.gathering.perm (hvalues.filterMap Mail.value?).symm }

/-- A result is entered. -/
lemma Gathers.result {r : ℤ} {position : ℕ} {others : List Mail} (hi : i < data.length)
    (h : Gathers data i s (.result r position :: others)) :
    ∃ s' : State, receive s (.result r position) = .ok s'.next ∧ Gathers data i s' others := by
  have hlength := h.length
  have hcount := h.count
  have hlt : position < i + 1 := (h.gathering.right (position, r) List.mem_cons_self).1
  rw [List.length_cons] at hcount
  refine ⟨{ s with
      lastLevelResults_ := s.lastLevelResults_.set position r
      count_ := s.count_ + 1 }, ?_, ?_⟩
  · rw [receive, writeInt_eq (by omega), pure_bind]
    rfl
  · exact
      { level := h.level
        triangle := h.triangle
        length := by rw [List.length_set, hlength]
        count := (Nat.add_right_comm _ _ _).trans hcount
        values := fun mail hmail => h.values mail (List.mem_cons_of_mem _ hmail)
        gathering := h.gathering.arrive (p := (position, r))
          (List.getElem?_set_self (by omega)) fun k hk => List.getElem?_set_ne (Ne.symm hk) }

/-- All results of the row are there. -/
lemma Gathers.filled (h : Gathers data i s []) : Filled data i (i + 1) s.lastLevelResults_ :=
  ⟨h.length, h.gathering.done⟩

/-- A worker adds. -/
lemma advances_add {a b : ℤ} {position : ℕ} {others : List Mail} (hdata : Suitable data)
    (hi : i + 1 < data.length) (h : Gathers data (i + 1) s (.add a b position :: others))
    (hturns : turns + (i + 3) * (i + 3) = (data.length + 1) * (data.length + 1) + 3
      + ((Mail.add a b position :: others).map Mail.effort).sum) :
    Advances data turns s (.add a b position) others := by
  have hbound : (i + 3) * (i + 3) ≤ (data.length + 1) * (data.length + 1) :=
    Nat.mul_le_mul (by omega) (by omega)
  obtain ⟨hreceive, hgathers⟩ := h.add hdata hi
  rw [List.map_cons, List.sum_cons, Mail.effort_add] at hturns
  refine ⟨turns - 1, _, _, _, by omega, hreceive, ?_, ?_⟩
  · refine Phase.gathering hi (by simp) hgathers ?_
    rw [List.map_append, List.sum_append, List.map_singleton, List.sum_singleton,
      Mail.effort_result]
    omega
  · rw [Reports]
    omega

/-- What a result comes to. -/
lemma advances_next {s' : State} {mail : Mail} {others : List Mail} (hi : i + 1 < data.length)
    (hreceive : receive s mail = .ok s'.next) (h : Gathers data (i + 1) s' others)
    (hturns : turns + (i + 3) * (i + 3) = (data.length + 1) * (data.length + 1) + 3
      + (1 + (others.map Mail.effort).sum)) :
    Advances data turns s mail others := by
  have hbound : (i + 3) * (i + 3) ≤ (data.length + 1) * (data.length + 1) :=
    Nat.mul_le_mul (by omega) (by omega)
  have hlevel := h.level
  have hcount := h.count
  by_cases hothers : others = []
  · subst hothers
    have hfilled := h.filled
    rw [List.length_nil] at hcount
    rw [List.map_nil, List.sum_nil] at hturns
    by_cases hlast : i + 2 = data.length
    · -- the last row is complete
      have hnext : s'.next = ({ s' with level_ := 1, count_ := 0 }, [.endAtom], none) := by
        rw [State.next, if_pos (by omega), if_pos (by rw [h.triangle]; omega)]
      have hsquare : (data.length + 1) * (data.length + 1) = (i + 3) * (i + 3) := by rw [← hlast]
      refine ⟨3, _, _, _, by omega, hreceive.trans (congrArg _ hnext), ?_, Nat.zero_lt_succ 2⟩
      refine Phase.ending ⟨rfl, rfl⟩ ?_
      rw [← hlast]
      exact hfilled
    · -- the next row is begun
      have hnext : s'.next
          = ({ s' with level_ := s'.level_ + 1, count_ := 0 }, [.startAtom], none) := by
        rw [State.next, if_pos (by omega), if_neg (by rw [h.triangle]; omega)]
      refine ⟨turns - 1, _, _, _, by omega, hreceive.trans (congrArg _ hnext), ?_, ?_⟩
      · have hturns' : turns - 1 + (i + 1 + 2) * (i + 1 + 2)
            = (data.length + 1) * (data.length + 1) + 3 := by
          rw [show i + 1 + 2 = i + 3 from rfl]
          omega
        exact Phase.starting (by omega) (congrArg (· + 1) hlevel) rfl h.triangle hfilled hturns'
      · rw [Reports]
        omega
  · have hpos := List.length_pos_of_ne_nil hothers
    have hnext : s'.next = (s', [], none) := by
      rw [State.next, if_neg (by omega)]
    refine ⟨turns - 1, _, _, _, by omega, hreceive.trans (congrArg _ hnext), ?_, ?_⟩
    · rw [List.append_nil]
      exact Phase.gathering hi hothers h (by omega)
    · rw [Reports]
      omega

/-- The pool is asked for the least result, which is the answer. -/
lemma advances_end (hdata : Suitable data) (h : s.Fresh)
    (hfilled : Filled data (data.length - 1) data.length s.lastLevelResults_) :
    Advances data 3 s .endAtom [] := by
  refine ⟨2, _, _, _, rfl, rfl, Phase.comparing h ?_, Nat.zero_lt_succ 1⟩
  exact isLeast_of_row (hfilled.isRow hdata.triangular)
    (isLeast_numberCompare (hfilled.ne_nil hdata.triangular))

/-- **One turn.**  Whatever mail is dealt with next, the actor comes to the next phase, and with the
last turn to the answer. -/
theorem Phase.turn {mails others : List Mail} {mail : Mail} (hdata : Suitable data)
    (h : Phase data turns s mails) (hperm : mails.Perm (mail :: others)) :
    Advances data turns s mail others := by
  cases h with
  | asked h =>
      obtain ⟨rfl, rfl⟩ := List.cons_eq_cons.mp (List.singleton_perm.mp hperm)
      exact advances_triangle hdata h
  | starting hi hlevel hcount htriangle hfilled hturns =>
      obtain ⟨rfl, rfl⟩ := List.cons_eq_cons.mp (List.singleton_perm.mp hperm)
      exact advances_start hdata hi hlevel hcount htriangle hfilled hturns
  | gathering hi hne h hturns =>
      have hgathers := h.perm hperm
      rw [((hperm.map Mail.effort).sum_nat)] at hturns
      cases mail with
      | add a b position => exact advances_add hdata hi hgathers hturns
      | result r position =>
          obtain ⟨s', hreceive, hgathers'⟩ := hgathers.result hi
          exact advances_next hi hreceive hgathers' hturns
      | triangle | startAtom | endAtom | compare | final =>
          exact Bool.noConfusion (hgathers.values _ List.mem_cons_self)
  | ending h hfilled =>
      obtain ⟨rfl, rfl⟩ := List.cons_eq_cons.mp (List.singleton_perm.mp hperm)
      exact advances_end hdata h hfilled
  | comparing h hanswer =>
      obtain ⟨rfl, rfl⟩ := List.cons_eq_cons.mp (List.singleton_perm.mp hperm)
      exact ⟨1, _, _, _, rfl, rfl, Phase.compared h hanswer, Nat.zero_lt_succ 0⟩
  | compared h hanswer =>
      obtain ⟨rfl, rfl⟩ := List.cons_eq_cons.mp (List.singleton_perm.mp hperm)
      exact ⟨0, _, _, _, rfl, rfl, Phase.rest h, rfl, hanswer⟩
  | rest h => exact absurd hperm.length_eq (by simp)

/-- No turn is left when no mail is, and only then. -/
lemma Phase.rest_iff {mails : List Mail} (h : Phase data turns s mails) :
    turns = 0 ↔ mails = [] := by
  have hpos : mails ≠ [] → 0 < turns := by
    intro hne
    cases h with
    | asked h => exact Nat.mul_pos (Nat.succ_pos _) (Nat.succ_pos _)
    | @starting _ i _ hi hlevel hcount htriangle hfilled hturns =>
        have hbound : (i + 2) * (i + 2) ≤ (data.length + 1) * (data.length + 1) :=
          Nat.mul_le_mul (by omega) (by omega)
        omega
    | @gathering _ i _ _ hi hne h hturns =>
        have hbound : (i + 3) * (i + 3) ≤ (data.length + 1) * (data.length + 1) :=
          Nat.mul_le_mul (by omega) (by omega)
        omega
    | ending h hfilled => exact Nat.succ_pos 2
    | comparing h hanswer => exact Nat.succ_pos 1
    | compared h hanswer => exact Nat.succ_pos 0
    | rest h => exact absurd rfl hne
  constructor
  · rintro rfl
    by_contra hne
    exact Nat.lt_irrefl 0 (hpos hne)
  · rintro rfl
    cases h with
    | gathering hi hne h hturns => exact absurd rfl hne
    | rest h => rfl

/-- With no turn left, the actor is ready for the next table. -/
lemma Phase.fresh {mails : List Mail} (h : Phase data 0 s mails) : s.Fresh := by
  obtain rfl := h.rest_iff.mp rfl
  generalize hturns : 0 = turns at h
  cases h with
  | gathering hi hne h hturns => exact absurd rfl hne
  | rest h => exact h

end WithPriority

end Yanghui

end Cdcf
