import Mathlib.Data.List.Rotate
import Mathlib.Data.UInt

/-!
The placement policy `MinLoad` (`load_balancer/policy.cc`).

The policy takes a mail and the loads of the workers, starts one place further on than the last
time, and picks the first worker of least load from there.  Where all workers have reached the
threshold it holds the mail; else the mails that are held go first.

* `MinLoad.call`: one call; it has no result where `Rotate` would take a remainder by zero.
* `LeastFrom`: the first of the least loads in cyclic order.
* `MinLoad.call_of_ne_nil`: what a call with something to place does; `MinLoad.call_cases`: what
  any call can do.
-/

namespace Cdcf

namespace LoadBalancer

/-- `policy::MinLoadImpl` for mails `ν`. -/
structure MinLoad (ν : Type*) where
  rotated_ : ℕ := 2 ^ 64 - 1
  mails_ : List ν := []
  loadThresholdToHold_ : UInt64
  deriving DecidableEq, Repr

namespace MinLoad

variable {ν ι : Type*}

/-- `std::min_element`: the place of the first of the least elements. -/
def minElement : List UInt64 → ℕ
  | [] => 0
  | load :: loads => if loads.all (load ≤ ·) then 0 else minElement loads + 1

/-- `MinLoadImpl::Rotate`: the new `rotated_` and the loads from there on. -/
def rotate (p : MinLoad ν) (metrics : List UInt64) : Option (ℕ × List UInt64) :=
  if metrics.length = 0 then none
  else
    let rotated := (p.rotated_ + 1) % 2 ^ 64 % metrics.length
    some (rotated, metrics.rotate rotated)

/-- `MinLoadImpl::Hold`. -/
def hold (p : MinLoad ν) (mail : Option ν) : MinLoad ν :=
  { p with mails_ := p.mails_ ++ mail.toList }

/-- `MinLoadImpl::Release`: the mail to place now. -/
def release (p : MinLoad ν) (mail : Option ν) : Option ν × MinLoad ν :=
  match p.mails_ with
  | [] => (mail, p)
  | m :: mails => (some m, { p with mails_ := mails ++ mail.toList })

/-- `MinLoadImpl::operator()`: the worker that is chosen and the mail it gets, if any. -/
def call (p : MinLoad ν) (actors : List ι) (metrics : List UInt64) (mail : Option ν) :
    Option (MinLoad ν × Option ι × Option ν) :=
  if mail.isNone && p.mails_.isEmpty then some (p, none, none)
  else
    (p.rotate metrics).map fun (rotated, loads) =>
      let p := { p with rotated_ := rotated }
      let selected := minElement loads
      if loads.getD selected 0 ≥ p.loadThresholdToHold_ then (p.hold mail, none, none)
      else
        let (next, p) := p.release mail
        (p, actors[(rotated + selected) % actors.length]?, next)

/-! ### Least elements -/

lemma minElement_lt {loads : List UInt64} (h : loads ≠ []) : minElement loads < loads.length := by
  induction loads with
  | nil => exact absurd rfl h
  | cons load loads ih =>
      rw [minElement, List.length_cons]
      split
      · exact Nat.succ_pos _
      · next hnot =>
          have hne : loads ≠ [] := by
            rintro rfl
            simp at hnot
          have := ih hne
          omega

/-- The element at that place is not above any other. -/
lemma getD_minElement_le {loads : List UInt64} {load : UInt64} (h : load ∈ loads) :
    loads.getD (minElement loads) 0 ≤ load := by
  induction loads generalizing load with
  | nil => exact absurd h List.not_mem_nil
  | cons first loads ih =>
      rw [minElement]
      split
      · next hall =>
          rcases List.mem_cons.mp h with rfl | h
          · exact UInt64.le_refl _
          · simpa using List.all_eq_true.mp hall load h
      · next hnot =>
          rw [List.getD_cons_succ]
          rcases List.mem_cons.mp h with rfl | h
          · obtain ⟨x, hx, hlt⟩ : ∃ x ∈ loads, ¬load ≤ x := by simpa using hnot
            exact UInt64.le_trans (ih hx) (UInt64.le_of_lt (UInt64.not_le.mp hlt))
          · exact ih h

/-- No element before that place is as small. -/
lemma lt_of_lt_minElement {loads : List UInt64} {e : ℕ} {other : UInt64}
    (he : e < minElement loads) (hother : loads[e]? = some other) :
    loads.getD (minElement loads) 0 < other := by
  induction loads generalizing e with
  | nil => simp at hother
  | cons first loads ih =>
      rw [minElement] at he ⊢
      split at he
      · exact absurd he (Nat.not_lt_zero e)
      · next hnot =>
          rw [if_neg hnot, List.getD_cons_succ]
          obtain ⟨x, hx, hlt⟩ : ∃ x ∈ loads, ¬first ≤ x := by simpa using hnot
          cases e with
          | zero =>
              rw [List.getElem?_cons_zero, Option.some_inj] at hother
              rw [← hother]
              exact UInt64.lt_of_le_of_lt (getD_minElement_le hx) (UInt64.not_le.mp hlt)
          | succ e => exact ih (Nat.lt_of_succ_lt_succ he) (by simpa using hother)

/-- The place `i` holds the first of the least loads in the cyclic order that starts at `start`. -/
structure LeastFrom (metrics : List UInt64) (start i : ℕ) (load : UInt64) : Prop where
  getElem? : metrics[i]? = some load
  least : ∀ other ∈ metrics, load ≤ other
  first : ∃ d < metrics.length, i = (start + d) % metrics.length
    ∧ ∀ e < d, ∀ other ∈ metrics[(start + e) % metrics.length]?, load < other

/-- The least element of the rotated loads, mapped back to its place. -/
lemma leastFrom_minElement {metrics : List UInt64} (hne : metrics ≠ []) (start : ℕ) :
    LeastFrom metrics start ((start + minElement (metrics.rotate start)) % metrics.length)
      ((metrics.rotate start).getD (minElement (metrics.rotate start)) 0) := by
  have hrotate : metrics.rotate start ≠ [] := by simpa using hne
  have hlt := minElement_lt hrotate
  rw [List.length_rotate] at hlt
  have hback : ∀ e < metrics.length,
      metrics[(start + e) % metrics.length]? = (metrics.rotate start)[e]? := fun e he => by
    rw [List.getElem?_rotate he, Nat.add_comm]
  refine ⟨?_, fun other hother => getD_minElement_le (List.mem_rotate.mpr hother),
    minElement (metrics.rotate start), hlt, rfl, fun e he other hother => ?_⟩
  · rw [hback _ hlt, List.getD_eq_getElem?_getD, List.getElem?_eq_getElem (by simpa using hlt)]
    rfl
  · rw [hback e (he.trans hlt)] at hother
    exact lt_of_lt_minElement he hother

/-! ### One call -/

/-- `Rotate` starts the loads at another place. -/
lemma rotate_eq {p : MinLoad ν} {metrics : List UInt64} (hne : metrics ≠ []) :
    p.rotate metrics = some ((p.rotated_ + 1) % 2 ^ 64 % metrics.length,
      metrics.rotate ((p.rotated_ + 1) % 2 ^ 64 % metrics.length)) := by
  have hpos := List.length_pos_of_ne_nil hne
  rw [rotate, if_neg (by omega)]

/-- There is nothing to place: no new mail and none that is held. -/
lemma idle_iff {p : MinLoad ν} {mail : Option ν} :
    (mail.isNone && p.mails_.isEmpty) = true ↔ p.mails_ ++ mail.toList = [] := by
  cases mail <;> simp

/-- With something to place and nothing to place it on, there is no result. -/
lemma call_eq_none_iff {p : MinLoad ν} (actors : List ι) {metrics : List UInt64}
    {mail : Option ν} :
    p.call actors metrics mail = none ↔ metrics = [] ∧ p.mails_ ++ mail.toList ≠ [] := by
  rw [call]
  split
  · next h => simp [idle_iff.mp h]
  · next h =>
      rw [idle_iff] at h
      rw [Option.map_eq_none_iff]
      by_cases hnil : metrics = []
      · simp [hnil, h, rotate]
      · simp [hnil, rotate_eq hnil]

/-- Released is the first of the mails that are there. -/
lemma release_eq {p : MinLoad ν} {mail : Option ν} (h : p.mails_ ++ mail.toList ≠ []) :
    ∃ m mails, p.mails_ ++ mail.toList = m :: mails
      ∧ p.release mail = (some m, { p with mails_ := mails }) := by
  obtain ⟨rotated, held, threshold⟩ := p
  cases held with
  | nil =>
      cases mail with
      | none => exact absurd rfl h
      | some m => exact ⟨m, [], rfl, rfl⟩
  | cons m mails => exact ⟨m, mails ++ mail.toList, rfl, rfl⟩

/-- A call without anything to place does nothing. -/
lemma call_of_idle {p : MinLoad ν} (actors : List ι) (metrics : List UInt64) {mail : Option ν}
    (h : p.mails_ ++ mail.toList = []) : p.call actors metrics mail = some (p, none, none) := by
  rw [call, if_pos (idle_iff.mpr h)]

/-- A call with something to place moves on by one place.  Where all loads have reached the
threshold it adds the new mail to those it holds, else it places the first of the mails on the first
worker of least load from the new place on. -/
lemma call_of_ne_nil {p : MinLoad ν} {actors : List ι} {metrics : List UInt64} {mail : Option ν}
    (hlen : metrics.length = actors.length) (hne : metrics ≠ [])
    (h : p.mails_ ++ mail.toList ≠ []) :
    ∃ p' worker? next?, p.call actors metrics mail = some (p', worker?, next?)
      ∧ p'.rotated_ = (p.rotated_ + 1) % 2 ^ 64 % metrics.length
      ∧ p'.loadThresholdToHold_ = p.loadThresholdToHold_ ∧
        (worker? = none ∧ next? = none ∧ p'.mails_ = p.mails_ ++ mail.toList
            ∧ (∀ load ∈ metrics, p.loadThresholdToHold_ ≤ load)
          ∨ ∃ i worker m load, worker? = some worker ∧ next? = some m
            ∧ p.mails_ ++ mail.toList = m :: p'.mails_ ∧ actors[i]? = some worker
            ∧ LeastFrom metrics p'.rotated_ i load ∧ load < p.loadThresholdToHold_) := by
  let start := (p.rotated_ + 1) % 2 ^ 64 % metrics.length
  have hfirst := leastFrom_minElement hne start
  obtain ⟨m, mails, hmails, hrelease⟩ := release_eq (p := { p with rotated_ := start }) h
  rw [call, if_neg (fun hidle => h (idle_iff.mp hidle)), rotate_eq hne]
  simp only [Option.map_some]
  by_cases hload : (metrics.rotate start).getD (minElement (metrics.rotate start)) 0
      ≥ p.loadThresholdToHold_
  · refine ⟨{ p with rotated_ := start }.hold mail, none, none, congrArg some (if_pos hload), rfl,
      rfl, Or.inl ⟨rfl, rfl, rfl, ?_⟩⟩
    exact fun load hmem => UInt64.le_trans hload (hfirst.least load hmem)
  · let i := (start + minElement (metrics.rotate start)) % metrics.length
    have hi : i < actors.length := hlen ▸ Nat.mod_lt _ (List.length_pos_of_ne_nil hne)
    have hworker : actors[i]? = some actors[i] := List.getElem?_eq_getElem hi
    refine ⟨{ p with rotated_ := start, mails_ := mails }, some actors[i], some m, ?_, rfl, rfl,
      Or.inr ⟨i, actors[i], m, _, rfl, rfl, hmails, hworker, hfirst, UInt64.not_le.mp hload⟩⟩
    rw [if_neg hload, hrelease, ← hworker, ← hlen]

/-- A call leaves the mails where they are and adds the new one, or places the first of them on
a worker of least load below the threshold. -/
lemma call_cases {p p' : MinLoad ν} {actors : List ι} {metrics : List UInt64}
    {mail : Option ν} {worker? : Option ι} {next? : Option ν}
    (hlen : metrics.length = actors.length)
    (h : p.call actors metrics mail = some (p', worker?, next?)) :
    p'.loadThresholdToHold_ = p.loadThresholdToHold_ ∧
      (worker? = none ∧ next? = none ∧ p'.mails_ = p.mails_ ++ mail.toList
        ∨ ∃ (n : ℕ) (worker : ι) (m : ν) (load : UInt64), worker? = some worker
          ∧ next? = some m ∧ p.mails_ ++ mail.toList = m :: p'.mails_
          ∧ actors[n]? = some worker ∧ metrics[n]? = some load
          ∧ load < p.loadThresholdToHold_ ∧ ∀ other ∈ metrics, load ≤ other) := by
  by_cases hidle : p.mails_ ++ mail.toList = []
  · rw [call_of_idle actors metrics hidle, Option.some_inj, Prod.mk.injEq, Prod.mk.injEq] at h
    obtain ⟨rfl, rfl, rfl⟩ := h
    obtain ⟨hmails, hmail⟩ := List.append_eq_nil_iff.mp hidle
    exact ⟨rfl, Or.inl ⟨rfl, rfl, by rw [hmails, hmail, List.append_nil]⟩⟩
  · have hne : metrics ≠ [] := fun hnil => by
      rw [(call_eq_none_iff actors).mpr ⟨hnil, hidle⟩] at h
      simp at h
    obtain ⟨q, worker', next', hcall, -, hthreshold, hplaced⟩ := call_of_ne_nil hlen hne hidle
    rw [hcall, Option.some_inj, Prod.mk.injEq, Prod.mk.injEq] at h
    obtain ⟨rfl, rfl, rfl⟩ := h
    refine ⟨hthreshold, ?_⟩
    rcases hplaced with ⟨hworker, hnext, hmails, -⟩ |
      ⟨i, worker, m, load, hworker, hnext, hmails, hactor, hfirst, hlt⟩
    · exact Or.inl ⟨hworker, hnext, hmails⟩
    · exact Or.inr ⟨i, worker, m, load, hworker, hnext, hmails, hactor, hfirst.getElem?, hlt,
        hfirst.least⟩

end MinLoad

end LoadBalancer

end Cdcf
