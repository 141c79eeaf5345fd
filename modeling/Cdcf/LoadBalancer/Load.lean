import Cdcf.LoadBalancer.Router

/-!
The loads of the workers.

The load of a worker counts up with every mail that is relayed to it and down with every response
that it sends.  The count is exact as long as the responses that reach it answer something.

* `outstanding`: the ids relayed to a worker since it was last added that it has not answered;
* `Exact`: the loads are those of the workers, they count what is outstanding, and they are not
  above the threshold;
* `Accountable`: the condition on a mail that keeps them exact;
* `exact_always_iff`: both over a run.
-/

namespace Cdcf

namespace LoadBalancer

open Sample

variable {μ ι α : Type*} [MessageId μ] [DecidableEq μ] [DecidableEq ι]

/-- The id under which a mail was relayed to the worker. -/
def Effect.relayedTo (w : ι) : Effect μ ι α → Option μ
  | .relay worker newId _ => if worker = w then some newId else none
  | _ => none

/-- The worker is monitored from now on. -/
def Effect.attaches (w : ι) : Effect μ ι α → Bool
  | .attach worker => worker = w
  | _ => false

omit [MessageId μ] [DecidableEq μ] in
lemma any_attaches {effects : List (Effect μ ι α)} {w : ι} :
    effects.any (Effect.attaches w) = true ↔ Effect.attach w ∈ effects := by
  rw [List.any_eq_true]
  constructor
  · rintro ⟨effect, heffect, hw⟩
    cases effect with
    | attach worker =>
        rw [Effect.attaches, decide_eq_true_eq] at hw
        exact hw ▸ heffect
    | _ => simp [Effect.attaches] at hw
  · exact fun h => ⟨_, h, by simp [Effect.attaches]⟩

/-- The mail is a response of the worker to what was relayed under the id. -/
def Mail.answers (what : Mail μ ι α) (w : ι) (id : μ) : Bool :=
  what.sender = some w && isResponse what.mid && responseId id = what.mid

/-- The ids relayed to the worker since it was last added that it has not answered, from the log
of the calls, the latest first. -/
def outstanding (w : ι) : List (Mail μ ι α × List (Effect μ ι α)) → List μ
  | [] => []
  | (what, effects) :: log =>
      let left :=
        if effects.any (Effect.attaches w) then []
        else (outstanding w log).eraseP (what.answers w)
      left ++ effects.filterMap (Effect.relayedTo w)

namespace World

/-- The mail is a response of the worker to something outstanding. -/
def Answers (s : World μ ι α) (w : ι) (what : Mail μ ι α) : Prop :=
  ∃ id ∈ outstanding w s.log, what.answers w id = true

/-- The loads are those of the workers, they are what is outstanding, and not above the
threshold. -/
structure Exact (s : World μ ι α) : Prop where
  keyed : s.router.Keyed
  load : ∀ w ∈ s.router.workers_, ∃ load, s.router.metrics_ (some w) = some load
    ∧ load.toNat = (outstanding w s.log).length ∧ load ≤ s.router.policy_.loadThresholdToHold_

/-- The condition on a mail: a response that is handed on answers something outstanding at a
worker; a mail that is placed finds a worker; and a mail that `Filter` takes is no answer, unless
it takes the worker away that sent it, and no `get` without a sender. -/
def Accountable (s : World μ ι α) (what : Mail μ ι α) : Prop :=
  if s.router.takes what then
    ¬(what.content = .get ∧ what.sender = none)
      ∧ ∀ w ∈ s.router.workers_, s.Answers w what → s.router.removes what.content w = true
  else if isResponse what.mid then ∃ w ∈ s.router.workers_, s.Answers w what
  else s.router.workers_ ≠ []

end World

/-! ### One call -/

namespace Router

/-- Placing a mail counts the load of its worker up, below the threshold, and nothing else. -/
structure Counts (r r' : Router μ ι α) (effects : List (Effect μ ι α)) : Prop where
  workers_eq : r'.workers_ = r.workers_
  threshold_eq : r'.policy_.loadThresholdToHold_ = r.policy_.loadThresholdToHold_
  keys : ∀ k, (r'.metrics_ k).isSome = (r.metrics_ k).isSome
  load : ∀ w ∈ r.workers_, ∀ load, r.metrics_ (some w) = some load →
    (effects.filterMap (Effect.relayedTo w) = [] ∧ r'.metrics_ (some w) = some load)
      ∨ ((effects.filterMap (Effect.relayedTo w)).length = 1
        ∧ load < r.policy_.loadThresholdToHold_ ∧ r'.metrics_ (some w) = some (load + 1))
  attach : ∀ w, Effect.attach w ∉ effects

lemma route_counts {r r' : Router μ ι α} {mail : Option (Mail μ ι α)}
    {effects : List (Effect μ ι α)} (hr : r.Metered) (h : r.route mail = .ok (r', effects)) :
    r.Counts r' effects := by
  obtain ⟨policy, hthreshold, hcases⟩ := route_cases hr h
  rcases hcases with ⟨rfl, rfl, -⟩ | ⟨worker, m, load, hw, hload, hlt, -, rfl, rfl⟩
  · exact ⟨rfl, hthreshold, fun _ => rfl, fun _ _ _ hload => Or.inl ⟨rfl, hload⟩, by simp⟩
  · refine ⟨rfl, hthreshold, fun k => ?_, fun w hw' load' hload' => ?_, by simp⟩
    · by_cases hk : k = some worker
      · simp [hk, hload]
      · simp [Function.update_of_ne hk]
    · by_cases hww : worker = w
      · subst hww
        obtain rfl : load = load' := by
          rw [hload] at hload'
          exact Option.some_inj.mp hload'
        exact Or.inr ⟨by simp [Effect.relayedTo], hlt, by simp⟩
      · refine Or.inl ⟨by simp [Effect.relayedTo, hww], ?_⟩
        simpa only [Function.update_of_ne (fun h => hww (Option.some_inj.mp h).symm)] using hload'

omit [MessageId μ] [DecidableEq μ] in
/-- The count goes up with the mails relayed. -/
lemma Counts.load_eq {r r' : Router μ ι α} {effects : List (Effect μ ι α)}
    (h : r.Counts r' effects) {w : ι} (hw : w ∈ r.workers_) {load : UInt64}
    (hload : r.metrics_ (some w) = some load) (hle : load ≤ r.policy_.loadThresholdToHold_) :
    ∃ load', r'.metrics_ (some w) = some load'
      ∧ load'.toNat = load.toNat + (effects.filterMap (Effect.relayedTo w)).length
      ∧ load' ≤ r'.policy_.loadThresholdToHold_ := by
  rw [h.threshold_eq]
  rcases h.load w hw load hload with ⟨hnone, hload'⟩ | ⟨hone, hlt, hload'⟩
  · exact ⟨load, hload', by rw [hnone]; rfl, hle⟩
  · have hlt' := UInt64.lt_iff_toNat_lt.mp hlt
    have hmax := r.policy_.loadThresholdToHold_.toNat_lt
    have hsucc : (load + 1).toNat = load.toNat + 1 := by
      rw [UInt64.toNat_add]
      exact Nat.mod_eq_of_lt (show load.toNat + 1 < 2 ^ 64 by omega)
    refine ⟨load + 1, hload', by rw [hone, hsucc], ?_⟩
    rw [UInt64.le_iff_toNat_le, hsucc]
    omega

end Router

namespace World

/-- An answer is sent by the worker. -/
lemma Answers.sender_eq {s : World μ ι α} {w : ι} {what : Mail μ ι α} (h : s.Answers w what) :
    what.sender = some w := by
  obtain ⟨id, -, hanswers⟩ := h
  simp only [Mail.answers, Bool.and_eq_true, decide_eq_true_eq] at hanswers
  exact hanswers.1.1

/-- An answer takes one id from what is outstanding. -/
lemma length_eraseP_answers (s : World μ ι α) (w : ι) (what : Mail μ ι α) :
    s.Answers w what ∧ ((outstanding w s.log).eraseP (what.answers w)).length + 1
        = (outstanding w s.log).length
      ∨ ¬s.Answers w what ∧ (outstanding w s.log).eraseP (what.answers w)
        = outstanding w s.log := by
  by_cases h : s.Answers w what
  · obtain ⟨id, hid, hanswers⟩ := h
    have hlen := List.length_eraseP_of_mem hid hanswers
    have hpos := List.length_pos_of_mem hid
    exact Or.inl ⟨⟨id, hid, hanswers⟩, by omega⟩
  · refine Or.inr ⟨h, List.eraseP_of_forall_not fun id hid hanswers => h ⟨id, hid, hanswers⟩⟩

/-- What is outstanding at a worker that the call does not add. -/
lemma outstanding_cons {effects : List (Effect μ ι α)} {w : ι}
    (hattach : Effect.attach w ∉ effects) (what : Mail μ ι α)
    (log : List (Mail μ ι α × List (Effect μ ι α))) :
    outstanding w ((what, effects) :: log)
      = (outstanding w log).eraseP (what.answers w) ++ effects.filterMap (Effect.relayedTo w) := by
  rw [outstanding, if_neg (fun h => hattach (any_attaches.mp h))]

omit [MessageId μ] [DecidableEq μ] in
lemma filterMap_relayedTo_eq_nil {effects : List (Effect μ ι α)}
    (h : ∀ worker newId mail, .relay worker newId mail ∉ effects) (w : ι) :
    effects.filterMap (Effect.relayedTo w) = [] := by
  rw [List.filterMap_eq_nil_iff]
  intro effect heffect
  cases effect with
  | relay worker newId mail => exact absurd heffect (h worker newId mail)
  | _ => rfl

/-- A mail that `Filter` takes leaves the loads exact unless it answers and its sender stays. -/
lemma exact_filter_iff {s : World μ ι α} {what : Mail μ ι α} {r' : Router μ ι α}
    {effects : List (Effect μ ι α)} (hr : s.router.Metered) (hs : s.Exact)
    (h : s.router.filter what = some (.ok (r', effects))) :
    Exact ⟨r', (what, effects) :: s.log⟩
      ↔ ∀ w ∈ s.router.workers_, s.Answers w what → s.router.removes what.content w = true := by
  have hseats := Router.filter_reseats hr h
  have heffects := Router.filter_effects h
  have hrelay := filterMap_relayedTo_eq_nil heffects.relay
  have hstay : ∀ w ∈ s.router.workers_,
      outstanding w ((what, effects) :: s.log) = (outstanding w s.log).eraseP (what.answers w) := by
    intro w hw
    rw [outstanding_cons (fun hadd => ((heffects.attach w).mp hadd).2 hw), hrelay w,
      List.append_nil]
  constructor
  · intro hexact w hw hanswers
    by_contra hkeep
    have hw' : w ∈ r'.workers_ := (hseats.mem_workers w).mpr (Or.inl ⟨hw, hkeep⟩)
    obtain ⟨load, hload, hcount, -⟩ := hs.load w hw
    obtain ⟨load', hload', hcount', -⟩ := hexact.load w hw'
    have hsame : load' = load := by
      have heq := hseats.load_eq w hw'
      rw [hload, Option.getD_some, hload'] at heq
      exact Option.some_inj.mp heq
    rcases s.length_eraseP_answers w what with ⟨-, hlen⟩ | ⟨hnot, -⟩
    · rw [hstay w hw, hsame] at hcount'
      omega
    · exact hnot hanswers
  · intro hremoves
    refine ⟨hseats.keyed hs.keyed, fun w hw' => ?_⟩
    have hload := hseats.load_eq w hw'
    rw [hseats.policy_eq]
    by_cases hw : w ∈ s.router.workers_
    · obtain ⟨load, hold, hcount, hle⟩ := hs.load w hw
      rw [hold, Option.getD_some] at hload
      refine ⟨load, hload, ?_, hle⟩
      rw [hstay w hw]
      rcases s.length_eraseP_answers w what with ⟨hanswers, -⟩ | ⟨-, heq⟩
      · -- the sender of an answer is removed, so it is no worker unless it is put back
        rcases (hseats.mem_workers w).mp hw' with ⟨-, hkeep⟩ | hput
        · exact absurd (hremoves w hw hanswers) hkeep
        · have hrem := hremoves w hw hanswers
          rw [hput] at hrem
          exact absurd hrem Bool.false_ne_true
      · rw [heq, hcount]
    · -- a worker that is added starts from nothing
      have hput : what.content = .put w :=
        ((hseats.mem_workers w).mp hw').resolve_left fun h => hw h.1
      have hattach : effects.any (Effect.attaches w) = true :=
        any_attaches.mpr ((heffects.attach w).mpr ⟨hput, hw⟩)
      have hnone : s.router.metrics_ (some w) = none := by
        rw [← Option.not_isSome_iff_eq_none, hs.keyed]
        rintro ⟨v, hv, heq⟩
        exact hw (Option.some_inj.mp heq ▸ hv)
      rw [hnone, Option.getD_none] at hload
      refine ⟨0, hload, ?_, UInt64.le_iff_toNat_le.mpr (Nat.zero_le _)⟩
      rw [outstanding, if_pos hattach, hrelay w]
      rfl

/-- A mail that is placed leaves the loads exact. -/
lemma exact_mail {s : World μ ι α} {what : Mail μ ι α} {r' : Router μ ι α}
    {effects : List (Effect μ ι α)} (hr : s.router.Metered) (hs : s.Exact)
    (hresp : isResponse what.mid = false)
    (h : s.router.route (some what) = .ok (r', effects)) :
    Exact ⟨r', (what, effects) :: s.log⟩ := by
  have hcounts := Router.route_counts hr h
  refine ⟨fun k => ?_, fun w hw => ?_⟩
  · rw [hcounts.keys, hcounts.workers_eq]
    exact hs.keyed k
  · rw [hcounts.workers_eq] at hw
    obtain ⟨load, hload, hcount, hle⟩ := hs.load w hw
    obtain ⟨load', hload', hcount', hle'⟩ := hcounts.load_eq hw hload hle
    refine ⟨load', hload', ?_, hle'⟩
    have hnot : ¬s.Answers w what := by
      rintro ⟨id, -, hanswers⟩
      simp [Mail.answers, hresp] at hanswers
    rw [outstanding_cons (hcounts.attach w), List.length_append, hcount', hcount]
    rw [((s.length_eraseP_answers w what).resolve_left fun h => hnot h.1).2]

/-- A counter that is counted down is not what it was. -/
lemma toNat_sub_one_ne (load : UInt64) : (load - 1).toNat ≠ load.toNat := by
  rw [UInt64.toNat_sub]
  have := load.toNat_lt
  simp
  omega

/-- What is outstanding after a response that is handed on. -/
lemma outstanding_response {s : World μ ι α} {what : Mail μ ι α} {relays : List (Effect μ ι α)}
    {w : ι} (hattach : Effect.attach w ∉ relays) :
    outstanding w ((what, (s.router.proxy_.reply what s.router.workers_).2 ++ relays) :: s.log)
      = (outstanding w s.log).eraseP (what.answers w)
        ++ relays.filterMap (Effect.relayedTo w) := by
  have hreplies : (s.router.proxy_.reply what s.router.workers_).2.filterMap
      (Effect.relayedTo w) = [] := by
    refine filterMap_relayedTo_eq_nil (fun worker newId mail hmem => ?_) w
    obtain ⟨client, id, heq⟩ := Proxy.mem_reply hmem
    simp at heq
  rw [outstanding_cons, List.filterMap_append, hreplies, List.nil_append]
  intro hmem
  rcases List.mem_append.mp hmem with hmem | hmem
  · obtain ⟨client, id, heq⟩ := Proxy.mem_reply hmem
    simp at heq
  · exact hattach hmem

/-- A response after which the loads are exact answers something outstanding at a worker. -/
lemma answers_of_exact {s : World μ ι α} {what : Mail μ ι α} {r' : Router μ ι α}
    {relays : List (Effect μ ι α)} (hs : s.Exact)
    (hcounts : ((s.router.discharge what.sender).reply what).1.Counts r' relays)
    (hexact : Exact ⟨r', (what, (s.router.proxy_.reply what s.router.workers_).2 ++ relays)
      :: s.log⟩) : ∃ w ∈ s.router.workers_, s.Answers w what := by
  -- the sender has a load now, so it is a worker
  obtain ⟨w, hw, hsender⟩ : ∃ w ∈ s.router.workers_, what.sender = some w := by
    have hkey := (hexact.keyed what.sender).mp (by
      rw [hcounts.keys]
      simp [Router.discharge])
    rwa [hcounts.workers_eq] at hkey
  refine ⟨w, hw, ?_⟩
  by_contra hnot
  obtain ⟨load, hload, hcount, -⟩ := hs.load w hw
  obtain ⟨load', hload', hcount', -⟩ := hexact.load w (by rw [hcounts.workers_eq]; exact hw)
  rw [outstanding_response (hcounts.attach w),
    ((s.length_eraseP_answers w what).resolve_left fun h => hnot h.1).2,
    List.length_append] at hcount'
  have hdischarged := Router.metrics_response what hload
  rw [if_pos hsender] at hdischarged
  rcases hcounts.load w hw _ hdischarged with ⟨hnone, hload''⟩ | ⟨hone, -, hload''⟩
  · rw [hload', Option.some_inj] at hload''
    rw [hnone, hload'', ← hcount] at hcount'
    exact toNat_sub_one_ne load hcount'
  · rw [hload', Option.some_inj, UInt64.sub_add_cancel] at hload''
    rw [hone, hload'', hcount] at hcount'
    omega

/-- A response that answers something outstanding at a worker leaves the loads exact. -/
lemma exact_of_answers {s : World μ ι α} {what : Mail μ ι α} {r' : Router μ ι α}
    {relays : List (Effect μ ι α)} (hs : s.Exact)
    (hcounts : ((s.router.discharge what.sender).reply what).1.Counts r' relays) {w : ι}
    (hw : w ∈ s.router.workers_) (hanswers : s.Answers w what) :
    Exact ⟨r', (what, (s.router.proxy_.reply what s.router.workers_).2 ++ relays) :: s.log⟩ := by
  have hsender := hanswers.sender_eq
  refine ⟨fun k => ?_, fun v hv => ?_⟩
  · rw [hcounts.keys, hcounts.workers_eq]
    by_cases hk : k = some w
    · simp only [Router.metrics_reply, Router.discharge, hk, hsender, Function.update_self,
        Option.isSome_some, true_iff]
      exact ⟨w, hw, rfl⟩
    · simp only [Router.metrics_reply, Router.discharge, hsender, Function.update_of_ne hk]
      exact hs.keyed k
  rw [hcounts.workers_eq] at hv
  obtain ⟨load, hload, hcount, hle⟩ := hs.load v hv
  have hdischarged := Router.metrics_response what hload
  by_cases hvw : what.sender = some v
  · -- the sender: the count was one more
    obtain rfl : w = v := Option.some_inj.mp (hsender.symm.trans hvw)
    have hlen := ((s.length_eraseP_answers w what).resolve_right fun h => h.1 hanswers).2
    have hpred : (load - 1).toNat + 1 = load.toNat := by
      have hone : (1 : UInt64) ≤ load := UInt64.le_iff_toNat_le.mpr (by
        rw [hcount, ← hlen]
        exact Nat.le_add_left _ _)
      rw [UInt64.toNat_sub_of_le _ _ hone]
      exact Nat.sub_add_cancel (UInt64.le_iff_toNat_le.mp hone)
    have hpred_le : load - 1 ≤ s.router.policy_.loadThresholdToHold_ := by
      rw [UInt64.le_iff_toNat_le] at hle ⊢
      omega
    rw [if_pos hvw] at hdischarged
    obtain ⟨load', hload', hcount', hle'⟩ := hcounts.load_eq hv hdischarged hpred_le
    refine ⟨load', hload', ?_, hle'⟩
    rw [outstanding_response (hcounts.attach w), List.length_append, hcount']
    omega
  · -- any other worker
    have hnot : ¬s.Answers v what := fun h => hvw h.sender_eq
    rw [if_neg hvw] at hdischarged
    obtain ⟨load', hload', hcount', hle'⟩ := hcounts.load_eq hv hdischarged hle
    refine ⟨load', hload', ?_, hle'⟩
    rw [outstanding_response (hcounts.attach v), List.length_append, hcount', hcount,
      ((s.length_eraseP_answers v what).resolve_left fun h => hnot h.1).2]

/-- A response leaves the loads exact if and only if it answers something outstanding at a
worker. -/
lemma exact_response_iff {s : World μ ι α} {what : Mail μ ι α} {r' : Router μ ι α}
    {relays : List (Effect μ ι α)} (hr : s.router.Metered) (hs : s.Exact)
    (h : ((s.router.discharge what.sender).reply what).1.route none = .ok (r', relays)) :
    Exact ⟨r', (what, (s.router.proxy_.reply what s.router.workers_).2 ++ relays) :: s.log⟩
      ↔ ∃ w ∈ s.router.workers_, s.Answers w what := by
  have hcounts := Router.route_counts (hr.discharge_reply what) h
  constructor
  · exact answers_of_exact hs hcounts
  · rintro ⟨w, hw, hanswers⟩
    exact exact_of_answers hs hcounts hw hanswers

/-- One call out of a state with exact loads: it has a result with exact loads if and only if the
mail meets the condition. -/
lemma exact_step_iff {s : World μ ι α} (hr : s.router.Metered) (hs : s.Exact)
    (what : Mail μ ι α) :
    (∃ s', step (.ok s) what = .ok s' ∧ s'.Exact) ↔ s.Accountable what := by
  have herror := Router.enqueue_eq_error_iff hr what
  cases hcall : s.router.enqueue what with
  | error fault =>
      rw [iff_false_left (not_exists_step_of_error hcall Exact), Accountable]
      rcases (herror fault).mp hcall with ⟨-, hget, hsender⟩ | ⟨-, htakes, hworkers, -⟩
      · simp [Router.takes, hget, hsender, Content.isControl]
      · simp [htakes, hworkers]
  | ok result =>
      obtain ⟨r', effects⟩ := result
      have hdefined : ∀ fault, s.router.enqueue what ≠ .error fault := by
        simp [hcall]
      rw [exists_step_of_ok hcall, Accountable]
      rcases Router.enqueue_cases hcall with
        ⟨htakes, hfilter⟩ | ⟨htakes, hresp, hroute⟩ | ⟨htakes, hresp, relays, rfl, hroute⟩
      · have hget : ¬(what.content = .get ∧ what.sender = none) := fun h =>
          hdefined .noSender ((herror _).mpr (Or.inl ⟨rfl, h⟩))
        rw [if_pos htakes, exact_filter_iff hr hs hfilter]
        exact ⟨fun h => ⟨hget, h⟩, fun h => h.2⟩
      · have hworkers : s.router.workers_ ≠ [] := fun h =>
          hdefined .noWorkers ((herror _).mpr (Or.inr ⟨rfl, htakes, h, by simp [hresp]⟩))
        simp only [htakes, hresp, Bool.false_eq_true, if_false]
        exact iff_of_true (exact_mail hr hs hresp hroute) hworkers
      · simp only [htakes, hresp, Bool.false_eq_true, if_false, if_true]
        exact exact_response_iff hr hs hroute

end World

/-- The loads are exact all along a run if and only if every mail meets the condition in the
state in which it arrives. -/
theorem exact_always_iff (loadThresholdToHold : UInt64) (mails : List (Mail μ ι α)) :
    Run.Always World.step (fun s => ∃ w, s = .ok w ∧ w.Exact)
        (.ok (World.make loadThresholdToHold)) mails
      ↔ Run.Each World.step (fun s what => ∃ w, s = .ok w ∧ w.Accountable what)
        (.ok (World.make loadThresholdToHold)) mails := by
  have hexact : (World.make loadThresholdToHold : World μ ι α).Exact :=
    ⟨fun k => by simp [World.make, Router.make], fun _ hw => absurd hw List.not_mem_nil⟩
  exact World.always_ok_iff_each (fun s what hr hs => World.exact_step_iff hr hs what)
    (fun _ _ => World.metered_step) (World.metered_make loadThresholdToHold _ rfl) hexact mails

/-- A worker that is removed, put back and then answers a request of its first time has a load
that is no count of anything. -/
theorem exact_lost : ¬Run.Always World.step
    (fun s : Except Fault (World Id ℕ Unit) => ∃ w, s = .ok w ∧ w.Exact) (.ok (World.make 10))
    [⟨{}, none, .put 1⟩, ⟨ask 5, some 7, .other ()⟩, ⟨{}, none, .delete 1⟩, ⟨{}, none, .put 1⟩,
      ⟨answer 1, some 1, .other ()⟩] := by
  intro h
  obtain ⟨s, hs, hexact⟩ := h.last
  have hload : s.router.metrics_ (some 1) = some (0 - 1) := by
    obtain rfl := Except.ok.inj hs
    rfl
  have hlog : outstanding 1 s.log = [] := by
    obtain rfl := Except.ok.inj hs
    rfl
  obtain ⟨load, hload', hcount, -⟩ := hexact.load 1 (by obtain rfl := Except.ok.inj hs; decide)
  rw [hload, Option.some_inj] at hload'
  rw [hlog, ← hload'] at hcount
  exact absurd hcount (by decide)

end LoadBalancer

end Cdcf
