import Cdcf.LoadBalancer.Load
import Cdcf.LoadBalancer.Tickets

/-!
The load balancer together with its workers and its clients.

Workers join, clients ask, the workers answer what is relayed to them, and whatever is on its way to
the router reaches it in any order.  No worker goes.  What the results on the router alone assume of
the mails that it gets then follows: a response answers something that is pending at its sender.

* `Letter`, `Service`, `Service.step`: the messages, the parties and what can happen next.
* `World.Serving`: the invariant of the router; `World.Serving.enqueue`: what one call does.
-/

namespace Cdcf

namespace LoadBalancer

variable {μ ι α : Type*} [MessageId μ]

/-- A request of a client. -/
structure Asking (μ ι α : Type*) [MessageId μ] where
  client : ι
  mid : μ
  payload : α
  isRequest : isRequest mid = true

/-- The mail of a request. -/
def Asking.mail (a : Asking μ ι α) : Mail μ ι α := ⟨a.mid, some a.client, .other a.payload⟩

/-- Who waits for an answer to the mail, and under which id. -/
def Mail.tag (m : Mail μ ι α) : Option (ι × μ) :=
  m.sender.map fun client => (client, responseId m.mid)

/-- Who gets an answer, and under which id. -/
def Effect.answered? : Effect μ ι α → Option (ι × μ)
  | .reply client id _ => some (client, id)
  | .empty client id => some (client, id)
  | _ => none

/-- A message on its way to the router. -/
inductive Letter (μ ι α : Type*) [MessageId μ] where
  /-- A worker joins. -/
  | join (worker : ι)
  /-- A client asks. -/
  | ask (request : Asking μ ι α)
  /-- A worker answers what was relayed to it. -/
  | answer (relay : Relay μ ι α) (result : α)

namespace Letter

/-- The mail that the router gets. -/
def mail : Letter μ ι α → Mail μ ι α
  | join worker => ⟨default, none, .put worker⟩
  | ask request => request.mail
  | answer relay result => ⟨relay.key, some relay.worker, .other result⟩

/-- What it answers. -/
def relay? : Letter μ ι α → Option (Relay μ ι α)
  | answer relay _ => some relay
  | _ => none

/-- Who waits because of it. -/
def tag : Letter μ ι α → Option (ι × μ)
  | join _ => none
  | ask request => request.mail.tag
  | answer relay _ => relay.mail.tag

/-- How much more there is to place because of it. -/
def placed : Letter μ ι α → ℕ
  | ask _ => 1
  | _ => 0

end Letter

/-- The router, what is on its way to it, what the workers work at, and who has asked and who was
answered. -/
structure Service (μ ι α : Type*) [MessageId μ] where
  world : World μ ι α
  fault : Option Fault := none
  inbox : List (Letter μ ι α) := []
  working : List (Relay μ ι α) := []
  asked : List (ι × μ) := []
  answered : List (ι × μ) := []

/-- What can happen next. -/
inductive ServiceTurn (μ ι α : Type*) [MessageId μ] where
  | join (worker : ι)
  | ask (request : Asking μ ι α)
  /-- A worker is done with one of the mails that it has. -/
  | work (k : ℕ) (result : α)
  /-- One of the messages reaches the router. -/
  | deliver (k : ℕ)

variable [DecidableEq μ] [DecidableEq ι]

namespace Service

/-- Nobody has asked yet, and there are no workers. -/
def start (loadThresholdToHold : UInt64) : Service μ ι α :=
  { world := World.make loadThresholdToHold }

/-- One turn. -/
def step (s : Service μ ι α) : ServiceTurn μ ι α → Service μ ι α
  | .join worker => { s with inbox := s.inbox ++ [.join worker] }
  | .ask request =>
      { s with
        inbox := s.inbox ++ [.ask request]
        asked := s.asked ++ request.mail.tag.toList }
  | .work k result =>
      match s.working[k]? with
      | some relay =>
          { s with
            working := s.working.eraseIdx k
            inbox := s.inbox ++ [.answer relay result] }
      | none => s
  | .deliver k =>
      match s.inbox[k]? with
      | some letter =>
          match s.world.router.enqueue letter.mail with
          | .ok (router, effects) =>
              { s with
                world := ⟨router, (letter.mail, effects) :: s.world.log⟩
                inbox := s.inbox.eraseIdx k
                working := s.working ++ effects.filterMap Effect.relay?
                answered := s.answered ++ effects.filterMap Effect.answered? }
          | .error fault => { s with fault := some fault, inbox := s.inbox.eraseIdx k }
      | none => s

end Service

/-! ### Lists of what is pending -/

omit [MessageId μ] [DecidableEq μ] [DecidableEq ι] in
/-- Where the keys differ, an element and those with other keys are all there are. -/
lemma perm_cons_filter_key {β κ : Type*} [DecidableEq κ] (key : β → κ) {l : List β}
    (hnodup : (l.map key).Nodup) {r : β} (hr : r ∈ l) :
    l.Perm (r :: l.filter (key · ≠ key r)) := by
  induction l with
  | nil => exact absurd hr List.not_mem_nil
  | cons b l ih =>
      rw [List.map_cons, List.nodup_cons] at hnodup
      rcases List.mem_cons.mp hr with rfl | hr
      · have hother : ∀ c ∈ l, key c ≠ key r := fun c hc heq =>
          hnodup.1 (heq ▸ List.mem_map_of_mem hc)
        rw [List.filter_cons_of_neg (by simp), List.filter_eq_self.mpr (by simpa using hother)]
      · have hne : key b ≠ key r := fun heq => hnodup.1 (heq ▸ List.mem_map_of_mem hr)
        rw [List.filter_cons_of_pos (by simpa using hne)]
        exact ((ih hnodup.2 hr).cons b).trans (List.Perm.swap r b _)

omit [MessageId μ] [DecidableEq μ] in
/-- The ids relayed to a worker are as many as its relays. -/
lemma length_relayedTo (w : ι) (effects : List (Effect μ ι α)) :
    (effects.filterMap (Effect.relayedTo w)).length
      = (effects.filterMap Effect.relay?).countP (·.worker = w) := by
  induction effects with
  | nil => rfl
  | cons effect effects ih =>
      cases effect with
      | relay worker newId mail =>
          by_cases hw : worker = w <;> simp [Effect.relayedTo, Effect.relay?, hw, ih]
      | _ => simpa [List.filterMap_cons, Effect.relayedTo, Effect.relay?] using ih

omit [MessageId μ] [DecidableEq μ] in
lemma mem_relayedTo {effects : List (Effect μ ι α)} {r : Relay μ ι α}
    (h : r ∈ effects.filterMap Effect.relay?) :
    r.newId ∈ effects.filterMap (Effect.relayedTo r.worker) := by
  obtain ⟨effect, heffect, hr⟩ := List.mem_filterMap.mp h
  refine List.mem_filterMap.mpr ⟨effect, heffect, ?_⟩
  cases effect with
  | relay worker newId mail =>
      obtain rfl := Option.some_inj.mp hr
      simp [Effect.relayedTo]
  | _ => simp [Effect.relay?] at hr

/-! ### The router -/

omit [DecidableEq μ] [DecidableEq ι] in
/-- The mail is a request of a client. -/
def Mail.IsAsking (m : Mail μ ι α) : Prop := ∃ request : Asking μ ι α, m = request.mail

namespace World

variable [LawfulMessageId μ]

/-- What is known of the router as long as no worker goes: its loads are exact; what is pending is
at a worker, which has not answered it, and answers a request; and mails are held only while
something is pending. -/
structure Serving (s : World μ ι α) : Prop where
  kept : s.Kept
  exact : s.Exact
  threshold : 1 ≤ s.router.policy_.loadThresholdToHold_
  worker : ∀ r ∈ pending s.log, r.worker ∈ s.router.workers_
  outstanding : ∀ r ∈ pending s.log, r.newId ∈ outstanding r.worker s.log
  asking : ∀ r ∈ pending s.log, r.mail.IsAsking
  held : ∀ m ∈ s.router.policy_.mails_, m.IsAsking
  count : ∀ w ∈ s.router.workers_,
    (LoadBalancer.outstanding w s.log).length = (pending s.log).countP (·.worker = w)
  busy : s.router.policy_.mails_ ≠ [] → pending s.log ≠ []

/-- What a call does with a message: what it answers is not pending any more and what is relayed is,
and who waits is held, relayed or answered. -/
structure Delivers (s : World μ ι α) (letter : Letter μ ι α) (s' : World μ ι α)
    (effects : List (Effect μ ι α)) : Prop where
  serving : s'.Serving
  threshold_eq :
    s'.router.policy_.loadThresholdToHold_ = s.router.policy_.loadThresholdToHold_
  placed : s'.router.policy_.mails_.length + (effects.filterMap Effect.relay?).length
    ≤ s.router.policy_.mails_.length + letter.placed
  places : (letter.relay?.toList ++ pending s'.log).Perm
    (effects.filterMap Effect.relay? ++ pending s.log)
  tags : ∀ t, (s'.router.policy_.mails_.filterMap Mail.tag).count t
      + ((effects.filterMap Effect.relay?).filterMap (·.mail.tag)).count t
      + (effects.filterMap Effect.answered?).count t
    = (s.router.policy_.mails_.filterMap Mail.tag).count t + letter.tag.toList.count t

variable {s : World μ ι α}

/-- A response to something pending is one, and `Filter` does not take it. -/
lemma Serving.isResponse_answer (h : s.Serving) {relay : Relay μ ι α} (hr : relay ∈ pending s.log)
    (result : α) :
    isResponse (Letter.answer relay result).mail.mid = true
      ∧ s.router.takes (Letter.answer relay result).mail = false := by
  have hresp : isResponse relay.key = true :=
    h.kept.ticketed.isResponse_key (h.kept.ticketed.sublist.subset hr)
  have hreq : isRequest relay.key = false := by
    by_contra hreq
    have := LawfulMessageId.not_isResponse relay.key (by simpa using hreq)
    simp [hresp] at this
  exact ⟨hresp, by simp [Letter.mail, Router.takes, Content.isControl, hreq]⟩

/-- The messages meet the condition under which the loads stay exact. -/
lemma Serving.accountable (h : s.Serving) {letter : Letter μ ι α}
    (hletter : ∀ r ∈ letter.relay?, r ∈ pending s.log) : s.Accountable letter.mail := by
  rw [Accountable]
  cases letter with
  | join worker =>
      rw [if_pos (by simp [Letter.mail, Router.takes, Content.isControl])]
      refine ⟨by simp [Letter.mail], fun w _ hanswers => ?_⟩
      exact absurd hanswers.sender_eq (by simp [Letter.mail])
  | ask request =>
      have hresp := LawfulMessageId.not_isResponse _ request.isRequest
      split
      · refine ⟨by simp [Letter.mail, Asking.mail], fun w _ hanswers => ?_⟩
        obtain ⟨id, -, hthis⟩ := hanswers
        simp [Mail.answers, Letter.mail, Asking.mail, hresp] at hthis
      · next htakes =>
          rw [if_neg (by simp [Letter.mail, Asking.mail, hresp])]
          simpa [Letter.mail, Asking.mail, Router.takes, Content.isControl, request.isRequest]
            using htakes
  | answer relay result =>
      have hr := hletter relay rfl
      obtain ⟨hresp, htakes⟩ := h.isResponse_answer hr result
      rw [if_neg (by simp [htakes]), if_pos hresp]
      refine ⟨relay.worker, h.worker relay hr, relay.newId, h.outstanding relay hr, ?_⟩
      rw [Mail.answers, hresp]
      simp [Letter.mail, Relay.key]

omit [LawfulMessageId μ] in
/-- What is outstanding after a call that is no response. -/
lemma outstanding_of_not_answers {what : Mail μ ι α} {effects : List (Effect μ ι α)} {w : ι}
    (hattach : Effect.attach w ∉ effects) (hnot : ¬s.Answers w what) :
    LoadBalancer.outstanding w ((what, effects) :: s.log)
      = LoadBalancer.outstanding w s.log ++ effects.filterMap (Effect.relayedTo w) := by
  rw [outstanding_cons hattach,
    ((s.length_eraseP_answers w what).resolve_left fun h => hnot h.1).2]

omit [MessageId μ] [DecidableEq μ] [DecidableEq ι] [LawfulMessageId μ] in
lemma filterMap_answered?_eq_nil {effects : List (Effect μ ι α)}
    (hreply : ∀ client id content, .reply client id content ∉ effects)
    (hempty : ∀ client id, .empty client id ∉ effects) :
    effects.filterMap Effect.answered? = [] := by
  rw [List.filterMap_eq_nil_iff]
  intro effect heffect
  cases effect with
  | reply client id content => exact absurd heffect (hreply client id content)
  | empty client id => exact absurd heffect (hempty client id)
  | _ => rfl

/-- A worker joins. -/
lemma Serving.join (h : s.Serving) {worker : ι} {r' : Router μ ι α}
    {effects : List (Effect μ ι α)}
    (hcall : s.router.enqueue (Letter.join worker).mail = .ok (r', effects))
    (hexact : Exact ⟨r', ((Letter.join worker).mail, effects) :: s.log⟩) :
    s.Delivers (.join worker) ⟨r', ((Letter.join worker).mail, effects) :: s.log⟩ effects := by
  have htakes : s.router.takes (Letter.join worker).mail = true := by
    simp [Letter.mail, Router.takes, Content.isControl]
  have hfilter : s.router.filter (Letter.join worker).mail = some (.ok (r', effects)) := by
    rcases Router.enqueue_cases hcall with ⟨-, hfilter⟩ | ⟨hnot, -⟩ | ⟨hnot, -⟩
    · exact hfilter
    · exact absurd htakes (by simp [hnot])
    · exact absurd htakes (by simp [hnot])
  have hseats := Router.filter_reseats h.kept.metered hfilter
  have heffects := Router.filter_effects hfilter
  obtain ⟨-, hpending, -⟩ := log_filter htakes heffects
  have hrelay := filterMap_relay?_eq_nil heffects.relay
  have hanswered : effects.filterMap Effect.answered? = [] :=
    filterMap_answered?_eq_nil heffects.reply fun client id hmem =>
      absurd ((heffects.empty client id).mp hmem).1 (by simp [Letter.mail, Content.isControl])
  have hstays : ∀ w ∈ s.router.workers_, w ∈ r'.workers_ := fun w hw =>
    (hseats.mem_workers w).mpr (Or.inl ⟨hw, by simp [Letter.mail, Router.removes]⟩)
  have hsame : ∀ w ∈ s.router.workers_, LoadBalancer.outstanding w
      (((Letter.join worker).mail, effects) :: s.log) = LoadBalancer.outstanding w s.log := by
    intro w hw
    rw [outstanding_of_not_answers (fun hadd => ((heffects.attach w).mp hadd).2 hw)
      (fun hanswers => absurd hanswers.sender_eq (by simp [Letter.mail])),
      filterMap_relayedTo_eq_nil heffects.relay w, List.append_nil]
  refine ⟨⟨h.kept.enqueue hcall, hexact, ?_, ?_, ?_, ?_, ?_, ?_, ?_⟩, ?_, ?_, ?_, ?_⟩
  · exact hseats.policy_eq ▸ h.threshold
  · exact fun r hr => hstays _ (h.worker r (hpending ▸ hr))
  · intro r hr
    rw [hpending] at hr
    rw [hsame _ (h.worker r hr)]
    exact h.outstanding r hr
  · exact fun r hr => h.asking r (hpending ▸ hr)
  · exact fun m hm => h.held m (hseats.policy_eq ▸ hm)
  · intro w hw
    rw [hpending]
    by_cases hold : w ∈ s.router.workers_
    · rw [hsame w hold]
      exact h.count w hold
    · -- the new worker has nothing to do
      have hput := ((hseats.mem_workers w).mp hw).resolve_left fun hmem => hold hmem.1
      have hattach := any_attaches.mpr ((heffects.attach w).mpr ⟨hput, hold⟩)
      rw [LoadBalancer.outstanding, if_pos hattach, filterMap_relayedTo_eq_nil heffects.relay w,
        eq_comm]
      exact List.countP_eq_zero.mpr fun r hr heq =>
        hold (of_decide_eq_true heq ▸ h.worker r hr)
  · intro hheld
    rw [hpending]
    exact h.busy (hseats.policy_eq ▸ hheld)
  · exact congrArg MinLoad.loadThresholdToHold_ hseats.policy_eq
  · rw [hseats.policy_eq, hrelay]
    exact Nat.le_refl _
  · rw [hpending, hrelay]
    exact List.Perm.refl _
  · intro t
    rw [hrelay, hanswered, hseats.policy_eq]
    simp [Letter.tag]

/-- A client asks, and there are no workers. -/
lemma Serving.refuse (h : s.Serving) {request : Asking μ ι α} (hworkers : s.router.workers_ = [])
    {r' : Router μ ι α} {effects : List (Effect μ ι α)}
    (hcall : s.router.enqueue request.mail = .ok (r', effects))
    (hexact : Exact ⟨r', (request.mail, effects) :: s.log⟩) :
    s.Delivers (.ask request) ⟨r', (request.mail, effects) :: s.log⟩ effects := by
  have htakes : s.router.takes request.mail = true := by
    simp [Asking.mail, Router.takes, request.isRequest, hworkers]
  have hkept := h.kept.enqueue hcall
  have hfilter : s.router.filter request.mail
      = some (.ok (s.router, [.empty request.client (responseId request.mid)])) := by
    simp [Asking.mail, Router.filter, request.isRequest, hworkers]
  obtain ⟨rfl, rfl⟩ : s.router = r'
      ∧ [.empty request.client (responseId request.mid)] = effects := by
    rw [Router.enqueue, hfilter] at hcall
    exact Prod.mk.inj (Except.ok.inj hcall)
  obtain ⟨-, hpending, -⟩ := log_filter htakes (Router.filter_effects hfilter)
  have hnone : pending s.log = [] := by
    refine List.eq_nil_iff_forall_not_mem.mpr fun r hr => ?_
    have := h.worker r hr
    rw [hworkers] at this
    exact List.not_mem_nil this
  rw [hnone] at hpending
  have hnot : ∀ r, r ∉ pending ((request.mail,
      [Effect.empty request.client (responseId request.mid)]) :: s.log) := fun r hr => by
    rw [hpending] at hr
    exact List.not_mem_nil hr
  refine ⟨⟨hkept, hexact, h.threshold, fun r hr => absurd hr (hnot r),
    fun r hr => absurd hr (hnot r), fun r hr => absurd hr (hnot r), h.held, fun w hw => ?_,
    fun hheld => ?_⟩, rfl, ?_, ?_, fun t => ?_⟩
  · rw [hworkers] at hw
    exact absurd hw List.not_mem_nil
  · exact absurd hnone (h.busy hheld)
  · exact Nat.le_add_right _ _
  · rw [hpending, hnone]
    exact List.Perm.refl _
  · simp [Letter.tag, Mail.tag, Asking.mail, List.filterMap_cons, Effect.relay?, Effect.answered?]

omit [LawfulMessageId μ] in
/-- While something is held that was not relayed, a worker is busy. -/
lemma pending_ne_nil_of_saturated (hexact : s.Exact)
    (hthreshold : 1 ≤ s.router.policy_.loadThresholdToHold_)
    (hcount : ∀ w ∈ s.router.workers_,
      (LoadBalancer.outstanding w s.log).length = (pending s.log).countP (·.worker = w))
    (hworkers : s.router.workers_ ≠ [])
    (hall : ∀ load ∈ s.router.loads, s.router.policy_.loadThresholdToHold_ ≤ load) :
    pending s.log ≠ [] := by
  obtain ⟨w, hw⟩ := List.exists_mem_of_ne_nil _ hworkers
  obtain ⟨load, hload, htoNat, -⟩ := hexact.load w hw
  have hmem : load ∈ s.router.loads := List.mem_map.mpr ⟨w, hw, by rw [hload, Option.getD_some]⟩
  have hpos := UInt64.le_iff_toNat_le.mp (UInt64.le_trans hthreshold (hall load hmem))
  intro hnil
  have hone : (1 : UInt64).toNat = 1 := rfl
  rw [htoNat, hcount w hw, hnil, List.countP_nil] at hpos
  omega

omit [MessageId μ] [DecidableEq μ] [DecidableEq ι] [LawfulMessageId μ] in
/-- What is placed is held or relayed after the call. -/
lemma length_of_fifo {mails mails' : List (Mail μ ι α)} {mail : Option (Mail μ ι α)}
    {relayed : List (Relay μ ι α)}
    (hfifo : mails'.reverse ++ relayed.map Relay.mail = mail.toList ++ mails.reverse) :
    mails'.length + relayed.length ≤ mails.length + mail.toList.length := by
  have hlength := congrArg List.length hfifo
  simp only [List.length_append, List.length_reverse, List.length_map] at hlength
  omega

omit [LawfulMessageId μ] in
/-- Who waits for what is placed: it is held or relayed after the call. -/
lemma count_tag_of_fifo {mails mails' : List (Mail μ ι α)} {mail : Option (Mail μ ι α)}
    {relayed : List (Relay μ ι α)}
    (hfifo : mails'.reverse ++ relayed.map Relay.mail = mail.toList ++ mails.reverse)
    (t : ι × μ) :
    (mails'.filterMap Mail.tag).count t + (relayed.filterMap (·.mail.tag)).count t
      = (mails.filterMap Mail.tag).count t + (mail.bind Mail.tag).toList.count t := by
  have hcount := congrArg (fun l => (l.filterMap Mail.tag).count t) hfifo
  simp only [List.filterMap_append, List.filterMap_reverse, List.count_append, List.count_reverse,
    List.filterMap_map] at hcount
  have hmail : mail.toList.filterMap Mail.tag = (mail.bind Mail.tag).toList := by
    cases mail with
    | none => rfl
    | some m => cases hm : m.tag <;> simp [hm]
  rw [hmail] at hcount
  have hcomp : (Mail.tag ∘ Relay.mail : Relay μ ι α → _) = fun r => r.mail.tag := rfl
  rw [hcomp] at hcount
  omega

/-- A client asks, and there are workers. -/
lemma Serving.place (h : s.Serving) {request : Asking μ ι α} (hworkers : s.router.workers_ ≠ [])
    {r' : Router μ ι α} {effects : List (Effect μ ι α)}
    (hcall : s.router.enqueue request.mail = .ok (r', effects))
    (hexact : Exact ⟨r', (request.mail, effects) :: s.log⟩) :
    s.Delivers (.ask request) ⟨r', (request.mail, effects) :: s.log⟩ effects := by
  have hresp : isResponse request.mail.mid = false :=
    LawfulMessageId.not_isResponse _ request.isRequest
  have htakes : s.router.takes request.mail = false := by
    simpa [Asking.mail, Router.takes, Content.isControl, request.isRequest] using hworkers
  have hroute : s.router.route (some request.mail) = .ok (r', effects) := by
    rcases Router.enqueue_cases hcall with ⟨hnot, -⟩ | ⟨-, -, hroute⟩ | ⟨-, hnot, -⟩
    · exact absurd hnot (by simp [htakes])
    · exact hroute
    · exact absurd hnot (by simp [hresp])
  have hplaces := Router.route_places h.kept.metered hroute
  have hcounts := Router.route_counts h.kept.metered hroute
  have hpending := pending_mail hresp effects s.log
  have hnot : ∀ w, ¬s.Answers w request.mail := by
    rintro w ⟨id, -, hanswers⟩
    simp [Mail.answers, hresp] at hanswers
  have hout : ∀ w, LoadBalancer.outstanding w ((request.mail, effects) :: s.log)
      = LoadBalancer.outstanding w s.log ++ effects.filterMap (Effect.relayedTo w) := fun w =>
    outstanding_of_not_answers (hcounts.attach w) (hnot w)
  have hmem : ∀ r ∈ effects.filterMap Effect.relay?, ∀ m, r.mail = m →
      m = request.mail ∨ m ∈ s.router.policy_.mails_ := by
    rintro r hr m rfl
    have hin : r.mail ∈ r'.policy_.mails_.reverse
        ++ (effects.filterMap Effect.relay?).map Relay.mail :=
      List.mem_append_right _ (List.mem_map_of_mem hr)
    rw [hplaces.fifo] at hin
    simpa using hin
  have hheld : ∀ m ∈ r'.policy_.mails_, m = request.mail ∨ m ∈ s.router.policy_.mails_ := by
    intro m hm
    have hin : m ∈ r'.policy_.mails_.reverse
        ++ (effects.filterMap Effect.relay?).map Relay.mail :=
      List.mem_append_left _ (List.mem_reverse.mpr hm)
    rw [hplaces.fifo] at hin
    simpa using hin
  have hcount : ∀ w ∈ r'.workers_, (LoadBalancer.outstanding w
      ((request.mail, effects) :: s.log)).length
        = (pending ((request.mail, effects) :: s.log)).countP (·.worker = w) := by
    intro w hw
    rw [hplaces.workers_eq] at hw
    rw [hout, hpending, List.length_append, List.countP_append, length_relayedTo, h.count w hw,
      Nat.add_comm]
  refine ⟨⟨h.kept.enqueue hcall, hexact, ?_, ?_, ?_, ?_, ?_, hcount, ?_⟩,
    hcounts.threshold_eq, length_of_fifo hplaces.fifo, ?_, ?_⟩
  · exact hcounts.threshold_eq ▸ h.threshold
  · intro r hr
    rw [hpending] at hr
    rw [hplaces.workers_eq]
    rcases List.mem_append.mp hr with hnew | hold
    · exact hplaces.worker r hnew
    · exact h.worker r hold
  · intro r hr
    rw [hpending] at hr
    rw [hout]
    rcases List.mem_append.mp hr with hnew | hold
    · exact List.mem_append_right _ (mem_relayedTo hnew)
    · exact List.mem_append_left _ (h.outstanding r hold)
  · intro r hr
    rw [hpending] at hr
    rcases List.mem_append.mp hr with hnew | hold
    · rcases hmem r hnew _ rfl with hm | hm
      · exact ⟨request, hm⟩
      · exact h.held _ hm
    · exact h.asking r hold
  · intro m hm
    rcases hheld m hm with rfl | hm
    · exact ⟨request, rfl⟩
    · exact h.held m hm
  · intro _
    rw [hpending]
    have hsome : s.router.policy_.mails_ ++ (some request.mail).toList ≠ [] := by simp
    obtain ⟨policy, -, -, ⟨-, -, hall⟩ | ⟨i, worker, m, load, hroute', -⟩⟩ :=
      Router.route_of_ne_nil h.kept.metered hworkers hsome
    · exact List.append_ne_nil_of_right_ne_nil _
        (pending_ne_nil_of_saturated h.exact h.threshold h.count hworkers hall)
    · rw [hroute] at hroute'
      rw [show effects = _ from congrArg Prod.snd (Except.ok.inj hroute')]
      simp [Effect.relay?]
  · rw [hpending]
    exact List.Perm.refl _
  · intro t
    have hanswered : effects.filterMap Effect.answered? = [] := by
      refine filterMap_answered?_eq_nil (fun client id content hmem => ?_) fun client id hmem => ?_
      · exact List.any_eq_false.mp hplaces.no_reply _ hmem rfl
      · exact List.any_eq_false.mp hplaces.no_empty _ hmem rfl
    rw [hanswered, List.count_nil, Nat.add_zero]
    exact count_tag_of_fifo hplaces.fifo t

/-- A response to a pending request is answered to its client. -/
lemma Serving.reply_eq (h : s.Serving) {relay : Relay μ ι α} (hr : relay ∈ pending s.log)
    (result : α) :
    ∃ tag, relay.mail.tag = some tag
      ∧ ((s.router.proxy_.reply (Letter.answer relay result).mail s.router.workers_).2).filterMap
        Effect.answered? = [tag] := by
  obtain ⟨request, hmail⟩ := h.asking relay hr
  have hresp := LawfulMessageId.isResponse_responseId _ request.isRequest
  have hwants : request.mid ≠ responseId request.mid := fun heq => by
    have hnot := LawfulMessageId.not_isResponse _ request.isRequest
    rw [heq, hresp] at hnot
    exact absurd hnot (by decide)
  have hmem : Effect.reply request.client (responseId request.mid) (.other result)
      ∈ (s.router.proxy_.reply (Letter.answer relay result).mail s.router.workers_).2 :=
    h.kept.ticketed.mem_reply_iff.mpr ⟨List.mem_map_of_mem (h.worker relay hr), relay, hr, rfl,
      by rwa [hmail], request.client, by rw [hmail]; rfl, by rw [hmail]; rfl⟩
  have hlength := s.router.proxy_.length_reply_le (Letter.answer relay result).mail
    s.router.workers_
  refine ⟨(request.client, responseId request.mid), by rw [hmail]; rfl, ?_⟩
  obtain ⟨effect, heffect⟩ := List.length_eq_one_iff.mp
    (le_antisymm hlength (List.length_pos_of_mem hmem))
  rw [heffect] at hmem ⊢
  rw [← List.mem_singleton.mp hmem]
  rfl

omit [LawfulMessageId μ] in
/-- Where the sender of a response has been busy, it is below the threshold after it. -/
lemma exists_load_lt (hexact : s.Exact) {what : Mail μ ι α} {w : ι}
    (hw : w ∈ s.router.workers_) (hsender : what.sender = some w)
    (hbusy : 0 < (LoadBalancer.outstanding w s.log).length) :
    ∃ load ∈ ((s.router.discharge what.sender).reply what).1.loads,
      load < s.router.policy_.loadThresholdToHold_ := by
  obtain ⟨load, hload, hcount, hle⟩ := hexact.load w hw
  have hdischarged := Router.metrics_response what hload
  rw [if_pos hsender] at hdischarged
  refine ⟨load - 1, List.mem_map.mpr ⟨w, hw, by rw [hdischarged, Option.getD_some]⟩, ?_⟩
  have hone : (1 : UInt64) ≤ load := UInt64.le_iff_toNat_le.mpr (by rw [hcount]; exact hbusy)
  have hpred : (load - 1).toNat = load.toNat - 1 := UInt64.toNat_sub_of_le _ _ hone
  rw [UInt64.le_iff_toNat_le] at hle
  rw [UInt64.lt_iff_toNat_lt]
  omega

/-- A worker answers. -/
lemma Serving.answer (h : s.Serving) {relay : Relay μ ι α} (hr : relay ∈ pending s.log)
    {result : α} {r' : Router μ ι α} {effects : List (Effect μ ι α)}
    (hcall : s.router.enqueue (Letter.answer relay result).mail = .ok (r', effects))
    (hexact : Exact ⟨r', ((Letter.answer relay result).mail, effects) :: s.log⟩) :
    s.Delivers (.answer relay result) ⟨r', ((Letter.answer relay result).mail, effects) :: s.log⟩
      effects := by
  have hkept := h.kept.enqueue hcall
  obtain ⟨hresp, htakes⟩ := h.isResponse_answer hr result
  obtain ⟨tag, htag, hreply⟩ := h.reply_eq hr result
  have hworker := h.worker relay hr
  have hkey : (Letter.answer relay result).mail.mid = relay.key := rfl
  have hsender : (Letter.answer relay result).mail.sender = some relay.worker := rfl
  have hanswers : s.Answers relay.worker (Letter.answer relay result).mail := by
    refine ⟨relay.newId, h.outstanding relay hr, ?_⟩
    rw [Mail.answers, hresp]
    simp [Letter.mail, Relay.key]
  generalize (Letter.answer relay result).mail = what at *
  obtain ⟨relays, rfl, hroute⟩ : ∃ relays,
      effects = (s.router.proxy_.reply what s.router.workers_).2 ++ relays
        ∧ ((s.router.discharge what.sender).reply what).1.route none = .ok (r', relays) := by
    rcases Router.enqueue_cases hcall with ⟨hnot, -⟩ | ⟨-, hnot, -⟩ | ⟨-, -, hrest⟩
    · exact absurd hnot (by simp [htakes])
    · exact absurd hnot (by simp [hresp])
    · exact hrest
  have hmetered := h.kept.metered.discharge_reply what
  have hplaces := Router.route_places hmetered hroute
  have hcounts := Router.route_counts hmetered hroute
  obtain ⟨-, hpending⟩ := log_response relays htakes hresp
  have hnone : (s.router.proxy_.reply what s.router.workers_).2.filterMap Effect.relay? = [] :=
    filterMap_relay?_eq_nil fun worker newId mail hmem => by
      obtain ⟨client, id, heq⟩ := Proxy.mem_reply hmem
      simp at heq
  have hrelay : ((s.router.proxy_.reply what s.router.workers_).2 ++ relays).filterMap
      Effect.relay? = relays.filterMap Effect.relay? := by
    rw [List.filterMap_append, hnone, List.nil_append]
  have hout : ∀ w, LoadBalancer.outstanding w
      ((what, (s.router.proxy_.reply what s.router.workers_).2 ++ relays) :: s.log)
        = (LoadBalancer.outstanding w s.log).eraseP (what.answers w)
          ++ relays.filterMap (Effect.relayedTo w) := fun w =>
    outstanding_response (hcounts.attach w)
  -- what is pending is what was answered and the rest
  have hnodup : ((pending s.log).map Relay.key).Nodup :=
    h.kept.ticketed.nodup.sublist (h.kept.ticketed.sublist.map Relay.key)
  have hperm := perm_cons_filter_key Relay.key hnodup hr
  rw [← hkey] at hperm
  have hworkers : r'.workers_ = s.router.workers_ := hplaces.workers_eq
  have hmem : ∀ m, m ∈ r'.policy_.mails_ ∨ m ∈ (relays.filterMap Effect.relay?).map Relay.mail →
      m ∈ s.router.policy_.mails_ := by
    intro m hm
    have hin : m ∈ r'.policy_.mails_.reverse
        ++ (relays.filterMap Effect.relay?).map Relay.mail := by simpa using hm
    rw [hplaces.fifo] at hin
    simpa using hin
  refine ⟨⟨hkept, hexact, ?_, ?_, ?_, ?_, ?_, ?_, ?_⟩, hcounts.threshold_eq, ?_, ?_, ?_⟩
  · exact hcounts.threshold_eq ▸ h.threshold
  · intro r hr'
    rw [hpending] at hr'
    rw [hworkers]
    rcases List.mem_append.mp hr' with hnew | hold
    · exact hplaces.worker r hnew
    · exact h.worker r (List.mem_of_mem_filter hold)
  · intro r hr'
    rw [hpending] at hr'
    rw [hout]
    rcases List.mem_append.mp hr' with hnew | hold
    · exact List.mem_append_right _ (mem_relayedTo hnew)
    · obtain ⟨hold, hne⟩ := List.mem_filter.mp hold
      have hother : ¬what.answers r.worker r.newId = true := fun hthis => by
        simp only [Mail.answers, Bool.and_eq_true, decide_eq_true_eq] at hthis
        exact of_decide_eq_true hne hthis.2
      exact List.mem_append_left _
        ((List.mem_eraseP_of_neg hother).mpr (h.outstanding r hold))
  · intro r hr'
    rw [hpending] at hr'
    rcases List.mem_append.mp hr' with hnew | hold
    · exact h.held _ (hmem _ (Or.inr (List.mem_map_of_mem hnew)))
    · exact h.asking r (List.mem_of_mem_filter hold)
  · exact fun m hm => h.held m (hmem m (Or.inl hm))
  · intro w hw
    have hold := h.count w (hworkers ▸ hw)
    rw [hperm.countP_eq, List.countP_cons] at hold
    rw [hout, hpending, List.length_append, List.countP_append, length_relayedTo]
    rcases s.length_eraseP_answers w what with ⟨hthis, hlength⟩ | ⟨hnot, heq⟩
    · obtain rfl : relay.worker = w := Option.some_inj.mp (hsender.symm.trans hthis.sender_eq)
      simp only [decide_true, if_true] at hold
      omega
    · have hne : relay.worker ≠ w := fun heq' => hnot (heq' ▸ hanswers)
      simp only [hne, decide_false, Bool.false_eq_true, if_false] at hold
      rw [heq]
      omega
  · intro hheld
    rw [hpending]
    have hmails : ((s.router.discharge what.sender).reply what).1.policy_.mails_
        ++ (none : Option (Mail μ ι α)).toList ≠ [] := by
      obtain ⟨m, hm⟩ := List.exists_mem_of_ne_nil _ hheld
      simpa using List.ne_nil_of_mem (hmem m (Or.inl hm))
    obtain ⟨policy, -, -, ⟨-, -, hall⟩ | ⟨i, worker, m, load, hroute', -⟩⟩ :=
      Router.route_of_ne_nil hmetered (List.ne_nil_of_mem hworker) hmails
    · -- the sender has room for what is held
      have hbusy := List.length_pos_of_mem (h.outstanding relay hr)
      obtain ⟨load, hload, hlt⟩ := exists_load_lt h.exact hworker hsender hbusy
      exact absurd (hall load hload) (UInt64.not_le.mpr hlt)
    · rw [hroute] at hroute'
      rw [show relays = _ from congrArg Prod.snd (Except.ok.inj hroute')]
      simp [Effect.relay?]
  · rw [hrelay]
    exact length_of_fifo hplaces.fifo
  · rw [hpending, hrelay]
    refine List.Perm.trans ?_ (hperm.symm.append_left _)
    rw [show (Letter.answer relay result).relay?.toList = [relay] from rfl, List.singleton_append]
    exact List.perm_middle.symm
  · intro t
    have hanswered : relays.filterMap Effect.answered? = [] := by
      refine filterMap_answered?_eq_nil (fun client id content hin => ?_) fun client id hin => ?_
      · exact List.any_eq_false.mp hplaces.no_reply _ hin rfl
      · exact List.any_eq_false.mp hplaces.no_empty _ hin rfl
    have hcount := count_tag_of_fifo hplaces.fifo t
    rw [hrelay, List.filterMap_append, hreply, hanswered, List.append_nil]
    rw [Letter.tag, htag]
    simp only [Option.bind_none, Option.toList_none, List.count_nil, Nat.add_zero] at hcount
    rw [hcount]
    rfl

/-- A call with any of the messages, what it answers being pending. -/
lemma Serving.enqueue (h : s.Serving) {letter : Letter μ ι α}
    (hletter : ∀ r ∈ letter.relay?, r ∈ pending s.log) :
    ∃ router effects, s.router.enqueue letter.mail = .ok (router, effects)
      ∧ s.Delivers letter ⟨router, (letter.mail, effects) :: s.log⟩ effects := by
  obtain ⟨s', hstep, hexact⟩ :=
    (exact_step_iff h.kept.metered h.exact letter.mail).mpr (h.accountable hletter)
  obtain ⟨router, effects, hcall, rfl⟩ := step_eq_ok.mp hstep
  refine ⟨router, effects, hcall, ?_⟩
  cases letter with
  | join worker => exact h.join hcall hexact
  | ask request =>
      by_cases hworkers : s.router.workers_ = []
      · exact h.refuse hworkers hcall hexact
      · exact h.place hworkers hcall hexact
  | answer relay result => exact h.answer (hletter relay rfl) hcall hexact

omit [LawfulMessageId μ] in
lemma serving_make {loadThresholdToHold : UInt64} (hpos : 1 ≤ loadThresholdToHold) :
    (make loadThresholdToHold : World μ ι α).Serving where
  kept := kept_make loadThresholdToHold
  exact := ⟨fun k => by simp [make, Router.make], fun _ hw => absurd hw List.not_mem_nil⟩
  threshold := hpos
  worker := fun _ hr => absurd hr List.not_mem_nil
  outstanding := fun _ hr => absurd hr List.not_mem_nil
  asking := fun _ hr => absurd hr List.not_mem_nil
  held := fun _ hm => absurd hm List.not_mem_nil
  count := fun _ hw => absurd hw List.not_mem_nil
  busy := fun hheld => absurd rfl hheld

end World

end LoadBalancer

end Cdcf
