import Cdcf.LoadBalancer.Tickets

/-!
Where the answers go.

A response that is handed on is answered by way of the ticket of what was relayed under its id.
The ids relayed differ, and a ticket is used up by the first response under its id, so an answer
goes to the client whose request was relayed under the id, once.

* `Routed`: what is known of the answers of the next call, against the log of the calls before;
* `routed_always`: every call of a run is so.
-/

namespace Cdcf

namespace LoadBalancer

open Sample

variable {μ ι α : Type*} [MessageId μ] [DecidableEq μ] [DecidableEq ι]

namespace World

/-- The answers of a call in a state: an answer belongs to one request relayed before, and goes
to its sender under its own response id with the content of the response; no request is answered
twice; and the first response to a request with a sender is delivered when it comes from a worker
and holds nothing for the router itself. -/
structure Routed (s : World μ ι α) (what : Mail μ ι α) : Prop where
  fifo : s.router.policy_.mails_.reverse ++ (relays s.log).map Relay.mail = accepted s.log
  nodup : ((relays s.log).map Relay.key).Nodup
  reply : ∀ r' effects client id content, s.router.enqueue what = .ok (r', effects) →
    .reply client id content ∈ effects → content = what.content
      ∧ ∃ r ∈ relays s.log, r.key = what.mid ∧ isRequest r.mail.mid = true
        ∧ r.mail.sender = some client ∧ id = responseId r.mail.mid
        ∧ ∀ other ∈ relays s.log, other.key = what.mid → other = r
  once : ∀ r' effects, s.router.enqueue what = .ok (r', effects) →
    effects.any Effect.isReply = true → effects.countP Effect.isReply = 1
      ∧ ∀ entry ∈ s.log, entry.1.mid = what.mid → entry.2.any Effect.isReply = false
  delivered : ∀ w r client, r ∈ pending s.log → r.key = what.mid → what.sender = some w →
    w ∈ s.router.workers_ → what.content.isControl = false → isRequest r.mail.mid = true →
    r.mail.sender = some client →
      ∃ r' effects, s.router.enqueue what = .ok (r', effects)
        ∧ .reply client (responseId r.mail.mid) what.content ∈ effects

omit [DecidableEq μ] [DecidableEq ι] in
/-- What is accepted for placing is no response. -/
lemma isResponse_of_mem_accepted {m : Mail μ ι α}
    {log : List (Mail μ ι α × List (Effect μ ι α))} (h : m ∈ accepted log) :
    isResponse m.mid = false := by
  induction log with
  | nil => exact absurd h List.not_mem_nil
  | cons entry log ih =>
      obtain ⟨what, effects⟩ := entry
      rw [accepted] at h
      split at h
      · next haccepted =>
          rcases List.mem_cons.mp h with rfl | h
          · simp only [Bool.and_eq_true, Bool.not_eq_true'] at haccepted
            exact haccepted.1.2
          · exact ih h
      · exact ih h

omit [DecidableEq ι] in
/-- A mail that was relayed is a request exactly when its ticket wants an answer. -/
lemma Kept.wants_iff [LawfulMessageId μ] {s : World μ ι α} (hs : s.Kept) {r : Relay μ ι α}
    (hr : r ∈ relays s.log) :
    r.mail.mid ≠ responseId r.mail.mid ↔ isRequest r.mail.mid = true := by
  have hmem : r.mail ∈ accepted s.log := by
    rw [← hs.fifo]
    exact List.mem_append_right _ (List.mem_map_of_mem hr)
  have hresp := isResponse_of_mem_accepted hmem
  constructor
  · intro hwants
    by_contra hreq
    exact hwants (LawfulMessageId.responseId_async _ (by simpa using hreq) hresp).symm
  · intro hreq heq
    have := LawfulMessageId.isResponse_responseId _ hreq
    rw [← heq, hresp] at this
    exact Bool.false_ne_true this

/-- Answers come with the responses that are handed on, before anything is relayed. -/
lemma enqueue_replies [LawfulMessageId μ] {s : World μ ι α} (hs : s.Kept) {what : Mail μ ι α}
    {r' : Router μ ι α} {effects : List (Effect μ ι α)}
    (h : s.router.enqueue what = .ok (r', effects)) :
    effects.any Effect.isReply = false
      ∨ ∃ relayed, effects = (s.router.proxy_.reply what s.router.workers_).2 ++ relayed
        ∧ relayed.any Effect.isReply = false := by
  rcases Router.enqueue_cases h with
    ⟨-, hfilter⟩ | ⟨-, -, hroute⟩ | ⟨-, -, relayed, rfl, hroute⟩
  · exact Or.inl (any_isReply_eq_false (Router.filter_effects hfilter).reply)
  · exact Or.inl (Router.route_places hs.metered hroute).no_reply
  · exact Or.inr ⟨relayed, rfl,
      (Router.route_places (hs.metered.discharge_reply what) hroute).no_reply⟩

/-- An answer is by way of the ticket of something pending. -/
lemma Kept.mem_replies [LawfulMessageId μ] {s : World μ ι α} (hs : s.Kept) {what : Mail μ ι α}
    {r' : Router μ ι α} {effects : List (Effect μ ι α)}
    (h : s.router.enqueue what = .ok (r', effects)) {effect : Effect μ ι α}
    (heffect : effect ∈ effects) (hreply : effect.isReply = true) :
    ∃ r ∈ pending s.log, r.key = what.mid ∧ isRequest r.mail.mid = true
      ∧ ∃ client, r.mail.sender = some client
        ∧ effect = .reply client (responseId r.mail.mid) what.content := by
  rcases enqueue_replies hs h with hnone | ⟨relayed, rfl, hnone⟩
  · exact absurd (List.any_eq_true.mpr ⟨effect, heffect, hreply⟩) (by simp [hnone])
  · rcases List.mem_append.mp heffect with heffect | heffect
    · obtain ⟨-, r, hr, hkey, hwants, hclient⟩ := hs.ticketed.mem_reply_iff.mp heffect
      exact ⟨r, hr, hkey, (hs.wants_iff (hs.ticketed.sublist.subset hr)).mp hwants, hclient⟩
    · exact absurd (List.any_eq_true.mpr ⟨effect, heffect, hreply⟩) (by simp [hnone])

/-- The first response to what was relayed is handed on, and the call has a result. -/
lemma Kept.enqueue_response [LawfulMessageId μ] {s : World μ ι α} (hs : s.Kept)
    {what : Mail μ ι α} {r : Relay μ ι α} (hr : r ∈ pending s.log) (hkey : r.key = what.mid)
    (hworkers : s.router.workers_ ≠ []) (hcontrol : what.content.isControl = false) :
    ∃ r' relayed, s.router.enqueue what
      = .ok (r', (s.router.proxy_.reply what s.router.workers_).2 ++ relayed) := by
  have hresp : isResponse what.mid = true := by
    rw [← hkey]
    exact hs.ticketed.isResponse_key (hs.ticketed.sublist.subset hr)
  cases hcall : s.router.enqueue what with
  | error fault =>
      rcases (Router.enqueue_eq_error_iff hs.metered what fault).mp hcall with
        ⟨-, hget, -⟩ | ⟨-, -, hnone, -⟩
      · simp [hget, Content.isControl] at hcontrol
      · exact absurd hnone hworkers
  | ok result =>
      obtain ⟨r', effects⟩ := result
      rcases Router.enqueue_cases hcall with
        ⟨htakes, -⟩ | ⟨-, hnot, -⟩ | ⟨-, -, relayed, rfl, -⟩
      · have hhanded := isHandedOn_of_takes htakes
        simp [Mail.isHandedOn, hresp, hcontrol] at hhanded
      · simp [hresp] at hnot
      · exact ⟨r', relayed, rfl⟩

lemma Kept.routed [LawfulMessageId μ] {s : World μ ι α} (hs : s.Kept) (what : Mail μ ι α) :
    s.Routed what where
  fifo := hs.fifo
  nodup := hs.ticketed.nodup
  reply := by
    intro r' effects client id content hcall hmem
    obtain ⟨r, hr, hkey, hreq, client', hsender, heq⟩ := hs.mem_replies hcall hmem rfl
    obtain ⟨rfl, rfl, rfl⟩ := Effect.reply.inj heq
    have hmem := hs.ticketed.sublist.subset hr
    refine ⟨rfl, r, hmem, hkey, hreq, hsender, rfl, fun other hother hsame => ?_⟩
    exact List.inj_on_of_nodup_map hs.ticketed.nodup hother hmem (hsame.trans hkey.symm)
  once := by
    intro r' effects hcall hany
    obtain ⟨effect, heffect, hreply⟩ := List.any_eq_true.mp hany
    obtain ⟨r, hr, hkey, -⟩ := hs.mem_replies hcall heffect hreply
    constructor
    · rcases enqueue_replies hs hcall with hnone | ⟨relayed, rfl, hnone⟩
      · simp [hnone] at hany
      · have hle := (List.countP_le_length (p := Effect.isReply)).trans
          (s.router.proxy_.length_reply_le what s.router.workers_)
        have hzero : relayed.countP Effect.isReply = 0 := by
          rw [List.countP_eq_zero]
          simpa using hnone
        have hpos := List.countP_pos_iff.mpr ⟨effect, heffect, hreply⟩
        rw [List.countP_append] at hpos ⊢
        omega
    · intro entry hentry hmid
      by_contra hreplied
      rw [Bool.not_eq_false] at hreplied
      exact (hs.replied entry hentry hreplied).2 r hr (hkey.trans hmid.symm)
  delivered := by
    intro w r client hr hkey hsender hw hcontrol hreq hclient
    obtain ⟨r', relayed, hcall⟩ :=
      hs.enqueue_response hr hkey (List.ne_nil_of_mem hw) hcontrol
    refine ⟨r', _, hcall, List.mem_append_left _ ?_⟩
    have hwants := (hs.wants_iff (hs.ticketed.sublist.subset hr)).mpr hreq
    rw [hs.ticketed.mem_reply_iff, hsender]
    exact ⟨List.mem_map_of_mem hw, r, hr, hkey, hwants, client, hclient, rfl⟩

end World

/-- In every run, the answers of every call go where they belong. -/
theorem routed_always [LawfulMessageId μ] (loadThresholdToHold : UInt64)
    (mails : List (Mail μ ι α)) :
    Run.Each World.step (fun s what => ∀ w, s = .ok w → w.Routed what)
      (.ok (World.make loadThresholdToHold)) mails :=
  Run.each_of_step (I := fun s => ∀ w, s = .ok w → w.Kept)
    (fun _ _ hI => World.kept_step hI) (fun _ what hI w hw => (hI w hw).routed what)
    (fun _ hw => Except.ok.inj hw ▸ World.kept_make loadThresholdToHold) mails

/-- Two clients ask with the same number, and the answers cross and come twice. -/
theorem routed_always_crossed : Run.Each World.step
    (fun (s : Except Fault (World Id ℕ String)) what => ∀ w, s = .ok w → w.Routed what)
    (.ok (World.make 10))
    [⟨{}, none, .put 1⟩, ⟨{}, none, .put 2⟩, ⟨ask 5, some 7, .other "a"⟩,
      ⟨ask 5, some 8, .other "b"⟩, ⟨answer 2, some 2, .other "B"⟩,
      ⟨answer 1, some 1, .other "A"⟩, ⟨answer 1, some 1, .other "A"⟩] :=
  routed_always 10 _

/-- A first response of a worker that holds a `get` is taken for a request of the list of the
workers, and the client is not answered. -/
theorem routed_get : ∃ s : World Id ℕ Unit,
    Run.run World.step (.ok (World.make 10)) [⟨{}, none, .put 1⟩, ⟨ask 5, some 7, .other ()⟩]
        = .ok s
      ∧ ⟨1, ask 1, ⟨ask 5, some 7, .other ()⟩⟩ ∈ relays s.log
      ∧ (∀ entry ∈ s.log, entry.1.mid ≠ answer 1) ∧ 1 ∈ s.router.workers_
      ∧ ∃ r' effects, s.router.enqueue ⟨answer 1, some 1, .get⟩ = .ok (r', effects)
        ∧ effects.any Effect.isReply = false := by
  refine ⟨_, rfl, ?_, ?_, ?_, _, _, rfl, ?_⟩ <;> decide

end LoadBalancer

end Cdcf
