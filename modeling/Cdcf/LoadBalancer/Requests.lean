import Cdcf.LoadBalancer.Placement
import Cdcf.LoadBalancer.Replies

/-!
What becomes of the requests.

A request that is accepted is held and then relayed, and one that is refused is answered with the
empty message.  After it was relayed its ticket stands for it, until the worker answers.  The
functions that remove workers leave the tickets alone, and a response from an actor that is no
worker uses a ticket up without an answer, so a request can be lost in both ways.

* `Served`: no request is lost;
* `Serves`: the condition on a mail under which none is lost;
* `served_always_iff`: both over a run.
-/

namespace Cdcf

namespace LoadBalancer

open Sample

variable {μ ι α : Type*} [MessageId μ] [DecidableEq μ] [DecidableEq ι]

/-- What was relayed is a request of the client. -/
def Relay.Asks (r : Relay μ ι α) (client : ι) : Prop :=
  isRequest r.mail.mid = true ∧ r.mail.sender = some client

namespace World

/-- There is a ticket for the request, and it is at a worker. -/
def Live (s : World μ ι α) (r : Relay μ ι α) (client : ι) : Prop :=
  s.router.proxy_.tickets_ r.key = some ⟨responseId r.mail.mid, some client⟩
    ∧ r.worker ∈ s.router.workers_

/-- The request got the content of a response to it. -/
def Answered (s : World μ ι α) (r : Relay μ ι α) (client : ι) : Prop :=
  ∃ entry ∈ s.log, entry.1.mid = r.key
    ∧ .reply client (responseId r.mail.mid) entry.1.content ∈ entry.2

/-- No request is lost: what is accepted is held or was relayed, what is refused got the empty
message, and every request relayed is live or answered. -/
structure Served (s : World μ ι α) : Prop where
  fifo : s.router.policy_.mails_.reverse ++ (relays s.log).map Relay.mail = accepted s.log
  refused : ∀ entry ∈ s.log, entry.2.any Effect.isEmpty = true →
    ∃ client, entry.1.sender = some client ∧ .empty client (responseId entry.1.mid) ∈ entry.2
  relayed : ∀ r ∈ relays s.log, ∀ client, r.Asks client → s.Live r client ∨ s.Answered r client

/-- The condition on a mail: the call has a result; a mail that `Filter` takes removes no worker
that has a request pending; and a response to a pending request comes from a worker. -/
structure Serves (s : World μ ι α) (what : Mail μ ι α) : Prop where
  get : ¬(what.content = .get ∧ what.sender = none)
  placeable : s.Placeable what
  removes : s.router.takes what = true → ∀ r ∈ pending s.log, ∀ client, r.Asks client →
    s.router.removes what.content r.worker = false
  response : s.router.takes what = false → ∀ r ∈ pending s.log, ∀ client, r.Asks client →
    r.key = what.mid → what.sender ∈ s.router.workers_.map some

/-! ### Tickets and answers -/

omit [DecidableEq ι] in
/-- What is live is what is pending at a worker. -/
lemma Kept.live_iff [LawfulMessageId μ] {s : World μ ι α} (hs : s.Kept) {r : Relay μ ι α}
    {client : ι} (hr : r ∈ relays s.log) (hasks : r.Asks client) :
    s.Live r client ↔ r ∈ pending s.log ∧ r.worker ∈ s.router.workers_ := by
  refine and_congr_left fun _ => ?_
  rw [hs.ticketed.tickets]
  constructor
  · intro hticket
    obtain ⟨r', hfind, -⟩ := Option.map_eq_some_iff.mp hticket
    have hmem : r' ∈ pending s.log := List.mem_of_find?_eq_some hfind
    have hkey : r'.key = r.key := by simpa using List.find?_some hfind
    rwa [← List.inj_on_of_nodup_map hs.ticketed.nodup (hs.ticketed.sublist.subset hmem) hr hkey]
  · intro hpending
    rw [hs.ticketed.find?_key hpending, Option.map_some, Ticket.replyTo,
      if_pos ((hs.wants_iff hr).mpr hasks.1), hasks.2]

omit [DecidableEq ι] in
/-- What is answered is not pending. -/
lemma Kept.not_pending {s : World μ ι α} (hs : s.Kept) {r : Relay μ ι α} {client : ι}
    (h : s.Answered r client) : r ∉ pending s.log := by
  obtain ⟨entry, hentry, hmid, hreply⟩ := h
  intro hr
  exact (hs.replied entry hentry (List.any_eq_true.mpr ⟨_, hreply, rfl⟩)).2 r hr hmid.symm

omit [DecidableEq μ] [DecidableEq ι] in
/-- An answer stays in the log. -/
lemma Answered.cons {s : World μ ι α} {r : Relay μ ι α} {client : ι} (h : s.Answered r client)
    (router : Router μ ι α) (entry : Mail μ ι α × List (Effect μ ι α)) :
    Answered ⟨router, entry :: s.log⟩ r client := by
  obtain ⟨old, hold, hmid, hreply⟩ := h
  exact ⟨old, List.mem_cons_of_mem _ hold, hmid, hreply⟩

/-! ### One call -/

/-- A mail that `Filter` takes loses no request if and only if it removes no worker of one that is
pending. -/
lemma relayed_filter_iff [LawfulMessageId μ] {s : World μ ι α} (hk : s.Kept) (hs : s.Served)
    {what : Mail μ ι α} {r' : Router μ ι α} {effects : List (Effect μ ι α)}
    (htakes : s.router.takes what = true)
    (h : s.router.filter what = some (.ok (r', effects))) :
    (∀ r ∈ relays ((what, effects) :: s.log), ∀ client, r.Asks client →
        Live ⟨r', (what, effects) :: s.log⟩ r client
          ∨ Answered ⟨r', (what, effects) :: s.log⟩ r client)
      ↔ ∀ r ∈ pending s.log, ∀ client, r.Asks client →
        s.router.removes what.content r.worker = false := by
  have hk' := hk.filter htakes h
  have hseats := Router.filter_reseats hk.metered h
  obtain ⟨hrelays, hpending, -⟩ := log_filter htakes (Router.filter_effects h)
  have hworker : ∀ w, s.router.removes what.content w = true → w ∉ r'.workers_ := by
    intro w hrem hw
    rcases (hseats.mem_workers w).mp hw with ⟨-, hkeep⟩ | hput
    · exact hkeep hrem
    · rw [hput] at hrem
      exact Bool.false_ne_true hrem
  constructor
  · intro hserved r hr client hasks
    have hmem := hk.ticketed.sublist.subset hr
    by_contra hrem
    rw [Bool.not_eq_false] at hrem
    rcases hserved r (by rwa [hrelays]) client hasks with hlive | hanswered
    · exact hworker r.worker hrem hlive.2
    · exact hk'.not_pending hanswered (by rwa [hpending])
  · intro hkeeps r hr client hasks
    rw [hrelays] at hr
    rcases hs.relayed r hr client hasks with hlive | hanswered
    · obtain ⟨hwaits, hw⟩ := (hk.live_iff hr hasks).mp hlive
      refine Or.inl ((hk'.live_iff (by rwa [hrelays]) hasks).mpr ⟨by rwa [hpending], ?_⟩)
      refine (hseats.mem_workers r.worker).mpr (Or.inl ⟨hw, ?_⟩)
      simp [hkeeps r hwaits client hasks]
    · exact Or.inr (hanswered.cons r' _)

omit [DecidableEq ι] in
/-- What is pending at a worker is live. -/
lemma Kept.live_new [LawfulMessageId μ] {s : World μ ι α} (hk : s.Kept) {r : Relay μ ι α}
    {client : ι} (hr : r ∈ pending s.log) (hw : r.worker ∈ s.router.workers_)
    (hasks : r.Asks client) : s.Live r client :=
  (hk.live_iff (hk.ticketed.sublist.subset hr) hasks).mpr ⟨hr, hw⟩

/-- A mail that is placed loses no request. -/
lemma relayed_mail [LawfulMessageId μ] {s : World μ ι α} (hk : s.Kept) (hs : s.Served)
    {what : Mail μ ι α} {r' : Router μ ι α} {effects : List (Effect μ ι α)}
    (htakes : s.router.takes what = false) (hresp : isResponse what.mid = false)
    (h : s.router.route (some what) = .ok (r', effects)) :
    ∀ r ∈ relays ((what, effects) :: s.log), ∀ client, r.Asks client →
      Live ⟨r', (what, effects) :: s.log⟩ r client
        ∨ Answered ⟨r', (what, effects) :: s.log⟩ r client := by
  have hk' := hk.mail htakes hresp h
  have hplaces := Router.route_places hk.metered h
  have hpending := pending_mail hresp effects s.log
  intro r hr client hasks
  rcases List.mem_append.mp hr with hr | hr
  · refine Or.inl (hk'.live_new ?_ ?_ hasks)
    · rw [hpending]
      exact List.mem_append_left _ hr
    · rw [hplaces.workers_eq]
      exact hplaces.worker r hr
  · rcases hs.relayed r hr client hasks with hlive | hanswered
    · obtain ⟨hwaits, hw⟩ := (hk.live_iff hr hasks).mp hlive
      refine Or.inl (hk'.live_new ?_ ?_ hasks)
      · rw [hpending]
        exact List.mem_append_right _ hwaits
      · rwa [hplaces.workers_eq]
    · exact Or.inr (hanswered.cons r' _)

/-- A response loses no request if and only if it comes from a worker, should a request be
pending under its id. -/
lemma relayed_response_iff [LawfulMessageId μ] {s : World μ ι α} (hk : s.Kept) (hs : s.Served)
    {what : Mail μ ι α} {r' : Router μ ι α} {relayed : List (Effect μ ι α)}
    (htakes : s.router.takes what = false) (hresp : isResponse what.mid = true)
    (h : ((s.router.discharge what.sender).reply what).1.route none = .ok (r', relayed)) :
    let log := (what, (s.router.proxy_.reply what s.router.workers_).2 ++ relayed) :: s.log
    (∀ r ∈ relays log, ∀ client, r.Asks client → Live ⟨r', log⟩ r client
        ∨ Answered ⟨r', log⟩ r client)
      ↔ ∀ r ∈ pending s.log, ∀ client, r.Asks client → r.key = what.mid →
        what.sender ∈ s.router.workers_.map some := by
  intro log
  have hk' := hk.response htakes hresp h
  have hplaces := Router.route_places (hk.metered.discharge_reply what) h
  have hworkers : r'.workers_ = s.router.workers_ := hplaces.workers_eq
  obtain ⟨hrelays, hpending⟩ := log_response relayed htakes hresp
  obtain ⟨-, hnew⟩ := hplaces.ticketed (hk.ticketed.reply what s.router.workers_)
  constructor
  · intro hserved r hr client hasks hkey
    have hmem := hk.ticketed.sublist.subset hr
    have hmem' : r ∈ relays log := by
      rw [hrelays]
      exact List.mem_append_right _ hmem
    rcases hserved r hmem' client hasks with hlive | ⟨entry, hentry, hmid, hreply⟩
    · -- its ticket is used up
      have hwaits := ((hk'.live_iff hmem' hasks).mp hlive).1
      rw [hpending] at hwaits
      rcases List.mem_append.mp hwaits with hwaits | hwaits
      · exact absurd rfl (hnew r hwaits r hmem)
      · simp [hkey] at hwaits
    · rcases List.mem_cons.mp hentry with rfl | hentry
      · rcases List.mem_append.mp hreply with hreply | hreply
        · exact (hk.ticketed.mem_reply_iff.mp hreply).1
        · have hany : relayed.any Effect.isReply = true :=
            List.any_eq_true.mpr ⟨_, hreply, rfl⟩
          simp [hplaces.no_reply] at hany
      · exact absurd hr (hk.not_pending ⟨entry, hentry, hmid, hreply⟩)
  · intro hworker r hr client hasks
    rw [hrelays] at hr
    rcases List.mem_append.mp hr with hr | hr
    · refine Or.inl (hk'.live_new ?_ ?_ hasks)
      · rw [hpending]
        exact List.mem_append_left _ hr
      · rw [hworkers]
        exact hplaces.worker r hr
    · rcases hs.relayed r hr client hasks with hlive | hanswered
      · obtain ⟨hwaits, hw⟩ := (hk.live_iff hr hasks).mp hlive
        by_cases hkey : r.key = what.mid
        · -- the response answers it
          refine Or.inr ⟨_, List.mem_cons_self, hkey.symm, List.mem_append_left _ ?_⟩
          exact hk.ticketed.mem_reply_iff.mpr ⟨hworker r hwaits client hasks hkey, r, hwaits, hkey,
            (hk.wants_iff hr).mpr hasks.1, client, hasks.2, rfl⟩
        · refine Or.inl (hk'.live_new ?_ ?_ hasks)
          · rw [hpending]
            exact List.mem_append_right _ (List.mem_filter.mpr ⟨hwaits, by simpa using hkey⟩)
          · rwa [hworkers]
      · exact Or.inr (hanswered.cons r' _)

/-- What is refused got the empty message, after every call. -/
lemma refused_enqueue [LawfulMessageId μ] {s : World μ ι α} (hk : s.Kept) {what : Mail μ ι α}
    {r' : Router μ ι α} {effects : List (Effect μ ι α)}
    (h : s.router.enqueue what = .ok (r', effects))
    (hany : effects.any Effect.isEmpty = true) :
    ∃ client, what.sender = some client ∧ .empty client (responseId what.mid) ∈ effects := by
  rcases Router.enqueue_cases h with
    ⟨-, hfilter⟩ | ⟨-, -, hroute⟩ | ⟨-, -, relayed, rfl, hroute⟩
  · obtain ⟨effect, heffect, hempty⟩ := List.any_eq_true.mp hany
    cases effect with
    | empty client id =>
        obtain ⟨-, hsender, rfl⟩ := ((Router.filter_effects hfilter).empty client id).mp heffect
        exact ⟨client, hsender, heffect⟩
    | _ => simp [Effect.isEmpty] at hempty
  · simp [(Router.route_places hk.metered hroute).no_empty] at hany
  · rw [List.any_append,
      (Router.route_places (hk.metered.discharge_reply what) hroute).no_empty,
      Bool.or_false] at hany
    obtain ⟨effect, heffect, hempty⟩ := List.any_eq_true.mp hany
    obtain ⟨client, id, rfl⟩ := Proxy.mem_reply heffect
    simp [Effect.isEmpty] at hempty

/-- After a call no request is lost if and only if every request relayed is live or answered. -/
lemma served_enqueue_iff [LawfulMessageId μ] {s : World μ ι α} (hk : s.Kept) (hs : s.Served)
    {what : Mail μ ι α} {r' : Router μ ι α} {effects : List (Effect μ ι α)}
    (hcall : s.router.enqueue what = .ok (r', effects)) :
    Served ⟨r', (what, effects) :: s.log⟩
      ↔ ∀ r ∈ relays ((what, effects) :: s.log), ∀ client, r.Asks client →
        Live ⟨r', (what, effects) :: s.log⟩ r client
          ∨ Answered ⟨r', (what, effects) :: s.log⟩ r client := by
  refine ⟨Served.relayed, fun hrelayed => ⟨(hk.enqueue hcall).fifo, ?_, hrelayed⟩⟩
  intro entry hentry hany
  rcases List.mem_cons.mp hentry with rfl | hentry
  · exact refused_enqueue hk hcall hany
  · exact hs.refused entry hentry hany

/-- One call out of a state in which no request is lost: it has a result in which none is lost if
and only if the mail meets the condition. -/
lemma served_step_iff [LawfulMessageId μ] {s : World μ ι α} (hk : s.Kept) (hs : s.Served)
    (what : Mail μ ι α) :
    (∃ s', step (.ok s) what = .ok s' ∧ s'.Served) ↔ s.Serves what := by
  have herror := Router.enqueue_eq_error_iff hk.metered what
  have hplaceable := placeable_step_iff hk.metered what
  cases hcall : s.router.enqueue what with
  | error fault =>
      rw [iff_false_left (not_exists_step_of_error hcall Served)]
      intro hserves
      rcases (herror fault).mp hcall with ⟨-, hget⟩ | ⟨rfl, -⟩
      · exact hserves.get hget
      · exact hplaceable.mpr hserves.placeable (step_eq_error.mpr hcall)
  | ok result =>
      obtain ⟨r', effects⟩ := result
      have hget : ¬(what.content = .get ∧ what.sender = none) := by
        intro h
        have hfault := (herror .noSender).mpr (Or.inl ⟨rfl, h⟩)
        simp [hcall] at hfault
      have hplace : s.Placeable what := by
        rw [← hplaceable, ne_eq, step_eq_error, hcall]
        simp
      rw [exists_step_of_ok hcall, served_enqueue_iff hk hs hcall]
      rcases Router.enqueue_cases hcall with
        ⟨htakes, hfilter⟩ | ⟨htakes, hresp, hroute⟩ | ⟨htakes, hresp, relayed, rfl, hroute⟩
      · rw [relayed_filter_iff hk hs htakes hfilter]
        exact ⟨fun h => ⟨hget, hplace, fun _ => h, by simp [htakes]⟩, fun h => h.removes htakes⟩
      · refine iff_of_true (relayed_mail hk hs htakes hresp hroute)
          ⟨hget, hplace, by simp [htakes], fun _ r hr client _ hkey => ?_⟩
        have := hk.ticketed.isResponse_key (hk.ticketed.sublist.subset hr)
        simp [hkey, hresp] at this
      · refine (relayed_response_iff hk hs htakes hresp hroute).trans ?_
        exact ⟨fun h => ⟨hget, hplace, by simp [htakes], fun _ => h⟩, fun h => h.response htakes⟩

end World

/-- No request is lost all along a run if and only if every mail meets the condition in the state
in which it arrives. -/
theorem served_always_iff [LawfulMessageId μ] (loadThresholdToHold : UInt64)
    (mails : List (Mail μ ι α)) :
    Run.Always World.step (fun s => ∃ w, s = .ok w ∧ w.Served)
        (.ok (World.make loadThresholdToHold)) mails
      ↔ Run.Each World.step (fun s what => ∃ w, s = .ok w ∧ w.Serves what)
        (.ok (World.make loadThresholdToHold)) mails := by
  have hserved : (World.make loadThresholdToHold : World μ ι α).Served :=
    ⟨rfl, fun _ h => absurd h List.not_mem_nil, fun _ h => absurd h List.not_mem_nil⟩
  exact World.always_ok_iff_each (fun s what hk hs => World.served_step_iff hk hs what)
    (fun _ _ => World.kept_step) (World.kept_make loadThresholdToHold) hserved mails

/-- A request is relayed, and its worker is removed. -/
theorem served_lost : ¬Run.Always World.step
    (fun s : Except Fault (World Id ℕ Unit) => ∃ w, s = .ok w ∧ w.Served) (.ok (World.make 10))
    [⟨{}, none, .put 1⟩, ⟨ask 5, some 7, .other ()⟩, ⟨{}, none, .delete 1⟩] := by
  intro h
  obtain ⟨s, hs, hserved⟩ := h.last
  obtain rfl := Except.ok.inj hs
  rcases hserved.relayed ⟨1, ask 1, ⟨ask 5, some 7, .other ()⟩⟩ (by decide) 7 ⟨rfl, rfl⟩ with
    hlive | ⟨entry, hentry, hmid, -⟩
  · exact absurd hlive.2 (by decide)
  · exact absurd ⟨entry, hentry, hmid⟩ (show ¬∃ entry ∈ _, entry.1.mid = answer 1 by decide)

/-- A worker answers a client and is removed then. -/
theorem served_always_answered : Run.Always World.step
    (fun s : Except Fault (World Id ℕ Unit) => ∃ w, s = .ok w ∧ w.Served) (.ok (World.make 10))
    [⟨{}, none, .put 1⟩, ⟨ask 5, some 7, .other ()⟩, ⟨answer 1, some 1, .other ()⟩,
      ⟨{}, none, .delete 1⟩] := by
  refine (served_always_iff 10 _).mpr
    ⟨⟨_, rfl, ?_⟩, ⟨_, rfl, ?_⟩, ⟨_, rfl, ?_⟩, ⟨_, rfl, ?_⟩, trivial⟩
  · exact ⟨by decide, fun _ => Or.inl rfl, fun _ _ hr => absurd hr List.not_mem_nil,
      fun _ _ hr => absurd hr List.not_mem_nil⟩
  · exact ⟨by decide, fun h => absurd h (by decide), fun _ _ hr => absurd hr List.not_mem_nil,
      fun _ _ hr => absurd hr List.not_mem_nil⟩
  · exact ⟨by decide, fun h => absurd h (by decide), fun h => absurd h (by decide),
      fun _ _ _ _ _ _ => by decide⟩
  · exact ⟨by decide, fun _ => Or.inl rfl, fun _ _ hr => absurd hr List.not_mem_nil,
      fun _ _ hr => absurd hr List.not_mem_nil⟩

end LoadBalancer

end Cdcf
