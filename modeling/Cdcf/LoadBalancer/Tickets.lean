import Cdcf.LoadBalancer.Router

/-!
The tickets and what was relayed.

The log of the calls tells which mails were accepted for placing, which were relayed and under
which ids, and to which of these no response was handed on since.  The tickets are exactly the
last.

* `accepted`, `relays`, `pending`: read from the log;
* `Ticketed`: the ids relayed differ, and there is a ticket for what is pending and for nothing
  else; kept by placing a ticket and by using one up;
* `World.Kept`: the invariant of all worlds that are reached, `kept_step`.
-/

namespace Cdcf

namespace LoadBalancer

variable {μ ι α : Type*} [MessageId μ] [DecidableEq μ] [DecidableEq ι]

/-- A mail that was relayed, to whom and under which id. -/
structure Relay (μ ι α : Type*) where
  worker : ι
  newId : μ
  mail : Mail μ ι α
  deriving DecidableEq, Repr

/-- The id of the responses to what was relayed. -/
def Relay.key (r : Relay μ ι α) : μ := responseId r.newId

namespace Effect

/-- What is relayed. -/
def relay? : Effect μ ι α → Option (Relay μ ι α)
  | .relay worker newId mail => some ⟨worker, newId, mail⟩
  | _ => none

/-- The effect is an answer by way of a ticket. -/
def isReply : Effect μ ι α → Bool
  | .reply .. => true
  | _ => false

/-- The effect is the empty message. -/
def isEmpty : Effect μ ι α → Bool
  | .empty .. => true
  | _ => false

end Effect

/-- The mail is a response that is handed on. -/
def Mail.isHandedOn (what : Mail μ ι α) : Bool :=
  isResponse what.mid && !what.content.isControl

/-- The mails that were accepted for placing, the latest first: what is neither for the router
itself nor a response, and is not refused. -/
def accepted : List (Mail μ ι α × List (Effect μ ι α)) → List (Mail μ ι α)
  | [] => []
  | (what, effects) :: log =>
      if !what.content.isControl && !isResponse what.mid && !effects.any Effect.isEmpty then
        what :: accepted log
      else accepted log

/-- What was relayed, the latest first. -/
def relays (log : List (Mail μ ι α × List (Effect μ ι α))) : List (Relay μ ι α) :=
  log.flatMap fun entry => entry.2.filterMap Effect.relay?

/-- What was relayed and had no response handed on since. -/
def pending : List (Mail μ ι α × List (Effect μ ι α)) → List (Relay μ ι α)
  | [] => []
  | (what, effects) :: log =>
      effects.filterMap Effect.relay?
        ++ if what.isHandedOn then (pending log).filter (·.key ≠ what.mid) else pending log

/-! ### The table of the tickets -/

/-- The ids differ, and the tickets are those of what is pending. -/
structure Ticketed (p : Proxy μ ι) (relayed waiting : List (Relay μ ι α)) : Prop where
  last : p.lastRequestId_ = next^[relayed.length] makeMessageId
  newId : ∀ r ∈ relayed, ∃ n < relayed.length, ∃ normal, r.newId = allocated n normal
  nodup : (relayed.map Relay.key).Nodup
  sublist : waiting.Sublist relayed
  tickets : ∀ id, p.tickets_ id
    = (waiting.find? (·.key = id)).map fun r => Ticket.replyTo r.mail

namespace Ticketed

variable {p : Proxy μ ι} {relayed waiting : List (Relay μ ι α)}

omit [DecidableEq ι] in
lemma init : Ticketed (Proxy.init : Proxy μ ι) ([] : List (Relay μ ι α)) [] where
  last := rfl
  newId := fun _ h => absurd h List.not_mem_nil
  nodup := List.nodup_nil
  sublist := List.Sublist.refl _
  tickets := fun _ => rfl

omit [DecidableEq ι] in
/-- What is pending is found under its key. -/
lemma find?_key (h : Ticketed p relayed waiting) {r : Relay μ ι α} (hr : r ∈ waiting) :
    waiting.find? (·.key = r.key) = some r := by
  have hnodup : (waiting.map Relay.key).Nodup := h.nodup.sublist (h.sublist.map Relay.key)
  cases hfind : waiting.find? (·.key = r.key) with
  | none => simpa using List.find?_eq_none.mp hfind r hr
  | some r' =>
      have hkey : r'.key = r.key := by simpa using List.find?_some hfind
      rw [List.inj_on_of_nodup_map hnodup (List.mem_of_find?_eq_some hfind) hr hkey]

omit [DecidableEq ι] in
/-- What was relayed has the id of a response for its key. -/
lemma isResponse_key [LawfulMessageId μ] (h : Ticketed p relayed waiting) {r : Relay μ ι α}
    (hr : r ∈ relayed) : isResponse r.key = true := by
  obtain ⟨n, -, normal, hid⟩ := h.newId r hr
  rw [Relay.key, hid]
  exact LawfulMessageId.isResponse_responseId _ (LawfulMessageId.isRequest_allocated n normal)

omit [DecidableEq ι] in
/-- The id allocated next is that of nothing relayed. -/
lemma fresh [LawfulMessageId μ] (h : Ticketed p relayed waiting) (mail : Mail μ ι α) :
    (p.placeTicket mail).1 = allocated relayed.length (isNormalPriority mail.mid)
      ∧ ∀ r ∈ relayed, r.key ≠ responseId (p.placeTicket mail).1 := by
  have hnew : (p.placeTicket mail).1 = allocated relayed.length (isNormalPriority mail.mid) := by
    rw [Proxy.placeTicket, Proxy.allocateRequestId, allocated, Function.iterate_succ_apply', h.last]
  refine ⟨hnew, fun r hr heq => ?_⟩
  obtain ⟨n, hn, normal, hid⟩ := h.newId r hr
  rw [Relay.key, hid, hnew] at heq
  have hsame := LawfulMessageId.responseId_injective _ _
    (LawfulMessageId.isRequest_allocated n normal) (LawfulMessageId.isRequest_allocated _ _) heq
  have := LawfulMessageId.allocated_injective _ _ _ _ hsame
  omega

omit [DecidableEq ι] in
/-- A mail is relayed. -/
lemma place [LawfulMessageId μ] (h : Ticketed p relayed waiting) (worker : ι)
    (mail : Mail μ ι α) :
    Ticketed (p.placeTicket mail).2 (⟨worker, (p.placeTicket mail).1, mail⟩ :: relayed)
      (⟨worker, (p.placeTicket mail).1, mail⟩ :: waiting) := by
  obtain ⟨hnew, hfresh⟩ := h.fresh mail
  refine ⟨?_, fun r hr => ?_, ?_, h.sublist.cons_cons _, fun id => ?_⟩
  · rw [List.length_cons, Function.iterate_succ_apply', ← h.last]
    rfl
  · rw [List.length_cons]
    rcases List.mem_cons.mp hr with rfl | hr
    · exact ⟨relayed.length, Nat.lt_succ_self _, _, hnew⟩
    · obtain ⟨n, hn, normal, hid⟩ := h.newId r hr
      exact ⟨n, Nat.lt_succ_of_lt hn, normal, hid⟩
  · rw [List.map_cons, List.nodup_cons]
    refine ⟨fun hmem => ?_, h.nodup⟩
    obtain ⟨r, hr, hkey⟩ := List.mem_map.mp hmem
    exact hfresh r hr hkey
  · have hnone : p.tickets_ (responseId (p.placeTicket mail).1) = none := by
      rw [h.tickets, Option.map_eq_none_iff, List.find?_eq_none]
      exact fun r hr => by simpa using hfresh r (h.sublist.subset hr)
    have htable : (p.placeTicket mail).2.tickets_ = Function.update p.tickets_
        (responseId (p.placeTicket mail).1) (some (Ticket.replyTo mail)) :=
      emplace_of_none _ hnone
    rw [htable, List.find?_cons]
    by_cases hid : id = responseId (p.placeTicket mail).1
    · simp [hid, Relay.key]
    · rw [Function.update_of_ne hid, h.tickets]
      simp [Relay.key, Ne.symm hid]

/-- A response is handed on: what is pending under its id is pending no more. -/
lemma reply (h : Ticketed p relayed waiting) (what : Mail μ ι α) (workers : List ι) :
    Ticketed (p.reply what workers).1 relayed (waiting.filter (·.key ≠ what.mid)) := by
  have hproxy : (p.reply what workers).1.lastRequestId_ = p.lastRequestId_
      ∧ (p.reply what workers).1.tickets_ = erase p.tickets_ what.mid := by
    rw [Proxy.reply, Proxy.extractTicket]
    cases hticket : p.tickets_ what.mid with
    | none =>
        refine ⟨rfl, funext fun id => ?_⟩
        by_cases hid : id = what.mid
        · rw [hid, erase_self]
          exact hticket
        · rw [erase_of_ne _ hid]
    | some ticket =>
        simp only
        split <;> exact ⟨rfl, rfl⟩
  refine ⟨hproxy.1.trans h.last, h.newId, h.nodup, List.filter_sublist.trans h.sublist,
    fun id => ?_⟩
  rw [hproxy.2, List.find?_filter]
  by_cases hid : id = what.mid
  · rw [hid, erase_self, eq_comm, Option.map_eq_none_iff, List.find?_eq_none]
    simp
  · rw [erase_of_ne _ hid, h.tickets]
    congr 1
    refine congrArg (fun f => waiting.find? f) (funext fun r => ?_)
    by_cases hr : r.key = id
    · simp [hr, hid]
    · simp [hr]

/-- What answers a response: the ticket of what is pending under its id, if the sender is a
worker, and if the mail relayed wants an answer. -/
lemma mem_reply_iff (h : Ticketed p relayed waiting) {what : Mail μ ι α} {workers : List ι}
    {effect : Effect μ ι α} :
    effect ∈ (p.reply what workers).2 ↔ what.sender ∈ workers.map some ∧
      ∃ r ∈ waiting, r.key = what.mid ∧ r.mail.mid ≠ responseId r.mail.mid
        ∧ ∃ client, r.mail.sender = some client
          ∧ effect = .reply client (responseId r.mail.mid) what.content := by
  have hreply : (p.reply what workers).2
      = (p.extractTicket what workers).1.reply what.content := rfl
  rw [hreply, Proxy.extractTicket, h.tickets]
  cases hfind : waiting.find? (·.key = what.mid) with
  | none =>
      have hnone : ∀ r ∈ waiting, r.key ≠ what.mid := by
        simpa using List.find?_eq_none.mp hfind
      simp only [Option.map_none, Ticket.reply, List.not_mem_nil, false_iff]
      rintro ⟨-, r, hr, hkey, -⟩
      exact hnone r hr hkey
  | some r =>
      have hkey : r.key = what.mid := by simpa using List.find?_some hfind
      have hmem : r ∈ waiting := List.mem_of_find?_eq_some hfind
      have hunique : ∀ r' ∈ waiting, r'.key = what.mid → r' = r := by
        intro r' hr' hkey'
        rw [← hkey', h.find?_key hr'] at hfind
        exact Option.some_inj.mp hfind
      have hticket : (∃ r' ∈ waiting, r'.key = what.mid
          ∧ r'.mail.mid ≠ responseId r'.mail.mid ∧ ∃ client, r'.mail.sender = some client
            ∧ effect = .reply client (responseId r'.mail.mid) what.content)
          ↔ effect ∈ (Ticket.replyTo r.mail).reply what.content := by
        rw [Ticket.replyTo]
        constructor
        · rintro ⟨r', hr', hkey', hwants, client, hsender, rfl⟩
          obtain rfl := hunique r' hr' hkey'
          simp [Ticket.reply, hwants, hsender]
        · intro heffect
          by_cases hwants : r.mail.mid = responseId r.mail.mid
          · rw [if_neg (not_not.mpr hwants)] at heffect
            exact absurd heffect List.not_mem_nil
          · rw [if_pos hwants] at heffect
            cases hsender : r.mail.sender with
            | none => simp [Ticket.reply, hsender] at heffect
            | some client =>
                refine ⟨r, hmem, hkey, hwants, client, hsender, ?_⟩
                simpa [Ticket.reply, hsender] using heffect
      rw [hticket, Option.map_some]
      by_cases hworker : what.sender ∈ workers.map some
      · simp only [hworker, if_true, true_and]
      · simp only [hworker, if_false, false_and, iff_false]
        simp [Ticket.reply]

end Ticketed

/-! ### One call -/

namespace Router

/-- What placing a mail does to the tickets and to the mails that are held. -/
structure Places (r r' : Router μ ι α) (mail : Option (Mail μ ι α))
    (effects : List (Effect μ ι α)) : Prop where
  ticketed : ∀ {relayed waiting : List (Relay μ ι α)}, Ticketed r.proxy_ relayed waiting →
    Ticketed r'.proxy_ (effects.filterMap Effect.relay? ++ relayed)
        (effects.filterMap Effect.relay? ++ waiting)
      ∧ ∀ new ∈ effects.filterMap Effect.relay?, ∀ old ∈ relayed, old.key ≠ new.key
  fifo : r'.policy_.mails_.reverse ++ (effects.filterMap Effect.relay?).map Relay.mail
    = mail.toList ++ r.policy_.mails_.reverse
  workers_eq : r'.workers_ = r.workers_
  worker : ∀ new ∈ effects.filterMap Effect.relay?, new.worker ∈ r.workers_
  no_reply : effects.any Effect.isReply = false
  no_empty : effects.any Effect.isEmpty = false

lemma route_places [LawfulMessageId μ] {r r' : Router μ ι α} {mail : Option (Mail μ ι α)}
    {effects : List (Effect μ ι α)} (hr : r.Metered) (h : r.route mail = .ok (r', effects)) :
    r.Places r' mail effects := by
  have hrev : (r.policy_.mails_ ++ mail.toList).reverse
      = mail.toList ++ r.policy_.mails_.reverse := by
    cases mail <;> simp
  obtain ⟨policy, -, ⟨rfl, rfl, hmails⟩ | ⟨worker, m, load, hw, -, -, hmails, rfl, rfl⟩⟩ :=
    route_cases hr h
  · refine ⟨fun ht => ⟨ht, by simp⟩, ?_, rfl, by simp, rfl, rfl⟩
    simp [hmails, hrev]
  · have hone : [Effect.relay worker (r.proxy_.placeTicket m).1 m].filterMap Effect.relay?
        = [⟨worker, (r.proxy_.placeTicket m).1, m⟩] := rfl
    refine ⟨fun ht => ⟨ht.place worker m, fun new hnew old hold => ?_⟩, ?_, rfl,
      fun new hnew => ?_, rfl, rfl⟩
    · rw [hone, List.mem_singleton] at hnew
      rw [hnew]
      exact (ht.fresh m).2 old hold
    · rw [← hrev, hmails, hone]
      simp
    · rw [hone, List.mem_singleton] at hnew
      rw [hnew]
      exact hw

end Router

namespace World

/-- What holds in every state that is reached: the tickets are those of what is pending; the
mails that are held and those that were relayed are the mails accepted, in their order; and what
was answered by way of a ticket was relayed and is not pending. -/
structure Kept (s : World μ ι α) : Prop where
  metered : s.router.Metered
  ticketed : Ticketed s.router.proxy_ (relays s.log) (pending s.log)
  fifo : s.router.policy_.mails_.reverse ++ (relays s.log).map Relay.mail = accepted s.log
  replied : ∀ entry ∈ s.log, entry.2.any Effect.isReply = true →
    (∃ r ∈ relays s.log, r.key = entry.1.mid) ∧ ∀ r ∈ pending s.log, r.key ≠ entry.1.mid

omit [DecidableEq ι] in
lemma kept_make (loadThresholdToHold : UInt64) :
    (make loadThresholdToHold : World μ ι α).Kept where
  metered := metered_make loadThresholdToHold _ rfl
  ticketed := Ticketed.init
  fifo := rfl
  replied := fun _ h => absurd h List.not_mem_nil

omit [MessageId μ] [DecidableEq μ] [DecidableEq ι] in
lemma filterMap_relay?_eq_nil {effects : List (Effect μ ι α)}
    (h : ∀ worker newId mail, .relay worker newId mail ∉ effects) :
    effects.filterMap Effect.relay? = [] := by
  rw [List.filterMap_eq_nil_iff]
  intro effect heffect
  cases effect with
  | relay worker newId mail => exact absurd heffect (h worker newId mail)
  | _ => rfl

omit [MessageId μ] [DecidableEq μ] [DecidableEq ι] in
lemma any_isReply_eq_false {effects : List (Effect μ ι α)}
    (h : ∀ client id content, .reply client id content ∉ effects) :
    effects.any Effect.isReply = false := by
  rw [List.any_eq_false]
  intro effect heffect
  cases effect with
  | reply client id content => exact absurd heffect (h client id content)
  | _ => simp [Effect.isReply]

omit [DecidableEq μ] [DecidableEq ι] in
/-- Of the responses, `Filter` takes those that hold something for the router itself. -/
lemma isHandedOn_of_takes [LawfulMessageId μ] {r : Router μ ι α} {what : Mail μ ι α}
    (h : r.takes what = true) : what.isHandedOn = false := by
  rw [Mail.isHandedOn]
  cases hresp : isResponse what.mid with
  | false => rfl
  | true =>
      have hreq : isRequest what.mid = false := by
        by_contra hreq
        have := LawfulMessageId.not_isResponse what.mid (by simpa using hreq)
        simp [hresp] at this
      rw [Router.takes, hreq] at h
      simpa using h

omit [MessageId μ] [DecidableEq μ] [DecidableEq ι] in
/-- What was relayed, after a call. -/
lemma relays_cons (what : Mail μ ι α) (effects : List (Effect μ ι α))
    (log : List (Mail μ ι α × List (Effect μ ι α))) :
    relays ((what, effects) :: log) = effects.filterMap Effect.relay? ++ relays log := rfl

omit [DecidableEq ι] in
/-- A mail that `Filter` takes relays nothing and answers nothing. -/
lemma log_filter [LawfulMessageId μ] {s : World μ ι α} {what : Mail μ ι α}
    {effects : List (Effect μ ι α)} (htakes : s.router.takes what = true)
    (heffects : s.router.OwnEffects what effects) :
    relays ((what, effects) :: s.log) = relays s.log
      ∧ pending ((what, effects) :: s.log) = pending s.log
      ∧ effects.any Effect.isReply = false := by
  have hrelay := filterMap_relay?_eq_nil heffects.relay
  refine ⟨?_, ?_, any_isReply_eq_false heffects.reply⟩
  · rw [relays_cons, hrelay, List.nil_append]
  · rw [pending, hrelay, isHandedOn_of_takes htakes]
    rfl

omit [DecidableEq ι] in
/-- A mail that is placed leaves pending what is pending. -/
lemma pending_mail {what : Mail μ ι α} (hresp : isResponse what.mid = false)
    (effects : List (Effect μ ι α)) (log : List (Mail μ ι α × List (Effect μ ι α))) :
    pending ((what, effects) :: log) = effects.filterMap Effect.relay? ++ pending log := by
  rw [pending, Mail.isHandedOn, hresp]
  rfl

/-- A response relays what is placed after it, and nothing is pending under its id. -/
lemma log_response {s : World μ ι α} {what : Mail μ ι α} (relayed : List (Effect μ ι α))
    (htakes : s.router.takes what = false) (hresp : isResponse what.mid = true) :
    relays ((what, (s.router.proxy_.reply what s.router.workers_).2 ++ relayed) :: s.log)
        = relayed.filterMap Effect.relay? ++ relays s.log
      ∧ pending ((what, (s.router.proxy_.reply what s.router.workers_).2 ++ relayed) :: s.log)
        = relayed.filterMap Effect.relay? ++ (pending s.log).filter (·.key ≠ what.mid) := by
  have hnone : (s.router.proxy_.reply what s.router.workers_).2.filterMap Effect.relay? = [] :=
    filterMap_relay?_eq_nil fun worker newId mail hmem => by
      obtain ⟨client, id, heq⟩ := Proxy.mem_reply hmem
      simp at heq
  have hcontrol : what.content.isControl = false := by
    rw [Router.takes, Bool.or_eq_false_iff] at htakes
    exact htakes.1
  constructor
  · rw [relays_cons, List.filterMap_append, hnone, List.nil_append]
  · rw [pending, Mail.isHandedOn, hresp, hcontrol, List.filterMap_append, hnone, List.nil_append]
    rfl

lemma Kept.filter [LawfulMessageId μ] {s : World μ ι α} (hs : s.Kept) {what : Mail μ ι α}
    {r' : Router μ ι α} {effects : List (Effect μ ι α)} (htakes : s.router.takes what = true)
    (h : s.router.filter what = some (.ok (r', effects))) :
    Kept ⟨r', (what, effects) :: s.log⟩ := by
  have hseats := Router.filter_reseats hs.metered h
  have heffects := Router.filter_effects h
  obtain ⟨hrelays, hpending, hreply⟩ := log_filter htakes heffects
  have haccepted : accepted ((what, effects) :: s.log) = accepted s.log := by
    rw [accepted, if_neg]
    cases hcontrol : what.content.isControl with
    | true => simp
    | false =>
        rw [Router.takes, hcontrol, Bool.false_or, Bool.and_eq_true, Bool.and_eq_true] at htakes
        obtain ⟨client, hclient⟩ := Option.isSome_iff_exists.mp htakes.1.1
        have hempty := (heffects.empty client _).mpr ⟨hcontrol, hclient, rfl⟩
        have hany : effects.any Effect.isEmpty = true := List.any_eq_true.mpr ⟨_, hempty, rfl⟩
        simp [hany]
  refine ⟨hseats.metered, ?_, ?_, ?_⟩
  · rw [hseats.proxy_eq, hrelays, hpending]
    exact hs.ticketed
  · rw [hseats.policy_eq, hrelays, haccepted]
    exact hs.fifo
  · intro entry hentry hany
    rw [hrelays, hpending]
    rcases List.mem_cons.mp hentry with rfl | hentry
    · simp [hreply] at hany
    · exact hs.replied entry hentry hany

lemma Kept.mail [LawfulMessageId μ] {s : World μ ι α} (hs : s.Kept) {what : Mail μ ι α}
    {r' : Router μ ι α} {effects : List (Effect μ ι α)} (htakes : s.router.takes what = false)
    (hresp : isResponse what.mid = false) (h : s.router.route (some what) = .ok (r', effects)) :
    Kept ⟨r', (what, effects) :: s.log⟩ := by
  have hplaces := Router.route_places hs.metered h
  have hcontrol : what.content.isControl = false := by
    rw [Router.takes, Bool.or_eq_false_iff] at htakes
    exact htakes.1
  have hpending := pending_mail hresp effects s.log
  have haccepted : accepted ((what, effects) :: s.log) = what :: accepted s.log := by
    rw [accepted, if_pos (by simp [hcontrol, hresp, hplaces.no_empty])]
  obtain ⟨hticketed, hnew⟩ := hplaces.ticketed hs.ticketed
  refine ⟨hs.metered.route h, ?_, ?_, ?_⟩
  · rw [hpending]
    exact hticketed
  · rw [relays_cons, haccepted, List.map_append, ← List.append_assoc, hplaces.fifo, ← hs.fifo]
    simp
  · intro entry hentry hany
    rcases List.mem_cons.mp hentry with rfl | hentry
    · simp [hplaces.no_reply] at hany
    · obtain ⟨⟨r, hr, hkey⟩, hnot⟩ := hs.replied entry hentry hany
      refine ⟨⟨r, List.mem_append_right _ hr, hkey⟩, fun r'' hr'' => ?_⟩
      rw [hpending] at hr''
      rcases List.mem_append.mp hr'' with hr'' | hr''
      · exact fun heq => hnew r'' hr'' r hr (hkey.trans heq.symm)
      · exact hnot r'' hr''

lemma Kept.response [LawfulMessageId μ] {s : World μ ι α} (hs : s.Kept) {what : Mail μ ι α}
    {r' : Router μ ι α} {relayed : List (Effect μ ι α)} (htakes : s.router.takes what = false)
    (hresp : isResponse what.mid = true)
    (h : ((s.router.discharge what.sender).reply what).1.route none = .ok (r', relayed)) :
    Kept ⟨r', (what, (s.router.proxy_.reply what s.router.workers_).2 ++ relayed) :: s.log⟩ := by
  have hmetered := hs.metered.discharge_reply what
  have hplaces := Router.route_places hmetered h
  let effects := (s.router.proxy_.reply what s.router.workers_).2 ++ relayed
  obtain ⟨hrelays, hpending⟩ := log_response relayed htakes hresp
  have haccepted : accepted ((what, effects) :: s.log) = accepted s.log := by
    rw [accepted, if_neg (by simp [hresp])]
  obtain ⟨hticketed, hnew⟩ := hplaces.ticketed (hs.ticketed.reply what s.router.workers_)
  -- what is pending after the call is new, or was pending under another id
  have hother : ∀ id, (∃ r ∈ relays s.log, r.key = id) →
      (∀ r ∈ pending s.log, r.key ≠ what.mid → r.key ≠ id) →
        ∀ r ∈ pending ((what, effects) :: s.log), r.key ≠ id := by
    rintro id ⟨r, hr, rfl⟩ hold r'' hr''
    rw [hpending] at hr''
    rcases List.mem_append.mp hr'' with hr'' | hr''
    · exact fun heq => hnew r'' hr'' r hr heq.symm
    · obtain ⟨hr'', hne⟩ := List.mem_filter.mp hr''
      exact hold r'' hr'' (by simpa using hne)
  refine ⟨hmetered.route h, ?_, ?_, ?_⟩
  · rw [hrelays, hpending]
    exact hticketed
  · rw [hrelays, haccepted, List.map_append, ← List.append_assoc, hplaces.fifo]
    exact hs.fifo
  · intro entry hentry hany
    rcases List.mem_cons.mp hentry with rfl | hentry
    · -- the call itself: what it answers was pending
      rw [List.any_append, hplaces.no_reply, Bool.or_false] at hany
      obtain ⟨effect, heffect, -⟩ := List.any_eq_true.mp hany
      obtain ⟨-, r, hr, hkey, -⟩ := hs.ticketed.mem_reply_iff.mp heffect
      have hmem := hs.ticketed.sublist.subset hr
      refine ⟨⟨r, ?_, hkey⟩, hother what.mid ⟨r, hmem, hkey⟩ fun _ _ hne => hne⟩
      rw [hrelays]
      exact List.mem_append_right _ hmem
    · obtain ⟨⟨r, hr, hkey⟩, hnot⟩ := hs.replied entry hentry hany
      refine ⟨⟨r, ?_, hkey⟩, hother entry.1.mid ⟨r, hr, hkey⟩ fun r'' hr'' _ => hnot r'' hr''⟩
      rw [hrelays]
      exact List.mem_append_right _ hr

/-- Every call keeps the invariant. -/
lemma Kept.enqueue [LawfulMessageId μ] {s : World μ ι α} (hs : s.Kept) {what : Mail μ ι α}
    {r' : Router μ ι α} {effects : List (Effect μ ι α)}
    (h : s.router.enqueue what = .ok (r', effects)) : Kept ⟨r', (what, effects) :: s.log⟩ := by
  rcases Router.enqueue_cases h with
    ⟨htakes, hfilter⟩ | ⟨htakes, hresp, hroute⟩ | ⟨htakes, hresp, relayed, rfl, hroute⟩
  · exact hs.filter htakes hfilter
  · exact hs.mail htakes hresp hroute
  · exact hs.response htakes hresp hroute

/-- The invariant holds after every call that has a result. -/
lemma kept_step [LawfulMessageId μ] {s : Except Fault (World μ ι α)} {what : Mail μ ι α}
    (h : ∀ w, s = .ok w → w.Kept) : ∀ w, step s what = .ok w → w.Kept := by
  intro w hw
  cases s with
  | error fault => simp [step, Except.bind] at hw
  | ok s =>
      obtain ⟨router, effects, hcall, rfl⟩ := step_eq_ok.mp hw
      exact (h s rfl).enqueue hcall

end World

end LoadBalancer

end Cdcf
