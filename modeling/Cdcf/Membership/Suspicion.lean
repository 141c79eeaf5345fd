import Cdcf.Membership.Remembered

/-!
How a node comes to suspect a member.

`Suspect` runs where a ping has failed, where another node pushes that a ping it relayed has
failed, and where Suspect gossip arrives.  Relays are asked for only after a ping that failed, and
what is gossiped or pushed has been found by somebody.  So all suspicion goes back to a direct
ping: `pingFailed_of_suspected`.

* `Node.Trusting`: nothing at the node can make anybody suspect the address; `Node.Reassuring`:
  an event brings nothing of the kind.
* `Network.Trusted`: the invariant of all nodes and messages, kept by every action but the end of a
  failed ping of the address.
-/

namespace Cdcf

open Sample

/-! ### One node -/

namespace Record

variable {κ : Type*} {uid : κ → String}

/-- Only Suspect gossip makes a suspect of a member. -/
lemma suspect_gossip_eq_none {r : Record κ} (h : r.suspect = none) {kind : MemberStatus}
    (hkind : kind ≠ .suspect) (isSelf : Bool) (k : κ) (i : UInt32) :
    (r.gossip uid isSelf kind k i).suspect = none := by
  cases kind with
  | up =>
      rw [gossip]
      split
      · exact h
      · rw [(up_cases k i _).1]
        simp [eraseExpired, h]
  | down =>
      rw [gossip]
      split
      · exact h
      · rw [down]
        split
        · rfl
        · exact h
  | suspect => exact absurd rfl hkind
  | recovery => simp [gossip, h]
  | actorSystemDown =>
      rw [gossip, mergeActorSystem]
      split <;> exact h
  | actorSystemUp =>
      rw [gossip, mergeActorSystem]
      split <;> exact h

lemma suspect_mergeMember (r : Record κ) (k : κ) (i : Int32) (up? : Option Bool) :
    (r.mergeMember k i up?).suspect = r.suspect := by
  rw [mergeMember.eq_def]
  split
  · split <;> rfl
  · rfl

/-- A verdict about somebody else. -/
lemma judge_of_ne {v : Option (Member × Bool)} {a : Address} (h : ∀ p, v = some p → p.1.address ≠ a)
    (r : Record Member) : r.judge v a = r := by
  cases v with
  | none => rfl
  | some p => rw [judge, if_neg (h p rfl)]

end Record

/-- The callback is of a ping of the address that is relayed. -/
def PullCallback.Relays (a : Address) : PullCallback → Prop
  | .ping _ => False
  | .relayPing pingTarget _ _ => pingTarget.address = a
  | .relayedPing pingTarget _ => pingTarget.address = a

namespace Node

/-- Where a callback in progress after an event comes from. -/
inductive Asked (s : Node) : Event → PullCallback → Prop
  | before {e : Event} {c : PullCallback} : c ∈ s.pulls → Asked s e c
  | relayed {request : PullRequestMessage} : request.getType = .pingRelay →
      Asked s (.pull request) (.relayedPing request.pingTarget request.pingResultDestination)
  | pinged {choice : ℕ} {t : Member} : s.getRandomPingTarget choice = some t →
      Asked s (.ping choice) (.ping t)
  | failed {index : ℕ} {t r : Member} {ex : MemberMap Unit} :
      s.pulls[index]? = some (.ping t) → Asked s (.pullResult index false) (.relayPing t r ex)
  | relayFailed {index : ℕ} {t r r' : Member} {ex ex' : MemberMap Unit} :
      s.pulls[index]? = some (.relayPing t r' ex') →
      Asked s (.pullResult index false) (.relayPing t r ex)

lemma pulls_of_own {s s' : Node} (h : s'.own = s.own) : s'.pulls = s.pulls := congrArg Own.pulls h

lemma mem_pulls_relayPing {s : Node} {t : Member} {ex : MemberMap Unit} {c : PullCallback}
    (hc : c ∈ (s.relayPing t ex).pulls) : c ∈ s.pulls ∨ ∃ r, c = .relayPing t r ex := by
  rw [relayPing] at hc
  split at hc
  · rcases List.mem_append.mp hc with hc | hc
    · exact Or.inl hc
    · exact Or.inr ⟨_, List.mem_singleton.mp hc⟩
  · exact Or.inl (pulls_of_own (own_suspect s t (s.getMemberLocalIncarnation t)) ▸ hc)

lemma mem_pulls_didPing {s : Node} {t : Member} {ok : Bool} {c : PullCallback}
    (hc : c ∈ (s.didPing t ok).pulls) :
    c ∈ s.pulls ∨ ok = false ∧ ∃ r ex, c = .relayPing t r ex := by
  rw [didPing] at hc
  split_ifs at hc with hrecovers hfailed hrelay
  · exact Or.inl (pulls_of_own (own_recoverySuspect s t) ▸ hc)
  · rcases mem_pulls_relayPing hc with hc | ⟨r, rfl⟩
    · exact Or.inl hc
    · exact Or.inr ⟨by simpa using (Bool.and_eq_true_iff.mp hfailed).1, r, _, rfl⟩
  · exact Or.inl (pulls_of_own (own_suspect s t (s.getMemberLocalIncarnation t)) ▸ hc)
  · exact Or.inl hc

/-- All that an event can add to the pulls in progress. -/
theorem asked_of_mem_pulls_step {s : Node} {e : Event} {c : PullCallback}
    (hc : c ∈ (s.step e).pulls) : s.Asked e c := by
  have hsame : (s.step e).pulls = s.pulls → s.Asked e c := fun hpulls => .before (hpulls ▸ hc)
  cases e with
  | gossip u => exact hsame (pulls_of_own (own_handleGossip s u))
  | pull request =>
      rw [step, handlePull] at hc hsame
      cases ht : request.getType with
      | fullState => exact hsame (by rw [ht])
      | ping =>
          rw [ht] at hsame
          exact hsame (pulls_of_own (own_mergeMembers s _ _))
      | pingRelay =>
          rw [ht] at hc
          rcases List.mem_append.mp hc with hc | hc
          · exact .before hc
          · rw [List.mem_singleton.mp hc]
            exact .relayed ht
  | push message => exact hsame (pulls_of_own (own_handlePush s message))
  | fullState message =>
      have hpulls := congrArg Own.pulls (own_handleDidPull s message)
      exact hsame (hpulls.trans (by split_ifs <;> rfl))
  | ping choice =>
      rw [step, ping] at hc
      split at hc
      · cases hd : s.getRandomPingTarget choice with
        | none =>
            rw [hd] at hc
            exact .before hc
        | some t =>
            rw [hd] at hc
            rcases List.mem_append.mp hc with hc | hc
            · exact .before hc
            · rw [List.mem_singleton.mp hc]
              exact .pinged hd
      · exact .before hc
  | pullResult index ok =>
      rw [step, didPull] at hc
      split at hc
      · exact .before hc
      · next c₀ hc₀ =>
          have herase : c ∈ s.pulls.eraseIdx index → s.Asked (.pullResult index ok) c :=
            fun hc => .before (List.mem_of_mem_eraseIdx hc)
          cases c₀ with
          | ping t =>
              rcases mem_pulls_didPing hc with hc | ⟨rfl, r, ex, rfl⟩
              · exact herase hc
              · exact .failed hc₀
          | relayPing t r' ex' =>
              cases ok with
              | true => exact herase hc
              | false =>
                  rcases mem_pulls_relayPing hc with hc | ⟨r, rfl⟩
                  · exact herase hc
                  · exact .relayFailed hc₀
          | relayedPing t d => exact herase hc
  | setSelfActorSystemUp => exact hsame rfl
  | sendSelfActorSystemUpGossip =>
      exact hsame (congrArg Own.pulls (own_sendSelfActorSystemUpGossip s) :)
  | notifyActorSystemDown =>
      exact hsame (congrArg Own.pulls (own_sendGossip _ _) :)
  | notifyLeave =>
      refine hsame ?_
      rw [step, notifyLeave]
      split <;> rfl

/-- Nothing at the node can make anybody suspect the address. -/
structure Trusting (a : Address) (s : Node) : Prop where
  suspect : (s.record a).suspect = none
  queue : s.Queued (UpdateMessage.About .suspect (· ≠ a))
  pulls : ∀ c ∈ s.pulls, ¬c.Relays a

/-- The event is no reason to suspect the address. -/
def Reassuring (a : Address) (s : Node) : Event → Prop
  | .gossip u => u.About .suspect (· ≠ a)
  | .pull request => request.getType = .pingRelay → request.pingTarget.address ≠ a
  | .push message => message.isPingFailure = true → message.getMember.address ≠ a
  | .pullResult index ok =>
      ok = false → ∀ t, s.pulls[index]? = some (.ping t) → t.address ≠ a
  | _ => True

lemma Started.trusting {s : Node} (h : s.Started) (a : Address) : s.Trusting a where
  suspect := by rw [h.record]
  queue := by
    intro entry hentry
    rw [h.fresh.gossipQueue] at hentry
    exact absurd hentry List.not_mem_nil
  pulls := by simp [h.fresh.pulls]

namespace Trusting

variable {a : Address} {s : Node}

/-- The failure detector finds nothing out about the address. -/
lemma verdict_ne (h : s.Trusting a) {index : ℕ} {ok : Bool}
    (he : s.Reassuring a (.pullResult index ok)) {v : Member × Bool}
    (hv : s.verdict index ok = some v) : v.1.address ≠ a := by
  rintro rfl
  rw [verdict] at hv
  split at hv
  · next t hc =>
      cases ok with
      | true =>
          have hrecovers : s.ifBelongsToSuspects t = false := by
            have ht : v.1 = t := target_of_pingVerdict hv
            rw [ifBelongsToSuspects_eq, ← ht, h.suspect]
            rfl
          simp [pingVerdict, hrecovers] at hv
      | false => exact he rfl t hc (congrArg Member.address (target_of_pingVerdict hv)).symm
  · next t r ex hc =>
      split_ifs at hv
      exact h.pulls _ (List.mem_of_getElem? hc)
        (congrArg Member.address (target_of_relayVerdict hv)).symm
  · exact absurd hv (by simp)

lemma suspect_step (h : s.Trusting a) {e : Event} (he : s.Reassuring a e) :
    ((s.step e).record a).suspect = none := by
  rw [record_step]
  cases e with
  | gossip u =>
      rw [effect]
      split
      · next hu =>
          cases hk : u.kind? with
          | none => exact h.suspect
          | some kind =>
              refine Record.suspect_gossip_eq_none h.suspect ?_ _ _ _
              rintro rfl
              exact he hk hu
      · exact h.suspect
  | pull request =>
      rw [effect]
      split
      · split
        · exact (Record.suspect_mergeMember _ _ _ _).trans h.suspect
        · exact h.suspect
      · exact h.suspect
  | push message =>
      rw [effect, Record.judge_of_ne]
      · exact h.suspect
      · intro p hp
        split at hp
        · next hfailure => exact Option.some.inj hp ▸ he hfailure
        · exact absurd hp (by simp)
  | fullState message =>
      rw [effect]
      split
      · exact (Record.suspect_updateStatuses _ _).trans h.suspect
      · exact h.suspect
  | pullResult index ok =>
      rw [effect, Record.judge_of_ne fun p hp => h.verdict_ne he hp]
      exact h.suspect
  | setSelfActorSystemUp =>
      rw [effect]
      split <;> exact h.suspect
  | notifyActorSystemDown =>
      rw [effect]
      split <;> exact h.suspect
  | ping _ | sendSelfActorSystemUpGossip | notifyLeave => exact h.suspect

lemma queue_step (h : s.Trusting a) {e : Event} (he : s.Reassuring a e) :
    (s.step e).Queued (UpdateMessage.About .suspect (· ≠ a)) := by
  have hjudge : ∀ {v : Member × Bool}, (v.2 = false → v.1.address ≠ a) →
      (s.judgement v).About .suspect (· ≠ a) := by
    intro v hv
    rw [judgement]
    split
    · exact UpdateMessage.about_of_ne (by decide) _ _ _
    · next hsuspects =>
        exact UpdateMessage.about_setUpdate (fun _ => hv (by simpa using hsuspects)) _
  refine h.queue.step_of e ?_
  cases e with
  | gossip u =>
      exact ⟨he, fun hk => UpdateMessage.about_setUpdate (fun _ => he hk) _, hjudge (by simp)⟩
  | push message => exact fun hfailure => hjudge fun _ => he hfailure
  | fullState message =>
      exact fun _ => ⟨UpdateMessage.about_of_ne (by decide) _ _ _,
        fun _ => UpdateMessage.about_of_ne (by decide) _ _ _⟩
  | pullResult index ok => exact fun v hv => hjudge fun _ => h.verdict_ne he hv
  | sendSelfActorSystemUpGossip => exact UpdateMessage.about_of_ne (by decide) _ _ _
  | notifyActorSystemDown => exact UpdateMessage.about_of_ne (by decide) _ _ _
  | _ => trivial

lemma pulls_step (h : s.Trusting a) {e : Event} (he : s.Reassuring a e) :
    ∀ c ∈ (s.step e).pulls, ¬c.Relays a := by
  intro c hc
  cases asked_of_mem_pulls_step hc with
  | before hc => exact h.pulls c hc
  | relayed ht => exact he ht
  | pinged ht => exact id
  | failed hping => exact he rfl _ hping
  | relayFailed hrelay => exact fun ht => h.pulls _ (List.mem_of_getElem? hrelay) ht

lemma step (h : s.Trusting a) {e : Event} (he : s.Reassuring a e) : (s.step e).Trusting a :=
  ⟨h.suspect_step he, h.queue_step he, h.pulls_step he⟩

end Trusting

end Node

/-! ### The network -/

namespace Network

variable {ι : Type*}

/-- Nothing in the network can make anybody suspect the address. -/
structure Trusted (a : Address) (net : Network ι) : Prop where
  nodes : ∀ n, (net.nodes n).Trusting a
  datagrams : ∀ u ∈ net.datagrams, u.About .suspect (· ≠ a)
  pullRequests : ∀ request ∈ net.pullRequests,
    request.getType = .pingRelay → request.pingTarget.address ≠ a
  pushes : ∀ message ∈ net.pushes, message.isPingFailure = true → message.getMember.address ≠ a

/-- The action is no end of a failed ping of the address. -/
def PingSucceeds (a : Address) (net : Network ι) : Action ι → Prop
  | .pullResult i index ok =>
      ok = false → ∀ t, (net.nodes i).pulls[index]? = some (.ping t) → t.address ≠ a
  | _ => True

lemma Started.trusted {net : Network ι} (h : net.Started) (a : Address) : net.Trusted a where
  nodes := fun n => (h.nodes n).trusting a
  datagrams := by simp [h.datagrams]
  pullRequests := by simp [h.pullRequests]
  pushes := by simp [h.pushes]

/-- What happens at a node then is no reason to suspect the address. -/
lemma Trusted.reassuring {a : Address} {net : Network ι} (h : net.Trusted a) {action : Action ι}
    {i : ι} {e : Event} (hocc : net.Occurs action i e) (hs : net.PingSucceeds a action) :
    (net.nodes i).Reassuring a e := by
  cases hocc with
  | gossip hsent => exact h.datagrams _ (List.mem_of_getElem? hsent)
  | pull hsent => exact h.pullRequests _ (List.mem_of_getElem? hsent)
  | push hsent => exact h.pushes _ (List.mem_of_getElem? hsent)
  | pullResult i index ok => exact hs
  | _ => trivial

end Network

namespace Node

variable {a : Address} {s : Node}

/-- A node that trusts the address asks nobody to relay a ping to it. -/
lemma Trusting.sentRequests (h : s.Trusting a) {e : Event} (he : s.Reassuring a e) :
    ∀ request ∈ s.sentRequests e,
      request.getType = .pingRelay → request.pingTarget.address ≠ a := by
  have hrelay : ∀ {t : Member} {ex : MemberMap Unit}, t.address ≠ a →
      ∀ request ∈ s.relayRequest t ex,
        request.getType = .pingRelay → request.pingTarget.address ≠ a := by
    intro t ex ht request hrequest _
    rw [relayRequest] at hrequest
    split at hrequest
    · rw [List.mem_singleton.mp hrequest]
      simpa [PullRequestMessage.pingTarget, PullRequestMessage.initAsPingRelayType,
        Member.address] using ht
    · exact absurd hrequest List.not_mem_nil
  intro request hrequest
  cases e with
  | ping choice =>
      rw [Node.sentRequests] at hrequest
      split at hrequest
      · rw [List.mem_singleton.mp hrequest]
        exact fun ht => absurd ht (by simp [pingRequest, PullRequestMessage.getType,
          PullRequestMessage.initAsPingType])
      · exact absurd hrequest List.not_mem_nil
  | pull request' =>
      rw [Node.sentRequests] at hrequest
      split at hrequest
      · rw [List.mem_singleton.mp hrequest]
        exact fun ht => absurd ht (by decide)
      · exact absurd hrequest List.not_mem_nil
  | pullResult index ok =>
      rw [Node.sentRequests] at hrequest
      split at hrequest
      · next t hc =>
          split at hrequest
          · next hfailed => exact hrelay (he (by revert hfailed; simp +contextual) t hc) _ hrequest
          · exact absurd hrequest List.not_mem_nil
      · next t r ex hc =>
          split at hrequest
          · exact absurd hrequest List.not_mem_nil
          · exact hrelay (fun ht => h.pulls _ (List.mem_of_getElem? hc) ht) _ hrequest
      · exact absurd hrequest List.not_mem_nil
  | _ => exact absurd hrequest List.not_mem_nil

/-- Nor does it push that a ping of it has failed. -/
lemma Trusting.sentPushes (h : s.Trusting a) (e : Event) :
    ∀ message ∈ s.sentPushes e,
      message.isPingFailure = true → message.getMember.address ≠ a := by
  intro message hmessage hfailure
  cases e with
  | pullResult index ok =>
      rw [Node.sentPushes] at hmessage
      split at hmessage
      · next t d hc =>
          rw [List.mem_singleton.mp hmessage] at hfailure ⊢
          cases ok with
          | true => exact absurd hfailure (by simp [PullResponseMessage.isPingFailure,
              PullResponseMessage.getType, PullResponseMessage.initAsPingSuccess,
              PullResponseMessage.initAsPingResult])
          | false =>
              intro ht
              refine h.pulls _ (List.mem_of_getElem? hc) ?_
              simpa [PullResponseMessage.getMember, PullResponseMessage.getType,
                PullResponseMessage.initAsPingFailure, PullResponseMessage.initAsPingResult,
                Member.address, PullCallback.Relays] using ht
      · exact absurd hmessage List.not_mem_nil
  | _ => exact absurd hmessage List.not_mem_nil

end Node

namespace Network

variable {ι : Type*} [DecidableEq ι]

lemma Trusted.handle {a : Address} {net : Network ι} (h : net.Trusted a) {i : ι} {e : Event}
    (he : (net.nodes i).Reassuring a e) : (net.handle i e).Trusted a where
  nodes := by
    intro n
    rw [nodes_handle]
    split
    · exact (h.nodes i).step he
    · exact h.nodes n
  datagrams := by
    intro u hu
    rcases List.mem_append.mp hu with hu | hu
    · exact h.datagrams u hu
    · cases e with
      | notifyLeave =>
          rw [Node.sentDatagrams, Node.leaveMessage] at hu
          split_ifs at hu
          · rw [List.mem_singleton.mp hu]
            exact UpdateMessage.about_of_ne (by decide) _ _ _
          · exact absurd hu List.not_mem_nil
          · exact absurd hu List.not_mem_nil
      | _ => exact absurd hu List.not_mem_nil
  pullRequests := by
    intro request hrequest
    rcases List.mem_append.mp hrequest with hrequest | hrequest
    · exact h.pullRequests request hrequest
    · exact (h.nodes i).sentRequests he request hrequest
  pushes := by
    intro message hmessage
    rcases List.mem_append.mp hmessage with hmessage | hmessage
    · exact h.pushes message hmessage
    · exact (h.nodes i).sentPushes e message hmessage

lemma Trusted.act {a : Address} {net : Network ι} (h : net.Trusted a) {action : Action ι}
    (hs : net.PingSucceeds a action) : (net.act action).Trusted a := by
  rcases net.act_cases action with
    ⟨i, e, hocc, hact⟩ | ⟨i, index, entry, -, hentry, hact⟩ | ⟨i, -, hact⟩ | hact
  · exact hact ▸ h.handle (h.reassuring hocc hs)
  · refine hact ▸ { h with datagrams := fun u hu => ?_ }
    rcases List.mem_append.mp hu with hu | hu
    · exact h.datagrams u hu
    · exact List.mem_singleton.mp hu ▸ (h.nodes i).queue entry (List.mem_of_getElem? hentry)
  · refine hact ▸ { h with pullRequests := fun request hrequest => ?_ }
    rcases List.mem_append.mp hrequest with hrequest | hrequest
    · exact h.pullRequests request hrequest
    · rw [List.mem_singleton.mp hrequest]
      exact fun ht => absurd ht (by decide)
  · exact hact.symm ▸ h

/-- As long as no ping of it fails, nothing makes anybody suspect the address. -/
lemma trusted_run {a : Address} {net : Network ι} (h : net.Trusted a) {actions : List (Action ι)}
    (hs : Run.Each act (PingSucceeds a) net actions) : (Run.run act net actions).Trusted a :=
  (Run.always_of_each (P := Trusted a) (fun _ _ ht hs => ht.act hs) h hs).last

/-- All suspicion goes back to a failed ping: where a node has come to suspect somebody, whether by
its own failure detector, on a relay's result or on gossip, a direct ping of the suspect, by some
node, has failed before. -/
theorem pingFailed_of_suspected {net₀ : Network ι} (h : net₀.Started) {actions : List (Action ι)}
    {n : ι} {a : Address}
    (hsuspects : ((Run.run act net₀ actions).nodes n).suspects.contains a = true) :
    ∃ before i index after t, actions = before ++ .pullResult i index false :: after
      ∧ ((Run.run act net₀ before).nodes i).pulls[index]? = some (.ping t) ∧ t.address = a := by
  by_contra hnone
  have hsucceeds : Run.Each act (PingSucceeds a) net₀ actions := by
    refine Run.each_iff.mpr fun before action after heq => ?_
    cases action with
    | pullResult i index ok =>
        rintro rfl t hc ht
        exact hnone ⟨before, i, index, after, t, heq, hc, ht⟩
    | _ => trivial
  have hfind : ((Run.run act net₀ actions).nodes n).suspects.find? a = none :=
    ((trusted_run (h.trusted a) hsucceeds).nodes n).suspect
  rw [OrderedMap.contains, hfind] at hsuspects
  exact absurd hsuspects (by decide)

/-- The second of two nodes joins, and the first pings it in vain. -/
theorem pingFailed_of_suspected_two :
    ∃ before i index after t,
      ([.pullFromSeed true, .pull false 0, .fullState true 0, .disseminate true 0, .gossip false 0,
        .ping false 0, .pullResult false 0 false] : List (Action Bool))
          = before ++ .pullResult i index false :: after
        ∧ ((Run.run act twoNodes before).nodes i).pulls[index]? = some (.ping t)
        ∧ t.address = nodeB.address :=
  pingFailed_of_suspected started_twoNodes (n := false) (by decide)

end Network

end Cdcf
