import Cdcf.Membership.Record

/-!
What one event does to a node, said once for all properties of its runs.

* `record_step`: what the tables hold about an address after an event is `effect` of what
  they held before.
* `Own` and the lemmas `own_…`: the handlers of gossip, ping lists and pushed results leave
  everything but the tables and the gossip queue alone.
* `own_step`: all that an event may do to the rest of the node.
-/

namespace Cdcf

namespace Node

/-! ### The start -/

/-- What a node holds right after a successful `Init`. -/
structure Fresh (s : Node) : Prop where
  members : s.members = OrderedMap.empty.assign s.self 0
  suspects : s.suspects = OrderedMap.empty
  memberActorSystem : s.memberActorSystem = OrderedMap.empty
  isSelfActorSystemUp : s.isSelfActorSystemUp = false
  incarnation : s.incarnation = 0
  gossipQueue : s.gossipQueue = []
  pulls : s.pulls = []

lemma Started.fresh {s : Node} (h : Started s) : s.Fresh := by
  obtain ⟨config, h⟩ := h
  rw [init] at h
  split at h
  · exact absurd (congrArg Prod.fst h) (by simp)
  · dsimp only at h
    rw [if_pos rfl] at h
    obtain rfl := (Prod.mk.inj h).2
    exact ⟨rfl, rfl, rfl, rfl, rfl, rfl, rfl⟩

/-- At the start a node knows itself only. -/
lemma Started.record {s : Node} (h : Started s) (a : Address) :
    s.record a = ⟨if s.self.address = a then some (s.self, 0) else none, none, none⟩ := by
  obtain ⟨hm, hs, ha, -, -, -, -⟩ := h.fresh
  rw [Node.record, hm, hs, ha, OrderedMap.find?_assign]
  simp

/-! ### The tables -/

/-- The effect of an event on what the tables hold about `a`. -/
def effect (s : Node) (e : Event) (a : Address) (r : Record Member) : Record Member :=
  match e with
  | .gossip u =>
      if u.getMember.address = a then
        match u.kind? with
        | some kind =>
            r.gossip Member.uid (decide (a = s.self.address)) kind u.getMember u.getIncarnation
        | none => r
      else r
  | .pull request =>
      if request.getType = .ping then
        match request.getMembersWithIncarnation.find? a with
        | some (k, i) => r.mergeMember k i (request.getMembersWithActorSystem.get? a)
        | none => r
      else r
  | .push message =>
      r.judge (if message.isPingFailure then some (message.getMember, false) else none) a
  | .fullState message =>
      if message.isSuccess then
        (message.getMembersWithStatus.filter fun m => m.member.address = a).foldl
          (fun r m => r.updateStatus m.member (m.status == .actorSystemUp)) r
      else r
  | .pullResult index ok => r.judge (s.verdict index ok) a
  | .setSelfActorSystemUp =>
      if a = s.self.address then { r with actorSystem := put s.self true r.actorSystem } else r
  | .notifyActorSystemDown => if a = s.self.address then { r with actorSystem := none } else r
  | .ping _ | .sendSelfActorSystemUpGossip | .notifyLeave => r

lemma record_sendSelfActorSystemUpGossip (s : Node) (a : Address) :
    s.sendSelfActorSystemUpGossip.record a = s.record a := by
  rw [sendSelfActorSystemUpGossip, record_sendGossip, record_increaseIncarnation]

/-- The tables after an event, address by address. -/
theorem record_step (s : Node) (e : Event) (a : Address) :
    (s.step e).record a = s.effect e a (s.record a) := by
  cases e with
  | gossip u => exact record_handleGossip s u a
  | pull request =>
      rw [step, handlePull, effect]
      cases request.getType with
      | fullState => rfl
      | ping =>
          rw [if_pos rfl]
          exact record_mergeMembers s _ _ a
      | pingRelay => rfl
  | push message => exact record_handlePush s message a
  | fullState message =>
      rw [step, handleDidPull, effect]
      split
      · dsimp only
        split
        · rw [record_sendSelfActorSystemUpGossip, record_sendGossip, record_increaseIncarnation,
            record_updateActorSystemStatus]
        · rw [record_sendGossip, record_increaseIncarnation, record_updateActorSystemStatus]
      · rfl
  | ping choice =>
      rw [step, ping]
      split
      · split <;> rfl
      · rfl
  | pullResult index ok => exact record_didPull s index ok a
  | setSelfActorSystemUp =>
      by_cases h : a = s.self.address
      · subst h
        simp [step, setSelfActorSystemUp, effect, record, OrderedMap.find?_assign]
      · simp [step, setSelfActorSystemUp, effect, record, OrderedMap.find?_assign, h, Ne.symm h]
  | sendSelfActorSystemUpGossip => exact record_sendSelfActorSystemUpGossip s a
  | notifyActorSystemDown =>
      rw [step, notifyActorSystemDown, record_sendGossip, record_increaseIncarnation]
      by_cases h : a = s.self.address
      · subst h
        simp [effect, record, OrderedMap.find?_erase]
      · simp [effect, record, OrderedMap.find?_erase, h, Ne.symm h]
  | notifyLeave =>
      rw [step, notifyLeave]
      split <;> rfl

/-! ### The rest of the node -/

/-- What a node holds besides its tables, its gossip queue and its configuration. -/
structure Own where
  self : Member
  isSelfActorSystemUp : Bool
  incarnation : UInt32
  pulls : List PullCallback

/-- The counter taken one further. -/
def Own.increase (o : Own) : Own := { o with incarnation := o.incarnation + 1 }

/-- What a node holds besides its tables, its gossip queue and its configuration. -/
def own (s : Node) : Own := ⟨s.self, s.isSelfActorSystemUp, s.incarnation, s.pulls⟩

@[simp] lemma own_sendGossip (s : Node) (u : UpdateMessage) : (s.sendGossip u).own = s.own := by
  rw [sendGossip, pushGossip]; split <;> rfl

@[simp] lemma own_increaseIncarnation (s : Node) : s.increaseIncarnation.own = s.own.increase :=
  rfl

@[simp] lemma own_sendSelfActorSystemUpGossip (s : Node) :
    s.sendSelfActorSystemUpGossip.own = s.own.increase := by
  rw [sendSelfActorSystemUpGossip, own_sendGossip, own_increaseIncarnation]

@[simp] lemma own_eraseExpiredMember (s : Node) (m : Member) :
    (s.eraseExpiredMember m).own = s.own := rfl

@[simp] lemma own_addOrUpdateSuspect (s : Node) (m : Member) (i : UInt32) :
    (s.addOrUpdateSuspect m i).own = s.own := rfl

@[simp] lemma own_suspect (s : Node) (m : Member) (i : UInt32) :
    (s.suspect m i).own = s.own := by
  rw [suspect]
  split
  · rw [own_sendGossip]; rfl
  · rfl

@[simp] lemma own_recoverySuspect (s : Node) (m : Member) : (s.recoverySuspect m).own = s.own := by
  rw [recoverySuspect, own_sendGossip]; rfl

@[simp] lemma own_mergeUpUpdate (s : Node) (m : Member) (i : UInt32) :
    (s.mergeUpUpdate m i).own = s.own := by
  rw [mergeUpUpdate]; split <;> rfl

@[simp] lemma own_mergeDownUpdate (s : Node) (m : Member) : (s.mergeDownUpdate m).own = s.own := by
  rw [mergeDownUpdate]; split <;> rfl

@[simp] lemma own_mergeActorSystem (up : Bool) (s : Node) (m : Member) (i : UInt32) :
    (mergeActorSystem up s m i).own = s.own := by
  rw [mergeActorSystem]; split <;> rfl

/-- Gossip changes the tables and the gossip queue only. -/
@[simp] lemma own_handleGossip (s : Node) (u : UpdateMessage) :
    (s.handleGossip u).own = s.own := by
  simp only [handleGossip, handleUp, handleDown, handleSuspect, handleRecovery,
    handleActorSystemDown, handleActorSystemUp, handleActorSystem]
  split_ifs <;> simp

lemma self_handleGossip (s : Node) (u : UpdateMessage) : (s.handleGossip u).self = s.self :=
  congrArg Own.self (own_handleGossip s u)

@[simp] lemma own_updateActorSystemStatus (s : Node) (l : List MemberWithStatus) :
    (s.updateActorSystemStatus l).own = s.own := by
  have hround : ∀ t m, (updateOneStatus t m).own = t.own := fun _ _ => rfl
  exact Run.view_run own hround s l

lemma own_mergeOneMember (flags : MemberMap Bool) (s : Node) (p : Member × Int32) :
    (mergeOneMember flags s p).own = s.own := by
  rw [mergeOneMember]
  split
  · split <;> rfl
  · rfl

@[simp] lemma own_mergeMembers (s : Node) (members : MemberMap Int32) (flags : MemberMap Bool) :
    (s.mergeMembers members flags).own = s.own :=
  Run.view_run own (own_mergeOneMember flags) s members.entries

/-- A pushed ping result changes the tables and the gossip queue only. -/
@[simp] lemma own_handlePush (s : Node) (message : PullResponseMessage) :
    (s.handlePush message).own = s.own := by
  rw [handlePush]; split <;> simp

/-- A full-state response that reports success takes the counter one further for the Up
message, and once more for the ActorSystemUp message of a node whose actor system runs. -/
lemma own_handleDidPull (s : Node) (message : FullStateMessage) :
    (s.handleDidPull message).own
      = if message.isSuccess then
          if s.isSelfActorSystemUp then s.own.increase.increase else s.own.increase
        else s.own := by
  have hannounce : ∀ t : Node,
      (if t.isSelfActorSystemUp then t.sendSelfActorSystemUpGossip else t).own
        = if t.own.isSelfActorSystemUp then t.own.increase else t.own := by
    intro t
    rw [apply_ite own, own_sendSelfActorSystemUpGossip]
    rfl
  rw [handleDidPull]
  split
  · rw [hannounce, own_sendGossip, own_increaseIncarnation, own_updateActorSystemStatus]
    rfl
  · rfl

lemma own_relayPing (s : Node) (t : Member) (ex : MemberMap Unit) :
    ∃ l, (s.relayPing t ex).own = { s.own with pulls := s.pulls ++ l }
      ∧ ∀ c ∈ l, c.target? = some t := by
  rw [relayPing]
  cases s.getRelayMember ex with
  | none => exact ⟨[], by rw [own_suspect, List.append_nil]; rfl, by simp⟩
  | some r => exact ⟨[.relayPing t r ex], rfl, by simp [PullCallback.target?]⟩

lemma own_didPing (s : Node) (t : Member) (ok : Bool) :
    ∃ l, (s.didPing t ok).own = { s.own with pulls := s.pulls ++ l }
      ∧ ∀ c ∈ l, c.target? = some t := by
  have hsame : s.own = { s.own with pulls := s.pulls ++ [] } := by rw [List.append_nil]; rfl
  rw [didPing]
  split_ifs
  · exact ⟨[], by rw [own_recoverySuspect]; exact hsame, by simp⟩
  · exact own_relayPing s t _
  · exact ⟨[], by rw [own_suspect]; exact hsame, by simp⟩
  · exact ⟨[], hsame, by simp⟩

/-- The pulls in progress after the end of one of them: only a relayed ping starts another,
for the same target. -/
lemma own_didPull (s : Node) (index : ℕ) (ok : Bool) :
    ∃ pulls, (s.didPull index ok).own = { s.own with pulls }
      ∧ ∀ c ∈ pulls, ∃ c' ∈ s.pulls, c'.target? = c.target? := by
  rw [didPull]
  cases hc : s.pulls[index]? with
  | none => exact ⟨s.pulls, rfl, fun c hc => ⟨c, hc, rfl⟩⟩
  | some c₀ =>
      have hmem : c₀ ∈ s.pulls := List.mem_of_getElem? hc
      have hkeep : ∀ l : List PullCallback, (∀ c ∈ l, c.target? = c₀.target?) →
          ∀ c ∈ s.pulls.eraseIdx index ++ l, ∃ c' ∈ s.pulls, c'.target? = c.target? := by
        intro l hl c hc'
        rcases List.mem_append.mp hc' with h | h
        · exact ⟨c, List.mem_of_mem_eraseIdx h, rfl⟩
        · exact ⟨c₀, hmem, (hl c h).symm⟩
      cases c₀ with
      | ping t =>
          obtain ⟨l, hown, hl⟩ := own_didPing { s with pulls := s.pulls.eraseIdx index } t ok
          exact ⟨_, hown, hkeep l hl⟩
      | relayPing t r ex =>
          cases ok with
          | true => exact ⟨s.pulls.eraseIdx index ++ [], by rw [List.append_nil]; rfl,
              hkeep [] (by simp)⟩
          | false =>
              obtain ⟨l, hown, hl⟩ := own_relayPing { s with pulls := s.pulls.eraseIdx index } t
                (ex.assign r ())
              exact ⟨_, hown, hkeep l hl⟩
      | relayedPing t d => exact ⟨s.pulls.eraseIdx index ++ [], by rw [List.append_nil]; rfl,
          hkeep [] (by simp)⟩

/-- The flag `is_self_actor_system_up_` after an event. -/
def nextUp (e : Event) (up : Bool) : Bool :=
  match e with
  | .setSelfActorSystemUp => true
  | .notifyActorSystemDown => false
  | _ => up

/-- What an event may do to a node besides its tables and its gossip queue. -/
structure OwnStep (s : Node) (e : Event) (o : Own) : Prop where
  self : o.self = s.self
  up : o.isSelfActorSystemUp = nextUp e s.isSelfActorSystemUp
  incarnation : o.incarnation = s.incarnation ∨ o.incarnation = s.incarnation + 1
    ∨ o.incarnation = s.incarnation + 1 + 1
  pulls : ∀ c ∈ o.pulls, (∃ c' ∈ s.pulls, c'.target? = c.target?) ∨ c.target? = none
    ∨ ∃ choice, e = .ping choice ∧ c.target? = s.getRandomPingTarget choice

lemma OwnStep.refl {s : Node} {e : Event} (he : ∀ up, nextUp e up = up) : OwnStep s e s.own :=
  ⟨rfl, (he _).symm, Or.inl rfl, fun c hc => Or.inl ⟨c, hc, rfl⟩⟩

/-- An event leaves alone who the node is, sets the flag of its own actor system in two cases
only, takes the counter at most two further, and has the failure detector ask for members it
has drawn or asked for before. -/
theorem own_step (s : Node) (e : Event) : OwnStep s e (s.step e).own := by
  have hkeep : ∀ c ∈ s.pulls, (∃ c' ∈ s.pulls, c'.target? = c.target?) ∨ c.target? = none
      ∨ ∃ choice, e = .ping choice ∧ c.target? = s.getRandomPingTarget choice :=
    fun c hc => Or.inl ⟨c, hc, rfl⟩
  cases e with
  | gossip u => exact own_handleGossip s u ▸ OwnStep.refl fun _ => rfl
  | pull request =>
      rw [step, handlePull]
      cases request.getType with
      | fullState => exact OwnStep.refl fun _ => rfl
      | ping => exact own_mergeMembers s _ _ ▸ OwnStep.refl fun _ => rfl
      | pingRelay =>
          refine ⟨rfl, rfl, Or.inl rfl, fun c hc => ?_⟩
          rcases List.mem_append.mp hc with h | h
          · exact hkeep c h
          · rw [List.mem_singleton.mp h]
            exact Or.inr (Or.inl rfl)
  | push message => exact own_handlePush s message ▸ OwnStep.refl fun _ => rfl
  | fullState message =>
      rw [step, own_handleDidPull]
      split_ifs
      · exact ⟨rfl, rfl, Or.inr (Or.inr rfl), hkeep⟩
      · exact ⟨rfl, rfl, Or.inr (Or.inl rfl), hkeep⟩
      · exact OwnStep.refl fun _ => rfl
  | ping choice =>
      rw [step, ping]
      split
      · cases hd : s.getRandomPingTarget choice with
        | none => exact OwnStep.refl fun _ => rfl
        | some t =>
            refine ⟨rfl, rfl, Or.inl rfl, fun c hc => ?_⟩
            rcases List.mem_append.mp hc with h | h
            · exact hkeep c h
            · rw [List.mem_singleton.mp h]
              exact Or.inr (Or.inr ⟨choice, rfl, hd.symm⟩)
      · exact OwnStep.refl fun _ => rfl
  | pullResult index ok =>
      obtain ⟨pulls, h, hpulls⟩ := own_didPull s index ok
      rw [step, h]
      exact ⟨rfl, rfl, Or.inl rfl, fun c hc => Or.inl (hpulls c hc)⟩
  | setSelfActorSystemUp => exact ⟨rfl, rfl, Or.inl rfl, hkeep⟩
  | sendSelfActorSystemUpGossip =>
      rw [step, own_sendSelfActorSystemUpGossip]
      exact ⟨rfl, rfl, Or.inr (Or.inl rfl), hkeep⟩
  | notifyActorSystemDown =>
      rw [step, notifyActorSystemDown, own_sendGossip]
      exact ⟨rfl, rfl, Or.inr (Or.inl rfl), hkeep⟩
  | notifyLeave =>
      rw [step, notifyLeave]
      split
      · exact ⟨rfl, rfl, Or.inr (Or.inl rfl), hkeep⟩
      · exact OwnStep.refl fun _ => rfl

/-- A node never changes who it is. -/
@[simp] theorem self_step (s : Node) (e : Event) : (s.step e).self = s.self := (own_step s e).self

lemma isSelfActorSystemUp_step (s : Node) (e : Event) :
    (s.step e).isSelfActorSystemUp = nextUp e s.isSelfActorSystemUp := (own_step s e).up

/-- A member the failure detector draws is in `members_` and not the node itself, or it is in
`suspects_`. -/
lemma of_getRandomPingTarget {s : Node} {choice : ℕ} {t : Member}
    (h : s.getRandomPingTarget choice = some t) :
    t.address ≠ s.self.address ∧ (s.record t.address).member.isSome
      ∨ (s.record t.address).suspect.isSome := by
  rw [getRandomPingTarget] at h
  split_ifs at h
  rcases List.mem_append.mp (List.mem_of_getElem? h) with hm | hs
  · obtain ⟨hm, hne⟩ := List.mem_filter.mp hm
    exact Or.inl ⟨by simpa using hne, OrderedMap.find?_isSome_of_mem_keys hm⟩
  · exact Or.inr (OrderedMap.find?_isSome_of_mem_keys hs)

end Node

end Cdcf
