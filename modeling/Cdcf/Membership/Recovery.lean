import Cdcf.Membership.PingRepair

/-!
A suspicion that turns out to be wrong: a member is suspected and recovers, and nothing else happens
in between.

* `Suspects`, `Recovers`: the events that make a node suspect the member at an address, and those
  that end the suspicion, each with the member object it names.
* `record_step_of_suspects`, `record_step_of_recovers`: the entry moves to `suspects_` under the
  object of the one event and back under the object of the other, and its flag stays `false`.
* `recovered_iff`: the node is where it was exactly when the actor system of the member was not up
  and the last event names the member as the node knew it.
-/

namespace Cdcf

open Sample

/-- Two objects for one address have the same name, host name, role and uid. -/
def Member.SameIdentity (m m' : Member) : Prop :=
  m.nodeName = m'.nodeName ∧ m.hostName = m'.hostName ∧ m.role = m'.role ∧ m.uid = m'.uid

instance (m m' : Member) : Decidable (m.SameIdentity m') := inferInstanceAs (Decidable (_ ∧ _))

namespace Node

/-- The members a pinged member cannot be relayed through at first. -/
def firstExcluded (s : Node) (pingTarget : Member) : MemberMap Unit :=
  OrderedMap.ofList [(s.self, ()), (pingTarget, ())]

/-- The events that make the node suspect the member at `a`, with the object they name it by. -/
inductive Suspects (s : Node) (a : Address) : Event → Member → Prop
  /-- A ping fails, and it is not relayed or there is no relay. -/
  | ping {index : ℕ} {t : Member} (hpull : s.pulls[index]? = some (.ping t)) (ha : t.address = a)
      (hrelay : s.isRelayPingEnabled = true → s.getRelayMember (s.firstExcluded t) = none) :
      Suspects s a (.pullResult index false) t
  /-- A relayed ping fails, and there is no other relay. -/
  | relayPing {index : ℕ} {t r : Member} {ex : MemberMap Unit}
      (hpull : s.pulls[index]? = some (.relayPing t r ex)) (ha : t.address = a)
      (hrelay : s.getRelayMember (ex.assign r ()) = none) :
      Suspects s a (.pullResult index false) t
  /-- A relay pushes a ping failure. -/
  | push {message : PullResponseMessage} (hfailure : message.isPingFailure = true)
      (ha : message.getMember.address = a) : Suspects s a (.push message) message.getMember
  /-- Another node suspects the member at an incarnation not below the recorded one. -/
  | gossip {message : UpdateMessage} (hkind : message.isSuspectMessage = true)
      (ha : message.getMember.address = a)
      (hincarnation : s.getMemberLocalIncarnation message.getMember ≤ message.getIncarnation) :
      Suspects s a (.gossip message) message.getMember

/-- The events that end the suspicion of the member at `a`, with the object they name it by. -/
inductive Recovers (s : Node) (a : Address) : Event → Member → Prop
  /-- A ping succeeds. -/
  | ping {index : ℕ} {t : Member} (hpull : s.pulls[index]? = some (.ping t)) (ha : t.address = a) :
      Recovers s a (.pullResult index true) t
  /-- Another node has ended its suspicion, at an incarnation not below the suspected one. -/
  | gossip {message : UpdateMessage} (hkind : message.isRecoveryMessage = true)
      (ha : message.getMember.address = a)
      (hincarnation : s.getSuspectLocalIncarnation message.getMember ≤ message.getIncarnation) :
      Recovers s a (.gossip message) message.getMember

/-- The node knows the member at the address of `p` as the entry `p` and the flag `up` have it, at
an incarnation not lower, and does not suspect it. -/
structure Recovered (p : Member × Int32) (up : Bool) (s : Node) : Prop where
  entry : ∃ q ∈ s.members.find? p.1.address,
    q.1.SameIdentity p.1 ∧ p.2.toUInt32 ≤ q.2.toUInt32
  flag : s.actorSystemUp p.1.address = up
  suspects : s.suspects.contains p.1.address = false

/-! ### The two events on a record -/

section Events

variable {s : Node} {a : Address} {e : Event} {k : Member}

/-- The object an event of the one or the other kind names has the address. -/
lemma Suspects.address_eq (h : s.Suspects a e k) : k.address = a := by
  cases h <;> assumption

lemma Recovers.address_eq (h : s.Recovers a e k) : k.address = a := by
  cases h <;> assumption

/-- Without a relay the target is suspected. -/
lemma relayVerdict_eq_suspect {t : Member} {ex : MemberMap Unit} (h : s.getRelayMember ex = none) :
    s.relayVerdict t ex = some (t, false) := by
  rw [relayVerdict, h]
  rfl

/-- `Suspect`, called by the failure detector or for a pushed failure. -/
lemma judge_suspect {r : Record Member} {p : Member × Int32} (hmember : r.member = some p)
    (hsuspect : r.suspect = none) (hk : k.address = a) :
    r.judge (some (k, false)) a = ⟨none, some (k, p.2), put k false r.actorSystem⟩ := by
  simp [Record.judge, Record.suspectAt, Record.localIncarnation, hmember, hsuspect, hk]

/-- A suspicion moves the entry to `suspects_`, at an incarnation not lower and under the object it
names, and marks the actor system as not up. -/
lemma record_step_of_suspects {p : Member × Int32} (hmember : (s.record a).member = some p)
    (hsuspect : (s.record a).suspect = none) (h : s.Suspects a e k) :
    ∃ i : Int32, p.2.toUInt32 ≤ i.toUInt32
      ∧ (s.step e).record a = ⟨none, some (k, i), put k false (s.record a).actorSystem⟩ := by
  have hk := h.address_eq
  have hbelongs : s.ifBelongsToMembers k = true := by
    rw [ifBelongsToMembers_eq, hk, hmember]
    rfl
  have hjudge := judge_suspect hmember hsuspect hk
  cases h with
  | @ping index _ hpull ha hrelay =>
      have hverdict : s.verdict index false = some (k, false) := by
        rw [verdict, hpull]
        simp only [pingVerdict, hbelongs, Bool.false_and, Bool.not_false, Bool.true_and, if_true,
          Bool.false_eq_true, if_false]
        split
        · next hon => exact relayVerdict_eq_suspect (hrelay hon)
        · rfl
      exact ⟨p.2, UInt32.le_refl _, by rw [record_step, effect, hverdict, hjudge]⟩
  | @relayPing index _ r ex hpull ha hrelay =>
      have hverdict : s.verdict index false = some (k, false) := by
        rw [verdict, hpull]
        exact relayVerdict_eq_suspect hrelay
      exact ⟨p.2, UInt32.le_refl _, by rw [record_step, effect, hverdict, hjudge]⟩
  | push hfailure ha =>
      exact ⟨p.2, UInt32.le_refl _, by rw [record_step, effect, if_pos hfailure, hjudge]⟩
  | @gossip message hkind ha hincarnation =>
      have hwithin : p.2.toUInt32 ≤ message.getIncarnation := by
        rw [getMemberLocalIncarnation_eq, ha, Record.localIncarnation, hmember] at hincarnation
        exact hincarnation
      refine ⟨message.getIncarnation.toInt32, by simpa using hwithin, ?_⟩
      rw [record_step, effect, if_pos ha, UpdateMessage.hasStatus_iff.mp hkind]
      simp [Record.gossip, Record.suspectAt, hmember, hsuspect, hwithin]

/-- A recovery moves the entry back, under the object it names, and leaves the flag alone. -/
lemma record_step_of_recovers {q : Member × Int32} {o : Option (Member × Bool)}
    (hrecord : s.record a = ⟨none, some q, o⟩) (h : s.Recovers a e k) :
    (s.step e).record a = ⟨some (k, q.2), none, o⟩ := by
  have hk := h.address_eq
  cases h with
  | @ping index _ hpull ha =>
      have hbelongs : s.ifBelongsToSuspects k = true := by
        rw [ifBelongsToSuspects_eq, hk, hrecord]
        rfl
      have hverdict : s.verdict index true = some (k, true) := by
        rw [verdict, hpull]
        simp [pingVerdict, hbelongs]
      rw [record_step, effect, hverdict, hrecord]
      simp [Record.judge, Record.recover, hk]
  | @gossip message hkind ha hincarnation =>
      have hwithin : q.2.toUInt32 ≤ message.getIncarnation := by
        have hfind : s.suspects.find? a = some q := congrArg Record.suspect hrecord
        rw [getSuspectLocalIncarnation, ha, OrderedMap.get?, hfind] at hincarnation
        exact hincarnation
      rw [record_step, effect, if_pos ha, UpdateMessage.hasStatus_iff.mp hkind, hrecord]
      simp [Record.gossip, Record.recover, hwithin]

/-- The draws of the failure detector change no table. -/
lemma record_pings (s : Node) (choices : List ℕ) (a : Address) :
    (Run.run step s (choices.map Event.ping)).record a = s.record a := by
  induction choices generalizing s with
  | nil => rfl
  | cons choice choices ih =>
      calc (Run.run step (s.step (.ping choice)) (choices.map Event.ping)).record a
          = (s.step (.ping choice)).record a := ih _
        _ = s.record a := record_step s (.ping choice) a

end Events

/-! ### The suspicion and the recovery -/

/-- What `Recovered` asks of the tables is asked of the record. -/
lemma recovered_iff_record {p : Member × Int32} {up : Bool} {s : Node} :
    Recovered p up s ↔
      (∃ q ∈ (s.record p.1.address).member, q.1.SameIdentity p.1 ∧ p.2.toUInt32 ≤ q.2.toUInt32)
        ∧ ((s.record p.1.address).actorSystem.map Prod.snd).getD false = up
        ∧ (s.record p.1.address).suspect.isSome = false :=
  ⟨fun h => ⟨h.entry, h.flag, h.suspects⟩, fun ⟨h, h', h''⟩ => ⟨h, h', h''⟩⟩

/-- A member that is suspected and recovers, with nothing but draws of the failure detector in
between, is known as before exactly when its actor system was not up and the recovery names it as
the node knew it. -/
theorem recovered_iff {s : Node} {p : Member × Int32} {e e' : Event} {k t : Member}
    {choices : List ℕ} (hmember : s.members.find? p.1.address = some p)
    (hsuspect : s.suspects.contains p.1.address = false)
    (hsuspects : s.Suspects p.1.address e k)
    (hrecovers : (Run.run step (s.step e) (choices.map Event.ping)).Recovers p.1.address e' t) :
    Recovered p (s.actorSystemUp p.1.address)
        ((Run.run step (s.step e) (choices.map Event.ping)).step e')
      ↔ s.actorSystemUp p.1.address = false ∧ t.SameIdentity p.1 := by
  have hnone : (s.record p.1.address).suspect = none := by
    rw [← Option.not_isSome_iff_eq_none]
    exact Bool.eq_false_iff.mp hsuspect
  obtain ⟨i, hi, hafter⟩ := record_step_of_suspects hmember hnone hsuspects
  have hbetween := (record_pings (s.step e) choices p.1.address).trans hafter
  rw [recovered_iff_record, record_step_of_recovers hbetween hrecovers]
  simp only [Option.mem_def, Option.some.injEq, exists_eq_left', map_snd_put, Option.getD_some,
    Option.isSome_none, and_true, hi]
  rw [and_comm, eq_comm]

/-- A ping that is drawn while the member is suspected names it by the object of the suspicion: a
pushed ping failure, which has a name and an address only, leaves nothing else of the member. -/
lemma target_of_drawn {s : Node} {q : Member × Int32} {o : Option (Member × Bool)} {choice : ℕ}
    {t : Member} (hrecord : s.record t.address = ⟨none, some q, o⟩)
    (h : s.getRandomPingTarget choice = some t) : t = q.1 := by
  rw [getRandomPingTarget] at h
  split_ifs at h
  rcases List.mem_append.mp (List.mem_of_getElem? h) with hm | hs
  · have hnone : s.members.find? t.address = none := congrArg Record.member hrecord
    have hsome := OrderedMap.find?_isSome_of_mem_keys (List.mem_filter.mp hm).1
    rw [hnone] at hsome
    exact absurd hsome (by simp)
  · obtain ⟨q', hq', rfl⟩ := List.mem_map.mp hs
    have hq : s.suspects.find? q'.1.address = some q := congrArg Record.suspect hrecord
    rw [OrderedMap.find?_of_mem_entries hq'] at hq
    rw [Option.some.inj hq]

/-- A member without an actor system is suspected by another node and answers the next ping. -/
theorem recovered_node :
    Recovered (nodeB, 1) false
      ((Run.run step (((start nodeA).step (.gossip (.initAsUpMessage nodeB 1))).step
        (.gossip (.initAsSuspectMessage nodeB 1))) ([0].map Event.ping)).step
          (.pullResult 0 true)) := by
  have hsuspects : ((start nodeA).step (.gossip (.initAsUpMessage nodeB 1))).Suspects
      nodeB.address (.gossip (.initAsSuspectMessage nodeB 1)) nodeB :=
    .gossip rfl rfl (by decide)
  have hrecovers : (Run.run step (((start nodeA).step (.gossip (.initAsUpMessage nodeB 1))).step
      (.gossip (.initAsSuspectMessage nodeB 1))) ([0].map Event.ping)).Recovers
        nodeB.address (.pullResult 0 true) nodeB := .ping rfl rfl
  exact (recovered_iff (p := (nodeB, 1)) (by decide) (by decide) hsuspects hrecovers).mpr
    ⟨by decide, by decide⟩

/-- A member whose actor system is up is suspected by another node and recovers: what the node has
for its actor system stays down. -/
theorem not_recovered :
    ∃ s : Node, ∃ p e e' t, Reachable s ∧ p.1.address ≠ s.self.address
      ∧ s.members.find? p.1.address = some p ∧ s.suspects.contains p.1.address = false
      ∧ s.Suspects p.1.address e t ∧ (s.step e).Recovers p.1.address e' t
      ∧ ¬Recovered p (s.actorSystemUp p.1.address) ((s.step e).step e') := by
  refine ⟨Run.run step (start nodeA)
      [.gossip (.initAsUpMessage nodeB 1), .gossip (.initAsActorSystemUpMessage nodeB 2)],
    (nodeB, 2), .gossip (.initAsSuspectMessage nodeB 2), .gossip (.initAsRecoveryMessage nodeB 2),
    nodeB, ⟨start nodeA, _, started_start nodeA rfl, rfl⟩, by decide, by decide, by decide,
    .gossip rfl rfl (by decide), .gossip rfl rfl (by decide), fun h => ?_⟩
  exact absurd h.flag (by decide)

end Node

end Cdcf
