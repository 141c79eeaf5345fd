import Cdcf.Membership.SelfEntry

/-!
The flag a node keeps about its own actor system.

`SetSelfActorSystemUp` and `NotifyActorSystemDown` keep the entry of `self_` in
`member_actor_system_` in step with `is_self_actor_system_up_`, but the merge functions write
that entry too, and none of them looks at `self_`.  `claimedFlag` is what an event of the
network makes the node write there, and `selfFlag_step` says that it is all such an event can
do to the entry.

* `selfFlag_always_iff`: the node is the authority on its own actor system throughout a run
  exactly when it is told nothing about it that it accepts, or that its actor system is up
  while it is.
-/

namespace Cdcf

open Sample

namespace Node

/-! ### What the network says about the node itself -/

/-- What `member_actor_system_` maps `self_` to. -/
def selfFlag (s : Node) : Option Bool := s.memberActorSystem.get? s.self.address

/-- The flag that an event of the network makes a node write at `self_`, if it writes one: an
accepted suspicion and an accepted ActorSystemDown say `false`, an accepted ActorSystemUp says
`true`, an accepted entry of a ping list says what the list holds, and of a full state the last
entry counts. -/
def claimedFlag (s : Node) : Event → Option Bool
  | .gossip u =>
      if u.getMember.address = s.self.address then
        match u.kind? with
        | some .suspect =>
            if s.getMemberLocalIncarnation s.self ≤ u.getIncarnation then some false else none
        | some .actorSystemDown =>
            if s.getMemberLocalIncarnation s.self < u.getIncarnation then some false else none
        | some .actorSystemUp =>
            if s.getMemberLocalIncarnation s.self < u.getIncarnation then some true else none
        | _ => none
      else none
  | .pull request =>
      if request.getType = .ping then
        match request.getMembersWithIncarnation.get? s.self.address,
            s.members.get? s.self.address with
        | some i, some saved =>
            if i > saved then request.getMembersWithActorSystem.get? s.self.address else none
        | _, _ => none
      else none
  | .push message =>
      if message.isPingFailure ∧ message.getMember.address = s.self.address then some false
      else none
  | .fullState message =>
      if message.isSuccess then
        (message.getMembersWithStatus.filter fun m =>
          m.member.address = s.self.address).getLast?.map fun m => m.status == .actorSystemUp
      else none
  | .ping _ | .pullResult _ _ | .setSelfActorSystemUp | .sendSelfActorSystemUpGossip
  | .notifyActorSystemDown | .notifyLeave => none

end Node

namespace Record

variable {κ : Type*} {uid : κ → String}

lemma flag_mergeActorSystem {r : Record κ} {p : κ × Int32} (hp : r.member = some p) (up : Bool)
    (k : κ) (i : UInt32) :
    (r.mergeActorSystem up k i).actorSystem.map Prod.snd
      = (if p.2.toUInt32 < i then some up else none).or (r.actorSystem.map Prod.snd) := by
  rw [mergeActorSystem, hp]
  by_cases h : p.2.toUInt32 < i
  · simp [h, UInt32.not_le.mpr h]
  · simp [h, UInt32.not_lt.mp h]

/-- What an update about a node itself makes of the flag, where the node is in its own view. -/
lemma flag_gossip_self {r : Record κ} {p : κ × Int32} (hp : r.member = some p)
    (hsus : r.suspect = none) (kind : MemberStatus) (k : κ) (i : UInt32) :
    (r.gossip uid true kind k i).actorSystem.map Prod.snd
      = (match kind with
          | .suspect => if p.2.toUInt32 ≤ i then some false else none
          | .actorSystemDown => if p.2.toUInt32 < i then some false else none
          | .actorSystemUp => if p.2.toUInt32 < i then some true else none
          | .up | .down | .recovery => none).or (r.actorSystem.map Prod.snd) := by
  cases kind with
  | up => simp [gossip]
  | down => simp [gossip]
  | suspect => by_cases hi : p.2.toUInt32 ≤ i <;> simp [gossip, hsus, hp, hi, suspectAt]
  | recovery => simp [gossip, hsus]
  | actorSystemDown => exact flag_mergeActorSystem hp false k i
  | actorSystemUp => exact flag_mergeActorSystem hp true k i

lemma flag_updateStatuses (l : List MemberWithStatus) (r : Record Member) :
    (l.foldl (fun r m => r.updateStatus m.member (m.status == .actorSystemUp)) r).actorSystem.map
        Prod.snd
      = (l.getLast?.map fun m => m.status == .actorSystemUp).or
          (r.actorSystem.map Prod.snd) := by
  induction l generalizing r with
  | nil => rfl
  | cons m l ih =>
      rw [List.foldl_cons, ih, List.getLast?_cons]
      cases l.getLast? <;> simp [updateStatus]

lemma flag_mergeMember {r : Record κ} {p : κ × Int32} (hp : r.member = some p) (k : κ)
    (i : Int32) (up? : Option Bool) :
    (r.mergeMember k i up?).actorSystem.map Prod.snd
      = (if i > p.2 then up? else none).or (r.actorSystem.map Prod.snd) := by
  rw [mergeMember, hp]
  by_cases h : i > p.2
  · cases up? <;> simp [h, take]
  · simp [h]

end Record

namespace Node

/-- An event of the network writes at `self_` what it claims, and leaves the entry alone when
it claims nothing. -/
lemma selfFlag_step {s : Node} (ha : s.AsksOthers) (hs : s.SelfRecorded) (e : Event) :
    (s.step e).selfFlag = match e with
      | .setSelfActorSystemUp => some true
      | .notifyActorSystemDown => none
      | e => (s.claimedFlag e).or s.selfFlag := by
  obtain ⟨hm, hsus⟩ := selfRecorded_iff.mp hs
  obtain ⟨p, hp⟩ := Option.isSome_iff_exists.mp hm
  have hlocal : s.getMemberLocalIncarnation s.self = p.2.toUInt32 := by
    rw [getMemberLocalIncarnation_eq, Record.localIncarnation, hp]
    rfl
  have hflag : s.selfFlag = (s.record s.self.address).actorSystem.map Prod.snd := rfl
  have hstep : (s.step e).selfFlag
      = (s.effect e s.self.address (s.record s.self.address)).actorSystem.map Prod.snd := by
    rw [← record_step, ← self_step s e]
    rfl
  rw [hstep, hflag]
  cases e with
  | gossip u =>
      dsimp only
      rw [effect, claimedFlag, hlocal]
      by_cases hu : u.getMember.address = s.self.address
      · rw [if_pos hu, if_pos hu]
        cases u.kind? with
        | none => rfl
        | some kind =>
            dsimp only
            rw [decide_eq_true rfl, Record.flag_gossip_self hp hsus]
            cases kind <;> rfl
      · rw [if_neg hu, if_neg hu]
        rfl
  | pull request =>
      have hsaved : s.members.get? s.self.address = some p.2 := by
        rw [OrderedMap.get?, show s.members.find? s.self.address = some p from hp]
        rfl
      dsimp only
      simp only [effect, claimedFlag, hsaved]
      simp only [OrderedMap.get?]
      split_ifs
      · cases request.getMembersWithIncarnation.find? s.self.address with
        | none => rfl
        | some q => exact Record.flag_mergeMember hp q.1 q.2 _
      · rfl
  | push message =>
      dsimp only
      rw [effect, claimedFlag]
      cases message.isPingFailure with
      | false => simp [Record.judge]
      | true =>
          by_cases ht : message.getMember.address = s.self.address <;>
            simp [Record.judge, ht, Record.suspectAt, hp]
  | fullState message =>
      dsimp only
      rw [effect, claimedFlag]
      split_ifs
      · exact Record.flag_updateStatuses _ _
      · rfl
  | pullResult index ok =>
      dsimp only
      rw [effect, claimedFlag]
      cases hv : s.verdict index ok with
      | none => rfl
      | some v =>
          obtain ⟨c, hc, htarget⟩ := target_of_verdict hv
          rw [Record.judge, if_neg (ha c hc v.1 htarget)]
          rfl
  | setSelfActorSystemUp => simp [effect]
  | notifyActorSystemDown => simp [effect]
  | ping choice => rfl
  | sendSelfActorSystemUpGossip => rfl
  | notifyLeave => rfl

/-! ### Being the authority on one's own actor system -/

/-- `member_actor_system_` maps `self_` to `true` exactly when `is_self_actor_system_up_` is
`true`. -/
def SelfFlagRight (s : Node) : Prop := s.selfFlag = some true ↔ s.isSelfActorSystemUp = true

/-- Unless it is one of the node's own two, the event leaves the entry of `self_` in
`member_actor_system_` as it is. -/
def KeepsSelfFlag (s : Node) : Event → Prop
  | .setSelfActorSystemUp | .notifyActorSystemDown => True
  | e => (s.step e).selfFlag = s.selfFlag

/-- The event says nothing about the actor system of the node that the node accepts, or it
says that it is up while it is. -/
def HearsNoOtherFlag (s : Node) (e : Event) : Prop :=
  s.claimedFlag e = none ∨ s.claimedFlag e = some true ∧ s.isSelfActorSystemUp = true

instance : DecidablePred SelfFlagRight := fun _ => inferInstanceAs (Decidable (_ ↔ _))

instance (s : Node) : DecidablePred s.HearsNoOtherFlag :=
  fun _ => inferInstanceAs (Decidable (_ ∨ _))

/-- The entry of `self_` is what the two calls of the node's own actor system make of it. -/
def OwnsFlag (s : Node) : Prop :=
  s.selfFlag = if s.isSelfActorSystemUp then some true else none

lemma OwnsFlag.selfFlagRight {s : Node} (h : s.OwnsFlag) : s.SelfFlagRight := by
  rw [SelfFlagRight, h]
  cases s.isSelfActorSystemUp <;> simp

lemma Started.ownsFlag {s : Node} (h : Started s) : s.OwnsFlag := by
  rw [OwnsFlag, selfFlag, h.fresh.memberActorSystem, h.fresh.isSelfActorSystemUp]
  rfl

/-- An event that keeps the entry keeps it in step with the flag of the node. -/
lemma OwnsFlag.step_iff {s : Node} (ha : s.AsksOthers) (hs : s.SelfRecorded) (h : s.OwnsFlag)
    (e : Event) : (s.step e).OwnsFlag ↔ s.KeepsSelfFlag e := by
  have hflag := selfFlag_step ha hs e
  rw [OwnsFlag, isSelfActorSystemUp_step]
  cases e with
  | setSelfActorSystemUp => simp [hflag, nextUp, KeepsSelfFlag]
  | notifyActorSystemDown => simp [hflag, nextUp, KeepsSelfFlag]
  | _ => exact iff_of_eq (congrArg (Eq _) h.symm)

/-- Where the entry is in step with the flag of the node, it is kept by the events that claim
nothing else. -/
lemma OwnsFlag.keeps_iff {s : Node} (ha : s.AsksOthers) (hs : s.SelfRecorded) (h : s.OwnsFlag)
    (e : Event) : s.KeepsSelfFlag e ↔ s.HearsNoOtherFlag e := by
  have hflag := selfFlag_step ha hs e
  have hor : (s.claimedFlag e).or s.selfFlag = s.selfFlag ↔ s.HearsNoOtherFlag e := by
    rw [HearsNoOtherFlag, h]
    cases s.claimedFlag e with
    | none => simp
    | some flag => cases flag <;> cases s.isSelfActorSystemUp <;> simp
  cases e with
  | setSelfActorSystemUp => simp [KeepsSelfFlag, HearsNoOtherFlag, claimedFlag]
  | notifyActorSystemDown => simp [KeepsSelfFlag, HearsNoOtherFlag, claimedFlag]
  | _ => exact (iff_of_eq (congrArg (· = s.selfFlag) hflag)).trans hor

/-- A node that hears nothing else about its own actor system stays in its own view: an
accepted suspicion would have said that the actor system is down. -/
lemma HearsNoOtherFlag.sparesSelf {s : Node} {e : Event} (h : s.HearsNoOtherFlag e) :
    s.SparesSelf e := by
  cases e with
  | gossip u =>
      rintro ⟨hk, hu, hi⟩
      rw [UpdateMessage.isSuspectMessage, UpdateMessage.hasStatus_iff] at hk
      simp [HearsNoOtherFlag, claimedFlag, hk, hu, hi] at h
  | push message =>
      rintro ⟨hfail, hm⟩
      simp [HearsNoOtherFlag, claimedFlag, hfail, hm] at h
  | _ => trivial

/-- Over a run, keeping the entry and having it right come to the same as having it in step
with the flag of the node. -/
lemma always_ownsFlag_iff {s : Node} (hs : s.SelfRecorded) (ha : s.AsksOthers)
    (h : s.OwnsFlag) (es : List Event) :
    (Run.Always step SelfFlagRight s es ∧ Run.Each step KeepsSelfFlag s es)
      ↔ Run.Each step HearsNoOtherFlag s es := by
  induction es generalizing s with
  | nil => exact ⟨fun _ => trivial, fun _ => ⟨h.selfFlagRight, trivial⟩⟩
  | cons e es ih =>
      have hnext : s.HearsNoOtherFlag e →
          (s.step e).SelfRecorded ∧ (s.step e).AsksOthers ∧ (s.step e).OwnsFlag := fun hC =>
        ⟨(selfRecorded_step ha hs e).mpr hC.sparesSelf,
          ha.step (selfRecorded_iff.mp hs).2 e,
          (h.step_iff ha hs e).mpr ((h.keeps_iff ha hs e).mpr hC)⟩
      constructor
      · rintro ⟨⟨-, hright⟩, hkeep, hkeeps⟩
        have hC := (h.keeps_iff ha hs e).mp hkeep
        obtain ⟨hs', ha', h'⟩ := hnext hC
        exact ⟨hC, (ih hs' ha' h').mp ⟨hright, hkeeps⟩⟩
      · rintro ⟨hC, hCs⟩
        obtain ⟨hs', ha', h'⟩ := hnext hC
        obtain ⟨hright, hkeeps⟩ := (ih hs' ha' h').mpr hCs
        exact ⟨⟨h.selfFlagRight, hright⟩, (h.keeps_iff ha hs e).mpr hC, hkeeps⟩

/-- Throughout a run `member_actor_system_` maps `self_` to `true` exactly when
`is_self_actor_system_up_` is `true`, with only the node's own two calls changing that entry,
exactly when no event claims anything else about the node that it accepts. -/
theorem selfFlag_always_iff {s₀ : Node} (h : Started s₀) (es : List Event) :
    (Run.Always step SelfFlagRight s₀ es ∧ Run.Each step KeepsSelfFlag s₀ es)
      ↔ Run.Each step HearsNoOtherFlag s₀ es :=
  always_ownsFlag_iff h.selfRecorded.1 h.selfRecorded.2 h.ownsFlag es

/-- A node whose actor system has come up hears its own announcement back and the ping list of
a node it does not know yet. -/
theorem selfFlag_always_nodeA :
    Run.Always step SelfFlagRight (start nodeA)
        [.setSelfActorSystemUp, .sendSelfActorSystemUpGossip,
          .gossip (UpdateMessage.initAsActorSystemUpMessage nodeA 1),
          .pull (start nodeB).pingRequest]
      ∧ Run.Each step KeepsSelfFlag (start nodeA)
        [.setSelfActorSystemUp, .sendSelfActorSystemUpGossip,
          .gossip (UpdateMessage.initAsActorSystemUpMessage nodeA 1),
          .pull (start nodeB).pingRequest] :=
  (selfFlag_always_iff (started_start nodeA rfl) _).mpr (by decide)

/-- After its actor system has gone down, a node takes the echo of its own old announcement
for news: it records itself as up again. -/
theorem selfFlag_echo :
    Started (start nodeA)
      ∧ ¬Run.Always step SelfFlagRight (start nodeA)
          [.setSelfActorSystemUp, .sendSelfActorSystemUpGossip, .notifyActorSystemDown,
            .gossip (UpdateMessage.initAsActorSystemUpMessage nodeA 1)] :=
  ⟨started_start nodeA rfl, by decide⟩

end Node

end Cdcf
