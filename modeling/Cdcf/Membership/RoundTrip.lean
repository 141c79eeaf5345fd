import Cdcf.Membership.Handler

/-!
What the receiver of a membership message reads back.

Four functions write a member into a message field by field and five read one.  The encoder of
updates writes all six fields.  The encoders of full states and of pings leave `member_id` out,
so a member comes out of their messages without its uid.

* `UpdateMessage.RoundTrip`, `FullStateMessage.RoundTrip`, `PullRequestMessage.RoundTrip`: the
  message is complete, and what is read back of it is what was put in.
* `wire_roundTrip_iff`: updates make the round trip; full states and pings make it exactly when no
  member in them has a uid.
-/

namespace Cdcf

open Sample

/-- A list that is rewritten to itself. -/
lemma map_eq_self_iff {α : Type*} {f : α → α} {l : List α} : l.map f = l ↔ ∀ a ∈ l, f a = a := by
  constructor
  · intro h
    exact List.map_inj_left.mp (h.trans (List.map_id l).symm)
  · intro h
    exact (List.map_inj_left.mpr h).trans (List.map_id l)

namespace Member

/-- The member without its uid. -/
def anonymous (m : Member) : Member := { m with uid := "" }

lemma anonymous_eq_iff {m : Member} : m.anonymous = m ↔ m.uid = "" := by
  constructor
  · intro h
    rw [← h]
    rfl
  · intro h
    cases m
    simp_all [anonymous]

end Member

/-! ### Updates -/

namespace UpdateMessage

/-- The encoder of a kind. -/
def initAs : MemberStatus → Member → UInt32 → UpdateMessage
  | .up => initAsUpMessage
  | .down => initAsDownMessage
  | .suspect => initAsSuspectMessage
  | .recovery => initAsRecoveryMessage
  | .actorSystemDown => initAsActorSystemDownMessage
  | .actorSystemUp => initAsActorSystemUpMessage

/-- The predicate of a kind. -/
def isKind : MemberStatus → UpdateMessage → Bool
  | .up => isUpMessage
  | .down => isDownMessage
  | .suspect => isSuspectMessage
  | .recovery => isRecoveryMessage
  | .actorSystemDown => isActorSystemDownMessage
  | .actorSystemUp => isActorSystemUpMessage

lemma initAs_eq (status : MemberStatus) : initAs status = setUpdate status := by
  cases status <;> rfl

lemma isKind_eq (status : MemberStatus) : isKind status = hasStatus status := by
  cases status <;> rfl

/-- An update of a kind: complete, with its member and its incarnation, and of no other kind. -/
structure RoundTrip (status : MemberStatus) (member : Member) (incarnation : UInt32) : Prop where
  isInitialized : (initAs status member incarnation).isInitialized = true
  getMember : (initAs status member incarnation).getMember = member
  getIncarnation : (initAs status member incarnation).getIncarnation = incarnation
  isKind : ∀ kind, isKind kind (initAs status member incarnation) = true ↔ kind = status

lemma roundTrip (status : MemberStatus) (member : Member) (incarnation : UInt32) :
    RoundTrip status member incarnation where
  isInitialized := by
    rw [initAs_eq]
    rfl
  getMember := by rw [initAs_eq, getMember_setUpdate]
  getIncarnation := by rw [initAs_eq, getIncarnation_setUpdate]
  isKind := fun kind => by
    rw [initAs_eq, isKind_eq, hasStatus_iff, kind?_setUpdate, Option.some_inj]
    exact eq_comm

end UpdateMessage

/-! ### Full states -/

namespace FullStateMessage

/-- All required fields are set. -/
def isInitialized (message : FullStateMessage) : Bool :=
  message.error.isSome && message.states.all MemberUpdate.isInitialized

/-- A full state: complete, a success, and with its members and their kinds. -/
structure RoundTrip (membersWithStatus : List MemberWithStatus) : Prop where
  isInitialized : (initAsFullStateMessageWithStatus membersWithStatus).isInitialized = true
  isSuccess : (initAsFullStateMessageWithStatus membersWithStatus).isSuccess = true
  getMembersWithStatus :
    (initAsFullStateMessageWithStatus membersWithStatus).getMembersWithStatus
      = membersWithStatus

/-- What is read back of a full state is what was put in, without the uids. -/
lemma getMembersWithStatus_init (ws : List MemberWithStatus) :
    (initAsFullStateMessageWithStatus ws).getMembersWithStatus
      = ws.map fun w => ⟨w.member.anonymous, w.status⟩ := by
  rw [getMembersWithStatus, initAsFullStateMessageWithStatus, List.map_map]
  refine List.map_congr_left fun w _ => ?_
  simp [MemberUpdate.getMember, MemberUpdate.getStatus, Member.anonymous]

/-- A full state without members lacks its error code, any other is complete. -/
lemma isInitialized_init (ws : List MemberWithStatus) :
    (initAsFullStateMessageWithStatus ws).isInitialized = !ws.isEmpty := by
  rw [isInitialized, initAsFullStateMessageWithStatus]
  cases ws with
  | nil => rfl
  | cons w ws => simp [MemberUpdate.isInitialized]

lemma roundTrip_iff {ws : List MemberWithStatus} (hws : ws ≠ []) :
    RoundTrip ws ↔ ∀ w ∈ ws, w.member.uid = "" := by
  have hread : (initAsFullStateMessageWithStatus ws).getMembersWithStatus = ws ↔
      ∀ w ∈ ws, w.member.uid = "" := by
    rw [getMembersWithStatus_init, map_eq_self_iff]
    refine forall₂_congr fun w _ => ?_
    rw [← Member.anonymous_eq_iff, MemberWithStatus.mk.injEq]
    exact ⟨fun h => h.1, fun h => ⟨h, rfl⟩⟩
  constructor
  · exact fun h => hread.mp h.getMembersWithStatus
  · intro h
    refine ⟨?_, ?_, hread.mpr h⟩
    · rw [isInitialized_init]
      simpa using hws
    · rw [isSuccess, initAsFullStateMessageWithStatus]
      simp [hws]

end FullStateMessage

/-! ### Pings -/

namespace PullRequestMessage

/-- All required fields are set. -/
def isInitialized (request : PullRequestMessage) : Bool :=
  request.type.isSome && request.states.all MemberUpdate.isInitialized

/-- `PullRequestMessage::IsFullStateType`. -/
def isFullStateType (request : PullRequestMessage) : Bool := request.getType == .fullState

/-- `PullRequestMessage::IsPingType`. -/
def isPingType (request : PullRequestMessage) : Bool := request.getType == .ping

/-- `PullRequestMessage::IsPingRelayType`. -/
def isPingRelayType (request : PullRequestMessage) : Bool := request.getType == .pingRelay

/-- A ping: complete, a ping only, and with the tables of the sender: its members with their
incarnations, and the same members with their flags, down where there is none. -/
structure RoundTrip (members : MemberMap Int32) (flags : MemberMap Bool) : Prop where
  isInitialized : (initAsPingType members flags).isInitialized = true
  isPingType : (initAsPingType members flags).isPingType = true
    ∧ (initAsPingType members flags).isFullStateType = false
    ∧ (initAsPingType members flags).isPingRelayType = false
  getMembersWithIncarnation :
    (initAsPingType members flags).getMembersWithIncarnation.entries = members.entries
  getMembersWithActorSystem :
    (initAsPingType members flags).getMembersWithActorSystem.entries
      = members.entries.map fun p => (p.1, (flags.get? p.1.address).getD false)

/-- The incarnations that are read back of a ping stand under members without uids. -/
lemma entries_getMembersWithIncarnation (members : MemberMap Int32) (flags : MemberMap Bool) :
    (initAsPingType members flags).getMembersWithIncarnation.entries
      = members.entries.map fun p => (p.1.anonymous, p.2) := by
  rw [← OrderedMap.entries_ofList_map
      (f := fun p : Member × Int32 => (p.1.anonymous, p.2)) (fun _ => rfl) members,
    getMembersWithIncarnation, upStates_initAsPingType, initAsPingType, List.map_map]
  simp [Function.comp_def, MemberUpdate.getMember, Member.anonymous]

/-- The flags that are read back of a ping stand under members without uids. -/
lemma entries_getMembersWithActorSystem (members : MemberMap Int32) (flags : MemberMap Bool) :
    (initAsPingType members flags).getMembersWithActorSystem.entries
      = members.entries.map fun p =>
          (p.1.anonymous, (flags.get? p.1.address).getD false) := by
  rw [← OrderedMap.entries_ofList_map
      (f := fun p : Member × Int32 => (p.1.anonymous, (flags.get? p.1.address).getD false))
      (fun _ => rfl) members,
    getMembersWithActorSystem, upStates_initAsPingType, initAsPingType, List.map_map]
  simp [Function.comp_def, MemberUpdate.getMember, Member.anonymous]

lemma isInitialized_initAsPingType (members : MemberMap Int32) (flags : MemberMap Bool) :
    (initAsPingType members flags).isInitialized = true := by
  simp [isInitialized, initAsPingType, MemberUpdate.isInitialized]

lemma roundTrip_iff {members : MemberMap Int32} {flags : MemberMap Bool} :
    RoundTrip members flags ↔ ∀ m ∈ members.keys, m.uid = "" := by
  constructor
  · intro h m hm
    obtain ⟨p, hp, rfl⟩ := List.mem_map.mp hm
    have hentries := h.getMembersWithIncarnation
    rw [entries_getMembersWithIncarnation, map_eq_self_iff] at hentries
    exact Member.anonymous_eq_iff.mp (congrArg Prod.fst (hentries p hp))
  · intro h
    have hsame : ∀ p ∈ members.entries, p.1.anonymous = p.1 := fun p hp =>
      Member.anonymous_eq_iff.mpr (h p.1 (List.mem_map_of_mem hp))
    refine ⟨isInitialized_initAsPingType members flags, ⟨rfl, rfl, rfl⟩, ?_, ?_⟩
    · rw [entries_getMembersWithIncarnation, map_eq_self_iff]
      exact fun p hp => Prod.ext (hsame p hp) rfl
    · rw [entries_getMembersWithActorSystem]
      exact List.map_congr_left fun p hp => Prod.ext (hsame p hp) rfl

end PullRequestMessage

/-! ### All messages -/

/-- Every update makes the round trip.  The members of a full state and of a ping come back
without their uids, so these make it exactly when the uids are empty. -/
theorem wire_roundTrip_iff (status : MemberStatus) (member : Member) (incarnation : UInt32)
    (membersWithStatus : List MemberWithStatus) (hne : membersWithStatus ≠ [])
    (members : MemberMap Int32) (flags : MemberMap Bool) :
    (UpdateMessage.RoundTrip status member incarnation
        ∧ FullStateMessage.RoundTrip membersWithStatus
        ∧ PullRequestMessage.RoundTrip members flags)
      ↔ (∀ w ∈ membersWithStatus, w.member.uid = "") ∧ ∀ m ∈ members.keys, m.uid = "" := by
  rw [FullStateMessage.roundTrip_iff hne, PullRequestMessage.roundTrip_iff]
  exact ⟨fun h => h.2, fun h => ⟨UpdateMessage.roundTrip status member incarnation, h⟩⟩

/-- A full state and a ping that carry node_b lose its uid. -/
theorem wire_roundTrip_loses_uid :
    ¬FullStateMessage.RoundTrip [⟨nodeB, .up⟩]
      ∧ ¬PullRequestMessage.RoundTrip (OrderedMap.empty.assign nodeB 1)
          (OrderedMap.empty.assign nodeB true) := by
  rw [FullStateMessage.roundTrip_iff (by decide), PullRequestMessage.roundTrip_iff]
  decide

/-- Members whose uids are not set. -/
theorem wire_roundTrip_iff_anonymous :
    UpdateMessage.RoundTrip .suspect nodeA 7
      ∧ FullStateMessage.RoundTrip [⟨nodeA.anonymous, .up⟩, ⟨nodeB.anonymous, .actorSystemUp⟩]
      ∧ PullRequestMessage.RoundTrip (OrderedMap.empty.assign nodeB.anonymous 1)
          (OrderedMap.empty.assign nodeB.anonymous true) :=
  (wire_roundTrip_iff .suspect nodeA 7 _ (by decide) _ _).mpr (by decide)

end Cdcf
