import Mathlib.Data.List.Basic
import Cdcf.Membership.Member

/-!
The messages of the membership layer (`membership_message.cc` over `message.proto`).

A message is the protobuf record it wraps.  A field of a proto2 record is an `Option`, and
reading an unset field gives its default: the empty string, zero, `false`, the first value
of an enumeration.  Protobuf's own serialisation is taken to be faithful, so a payload is
identified with the message it encodes.

* `MemberUpdate`, `UpdateMessage`: one gossip update, its `InitAs…` functions (all of them
  `setUpdate` at their own status), `getMember` and the `Is…Message` predicates, which are
  read together through `kind?`.
* `FullStateMessage`: the answer to a full-state pull.
* `PullRequestMessage`, `PullResponseMessage`: the requests of kind full state, ping and
  ping relay, and the results pushed back by a relay.

`getMember_setUpdate` and `getIncarnation_setUpdate` are the round trips of an update,
`find?_getMembersWithIncarnation` and `get?_getMembersWithActorSystem` those of a ping.
-/

namespace Cdcf

/-! ### Updates -/

/-- `MemberUpdate::MemberStatus`. -/
inductive MemberStatus where
  | up
  | down
  | suspect
  | recovery
  | actorSystemDown
  | actorSystemUp
  deriving DecidableEq, Repr

/-- The protobuf record `MemberUpdate`. -/
structure MemberUpdate where
  name : Option String := none
  hostname : Option String := none
  ip : Option String := none
  port : Option Int32 := none
  role : Option String := none
  status : Option MemberStatus := none
  incarnation : Option Int32 := none
  memberId : Option String := none
  actorSystemUp : Option Bool := none
  deriving DecidableEq, Repr

/-- `static_cast<uint16_t>` of an `int`. -/
def toPort (p : Int32) : UInt16 := p.toUInt32.toUInt16

/-- `set_port` of an `uint16_t`. -/
def ofPort (p : UInt16) : Int32 := p.toUInt32.toInt32

@[simp] lemma toPort_ofPort (p : UInt16) : toPort (ofPort p) = p := by
  simp [toPort, ofPort]

namespace MemberUpdate

/-- All required fields are set. -/
def isInitialized (u : MemberUpdate) : Bool :=
  u.name.isSome && u.hostname.isSome && u.ip.isSome && u.port.isSome && u.role.isSome
    && u.status.isSome && u.incarnation.isSome

/-- The status read, `UP` when it is unset. -/
def getStatus (u : MemberUpdate) : MemberStatus := u.status.getD .up

/-- `UpdateMessage::GetMember`. -/
def getMember (u : MemberUpdate) : Member :=
  { nodeName := u.name.getD ""
    ipAddress := u.ip.getD ""
    port := toPort (u.port.getD 0)
    hostName := u.hostname.getD ""
    uid := u.memberId.getD ""
    role := u.role.getD "" }

end MemberUpdate

/-- `membership::UpdateMessage`. -/
abbrev UpdateMessage := MemberUpdate

namespace UpdateMessage

/-- `UpdateMessage::GetIncarnation`. -/
def getIncarnation (u : UpdateMessage) : UInt32 := (u.incarnation.getD 0).toUInt32

/-- `UpdateMessage::SetUpdate`, followed by `set_status`. -/
def setUpdate (status : MemberStatus) (member : Member) (incarnation : UInt32) :
    UpdateMessage :=
  { name := some member.nodeName
    hostname := some member.hostName
    ip := some member.ipAddress
    port := some (ofPort member.port)
    incarnation := some incarnation.toInt32
    memberId := some member.uid
    role := some member.role
    status := some status }

/-- `UpdateMessage::InitAsUpMessage`. -/
def initAsUpMessage : Member → UInt32 → UpdateMessage := setUpdate .up

/-- `UpdateMessage::InitAsDownMessage`. -/
def initAsDownMessage : Member → UInt32 → UpdateMessage := setUpdate .down

/-- `UpdateMessage::InitAsSuspectMessage`. -/
def initAsSuspectMessage : Member → UInt32 → UpdateMessage := setUpdate .suspect

/-- `UpdateMessage::InitAsRecoveryMessage`. -/
def initAsRecoveryMessage : Member → UInt32 → UpdateMessage := setUpdate .recovery

/-- `UpdateMessage::InitAsActorSystemDownMessage`. -/
def initAsActorSystemDownMessage : Member → UInt32 → UpdateMessage := setUpdate .actorSystemDown

/-- `UpdateMessage::InitAsActorSystemUpMessage`. -/
def initAsActorSystemUpMessage : Member → UInt32 → UpdateMessage := setUpdate .actorSystemUp

/-- The test shared by the `Is…Message` functions. -/
def hasStatus (status : MemberStatus) (u : UpdateMessage) : Bool :=
  !(!u.isInitialized || u.getStatus != status)

/-- `UpdateMessage::IsUpMessage`. -/
def isUpMessage : UpdateMessage → Bool := hasStatus .up

/-- `UpdateMessage::IsDownMessage`. -/
def isDownMessage : UpdateMessage → Bool := hasStatus .down

/-- `UpdateMessage::IsSuspectMessage`. -/
def isSuspectMessage : UpdateMessage → Bool := hasStatus .suspect

/-- `UpdateMessage::IsRecoveryMessage`. -/
def isRecoveryMessage : UpdateMessage → Bool := hasStatus .recovery

/-- `UpdateMessage::IsActorSystemDownMessage`. -/
def isActorSystemDownMessage : UpdateMessage → Bool := hasStatus .actorSystemDown

/-- `UpdateMessage::IsActorSystemUpMessage`. -/
def isActorSystemUpMessage : UpdateMessage → Bool := hasStatus .actorSystemUp

/-- The kind of an update; an update with an unset required field has none. -/
def kind? (u : UpdateMessage) : Option MemberStatus :=
  if u.isInitialized then some u.getStatus else none

/-- Of the six predicates, exactly the one of the kind holds. -/
lemma hasStatus_iff {u : UpdateMessage} {status : MemberStatus} :
    hasStatus status u = true ↔ u.kind? = some status := by
  rw [hasStatus, kind?]
  cases u.isInitialized <;> simp

@[simp] lemma kind?_setUpdate (status : MemberStatus) (m : Member) (i : UInt32) :
    (setUpdate status m i).kind? = some status := rfl

/-- The member of an update is the member it was built from. -/
@[simp] lemma getMember_setUpdate (status : MemberStatus) (m : Member) (i : UInt32) :
    (setUpdate status m i).getMember = m := by
  simp [setUpdate, MemberUpdate.getMember]

/-- The incarnation of an update is the incarnation it was built from. -/
@[simp] lemma getIncarnation_setUpdate (status : MemberStatus) (m : Member) (i : UInt32) :
    (setUpdate status m i).getIncarnation = i := by
  simp [setUpdate, getIncarnation]

end UpdateMessage

/-! ### Full states -/

/-- `membership::MemberWithStatus`. -/
structure MemberWithStatus where
  member : Member
  status : MemberStatus
  deriving DecidableEq, Repr

/-- `MemberFullState::ErrorCode`. -/
inductive FullStateError where
  | success
  | failure
  | reentryRejected
  deriving DecidableEq, Repr

/-- `membership::FullStateMessage`. -/
structure FullStateMessage where
  error : Option FullStateError := none
  states : List MemberUpdate := []
  deriving DecidableEq, Repr

namespace FullStateMessage

/-- `FullStateMessage::InitAsFullStateMessageWithStatus`: the error code is set inside the
loop over the members, and every entry carries the incarnation `1` and no uid. -/
def initAsFullStateMessageWithStatus (membersWithStatus : List MemberWithStatus) :
    FullStateMessage :=
  { error := if membersWithStatus.isEmpty then none else some .success
    states := membersWithStatus.map fun m =>
      { name := some m.member.nodeName
        hostname := some m.member.hostName
        ip := some m.member.ipAddress
        role := some m.member.role
        port := some (ofPort m.member.port)
        status := some m.status
        incarnation := some 1 } }

/-- `FullStateMessage::GetMembersWithStatus`. -/
def getMembersWithStatus (message : FullStateMessage) : List MemberWithStatus :=
  message.states.map fun u => ⟨{ u.getMember with uid := "" }, u.getStatus⟩

/-- `FullStateMessage::IsSuccess`. -/
def isSuccess (message : FullStateMessage) : Bool := message.error.getD .success == .success

end FullStateMessage

/-! ### Pull requests -/

/-- `PullRequest::Type`. -/
inductive PullRequestType where
  | fullState
  | ping
  | pingRelay
  deriving DecidableEq, Repr

/-- `membership::PullRequestMessage`. -/
structure PullRequestMessage where
  type : Option PullRequestType := none
  name : Option String := none
  ip : Option String := none
  port : Option Int32 := none
  selfName : Option String := none
  selfIp : Option String := none
  selfPort : Option Int32 := none
  states : List MemberUpdate := []
  deriving DecidableEq, Repr

namespace PullRequestMessage

/-- The type read, `FULL_STATE` when it is unset. -/
def getType (request : PullRequestMessage) : PullRequestType := request.type.getD .fullState

/-- `PullRequestMessage::InitAsFullStateType`. -/
def initAsFullStateType : PullRequestMessage := { type := some .fullState }

/-- `PullRequestMessage::InitAsPingType` with the tables of the sender: an entry carries the
incarnation and the actor system flag of the member, but not its uid. -/
def initAsPingType (members : MemberMap Int32) (memberActorSystem : MemberMap Bool) :
    PullRequestMessage :=
  { type := some .ping
    states := members.entries.map fun (member, incarnation) =>
      { name := some member.nodeName
        hostname := some member.hostName
        ip := some member.ipAddress
        port := some (ofPort member.port)
        role := some member.role
        status := some .up
        incarnation := some incarnation
        actorSystemUp := some ((memberActorSystem.get? member.address).getD false) } }

/-- `PullRequestMessage::InitAsPingRelayType`. -/
def initAsPingRelayType (self target : Member) : PullRequestMessage :=
  { type := some .pingRelay
    name := some target.nodeName
    ip := some target.ipAddress
    port := some (ofPort target.port)
    selfName := some self.nodeName
    selfIp := some self.ipAddress
    selfPort := some (ofPort self.port) }

/-- The entries of a ping that the receiver looks at. -/
def upStates (request : PullRequestMessage) : List MemberUpdate :=
  request.states.filter fun u => u.getStatus == .up

/-- `PullRequestMessage::GetMembersWithIncarnation`. -/
def getMembersWithIncarnation (request : PullRequestMessage) : MemberMap Int32 :=
  OrderedMap.ofList (request.upStates.map fun u => (u.getMember, u.incarnation.getD 0))

/-- `PullRequestMessage::GetMembersWithActorSystem`. -/
def getMembersWithActorSystem (request : PullRequestMessage) : MemberMap Bool :=
  OrderedMap.ofList (request.upStates.map fun u => (u.getMember, u.actorSystemUp.getD false))

/-- The receiver of a ping looks at all its entries. -/
lemma upStates_initAsPingType (members : MemberMap Int32) (flags : MemberMap Bool) :
    (initAsPingType members flags).upStates = (initAsPingType members flags).states := by
  refine List.filter_eq_self.mpr fun u hu => ?_
  obtain ⟨p, -, rfl⟩ := List.mem_map.mp hu
  rfl

/-- The receiver of a ping finds the incarnations of the sender, each under a member without
uid. -/
lemma find?_getMembersWithIncarnation (members : MemberMap Int32) (flags : MemberMap Bool)
    (a : Address) :
    (initAsPingType members flags).getMembersWithIncarnation.find? a
      = (members.find? a).map fun p => ({ p.1 with uid := "" }, p.2) := by
  rw [← OrderedMap.find?_ofList_map (f := fun p : Member × Int32 => ({ p.1 with uid := "" }, p.2))
      (fun _ => rfl) members a,
    getMembersWithIncarnation, upStates_initAsPingType, initAsPingType, List.map_map]
  simp [Function.comp_def, MemberUpdate.getMember]

/-- The receiver of a ping finds the flags of the sender for the members of the sender. -/
lemma get?_getMembersWithActorSystem (members : MemberMap Int32) (flags : MemberMap Bool)
    (a : Address) :
    (initAsPingType members flags).getMembersWithActorSystem.get? a
      = (members.find? a).map fun _ => (flags.get? a).getD false := by
  have hmap := OrderedMap.find?_ofList_map
    (f := fun p : Member × Int32 =>
      ({ p.1 with uid := "" }, (flags.get? p.1.address).getD false))
    (fun _ => rfl) members a
  rw [getMembersWithActorSystem, upStates_initAsPingType, initAsPingType, List.map_map,
    OrderedMap.get?]
  simp only [Function.comp_def, MemberUpdate.getMember, Option.getD_some, toPort_ofPort,
    Option.getD_none]
  rw [hmap, Option.map_map]
  cases hp : members.find? a with
  | none => rfl
  | some p => simp [OrderedMap.key_of_find? hp]

/-- The member a relay is asked to ping. -/
def pingTarget (request : PullRequestMessage) : Member :=
  { nodeName := request.name.getD ""
    ipAddress := request.ip.getD ""
    port := toPort (request.port.getD 0) }

/-- The address a relay pushes its result to. -/
def pingResultDestination (request : PullRequestMessage) : Address :=
  ⟨request.selfIp.getD "", toPort (request.selfPort.getD 0)⟩

end PullRequestMessage

/-! ### Pull responses -/

/-- `PullResponse::Type`. -/
inductive PullResponseType where
  | pingSuccess
  | pingFailure
  | pingRequestReceived
  deriving DecidableEq, Repr

/-- `membership::PullResponseMessage`. -/
structure PullResponseMessage where
  type : Option PullResponseType := none
  name : Option String := none
  ip : Option String := none
  port : Option Int32 := none
  deriving DecidableEq, Repr

namespace PullResponseMessage

/-- The type read, the first value of the enumeration when it is unset. -/
def getType (response : PullResponseMessage) : PullResponseType :=
  response.type.getD .pingSuccess

/-- `PullResponseMessage::InitAsPingSuccess` and `InitAsPingFailure`. -/
def initAsPingResult (type : PullResponseType) (member : Member) : PullResponseMessage :=
  { type := some type
    name := some member.nodeName
    ip := some member.ipAddress
    port := some (ofPort member.port) }

/-- `PullResponseMessage::InitAsPingSuccess`. -/
def initAsPingSuccess : Member → PullResponseMessage := initAsPingResult .pingSuccess

/-- `PullResponseMessage::InitAsPingFailure`. -/
def initAsPingFailure : Member → PullResponseMessage := initAsPingResult .pingFailure

/-- `PullResponseMessage::IsPingFailure`. -/
def isPingFailure (response : PullResponseMessage) : Bool := response.getType == .pingFailure

/-- `PullResponseMessage::GetMember`. -/
def getMember (response : PullResponseMessage) : Member :=
  if response.getType = .pingSuccess ∨ response.getType = .pingFailure then
    { nodeName := response.name.getD ""
      ipAddress := response.ip.getD ""
      port := toPort (response.port.getD 0) }
  else {}

end PullResponseMessage

end Cdcf
