import Mathlib.Data.Nat.Log
import Mathlib.Algebra.Order.Ring.Int
import Cdcf.Membership.Message

/-!
The membership object of one node (`membership::Membership`): its tables, and the functions
of `membership.cc` that read and write them.

A `Node` holds the members of the class that the functions read.  The logging flag, the
intervals and the subscribers are left out: nothing the tables hold depends on them.  An
`int` and an `unsigned int` of the source are `Int32` and `UInt32`, converted bit by bit as
the source converts them.

Two queues are kept as logs.  `gossipQueue` lists what has been pushed to `gossip_queue_`;
the worker that pops the entries reads `members_` only, so nothing is lost by keeping them.
`pulls` lists the callbacks of the asynchronous pulls in progress, each with the values it
has captured.
-/

namespace Cdcf

/-- What is pushed to `gossip_queue_`: the payload to disseminate, and how many times. -/
structure QueuedGossip where
  payload : UpdateMessage
  times : ℤ
  deriving DecidableEq, Repr

/-- The callback given to `Pull`, with its captured values. -/
inductive PullCallback where
  /-- The callback of `Ping`. -/
  | ping (pingTarget : Member)
  /-- The callback of `RelayPing`. -/
  | relayPing (pingTarget relayTarget : Member) (excludeMembers : MemberMap Unit)
  /-- The callback of `HandlePull` on a relay request. -/
  | relayedPing (pingTarget : Member) (destination : Address)

/-- The state of `membership::Membership`, with the values its constructor gives. -/
structure Node where
  self : Member := {}
  members : MemberMap Int32 := OrderedMap.empty
  suspects : MemberMap Int32 := OrderedMap.empty
  memberActorSystem : MemberMap Bool := OrderedMap.empty
  isSelfActorSystemUp : Bool := false
  incarnation : UInt32 := 0
  seedMembers : List Member := []
  retransmitMultiplier : ℤ := 3
  isRelayPingEnabled : Bool := false
  failureDetector : Bool := false
  gossipQueue : List QueuedGossip := []
  pulls : List PullCallback := []

namespace Node

/-! ### Reading the tables -/

/-- `Membership::IfBelongsToMembers`. -/
def ifBelongsToMembers (s : Node) (member : Member) : Bool := s.members.contains member.address

/-- `Membership::IfBelongsToSuspects`. -/
def ifBelongsToSuspects (s : Node) (member : Member) : Bool :=
  s.suspects.contains member.address

/-- `Membership::GetMemberLocalIncarnation`. -/
def getMemberLocalIncarnation (s : Node) (member : Member) : UInt32 :=
  ((s.members.get? member.address).getD 0).toUInt32

/-- `Membership::GetSuspectLocalIncarnation`. -/
def getSuspectLocalIncarnation (s : Node) (member : Member) : UInt32 :=
  ((s.suspects.get? member.address).getD 0).toUInt32

/-- `Membership::GetMembers`. -/
def getMembers (s : Node) : List Member := s.members.keys

/-- `Membership::GetActorSystems`. -/
def getActorSystems (s : Node) : MemberMap Bool := s.memberActorSystem

/-- `Membership::GetMembersWithStatus`. -/
def getMembersWithStatus (s : Node) : List MemberWithStatus :=
  s.members.keys.map fun member =>
    ⟨member,
      if (s.memberActorSystem.get? member.address).getD false then .actorSystemUp else .up⟩

/-- `Membership::GetRetransmitLimit`.  Of an empty table, whose logarithm the source does not
define, nothing is retransmitted. -/
def getRetransmitLimit (s : Node) : ℤ := s.retransmitMultiplier * Nat.clog 10 s.members.size

/-- The candidates of `Membership::GetRandomPingTarget`, of which `choice` selects one. -/
def getRandomPingTarget (s : Node) (choice : ℕ) : Option Member :=
  if s.members.size + s.suspects.size ≤ 1 then none
  else
    let membersWithoutSelf := s.members.keys.filter (fun m => !m.eq s.self) ++ s.suspects.keys
    membersWithoutSelf[choice % membersWithoutSelf.length]?

/-- `Membership::GetRelayMember`: the loop keeps the last member that is not excluded. -/
def getRelayMember (s : Node) (excludeMembers : MemberMap Unit) : Option Member :=
  if s.members.size ≤ 2 then none
  else (s.members.keys.filter fun m => !excludeMembers.contains m.address).getLast?

/-! ### Gossip -/

/-- `TimedFunctorQueue::Push` on `gossip_queue_`: an entry that would run less than once is
dropped. -/
def pushGossip (s : Node) (payload : UpdateMessage) (times : ℤ) : Node :=
  if times < 1 then s else { s with gossipQueue := s.gossipQueue ++ [⟨payload, times⟩] }

/-- `Membership::SendGossip`, and the pushes written out in the other functions. -/
def sendGossip (s : Node) (payload : UpdateMessage) : Node :=
  s.pushGossip payload s.getRetransmitLimit

/-- `Membership::IncreaseIncarnation`; the value it returns is the new counter. -/
def increaseIncarnation (s : Node) : Node := { s with incarnation := s.incarnation + 1 }

/-! ### Writing the tables -/

/-- `Membership::AddMember`. -/
def addMember (s : Node) (member : Member) : Node :=
  { s with members := s.members.assign member s.incarnation.toInt32 }

/-- `Membership::AddOrUpdateSuspect`. -/
def addOrUpdateSuspect (s : Node) (member : Member) (incarnation : UInt32) : Node :=
  { s with suspects := s.suspects.assign member incarnation.toInt32 }

/-- Whether a table holds the member under another uid. -/
def isExpired (table : MemberMap Int32) (member : Member) : Bool :=
  match table.find? member.address with
  | some (savedMember, _) => savedMember.uid != member.uid
  | none => false

/-- `Membership::EraseExpiredMember`. -/
def eraseExpiredMember (s : Node) (member : Member) : Node :=
  let clearOld := isExpired s.members member || isExpired s.suspects member
  { s with
    members := if isExpired s.members member then s.members.erase member.address else s.members
    suspects :=
      if isExpired s.suspects member then s.suspects.erase member.address else s.suspects
    memberActorSystem :=
      if clearOld then s.memberActorSystem.assign member false else s.memberActorSystem }

/-- `Membership::Suspect`. -/
def suspect (s : Node) (member : Member) (incarnation : UInt32) : Node :=
  if s.ifBelongsToMembers member then
    let s := s.addOrUpdateSuspect member incarnation
    let s := { s with
      members := s.members.erase member.address
      memberActorSystem := s.memberActorSystem.assign member false }
    s.sendGossip (UpdateMessage.initAsSuspectMessage member incarnation)
  else s

/-- `Membership::RecoverySuspect`. -/
def recoverySuspect (s : Node) (member : Member) : Node :=
  let incarnation := (s.suspects.get? member.address).getD 0
  let s := { s with
    members := s.members.assign member incarnation
    suspects := s.suspects.erase member.address }
  s.sendGossip (UpdateMessage.initAsRecoveryMessage member incarnation.toUInt32)

/-- The guard shared by `MergeUpUpdate`, `MergeActorSystemUp` and `MergeActorSystemDown`. -/
def isStale (s : Node) (member : Member) (incarnation : UInt32) : Bool :=
  s.ifBelongsToMembers member && decide (incarnation ≤ s.getMemberLocalIncarnation member)

/-- `Membership::MergeUpUpdate`. -/
def mergeUpUpdate (s : Node) (member : Member) (incarnation : UInt32) : Node :=
  if s.isStale member incarnation then s
  else { s with members := s.members.assign member incarnation.toInt32 }

/-- `Membership::MergeDownUpdate`. -/
def mergeDownUpdate (s : Node) (member : Member) : Node :=
  if member.eq s.self then s
  else { s with
    members := s.members.erase member.address
    suspects := s.suspects.erase member.address
    memberActorSystem := s.memberActorSystem.assign member false }

/-- `Membership::MergeActorSystemUp` (`up`) and `Membership::MergeActorSystemDown`, which
differ in the flag only. -/
def mergeActorSystem (up : Bool) (s : Node) (member : Member) (incarnation : UInt32) : Node :=
  if s.isStale member incarnation then s
  else { s with
    members := s.members.assign member incarnation.toInt32
    memberActorSystem := s.memberActorSystem.assign member up }

/-- One round of the loop of `Membership::UpdateActorSystemStatus`. -/
def updateOneStatus (s : Node) (m : MemberWithStatus) : Node :=
  { s with
    members := if s.members.contains m.member.address then s.members
      else s.members.assign m.member 0
    memberActorSystem := s.memberActorSystem.assign m.member (m.status == .actorSystemUp) }

/-- `Membership::UpdateActorSystemStatus`. -/
def updateActorSystemStatus (s : Node) (membersWithStatus : List MemberWithStatus) : Node :=
  membersWithStatus.foldl updateOneStatus s

/-- What both branches of the loop of `Membership::MergeMembers` do with an entry they take:
`up?` is the flag the list has for the member. -/
def takeMember (s : Node) (member : Member) (incarnation : Int32) (up? : Option Bool) : Node :=
  { s with
    members := s.members.assign member incarnation
    memberActorSystem := match up? with
      | some up => s.memberActorSystem.assign member up
      | none => s.memberActorSystem }

/-- One round of the loop of `Membership::MergeMembers`.  Both incarnations are `int`s here,
and the comparison is signed. -/
def mergeOneMember (memberActorSystem : MemberMap Bool) (s : Node) (pair : Member × Int32) :
    Node :=
  match s.members.get? pair.1.address with
  | some saved =>
      if pair.2 > saved then
        s.takeMember pair.1 pair.2 (memberActorSystem.get? pair.1.address)
      else s
  | none => s.takeMember pair.1 pair.2 (memberActorSystem.get? pair.1.address)

/-- `Membership::MergeMembers`. -/
def mergeMembers (s : Node) (members : MemberMap Int32) (memberActorSystem : MemberMap Bool) :
    Node :=
  members.entries.foldl (mergeOneMember memberActorSystem) s

end Node

end Cdcf
