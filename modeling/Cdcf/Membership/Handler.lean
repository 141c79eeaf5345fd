import Cdcf.Library.Run
import Cdcf.Membership.Node

/-!
The entry points of a node: `Membership::Init`, the handlers registered with the transport,
the failure detector, and the calls made by the gRPC service and the daemon.

`Event` lists what can happen to a node and `step` is the handler of each event, so that the
runs of a node are the runs of `step` from a state that `init` returned.  What a handler
leaves to chance or to the network is part of the event: the ping target that is drawn, and
whether a pull in progress succeeds.
-/

namespace Cdcf

/-- `membership::ErrorCode`, the values `Init` returns. -/
inductive ErrorCode where
  | success
  | initHostMemberEmpty
  | initTransportEmpty
  deriving DecidableEq, Repr

/-- `membership::Config`. -/
structure Config where
  host : Member := {}
  seedMembers : List Member := []
  retransmitMultiplier : ℤ := 3
  failureDetectorOff : Bool := false
  relayPingEnabled : Bool := false

namespace Node

/-! ### Start-up -/

/-- `Membership::Init`; `transport` tells whether one is given. -/
def init (transport : Bool) (config : Config) : ErrorCode × Node :=
  if config.host.isEmptyMember then (.initHostMemberEmpty, {})
  else
    let s := ({ self := config.host } : Node).addMember config.host
    if transport then
      (.success, { s with
        retransmitMultiplier := config.retransmitMultiplier
        seedMembers := config.seedMembers.filter fun seed => !seed.eq s.self
        isRelayPingEnabled := config.relayPingEnabled
        failureDetector := !config.failureDetectorOff })
    else (.initTransportEmpty, s)

/-! ### Own actor system -/

/-- `Membership::SendSelfActorSystemUpGossip`. -/
def sendSelfActorSystemUpGossip (s : Node) : Node :=
  let s := s.increaseIncarnation
  s.sendGossip (UpdateMessage.initAsActorSystemUpMessage s.self s.incarnation)

/-- `Membership::SetSelfActorSystemUp`. -/
def setSelfActorSystemUp (s : Node) : Node :=
  { s with
    isSelfActorSystemUp := true
    memberActorSystem := s.memberActorSystem.assign s.self true }

/-- `Membership::NotifyActorSystemDown`. -/
def notifyActorSystemDown (s : Node) : Node :=
  let s := { s with
    isSelfActorSystemUp := false
    memberActorSystem := s.memberActorSystem.erase s.self.address }
  let s := s.increaseIncarnation
  s.sendGossip (UpdateMessage.initAsActorSystemDownMessage s.self s.incarnation)

/-- The message `Membership::NotifyLeave` gossips to all members, unless the node is alone. -/
def leaveMessage (s : Node) : Option UpdateMessage :=
  if s.members.size > 1 then
    some (UpdateMessage.initAsDownMessage s.self s.increaseIncarnation.incarnation)
  else none

/-- `Membership::NotifyLeave`, of which only the counter is left in the node. -/
def notifyLeave (s : Node) : Node :=
  if s.members.size > 1 then s.increaseIncarnation else s

/-! ### Gossip -/

/-- The Up branch of `Membership::HandleGossip`. -/
def handleUp (s : Node) (message : UpdateMessage) : Node :=
  let member := message.getMember
  if member.eq s.self then s
  else
    let s := s.eraseExpiredMember member
    if s.ifBelongsToSuspects member
        && s.getSuspectLocalIncarnation member ≥ message.getIncarnation then s
    else if s.ifBelongsToMembers member
        && s.getMemberLocalIncarnation member ≥ message.getIncarnation then s
    else (s.sendGossip message).mergeUpUpdate member message.getIncarnation

/-- The Down branch of `Membership::HandleGossip`. -/
def handleDown (s : Node) (message : UpdateMessage) : Node :=
  let member := message.getMember
  if !s.ifBelongsToMembers member && !s.ifBelongsToSuspects member then s
  else (s.sendGossip message).mergeDownUpdate member

/-- The Suspect branch of `Membership::HandleGossip`. -/
def handleSuspect (s : Node) (message : UpdateMessage) : Node :=
  let member := message.getMember
  if s.ifBelongsToSuspects member then
    if s.getSuspectLocalIncarnation member < message.getIncarnation then
      s.addOrUpdateSuspect member message.getIncarnation
    else s
  else if s.ifBelongsToMembers member
      && message.getIncarnation ≥ s.getMemberLocalIncarnation member then
    s.suspect member message.getIncarnation
  else s

/-- The Recovery branch of `Membership::HandleGossip`. -/
def handleRecovery (s : Node) (message : UpdateMessage) : Node :=
  let member := message.getMember
  if !s.ifBelongsToSuspects member then s
  else if message.getIncarnation < s.getSuspectLocalIncarnation member then s
  else s.recoverySuspect member

/-- The common body of the two actor system branches of `Membership::HandleGossip`. -/
def handleActorSystem (up : Bool) (s : Node) (message : UpdateMessage) : Node :=
  let member := message.getMember
  if !s.ifBelongsToMembers member then s
  else if s.getMemberLocalIncarnation member ≥ message.getIncarnation then s
  else mergeActorSystem up (s.sendGossip message) member message.getIncarnation

/-- The ActorSystemDown branch of `Membership::HandleGossip`, ending in
`MergeActorSystemDown`. -/
def handleActorSystemDown : Node → UpdateMessage → Node := handleActorSystem false

/-- The ActorSystemUp branch of `Membership::HandleGossip`, ending in
`MergeActorSystemUp`. -/
def handleActorSystemUp : Node → UpdateMessage → Node := handleActorSystem true

/-- `Membership::HandleGossip`, on the update its payload encodes. -/
def handleGossip (s : Node) (message : UpdateMessage) : Node :=
  if message.isUpMessage then s.handleUp message
  else if message.isDownMessage then s.handleDown message
  else if message.isSuspectMessage then s.handleSuspect message
  else if message.isRecoveryMessage then s.handleRecovery message
  else if message.isActorSystemDownMessage then s.handleActorSystemDown message
  else if message.isActorSystemUpMessage then s.handleActorSystemUp message
  else s

/-! ### Full state -/

/-- The answer of `Membership::HandlePull` to a full-state request. -/
def fullStateResponse (s : Node) : FullStateMessage :=
  FullStateMessage.initAsFullStateMessageWithStatus s.getMembersWithStatus

/-- `Membership::HandleDidPull`, on a pull from a seed that succeeded with `message`. -/
def handleDidPull (s : Node) (message : FullStateMessage) : Node :=
  if message.isSuccess then
    let s := s.updateActorSystemStatus message.getMembersWithStatus
    let s := s.increaseIncarnation
    let s := s.sendGossip (UpdateMessage.initAsUpMessage s.self s.incarnation)
    if s.isSelfActorSystemUp then s.sendSelfActorSystemUpGossip else s
  else s

/-! ### Failure detection -/

/-- `Membership::RelayPing`. -/
def relayPing (s : Node) (pingTarget : Member) (excludeMembers : MemberMap Unit) : Node :=
  match s.getRelayMember excludeMembers with
  | some relayTarget =>
      { s with pulls := s.pulls ++ [.relayPing pingTarget relayTarget excludeMembers] }
  | none => s.suspect pingTarget (s.getMemberLocalIncarnation pingTarget)

/-- The request the failure detector sends (`Membership::Ping`). -/
def pingRequest (s : Node) : PullRequestMessage :=
  PullRequestMessage.initAsPingType s.members s.memberActorSystem

/-- One run of the functor of `Membership::Ping`, which `choice` draws the target of. -/
def ping (s : Node) (choice : ℕ) : Node :=
  if s.failureDetector then
    match s.getRandomPingTarget choice with
    | some pingTarget => { s with pulls := s.pulls ++ [.ping pingTarget] }
    | none => s
  else s

/-- The callback of the pull in `Membership::Ping`. -/
def didPing (s : Node) (pingTarget : Member) (ok : Bool) : Node :=
  if ok && s.ifBelongsToSuspects pingTarget then s.recoverySuspect pingTarget
  else if !ok && s.ifBelongsToMembers pingTarget then
    if s.isRelayPingEnabled then
      s.relayPing pingTarget (OrderedMap.ofList [(s.self, ()), (pingTarget, ())])
    else s.suspect pingTarget (s.getMemberLocalIncarnation pingTarget)
  else s

/-- The end of the pull in progress at `index`: its callback runs.  The callback of a relayed
ping only pushes a result to another node. -/
def didPull (s : Node) (index : ℕ) (ok : Bool) : Node :=
  match s.pulls[index]? with
  | none => s
  | some callback =>
      let s := { s with pulls := s.pulls.eraseIdx index }
      match callback with
      | .ping pingTarget => s.didPing pingTarget ok
      | .relayPing pingTarget relayTarget excludeMembers =>
          if ok then s else s.relayPing pingTarget (excludeMembers.assign relayTarget ())
      | .relayedPing _ _ => s

/-- `Membership::HandlePull`, apart from the response. -/
def handlePull (s : Node) (request : PullRequestMessage) : Node :=
  match request.getType with
  | .fullState => s
  | .ping => s.mergeMembers request.getMembersWithIncarnation request.getMembersWithActorSystem
  | .pingRelay =>
      { s with
        pulls := s.pulls ++ [.relayedPing request.pingTarget request.pingResultDestination] }

/-- `Membership::HandlePush`. -/
def handlePush (s : Node) (message : PullResponseMessage) : Node :=
  if message.isPingFailure then
    s.suspect message.getMember (s.getMemberLocalIncarnation message.getMember)
  else s

end Node

/-! ### Runs of a node -/

/-- What can happen to a node after `Init`. -/
inductive Event where
  /-- A gossip datagram arrives. -/
  | gossip (message : UpdateMessage)
  /-- A pull request arrives. -/
  | pull (request : PullRequestMessage)
  /-- A pushed ping result arrives. -/
  | push (message : PullResponseMessage)
  /-- The pull from a seed ends with a full-state response. -/
  | fullState (message : FullStateMessage)
  /-- The failure detector fires and draws a target. -/
  | ping (choice : ℕ)
  /-- A ping, relay or relayed pull in progress ends. -/
  | pullResult (index : ℕ) (ok : Bool)
  | setSelfActorSystemUp
  | sendSelfActorSystemUpGossip
  | notifyActorSystemDown
  | notifyLeave

namespace Node

/-- The handler of an event. -/
def step (s : Node) : Event → Node
  | .gossip message => s.handleGossip message
  | .pull request => s.handlePull request
  | .push message => s.handlePush message
  | .fullState message => s.handleDidPull message
  | .ping choice => s.ping choice
  | .pullResult index ok => s.didPull index ok
  | .setSelfActorSystemUp => s.setSelfActorSystemUp
  | .sendSelfActorSystemUpGossip => s.sendSelfActorSystemUpGossip
  | .notifyActorSystemDown => s.notifyActorSystemDown
  | .notifyLeave => s.notifyLeave

/-- A node state after a successful `Init`. -/
def Started (s : Node) : Prop := ∃ config, init true config = (.success, s)

/-- A node state that some events lead to after a successful `Init`. -/
def Reachable (s : Node) : Prop := ∃ s₀ es, Started s₀ ∧ s = Run.run step s₀ es

end Node

/-! ### Nodes for examples -/

namespace Sample

/-- The host of a first node. -/
def nodeA : Member :=
  { nodeName := "node_a", ipAddress := "10.0.0.1", port := 4445, hostName := "a", uid := "a1" }

/-- The host of a second node. -/
def nodeB : Member :=
  { nodeName := "node_b", ipAddress := "10.0.0.2", port := 4445, hostName := "b", uid := "b1" }

/-- The host of a third node. -/
def nodeC : Member :=
  { nodeName := "node_c", ipAddress := "10.0.0.3", port := 4445, hostName := "c", uid := "c1" }

/-- The node on `host` right after `Init`. -/
def start (host : Member) : Node := (Node.init true { host }).2

/-- `Init` succeeds on a host with a name and an address. -/
lemma started_start (host : Member) (h : host.isEmptyMember = false) :
    Node.Started (start host) := by
  refine ⟨{ host }, ?_⟩
  rw [start]
  simp [Node.init, h]

end Sample

end Cdcf
