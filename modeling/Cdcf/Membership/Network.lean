import Mathlib.Logic.Function.Basic
import Cdcf.Membership.Handler

/-!
Nodes on a network.

A `Network` holds the nodes and everything they have ever sent.  A message that has been sent
stays, and it may arrive at any node, any number of times or never; what arrives has been sent.
So the network may drop, delay, duplicate and reorder messages, but not forge them.  Nor is it
counted how often the worker of a gossip queue has sent an entry: it may send it again.

`handle` is one event at one node, with what the node sends on it, and `act` is one action: an
event at a node, or the worker of a gossip queue sending one of its entries.  `act_cases` says once
what an action can do.
-/

namespace Cdcf

namespace Node

/-! ### What a node sends -/

/-- The datagrams of `NotifyLeave`; all other gossip goes through the queue. -/
def sentDatagrams (s : Node) : Event → List UpdateMessage
  | .notifyLeave => if 0 < s.getRetransmitLimit then s.leaveMessage.toList else []
  | _ => []

/-- The request `RelayPing` sends, if it finds a relay. -/
def relayRequest (s : Node) (pingTarget : Member) (excludeMembers : MemberMap Unit) :
    List PullRequestMessage :=
  match s.getRelayMember excludeMembers with
  | some _ => [PullRequestMessage.initAsPingRelayType s.self pingTarget]
  | none => []

/-- The pull requests sent on an event: the ping of the failure detector, the relay requests
after a ping or a relay that failed, and the ping, without tables, on behalf of another node. -/
def sentRequests (s : Node) : Event → List PullRequestMessage
  | .ping choice =>
      if s.failureDetector && (s.getRandomPingTarget choice).isSome then [s.pingRequest] else []
  | .pull request => if request.getType = .pingRelay then [{ type := some .ping }] else []
  | .pullResult index ok =>
      match s.pulls[index]? with
      | some (.ping t) =>
          if !ok && s.ifBelongsToMembers t && s.isRelayPingEnabled then
            s.relayRequest t (OrderedMap.ofList [(s.self, ()), (t, ())])
          else []
      | some (.relayPing t r ex) => if ok then [] else s.relayRequest t (ex.assign r ())
      | _ => []
  | _ => []

/-- The answer to a full-state request. -/
def sentFullStates (s : Node) : Event → List FullStateMessage
  | .pull request => if request.getType = .fullState then [s.fullStateResponse] else []
  | _ => []

/-- The result of a ping on behalf of another node. -/
def sentPushes (s : Node) : Event → List PullResponseMessage
  | .pullResult index ok =>
      match s.pulls[index]? with
      | some (.relayedPing t _) =>
          [if ok then PullResponseMessage.initAsPingSuccess t
            else PullResponseMessage.initAsPingFailure t]
      | _ => []
  | _ => []

end Node

/-! ### Networks -/

/-- The nodes, and what they have sent so far.  `calledUp` lists the nodes at which
`SetSelfActorSystemUp` has been called. -/
structure Network (ι : Type*) where
  nodes : ι → Node
  datagrams : List UpdateMessage := []
  pullRequests : List PullRequestMessage := []
  fullStates : List FullStateMessage := []
  pushes : List PullResponseMessage := []
  calledUp : List ι := []

/-- What can happen on a network.  An `index` selects an entry of a queue or a message that has
been sent. -/
inductive Action (ι : Type*) where
  /-- The worker of the gossip queue sends an entry. -/
  | disseminate (i : ι) (index : ℕ)
  /-- A datagram arrives. -/
  | gossip (i : ι) (index : ℕ)
  /-- A pull request arrives. -/
  | pull (i : ι) (index : ℕ)
  /-- The answer to a full-state request arrives. -/
  | fullState (i : ι) (index : ℕ)
  /-- A pushed ping result arrives. -/
  | push (i : ι) (index : ℕ)
  /-- `PullFromSeedMember` sends its request. -/
  | pullFromSeed (i : ι)
  /-- The failure detector fires. -/
  | ping (i : ι) (choice : ℕ)
  /-- A ping, relay or relayed pull ends. -/
  | pullResult (i : ι) (index : ℕ) (ok : Bool)
  | setSelfActorSystemUp (i : ι)
  | sendSelfActorSystemUpGossip (i : ι)
  | notifyActorSystemDown (i : ι)
  | notifyLeave (i : ι)

namespace Network

variable {ι : Type*} [DecidableEq ι]

/-- The address of a node. -/
def address (net : Network ι) (m : ι) : Address := (net.nodes m).self.address

/-- The counter of a node. -/
def counter (net : Network ι) (m : ι) : UInt32 := (net.nodes m).incarnation

/-- An event at a node. -/
def handle (net : Network ι) (i : ι) (e : Event) : Network ι where
  nodes := Function.update net.nodes i ((net.nodes i).step e)
  datagrams := net.datagrams ++ (net.nodes i).sentDatagrams e
  pullRequests := net.pullRequests ++ (net.nodes i).sentRequests e
  fullStates := net.fullStates ++ (net.nodes i).sentFullStates e
  pushes := net.pushes ++ (net.nodes i).sentPushes e
  calledUp := match e with
    | .setSelfActorSystemUp => i :: net.calledUp
    | _ => net.calledUp

/-- An event with a message, if the index selects one. -/
def deliver {M : Type*} (net : Network ι) (i : ι) (message? : Option M) (e : M → Event) :
    Network ι :=
  match message? with
  | some message => net.handle i (e message)
  | none => net

/-- One action.  `GRPCImpl::ActorSystemUp` calls `SendSelfActorSystemUpGossip` after
`SetSelfActorSystemUp` only. -/
def act (net : Network ι) : Action ι → Network ι
  | .disseminate i index =>
      match (net.nodes i).gossipQueue[index]? with
      | some entry => { net with datagrams := net.datagrams ++ [entry.payload] }
      | none => net
  | .gossip i index => net.deliver i net.datagrams[index]? .gossip
  | .pull i index => net.deliver i net.pullRequests[index]? .pull
  | .fullState i index => net.deliver i net.fullStates[index]? .fullState
  | .push i index => net.deliver i net.pushes[index]? .push
  | .pullFromSeed i =>
      if (net.nodes i).seedMembers.isEmpty then net
      else
        { net with pullRequests := net.pullRequests ++ [PullRequestMessage.initAsFullStateType] }
  | .ping i choice => net.handle i (.ping choice)
  | .pullResult i index ok => net.handle i (.pullResult index ok)
  | .setSelfActorSystemUp i => net.handle i .setSelfActorSystemUp
  | .sendSelfActorSystemUpGossip i =>
      if i ∈ net.calledUp then net.handle i .sendSelfActorSystemUpGossip else net
  | .notifyActorSystemDown i => net.handle i .notifyActorSystemDown
  | .notifyLeave i => net.handle i .notifyLeave

/-- The nodes have started, at different addresses, and nothing has been sent yet. -/
structure Started (net : Network ι) : Prop where
  nodes : ∀ i, (net.nodes i).Started
  address : Function.Injective net.address
  datagrams : net.datagrams = []
  pullRequests : net.pullRequests = []
  fullStates : net.fullStates = []
  pushes : net.pushes = []
  calledUp : net.calledUp = []

/-- The action makes the event happen at the node, with a message that has been sent. -/
inductive Occurs (net : Network ι) : Action ι → ι → Event → Prop
  | gossip {i : ι} {index : ℕ} {message : UpdateMessage} :
      net.datagrams[index]? = some message → Occurs net (.gossip i index) i (.gossip message)
  | pull {i : ι} {index : ℕ} {request : PullRequestMessage} :
      net.pullRequests[index]? = some request → Occurs net (.pull i index) i (.pull request)
  | fullState {i : ι} {index : ℕ} {message : FullStateMessage} :
      net.fullStates[index]? = some message →
      Occurs net (.fullState i index) i (.fullState message)
  | push {i : ι} {index : ℕ} {message : PullResponseMessage} :
      net.pushes[index]? = some message → Occurs net (.push i index) i (.push message)
  | ping (i : ι) (choice : ℕ) : Occurs net (.ping i choice) i (.ping choice)
  | pullResult (i : ι) (index : ℕ) (ok : Bool) :
      Occurs net (.pullResult i index ok) i (.pullResult index ok)
  | setSelfActorSystemUp (i : ι) : Occurs net (.setSelfActorSystemUp i) i .setSelfActorSystemUp
  | sendSelfActorSystemUpGossip {i : ι} : i ∈ net.calledUp →
      Occurs net (.sendSelfActorSystemUpGossip i) i .sendSelfActorSystemUpGossip
  | notifyActorSystemDown (i : ι) :
      Occurs net (.notifyActorSystemDown i) i .notifyActorSystemDown
  | notifyLeave (i : ι) : Occurs net (.notifyLeave i) i .notifyLeave

/-- The worker of the gossip queue sends an entry. -/
def disseminated (net : Network ι) (entry : QueuedGossip) : Network ι :=
  { net with datagrams := net.datagrams ++ [entry.payload] }

/-- `PullFromSeedMember` sends its request. -/
def requested (net : Network ι) : Network ι :=
  { net with pullRequests := net.pullRequests ++ [PullRequestMessage.initAsFullStateType] }

lemma deliver_cases {M : Type*} (net : Network ι) (i : ι) (message? : Option M) (e : M → Event) :
    (∃ message, message? = some message ∧ net.deliver i message? e = net.handle i (e message))
      ∨ net.deliver i message? e = net := by
  cases message? with
  | none => exact Or.inr rfl
  | some message => exact Or.inl ⟨message, rfl, rfl⟩

/-- All that an action can do: make an event happen at a node, send an entry of a gossip queue or a
request of `PullFromSeedMember`, or nothing. -/
theorem act_cases (net : Network ι) (action : Action ι) :
    (∃ i e, net.Occurs action i e ∧ net.act action = net.handle i e)
      ∨ (∃ i index entry, action = .disseminate i index
        ∧ (net.nodes i).gossipQueue[index]? = some entry
        ∧ net.act action = net.disseminated entry)
      ∨ (∃ i, action = .pullFromSeed i ∧ net.act action = net.requested)
      ∨ net.act action = net := by
  cases action with
  | disseminate i index =>
      cases hentry : (net.nodes i).gossipQueue[index]? with
      | none => exact Or.inr (Or.inr (Or.inr (by rw [act, hentry])))
      | some entry => exact Or.inr (Or.inl ⟨i, index, entry, rfl, hentry, by rw [act, hentry]; rfl⟩)
  | gossip i index =>
      rcases net.deliver_cases i net.datagrams[index]? .gossip with ⟨message, hsent, h⟩ | h
      · exact Or.inl ⟨i, _, .gossip hsent, h⟩
      · exact Or.inr (Or.inr (Or.inr h))
  | pull i index =>
      rcases net.deliver_cases i net.pullRequests[index]? .pull with ⟨message, hsent, h⟩ | h
      · exact Or.inl ⟨i, _, .pull hsent, h⟩
      · exact Or.inr (Or.inr (Or.inr h))
  | fullState i index =>
      rcases net.deliver_cases i net.fullStates[index]? .fullState with ⟨message, hsent, h⟩ | h
      · exact Or.inl ⟨i, _, .fullState hsent, h⟩
      · exact Or.inr (Or.inr (Or.inr h))
  | push i index =>
      rcases net.deliver_cases i net.pushes[index]? .push with ⟨message, hsent, h⟩ | h
      · exact Or.inl ⟨i, _, .push hsent, h⟩
      · exact Or.inr (Or.inr (Or.inr h))
  | pullFromSeed i =>
      rw [act]
      split
      · exact Or.inr (Or.inr (Or.inr rfl))
      · exact Or.inr (Or.inr (Or.inl ⟨i, rfl, rfl⟩))
  | ping i choice => exact Or.inl ⟨i, _, .ping i choice, rfl⟩
  | pullResult i index ok => exact Or.inl ⟨i, _, .pullResult i index ok, rfl⟩
  | setSelfActorSystemUp i => exact Or.inl ⟨i, _, .setSelfActorSystemUp i, rfl⟩
  | sendSelfActorSystemUpGossip i =>
      rw [act]
      split
      · next hi => exact Or.inl ⟨i, _, .sendSelfActorSystemUpGossip hi, rfl⟩
      · exact Or.inr (Or.inr (Or.inr rfl))
  | notifyActorSystemDown i => exact Or.inl ⟨i, _, .notifyActorSystemDown i, rfl⟩
  | notifyLeave i => exact Or.inl ⟨i, _, .notifyLeave i, rfl⟩

end Network

end Cdcf
