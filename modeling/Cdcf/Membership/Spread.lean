import Cdcf.Library.Spread
import Cdcf.Membership.Suspicion
import Cdcf.Membership.Transfer

/-!
How far the knowledge of a member gets.

A node passes on whom it lists with every ping, with every answer to a full-state request and with
the Up gossip that waits in its queue.  `Passes` is one such pass, at the sender or at the receiver
of a message; the messages in between may be lost, delayed, repeated and overtaken.

* `carries_act`, `carries_pass`: who does not leave and whose pings succeed is forgotten nowhere,
  and is entered wherever a message about it arrives.
* `members_of_reaches`: so a node lists every member from which a chain of messages has come.
* `agrees_of_reaches`: once a chain leads from every node to every other, all nodes list the same
  members: the nodes of the network.
-/

namespace Cdcf

open Sample

/-- Where the knowledge of a member may be. -/
inductive Place (ι : Type*) where
  | node (i : ι)
  | datagram (index : ℕ)
  | pullRequest (index : ℕ)
  | fullState (index : ℕ)

/-- The update is the Up gossip about the address. -/
def UpdateMessage.Announces (a : Address) (u : UpdateMessage) : Prop :=
  u.kind? = some .up ∧ u.getMember.address = a

/-- The request is a ping that lists the address. -/
def PullRequestMessage.Lists (a : Address) (request : PullRequestMessage) : Prop :=
  request.getType = .ping ∧ (request.getMembersWithIncarnation.find? a).isSome = true

/-- The full state lists the address. -/
def FullStateMessage.Lists (a : Address) (message : FullStateMessage) : Prop :=
  message.isSuccess = true ∧ ∃ m ∈ message.getMembersWithStatus, m.member.address = a

namespace Network

variable {ι : Type*}

/-- The place has the knowledge of the address. -/
def Carries (a : Address) (net : Network ι) : Place ι → Prop
  | .node i => net.Knows i a
  | .datagram index => ∃ u, net.datagrams[index]? = some u ∧ u.Announces a
  | .pullRequest index => ∃ request, net.pullRequests[index]? = some request ∧ request.Lists a
  | .fullState index => ∃ message, net.fullStates[index]? = some message ∧ message.Lists a

/-- The action passes the knowledge of the address from one place to another. -/
inductive Passes (a : Address) (net : Network ι) : Action ι → Place ι → Place ι → Prop
  /-- A ping lists the members of its sender. -/
  | ping {i : ι} {choice : ℕ} : (net.nodes i).failureDetector = true →
      ((net.nodes i).getRandomPingTarget choice).isSome = true →
      Passes a net (.ping i choice) (.node i) (.pullRequest net.pullRequests.length)
  | merge (i : ι) (index : ℕ) : Passes a net (.pull i index) (.pullRequest index) (.node i)
  /-- The answer to a full-state request lists the members of its sender. -/
  | answer {i : ι} {index : ℕ} {request : PullRequestMessage} :
      net.pullRequests[index]? = some request → request.getType = .fullState →
      Passes a net (.pull i index) (.node i) (.fullState net.fullStates.length)
  | join (i : ι) (index : ℕ) : Passes a net (.fullState i index) (.fullState index) (.node i)
  /-- Up gossip about the address leaves the queue of its sender. -/
  | send {i : ι} {index : ℕ} {entry : QueuedGossip} :
      (net.nodes i).gossipQueue[index]? = some entry → entry.payload.Announces a →
      Passes a net (.disseminate i index) (.node i) (.datagram net.datagrams.length)
  | hear {i : ι} (index : ℕ) : net.address i ≠ a →
      Passes a net (.gossip i index) (.datagram index) (.node i)

end Network

/-! ### What is sent -/

namespace Node

/-- A ping lists everybody in `members_`. -/
lemma lists_pingRequest {s : Node} {a : Address} (h : (s.record a).member.isSome = true) :
    s.pingRequest.Lists a := by
  refine ⟨rfl, ?_⟩
  rw [pingRequest, PullRequestMessage.find?_getMembersWithIncarnation, Option.isSome_map]
  exact h

/-- So does a full state. -/
lemma lists_fullStateResponse {s : Node} {a : Address} (h : (s.record a).member.isSome = true) :
    s.fullStateResponse.Lists a := by
  refine ⟨s.isSuccess_fullStateResponse, ?_⟩
  obtain ⟨p, hp⟩ := Option.isSome_iff_exists.mp h
  have hfind : s.members.find? a = some p := hp
  have hne : (s.fullStateResponse.getMembersWithStatus.filter fun m => m.member.address = a)
      ≠ [] := by
    rw [filter_fullStateResponse, hfind]
    simp
  obtain ⟨m, hm⟩ := List.exists_mem_of_ne_nil _ hne
  obtain ⟨hm, ha⟩ := List.mem_filter.mp hm
  exact ⟨m, hm, of_decide_eq_true ha⟩

/-! ### What arrives -/

/-- Who is listed in a ping is known to the receiver. -/
lemma isKnown_of_pull {s : Node} {a : Address} {request : PullRequestMessage}
    (h : request.Lists a) : ((s.step (.pull request)).record a).isKnown = true := by
  obtain ⟨p, hp⟩ := Option.isSome_iff_exists.mp h.2
  rw [record_step, effect, if_pos h.1, hp]
  exact Record.isKnown_mergeMember _ _ _ _

/-- Who is listed in a full state is known to the receiver. -/
lemma isKnown_of_fullState {s : Node} {a : Address} {message : FullStateMessage}
    (h : message.Lists a) : ((s.step (.fullState message)).record a).isKnown = true := by
  obtain ⟨hsuccess, m, hm, ha⟩ := h
  have hmem : m ∈ message.getMembersWithStatus.filter fun m => m.member.address = a :=
    List.mem_filter.mpr ⟨hm, decide_eq_true ha⟩
  rw [record_step, effect, if_pos hsuccess]
  cases hl : message.getMembersWithStatus.filter fun m => m.member.address = a with
  | nil =>
      rw [hl] at hmem
      exact absurd hmem List.not_mem_nil
  | cons m' l => exact Record.isKnown_updateStatuses (Record.isKnown_updateStatus _ _ _) l

/-- Up gossip about another node enters it. -/
lemma isKnown_of_announces {s : Node} {a : Address} {u : UpdateMessage} (h : u.Announces a)
    (hself : s.self.address ≠ a) : ((s.step (.gossip u)).record a).isKnown = true := by
  rw [record_step, effect, if_pos h.2, h.1]
  dsimp only
  rw [decide_eq_false (Ne.symm hself), Record.gossip]
  exact Record.isKnown_up _ _ _

end Node

/-! ### Runs -/

namespace Network

variable {ι : Type*} {a : Address}

/-- What has been sent stays. -/
structure Extends (net net' : Network ι) : Prop where
  datagrams : net.datagrams <+: net'.datagrams
  pullRequests : net.pullRequests <+: net'.pullRequests
  fullStates : net.fullStates <+: net'.fullStates

lemma Extends.refl (net : Network ι) : net.Extends net :=
  ⟨List.prefix_rfl, List.prefix_rfl, List.prefix_rfl⟩

lemma getElem?_of_prefix {M : Type*} {sent sent' : List M} (h : sent <+: sent') {index : ℕ}
    {message : M} (hsent : sent[index]? = some message) : sent'[index]? = some message := by
  obtain ⟨hindex, -⟩ := List.getElem?_eq_some_iff.mp hsent
  rw [List.prefix_iff_getElem?.mp h index hindex, ← List.getElem?_eq_getElem hindex, hsent]

/-- The address is one whose node does not leave, and whose pings succeed. -/
def Dependable (a : Address) (net : Network ι) (action : Action ι) : Prop :=
  net.Stays a action ∧ net.PingSucceeds a action

/-- Then nothing is under way that could make a node forget or suspect it. -/
def Secure (a : Address) (net : Network ι) : Prop := net.Staying a ∧ net.Trusted a

lemma Started.secure {net : Network ι} (h : net.Started) (a : Address) : net.Secure a :=
  ⟨h.staying a, h.trusted a⟩

/-- Whoever knows the address has it in `members_`. -/
lemma Secure.isSome_member {net : Network ι} (h : net.Secure a) {i : ι} (hi : net.Knows i a) :
    ((net.nodes i).record a).member.isSome = true := by
  have hsuspect := (h.2.nodes i).suspect
  simpa [Knows, Record.isKnown, hsuspect] using hi

variable [DecidableEq ι]

lemma extends_act (net : Network ι) (action : Action ι) : net.Extends (net.act action) := by
  rcases net.act_cases action with
    ⟨i, e, -, hact⟩ | ⟨i, index, entry, -, -, hact⟩ | ⟨i, -, hact⟩ | hact
  · rw [hact]
    exact ⟨List.prefix_append _ _, List.prefix_append _ _, List.prefix_append _ _⟩
  · rw [hact]
    exact ⟨List.prefix_append _ _, List.prefix_rfl, List.prefix_rfl⟩
  · rw [hact]
    exact ⟨List.prefix_rfl, List.prefix_append _ _, List.prefix_rfl⟩
  · rw [hact]
    exact Extends.refl net

lemma Secure.act {net : Network ι} (h : net.Secure a) {action : Action ι}
    (hs : net.Dependable a action) : (net.act action).Secure a :=
  ⟨h.1.act hs.1, h.2.act hs.2⟩

/-- The knowledge is lost nowhere. -/
lemma carries_act {net : Network ι} (h : net.Secure a) {action : Action ι}
    (hs : net.Dependable a action) {p : Place ι} (hp : net.Carries a p) :
    (net.act action).Carries a p := by
  have hext := net.extends_act action
  cases p with
  | node i => exact Knows.act hp h.1 hs.1
  | datagram index =>
      obtain ⟨u, hsent, hu⟩ := hp
      exact ⟨u, getElem?_of_prefix hext.datagrams hsent, hu⟩
  | pullRequest index =>
      obtain ⟨request, hsent, hrequest⟩ := hp
      exact ⟨request, getElem?_of_prefix hext.pullRequests hsent, hrequest⟩
  | fullState index =>
      obtain ⟨message, hsent, hmessage⟩ := hp
      exact ⟨message, getElem?_of_prefix hext.fullStates hsent, hmessage⟩

lemma knows_handle {net : Network ι} {i : ι} {e : Event} :
    (net.handle i e).Knows i a ↔ (((net.nodes i).step e).record a).isKnown = true := by
  rw [Knows, nodes_handle, if_pos rfl]

/-- A pass brings the knowledge to where it leads. -/
lemma carries_pass {net : Network ι} (h : net.Secure a) {action : Action ι} {p q : Place ι}
    (hpass : net.Passes a action p q) (hp : net.Carries a p) : (net.act action).Carries a q := by
  cases hpass with
  | @ping i choice hdetector htarget =>
      refine ⟨(net.nodes i).pingRequest, ?_, Node.lists_pingRequest (h.isSome_member hp)⟩
      simp [act, Network.handle, Node.sentRequests, hdetector, htarget]
  | merge i index =>
      obtain ⟨request, hsent, hrequest⟩ := hp
      rw [act, hsent]
      exact knows_handle.mpr (Node.isKnown_of_pull hrequest)
  | @answer i index request hsent htype =>
      refine ⟨(net.nodes i).fullStateResponse, ?_,
        Node.lists_fullStateResponse (h.isSome_member hp)⟩
      simp [act, hsent, deliver, Network.handle, Node.sentFullStates, htype]
  | join i index =>
      obtain ⟨message, hsent, hmessage⟩ := hp
      rw [act, hsent]
      exact knows_handle.mpr (Node.isKnown_of_fullState hmessage)
  | @send i index entry hentry hannounces =>
      refine ⟨entry.payload, ?_, hannounces⟩
      simp [act, hentry]
  | hear index hself =>
      obtain ⟨u, hsent, hu⟩ := hp
      rw [act, hsent]
      exact knows_handle.mpr (Node.isKnown_of_announces hu hself)

/-- What a node knows gets wherever a chain of messages leads from it. -/
theorem members_of_reaches {net₀ : Network ι} (h : net₀.Started) {actions : List (Action ι)}
    (hdependable : Run.Each act (Dependable a) net₀ actions) {i j : ι}
    (hi : net₀.address i = a)
    (hreaches : Run.Reaches act (Passes a) net₀ actions (.node i) (.node j)) :
    ((Run.run act net₀ actions).nodes j).members.contains a = true := by
  have hstart : net₀.Carries a (.node i) := by
    have ha : (net₀.nodes i).self.address = a := hi
    simp [Carries, Knows, (h.nodes i).record, Record.isKnown, ha]
  have hsecure : (Run.run act net₀ actions).Secure a :=
    (Run.always_of_each (P := Secure a) (fun _ _ hP hs => hP.act hs) (h.secure a) hdependable).last
  have hcarries : (Run.run act net₀ actions).Carries a (.node j) :=
    hreaches.holds (Carries a) (fun _ _ hI hs => Secure.act hI hs)
      (fun _ _ _ hI hs hp => carries_act hI hs hp)
      (fun _ _ _ _ hI _ hpass hp => carries_pass hI hpass hp) (h.secure a) hdependable hstart
  exact hsecure.isSome_member hcarries

/-- Every node lists the nodes of the network and nobody else. -/
def Agrees (net : Network ι) : Prop :=
  ∀ j a, (net.nodes j).members.contains a = true ↔ ∃ i, net.address i = a

/-- Membership views converge: nobody leaves, no ping fails, and a chain of pings, full-state
answers and Up gossip leads from every node to every other; then all nodes list the same members,
exactly the nodes of the network, in whatever order everything has arrived. -/
theorem agrees_of_reaches {net₀ : Network ι} (h : net₀.Started) {actions : List (Action ι)}
    (hdependable : ∀ i, Run.Each act (Dependable (net₀.address i)) net₀ actions)
    (hreaches : ∀ i j,
      Run.Reaches act (Passes (net₀.address i)) net₀ actions (.node i) (.node j)) :
    (Run.run act net₀ actions).Agrees := by
  intro j a
  constructor
  · intro hj
    refine inhabited_run h actions j a ?_
    rw [Knows, Record.isKnown]
    exact Bool.or_eq_true_iff.mpr (Or.inl hj)
  · rintro ⟨i, rfl⟩
    rw [address_run]
    exact members_of_reaches h (hdependable i) rfl (hreaches i j)

/-- The second of two nodes joins through the first and pings it. -/
theorem agrees_of_reaches_two :
    (Run.run act twoNodes
      [.pullFromSeed true, .pull false 0, .fullState true 0, .ping true 0, .pull false 1]).Agrees :=
  agrees_of_reaches started_twoNodes
    (fun _ => by simp [Run.Each, Dependable, Stays, PingSucceeds])
    fun i j => match i, j with
      | false, false => .refl _ _ _
      | true, true => .refl _ _ _
      | false, true => .stay (.pass (.answer rfl rfl) (.pass (.join true 0) (.refl _ _ _)))
      | true, false =>
          .stay (.stay (.stay (.pass (.ping (by decide) (by decide)) (.pass (.merge false 1)
            (.refl _ _ _)))))

end Network

end Cdcf
