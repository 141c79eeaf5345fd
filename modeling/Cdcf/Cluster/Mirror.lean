import Cdcf.Library.Run
import Cdcf.NodeKeeper.MemberEvent

/-!
The list of members that an actor system keeps (`cluster.h`, `cluster.cc`), beside the set of its
node keeper (`grpc.cc`), both changing together with every event.

* `GRPCImpl::Notify` leaves out the events about members on the keeper's own host (`isLocal`);
  `Subscribe` translates the others, `ClusterImpl::Update` carries them out on the list.
* `Mirror`: the set and the list, one event at a time.
* `matches_always_iff`: the list holds every member of the set that is not on the own host once,
  and no other one, throughout a list of events exactly when no event announces such a member
  that is there already, and none takes one away as a member on the own host.  The set ignores
  a second announcement, the list is appended to without looking.
-/

namespace Cdcf.Cluster

open Sample

/-! ### Messages -/

/-- `::Member` of `node_keeper.proto`. -/
structure MemberMessage where
  name : String
  hostname : String
  host : String
  port : UInt32
  role : String
  deriving DecidableEq, Repr

/-- `UpdateMember`. -/
def updateMember (m : Cdcf.Member) : MemberMessage where
  name := m.nodeName
  hostname := m.hostName
  role := m.role
  host := m.ipAddress
  port := m.port.toUInt32

/-- `::MemberEvent::Status`. -/
inductive EventStatus where
  | unknown
  | up
  | down
  | actorSystemDown
  | actorSystemUp
  deriving DecidableEq, Repr

/-- `::Event::Type`. -/
inductive EventKind where
  | unknown
  | memberChanged
  deriving DecidableEq, Repr

/-- `::Event` with the `::MemberEvent` in it. -/
structure EventMessage where
  type : EventKind
  member : MemberMessage
  status : EventStatus
  deriving DecidableEq, Repr

/-- What the loop of `GRPCImpl::Subscribe` writes for an item of the channel. -/
def subscribeItem (item : MemberEvent) : EventMessage where
  type := .memberChanged
  member := updateMember item.member
  status := match item.type with
    | .memberUp => .up
    | .memberDown => .down
    | .actorSystemDown => .actorSystemDown
    | .actorSystemUp => .actorSystemUp

/-! ### The list of the actor system -/

/-- `cdcf::cluster::Member::Status`. -/
inductive Status where
  | up
  | down
  | actorSystemDown
  | actorSystemUp
  deriving DecidableEq, Repr

/-- `cdcf::cluster::Member`. -/
structure Member where
  name : String
  hostname : String
  host : String
  role : String
  port : UInt16
  status : Status := .up
  deriving DecidableEq, Repr

/-- What `operator==` and `operator<` of `cdcf::cluster::Member` look at. -/
def Member.address (m : Member) : Address := ⟨m.host, m.port⟩

/-- `operator==` of `cdcf::cluster::Member`. -/
def Member.eq (m other : Member) : Bool := m.host == other.host && m.port == other.port

lemma Member.eq_iff {m other : Member} : m.eq other = true ↔ m.address = other.address := by
  simp [Member.eq, Member.address]

/-- The member that a message tells of, as `Fetch` and `Update` build it. -/
def MemberMessage.toMember (detail : MemberMessage) (status : Status) : Member where
  name := detail.name
  hostname := detail.hostname
  host := detail.host
  role := detail.role
  port := detail.port.toUInt16
  status := status

/-- `GRPCImpl::GetMembers`. -/
def getMembers (members : MemberSet) : List MemberMessage := members.keys.map updateMember

/-- What `ClusterImpl::Fetch` makes of the reply. -/
def fetched (reply : List MemberMessage) : List Member :=
  reply.map fun member => member.toMember .up

/-- `ClusterImpl::Update`, on `members_`. -/
def update (members : List Member) (event : EventMessage) : List Member :=
  if event.type = .memberChanged then
    match event.status with
    | .up => members ++ [event.member.toMember .up]
    | .down => members.filter fun m => !m.eq (event.member.toMember .down)
    | .actorSystemDown | .actorSystemUp | .unknown => members
  else members

/-! ### The own host -/

/-- The test by which `GRPCImpl::Notify` leaves out an event. -/
def isLocal (host : String) (m : Cdcf.Member) : Bool :=
  m.ipAddress == host || m.hostName == host

/-- The same of a member of the actor system's list. -/
def Member.isLocal (host : String) (m : Member) : Bool := m.host == host || m.hostname == host

@[simp] lemma address_toMember (m : Cdcf.Member) (status : Status) :
    ((updateMember m).toMember status).address = m.address := by
  simp [Member.address, MemberMessage.toMember, updateMember, Cdcf.Member.address]

/-- The events that `GRPCImpl::Notify` puts into a channel. -/
def remote (host : String) (events : List MemberEvent) : List MemberEvent :=
  events.filter fun event => !isLocal host event.member

/-- What the list becomes by the items of a channel. -/
def updates (members : List Member) (items : List MemberEvent) : List Member :=
  items.foldl (fun members item => update members (subscribeItem item)) members

lemma updates_append (members : List Member) (items items' : List MemberEvent) :
    updates members (items ++ items') = updates (updates members items) items' :=
  List.foldl_append

/-! ### The set and the list together -/

/-- The set of the node keeper and the list of the actor system. -/
structure Mirror where
  members : MemberSet
  list : List Member

namespace Mirror

/-- Both follow an event at once. -/
def step (host : String) (v : Mirror) (event : MemberEvent) : Mirror where
  members := notifyOne v.members event
  list := updates v.list (remote host [event])

/-- The list holds each member of the set that is not on the own host exactly once, and no other
member that is not on the own host. -/
def Matches (host : String) (v : Mirror) : Prop :=
  (∀ m ∈ v.members.keys, isLocal host m = false →
      v.list.countP (fun c => c.address = m.address) = 1)
    ∧ ∀ c ∈ v.list, c.isLocal host = false →
      ∃ m ∈ v.members.keys, isLocal host m = false ∧ m.address = c.address

/-- An `Up` of a member that is not on the own host finds no such member in the set or the list,
and a `Down` of a member on the own host finds none in the list that is not. -/
def Meets (host : String) (v : Mirror) (event : MemberEvent) : Prop :=
  match event.type with
  | .memberUp => isLocal host event.member = false →
      v.members.contains event.member.address = false
        ∧ ∀ c ∈ v.list, c.address ≠ event.member.address
  | .memberDown => isLocal host event.member = true →
      ∀ c ∈ v.list, c.isLocal host = false → c.address ≠ event.member.address
  | .actorSystemDown | .actorSystemUp => True

instance (host : String) (v : Mirror) : Decidable (v.Matches host) :=
  inferInstanceAs (Decidable (_ ∧ _))

instance (host : String) (v : Mirror) (event : MemberEvent) : Decidable (v.Meets host event) :=
  match h : event.type with
  | .memberUp => decidable_of_iff (isLocal host event.member = false →
      v.members.contains event.member.address = false
        ∧ ∀ c ∈ v.list, c.address ≠ event.member.address) (by rw [Meets, h])
  | .memberDown => decidable_of_iff (isLocal host event.member = true →
      ∀ c ∈ v.list, c.isLocal host = false → c.address ≠ event.member.address)
        (by rw [Meets, h])
  | .actorSystemDown | .actorSystemUp => isTrue (by rw [Meets, h]; trivial)

/-! ### One address at a time -/

/-- The set holds a member at the address that is not on the own host. -/
def HoldsAt (host : String) (v : Mirror) (a : Address) : Prop :=
  ∃ p, v.members.find? a = some p ∧ isLocal host p.1 = false

/-- What the list holds at the address. -/
def listAt (v : Mirror) (a : Address) : List Member := v.list.filter fun c => c.address = a

/-- `Matches`, of one address. -/
def MatchesAt (host : String) (v : Mirror) (a : Address) : Prop :=
  (v.HoldsAt host a → (v.listAt a).length = 1)
    ∧ ((∃ c ∈ v.listAt a, c.isLocal host = false) → v.HoldsAt host a)

lemma holdsAt_iff {host : String} {v : Mirror} {a : Address} :
    v.HoldsAt host a ↔ ∃ m ∈ v.members.keys, isLocal host m = false ∧ m.address = a := by
  constructor
  · rintro ⟨p, hp, hlocal⟩
    have hmem : p.1 ∈ v.members.keys := List.mem_map_of_mem (List.mem_of_find?_eq_some hp)
    exact ⟨p.1, hmem, hlocal, OrderedMap.key_of_find? hp⟩
  · rintro ⟨m, hm, hlocal, rfl⟩
    obtain ⟨p, hp, rfl⟩ := List.mem_map.mp hm
    exact ⟨p, OrderedMap.find?_of_mem_entries hp, hlocal⟩

lemma mem_listAt {v : Mirror} {a : Address} {c : Member} :
    c ∈ v.listAt a ↔ c ∈ v.list ∧ c.address = a := by
  simp [listAt]

/-- The set and the list match when they do at every address. -/
lemma matches_iff {host : String} {v : Mirror} :
    v.Matches host ↔ ∀ a, v.MatchesAt host a := by
  have hcount : ∀ a, v.list.countP (fun c => c.address = a) = (v.listAt a).length := fun a =>
    List.countP_eq_length_filter
  constructor
  · rintro ⟨honce, hnone⟩ a
    refine ⟨fun ha => ?_, ?_⟩
    · obtain ⟨m, hm, hlocal, rfl⟩ := holdsAt_iff.mp ha
      rw [← hcount, honce m hm hlocal]
    · rintro ⟨c, hc, hlocal⟩
      obtain ⟨hmem, rfl⟩ := mem_listAt.mp hc
      exact holdsAt_iff.mpr (hnone c hmem hlocal)
  · intro h
    refine ⟨fun m hm hlocal => ?_, fun c hc hlocal => ?_⟩
    · rw [hcount]
      exact (h m.address).1 (holdsAt_iff.mpr ⟨m, hm, hlocal, rfl⟩)
    · exact holdsAt_iff.mp ((h c.address).2 ⟨c, mem_listAt.mpr ⟨hc, rfl⟩, hlocal⟩)

/-- What `Fetch` makes of the reply of `GetMembers` matches the set. -/
lemma matches_fetched (host : String) (members : MemberSet) :
    (Mirror.mk members (fetched (getMembers members))).Matches host := by
  have hnodup : (members.keys.map Cdcf.Member.address).Nodup := by
    rw [OrderedMap.keys, List.map_map]
    exact List.pairwise_map.mpr (members.sorted.imp fun h => h.ne)
  constructor
  · intro m hm _
    have hcount := List.count_eq_one_of_mem hnodup (List.mem_map_of_mem hm)
    calc (fetched (getMembers members)).countP (fun c => c.address = m.address)
        = members.keys.countP (fun m' => m'.address = m.address) := by
          simp [fetched, getMembers, List.countP_map, Function.comp_def]
      _ = (members.keys.map Cdcf.Member.address).count m.address := by
          rw [List.count, List.countP_map]
          exact List.countP_congr fun m' _ => by simp
      _ = 1 := hcount
  · intro c hc hremote
    obtain ⟨detail, hdetail, rfl⟩ := List.mem_map.mp hc
    obtain ⟨m, hm, rfl⟩ := List.mem_map.mp hdetail
    exact ⟨m, hm, hremote, (address_toMember m .up).symm⟩

/-- What an event that is put into the channel does to the list, at one address. -/
lemma filter_update (members : List Member) (event : MemberEvent) (a : Address) :
    (update members (subscribeItem event)).filter (fun c => c.address = a)
      = if event.member.address = a then
          match event.type with
          | .memberUp =>
            members.filter (fun c => c.address = a) ++ [(updateMember event.member).toMember .up]
          | .memberDown => []
          | .actorSystemDown | .actorSystemUp => members.filter fun c => c.address = a
        else members.filter fun c => c.address = a := by
  obtain ⟨type, m⟩ := event
  cases type with
  | memberUp =>
      by_cases h : m.address = a
      · simp [update, subscribeItem, h]
      · simp [update, subscribeItem, h]
  | memberDown =>
      have heq : ∀ c : Member,
          c.eq ((updateMember m).toMember .down) = decide (c.address = m.address) := fun c => by
        rw [Bool.eq_iff_iff, Member.eq_iff, address_toMember, decide_eq_true_iff]
      by_cases h : m.address = a
      · simp [update, subscribeItem, h, heq, List.filter_filter]
      · simp only [update, subscribeItem, heq, List.filter_filter, if_neg h, if_true]
        refine List.filter_congr fun c _ => ?_
        by_cases hc : c.address = a
        · simp [hc, Ne.symm h]
        · simp [hc]
  | actorSystemDown => simp [update, subscribeItem]
  | actorSystemUp => simp [update, subscribeItem]

/-- What an event does to the set, at one address. -/
lemma find?_notifyOne (members : MemberSet) (event : MemberEvent) (a : Address) :
    (notifyOne members event).find? a
      = if event.member.address = a then
          match event.type with
          | .memberUp => put event.member () (members.find? a)
          | .memberDown => none
          | .actorSystemDown | .actorSystemUp => members.find? a
        else members.find? a := by
  obtain ⟨type, m⟩ := event
  cases type with
  | memberUp => exact OrderedMap.find?_assign members m () a
  | memberDown => exact OrderedMap.find?_erase members m.address a
  | actorSystemDown => exact (ite_self _).symm
  | actorSystemUp => exact (ite_self _).symm

/-- An event about a member on the own host does not reach the list. -/
lemma list_step_of_local {host : String} {event : MemberEvent}
    (h : isLocal host event.member = true) (v : Mirror) : (v.step host event).list = v.list := by
  simp [step, remote, updates, h]

lemma list_step_of_remote {host : String} {event : MemberEvent}
    (h : isLocal host event.member = false) (v : Mirror) :
    (v.step host event).list = update v.list (subscribeItem event) := by
  simp [step, remote, updates, h]

/-- An event changes nothing at the other addresses. -/
lemma matchesAt_step_of_ne {host : String} {v : Mirror} {event : MemberEvent} {a : Address}
    (h : event.member.address ≠ a) :
    (v.step host event).MatchesAt host a ↔ v.MatchesAt host a := by
  have hfind : (v.step host event).members.find? a = v.members.find? a := by
    rw [step, find?_notifyOne, if_neg h]
  have hlist : (v.step host event).listAt a = v.listAt a := by
    cases hlocal : isLocal host event.member with
    | true => rw [listAt, list_step_of_local hlocal, listAt]
    | false => rw [listAt, list_step_of_remote hlocal, filter_update, if_neg h, listAt]
  rw [MatchesAt, MatchesAt, HoldsAt, HoldsAt, hfind, hlist]

/-- A second announcement leaves the member that the set holds. -/
lemma holdsAt_step_up {host : String} {v : Mirror} {m : Cdcf.Member} {p : Cdcf.Member × Unit}
    (hm : v.members.find? m.address = some p) :
    (v.step host ⟨.memberUp, m⟩).HoldsAt host m.address ↔ v.HoldsAt host m.address := by
  have hfind : (v.step host ⟨.memberUp, m⟩).members.find? m.address = some p := by
    rw [step, find?_notifyOne, if_pos rfl, hm]
    exact put_some m p.1 () p.2
  rw [HoldsAt, HoldsAt, hfind, hm]

/-- An announcement of a member on the own host changes nothing that matters. -/
lemma matchesAt_up_of_local {host : String} {v : Mirror} {m : Cdcf.Member}
    (hlocal : isLocal host m = true) (hv : v.MatchesAt host m.address) :
    (v.step host ⟨.memberUp, m⟩).MatchesAt host m.address := by
  have hlist : (v.step host ⟨.memberUp, m⟩).listAt m.address = v.listAt m.address := by
    rw [listAt, list_step_of_local hlocal, listAt]
  have hholds : (v.step host ⟨.memberUp, m⟩).HoldsAt host m.address
      ↔ v.HoldsAt host m.address := by
    cases hm : v.members.find? m.address with
    | none => simp [HoldsAt, step, find?_notifyOne, hm, hlocal]
    | some p => exact holdsAt_step_up hm
  rw [MatchesAt, hlist, hholds]
  exact hv

/-- A `Down` takes the member out of the set. -/
lemma not_holdsAt_down (host : String) (v : Mirror) (m : Cdcf.Member) :
    ¬(v.step host ⟨.memberDown, m⟩).HoldsAt host m.address := by
  simp [HoldsAt, step, find?_notifyOne]

/-- A `Down` of a member on the own host keeps the match when the list has no other member
there. -/
lemma matchesAt_down_of_local {host : String} {v : Mirror} {m : Cdcf.Member}
    (hlocal : isLocal host m = true) :
    (v.step host ⟨.memberDown, m⟩).MatchesAt host m.address
      ↔ ∀ c ∈ v.list, c.isLocal host = false → c.address ≠ m.address := by
  have hlist : (v.step host ⟨.memberDown, m⟩).listAt m.address = v.listAt m.address := by
    rw [listAt, list_step_of_local hlocal, listAt]
  have hholds := not_holdsAt_down host v m
  rw [MatchesAt, hlist]
  constructor
  · rintro ⟨-, hnone⟩ c hc hremote haddress
    exact hholds (hnone ⟨c, mem_listAt.mpr ⟨hc, haddress⟩, hremote⟩)
  · intro h
    refine ⟨fun hh => absurd hh hholds, ?_⟩
    rintro ⟨c, hc, hremote⟩
    obtain ⟨hmem, haddress⟩ := mem_listAt.mp hc
    exact absurd haddress (h c hmem hremote)

/-- An announcement that reaches the list keeps the match when neither the set nor the list has the
address. -/
lemma matchesAt_up_of_remote {host : String} {v : Mirror} {m : Cdcf.Member}
    (hremote : isLocal host m = false) (hv : v.MatchesAt host m.address) :
    (v.step host ⟨.memberUp, m⟩).MatchesAt host m.address
      ↔ v.members.contains m.address = false ∧ ∀ c ∈ v.list, c.address ≠ m.address := by
  have hlist : (v.step host ⟨.memberUp, m⟩).listAt m.address
      = v.listAt m.address ++ [(updateMember m).toMember .up] := by
    rw [listAt, list_step_of_remote hremote, filter_update, if_pos rfl, listAt]
  have hnew : ∃ c ∈ (v.step host ⟨.memberUp, m⟩).listAt m.address, c.isLocal host = false := by
    refine ⟨(updateMember m).toMember .up, ?_, hremote⟩
    rw [hlist]
    exact List.mem_append_right _ List.mem_cons_self
  have hnil : (∀ c ∈ v.list, c.address ≠ m.address) ↔ v.listAt m.address = [] := by
    simp [listAt]
  rw [hnil, OrderedMap.contains_eq_false]
  cases hm : v.members.find? m.address with
  | none =>
      have hholds : (v.step host ⟨.memberUp, m⟩).HoldsAt host m.address :=
        ⟨(m, ()), by simp [step, find?_notifyOne, hm], hremote⟩
      simp [MatchesAt, hholds, hlist]
  | some p =>
      have hbad : ¬(v.step host ⟨.memberUp, m⟩).MatchesAt host m.address := by
        rintro ⟨honce, hnone⟩
        have hholds := hnone hnew
        have hbefore := hv.1 ((holdsAt_step_up hm).mp hholds)
        have hafter := honce hholds
        rw [hlist, List.length_append, List.length_singleton] at hafter
        omega
      exact iff_of_false hbad fun h => absurd h.1 (by simp)

/-- A `Down` that reaches the list takes the member out of both. -/
lemma matchesAt_down_of_remote {host : String} {m : Cdcf.Member}
    (hremote : isLocal host m = false) (v : Mirror) :
    (v.step host ⟨.memberDown, m⟩).MatchesAt host m.address := by
  have hlist : (v.step host ⟨.memberDown, m⟩).listAt m.address = [] := by
    rw [listAt, list_step_of_remote hremote, filter_update, if_pos rfl]
  rw [MatchesAt, hlist]
  exact ⟨fun hh => absurd hh (not_holdsAt_down host v m), by simp⟩

/-- An event about an actor system changes neither. -/
lemma step_of_actorSystem (host : String) (v : Mirror) (m : Cdcf.Member) :
    v.step host ⟨.actorSystemDown, m⟩ = v ∧ v.step host ⟨.actorSystemUp, m⟩ = v := by
  cases hlocal : isLocal host m with
  | true => simp [step, remote, updates, hlocal, notifyOne]
  | false => simp [step, remote, updates, hlocal, notifyOne, update, subscribeItem]

/-- An event keeps the match exactly when it keeps it at its own address. -/
lemma matches_step_iff_at {host : String} {v : Mirror} (hv : v.Matches host)
    (event : MemberEvent) :
    (v.step host event).Matches host
      ↔ (v.step host event).MatchesAt host event.member.address := by
  rw [matches_iff]
  refine ⟨fun h => h _, fun h a => ?_⟩
  by_cases ha : event.member.address = a
  · exact ha ▸ h
  · exact (matchesAt_step_of_ne ha).mpr (matches_iff.mp hv a)

/-- An event keeps the match exactly when it meets the condition. -/
lemma matches_step_iff {host : String} {v : Mirror} (hv : v.Matches host) (event : MemberEvent) :
    (v.step host event).Matches host ↔ v.Meets host event := by
  have hself := matches_iff.mp hv event.member.address
  obtain ⟨type, m⟩ := event
  cases type with
  | memberUp =>
      rw [matches_step_iff_at hv]
      cases hlocal : isLocal host m with
      | true => exact iff_of_true (matchesAt_up_of_local hlocal hself) (by simp [Meets, hlocal])
      | false => simpa [Meets, hlocal] using matchesAt_up_of_remote hlocal hself
  | memberDown =>
      rw [matches_step_iff_at hv]
      cases hlocal : isLocal host m with
      | true => simpa [Meets, hlocal] using matchesAt_down_of_local (v := v) hlocal
      | false => exact iff_of_true (matchesAt_down_of_remote hlocal v) (by simp [Meets, hlocal])
  | actorSystemDown =>
      rw [(step_of_actorSystem host v m).1]
      exact iff_of_true hv trivial
  | actorSystemUp =>
      rw [(step_of_actorSystem host v m).2]
      exact iff_of_true hv trivial

/-- The set and the list match throughout a list of events exactly when each event meets the
condition. -/
theorem matches_always_iff {host : String} {v : Mirror} (hv : v.Matches host)
    (events : List MemberEvent) :
    Run.Always (step host) (Matches host) v events ↔ Run.Each (step host) (Meets host) v events :=
  Run.always_iff_each_of_iff (P := Matches host) (fun _ event h => matches_step_iff h event) hv
    events

/-- After a list of events the set is that of `GRPCImpl::Notify`, and the list has carried out
what `Notify` puts into the channel. -/
lemma run_step (host : String) (v : Mirror) (events : List MemberEvent) :
    Run.run (step host) v events
      = ⟨notify v.members events, updates v.list (remote host events)⟩ := by
  induction events generalizing v with
  | nil => rfl
  | cons event events ih =>
      have hremote : remote host (event :: events) = remote host [event] ++ remote host events := by
        rw [remote, remote, remote, ← List.filter_append, List.singleton_append]
      calc Run.run (step host) v (event :: events)
          = Run.run (step host) (v.step host event) events := rfl
        _ = ⟨notify (v.step host event).members events,
              updates (v.step host event).list (remote host events)⟩ := ih _
        _ = ⟨notify v.members (event :: events),
              updates v.list (remote host (event :: events))⟩ := by
            rw [hremote, updates_append]
            rfl

end Mirror

end Cdcf.Cluster
