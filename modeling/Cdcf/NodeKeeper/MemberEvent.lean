import Cdcf.Library.SetDifference
import Cdcf.Membership.Handler

/-!
The events a node keeper derives from its membership (`event.h`), and the set of members that
its gRPC service keeps by them (`grpc.cc`).

`MemberEventGenerator::Update` compares the members with those of the last call by
`std::set_difference`, under a comparator that looks at the ip address only, while a member is
identified by ip address and port.  So members that share an ip address are paired off by their
place among them and not by their port: the set follows the snapshots exactly as long as, for
every ip address, the ports of one snapshot are the first ports of the other
(`shows_always_iff`).
-/

namespace Cdcf

open Sample

/-- `MemberEvent::Type`. -/
inductive MemberEventType where
  | memberDown
  | memberUp
  | actorSystemDown
  | actorSystemUp
  deriving DecidableEq, Repr

/-- `node_keeper::MemberEvent`. -/
structure MemberEvent where
  type : MemberEventType
  member : Member
  deriving DecidableEq, Repr

/-- `node_keeper::MemberEventGenerator`. -/
structure MemberEventGenerator where
  members : List Member := []
  memberActorSystems : MemberMap Bool := OrderedMap.empty

namespace MemberEventGenerator

/-- The comparator of `generateEventForMember`. -/
def comparator (lhs rhs : Member) : Bool := decide (lhs.ipAddress < rhs.ipAddress)

/-- `MemberEventGenerator::generateEventForMember`. -/
def generateEventForMember (g : MemberEventGenerator) (members : List Member) :
    List MemberEvent :=
  let up := setDifference comparator members g.members
  let down := setDifference comparator g.members members
  up.map (fun member => ⟨.memberUp, member⟩) ++ down.map fun member => ⟨.memberDown, member⟩

/-- `MemberEventGenerator::generateEventForActorSystem`; `operator[]` on a missing member gives
`false`. -/
def generateEventForActorSystem (g : MemberEventGenerator) (memberActorSystems : MemberMap Bool) :
    List MemberEvent :=
  memberActorSystems.entries.filterMap fun (member, up) =>
    if up != (g.memberActorSystems.get? member.address).getD false then
      some ⟨if up then .actorSystemUp else .actorSystemDown, member⟩
    else none

/-- `MemberEventGenerator::Update`: the events, and the generator afterwards. -/
def update (g : MemberEventGenerator) (members : List Member)
    (memberActorSystems : MemberMap Bool) : List MemberEvent × MemberEventGenerator :=
  (g.generateEventForMember members ++ g.generateEventForActorSystem memberActorSystems,
    ⟨members, memberActorSystems⟩)

end MemberEventGenerator

/-- `std::set<membership::Member>`. -/
abbrev MemberSet := MemberMap Unit

/-- What one event does to `members_` in `GRPCImpl::Notify`. -/
def notifyOne (members : MemberSet) (event : MemberEvent) : MemberSet :=
  match event.type with
  | .memberUp => members.assign event.member ()
  | .memberDown => members.erase event.member.address
  | .actorSystemDown | .actorSystemUp => members

/-- `GRPCImpl::Notify`, on `members_`. -/
def notify (members : MemberSet) (events : List MemberEvent) : MemberSet :=
  events.foldl notifyOne members

/-! ### Runs over snapshots -/

/-- What `GetMembers` and `GetActorSystems` return at one moment. -/
structure Snapshot where
  members : List Member
  sorted : members.Pairwise fun m m' => m.address < m'.address
  actorSystems : MemberMap Bool

/-- The snapshot of a node. -/
def Node.snapshot (s : Node) : Snapshot :=
  ⟨s.getMembers, List.pairwise_map.mpr s.members.sorted, s.getActorSystems⟩

/-- The generator and the members of the gRPC service. -/
structure View where
  generator : MemberEventGenerator := {}
  members : MemberSet := OrderedMap.empty

namespace View

/-- One round of the loop of `NodeKeeper::Run`. -/
def step (v : View) (snapshot : Snapshot) : View :=
  let (events, generator) := v.generator.update snapshot.members snapshot.actorSystems
  ⟨generator, notify v.members events⟩

/-- The members of the service are those of the last snapshot, by ip address and port. -/
def Shows (v : View) : Prop :=
  ∀ a, v.members.contains a = true ↔ a ∈ v.generator.members.map Member.address

/-- The addresses of a list of members that share an ip address, in their order. -/
def addressesAt (ip : String) (members : List Member) : List Address :=
  (members.filter fun m => m.ipAddress = ip).map Member.address

/-- For every ip address, the addresses of the last snapshot that share it are the first of those
of the new one, or the other way round. -/
def PairsOff (v : View) (snapshot : Snapshot) : Prop :=
  ∀ m ∈ v.generator.members ++ snapshot.members,
    addressesAt m.ipAddress v.generator.members <+: addressesAt m.ipAddress snapshot.members
      ∨ addressesAt m.ipAddress snapshot.members <+: addressesAt m.ipAddress v.generator.members

instance (v : View) (snapshot : Snapshot) : Decidable (v.PairsOff snapshot) :=
  inferInstanceAs (Decidable (∀ m ∈ v.generator.members ++ snapshot.members, _))

end View

/-! ### The set after a round -/

lemma contains_notify_up (l : List Member) (members : MemberSet) (a : Address) :
    (notify members (l.map fun member => ⟨.memberUp, member⟩)).contains a = true
      ↔ members.contains a = true ∨ a ∈ l.map Member.address := by
  rw [notify]
  induction l generalizing members with
  | nil => simp
  | cons m l ih =>
      rw [List.map_cons, List.foldl_cons, ih, notifyOne, OrderedMap.contains, OrderedMap.contains,
        OrderedMap.find?_assign, List.map_cons, List.mem_cons]
      by_cases h : m.address = a
      · simp [h]
      · simp [h, Ne.symm h]

lemma contains_notify_down (l : List Member) (members : MemberSet) (a : Address) :
    (notify members (l.map fun member => ⟨.memberDown, member⟩)).contains a = true
      ↔ members.contains a = true ∧ a ∉ l.map Member.address := by
  rw [notify]
  induction l generalizing members with
  | nil => simp
  | cons m l ih =>
      rw [List.map_cons, List.foldl_cons, ih, notifyOne, OrderedMap.contains, OrderedMap.contains,
        OrderedMap.find?_erase, List.map_cons, List.mem_cons]
      by_cases h : m.address = a
      · simp [h]
      · simp [h, Ne.symm h]

/-- The events about actor systems leave the set of members alone. -/
lemma notify_actorSystem (g : MemberEventGenerator) (flags : MemberMap Bool)
    (members : MemberSet) :
    notify members (g.generateEventForActorSystem flags) = members := by
  rw [notify, MemberEventGenerator.generateEventForActorSystem]
  induction flags.entries generalizing members with
  | nil => rfl
  | cons p l ih =>
      rw [List.filterMap_cons]
      split
      · exact ih members
      · next e he =>
          have hone : notifyOne members e = members := by
            dsimp only at he
            split at he
            · rw [← Option.some.inj he, notifyOne]
              cases p.2 <;> rfl
            · exact absurd he (by simp)
          rw [List.foldl_cons, hone, ih]

/-- After a round the set holds what it held and what is new, without what is gone, in the sense
of the two differences. -/
lemma contains_step (v : View) (snapshot : Snapshot) (a : Address) :
    (v.step snapshot).members.contains a = true
      ↔ (v.members.contains a = true
          ∨ a ∈ (setDifference MemberEventGenerator.comparator snapshot.members
            v.generator.members).map Member.address)
        ∧ a ∉ (setDifference MemberEventGenerator.comparator v.generator.members
          snapshot.members).map Member.address := by
  have hsplit : ∀ (members : MemberSet) (l l' : List MemberEvent),
      notify members (l ++ l') = notify (notify members l) l' := fun _ _ _ => List.foldl_append
  rw [View.step]
  dsimp only [MemberEventGenerator.update, MemberEventGenerator.generateEventForMember]
  rw [hsplit, hsplit, notify_actorSystem, contains_notify_down, contains_notify_up]

/-! ### One ip address at a time -/

namespace View

/-- The members of a list that share an ip address are all the list has at their addresses. -/
lemma mem_addressesAt {ip : String} {l : List Member} {a : Address} :
    a ∈ addressesAt ip l ↔ a.host = ip ∧ a ∈ l.map Member.address := by
  simp only [addressesAt, List.mem_map, List.mem_filter, decide_eq_true_eq]
  constructor
  · rintro ⟨m, ⟨hm, hip⟩, rfl⟩
    exact ⟨hip, m, hm, rfl⟩
  · rintro ⟨hip, m, hm, rfl⟩
    exact ⟨m, ⟨hm, hip⟩, rfl⟩

lemma pairwise_addressesAt {l : List Member}
    (hl : l.Pairwise fun m m' => m.address < m'.address) (ip : String) :
    (addressesAt ip l).Pairwise (· < ·) :=
  List.pairwise_map.mpr (hl.filter _)

lemma pairwise_ipAddress {l : List Member}
    (hl : l.Pairwise fun m m' => m.address < m'.address) :
    l.Pairwise fun m m' => m.ipAddress ≤ m'.ipAddress := by
  refine hl.imp fun {m m'} h => ?_
  rcases Address.lt_iff.mp h with hlt | ⟨heq, -⟩
  · exact hlt.le
  · exact heq.le

/-- Of the members that share an ip address, a difference leaves those past the number of the
others. -/
lemma addressesAt_setDifference {l l' : List Member}
    (hl : l.Pairwise fun m m' => m.address < m'.address)
    (hl' : l'.Pairwise fun m m' => m.address < m'.address) (ip : String) :
    addressesAt ip (setDifference MemberEventGenerator.comparator l l')
      = (addressesAt ip l).drop (addressesAt ip l').length := by
  have hdrop := filter_setDifference Member.ipAddress (pairwise_ipAddress hl)
    (pairwise_ipAddress hl') ip
  rw [addressesAt, addressesAt, addressesAt, List.length_map, ← List.map_drop, ← hdrop]
  rfl

/-! ### The set over a run -/

/-- The generator holds the members of a snapshot. -/
def Sorted (v : View) : Prop := v.generator.members.Pairwise fun m m' => m.address < m'.address

/-- The pairing off is decided by the ip addresses that occur. -/
lemma pairsOff_iff {v : View} {snapshot : Snapshot} :
    v.PairsOff snapshot ↔ ∀ ip,
      addressesAt ip v.generator.members <+: addressesAt ip snapshot.members
        ∨ addressesAt ip snapshot.members <+: addressesAt ip v.generator.members := by
  refine ⟨fun h ip => ?_, fun h m _ => h m.ipAddress⟩
  by_cases hex : ∃ m ∈ v.generator.members ++ snapshot.members, m.ipAddress = ip
  · obtain ⟨m, hm, rfl⟩ := hex
    exact h m hm
  · have hnil : addressesAt ip v.generator.members = [] := by
      refine List.eq_nil_iff_forall_not_mem.mpr fun a ha => ?_
      obtain ⟨hip, ha⟩ := mem_addressesAt.mp ha
      obtain ⟨m, hm, rfl⟩ := List.mem_map.mp ha
      exact hex ⟨m, List.mem_append_left _ hm, hip⟩
    rw [hnil]
    exact Or.inl List.nil_prefix

/-- One snapshot is followed exactly when it pairs off with the last. -/
lemma shows_step {v : View} (hv : v.Sorted) (h : v.Shows) (snapshot : Snapshot) :
    (v.step snapshot).Shows ↔ v.PairsOff snapshot := by
  have hlists : ∀ ip, (∀ a, (a ∈ addressesAt ip v.generator.members
        ∨ a ∈ (addressesAt ip snapshot.members).drop (addressesAt ip v.generator.members).length)
        ∧ a ∉ (addressesAt ip v.generator.members).drop (addressesAt ip snapshot.members).length
        ↔ a ∈ addressesAt ip snapshot.members)
      ↔ addressesAt ip v.generator.members <+: addressesAt ip snapshot.members
        ∨ addressesAt ip snapshot.members <+: addressesAt ip v.generator.members := fun ip =>
    prefix_or_prefix_iff (pairwise_addressesAt hv ip) (pairwise_addressesAt snapshot.sorted ip)
  have hshows : (v.step snapshot).Shows ↔ ∀ a,
      (v.step snapshot).members.contains a = true ↔ a ∈ snapshot.members.map Member.address :=
    Iff.rfl
  simp only [pairsOff_iff, ← hlists, ← addressesAt_setDifference hv snapshot.sorted,
    ← addressesAt_setDifference snapshot.sorted hv, mem_addressesAt, hshows, contains_step, h _]
  constructor
  · intro hall ip a
    by_cases hip : a.host = ip
    · simpa [hip] using hall a
    · simp [hip]
  · intro hall a
    simpa using hall a.host a

/-- The members of the gRPC service are those of the last snapshot throughout a run exactly when
each snapshot pairs off with the one before it. -/
theorem shows_always_iff (snapshots : List Snapshot) :
    Run.Always step Shows {} snapshots ↔ Run.Each step PairsOff {} snapshots := by
  have hsorted : Sorted {} := List.Pairwise.nil
  have hshows : Shows {} := fun a => by simp [OrderedMap.contains]
  exact Run.always_iff_each (I := Sorted) (fun _ snapshot hv h => shows_step hv h snapshot)
    (fun _ snapshot _ _ _ => snapshot.sorted) hsorted hshows snapshots

/-- A node hears of a second one with its own ip address and a lower port: the difference reports
the node itself as new, and the set never gets the second one. -/
theorem shows_lost :
    ¬Run.Always step Shows {}
      [(start nodeA).snapshot,
        ((start nodeA).step
          (.gossip (UpdateMessage.initAsUpMessage { nodeA with port := 4444 } 1))).snapshot] := by
  intro h
  have hnew := (h.last ⟨"10.0.0.1", 4444⟩).mpr (by decide)
  exact absurd hnew (by decide)

end View

end Cdcf
