import Mathlib.Data.List.Perm.Subperm
import Cdcf.Membership.Handler

/-!
The retries of a relayed ping (`Membership::RelayPing`).

A ping that has failed is relayed to another member, and to one more for every relay that fails.
The relays tried so far go from one callback to the next in the set of the excluded members.

* `relayChain`: the calls of `RelayPing` that follow a failed ping, with the node as each of them
  finds it; `relayPing_eq`, `didPull_relayPing`: it is what the node does.
* `relayChain_ended`: how a chain ends, from any set of excluded members.
* `relayChain_covers`: a chain that starts with the node and the target excluded asks every other
  member at most once, and suspects the target when all have failed.
-/

namespace Cdcf

/-- How far a chain of relayed pings has come. -/
inductive RelayChainEnd where
  /-- The last relay has not answered yet. -/
  | waiting
  /-- The last relay has been reached. -/
  | relayed
  /-- There is no relay left, and `Suspect` is called. -/
  | suspected
  deriving DecidableEq, Repr

namespace Node

/-- The calls of `RelayPing` from the one on the node `s` on: the relays they ask, and how the chain
ends.  `later` lists, for the requests in their order, the node when the callback runs and whether
the request has succeeded. -/
def relayChain : Node → MemberMap Unit → List (Node × Bool) → List Member × RelayChainEnd
  | s, excludeMembers, later =>
      match s.getRelayMember excludeMembers, later with
      | none, _ => ([], .suspected)
      | some relayTarget, [] => ([relayTarget], .waiting)
      | some relayTarget, (_, true) :: _ => ([relayTarget], .relayed)
      | some relayTarget, (s', false) :: later =>
          let (relays, ended) := relayChain s' (excludeMembers.assign relayTarget ()) later
          (relayTarget :: relays, ended)

/-- `RelayPing` asks the first relay of the chain, or suspects if the chain has none. -/
lemma relayPing_eq (s : Node) (pingTarget : Member) (excludeMembers : MemberMap Unit)
    (later : List (Node × Bool)) :
    s.relayPing pingTarget excludeMembers
      = match (s.relayChain excludeMembers later).1 with
        | relayTarget :: _ =>
            { s with pulls := s.pulls ++ [.relayPing pingTarget relayTarget excludeMembers] }
        | [] => s.suspect pingTarget (s.getMemberLocalIncarnation pingTarget) := by
  rw [relayPing]
  unfold relayChain
  cases s.getRelayMember excludeMembers with
  | none => rfl
  | some relayTarget =>
      rcases later with _ | ⟨⟨s', ok⟩, later⟩
      · rfl
      · cases ok <;> rfl

/-- The callback of a relay that has failed goes on with the relay excluded. -/
lemma didPull_relayPing {s : Node} {index : ℕ} {pingTarget relayTarget : Member}
    {excludeMembers : MemberMap Unit}
    (h : s.pulls[index]? = some (.relayPing pingTarget relayTarget excludeMembers)) (ok : Bool) :
    s.didPull index ok
      = if ok then { s with pulls := s.pulls.eraseIdx index }
        else relayPing { s with pulls := s.pulls.eraseIdx index } pingTarget
          (excludeMembers.assign relayTarget ()) := by
  rw [didPull, h]

/-! ### The relays that are left -/

variable {s : Node} {excludeMembers : MemberMap Unit}

/-- The addresses of the members. -/
def addresses (members : MemberMap Int32) : List Address := members.keys.map Member.address

lemma mem_addresses {members : MemberMap Int32} {a : Address} :
    a ∈ addresses members ↔ members.contains a = true := by
  rw [OrderedMap.contains, OrderedMap.find?_isSome_iff, addresses, List.mem_map]

lemma length_addresses (members : MemberMap Int32) :
    (addresses members).length = members.size := by
  rw [addresses, OrderedMap.keys, List.length_map, List.length_map, OrderedMap.size]

/-- Addresses of members, without repetition, are not more than the members. -/
lemma length_le_size {members : MemberMap Int32} {l : List Address} (hl : l.Nodup)
    (hmem : ∀ a ∈ l, members.contains a = true) : l.length ≤ members.size := by
  rw [← length_addresses]
  exact (List.subperm_of_subset hl fun a ha => mem_addresses.mpr (hmem a ha)).length_le

/-- A relay is a member, and not excluded. -/
lemma of_getRelayMember {relayTarget : Member}
    (h : s.getRelayMember excludeMembers = some relayTarget) :
    s.members.contains relayTarget.address = true
      ∧ excludeMembers.contains relayTarget.address = false := by
  rw [getRelayMember] at h
  split at h
  · simp at h
  · obtain ⟨hmem, hexclude⟩ := List.mem_filter.mp (List.mem_of_getLast? h)
    exact ⟨mem_addresses.mp (List.mem_map_of_mem hmem), by simpa using hexclude⟩

/-- Where the node and the target are excluded, there is no relay exactly when all members are. -/
lemma getRelayMember_eq_none_iff {self target : Address} (hne : self ≠ target)
    (hself : s.members.contains self = true) (htarget : s.members.contains target = true)
    (hself' : excludeMembers.contains self = true)
    (htarget' : excludeMembers.contains target = true) :
    s.getRelayMember excludeMembers = none
      ↔ ∀ a, s.members.contains a = true → excludeMembers.contains a = true := by
  rw [getRelayMember]
  split
  · next hsize =>
      refine iff_of_true rfl fun a ha => ?_
      by_contra hout
      have hthree : [self, target, a].Nodup := by
        have h1 : self ≠ a := fun h => hout (h ▸ hself')
        have h2 : target ≠ a := fun h => hout (h ▸ htarget')
        simp [hne, h1, h2]
      have hle : [self, target, a].length ≤ s.members.size :=
        length_le_size hthree (by simp [hself, htarget, ha])
      simp only [List.length_cons, List.length_nil] at hle
      omega
  · rw [List.getLast?_eq_none_iff, List.filter_eq_nil_iff]
    constructor
    · intro hall a ha
      obtain ⟨m, hm, rfl⟩ := List.mem_map.mp (mem_addresses.mpr ha)
      simpa using hall m hm
    · intro hall m hm
      simpa using hall m.address (mem_addresses.mp (List.mem_map_of_mem hm))

/-! ### A chain -/

/-- What a chain has done: it has asked `relays`, of which all but the last have failed, as the
results of the requests have it, and the last one as the end says. -/
def Ended (members : MemberMap Int32) (excludeMembers : MemberMap Unit) (results : List Bool)
    (relays : List Member) : RelayChainEnd → Prop
  | .waiting => ∃ n, relays.length = n + 1 ∧ results = List.replicate n false
  | .relayed => ∃ n rest, relays.length = n + 1
      ∧ results = List.replicate n false ++ true :: rest
  | .suspected => (∃ rest, results = List.replicate relays.length false ++ rest)
      ∧ ∀ a, members.contains a = true →
        excludeMembers.contains a = true ∨ a ∈ relays.map Member.address

lemma contains_assign (excludeMembers : MemberMap Unit) (m : Member) (a : Address) :
    (excludeMembers.assign m ()).contains a = true
      ↔ excludeMembers.contains a = true ∨ m.address = a := by
  rw [OrderedMap.contains, OrderedMap.contains, OrderedMap.find?_assign]
  split
  · next h => simp [h]
  · next h => simp [h]

/-- One more relay that has failed. -/
lemma Ended.cons {members : MemberMap Int32} {relayTarget : Member} {results : List Bool}
    {relays : List Member} {ended : RelayChainEnd}
    (h : Ended members (excludeMembers.assign relayTarget ()) results relays ended) :
    Ended members excludeMembers (false :: results) (relayTarget :: relays) ended := by
  cases ended with
  | waiting =>
      obtain ⟨n, hlen, rfl⟩ := h
      exact ⟨n + 1, by rw [List.length_cons, hlen], rfl⟩
  | relayed =>
      obtain ⟨n, rest, hlen, rfl⟩ := h
      exact ⟨n + 1, rest, by rw [List.length_cons, hlen], rfl⟩
  | suspected =>
      obtain ⟨⟨rest, rfl⟩, hall⟩ := h
      refine ⟨⟨rest, rfl⟩, fun a ha => ?_⟩
      rcases hall a ha with hexcluded | hmem
      · rcases (contains_assign _ _ _).mp hexcluded with hexcluded | rfl
        · exact Or.inl hexcluded
        · exact Or.inr List.mem_cons_self
      · exact Or.inr (List.mem_cons_of_mem _ hmem)

/-- A call that finds no relay is the last. -/
lemma relayChain_of_none (h : s.getRelayMember excludeMembers = none) (later : List (Node × Bool)) :
    s.relayChain excludeMembers later = ([], .suspected) := by
  unfold relayChain
  rw [h]

/-- Where all members are excluded, no relay is asked. -/
lemma ended_of_excluded {members : MemberMap Int32}
    (hall : ∀ a, members.contains a = true → excludeMembers.contains a = true)
    (results : List Bool) : Ended members excludeMembers results [] .suspected :=
  ⟨⟨results, rfl⟩, fun a ha => Or.inl (hall a ha)⟩

/-- A chain asks members that are not excluded, each once, and ends as `Ended` says. -/
lemma relayChain_ended {members : MemberMap Int32} {self target : Address} (hne : self ≠ target)
    (hself : members.contains self = true) (htarget : members.contains target = true)
    (hself' : excludeMembers.contains self = true)
    (htarget' : excludeMembers.contains target = true) (hs : s.members = members)
    {later : List (Node × Bool)} (hlater : ∀ p ∈ later, p.1.members = members)
    {relays : List Member} {ended : RelayChainEnd}
    (h : s.relayChain excludeMembers later = (relays, ended)) :
    (relays.map Member.address).Nodup
      ∧ (∀ m ∈ relays, members.contains m.address = true
        ∧ excludeMembers.contains m.address = false)
      ∧ Ended members excludeMembers (later.map Prod.snd) relays ended := by
  induction later generalizing s excludeMembers relays with
  | nil =>
      cases hrelay : s.getRelayMember excludeMembers with
      | none =>
          rw [relayChain_of_none hrelay] at h
          obtain ⟨rfl, rfl⟩ := Prod.mk.inj h
          subst hs
          have hall := (getRelayMember_eq_none_iff hne hself htarget hself' htarget').mp hrelay
          exact ⟨List.nodup_nil, by simp, ended_of_excluded hall _⟩
      | some relayTarget =>
          unfold relayChain at h
          rw [hrelay] at h
          obtain ⟨rfl, rfl⟩ := Prod.mk.inj h
          have hmem := of_getRelayMember hrelay
          rw [hs] at hmem
          exact ⟨by simp, by simpa using hmem, 0, rfl, rfl⟩
  | cons first later ih =>
      obtain ⟨s', ok⟩ := first
      cases hrelay : s.getRelayMember excludeMembers with
      | none =>
          rw [relayChain_of_none hrelay] at h
          obtain ⟨rfl, rfl⟩ := Prod.mk.inj h
          subst hs
          have hall := (getRelayMember_eq_none_iff hne hself htarget hself' htarget').mp hrelay
          exact ⟨List.nodup_nil, by simp, ended_of_excluded hall _⟩
      | some relayTarget =>
          unfold relayChain at h
          have hmem := of_getRelayMember hrelay
          rw [hs] at hmem
          rw [hrelay] at h
          cases ok with
          | true =>
              obtain ⟨rfl, rfl⟩ := Prod.mk.inj h
              exact ⟨by simp, by simpa using hmem, 0, later.map Prod.snd, rfl, rfl⟩
          | false =>
              cases hrest : relayChain s' (excludeMembers.assign relayTarget ()) later with
              | mk relays' ended' =>
                  simp only [hrest] at h
                  obtain ⟨rfl, rfl⟩ := Prod.mk.inj h
                  obtain ⟨hnodup, hmems, hended⟩ := ih
                    ((contains_assign _ _ _).mpr (Or.inl hself'))
                    ((contains_assign _ _ _).mpr (Or.inl htarget'))
                    (hlater _ List.mem_cons_self)
                    (fun p hp => hlater p (List.mem_cons_of_mem _ hp)) hrest
                  have hnew : ∀ m ∈ relays', excludeMembers.contains m.address = false
                      ∧ relayTarget.address ≠ m.address := by
                    intro m hm
                    have hout := (hmems m hm).2
                    rw [← Bool.not_eq_true, contains_assign, not_or, Bool.not_eq_true] at hout
                    exact hout
                  refine ⟨List.nodup_cons.mpr ⟨?_, hnodup⟩, ?_, hended.cons⟩
                  · intro hin
                    obtain ⟨m, hm, heq⟩ := List.mem_map.mp hin
                    exact (hnew m hm).2 heq.symm
                  · intro m hm
                    rcases List.mem_cons.mp hm with rfl | hm
                    · exact hmem
                    · exact ⟨(hmems m hm).1, (hnew m hm).1⟩

/-! ### The chain after a failed ping -/

/-- What is asked of a chain with these results that has asked `relays`: it asks members other than
the node and the target, each once, so that it ends after as many as there are; it stops at the
first that is reached; and it suspects the target exactly when all of them have failed. -/
structure Covers (members : MemberMap Int32) (self target : Address) (results : List Bool)
    (relays : List Member) (ended : RelayChainEnd) : Prop where
  length_le : relays.length ≤ members.size - 2
  ends : ended = .waiting → results.length < members.size - 2
  nodup : (relays.map Member.address).Nodup
  mem : ∀ m ∈ relays, members.contains m.address = true ∧ m.address ≠ self ∧ m.address ≠ target
  stops : ∀ i < relays.length, results[i]? = some true →
    i + 1 = relays.length ∧ ended = .relayed
  suspected_iff : ended = .suspected ↔
    (∀ a, members.contains a = true → a ≠ self → a ≠ target → a ∈ relays.map Member.address)
      ∧ ∀ i < relays.length, results[i]? = some false

lemma getElem?_replicate_append {n i : ℕ} (hi : i < n) (rest : List Bool) :
    (List.replicate n false ++ rest)[i]? = some false := by
  rw [List.getElem?_append_left (by simpa using hi), List.getElem?_replicate, if_pos hi]

/-- Where a chain ends is read off from the results of the requests. -/
lemma Ended.stops {members : MemberMap Int32} {results : List Bool} {relays : List Member}
    {ended : RelayChainEnd} (h : Ended members excludeMembers results relays ended) {i : ℕ}
    (hi : i < relays.length) :
    results[i]? = some false
      ∨ i + 1 = relays.length ∧ (ended = .waiting ∧ results[i]? = none
        ∨ ended = .relayed ∧ results[i]? = some true) := by
  cases ended with
  | waiting =>
      obtain ⟨n, hlen, rfl⟩ := h
      by_cases hin : i < n
      · exact Or.inl (by simp [hin])
      · exact Or.inr ⟨by omega, Or.inl ⟨rfl, by simp; omega⟩⟩
  | relayed =>
      obtain ⟨n, rest, hlen, rfl⟩ := h
      by_cases hin : i < n
      · exact Or.inl (getElem?_replicate_append hin _)
      · obtain rfl : i = n := by omega
        exact Or.inr ⟨by omega, Or.inr ⟨rfl, by simp⟩⟩
  | suspected =>
      obtain ⟨⟨rest, rfl⟩, -⟩ := h
      exact Or.inl (getElem?_replicate_append hi rest)

/-- A relay that is reached is the last. -/
lemma Ended.of_reached {members : MemberMap Int32} {results : List Bool} {relays : List Member}
    {ended : RelayChainEnd} (h : Ended members excludeMembers results relays ended) {i : ℕ}
    (hi : i < relays.length) (hreached : results[i]? = some true) :
    i + 1 = relays.length ∧ ended = .relayed := by
  rcases h.stops hi with hfalse | ⟨hlast, ⟨-, hnone⟩ | ⟨hrelayed, -⟩⟩
  · rw [hreached] at hfalse
    simp at hfalse
  · rw [hreached] at hnone
    simp at hnone
  · exact ⟨hlast, hrelayed⟩

/-- A chain whose relays have all failed has none left. -/
lemma Ended.of_failed {members : MemberMap Int32} {results : List Bool} {relays : List Member}
    {ended : RelayChainEnd} (h : Ended members excludeMembers results relays ended)
    (hfailed : ∀ i < relays.length, results[i]? = some false) : ended = .suspected := by
  cases ended with
  | suspected => rfl
  | waiting =>
      obtain ⟨n, hlen, rfl⟩ := h
      have hlast := hfailed n (by omega)
      simp at hlast
  | relayed =>
      obtain ⟨n, rest, hlen, rfl⟩ := h
      have hlast := hfailed n (by omega)
      simp at hlast

/-- Of the members there are two less that are neither the node nor the target. -/
lemma length_le_size_sub_two {members : MemberMap Int32} {self target : Address}
    (hne : self ≠ target) (hself : members.contains self = true)
    (htarget : members.contains target = true) {l : List Address} (hl : l.Nodup)
    (hmem : ∀ a ∈ l, members.contains a = true ∧ a ≠ self ∧ a ≠ target) :
    l.length ≤ members.size - 2 := by
  have hnodup : (self :: target :: l).Nodup := by
    refine List.nodup_cons.mpr ⟨?_, List.nodup_cons.mpr ⟨fun hin => (hmem _ hin).2.2 rfl, hl⟩⟩
    intro hin
    rcases List.mem_cons.mp hin with heq | hin
    · exact hne heq
    · exact (hmem _ hin).2.1 rfl
  have hle : (self :: target :: l).length ≤ members.size := length_le_size hnodup fun a ha => by
    rcases List.mem_cons.mp ha with rfl | ha
    · exact hself
    · rcases List.mem_cons.mp ha with rfl | ha
      · exact htarget
      · exact (hmem a ha).1
  simp only [List.length_cons] at hle
  omega

/-- The members excluded at the start. -/
lemma contains_start {self target : Member} {a : Address} :
    (OrderedMap.ofList [(self, ()), (target, ())] : MemberMap Unit).contains a = true
      ↔ a = self.address ∨ a = target.address := by
  have hstart : (OrderedMap.ofList [(self, ()), (target, ())] : MemberMap Unit)
      = (OrderedMap.empty.assign self ()).assign target () := rfl
  rw [hstart, contains_assign, contains_assign, OrderedMap.contains, OrderedMap.find?_empty]
  simp [eq_comm]

/-- The relays of a failed ping: with the members unchanged meanwhile, and whatever requests
succeed, the chain of retries covers the other members. -/
theorem relayChain_covers {s : Node} {pingTarget : Member}
    (hself : s.members.contains s.self.address = true)
    (htarget : s.members.contains pingTarget.address = true)
    (hne : s.self.address ≠ pingTarget.address) {later : List (Node × Bool)}
    (hlater : ∀ p ∈ later, p.1.members = s.members) {relays : List Member}
    {ended : RelayChainEnd}
    (h : s.relayChain (OrderedMap.ofList [(s.self, ()), (pingTarget, ())]) later
      = (relays, ended)) :
    Covers s.members s.self.address pingTarget.address (later.map Prod.snd) relays ended := by
  obtain ⟨hnodup, hmem, hended⟩ := relayChain_ended hne hself htarget
    (contains_start.mpr (Or.inl rfl)) (contains_start.mpr (Or.inr rfl)) rfl hlater h
  have hmem' : ∀ m ∈ relays, s.members.contains m.address = true
      ∧ m.address ≠ s.self.address ∧ m.address ≠ pingTarget.address := by
    intro m hm
    obtain ⟨hin, hout⟩ := hmem m hm
    rw [← Bool.not_eq_true, contains_start, not_or] at hout
    exact ⟨hin, hout⟩
  have hlen : relays.length ≤ s.members.size - 2 := by
    rw [← List.length_map (f := Member.address)]
    refine length_le_size_sub_two hne hself htarget hnodup fun a ha => ?_
    obtain ⟨m, hm, rfl⟩ := List.mem_map.mp ha
    exact hmem' m hm
  refine ⟨hlen, ?_, hnodup, hmem', fun i hi => hended.of_reached hi, ?_,
    fun hall => hended.of_failed hall.2⟩
  · rintro rfl
    obtain ⟨n, hn, hresults⟩ := hended
    rw [hresults, List.length_replicate]
    omega
  · rintro rfl
    obtain ⟨⟨rest, hresults⟩, hall⟩ := hended
    refine ⟨fun a ha hnself hntarget => ?_, fun i hi => ?_⟩
    · rcases hall a ha with hexcluded | hin
      · rcases contains_start.mp hexcluded with rfl | rfl
        · exact absurd rfl hnself
        · exact absurd rfl hntarget
      · exact hin
    · rw [hresults]
      exact getElem?_replicate_append hi rest

end Node

/-! ### A chain of one relay -/

namespace Sample

/-- A node that knows two others. -/
def ofThree : Node :=
  { (start nodeA) with members := OrderedMap.ofList [(nodeA, 0), (nodeB, 0), (nodeC, 0)] }

/-- The only other member fails, and the target is suspected. -/
theorem relayChain_ofThree :
    ofThree.relayChain (OrderedMap.ofList [(ofThree.self, ()), (nodeB, ())]) [(ofThree, false)]
        = ([nodeC], .suspected)
      ∧ Node.Covers ofThree.members nodeA.address nodeB.address [false] [nodeC] .suspected :=
  have hchain : ofThree.relayChain (OrderedMap.ofList [(ofThree.self, ()), (nodeB, ())])
      [(ofThree, false)] = ([nodeC], .suspected) := by decide
  ⟨hchain, Node.relayChain_covers (by decide) (by decide) (by decide) (by simp) hchain⟩

end Sample

end Cdcf
