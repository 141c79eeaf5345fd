import Cdcf.NodeKeeper.WakeUp

/-!
What the loop of `NodeKeeper::Run` publishes, one event at a time, while the membership goes on
changing.

* `announces_update`: the Ups of one `MemberEventGenerator::Update` are all about members that the
  set does not hold when they get there, if the members pair off.
* `Keeper.Orderly`: the events that are left to publish announce nobody the set holds, and bring the
  set to the members the generator has seen.  It is kept by every turn out of a state in which the
  members that have been read pair off.
-/

namespace Cdcf

open Sample

/-! ### The events of one update -/

/-- An Up is about a member that the set does not hold. -/
def Announces (members : MemberSet) (event : MemberEvent) : Prop :=
  event.type = .memberUp → members.contains event.member.address = false

lemma each_announces_up {l : List Member} {members : MemberSet}
    (hnew : ∀ m ∈ l, members.contains m.address = false)
    (hdistinct : l.Pairwise fun m m' => m.address ≠ m'.address) :
    Run.Each notifyOne Announces members (l.map fun member => ⟨.memberUp, member⟩) := by
  induction l generalizing members with
  | nil => trivial
  | cons m l ih =>
      obtain ⟨hm, hl⟩ := List.pairwise_cons.mp hdistinct
      refine ⟨fun _ => hnew m List.mem_cons_self, ih (fun m' hm' => ?_) hl⟩
      have hne := hm m' hm'
      have hbefore := hnew m' (List.mem_cons_of_mem m hm')
      rw [OrderedMap.contains] at hbefore ⊢
      rw [notifyOne, OrderedMap.find?_assign, if_neg hne]
      exact hbefore

lemma each_announces_of_ne {l : List MemberEvent} (h : ∀ e ∈ l, e.type ≠ .memberUp)
    (members : MemberSet) : Run.Each notifyOne Announces members l :=
  Run.each_iff.mpr fun es₁ e _ heq htype =>
    absurd htype (h e (heq ▸ List.mem_append_right es₁ List.mem_cons_self))

namespace View

/-- A member that a difference reports as new is none of the old ones. -/
lemma address_notMem_of_mem_setDifference {l l' : List Member}
    (hl : l.Pairwise fun m m' => m.address < m'.address)
    (hl' : l'.Pairwise fun m m' => m.address < m'.address)
    (hpairs : ∀ ip, addressesAt ip l' <+: addressesAt ip l ∨ addressesAt ip l <+: addressesAt ip l')
    {m : Member} (hm : m ∈ setDifference MemberEventGenerator.comparator l l') :
    m.address ∉ l'.map Member.address := by
  intro hold
  have hnew : m.address ∈ addressesAt m.ipAddress
      (setDifference MemberEventGenerator.comparator l l') :=
    mem_addressesAt.mpr ⟨rfl, List.mem_map_of_mem hm⟩
  have hold' : m.address ∈ addressesAt m.ipAddress l' := mem_addressesAt.mpr ⟨rfl, hold⟩
  rw [addressesAt_setDifference hl hl'] at hnew
  rcases hpairs m.ipAddress with ⟨t, ht⟩ | ⟨t, ht⟩
  · -- what is left over comes after all old members of the ip address
    have hsorted := pairwise_addressesAt hl m.ipAddress
    rw [← ht] at hsorted hnew
    rw [List.drop_left] at hnew
    exact lt_irrefl _ ((List.pairwise_append.mp hsorted).2.2 _ hold' _ hnew)
  · rw [← ht, List.drop_of_length_le (by simp)] at hnew
    exact absurd hnew List.not_mem_nil

end View

/-- What one `MemberEventGenerator::Update` announces is not there yet when its turn comes. -/
theorem announces_update {v : View} (hv : v.Sorted) (h : v.Shows) {snapshot : Snapshot}
    (hpairs : v.PairsOff snapshot) :
    Run.Each notifyOne Announces v.members
      (v.generator.update snapshot.members snapshot.actorSystems).1 := by
  have hnew : ∀ m ∈ setDifference MemberEventGenerator.comparator snapshot.members
      v.generator.members, v.members.contains m.address = false := by
    intro m hm
    have hnot := View.address_notMem_of_mem_setDifference snapshot.sorted hv
      (View.pairsOff_iff.mp hpairs) hm
    rw [← h] at hnot
    simpa using hnot
  have hdistinct := (snapshot.sorted.sublist (setDifference_sublist
    MemberEventGenerator.comparator snapshot.members v.generator.members)).imp fun hlt => hlt.ne
  rw [MemberEventGenerator.update, MemberEventGenerator.generateEventForMember, List.append_assoc]
  refine Run.each_append.mpr ⟨each_announces_up hnew hdistinct, each_announces_of_ne ?_ _⟩
  intro e he
  rcases List.mem_append.mp he with he | he
  · obtain ⟨m, -, rfl⟩ := List.mem_map.mp he
    simp
  · obtain ⟨⟨m, up⟩, -, hp⟩ := List.mem_filterMap.mp he
    dsimp only at hp
    split at hp
    · rw [← Option.some.inj hp]
      cases up <;> simp
    · exact absurd hp (by simp)

/-! ### The loop -/

/-- The member that comes up or goes down has the property. -/
def MemberEvent.IsAbout (P : Member → Prop) (event : MemberEvent) : Prop :=
  match event.type with
  | .memberUp | .memberDown => P event.member
  | .actorSystemDown | .actorSystemUp => True

/-- The events that the loop has still to publish. -/
def LoopPc.pending : LoopPc → List MemberEvent
  | .publishing events => events
  | .reading _ _ | .locking | .holding | .blocked | .woken | .leaving => []

namespace Keeper

/-- When the generator gets the members that have been read, they pair off with those it has. -/
def PairsOff (s : Keeper) : KeeperTurn → Prop
  | .run =>
    match s.pc with
    | .reading (some members) (some _) =>
      ∀ m ∈ s.generator.members ++ members,
        View.addressesAt m.ipAddress s.generator.members <+: View.addressesAt m.ipAddress members
          ∨ View.addressesAt m.ipAddress members
            <+: View.addressesAt m.ipAddress s.generator.members
    | _ => True
  | .change _ | .update _ | .getMembers | .getActorSystems | .wakeUp => True

/-- All members of a changed membership have the property. -/
def Admits (P : Member → Prop) : KeeperTurn → Prop
  | .change snapshot => ∀ m ∈ snapshot.members, P m
  | .update _ | .getMembers | .getActorSystems | .run | .wakeUp => True

/-- The events that are left to publish announce nobody the set holds, and bring it to the members
the generator has seen; and all members about have the property. -/
structure Orderly (P : Member → Prop) (s : Keeper) : Prop where
  announces : Run.Each notifyOne Announces s.service s.pc.pending
  shows : View.Shows ⟨s.generator, notify s.service s.pc.pending⟩
  sorted : s.generator.members.Pairwise fun m m' => m.address < m'.address
  read : ∀ members flags, s.pc = .reading (some members) flags →
    (members.Pairwise fun m m' => m.address < m'.address) ∧ ∀ m ∈ members, P m
  membership : ∀ m ∈ s.membership.members, P m
  generator : ∀ m ∈ s.generator.members, P m
  pending : ∀ e ∈ s.pc.pending, e.IsAbout P

variable {P : Member → Prop}

lemma orderly_start {membership : Snapshot} (h : ∀ m ∈ membership.members, P m) :
    (start membership).Orderly P where
  announces := trivial
  shows := fun a => by simp [start, LoopPc.pending, notify, OrderedMap.contains]
  sorted := List.Pairwise.nil
  read := by simp [start]
  membership := h
  generator := by simp [start]
  pending := by simp [start, LoopPc.pending]

/-- An update or a change of place in the loop without events. -/
lemma Orderly.move {s t : Keeper} (h : s.Orderly P) (hgenerator : t.generator = s.generator)
    (hservice : t.service = s.service) (hpending : t.pc.pending = s.pc.pending)
    (hmembership : ∀ m ∈ t.membership.members, P m)
    (hread : ∀ members flags, t.pc = .reading (some members) flags →
      (members.Pairwise fun m m' => m.address < m'.address) ∧ ∀ m ∈ members, P m) :
    t.Orderly P where
  announces := by
    rw [hservice, hpending]
    exact h.announces
  shows := by
    rw [hgenerator, hservice, hpending]
    exact h.shows
  sorted := hgenerator ▸ h.sorted
  read := hread
  membership := hmembership
  generator := hgenerator ▸ h.generator
  pending := hpending ▸ h.pending

lemma pending_wake (pc : LoopPc) : pc.wake.pending = pc.pending := by
  cases pc <;> rfl

/-- The loop publishes the next event. -/
lemma Orderly.publish {s : Keeper} (h : s.Orderly P) {event : MemberEvent}
    {events : List MemberEvent} (hpc : s.pc = .publishing (event :: events)) :
    ({ s with service := notify s.service [event], pc := .publishing events } : Keeper).Orderly P
      where
  announces := by
    have hall := h.announces
    rw [hpc] at hall
    exact hall.2
  shows := by
    have hshows := h.shows
    rw [hpc] at hshows
    exact hshows
  sorted := h.sorted
  read := fun _ _ hread => absurd hread (by simp)
  membership := h.membership
  generator := h.generator
  pending := by
    intro e he
    refine h.pending e ?_
    rw [hpc]
    exact List.mem_cons_of_mem event he

/-- Members that come up or go down are members that have been read. -/
lemma isAbout_update {g : MemberEventGenerator} {members : List Member} {flags : MemberMap Bool}
    (hg : ∀ m ∈ g.members, P m) (hmembers : ∀ m ∈ members, P m) :
    ∀ e ∈ (g.update members flags).1, e.IsAbout P := by
  intro e he
  rw [MemberEventGenerator.update, MemberEventGenerator.generateEventForMember] at he
  rcases List.mem_append.mp he with he | he
  · rcases List.mem_append.mp he with he | he
    · obtain ⟨m, hm, rfl⟩ := List.mem_map.mp he
      exact hmembers m ((setDifference_sublist _ members g.members).subset hm)
    · obtain ⟨m, hm, rfl⟩ := List.mem_map.mp he
      exact hg m ((setDifference_sublist _ g.members members).subset hm)
  · obtain ⟨⟨m, up⟩, -, hp⟩ := List.mem_filterMap.mp he
    dsimp only at hp
    split at hp
    · rw [← Option.some.inj hp, MemberEvent.IsAbout]
      cases up <;> trivial
    · exact absurd hp (by simp)

/-- The generator takes what has been read. -/
lemma Orderly.update {s : Keeper} (h : s.Orderly P) {members : List Member} {flags : MemberMap Bool}
    (hpc : s.pc = .reading (some members) (some flags)) (hpairs : s.PairsOff .run) :
    ({ s with
      generator := (s.generator.update members flags).2
      pc := .publishing (s.generator.update members flags).1 } : Keeper).Orderly P := by
  obtain ⟨hsorted, hmembers⟩ := h.read members _ hpc
  have hshows := h.shows
  rw [hpc] at hshows
  have hview : View.PairsOff ⟨s.generator, s.service⟩ ⟨members, hsorted, flags⟩ := by
    rw [PairsOff, hpc] at hpairs
    exact hpairs
  exact {
    announces := announces_update (v := ⟨s.generator, s.service⟩) h.sorted hshows hview
    shows := (View.shows_step (v := ⟨s.generator, s.service⟩) h.sorted hshows _).mpr hview
    sorted := hsorted
    read := fun _ _ hread => absurd hread (by simp)
    membership := h.membership
    generator := hmembers
    pending := isAbout_update h.generator hmembers }

/-- The loop goes on to a place where nothing is published or has been read. -/
lemma Orderly.goto {s : Keeper} (h : s.Orderly P) (hbefore : s.pc.pending = []) {pc : LoopPc}
    (hpending : pc.pending = []) (hread : ∀ members flags, pc ≠ .reading (some members) flags) :
    ({ s with pc := pc } : Keeper).Orderly P :=
  h.move rfl rfl (hpending.trans hbefore.symm) h.membership
    fun members flags heq => absurd heq (hread members flags)

/-- A step of the loop. -/
lemma Orderly.run {s : Keeper} (h : s.Orderly P) (hpairs : s.PairsOff .run) :
    s.run.Orderly P := by
  have hnone : ∀ {pc : LoopPc}, s.pc = pc → pc.pending = [] → s.pc.pending = [] :=
    fun hpc hpending => hpc ▸ hpending
  rw [Keeper.run]
  split
  · next members flags hpc => exact h.update hpc hpairs
  · exact h
  · next event events hpc => exact h.publish hpc
  · next hpc => exact h.goto (hnone hpc rfl) rfl (by simp)
  · next hpc =>
      split
      · exact h
      · exact h.goto (hnone hpc rfl) rfl (by simp)
  · next hpc => exact h.goto (hnone hpc rfl) rfl (by simp)
  · exact h
  · next hpc =>
      split
      · exact h
      · exact h.goto (hnone hpc rfl) rfl (by simp)
  · next hpc => exact h.goto (hnone hpc rfl) rfl (by simp)

lemma reading_of_wake {pc : LoopPc} {members : Option (List Member)}
    {flags : Option (MemberMap Bool)} (h : pc.wake = .reading members flags) :
    pc = .reading members flags := by
  cases pc with
  | blocked => exact absurd h (by simp [LoopPc.wake])
  | _ => exact h

/-- A turn keeps the order, if the members it takes pair off and those it brings are admitted. -/
theorem Orderly.step {s : Keeper} (h : s.Orderly P) {t : KeeperTurn} (hpairs : s.PairsOff t)
    (hadmits : Admits P t) : (s.step t).Orderly P := by
  cases t with
  | change snapshot => exact h.move rfl rfl rfl hadmits h.read
  | update i =>
      rw [Keeper.step]
      split
      · exact h
      · split
        · exact h
        · exact h.move rfl rfl rfl h.membership h.read
      · exact h.move rfl rfl rfl h.membership h.read
      · exact h.move rfl rfl (pending_wake s.pc) h.membership
          fun members flags hread => h.read members flags (reading_of_wake hread)
  | getMembers =>
      rw [Keeper.step]
      split
      · next flags hpc =>
          refine h.move rfl rfl (by rw [hpc]; rfl) h.membership fun members flags' hread => ?_
          obtain ⟨hmembers, -⟩ := LoopPc.reading.inj hread
          exact Option.some.inj hmembers ▸ ⟨s.membership.sorted, h.membership⟩
      · exact h
  | getActorSystems =>
      rw [Keeper.step]
      split
      · next members hpc =>
          refine h.move rfl rfl (by rw [hpc]; rfl) h.membership fun members' flags hread => ?_
          obtain ⟨hmembers, -⟩ := LoopPc.reading.inj hread
          exact h.read members' none (hpc.trans (by rw [hmembers]))
      · exact h
  | run => exact h.run hpairs
  | wakeUp =>
      exact h.move rfl rfl (pending_wake s.pc) h.membership
        fun members flags hread => h.read members flags (reading_of_wake hread)

/-- Only the loop changes the set. -/
lemma service_step (s : Keeper) {t : KeeperTurn} (ht : t ≠ .run) :
    (s.step t).service = s.service := by
  cases t with
  | run => exact absurd rfl ht
  | update i =>
      rw [Keeper.step]
      split
      · rfl
      · split <;> rfl
      · rfl
      · rfl
  | getMembers =>
      rw [Keeper.step]
      split <;> rfl
  | getActorSystems =>
      rw [Keeper.step]
      split <;> rfl
  | change _ | wakeUp => rfl

/-- And it does so when it publishes. -/
lemma service_run {s : Keeper} (h : ∀ event events, s.pc ≠ .publishing (event :: events)) :
    s.run.service = s.service := by
  rw [Keeper.run]
  split
  · rfl
  · rfl
  · next event events hpc => exact absurd hpc (h event events)
  · rfl
  · split <;> rfl
  · rfl
  · rfl
  · split <;> rfl
  · rfl

/-- The other threads leave a loop that publishes where it is. -/
lemma pc_step_of_publishing {s : Keeper} {events : List MemberEvent}
    (hpc : s.pc = .publishing events) {t : KeeperTurn} (ht : t ≠ .run) :
    (s.step t).pc = .publishing events := by
  cases t with
  | run => exact absurd rfl ht
  | update i =>
      rw [Keeper.step]
      split
      · exact hpc
      · split <;> exact hpc
      · exact hpc
      · exact congrArg LoopPc.wake hpc
  | getMembers =>
      rw [Keeper.step]
      split
      · next hreading => exact absurd (hpc.symm.trans hreading) (by simp)
      · exact hpc
  | getActorSystems =>
      rw [Keeper.step]
      split
      · next hreading => exact absurd (hpc.symm.trans hreading) (by simp)
      · exact hpc
  | change _ => exact hpc
  | wakeUp => exact congrArg LoopPc.wake hpc

end Keeper

end Cdcf
