import Cdcf.Cluster.Subscription
import Cdcf.NodeKeeper.Publishing

/-!
From the membership of a node to the list of its actor system: the threads that change the
membership, the loop of `NodeKeeper::Run`, the gRPC service and one `ClusterImpl`, taking turns in
any order.

* `Session.Settled`: the invariant of the service and the client; each of their turns keeps it, if
  what is announced is new to the set and the address of a member tells whether it is on the own
  host.
* `Pipeline.listsMembership_always`: once the loop is back to sleep and the channel is empty, the
  client lists the members of the node that are not on its own host, each once.
-/

namespace Cdcf.Cluster

open Sample

/-- Whether the member is on the own host is told by its address. -/
def Placed (host : String) (own : Address → Bool) (m : Cdcf.Member) : Prop :=
  isLocal host m = own m.address

/-! ### One event -/

lemma mem_keys_iff {members : MemberSet} {k : Cdcf.Member} :
    k ∈ members.keys ↔ ∃ p, members.find? k.address = some p ∧ p.1 = k := by
  constructor
  · intro h
    obtain ⟨p, hp, rfl⟩ := List.mem_map.mp h
    exact ⟨p, OrderedMap.find?_of_mem_entries hp, rfl⟩
  · rintro ⟨p, hp, rfl⟩
    exact List.mem_map_of_mem (List.mem_of_find?_eq_some hp)

/-- Who is in the set after an event was there before or has come up. -/
lemma mem_keys_notifyOne {members : MemberSet} {event : MemberEvent} {k : Cdcf.Member}
    (h : k ∈ (notifyOne members event).keys) :
    k ∈ members.keys ∨ event.type = .memberUp ∧ k = event.member := by
  obtain ⟨p, hp, rfl⟩ := mem_keys_iff.mp h
  rw [Mirror.find?_notifyOne] at hp
  split at hp
  · next haddr =>
      cases htype : event.type with
      | memberUp =>
          rw [htype] at hp
          cases hbefore : members.find? p.1.address with
          | none =>
              rw [hbefore] at hp
              exact Or.inr ⟨rfl, congrArg Prod.fst (Option.some.inj hp).symm⟩
          | some q =>
              rw [hbefore] at hp
              exact Or.inl (mem_keys_iff.mpr ⟨q, hbefore, congrArg Prod.fst (Option.some.inj hp)⟩)
      | memberDown =>
          rw [htype] at hp
          exact absurd hp (by simp)
      | actorSystemDown | actorSystemUp =>
          rw [htype] at hp
          exact Or.inl (mem_keys_iff.mpr ⟨p, hp, rfl⟩)
  · exact Or.inl (mem_keys_iff.mpr ⟨p, hp, rfl⟩)

/-- Who is on the list after an event was there before or has come up. -/
lemma mem_update {list : List Member} {event : MemberEvent} {c : Member}
    (h : c ∈ update list (subscribeItem event)) :
    c ∈ list ∨ event.type = .memberUp ∧ c = (updateMember event.member).toMember .up := by
  obtain ⟨type, m⟩ := event
  cases type with
  | memberUp =>
      rcases List.mem_append.mp h with h | h
      · exact Or.inl h
      · exact Or.inr ⟨rfl, List.mem_singleton.mp h⟩
  | memberDown => exact Or.inl (List.mem_of_mem_filter h)
  | actorSystemDown => exact Or.inl h
  | actorSystemUp => exact Or.inl h

section

variable {host : String} {own : Address → Bool}

lemma isLocal_toMember {m : Cdcf.Member} (h : Placed host own m) :
    ((updateMember m).toMember .up).isLocal host
      = own ((updateMember m).toMember .up).address := by
  rw [address_toMember]
  exact h

/-- The list stays one of members whose addresses tell where they are. -/
lemma placed_updates {list : List Member} {items : List MemberEvent}
    (hlist : ∀ c ∈ list, c.isLocal host = own c.address)
    (hitems : ∀ e ∈ items, e.IsAbout (Placed host own)) :
    ∀ c ∈ updates list items, c.isLocal host = own c.address := by
  induction items generalizing list with
  | nil => exact hlist
  | cons item items ih =>
      refine ih (fun c hc => ?_) fun e he => hitems e (List.mem_cons_of_mem item he)
      rcases mem_update hc with hc | ⟨htype, rfl⟩
      · exact hlist c hc
      · have habout := hitems item List.mem_cons_self
        rw [MemberEvent.IsAbout, htype] at habout
        exact isLocal_toMember habout

/-- An event that announces nobody the set holds keeps the list in step with the set. -/
lemma Mirror.meets_of_placed {v : Mirror} (hv : v.Matches host)
    (hlist : ∀ c ∈ v.list, c.isLocal host = own c.address) {event : MemberEvent}
    (habout : event.IsAbout (Placed host own)) (hannounces : Announces v.members event) :
    v.Meets host event := by
  obtain ⟨type, m⟩ := event
  cases type with
  | memberUp =>
      intro hremote
      refine ⟨hannounces rfl, fun c hc haddr => ?_⟩
      have hlocal : c.isLocal host = false := by rw [hlist c hc, haddr, ← habout, hremote]
      obtain ⟨k, hk, -, hkaddr⟩ := hv.2 c hc hlocal
      have hfind := OrderedMap.find?_isSome_of_mem_keys hk
      have hcontains := hannounces rfl
      rw [OrderedMap.contains, ← haddr, ← hkaddr, hfind] at hcontains
      exact absurd hcontains (by decide)
  | memberDown =>
      intro hlocal c hc hremote haddr
      rw [hlist c hc, haddr, ← habout, hlocal] at hremote
      exact absurd hremote (by decide)
  | actorSystemDown => trivial
  | actorSystemUp => trivial

end

/-! ### The service and the client -/

namespace Session

variable {own : Address → Bool}

lemma host_step (s : Session) (t : Turn) : (s.step t).host = s.host := by
  cases t <;> rw [step] <;> split <;> rfl

/-- The client is in step with the set, and all members about are placed by their addresses. -/
structure Settled (own : Address → Bool) (s : Session) : Prop where
  sound : s.Sound
  ready : s.Ready
  mirrored : s.Mirrored
  keys : ∀ m ∈ s.members.keys, Placed s.host own m
  outstanding : ∀ e ∈ s.outstanding, e.IsAbout (Placed s.host own)
  list : ∀ c ∈ s.list, c.isLocal s.host = own c.address

lemma settled_start (host : String) (own : Address → Bool) : (start host).Settled own where
  sound := sound_start host
  ready := fun hstage => absurd hstage (by simp [start])
  mirrored := fun h => absurd h (by simp [start])
  keys := by simp [start, OrderedMap.keys, OrderedMap.empty]
  outstanding := by simp [start, Session.outstanding, remote]
  list := by simp [start]

/-- The first half of a `Notify` of one event. -/
lemma Settled.notify {s : Session} (h : s.Settled own) (hnotifying : s.notifying = none)
    (hstage : s.stage ≠ .fetched) {event : MemberEvent}
    (habout : event.IsAbout (Placed s.host own)) (hannounces : Announces s.members event) :
    (s.step (.notify [event])).Settled own := by
  have hinTime : s.InTime (.notify [event]) := by
    intro _ hsome
    exact ⟨Mirror.meets_of_placed (h.mirrored hsome) (placed_updates h.list h.outstanding) habout
      hannounces, trivial⟩
  have hstep : s.step (.notify [event])
      = { s with members := Cdcf.notify s.members [event], notifying := some [event] } := by
    rw [step, hnotifying]
  refine ⟨sound_step h.sound _, ready_step h.sound h.ready ⟨hstage, hinTime⟩,
    mirrored_step h.sound h.mirrored hinTime, ?_, ?_, ?_⟩
  · rw [hstep]
    intro m hm
    rcases mem_keys_notifyOne hm with hm | ⟨htype, rfl⟩
    · exact h.keys m hm
    · rw [MemberEvent.IsAbout, htype] at habout
      exact habout
  · rw [hstep]
    intro e he
    rcases List.mem_append.mp he with he | he
    · exact h.outstanding e (List.mem_append_left _ he)
    · have hmem := List.mem_of_mem_filter he
      exact List.mem_singleton.mp hmem ▸ habout
  · rw [hstep]
    exact h.list

/-- Delivery moves the events into the channel, if the client has one. -/
lemma Settled.deliver {s : Session} (h : s.Settled own) : (s.step .deliver).Settled own := by
  refine ⟨sound_step h.sound _, ready_step h.sound h.ready trivial,
    mirrored_step h.sound h.mirrored trivial, ?_, ?_, ?_⟩
  · rw [host_step, step]
    split <;> exact h.keys
  · rw [host_step, step]
    split
    · exact h.outstanding
    · next events hnotifying =>
        cases hc : s.channel with
        | none => simp [Session.outstanding, Session.deliver, hc, remote]
        | some channel =>
            intro e he
            refine h.outstanding e ?_
            rw [Session.outstanding, deliver_of_sound h.sound hc] at he
            rw [Session.outstanding, hc, hnotifying]
            simpa [remote] using he
  · rw [host_step, step]
    split <;> exact h.list

/-- `Fetch` reads the members of the set. -/
lemma Settled.fetch {s : Session} (h : s.Settled own) {ok : Bool}
    (hquiet : s.Quiet (.fetch ok)) : (s.step (.fetch ok)).Settled own := by
  have hfetched : ∀ c ∈ s.fetch ok, c.isLocal s.host = own c.address := by
    intro c hc
    rw [Session.fetch] at hc
    split at hc
    · obtain ⟨detail, hdetail, rfl⟩ := List.mem_map.mp hc
      obtain ⟨m, hm, rfl⟩ := List.mem_map.mp hdetail
      exact isLocal_toMember (h.keys m hm)
    · exact h.list c hc
  refine ⟨sound_step h.sound _, ready_step h.sound h.ready hquiet,
    mirrored_step h.sound h.mirrored trivial, ?_, ?_, ?_⟩
  · rw [host_step, step]
    split <;> exact h.keys
  · rw [host_step, step]
    split <;> exact h.outstanding
  · rw [host_step, step]
    split
    · exact hfetched
    · exact hfetched
    · exact h.list
    · exact h.list

lemma Settled.subscribe {s : Session} (h : s.Settled own) : (s.step .subscribe).Settled own := by
  refine ⟨sound_step h.sound _, ready_step h.sound h.ready trivial,
    mirrored_step h.sound h.mirrored (h.ready.inTime h.sound), ?_, ?_, ?_⟩
  · rw [host_step, step]
    split <;> exact h.keys
  · rw [host_step, step]
    split
    · next hstage =>
        have hnone := h.sound.channel_eq_none hstage
        intro e he
        refine h.outstanding e ?_
        rw [Session.outstanding, hnone]
        exact he
    · exact h.outstanding
    · exact h.outstanding
    · exact h.outstanding
  · rw [host_step, step]
    split <;> exact h.list

/-- A round of the loops takes the first of what is outstanding. -/
lemma Settled.read {s : Session} (h : s.Settled own) : (s.step .read).Settled own := by
  refine ⟨sound_step h.sound _, ready_step h.sound h.ready trivial,
    mirrored_step h.sound h.mirrored trivial, ?_, ?_, ?_⟩
  · rw [host_step, step]
    split <;> exact h.keys
  · rw [host_step, step]
    split
    · next item channel hget =>
        obtain ⟨channel', hc, hitem⟩ := Option.bind_eq_some_iff.mp hget
        intro e he
        refine h.outstanding e ?_
        rw [Session.outstanding, hc, Option.elim_some, (Channel.get_eq_some hitem).1]
        exact List.mem_cons_of_mem item he
    · exact h.outstanding
    · exact h.outstanding
  · rw [host_step, step]
    split
    · next item channel hget =>
        obtain ⟨channel', hc, hitem⟩ := Option.bind_eq_some_iff.mp hget
        have hmem : item ∈ s.outstanding := by
          rw [Session.outstanding, hc, Option.elim_some, (Channel.get_eq_some hitem).1]
          exact List.mem_append_left _ List.mem_cons_self
        have hplaced : ∀ e ∈ [item], e.IsAbout (Placed s.host own) := by
          simpa using h.outstanding item hmem
        exact placed_updates h.list hplaced
    · exact h.list
    · exact h.list

end Session

/-! ### All of it -/

/-- The node keeper, with its loop and its gRPC service, and one actor system. -/
structure Pipeline where
  keeper : Keeper
  session : Session

namespace Pipeline

/-- What can happen next. -/
inductive Turn where
  /-- A turn of the node keeper: the first half of a `Notify` where the loop publishes. -/
  | keeper (t : KeeperTurn)
  /-- The second half of a `Notify`. -/
  | deliver
  /-- `ClusterImpl::Fetch`, with what `status.ok()` says. -/
  | fetch (ok : Bool)
  | subscribe
  | read

/-- A node keeper before the first round, and an actor system before its constructor. -/
def start (host : String) (membership : Snapshot) : Pipeline :=
  ⟨Keeper.start membership, Session.start host⟩

/-- The `Notify` that the loop calls in its next step, if it calls one. -/
def publish (s : Pipeline) : Session :=
  match s.keeper.pc with
  | .publishing (event :: _) => s.session.step (.notify [event])
  | _ => s.session

/-- A turn; one that cannot be taken changes nothing.  The loop does not go on before the second
half of its `Notify`. -/
def step (s : Pipeline) : Turn → Pipeline
  | .keeper .run => if s.session.notifying.isSome then s else ⟨s.keeper.run, s.publish⟩
  | .keeper t => { s with keeper := s.keeper.step t }
  | .deliver => { s with session := s.session.step .deliver }
  | .fetch ok => { s with session := s.session.step (.fetch ok) }
  | .subscribe => { s with session := s.session.step .subscribe }
  | .read => { s with session := s.session.step .read }

/-- Once the loop sleeps, no `Update` is under way and a subscribed client has read everything, its
list holds each member of the node that is not on the own host exactly once, and no other member
that is not on the own host. -/
def Follows (s : Pipeline) : Prop :=
  s.keeper.pc = .blocked → s.keeper.updates = [] →
    ∀ channel ∈ s.session.channel, channel.queue = [] →
      (∀ m ∈ s.keeper.membership.members, isLocal s.session.host m = false →
          s.session.list.countP (fun c => c.address = m.address) = 1)
        ∧ ∀ c ∈ s.session.list, c.isLocal s.session.host = false →
          ∃ m ∈ s.keeper.membership.members, isLocal s.session.host m = false
            ∧ m.address = c.address

/-- The client is not disturbed: the `Fetch` of `Routine` gets its reply while no `Notify` is under
way, and the loop publishes nothing between it and `Subscribe`. -/
def Quiet (s : Pipeline) : Turn → Prop
  | .keeper .run => s.keeper.pc.pending ≠ [] → s.session.stage ≠ .fetched
  | .fetch ok => s.session.stage = .starting → ok = true ∧ s.session.notifying = none
  | .keeper _ | .deliver | .subscribe | .read => True

/-- The turn neither disturbs the client nor wakes the loop in vain, the members that the generator
gets pair off with those it has, and the addresses of the members tell which are on the own host. -/
def Steady (own : Address → Bool) (s : Pipeline) (turn : Turn) : Prop :=
  s.Quiet turn ∧
    match turn with
    | .keeper t => s.keeper.Prompt t ∧ s.keeper.PairsOff t
        ∧ Keeper.Admits (Placed s.session.host own) t
    | .deliver | .fetch _ | .subscribe | .read => True

/-- The invariant. -/
structure Good (own : Address → Bool) (s : Pipeline) : Prop where
  fresh : s.keeper.Fresh
  orderly : s.keeper.Orderly (Placed s.session.host own)
  settled : s.session.Settled own
  same : s.keeper.service = s.session.members
  inside : s.session.notifying.isSome = true → ∃ events, s.keeper.pc = .publishing events

variable {own : Address → Bool}

lemma good_start {host : String} {membership : Snapshot}
    (h : ∀ m ∈ membership.members, Placed host own m) : (start host membership).Good own where
  fresh := fun _ => ⟨fun _ hm => absurd hm (by simp), fun _ hflags => absurd hflags (by simp)⟩
  orderly := Keeper.orderly_start h
  settled := Session.settled_start host own
  same := rfl
  inside := fun h => absurd h (by simp [start, Session.start])

/-- With nothing outstanding anywhere, the list is that of the membership. -/
lemma Good.follows {s : Pipeline} (h : s.Good own) : s.Follows := by
  intro hblocked hnil channel hc hqueue
  have hcurrent : s.keeper.generator.members = s.keeper.membership.members :=
    (h.fresh.listens hblocked hnil).1
  have hshows := h.orderly.shows
  rw [hblocked] at hshows
  have hset : ∀ a, s.session.members.contains a = true
      ↔ a ∈ s.keeper.membership.members.map Cdcf.Member.address := by
    intro a
    rw [← h.same, ← hcurrent]
    exact hshows a
  have hnone : s.session.notifying = none := by
    by_contra hsome
    obtain ⟨events, hpc⟩ := h.inside (Option.isSome_iff_ne_none.mpr hsome)
    exact absurd (hblocked.symm.trans hpc) (by simp)
  obtain ⟨honce, hno⟩ := h.settled.mirrored.follows channel hc hqueue hnone
  constructor
  · intro m hm hremote
    obtain ⟨p, hp⟩ := Option.isSome_iff_exists.mp
      ((hset m.address).mpr (List.mem_map_of_mem hm))
    have haddr : p.1.address = m.address := OrderedMap.key_of_find? hp
    have hkey : p.1 ∈ s.session.members.keys :=
      mem_keys_iff.mpr ⟨p, haddr.symm ▸ hp, rfl⟩
    have hremote' : isLocal s.session.host p.1 = false := by
      rw [h.settled.keys p.1 hkey, haddr, ← h.orderly.membership m hm, hremote]
    rw [← haddr]
    exact honce p.1 hkey hremote'
  · intro c hcmem hremote
    obtain ⟨k, hk, hkremote, hkaddr⟩ := hno c hcmem hremote
    obtain ⟨m, hm, hmaddr⟩ := List.mem_map.mp
      ((hset k.address).mp (OrderedMap.find?_isSome_of_mem_keys hk))
    refine ⟨m, hm, ?_, hmaddr.trans hkaddr⟩
    rw [h.orderly.membership m hm, hmaddr, ← h.settled.keys k hk, hkremote]

/-! ### Runs -/

/-- A turn of the session alone. -/
lemma Good.session {s : Pipeline} (h : s.Good own) {t : Cluster.Turn}
    (hsettled : (s.session.step t).Settled own)
    (hmembers : (s.session.step t).members = s.session.members)
    (hnotifying : (s.session.step t).notifying.isSome = true → s.session.notifying.isSome = true) :
    Good own { s with session := s.session.step t } where
  fresh := h.fresh
  orderly := (s.session.host_step t).symm ▸ h.orderly
  settled := hsettled
  same := h.same.trans hmembers.symm
  inside := fun hsome => h.inside (hnotifying hsome)

/-- A turn of the keeper other than a step of the loop. -/
lemma Good.keeper {s : Pipeline} (h : s.Good own) {t : KeeperTurn} (ht : t ≠ .run)
    (hprompt : s.keeper.Prompt t) (hpairs : s.keeper.PairsOff t)
    (hadmits : Keeper.Admits (Placed s.session.host own) t) :
    Good own { s with keeper := s.keeper.step t } where
  fresh := Keeper.fresh_step h.fresh hprompt
  orderly := h.orderly.step hpairs hadmits
  settled := h.settled
  same := (s.keeper.service_step ht).trans h.same
  inside := fun hsome => by
    obtain ⟨events, hpc⟩ := h.inside hsome
    exact ⟨events, Keeper.pc_step_of_publishing hpc ht⟩

/-- A step of the loop, which publishes an event if there is one left. -/
lemma Good.run {s : Pipeline} (h : s.Good own) (hnotifying : s.session.notifying = none)
    (hquiet : s.keeper.pc.pending ≠ [] → s.session.stage ≠ .fetched)
    (hpairs : s.keeper.PairsOff .run) : Good own ⟨s.keeper.run, s.publish⟩ := by
  have hfresh := Keeper.fresh_run h.fresh
  have horderly := h.orderly.run hpairs
  by_cases hpending : ∃ event events, s.keeper.pc = .publishing (event :: events)
  · obtain ⟨event, events, hpc⟩ := hpending
    have hpublish : s.publish = s.session.step (.notify [event]) := by rw [publish, hpc]
    have hrun : s.keeper.run = { s.keeper with
        service := notify s.keeper.service [event], pc := .publishing events } := by
      rw [Keeper.run, hpc]
    have hmembers : (s.session.step (.notify [event])).members
        = notify s.session.members [event] := by
      rw [Session.step, hnotifying]
    have hannounces := h.orderly.announces
    rw [hpc] at hannounces
    have habout := h.orderly.pending event (by rw [hpc]; exact List.mem_cons_self)
    have hstage := hquiet (by simp [hpc, LoopPc.pending])
    rw [hpublish]
    refine ⟨hfresh, (s.session.host_step _).symm ▸ horderly,
      h.settled.notify hnotifying hstage habout (h.same ▸ hannounces.1), ?_, fun _ => ?_⟩
    · rw [hmembers, hrun, h.same]
    · exact ⟨events, by rw [hrun]⟩
  · have hne : ∀ event events, s.keeper.pc ≠ .publishing (event :: events) :=
      fun event events hpc => hpending ⟨event, events, hpc⟩
    have hpublish : s.publish = s.session := by
      rw [publish]
      split
      · next hpc => exact absurd hpc (hne _ _)
      · rfl
    rw [hpublish]
    exact ⟨hfresh, horderly, h.settled, (Keeper.service_run hne).trans h.same,
      fun hsome => absurd hsome (by simp [hnotifying])⟩

/-- A steady turn keeps the invariant. -/
lemma Good.step {s : Pipeline} (h : s.Good own) {turn : Turn} (hsteady : s.Steady own turn) :
    (s.step turn).Good own := by
  obtain ⟨hquiet, hturn⟩ := hsteady
  cases turn with
  | keeper t =>
      obtain ⟨hprompt, hpairs, hadmits⟩ := hturn
      cases t with
      | run =>
          rw [Pipeline.step]
          split
          · exact h
          · next hnone => exact h.run (by simpa using hnone) hquiet hpairs
      | _ => exact h.keeper (by simp) hprompt hpairs hadmits
  | deliver =>
      refine h.session h.settled.deliver ?_ ?_
      · rw [Session.step]
        split <;> rfl
      · rw [Session.step]
        split
        · exact id
        · next hnotifying => exact fun _ => by rw [hnotifying]; rfl
  | fetch ok =>
      refine h.session (h.settled.fetch hquiet) ?_ ?_
      · rw [Session.step]
        split <;> rfl
      · rw [Session.step]
        split <;> exact id
  | subscribe =>
      refine h.session h.settled.subscribe ?_ ?_
      · rw [Session.step]
        split <;> rfl
      · rw [Session.step]
        split <;> exact id
  | read =>
      refine h.session h.settled.read ?_ ?_
      · rw [Session.step]
        split <;> rfl
      · rw [Session.step]
        split <;> exact id

/-- The list of the actor system is the membership of its node, but for the own host, whenever
nothing is outstanding: however the membership changes, the loop is woken and the threads take
turns, if no `notify_all` is lost, the members pair off and the client starts undisturbed. -/
theorem listsMembership_always {host : String} {membership : Snapshot}
    (h : ∀ m ∈ membership.members, Placed host own m) {turns : List Turn}
    (hsteady : Run.Each step (Steady own) (start host membership) turns) :
    Run.Always step Follows (start host membership) turns :=
  (Run.always_of_each (P := Good own) (fun _ _ hs hturn => hs.step hturn) (good_start h)
    hsteady).imp fun _ hs => hs.follows

/-- A node that knows a second one, whose actor system subscribes before the first round. -/
theorem listsMembership_always_two :
    Run.Always step Follows
      (start "10.0.0.1"
        ((Sample.start nodeA).step (.gossip (UpdateMessage.initAsUpMessage nodeB 1))).snapshot)
      [.fetch true, .fetch true, .subscribe, .keeper .getMembers, .keeper .getActorSystems,
        .keeper .run, .keeper .run, .deliver, .keeper .run, .deliver, .read, .keeper .run,
        .keeper .run, .keeper .run] :=
  have hquiet : ∀ {s : Pipeline}, s.session.stage = .reading →
      (s.keeper.pc.pending ≠ [] → s.session.stage ≠ .fetched) := fun h _ => by simp [h]
  @listsMembership_always (fun a => a.host == "10.0.0.1") _ _ (by unfold Placed; decide) _
    ⟨⟨fun h => absurd h (by decide), trivial⟩, ⟨fun _ => ⟨rfl, rfl⟩, trivial⟩, ⟨trivial, trivial⟩,
      ⟨trivial, trivial, trivial, trivial⟩, ⟨trivial, trivial, trivial, trivial⟩,
      ⟨hquiet rfl, trivial, (by decide : ∀ m ∈ [] ++ ((Sample.start nodeA).step
        (.gossip (UpdateMessage.initAsUpMessage nodeB 1))).getMembers, _), trivial⟩,
      ⟨hquiet rfl, trivial, trivial, trivial⟩, ⟨trivial, trivial⟩,
      ⟨hquiet rfl, trivial, trivial, trivial⟩, ⟨trivial, trivial⟩, ⟨trivial, trivial⟩,
      ⟨hquiet rfl, trivial, trivial, trivial⟩, ⟨hquiet rfl, trivial, trivial, trivial⟩,
      ⟨hquiet rfl, trivial, trivial, trivial⟩, trivial⟩

end Pipeline

end Cdcf.Cluster
