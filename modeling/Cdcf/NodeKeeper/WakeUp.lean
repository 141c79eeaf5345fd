import Cdcf.Library.Run
import Cdcf.NodeKeeper.MemberEvent

/-!
The loop of `NodeKeeper::Run` and the threads that wake it (`node_keeper.cc`).

A thread that changes the membership goes on to `Membership::Notify`, which calls
`Subscriber::Update`: it locks and unlocks the mutex, then calls `notify_all`.  The loop reads the
members and the actor systems, publishes the events, locks the mutex and waits, without looking
at the membership once more.

* `run_round`: a round of the loop that nobody interrupts is a step of `View`.
* `listens_always_of_prompt`: the loop never sleeps on a membership it has not seen, with no
  `Update` to come, if no `Update` calls `notify_all` after the loop has begun to read and before it
  sleeps.
* `listens_always_of_apart`: what the mutex adds. It is enough that no `Update` locks it after the
  loop has begun to read and before the loop locks it.
* `listens_lost`: a change that is announced while the loop publishes.
-/

namespace Cdcf

open Sample

/-- How far the loop of `NodeKeeper::Run` is. -/
inductive LoopPc where
  /-- It evaluates the arguments of `MemberEventGenerator::Update`, in either order. -/
  | reading (members : Option (List Member)) (actorSystems : Option (MemberMap Bool))
  /-- It publishes the events. -/
  | publishing (events : List MemberEvent)
  /-- It is about to lock the mutex in `Wait`. -/
  | locking
  /-- It holds the mutex and is about to wait. -/
  | holding
  /-- It is blocked and has released the mutex. -/
  | blocked
  /-- It is awake and has still to lock the mutex again. -/
  | woken
  /-- It holds the mutex again and leaves `Wait`. -/
  | leaving

/-- How far a call of `Subscriber::Update` is. -/
inductive UpdatePc where
  /-- It is about to lock the mutex. -/
  | locking
  /-- It holds the mutex. -/
  | holding
  /-- It is about to call `notify_all`. -/
  | notifying
  deriving DecidableEq, Repr

/-- The loop and the calls of `Update` that are under way. -/
structure Keeper where
  /-- What `GetMembers` and `GetActorSystems` return now. -/
  membership : Snapshot
  generator : MemberEventGenerator := {}
  /-- `members_` of the gRPC service. -/
  service : MemberSet := OrderedMap.empty
  pc : LoopPc := .reading none none
  updates : List UpdatePc := []

/-- What can happen next. -/
inductive KeeperTurn where
  /-- A change of the membership, whose thread goes on to call `Update`. -/
  | change (snapshot : Snapshot)
  /-- The next step of a call of `Update`. -/
  | update (i : ℕ)
  /-- The loop calls `GetMembers`. -/
  | getMembers
  /-- The loop calls `GetActorSystems`. -/
  | getActorSystems
  /-- The next step of the loop but for these calls. -/
  | run
  /-- A wake-up without a call. -/
  | wakeUp

/-- `notify_all`, for the loop. -/
def LoopPc.wake : LoopPc → LoopPc
  | .blocked => .woken
  | pc => pc

/-- The loop holds the mutex. -/
def LoopPc.holds : LoopPc → Bool
  | .holding | .leaving => true
  | .reading _ _ | .publishing _ | .locking | .blocked | .woken => false

/-- The loop has begun to read and has not gone to sleep since. -/
def LoopPc.hasRead : LoopPc → Bool
  | .reading none none | .blocked | .woken | .leaving => false
  | .reading _ _ | .publishing _ | .locking | .holding => true

namespace Keeper

/-- The keeper before the first round, after `Membership::Subscribe`. -/
def start (membership : Snapshot) : Keeper := { membership := membership }

/-- The mutex of the subscriber is locked. -/
def locked (s : Keeper) : Bool := s.pc.holds || s.updates.any (· = .holding)

/-- The next step of the loop. -/
def run (s : Keeper) : Keeper :=
  match s.pc with
  | .reading (some members) (some actorSystems) =>
    let (events, generator) := s.generator.update members actorSystems
    { s with generator := generator, pc := .publishing events }
  | .reading _ _ => s
  | .publishing (event :: events) =>
    { s with service := notify s.service [event], pc := .publishing events }
  | .publishing [] => { s with pc := .locking }
  | .locking => if s.locked then s else { s with pc := .holding }
  | .holding => { s with pc := .blocked }
  | .blocked => s
  | .woken => if s.locked then s else { s with pc := .leaving }
  | .leaving => { s with pc := .reading none none }

/-- A turn; one that cannot be taken changes nothing. -/
def step (s : Keeper) : KeeperTurn → Keeper
  | .change snapshot => { s with membership := snapshot, updates := s.updates ++ [.locking] }
  | .update i =>
    match s.updates[i]? with
    | none => s
    | some .locking => if s.locked then s else { s with updates := s.updates.set i .holding }
    | some .holding => { s with updates := s.updates.set i .notifying }
    | some .notifying => { s with updates := s.updates.eraseIdx i, pc := s.pc.wake }
  | .getMembers =>
    match s.pc with
    | .reading none actorSystems =>
      { s with pc := .reading (some s.membership.members) actorSystems }
    | _ => s
  | .getActorSystems =>
    match s.pc with
    | .reading members none =>
      { s with pc := .reading members (some s.membership.actorSystems) }
    | _ => s
  | .run => s.run
  | .wakeUp => { s with pc := s.pc.wake }

/-- The last snapshot given to `MemberEventGenerator::Update` is the membership. -/
def Current (s : Keeper) : Prop :=
  s.generator.members = s.membership.members
    ∧ s.generator.memberActorSystems = s.membership.actorSystems

/-- The loop is not blocked with every `Update` finished, but for a snapshot that is the
membership. -/
def Listens (s : Keeper) : Prop := s.pc = .blocked → s.updates = [] → s.Current

/-! ### A round of the loop -/

/-- What `View` keeps of the loop. -/
def view (s : Keeper) : View := ⟨s.generator, s.service⟩

/-- The events are published one by one. -/
lemma run_publishing {s : Keeper} {events : List MemberEvent} (h : s.pc = .publishing events) :
    run^[events.length] s
      = { s with service := notify s.service events, pc := .publishing [] } := by
  induction events generalizing s with
  | nil =>
      rw [notify, List.foldl_nil, ← h]
      rfl
  | cons event events ih =>
      have hrun : s.run
          = { s with service := notify s.service [event], pc := .publishing events } := by
        rw [run, h]
      have hpc : s.run.pc = .publishing events := by rw [hrun]
      rw [List.length_cons, Function.iterate_succ_apply, ih hpc, hrun]
      rfl

/-- A round that nobody interrupts is a step of the view. -/
theorem run_round {s : Keeper} (h : s.pc = .reading none none) :
    ∃ n, (run^[n] ((s.step .getMembers).step .getActorSystems)).view
      = s.view.step s.membership := by
  have hread : (s.step .getMembers).step .getActorSystems
      = { s with pc := .reading (some s.membership.members) (some s.membership.actorSystems) } := by
    have hmembers : s.step .getMembers
        = { s with pc := .reading (some s.membership.members) none } := by
      rw [step, h]
    rw [hmembers]
    rfl
  have hpublish (events : List MemberEvent) (generator : MemberEventGenerator) :=
    run_publishing (s := { s with generator := generator, pc := .publishing events }) rfl
  refine ⟨(s.generator.update s.membership.members s.membership.actorSystems).1.length + 1, ?_⟩
  rw [hread, Function.iterate_succ_apply]
  exact congrArg view (hpublish _ _)

/-! ### What has been read -/

/-- What the loop has read, or given to the generator, by a place in it is the membership. -/
def FreshAt (s : Keeper) : LoopPc → Prop
  | .reading members actorSystems =>
      (∀ m ∈ members, m = s.membership.members)
        ∧ ∀ flags ∈ actorSystems, flags = s.membership.actorSystems
  | .publishing _ | .locking | .holding | .blocked => s.Current
  | .woken | .leaving => True

/-- Before the first read nothing is old, and a loop that wakes up reads again. -/
lemma freshAt_of_hasRead_eq_false {s : Keeper} {pc : LoopPc} (hread : pc.hasRead = false)
    (hblocked : pc ≠ .blocked) : s.FreshAt pc := by
  cases pc with
  | reading members actorSystems =>
      cases members with
      | none =>
          cases actorSystems with
          | none => exact ⟨fun _ hm => absurd hm (by simp), fun _ hflags => absurd hflags (by simp)⟩
          | some flags => exact absurd hread (by simp [LoopPc.hasRead])
      | some members => exact absurd hread (by simp [LoopPc.hasRead])
  | blocked => exact absurd rfl hblocked
  | woken => trivial
  | leaving => trivial
  | _ => exact absurd hread (by simp [LoopPc.hasRead])

/-- A wake-up leaves nothing old. -/
lemma FreshAt.wake {s : Keeper} {pc : LoopPc} (h : s.FreshAt pc) : s.FreshAt pc.wake := by
  cases pc with
  | blocked => trivial
  | _ => exact h

/-- `notify_all` reaches a loop that sleeps or has not yet read. -/
lemma freshAt_wake {s : Keeper} {pc : LoopPc} (hread : pc.hasRead = false) :
    s.FreshAt pc.wake := by
  cases pc with
  | blocked => trivial
  | _ => exact freshAt_of_hasRead_eq_false hread (by simp [LoopPc.wake])

lemma updates_run (s : Keeper) : s.run.updates = s.updates := by
  rw [run]
  split <;> try rfl
  · split <;> rfl
  · split <;> rfl

/-- What the loop hands on from one place to the next is what it has read. -/
lemma freshAt_run {s : Keeper} (h : s.FreshAt s.pc) : s.run.FreshAt s.run.pc := by
  have hat : ∀ {pc}, s.pc = pc → s.FreshAt pc := fun hpc => hpc ▸ h
  rw [run]
  split
  · next members actorSystems hpc =>
      obtain ⟨hmembers, hflags⟩ := hat hpc
      exact ⟨hmembers _ rfl, hflags _ rfl⟩
  · exact h
  · next hpc => exact hat hpc
  · next hpc => exact hat hpc
  · next hpc =>
      split
      · exact h
      · exact hat hpc
  · next hpc => exact hat hpc
  · exact h
  · split
    · exact h
    · trivial
  · exact ⟨fun _ hm => absurd hm (by simp), fun _ hflags => absurd hflags (by simp)⟩

/-- What `GetMembers` and `GetActorSystems` return is fresh. -/
lemma freshAt_read {s : Keeper} (h : s.FreshAt s.pc) {t : KeeperTurn}
    (ht : t = .getMembers ∨ t = .getActorSystems) : (s.step t).FreshAt (s.step t).pc := by
  rcases ht with rfl | rfl
  · rw [step]
    split
    · next actorSystems hpc =>
        rw [hpc] at h
        exact ⟨fun _ hm => (Option.some.inj hm).symm, h.2⟩
    · exact h
  · rw [step]
    split
    · next members hpc =>
        rw [hpc] at h
        exact ⟨h.1, fun _ hflags => (Option.some.inj hflags).symm⟩
    · exact h

lemma updates_read {s : Keeper} {t : KeeperTurn} (ht : t = .getMembers ∨ t = .getActorSystems) :
    (s.step t).updates = s.updates := by
  rcases ht with rfl | rfl
  · rw [step]
    split <;> rfl
  · rw [step]
    split <;> rfl

/-! ### Prompt updates -/

/-- An `Update` calls `notify_all` only while the loop sleeps, wakes up or has not yet read. -/
def Prompt (s : Keeper) : KeeperTurn → Prop
  | .update i => s.updates[i]? = some .notifying → s.pc.hasRead = false
  | .change _ | .getMembers | .getActorSystems | .run | .wakeUp => True

instance (s : Keeper) : ∀ t, Decidable (s.Prompt t)
  | .update _ => inferInstanceAs (Decidable (_ → _))
  | .change _ | .getMembers | .getActorSystems | .run | .wakeUp => .isTrue trivial

/-- What the loop has read is the membership, unless an `Update` is under way. -/
def Fresh (s : Keeper) : Prop := s.updates = [] → s.FreshAt s.pc

lemma Fresh.listens {s : Keeper} (h : s.Fresh) : s.Listens := by
  intro hblocked hnil
  have hfresh := h hnil
  rw [hblocked] at hfresh
  exact hfresh

/-- The steps of the loop keep what has been read fresh. -/
lemma fresh_run {s : Keeper} (h : s.Fresh) : s.run.Fresh :=
  fun hnil => freshAt_run (h (updates_run s ▸ hnil))

/-- A prompt turn keeps what has been read fresh. -/
lemma fresh_step {s : Keeper} (h : s.Fresh) {t : KeeperTurn} (ht : s.Prompt t) :
    (s.step t).Fresh := by
  cases t with
  | change snapshot => exact fun hnil => absurd hnil (by simp [step])
  | update i =>
      rw [step]
      split
      · exact h
      · split
        · exact h
        · exact fun hnil => h ((List.set_eq_nil_iff _ _).mp hnil)
      · exact fun hnil => h ((List.set_eq_nil_iff _ _).mp hnil)
      · next hi => exact fun _ => freshAt_wake (ht hi)
  | getMembers =>
      intro hnil
      exact freshAt_read (h (updates_read (.inl rfl) ▸ hnil)) (.inl rfl)
  | getActorSystems =>
      intro hnil
      exact freshAt_read (h (updates_read (.inr rfl) ▸ hnil)) (.inr rfl)
  | run => exact fresh_run h
  | wakeUp => exact fun hnil => (h hnil).wake

/-- Before the first round nothing has been read. -/
lemma freshAt_start (membership : Snapshot) :
    (start membership).FreshAt (start membership).pc :=
  freshAt_of_hasRead_eq_false rfl (by simp [start])

/-- The loop listens throughout a run in which no `Update` calls `notify_all` after the loop has
begun to read and before it sleeps. -/
theorem listens_always_of_prompt {membership : Snapshot} {ts : List KeeperTurn}
    (h : Run.Each step Prompt (start membership) ts) :
    Run.Always step Listens (start membership) ts := by
  have hfresh : Run.Always step Fresh (start membership) ts :=
    Run.always_of_each (P := Fresh) (C := Prompt) (fun s t hs ht => fresh_step hs ht)
      (fun _ => freshAt_start membership) h
  exact hfresh.imp fun s hs => hs.listens

/-- `nodeB` is heard of while the loop sleeps: it is woken, reads again, tells of `nodeB` and goes
back to sleep. -/
theorem listens_always_woken :
    Run.Always step Listens (start (Sample.start nodeA).snapshot)
        ([.getMembers, .getActorSystems] ++ List.replicate 5 .run
          ++ [.change ((Sample.start nodeA).step
              (.gossip (UpdateMessage.initAsUpMessage nodeB 1))).snapshot,
            .update 0, .update 0, .update 0, .run, .run, .getActorSystems, .getMembers]
          ++ List.replicate 5 .run)
      ∧ (Run.run step (start (Sample.start nodeA).snapshot)
          ([.getMembers, .getActorSystems] ++ List.replicate 5 .run
            ++ [.change ((Sample.start nodeA).step
                (.gossip (UpdateMessage.initAsUpMessage nodeB 1))).snapshot,
              .update 0, .update 0, .update 0, .run, .run, .getActorSystems, .getMembers]
            ++ List.replicate 5 .run)).service.keys.length = 2 :=
  ⟨listens_always_of_prompt (by decide), by decide⟩

/-- A node is heard of, and announced, while the loop publishes what it has read before: the loop
goes to sleep on the old members. -/
theorem listens_lost :
    ¬Run.Always step Listens (start (Sample.start nodeA).snapshot)
      [.getMembers, .getActorSystems, .run,
        .change ((Sample.start nodeA).step
          (.gossip (UpdateMessage.initAsUpMessage nodeB 1))).snapshot,
        .update 0, .update 0, .update 0, .run, .run, .run, .run] := by
  intro h
  have hcurrent := h.last rfl rfl
  exact absurd hcurrent.1 (by decide)

/-! ### The mutex -/

/-- An `Update` does not lock the mutex between the first read of the loop and its own lock. -/
def Apart (s : Keeper) : KeeperTurn → Prop
  | .update i => s.updates[i]? = some .locking → s.pc.hasRead = true → s.pc = .holding
  | .change _ | .getMembers | .getActorSystems | .run | .wakeUp => True

/-- What the loop has read is the membership, unless an `Update` has still to lock the mutex or,
once the loop sleeps, is under way. -/
def Heard (s : Keeper) : Prop :=
  (s.pc = .blocked → s.updates = []) → .locking ∉ s.updates → s.FreshAt s.pc

lemma Heard.listens {s : Keeper} (h : s.Heard) : s.Listens := by
  intro hblocked hnil
  have hfresh := h (fun _ => hnil) (by simp [hnil])
  rw [hblocked] at hfresh
  exact hfresh

lemma run_blocked {s : Keeper} (h : s.pc = .blocked) : s.run = s := by
  cases s
  cases h
  rfl

/-- A call that goes on leaves those that have still to lock the mutex. -/
lemma locking_mem_set {updates : List UpdatePc} {i : ℕ} {pc : UpdatePc}
    (hi : updates[i]? = some pc) (hpc : pc ≠ .locking) (pc' : UpdatePc)
    (h : .locking ∈ updates) : .locking ∈ updates.set i pc' := by
  obtain ⟨j, hj⟩ := List.mem_iff_getElem?.mp h
  have hne : i ≠ j := by
    rintro rfl
    exact hpc (Option.some.inj (hi.symm.trans hj))
  exact List.mem_iff_getElem?.mpr ⟨j, by rw [List.getElem?_set_ne hne]; exact hj⟩

/-- So does one that ends. -/
lemma locking_mem_eraseIdx {updates : List UpdatePc} {i : ℕ} {pc : UpdatePc}
    (hi : updates[i]? = some pc) (hpc : pc ≠ .locking)
    (h : .locking ∈ updates) : .locking ∈ updates.eraseIdx i := by
  obtain ⟨j, hj⟩ := List.mem_iff_getElem?.mp h
  have hne : j ≠ i := by
    rintro rfl
    exact hpc (Option.some.inj (hi.symm.trans hj))
  exact List.mem_eraseIdx_iff_getElem?.mpr ⟨j, hne, hj⟩

/-- A turn that respects the mutex keeps what has been read fresh. -/
lemma heard_step {s : Keeper} (h : s.Heard) {t : KeeperTurn} (ht : s.Apart t) :
    (s.step t).Heard := by
  cases t with
  | change snapshot => exact fun _ hlocking => absurd (by simp [step]) hlocking
  | update i =>
      rw [step]
      split
      · exact h
      · next hi =>
          split
          · exact h
          · next hlocked =>
              -- The lock is free, so the loop is not about to sleep.
              intro hnil _
              have hne : s.updates ≠ [] := List.ne_nil_of_mem (List.mem_of_getElem? hi)
              have hblocked : s.pc ≠ .blocked := fun hpc =>
                hne ((List.set_eq_nil_iff _ _).mp (hnil hpc))
              cases hread : s.pc.hasRead with
              | false => exact freshAt_of_hasRead_eq_false hread hblocked
              | true => exact absurd (by rw [locked, ht hi hread]; rfl) hlocked
      · next hi =>
          intro hnil hlocking
          exact h (fun hpc => (List.set_eq_nil_iff _ _).mp (hnil hpc))
            fun hmem => hlocking (locking_mem_set hi (by simp) _ hmem)
      · next hi =>
          intro _ hlocking
          by_cases hpc : s.pc = .blocked
          · exact freshAt_wake (s := s) (by rw [hpc]; rfl)
          · exact (h (fun hblocked => absurd hblocked hpc)
              fun hmem => hlocking (locking_mem_eraseIdx hi (by simp) hmem)).wake
  | getMembers =>
      intro hnil hlocking
      rw [updates_read (.inl rfl)] at hnil hlocking
      refine freshAt_read (h (fun hpc => hnil ?_) hlocking) (.inl rfl)
      rw [step, hpc]
      exact hpc
  | getActorSystems =>
      intro hnil hlocking
      rw [updates_read (.inr rfl)] at hnil hlocking
      refine freshAt_read (h (fun hpc => hnil ?_) hlocking) (.inr rfl)
      rw [step, hpc]
      exact hpc
  | run =>
      intro hnil hlocking
      rw [step, updates_run] at hnil hlocking
      exact freshAt_run (h (fun hpc => hnil (by rw [run_blocked hpc]; exact hpc)) hlocking)
  | wakeUp =>
      intro _ hlocking
      by_cases hpc : s.pc = .blocked
      · exact freshAt_wake (s := s) (by rw [hpc]; rfl)
      · exact (h (fun hblocked => absurd hblocked hpc) hlocking).wake

/-- The loop listens throughout a run in which no `Update` locks the mutex after the loop has begun
to read and before the loop locks it: one that comes while the loop holds the mutex waits until the
loop sleeps, and wakes it. -/
theorem listens_always_of_apart {membership : Snapshot} {ts : List KeeperTurn}
    (h : Run.Each step Apart (start membership) ts) :
    Run.Always step Listens (start membership) ts := by
  have hheard : Run.Always step Heard (start membership) ts :=
    Run.always_of_each (P := Heard) (C := Apart) (fun s t hs ht => heard_step hs ht)
      (fun _ _ => freshAt_start membership) h
  exact hheard.imp fun s hs => hs.listens

end Keeper

end Cdcf
