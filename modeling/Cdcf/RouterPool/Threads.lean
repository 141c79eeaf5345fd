import Cdcf.Library.Run
import Cdcf.RouterPool.Pool

/-!
The threads of a router pool (`router_pool.cc`).

`RouterPool::enqueue` does what it is asked in the thread of the sender, so any number of requests
are under way at once.  A thread is at the place `Pc` between two sections under `actor_lock_`, or
before something that it does without the lock: connect, look a node up, read the size of a node.
Down messages are handled in between, in one section.

What a thread learns from outside comes with the event: whether the gateway can be reached, which
actor has been spawned, which node a loop over the nodes meets next.  An actor that is spawned has
not been there before; an event that says otherwise does not happen.

* `Pc`, `move`: where a thread is, and what it does next.
* `Threads`, `Event`, `step`: the pool with all its threads.
* `move_cases`: what a move can do to the nodes.
* `Standing`, `standing`: what an actor has come to, by what has been reported of it.
* `Sound`, `sound_step`: an actor is in a node exactly if it has been added to it, is not down, and
  the node has not been removed.
* `owned_always`: so no actor is ever left without a node and without having been told to exit.
-/

namespace Cdcf

namespace RouterPool

/-- What is asked of a pool. -/
inductive Request where
  | addNode (host : String) (port : UInt16)
  | deleteNode (host : String) (port : UInt16)
  /-- `ModifyMaxPerNode` for all nodes. -/
  | modifyMax (size : ℕ)
  | modifyMaxPerNode (size : ℕ) (host : String) (port : UInt16)
  deriving DecidableEq, Repr

/-- Where a thread is.  `all` tells whether `ModifyMaxPerNode` for a node has been called by the
loop over all nodes. -/
inductive Pc where
  /-- In `AddNode`, before `GetSpawnActor`. -/
  | connecting (host : String) (port : UInt16)
  /-- In `AddNode`, before the node is looked up. -/
  | looking (key : String)
  /-- In `AddNode`, before the section. -/
  | inserting (key : String)
  /-- In `AddNode`, before `default_actor_num_` is read in the loop. -/
  | testing (key : String) (i : ℕ)
  /-- In `AddNode`, before `AddActor`. -/
  | adding (key : String) (i : ℕ)
  /-- In `DeleteNode`, before the section. -/
  | deleting (host : String) (port : UInt16)
  /-- In `ModifyMaxPerNode`, before `default_actor_num_` is set. -/
  | updating (size : ℕ)
  /-- In `ModifyMaxPerNode`, before the next node. -/
  | iterating (size : ℕ)
  /-- In `ModifyMaxPerNode` for a node, before the node is looked up. -/
  | resizing (size : ℕ) (host : String) (port : UInt16) (all : Bool)
  /-- In `ModifyMaxPerNode` for a node, before `DeleteActor`. -/
  | shrinking (key : String) (size preSize : ℕ) (all : Bool)
  /-- In `ModifyMaxPerNode` for a node, before `GetSpawnActor`. -/
  | reaching (host : String) (port : UInt16) (size preSize : ℕ) (all : Bool)
  /-- In `ModifyMaxPerNode` for a node, before `AddActor`. -/
  | growing (key : String) (size preSize i : ℕ) (all : Bool)
  /-- `ParserNodeKey` has thrown. -/
  | thrown (error : Text.StoiError)
  | returned (result : Bool)
  deriving DecidableEq

namespace Pc

/-- Where the thread of a request starts. -/
def first : Request → Pc
  | .addNode host port => .connecting host port
  | .deleteNode host port => .deleting host port
  | .modifyMax size => .updating size
  | .modifyMaxPerNode size host port => .resizing size host port false

/-- `ModifyMaxPerNode` for a node returns, and the loop over all nodes ignores what. -/
def finish (all : Bool) (size : ℕ) (result : Bool) : Pc :=
  if all then .iterating size else .returned result

end Pc

/-- What a thread learns from outside. -/
structure Answer (ι : Type*) where
  connected : Bool := true
  spawned : Option ι := none
  next : Option String := none

/-- What is reported of the actors. -/
inductive Act (ι : Type*) where
  /-- `AddActor` has returned true. -/
  | added (key : String) (actor : ι)
  /-- The down message of the actor has been processed. -/
  | downed (actor : ι)
  /-- `DeleteNode` has removed the node, and sent this. -/
  | removed (key : String) (sent : List (Effect ι))
  deriving DecidableEq

/-- What comes of a move of a thread. -/
structure Move (ι : Type*) where
  pool : RouterPool ι
  sent : List (Effect ι) := []
  acts : List (Act ι) := []
  pc : Pc

variable {ι : Type*} [DecidableEq ι]

/-- A call of `AddActor` in a loop. -/
def moveAdd (s : RouterPool ι) (spawned : Option ι) (key : String) (next failed : Pc) : Move ι :=
  let added := s.addActor key spawned
  { pool := added.pool
    sent := added.sent
    acts := if added.result then spawned.toList.map (.added key) else []
    pc := if added.result then next else failed }

/-- What a thread does next. -/
def move (s : RouterPool ι) (answer : Answer ι) : Pc → Move ι
  | .connecting host port =>
      { pool := s
        pc := if !host.isEmpty && !answer.connected then .returned false
          else .looking (buildNodeKey host port) }
  | .looking key =>
      { pool := s, pc := if s.nodes_.contains key then .returned false else .inserting key }
  | .inserting key => { pool := s.insertNode key, pc := .testing key 0 }
  | .testing key i =>
      { pool := s, pc := if i < s.defaultActorNum_ then .adding key i else .returned true }
  | .adding key i => s.moveAdd answer.spawned key (.testing key (i + 1)) (.returned false)
  | .deleting host port =>
      let deleted := s.deleteNode host port
      { pool := deleted.pool
        sent := deleted.sent
        acts := if deleted.result then [.removed (buildNodeKey host port) deleted.sent] else []
        pc := .returned deleted.result }
  | .updating size => { pool := { s with defaultActorNum_ := size }, pc := .iterating size }
  | .iterating size =>
      { pool := s
        pc := match answer.next.filter s.nodes_.contains with
          | none => .returned true
          | some key =>
              match parserNodeKey key with
              | .ok (host, port) => .resizing size host port true
              | .error error => .thrown error }
  | .resizing size host port all =>
      { pool := s
        pc := match s.nodes_.get? (buildNodeKey host port) with
          | none => .finish all size false
          | some actorSet =>
              if size < actorSet.size then
                .shrinking (buildNodeKey host port) size actorSet.size all
              else if actorSet.size < size then .reaching host port size actorSet.size all
              else .finish all size true }
  | .shrinking key size preSize all =>
      let deleted := s.deleteActors key (preSize - size)
      { pool := s, sent := deleted.sent, pc := .finish all size deleted.result }
  | .reaching host port size preSize all =>
      { pool := s
        pc := if !(buildNodeKey host port).isEmpty && !(!host.isEmpty && answer.connected) then
            .finish all size false
          else .growing (buildNodeKey host port) size preSize 0 all }
  | .growing key size preSize i all =>
      s.moveAdd answer.spawned key
        (if i + 1 < size - preSize then .growing key size preSize (i + 1) all
          else .finish all size true)
        (.finish all size false)
  | .thrown error => { pool := s, pc := .thrown error }
  | .returned result => { pool := s, pc := .returned result }

/-- A pool with the threads of all requests that it has been sent. -/
structure Threads (ι : Type*) where
  pool : RouterPool ι
  threads : List Pc := []
  /-- What has been asked of the actor system. -/
  sent : List (Effect ι) := []
  /-- What has been reported of the actors. -/
  log : List (Act ι) := []

/-- What happens. -/
inductive Event (ι : Type*) where
  | call (request : Request)
  /-- A thread goes on. -/
  | run (i : ℕ) (answer : Answer ι)
  /-- A down message is processed. -/
  | down (source : ι)
  | rehash (key : String) (order : List ι)

namespace Threads

/-- A pool that has just been made. -/
def start (defaultActorNum : ℕ) : Threads ι := { pool := { defaultActorNum_ := defaultActorNum } }

/-- Thread `i` makes a move. -/
def advance (s : Threads ι) (i : ℕ) (m : Move ι) : Threads ι where
  pool := m.pool
  threads := s.threads.set i m.pc
  sent := s.sent ++ m.sent
  log := s.log ++ m.acts

/-- All requests have been answered. -/
def Done (s : Threads ι) : Prop := ∀ pc ∈ s.threads, ∃ result, pc = .returned result

instance (s : Threads ι) : Decidable s.Done :=
  inferInstanceAs (Decidable (∀ pc ∈ s.threads, ∃ result, pc = .returned result))

/-- What has been spawned, if anything, has not been there before. -/
def IsNew (s : Threads ι) (answer : Answer ι) : Prop := ∀ a ∈ answer.spawned, .put a ∉ s.sent

instance (s : Threads ι) (answer : Answer ι) : Decidable (s.IsNew answer) :=
  inferInstanceAs (Decidable (∀ a ∈ answer.spawned, .put a ∉ s.sent))

/-- An event; a thread that is not there changes nothing. -/
def step (s : Threads ι) : Event ι → Threads ι
  | .call request => { s with threads := s.threads ++ [.first request] }
  | .run i answer =>
      match s.threads[i]? with
      | some pc => if s.IsNew answer then s.advance i (s.pool.move answer pc) else s
      | none => s
  | .down source =>
      { s with
        pool := (s.pool.down source).pool
        sent := s.sent ++ (s.pool.down source).sent
        log := s.log ++ [.downed source] }
  | .rehash key order => { s with pool := s.pool.rehash key order }

end Threads

/-! ### What an actor has come to -/

/-- What an actor has come to. -/
inductive Standing where
  | unknown
  | member (key : String)
  | down
  /-- The node has been removed, and the actor has been told to exit. -/
  | dismissed
  /-- The node has been removed, and the actor has not been told to exit. -/
  | orphaned
  deriving DecidableEq, Repr

/-- What comes of the standing of an actor by a report. -/
def Standing.next (actor : ι) (standing : Standing) : Act ι → Standing
  | .added key a => if a = actor then .member key else standing
  | .downed a =>
      match standing with
      | .member key => if a = actor then .down else .member key
      | standing => standing
  | .removed key sent =>
      if standing = .member key then
        if .userShutdown actor ∈ sent then .dismissed else .orphaned
      else standing

/-- What an actor has come to by what has been reported. -/
def standing (log : List (Act ι)) (actor : ι) : Standing := log.foldl (Standing.next actor) .unknown

/-! ### What a move does to the nodes -/

/-- What a move can do: leave every actor where it is, and tell some to exit; add an actor to a
node; or remove a node, and tell its actors to exit. -/
inductive Change (s : RouterPool ι) (answer : Answer ι) (m : Move ι) : Prop where
  | kept (hacts : m.acts = []) (hholds : ∀ key a, m.pool.Holds key a ↔ s.Holds key a)
      (hsent : ∀ e ∈ m.sent, ∃ key a, e = .userShutdown a ∧ s.Holds key a)
  | added (key : String) (a : ι) (hspawned : answer.spawned = some a)
      (hacts : m.acts = [.added key a]) (hsent : m.sent = [.put a, .monitor a])
      (hholds : ∀ key' b, m.pool.Holds key' b ↔ s.Holds key' b ∨ key = key' ∧ a = b)
  | removed (key : String) (hacts : m.acts = [.removed key m.sent])
      (hholds : ∀ key' a, m.pool.Holds key' a ↔ s.Holds key' a ∧ key' ≠ key)
      (hsent : ∀ e ∈ m.sent, ∃ a, e = .userShutdown a ∧ s.Holds key a)
      (htold : ∀ a, s.Holds key a → .userShutdown a ∈ m.sent)

omit [DecidableEq ι] in
/-- A move that asks for nothing and leaves the nodes as they are. -/
lemma Change.of_eq {s : RouterPool ι} {answer : Answer ι} {m : Move ι} (hacts : m.acts = [])
    (hnodes : m.pool.nodes_ = s.nodes_) (hsent : m.sent = []) : Change s answer m := by
  refine .kept hacts (fun key a => ?_) fun e he => absurd (hsent ▸ he) List.not_mem_nil
  rw [Holds, Holds, hnodes]

omit [DecidableEq ι] in
/-- Whom `DeleteActor` tells to exit. -/
lemma holds_of_mem_deleteActors {s : RouterPool ι} {key : String} {num : ℕ} {e : Effect ι}
    (he : e ∈ (s.deleteActors key num).sent) : ∃ a, e = .userShutdown a ∧ s.Holds key a := by
  rw [deleteActors] at he
  split at he
  · next actorSet hget =>
      obtain ⟨a, ha, rfl⟩ := List.mem_map.mp he
      exact ⟨a, rfl, (Holds.of_get? hget).mpr (List.mem_of_mem_take ha)⟩
  · exact absurd he List.not_mem_nil

lemma change_moveAdd (s : RouterPool ι) (answer : Answer ι) (key : String) (next failed : Pc) :
    Change s answer (s.moveAdd answer.spawned key next failed) := by
  cases hget : s.nodes_.get? key with
  | none =>
      exact .of_eq (by simp [moveAdd, addActor, hget]) (by simp [moveAdd, addActor, hget])
        (by simp [moveAdd, addActor, hget])
  | some actorSet =>
      cases hspawned : answer.spawned with
      | none =>
          exact .of_eq (by simp [moveAdd, addActor]) (by simp [moveAdd, addActor])
            (by simp [moveAdd, addActor])
      | some a =>
          have hresult : (s.addActor key (some a)).result = true := by simp [addActor, hget]
          refine .added key a hspawned (by simp [moveAdd, hresult])
            (by simp [moveAdd, addActor, hget]) fun key' b => ?_
          rw [moveAdd, holds_addActor, hresult, Option.some_inj]
          simp only [true_and]

omit [DecidableEq ι] in
lemma change_deleteNode (s : RouterPool ι) (answer : Answer ι) (host : String) (port : UInt16) :
    Change s answer
      { pool := (s.deleteNode host port).pool
        sent := (s.deleteNode host port).sent
        acts := if (s.deleteNode host port).result then
            [.removed (buildNodeKey host port) (s.deleteNode host port).sent]
          else []
        pc := .returned (s.deleteNode host port).result } := by
  cases hget : s.nodes_.get? (buildNodeKey host port) with
  | none =>
      exact .of_eq (by simp [deleteNode, hget]) (by simp [deleteNode, hget])
        (by simp [deleteNode, hget])
  | some actors =>
      refine .removed (buildNodeKey host port) (by simp [deleteNode, hget])
        (fun key' a => holds_deleteNode s host port key' a) (fun e he => ?_)
        fun a ha => (userShutdown_mem_deleteNode s host port a).mpr ha
      have he' := he
      simp only [deleteNode, hget, List.mem_map] at he'
      obtain ⟨a, -, rfl⟩ := he'
      exact ⟨a, rfl, (userShutdown_mem_deleteNode s host port a).mp he⟩

lemma move_cases (s : RouterPool ι) (answer : Answer ι) (pc : Pc) :
    Change s answer (s.move answer pc) := by
  cases pc with
  | inserting key =>
      exact .kept rfl (fun key' a => holds_insertNode s key key' a)
        fun e he => absurd he List.not_mem_nil
  | adding key i => exact change_moveAdd s answer key _ _
  | growing key size preSize i all => exact change_moveAdd s answer key _ _
  | deleting host port => exact change_deleteNode s answer host port
  | shrinking key size preSize all =>
      exact .kept rfl (fun _ _ => Iff.rfl) fun e he => ⟨key, holds_of_mem_deleteActors he⟩
  | connecting | looking | testing | updating | iterating | resizing | reaching | thrown
  | returned => exact .of_eq rfl rfl rfl

/-! ### No actor is orphaned -/

lemma standing_append (log : List (Act ι)) (act : Act ι) (actor : ι) :
    standing (log ++ [act]) actor = (standing log actor).next actor act := by
  rw [standing, standing, List.foldl_append, List.foldl_cons, List.foldl_nil]

namespace Threads

/-- The nodes hold those actors that by the reports are members of them, no actor has been orphaned,
and what has been asked of the actor system fits. -/
structure Sound (s : Threads ι) : Prop where
  holds : ∀ (key : String) (a : ι), s.pool.Holds key a ↔ standing s.log a = .member key
  kept : ∀ a : ι, standing s.log a ≠ .orphaned
  put : ∀ a : ι, standing s.log a ≠ .unknown → .put a ∈ s.sent
  put_of_told : ∀ a : ι, .userShutdown a ∈ s.sent → .put a ∈ s.sent
  told : ∀ a : ι, standing s.log a = .dismissed → .userShutdown a ∈ s.sent

lemma Sound.disjoint {s : Threads ι} (h : s.Sound) : s.pool.Disjoint := by
  intro key key' a hkey hkey'
  exact Standing.member.inj (((h.holds key a).mp hkey).symm.trans ((h.holds key' a).mp hkey'))

/-- What a node holds has been put into the pool. -/
lemma Sound.put_of_holds {s : Threads ι} (h : s.Sound) {key : String} {a : ι}
    (hholds : s.pool.Holds key a) : .put a ∈ s.sent :=
  h.put a (by simp [(h.holds key a).mp hholds])

/-- Nothing is reported, every actor stays where it is, and only actors in nodes are told to
exit. -/
lemma Sound.keep {s s' : Threads ι} (h : s.Sound) (hlog : s'.log = s.log)
    (hholds : ∀ key a, s'.pool.Holds key a ↔ s.pool.Holds key a) {new : List (Effect ι)}
    (hsent : s'.sent = s.sent ++ new)
    (hnew : ∀ e ∈ new, ∃ key a, e = .userShutdown a ∧ s.pool.Holds key a) : s'.Sound := by
  have hmono : ∀ {e}, e ∈ s.sent → e ∈ s'.sent := fun he => hsent ▸ List.mem_append_left new he
  refine ⟨fun key a => ?_, fun a => ?_, fun a hknown => ?_, fun a htold => ?_, fun a hout => ?_⟩
  · rw [hholds, hlog]
    exact h.holds key a
  · rw [hlog]
    exact h.kept a
  · exact hmono (h.put a (hlog ▸ hknown))
  · rw [hsent] at htold
    rcases List.mem_append.mp htold with htold | htold
    · exact hmono (h.put_of_told a htold)
    · obtain ⟨key, a', heq, hheld⟩ := hnew _ htold
      obtain rfl : a = a' := by simpa using heq
      exact hmono (h.put_of_holds hheld)
  · exact hmono (h.told a (hlog ▸ hout))

/-- An actor that has not been there before is added to a node. -/
lemma Sound.add {s s' : Threads ι} (h : s.Sound) {key : String} {a : ι} (hnew : .put a ∉ s.sent)
    (hlog : s'.log = s.log ++ [.added key a])
    (hholds : ∀ key' b, s'.pool.Holds key' b ↔ s.pool.Holds key' b ∨ key = key' ∧ a = b)
    (hsent : s'.sent = s.sent ++ [.put a, .monitor a]) : s'.Sound := by
  have hunknown : standing s.log a = .unknown := not_imp_comm.mp (h.put a) hnew
  have hstanding : ∀ b, standing s'.log b = if a = b then .member key else standing s.log b :=
    fun b => by rw [hlog, standing_append, Standing.next]
  have hmono : ∀ {e}, e ∈ s.sent → e ∈ s'.sent := fun he => hsent ▸ List.mem_append_left _ he
  refine ⟨fun key' b => ?_, fun b => ?_, fun b hknown => ?_, fun b htold => ?_, fun b hout => ?_⟩
  · rw [hholds, hstanding, h.holds]
    split
    · next heq => simp [← heq, hunknown]
    · next hne => simp [hne]
  · rw [hstanding]
    split
    · simp
    · exact h.kept b
  · rw [hstanding] at hknown
    split at hknown
    · next heq => simp [hsent, heq]
    · exact hmono (h.put b hknown)
  · rw [hsent] at htold
    exact hmono (h.put_of_told b (by simpa using htold))
  · rw [hstanding] at hout
    split at hout
    · exact absurd hout (by simp)
    · exact hmono (h.told b hout)

/-- A node is removed, and its actors are told to exit. -/
lemma Sound.remove {s s' : Threads ι} (h : s.Sound) {key : String} {new : List (Effect ι)}
    (hlog : s'.log = s.log ++ [.removed key new])
    (hholds : ∀ key' a, s'.pool.Holds key' a ↔ s.pool.Holds key' a ∧ key' ≠ key)
    (hsent : s'.sent = s.sent ++ new)
    (hnew : ∀ e ∈ new, ∃ a, e = .userShutdown a ∧ s.pool.Holds key a)
    (htold : ∀ a, s.pool.Holds key a → .userShutdown a ∈ new) : s'.Sound := by
  have hstanding : ∀ a, standing s'.log a
      = if standing s.log a = .member key then .dismissed else standing s.log a := by
    intro a
    rw [hlog, standing_append, Standing.next]
    split
    · next hmember => rw [if_pos (htold a ((h.holds key a).mpr hmember))]
    · rfl
  have hmono : ∀ {e}, e ∈ s.sent → e ∈ s'.sent := fun he => hsent ▸ List.mem_append_left new he
  refine ⟨fun key' a => ?_, fun a => ?_, fun a hknown => ?_, fun a hshut => ?_, fun a hout => ?_⟩
  · rw [hholds, hstanding, h.holds]
    split
    · next hmember => simp [hmember, eq_comm]
    · next hmember => exact and_iff_left_of_imp fun hmember' heq => hmember (heq ▸ hmember')
  · rw [hstanding]
    split
    · simp
    · exact h.kept a
  · refine hmono (h.put a fun hunknown => hknown ?_)
    rw [hstanding, hunknown, if_neg (by simp)]
  · rw [hsent] at hshut
    rcases List.mem_append.mp hshut with hshut | hshut
    · exact hmono (h.put_of_told a hshut)
    · obtain ⟨a', heq, hheld⟩ := hnew _ hshut
      obtain rfl : a = a' := by simpa using heq
      exact hmono (h.put_of_holds hheld)
  · rw [hstanding] at hout
    split at hout
    · next hmember =>
        rw [hsent]
        exact List.mem_append_right _ (htold a ((h.holds key a).mpr hmember))
    · exact hmono (h.told a hout)

/-- A down message is processed. -/
lemma Sound.down {s : Threads ι} (h : s.Sound) (source : ι) : (s.step (.down source)).Sound := by
  have hstanding : ∀ a, standing (s.step (.down source)).log a
      = match standing s.log a with
        | .member key => if source = a then .down else .member key
        | standing => standing :=
    fun a => by
      rw [step, standing_append]
      rfl
  have hmono : ∀ {e}, e ∈ s.sent → e ∈ (s.step (.down source)).sent :=
    fun he => List.mem_append_left _ he
  refine ⟨fun key a => ?_, fun a => ?_, fun a hknown => ?_, fun a htold => ?_, fun a hout => ?_⟩
  · rw [hstanding]
    refine (holds_down h.disjoint source key a).trans ?_
    rw [h.holds]
    cases standing s.log a with
    | member key' => by_cases heq : source = a <;> simp [heq, eq_comm]
    | unknown | down | dismissed | orphaned => simp
  · rw [hstanding]
    have hkept := h.kept a
    revert hkept
    cases standing s.log a with
    | member key' => by_cases heq : source = a <;> simp [heq]
    | unknown | down | dismissed | orphaned => simp
  · refine hmono (h.put a fun hunknown => hknown ?_)
    simp only [hstanding, hunknown]
  · refine hmono (h.put_of_told a ?_)
    rcases List.mem_append.mp htold with htold | htold
    · exact htold
    · exact absurd htold (notMem_sent_down s.pool source a).2
  · refine hmono (h.told a ?_)
    rw [hstanding] at hout
    revert hout
    cases standing s.log a with
    | member key' => by_cases heq : source = a <;> simp [heq]
    | unknown | down | dismissed | orphaned => simp

/-- A thread that goes on makes its move.  One that is not there, or is given an actor that has been
there before, changes nothing. -/
lemma run_cases (s : Threads ι) (i : ℕ) (answer : Answer ι) :
    (∃ pc, s.threads[i]? = some pc ∧ s.IsNew answer
        ∧ s.step (.run i answer) = s.advance i (s.pool.move answer pc))
      ∨ s.step (.run i answer) = s ∧ (s.threads[i]? = none ∨ ¬s.IsNew answer) := by
  cases hpc : s.threads[i]? with
  | none => exact Or.inr ⟨by simp only [step, hpc], Or.inl rfl⟩
  | some pc =>
      by_cases hnew : s.IsNew answer
      · exact Or.inl ⟨pc, rfl, hnew, by simp only [step, hpc, if_pos hnew]⟩
      · exact Or.inr ⟨by simp only [step, hpc, if_neg hnew], Or.inr hnew⟩

lemma sound_start (defaultActorNum : ℕ) : (start defaultActorNum : Threads ι).Sound where
  holds key a := by simp [start, Holds, standing]
  kept a := by simp [start, standing]
  put a := by simp [start, standing]
  put_of_told a := by simp [start]
  told a := by simp [start, standing]

lemma sound_step {s : Threads ι} (h : s.Sound) (e : Event ι) : (s.step e).Sound := by
  cases e with
  | call request =>
      exact h.keep rfl (fun _ _ => Iff.rfl) (List.append_nil _).symm
        fun e he => absurd he List.not_mem_nil
  | run i answer =>
      rcases s.run_cases i answer with ⟨pc, -, hnew, hstep⟩ | ⟨hstep, -⟩
      · rw [hstep]
        cases move_cases s.pool answer pc with
        | kept hacts hholds hsent =>
            exact h.keep (by rw [advance, hacts, List.append_nil]) hholds rfl hsent
        | added key a hspawned hacts hsent hholds =>
            exact h.add (hnew a hspawned) (by rw [advance, hacts]) hholds (by rw [advance, hsent])
        | removed key hacts hholds hsent htold =>
            exact h.remove (by rw [advance, hacts]) hholds rfl hsent htold
      · rwa [hstep]
  | down source => exact h.down source
  | rehash key order =>
      exact h.keep rfl (fun key' a => holds_rehash s.pool key key' order a)
        (List.append_nil _).symm fun e he => absurd he List.not_mem_nil

/-- Every state that the threads come to is sound. -/
lemma sound_always (defaultActorNum : ℕ) (es : List (Event ι)) :
    Run.Always step Sound (start defaultActorNum) es :=
  Run.always_of_inv (P := Sound) (fun _ e h => sound_step h e) (sound_start defaultActorNum) es

/-- What a step asks for.  Whoever it puts into the pool has not been told to exit. -/
lemma sent_step {s : Threads ι} (h : s.Sound) (e : Event ι) :
    ∃ new, (s.step e).sent = s.sent ++ new
      ∧ ∀ a, .put a ∈ new → .userShutdown a ∉ s.sent ++ new := by
  have hnothing : ∃ new, s.sent = s.sent ++ new
      ∧ ∀ a, .put a ∈ new → .userShutdown a ∉ s.sent ++ new :=
    ⟨[], (List.append_nil _).symm, fun a ha => absurd ha List.not_mem_nil⟩
  cases e with
  | call request => exact hnothing
  | rehash key order => exact hnothing
  | down source =>
      exact ⟨(s.pool.down source).sent, rfl,
        fun a ha => absurd ha (notMem_sent_down s.pool source a).1⟩
  | run i answer =>
      rcases s.run_cases i answer with ⟨pc, -, hnew, hstep⟩ | ⟨hstep, -⟩
      · rw [hstep]
        refine ⟨(s.pool.move answer pc).sent, rfl, fun a ha => ?_⟩
        cases move_cases s.pool answer pc with
        | kept hacts hholds hsent =>
            obtain ⟨key, b, heq, -⟩ := hsent _ ha
            exact absurd heq (by simp)
        | added key b hspawned hacts hsent hholds =>
            rw [hsent] at ha ⊢
            obtain rfl : a = b := by simpa using ha
            have hout : .userShutdown a ∉ s.sent := fun htold =>
              hnew a hspawned (h.put_of_told a htold)
            simpa using hout
        | removed key hacts hholds hsent htold =>
            obtain ⟨b, heq, -⟩ := hsent _ ha
            exact absurd heq (by simp)
      · rw [hstep]
        exact hnothing

/-- Every actor that has been added is in the set of one node until it is down or its node is
removed, and in the latter case it is told to exit; so every such actor is listed once, and no actor
for two nodes. -/
structure Owned (s : Threads ι) : Prop where
  holds : ∀ (key : String) (a : ι), s.pool.Holds key a ↔ standing s.log a = .member key
  kept : ∀ a : ι, standing s.log a ≠ .orphaned
  told : ∀ a : ι, standing s.log a = .dismissed → .userShutdown a ∈ s.sent
  listed : ∀ a : ι, a ∈ s.pool.getActors ↔ ∃ key, standing s.log a = .member key
  once : s.pool.getActors.Nodup
  disjoint : ∀ host port host' port', buildNodeKey host port ≠ buildNodeKey host' port' →
    (s.pool.getActorsOf host port).Disjoint (s.pool.getActorsOf host' port')

lemma Sound.owned {s : Threads ι} (h : s.Sound) : s.Owned where
  holds := h.holds
  kept := h.kept
  told := h.told
  listed a := by simp only [mem_getActors, h.holds]
  once := nodup_getActors h.disjoint
  disjoint host port host' port' hne a ha ha' :=
    hne (h.disjoint _ _ a (mem_getActorsOf.mp ha) (mem_getActorsOf.mp ha'))

/-- **No orphaned worker.**  Whatever requests and down messages there are, and however they
overlap, no actor falls out of the nodes without being down or having been told to exit. -/
theorem owned_always (defaultActorNum : ℕ) (es : List (Event ι)) :
    Run.Always step Owned (start defaultActorNum) es :=
  (sound_always defaultActorNum es).imp fun _ h => h.owned

end Threads

end RouterPool

end Cdcf
