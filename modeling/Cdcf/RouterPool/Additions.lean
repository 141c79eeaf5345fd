import Mathlib.Algebra.Order.BigOperators.Group.List
import Cdcf.Library.Threads
import Cdcf.RouterPool.Threads

/-!
Several threads adding one node (`router_pool.cc`).

`AddNode` looks the node up without the lock and inserts it in a section of its own.  Here nothing
is asked of a new pool but to add one node, any number of times, the gateway can be reached and all
actors can be spawned.

* `Turn`, `step`: the threads of `Threads` with these requests only.
* `passed`, `spawnedBy`: whether a thread has not found the node, and how many actors it has added.
* `Sound`, `sound_step`: the actors of the node are those that the threads have added.
* `addedOnce_iff`: one request succeeds and the node has as many actors as are wanted, exactly if no
  thread misses the node while another is about to insert it.
-/

namespace Cdcf

namespace RouterPool

namespace Additions

variable {ι : Type*} [DecidableEq ι]

/-- What happens. -/
inductive Turn (ι : Type*) where
  /-- A request to add the node. -/
  | call
  /-- A thread goes on; `spawned` is spawned for it if it needs an actor. -/
  | run (i : ℕ) (spawned : ι)
  | rehash (order : List ι)

/-- What it is for the threads. -/
def Turn.event (host : String) (port : UInt16) : Turn ι → Event ι
  | .call => .call (.addNode host port)
  | .run i spawned => .run i { connected := true, spawned := some spawned }
  | .rehash order => .rehash (buildNodeKey host port) order

/-- A turn, where the node to add is that of `host` and `port`. -/
def step (host : String) (port : UInt16) (s : Threads ι) (turn : Turn ι) : Threads ι :=
  s.step (turn.event host port)

/-- One request has succeeded, and the node has as many actors as are wanted. -/
def AddedOnce (key : String) (defaultActorNum : ℕ) (s : Threads ι) : Prop :=
  s.threads.count (.returned true) = 1
    ∧ ∃ actorSet, s.pool.nodes_.get? key = some actorSet ∧ actorSet.size = defaultActorNum

/-- A thread looks the node up and misses it. -/
def Misses (key : String) (s : Threads ι) : Turn ι → Prop
  | .run i spawned => s.threads[i]? = some (.looking key) ∧ .put spawned ∉ s.sent
      ∧ s.pool.nodes_.contains key = false
  | _ => False

/-- No thread misses the node while another is about to insert it. -/
def MissesAlone (key : String) (s : Threads ι) (turn : Turn ι) : Prop :=
  Misses key s turn → .inserting key ∉ s.threads

instance (key : String) (s : Threads ι) : ∀ turn, Decidable (Misses key s turn)
  | .run _ _ => inferInstanceAs (Decidable (_ ∧ _ ∧ _))
  | .call | .rehash _ => inferInstanceAs (Decidable False)

instance (key : String) (s : Threads ι) (turn : Turn ι) : Decidable (MissesAlone key s turn) :=
  inferInstanceAs (Decidable (_ → _))

/-! ### The places of the threads -/

/-- The thread has missed the node and goes on to add it. -/
def passed : Pc → ℕ
  | .inserting _ | .testing _ _ | .adding _ _ | .returned true => 1
  | _ => 0

/-- How many actors the thread has added. -/
def spawnedBy (defaultActorNum : ℕ) : Pc → ℕ
  | .testing _ i | .adding _ i => i
  | .returned true => defaultActorNum
  | _ => 0

/-- The places that a thread comes through. -/
def OnWay (host : String) (port : UInt16) (defaultActorNum : ℕ) : Pc → Prop
  | .connecting host' port' => host' = host ∧ port' = port
  | .looking key | .inserting key => key = buildNodeKey host port
  | .testing key i => key = buildNodeKey host port ∧ i ≤ defaultActorNum
  | .adding key i => key = buildNodeKey host port ∧ i < defaultActorNum
  | .returned _ => True
  | _ => False

/-- The thread has not come through the section of `AddNode`, nor found the node. -/
def Early : Pc → Prop
  | .connecting _ _ | .looking _ | .inserting _ => True
  | _ => False

/-- Where the threads are fits what is in the node. -/
structure Sound (host : String) (port : UInt16) (defaultActorNum : ℕ) (s : Threads ι) : Prop where
  base : s.Sound
  default : s.pool.defaultActorNum_ = defaultActorNum
  onWay : ∀ pc ∈ s.threads, OnWay host port defaultActorNum pc
  early : s.pool.nodes_.get? (buildNodeKey host port) = none → ∀ pc ∈ s.threads, Early pc
  size : ∀ actorSet, s.pool.nodes_.get? (buildNodeKey host port) = some actorSet →
    actorSet.size = (s.threads.map (spawnedBy defaultActorNum)).sum
  present : ∀ actorSet, s.pool.nodes_.get? (buildNodeKey host port) = some actorSet →
    1 ≤ (s.threads.map passed).sum

lemma spawnedBy_of_early {defaultActorNum : ℕ} {pc : Pc} (h : Early pc) :
    spawnedBy defaultActorNum pc = 0 := by
  cases pc <;> first | rfl | exact h.elim

section

variable {host : String} {port : UInt16} {defaultActorNum : ℕ}

lemma sound_start :
    Sound host port defaultActorNum (Threads.start defaultActorNum : Threads ι) where
  base := Threads.sound_start defaultActorNum
  default := rfl
  onWay pc hpc := absurd hpc List.not_mem_nil
  early _ pc hpc := absurd hpc List.not_mem_nil
  size actorSet hget := by simp [Threads.start] at hget
  present actorSet hget := by simp [Threads.start] at hget

/-- A thread moves and leaves the node as it is. -/
lemma Sound.goTo {s : Threads ι} (h : Sound host port defaultActorNum s) {i : ℕ} {m : Move ι}
    (hbase : (s.advance i m).Sound) {pc pc' : Pc} (hpc : s.threads[i]? = some pc)
    (hmove : m.pc = pc') (hpool : m.pool = s.pool) (hway : OnWay host port defaultActorNum pc')
    (hearly : s.pool.nodes_.get? (buildNodeKey host port) = none → Early pc')
    (hspawned : spawnedBy defaultActorNum pc' = spawnedBy defaultActorNum pc)
    (hpassed : passed pc ≤ passed pc') : Sound host port defaultActorNum (s.advance i m) := by
  have hpool : (s.advance i m).pool = s.pool := hpool
  have hthreads : (s.advance i m).threads = s.threads.set i pc' := by rw [Threads.advance, hmove]
  have hsize := sum_map_set hpc (spawnedBy defaultActorNum) pc'
  have hcount := sum_map_set hpc passed pc'
  refine ⟨hbase, hpool ▸ h.default, fun pc'' hmem => ?_, fun hnone pc'' hmem => ?_,
    fun actorSet hget => ?_, fun actorSet hget => ?_⟩
  · rcases List.mem_or_eq_of_mem_set (hthreads ▸ hmem) with hold | rfl
    · exact h.onWay _ hold
    · exact hway
  · rw [hpool] at hnone
    rcases List.mem_or_eq_of_mem_set (hthreads ▸ hmem) with hold | rfl
    · exact h.early hnone _ hold
    · exact hearly hnone
  · rw [hpool] at hget
    rw [h.size actorSet hget, hthreads]
    omega
  · rw [hpool] at hget
    have hpresent := h.present actorSet hget
    rw [hthreads]
    omega

omit [DecidableEq ι] in
lemma passed_le_sum {s : Threads ι} {pc : Pc} (hpc : pc ∈ s.threads) :
    passed pc ≤ (s.threads.map passed).sum :=
  List.le_sum_of_mem (List.mem_map_of_mem hpc)

omit [DecidableEq ι] in
lemma sum_spawnedBy_of_early {s : Threads ι} (h : ∀ pc ∈ s.threads, Early pc) :
    (s.threads.map (spawnedBy defaultActorNum)).sum = 0 := by
  refine List.sum_eq_zero fun n hn => ?_
  obtain ⟨pc, hpc, rfl⟩ := List.mem_map.mp hn
  exact spawnedBy_of_early (h pc hpc)

/-- A thread comes through the section of `AddNode`. -/
lemma Sound.insert {s : Threads ι} (h : Sound host port defaultActorNum s) {i : ℕ} {m : Move ι}
    (hbase : (s.advance i m).Sound)
    (hpc : s.threads[i]? = some (.inserting (buildNodeKey host port)))
    (hmove : m.pc = .testing (buildNodeKey host port) 0)
    (hpool : m.pool = s.pool.insertNode (buildNodeKey host port)) :
    Sound host port defaultActorNum (s.advance i m) := by
  have hthreads : (s.advance i m).threads
      = s.threads.set i (.testing (buildNodeKey host port) 0) := by rw [Threads.advance, hmove]
  cases hthere : s.pool.nodes_.contains (buildNodeKey host port) with
  | true =>
      refine h.goTo hbase hpc hmove (by rw [hpool, insertNode, if_pos hthere])
        ⟨rfl, Nat.zero_le _⟩ (fun hnone => ?_) rfl le_rfl
      rw [OrderedMap.get?_eq_none.mp hnone] at hthere
      exact absurd hthere Bool.false_ne_true
  | false =>
      have hearly := h.early (OrderedMap.get?_eq_none.mpr hthere)
      have hget : (s.advance i m).pool.nodes_.get? (buildNodeKey host port) = some .empty := by
        rw [Threads.advance, hpool, get?_insertNode hthere]
      have hsize := sum_map_set hpc (spawnedBy defaultActorNum)
        (.testing (buildNodeKey host port) 0)
      have hcount := sum_map_set hpc passed (.testing (buildNodeKey host port) 0)
      refine ⟨hbase, ?_, fun pc hmem => ?_, fun hnone => ?_, fun actorSet hset => ?_,
        fun actorSet hset => ?_⟩
      · rw [Threads.advance, hpool, insertNode, if_neg (by simp [hthere])]
        exact h.default
      · rcases List.mem_or_eq_of_mem_set (hthreads ▸ hmem) with hold | rfl
        · exact h.onWay _ hold
        · exact ⟨rfl, Nat.zero_le _⟩
      · exact absurd (hget.symm.trans hnone) (Option.some_ne_none _)
      · obtain rfl : UnorderedSet.empty = actorSet := Option.some_inj.mp (hget.symm.trans hset)
        rw [sum_spawnedBy_of_early hearly] at hsize
        rw [hthreads]
        exact (by simpa [spawnedBy] using hsize : _ = 0).symm
      · have hone := passed_le_sum (List.mem_of_getElem? hpc)
        rw [hthreads]
        simp only [passed] at hcount hone
        omega

/-- A thread has an actor added. -/
lemma Sound.add {s : Threads ι} (h : Sound host port defaultActorNum s) {i n : ℕ} {m : Move ι}
    (hbase : (s.advance i m).Sound)
    (hpc : s.threads[i]? = some (.adding (buildNodeKey host port) n))
    {actorSet : UnorderedSet ι} (hget : s.pool.nodes_.get? (buildNodeKey host port) = some actorSet)
    {spawned : ι} (hnew : spawned ∉ actorSet)
    (hmove : m.pc = .testing (buildNodeKey host port) (n + 1))
    (hpool : m.pool = { s.pool with
      nodes_ := s.pool.nodes_.assign (buildNodeKey host port) (actorSet.insert spawned) }) :
    Sound host port defaultActorNum (s.advance i m) := by
  have hthreads : (s.advance i m).threads
      = s.threads.set i (.testing (buildNodeKey host port) (n + 1)) := by
    rw [Threads.advance, hmove]
  have hsize := sum_map_set hpc (spawnedBy defaultActorNum)
    (.testing (buildNodeKey host port) (n + 1))
  have hcount := sum_map_set hpc passed (.testing (buildNodeKey host port) (n + 1))
  have hget' : (s.advance i m).pool.nodes_.get? (buildNodeKey host port)
      = some (actorSet.insert spawned) := by
    rw [Threads.advance, hpool]
    exact OrderedMap.get?_assign_self s.pool.nodes_ (buildNodeKey host port) _
  have hway : OnWay host port defaultActorNum (.adding (buildNodeKey host port) n) :=
    h.onWay _ (List.mem_of_getElem? hpc)
  refine ⟨hbase, by rw [Threads.advance, hpool]; exact h.default, fun pc hmem => ?_,
    fun hnone => ?_, fun actorSet' hset => ?_, fun _ _ => ?_⟩
  · rcases List.mem_or_eq_of_mem_set (hthreads ▸ hmem) with hold | rfl
    · exact h.onWay _ hold
    · exact ⟨rfl, hway.2⟩
  · exact absurd (hget'.symm.trans hnone) (Option.some_ne_none _)
  · obtain rfl : actorSet.insert spawned = actorSet' := Option.some_inj.mp (hget'.symm.trans hset)
    rw [UnorderedSet.size_insert hnew, h.size actorSet hget, hthreads]
    simp only [spawnedBy] at hsize
    omega
  · have hpresent := h.present actorSet hget
    rw [hthreads]
    simp only [passed] at hcount
    omega

/-- A thread that has missed the node, while nobody has inserted it, counts from now on. -/
lemma sound_run {s : Threads ι} (h : Sound host port defaultActorNum s) {i : ℕ} {spawned : ι}
    {pc : Pc} (hpc : s.threads[i]? = some pc) (hnew : .put spawned ∉ s.sent)
    (hbase : (s.advance i (s.pool.move { spawned := some spawned } pc)).Sound) :
    Sound host port defaultActorNum (s.advance i (s.pool.move { spawned := some spawned } pc))
      ∧ passed (s.pool.move { spawned := some spawned } pc).pc = passed pc
        + if pc = .looking (buildNodeKey host port)
            ∧ s.pool.nodes_.contains (buildNodeKey host port) = false then 1 else 0 := by
  have hway := h.onWay pc (List.mem_of_getElem? hpc)
  cases pc with
  | connecting host' port' =>
      obtain ⟨rfl, rfl⟩ := hway
      have hmove : (s.pool.move { spawned := some spawned } (.connecting host' port')).pc
          = .looking (buildNodeKey host' port') := by simp [move]
      exact ⟨h.goTo hbase hpc hmove rfl rfl (fun _ => trivial) rfl le_rfl,
        by simp [hmove, passed]⟩
  | looking key =>
      obtain rfl : key = _ := hway
      cases hthere : s.pool.nodes_.contains (buildNodeKey host port) with
      | true =>
          have hmove : (s.pool.move { spawned := some spawned }
              (.looking (buildNodeKey host port))).pc = .returned false := by simp [move, hthere]
          refine ⟨h.goTo hbase hpc hmove rfl trivial (fun hnone => ?_) rfl le_rfl,
            by simp [hmove, passed]⟩
          rw [OrderedMap.get?_eq_none.mp hnone] at hthere
          exact absurd hthere Bool.false_ne_true
      | false =>
          have hmove : (s.pool.move { spawned := some spawned }
              (.looking (buildNodeKey host port))).pc = .inserting (buildNodeKey host port) := by
            simp [move, hthere]
          exact ⟨h.goTo hbase hpc hmove rfl rfl (fun _ => trivial) rfl
            (Nat.zero_le _), by simp [hmove, passed]⟩
  | inserting key =>
      obtain rfl : key = _ := hway
      exact ⟨h.insert hbase hpc rfl rfl, by simp [move, passed]⟩
  | testing key n =>
      obtain ⟨rfl, hle⟩ := hway
      have hsome : s.pool.nodes_.get? (buildNodeKey host port) ≠ none :=
        fun hnone => h.early hnone _ (List.mem_of_getElem? hpc)
      by_cases hlt : n < defaultActorNum
      · have hmove : (s.pool.move { spawned := some spawned }
            (.testing (buildNodeKey host port) n)).pc = .adding (buildNodeKey host port) n := by
          simp [move, h.default, hlt]
        exact ⟨h.goTo hbase hpc hmove rfl ⟨rfl, hlt⟩
          (fun hnone => absurd hnone hsome) rfl le_rfl, by simp [hmove, passed]⟩
      · have hmove : (s.pool.move { spawned := some spawned }
            (.testing (buildNodeKey host port) n)).pc = .returned true := by
          simp [move, h.default, hlt]
        exact ⟨h.goTo hbase hpc hmove rfl trivial
          (fun hnone => absurd hnone hsome) (le_antisymm (not_lt.mp hlt) hle) le_rfl,
          by simp [hmove, passed]⟩
  | adding key n =>
      obtain ⟨rfl, hlt⟩ := hway
      cases hget : s.pool.nodes_.get? (buildNodeKey host port) with
      | none => exact (h.early hget _ (List.mem_of_getElem? hpc)).elim
      | some actorSet =>
          have hnotMem : spawned ∉ actorSet := fun hmem =>
            hnew (h.base.put_of_holds ((Holds.of_get? hget).mpr hmem))
          have hmove : (s.pool.move { spawned := some spawned }
                (.adding (buildNodeKey host port) n)).pc
              = .testing (buildNodeKey host port) (n + 1) := by simp [move, moveAdd, addActor, hget]
          exact ⟨h.add hbase hpc hget hnotMem hmove (by simp [move, moveAdd, addActor, hget]),
            by simp [hmove, passed]⟩
  | returned result =>
      exact ⟨h.goTo hbase hpc rfl rfl trivial
        (fun hnone => (h.early hnone _ (List.mem_of_getElem? hpc)).elim) rfl le_rfl,
        by simp [move]⟩
  | deleting | updating | iterating | resizing | shrinking | reaching | growing | thrown =>
      exact hway.elim

lemma sound_step {s : Threads ι} (h : Sound host port defaultActorNum s) (turn : Turn ι) :
    Sound host port defaultActorNum (step host port s turn) := by
  have hbase := Threads.sound_step h.base (turn.event host port)
  cases turn with
  | call =>
      have hthreads : (step host port s .call).threads = s.threads ++ [.connecting host port] := rfl
      refine ⟨hbase, h.default, fun pc hpc => ?_, fun hnone pc hpc => ?_, fun actorSet hget => ?_,
        fun actorSet hget => ?_⟩
      · rcases List.mem_append.mp hpc with hold | hnew
        · exact h.onWay pc hold
        · rw [List.mem_singleton.mp hnew]
          exact ⟨rfl, rfl⟩
      · rcases List.mem_append.mp hpc with hold | hnew
        · exact h.early hnone pc hold
        · rw [List.mem_singleton.mp hnew]
          trivial
      · rw [hthreads, List.map_append, List.sum_append, h.size actorSet hget]
        rfl
      · rw [hthreads, List.map_append, List.sum_append]
        exact Nat.le_add_right_of_le (h.present actorSet hget)
  | run i spawned =>
      rw [step, Turn.event]
      rcases s.run_cases i { spawned := some spawned } with ⟨pc, hpc, hnew, hstep⟩ | ⟨hstep, -⟩
      · rw [hstep]
        exact (sound_run h hpc (hnew spawned rfl) (hstep ▸ hbase)).1
      · rwa [hstep]
  | rehash order =>
      have hpool : (step host port s (.rehash order)).pool
          = s.pool.rehash (buildNodeKey host port) order := rfl
      cases hget : s.pool.nodes_.get? (buildNodeKey host port) with
      | none =>
          have hsame : s.pool.rehash (buildNodeKey host port) order = s.pool := by
            simp only [rehash, hget]
          rw [← hpool] at hsame
          exact ⟨hbase, hsame ▸ h.default, h.onWay, hsame ▸ h.early, hsame ▸ h.size,
            hsame ▸ h.present⟩
      | some actorSet =>
          have hget' : (step host port s (.rehash order)).pool.nodes_.get? (buildNodeKey host port)
              = some (actorSet.rehash order) := by
            simp only [hpool, rehash, hget]
            exact OrderedMap.get?_assign_self s.pool.nodes_ (buildNodeKey host port) _
          refine ⟨hbase, ?_, h.onWay,
            fun hnone => absurd (hget'.symm.trans hnone) (Option.some_ne_none _),
            fun actorSet' hset => ?_, fun _ _ => h.present actorSet hget⟩
          · simp only [hpool, rehash, hget]
            exact h.default
          · obtain rfl := Option.some_inj.mp (hget'.symm.trans hset)
            rw [UnorderedSet.size_rehash]
            exact h.size actorSet hget

/-- One more thread has passed if it has missed the node, and else none. -/
lemma sum_passed_step {s : Threads ι} (h : Sound host port defaultActorNum s) (turn : Turn ι) :
    (Misses (buildNodeKey host port) s turn →
        ((step host port s turn).threads.map passed).sum = (s.threads.map passed).sum + 1)
      ∧ (¬Misses (buildNodeKey host port) s turn →
        ((step host port s turn).threads.map passed).sum = (s.threads.map passed).sum) := by
  have hbase := Threads.sound_step h.base (turn.event host port)
  cases turn with
  | call =>
      refine ⟨False.elim, fun _ => ?_⟩
      show ((s.threads ++ [Pc.connecting host port]).map passed).sum = _
      rw [List.map_append, List.sum_append]
      rfl
  | rehash order => exact ⟨False.elim, fun _ => rfl⟩
  | run i spawned =>
      rw [step, Turn.event]
      rcases s.run_cases i { spawned := some spawned } with
        ⟨pc, hpc, hnew, hstep⟩ | ⟨hstep, hstuck⟩
      · obtain ⟨-, hpassed⟩ := sound_run h hpc (hnew spawned rfl) (hstep ▸ hbase)
        have hsum : ((s.advance i (s.pool.move { spawned := some spawned } pc)).threads.map
            passed).sum + passed pc = _ := sum_map_set hpc passed _
        have hmiss : Misses (buildNodeKey host port) s (.run i spawned)
            ↔ pc = .looking (buildNodeKey host port)
              ∧ s.pool.nodes_.contains (buildNodeKey host port) = false := by
          rw [Misses, hpc, Option.some_inj]
          exact and_congr_right fun _ => and_iff_right (hnew spawned rfl)
        rw [hstep, hmiss]
        constructor
        · intro hyes
          rw [if_pos hyes] at hpassed
          omega
        · intro hno
          rw [if_neg hno] at hpassed
          omega
      · rw [hstep]
        refine ⟨fun hmiss => ?_, fun _ => rfl⟩
        rcases hstuck with hnone | hold
        · exact absurd (hmiss.1.symm.trans hnone) (Option.some_ne_none _)
        · refine absurd (fun a ha => ?_) hold
          obtain rfl : spawned = a := Option.mem_some_iff.mp ha
          exact hmiss.2.1

lemma sum_passed_le {s : Threads ι} (h : Sound host port defaultActorNum s) (turn : Turn ι) :
    (s.threads.map passed).sum ≤ ((step host port s turn).threads.map passed).sum := by
  obtain ⟨hmore, hsame⟩ := sum_passed_step h turn
  by_cases hmiss : Misses (buildNodeKey host port) s turn
  · rw [hmore hmiss]
    exact Nat.le_succ _
  · rw [hsame hmiss]

/-- A second thread passes if it misses the node while the first is about to insert it. -/
lemma sum_passed_le_one_iff {s : Threads ι} (h : Sound host port defaultActorNum s)
    (hone : (s.threads.map passed).sum ≤ 1) (turn : Turn ι) :
    ((step host port s turn).threads.map passed).sum ≤ 1
      ↔ MissesAlone (buildNodeKey host port) s turn := by
  obtain ⟨hmore, hsame⟩ := sum_passed_step h turn
  by_cases hmiss : Misses (buildNodeKey host port) s turn
  · rw [hmore hmiss, MissesAlone]
    constructor
    · intro hle _ hins
      have hpos : 1 ≤ (s.threads.map passed).sum := passed_le_sum hins
      omega
    · intro halone
      -- as long as the node is not there, who has passed is about to insert it
      have hnone : s.pool.nodes_.get? (buildNodeKey host port) = none := by
        cases turn with
        | run i spawned => exact OrderedMap.get?_eq_none.mpr hmiss.2.2
        | call | rehash => exact hmiss.elim
      have hzero : (s.threads.map passed).sum = 0 := by
        refine List.sum_eq_zero fun n hn => ?_
        obtain ⟨pc, hpc, rfl⟩ := List.mem_map.mp hn
        have hearly := h.early hnone pc hpc
        have hway := h.onWay pc hpc
        cases pc with
        | connecting | looking => rfl
        | inserting key =>
            obtain rfl : key = _ := hway
            exact absurd hpc (halone hmiss)
        | _ => exact hearly.elim
      omega
  · rw [hsame hmiss]
    exact iff_of_true hone fun hmiss' => absurd hmiss' hmiss

/-! ### Once -/

omit [DecidableEq ι] in
/-- When all requests have been answered, those that have passed have succeeded. -/
lemma count_of_done (defaultActorNum : ℕ) {threads : List Pc}
    (hdone : ∀ pc ∈ threads, ∃ result, pc = .returned result) :
    threads.count (.returned true) = (threads.map passed).sum
      ∧ (threads.map (spawnedBy defaultActorNum)).sum
        = threads.count (.returned true) * defaultActorNum := by
  induction threads with
  | nil => simp
  | cons pc threads ih =>
      obtain ⟨hcount, hsum⟩ := ih fun pc hpc => hdone pc (List.mem_cons_of_mem _ hpc)
      obtain ⟨result, rfl⟩ := hdone pc List.mem_cons_self
      cases result with
      | true =>
          rw [List.count_cons_self, List.map_cons, List.sum_cons, List.map_cons, List.sum_cons,
            hsum, hcount, Nat.succ_mul]
          exact ⟨Nat.add_comm _ _, Nat.add_comm _ _⟩
      | false =>
          rw [List.count_cons_of_ne (by decide), List.map_cons, List.sum_cons, List.map_cons,
            List.sum_cons, hsum, hcount]
          exact ⟨(Nat.zero_add _).symm, Nat.zero_add _⟩

/-- **Added once.**  When a number of requests to add one node have all been answered, exactly one
has succeeded and the node has as many actors as are wanted, exactly if no thread has missed the
node while another was about to insert it. -/
theorem addedOnce_iff (host : String) (port : UInt16) (defaultActorNum : ℕ) (turns : List (Turn ι))
    (hcalled : (Run.run (step host port) (Threads.start defaultActorNum) turns).threads ≠ [])
    (hdone : (Run.run (step host port) (Threads.start defaultActorNum) turns).Done) :
    AddedOnce (buildNodeKey host port) defaultActorNum
        (Run.run (step host port) (Threads.start defaultActorNum) turns)
      ↔ Run.Each (step host port) (MissesAlone (buildNodeKey host port))
        (Threads.start defaultActorNum) turns := by
  have hsound : Sound host port defaultActorNum
      (Run.run (step host port) (Threads.start defaultActorNum) turns) :=
    (Run.always_of_inv (P := Sound host port defaultActorNum)
      (fun _ turn h => sound_step h turn) sound_start turns).last
  have halways : Run.Always (step host port) (fun s : Threads ι => (s.threads.map passed).sum ≤ 1)
        (Threads.start defaultActorNum) turns
      ↔ Run.Each (step host port) (MissesAlone (buildNodeKey host port))
        (Threads.start defaultActorNum) turns :=
    Run.always_iff_each (I := Sound host port defaultActorNum)
      (fun _ turn hI hP => sum_passed_le_one_iff hI hP turn)
      (fun _ turn hI _ _ => sound_step hI turn) sound_start (Nat.zero_le _) turns
  rw [← halways, Run.always_le_iff (I := Sound host port defaultActorNum)
    (fun _ turn hI => sound_step hI turn) (fun _ turn hI => sum_passed_le hI turn) sound_start
    turns]
  generalize Run.run (step host port) (Threads.start defaultActorNum) turns = s at *
  obtain ⟨hcount, hspawned⟩ := count_of_done defaultActorNum hdone
  constructor
  · rintro ⟨hone, -⟩
    exact (hcount.symm.trans hone).le
  · intro hle
    -- some request has been answered, so the node is there
    obtain ⟨pc, hpc⟩ := List.exists_mem_of_ne_nil _ hcalled
    obtain ⟨result, rfl⟩ := hdone pc hpc
    cases hget : s.pool.nodes_.get? (buildNodeKey host port) with
    | none => exact (hsound.early hget _ hpc).elim
    | some actorSet =>
        have hone : s.threads.count (.returned true) = 1 := by
          rw [hcount]
          exact le_antisymm hle (hsound.present actorSet hget)
        refine ⟨hone, actorSet, hget, ?_⟩
        rw [hsound.size actorSet hget, hspawned, hone, Nat.one_mul]

/-- The second request comes after the first has inserted the local node. -/
theorem addedOnce_second :
    AddedOnce "" 1 (Run.run (step "" 0) (Threads.start 1 : Threads ℕ)
      [Turn.call, Turn.call, Turn.run 0 7, Turn.run 0 7, Turn.run 0 7, Turn.run 0 7, Turn.run 0 7,
        Turn.run 0 8, Turn.run 1 8, Turn.run 1 8]) :=
  (addedOnce_iff "" 0 1 _ (by decide) (by decide)).mpr (by decide)

/-- Both requests find that the node is not there.  Both succeed, and it has twice as many actors as
are wanted. -/
theorem not_addedOnce_both :
    ¬∀ turns, (Run.run (step "" 0) (Threads.start 1 : Threads ℕ) turns).threads ≠ [] →
      (Run.run (step "" 0) (Threads.start 1 : Threads ℕ) turns).Done →
      AddedOnce "" 1 (Run.run (step "" 0) (Threads.start 1 : Threads ℕ) turns) := by
  intro h
  have hboth := h
    ([Turn.call, Turn.call, Turn.run 0 7, Turn.run 0 7, Turn.run 1 7, Turn.run 1 7, Turn.run 0 7,
      Turn.run 0 7, Turn.run 0 7, Turn.run 0 8, Turn.run 1 8, Turn.run 1 8, Turn.run 1 8,
      Turn.run 1 9]) (by decide) (by decide)
  exact absurd hboth.1 (by decide)

end

end Additions

end RouterPool

end Cdcf
