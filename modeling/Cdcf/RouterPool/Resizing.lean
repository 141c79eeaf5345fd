import Cdcf.Library.Threads
import Cdcf.RouterPool.Threads

/-!
Resizing a node (`router_pool.cc`).

`ModifyMaxPerNode` reads the size of the node without the lock, and has as many actors added, or
told to exit, as are missing or too many by this count.  Actors that have been told to exit stay in
the node until their down messages are processed.  Here nothing is asked of the pool but to resize
one node, only actors that have been told to exit go down, and all that is spawned can be spawned.

* `Resized`, `Turn`, `step`: the threads of `Threads` with these requests only, and the size that
  has been asked for last.  Requests count in the order in which they find the node.
* `Wins`: nobody is at work on the node and all who have been told to exit are gone, so it has the
  size that has been asked for last.
* `Fits`: a request finds the node while nobody else is at work on it and, unless it wants fewer
  actors, while nobody in it has been told to exit; and where `DeleteActor` is called, the count is
  still right and everyone who has been told to exit before is among those it picks.
* `stayers`, `Sound`: the actors that have not been told to exit, and how many there are.
* `wins_always`: the last request wins if all turns fit.
-/

namespace Cdcf

namespace RouterPool

variable {ι : Type*} [DecidableEq ι]

/-- A pool with its threads, and the size that the last request to have found the node wants. -/
structure Resized (ι : Type*) where
  state : Threads ι
  wanted : Option ℕ := none

namespace Resized

/-- What happens. -/
inductive Turn (ι : Type*) where
  /-- A request to resize the node. -/
  | call (size : ℕ)
  /-- A thread goes on; `spawned` is spawned for it if it needs an actor. -/
  | run (i : ℕ) (spawned : ι)
  /-- The down message of an actor that has been told to exit is processed. -/
  | down (source : ι)
  | rehash (order : List ι)

/-- The set of the node. -/
def node (s : Resized ι) (key : String) : Option (UnorderedSet ι) := s.state.pool.nodes_.get? key

/-- What the thread wants, if it is the next to look the node up and finds it. -/
def asked (node : Option (UnorderedSet ι)) : Pc → Option ℕ
  | .resizing size _ _ _ => node.map fun _ => size
  | _ => none

/-- A turn, where the node to resize is that of `host` and `port`. -/
def step (host : String) (port : UInt16) (s : Resized ι) : Turn ι → Resized ι
  | .call size => { s with state := s.state.step (.call (.modifyMaxPerNode size host port)) }
  | .run i spawned =>
      if .put spawned ∈ s.state.sent then s
      else
        { state := s.state.step (.run i { spawned := some spawned })
          wanted := (s.state.threads[i]?.bind
            (asked (s.node (buildNodeKey host port)))).or s.wanted }
  | .down source =>
      if .userShutdown source ∈ s.state.sent then { s with state := s.state.step (.down source) }
      else s
  | .rehash order => { s with state := s.state.step (.rehash (buildNodeKey host port) order) }

/-- The thread has counted the actors of the node and has not returned yet. -/
def underWay : Pc → Bool
  | .shrinking _ _ _ _ | .reaching _ _ _ _ _ | .growing _ _ _ _ _ => true
  | _ => false

/-- Once nobody is at work on the node and nobody in it has been told to exit, it has the size that
has been asked for last. -/
def Wins (key : String) (s : Resized ι) : Prop :=
  (∀ pc ∈ s.state.threads, underWay pc = false) →
    (∀ actorSet ∈ s.node key, ∀ a ∈ actorSet.elems, .userShutdown a ∉ s.state.sent) →
      ∀ size ∈ s.wanted, (s.node key).map UnorderedSet.size = some size

/-- What a thread at this place should find. -/
def FitsAt (s : Threads ι) (actorSet : UnorderedSet ι) : Pc → Prop
  | .resizing size _ _ _ => (∀ pc ∈ s.threads, underWay pc = false)
      ∧ (actorSet.size ≤ size → ∀ a ∈ actorSet.elems, .userShutdown a ∉ s.sent)
  | .shrinking _ size preSize _ => actorSet.size - (preSize - size) = size
      ∧ ∀ a ∈ actorSet.elems, .userShutdown a ∈ s.sent →
        a ∈ actorSet.elems.take (preSize - size)
  | _ => True

/-- A thread that goes on finds what it should. -/
def Fits (host : String) (port : UInt16) (s : Resized ι) : Turn ι → Prop
  | .run i _ => ∀ pc ∈ s.state.threads[i]?, ∀ actorSet ∈ s.node (buildNodeKey host port),
      FitsAt s.state actorSet pc
  | _ => True

instance (s : Threads ι) (actorSet : UnorderedSet ι) : ∀ pc, Decidable (FitsAt s actorSet pc)
  | .resizing _ _ _ _ | .shrinking _ _ _ _ => inferInstanceAs (Decidable (_ ∧ _))
  | .connecting _ _ | .looking _ | .inserting _ | .testing _ _ | .adding _ _ | .deleting _ _
  | .updating _ | .iterating _ | .reaching _ _ _ _ _ | .growing _ _ _ _ _ | .thrown _
  | .returned _ => inferInstanceAs (Decidable True)

instance (host : String) (port : UInt16) (s : Resized ι) : ∀ turn, Decidable (Fits host port s turn)
  | .run i _ => inferInstanceAs (Decidable (∀ pc ∈ s.state.threads[i]?,
      ∀ actorSet ∈ s.node (buildNodeKey host port), FitsAt s.state actorSet pc))
  | .call _ | .down _ | .rehash _ => inferInstanceAs (Decidable True)

/-! ### The actors that stay -/

/-- The actors of the node that have not been told to exit. -/
def stayers (s : Threads ι) (key : String) : List ι :=
  match s.pool.nodes_.get? key with
  | some actorSet => actorSet.elems.filter fun a => .userShutdown a ∉ s.sent
  | none => []

lemma stayers_eq {s : Threads ι} {key : String} {actorSet : UnorderedSet ι}
    (hget : s.pool.nodes_.get? key = some actorSet) :
    stayers s key = actorSet.elems.filter fun a => .userShutdown a ∉ s.sent := by
  rw [stayers, hget]

/-- The node is the same, and the same actors have been told to exit. -/
lemma stayers_congr {s s' : Threads ι} {key : String}
    (hget : s'.pool.nodes_.get? key = s.pool.nodes_.get? key)
    (hsent : ∀ a, .userShutdown a ∈ s'.sent ↔ .userShutdown a ∈ s.sent) :
    stayers s' key = stayers s key := by
  simp only [stayers, hget, hsent]

/-- Nobody has been told to exit. -/
lemma stayers_of_untold {s : Threads ι} {key : String} {actorSet : UnorderedSet ι}
    (hget : s.pool.nodes_.get? key = some actorSet)
    (hnone : ∀ a ∈ actorSet.elems, .userShutdown a ∉ s.sent) :
    (stayers s key).length = actorSet.size := by
  rw [stayers_eq hget, List.filter_eq_self.mpr fun a ha => by simpa using hnone a ha]
  rfl

/-- Whoever goes down after having been told to exit was none of them. -/
lemma length_stayers_down {s : Threads ι} (h : s.Sound) {source : ι}
    (htold : .userShutdown source ∈ s.sent) (key : String) :
    (stayers (s.step (.down source)) key).length = (stayers s key).length := by
  have hget' : (s.step (.down source)).pool.nodes_.get? key
      = (s.pool.nodes_.get? key).map (·.erase source) := get?_down h.disjoint source key
  have hsame : ∀ a, .userShutdown a ∈ (s.step (.down source)).sent ↔ .userShutdown a ∈ s.sent := by
    intro a
    show .userShutdown a ∈ s.sent ++ (s.pool.down source).sent ↔ _
    exact List.mem_append.trans (or_iff_left (notMem_sent_down s.pool source a).2)
  cases hget : s.pool.nodes_.get? key with
  | none => rw [stayers, stayers, hget', hget, Option.map_none]
  | some actorSet =>
      rw [hget, Option.map_some] at hget'
      rw [stayers_eq hget', stayers_eq hget]
      simp only [hsame]
      rw [UnorderedSet.elems_erase, List.filter_filter]
      refine congrArg List.length (List.filter_congr fun a _ => ?_)
      by_cases heq : a = source <;> simp [heq, htold]

lemma length_stayers_rehash (s : Threads ι) (key : String) (order : List ι) :
    (stayers (s.step (.rehash key order)) key).length = (stayers s key).length := by
  cases hget : s.pool.nodes_.get? key with
  | none => simp only [stayers, Threads.step, rehash, hget]
  | some actorSet =>
      have hget' : (s.step (.rehash key order)).pool.nodes_.get? key
          = some (actorSet.rehash order) := by
        simp only [Threads.step, rehash, hget]
        exact OrderedMap.get?_assign_self s.pool.nodes_ key _
      rw [stayers_eq hget', stayers_eq hget]
      exact ((actorSet.elems_rehash_perm order).filter _).length_eq

/-! ### What the threads are about to reach -/

/-- The places that a thread comes through. -/
def OnWay (host : String) (port : UInt16) : Pc → Prop
  | .resizing _ host' port' all | .reaching host' port' _ _ all =>
      host' = host ∧ port' = port ∧ all = false
  | .shrinking key _ _ all | .growing key _ _ _ all => key = buildNodeKey host port ∧ all = false
  | .returned _ => True
  | _ => False

/-- The thread is going to reach the size that has been asked for last, with so many who stay. -/
def Fulfils (wanted : Option ℕ) (stay : ℕ) : Pc → Prop
  | .shrinking _ size _ _ => wanted = some size
  | .reaching _ _ size preSize _ => wanted = some size ∧ preSize < size ∧ stay = preSize
  | .growing _ size preSize i _ => wanted = some size ∧ i < size - preSize ∧ stay = preSize + i
  | _ => True

/-- One thread at most is at work on the node.  It is going to reach the size that has been asked
for last, and if there is none, that size has been reached. -/
structure Sound (host : String) (port : UInt16) (s : Resized ι) : Prop where
  base : s.state.Sound
  onWay : ∀ pc ∈ s.state.threads, OnWay host port pc
  alone : ∀ (i j : ℕ) (pc pc' : Pc), s.state.threads[i]? = some pc →
    s.state.threads[j]? = some pc' → underWay pc = true → underWay pc' = true → i = j
  found : s.wanted.isSome = true → (s.node (buildNodeKey host port)).isSome = true
  fulfils : ∀ pc ∈ s.state.threads,
    Fulfils s.wanted (stayers s.state (buildNodeKey host port)).length pc
  settled : (∀ pc ∈ s.state.threads, underWay pc = false) → ∀ size ∈ s.wanted,
    (stayers s.state (buildNodeKey host port)).length = size

lemma fulfils_of_underWay_eq_false {wanted : Option ℕ} {stay : ℕ} {pc : Pc}
    (h : underWay pc = false) : Fulfils wanted stay pc := by
  cases pc <;> trivial

section

variable {host : String} {port : UInt16}

/-- What a node has once nobody is at work on it is what has been asked for last. -/
lemma Sound.wins {s : Resized ι} (h : Sound host port s) : Wins (buildNodeKey host port) s := by
  intro hidle huntold size hsize
  have hstay := h.settled hidle size hsize
  cases hnode : s.node (buildNodeKey host port) with
  | none => exact absurd (h.found (Option.isSome_of_mem hsize)) (by simp [hnode])
  | some actorSet =>
      rw [stayers_of_untold hnode (huntold actorSet hnode)] at hstay
      rw [Option.map_some, hstay]

/-- The only thread at work, or one that starts, makes a move. -/
lemma Sound.advance {s s' : Resized ι} (h : Sound host port s) (hbase : s'.state.Sound) {i : ℕ}
    {pc pc' : Pc} (hpc : s.state.threads[i]? = some pc)
    (hthreads : s'.state.threads = s.state.threads.set i pc')
    (hothers : ∀ j pc, j ≠ i → s.state.threads[j]? = some pc → underWay pc = false)
    (hway : OnWay host port pc')
    (hfound : s'.wanted.isSome = true → (s'.node (buildNodeKey host port)).isSome = true)
    (hfulfils : Fulfils s'.wanted (stayers s'.state (buildNodeKey host port)).length pc')
    (hsettled : underWay pc' = false → ∀ size ∈ s'.wanted,
      (stayers s'.state (buildNodeKey host port)).length = size) : Sound host port s' := by
  refine ⟨hbase, fun pc'' hmem => ?_, fun j k a b hj hk ha hb => ?_, hfound, fun pc'' hmem => ?_,
    fun hidle => hsettled (hidle pc' ?_)⟩
  · rcases List.mem_or_eq_of_mem_set (hthreads ▸ hmem) with hold | rfl
    · exact h.onWay _ hold
    · exact hway
  · have honly : ∀ (j : ℕ) (a : Pc), s'.state.threads[j]? = some a → underWay a = true → j = i := by
      intro j a hj ha
      rw [hthreads] at hj
      rcases getElem?_of_set hj with ⟨heq, -⟩ | ⟨hne, hold⟩
      · exact heq
      · exact absurd ((hothers j a hne hold).symm.trans ha) Bool.false_ne_true
    exact (honly j a hj ha).trans (honly k b hk hb).symm
  · obtain ⟨j, hj⟩ := List.mem_iff_getElem?.mp hmem
    rw [hthreads] at hj
    rcases getElem?_of_set hj with ⟨-, rfl⟩ | ⟨hne, hold⟩
    · exact hfulfils
    · exact fulfils_of_underWay_eq_false (hothers j pc'' hne hold)
  · obtain ⟨hi, -⟩ := List.getElem?_eq_some_iff.mp hpc
    rw [hthreads]
    exact List.mem_iff_getElem?.mpr ⟨i, List.getElem?_set_self hi⟩

/-- As many stay as before, and as much is wanted; threads that are not at work may have moved. -/
lemma Sound.keep {s s' : Resized ι} (h : Sound host port s) (hbase : s'.state.Sound)
    (hwanted : s'.wanted = s.wanted)
    (hnode : (s'.node (buildNodeKey host port)).isSome = (s.node (buildNodeKey host port)).isSome)
    (hstay : (stayers s'.state (buildNodeKey host port)).length
      = (stayers s.state (buildNodeKey host port)).length)
    (hway : ∀ pc ∈ s'.state.threads, OnWay host port pc)
    (hthreads : ∀ (j : ℕ) (pc : Pc), underWay pc = true →
      (s'.state.threads[j]? = some pc ↔ s.state.threads[j]? = some pc)) : Sound host port s' := by
  refine ⟨hbase, hway, fun i j a b hi hj ha hb => ?_, fun hsome => ?_, fun pc hmem => ?_,
    fun hidle => ?_⟩
  · exact h.alone i j a b ((hthreads i a ha).mp hi) ((hthreads j b hb).mp hj) ha hb
  · rw [hnode]
    exact h.found (hwanted ▸ hsome)
  · cases hpc : underWay pc with
    | false => exact fulfils_of_underWay_eq_false hpc
    | true =>
        obtain ⟨j, hj⟩ := List.mem_iff_getElem?.mp hmem
        rw [hwanted, hstay]
        exact h.fulfils pc (List.mem_of_getElem? ((hthreads j pc hpc).mp hj))
  · rw [hwanted, hstay]
    refine h.settled fun pc hmem => ?_
    by_contra hpc
    obtain ⟨j, hj⟩ := List.mem_iff_getElem?.mp hmem
    have hpc : underWay pc = true := by simpa using hpc
    have hmem' : pc ∈ s'.state.threads := List.mem_of_getElem? ((hthreads j pc hpc).mpr hj)
    exact absurd ((hidle pc hmem').symm.trans hpc) Bool.false_ne_true

/-- While a thread is at work, no other is. -/
lemma Sound.others {s : Resized ι} (h : Sound host port s) {i : ℕ} {pc : Pc}
    (hpc : s.state.threads[i]? = some pc) (hway : underWay pc = true) :
    ∀ j pc', j ≠ i → s.state.threads[j]? = some pc' → underWay pc' = false := by
  intro j pc' hne hj
  by_contra hpc'
  exact hne (h.alone j i pc' pc hj hpc (by simpa using hpc') hway)

/-! ### The moves -/

/-- The pool after a thread at `pc` has gone on. -/
def moved (key : String) (s : Resized ι) (i : ℕ) (spawned : ι) (pc : Pc) : Resized ι where
  state := s.state.advance i (s.state.pool.move { spawned := some spawned } pc)
  wanted := (asked (s.node key) pc).or s.wanted

lemma step_run {s : Resized ι} {i : ℕ} {spawned : ι} {pc : Pc} (hpc : s.state.threads[i]? = some pc)
    (hnew : .put spawned ∉ s.state.sent) :
    step host port s (.run i spawned) = moved (buildNodeKey host port) s i spawned pc := by
  have hisNew : s.state.IsNew { spawned := some spawned } :=
    fun a ha => Option.mem_some_iff.mp ha ▸ hnew
  simp only [step, if_neg hnew, Threads.step, hpc, if_pos hisNew, moved, Option.bind_some]

/-- A thread counts the actors of the node. -/
lemma sound_resizing {s s' : Resized ι} (h : Sound host port s) {i size : ℕ} {spawned : ι}
    (hpc : s.state.threads[i]? = some (.resizing size host port false))
    {actorSet : UnorderedSet ι} (hnode : s.node (buildNodeKey host port) = some actorSet)
    (hfits : FitsAt s.state actorSet (.resizing size host port false))
    (hs' : s' = moved (buildNodeKey host port) s i spawned (.resizing size host port false))
    (hbase : s'.state.Sound) : Sound host port s' := by
  obtain ⟨hidle, huntold⟩ := hfits
  have hget : s.state.pool.nodes_.get? (buildNodeKey host port) = some actorSet := hnode
  have hothers : ∀ j pc, j ≠ i → s.state.threads[j]? = some pc → underWay pc = false :=
    fun j pc _ hj => hidle pc (List.mem_of_getElem? hj)
  have hwanted : s'.wanted = some size := by simp [hs', moved, asked, hnode]
  have hstay : stayers s'.state (buildNodeKey host port)
      = stayers s.state (buildNodeKey host port) :=
    stayers_congr (by rw [hs']; rfl) fun a => by simp [hs', moved, Threads.advance, move]
  have hthreads : s'.state.threads = s.state.threads.set i
      (if size < actorSet.size then .shrinking (buildNodeKey host port) size actorSet.size false
        else if actorSet.size < size then .reaching host port size actorSet.size false
        else .returned true) := by
    simp [hs', moved, Threads.advance, move, hget, Pc.finish]
  refine h.advance hbase hpc hthreads hothers ?_
    (fun _ => by simp [hs', node, moved, Threads.advance, move, hget]) ?_ ?_
  · split
    · exact ⟨rfl, rfl⟩
    · split
      · exact ⟨rfl, rfl, rfl⟩
      · trivial
  · rw [hwanted, hstay]
    split
    · rfl
    · next hlt =>
        split
        · next hless => exact ⟨rfl, hless, stayers_of_untold hget (huntold hless.le)⟩
        · trivial
  · rw [hwanted, hstay]
    intro hreturned size' hsize
    obtain rfl : size = size' := Option.mem_some_iff.mp hsize
    have heq : actorSet.size = size := by
      by_contra hne
      rcases lt_or_gt_of_ne hne with hlt | hlt
      · rw [if_neg hlt.not_gt, if_pos hlt] at hreturned
        exact absurd hreturned.symm Bool.false_ne_true
      · rw [if_pos hlt] at hreturned
        exact absurd hreturned.symm Bool.false_ne_true
    rw [stayers_of_untold hget (huntold heq.le), heq]

/-- A thread has actors told to exit. -/
lemma sound_shrinking {s s' : Resized ι} (h : Sound host port s) {i size preSize : ℕ}
    {spawned : ι}
    (hpc : s.state.threads[i]? = some (.shrinking (buildNodeKey host port) size preSize false))
    {actorSet : UnorderedSet ι} (hnode : s.node (buildNodeKey host port) = some actorSet)
    (hfits : FitsAt s.state actorSet (.shrinking (buildNodeKey host port) size preSize false))
    (hs' : s' = moved (buildNodeKey host port) s i spawned
      (.shrinking (buildNodeKey host port) size preSize false))
    (hbase : s'.state.Sound) : Sound host port s' := by
  obtain ⟨hcount, htold⟩ := hfits
  have hget : s.state.pool.nodes_.get? (buildNodeKey host port) = some actorSet := hnode
  have hdisj := List.disjoint_take_drop actorSet.nodup (le_refl (preSize - size))
  have hlength : (actorSet.elems.drop (preSize - size)).length = size := by
    rw [List.length_drop]
    exact hcount
  have huntold : ∀ a ∈ actorSet.elems.drop (preSize - size), .userShutdown a ∉ s.state.sent :=
    fun a ha htolda => hdisj (htold a (List.mem_of_mem_drop ha) htolda) ha
  have hwanted : s.wanted = some size := h.fulfils _ (List.mem_of_getElem? hpc)
  have hwanted' : s'.wanted = s.wanted := by rw [hs']; rfl
  have hsent : ∀ a, .userShutdown a ∈ s'.state.sent
      ↔ .userShutdown a ∈ s.state.sent ∨ a ∈ actorSet.elems.take (preSize - size) := by
    intro a
    simp [hs', moved, Threads.advance, move, deleteActors, hget, -List.map_take]
  have hget' : s'.state.pool.nodes_.get? (buildNodeKey host port) = some actorSet := by
    rw [hs']
    exact hget
  have hstay : stayers s'.state (buildNodeKey host port)
      = actorSet.elems.drop (preSize - size) := by
    rw [stayers_eq hget']
    conv_lhs => rw [← List.take_append_drop (preSize - size) actorSet.elems]
    rw [List.filter_append, List.filter_eq_nil_iff.mpr fun a ha => ?_,
      List.filter_eq_self.mpr fun a ha => ?_, List.nil_append]
    · have hout : a ∉ actorSet.elems.take (preSize - size) := fun hin => hdisj hin ha
      simp [hsent, hout, huntold a ha]
    · simp [hsent, ha]
  have hthreads : s'.state.threads = s.state.threads.set i (.returned true) := by
    simp [hs', moved, Threads.advance, move, deleteActors, hget, Pc.finish]
  refine h.advance hbase hpc hthreads (h.others hpc rfl) trivial
    (fun _ => by simp [node, hget']) trivial fun _ size' hsize => ?_
  rw [hwanted', hwanted] at hsize
  obtain rfl : size = size' := Option.mem_some_iff.mp hsize
  rw [hstay, hlength]

/-- A thread reaches the gateway. -/
lemma sound_reaching {s s' : Resized ι} (h : Sound host port s) {i size preSize : ℕ}
    {spawned : ι} (hpc : s.state.threads[i]? = some (.reaching host port size preSize false))
    (hs' : s' = moved (buildNodeKey host port) s i spawned
      (.reaching host port size preSize false))
    (hbase : s'.state.Sound) : Sound host port s' := by
  obtain ⟨hwanted, hlt, hstay⟩ := h.fulfils _ (List.mem_of_getElem? hpc)
  have hwanted' : s'.wanted = s.wanted := by rw [hs']; rfl
  have hthreads : s'.state.threads
      = s.state.threads.set i (.growing (buildNodeKey host port) size preSize 0 false) := by
    cases hhost : host.isEmpty <;> simp [hs', moved, Threads.advance, move, buildNodeKey, hhost]
  have hfound : s'.wanted.isSome = true → (s'.node (buildNodeKey host port)).isSome = true := by
    rw [hs']
    exact h.found
  have hsame : stayers s'.state (buildNodeKey host port)
      = stayers s.state (buildNodeKey host port) :=
    stayers_congr (by rw [hs']; rfl) fun a => by simp [hs', moved, Threads.advance, move]
  refine h.advance hbase hpc hthreads (h.others hpc rfl) ⟨rfl, rfl⟩ hfound
    ⟨hwanted'.trans hwanted, Nat.sub_pos_of_lt hlt, ?_⟩
    fun hfalse => absurd hfalse.symm Bool.false_ne_true
  rw [hsame, hstay, Nat.add_zero]

/-- A thread has an actor added. -/
lemma sound_growing {s s' : Resized ι} (h : Sound host port s) {i size preSize n : ℕ}
    {spawned : ι}
    (hpc : s.state.threads[i]? = some (.growing (buildNodeKey host port) size preSize n false))
    (hnew : .put spawned ∉ s.state.sent)
    (hs' : s' = moved (buildNodeKey host port) s i spawned
      (.growing (buildNodeKey host port) size preSize n false))
    (hbase : s'.state.Sound) : Sound host port s' := by
  obtain ⟨hwanted, hlt, hstay⟩ := h.fulfils _ (List.mem_of_getElem? hpc)
  have hwanted' : s'.wanted = s.wanted := by rw [hs']; rfl
  obtain ⟨actorSet, hget⟩ := Option.isSome_iff_exists.mp (h.found (by simp [hwanted]))
  have hget : s.state.pool.nodes_.get? (buildNodeKey host port) = some actorSet := hget
  have hout : spawned ∉ actorSet := fun hin =>
    hnew (h.base.put_of_holds ((Holds.of_get? hget).mpr hin))
  have hget' : s'.state.pool.nodes_.get? (buildNodeKey host port)
      = some (actorSet.insert spawned) := by
    simp only [hs', moved, Threads.advance, move, moveAdd, addActor, hget]
    exact OrderedMap.get?_assign_self s.state.pool.nodes_ (buildNodeKey host port) _
  have hsent : ∀ a, .userShutdown a ∈ s'.state.sent ↔ .userShutdown a ∈ s.state.sent := by
    intro a
    simp [hs', moved, Threads.advance, move, moveAdd, addActor, hget]
  have huntold : .userShutdown spawned ∉ s.state.sent := fun htold =>
    hnew (h.base.put_of_told spawned htold)
  have hmore : (stayers s'.state (buildNodeKey host port)).length = preSize + n + 1 := by
    rw [stayers_eq hget', UnorderedSet.elems_insert hout, ← hstay, stayers_eq hget]
    simp only [hsent]
    rw [List.filter_cons_of_pos (by simpa using huntold), List.length_cons]
  have hthreads : s'.state.threads = s.state.threads.set i
      (if n + 1 < size - preSize then .growing (buildNodeKey host port) size preSize (n + 1) false
        else .returned true) := by
    simp [hs', moved, Threads.advance, move, moveAdd, addActor, hget, Pc.finish]
  refine h.advance hbase hpc hthreads (h.others hpc rfl) ?_
    (fun _ => by simp [node, hget']) ?_ ?_
  · split
    · exact ⟨rfl, rfl⟩
    · trivial
  · rw [hmore]
    split
    · next hless => exact ⟨hwanted'.trans hwanted, hless, rfl⟩
    · trivial
  · intro hreturned size' hsize
    rw [hwanted', hwanted] at hsize
    obtain rfl : size = size' := Option.mem_some_iff.mp hsize
    have hlast : ¬n + 1 < size - preSize := by
      intro hless
      rw [if_pos hless] at hreturned
      exact absurd hreturned.symm Bool.false_ne_true
    rw [hmore]
    omega

/-- Where the threads at work are does not change when another moves. -/
lemma getElem?_set_of_idle {l : List Pc} {i : ℕ} {old new : Pc} (hpc : l[i]? = some old)
    (hold : underWay old = false) (hnew : underWay new = false) (j : ℕ) (pc : Pc)
    (hway : underWay pc = true) : (l.set i new)[j]? = some pc ↔ l[j]? = some pc := by
  constructor
  · intro hj
    rcases getElem?_of_set hj with ⟨-, rfl⟩ | ⟨-, hj⟩
    · exact absurd (hnew.symm.trans hway) Bool.false_ne_true
    · exact hj
  · intro hj
    by_cases heq : i = j
    · subst heq
      obtain rfl : pc = old := Option.some_inj.mp (hj.symm.trans hpc)
      exact absurd (hold.symm.trans hway) Bool.false_ne_true
    · rwa [List.getElem?_set_ne heq]

/-- A thread moves that is not at work before or after. -/
lemma Sound.idle {s : Resized ι} (h : Sound host port s) {i : ℕ} {spawned : ι} {pc pc' : Pc}
    (hpc : s.state.threads[i]? = some pc)
    (hbase : (moved (buildNodeKey host port) s i spawned pc).state.Sound)
    (hwanted : (moved (buildNodeKey host port) s i spawned pc).wanted = s.wanted)
    (hmove : (s.state.pool.move { spawned := some spawned } pc).pc = pc')
    (hpool : (s.state.pool.move { spawned := some spawned } pc).pool = s.state.pool)
    (hsent : (s.state.pool.move { spawned := some spawned } pc).sent = [])
    (hold : underWay pc = false) (hnew : underWay pc' = false) (hway : OnWay host port pc') :
    Sound host port (moved (buildNodeKey host port) s i spawned pc) := by
  have hthreads : (moved (buildNodeKey host port) s i spawned pc).state.threads
      = s.state.threads.set i pc' := congrArg _ hmove
  have hstay : stayers (moved (buildNodeKey host port) s i spawned pc).state
        (buildNodeKey host port)
      = stayers s.state (buildNodeKey host port) :=
    stayers_congr (by simp [moved, Threads.advance, hpool])
      fun a => by simp [moved, Threads.advance, hsent]
  refine h.keep hbase hwanted (by simp [node, moved, Threads.advance, hpool])
    (congrArg List.length hstay) (fun pc'' hmem => ?_) fun j pc'' hway' => ?_
  · rcases List.mem_or_eq_of_mem_set (hthreads ▸ hmem) with hin | rfl
    · exact h.onWay _ hin
    · exact hway
  · rw [hthreads]
    exact getElem?_set_of_idle hpc hold hnew j pc'' hway'

/-- A thread goes on, and finds what it should. -/
lemma sound_moved {s : Resized ι} (h : Sound host port s) {i : ℕ} {spawned : ι} {pc : Pc}
    (hpc : s.state.threads[i]? = some pc) (hnew : .put spawned ∉ s.state.sent)
    (hfits : ∀ actorSet ∈ s.node (buildNodeKey host port), FitsAt s.state actorSet pc)
    (hbase : (moved (buildNodeKey host port) s i spawned pc).state.Sound) :
    Sound host port (moved (buildNodeKey host port) s i spawned pc) := by
  have hway := h.onWay pc (List.mem_of_getElem? hpc)
  cases pc with
  | resizing size host' port' all =>
      obtain ⟨rfl, rfl, rfl⟩ := hway
      cases hnode : s.node (buildNodeKey host' port') with
      | none =>
          have hget : s.state.pool.nodes_.get? (buildNodeKey host' port') = none := hnode
          have hmove : (s.state.pool.move { spawned := some spawned }
              (.resizing size host' port' false)).pc = .returned false := by
            simp [move, hget, Pc.finish]
          exact h.idle hpc hbase (by simp [moved, asked, hnode]) hmove rfl rfl rfl rfl trivial
      | some actorSet => exact sound_resizing h hpc hnode (hfits actorSet hnode) rfl hbase
  | shrinking key size preSize all =>
      obtain ⟨rfl, rfl⟩ := hway
      have hwanted : s.wanted = some size := h.fulfils _ (List.mem_of_getElem? hpc)
      obtain ⟨actorSet, hnode⟩ := Option.isSome_iff_exists.mp (h.found (by simp [hwanted]))
      exact sound_shrinking h hpc hnode (hfits actorSet hnode) rfl hbase
  | reaching host' port' size preSize all =>
      obtain ⟨rfl, rfl, rfl⟩ := hway
      exact sound_reaching h hpc rfl hbase
  | growing key size preSize n all =>
      obtain ⟨rfl, rfl⟩ := hway
      exact sound_growing h hpc hnew rfl hbase
  | returned result => exact h.idle hpc hbase rfl rfl rfl rfl rfl rfl trivial
  | connecting | looking | inserting | testing | adding | deleting | updating | iterating
  | thrown => exact hway.elim

lemma sound_step {s : Resized ι} (h : Sound host port s) {turn : Turn ι}
    (hfits : Fits host port s turn) : Sound host port (step host port s turn) := by
  cases turn with
  | call size =>
      have hbase := Threads.sound_step h.base (.call (.modifyMaxPerNode size host port))
      refine h.keep hbase rfl rfl rfl (fun pc hmem => ?_) fun j pc hway => ?_
      · rcases List.mem_append.mp hmem with hold | hnew
        · exact h.onWay pc hold
        · rw [List.mem_singleton.mp hnew]
          exact ⟨rfl, rfl, rfl⟩
      · refine getElem?_concat.trans (or_iff_left ?_)
        rintro ⟨-, rfl⟩
        exact absurd hway Bool.false_ne_true
  | run i spawned =>
      by_cases hnew : .put spawned ∈ s.state.sent
      · rw [step, if_pos hnew]
        exact h
      · cases hpc : s.state.threads[i]? with
        | none => simpa only [step, if_neg hnew, Threads.step, hpc, Option.bind_none,
            Option.none_or] using h
        | some pc =>
            have hbase := Threads.sound_step h.base (.run i { spawned := some spawned })
            have hstep : (s.state.step (.run i { spawned := some spawned }))
                = (step host port s (.run i spawned)).state := by rw [step, if_neg hnew]
            rw [hstep, step_run hpc hnew] at hbase
            rw [step_run hpc hnew]
            exact sound_moved h hpc hnew (hfits pc hpc) hbase
  | down source =>
      by_cases htold : .userShutdown source ∈ s.state.sent
      · rw [step, if_pos htold]
        refine h.keep (Threads.sound_step h.base (.down source)) rfl ?_
          (length_stayers_down h.base htold (buildNodeKey host port)) h.onWay fun _ _ _ => Iff.rfl
        show ((s.state.pool.down source).pool.nodes_.get? (buildNodeKey host port)).isSome = _
        rw [get?_down h.base.disjoint, Option.isSome_map]
        rfl
      · rw [step, if_neg htold]
        exact h
  | rehash order =>
      refine h.keep (Threads.sound_step h.base (.rehash (buildNodeKey host port) order)) rfl ?_
        (length_stayers_rehash s.state (buildNodeKey host port) order) h.onWay fun _ _ _ => Iff.rfl
      simp only [step, node, Threads.step, rehash]
      split
      · next actorSet hget => simp [hget]
      · rfl

end

/-- **The last resize wins.**  A pool has been at work for a while, and nothing is under way.  If
from now on all threads that go on find what they should, then whenever nobody is at work on the
node and nobody in it has been told to exit, it has the size that has been asked for last. -/
theorem wins_always (host : String) (port : UInt16) (defaultActorNum : ℕ) (es : List (Event ι))
    (hdone : (Run.run Threads.step (Threads.start defaultActorNum) es).Done) (turns : List (Turn ι))
    (hfits : Run.Each (step host port) (Fits host port)
      { state := Run.run Threads.step (Threads.start defaultActorNum) es } turns) :
    Run.Always (step host port) (Wins (buildNodeKey host port))
      { state := Run.run Threads.step (Threads.start defaultActorNum) es } turns := by
  have hbase : (Run.run Threads.step (Threads.start defaultActorNum) es : Threads ι).Sound :=
    (Threads.sound_always defaultActorNum es).last
  have hidle : ∀ pc ∈ (Run.run Threads.step (Threads.start defaultActorNum) es : Threads ι).threads,
      OnWay host port pc ∧ underWay pc = false := by
    intro pc hpc
    obtain ⟨result, rfl⟩ := hdone pc hpc
    exact ⟨trivial, rfl⟩
  have hstart : Sound host port
      { state := Run.run Threads.step (Threads.start defaultActorNum) es } :=
    { base := hbase
      onWay := fun pc hpc => (hidle pc hpc).1
      alone := fun i j pc pc' hi _ hpc =>
        absurd ((hidle pc (List.mem_of_getElem? hi)).2.symm.trans hpc) Bool.false_ne_true
      found := fun hsome => absurd hsome Bool.false_ne_true
      fulfils := fun pc hpc => fulfils_of_underWay_eq_false (hidle pc hpc).2
      settled := fun _ size hsize => absurd hsize.symm (Option.some_ne_none size) }
  have hsound : Run.Always (step host port) (Sound host port)
      { state := Run.run Threads.step (Threads.start defaultActorNum) es } turns :=
    Run.always_of_each (P := Sound host port) (fun _ _ h hfit => sound_step h hfit) hstart hfits
  exact hsound.imp fun _ h => h.wins

/-- The local node has one actor.  It is given none, and when the actor is gone, one again. -/
theorem wins_again :
    Run.Always (step "" 0) (Wins "")
      { state := Run.run Threads.step (Threads.start 1)
          [Event.call (.addNode "" 0), Event.run 0 {}, Event.run 0 {}, Event.run 0 {},
            Event.run 0 {}, Event.run 0 { spawned := some 7 }, Event.run 0 {}] }
      [Turn.call 0, Turn.run 1 8, Turn.run 1 8, Turn.down 7, Turn.call 1, Turn.run 2 8,
        Turn.run 2 8, Turn.run 2 8] :=
  wins_always "" 0 1 _ (by decide) _ (by decide)

/-- The local node has one actor.  It is given none, and before the actor is gone, one again.  The
second request finds that the node has one actor, and does nothing. -/
theorem not_wins_before :
    ¬Run.Always (step "" 0) (Wins "")
      { state := Run.run Threads.step (Threads.start 1)
          [Event.call (.addNode "" 0), Event.run 0 {}, Event.run 0 {}, Event.run 0 {},
            Event.run 0 {}, Event.run 0 { spawned := some 7 }, Event.run 0 {}] }
      [Turn.call 0, Turn.run 1 8, Turn.run 1 8, Turn.call 1, Turn.run 2 8, Turn.down 7] := by
  intro h
  exact absurd (h.last (by decide) (by decide) 1 (by decide)) (by decide)

end Resized

end RouterPool

end Cdcf
