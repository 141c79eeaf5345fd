import Cdcf.Library.OrderedMap
import Cdcf.Library.UnorderedSet
import Cdcf.RouterPool.NodeKey

/-!
The pool of routees (`router_pool.cc`).

For every node a pool holds the set of the actors that it has had spawned there.  `insertNode`,
`addActor`, `deleteNode`, `deleteActors` and `down` are each what happens in one section under
`actor_lock_`; what a section asks of the actor system is the list `sent`.  `addNode` is the whole
of `AddNode`, with nobody else in between.

* `RouterPool`, `Effect`, `Outcome`: the pool, and what a function does to it and answers.
* `holds_insertNode`, …, `holds_rehash`: which actors are in which node after each section.
* `mem_getActors`, `nodup_getActors`: what `GetActors` lists.
* `allOrNothing_iff`: `AddNode` adds everything or nothing, if the node is refused at once or if all
  its actors can be spawned.
-/

namespace Cdcf

/-- `nodes_`.  In which order it is iterated does not matter as long as no actor is in two nodes,
and it is that of the keys. -/
abbrev Nodes (ι : Type*) := OrderedMap (id : String → String) (UnorderedSet ι)

/-- A pool. -/
structure RouterPool (ι : Type*) where
  defaultActorNum_ : ℕ
  nodes_ : Nodes ι := OrderedMap.empty

namespace RouterPool

/-- What a pool asks of the actor system. -/
inductive Effect (ι : Type*) where
  /-- `anon_send(pool_, sys_atom, put_atom, actor)`. -/
  | put (actor : ι)
  | monitor (actor : ι)
  | demonitor (actor : ι)
  /-- `anon_send(actor, exit_reason::user_shutdown)`. -/
  | userShutdown (actor : ι)
  /-- `send(pool_, msg)`, with the down message of `source`. -/
  | down (source : ι)
  deriving DecidableEq, Repr

instance [DecidableEq ι] (e : Effect ι) (es : List (Effect ι)) : Decidable (e ∈ es) :=
  inferInstance

/-- What has come of a call. -/
structure Outcome (ι : Type*) where
  pool : RouterPool ι
  sent : List (Effect ι) := []
  result : Bool

variable {ι : Type*} [DecidableEq ι]

/-! ### The sections -/

/-- The section of `AddNode`. -/
def insertNode (s : RouterPool ι) (key : String) : RouterPool ι :=
  if s.nodes_.contains key then s else { s with nodes_ := s.nodes_.assign key .empty }

/-- `AddActor`; `spawned` is what has been spawned for it. -/
def addActor (s : RouterPool ι) (key : String) (spawned : Option ι) : Outcome ι :=
  match s.nodes_.get? key, spawned with
  | some actorSet, some actor =>
      { pool := { s with nodes_ := s.nodes_.assign key (actorSet.insert actor) }
        sent := [.put actor, .monitor actor]
        result := true }
  | _, _ => { pool := s, result := false }

/-- `DeleteActor`, for an address. -/
def deleteActor (s : RouterPool ι) (actorAddr : ι) : Outcome ι :=
  match s.nodes_.entries.find? fun node => actorAddr ∈ node.2 with
  | some (key, actorSet) =>
      { pool := { s with nodes_ := s.nodes_.assign key (actorSet.erase actorAddr) }
        sent := [.demonitor actorAddr]
        result := true }
  | none => { pool := s, result := false }

/-- `Down`. -/
def down (s : RouterPool ι) (source : ι) : Outcome ι :=
  let deleted := s.deleteActor source
  { deleted with sent := deleted.sent ++ [.down source] }

/-- `DeleteActor`, for a number of actors of a node. -/
def deleteActors (s : RouterPool ι) (key : String) (num : ℕ) : Outcome ι :=
  match s.nodes_.get? key with
  | some actorSet =>
      { pool := s, sent := (actorSet.elems.take num).map .userShutdown, result := true }
  | none => { pool := s, result := false }

/-- `DeleteNode`. -/
def deleteNode (s : RouterPool ι) (host : String) (port : UInt16) : Outcome ι :=
  let key := buildNodeKey host port
  match s.nodes_.get? key with
  | some actors =>
      { pool := { s with nodes_ := s.nodes_.erase key }
        sent := actors.elems.map .userShutdown
        result := true }
  | none => { pool := s, result := false }

/-- The actors of a node come in another order from now on. -/
def rehash (s : RouterPool ι) (key : String) (order : List ι) : RouterPool ι :=
  match s.nodes_.get? key with
  | some actorSet => { s with nodes_ := s.nodes_.assign key (actorSet.rehash order) }
  | none => s

/-- `GetNode`. -/
def getNode (s : RouterPool ι) : List String := s.nodes_.keys

/-- `GetActors`. -/
def getActors (s : RouterPool ι) : List ι := s.nodes_.entries.flatMap fun node => node.2.elems

/-- `GetActors`, for one node. -/
def getActorsOf (s : RouterPool ι) (host : String) (port : UInt16) : List ι :=
  match s.nodes_.get? (buildNodeKey host port) with
  | some actorSet => actorSet.elems
  | none => []

/-! ### AddNode -/

/-- The loop of `AddNode`, with so many rounds to go; `spawn` gives what is spawned in each. -/
def addActors (key : String) : (ℕ → Option ι) → ℕ → RouterPool ι → Outcome ι
  | _, 0, s => { pool := s, result := true }
  | spawn, n + 1, s =>
      let added := s.addActor key (spawn 0)
      if added.result then
        let rest := addActors key (fun i => spawn (i + 1)) n added.pool
        { rest with sent := added.sent ++ rest.sent }
      else added

/-- `AddNode`, where `connected` tells whether the gateway can be reached. -/
def addNode (s : RouterPool ι) (host : String) (port : UInt16) (connected : Bool)
    (spawn : ℕ → Option ι) : Outcome ι :=
  if !host.isEmpty && !connected then { pool := s, result := false }
  else
    let key := buildNodeKey host port
    if s.nodes_.contains key then { pool := s, result := false }
    else addActors key spawn s.defaultActorNum_ (s.insertNode key)

/-! ### Which actors are in which node -/

/-- The actor is in the set of the node. -/
def Holds (s : RouterPool ι) (key : String) (actor : ι) : Prop :=
  ∃ actorSet, s.nodes_.get? key = some actorSet ∧ actor ∈ actorSet

/-- No actor is in two nodes. -/
def Disjoint (s : RouterPool ι) : Prop :=
  ∀ key key' actor, s.Holds key actor → s.Holds key' actor → key = key'

omit [DecidableEq ι] in
lemma Holds.of_get? {s : RouterPool ι} {key : String} {actorSet : UnorderedSet ι}
    (hget : s.nodes_.get? key = some actorSet) {actor : ι} :
    s.Holds key actor ↔ actor ∈ actorSet := by
  constructor
  · rintro ⟨actorSet', hget', hmem⟩
    rw [hget, Option.some_inj] at hget'
    rwa [hget']
  · exact fun hmem => ⟨actorSet, hget, hmem⟩

omit [DecidableEq ι] in
/-- One node is given another set. -/
lemma holds_assign (s : RouterPool ι) (key key' : String) (actorSet : UnorderedSet ι) (actor : ι) :
    ({ s with nodes_ := s.nodes_.assign key actorSet } : RouterPool ι).Holds key' actor
      ↔ if key = key' then actor ∈ actorSet else s.Holds key' actor := by
  rw [Holds, OrderedMap.get?_assign, id]
  split
  · simp
  · rfl

omit [DecidableEq ι] in
lemma holds_insertNode (s : RouterPool ι) (key key' : String) (actor : ι) :
    (s.insertNode key).Holds key' actor ↔ s.Holds key' actor := by
  rw [insertNode]
  split
  · rfl
  · next hnew =>
      have hnone : s.nodes_.get? key = none :=
        OrderedMap.get?_eq_none.mpr (Bool.not_eq_true _ ▸ hnew)
      rw [holds_assign]
      split
      · next hkey => simp [Holds, ← hkey, hnone]
      · rfl

lemma holds_addActor (s : RouterPool ι) (key key' : String) (spawned : Option ι) (actor : ι) :
    (s.addActor key spawned).pool.Holds key' actor ↔ s.Holds key' actor
      ∨ (s.addActor key spawned).result = true ∧ key = key' ∧ spawned = some actor := by
  unfold addActor
  split
  · next actorSet a hget =>
      rw [holds_assign]
      split
      · next hkey =>
          subst hkey
          rw [Holds.of_get? hget]
          simp [or_comm, eq_comm]
      · next hkey => simp [hkey]
  · simp

/-- The node where `DeleteActor` finds the actor. -/
lemma holds_of_find? {s : RouterPool ι} {actorAddr : ι} {node : String × UnorderedSet ι}
    (hfind : s.nodes_.entries.find? (fun node => actorAddr ∈ node.2) = some node) :
    s.nodes_.get? node.1 = some node.2 ∧ actorAddr ∈ node.2 := by
  exact ⟨OrderedMap.get?_of_mem_entries (List.mem_of_find?_eq_some hfind),
    by simpa using List.find?_some hfind⟩

omit [DecidableEq ι] in
lemma mem_entries_of_get? {s : RouterPool ι} {key : String} {actorSet : UnorderedSet ι}
    (hget : s.nodes_.get? key = some actorSet) : (key, actorSet) ∈ s.nodes_.entries := by
  obtain ⟨⟨key', actorSet'⟩, hfind, hval⟩ := Option.map_eq_some_iff.mp hget
  have hkey : key' = key := OrderedMap.key_of_find? hfind
  have hset : actorSet' = actorSet := hval
  rw [← hkey, ← hset]
  exact List.mem_of_find?_eq_some hfind

/-- The actor goes out of its node, and the other nodes stay as they are. -/
lemma get?_down {s : RouterPool ι} (hdisj : s.Disjoint) (source : ι) (key : String) :
    (s.down source).pool.nodes_.get? key = (s.nodes_.get? key).map (·.erase source) := by
  show (s.deleteActor source).pool.nodes_.get? key = _
  have hother : (∀ actorSet, s.nodes_.get? key = some actorSet → source ∉ actorSet) →
      s.nodes_.get? key = (s.nodes_.get? key).map (·.erase source) := by
    intro hout
    cases hget : s.nodes_.get? key with
    | none => rfl
    | some actorSet => rw [Option.map_some, UnorderedSet.erase_of_notMem (hout actorSet hget)]
  rw [deleteActor]
  split
  · next key' actorSet hfind =>
      obtain ⟨hget, hmem⟩ := holds_of_find? hfind
      rw [OrderedMap.get?_assign, id]
      split
      · next hkey => rw [← hkey, hget, Option.map_some]
      · next hkey =>
          exact hother fun actorSet' hget' hmem' =>
            hkey (hdisj _ _ _ ⟨actorSet, hget, hmem⟩ ⟨actorSet', hget', hmem'⟩)
  · next hnone =>
      refine hother fun actorSet hget hmem => ?_
      exact absurd hmem (by simpa using List.find?_eq_none.mp hnone _ (mem_entries_of_get? hget))

lemma holds_down {s : RouterPool ι} (hdisj : s.Disjoint) (source : ι) (key : String) (actor : ι) :
    (s.down source).pool.Holds key actor ↔ s.Holds key actor ∧ actor ≠ source := by
  rw [Holds, get?_down hdisj]
  cases hget : s.nodes_.get? key with
  | none => simp [Holds, hget]
  | some actorSet => simp [Holds.of_get? hget, and_comm]

/-- Nobody is put into the pool, or told to exit, for a down message. -/
lemma notMem_sent_down (s : RouterPool ι) (source a : ι) :
    .put a ∉ (s.down source).sent ∧ .userShutdown a ∉ (s.down source).sent := by
  rw [down, deleteActor]
  split <;> simp

omit [DecidableEq ι] in
@[simp] lemma deleteActors_pool (s : RouterPool ι) (key : String) (num : ℕ) :
    (s.deleteActors key num).pool = s := by
  rw [deleteActors]
  split <;> rfl

omit [DecidableEq ι] in
lemma holds_deleteNode (s : RouterPool ι) (host : String) (port : UInt16) (key : String)
    (actor : ι) : (s.deleteNode host port).pool.Holds key actor
      ↔ s.Holds key actor ∧ key ≠ buildNodeKey host port := by
  simp only [deleteNode]
  split
  · rw [Holds, OrderedMap.get?_erase]
    split
    · next hkey => simp [hkey]
    · next hkey => exact (and_iff_left (Ne.symm hkey)).symm
  · next hnone =>
      refine (and_iff_left_of_imp ?_).symm
      rintro ⟨actorSet, hget, -⟩ rfl
      exact absurd (hnone.symm.trans hget) (by simp)

omit [DecidableEq ι] in
/-- Whom `DeleteNode` tells to exit. -/
lemma userShutdown_mem_deleteNode (s : RouterPool ι) (host : String) (port : UInt16) (actor : ι) :
    .userShutdown actor ∈ (s.deleteNode host port).sent
      ↔ s.Holds (buildNodeKey host port) actor := by
  simp only [deleteNode]
  split
  · next actors hget => simp [Holds.of_get? hget, UnorderedSet.mem_iff]
  · next hnone => simp [Holds, hnone]

lemma holds_rehash (s : RouterPool ι) (key key' : String) (order : List ι) (actor : ι) :
    (s.rehash key order).Holds key' actor ↔ s.Holds key' actor := by
  rw [rehash]
  split
  · next actorSet hget =>
      rw [holds_assign]
      split
      · next hkey => rw [← hkey, UnorderedSet.mem_rehash, Holds.of_get? hget]
      · rfl
  · rfl

/-! ### What is listed -/

omit [DecidableEq ι] in
lemma mem_getActors {s : RouterPool ι} {actor : ι} :
    actor ∈ s.getActors ↔ ∃ key, s.Holds key actor := by
  rw [getActors, List.mem_flatMap]
  constructor
  · rintro ⟨⟨key, actorSet⟩, hentry, hmem⟩
    exact ⟨key, actorSet, OrderedMap.get?_of_mem_entries hentry, hmem⟩
  · rintro ⟨key, actorSet, hget, hmem⟩
    exact ⟨(key, actorSet), mem_entries_of_get? hget, hmem⟩

omit [DecidableEq ι] in
lemma mem_getActorsOf {s : RouterPool ι} {host : String} {port : UInt16} {actor : ι} :
    actor ∈ s.getActorsOf host port ↔ s.Holds (buildNodeKey host port) actor := by
  rw [getActorsOf]
  split
  · next actorSet hget => rw [Holds.of_get? hget, UnorderedSet.mem_iff]
  · next hnone => simp [Holds, hnone]

omit [DecidableEq ι] in
/-- Every actor is listed once. -/
lemma nodup_getActors {s : RouterPool ι} (hdisj : s.Disjoint) : s.getActors.Nodup := by
  rw [getActors, List.nodup_flatMap]
  refine ⟨fun node _ => node.2.nodup, s.nodes_.sorted.imp_of_mem ?_⟩
  intro node node' hnode hnode' hlt actor hmem hmem'
  exact hlt.ne (hdisj _ _ _ ⟨node.2, OrderedMap.get?_of_mem_entries hnode, hmem⟩
    ⟨node'.2, OrderedMap.get?_of_mem_entries hnode', hmem'⟩)

/-! ### All or nothing -/

/-- If nothing is reported, the nodes are as before and all actors that have been spawned are told
to exit; else the node has as many actors as are wanted. -/
def AllOrNothing (s : RouterPool ι) (key : String) (outcome : Outcome ι) : Prop :=
  (outcome.result = false → outcome.pool.nodes_ = s.nodes_
      ∧ ∀ actor, .put actor ∈ outcome.sent → .userShutdown actor ∈ outcome.sent)
    ∧ (outcome.result = true → ∃ actorSet, outcome.pool.nodes_.get? key = some actorSet
      ∧ actorSet.size = s.defaultActorNum_)

omit [DecidableEq ι] in
lemma get?_insertNode {s : RouterPool ι} {key : String} (hnew : s.nodes_.contains key = false) :
    (s.insertNode key).nodes_.get? key = some .empty := by
  rw [insertNode, if_neg (by simp [hnew])]
  exact OrderedMap.get?_assign_self s.nodes_ key _

/-- The loop succeeds if all its spawns do, and then the node has one more actor for each. -/
lemma addActors_spec {key : String} {spawn : ℕ → Option ι} {n : ℕ} {s : RouterPool ι}
    {actorSet : UnorderedSet ι} (hget : s.nodes_.get? key = some actorSet)
    (hfresh : ∀ i j a, spawn i = some a → spawn j = some a → i = j)
    (hnew : ∀ i a, spawn i = some a → a ∉ actorSet) :
    ((addActors key spawn n s).result = true ↔ ∀ i < n, (spawn i).isSome = true)
      ∧ ∃ actorSet', (addActors key spawn n s).pool.nodes_.get? key = some actorSet'
        ∧ ((addActors key spawn n s).result = true → actorSet'.size = actorSet.size + n) := by
  induction n generalizing spawn s actorSet with
  | zero => exact ⟨by simp [addActors], actorSet, hget, fun _ => rfl⟩
  | succ n ih =>
      cases hspawn : spawn 0 with
      | none =>
          have hfail : addActors key spawn (n + 1) s = { pool := s, result := false } := by
            simp [addActors, addActor, hspawn]
          rw [hfail]
          refine ⟨⟨fun htrue => absurd htrue Bool.false_ne_true, fun hall => ?_⟩, actorSet, hget,
            fun htrue => absurd htrue Bool.false_ne_true⟩
          exact absurd (hall 0 n.succ_pos) (by simp [hspawn])
      | some a =>
          have hadd : s.addActor key (some a) =
              { pool := { s with nodes_ := s.nodes_.assign key (actorSet.insert a) }
                sent := [.put a, .monitor a]
                result := true } := by
            simp [addActor, hget]
          have hget' : (s.addActor key (some a)).pool.nodes_.get? key
              = some (actorSet.insert a) := by
            rw [hadd]
            exact OrderedMap.get?_assign_self s.nodes_ key _
          -- what is spawned later is not the actor that has just been added
          have hnew' : ∀ i b, spawn (i + 1) = some b → b ∉ actorSet.insert a := by
            intro i b hb hmem
            rcases UnorderedSet.mem_insert.mp hmem with rfl | hmem
            · exact absurd (hfresh _ _ _ hb hspawn) (Nat.succ_ne_zero i)
            · exact hnew _ _ hb hmem
          have hfresh' : ∀ i j b, spawn (i + 1) = some b → spawn (j + 1) = some b → i = j :=
            fun i j b hi hj => Nat.succ_injective (hfresh _ _ b hi hj)
          obtain ⟨hres, actorSet', hlast, hsize⟩ := ih hget' hfresh' hnew'
          have hrest : (addActors key spawn (n + 1) s).result = (addActors key
                (fun i => spawn (i + 1)) n (s.addActor key (some a)).pool).result
              ∧ (addActors key spawn (n + 1) s).pool = (addActors key
                (fun i => spawn (i + 1)) n (s.addActor key (some a)).pool).pool := by
            simp [addActors, hspawn, hadd]
          rw [hrest.1, hrest.2, hres]
          refine ⟨⟨fun hall i hi => ?_, fun hall i hi => hall (i + 1) (by omega)⟩, actorSet', hlast,
            fun hall => ?_⟩
          · cases i with
            | zero => rw [hspawn, Option.isSome_some]
            | succ i => exact hall i (by omega)
          · rw [hsize (hres.mpr hall), UnorderedSet.size_insert (hnew 0 a hspawn)]
            omega

/-- **All or nothing.**  `AddNode` adds all or nothing exactly if the gateway cannot be reached, the
node is there already, or all its actors can be spawned. -/
theorem allOrNothing_iff (s : RouterPool ι) (host : String) (port : UInt16) (connected : Bool)
    (spawn : ℕ → Option ι) (hfresh : ∀ i j a, spawn i = some a → spawn j = some a → i = j) :
    s.AllOrNothing (buildNodeKey host port) (s.addNode host port connected spawn)
      ↔ (host.isEmpty = false ∧ connected = false)
        ∨ s.nodes_.contains (buildNodeKey host port) = true
        ∨ ∀ i < s.defaultActorNum_, (spawn i).isSome = true := by
  have hrefused : s.AllOrNothing (buildNodeKey host port) { pool := s, result := false } :=
    ⟨fun _ => ⟨rfl, fun _ hput => absurd hput List.not_mem_nil⟩,
      fun htrue => absurd htrue Bool.false_ne_true⟩
  rw [addNode]
  split
  · next hgateway =>
      have hgateway : host.isEmpty = false ∧ connected = false := by simpa using hgateway
      exact iff_of_true hrefused (Or.inl hgateway)
  · next hgateway =>
      have hgateway : ¬(host.isEmpty = false ∧ connected = false) := by simpa using hgateway
      dsimp only
      split
      · next hthere => exact iff_of_true hrefused (Or.inr (Or.inl hthere))
      · next hthere =>
          have hthere : s.nodes_.contains (buildNodeKey host port) = false :=
            Bool.not_eq_true _ ▸ hthere
          obtain ⟨hres, actorSet, hget, hsize⟩ := addActors_spec (n := s.defaultActorNum_)
            (get?_insertNode hthere) hfresh fun _ a _ => UnorderedSet.notMem_empty a
          simp only [hgateway, hthere, Bool.false_eq_true, false_or]
          rw [← hres]
          constructor
          · rintro ⟨hnothing, -⟩
            by_contra hfail
            -- the node has been inserted, and stays
            have hsame := (hnothing (Bool.not_eq_true _ ▸ hfail)).1
            rw [hsame, OrderedMap.get?_eq_none.mpr hthere] at hget
            exact absurd hget.symm (Option.some_ne_none _)
          · intro hall
            refine ⟨fun hfail => absurd (hfail.symm.trans hall) Bool.false_ne_true,
              fun _ => ⟨actorSet, hget, ?_⟩⟩
            rw [hsize hall]
            exact Nat.zero_add _

/-- Both actors of the local node can be spawned. -/
theorem allOrNothing_local :
    ({ defaultActorNum_ := 2 } : RouterPool ℕ).AllOrNothing ""
      (({ defaultActorNum_ := 2 } : RouterPool ℕ).addNode "" 0 false some) :=
  (allOrNothing_iff { defaultActorNum_ := 2 } "" 0 false some
    fun _ _ _ hi hj => Option.some_inj.mp (hi.trans hj.symm)).mpr (Or.inr (Or.inr fun _ _ => rfl))

/-- The second actor cannot be spawned.  The first one and the node stay, so the node cannot be
added again. -/
theorem not_allOrNothing_second :
    ¬({ defaultActorNum_ := 2 } : RouterPool ℕ).AllOrNothing ""
        (({ defaultActorNum_ := 2 } : RouterPool ℕ).addNode "" 0 false fun i => [7][i]?)
      ∧ ((({ defaultActorNum_ := 2 } : RouterPool ℕ).addNode "" 0 false
          fun i => [7][i]?).pool.addNode "" 0 false (fun i => some (i + 8))).result = false := by
  refine ⟨fun h => ?_, by decide⟩
  have hsame := congrArg (OrderedMap.contains · "") (h.1 (by decide)).1
  exact absurd hsame (by decide)

end RouterPool

end Cdcf
