import Mathlib.Data.List.Nodup

/-!
Maps in the sense of `std::unordered_map`: finite, and iterated in an order that is not specified.

A map is the list of its entries in the order in which a loop meets them, with the proof that no key
comes twice.

* `get?_assign`, `get?_erase`: the operations read through a lookup.
* `mem_entries_iff`: a loop meets the entries that a lookup finds.
-/

namespace Cdcf

/-- A finite map in an order of iteration. -/
structure UnorderedMap (κ β : Type*) where
  entries : List (κ × β)
  nodup : (entries.map Prod.fst).Nodup

namespace UnorderedMap

variable {κ β : Type*}

/-- The map without entries. -/
def empty : UnorderedMap κ β := ⟨[], List.nodup_nil⟩

/-- The values, in the order of iteration. -/
def values (m : UnorderedMap κ β) : List β := m.entries.map Prod.snd

variable [DecidableEq κ]

/-- The value at a key. -/
def get? (m : UnorderedMap κ β) (k : κ) : Option β :=
  (m.entries.find? fun p => p.1 = k).map Prod.snd

/-- `erase`. -/
def erase (m : UnorderedMap κ β) (k : κ) : UnorderedMap κ β where
  entries := m.entries.filter fun p => p.1 ≠ k
  nodup := m.nodup.sublist (List.filter_sublist.map _)

/-- `operator[]` on the left of an assignment. -/
def assign (m : UnorderedMap κ β) (k : κ) (v : β) : UnorderedMap κ β where
  entries := (k, v) :: (m.erase k).entries
  nodup := by
    refine List.nodup_cons.mpr ⟨fun h => ?_, (m.erase k).nodup⟩
    obtain ⟨p, hp, hk⟩ := List.mem_map.mp h
    exact absurd hk (of_decide_eq_true (List.mem_filter.mp hp).2)

@[simp] lemma get?_empty (k : κ) : (empty : UnorderedMap κ β).get? k = none := rfl

/-- A loop meets the entries that a lookup finds. -/
lemma mem_entries_iff {m : UnorderedMap κ β} {k : κ} {v : β} :
    (k, v) ∈ m.entries ↔ m.get? k = some v := by
  constructor
  · intro h
    rw [get?]
    cases hf : m.entries.find? fun p => p.1 = k with
    | none => exact absurd (List.find?_eq_none.mp hf _ h) (by simp)
    | some p =>
        have hk : p.1 = k := by simpa using List.find?_some hf
        have hp : p = (k, v) :=
          List.inj_on_of_nodup_map m.nodup (List.mem_of_find?_eq_some hf) h hk
        rw [hp, Option.map_some]
  · intro h
    obtain ⟨p, hf, rfl⟩ := Option.map_eq_some_iff.mp h
    have hk : p.1 = k := by simpa using List.find?_some hf
    exact hk ▸ List.mem_of_find?_eq_some hf

@[simp] lemma get?_erase (m : UnorderedMap κ β) (k k' : κ) :
    (m.erase k).get? k' = if k' = k then none else m.get? k' := by
  refine Option.ext fun v => ?_
  rw [← mem_entries_iff, erase, List.mem_filter]
  by_cases h : k' = k
  · simp [h]
  · simp [h, mem_entries_iff]

@[simp] lemma get?_assign (m : UnorderedMap κ β) (k : κ) (v : β) (k' : κ) :
    (m.assign k v).get? k' = if k' = k then some v else m.get? k' := by
  refine Option.ext fun v' => ?_
  rw [← mem_entries_iff, assign, List.mem_cons, mem_entries_iff, get?_erase]
  by_cases h : k' = k
  · simp [h, eq_comm]
  · simp [h]

end UnorderedMap

end Cdcf
