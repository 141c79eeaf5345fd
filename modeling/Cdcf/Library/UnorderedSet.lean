import Mathlib.Data.List.Nodup
import Mathlib.Data.List.Perm.Basic

/-!
Sets in the sense of `std::unordered_set`: finite, and iterated in an order that is not specified.

A set is the list of its elements in the order in which a loop meets them, with the proof that none
comes twice.  Insertion may put them into any order, which `rehash` does.

* `UnorderedSet`: the elements with the proof.
* `mem_insert`, `mem_erase`, `mem_rehash`: each operation read through membership.
* `size_insert`, `size_rehash`: and through the number of elements.
-/

namespace Cdcf

/-- A finite set in an order of iteration. -/
structure UnorderedSet (α : Type*) where
  elems : List α
  nodup : elems.Nodup
  deriving DecidableEq

namespace UnorderedSet

variable {α : Type*}

instance : Membership α (UnorderedSet α) := ⟨fun s a => a ∈ s.elems⟩

instance [DecidableEq α] (s : UnorderedSet α) (a : α) : Decidable (a ∈ s) :=
  inferInstanceAs (Decidable (a ∈ s.elems))

lemma mem_iff {s : UnorderedSet α} {a : α} : a ∈ s ↔ a ∈ s.elems := Iff.rfl

/-- The set without elements. -/
def empty : UnorderedSet α := ⟨[], List.nodup_nil⟩

/-- The number of elements. -/
def size (s : UnorderedSet α) : ℕ := s.elems.length

variable [DecidableEq α]

/-- `insert`, which leaves a set that has the element as it is. -/
def insert (s : UnorderedSet α) (a : α) : UnorderedSet α := ⟨s.elems.insert a, s.nodup.insert⟩

/-- `erase`. -/
def erase (s : UnorderedSet α) (a : α) : UnorderedSet α := ⟨s.elems.erase a, s.nodup.erase a⟩

/-- The elements come in another order from now on. -/
def rehash (s : UnorderedSet α) (order : List α) : UnorderedSet α :=
  if h : order.Perm s.elems then ⟨order, h.nodup_iff.mpr s.nodup⟩ else s

omit [DecidableEq α] in
@[simp] lemma notMem_empty (a : α) : a ∉ (empty : UnorderedSet α) := List.not_mem_nil

@[simp] lemma mem_insert {s : UnorderedSet α} {a b : α} : a ∈ s.insert b ↔ a = b ∨ a ∈ s :=
  List.mem_insert_iff

@[simp] lemma mem_erase {s : UnorderedSet α} {a b : α} : a ∈ s.erase b ↔ a ≠ b ∧ a ∈ s :=
  s.nodup.mem_erase_iff

lemma elems_erase (s : UnorderedSet α) (a : α) : (s.erase a).elems = s.elems.filter (· != a) :=
  s.nodup.erase_eq_filter a

lemma erase_of_notMem {s : UnorderedSet α} {a : α} (h : a ∉ s) : s.erase a = s := by
  cases s
  simp only [erase, List.erase_of_not_mem h]

/-- The order that is given is taken, or the old one stays. -/
lemma elems_rehash_perm (s : UnorderedSet α) (order : List α) :
    (s.rehash order).elems.Perm s.elems := by
  rw [rehash]
  split
  · next h => exact h
  · exact List.Perm.refl _

@[simp] lemma mem_rehash {s : UnorderedSet α} {order : List α} {a : α} :
    a ∈ s.rehash order ↔ a ∈ s :=
  (s.elems_rehash_perm order).mem_iff

@[simp] lemma size_rehash (s : UnorderedSet α) (order : List α) : (s.rehash order).size = s.size :=
  (s.elems_rehash_perm order).length_eq

lemma elems_insert {s : UnorderedSet α} {a : α} (h : a ∉ s) : (s.insert a).elems = a :: s.elems :=
  List.insert_of_not_mem h

lemma size_insert {s : UnorderedSet α} {a : α} (h : a ∉ s) : (s.insert a).size = s.size + 1 :=
  List.length_insert_of_not_mem h

end UnorderedSet

end Cdcf
