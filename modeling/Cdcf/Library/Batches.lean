import Mathlib.Data.List.Basic
import Mathlib.Order.Bounds.Basic

/-!
Lists in batches.

* `batchCount`, `batches`: the pieces of `k` elements, the last of which may be shorter.
* `batchCount_lt`: there are fewer batches than elements.
* `isLeast_of_batches`: the least of what is least in the batches is the least of the list.
-/

namespace Cdcf

namespace Batches

variable {α : Type*} {k n i : ℕ} {l : List α}

/-- The number of batches of `n` elements. -/
def batchCount (k n : ℕ) : ℕ := n / k + if n % k ≠ 0 then 1 else 0

/-- The batches of the list. -/
def batches (k : ℕ) (l : List α) : List (List α) :=
  (List.range (batchCount k l.length)).map fun i => (l.drop (k * i)).take k

@[simp] lemma length_batches : (batches k l).length = batchCount k l.length := by
  rw [batches, List.length_map, List.length_range]

/-- There is a batch for each multiple of `k` below the number of elements. -/
lemma lt_batchCount_iff (hk : 0 < k) : i < batchCount k n ↔ k * i < n := by
  have hdiv := Nat.div_add_mod n k
  have hmod := Nat.mod_lt n hk
  rw [batchCount]
  constructor
  · intro h
    split at h
    · have hle : k * i ≤ k * (n / k) := Nat.mul_le_mul_left k (by omega)
      omega
    · have hlt : k * i < k * (n / k) := Nat.mul_lt_mul_of_pos_left (by omega) hk
      omega
  · intro h
    by_contra hge
    split at hge
    · have hle : k * (n / k + 1) ≤ k * i := Nat.mul_le_mul_left k (by omega)
      rw [Nat.mul_add, Nat.mul_one] at hle
      omega
    · have hle : k * (n / k) ≤ k * i := Nat.mul_le_mul_left k (by omega)
      omega

lemma batchCount_pos (hk : 0 < k) (hn : 0 < n) : 0 < batchCount k n :=
  (lt_batchCount_iff hk).mpr (by omega)

/-- There are fewer batches than elements. -/
lemma batchCount_lt (hk : 2 ≤ k) (hn : 2 ≤ n) : batchCount k n < n := by
  have hnot : ¬n - 1 < batchCount k n := by
    rw [lt_batchCount_iff (by omega)]
    have hle : 2 * (n - 1) ≤ k * (n - 1) := Nat.mul_le_mul_right (n - 1) hk
    omega
  omega

/-- No batch is empty. -/
lemma ne_nil_of_mem_batches (hk : 0 < k) {batch : List α} (h : batch ∈ batches k l) :
    batch ≠ [] := by
  obtain ⟨i, hi, rfl⟩ := List.mem_map.mp h
  have hlt := (lt_batchCount_iff hk).mp (List.mem_range.mp hi)
  refine List.ne_nil_of_length_pos ?_
  rw [List.length_take, List.length_drop]
  omega

/-- The elements of the list are those of the batches. -/
lemma mem_iff_exists_batch (hk : 0 < k) {a : α} : a ∈ l ↔ ∃ batch ∈ batches k l, a ∈ batch := by
  constructor
  · intro ha
    obtain ⟨j, hj, rfl⟩ := List.mem_iff_getElem.mp ha
    have hdiv := Nat.div_add_mod j k
    have hmod := Nat.mod_lt j hk
    refine ⟨(l.drop (k * (j / k))).take k, List.mem_map.mpr ⟨j / k, ?_, rfl⟩, ?_⟩
    · exact List.mem_range.mpr ((lt_batchCount_iff hk).mpr (by omega))
    · refine List.mem_iff_getElem?.mpr ⟨j % k, ?_⟩
      rw [List.getElem?_take_of_lt hmod, List.getElem?_drop, hdiv]
      exact List.getElem?_eq_getElem hj
  · rintro ⟨batch, hbatch, ha⟩
    obtain ⟨i, -, rfl⟩ := List.mem_map.mp hbatch
    exact List.mem_of_mem_drop (List.mem_of_mem_take ha)

/-- The least of what is least in the batches. -/
theorem isLeast_of_batches [Preorder α] (hk : 0 < k) {least : List α → α}
    (hleast : ∀ batch ∈ batches k l, IsLeast {a | a ∈ batch} (least batch)) {r : α}
    (h : IsLeast {a | a ∈ (batches k l).map least} r) : IsLeast {a | a ∈ l} r := by
  constructor
  · obtain ⟨batch, hbatch, hr⟩ := List.mem_map.mp h.1
    exact (mem_iff_exists_batch hk).mpr ⟨batch, hbatch, hr ▸ (hleast batch hbatch).1⟩
  · intro a ha
    obtain ⟨batch, hbatch, ha⟩ := (mem_iff_exists_batch hk).mp ha
    exact le_trans (h.2 (List.mem_map_of_mem hbatch)) ((hleast batch hbatch).2 ha)

end Batches

end Cdcf
