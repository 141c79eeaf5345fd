import Mathlib.Algebra.Order.Monoid.Unbundled.Basic
import Mathlib.Order.Bounds.Image

/-!
Paths down a triangle, and their least sum.

A path starts at the top and goes down one row at a time, to the entry below or to the next one;
its sum is that of the entries that it meets.  The least sum of the paths to an entry comes from
those of one or two entries of the row above.

* `Path`: the sums of the paths to an entry; `below`, `least`: the row-wise computation.
* `isLeast_least`: it gives the least sum of the paths to each entry of a row.
* `isLeast_of_row`: the least entry of a row so computed is the least sum of all paths to the row.
-/

namespace Cdcf

namespace Triangle

variable {α : Type*}

/-- The sums of the paths to entry `j` of row `i`. -/
inductive Path [Add α] (cost : ℕ → ℕ → α) : ℕ → ℕ → α → Prop
  | top : Path cost 0 0 (cost 0 0)
  | straight {i j : ℕ} {s : α} (h : Path cost i j s) : Path cost (i + 1) j (s + cost (i + 1) j)
  | aside {i j : ℕ} {s : α} (h : Path cost i j s) :
      Path cost (i + 1) (j + 1) (s + cost (i + 1) (j + 1))

/-- Entry `j` of row `i`, where `x` is, from the row above. -/
def below [Add α] [Min α] (above : ℕ → α) (i j : ℕ) (x : α) : α :=
  if j = 0 then above 0 + x
  else if j = i then above (j - 1) + x
  else min (above (j - 1)) (above j) + x

/-- The least sum of the paths to entry `j` of row `i`, row by row. -/
def least [Add α] [Min α] (cost : ℕ → ℕ → α) : ℕ → ℕ → α
  | 0, j => cost 0 j
  | i + 1, j => below (least cost i) (i + 1) j (cost (i + 1) j)

section

variable [Add α] {cost : ℕ → ℕ → α}

/-- A path stays in the triangle. -/
lemma Path.le {i j : ℕ} {s : α} (h : Path cost i j s) : j ≤ i := by
  induction h with
  | top => exact Nat.le_refl 0
  | straight _ ih => exact Nat.le_succ_of_le ih
  | aside _ ih => exact Nat.succ_le_succ ih

/-- The paths to the first entry of a row go straight down. -/
lemma setOf_path_zero (i : ℕ) :
    {s | Path cost (i + 1) 0 s} = (· + cost (i + 1) 0) '' {s | Path cost i 0 s} := by
  ext s
  constructor
  · intro h
    cases h with
    | straight h => exact ⟨_, h, rfl⟩
  · rintro ⟨s, h, rfl⟩
    exact Path.straight h

/-- The paths to the last entry of a row keep to the side. -/
lemma setOf_path_last (i : ℕ) :
    {s | Path cost (i + 1) (i + 1) s} = (· + cost (i + 1) (i + 1)) '' {s | Path cost i i s} := by
  ext s
  constructor
  · intro h
    cases h with
    | straight h => exact absurd h.le (Nat.not_succ_le_self i)
    | aside h => exact ⟨_, h, rfl⟩
  · rintro ⟨s, h, rfl⟩
    exact Path.aside h

/-- Any other entry is reached from two sides. -/
lemma setOf_path_succ (i j : ℕ) :
    {s | Path cost (i + 1) (j + 1) s} = (· + cost (i + 1) (j + 1)) ''
      ({s | Path cost i j s} ∪ {s | Path cost i (j + 1) s}) := by
  ext s
  constructor
  · intro h
    cases h with
    | straight h => exact ⟨_, Or.inr h, rfl⟩
    | aside h => exact ⟨_, Or.inl h, rfl⟩
  · rintro ⟨s, h | h, rfl⟩
    · exact Path.aside h
    · exact Path.straight h

end

variable [LinearOrder α] [Add α] [AddRightMono α] {cost : ℕ → ℕ → α}

/-- What is computed for an entry is the least sum of the paths to it. -/
theorem isLeast_least {i j : ℕ} (h : j ≤ i) :
    IsLeast {s | Path cost i j s} (least cost i j) := by
  have hmono : ∀ x : α, Monotone (· + x) := fun x _ _ hle => add_le_add_left hle x
  induction i generalizing j with
  | zero =>
      obtain rfl := Nat.le_zero.mp h
      refine ⟨Path.top, fun s hs => ?_⟩
      cases hs with
      | top => exact le_refl _
  | succ i ih =>
      rw [least, below]
      cases j with
      | zero =>
          rw [setOf_path_zero, if_pos rfl]
          exact (hmono _).map_isLeast (ih (Nat.zero_le i))
      | succ j =>
          rw [if_neg (Nat.succ_ne_zero j), Nat.add_sub_cancel]
          by_cases hlast : j = i
          · subst hlast
            rw [setOf_path_last, if_pos rfl]
            exact (hmono _).map_isLeast (ih (Nat.le_refl j))
          · rw [setOf_path_succ, if_neg (fun heq => hlast (Nat.succ_inj.mp heq))]
            exact (hmono _).map_isLeast ((ih (by omega)).union (ih (by omega)))

/-- A row as it is computed. -/
def IsRow (cost : ℕ → ℕ → α) (i : ℕ) (row : List α) : Prop :=
  row.length = i + 1 ∧ ∀ j ≤ i, row[j]? = some (least cost i j)

/-- The least entry of the row is the least sum of all paths to the row. -/
theorem isLeast_of_row {i : ℕ} {row : List α} (hrow : IsRow cost i row) {m : α}
    (hm : IsLeast {a | a ∈ row} m) : IsLeast {s | ∃ j, Path cost i j s} m := by
  constructor
  · obtain ⟨j, hj⟩ := List.mem_iff_getElem?.mp hm.1
    have hle : j ≤ i := by
      have hlt := (List.getElem?_eq_some_iff.mp hj).1
      have hlength := hrow.1
      omega
    rw [hrow.2 j hle, Option.some.injEq] at hj
    exact ⟨j, hj ▸ (isLeast_least hle).1⟩
  · rintro s ⟨j, hs⟩
    have hmem : least cost i j ∈ row := List.mem_of_getElem? (hrow.2 j hs.le)
    exact le_trans (hm.2 hmem) ((isLeast_least hs.le).2 hs)

end Triangle

end Cdcf
