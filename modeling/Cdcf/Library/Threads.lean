import Mathlib.Algebra.BigOperators.Group.List.Basic
import Mathlib.Algebra.Order.Ring.Nat

/-!
Threads as the list of the places where they are: one moves, the others stay.

* `getElem?_of_set`: where the threads are after a move; `getElem?_concat`: where they are when one
  more has come.
* `sum_map_set`: what a move adds to a quantity that is summed over the threads.
-/

namespace Cdcf

variable {α : Type*}

/-- Where a thread is after one has moved: it is the one, or it is where it was. -/
lemma getElem?_of_set {l : List α} {i j : ℕ} {a b : α} (h : (l.set i a)[j]? = some b) :
    j = i ∧ b = a ∨ j ≠ i ∧ l[j]? = some b := by
  by_cases hij : i = j
  · subst hij
    rw [List.getElem?_set_self'] at h
    cases hl : l[i]? with
    | none => simp [hl] at h
    | some old => exact Or.inl ⟨rfl, by simpa [hl, eq_comm] using h⟩
  · rw [List.getElem?_set_ne hij] at h
    exact Or.inr ⟨Ne.symm hij, h⟩

/-- Where a thread is after one more has come: it is the one, or it is where it was. -/
lemma getElem?_concat {l : List α} {j : ℕ} {a b : α} :
    (l ++ [a])[j]? = some b ↔ l[j]? = some b ∨ j = l.length ∧ a = b := by
  rcases Nat.lt_trichotomy j l.length with hlt | rfl | hgt
  · rw [List.getElem?_append_left hlt]
    exact (or_iff_left fun h => hlt.ne h.1).symm
  · simp
  · have hout : (l ++ [a]).length ≤ j := by
      rw [List.length_append, List.length_singleton]
      exact hgt
    rw [List.getElem?_eq_none hout, List.getElem?_eq_none hgt.le]
    simp [hgt.ne']

/-- The quantity of the place that is left goes, and that of the new place comes. -/
lemma sum_map_set {l : List α} {i : ℕ} {old : α} (h : l[i]? = some old) (f : α → ℕ) (new : α) :
    ((l.set i new).map f).sum + f old = (l.map f).sum + f new := by
  induction l generalizing i with
  | nil => simp at h
  | cons a l ih =>
      cases i with
      | zero =>
          obtain rfl : a = old := by simpa using h
          simp only [List.set_cons_zero, List.map_cons, List.sum_cons]
          omega
      | succ i =>
          have htail := ih (by simpa using h)
          simp only [List.set_cons_succ, List.map_cons, List.sum_cons]
          omega

end Cdcf
