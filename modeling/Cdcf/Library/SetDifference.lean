import Mathlib.Data.List.Perm.Subperm
import Mathlib.Data.List.Sort
import Mathlib.Order.Defs.LinearOrder

/-!
The difference of two sorted ranges as `std::set_difference` computes it.

The algorithm walks both ranges at once and pairs off elements that its comparator cannot tell
apart.  Under a comparator by a key it therefore has the semantics of a multiset of keys: of the
elements with one key it drops as many, from the front, as the second range has
(`filter_setDifference`).

`prefix_or_prefix_iff` says when a set can be brought from one sorted list to another by adding
and removing what is left over after such a pairing.
-/

namespace Cdcf

variable {α κ : Type*}

/-- The walk of `setDifference` along its second range, for one element `x` of the first; `rest`
is the difference from the next element of the first range on. -/
def setDifferenceFrom (lt : α → α → Bool) (x : α) (xs : List α) (rest : List α → List α) :
    List α → List α
  | [] => x :: xs
  | y :: ys =>
      if lt x y then x :: rest (y :: ys)
      else if lt y x then setDifferenceFrom lt x xs rest ys
      else rest ys

/-- `std::set_difference`. -/
def setDifference (lt : α → α → Bool) : List α → List α → List α
  | [], _ => []
  | x :: xs, ys => setDifferenceFrom lt x xs (setDifference lt xs) ys

section

variable (lt : α → α → Bool)

lemma setDifference_cons_cons (x y : α) (xs ys : List α) :
    setDifference lt (x :: xs) (y :: ys)
      = if lt x y then x :: setDifference lt xs (y :: ys)
        else if lt y x then setDifference lt (x :: xs) ys
        else setDifference lt xs ys := rfl

/-- The difference keeps the order of its first range. -/
lemma setDifference_sublist (xs ys : List α) : (setDifference lt xs ys).Sublist xs := by
  induction xs generalizing ys with
  | nil => exact List.Sublist.slnil
  | cons x xs ihx =>
      induction ys with
      | nil => exact List.Sublist.refl _
      | cons y ys ihy =>
          rw [setDifference_cons_cons]
          split_ifs
          · exact (ihx _).cons_cons x
          · exact ihy
          · exact (ihx _).cons x

end

variable [LinearOrder κ] (key : α → κ)

/-- No element has a key that lies below all keys of a sorted list. -/
lemma filter_eq_nil_of_lt {x : α} {xs : List α} {k : κ}
    (hx : (x :: xs).Pairwise fun a b => key a ≤ key b) (hk : k < key x) :
    (x :: xs).filter (fun a => key a = k) = [] := by
  refine List.filter_eq_nil_iff.mpr fun a ha => ?_
  have hle : key x ≤ key a := by
    rcases List.mem_cons.mp ha with rfl | ha
    · exact le_rfl
    · exact (List.pairwise_cons.mp hx).1 a ha
  simpa using (hk.trans_le hle).ne'

/-- Of the elements with one key, the difference of two ranges sorted by the key drops as many
from the front as the second range has. -/
theorem filter_setDifference {xs ys : List α} (hx : xs.Pairwise fun a b => key a ≤ key b)
    (hy : ys.Pairwise fun a b => key a ≤ key b) (k : κ) :
    (setDifference (fun a b => decide (key a < key b)) xs ys).filter (fun a => key a = k)
      = (xs.filter fun a => key a = k).drop (ys.filter fun a => key a = k).length := by
  induction xs generalizing ys with
  | nil => simp [setDifference]
  | cons x xs ihx =>
      induction ys with
      | nil => rfl
      | cons y ys ihy =>
          have hxs := (List.pairwise_cons.mp hx).2
          have hys := (List.pairwise_cons.mp hy).2
          rw [setDifference_cons_cons]
          rcases lt_trichotomy (key x) (key y) with hlt | heq | hlt
          · rw [if_pos (decide_eq_true hlt)]
            by_cases hk : key x = k
            · -- no element of the second range can pair off with `x`
              have hnone := filter_eq_nil_of_lt key hy (hk ▸ hlt)
              rw [List.filter_cons_of_pos (by simpa using hk), ihx hxs hy, hnone,
                List.filter_cons_of_pos (by simpa using hk)]
              rfl
            · rw [List.filter_cons_of_neg (by simpa using hk), ihx hxs hy,
                List.filter_cons_of_neg (a := x) (by simpa using hk)]
          · rw [if_neg (by simp [heq]), if_neg (by simp [heq]), ihx hxs hys]
            by_cases hk : key x = k
            · rw [List.filter_cons_of_pos (a := x) (by simpa using hk),
                List.filter_cons_of_pos (a := y) (by simpa [heq] using hk), List.length_cons,
                List.drop_succ_cons]
            · rw [List.filter_cons_of_neg (a := x) (by simpa using hk),
                List.filter_cons_of_neg (a := y) (by simpa [heq] using hk)]
          · rw [if_neg (by simpa using hlt.le), if_pos (decide_eq_true hlt), ihy hys]
            by_cases hk : key y = k
            · rw [filter_eq_nil_of_lt key hx (hk ▸ hlt), List.drop_nil, List.drop_nil]
            · rw [List.filter_cons_of_neg (a := y) (by simpa using hk)]

/-- A set that holds the elements of `p` holds those of `n` after `n` without as many elements as
`p` has has been added and `p` without as many as `n` has has been removed, exactly when one of
the two sorted lists is a prefix of the other. -/
theorem prefix_or_prefix_iff {p n : List κ} (hp : p.Pairwise (· < ·)) (hn : n.Pairwise (· < ·)) :
    (∀ a, (a ∈ p ∨ a ∈ n.drop p.length) ∧ a ∉ p.drop n.length ↔ a ∈ n) ↔ p <+: n ∨ n <+: p := by
  have hdisj : ∀ {l : List κ} (m : ℕ), l.Pairwise (· < ·) → ∀ a ∈ l.take m, a ∉ l.drop m := by
    intro l m hl a htake hdrop
    rw [← List.take_append_drop m l] at hl
    exact lt_irrefl a ((List.pairwise_append.mp hl).2.2 a htake a hdrop)
  -- a sorted list that contains another of its length is the other
  have heq : ∀ {l l' : List κ}, l.Pairwise (· < ·) → l'.Pairwise (· < ·) → l ⊆ l' →
      l'.length ≤ l.length → l = l' := fun hl hl' hsub hlen =>
    ((List.Nodup.subperm hl.nodup hsub).perm_of_length_le hlen).eq_of_pairwise
      (fun a b _ _ hab hba => absurd hab hba.asymm) hl hl'
  constructor
  · intro h
    rcases Nat.le_total p.length n.length with hlen | hlen
    · rw [List.drop_of_length_le hlen] at h
      refine Or.inl (List.prefix_iff_eq_take.mpr (heq hn.take hp (fun a ha => ?_) ?_).symm)
      · have hmem := (h a).mpr (List.mem_of_mem_take ha)
        exact hmem.1.resolve_right (hdisj p.length hn a ha)
      · rw [List.length_take, Nat.min_eq_left hlen]
    · rw [List.drop_of_length_le hlen] at h
      refine Or.inr (List.prefix_iff_eq_take.mpr (heq hn hp.take (fun a ha => ?_) ?_))
      · obtain ⟨hmem, hdrop⟩ := (h a).mpr ha
        have hp' : a ∈ p.take n.length ++ p.drop n.length := by
          rw [List.take_append_drop]
          exact hmem.resolve_right List.not_mem_nil
        exact (List.mem_append.mp hp').resolve_right hdrop
      · rw [List.length_take]
        exact Nat.min_le_left _ _
  · rintro (⟨t, rfl⟩ | ⟨t, rfl⟩) a
    · rw [List.drop_left, List.drop_of_length_le (by simp)]
      simp
    · have hd := hdisj n.length hp a
      rw [List.take_left, List.drop_left] at hd
      rw [List.drop_left, List.drop_of_length_le (l := n) (by simp), List.mem_append]
      constructor
      · rintro ⟨(hn' | ht) | hnil, hnot⟩
        · exact hn'
        · exact absurd ht hnot
        · exact absurd hnil List.not_mem_nil
      · exact fun ha => ⟨Or.inl (Or.inl ha), hd ha⟩

end Cdcf
