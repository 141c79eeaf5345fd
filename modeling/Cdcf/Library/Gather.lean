import Cdcf.Library.OrderedMap
import Mathlib.Algebra.Ring.Nat
import Mathlib.Data.List.Nodup
import Mathlib.Data.List.Perm.Basic

/-!
Gathering numbered results that arrive in any order.

Values for the numbers below `n` are under way, each with its number, and are entered into a table
as they arrive.

* `Gathering`: what is under way and what is in the table make up all values.
* `Gathering.start`, `Gathering.perm`, `Gathering.arrive`, `Gathering.done`: the beginning, another
  order, an arrival, and the end.
* `mapM_eq_pure`, `filterMap_map_range`, `sum_map_range`: what is made, one after the other, for the
  values to come.
* `Collecting`: the same for a map that takes the values up.
-/

namespace Cdcf

variable {β : Type*}

/-- Nothing is taken out of an empty list. -/
lemma not_lt_length_nil {l : List β} {k : ℕ} (h : l = []) : ¬k < l.length := by
  rw [h]
  exact Nat.not_lt_zero k

/-- What is made for each element. -/
lemma mapM_eq_pure {α γ : Type*} {m : Type _ → Type*} [Monad m] [LawfulMonad m] {make : α → m γ}
    {f : α → γ} {l : List α} (h : ∀ a ∈ l, make a = pure (f a)) :
    l.mapM make = pure (l.map f) := by
  induction l with
  | nil => rfl
  | cons a l ih =>
      rw [List.mapM_cons, h a List.mem_cons_self, pure_bind,
        ih fun b hb => h b (List.mem_cons_of_mem a hb), pure_bind, List.map_cons]

section

variable {γ : Type*} {make : ℕ → γ} {n : ℕ}

/-- What is made stands for all values. -/
lemma filterMap_map_range {value : γ → Option (ℕ × β)} {f : ℕ → β}
    (h : ∀ j ∈ List.range n, value (make j) = some (j, f j)) :
    ((List.range n).map make).filterMap value = (List.range n).map fun j => (j, f j) := by
  rw [List.filterMap_map]
  exact List.filterMap_eq_map_iff_forall_eq_some.mpr h

/-- The costs of what is made, each of which is the same. -/
lemma sum_map_range {cost : γ → ℕ} {k : ℕ} (h : ∀ j ∈ List.range n, cost (make j) = k) :
    (((List.range n).map make).map cost).sum = n * k := by
  have hconst : (List.range n).map (cost ∘ make) = (List.range n).map fun _ => k :=
    List.map_congr_left h
  rw [List.map_map, hconst, List.map_const', List.sum_replicate_nat, List.length_range]

end

/-- The value of each number is under way, or in the table. -/
structure Gathering (f : ℕ → β) (n : ℕ) (flying : List (ℕ × β)) (table : ℕ → Option β) : Prop where
  nodup : (flying.map Prod.fst).Nodup
  right : ∀ p ∈ flying, p.1 < n ∧ p.2 = f p.1
  got : ∀ j < n, j ∉ flying.map Prod.fst → table j = some (f j)

namespace Gathering

variable {f : ℕ → β} {n : ℕ} {flying flying' : List (ℕ × β)} {table table' : ℕ → Option β}

/-- All values are under way. -/
lemma start (f : ℕ → β) (n : ℕ) (table : ℕ → Option β) :
    Gathering f n ((List.range n).map fun j => (j, f j)) table := by
  have hnumbers : ((List.range n).map fun j => (j, f j)).map Prod.fst = List.range n := by
    rw [List.map_map]
    exact List.map_id _
  refine ⟨?_, fun p hp => ?_, fun j hj hnot => ?_⟩
  · rw [hnumbers]
    exact List.nodup_range
  · obtain ⟨j, hj, rfl⟩ := List.mem_map.mp hp
    exact ⟨List.mem_range.mp hj, rfl⟩
  · rw [hnumbers] at hnot
    exact absurd (List.mem_range.mpr hj) hnot

/-- The order does not matter. -/
lemma perm (h : Gathering f n flying table) (hperm : flying.Perm flying') :
    Gathering f n flying' table := by
  have hnumbers := hperm.map Prod.fst
  exact ⟨hnumbers.nodup_iff.mp h.nodup, fun p hp => h.right p (hperm.mem_iff.mpr hp),
    fun j hj hnot => h.got j hj fun hmem => hnot (hnumbers.mem_iff.mp hmem)⟩

/-- A value arrives. -/
lemma arrive {p : ℕ × β} (h : Gathering f n (p :: flying) table) (hself : table' p.1 = some p.2)
    (hother : ∀ k ≠ p.1, table' k = table k) : Gathering f n flying table' := by
  have hnodup := h.nodup
  rw [List.map_cons, List.nodup_cons] at hnodup
  refine ⟨hnodup.2, fun q hq => h.right q (List.mem_cons_of_mem _ hq), fun j hj hnot => ?_⟩
  by_cases hj' : j = p.1
  · rw [hj', hself, (h.right p List.mem_cons_self).2]
  · rw [hother j hj']
    refine h.got j hj fun hmem => ?_
    exact (List.mem_cons.mp hmem).elim hj' hnot

/-- All values are in the table. -/
lemma done (h : Gathering f n [] table) : ∀ j < n, table j = some (f j) :=
  fun j hj => h.got j hj List.not_mem_nil

end Gathering

/-- The values that are under way, and the entries of the map, make up all values. -/
def Collecting (f : ℕ → β) (n : ℕ) (flying : List (ℕ × β)) (m : OrderedMap (id : ℕ → ℕ) β) : Prop :=
  (m.entries ++ flying).Perm ((List.range n).map fun j => (j, f j))

namespace Collecting

variable {f : ℕ → β} {n : ℕ} {flying flying' : List (ℕ × β)} {m : OrderedMap (id : ℕ → ℕ) β}

/-- All values are under way. -/
lemma start (f : ℕ → β) (n : ℕ) :
    Collecting f n ((List.range n).map fun j => (j, f j)) OrderedMap.empty :=
  List.Perm.refl _

/-- The order does not matter. -/
lemma perm (h : Collecting f n flying m) (hperm : flying.Perm flying') :
    Collecting f n flying' m :=
  (hperm.symm.append_left m.entries).trans h

lemma size_add (h : Collecting f n flying m) : m.size + flying.length = n := by
  have hlength := h.length_eq
  rwa [List.length_append, List.length_map, List.length_range] at hlength

/-- What is under way is right. -/
lemma right (h : Collecting f n flying m) {p : ℕ × β} (hp : p ∈ flying) :
    p.1 < n ∧ p.2 = f p.1 := by
  obtain ⟨j, hj, rfl⟩ := List.mem_map.mp (h.mem_iff.mp (List.mem_append_right _ hp))
  exact ⟨List.mem_range.mp hj, rfl⟩

/-- A value arrives. -/
lemma arrive {p : ℕ × β} (h : Collecting f n (p :: flying) m) :
    Collecting f n flying (m.emplace p.1 p.2) := by
  have hnumbers : ((List.range n).map fun j => (j, f j)).map Prod.fst = List.range n := by
    rw [List.map_map]
    exact List.map_id _
  have hnodup : ((m.entries ++ p :: flying).map Prod.fst).Nodup := by
    rw [(h.map Prod.fst).nodup_iff, hnumbers]
    exact List.nodup_range
  have hnew : ∀ q ∈ m.entries, id q.1 ≠ id p.1 := by
    rw [List.map_append, List.nodup_append] at hnodup
    intro q hq
    exact hnodup.2.2 q.1 (List.mem_map_of_mem hq) p.1 List.mem_cons_self
  have hentries := (OrderedMap.perm_entries_emplace p.2 hnew).append_right flying
  exact (hentries.trans List.perm_middle.symm).trans h

/-- All values are in the map, in order. -/
lemma done (h : Collecting f n [] m) : m.entries = (List.range n).map fun j => (j, f j) := by
  have hsorted : ((List.range n).map fun j => (j, f j)).Pairwise fun p q => id p.1 < id q.1 := by
    rw [List.pairwise_map]
    exact List.pairwise_lt_range
  rw [Collecting, List.append_nil] at h
  exact h.eq_of_pairwise (fun _ _ _ _ hlt hgt => absurd hlt hgt.asymm) m.sorted hsorted

end Collecting

end Cdcf
