import Mathlib.Algebra.BigOperators.Group.List.Basic
import Mathlib.Algebra.Order.Ring.Nat
import Mathlib.Data.List.Nodup
import Mathlib.Data.List.Rotate
import Mathlib.Data.Nat.ModEq

/-!
Turns taken in a circle.

`n` places stand in a circle and turns go round it one place at a time, from some first place on.
Of the first `m` turns, the place at distance `d` from the first has `share n m d`.

* `share_succ`: the next turn falls to the place at distance `m % n`, and to no other.
* `share_le_share_add_one`, `sum_share`: the shares are even, and they are all the turns.
* `exists_offset`, `add_mod_eq_iff`: every place is at one distance from the first.
* `Dealt`: a list that counts the turns of its places; `Dealt.deal` is the next turn.
-/

namespace Cdcf

namespace RoundRobin

variable {n m d : ℕ}

/-- The share of the place at distance `d` in the first `m` turns. -/
def share (n m d : ℕ) : ℕ := (m + (n - 1 - d)) / n

lemma share_zero (hd : d < n) : share n 0 d = 0 :=
  Nat.div_eq_of_lt (by omega)

/-- The next turn falls to one place. -/
lemma share_succ (hd : d < n) :
    share n (m + 1) d = share n m d + if d = m % n then 1 else 0 := by
  have hdvd : n ∣ m + (n - 1 - d) + 1 ↔ d = m % n := by
    have hm := Nat.div_add_mod m n
    have hlt := Nat.mod_lt m (Nat.zero_lt_of_lt hd)
    rw [show m + (n - 1 - d) + 1 = n * (m / n) + (m % n + (n - d)) by omega,
      Nat.dvd_add_right (Nat.dvd_mul_right n _)]
    constructor
    · intro h
      obtain ⟨c, hc⟩ := h
      -- a multiple of `n` between `1` and `2 * n - 1`
      have hone : c = 1 := by
        have hpos : 0 < c := Nat.pos_of_mul_pos_left (a := n) (by omega)
        have htwo : c < 2 := Nat.lt_of_mul_lt_mul_left (a := n) (by omega)
        omega
      rw [hone] at hc
      omega
    · intro h
      exact ⟨1, by omega⟩
  rw [share, share, show m + 1 + (n - 1 - d) = m + (n - 1 - d) + 1 by omega, Nat.succ_div]
  simp only [hdvd]

/-- The place whose turn it is has had its full rounds. -/
lemma share_mod (hn : 0 < n) : share n m (m % n) = m / n := by
  have hlt := Nat.mod_lt m hn
  have hm := Nat.div_add_mod m n
  rw [share, show m + (n - 1 - m % n) = n - 1 + n * (m / n) by omega,
    Nat.add_mul_div_left _ _ hn, Nat.div_eq_of_lt (by omega), Nat.zero_add]

/-- No place has had less than the full rounds. -/
lemma div_le_share : m / n ≤ share n m d := Nat.div_le_div_right (Nat.le_add_right m _)

/-- Any two places have had the same up to one turn. -/
lemma share_le_share_add_one (hn : 0 < n) (d' : ℕ) : share n m d ≤ share n m d' + 1 := by
  have hle : share n m d ≤ (m + n) / n := Nat.div_le_div_right (by omega)
  rw [Nat.add_div_right m hn] at hle
  have hfull : m / n ≤ share n m d' := div_le_share
  omega

/-- The shares of all places are the turns taken. -/
lemma sum_share (hn : 0 < n) (m : ℕ) : ((List.range n).map (share n m)).sum = m := by
  induction m with
  | zero =>
      refine List.sum_eq_zero fun x hx => ?_
      obtain ⟨d, hd, rfl⟩ := List.mem_map.mp hx
      exact share_zero (List.mem_range.mp hd)
  | succ m ih =>
      have hlt := Nat.mod_lt m hn
      have hnext : (List.range n).map (share n (m + 1))
          = (List.range n).map fun d => share n m d + if d = m % n then 1 else 0 :=
        List.map_congr_left fun d hd => share_succ (List.mem_range.mp hd)
      have hone : ((List.range n).map fun d => if d = m % n then 1 else 0).sum = 1 := by
        have hcount := List.count_eq_one_of_mem List.nodup_range (List.mem_range.mpr hlt)
        rw [List.sum_map_eq_nsmul_single (m % n) _ fun d hd _ => if_neg hd, hcount, if_pos rfl,
          one_nsmul]
      rw [hnext, List.sum_map_add, ih, hone]

/-! ### Places and distances -/

/-- Every place is at some distance from the first. -/
lemma exists_offset (start : ℕ) {i : ℕ} (hi : i < n) : ∃ d < n, (start + d) % n = i := by
  have hstart := Nat.mod_lt start (Nat.zero_lt_of_lt hi)
  by_cases h : start % n ≤ i
  · refine ⟨i - start % n, by omega, ?_⟩
    rw [← Nat.mod_add_mod, Nat.add_sub_cancel' h, Nat.mod_eq_of_lt hi]
  · refine ⟨i + n - start % n, by omega, ?_⟩
    rw [← Nat.mod_add_mod, show start % n + (i + n - start % n) = i + n by omega,
      Nat.add_mod_right, Nat.mod_eq_of_lt hi]

/-- The place of a turn is at the distance of the turn. -/
lemma add_mod_eq_iff {start k : ℕ} (hd : d < n) :
    (start + d) % n = (start + k) % n ↔ d = k % n := by
  have hmod : d % n = d := Nat.mod_eq_of_lt hd
  constructor
  · intro h
    have hcancel : d ≡ k [MOD n] := Nat.ModEq.add_left_cancel' start h
    exact hmod.symm.trans hcancel
  · rintro rfl
    rw [Nat.add_mod_mod]

/-! ### Dealing in turn -/

/-- The list counts what each place has got when `m` things were dealt in turn. -/
def Dealt (start m : ℕ) (l : List ℕ) : Prop :=
  ∀ d < l.length, l[(start + d) % l.length]? = some (share l.length m d)

variable {start : ℕ} {l : List ℕ}

lemma dealt_replicate (start n : ℕ) : Dealt start 0 (List.replicate n 0) := by
  intro d hd
  have hmod := Nat.mod_lt (start + d) (Nat.zero_lt_of_lt hd)
  rw [share_zero hd, List.getElem?_eq_getElem hmod, List.getElem_replicate]

namespace Dealt

/-- What a place has got is its share. -/
lemma exists_share (h : Dealt start m l) {x : ℕ} (hx : x ∈ l) : ∃ d, x = share l.length m d := by
  obtain ⟨i, hi, rfl⟩ := List.getElem_of_mem hx
  obtain ⟨d, hd, hplace⟩ := exists_offset start hi
  have hshare := h d hd
  rw [hplace, List.getElem?_eq_getElem hi, Option.some_inj] at hshare
  exact ⟨d, hshare⟩

lemma div_le (h : Dealt start m l) {x : ℕ} (hx : x ∈ l) : m / l.length ≤ x := by
  obtain ⟨d, rfl⟩ := h.exists_share hx
  exact div_le_share

/-- All places have got the same up to one thing. -/
lemma le_add_one (h : Dealt start m l) {x y : ℕ} (hx : x ∈ l) (hy : y ∈ l) : x ≤ y + 1 := by
  obtain ⟨d, rfl⟩ := h.exists_share hx
  obtain ⟨d', rfl⟩ := h.exists_share hy
  exact share_le_share_add_one (List.length_pos_of_mem hx) d'

/-- The place whose turn it is has got its full rounds. -/
lemma getElem?_turn (h : Dealt start m l) (hne : l ≠ []) :
    l[(start + m) % l.length]? = some (m / l.length) := by
  have hpos := List.length_pos_of_ne_nil hne
  have hplace := h (m % l.length) (Nat.mod_lt m hpos)
  rwa [Nat.add_mod_mod, share_mod hpos] at hplace

/-- The next thing is dealt. -/
lemma deal (h : Dealt start m l) :
    Dealt start (m + 1) (l.set ((start + m) % l.length) (m / l.length + 1)) := by
  intro d hd
  rw [List.length_set] at hd ⊢
  have hpos := Nat.zero_lt_of_lt hd
  rw [share_succ hd]
  by_cases hturn : d = m % l.length
  · rw [if_pos hturn, (add_mod_eq_iff hd).mpr hturn,
      List.getElem?_set_self (Nat.mod_lt _ hpos), hturn, share_mod hpos]
  · have hother : (start + m) % l.length ≠ (start + d) % l.length := fun heq =>
      hturn ((add_mod_eq_iff hd).mp heq.symm)
    rw [if_neg hturn, List.getElem?_set_ne hother, h d hd, Nat.add_zero]

/-- All that was dealt is there. -/
lemma sum_eq (h : Dealt start m l) (hne : l ≠ []) : l.sum = m := by
  have hpos := List.length_pos_of_ne_nil hne
  have hrotate : l.rotate start = (List.range l.length).map (share l.length m) := by
    refine List.ext_getElem? fun d => ?_
    by_cases hd : d < l.length
    · rw [List.getElem?_rotate hd, Nat.add_comm, h d hd, List.getElem?_map,
        List.getElem?_range hd, Option.map_some]
    · rw [List.getElem?_eq_none (by simpa using hd), List.getElem?_eq_none (by simpa using hd)]
  rw [← (List.rotate_perm l start).sum_eq, hrotate, sum_share hpos]

end Dealt

end RoundRobin

end Cdcf
