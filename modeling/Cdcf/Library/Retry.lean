import Mathlib.Data.Nat.Find

/-!
Attempts until one is final.

Attempts are numbered from zero; the first that is final gives the result, and where none is there
is no result.  A loop in a program does so with fuel.

* `attempt`: the loop.
* `settles_iff`: the loop has one result for all fuel from some amount on exactly when there is a
  first final attempt, whose result it is.
-/

namespace Cdcf

namespace Retry

variable {ρ : Type*} (final : ℕ → Prop) [DecidablePred final] (result : ℕ → ρ)

/-- Attempt `j` and what comes after it, as far as the fuel goes. -/
def attempt : ℕ → ℕ → Option ρ
  | 0, _ => none
  | fuel + 1, j => if final j then some (result j) else attempt fuel (j + 1)

/-- The attempt is final, and none before it was. -/
def First (k : ℕ) : Prop := final k ∧ ∀ i < k, ¬final i

variable {final result} {j k : ℕ}

/-- Where an attempt is final there is a first one. -/
lemma exists_first (h : final k) : ∃ i ≤ k, First final i :=
  ⟨Nat.find ⟨k, h⟩, Nat.find_min' _ h, Nat.find_spec ⟨k, h⟩, fun _ hi => Nat.find_min ⟨k, h⟩ hi⟩

/-- The loop gets to the first final attempt. -/
lemma attempt_of_first (hk : First final k) (hj : j ≤ k) {fuel : ℕ} (hfuel : k < j + fuel) :
    attempt final result fuel j = some (result k) := by
  induction fuel generalizing j with
  | zero => omega
  | succ fuel ih =>
      rw [attempt]
      by_cases hjk : j = k
      · rw [hjk, if_pos hk.1]
      · rw [if_neg (hk.2 j (by omega)), ih (by omega) (by omega)]

/-- What the loop has come to is a first final attempt. -/
lemma first_of_attempt {fuel : ℕ} {r : ρ} (h : attempt final result fuel j = some r)
    (hbefore : ∀ i < j, ¬final i) : ∃ k, First final k ∧ r = result k := by
  induction fuel generalizing j with
  | zero => simp [attempt] at h
  | succ fuel ih =>
      rw [attempt] at h
      split at h
      · next hj => exact ⟨j, ⟨hj, hbefore⟩, (Option.some_inj.mp h).symm⟩
      · next hj =>
          refine ih h fun i hi => ?_
          rcases Nat.lt_succ_iff_lt_or_eq.mp hi with hlt | rfl
          · exact hbefore i hlt
          · exact hj

/-- **The rule of retries**: the loop comes to a result with a property exactly when the first final
attempt has one. -/
theorem settles_iff {P : ρ → Prop} :
    (∃ fuel₀ r, (∀ fuel ≥ fuel₀, attempt final result fuel 0 = some r) ∧ P r)
      ↔ ∃ k, First final k ∧ P (result k) := by
  constructor
  · rintro ⟨fuel₀, r, hloop, hr⟩
    obtain ⟨k, hk, rfl⟩ := first_of_attempt (hloop fuel₀ le_rfl) (by simp)
    exact ⟨k, hk, hr⟩
  · rintro ⟨k, hk, hr⟩
    refine ⟨k + 1, result k, fun fuel hfuel => ?_, hr⟩
    exact attempt_of_first hk (Nat.zero_le k) (by omega)

end Retry

end Cdcf
