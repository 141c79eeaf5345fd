import Mathlib

/-!
The rule of a loop that counts, for programs in a monad with pre- and postconditions.

* `Goes`: what a round comes to that goes on to the next number.
* `forIn_range'`, `forIn_range`: what holds before the first round, and is carried by each round
  from its number to the next, holds after the last.
-/

namespace Cdcf

namespace Loop

open Std.Do

variable {m : Type → Type*} {ps : PostShape} {β : Type}

/-- The round is over, and the loop goes on. -/
def Goes (P : β → Assertion ps) : ForInStep β → Assertion ps
  | .yield b => P b
  | .done _ => ⌜False⌝

@[simp] lemma goes_yield (P : β → Assertion ps) (b : β) : Goes P (.yield b) = P b := rfl

variable [Monad m] [WPMonad m ps]

/-- A loop over the `n` numbers from `a` on. -/
theorem forIn_range' {a n : ℕ} {init : β} {body : ℕ → β → m (ForInStep β)}
    (P : ℕ → β → Assertion ps) {E : ExceptConds ps}
    (hbody : ∀ j, a ≤ j → j < a + n → ∀ b, ⦃P j b⦄ body j b ⦃(Goes (P (j + 1)), E)⦄) :
    ⦃P a init⦄ forIn (List.range' a n) init body ⦃(P (a + n), E)⦄ := by
  induction n generalizing a init with
  | zero =>
      rw [List.range'_zero, List.forIn_nil]
      exact Triple.pure _ SPred.entails.rfl
  | succ n ih =>
      rw [List.range'_succ, List.forIn_cons]
      refine Triple.bind _ _ (hbody a le_rfl (by omega) init) fun r => ?_
      cases r with
      | yield b =>
          have hrest : ⦃P (a + 1) b⦄ forIn (List.range' (a + 1) n) b body ⦃(P (a + 1 + n), E)⦄ :=
            ih fun j hj hlt => hbody j (by omega) (by omega)
          rwa [Nat.add_right_comm, Nat.add_assoc] at hrest
      | done b => exact SPred.false_elim

/-- A loop over the numbers below `n`. -/
theorem forIn_range {n : ℕ} {init : β} {body : ℕ → β → m (ForInStep β)}
    (P : ℕ → β → Assertion ps) {E : ExceptConds ps}
    (hbody : ∀ j < n, ∀ b, ⦃P j b⦄ body j b ⦃(Goes (P (j + 1)), E)⦄) :
    ⦃P 0 init⦄ forIn (List.range n) init body ⦃(P n, E)⦄ := by
  have hloop : ⦃P 0 init⦄ forIn (List.range' 0 n) init body ⦃(P (0 + n), E)⦄ :=
    forIn_range' P fun j _ hlt => hbody j (by omega)
  rwa [← List.range_eq_range', Nat.zero_add] at hloop

end Loop

end Cdcf
