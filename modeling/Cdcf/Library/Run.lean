import Mathlib.Data.List.Basic

/-!
Runs of a deterministic machine: a state type `σ`, an event type `ε` and a total step
function, a run being the left fold of the step over a finite list of events.

* `Always`, `Each`: a property of every state of a run, a property of every step of a run
  taken in the state before it; `always_iff` and `each_iff` spell them out over the prefixes of
  the list of events.
* `view_run`: what no step changes, a run does not change.
* `always_of_step`: the rule of an invariant kept by every step out of a state with a property that
  is assumed of all states of the run; `always_of_inv`: the rule where nothing is assumed.
* `always_of_each`: the rule of an invariant kept by the steps that meet a condition.
* `each_of_step`: the rule of a property of steps that an invariant gives.
* `Each.imp_of_step`: the rule of a condition that an invariant turns into another.
* `always_iff_each`: the rule of an invariant kept by some steps only.  If, in the good
  states, a step leads to a good state exactly when it meets a condition, then all states of
  a run are good exactly when all its steps meet the condition.  `always_iff_each_of_iff`: the rule
  where nothing else has to be known of the good states.
* `always_le_iff`: the rule of a quantity that no step makes smaller.
* `Each.countdown`: the rule of steps each of which leaves one less to do.
* `count_le_count_add_one`: steps that only happen in unsettled states and settle them are
  outnumbered, but for one, by the steps that unsettle.
-/

namespace Cdcf

namespace Run

variable {σ ε : Type*} (step : σ → ε → σ)

/-- The state after the events of a list. -/
def run (s : σ) (es : List ε) : σ := es.foldl step s

/-- Every state of the run has the property, the first and the last included. -/
def Always (P : σ → Prop) : σ → List ε → Prop
  | s, [] => P s
  | s, e :: es => P s ∧ Always P (step s e) es

/-- Every step of the run has the property, read in the state before the step. -/
def Each (C : σ → ε → Prop) : σ → List ε → Prop
  | _, [] => True
  | s, e :: es => C s e ∧ Each C (step s e) es

/-- How many steps of the run have the property. -/
def count (C : σ → ε → Prop) [∀ s e, Decidable (C s e)] : σ → List ε → ℕ
  | _, [] => 0
  | s, e :: es => (if C s e then 1 else 0) + count C (step s e) es

instance Always.decidable (P : σ → Prop) [DecidablePred P] :
    ∀ s es, Decidable (Always step P s es)
  | s, [] => inferInstanceAs (Decidable (P s))
  | s, e :: es =>
      have := Always.decidable P (step s e) es
      inferInstanceAs (Decidable (P s ∧ Always step P (step s e) es))

instance Each.decidable (C : σ → ε → Prop) [∀ s e, Decidable (C s e)] :
    ∀ s es, Decidable (Each step C s es)
  | _, [] => inferInstanceAs (Decidable True)
  | s, e :: es =>
      have := Each.decidable C (step s e) es
      inferInstanceAs (Decidable (C s e ∧ Each step C (step s e) es))

variable {step}

lemma run_append (s : σ) (es es' : List ε) :
    run step s (es ++ es') = run step (run step s es) es' :=
  List.foldl_append

/-- What no step changes is the same at the end of a run. -/
lemma view_run {ρ : Type*} (view : σ → ρ) (h : ∀ s e, view (step s e) = view s) (s : σ)
    (es : List ε) : view (run step s es) = view s := by
  induction es generalizing s with
  | nil => rfl
  | cons e es ih => exact (ih (step s e)).trans (h s e)

/-- `Always` read over the prefixes of the events. -/
lemma always_iff {P : σ → Prop} {s : σ} {es : List ε} :
    Always step P s es ↔ ∀ es₁ es₂, es = es₁ ++ es₂ → P (run step s es₁) := by
  induction es generalizing s with
  | nil =>
      refine ⟨fun h es₁ es₂ heq => ?_, fun h => h [] [] rfl⟩
      rw [(List.append_eq_nil_iff.mp heq.symm).1]
      exact h
  | cons e es ih =>
      constructor
      · rintro ⟨hs, hes⟩ es₁ es₂ heq
        cases es₁ with
        | nil => exact hs
        | cons e' es₁ =>
            obtain ⟨rfl, htail⟩ := List.cons.inj heq
            exact ih.mp hes es₁ es₂ htail
      · intro h
        exact ⟨h [] _ rfl, ih.mpr fun es₁ es₂ heq => h (e :: es₁) es₂ (by rw [heq]; rfl)⟩

/-- `Each` read over the splits of the events. -/
lemma each_iff {C : σ → ε → Prop} {s : σ} {es : List ε} :
    Each step C s es ↔ ∀ es₁ e es₂, es = es₁ ++ e :: es₂ → C (run step s es₁) e := by
  induction es generalizing s with
  | nil => exact ⟨fun _ es₁ e es₂ heq => absurd heq (by simp), fun _ => trivial⟩
  | cons e es ih =>
      constructor
      · rintro ⟨he, hes⟩ es₁ e' es₂ heq
        cases es₁ with
        | nil =>
            obtain ⟨rfl, -⟩ := List.cons.inj heq
            exact he
        | cons e₁ es₁ =>
            obtain ⟨rfl, htail⟩ := List.cons.inj heq
            exact ih.mp hes es₁ e' es₂ htail
      · intro h
        exact ⟨h [] e es rfl, ih.mpr fun es₁ e' es₂ heq => h (e :: es₁) e' es₂ (by rw [heq]; rfl)⟩

/-- `Each` over a run that goes on. -/
lemma each_append {C : σ → ε → Prop} {s : σ} {es es' : List ε} :
    Each step C s (es ++ es') ↔ Each step C s es ∧ Each step C (run step s es) es' := by
  induction es generalizing s with
  | nil => exact ⟨fun h => ⟨trivial, h⟩, And.right⟩
  | cons e es ih =>
      have htail := ih (s := step s e)
      exact ⟨fun h => ⟨⟨h.1, (htail.mp h.2).1⟩, (htail.mp h.2).2⟩,
        fun h => ⟨h.1.1, htail.mpr ⟨h.1.2, h.2⟩⟩⟩

/-- The state at the end of a run is one of its states. -/
lemma Always.last {P : σ → Prop} {s : σ} {es : List ε} (h : Always step P s es) :
    P (run step s es) :=
  always_iff.mp h es [] (List.append_nil es).symm

/-- The first state of a run is one of its states. -/
lemma Always.first {P : σ → Prop} {s : σ} {es : List ε} (h : Always step P s es) : P s :=
  always_iff.mp h [] es rfl

/-- A property of all states of a run that implies another. -/
lemma Always.imp {P Q : σ → Prop} (himp : ∀ s, P s → Q s) {s : σ} {es : List ε}
    (h : Always step P s es) : Always step Q s es :=
  always_iff.mpr fun es₁ es₂ heq => himp _ (always_iff.mp h es₁ es₂ heq)

/-- The rule of invariants: what the first state has and every step keeps, every state of the run
has.  `Q` is what is assumed of all states of the run. -/
theorem always_of_step {P Q : σ → Prop} (hstep : ∀ s e, Q s → P s → P (step s e)) {s : σ}
    (hs : P s) {es : List ε} (hQ : Always step Q s es) : Always step P s es := by
  induction es generalizing s with
  | nil => exact hs
  | cons e es ih => exact ⟨hs, ih (hstep s e hQ.1 hs) hQ.2⟩

/-- The rule of invariants that every step keeps. -/
theorem always_of_inv {P : σ → Prop} (hstep : ∀ s e, P s → P (step s e)) {s : σ} (hs : P s)
    (es : List ε) : Always step P s es :=
  always_of_step (Q := fun _ => True) (fun s e _ h => hstep s e h) hs
    (always_iff.mpr fun _ _ _ => trivial)

/-- The rule of invariants that only some steps keep: they hold of every state of a run whose steps
all meet the condition. -/
theorem always_of_each {P : σ → Prop} {C : σ → ε → Prop}
    (hstep : ∀ s e, P s → C s e → P (step s e)) {s : σ} (hs : P s) {es : List ε}
    (hC : Each step C s es) : Always step P s es := by
  induction es generalizing s with
  | nil => exact hs
  | cons e es ih => exact ⟨hs, ih (hstep s e hs hC.1) hC.2⟩

/-- The rule of steps: where an invariant gives a property of the next step, every step of a run
has the property. -/
theorem each_of_step {I : σ → Prop} {C : σ → ε → Prop} (hstep : ∀ s e, I s → I (step s e))
    (hC : ∀ s e, I s → C s e) {s : σ} (hI : I s) (es : List ε) : Each step C s es := by
  induction es generalizing s with
  | nil => trivial
  | cons e es ih => exact ⟨hC s e hI, ih (hstep s e hI)⟩

/-- The rule of conditions: where an invariant that the steps under one condition keep turns it into
another, a run under the one is a run under the other. -/
theorem Each.imp_of_step {I : σ → Prop} {C D : σ → ε → Prop}
    (hstep : ∀ s e, I s → C s e → I (step s e)) (himp : ∀ s e, I s → C s e → D s e) {s : σ}
    (hI : I s) {es : List ε} (hC : Each step C s es) : Each step D s es := by
  induction es generalizing s with
  | nil => trivial
  | cons e es ih => exact ⟨himp s e hI hC.1, ih (hstep s e hI hC.1) hC.2⟩

/-- The rule of conditional invariants: where a step out of a good state leads to a good
state exactly when it meets the condition, the states of a run are all good exactly when its
steps all meet the condition.  `I` is what else is known of the good states, and is kept by
the steps that meet the condition. -/
theorem always_iff_each {P I : σ → Prop} {C : σ → ε → Prop}
    (hstep : ∀ s e, I s → P s → (P (step s e) ↔ C s e))
    (hkeep : ∀ s e, I s → P s → C s e → I (step s e)) {s : σ} (hI : I s) (hP : P s)
    (es : List ε) : Always step P s es ↔ Each step C s es := by
  induction es generalizing s with
  | nil => exact ⟨fun _ => trivial, fun _ => hP⟩
  | cons e es ih =>
      constructor
      · rintro ⟨-, hes⟩
        have hC : C s e := (hstep s e hI hP).mp hes.first
        have hP' := (hstep s e hI hP).mpr hC
        exact ⟨hC, (ih (hkeep s e hI hP hC) hP').mp hes⟩
      · rintro ⟨hC, hes⟩
        have hP' := (hstep s e hI hP).mpr hC
        exact ⟨hP, (ih (hkeep s e hI hP hC) hP').mpr hes⟩

/-- The rule of conditional invariants, where the condition alone decides whether a step out of a
good state leads to one. -/
theorem always_iff_each_of_iff {P : σ → Prop} {C : σ → ε → Prop}
    (hstep : ∀ s e, P s → (P (step s e) ↔ C s e)) {s : σ} (hP : P s) (es : List ε) :
    Always step P s es ↔ Each step C s es :=
  always_iff_each (I := fun _ => True) (fun s e _ h => hstep s e h) (fun _ _ _ _ _ => trivial)
    trivial hP es

/-- The rule of quantities that no step makes smaller: one stays within a bound on a run exactly if
it is within the bound at the end. -/
theorem always_le_iff {I : σ → Prop} {f : σ → ℕ} {b : ℕ} (hkeep : ∀ s e, I s → I (step s e))
    (hle : ∀ s e, I s → f s ≤ f (step s e)) {s : σ} (hI : I s) (es : List ε) :
    Always step (fun s => f s ≤ b) s es ↔ f (run step s es) ≤ b := by
  refine ⟨Always.last, fun hlast => ?_⟩
  have hgrow : ∀ (es : List ε) (s : σ), I s → f s ≤ f (run step s es) := by
    intro es
    induction es with
    | nil => exact fun s _ => Nat.le_refl _
    | cons e es ih =>
        exact fun s hs => Nat.le_trans (hle s e hs) (ih (step s e) (hkeep s e hs))
  induction es generalizing s with
  | nil => exact hlast
  | cons e es ih => exact ⟨Nat.le_trans (hgrow (e :: es) s hI) hlast, ih (hkeep s e hI) hlast⟩

/-- The rule of countdowns: where each step that meets the condition leaves one less to do, a run of
such steps has as many of them as it has done, and no more than there were to do. -/
theorem Each.countdown {P : ℕ → σ → Prop} {C : σ → ε → Prop}
    (hstep : ∀ n s e, P n s → C s e → ∃ n', n = n' + 1 ∧ P n' (step s e)) {n : ℕ} {s : σ}
    (hP : P n s) {es : List ε} (hC : Each step C s es) :
    ∃ n', es.length + n' = n ∧ P n' (run step s es) := by
  induction es generalizing n s with
  | nil => exact ⟨n, Nat.zero_add n, hP⟩
  | cons e es ih =>
      obtain ⟨n₁, rfl, hP₁⟩ := hstep n s e hP hC.1
      obtain ⟨n', hlength, hP'⟩ := ih hP₁ hC.2
      refine ⟨n', ?_, hP'⟩
      rw [List.length_cons]
      omega

/-- The rule of alternation: where a step of kind `C` leads from a state without `P` to a state
with `P`, there is at most one such step more than there are steps that end `P`.  `I` is what is
known of all states of the run. -/
theorem count_le_count_add_one {C : σ → ε → Prop} [∀ s e, Decidable (C s e)] {P I : σ → Prop}
    [DecidablePred P] (hkeep : ∀ s e, I s → I (step s e))
    (hsettle : ∀ s e, I s → C s e → ¬P s ∧ P (step s e)) {s : σ} (hI : I s) (es : List ε) :
    count step C s es ≤ count step (fun s e => P s ∧ ¬P (step s e)) s es + 1 := by
  have hloop : ∀ (es : List ε) (s : σ), I s →
      count step C s es
        ≤ count step (fun s e => P s ∧ ¬P (step s e)) s es + if P s then 0 else 1 := by
    intro es
    induction es with
    | nil => exact fun _ _ => Nat.zero_le _
    | cons e es ih =>
        intro s hs
        have hrest := ih (step s e) (hkeep s e hs)
        rw [count, count]
        by_cases hC : C s e
        · obtain ⟨hP, hP'⟩ := hsettle s e hs hC
          simp only [hC, hP, hP', if_true, if_false, not_true, and_false] at hrest ⊢
          omega
        · by_cases hP : P s <;> by_cases hP' : P (step s e) <;>
            simp only [hC, hP, hP', if_true, if_false, not_true, not_false_iff, and_true,
              and_false] at hrest ⊢ <;>
            omega
  exact Nat.le_trans (hloop es s hI) (by split <;> omega)

end Run

end Cdcf
