import Cdcf.Library.Run

/-!
What spreads along a run.

A fact is held at places of the state: a process, a message, an entry of a queue.  A step may pass
it from one place to another.  `Reaches` is a chain of such passes along a run, with any number of
other steps in between.

* `Reaches.holds`: where the steps lose a fact nowhere and pass it on where they are said to, a fact
  gets wherever a chain leads.
* `Reaches.refl`, `Reaches.append`: chains over empty and joined runs.
-/

namespace Cdcf

namespace Run

variable {σ ε π : Type*} (step : σ → ε → σ)

/-- A chain of passes along the run leads from the one place to the other. -/
inductive Reaches (Passes : σ → ε → π → π → Prop) : σ → List ε → π → π → Prop
  | here {s : σ} {p : π} : Reaches Passes s [] p p
  | stay {s : σ} {e : ε} {es : List ε} {p q : π} :
      Reaches Passes (step s e) es p q → Reaches Passes s (e :: es) p q
  | pass {s : σ} {e : ε} {es : List ε} {p p' q : π} :
      Passes s e p p' → Reaches Passes (step s e) es p' q → Reaches Passes s (e :: es) p q

variable {step} {Passes : σ → ε → π → π → Prop}

/-- What is nowhere passed on stays where it is. -/
lemma Reaches.refl (s : σ) (es : List ε) (p : π) : Reaches step Passes s es p p := by
  induction es generalizing s with
  | nil => exact .here
  | cons e es ih => exact .stay (ih (step s e))

/-- A chain goes on where another ends. -/
lemma Reaches.append {s : σ} {es es' : List ε} {p q r : π} (h : Reaches step Passes s es p q)
    (h' : Reaches step Passes (run step s es) es' q r) : Reaches step Passes s (es ++ es') p r := by
  induction h with
  | here => exact h'
  | stay _ ih => exact .stay (ih h')
  | pass hpass _ ih => exact .pass hpass (ih h')

/-- The rule of spreading: what is kept where it is held, and held where it is passed to, is held
at the end of every chain that starts where it is held.  `I` is what is known of all states of the
run, and is kept by the steps that meet the condition. -/
theorem Reaches.holds {I : σ → Prop} {C : σ → ε → Prop} (Holds : σ → π → Prop)
    (hinv : ∀ s e, I s → C s e → I (step s e))
    (hkeep : ∀ s e p, I s → C s e → Holds s p → Holds (step s e) p)
    (hpass : ∀ s e p q, I s → C s e → Passes s e p q → Holds s p → Holds (step s e) q)
    {s : σ} {es : List ε} {p q : π} (h : Reaches step Passes s es p q) (hI : I s)
    (hC : Each step C s es) (hp : Holds s p) : Holds (run step s es) q := by
  induction h with
  | here => exact hp
  | stay _ ih => exact ih (hinv _ _ hI hC.1) hC.2 (hkeep _ _ _ hI hC.1 hp)
  | pass hq _ ih => exact ih (hinv _ _ hI hC.1) hC.2 (hpass _ _ _ _ hI hC.1 hq hp)

end Run

end Cdcf
