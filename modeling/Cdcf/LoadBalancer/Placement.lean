import Cdcf.LoadBalancer.Router

/-!
The policy and the empty list of workers.

`Rotate` takes the remainder by the number of the workers, so a mail must not come to the policy
without workers.  `Filter` answers the requests that have a sender and lets everything else pass:
asynchronous messages, requests without a sender, and responses that call the policy for the
mails it holds.

* `Placeable`: the condition on a mail;
* `placeable_always_iff`: a run does not come to the remainder by zero if and only if all its
  mails meet the condition.
-/

namespace Cdcf

namespace LoadBalancer

open Sample

variable {μ ι α : Type*} [MessageId μ] [DecidableEq μ] [DecidableEq ι]

namespace World

/-- Where there are no workers, the mail is for the router itself, or a request with a sender, or
a response while no mail is held. -/
def Placeable (s : World μ ι α) (what : Mail μ ι α) : Prop :=
  s.router.workers_ = [] →
    what.content.isControl = true ∨ isRequest what.mid = true ∧ what.sender.isSome = true
      ∨ isResponse what.mid = true ∧ s.router.policy_.mails_ = []

/-- One call does not take a remainder by zero if and only if the mail meets the condition. -/
lemma placeable_step_iff {s : World μ ι α} (hr : s.router.Metered) (what : Mail μ ι α) :
    step (.ok s) what ≠ .error .noWorkers ↔ s.Placeable what := by
  rw [ne_eq, step_eq_error, Router.enqueue_eq_error_iff hr, Placeable, Router.takes]
  by_cases hworkers : s.router.workers_ = []
  · simp only [hworkers, List.isEmpty_nil, Bool.and_true, Bool.or_eq_false_iff,
      Bool.and_eq_false_iff, reduceCtorEq, false_and, false_or, true_and, forall_const]
    cases what.content.isControl <;> cases what.sender.isSome <;> cases isRequest what.mid <;>
      cases isResponse what.mid <;> simp
  · simp [hworkers]

end World

/-- The policy is never called with a mail to place and without workers if and only if every mail
meets the condition in the state in which it arrives. -/
theorem placeable_always_iff (loadThresholdToHold : UInt64) (mails : List (Mail μ ι α)) :
    Run.Always World.step (fun s => s ≠ .error .noWorkers)
        (.ok (World.make loadThresholdToHold)) mails
      ↔ Run.Each World.step (fun s what => ∀ w, s = .ok w → w.Placeable what)
        (.ok (World.make loadThresholdToHold)) mails := by
  refine Run.always_iff_each
    (P := fun s : Except Fault (World μ ι α) => s ≠ .error .noWorkers)
    (I := fun s => ∀ w, s = .ok w → w.router.Metered) ?_ ?_ ?_ (by simp) mails
  · rintro (fault | s) what hI hs
    · exact ⟨fun _ w hw => by simp at hw, fun _ => hs⟩
    · rw [World.placeable_step_iff (hI s rfl) what]
      simp
  · exact fun _ _ hI _ _ => World.metered_step hI
  · exact World.metered_make loadThresholdToHold

/-- An asynchronous message to a router without workers comes to the remainder by zero. -/
theorem placeable_fails : ¬Run.Always World.step
    (fun s : Except Fault (World Id ℕ Unit) => s ≠ .error .noWorkers) (.ok (World.make 10))
    [⟨{}, some 7, .other ()⟩] :=
  fun h => h.last rfl

end LoadBalancer

end Cdcf
