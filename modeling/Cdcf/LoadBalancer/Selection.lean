import Cdcf.LoadBalancer.Policy

/-!
What the policy does over its calls.

The workers and their loads are arguments of a call, so they may be others from call to call; the
policy itself keeps the place it has come to and the mails it holds.

* `call_selects`: which worker a call returns, and when it returns one.
* `mails_conserved`: no mail is lost, doubled or overtaken.
-/

namespace Cdcf

namespace LoadBalancer

namespace MinLoad

variable {ν ι : Type*}

/-! ### The worker of a call -/

/-- **A minimum in cyclic order.**  A call without anything to place does nothing.  Any other moves
on to a place among the loads, returns a worker exactly when a load is below the threshold, and
then the one with the first of the least loads from that place on. -/
theorem call_selects (p : MinLoad ν) {actors : List ι} {metrics : List UInt64} (mail : Option ν)
    (hlen : metrics.length = actors.length) (hne : metrics ≠ []) :
    (p.mails_ ++ mail.toList = [] → p.call actors metrics mail = some (p, none, none))
      ∧ (p.mails_ ++ mail.toList ≠ [] →
        ∃ p' worker? next?, p.call actors metrics mail = some (p', worker?, next?)
          ∧ p'.rotated_ < metrics.length
          ∧ (worker?.isSome = true ↔ ∃ load ∈ metrics, load < p.loadThresholdToHold_)
          ∧ ∀ worker ∈ worker?, ∃ i load, actors[i]? = some worker
            ∧ LeastFrom metrics p'.rotated_ i load) := by
  refine ⟨call_of_idle actors metrics, fun h => ?_⟩
  obtain ⟨p', worker?, next?, hcall, hrotated, -, hplaced⟩ := call_of_ne_nil hlen hne h
  refine ⟨p', worker?, next?, hcall, ?_, ?_, ?_⟩
  · rw [hrotated]
    exact Nat.mod_lt _ (List.length_pos_of_ne_nil hne)
  · rcases hplaced with ⟨rfl, -, -, hloads⟩ | ⟨i, worker, m, load, rfl, -, -, -, hfirst, hlt⟩
    · simpa using hloads
    · exact iff_of_true rfl ⟨load, List.mem_of_getElem? hfirst.getElem?, hlt⟩
  · rcases hplaced with ⟨rfl, -⟩ | ⟨i, worker, m, load, rfl, -, -, hactor, hfirst, -⟩
    · simp
    · intro worker' hworker
      rw [Option.mem_def, Option.some_inj] at hworker
      exact ⟨i, load, hworker ▸ hactor, hfirst⟩

/-- The third of three workers, after a call that came to the second. -/
theorem call_selects_third :
    ∃ p' worker? next?,
      ({ rotated_ := 1, loadThresholdToHold_ := 5 } : MinLoad String).call ["a", "b", "c"]
          [2, 7, 2] (some "mail") = some (p', worker?, next?)
        ∧ p'.rotated_ < 3
        ∧ (worker?.isSome = true ↔ ∃ load ∈ [2, 7, 2], load < (5 : UInt64))
        ∧ ∀ worker ∈ worker?, ∃ i load, ["a", "b", "c"][i]? = some worker
          ∧ LeastFrom [2, 7, 2] p'.rotated_ i load := by
  have hlen : [(2 : UInt64), 7, 2].length = ["a", "b", "c"].length := rfl
  exact (call_selects { rotated_ := 1, loadThresholdToHold_ := 5 } (some "mail") hlen
    (by decide)).2 (by decide)

/-- A call of a new policy without anything to place leaves the cursor where it was. -/
theorem call_keeps_rotated :
    ∃ p', ({ loadThresholdToHold_ := 1 } : MinLoad String).call ["a"] [0] none
        = some (p', none, none) ∧ ¬p'.rotated_ < [(0 : UInt64)].length :=
  ⟨_, rfl, by decide⟩

/-! ### The mails of many calls -/

/-- The arguments of a call: as many loads as actors, and at least one. -/
structure Call (ν ι : Type*) where
  actors : List ι
  metrics : List UInt64
  mail : Option ν
  length_eq : metrics.length = actors.length
  ne_nil : metrics ≠ []

/-- A policy, and what its calls have returned so far. -/
structure Served (ν ι : Type*) where
  policy : MinLoad ν
  returned : List (Option ι × Option ν)

namespace Served

/-- A new policy. -/
def make (loadThresholdToHold : UInt64) : Served ν ι :=
  ⟨{ loadThresholdToHold_ := loadThresholdToHold }, []⟩

/-- One call; where the source is undefined there is none. -/
def step (s : Served ν ι) (c : Call ν ι) : Option (Served ν ι) :=
  (s.policy.call c.actors c.metrics c.mail).map fun (policy, worker?, next?) =>
    ⟨policy, s.returned ++ [(worker?, next?)]⟩

/-- The mails that have come out and then those that are held, in their order. -/
def mails (s : Served ν ι) : List ν := s.returned.filterMap Prod.snd ++ s.policy.mails_

/-- A call has a result.  It adds its mail at the end, and returns a worker with a mail or
neither. -/
lemma step_mails (s : Served ν ι) (c : Call ν ι) :
    ∃ s' r, s.step c = some s' ∧ s'.returned = s.returned ++ [r]
      ∧ s'.mails = s.mails ++ c.mail.toList ∧ r.1.isSome = r.2.isSome := by
  cases hcall : s.policy.call c.actors c.metrics c.mail with
  | none => exact absurd ((call_eq_none_iff c.actors).mp hcall).1 c.ne_nil
  | some result =>
      obtain ⟨policy, worker?, next?⟩ := result
      refine ⟨⟨policy, s.returned ++ [(worker?, next?)]⟩, (worker?, next?), ?_, rfl, ?_⟩
      · rw [step, hcall]
        rfl
      rcases (call_cases c.length_eq hcall).2 with
        ⟨rfl, rfl, hmails⟩ | ⟨-, worker, m, load, rfl, rfl, hmails, -⟩
      · refine ⟨?_, rfl⟩
        simp [mails, hmails]
      · refine ⟨?_, rfl⟩
        simp [mails, hmails]

end Served

/-- **No mail is lost, duplicated or reordered**: the mails that the calls have returned, followed
by those that are held, are the mails that were passed in, and a worker is returned exactly with a
mail. -/
theorem mails_conserved (loadThresholdToHold : UInt64) (calls : List (Call ν ι)) :
    ∃ s, calls.foldlM Served.step (Served.make loadThresholdToHold) = some s
      ∧ s.returned.filterMap Prod.snd ++ s.policy.mails_ = calls.filterMap Call.mail
      ∧ ∀ r ∈ s.returned, r.1.isSome = r.2.isSome := by
  have hrun : ∀ (calls : List (Call ν ι)) (s : Served ν ι),
      (∀ r ∈ s.returned, r.1.isSome = r.2.isSome) →
        ∃ s', calls.foldlM Served.step s = some s'
          ∧ s'.mails = s.mails ++ calls.filterMap Call.mail
          ∧ ∀ r ∈ s'.returned, r.1.isSome = r.2.isSome := by
    intro calls
    induction calls with
    | nil => exact fun s hs => ⟨s, rfl, by simp, hs⟩
    | cons c calls ih =>
        intro s hs
        obtain ⟨s', r, hstep, hreturned, hmails, hr⟩ := s.step_mails c
        have hs' : ∀ r ∈ s'.returned, r.1.isSome = r.2.isSome := by
          rw [hreturned]
          intro r' hr'
          rcases List.mem_append.mp hr' with hold | hnew
          · exact hs r' hold
          · rw [List.mem_singleton.mp hnew, hr]
        obtain ⟨s'', hfold, hmails', hpaired⟩ := ih s' hs'
        refine ⟨s'', ?_, ?_, hpaired⟩
        · rw [List.foldlM_cons, hstep]
          exact hfold
        · rw [hmails', hmails, List.append_assoc]
          cases hmail : c.mail <;> simp [hmail]
  exact hrun calls (Served.make loadThresholdToHold) (by simp [Served.make])

end MinLoad

end LoadBalancer

end Cdcf
