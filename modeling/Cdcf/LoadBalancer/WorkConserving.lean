import Cdcf.LoadBalancer.Router

/-!
Mails are held only while all workers are busy.

`MinLoad` holds a mail when every worker has reached the threshold.  What frees a worker later is a
response, and `enqueue` calls the policy for each response, which releases one mail.  A worker that
is added is free as well, but `Filter` takes the message that adds it and nobody calls the policy.

* `World.WorkConserving`: the law, in one state.
* `workConserving_always_iff`: over a run it holds exactly when no free worker is added while a mail
  is held.
-/

namespace Cdcf

namespace LoadBalancer

open Sample

variable {μ ι α : Type*} [MessageId μ] [DecidableEq μ] [DecidableEq ι]

namespace Router

/-- The worker has a load, and it has reached the threshold. -/
def Saturated (r : Router μ ι α) (w : ι) : Prop :=
  ∃ load, r.metrics_ (some w) = some load ∧ r.policy_.loadThresholdToHold_ ≤ load

/-- Where there are workers and a mail is held, every worker has reached the threshold. -/
def WorkConserving (r : Router μ ι α) : Prop :=
  r.workers_ ≠ [] → r.policy_.mails_ ≠ [] → ∀ w ∈ r.workers_, r.Saturated w

/-- The mail does not add a worker below the threshold while a mail is held. -/
def AddsNoIdle (r : Router μ ι α) (what : Mail μ ι α) : Prop :=
  ∀ worker, what.content = .put worker →
    r.policy_.mails_ = [] ∨ worker ∈ r.workers_ ∨ r.Saturated worker

omit [MessageId μ] [DecidableEq μ] [DecidableEq ι] in
lemma saturated_of_mem_loads {r : Router μ ι α} (hr : r.Metered)
    (h : ∀ load ∈ r.loads, r.policy_.loadThresholdToHold_ ≤ load) {w : ι} (hw : w ∈ r.workers_) :
    r.Saturated w :=
  ⟨_, hr.metrics_eq hw, h _ (List.mem_map_of_mem hw)⟩

/-! ### Placing -/

/-- Where mails are held after placing, all workers have reached the threshold, or one that had not
has got a mail and others were held before. -/
lemma route_cases_of_held {r r' : Router μ ι α} {mail : Option (Mail μ ι α)}
    {effects : List (Effect μ ι α)} (hr : r.Metered) (h : r.route mail = .ok (r', effects))
    (hworkers : r'.workers_ ≠ []) (hmails : r'.policy_.mails_ ≠ []) :
    (∀ w ∈ r'.workers_, r'.Saturated w)
      ∨ r.policy_.mails_ ≠ [] ∧ r'.workers_ = r.workers_
        ∧ r'.policy_.loadThresholdToHold_ = r.policy_.loadThresholdToHold_
        ∧ ∃ worker ∈ r.workers_, ∃ load, r.metrics_ (some worker) = some load
          ∧ load < r.policy_.loadThresholdToHold_
          ∧ r'.metrics_ = Function.update r.metrics_ (some worker) (some (load + 1)) := by
  obtain ⟨policy, hthreshold, hcases⟩ := route_cases hr h
  rcases hcases with ⟨rfl, rfl, hheld⟩ | ⟨worker, m, load, hw, hload, hlt, hheld, -, rfl⟩
  · -- nothing is placed, so the loads are as the policy found them
    have hsome : r.policy_.mails_ ++ mail.toList ≠ [] := hheld ▸ hmails
    obtain ⟨q, -, -, ⟨hroute, -, hloads⟩ | ⟨i, worker, m, load, hroute, -⟩⟩ :=
      route_of_ne_nil hr hworkers hsome
    · refine Or.inl fun w hw => ?_
      obtain ⟨load, hload, hle⟩ := saturated_of_mem_loads hr hloads hw
      exact ⟨load, hload, hthreshold ▸ hle⟩
    · rw [h] at hroute
      exact absurd (congrArg Prod.snd (Except.ok.inj hroute)) (List.cons_ne_nil _ _).symm
  · refine Or.inr ⟨fun hnil => ?_, rfl, hthreshold, worker, hw, load, hload, hlt, rfl⟩
    have hlength := congrArg List.length hheld
    have hone : mail.toList.length ≤ 1 := by cases mail <;> simp
    have hpos := List.length_pos_of_ne_nil hmails
    rw [hnil, List.nil_append, List.length_cons] at hlength
    simp only at hpos
    omega

/-- Placing a mail that has come in keeps the law. -/
lemma WorkConserving.route_mail {r r' : Router μ ι α} {what : Mail μ ι α}
    {effects : List (Effect μ ι α)} (hr : r.Metered) (hc : r.WorkConserving)
    (h : r.route (some what) = .ok (r', effects)) : r'.WorkConserving := by
  intro hworkers hmails
  rcases route_cases_of_held hr h hworkers hmails with
    hall | ⟨hheld, -, -, worker, hw, load, hload, hlt, -⟩
  · exact hall
  · obtain ⟨load', hload', hle⟩ := hc (List.ne_nil_of_mem hw) hheld worker hw
    rw [hload, Option.some_inj] at hload'
    exact absurd hle (hload' ▸ UInt64.not_le.mpr hlt)

/-- A response frees one worker at most, which gets the mail that is released for it. -/
lemma WorkConserving.route_response {r r' : Router μ ι α} {what : Mail μ ι α}
    {effects : List (Effect μ ι α)} (hr : r.Metered) (hc : r.WorkConserving)
    (h : ((r.discharge what.sender).reply what).1.route none = .ok (r', effects)) :
    r'.WorkConserving := by
  intro hworkers hmails
  rcases route_cases_of_held (hr.discharge_reply what) h hworkers hmails with
    hall | ⟨hheld, hsame, hthreshold, worker, hw, load, hload, hlt, hmetrics⟩
  · exact hall
  · have hbefore : ∀ w ∈ r.workers_, r.Saturated w := hc (List.ne_nil_of_mem hw) hheld
    obtain ⟨before, hload₀, hle⟩ := hbefore worker hw
    have hdischarged := metrics_response what hload₀
    rw [hload, Option.some_inj] at hdischarged
    by_cases hsender : what.sender = some worker
    · rw [if_pos hsender] at hdischarged
      intro w hw'
      rw [hsame] at hw'
      by_cases hw_eq : w = worker
      · refine ⟨load + 1, by rw [hmetrics, hw_eq, Function.update_self], ?_⟩
        rw [hthreshold, hdischarged, UInt64.sub_add_cancel]
        exact hle
      · obtain ⟨load', hload', hle'⟩ := hbefore w hw'
        have hkept := metrics_response what hload'
        have hne : what.sender ≠ some w := fun heq =>
          hw_eq (Option.some_inj.mp (heq.symm.trans hsender))
        rw [if_neg hne] at hkept
        refine ⟨load', ?_, hthreshold ▸ hle'⟩
        rw [hmetrics, Function.update_of_ne fun heq => hw_eq (Option.some_inj.mp heq), hkept]
    · -- a worker that did not answer is as busy as before
      rw [if_neg hsender] at hdischarged
      exact absurd hle (hdischarged ▸ UInt64.not_le.mpr hlt)

/-! ### What `Filter` takes -/

omit [DecidableEq μ] in
/-- A mail that `Filter` takes keeps the law exactly when it does not add a free worker while a mail
is held. -/
lemma workConserving_filter_iff {r r' : Router μ ι α} {what : Mail μ ι α}
    {effects : List (Effect μ ι α)} (hr : r.Metered)
    (hpos : 1 ≤ r.policy_.loadThresholdToHold_) (hc : r.WorkConserving)
    (h : r.filter what = some (.ok (r', effects))) :
    r'.WorkConserving ↔ r.AddsNoIdle what := by
  have hseats := filter_reseats hr h
  have hkept : ∀ w ∈ r'.workers_, r.Saturated w → r'.Saturated w := by
    rintro w hw ⟨load, hload, hle⟩
    refine ⟨load, ?_, hseats.policy_eq ▸ hle⟩
    rw [hseats.load_eq w hw, hload]
    rfl
  constructor
  · intro hc' worker hput
    by_cases hmails : r.policy_.mails_ = []
    · exact Or.inl hmails
    · have hadded : worker ∈ r'.workers_ := (hseats.mem_workers worker).mpr (Or.inr hput)
      obtain ⟨load, hload, hle⟩ :=
        hc' (List.ne_nil_of_mem hadded) (hseats.policy_eq ▸ hmails) worker hadded
      rw [hseats.load_eq worker hadded, Option.some_inj] at hload
      rw [hseats.policy_eq] at hle
      cases hold : r.metrics_ (some worker) with
      | none =>
          -- a worker without a load starts from zero
          rw [hold, Option.getD_none] at hload
          rw [← hload] at hle
          exact absurd (UInt64.le_trans hpos hle) (by decide)
      | some old =>
          rw [hold, Option.getD_some] at hload
          exact Or.inr (Or.inr ⟨old, hold, hload ▸ hle⟩)
  · intro hadds hworkers hmails w hw
    rw [hseats.policy_eq] at hmails
    rcases (hseats.mem_workers w).mp hw with ⟨hw', -⟩ | hput
    · exact hkept w hw (hc (List.ne_nil_of_mem hw') hmails w hw')
    · rcases hadds w hput with hnil | hw' | hbusy
      · exact absurd hnil hmails
      · exact hkept w hw (hc (List.ne_nil_of_mem hw') hmails w hw')
      · exact hkept w hw hbusy

/-! ### One call -/

/-- A call that has a result keeps the law exactly when it does not add a free worker while a mail
is held. -/
lemma workConserving_enqueue_iff {r r' : Router μ ι α} {what : Mail μ ι α}
    {effects : List (Effect μ ι α)} (hr : r.Metered)
    (hpos : 1 ≤ r.policy_.loadThresholdToHold_) (hc : r.WorkConserving)
    (h : r.enqueue what = .ok (r', effects)) : r'.WorkConserving ↔ r.AddsNoIdle what := by
  have hplaced : r.takes what = false → r.AddsNoIdle what := by
    intro htakes worker hput
    rw [takes, hput] at htakes
    exact absurd htakes (by simp [Content.isControl])
  rcases enqueue_cases h with
    ⟨-, hfilter⟩ | ⟨htakes, -, hroute⟩ | ⟨htakes, -, relays, -, hroute⟩
  · exact workConserving_filter_iff hr hpos hc hfilter
  · exact iff_of_true (hc.route_mail hr hroute) (hplaced htakes)
  · exact iff_of_true (hc.route_response hr hroute) (hplaced htakes)

/-- A call that has no result adds no worker. -/
lemma addsNoIdle_of_error {r : Router μ ι α} (hr : r.Metered) {what : Mail μ ι α} {fault : Fault}
    (h : r.enqueue what = .error fault) : r.AddsNoIdle what := by
  intro worker hput
  rcases (enqueue_eq_error_iff hr what fault).mp h with ⟨-, hget, -⟩ | ⟨-, htakes, -⟩
  · rw [hput] at hget
    exact absurd hget (by simp)
  · rw [takes, hput] at htakes
    exact absurd htakes (by simp [Content.isControl])

/-- Placing does not change the threshold. -/
lemma threshold_route {r r' : Router μ ι α} {mail : Option (Mail μ ι α)}
    {effects : List (Effect μ ι α)} (hr : r.Metered) (h : r.route mail = .ok (r', effects)) :
    r'.policy_.loadThresholdToHold_ = r.policy_.loadThresholdToHold_ := by
  obtain ⟨policy, hthreshold, ⟨rfl, -⟩ | ⟨worker, m, load, -, -, -, -, -, rfl⟩⟩ := route_cases hr h
  · exact hthreshold
  · exact hthreshold

/-- No call changes the threshold. -/
lemma threshold_enqueue {r r' : Router μ ι α} {what : Mail μ ι α} {effects : List (Effect μ ι α)}
    (hr : r.Metered) (h : r.enqueue what = .ok (r', effects)) :
    r'.policy_.loadThresholdToHold_ = r.policy_.loadThresholdToHold_ := by
  rcases enqueue_cases h with ⟨-, hfilter⟩ | ⟨-, -, hroute⟩ | ⟨-, -, relays, -, hroute⟩
  · rw [(filter_reseats hr hfilter).policy_eq]
  · exact threshold_route hr hroute
  · rw [threshold_route (hr.discharge_reply what) hroute]
    rfl

end Router

namespace World

/-- The workers are listed once and have loads, and a worker whose load is zero is below the
threshold. -/
def Limited (s : World μ ι α) : Prop :=
  s.router.Metered ∧ 1 ≤ s.router.policy_.loadThresholdToHold_

/-- Every call keeps the workers listed once and with loads, and the threshold. -/
lemma limited_step {s : Except Fault (World μ ι α)} {what : Mail μ ι α}
    (h : ∀ w, s = .ok w → w.Limited) : ∀ w, step s what = .ok w → w.Limited := by
  intro w hw
  refine ⟨metered_step (fun w hw => (h w hw).1) w hw, ?_⟩
  cases s with
  | error fault => simp [step, Except.bind] at hw
  | ok s =>
      obtain ⟨hr, hthreshold⟩ := h s rfl
      obtain ⟨r', effects, hcall, rfl⟩ := step_eq_ok.mp hw
      exact (Router.threshold_enqueue hr hcall).symm ▸ hthreshold

/-- One call keeps the law exactly when it does not add a free worker while a mail is held. -/
lemma workConserving_step_iff {s : World μ ι α} (hs : s.Limited) (hc : s.router.WorkConserving)
    (what : Mail μ ι α) :
    (∀ s', step (.ok s) what = .ok s' → s'.router.WorkConserving)
      ↔ s.router.AddsNoIdle what := by
  obtain ⟨hr, hthreshold⟩ := hs
  cases hcall : s.router.enqueue what with
  | error fault =>
      refine iff_of_true (fun s' hs' => ?_) (Router.addsNoIdle_of_error hr hcall)
      rw [step_eq_error.mpr hcall] at hs'
      simp at hs'
  | ok result =>
      obtain ⟨r', effects⟩ := result
      rw [step_eq_ok.mpr ⟨r', effects, hcall, rfl⟩,
        ← Router.workConserving_enqueue_iff hr hthreshold hc hcall]
      simp

end World

/-- **Work conservation.**  In every state of a run mails are held only while all workers have
reached the threshold, exactly when no mail of the run adds a worker below the threshold while a
mail is held. -/
theorem workConserving_always_iff {loadThresholdToHold : UInt64} (hpos : 1 ≤ loadThresholdToHold)
    (mails : List (Mail μ ι α)) :
    Run.Always World.step (fun s => ∀ w, s = .ok w → w.router.WorkConserving)
        (.ok (World.make loadThresholdToHold)) mails
      ↔ Run.Each World.step (fun s what => ∀ w, s = .ok w → w.router.AddsNoIdle what)
        (.ok (World.make loadThresholdToHold)) mails := by
  refine World.always_iff_each_of_ok (P := fun w => w.router.WorkConserving)
    (I := World.Limited) (C := fun w what => w.router.AddsNoIdle what) ?_ ?_ ?_ ?_ mails
  · exact fun s what hI hs => World.workConserving_step_iff hI hs what
  · exact fun s what => World.limited_step
  · exact ⟨World.metered_make loadThresholdToHold _ rfl, hpos⟩
  · exact fun hworkers => absurd rfl hworkers

/-- A worker is added while the other one is free. -/
theorem workConserving_always_added : Run.Always World.step
    (fun s : Except Fault (World Id ℕ Unit) => ∀ w, s = .ok w → w.router.WorkConserving)
    (.ok (World.make 1)) [⟨{}, none, .put 1⟩, ⟨{}, none, .put 2⟩, ⟨ask 5, some 7, .other ()⟩] := by
  refine (workConserving_always_iff (by decide) _).mpr ⟨?_, ?_, ?_, trivial⟩
  · intro w hw worker _
    obtain rfl := Except.ok.inj hw
    exact Or.inl rfl
  · intro w hw worker _
    obtain rfl := Except.ok.inj hw
    exact Or.inl rfl
  · intro w hw worker _
    obtain rfl := Except.ok.inj hw
    exact Or.inl rfl

/-- A second worker is added while the first one is busy and a request is held: nobody gives the
request to it. -/
theorem workConserving_lost : ¬Run.Always World.step
    (fun s : Except Fault (World Id ℕ Unit) => ∀ w, s = .ok w → w.router.WorkConserving)
    (.ok (World.make 1)) [⟨{}, none, .put 1⟩, ⟨ask 5, some 7, .other ()⟩,
      ⟨ask 6, some 7, .other ()⟩, ⟨{}, none, .put 2⟩] := by
  intro h
  obtain ⟨load, hload, hle⟩ := h.last _ rfl (by decide) (by decide) 2 (by decide)
  have hfree : load = 0 := (Option.some_inj.mp hload).symm
  exact absurd (hfree ▸ hle) (by decide)

end LoadBalancer

end Cdcf
