import Cdcf.LoadBalancer.Router

/-!
What `GetMetrics` finds, under any policy.

The constructor of a router takes the policy as a function, which is called once in a call of
`enqueue` and may keep a state of its own.  Here every call comes with the function that answers
it, so that a run is a run under any policy, or under several; `MinLoad.call` is one of them.

* `Router.enqueueWith`, `World.stepWith`: a call and a step under a policy, which under `MinLoad`
  are `Router.enqueue` and `World.step` (`World.stepWith_minLoad`).
* `Router.measured`: the router at the place of a call where `GetMetrics` runs.
* `World.getMetrics_always`: in every run the workers are listed once and `GetMetrics` finds them
  all.
-/

namespace Cdcf

namespace LoadBalancer

variable {μ ι α : Type*} [MessageId μ] [DecidableEq μ] [DecidableEq ι]

/-- What answers a call of `policy_`, from what the policy has kept, the workers, their loads and
the mail. -/
abbrev Policy (μ ι α : Type*) :=
  MinLoad (Mail μ ι α) → List ι → List UInt64 → Option (Mail μ ι α) →
    Option (MinLoad (Mail μ ι α) × Option ι × Option (Mail μ ι α))

namespace Router

/-- The policy is called, and the mail it releases is relayed. -/
def routeWith (call : Policy μ ι α) (r : Router μ ι α) (thisMail : Option (Mail μ ι α)) :
    Except Fault (Router μ ι α × List (Effect μ ι α)) :=
  match r.getMetrics with
  | none => .error .noMetrics
  | some metrics =>
      match call r.policy_ r.workers_ metrics thisMail with
      | none => .error .noWorkers
      | some (policy, some worker, some nextMail) =>
          let load := (r.metrics_ (some worker)).getD 0 + 1
          let (proxy, effects) := r.proxy_.relay nextMail worker
          .ok ({ r with
                policy_ := policy
                metrics_ := Function.update r.metrics_ (some worker) (some load)
                proxy_ := proxy },
            effects)
      | some (policy, _, _) => .ok ({ r with policy_ := policy }, [])

/-- The router in a call that is not taken by `Filter`, when the policy is called. -/
def measured (r : Router μ ι α) (what : Mail μ ι α) : Router μ ι α :=
  if isResponse what.mid then ((r.discharge what.sender).reply what).1 else r

/-- `Router::enqueue`. -/
def enqueueWith (call : Policy μ ι α) (r : Router μ ι α) (what : Mail μ ι α) :
    Except Fault (Router μ ι α × List (Effect μ ι α)) :=
  match r.filter what with
  | some result => result
  | none =>
      if isResponse what.mid then
        let (r, replies) := (r.discharge what.sender).reply what
        (r.routeWith call none).map fun (r, relays) => (r, replies ++ relays)
      else r.routeWith call (some what)

/-- Under `MinLoad` it is the call of the model. -/
lemma enqueueWith_minLoad (r : Router μ ι α) (what : Mail μ ι α) :
    r.enqueueWith MinLoad.call what = r.enqueue what := rfl

/-- The policy is called on the measured router. -/
lemma enqueueWith_of_filter {r : Router μ ι α} {what : Mail μ ι α} (h : r.filter what = none)
    (call : Policy μ ι α) :
    r.enqueueWith call what
      = ((r.measured what).routeWith call (if isResponse what.mid then none else some what)).map
          fun (r', relays) =>
            (r', (if isResponse what.mid then (r.proxy_.reply what r.workers_).2 else [])
              ++ relays) := by
  rw [enqueueWith, h, measured]
  cases isResponse what.mid with
  | true => rfl
  | false =>
      show r.routeWith call (some what) = (r.routeWith call (some what)).map _
      cases r.routeWith call (some what) <;> rfl

/-! ### One call -/

@[simp] lemma workers_measured (r : Router μ ι α) (what : Mail μ ι α) :
    (r.measured what).workers_ = r.workers_ := by
  rw [measured]
  split <;> simp

lemma Metered.measured {r : Router μ ι α} (hr : r.Metered) (what : Mail μ ι α) :
    (r.measured what).Metered := by
  rw [Router.measured]
  split
  · exact hr.discharge_reply what
  · exact hr

omit [MessageId μ] [DecidableEq μ] [DecidableEq ι] in
/-- `GetMetrics` has one load for every worker. -/
lemma Metered.exists_getMetrics {r : Router μ ι α} (hr : r.Metered) :
    ∃ metrics, r.getMetrics = some metrics ∧ metrics.length = r.workers_.length :=
  ⟨r.loads, hr.getMetrics, List.length_map _⟩

/-- Whatever the policy answers, the workers stay, and at most one load is set. -/
lemma routeWith_eq_ok {r r' : Router μ ι α} {call : Policy μ ι α} {mail : Option (Mail μ ι α)}
    {effects : List (Effect μ ι α)} (h : r.routeWith call mail = .ok (r', effects)) :
    r'.workers_ = r.workers_ ∧ (r'.metrics_ = r.metrics_
      ∨ ∃ worker load, r'.metrics_ = Function.update r.metrics_ (some worker) (some load)) := by
  rw [routeWith] at h
  cases hmetrics : r.getMetrics with
  | none => simp [hmetrics] at h
  | some metrics =>
      simp only [hmetrics] at h
      cases hcall : call r.policy_ r.workers_ metrics mail with
      | none => simp [hcall] at h
      | some result =>
          obtain ⟨policy, worker?, next?⟩ := result
          rw [hcall] at h
          cases worker? with
          | none =>
              obtain ⟨rfl, -⟩ := Prod.mk.inj (Except.ok.inj h)
              exact ⟨rfl, Or.inl rfl⟩
          | some worker =>
              cases next? with
              | none =>
                  obtain ⟨rfl, -⟩ := Prod.mk.inj (Except.ok.inj h)
                  exact ⟨rfl, Or.inl rfl⟩
              | some next =>
                  obtain ⟨rfl, -⟩ := Prod.mk.inj (Except.ok.inj h)
                  exact ⟨rfl, Or.inr ⟨worker, _, rfl⟩⟩

/-- The loads that a call needs are there. -/
lemma routeWith_ne_noMetrics {r : Router μ ι α} (hr : r.Metered) (call : Policy μ ι α)
    (mail : Option (Mail μ ι α)) : r.routeWith call mail ≠ .error .noMetrics := by
  rw [routeWith, hr.getMetrics]
  simp only
  split <;> simp

lemma Metered.routeWith {r r' : Router μ ι α} {call : Policy μ ι α}
    {mail : Option (Mail μ ι α)} {effects : List (Effect μ ι α)} (hr : r.Metered)
    (h : r.routeWith call mail = .ok (r', effects)) : r'.Metered := by
  obtain ⟨hworkers, hmetrics⟩ := routeWith_eq_ok h
  refine ⟨hworkers ▸ hr.nodup, fun w hw => ?_⟩
  rw [hworkers] at hw
  rcases hmetrics with hmetrics | ⟨worker, load, hmetrics⟩
  · rw [hmetrics]
    exact hr.isSome w hw
  · rw [hmetrics]
    exact (hr.update (some worker) load).isSome w hw

/-- A call under any policy keeps the workers listed once and with loads. -/
lemma Metered.enqueueWith {r r' : Router μ ι α} {call : Policy μ ι α} {what : Mail μ ι α}
    {effects : List (Effect μ ι α)} (hr : r.Metered)
    (h : r.enqueueWith call what = .ok (r', effects)) : r'.Metered := by
  cases hfilter : r.filter what with
  | some result =>
      rw [Router.enqueueWith, hfilter] at h
      exact (filter_reseats hr (hfilter.trans (congrArg some h))).metered
  | none =>
      rw [enqueueWith_of_filter hfilter] at h
      cases hroute : (r.measured what).routeWith call
          (if isResponse what.mid then none else some what) with
      | error fault => simp [hroute, Except.map] at h
      | ok result =>
          obtain ⟨r'', relays⟩ := result
          rw [hroute] at h
          obtain ⟨rfl, -⟩ := Prod.mk.inj (Except.ok.inj h)
          exact (hr.measured what).routeWith hroute

/-- No call fails to find a load. -/
lemma enqueueWith_ne_noMetrics {r : Router μ ι α} (hr : r.Metered) (call : Policy μ ι α)
    (what : Mail μ ι α) : r.enqueueWith call what ≠ .error .noMetrics := by
  intro h
  cases hfilter : r.filter what with
  | some result =>
      rw [enqueueWith, hfilter] at h
      have hfault := (filter_eq_error_iff r what .noMetrics).mp (hfilter.trans (congrArg some h))
      exact absurd hfault.1 (by simp)
  | none =>
      have hroute := routeWith_ne_noMetrics (hr.measured what) call
        (if isResponse what.mid then none else some what)
      rw [enqueueWith_of_filter hfilter] at h
      cases hresult : (r.measured what).routeWith call
          (if isResponse what.mid then none else some what) with
      | error fault =>
          rw [hresult] at h hroute
          exact hroute (congrArg Except.error (Except.error.inj h))
      | ok result => simp [hresult, Except.map] at h

end Router

/-! ### Runs -/

namespace World

/-- One call of `enqueue` under the policy that comes with it. -/
def stepWith (s : Except Fault (World μ ι α)) (e : Mail μ ι α × Policy μ ι α) :
    Except Fault (World μ ι α) :=
  s.bind fun s => (s.router.enqueueWith e.2 e.1).map fun (router, effects) =>
    ⟨router, (e.1, effects) :: s.log⟩

/-- Under `MinLoad` it is the step of the model. -/
lemma stepWith_minLoad (s : Except Fault (World μ ι α)) (what : Mail μ ι α) :
    stepWith s (what, MinLoad.call) = step s what := rfl

/-- `GetMetrics` finds all the workers, after the calls so far and within the next one. -/
structure Measurable (w : World μ ι α) : Prop where
  nodup : w.router.workers_.Nodup
  isSome : ∀ worker ∈ w.router.workers_, (w.router.metrics_ (some worker)).isSome
  getMetrics : ∃ metrics, w.router.getMetrics = some metrics
    ∧ metrics.length = w.router.workers_.length
  measured : ∀ what, ∃ metrics, (w.router.measured what).getMetrics = some metrics
    ∧ metrics.length = w.router.workers_.length

lemma measurable_of_metered {w : World μ ι α} (h : w.router.Metered) : w.Measurable where
  nodup := h.nodup
  isSome := h.isSome
  getMetrics := h.exists_getMetrics
  measured := fun what => by simpa using (h.measured what).exists_getMetrics

/-- The workers are listed once and have loads, unless an earlier call had no result, and then not
for a load. -/
def MeteredOr (s : Except Fault (World μ ι α)) : Prop :=
  (∀ w, s = .ok w → w.router.Metered) ∧ s ≠ .error .noMetrics

lemma meteredOr_stepWith {s : Except Fault (World μ ι α)} (e : Mail μ ι α × Policy μ ι α)
    (h : MeteredOr s) : MeteredOr (stepWith s e) := by
  cases s with
  | error fault => exact ⟨fun w hw => by simp [stepWith, Except.bind] at hw, h.2⟩
  | ok s =>
      have hs := h.1 s rfl
      have hstep : stepWith (.ok s) e
          = (s.router.enqueueWith e.2 e.1).map fun (router, effects) =>
              ⟨router, (e.1, effects) :: s.log⟩ := rfl
      rw [hstep]
      cases hcall : s.router.enqueueWith e.2 e.1 with
      | error fault =>
          refine ⟨fun w hw => by simp [Except.map] at hw, fun hfault => ?_⟩
          obtain rfl : fault = .noMetrics := Except.error.inj hfault
          exact Router.enqueueWith_ne_noMetrics hs e.2 e.1 hcall
      | ok result =>
          obtain ⟨router, effects⟩ := result
          refine ⟨fun w hw => ?_, by simp [Except.map]⟩
          obtain rfl := Except.ok.inj hw
          exact hs.enqueueWith hcall

/-- In every run, under every policy, no worker is listed twice, every worker has a load, and
`GetMetrics` finds as many loads as there are workers wherever it can be called. -/
theorem getMetrics_always (loadThresholdToHold : UInt64)
    (calls : List (Mail μ ι α × Policy μ ι α)) :
    Run.Always stepWith
      (fun s => (∀ w, s = .ok w → w.Measurable) ∧ s ≠ .error .noMetrics)
      (.ok (make loadThresholdToHold)) calls := by
  have hmake : MeteredOr (.ok (make loadThresholdToHold) : Except Fault (World μ ι α)) :=
    ⟨metered_make loadThresholdToHold, by simp⟩
  have hall : Run.Always stepWith MeteredOr (.ok (make loadThresholdToHold)) calls :=
    Run.always_of_inv (fun _ e h => meteredOr_stepWith e h) hmake calls
  exact hall.imp fun s h => ⟨fun w hw => measurable_of_metered (h.1 w hw), h.2⟩

end World

end LoadBalancer

end Cdcf
