import Cdcf.LoadBalancer.Router

/-!
Calls of `enqueue` in several threads.

Every call builds a guard that holds `lock_`, and passes it on by reference.  The functions that
change the workers, `Proxy::Reply` and `Proxy::Relay` take the lock out of the guard, wait until
nobody else holds it and have it for themselves for one section; the guard owns nothing then.
Whether a second guard is let in while one holds the lock is left to the lock, which is not of the
repository.

* `UpgradeLock`: the lock; `UpgradeLock.shared` is the one that the source names;
* `Router.prepare`, `Router.change`: the functions that change the workers, up to and from the
  place where they take the lock;
* `Pc`, `System`, `System.step`: how far each thread is, and one step of a thread;
* `System.run_alone`: the steps of a call that nobody interrupts are the call of the sequential
  model.
-/

namespace Cdcf

namespace LoadBalancer

variable {τ μ ι α : Type*}

/-- An upgrade lock: whether it lets a guard in while these threads hold it.  Who takes it for
itself waits until nobody holds it. -/
structure UpgradeLock (τ : Type*) where
  admits : List τ → Bool
  admits_nil : admits [] = true

/-- The lock of one guard at a time. -/
def UpgradeLock.single : UpgradeLock τ := ⟨List.isEmpty, rfl⟩

/-- The lock of any number of guards, as `lock_upgrade` of `shared_spinlock` is `lock_shared`. -/
def UpgradeLock.shared : UpgradeLock τ := ⟨fun _ => true, rfl⟩

/-- The content is one of those for which the workers change. -/
def Content.isChange : Content ι α → Bool
  | .exit | .down _ | .put _ | .delete _ | .clear => true
  | .get | .other _ => false

variable [MessageId μ] [DecidableEq μ] [DecidableEq ι] [DecidableEq τ]

namespace Router

/-- What `Exit`, `Down`, `AddWorker`, `DeleteWorker` and `ClearWorker` do before they take the lock
for themselves, unless they are over then. -/
def prepare (r : Router μ ι α) : Content ι α → Option (Router μ ι α × List (Effect μ ι α))
  | .exit => if r.isCleanedUp then none else some ({ r with isCleanedUp := true }, [])
  | .put worker => if worker ∈ r.workers_ then none else some (r, [.attach worker])
  | .down _ | .delete _ | .clear => some (r, [])
  | .get | .other _ => none

/-- What they do from then on. -/
def change (r : Router μ ι α) : Content ι α → Router μ ι α × List (Effect μ ι α)
  | .exit => ({ r with workers_ := [], metrics_ := fun _ => none }, r.workers_.map .exit)
  | .put worker =>
      ({ r with
          workers_ := r.workers_ ++ [worker]
          metrics_ := emplace r.metrics_ (some worker) 0 }, [])
  | .down source => r.down source
  | .delete worker => r.deleteWorker worker
  | .clear => r.clearWorker
  | .get | .other _ => (r, [])

omit [DecidableEq μ] in
/-- The two halves are the whole. -/
lemma filter_of_isChange (r : Router μ ι α) {what : Mail μ ι α}
    (h : what.content.isChange = true) :
    r.filter what = some (.ok (match r.prepare what.content with
      | none => (r, [])
      | some (r, effects) =>
          ((r.change what.content).1, effects ++ (r.change what.content).2))) := by
  obtain ⟨mid, sender, content⟩ := what
  cases content with
  | exit =>
      simp only [filter, prepare, exit]
      split <;> simp [change]
  | put worker =>
      simp only [filter, prepare, addWorker]
      split <;> simp [change]
  | down source => simp [filter, prepare, change]
  | delete worker => simp [filter, prepare, change]
  | clear => simp [filter, prepare, change]
  | get => exact absurd h (by simp [Content.isChange])
  | other payload => exact absurd h (by simp [Content.isChange])

omit [MessageId μ] [DecidableEq μ] in
/-- What comes first changes no workers. -/
lemma prepare_eq_some {r r' : Router μ ι α} {content : Content ι α}
    {effects : List (Effect μ ι α)} (h : r.prepare content = some (r', effects)) :
    r'.workers_ = r.workers_ ∧ r'.metrics_ = r.metrics_ := by
  cases content with
  | exit =>
      rw [prepare] at h
      split at h
      · exact absurd h (by simp)
      · obtain ⟨rfl, -⟩ := Prod.mk.inj (Option.some.inj h)
        exact ⟨rfl, rfl⟩
  | put worker =>
      rw [prepare] at h
      split at h
      · exact absurd h (by simp)
      · obtain ⟨rfl, -⟩ := Prod.mk.inj (Option.some.inj h)
        exact ⟨rfl, rfl⟩
  | get => exact absurd h (by simp [prepare])
  | other payload => exact absurd h (by simp [prepare])
  | _ =>
      obtain ⟨rfl, -⟩ := Prod.mk.inj (Option.some.inj h)
      exact ⟨rfl, rfl⟩

omit [DecidableEq μ] in
/-- `Filter` leaves the router as it is for everything else. -/
lemma filter_eq_ok {r r' : Router μ ι α} {what : Mail μ ι α} {effects : List (Effect μ ι α)}
    (hcontent : what.content.isChange = false) (h : r.filter what = some (.ok (r', effects))) :
    r' = r := by
  obtain ⟨mid, sender, content⟩ := what
  cases content with
  | get => cases sender <;> simp_all [filter]
  | other payload =>
      cases sender with
      | none => exact absurd h (by simp [filter])
      | some client =>
          simp only [filter] at h
          split at h
          · exact (Prod.mk.inj (Except.ok.inj (Option.some.inj h))).1.symm
          · exact absurd h (by simp)
  | _ => exact absurd hcontent (by simp [Content.isChange])

end Router

/-- How far a call is in its thread.  From `calling` to `updating` the router is remembered as it
was when its workers and loads were read.  Where the lock is waited for, `owns` says whether it was
taken out of the guard; else there is nothing to wait for. -/
inductive Pc (μ ι α : Type*) where
  /-- There is no call. -/
  | idle
  /-- The guard is built. -/
  | entering (what : Mail μ ι α)
  /-- `Filter` is called. -/
  | filtering (what : Mail μ ι α)
  /-- The workers are changed, under the lock. -/
  | changing (owns : Bool) (content : Content ι α)
  /-- The load of the sender of a response is decremented. -/
  | discharging (what : Mail μ ι α)
  /-- `Proxy::Reply` is called. -/
  | replying (what : Mail μ ι α)
  /-- The ticket of a response is extracted, under the lock, and the response is handed on. -/
  | extracting (owns : Bool) (what : Mail μ ι α)
  /-- The workers and the loads are read for the policy. -/
  | reading (mail : Option (Mail μ ι α))
  /-- The policy is called. -/
  | calling (mail : Option (Mail μ ι α)) (seen : Router μ ι α)
  /-- The load of the chosen worker is incremented. -/
  | updating (worker : ι) (next : Mail μ ι α) (seen : Router μ ι α)
  /-- `Proxy::Relay` is called. -/
  | relaying (worker : ι) (next : Mail μ ι α)
  /-- A ticket is placed, under the lock, and the mail is sent to the worker. -/
  | ticketing (owns : Bool) (worker : ι) (next : Mail μ ι α)
  /-- What comes next is undefined. -/
  | stuck

/-- The router with its lock and the threads in it, and what was done to other actors. -/
structure System (τ μ ι α : Type*) where
  /-- The threads whose guards hold the lock. -/
  lock_ : List τ
  router : Router μ ι α
  pc : τ → Pc μ ι α
  sent : List (Effect μ ι α)

/-- A thread calls `enqueue`, or takes its next step. -/
inductive Turn (τ μ ι α : Type*) where
  | call (t : τ) (what : Mail μ ι α)
  | run (t : τ)

namespace System

/-- A new router, and no call. -/
def make (loadThresholdToHold : UInt64) : System τ μ ι α :=
  { lock_ := [], router := Router.make loadThresholdToHold, pc := fun _ => .idle, sent := [] }

/-- The thread is at another place. -/
def goTo (s : System τ μ ι α) (t : τ) (pc : Pc μ ι α) : System τ μ ι α :=
  { s with pc := Function.update s.pc t pc }

/-- The guard of the thread gives the lock up, if it still owns it. -/
def release (s : System τ μ ι α) (t : τ) : System τ μ ι α :=
  { s with lock_ := s.lock_.filter (· ≠ t) }

/-- The lock, taken out of the guard, is still held by others. -/
def waits (s : System τ μ ι α) (owns : Bool) : Bool := owns && !s.lock_.isEmpty

/-- The next step of a thread; without the lock it waits for it. -/
def run (lock : UpgradeLock τ) (s : System τ μ ι α) (t : τ) : System τ μ ι α :=
  match s.pc t with
  | .idle => s
  | .entering what =>
      if lock.admits s.lock_ then { s with lock_ := t :: s.lock_ }.goTo t (.filtering what) else s
  | .filtering what =>
      if what.content.isChange then
        match s.router.prepare what.content with
        | none => (s.release t).goTo t .idle
        | some (router, effects) =>
            ({ s with router, sent := s.sent ++ effects }.release t).goTo t
              (.changing (t ∈ s.lock_) what.content)
      else
        match s.router.filter what with
        | some (.ok (router, effects)) =>
            ({ s with router, sent := s.sent ++ effects }.release t).goTo t .idle
        | some (.error _) => s.goTo t .stuck
        | none =>
            if isResponse what.mid then s.goTo t (.discharging what)
            else s.goTo t (.reading (some what))
  | .changing owns content =>
      if s.waits owns then s
      else
        let (router, effects) := s.router.change content
        { s with router, sent := s.sent ++ effects }.goTo t .idle
  | .discharging what =>
      { s with router := s.router.discharge what.sender }.goTo t (.replying what)
  | .replying what => (s.release t).goTo t (.extracting (t ∈ s.lock_) what)
  | .extracting owns what =>
      if s.waits owns then s
      else
        let (router, effects) := s.router.reply what
        { s with router, sent := s.sent ++ effects }.goTo t (.reading none)
  | .reading mail =>
      if s.router.getMetrics.isSome then s.goTo t (.calling mail s.router) else s.goTo t .stuck
  | .calling mail seen =>
      match s.router.policy_.call s.router.workers_ (seen.getMetrics.getD []) mail with
      | none => s.goTo t .stuck
      | some (policy, some worker, some next) =>
          { s with router := { s.router with policy_ := policy } }.goTo t
            (.updating worker next seen)
      | some (policy, _, _) =>
          ({ s with router := { s.router with policy_ := policy } }.release t).goTo t .idle
  | .updating worker next _ =>
      let load := (s.router.metrics_ (some worker)).getD 0 + 1
      let metrics := Function.update s.router.metrics_ (some worker) (some load)
      { s with router := { s.router with metrics_ := metrics } }.goTo t (.relaying worker next)
  | .relaying worker next => (s.release t).goTo t (.ticketing (t ∈ s.lock_) worker next)
  | .ticketing owns worker next =>
      if s.waits owns then s
      else
        let (proxy, effects) := s.router.proxy_.relay next worker
        { s with router := { s.router with proxy_ := proxy }, sent := s.sent ++ effects }.goTo t
          .idle
  | .stuck => s

/-- One turn. -/
def step (lock : UpgradeLock τ) (s : System τ μ ι α) : Turn τ μ ι α → System τ μ ι α
  | .call t what =>
      match s.pc t with
      | .idle => s.goTo t (.entering what)
      | _ => s
  | .run t => s.run lock t

/-! ### A call that nobody interrupts -/

variable {lock : UpgradeLock τ}

/-- The thread comes from a state to another by steps of its own. -/
def Alone (lock : UpgradeLock τ) (t : τ) (s s' : System τ μ ι α) : Prop :=
  ∃ n, (fun s => run lock s t)^[n] s = s'

lemma alone_refl (t : τ) (s : System τ μ ι α) : Alone lock t s s := ⟨0, rfl⟩

lemma Alone.head {t : τ} {s s₁ s' : System τ μ ι α} (h : Alone lock t s₁ s')
    (hrun : s.run lock t = s₁) : Alone lock t s s' := by
  obtain ⟨n, hn⟩ := h
  exact ⟨n + 1, by rw [Function.iterate_succ_apply, hrun, hn]⟩

/-- The call is over, as the sequential model has it: the router and what was sent are as they are
there, and the lock is given up; or what comes next is undefined. -/
def Ends (s s' : System τ μ ι α) (t : τ) :
    Except Fault (Router μ ι α × List (Effect μ ι α)) → Prop
  | .ok (router, effects) =>
      s' = { s with lock_ := [], router, sent := s.sent ++ effects }.goTo t .idle
  | .error _ => s'.pc t = .stuck

omit [MessageId μ] [DecidableEq μ] [DecidableEq ι] in
@[simp] lemma pc_goTo (s : System τ μ ι α) (t : τ) (pc : Pc μ ι α) : (s.goTo t pc).pc t = pc :=
  Function.update_self ..

omit [MessageId μ] [DecidableEq μ] [DecidableEq ι] in
lemma pc_goTo_of_ne (s : System τ μ ι α) {t u : τ} (hu : u ≠ t) (pc : Pc μ ι α) :
    (s.goTo t pc).pc u = s.pc u :=
  Function.update_of_ne hu ..

omit [MessageId μ] [DecidableEq μ] [DecidableEq ι] in
/-- Nobody holds the lock once the only thread that may do so has given it up. -/
lemma release_eq {s : System τ μ ι α} {t : τ} (h : ∀ u ∈ s.lock_, u = t) :
    s.release t = { s with lock_ := [] } := by
  have hnil : s.lock_.filter (· ≠ t) = [] :=
    List.filter_eq_nil_iff.mpr fun u hu => by simp [h u hu]
  rw [release, hnil]

/-- The placing half of a call, taken alone, is that of the sequential model. -/
lemma alone_route (lock : UpgradeLock τ) {s : System τ μ ι α} {t : τ} {mail : Option (Mail μ ι α)}
    {result : Except Fault (Router μ ι α × List (Effect μ ι α))} (hpc : s.pc t = .reading mail)
    (hlock : ∀ u ∈ s.lock_, u = t) (hroute : s.router.route mail = result) :
    ∃ s', Alone lock t s s' ∧ s.Ends s' t result := by
  subst hroute
  cases hmetrics : s.router.getMetrics with
  | none =>
      have hrun : s.run lock t = s.goTo t .stuck := by simp [run, hpc, hmetrics]
      refine ⟨_, (alone_refl t _).head hrun, ?_⟩
      simp [Router.route, hmetrics, Ends]
  | some metrics =>
      have hrun : s.run lock t = s.goTo t (.calling mail s.router) := by simp [run, hpc, hmetrics]
      cases hcall : s.router.policy_.call s.router.workers_ metrics mail with
      | none =>
          have hrun' : (s.goTo t (.calling mail s.router)).run lock t = s.goTo t .stuck := by
            simp [run, goTo, hmetrics, hcall]
          refine ⟨_, ((alone_refl t _).head hrun').head hrun, ?_⟩
          simp [Router.route, hmetrics, hcall, Ends]
      | some result =>
          obtain ⟨policy, worker?, next?⟩ := result
          let placed := { s.router with policy_ := policy }
          cases hplaced : worker?.isSome && next?.isSome with
          | false =>
              have hrun' : (s.goTo t (.calling mail s.router)).run lock t
                  = { s with lock_ := [], router := placed }.goTo t .idle := by
                rw [← release_eq (s := { s with router := placed }) hlock]
                cases worker? <;> cases next? <;> simp_all [run, goTo, release, placed]
              refine ⟨_, ((alone_refl t _).head hrun').head hrun, ?_⟩
              cases worker? <;> cases next? <;> simp_all [Router.route, Ends, placed]
          | true =>
              rw [Bool.and_eq_true] at hplaced
              obtain ⟨worker, rfl⟩ := Option.isSome_iff_exists.mp hplaced.1
              obtain ⟨next, rfl⟩ := Option.isSome_iff_exists.mp hplaced.2
              let load := (s.router.metrics_ (some worker)).getD 0 + 1
              let metrics' := Function.update s.router.metrics_ (some worker) (some load)
              let counted := { placed with metrics_ := metrics' }
              have hcalling : (s.goTo t (.calling mail s.router)).run lock t
                  = { s with router := placed }.goTo t (.updating worker next s.router) := by
                simp [run, goTo, hmetrics, hcall, placed]
              have hupdating : ({ s with router := placed }.goTo t
                  (.updating worker next s.router)).run lock t
                    = { s with router := counted }.goTo t (.relaying worker next) := by
                simp [run, goTo, counted, placed, metrics', load]
              have hrelaying : ({ s with router := counted }.goTo t
                  (.relaying worker next)).run lock t
                    = { s with lock_ := [], router := counted }.goTo t
                      (.ticketing (t ∈ s.lock_) worker next) := by
                rw [← release_eq (s := { s with router := counted }) hlock]
                simp [run, goTo, release]
                rfl
              have hticketing : ({ s with lock_ := [], router := counted }.goTo t
                  (.ticketing (t ∈ s.lock_) worker next)).run lock t
                    = { s with
                        lock_ := []
                        router := { counted with proxy_ := (s.router.proxy_.relay next worker).1 }
                        sent := s.sent ++ (s.router.proxy_.relay next worker).2 }.goTo t .idle := by
                simp [run, goTo, waits, counted, placed]
              refine ⟨_, (((((alone_refl t _).head hticketing).head hrelaying).head
                hupdating).head hcalling).head hrun, ?_⟩
              simp [Router.route, hmetrics, hcall, Ends, counted, placed, metrics', load]

/-- A call that nobody interrupts is the call of the sequential model. -/
theorem run_alone {s : System τ μ ι α} {t : τ} (what : Mail μ ι α) (hidle : s.pc t = .idle)
    (hfree : s.lock_ = []) :
    ∃ s', Alone lock t (s.step lock (.call t what)) s'
      ∧ s.Ends s' t (s.router.enqueue what) := by
  let entered := { s with lock_ := [t] }.goTo t (.filtering what)
  have hcall : s.step lock (.call t what) = s.goTo t (.entering what) := by simp [step, hidle]
  have hentering : (s.goTo t (.entering what)).run lock t = entered := by
    simp [run, goTo, hfree, entered, lock.admits_nil]
  rw [hcall, Router.enqueue]
  cases hchange : what.content.isChange with
  | true =>
      rw [Router.filter_of_isChange s.router hchange]
      cases hprepare : s.router.prepare what.content with
      | none =>
          have hfiltering : entered.run lock t = { s with lock_ := [] }.goTo t .idle := by
            simp [run, goTo, release, hchange, hprepare, entered]
          exact ⟨_, ((alone_refl t _).head hfiltering).head hentering, by simp [Ends]⟩
      | some result =>
          obtain ⟨router, effects⟩ := result
          let prepared := { s with lock_ := [], router, sent := s.sent ++ effects }
          have hfiltering : entered.run lock t
              = prepared.goTo t (.changing true what.content) := by
            simp [run, goTo, release, hchange, hprepare, entered, prepared]
          have hchanging : (prepared.goTo t (.changing true what.content)).run lock t
              = { prepared with
                  router := (router.change what.content).1
                  sent := prepared.sent ++ (router.change what.content).2 }.goTo t .idle := by
            simp [run, goTo, waits, prepared]
          refine ⟨_, (((alone_refl t _).head hchanging).head hfiltering).head hentering, ?_⟩
          simp [Ends, prepared]
  | false =>
      cases hfilter : s.router.filter what with
      | some result =>
          cases result with
          | error fault =>
              have hfiltering : entered.run lock t = { s with lock_ := [t] }.goTo t .stuck := by
                simp [run, goTo, hchange, hfilter, entered]
              refine ⟨_, ((alone_refl t _).head hfiltering).head hentering, ?_⟩
              simp [Ends]
          | ok result =>
              obtain ⟨router, effects⟩ := result
              have hfiltering : entered.run lock t
                  = { s with lock_ := [], router, sent := s.sent ++ effects }.goTo t .idle := by
                simp [run, goTo, release, hchange, hfilter, entered]
              exact ⟨_, ((alone_refl t _).head hfiltering).head hentering, rfl⟩
      | none =>
          cases hresp : isResponse what.mid with
          | false =>
              have hfiltering : entered.run lock t
                  = { s with lock_ := [t] }.goTo t (.reading (some what)) := by
                simp [run, goTo, hchange, hfilter, hresp, entered]
              obtain ⟨s', halone, hends⟩ := alone_route lock
                (s := { s with lock_ := [t] }.goTo t (.reading (some what))) (pc_goTo _ _ _)
                (fun u hu => by simpa [goTo] using hu)
                (show _ = s.router.route (some what) from rfl)
              refine ⟨s', (halone.head hfiltering).head hentering, ?_⟩
              simp only [Bool.false_eq_true, if_false]
              cases hroute : s.router.route (some what) with
              | error fault =>
                  rw [hroute] at hends
                  exact hends
              | ok result =>
                  rw [hroute] at hends
                  simpa [Ends, goTo] using hends
          | true =>
              let discharged := s.router.discharge what.sender
              let answered := discharged.reply what
              have hfiltering : entered.run lock t
                  = { s with lock_ := [t] }.goTo t (.discharging what) := by
                simp [run, goTo, hchange, hfilter, hresp, entered]
              have hdischarging : ({ s with lock_ := [t] }.goTo t (.discharging what)).run lock t
                  = { s with lock_ := [t], router := discharged }.goTo t (.replying what) := by
                simp [run, goTo, discharged]
              have hreplying : ({ s with lock_ := [t], router := discharged }.goTo t
                  (.replying what)).run lock t
                    = { s with lock_ := [], router := discharged }.goTo t
                      (.extracting true what) := by
                simp [run, goTo, release]
              have hextracting : ({ s with lock_ := [], router := discharged }.goTo t
                  (.extracting true what)).run lock t
                    = { s with
                        lock_ := [], router := answered.1, sent := s.sent ++ answered.2 }.goTo t
                      (.reading none) := by
                simp [run, goTo, waits, answered]
              obtain ⟨s', halone, hends⟩ := alone_route lock
                (s := { s with
                  lock_ := [], router := answered.1, sent := s.sent ++ answered.2 }.goTo t
                    (.reading none)) (pc_goTo _ _ _) (fun u hu => absurd hu (by simp [goTo]))
                (show _ = answered.1.route none from rfl)
              refine ⟨s', ((((halone.head hextracting).head hreplying).head hdischarging).head
                hfiltering).head hentering, ?_⟩
              simp only [if_true]
              cases hroute : answered.1.route none with
              | error fault =>
                  rw [hroute] at hends
                  simpa [Ends, Except.map, answered, discharged, hroute] using hends
              | ok result =>
                  rw [hroute] at hends
                  simpa [Ends, Except.map, goTo, answered, discharged, hroute] using hends

end System

end LoadBalancer

end Cdcf
