import Cdcf.LoadBalancer.Policy
import Cdcf.LoadBalancer.Proxy
import Cdcf.Library.Run

/-!
The load balancer (`load_balancer.cc`), with the policy `MinLoad`.

One call of `enqueue` either is taken by `Filter`, for what the mail holds or because a request
cannot be served without workers, or hands a response on and calls the policy.  The calls are
taken one at a time here.

* `Router`, `Router.filter`, `Router.enqueue`: the state and the operations.  Where the source
  takes a remainder by zero or follows a null or missing pointer, there is a `Fault`.
* `World`: the router with the log of what it got and did; `World.step` is one call, and what
  comes after a fault is the fault.
* `Router.Metered`, `World.metered_step`: the workers are listed once, and all have a load.
* `Router.route_cases`, `Router.route_of_ne_nil`: what the placing half of a call can do, and what
  it does where there is something to place.
* `World.always_ok_iff_each`, `World.always_iff_each_of_ok`: the rules of a law over a run, for a
  law that a fault breaks and for one that it does not.
-/

namespace Cdcf

namespace LoadBalancer

variable {μ ι α : Type*} [MessageId μ] [DecidableEq μ] [DecidableEq ι]

/-- What the source leaves undefined. -/
inductive Fault where
  /-- `Rotate` takes a remainder by the number of the workers, and there are none. -/
  | noWorkers
  /-- `GetMetrics` does not find a worker. -/
  | noMetrics
  /-- The list of the workers is sent to a null pointer. -/
  | noSender
  deriving DecidableEq, Repr

/-- `Router`: the workers, their loads, the tickets and the policy. -/
structure Router (μ ι α : Type*) where
  workers_ : List ι
  metrics_ : Option ι → Option UInt64
  proxy_ : Proxy μ ι
  policy_ : MinLoad (Mail μ ι α)
  isCleanedUp : Bool

namespace Router

/-- A new router, `Router::Make`. -/
def make (loadThresholdToHold : UInt64) : Router μ ι α :=
  { workers_ := []
    metrics_ := fun _ => none
    proxy_ := Proxy.init
    policy_ := { loadThresholdToHold_ := loadThresholdToHold }
    isCleanedUp := false }

/-- `Router::GetMetrics`: the loads of the workers. -/
def getMetrics (r : Router μ ι α) : Option (List UInt64) :=
  r.workers_.mapM fun worker => r.metrics_ (some worker)

/-- `Router::AddWorker`. -/
def addWorker (r : Router μ ι α) (worker : ι) : Router μ ι α × List (Effect μ ι α) :=
  if worker ∈ r.workers_ then (r, [])
  else
    ({ r with
        workers_ := r.workers_ ++ [worker]
        metrics_ := emplace r.metrics_ (some worker) 0 },
      [.attach worker])

/-- `Router::DeleteWorker`. -/
def deleteWorker (r : Router μ ι α) (worker : ι) : Router μ ι α × List (Effect μ ι α) :=
  if worker ∈ r.workers_ then
    ({ r with
        workers_ := r.workers_.erase worker
        metrics_ := erase r.metrics_ (some worker) },
      [.detach worker])
  else (r, [])

/-- `Router::ClearWorker`. -/
def clearWorker (r : Router μ ι α) : Router μ ι α × List (Effect μ ι α) :=
  ({ r with workers_ := [], metrics_ := fun _ => none }, r.workers_.map .detach)

/-- `Router::Exit`: only the first call that cleans up does anything. -/
def exit (r : Router μ ι α) : Router μ ι α × List (Effect μ ι α) :=
  if r.isCleanedUp then (r, [])
  else
    ({ r with workers_ := [], metrics_ := fun _ => none, isCleanedUp := true },
      r.workers_.map .exit)

/-- `Router::Down`: the last worker that goes down cleans up. -/
def down (r : Router μ ι α) (source : ι) : Router μ ι α × List (Effect μ ι α) :=
  let r :=
    if source ∈ r.workers_ then
      { r with
        workers_ := r.workers_.erase source
        metrics_ := erase r.metrics_ (some source) }
    else r
  ({ r with isCleanedUp := r.isCleanedUp || r.workers_.isEmpty }, [])

/-- `Router::Filter`: what the call does when the mail is taken here. -/
def filter (r : Router μ ι α) (what : Mail μ ι α) :
    Option (Except Fault (Router μ ι α × List (Effect μ ι α))) :=
  match what.content with
  | .exit => some (.ok r.exit)
  | .down source => some (.ok (r.down source))
  | .put worker => some (.ok (r.addWorker worker))
  | .delete worker => some (.ok (r.deleteWorker worker))
  | .clear => some (.ok r.clearWorker)
  | .get =>
      match what.sender with
      | some client => some (.ok (r, [.workers client (responseId what.mid) r.workers_]))
      | none => some (.error .noSender)
  | .other _ =>
      match what.sender with
      | some client =>
          if isRequest what.mid && r.workers_.isEmpty then
            some (.ok (r, [.empty client (responseId what.mid)]))
          else none
      | none => none

/-- The load of the sender of a response is decremented, as `metrics_[from]` finds it. -/
def discharge (r : Router μ ι α) (sender : Option ι) : Router μ ι α :=
  { r with
    metrics_ := Function.update r.metrics_ sender (some ((r.metrics_ sender).getD 0 - 1)) }

/-- The response is handed on. -/
def reply (r : Router μ ι α) (what : Mail μ ι α) : Router μ ι α × List (Effect μ ι α) :=
  let (proxy, effects) := r.proxy_.reply what r.workers_
  ({ r with proxy_ := proxy }, effects)

/-- The policy is called, and the mail it releases is relayed. -/
def route (r : Router μ ι α) (thisMail : Option (Mail μ ι α)) :
    Except Fault (Router μ ι α × List (Effect μ ι α)) :=
  match r.getMetrics with
  | none => .error .noMetrics
  | some metrics =>
      match r.policy_.call r.workers_ metrics thisMail with
      | none => .error .noWorkers
      | some (policy, some worker, some nextMail) =>
          let load := (r.metrics_ (some worker)).getD 0 + 1
          let (proxy, effects) := r.proxy_.relay nextMail worker
          .ok ({ r with
                policy_ := policy
                metrics_ := Function.update r.metrics_ (some worker) (some load)
                proxy_ := proxy },
            effects)
      | some (policy, _, _) => .ok ({ r with policy_ := policy }, [])

/-- `Router::enqueue`. -/
def enqueue (r : Router μ ι α) (what : Mail μ ι α) :
    Except Fault (Router μ ι α × List (Effect μ ι α)) :=
  match r.filter what with
  | some result => result
  | none =>
      if isResponse what.mid then
        let (r, replies) := (r.discharge what.sender).reply what
        (r.route none).map fun (r, relays) => (r, replies ++ relays)
      else r.route (some what)

section

variable (r : Router μ ι α) (sender : Option ι) (what : Mail μ ι α)

omit [MessageId μ] [DecidableEq μ] in
@[simp] lemma workers_discharge : (r.discharge sender).workers_ = r.workers_ := rfl

omit [MessageId μ] [DecidableEq μ] in
@[simp] lemma policy_discharge : (r.discharge sender).policy_ = r.policy_ := rfl

@[simp] lemma workers_reply : (r.reply what).1.workers_ = r.workers_ := rfl

@[simp] lemma metrics_reply : (r.reply what).1.metrics_ = r.metrics_ := rfl

@[simp] lemma policy_reply : (r.reply what).1.policy_ = r.policy_ := rfl

end

/-! ### The loads of the workers -/

/-- No worker is listed twice, and every worker has a load. -/
structure Metered (r : Router μ ι α) : Prop where
  nodup : r.workers_.Nodup
  isSome : ∀ w ∈ r.workers_, (r.metrics_ (some w)).isSome

omit [MessageId μ] [DecidableEq μ] [DecidableEq ι] in
lemma Metered.metrics_eq {r : Router μ ι α} (hr : r.Metered) {w : ι} (hw : w ∈ r.workers_) :
    r.metrics_ (some w) = some ((r.metrics_ (some w)).getD 0) := by
  obtain ⟨load, hload⟩ := Option.isSome_iff_exists.mp (hr.isSome w hw)
  rw [hload, Option.getD_some]

/-- The loads of the workers, where they are all there. -/
def loads (r : Router μ ι α) : List UInt64 :=
  r.workers_.map fun w => (r.metrics_ (some w)).getD 0

omit [MessageId μ] [DecidableEq μ] [DecidableEq ι] in
/-- `GetMetrics` finds the load of every worker. -/
lemma Metered.getMetrics {r : Router μ ι α} (hr : r.Metered) : r.getMetrics = some r.loads := by
  have hloop : ∀ ws : List ι, (∀ w ∈ ws, w ∈ r.workers_) →
      ws.mapM (fun w => r.metrics_ (some w))
        = some (ws.map fun w => (r.metrics_ (some w)).getD 0) := by
    intro ws hws
    induction ws with
    | nil => rfl
    | cons w ws ih =>
        rw [List.mapM_cons, hr.metrics_eq (hws w List.mem_cons_self),
          ih fun v hv => hws v (List.mem_cons_of_mem _ hv)]
        rfl
  exact hloop r.workers_ fun _ hw => hw

omit [MessageId μ] [DecidableEq μ] [DecidableEq ι] in
/-- The load at the place of a worker is the load of the worker. -/
lemma getD_of_getElem?_loads {r : Router μ ι α} {i : ℕ} {worker : ι} {load : UInt64}
    (hworker : r.workers_[i]? = some worker) (hload : r.loads[i]? = some load) :
    (r.metrics_ (some worker)).getD 0 = load := by
  rwa [loads, List.getElem?_map, hworker, Option.map_some, Option.some_inj] at hload

/-- The placing half of a call that has workers and something to place: it moves on by one place,
and either holds the mail, where all workers have reached the threshold, or relays the first of the
mails to the first worker of least load from that place on. -/
lemma route_of_ne_nil {r : Router μ ι α} (hr : r.Metered) (hworkers : r.workers_ ≠ [])
    {mail : Option (Mail μ ι α)} (h : r.policy_.mails_ ++ mail.toList ≠ []) :
    ∃ policy : MinLoad (Mail μ ι α),
      policy.rotated_ = (r.policy_.rotated_ + 1) % 2 ^ 64 % r.workers_.length
        ∧ policy.loadThresholdToHold_ = r.policy_.loadThresholdToHold_ ∧
        (r.route mail = .ok ({ r with policy_ := policy }, [])
            ∧ policy.mails_ = r.policy_.mails_ ++ mail.toList
            ∧ (∀ load ∈ r.loads, r.policy_.loadThresholdToHold_ ≤ load)
          ∨ ∃ i worker m load,
            r.route mail = .ok ({ r with
                policy_ := policy
                metrics_ := Function.update r.metrics_ (some worker) (some (load + 1))
                proxy_ := (r.proxy_.placeTicket m).2 },
              [.relay worker (r.proxy_.placeTicket m).1 m])
            ∧ r.policy_.mails_ ++ mail.toList = m :: policy.mails_
            ∧ r.workers_[i]? = some worker
            ∧ MinLoad.LeastFrom r.loads policy.rotated_ i load
            ∧ load < r.policy_.loadThresholdToHold_) := by
  have hlen : r.loads.length = r.workers_.length := List.length_map _
  have hloads : r.loads ≠ [] := by simpa [loads] using hworkers
  obtain ⟨policy, worker?, next?, hcall, hrotated, hthreshold, hplaced⟩ :=
    MinLoad.call_of_ne_nil hlen hloads h
  refine ⟨policy, by rw [hrotated, hlen], hthreshold, ?_⟩
  rcases hplaced with
    ⟨rfl, rfl, hmails, hall⟩ | ⟨i, worker, m, load, rfl, rfl, hmails, hworker, hfirst, hlt⟩
  · refine Or.inl ⟨?_, hmails, hall⟩
    rw [route, hr.getMetrics]
    simp only [hcall]
  · have hload := getD_of_getElem?_loads hworker hfirst.getElem?
    refine Or.inr ⟨i, worker, m, load, ?_, hmails, hworker, hfirst, hlt⟩
    rw [route, hr.getMetrics]
    simp only [hcall, hload, Proxy.relay]

/-- The placing half has no result exactly when there is a mail to place and no worker. -/
lemma route_eq_error_iff {r : Router μ ι α} (hr : r.Metered) (mail : Option (Mail μ ι α))
    (fault : Fault) :
    r.route mail = .error fault
      ↔ fault = .noWorkers ∧ r.workers_ = [] ∧ r.policy_.mails_ ++ mail.toList ≠ [] := by
  have hnil : r.workers_ = [] ↔ r.loads = [] := List.map_eq_nil_iff.symm
  rw [hnil, ← MinLoad.call_eq_none_iff r.workers_]
  simp only [route, hr.getMetrics]
  cases hcall : r.policy_.call r.workers_ r.loads mail with
  | none => simpa using eq_comm
  | some result =>
      obtain ⟨policy, worker?, next?⟩ := result
      cases worker? <;> cases next? <;> simp

/-- The placing half of a call: the mail is held or there is none, or the first of the mails goes
to a worker whose load is below the threshold. -/
lemma route_cases {r r' : Router μ ι α} {mail : Option (Mail μ ι α)}
    {effects : List (Effect μ ι α)} (hr : r.Metered) (h : r.route mail = .ok (r', effects)) :
    ∃ policy : MinLoad (Mail μ ι α),
      policy.loadThresholdToHold_ = r.policy_.loadThresholdToHold_ ∧
        (r' = { r with policy_ := policy } ∧ effects = []
            ∧ policy.mails_ = r.policy_.mails_ ++ mail.toList
          ∨ ∃ worker m load, worker ∈ r.workers_ ∧ r.metrics_ (some worker) = some load
            ∧ load < r.policy_.loadThresholdToHold_
            ∧ r.policy_.mails_ ++ mail.toList = m :: policy.mails_
            ∧ effects = [.relay worker (r.proxy_.placeTicket m).1 m]
            ∧ r' = { r with
                policy_ := policy
                metrics_ := Function.update r.metrics_ (some worker) (some (load + 1))
                proxy_ := (r.proxy_.placeTicket m).2 }) := by
  by_cases hidle : r.policy_.mails_ ++ mail.toList = []
  · rw [route, hr.getMetrics] at h
    simp only [MinLoad.call_of_idle r.workers_ r.loads hidle] at h
    obtain ⟨rfl, rfl⟩ := Prod.mk.inj (Except.ok.inj h)
    refine ⟨r.policy_, rfl, Or.inl ⟨rfl, rfl, ?_⟩⟩
    rw [hidle, (List.append_eq_nil_iff.mp hidle).1]
  · have hworkers : r.workers_ ≠ [] := fun hnil => by
      rw [(route_eq_error_iff hr mail .noWorkers).mpr ⟨rfl, hnil, hidle⟩] at h
      simp at h
    obtain ⟨policy, -, hthreshold, hplaced⟩ := route_of_ne_nil hr hworkers hidle
    refine ⟨policy, hthreshold, ?_⟩
    rcases hplaced with
      ⟨hroute, hmails, -⟩ | ⟨i, worker, m, load, hroute, hmails, hworker, hfirst, hlt⟩
    · rw [hroute] at h
      obtain ⟨rfl, rfl⟩ := Prod.mk.inj (Except.ok.inj h)
      exact Or.inl ⟨rfl, rfl, hmails⟩
    · have hmem := List.mem_of_getElem? hworker
      have hmetric : r.metrics_ (some worker) = some load := by
        rw [hr.metrics_eq hmem, getD_of_getElem?_loads hworker hfirst.getElem?]
      rw [hroute] at h
      obtain ⟨rfl, rfl⟩ := Prod.mk.inj (Except.ok.inj h)
      exact Or.inr ⟨worker, m, load, hmem, hmetric, hlt, hmails, rfl, rfl⟩

/-! ### What `Filter` takes -/

/-- The mail is one that `Filter` takes. -/
def takes (r : Router μ ι α) (what : Mail μ ι α) : Bool :=
  what.content.isControl || (what.sender.isSome && isRequest what.mid && r.workers_.isEmpty)

/-- A mail with this content takes the worker away. -/
def removes (r : Router μ ι α) : Content ι α → ι → Bool
  | .exit, _ => !r.isCleanedUp
  | .down source, w => source = w
  | .delete worker, w => worker = w
  | .clear, _ => true
  | _, _ => false

omit [DecidableEq μ] in
lemma filter_eq_none_iff {r : Router μ ι α} {what : Mail μ ι α} :
    r.filter what = none ↔ r.takes what = false := by
  obtain ⟨mid, sender, content⟩ := what
  rw [filter, takes]
  cases content <;> cases sender <;> simp [Content.isControl]

/-- The loads are those of the workers, and of nobody else. -/
def Keyed (r : Router μ ι α) : Prop := ∀ k, (r.metrics_ k).isSome ↔ ∃ w ∈ r.workers_, k = some w

/-- The workers change, and with them their loads, and nothing else but the clean-up. -/
structure Reseats (r r' : Router μ ι α) (removed : ι → Prop) (added : ι → Prop) : Prop where
  proxy_eq : r'.proxy_ = r.proxy_
  policy_eq : r'.policy_ = r.policy_
  metered : r'.Metered
  mem_workers : ∀ w, w ∈ r'.workers_ ↔ w ∈ r.workers_ ∧ ¬removed w ∨ added w
  load_eq : ∀ w ∈ r'.workers_, r'.metrics_ (some w) = some ((r.metrics_ (some w)).getD 0)
  keyed : r.Keyed → r'.Keyed

section Reseats

variable {r : Router μ ι α}

omit [MessageId μ] [DecidableEq μ] [DecidableEq ι] in
/-- No worker changes. -/
lemma reseats_same (hr : r.Metered) (cleaned : Bool) {removed added : ι → Prop}
    (hremoved : ∀ w ∈ r.workers_, ¬removed w) (hadded : ∀ w, added w → w ∈ r.workers_) :
    Reseats r { r with isCleanedUp := cleaned } removed added where
  proxy_eq := rfl
  policy_eq := rfl
  metered := ⟨hr.nodup, hr.isSome⟩
  mem_workers := fun w => by
    constructor
    · exact fun hw => Or.inl ⟨hw, hremoved w hw⟩
    · rintro (⟨hw, -⟩ | hw)
      · exact hw
      · exact hadded w hw
  load_eq := fun _ hw => hr.metrics_eq hw
  keyed := fun h => h

omit [MessageId μ] [DecidableEq μ] [DecidableEq ι] in
/-- All workers are removed. -/
lemma reseats_clear (r : Router μ ι α) (cleaned : Bool) {removed : ι → Prop}
    (hremoved : ∀ w ∈ r.workers_, removed w) :
    Reseats r { r with workers_ := [], metrics_ := fun _ => none, isCleanedUp := cleaned }
      removed fun _ => False where
  proxy_eq := rfl
  policy_eq := rfl
  metered := ⟨List.nodup_nil, fun _ hw => absurd hw List.not_mem_nil⟩
  mem_workers := fun w => by
    simp only [List.not_mem_nil, false_iff, or_false, not_and, not_not]
    exact hremoved w
  load_eq := fun _ hw => absurd hw List.not_mem_nil
  keyed := fun _ k => by simp

omit [MessageId μ] [DecidableEq μ] in
/-- One worker is removed. -/
lemma reseats_erase (hr : r.Metered) (worker : ι) (cleaned : Bool) :
    Reseats r { r with
        workers_ := r.workers_.erase worker
        metrics_ := erase r.metrics_ (some worker)
        isCleanedUp := cleaned }
      (worker = ·) fun _ => False := by
  have hother : ∀ w ∈ r.workers_.erase worker, w ∈ r.workers_ ∧
      erase r.metrics_ (some worker) (some w) = r.metrics_ (some w) := by
    intro w hw
    obtain ⟨hne, hw⟩ := hr.nodup.mem_erase_iff.mp hw
    exact ⟨hw, erase_of_ne _ fun h => hne (Option.some_inj.mp h)⟩
  refine ⟨rfl, rfl, ⟨hr.nodup.erase worker, fun w hw => ?_⟩, fun w => ?_, fun w hw => ?_, ?_⟩
  · obtain ⟨hw, hload⟩ := hother w hw
    simpa only [hload] using hr.isSome w hw
  · simp only [hr.nodup.mem_erase_iff]
    tauto
  · obtain ⟨hw, hload⟩ := hother w hw
    simpa only [hload] using hr.metrics_eq hw
  · intro hkeyed k
    by_cases hk : k = some worker
    · simp [hk, hr.nodup.mem_erase_iff]
    · simp only [erase_of_ne _ hk, hkeyed k, hr.nodup.mem_erase_iff]
      refine exists_congr fun w => ⟨?_, fun ⟨⟨_, hw⟩, heq⟩ => ⟨hw, heq⟩⟩
      rintro ⟨hw, rfl⟩
      exact ⟨⟨fun h => hk (congrArg some h), hw⟩, rfl⟩

omit [MessageId μ] [DecidableEq μ] in
/-- One worker is added. -/
lemma reseats_add (hr : r.Metered) {worker : ι} (hnew : worker ∉ r.workers_) :
    Reseats r { r with
        workers_ := r.workers_ ++ [worker]
        metrics_ := emplace r.metrics_ (some worker) 0 }
      (fun _ => False) (worker = ·) := by
  have hcases : ∀ w ∈ r.workers_ ++ [worker], w = worker ∨ w ∈ r.workers_ ∧
      emplace r.metrics_ (some worker) 0 (some w) = r.metrics_ (some w) := by
    intro w hw
    by_cases h : w = worker
    · exact Or.inl h
    · have hw' : w ∈ r.workers_ := by simpa [h] using hw
      exact Or.inr ⟨hw', emplace_of_ne _ _ fun heq => h (Option.some_inj.mp heq)⟩
  refine ⟨rfl, rfl, ⟨?_, fun w hw => ?_⟩, fun w => by simp [eq_comm], fun w hw => ?_, ?_⟩
  · refine List.nodup_append.mpr ⟨hr.nodup, List.nodup_singleton _, fun a ha b hb => ?_⟩
    rintro rfl
    exact hnew (List.mem_singleton.mp hb ▸ ha)
  · rcases hcases w hw with rfl | ⟨hw, hload⟩
    · simp
    · simpa only [hload] using hr.isSome w hw
  · rcases hcases w hw with rfl | ⟨hw, hload⟩
    · simp
    · simpa only [hload] using hr.metrics_eq hw
  · intro hkeyed k
    by_cases hk : k = some worker
    · simp [hk]
    · simp only [emplace_of_ne _ _ hk, hkeyed k, List.mem_append, List.mem_singleton]
      refine exists_congr fun w => and_congr_left ?_
      rintro rfl
      exact ⟨Or.inl, fun h => h.resolve_right fun heq => hk (congrArg some heq)⟩

end Reseats

omit [MessageId μ] [DecidableEq μ] [DecidableEq ι] in
lemma exit_reseats {r : Router μ ι α} (hr : r.Metered) :
    Reseats r r.exit.1 (fun _ => r.isCleanedUp = false) fun _ => False := by
  rw [exit]
  cases hclean : r.isCleanedUp with
  | true => exact reseats_same hr r.isCleanedUp (by simp) (by simp)
  | false => exact reseats_clear r true (by simp)

omit [MessageId μ] [DecidableEq μ] in
lemma down_reseats {r : Router μ ι α} (hr : r.Metered) (source : ι) :
    Reseats r (r.down source).1 (source = ·) fun _ => False := by
  rw [down]
  by_cases hin : source ∈ r.workers_
  · simp only [hin, if_true]
    exact reseats_erase hr source _
  · simp only [hin, if_false]
    exact reseats_same hr _ (by rintro w hw rfl; exact hin hw) (by simp)

omit [MessageId μ] [DecidableEq μ] in
lemma addWorker_reseats {r : Router μ ι α} (hr : r.Metered) (worker : ι) :
    Reseats r (r.addWorker worker).1 (fun _ => False) (worker = ·) := by
  rw [addWorker]
  split
  · next hin => exact reseats_same hr r.isCleanedUp (by simp) (by rintro w rfl; exact hin)
  · next hout => exact reseats_add hr hout

omit [MessageId μ] [DecidableEq μ] in
lemma deleteWorker_reseats {r : Router μ ι α} (hr : r.Metered) (worker : ι) :
    Reseats r (r.deleteWorker worker).1 (worker = ·) fun _ => False := by
  rw [deleteWorker]
  split
  · exact reseats_erase hr worker r.isCleanedUp
  · next hout =>
      exact reseats_same hr r.isCleanedUp (by rintro w hw rfl; exact hout hw) (by simp)

omit [DecidableEq μ] in
/-- What `Filter` does with a mail that it takes. -/
lemma filter_reseats {r r' : Router μ ι α} {what : Mail μ ι α} {effects : List (Effect μ ι α)}
    (hr : r.Metered) (h : r.filter what = some (.ok (r', effects))) :
    Reseats r r' (fun w => r.removes what.content w = true) fun w => what.content = .put w := by
  obtain ⟨mid, sender, content⟩ := what
  have hresult : ∀ {result : Router μ ι α × List (Effect μ ι α)},
      some (Except.ok result : Except Fault _) = some (.ok (r', effects)) → r' = result.1 := by
    intro result heq
    rw [Except.ok.inj (Option.some_inj.mp heq)]
  cases content with
  | exit =>
      rw [hresult h]
      simpa [removes] using exit_reseats hr
  | down source =>
      rw [hresult h]
      simpa [removes] using down_reseats hr source
  | put worker =>
      rw [hresult h]
      simpa [removes] using addWorker_reseats hr worker
  | delete worker =>
      rw [hresult h]
      simpa [removes] using deleteWorker_reseats hr worker
  | clear =>
      rw [hresult h]
      have hclear := reseats_clear r r.isCleanedUp fun _ _ => trivial
      simpa [removes, clearWorker] using hclear
  | get =>
      cases sender with
      | none => simp [filter] at h
      | some client =>
          rw [hresult h]
          exact reseats_same hr r.isCleanedUp (by simp [removes]) (by simp)
  | other payload =>
      cases sender with
      | none => simp [filter] at h
      | some client =>
          simp only [filter] at h
          split at h
          · rw [hresult h]
            exact reseats_same hr r.isCleanedUp (by simp [removes]) (by simp)
          · simp at h

/-- What `Filter` does to other actors: it relays and replies nothing. -/
structure OwnEffects (r : Router μ ι α) (what : Mail μ ι α) (effects : List (Effect μ ι α)) :
    Prop where
  relay : ∀ worker newId mail, .relay worker newId mail ∉ effects
  reply : ∀ client id content, .reply client id content ∉ effects
  attach : ∀ worker, .attach worker ∈ effects ↔ what.content = .put worker ∧ worker ∉ r.workers_
  empty : ∀ client id, .empty client id ∈ effects ↔
    what.content.isControl = false ∧ what.sender = some client ∧ id = responseId what.mid

omit [DecidableEq μ] in
lemma filter_effects {r r' : Router μ ι α} {what : Mail μ ι α} {effects : List (Effect μ ι α)}
    (h : r.filter what = some (.ok (r', effects))) : r.OwnEffects what effects := by
  obtain ⟨mid, sender, content⟩ := what
  have hresult : ∀ {result : Router μ ι α × List (Effect μ ι α)},
      some (Except.ok result : Except Fault _) = some (.ok (r', effects)) →
        effects = result.2 := by
    intro result heq
    rw [Except.ok.inj (Option.some_inj.mp heq)]
  cases content with
  | exit =>
      rw [hresult h, exit]
      cases r.isCleanedUp <;> constructor <;> simp [Content.isControl]
  | down source =>
      rw [hresult h, down]
      constructor <;> simp [Content.isControl]
  | put worker =>
      rw [hresult h, addWorker]
      split <;> constructor <;> simp_all [Content.isControl, eq_comm]
  | delete worker =>
      rw [hresult h, deleteWorker]
      split <;> constructor <;> simp [Content.isControl]
  | clear =>
      rw [hresult h, clearWorker]
      constructor <;> simp [Content.isControl]
  | get =>
      cases sender with
      | none => simp [filter] at h
      | some client =>
          rw [hresult h]
          constructor <;> simp [Content.isControl]
  | other payload =>
      cases sender with
      | none => simp [filter] at h
      | some client =>
          simp only [filter] at h
          split at h
          · rw [hresult h]
            constructor <;> simp [Content.isControl, eq_comm]
          · simp at h

omit [DecidableEq μ] in
/-- `Filter` has no result for a `get` without a sender only. -/
lemma filter_eq_error_iff (r : Router μ ι α) (what : Mail μ ι α) (fault : Fault) :
    r.filter what = some (.error fault)
      ↔ fault = .noSender ∧ what.content = .get ∧ what.sender = none := by
  obtain ⟨mid, sender, content⟩ := what
  cases content with
  | get => cases sender <;> simp [filter, eq_comm]
  | other payload =>
      cases sender with
      | none => simp [filter]
      | some client =>
          simp only [filter]
          split <;> simp
  | _ => simp [filter]

/-! ### One call -/

/-- A call is taken by `Filter`, or places a mail, or hands a response on and places a mail that
is held. -/
lemma enqueue_cases {r r' : Router μ ι α} {what : Mail μ ι α} {effects : List (Effect μ ι α)}
    (h : r.enqueue what = .ok (r', effects)) :
    r.takes what = true ∧ r.filter what = some (.ok (r', effects))
      ∨ r.takes what = false ∧ isResponse what.mid = false
        ∧ r.route (some what) = .ok (r', effects)
      ∨ r.takes what = false ∧ isResponse what.mid = true
        ∧ ∃ relays, effects = (r.proxy_.reply what r.workers_).2 ++ relays
          ∧ ((r.discharge what.sender).reply what).1.route none = .ok (r', relays) := by
  rw [enqueue] at h
  cases hfilter : r.filter what with
  | some result =>
      have htakes : r.takes what = true := by
        rw [← Bool.not_eq_false, ← filter_eq_none_iff, hfilter]
        simp
      rw [hfilter] at h
      exact Or.inl ⟨htakes, congrArg some h⟩
  | none =>
      have htakes := filter_eq_none_iff.mp hfilter
      rw [hfilter] at h
      cases hresp : isResponse what.mid with
      | false =>
          rw [hresp] at h
          exact Or.inr (Or.inl ⟨htakes, rfl, h⟩)
      | true =>
          rw [hresp] at h
          simp only [if_true] at h
          cases hroute : ((r.discharge what.sender).reply what).1.route none with
          | error fault => simp [hroute, Except.map] at h
          | ok result =>
              obtain ⟨r'', relays⟩ := result
              rw [hroute] at h
              obtain ⟨rfl, rfl⟩ := Prod.mk.inj (Except.ok.inj h)
              exact Or.inr (Or.inr ⟨htakes, rfl, relays, rfl, rfl⟩)

omit [MessageId μ] [DecidableEq μ] in
lemma Metered.update {r : Router μ ι α} (hr : r.Metered) (k : Option ι) (load : UInt64) :
    Metered { r with metrics_ := Function.update r.metrics_ k (some load) } := by
  refine ⟨hr.nodup, fun w hw => ?_⟩
  by_cases h : some w = k
  · simp [h]
  · simpa only [Function.update_of_ne h] using hr.isSome w hw

/-- An answer is counted down at its sender only. -/
lemma metrics_response {r : Router μ ι α} (what : Mail μ ι α) {w : ι} {load : UInt64}
    (h : r.metrics_ (some w) = some load) :
    ((r.discharge what.sender).reply what).1.metrics_ (some w)
      = some (if what.sender = some w then load - 1 else load) := by
  by_cases hsender : what.sender = some w
  · simp [discharge, hsender, h]
  · simp [discharge, Function.update_of_ne (Ne.symm hsender), hsender, h]

lemma Metered.discharge_reply {r : Router μ ι α} (hr : r.Metered) (what : Mail μ ι α) :
    ((r.discharge what.sender).reply what).1.Metered := by
  obtain ⟨hnodup, hsome⟩ := hr.update what.sender ((r.metrics_ what.sender).getD 0 - 1)
  exact ⟨hnodup, hsome⟩

lemma Metered.route {r r' : Router μ ι α} {mail : Option (Mail μ ι α)}
    {effects : List (Effect μ ι α)} (hr : r.Metered) (h : r.route mail = .ok (r', effects)) :
    r'.Metered := by
  obtain ⟨policy, -, ⟨rfl, -, -⟩ | ⟨worker, m, load, -, -, -, -, -, rfl⟩⟩ := route_cases hr h
  · exact ⟨hr.nodup, hr.isSome⟩
  · obtain ⟨hnodup, hsome⟩ := hr.update (some worker) (load + 1)
    exact ⟨hnodup, hsome⟩

/-- Every call keeps the workers listed once and with loads. -/
lemma Metered.enqueue {r r' : Router μ ι α} {what : Mail μ ι α}
    {effects : List (Effect μ ι α)} (hr : r.Metered) (h : r.enqueue what = .ok (r', effects)) :
    r'.Metered := by
  rcases enqueue_cases h with ⟨-, hfilter⟩ | ⟨-, -, hroute⟩ | ⟨-, -, relays, -, hroute⟩
  · exact (filter_reseats hr hfilter).metered
  · exact hr.route hroute
  · exact (hr.discharge_reply what).route hroute

/-- What stops a call: a `get` without a sender, or a mail to place without workers. -/
lemma enqueue_eq_error_iff {r : Router μ ι α} (hr : r.Metered) (what : Mail μ ι α)
    (fault : Fault) :
    r.enqueue what = .error fault
      ↔ fault = .noSender ∧ what.content = .get ∧ what.sender = none
        ∨ fault = .noWorkers ∧ r.takes what = false ∧ r.workers_ = []
          ∧ (isResponse what.mid = true → r.policy_.mails_ ≠ []) := by
  rw [enqueue]
  cases hfilter : r.filter what with
  | some result =>
      have htakes : r.takes what = true := by
        rw [← Bool.not_eq_false, ← filter_eq_none_iff, hfilter]
        simp
      have herror := filter_eq_error_iff r what fault
      rw [hfilter, Option.some_inj] at herror
      simpa [htakes] using herror
  | none =>
      have htakes := filter_eq_none_iff.mp hfilter
      have hget : ¬(fault = .noSender ∧ what.content = .get ∧ what.sender = none) := by
        rw [← filter_eq_error_iff r, hfilter]
        simp
      simp only [hget, htakes, false_or, true_and]
      cases hresp : isResponse what.mid with
      | false => simpa using route_eq_error_iff hr (some what) fault
      | true =>
          have hroute := route_eq_error_iff (hr.discharge_reply what) none fault
          cases hcall : ((r.discharge what.sender).reply what).1.route none with
          | error fault' =>
              rw [hcall] at hroute
              simpa [Except.map, hcall] using hroute
          | ok result =>
              rw [hcall] at hroute
              simpa [Except.map, hcall] using hroute

end Router

/-- The router, and what it got and did, the latest first. -/
structure World (μ ι α : Type*) where
  router : Router μ ι α
  log : List (Mail μ ι α × List (Effect μ ι α))

namespace World

/-- The world of a new router. -/
def make (loadThresholdToHold : UInt64) : World μ ι α := ⟨Router.make loadThresholdToHold, []⟩

/-- One call of `enqueue`. -/
def step (s : Except Fault (World μ ι α)) (what : Mail μ ι α) : Except Fault (World μ ι α) :=
  s.bind fun s => (s.router.enqueue what).map fun (router, effects) =>
    ⟨router, (what, effects) :: s.log⟩

lemma step_eq_ok {s s' : World μ ι α} {what : Mail μ ι α} :
    step (.ok s) what = .ok s' ↔ ∃ router effects,
      s.router.enqueue what = .ok (router, effects) ∧ s' = ⟨router, (what, effects) :: s.log⟩ := by
  show (s.router.enqueue what).map _ = _ ↔ _
  cases s.router.enqueue what with
  | error fault => simp [Except.map]
  | ok result => simp [Except.map, Prod.ext_iff, eq_comm]

/-- The workers of a router after a call are listed once and have loads. -/
lemma metered_step {s : Except Fault (World μ ι α)} {what : Mail μ ι α}
    (h : ∀ w, s = .ok w → w.router.Metered) : ∀ w, step s what = .ok w → w.router.Metered := by
  intro w hw
  cases s with
  | error fault => simp [step, Except.bind] at hw
  | ok s =>
      obtain ⟨router, effects, hcall, rfl⟩ := step_eq_ok.mp hw
      exact (h s rfl).enqueue hcall

omit [DecidableEq μ] [DecidableEq ι] in
lemma metered_make (loadThresholdToHold : UInt64) (w : World μ ι α)
    (h : Except.ok (make loadThresholdToHold) = (.ok w : Except Fault (World μ ι α))) :
    w.router.Metered := by
  obtain rfl := Except.ok.inj h
  exact ⟨List.nodup_nil, fun _ hw => absurd hw List.not_mem_nil⟩

lemma step_eq_error {s : World μ ι α} {what : Mail μ ι α} {fault : Fault} :
    step (.ok s) what = .error fault ↔ s.router.enqueue what = .error fault := by
  show (s.router.enqueue what).map _ = _ ↔ _
  cases s.router.enqueue what <;> simp [Except.map]

/-- A call that has a result leads to one state. -/
lemma exists_step_of_ok {s : World μ ι α} {what : Mail μ ι α} {router : Router μ ι α}
    {effects : List (Effect μ ι α)} (h : s.router.enqueue what = .ok (router, effects))
    (P : World μ ι α → Prop) :
    (∃ s', step (.ok s) what = .ok s' ∧ P s') ↔ P ⟨router, (what, effects) :: s.log⟩ := by
  rw [step_eq_ok.mpr ⟨router, effects, h, rfl⟩]
  simp

/-- A call that has none leads nowhere. -/
lemma not_exists_step_of_error {s : World μ ι α} {what : Mail μ ι α} {fault : Fault}
    (h : s.router.enqueue what = .error fault) (P : World μ ι α → Prop) :
    ¬∃ s', step (.ok s) what = .ok s' ∧ P s' := by
  rw [step_eq_error.mpr h]
  simp

/-! ### Runs of calls -/

section

variable {P I : World μ ι α → Prop} {C : World μ ι α → Mail μ ι α → Prop}

/-- The rule of a law that a fault breaks: it holds all along a run exactly when every call meets
the condition under which the call has a result and the law holds after it. -/
lemma always_ok_iff_each
    (hstep : ∀ s what, I s → P s → ((∃ s', step (.ok s) what = .ok s' ∧ P s') ↔ C s what))
    (hkeep : ∀ (s : Except Fault (World μ ι α)) what, (∀ w, s = .ok w → I w) →
      ∀ w, step s what = .ok w → I w)
    {s : World μ ι α} (hI : I s) (hP : P s) (mails : List (Mail μ ι α)) :
    Run.Always step (fun s => ∃ w, s = .ok w ∧ P w) (.ok s) mails
      ↔ Run.Each step (fun s what => ∃ w, s = .ok w ∧ C w what) (.ok s) mails := by
  refine Run.always_iff_each (P := fun s : Except Fault (World μ ι α) => ∃ w, s = .ok w ∧ P w)
    (I := fun s => ∀ w, s = .ok w → I w) ?_ ?_ ?_ ⟨s, rfl, hP⟩ mails
  · rintro _ what hI ⟨s, rfl, hs⟩
    rw [hstep s what (hI s rfl) hs]
    simp
  · exact fun s what hI _ _ => hkeep s what hI
  · exact fun _ hw => Except.ok.inj hw ▸ hI

/-- The rule of a law about the calls before a fault: it holds all along a run exactly when every
call meets the condition under which the law holds after it. -/
lemma always_iff_each_of_ok
    (hstep : ∀ s what, I s → P s → ((∀ s', step (.ok s) what = .ok s' → P s') ↔ C s what))
    (hkeep : ∀ (s : Except Fault (World μ ι α)) what, (∀ w, s = .ok w → I w) →
      ∀ w, step s what = .ok w → I w)
    {s : World μ ι α} (hI : I s) (hP : P s) (mails : List (Mail μ ι α)) :
    Run.Always step (fun s => ∀ w, s = .ok w → P w) (.ok s) mails
      ↔ Run.Each step (fun s what => ∀ w, s = .ok w → C w what) (.ok s) mails := by
  refine Run.always_iff_each (P := fun s : Except Fault (World μ ι α) => ∀ w, s = .ok w → P w)
    (I := fun s => ∀ w, s = .ok w → I w) ?_ ?_ ?_ ?_ mails
  · rintro (fault | s) what hI hs
    · exact iff_of_true (fun w hw => by simp [step, Except.bind] at hw) (by simp)
    · rw [hstep s what (hI s rfl) (hs s rfl)]
      simp
  · exact fun s what hI _ _ => hkeep s what hI
  · exact fun _ hw => Except.ok.inj hw ▸ hI
  · exact fun _ hw => Except.ok.inj hw ▸ hP

end

end World

end LoadBalancer

end Cdcf
