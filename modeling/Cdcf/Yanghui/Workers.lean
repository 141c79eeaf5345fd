import Cdcf.FaultTolerance.GivingUp
import Cdcf.Yanghui.Rows

/-!
The job with workers that may be down (`actor_union_count_cluster.cc`,
`router_pool_count_cluster.cc`, `yanghui_demo_calculator.cc`).

Each addition and each comparison is handed to a union of workers, which join while the job goes on
and go down without being removed.  One that stays up is enough.

* `Task`, `calculate`: what a worker is asked, and what it answers if it does.
* `unionCounter`, `poolCounter`: the counters; `serve`: one job after the other.
* `serve_union`: with a worker that stays up, every job is answered as `LocalYanghuiJob` does it.
* `serve_pool`: whatever fails, a job is answered so or with `INT_MAX`.
-/

namespace Cdcf

namespace Yanghui

open Std.Do FaultTolerance

set_option mvcgen.warning false

/-! ### Workers -/

/-- What a worker is asked: two numbers, or `NumberCompareData`. -/
inductive Task where
  | add (a b : ℤ)
  | compare (numbers : List ℤ)
  deriving DecidableEq, Repr

/-- `calculator_fun`. -/
def calculate : Task → ℤ
  | .add a b => a + b
  | .compare numbers => numberCompare numbers

/-- The error and the result after the one call of a function that `SendAndReceive` makes. -/
def fulfil : List (Call ℤ) → Option (ℤ × ℤ)
  | [.returnFunction value] => some (0, value)
  | [.handleErrorFunction _ _] => some (1, intMax)
  | _ => none

variable {P ι : Type} [ActorPool P ι]

/-! ### The counters -/

/-- `ActorUnionCountCluster`, and how many tasks it has had. -/
structure Cluster (P : Type) where
  counter_ : ActorUnion P
  tasks : ℕ

/-- `counter_.SendAndReceive`, after `AddWorkerNode` for who has joined since the last task.  The
fuel is enough unless `actor_count_` is the largest number, with which the union may never give
up. -/
def Cluster.ask (joined : ℕ → List ι) (answer : ℕ → Answers ι Task ℤ) (task : Task) :
    Handler (Cluster P) (ℤ × ℤ) := do
  let s ← get
  let union := (joined s.tasks).foldl ActorUnion.addActor s.counter_
  match union.sendAndReceive (answer s.tasks) task 65536 with
  | none => throw .endless
  | some sending =>
      set (⟨sending.union, s.tasks + 1⟩ : Cluster P)
      match fulfil sending.calls with
      | some result => return result
      | none => throw .endless

/-- The counter that asks a union. -/
def unionCounter (joined : ℕ → List ι) (answer : ℕ → Answers ι Task ℤ) : Counter (Cluster P) where
  addNumber := fun a b => Cluster.ask joined answer (.add a b)
  compare := fun numbers => Cluster.ask joined answer (.compare numbers)

/-- `RouterPoolCountCluster`: the router pool answers each task, or there is an error. -/
def poolCounter (answer : ℕ → Task → Except CafError ℤ) : Counter ℕ where
  addNumber := fun a b => ask (.add a b)
  compare := fun numbers => ask (.compare numbers)
where
  ask (task : Task) : Handler ℕ (ℤ × ℤ) := do
    let tasks ← get
    set (tasks + 1)
    match answer tasks task with
    | .ok result => return (0, result)
    | .error _ => return (1, intMax)

/-- The next table is asked, and its answer is added to those before. -/
def serve {σ : Type} (counter : Counter σ) (s : σ × List (Option ℤ)) (data : Table) :
    σ × List (Option ℤ) :=
  let (result, s') := run (yanghui counter data) s.1
  (s', s.2 ++ [result])

/-! ### What the union comes to -/

section

variable {joined : ℕ → List ι} {answer : ℕ → Answers ι Task ℤ}

/-- Who answers is right. -/
def Honest (answer : ℕ → Answers ι Task ℤ) : Prop :=
  ∀ n k w task value, answer n k w task = .ok value → value = calculate task

/-- The worker was there from the start and answers whatever it is asked, and the others fail by
being down only. -/
structure StaysUp (joined : ℕ → List ι) (answer : ℕ → Answers ι Task ℤ) (w : ι) : Prop where
  joined : w ∈ joined 0
  up : ∀ n k task, answer n k w task = .ok (calculate task)
  down : ∀ n k w' task err, answer n k w' task = .error err → err.category = "system"

/-- Not too many workers to count join. -/
def Countable (joined : ℕ → List ι) : Prop :=
  ∀ n, ((List.range n).flatMap joined).length < 65535

/-- The union has the workers that have joined. -/
def Cluster.Ready (joined : ℕ → List ι) (s : Cluster P) : Prop :=
  s.counter_.Counts
    ∧ (ActorPool.workers s.counter_.pool_).Perm ((List.range s.tasks).flatMap joined)

variable [DecidableEq ι] [LawfulActorPool P]

open ActorUnion

/-- Workers join. -/
lemma counts_addActors {u : ActorUnion P} (hu : u.Counts) {actors : List ι}
    (hlt : (ActorPool.workers u.pool_).length + actors.length < 65535) :
    (actors.foldl addActor u).Counts
      ∧ (ActorPool.workers (actors.foldl addActor u).pool_).Perm
        (ActorPool.workers u.pool_ ++ actors) := by
  induction actors generalizing u with
  | nil => exact ⟨hu, by rw [List.foldl_nil, List.append_nil]⟩
  | cons actor actors ih =>
      have hput := LawfulActorPool.workers_put u.pool_ actor
      rw [List.length_cons] at hlt
      have hcounted : u.Counted (.addActor actor) := by
        rw [Counted]
        omega
      have hcounts : (u.addActor actor).Counts := counts_step hu hcounted
      have hlength : (ActorPool.workers (u.addActor actor).pool_).length
          = (ActorPool.workers u.pool_).length + 1 := hput.length_eq
      obtain ⟨hrest, hperm⟩ := ih hcounts (by omega)
      refine ⟨hrest, hperm.trans ?_⟩
      exact (hput.append_right actors).trans List.perm_middle.symm

omit [DecidableEq ι] [LawfulActorPool P] in
/-- An answer comes from a worker. -/
lemma replyAt_eq_ok {u : ActorUnion P} {answer : Answers ι Task ℤ} {task : Task} {k : ℕ} {value : ℤ}
    (h : u.replyAt answer task k = .ok value) :
    ∃ w, u.turn k = some w ∧ answer k w task = .ok value := by
  rw [replyAt] at h
  cases hturn : u.turn k with
  | none => simp [hturn] at h
  | some w => exact ⟨w, rfl, by simpa [hturn] using h⟩

/-- Where workers fail by being down only, all errors are the system's. -/
lemma isSystemError_replyAt {u : ActorUnion P} {answer : ℕ → Answers ι Task ℤ}
    (hdown : ∀ n k w' task err, answer n k w' task = .error err → err.category = "system")
    {n : ℕ} {task : Task} {k : ℕ} {err : CafError}
    (h : u.replyAt (answer n) task k = .error err) :
    isSystemError (u.replyAt (answer n) task k) = true := by
  rw [h]
  rw [replyAt] at h
  cases hturn : u.turn k with
  | none =>
      have heq : ActorPool.noWorker (u.requested k).pool_ = err := by simpa [hturn] using h
      have hnone := LawfulActorPool.isSystem_noWorker (u.requested k).pool_
      simp [isSystemError, ← heq, hnone]
  | some w =>
      have hw : answer n k w task = .error err := by simpa [hturn] using h
      simp [isSystemError, hdown n k w task err hw]

/-- A task comes to its result, or to an error, which is only where nobody stays up. -/
lemma sendAndReceive_task {u : ActorUnion P} (hu : u.Counts) (hhonest : Honest answer) (n : ℕ)
    (task : Task) {mayFail : Prop}
    (hup : mayFail ∨ ∃ w ∈ ActorPool.workers u.pool_, StaysUp joined answer w) :
    ∃ i result, u.sendAndReceive (answer n) task 65536 = some (u.sent (answer n) task i)
      ∧ fulfil (u.sent (answer n) task i).calls = some result
      ∧ (result.1 = 0 → result.2 = calculate task) ∧ (result.1 ≠ 0 → mayFail) := by
  have hne : u.actorCount_ ≠ 65535 := by
    rintro heq
    have hlt := hu.2
    rw [heq] at hlt
    exact absurd hlt (by decide)
  have hlast : u.Final (answer n) task u.actorCount_.toNat := Or.inr (lt_of_ne_max hne)
  obtain ⟨i, hi, hfirst⟩ := Retry.exists_first hlast
  have hloop : u.sendAndReceive (answer n) task 65536 = some (u.sent (answer n) task i) := by
    have hlt := hu.2
    rw [sendAndReceive_eq]
    exact Retry.attempt_of_first hfirst (Nat.zero_le i) (by omega)
  have hcalls : (u.sent (answer n) task i).calls = [lastCall (u.replyAt (answer n) task i)] := rfl
  refine ⟨i, ?_⟩
  rw [hcalls]
  cases hreply : u.replyAt (answer n) task i with
  | ok value =>
      obtain ⟨w, -, hw⟩ := replyAt_eq_ok hreply
      exact ⟨(0, value), hloop, rfl, fun _ => hhonest n i w task value hw,
        fun h => absurd rfl h⟩
  | error err =>
      refine ⟨(1, intMax), hloop, ?_, fun h => absurd h one_ne_zero, fun _ => ?_⟩
      · rw [lastCall]
        split <;> rfl
      · refine hup.resolve_right ?_
        rintro ⟨w, hw, hstays⟩
        obtain ⟨k, hk, hturn⟩ := inReach_of_le (hu.1 ▸ Nat.le_succ _) w hw
        rcases first_cases hfirst with ⟨hanswer, -⟩ | ⟨-, hlimit, hall⟩
        · rw [isSystemError_replyAt hstays.down hreply] at hanswer
          exact Bool.noConfusion hanswer
        · -- the worker that stays up has had its turn
          have hdown := hall k (hlimit ▸ hk)
          rw [replyAt, hturn] at hdown
          simp [hstays.up n k task, isSystemError] at hdown

/-- Who has joined is with the others. -/
lemma Cluster.Ready.join {s : Cluster P} (hs : s.Ready joined) (hcount : Countable joined) :
    ((joined s.tasks).foldl addActor s.counter_).Counts
      ∧ (ActorPool.workers ((joined s.tasks).foldl addActor s.counter_).pool_).Perm
        ((List.range (s.tasks + 1)).flatMap joined) := by
  have hall : (List.range (s.tasks + 1)).flatMap joined
      = (List.range s.tasks).flatMap joined ++ joined s.tasks := by
    rw [List.range_succ, List.flatMap_append, List.flatMap_singleton]
  have hlt := hcount (s.tasks + 1)
  rw [hall, List.length_append, ← hs.2.length_eq] at hlt
  obtain ⟨hcounts, hperm⟩ := counts_addActors hs.1 hlt
  exact ⟨hcounts, hall ▸ hperm.trans (hs.2.append_right _)⟩

/-- What a task comes to, and the union after it. -/
lemma Cluster.Ready.sendAndReceive {s : Cluster P} (hs : s.Ready joined) (hcount : Countable joined)
    (hhonest : Honest answer) {mayFail : Prop} (hup : mayFail ∨ ∃ w, StaysUp joined answer w)
    (task : Task) :
    ∃ sending result, ((joined s.tasks).foldl addActor s.counter_).sendAndReceive
          (answer s.tasks) task 65536 = some sending
      ∧ Cluster.Ready joined ⟨sending.union, s.tasks + 1⟩ ∧ fulfil sending.calls = some result
      ∧ (result.1 = 0 → result.2 = calculate task) ∧ (result.1 ≠ 0 → mayFail) := by
  obtain ⟨hcounts, hperm⟩ := hs.join hcount
  have hup' : mayFail ∨ ∃ w ∈ ActorPool.workers
      ((joined s.tasks).foldl addActor s.counter_).pool_, StaysUp joined answer w := by
    refine hup.imp_right fun ⟨w, hw⟩ => ⟨w, hperm.mem_iff.mpr ?_, hw⟩
    exact List.mem_flatMap.mpr ⟨0, List.mem_range.mpr (Nat.succ_pos _), hw.joined⟩
  obtain ⟨i, result, hcall, hfulfil, hresult⟩ :=
    sendAndReceive_task hcounts hhonest s.tasks task hup'
  refine ⟨_, result, hcall, ⟨⟨?_, hcounts.2⟩, ?_⟩, hfulfil, hresult⟩
  · exact (congrArg List.length (workers_requested _ (i + 1))).trans hcounts.1
  · exact (List.Perm.of_eq (workers_requested _ (i + 1))).trans hperm

lemma ask_spec (hcount : Countable joined) (hhonest : Honest answer) {mayFail : Prop}
    (hup : mayFail ∨ ∃ w, StaysUp joined answer w) (task : Task) :
    ⦃fun s : Cluster P => ⌜s.Ready joined⌝⦄ Cluster.ask joined answer task
    ⦃⇓ r s => ⌜s.Ready joined ∧ (r.1 = 0 → r.2 = calculate task) ∧ (r.1 ≠ 0 → mayFail)⌝⦄ := by
  mvcgen [Cluster.ask]
  case vc1.h_1 s hs _ hnone =>
    obtain ⟨sending, result, hcall, -⟩ := hs.sendAndReceive hcount hhonest hup task
    exact absurd (hnone.symm.trans hcall) (by simp)
  case vc2.h_2.h_1 s hs _ sending hsome result hfulfil =>
    obtain ⟨sending', result', hcall, hready, hfulfil', hresult⟩ :=
      hs.sendAndReceive hcount hhonest hup task
    obtain rfl := Option.some_inj.mp (hsome.symm.trans hcall)
    obtain rfl := Option.some_inj.mp (hfulfil.symm.trans hfulfil')
    exact ⟨hready, hresult⟩
  case vc3.h_2.h_2 s hs _ sending hsome hnone =>
    obtain ⟨sending', result', hcall, -, hfulfil', -⟩ :=
      hs.sendAndReceive hcount hhonest hup task
    obtain rfl := Option.some_inj.mp (hsome.symm.trans hcall)
    exact absurd (hnone.symm.trans hfulfil') (by simp)

/-- The union is a counter, and fails only where nobody stays up. -/
lemma lawful_unionCounter (hcount : Countable joined) (hhonest : Honest answer) {mayFail : Prop}
    (hup : mayFail ∨ ∃ w, StaysUp joined answer w) :
    (unionCounter joined answer : Counter (Cluster P)).Lawful (Cluster.Ready joined) mayFail where
  addNumber := fun a b _ => ask_spec hcount hhonest hup (.add a b)
  compare := fun numbers hne _ => by
    have hask := ask_spec (P := P) hcount hhonest hup (.compare numbers)
    mvcgen [unionCounter, hask]
    exact fun hready hzero hfail =>
      ⟨hready, fun heq => (hzero heq).symm ▸ isLeast_numberCompare hne, hfail⟩

end

/-- The pool is a counter, and may fail. -/
lemma lawful_poolCounter {answer : ℕ → Task → Except CafError ℤ}
    (hhonest : ∀ n task value, answer n task = .ok value → value = calculate task) :
    (poolCounter answer).Lawful (fun _ => True) True where
  addNumber := fun a b _ => by
    mvcgen [poolCounter, poolCounter.ask]
    case vc1.h_1 n value hvalue =>
      exact ⟨trivial, hhonest n _ value hvalue, fun _ => trivial⟩
    case vc2.h_2 => exact ⟨trivial, fun h => absurd h one_ne_zero, fun _ => trivial⟩
  compare := fun numbers hne _ => by
    mvcgen [poolCounter, poolCounter.ask]
    case vc1.h_1 n value hvalue =>
      exact ⟨trivial, hhonest n _ value hvalue ▸ isLeast_numberCompare hne, fun _ => trivial⟩
    case vc2.h_2 => exact ⟨trivial, fun h => absurd h one_ne_zero, fun _ => trivial⟩

/-! ### The jobs -/

/-- What `LocalYanghuiJob` returns is the least sum. -/
lemma localResult_eq {data : Table} (h : Triangular data) (hfit : SumsFit data) {r : ℤ}
    (hr : IsAnswer data r) : localResult data = some r := by
  have hzeros : (List.replicate data.length (0 : ℤ)).length = data.length :=
    List.length_replicate
  obtain ⟨r', s', hrun, -, hr'⟩ :=
    run_of_spec (I := fun _ => True) (localYanghuiJob_spec h hfit hzeros hzeros) trivial
  rw [localResult, hrun, (hr'.resolve_right fun hfail => hfail.1).unique hr]

/-- `LocalYanghuiJob` returns the least sum of the paths through the rows, whatever was in the
memory of its arrays. -/
theorem localYanghuiJob_isAnswer {data : Table} (h : Triangular data) (hfit : SumsFit data)
    {states tempStates : List ℤ} (hstates : states.length = data.length)
    (htemp : tempStates.length = data.length) :
    ∃ r, (run (localYanghuiJob states tempStates data) ()).1 = some r ∧ IsAnswer data r := by
  obtain ⟨r, s', hrun, -, hr⟩ :=
    run_of_spec (I := fun _ => True) (localYanghuiJob_spec h hfit hstates htemp) trivial
  exact ⟨r, by rw [hrun], hr.resolve_right fun hfail => hfail.1⟩

/-- The arrays hold anything before. -/
theorem localYanghuiJob_isAnswer_two :
    ∃ r, (run (localYanghuiJob [7, 7, 7] [1, 2, 3] [[5], [7, 8], [2, 1, 4]]) ()).1 = some r
      ∧ IsAnswer [[5], [7, 8], [2, 1, 4]] r :=
  localYanghuiJob_isAnswer (by decide) (by decide) rfl rfl

section

variable {σ : Type} {counter : Counter σ} {I : σ → Prop} {mayFail : Prop}

/-- A job comes to what `LocalYanghuiJob` returns, or fails. -/
lemma run_yanghui (hcounter : counter.Lawful I mayFail) {data : Table} (h : Triangular data)
    (hfit : SumsFit data) {s : σ} (hs : I s) :
    I (run (yanghui counter data) s).2 ∧ ((run (yanghui counter data) s).1 = localResult data
      ∨ mayFail ∧ (run (yanghui counter data) s).1 = some intMax) := by
  obtain ⟨r, s', hrun, hs', hr⟩ := run_of_spec (yanghui_spec hcounter h hfit) hs
  rw [hrun]
  exact ⟨hs', hr.imp (fun hanswer => (localResult_eq h hfit hanswer).symm)
    fun hfail => ⟨hfail.1, by rw [hfail.2]⟩⟩

/-- So do jobs one after the other. -/
lemma run_serve (hcounter : counter.Lawful I mayFail) {tables : List Table}
    (htables : ∀ data ∈ tables, Triangular data ∧ SumsFit data) {s : σ} (hs : I s)
    (before : List (Option ℤ)) :
    ∃ results, (Run.run (serve counter) (s, before) tables).2 = before ++ results
      ∧ List.Forall₂ (fun data result => result = localResult data
        ∨ mayFail ∧ result = some intMax) tables results := by
  induction tables generalizing s before with
  | nil => exact ⟨[], (List.append_nil before).symm, List.Forall₂.nil⟩
  | cons data tables ih =>
      obtain ⟨hdata, hrest⟩ := List.forall_mem_cons.mp htables
      obtain ⟨hs', hresult⟩ := run_yanghui hcounter hdata.1 hdata.2 hs
      obtain ⟨results, hrun, hresults⟩ :=
        ih hrest hs' (before ++ [(run (yanghui counter data) s).1])
      refine ⟨_ :: results, ?_, List.Forall₂.cons hresult hresults⟩
      rw [List.append_cons]
      exact hrun

end

/-- **Down workers.**  Jobs are made one after the other, over a union whose workers join and go
down while they go on.  Each is answered with what `LocalYanghuiJob` returns, or with `INT_MAX`, and
never with `INT_MAX` for a failure where one of the workers stays up. -/
theorem serve_union [DecidableEq ι] [LawfulActorPool P] {joined : ℕ → List ι}
    {answer : ℕ → Answers ι Task ℤ} (hcount : Countable joined) (hhonest : Honest answer)
    {tables : List Table} (htables : ∀ data ∈ tables, Triangular data ∧ SumsFit data) :
    let results := (Run.run (serve (unionCounter joined answer))
      ((⟨ActorUnion.make, 0⟩, []) : Cluster P × List (Option ℤ)) tables).2
    List.Forall₂ (fun data result => result = localResult data ∨ result = some intMax)
        tables results
      ∧ ((∃ w, StaysUp joined answer w) → results = tables.map localResult) := by
  have hready : Cluster.Ready joined (⟨ActorUnion.make, 0⟩ : Cluster P) := by
    have hworkers : ActorPool.workers (ActorUnion.make : ActorUnion P).pool_ = [] :=
      LawfulActorPool.workers_make
    refine ⟨⟨by rw [hworkers]; rfl, Nat.zero_lt_succ 65534⟩, ?_⟩
    rw [hworkers]
    exact List.Perm.refl _
  constructor
  · obtain ⟨results, hrun, hresults⟩ := run_serve
      (lawful_unionCounter hcount hhonest (Or.inl trivial)) htables hready []
    rw [hrun, List.nil_append]
    exact hresults.imp fun _ _ h => h.imp_right And.right
  · intro hup
    have hup' : False ∨ ∃ w, StaysUp joined answer w := Or.inr hup
    obtain ⟨results, hrun, hresults⟩ := run_serve
      (lawful_unionCounter hcount hhonest hup') htables hready []
    rw [hrun, List.nil_append]
    clear hrun htables
    induction hresults with
    | nil => rfl
    | cons hresult _ ih => rw [hresult.resolve_right fun h => h.1, ih, List.map_cons]

/-- A router pool answers a job so as well, or with `INT_MAX`. -/
theorem serve_pool {answer : ℕ → Task → Except CafError ℤ}
    (hhonest : ∀ n task value, answer n task = .ok value → value = calculate task)
    {tables : List Table} (htables : ∀ data ∈ tables, Triangular data ∧ SumsFit data) :
    List.Forall₂ (fun data result => result = localResult data ∨ result = some intMax) tables
      (Run.run (serve (poolCounter answer)) (0, []) tables).2 := by
  obtain ⟨results, hrun, hresults⟩ :=
    run_serve (lawful_poolCounter hhonest) htables (trivial : True) []
  rw [hrun, List.nil_append]
  exact hresults.imp fun _ _ h => h.imp_right And.right

/-- Two workers join for the first task. -/
def twoJoin (n : ℕ) : List ℕ := if n = 0 then [1, 2] else []

/-- The first of them is down. -/
def oneDown (_ _ w : ℕ) (task : Task) : Except CafError ℤ :=
  if w = 1 then .error ⟨1, "system"⟩ else .ok (calculate task)

lemma countable_twoJoin : Countable twoJoin := by
  have hlength : ∀ n, ((List.range n).flatMap twoJoin).length ≤ 2 := by
    intro n
    cases n with
    | zero => decide
    | succ n =>
        have hnone : (List.range n).flatMap (fun k => twoJoin (k + 1)) = [] :=
          List.flatMap_eq_nil_iff.mpr fun k _ => rfl
        rw [List.range_succ_eq_map, List.flatMap_cons, List.flatMap_map, hnone, List.append_nil]
        decide
  exact fun n => Nat.lt_of_le_of_lt (hlength n) (by decide)

lemma staysUp_two : StaysUp twoJoin oneDown 2 where
  joined := by decide
  up := fun _ _ _ => rfl
  down := by
    intro n k w task err h
    rw [oneDown] at h
    split at h
    · exact Except.error.inj h ▸ rfl
    · exact absurd h (by simp)

lemma honest_oneDown : Honest oneDown := by
  intro n k w task value h
  rw [oneDown] at h
  split at h
  · exact absurd h (by simp)
  · exact (Except.ok.inj h).symm

/-- Two jobs, with one of two workers down. -/
theorem serve_union_two :
    (Run.run (serve (unionCounter twoJoin oneDown))
      ((⟨ActorUnion.make, 0⟩, []) : Cluster Sample.Pool × List (Option ℤ))
        [[[5], [7, 8], [2, 1, 4]], [[1], [2, 3]]]).2
      = [[[5], [7, 8], [2, 1, 4]], [[1], [2, 3]]].map localResult :=
  (serve_union countable_twoJoin honest_oneDown (by decide)).2 ⟨2, staysUp_two⟩

end Yanghui

end Cdcf
