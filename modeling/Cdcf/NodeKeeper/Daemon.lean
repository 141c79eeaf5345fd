import Mathlib.Data.Int.Notation
import Cdcf.Library.Run

/-!
The daemon that guards the application (`daemon/daemon.cc`, `daemon/process_manager.cc`).

`Run` starts the application again whenever it has gone, until `guard` is cleared; then it calls
`node_keeper_clean_up_`, which announces the leave, and exits.  It exits in another way when the
first child does not last for `stable_time_`, or when `fork` fails.

* `Daemon`, `Turn`, `step`: the loop, one statement after the other, while `guard` is cleared at any
  time by the handler of the quit signals or by `StopGuard`.
* `CleansUp`: the clean up comes before the exit if `guard` has been cleared.
* `InTime`, `cleansUp_always`: that is so in every run in which `fork` does not fail and the first
  child does not go too soon while `guard` is cleared.
* `not_cleansUp_of_not_inTime`: otherwise `Run` is one statement from breaking the promise.
-/

namespace Cdcf

/-- What `Run` calls. -/
inductive DaemonCall where
  | createProcess
  | appDownHandle
  | nodeKeeperCleanUp
  | exit (code : ℤ)
  deriving DecidableEq, Repr

/-- Where `Run` is. -/
inductive DaemonPc where
  /-- Before the handlers are installed. -/
  | starting
  /-- Before `while (guard)`. -/
  | testing
  /-- Before `CreateProcess`. -/
  | creating
  /-- Before the start is noted. -/
  | stamping
  /-- In `WaitProcessExit`. -/
  | waiting
  /-- Before `app_down_handle_`. -/
  | handling
  /-- Before `ExitIfProcessNotStable`. -/
  | timing
  /-- Behind the loop. -/
  | cleaning
  /-- Before the call of `Exit`. -/
  | exiting (code : ℤ)
  | exited (code : ℤ)
  deriving DecidableEq, Repr

/-- `Daemon`, with the calls that `Run` has made. -/
structure Daemon where
  /-- `stable_time_`, in milliseconds. -/
  stableTime_ : ℤ
  /-- `app_down_handle_` is set. -/
  appDownHandle_ : Bool
  /-- `node_keeper_clean_up_` is set. -/
  nodeKeeperCleanUp_ : Bool
  guard : Bool := true
  restart_ : UInt64 := 0
  /-- `*app_process_info_` is not zero. -/
  appProcessInfo_ : Bool := false
  /-- The clock when the first child was started, in nanoseconds. -/
  start : ℤ := 0
  pc : DaemonPc := .starting
  calls : List DaemonCall := []
  deriving DecidableEq, Repr

namespace Daemon

/-- What can happen next. -/
inductive Turn where
  /-- `Run` goes on; `now` is what the clock says, and `forked` whether `fork` succeeds. -/
  | run (now : ℤ) (forked : Bool)
  /-- The handler of the quit signals, in its own time. -/
  | signal
  /-- `StopGuard`. -/
  | stopGuard
  deriving DecidableEq, Repr

/-- One of the calls. -/
def call (s : Daemon) (c : DaemonCall) : Daemon := { s with calls := s.calls ++ [c] }

/-- The test of `ExitIfProcessNotStable`. -/
def notStable (s : Daemon) (now : ℤ) : Bool := (now - s.start).tdiv 1000000 < s.stableTime_

/-- The next statement of `Run`. -/
def run (s : Daemon) (now : ℤ) (forked : Bool) : Daemon :=
  match s.pc with
  | .starting => { s with pc := .testing }
  | .testing => { s with pc := if s.guard then .creating else .cleaning }
  | .creating =>
      -- `PosixProcessManager::CreateProcess` calls `Exit(1)` itself
      if forked then { s.call .createProcess with appProcessInfo_ := true, pc := .stamping }
      else { s with pc := .exiting 1 }
  | .stamping => { s with start := if s.restart_ = 0 then now else s.start, pc := .waiting }
  | .waiting => { s with pc := .handling }
  | .handling =>
      { (if s.appDownHandle_ then s.call .appDownHandle else s) with pc := .timing }
  | .timing =>
      if s.restart_ = 0 && s.notStable now then { s with pc := .exiting 1 }
      else { s with restart_ := s.restart_ + 1, pc := .testing }
  | .cleaning =>
      { (if s.nodeKeeperCleanUp_ then s.call .nodeKeeperCleanUp else s) with pc := .exiting 0 }
  | .exiting code => { s.call (.exit code) with pc := .exited code }
  | .exited _ => s

/-- A turn; after `Exit` there is none. -/
def step (s : Daemon) (turn : Turn) : Daemon :=
  match s.pc, turn with
  | .exited _, _ => s
  | _, .run now forked => s.run now forked
  | _, .signal => { s with guard := s.guard && !s.appProcessInfo_ }
  | _, .stopGuard => { s with guard := false }

/-- A new daemon. -/
def make (stableTime : ℤ) (appDownHandle nodeKeeperCleanUp : Bool) : Daemon :=
  { stableTime_ := stableTime
    appDownHandle_ := appDownHandle
    nodeKeeperCleanUp_ := nodeKeeperCleanUp }

/-- If `guard` was cleared before `Exit` was called, the clean up has been called once. -/
def CleansUp (s : Daemon) : Prop :=
  ∀ code, s.pc = .exited code → s.guard = false → s.nodeKeeperCleanUp_ = true →
    s.calls.count .nodeKeeperCleanUp = 1

/-- While `guard` is cleared, `fork` does not fail and the first child is found to have lasted for
`stable_time_`; and `guard` is not cleared any more once one of the two has gone wrong. -/
def InTime (s : Daemon) : Turn → Prop
  | .run now forked => s.guard = false →
      (s.pc = .creating → forked = true)
        ∧ (s.pc = .timing → s.restart_ = 0 → s.notStable now = false)
  | .signal => s.appProcessInfo_ = true → s.pc ≠ .exiting 1
  | .stopGuard => s.pc ≠ .exiting 1

instance (s : Daemon) : ∀ turn, Decidable (s.InTime turn)
  | .run _ _ => inferInstanceAs (Decidable (_ → _ ∧ _))
  | .signal | .stopGuard => inferInstanceAs (Decidable (_ → _))

/-! ### How often the clean up has been called -/

/-- The clean up has been called once on the way to `Exit(0)`, and not at all elsewhere. -/
structure Counted (s : Daemon) : Prop where
  cleaned : s.pc = .exiting 0 ∨ s.pc = .exited 0 → s.nodeKeeperCleanUp_ = true →
    s.calls.count .nodeKeeperCleanUp = 1
  otherwise : s.pc ≠ .exiting 0 → s.pc ≠ .exited 0 → s.calls.count .nodeKeeperCleanUp = 0
  codes : ∀ code, s.pc = .exiting code ∨ s.pc = .exited code → code = 0 ∨ code = 1

/-- A statement on the way, which is not the clean up. -/
lemma Counted.goTo {s s' : Daemon} (h : s.Counted) (hpc : s.pc ≠ .exiting 0 ∧ s.pc ≠ .exited 0)
    (hcalls : s'.calls.count .nodeKeeperCleanUp = s.calls.count .nodeKeeperCleanUp)
    (hpc' : ∀ code, s'.pc = .exiting code ∨ s'.pc = .exited code → code = 1) : s'.Counted := by
  refine ⟨fun hexit => ?_, fun _ _ => hcalls.trans (h.otherwise hpc.1 hpc.2),
    fun code hcode => Or.inr (hpc' code hcode)⟩
  exact absurd (hpc' 0 hexit) (by decide)

lemma count_call (s : Daemon) {c : DaemonCall} (h : c ≠ .nodeKeeperCleanUp) :
    (s.call c).calls.count .nodeKeeperCleanUp = s.calls.count .nodeKeeperCleanUp := by
  rw [call, List.count_append, List.count_singleton]
  simp [h]

/-- Every statement keeps the count. -/
lemma counted_run {s : Daemon} (h : s.Counted) (now : ℤ) (forked : Bool) :
    (s.run now forked).Counted := by
  rw [run]
  cases hpc : s.pc with
  | starting => exact h.goTo (by simp [hpc]) rfl (by simp)
  | testing => exact h.goTo (by simp [hpc]) rfl (by simp only; split <;> simp)
  | creating =>
      simp only
      split
      · exact h.goTo (by simp [hpc]) (count_call s (by decide)) (by simp)
      · exact h.goTo (by simp [hpc]) rfl (by simp [eq_comm])
  | stamping => exact h.goTo (by simp [hpc]) rfl (by simp)
  | waiting => exact h.goTo (by simp [hpc]) rfl (by simp)
  | handling =>
      refine h.goTo (by simp [hpc]) ?_ (by simp)
      simp only
      split
      · exact count_call s (by decide)
      · rfl
  | timing =>
      simp only
      split
      · exact h.goTo (by simp [hpc]) rfl (by simp [eq_comm])
      · exact h.goTo (by simp [hpc]) rfl (by simp)
  | cleaning =>
      have hnone := h.otherwise (by simp [hpc]) (by simp [hpc])
      refine ⟨fun _ hset => ?_, fun hpc' => absurd rfl hpc', fun code hcode => Or.inl ?_⟩
      · have hset : s.nodeKeeperCleanUp_ = true := by
          simp only at hset
          split at hset <;> exact hset
        simp only [if_pos hset, call, List.count_append, hnone, List.count_singleton_self]
      · simpa [eq_comm] using hcode
  | exiting code =>
      have hcount := count_call s (c := .exit code) (by simp)
      refine ⟨fun hexit hset => ?_, fun _ hpc' => ?_, fun code' hcode => ?_⟩
      · have hcode : code = 0 := by simpa using hexit
        rw [hcount, h.cleaned (Or.inl (by rw [hpc, hcode])) hset]
      · have hcode : code ≠ 0 := by simpa using hpc'
        rw [hcount, h.otherwise (by simpa [hpc] using hcode) (by simp [hpc])]
      · have hsame : code = code' := by simpa using hcode
        exact h.codes code' (Or.inl (by rw [hpc, hsame]))
  | exited code => exact h

/-- Every turn keeps the count. -/
lemma counted_step {s : Daemon} (h : s.Counted) (turn : Turn) : (s.step turn).Counted := by
  unfold step
  split
  · exact h
  · exact counted_run h _ _
  · exact ⟨h.cleaned, h.otherwise, h.codes⟩
  · exact ⟨h.cleaned, h.otherwise, h.codes⟩

/-! ### The two ways out -/

/-- Before `Exit`, `Run` goes on. -/
lemma step_run {s : Daemon} (hpc : ∀ code, s.pc ≠ .exited code) (now : ℤ) (forked : Bool) :
    s.step (.run now forked) = s.run now forked := by
  unfold step
  split
  · next heq => exact absurd heq (hpc _)
  · next heq _ =>
      cases heq
      rfl
  · next heq _ => cases heq
  · next heq _ => cases heq

/-- Behind `Exit` there is no turn. -/
lemma step_of_exited {s : Daemon} {code : ℤ} (hpc : s.pc = .exited code) (turn : Turn) :
    s.step turn = s := by
  unfold step
  rw [hpc]

/-- `Exit(1)` is ahead, or was called, with `guard` set only. -/
def FailsGuarded (s : Daemon) : Prop := s.pc = .exiting 1 ∨ s.pc = .exited 1 → s.guard = true

/-- A statement that meets the condition does not lead to `Exit(1)` with `guard` cleared. -/
lemma failsGuarded_run {s : Daemon} (h : s.FailsGuarded) {now : ℤ} {forked : Bool}
    (hin : s.InTime (.run now forked)) : (s.run now forked).FailsGuarded := by
  rw [InTime] at hin
  rw [run]
  cases hpc : s.pc with
  | starting | stamping | waiting | handling | cleaning => exact fun hexit => absurd hexit (by simp)
  | testing => exact fun hexit => absurd hexit (by simp only; split <;> simp)
  | creating =>
      cases forked with
      | true => exact fun hexit => absurd hexit (by simp)
      | false =>
          intro _
          exact (Bool.not_eq_false _).mp fun hguard => Bool.noConfusion ((hin hguard).1 hpc)
  | timing =>
      simp only
      split
      · next hfailed =>
          rw [Bool.and_eq_true, decide_eq_true_eq] at hfailed
          intro _
          refine (Bool.not_eq_false _).mp fun hguard => ?_
          have hlasted := (hin hguard).2 hpc hfailed.1
          exact Bool.noConfusion (hlasted.symm.trans hfailed.2)
      · exact fun hexit => absurd hexit (by simp)
  | exiting code =>
      intro hexit
      have hcode : code = 1 := by simpa using hexit
      exact h (Or.inl (hcode ▸ hpc))
  | exited code => exact h

/-- A turn that meets the condition does not lead to `Exit(1)` with `guard` cleared. -/
lemma failsGuarded_step {s : Daemon} (h : s.FailsGuarded) {turn : Turn} (hin : s.InTime turn) :
    (s.step turn).FailsGuarded := by
  by_cases hexited : ∃ code, s.pc = .exited code
  · obtain ⟨code, hpc⟩ := hexited
    rw [step_of_exited hpc]
    exact h
  · have hpc : ∀ code, s.pc ≠ .exited code := not_exists.mp hexited
    cases turn with
    | run now forked => exact step_run hpc now forked ▸ failsGuarded_run h hin
    | signal =>
        have hstep : s.step .signal = { s with guard := s.guard && !s.appProcessInfo_ } := by
          unfold step
          split <;> simp_all
        rw [hstep]
        rintro (hexiting | hexited)
        · have hguard := h (Or.inl hexiting)
          have hnone : s.appProcessInfo_ = false :=
            (Bool.not_eq_true _).mp fun hset => hin hset hexiting
          simp only [hguard, hnone, Bool.not_false, Bool.and_true]
        · exact absurd hexited (hpc 1)
    | stopGuard =>
        have hstep : s.step .stopGuard = { s with guard := false } := by
          unfold step
          split <;> simp_all
        rw [hstep]
        rintro (hexiting | hexited)
        · exact absurd hexiting hin
        · exact absurd hexited (hpc 1)

/-- With `Exit(1)` out of the way, what is left is `Exit(0)`, behind the clean up. -/
lemma cleansUp_of_failsGuarded {s : Daemon} (hcount : s.Counted) (h : s.FailsGuarded) :
    s.CleansUp := by
  intro code hcode hguard hset
  rcases hcount.codes code (Or.inr hcode) with rfl | rfl
  · exact hcount.cleaned (Or.inr hcode) hset
  · exact absurd (h (Or.inr hcode)) (by simp [hguard])

lemma counted_make (stableTime : ℤ) (appDownHandle nodeKeeperCleanUp : Bool) :
    (make stableTime appDownHandle nodeKeeperCleanUp).Counted :=
  ⟨by simp [make], fun _ _ => rfl, by simp [make]⟩

/-- **The way out.**  In every run of `Run` in which, while `guard` is cleared, `fork` does not fail
and the first child is found to have lasted, and in which `guard` is not cleared between such a
failure and the call of `Exit(1)`: if `guard` has been cleared, then the clean up has been called
once before `Exit` is called. -/
theorem cleansUp_always {stableTime : ℤ} {appDownHandle nodeKeeperCleanUp : Bool}
    {turns : List Turn}
    (h : Run.Each step InTime (make stableTime appDownHandle nodeKeeperCleanUp) turns) :
    Run.Always step CleansUp (make stableTime appDownHandle nodeKeeperCleanUp) turns := by
  have hkeep : Run.Always step (fun s => s.Counted ∧ s.FailsGuarded)
      (make stableTime appDownHandle nodeKeeperCleanUp) turns :=
    Run.always_of_each (C := InTime)
      (fun s turn hs hin => ⟨counted_step hs.1 turn, failsGuarded_step hs.2 hin⟩)
      ⟨counted_make .., by simp [FailsGuarded, make]⟩ h
  exact hkeep.imp fun s hs => cleansUp_of_failsGuarded hs.1 hs.2

/-- The quit signal comes while the second child runs, and ends it. -/
theorem cleansUp_always_second :
    Run.Always step CleansUp (make 3000 true true)
        ([.run 0 true, .run 0 true, .run 0 true, .run 0 true, .run 4000000000 true,
            .run 4000000000 true, .run 4000000000 true, .run 4000000000 true, .run 4000000000 true,
            .run 4000000000 true, .signal]
          ++ List.replicate 6 (.run 5000000000 true))
      ∧ (Run.run step (make 3000 true true)
          ([.run 0 true, .run 0 true, .run 0 true, .run 0 true, .run 4000000000 true,
              .run 4000000000 true, .run 4000000000 true, .run 4000000000 true,
              .run 4000000000 true, .run 4000000000 true, .signal]
            ++ List.replicate 6 (.run 5000000000 true))).calls
        = [.createProcess, .appDownHandle, .createProcess, .appDownHandle, .nodeKeeperCleanUp,
          .exit 0] :=
  ⟨cleansUp_always (by decide), by decide⟩

/-- Once the condition is not met, `guard` is cleared and `Exit(1)` comes next. -/
lemma exiting_of_not_inTime {s : Daemon} {turn : Turn} (h : ¬s.InTime turn) :
    (s.step turn).pc = .exiting 1 ∧ (s.step turn).guard = false
      ∧ (s.step turn).nodeKeeperCleanUp_ = s.nodeKeeperCleanUp_ := by
  cases turn with
  | run now forked =>
      rw [InTime, Classical.not_imp, not_and_or, Classical.not_imp, Classical.not_imp,
        Classical.not_imp] at h
      obtain ⟨hguard, ⟨hpc, hforked⟩ | ⟨hpc, hfirst, hstable⟩⟩ := h
      · rw [step_run (by simp [hpc]), run, hpc]
        simp only [hforked]
        exact ⟨rfl, hguard, rfl⟩
      · rw [step_run (by simp [hpc]), run, hpc]
        simp only [hfirst, (Bool.not_eq_false _).mp hstable]
        exact ⟨rfl, hguard, rfl⟩
  | signal =>
      rw [InTime, Classical.not_imp, not_not] at h
      unfold step
      simp [h.1, h.2]
  | stopGuard =>
      rw [InTime, not_not] at h
      unfold step
      simp [h]

/-- The functions that a daemon has been given stay as they are. -/
lemma nodeKeeperCleanUp_step (s : Daemon) (turn : Turn) :
    (s.step turn).nodeKeeperCleanUp_ = s.nodeKeeperCleanUp_ := by
  unfold step
  split
  · rfl
  · rw [run]
    split
    case h_3 | h_7 => split <;> rfl
    case h_6 | h_8 =>
      simp only
      split <;> rfl
    all_goals rfl
  · rfl
  · rfl

/-- A turn that does not meet the condition breaks the promise, once `Run` takes its next
statement. -/
theorem not_cleansUp_of_not_inTime {stableTime : ℤ} {appDownHandle : Bool} {before : List Turn}
    {turn : Turn} (h : ¬(Run.run step (make stableTime appDownHandle true) before).InTime turn)
    (now : ℤ) (forked : Bool) :
    ¬Run.Always step CleansUp (make stableTime appDownHandle true)
      (before ++ [turn, .run now forked]) := by
  have hcount : (Run.run step (make stableTime appDownHandle true) before).Counted :=
    (Run.always_of_inv (P := Counted) (fun _ turn hs => counted_step hs turn)
      (counted_make ..) before).last
  have hset : (Run.run step (make stableTime appDownHandle true) before).nodeKeeperCleanUp_
      = true := Run.view_run nodeKeeperCleanUp_ nodeKeeperCleanUp_step _ before
  obtain ⟨hpc, hguard, hsame⟩ := exiting_of_not_inTime h
  intro halways
  have hlast := halways.last
  rw [Run.run_append] at hlast
  generalize Run.run step (make stableTime appDownHandle true) before = s at *
  have hnone := (counted_step hcount turn).otherwise (by simp [hpc]) (by simp [hpc])
  have hexit : Run.run step s [turn, .run now forked]
      = { (s.step turn).call (.exit 1) with pc := .exited 1 } := by
    change (s.step turn).step (.run now forked) = _
    rw [step_run (by simp [hpc]), run, hpc]
  rw [hexit] at hlast
  have hone := hlast 1 rfl hguard (hsame.trans hset)
  rw [count_call _ (by simp), hnone] at hone
  exact absurd hone (by decide)

/-- A quit signal comes in the second after the first child has been started, and ends it: the
leave is not announced. -/
theorem not_cleansUp_quit :
    ¬Run.Always step CleansUp (make 3000 true true)
      [.run 0 true, .run 0 true, .run 0 true, .run 0 true, .signal, .run 0 true, .run 0 true,
        .run 1000000000 true, .run 1000000000 true] := by
  intro h
  exact absurd (h.last 1 (by decide) (by decide) (by decide)) (by decide)

end Daemon

end Cdcf
