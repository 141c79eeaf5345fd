import Cdcf.FaultTolerance.ActorGuard
import Cdcf.Library.Run
import Cdcf.Library.Threads

/-!
A guard that several threads use (`actor_guard.h`).

`SendAndReceive` reads `active_`, takes `keeper_locker`, and sends, restarts and sends again under
the lock.  `active_` is read again after each restart, but not when the lock has been taken.

* `Shared`, `Turn`, `step`: the guard with the threads that have called it, and who goes on.
* `Quiet`: nothing has been sent or restarted after a restart has cleared `active_`.
* `quiet_always`: that is so if no thread takes the lock of a guard that is not active, and a thread
  that does so sends next.
-/

namespace Cdcf

namespace FaultTolerance

variable {ι μ ρ : Type*}

/-- Where a thread is in `SendAndReceive`. -/
inductive GuardPc (μ : Type*) where
  /-- Before `active_` is read. -/
  | testing (messages : Parcel μ)
  /-- Before the lock is taken. -/
  | locking (messages : Parcel μ)
  /-- Before a request, with the lock. -/
  | requesting (messages : Parcel μ)
  /-- In `HandleSendFailed`, before `restart_fun_` is called. -/
  | restarting (message : μ)
  /-- In `HandleSendFailed`, before `active_` is read. -/
  | deciding (message : μ)
  /-- In `SendAndReceiveInternal`, before `active_` is read. -/
  | retesting (messages : Parcel μ)
  /-- Before the lock is given up. -/
  | unlocking
  /-- Before `active_` is returned. -/
  | returning
  | returned (result : Bool)
  deriving DecidableEq, Repr

/-- What a thread does with the actor. -/
inductive Deed (ι μ : Type*) where
  | send (actor : ι) (content : μ)
  | restart
  deriving DecidableEq, Repr

/-- A guard and the threads that have called `SendAndReceive`. -/
structure Shared (ι μ : Type*) where
  guard : ActorGuard ι
  keeperLocker : Option ℕ := none
  threads : List (GuardPc μ) := []
  /-- A restart has cleared `active_`. -/
  cleared : Bool := false
  /-- What has been done, and whether a restart had cleared `active_` then. -/
  log : List (Deed ι μ × Bool) := []
  deriving DecidableEq, Repr

namespace Shared

/-- Who goes on. -/
inductive Turn (ι μ ρ : Type*) where
  /-- A call of `SendAndReceive`. -/
  | call (msg : μ)
  /-- A thread goes on; `reply` is how a request is answered, and `restarted` how a restart goes. -/
  | run (i : ℕ) (reply : Except CafError ρ) (restarted : ι × Bool)

/-- A guard that nobody has called. -/
def start (keepActor : ι) : Shared ι μ := { guard := ⟨keepActor, true⟩ }

/-- Thread `i` is at `pc`. -/
def goTo (s : Shared ι μ) (i : ℕ) (pc : GuardPc μ) : Shared ι μ :=
  { s with threads := s.threads.set i pc }

/-- The next step of thread `i`, which is at the given place. -/
def run (s : Shared ι μ) (i : ℕ) (reply : Except CafError ρ) (restarted : ι × Bool) :
    GuardPc μ → Shared ι μ
  | .testing messages => s.goTo i (if s.guard.active_ then .locking messages else .returning)
  | .locking messages =>
      match s.keeperLocker with
      | none => { s with keeperLocker := some i }.goTo i (.requesting messages)
      | some _ => s
  | .requesting messages =>
      { s with
        log := s.log ++ [(Deed.send s.guard.keepActor_ (makeMessage messages), s.cleared)] }.goTo i
          (if isSystemError reply then .restarting (makeMessage messages) else .unlocking)
  | .restarting message =>
      { s with
        guard := ⟨restarted.1, restarted.2⟩
        cleared := s.cleared || !restarted.2
        log := s.log ++ [(Deed.restart, s.cleared)] }.goTo i (.deciding message)
  | .deciding message =>
      s.goTo i (if s.guard.active_ then .retesting (.message message) else .unlocking)
  | .retesting messages => s.goTo i (if s.guard.active_ then .requesting messages else .unlocking)
  | .unlocking => { s with keeperLocker := none }.goTo i .returning
  | .returning => s.goTo i (.returned s.guard.active_)
  | .returned _ => s

/-- A turn; a thread that has to wait, or is not there, changes nothing. -/
def step (s : Shared ι μ) : Turn ι μ ρ → Shared ι μ
  | .call msg => { s with threads := s.threads ++ [.testing (.values msg)] }
  | .run i reply restarted =>
      match s.threads[i]? with
      | some pc => s.run i reply restarted pc
      | none => s

/-- Nothing has been done after a restart has cleared `active_`. -/
def Quiet (s : Shared ι μ) : Prop := ∀ deed ∈ s.log, deed.2 = false

/-- The turn does not take the lock of a guard that is not active. -/
def LocksActive (s : Shared ι μ) : Turn ι μ ρ → Prop
  | .call _ => True
  | .run i _ _ => ∀ messages, s.threads[i]? = some (.locking messages) → s.keeperLocker = none →
      s.guard.active_ = true

end Shared

namespace GuardPc

/-- The thread holds the lock. -/
def isInside : GuardPc μ → Bool
  | .requesting _ | .restarting _ | .deciding _ | .retesting _ | .unlocking => true
  | _ => false

/-- The thread is about to do something with the actor. -/
def isDoing : GuardPc μ → Bool
  | .requesting _ | .restarting _ => true
  | _ => false

end GuardPc

namespace Shared

/-- Who is inside holds the lock, and who is about to do something finds the guard active. -/
structure Sound (s : Shared ι μ) : Prop where
  quiet : s.Quiet
  cleared : s.cleared = !s.guard.active_
  holds : ∀ (i : ℕ) (pc : GuardPc μ), s.threads[i]? = some pc → pc.isInside = true →
    s.keeperLocker = some i
  active : ∀ (i : ℕ) (pc : GuardPc μ), s.threads[i]? = some pc → pc.isDoing = true →
    s.guard.active_ = true

lemma isInside_of_isDoing {pc : GuardPc μ} (h : pc.isDoing = true) : pc.isInside = true := by
  cases pc <;> first | rfl | exact absurd h Bool.false_ne_true

/-- A thread moves: what the others rely on is as before, or none of them holds the lock. -/
lemma Sound.move {s s' : Shared ι μ} (h : s.Sound) {i : ℕ} {pc : GuardPc μ}
    (hthreads : s'.threads = s.threads.set i pc) (hquiet : s'.Quiet)
    (hcleared : s'.cleared = !s'.guard.active_)
    (hkeep : s'.keeperLocker = s.keeperLocker ∧ s'.guard.active_ = s.guard.active_
      ∨ ∀ j, j ≠ i → s.keeperLocker ≠ some j)
    (hinside : pc.isInside = true → s'.keeperLocker = some i)
    (hdoing : pc.isDoing = true → s'.guard.active_ = true) : s'.Sound := by
  refine ⟨hquiet, hcleared, fun j pc' hj hpc' => ?_, fun j pc' hj hpc' => ?_⟩
  · rw [hthreads] at hj
    rcases getElem?_of_set hj with ⟨rfl, rfl⟩ | ⟨hne, hold⟩
    · exact hinside hpc'
    · have hlock := h.holds j pc' hold hpc'
      rcases hkeep with ⟨hsame, -⟩ | hothers
      · rw [hsame, hlock]
      · exact absurd hlock (hothers j hne)
  · rw [hthreads] at hj
    rcases getElem?_of_set hj with ⟨rfl, rfl⟩ | ⟨hne, hold⟩
    · exact hdoing hpc'
    · have hlock := h.holds j pc' hold (isInside_of_isDoing hpc')
      rcases hkeep with ⟨-, hsame⟩ | hothers
      · rw [hsame, h.active j pc' hold hpc']
      · exact absurd hlock (hothers j hne)

/-- A thread that only moves. -/
lemma Sound.goTo {s : Shared ι μ} (h : s.Sound) {i : ℕ} {pc : GuardPc μ}
    (hinside : pc.isInside = true → s.keeperLocker = some i)
    (hdoing : pc.isDoing = true → s.guard.active_ = true) : (s.goTo i pc).Sound :=
  h.move (by rfl) h.quiet h.cleared (Or.inl ⟨rfl, rfl⟩) hinside hdoing

/-- A thread that moves outside of the lock. -/
lemma Sound.goOutside {s : Shared ι μ} (h : s.Sound) {i : ℕ} {pc : GuardPc μ}
    (hout : pc.isInside = false) : (s.goTo i pc).Sound := by
  have hnot : pc.isInside ≠ true := by simp [hout]
  exact h.goTo (fun hin => absurd hin hnot) fun hdo => absurd (isInside_of_isDoing hdo) hnot

/-- What is done by a thread that finds the guard active is done in time. -/
lemma Sound.quiet_log {s : Shared ι μ} (h : s.Sound) (hactive : s.guard.active_ = true)
    (deed : Deed ι μ) : ∀ d ∈ s.log ++ [(deed, s.cleared)], d.2 = false := by
  intro d hd
  rcases List.mem_append.mp hd with hold | hnew
  · exact h.quiet d hold
  · rw [List.mem_singleton.mp hnew, h.cleared, hactive]
    rfl

/-- A step of a thread that does not take the lock of a guard that is not active. -/
lemma sound_run {s : Shared ι μ} (h : s.Sound) {i : ℕ} {pc : GuardPc μ}
    (hpc : s.threads[i]? = some pc) (reply : Except CafError ρ) (restarted : ι × Bool)
    (hlock : ∀ messages, pc = .locking messages → s.keeperLocker = none →
      s.guard.active_ = true) : (s.run i reply restarted pc).Sound := by
  have hholds : pc.isInside = true → s.keeperLocker = some i := h.holds i pc hpc
  have hothers : pc.isInside = true → ∀ j, j ≠ i → s.keeperLocker ≠ some j := by
    intro hin j hj heq
    rw [hholds hin, Option.some_inj] at heq
    exact hj heq.symm
  have hactive : pc.isDoing = true → s.guard.active_ = true := h.active i pc hpc
  cases pc with
  | testing messages =>
      rw [run]
      split
      · exact h.goOutside rfl
      · exact h.goOutside rfl
  | locking messages =>
      rw [run]
      split
      · next hfree =>
          exact h.move (by rfl) h.quiet h.cleared (Or.inr fun j _ => by simp [hfree])
            (fun _ => rfl) fun _ => hlock messages rfl hfree
      · exact h
  | requesting messages =>
      have hlog := h.quiet_log (hactive rfl) (.send s.guard.keepActor_ (makeMessage messages))
      refine h.move (by rfl) hlog h.cleared (Or.inl ⟨rfl, rfl⟩) (fun _ => hholds rfl)
        fun _ => hactive rfl
  | restarting message =>
      have hlog := h.quiet_log (hactive rfl) .restart
      refine h.move (show _ = s.threads.set i (.deciding message) from rfl) hlog ?_
        (Or.inr (hothers rfl)) (fun _ => hholds rfl) fun hdo => absurd hdo Bool.false_ne_true
      show (s.cleared || !restarted.2) = !restarted.2
      rw [h.cleared, hactive rfl]
      rfl
  | deciding message =>
      rw [run]
      split
      · exact h.goTo (fun _ => hholds rfl) fun hdo => absurd hdo Bool.false_ne_true
      · exact h.goTo (fun _ => hholds rfl) fun hdo => absurd hdo Bool.false_ne_true
  | retesting messages =>
      rw [run]
      split
      · next hyes => exact h.goTo (fun _ => hholds rfl) fun _ => hyes
      · exact h.goTo (fun _ => hholds rfl) fun hdo => absurd hdo Bool.false_ne_true
  | unlocking =>
      exact h.move (show _ = s.threads.set i .returning from rfl) h.quiet h.cleared
        (Or.inr (hothers rfl)) (fun hin => absurd hin Bool.false_ne_true)
        fun hdo => absurd hdo Bool.false_ne_true
  | returning => exact h.goOutside rfl
  | returned result => exact h

/-- Turns that take the lock of an active guard only leave everything as it should be. -/
lemma sound_step {s : Shared ι μ} (h : s.Sound) {turn : Turn ι μ ρ} (hlock : s.LocksActive turn) :
    (s.step turn).Sound := by
  cases turn with
  | call msg =>
      -- the new thread is outside
      refine ⟨h.quiet, h.cleared, fun j pc hj hpc => ?_, fun j pc hj hpc => ?_⟩
      · rcases getElem?_concat.mp hj with hold | ⟨-, rfl⟩
        · exact h.holds j pc hold hpc
        · exact absurd hpc Bool.false_ne_true
      · rcases getElem?_concat.mp hj with hold | ⟨-, rfl⟩
        · exact h.active j pc hold hpc
        · exact absurd hpc Bool.false_ne_true
  | run i reply restarted =>
      rw [step]
      split
      · next pc hpc =>
          exact sound_run h hpc reply restarted fun messages heq => hlock messages (heq ▸ hpc)
      · exact h

/-- `active_` is only ever cleared by a restart. -/
lemma cleared_step {s : Shared ι μ} (h : s.guard.active_ = false → s.cleared = true)
    (turn : Turn ι μ ρ) :
    (s.step turn).guard.active_ = false → (s.step turn).cleared = true := by
  cases turn with
  | call msg => exact h
  | run i reply restarted =>
      rw [step]
      split
      · next pc hpc =>
          cases pc with
          | restarting message =>
              intro hactive
              have hactive : restarted.2 = false := hactive
              show (s.cleared || !restarted.2) = true
              rw [hactive, Bool.not_false, Bool.or_true]
          | locking messages =>
              rw [run]
              split <;> exact h
          | testing | requesting | deciding | retesting | unlocking | returning | returned =>
              exact h
      · exact h

/-- A thread that takes the lock of a guard that is not active sends next. -/
lemma not_quiet_of_not_locksActive {s : Shared ι μ}
    (h : s.guard.active_ = false → s.cleared = true) {i : ℕ} {reply reply' : Except CafError ρ}
    {restarted restarted' : ι × Bool} (hlock : ¬s.LocksActive (.run i reply restarted)) :
    ¬((s.step (.run i reply restarted)).step (.run i reply' restarted')).Quiet := by
  simp only [LocksActive, not_forall] at hlock
  obtain ⟨messages, hpc, hfree, hactive⟩ := hlock
  have hcleared : s.cleared = true := h (Bool.not_eq_true _ ▸ hactive)
  have htaken : s.step (.run i reply restarted)
      = { s with keeperLocker := some i }.goTo i (.requesting messages) := by
    simp only [step, hpc, run, hfree]
  have hat : ({ s with keeperLocker := some i }.goTo i (.requesting messages)).threads[i]?
      = some (.requesting messages) := by
    obtain ⟨hi, -⟩ := List.getElem?_eq_some_iff.mp hpc
    exact List.getElem?_set_self hi
  intro hquiet
  rw [htaken, step, hat] at hquiet
  have hlate := hquiet (.send s.guard.keepActor_ (makeMessage messages), s.cleared)
    (List.mem_append_right _ (List.mem_singleton.mpr rfl))
  exact absurd (hcleared.symm.trans hlate) (by decide)

/-- **Quiet.**  If no thread takes the lock of a guard that is not active, then nothing is sent and
nothing restarted once a restart has cleared `active_`; and a thread that takes the lock of such a
guard sends next. -/
theorem quiet_always (keepActor : ι) (turns : List (Turn ι μ ρ)) :
    (Run.Each step LocksActive (start keepActor) turns →
        Run.Always step Quiet (start keepActor) turns)
      ∧ ∀ i reply restarted reply' restarted',
        ¬(Run.run step (start keepActor) turns).LocksActive (.run i reply restarted) →
          ¬Run.Always step Quiet (start keepActor)
            (turns ++ [.run i reply restarted, .run i reply' restarted']) := by
  constructor
  · intro hlocks
    have hstart : (start keepActor : Shared ι μ).Sound :=
      ⟨fun _ hd => absurd hd List.not_mem_nil, rfl, by simp [start], by simp [start]⟩
    have hsound : Run.Always step Sound (start keepActor) turns :=
      Run.always_of_each (P := Sound) (fun _ _ h hlock => sound_step h hlock) hstart hlocks
    exact hsound.imp fun _ h => h.quiet
  · intro i reply restarted reply' restarted' hlock hquiet
    have hcleared : Run.Always step
        (fun s : Shared ι μ => s.guard.active_ = false → s.cleared = true)
        (start keepActor) turns :=
      Run.always_of_inv (fun _ turn h => cleared_step h turn)
        (fun hactive => absurd hactive (by simp [start])) turns
    have hlast := hquiet.last
    rw [Run.run_append] at hlast
    exact not_quiet_of_not_locksActive hcleared.last hlock hlast

/-- The second thread comes after the actor has been restarted for the first, and waits for its
answer. -/
theorem quiet_restarted :
    Run.Always step Quiet (start 7 : Shared ℕ String)
      ([.call "a", .run 0 (.ok ()) (8, true), .run 0 (.ok ()) (8, true),
        .run 0 (.error ⟨1, "system"⟩) (8, true), .run 0 (.ok ()) (8, true), .call "b",
        .run 1 (.ok ()) (8, true), .run 1 (.ok ()) (8, true)]
        ++ List.replicate 6 (.run 0 (.ok ()) (8, true))
        ++ List.replicate 2 (.run 1 (.ok ()) (8, true))) := by
  refine (quiet_always 7 _).1 ?_
  simp [Run.Each, step, run, LocksActive, start, goTo, isSystemError]

/-- Two threads find the guard active.  The first has the actor restarted in vain, and then the
second, which has waited for the lock, sends. -/
theorem not_quiet_waiting :
    ¬Run.Always step Quiet (start 7 : Shared ℕ String)
      ([.call "a", .call "b", .run 0 (.ok ()) (8, false), .run 1 (.ok ()) (8, false)]
        ++ List.replicate 7 (.run 0 (.error ⟨1, "system"⟩) (8, false))
        ++ List.replicate 2 (.run 1 (.ok ()) (8, false))) := by
  intro h
  exact absurd (h.last (.send 8 "b", true) (by decide)) (by decide)

end Shared

end FaultTolerance

end Cdcf
