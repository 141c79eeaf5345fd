import Cdcf.LoadBalancer.Locking

/-!
What calls of `enqueue` do to each other.

A call reads the workers and the loads for the policy and counts one load up afterwards.  Where
guards share the lock, two calls can do so at the same time, and a call that hands a response on
does so without the lock.

* `System.Guarded`: who is between reading the loads and counting one up holds the lock, and nobody
  has changed the workers and the loads since;
* `System.Moves`, `System.run_cases`: what a step can do;
* `System.Moves.spares`, `System.owned_step`: what it leaves of the other threads, and of the lock
  in the guards;
* `guarded_always_iff`: the threads are guarded all along a run exactly when no response is handed
  on, and no load changes while another thread is between its read and its count;
* `guarded_always`: this is so if no response gets past `Filter` and the loads are read by one
  thread at a time;
* `guarded_overlap`: two calls that place two mails on the strength of one place.
-/

namespace Cdcf

namespace LoadBalancer

open Sample

variable {τ μ ι α : Type*} [MessageId μ] [DecidableEq μ] [DecidableEq ι] [DecidableEq τ]

namespace Pc

/-- The call reads the workers and the loads, gives them to the policy or counts one up. -/
def isPlacing : Pc μ ι α → Bool
  | .reading _ | .calling _ _ | .updating _ _ _ => true
  | _ => false

/-- What was read of the router, until the load is counted up. -/
def seen? : Pc μ ι α → Option (Router μ ι α)
  | .calling _ seen | .updating _ _ seen => some seen
  | _ => none

/-- The call hands a response on. -/
def isAnswering : Pc μ ι α → Bool
  | .discharging _ | .replying _ | .extracting _ _ => true
  | _ => false

end Pc

namespace System

variable {lock : UpgradeLock τ}

/-- The workers and the loads are those that were read. -/
def Fresh (s : System τ μ ι α) (seen : Router μ ι α) : Prop :=
  s.router.workers_ = seen.workers_ ∧ s.router.metrics_ = seen.metrics_

/-- A thread from reading the loads to counting one up holds the lock, and what it read is what is
there. -/
def Guarded (s : System τ μ ι α) : Prop :=
  ∀ t, (s.pc t).isPlacing = true →
    t ∈ s.lock_ ∧ ∀ seen, (s.pc t).seen? = some seen → s.Fresh seen

/-- What the guard of a thread owns at a place before the policy. -/
def OwnedAt (s : System τ μ ι α) (t : τ) : Pc μ ι α → Prop
  | .filtering _ | .discharging _ | .replying _ => t ∈ s.lock_
  | .changing owns _ | .extracting owns _ => owns = true
  | _ => True

/-- The lock is in the guard of every thread until it is taken out of it. -/
def Owned (s : System τ μ ι α) : Prop := ∀ t, s.OwnedAt t (s.pc t)

/-! ### One step of a thread -/

/-- What a step can do, by the places where it starts and ends.  Last comes the system after it, but
for the place of the thread. -/
inductive Moves (s : System τ μ ι α) (t : τ) : Pc μ ι α → Pc μ ι α → System τ μ ι α → Prop
  | enters (what : Mail μ ι α) :
      Moves s t (.entering what) (.filtering what) { s with lock_ := t :: s.lock_ }
  | fails (pc : Pc μ ι α) : Moves s t pc .stuck s
  | filtered (what : Mail μ ι α) {router : Router μ ι α} (sent : List (Effect μ ι α))
      (hfresh : s.Fresh router) :
      Moves s t (.filtering what) .idle ({ s with router, sent }.release t)
  | prepares (what : Mail μ ι α) {router : Router μ ι α} (sent : List (Effect μ ι α))
      (hfresh : s.Fresh router) :
      Moves s t (.filtering what) (.changing (t ∈ s.lock_) what.content)
        ({ s with router, sent }.release t)
  | answers (what : Mail μ ι α) (hresp : isResponse what.mid = true)
      (htakes : s.router.takes what = false) :
      Moves s t (.filtering what) (.discharging what) s
  | asks (what : Mail μ ι α) : Moves s t (.filtering what) (.reading (some what)) s
  | changes {owns : Bool} (content : Content ι α) (router : Router μ ι α)
      (sent : List (Effect μ ι α)) (hwaits : s.waits owns = false) :
      Moves s t (.changing owns content) .idle { s with router, sent }
  | discharges (what : Mail μ ι α) (router : Router μ ι α) :
      Moves s t (.discharging what) (.replying what) { s with router }
  | replies (what : Mail μ ι α) :
      Moves s t (.replying what) (.extracting (t ∈ s.lock_) what) (s.release t)
  | extracts {owns : Bool} (what : Mail μ ι α) (router : Router μ ι α)
      (sent : List (Effect μ ι α)) (hwaits : s.waits owns = false) :
      Moves s t (.extracting owns what) (.reading none) { s with router, sent }
  | reads (mail : Option (Mail μ ι α)) : Moves s t (.reading mail) (.calling mail s.router) s
  | holds (mail : Option (Mail μ ι α)) (seen : Router μ ι α) {router : Router μ ι α}
      (hfresh : s.Fresh router) :
      Moves s t (.calling mail seen) .idle ({ s with router }.release t)
  | places (mail : Option (Mail μ ι α)) (seen : Router μ ι α) (worker : ι) (next : Mail μ ι α)
      {router : Router μ ι α} (hfresh : s.Fresh router) :
      Moves s t (.calling mail seen) (.updating worker next seen) { s with router }
  | counts (worker : ι) (next : Mail μ ι α) (seen router : Router μ ι α) :
      Moves s t (.updating worker next seen) (.relaying worker next) { s with router }
  | relays (worker : ι) (next : Mail μ ι α) :
      Moves s t (.relaying worker next) (.ticketing (t ∈ s.lock_) worker next) (s.release t)
  | tickets (owns : Bool) (worker : ι) (next : Mail μ ι α) {router : Router μ ι α}
      (sent : List (Effect μ ι α)) (hfresh : s.Fresh router) :
      Moves s t (.ticketing owns worker next) .idle { s with router, sent }

/-- A thread stays where it is, or makes one of the moves. -/
lemma run_cases (lock : UpgradeLock τ) (s : System τ μ ι α) (t : τ) :
    s.run lock t = s ∨ ∃ pc s', s.Moves t (s.pc t) pc s' ∧ s.run lock t = s'.goTo t pc := by
  have hself : s.Fresh s.router := ⟨rfl, rfl⟩
  rw [run]
  cases s.pc t with
  | idle => exact Or.inl rfl
  | stuck => exact Or.inl rfl
  | entering what =>
      simp only
      split
      · exact Or.inr ⟨_, _, .enters what, rfl⟩
      · exact Or.inl rfl
  | filtering what =>
      simp only
      split
      · split
        · exact Or.inr ⟨_, _, .filtered what s.sent hself, rfl⟩
        · next hprepare =>
            obtain ⟨hworkers, hmetrics⟩ := Router.prepare_eq_some hprepare
            exact Or.inr ⟨_, _, .prepares what _ ⟨hworkers.symm, hmetrics.symm⟩, rfl⟩
      · next hchange =>
          split
          · next hfilter =>
              obtain rfl := Router.filter_eq_ok (by simpa using hchange) hfilter
              exact Or.inr ⟨_, _, .filtered what _ hself, rfl⟩
          · exact Or.inr ⟨_, _, .fails _, rfl⟩
          · next hfilter =>
              split
              · next hresp =>
                  exact Or.inr ⟨_, _, .answers what hresp (Router.filter_eq_none_iff.mp hfilter),
                    rfl⟩
              · exact Or.inr ⟨_, _, .asks what, rfl⟩
  | changing owns content =>
      simp only
      split
      · exact Or.inl rfl
      · next hwaits => exact Or.inr ⟨_, _, .changes content _ _ (by simpa using hwaits), rfl⟩
  | discharging what => exact Or.inr ⟨_, _, .discharges what _, rfl⟩
  | replying what => exact Or.inr ⟨_, _, .replies what, rfl⟩
  | extracting owns what =>
      simp only
      split
      · exact Or.inl rfl
      · next hwaits => exact Or.inr ⟨_, _, .extracts what _ _ (by simpa using hwaits), rfl⟩
  | reading mail =>
      simp only
      split
      · exact Or.inr ⟨_, _, .reads mail, rfl⟩
      · exact Or.inr ⟨_, _, .fails _, rfl⟩
  | calling mail seen =>
      simp only
      split
      · exact Or.inr ⟨_, _, .fails _, rfl⟩
      · exact Or.inr ⟨_, _, .places mail seen _ _ (by exact ⟨rfl, rfl⟩), rfl⟩
      · exact Or.inr ⟨_, _, .holds mail seen (by exact ⟨rfl, rfl⟩), rfl⟩
  | updating worker next seen => exact Or.inr ⟨_, _, .counts worker next seen _, rfl⟩
  | relaying worker next => exact Or.inr ⟨_, _, .relays worker next, rfl⟩
  | ticketing owns worker next =>
      simp only
      split
      · exact Or.inl rfl
      · exact Or.inr ⟨_, _, .tickets owns worker next _ (by exact ⟨rfl, rfl⟩), rfl⟩

/-- The other threads are where they were, and hold the lock as they did. -/
structure Spares (s s' : System τ μ ι α) (t : τ) : Prop where
  pc_eq : ∀ u, u ≠ t → s'.pc u = s.pc u
  mem_lock : ∀ u, u ≠ t → u ∈ s.lock_ → u ∈ s'.lock_

omit [DecidableEq μ] [DecidableEq ι] in
/-- A move spares the others. -/
lemma Moves.spares {s s' : System τ μ ι α} {t : τ} {pc pc' : Pc μ ι α}
    (h : s.Moves t pc pc' s') : s.Spares (s'.goTo t pc') t := by
  refine ⟨fun u hu => ?_, fun u hu hlock => ?_⟩
  · rw [pc_goTo_of_ne _ hu]
    cases h <;> rfl
  · have hrelease : u ∈ s.lock_.filter (· ≠ t) := List.mem_filter.mpr ⟨hlock, by simpa using hu⟩
    cases h with
    | enters => exact List.mem_cons_of_mem _ hlock
    | filtered | prepares | replies | holds | relays => exact hrelease
    | fails | answers | asks | changes | discharges | extracts | reads | places | counts
    | tickets => exact hlock

/-- A step of a thread spares the others. -/
lemma spares_run (lock : UpgradeLock τ) (s : System τ μ ι α) (t : τ) :
    s.Spares (s.run lock t) t := by
  rcases run_cases lock s t with hstay | ⟨pc, s', hmove, hrun⟩
  · rw [hstay]
    exact ⟨fun _ _ => rfl, fun _ _ h => h⟩
  · rw [hrun]
    exact hmove.spares

omit [DecidableEq μ] [DecidableEq ι] in
/-- A move leaves the lock in the guard of its thread, or takes it out. -/
lemma Moves.ownedAt {s s' : System τ μ ι α} {t : τ} {pc pc' : Pc μ ι α}
    (h : s.Moves t pc pc' s') (ho : s.OwnedAt t pc) : s'.OwnedAt t pc' := by
  cases h with
  | enters => exact List.mem_cons_self
  | prepares | replies => exact decide_eq_true ho
  | answers | discharges => exact ho
  | fails | filtered | asks | changes | extracts | reads | holds | places | counts | relays
  | tickets => trivial

/-- Every turn keeps the lock in the guards until it is taken out. -/
lemma owned_step {s : System τ μ ι α} (ho : s.Owned) (turn : Turn τ μ ι α) :
    (s.step lock turn).Owned := by
  intro u
  cases turn with
  | call t what =>
      rw [step]
      split
      · by_cases hu : u = t
        · rw [hu, pc_goTo]
          trivial
        · rw [pc_goTo_of_ne s hu]
          exact ho u
      · exact ho u
  | run t =>
      rw [step]
      by_cases hu : u = t
      · subst hu
        rcases run_cases lock s u with hstay | ⟨pc, s', hmove, hrun⟩
        · rw [hstay]
          exact ho u
        · rw [hrun, pc_goTo]
          exact (hmove.ownedAt (ho u) : s'.OwnedAt u pc)
      · have hspares := spares_run lock s t
        have hat := ho u
        rw [hspares.pc_eq u hu]
        cases hpc : s.pc u with
        | filtering | discharging | replying =>
            rw [hpc] at hat
            exact hspares.mem_lock u hu hat
        | changing | extracting =>
            rw [hpc] at hat
            exact hat
        | _ => trivial

/-! ### When a step keeps the loads as they were read -/

/-- What a turn of a thread at a place is not to do: hand a response on, or change a load while
another thread is between its read and its count. -/
def UndisturbedAt (s : System τ μ ι α) (t : τ) : Pc μ ι α → Prop
  | .discharging _ | .updating _ _ _ => ∀ u, u ≠ t → (s.pc u).seen? = none
  | .extracting owns _ => s.waits owns = true
  | _ => True

/-- No response is handed on, and no load changes while another thread is between its read and its
count. -/
def Undisturbed (s : System τ μ ι α) : Turn τ μ ι α → Prop
  | .call _ _ => True
  | .run t => s.UndisturbedAt t (s.pc t)

omit [MessageId μ] [DecidableEq μ] [DecidableEq ι] [DecidableEq τ] in
lemma isPlacing_of_seen? {pc : Pc μ ι α} (h : pc.seen? ≠ none) : pc.isPlacing = true := by
  cases pc <;> simp_all [Pc.seen?, Pc.isPlacing]

omit [MessageId μ] [DecidableEq μ] [DecidableEq ι] [DecidableEq τ] in
/-- Who has got the lock for itself is alone. -/
lemma seen?_of_not_waits {s : System τ μ ι α} (hg : s.Guarded) {owns : Bool} (howns : owns = true)
    (hwaits : s.waits owns = false) (u : τ) : (s.pc u).seen? = none := by
  have hnil : s.lock_ = [] := by simpa [waits, howns] using hwaits
  by_contra hseen
  simpa [hnil] using (hg u (isPlacing_of_seen? hseen)).1

omit [DecidableEq μ] [DecidableEq ι] in
/-- Such a move changes no workers and no loads, or nobody else relies on them. -/
lemma Moves.fresh {s s' : System τ μ ι α} {t : τ} {pc pc' : Pc μ ι α}
    (h : s.Moves t pc pc' s') (hg : s.Guarded) (ho : s.OwnedAt t pc)
    (hundisturbed : s.UndisturbedAt t pc) :
    (∀ seen, s.Fresh seen → s'.Fresh seen) ∨ ∀ u, u ≠ t → (s.pc u).seen? = none := by
  have htrans {router : Router μ ι α} (hfresh : s.Fresh router) (seen : Router μ ι α)
      (hseen : s.Fresh seen) :
      router.workers_ = seen.workers_ ∧ router.metrics_ = seen.metrics_ :=
    ⟨hfresh.1.symm.trans hseen.1, hfresh.2.symm.trans hseen.2⟩
  cases h with
  | filtered what sent hfresh => exact Or.inl (htrans hfresh)
  | prepares what sent hfresh => exact Or.inl (htrans hfresh)
  | holds mail seen hfresh => exact Or.inl (htrans hfresh)
  | places mail seen worker next hfresh => exact Or.inl (htrans hfresh)
  | tickets owns worker next sent hfresh => exact Or.inl (htrans hfresh)
  | changes content router sent hwaits =>
      exact Or.inr fun u _ => seen?_of_not_waits hg ho hwaits u
  | discharges | counts => exact Or.inr hundisturbed
  | extracts what router sent hwaits =>
      exact absurd (hwaits.symm.trans hundisturbed) (by simp)
  | enters | fails | answers | asks | replies | reads | relays => exact Or.inl fun _ h => h

omit [DecidableEq μ] [DecidableEq ι] in
/-- A thread that makes such a move holds the lock where it reads and counts. -/
lemma Moves.guardedAt {s s' : System τ μ ι α} {t : τ} {pc pc' : Pc μ ι α}
    (h : s.Moves t pc pc' s') (hpc : s.pc t = pc) (hg : s.Guarded) (ho : s.OwnedAt t pc)
    (hundisturbed : s.UndisturbedAt t pc) (hplacing : pc'.isPlacing = true) :
    t ∈ s'.lock_ ∧ ∀ seen, pc'.seen? = some seen → s'.Fresh seen := by
  have hguard := hg t
  rw [hpc] at hguard
  cases h with
  | asks => exact ⟨ho, fun _ hseen => absurd hseen (by simp [Pc.seen?])⟩
  | extracts what router sent hwaits =>
      exact absurd (hwaits.symm.trans hundisturbed) (by simp)
  | reads =>
      refine ⟨(hguard rfl).1, fun seen hseen => ?_⟩
      obtain rfl : s.router = seen := by simpa [Pc.seen?] using hseen
      exact ⟨rfl, rfl⟩
  | places mail seen worker next hfresh =>
      refine ⟨(hguard rfl).1, fun seen' hseen => ?_⟩
      obtain rfl : seen = seen' := by simpa [Pc.seen?] using hseen
      obtain ⟨hworkers, hmetrics⟩ := (hguard rfl).2 seen rfl
      exact ⟨hfresh.1.symm.trans hworkers, hfresh.2.symm.trans hmetrics⟩
  | _ => exact absurd hplacing (by simp [Pc.isPlacing])

/-- Such a turn leaves the lock with every thread that reads and counts. -/
lemma guarded_step {s : System τ μ ι α} (hg : s.Guarded) (ho : s.Owned) {turn : Turn τ μ ι α}
    (h : s.Undisturbed turn) : (s.step lock turn).Guarded := by
  intro u
  cases turn with
  | call t what =>
      rw [step]
      split
      · by_cases hu : u = t
        · rw [hu, pc_goTo]
          exact fun hplacing => absurd hplacing (by simp [Pc.isPlacing])
        · rw [pc_goTo_of_ne s hu]
          exact hg u
      · exact hg u
  | run t =>
      rw [step]
      rcases run_cases lock s t with hstay | ⟨pc, s', hmove, hrun⟩
      · rw [hstay]
        exact hg u
      · rw [hrun]
        by_cases hu : u = t
        · subst hu
          rw [pc_goTo]
          exact hmove.guardedAt rfl hg (ho u) h
        · have hspares := hmove.spares
          rw [hspares.pc_eq u hu]
          intro hplacing
          obtain ⟨hlock, hfresh⟩ := hg u hplacing
          refine ⟨hspares.mem_lock u hu hlock, fun seen hseen => ?_⟩
          rcases hmove.fresh hg (ho t) h with hkeeps | hnobody
          · exact hkeeps seen (hfresh seen hseen)
          · exact absurd hseen (by simp [hnobody u hu])

omit [DecidableEq τ] in
/-- A load that is counted up or down is not what it was. -/
lemma update_metrics_ne (metrics : Option ι → Option UInt64) (k : Option ι) (load : UInt64 → UInt64)
    (h : ∀ n, load n ≠ n) :
    Function.update metrics k (some (load ((metrics k).getD 0))) ≠ metrics := by
  intro heq
  have hk := congrFun heq k
  rw [Function.update_self] at hk
  rw [← hk, Option.getD_some] at hk
  exact h _ (Option.some.inj hk)

/-- Nobody relies on the loads if they change and all is as it should be. -/
lemma seen?_of_metrics_ne {s : System τ μ ι α} (hg : s.Guarded) {t : τ}
    (h : (s.run lock t).Guarded) (hne : (s.run lock t).router.metrics_ ≠ s.router.metrics_) (u : τ)
    (hu : u ≠ t) : (s.pc u).seen? = none := by
  by_contra hsome
  obtain ⟨seen, hseen⟩ := Option.ne_none_iff_exists'.mp hsome
  have hplacing := isPlacing_of_seen? hsome
  have hpc := (spares_run lock s t).pc_eq u hu
  have hbefore := (hg u hplacing).2 seen hseen
  have hafter := (h u (hpc ▸ hplacing)).2 seen (hpc ▸ hseen)
  exact hne (hafter.2.trans hbefore.2.symm)

/-- After any other turn a thread reads without the lock, or relies on a load that has changed. -/
lemma undisturbed_of_guarded_step {s : System τ μ ι α} (hg : s.Guarded) (ho : s.Owned)
    {turn : Turn τ μ ι α} (h : (s.step lock turn).Guarded) : s.Undisturbed turn := by
  cases turn with
  | call t what => trivial
  | run t =>
      rw [step] at h
      have hat := ho t
      rw [Undisturbed]
      cases hpc : s.pc t with
      | discharging what =>
          refine seen?_of_metrics_ne hg h ?_
          rw [run, hpc]
          exact update_metrics_ne s.router.metrics_ what.sender (· - 1) (by simp)
      | updating worker next seen =>
          refine seen?_of_metrics_ne hg h ?_
          rw [run, hpc]
          exact update_metrics_ne s.router.metrics_ (some worker) (· + 1) (by simp)
      | extracting owns what =>
          rw [hpc] at hat
          rw [UndisturbedAt]
          by_contra hwaits
          have hnil : s.lock_ = [] := by simpa [waits, show owns = true from hat] using hwaits
          have hrun : s.run lock t
              = { s with
                  router := (s.router.reply what).1
                  sent := s.sent ++ (s.router.reply what).2 }.goTo t (.reading none) := by
            simp [run, hpc, waits, hnil]
          have hreads := (h t (by rw [hrun, pc_goTo]; rfl)).1
          rw [hrun] at hreads
          simp [goTo, hnil] at hreads
      | _ => trivial

end System

/-- The lock is held wherever workers and loads are read, used and counted up, and they are as
they were read, all along a run if and only if no response is handed on in it and no load changes
while another thread is between its read and its count. -/
theorem guarded_always_iff (lock : UpgradeLock τ) (loadThresholdToHold : UInt64)
    (turns : List (Turn τ μ ι α)) :
    Run.Always (System.step lock) System.Guarded (System.make loadThresholdToHold) turns
      ↔ Run.Each (System.step lock) System.Undisturbed (System.make loadThresholdToHold) turns := by
  refine Run.always_iff_each (P := System.Guarded) (I := System.Owned) ?_ ?_ ?_ ?_ turns
  · exact fun s turn ho hg =>
      ⟨System.undisturbed_of_guarded_step hg ho, System.guarded_step hg ho⟩
  · exact fun s turn ho _ _ => System.owned_step ho turn
  · exact fun t => trivial
  · exact fun t ht => by simp [System.make, Pc.isPlacing] at ht

namespace System

/-! ### One thread at a time -/

variable {lock : UpgradeLock τ}

/-- What a turn at a place is not to do: let a response get past `Filter`, or read the loads while
another thread is between its read and its count. -/
def ApartAt (s : System τ μ ι α) : Pc μ ι α → Prop
  | .filtering what => isResponse what.mid = true → s.router.takes what = true
  | .reading _ => ∀ t, (s.pc t).seen?.isSome = false
  | _ => True

/-- No response gets past `Filter`, and the loads are read by one thread at a time. -/
def Apart (s : System τ μ ι α) : Turn τ μ ι α → Prop
  | .call _ _ => True
  | .run t => s.ApartAt (s.pc t)

instance [Fintype τ] (s : System τ μ ι α) : ∀ pc, Decidable (s.ApartAt pc)
  | .filtering _ => inferInstanceAs (Decidable (_ → _))
  | .reading _ => inferInstanceAs (Decidable (∀ _, _))
  | .idle | .entering _ | .changing _ _ | .discharging _ | .replying _ | .extracting _ _
  | .calling _ _ | .updating _ _ _ | .relaying _ _ | .ticketing _ _ _ | .stuck => .isTrue trivial

instance [Fintype τ] (s : System τ μ ι α) : ∀ turn, Decidable (s.Apart turn)
  | .call _ _ => .isTrue trivial
  | .run t => inferInstanceAs (Decidable (s.ApartAt (s.pc t)))

/-- No response is being handed on, and one thread at most is between its read and its count. -/
structure Single (s : System τ μ ι α) : Prop where
  isAnswering : ∀ t, (s.pc t).isAnswering = false
  seen? : ∀ t u, (s.pc t).seen?.isSome = true → (s.pc u).seen?.isSome = true → t = u

omit [DecidableEq μ] [DecidableEq ι] in
/-- A response that gets past `Filter` is the first step of handing one on. -/
lemma Moves.isAnswering {s s' : System τ μ ι α} {t : τ} {pc pc' : Pc μ ι α}
    (h : s.Moves t pc pc' s') (hpc : pc.isAnswering = false) (hapart : s.ApartAt pc) :
    pc'.isAnswering = false := by
  cases h with
  | answers what hresp htakes => exact absurd (hapart hresp) (by simp [htakes])
  | discharges | replies => exact absurd hpc (by simp [Pc.isAnswering])
  | _ => simp [Pc.isAnswering]

omit [DecidableEq μ] [DecidableEq ι] in
/-- What a thread has read it keeps or reads now. -/
lemma Moves.seen? {s s' : System τ μ ι α} {t : τ} {pc pc' : Pc μ ι α}
    (h : s.Moves t pc pc' s') (hseen : pc'.seen?.isSome = true) :
    pc.seen?.isSome = true ∨ ∃ mail, pc = .reading mail := by
  cases h with
  | reads mail => exact Or.inr ⟨mail, rfl⟩
  | places => exact Or.inl rfl
  | _ => exact absurd hseen (by simp [Pc.seen?])

omit [MessageId μ] [DecidableEq μ] [DecidableEq ι] [DecidableEq τ] in
/-- One thread moves: it hands no response on, and what it has read now it had read before, or
nobody else had read anything. -/
lemma Single.of_spares {s s' : System τ μ ι α} {t : τ} (hs : s.Single) (hspares : s.Spares s' t)
    (hanswering : (s'.pc t).isAnswering = false)
    (hseen : (s'.pc t).seen?.isSome = true →
      (s.pc t).seen?.isSome = true ∨ ∀ u, (s.pc u).seen?.isSome = false) : s'.Single := by
  have hother {u : τ} (hu : u ≠ t) (huseen : (s'.pc u).seen?.isSome = true)
      (htseen : (s'.pc t).seen?.isSome = true) : False := by
    rw [hspares.pc_eq u hu] at huseen
    rcases hseen htseen with hbefore | hnobody
    · exact hu (hs.seen? u t huseen hbefore)
    · exact absurd huseen (by simp [hnobody u])
  constructor
  · intro u
    by_cases hu : u = t
    · rw [hu]
      exact hanswering
    · rw [hspares.pc_eq u hu]
      exact hs.isAnswering u
  · intro u v hu hv
    by_cases hut : u = t
    · by_cases hvt : v = t
      · rw [hut, hvt]
      · exact (hother hvt hv (hut ▸ hu)).elim
    · by_cases hvt : v = t
      · exact (hother hut hu (hvt ▸ hv)).elim
      · rw [hspares.pc_eq u hut] at hu
        rw [hspares.pc_eq v hvt] at hv
        exact hs.seen? u v hu hv

/-- One thread at a time stays one thread at a time. -/
lemma single_step {s : System τ μ ι α} (hs : s.Single) {turn : Turn τ μ ι α}
    (h : s.Apart turn) : (s.step lock turn).Single := by
  cases turn with
  | call t what =>
      rw [step]
      split
      · have hspares : s.Spares (s.goTo t (.entering what)) t :=
          ⟨fun _ hu => pc_goTo_of_ne s hu _, fun _ _ h => h⟩
        refine hs.of_spares hspares ?_ ?_
        · rw [pc_goTo]
          simp [Pc.isAnswering]
        · rw [pc_goTo]
          simp [Pc.seen?]
      · exact hs
  | run t =>
      rw [step]
      rcases run_cases lock s t with hstay | ⟨pc, s', hmove, hrun⟩
      · rw [hstay]
        exact hs
      · rw [hrun]
        refine hs.of_spares hmove.spares ?_ fun hseen => ?_
        · rw [pc_goTo]
          exact hmove.isAnswering (hs.isAnswering t) h
        · rw [pc_goTo] at hseen
          rcases hmove.seen? hseen with hbefore | ⟨mail, hreading⟩
          · exact Or.inl hbefore
          · rw [Apart, hreading] at h
            exact Or.inr h

omit [MessageId μ] [DecidableEq μ] [DecidableEq ι] [DecidableEq τ] in
/-- One thread at a time disturbs nobody. -/
lemma Single.undisturbed {s : System τ μ ι α} (hs : s.Single) (turn : Turn τ μ ι α) :
    s.Undisturbed turn := by
  cases turn with
  | call t what => trivial
  | run t =>
      have hanswering := hs.isAnswering t
      rw [Undisturbed]
      cases hpc : s.pc t with
      | discharging what => exact absurd hanswering (by simp [hpc, Pc.isAnswering])
      | extracting owns what => exact absurd hanswering (by simp [hpc, Pc.isAnswering])
      | updating worker next seen =>
          intro u hu
          by_contra hseen
          exact hu (hs.seen? u t (by simpa [Option.isSome_iff_ne_none] using hseen)
            (by rw [hpc]; rfl))
      | _ => trivial

end System

/-- The lock is held wherever workers and loads are read, used and counted up, and they are as they
were read, all along a run in which no response gets past `Filter` and the loads are read by one
thread at a time. -/
theorem guarded_always {lock : UpgradeLock τ} {loadThresholdToHold : UInt64}
    {turns : List (Turn τ μ ι α)}
    (h : Run.Each (System.step lock) System.Apart (System.make loadThresholdToHold) turns) :
    Run.Always (System.step lock) System.Guarded (System.make loadThresholdToHold) turns := by
  have hsingle : (System.make loadThresholdToHold : System τ μ ι α).Single :=
    ⟨fun _ => rfl, fun t u ht => absurd ht (by simp [System.make, Pc.seen?])⟩
  refine (guarded_always_iff lock loadThresholdToHold turns).mpr ?_
  exact Run.Each.imp_of_step (I := System.Single) (C := System.Apart)
    (fun s turn hs h => System.single_step hs h) (fun s turn hs _ => hs.undisturbed turn) hsingle h

/-- Two requests come to a worker that takes one at a time, in two threads that share the lock.
The second thread reads the loads after the first has counted. -/
def requestsApart : List (Turn (Fin 3) Id ℕ String) :=
  [.call 0 ⟨{}, none, .put 1⟩, .run 0, .run 0, .run 0,
    .call 0 ⟨ask 5, some 7, .other "a"⟩, .call 1 ⟨ask 6, some 7, .other "b"⟩,
    .run 0, .run 1, .run 0, .run 1, .run 0, .run 0, .run 0, .run 1, .run 1, .run 0, .run 0]

/-- The worker gets the one request, and the other is held. -/
theorem guarded_always_requestsApart :
    Run.Always (System.step .shared) System.Guarded (System.make 1) requestsApart
      ∧ (Run.run (System.step .shared) (System.make 1) requestsApart).router.metrics_ (some 1)
        = some 1
      ∧ (Run.run (System.step .shared) (System.make 1) requestsApart).router.policy_.mails_
        = [⟨ask 6, some 7, .other "b"⟩] :=
  ⟨guarded_always (by decide), by decide, by decide⟩

/-- The same requests, up to the count of the first thread: the second has read before it. -/
def requestsRead : List (Turn (Fin 3) Id ℕ String) :=
  [.call 0 ⟨{}, none, .put 1⟩, .run 0, .run 0, .run 0,
    .call 0 ⟨ask 5, some 7, .other "a"⟩, .call 1 ⟨ask 6, some 7, .other "b"⟩,
    .run 0, .run 1, .run 0, .run 1, .run 0, .run 1, .run 0, .run 1, .run 0]

/-- Two requests of a thread come to a worker that takes one at a time, and the second is held.
The response of the worker is handed on in a thread that then reads the loads without the lock. -/
def responseReads : List (Turn (Fin 3) Id ℕ String) :=
  .call 0 ⟨{}, none, .put 1⟩ :: List.replicate 3 (.run 0)
    ++ .call 0 ⟨ask 5, some 7, .other "a"⟩ :: List.replicate 7 (.run 0)
    ++ .call 0 ⟨ask 6, some 7, .other "b"⟩ :: List.replicate 4 (.run 0)
    ++ .call 1 ⟨answer 1, some 1, .other "A"⟩ :: List.replicate 6 (.run 1)

/-- A third request places the second, and then the response places the third. -/
def requestOverlaps : List (Turn (Fin 3) Id ℕ String) :=
  .call 2 ⟨ask 7, some 7, .other "c"⟩ :: List.replicate 7 (.run 2) ++ List.replicate 4 (.run 1)

/-- The worker gets two mails on the strength of one place: from two requests where guards share
the lock, and from a response and a request also where the lock lets in one guard at a time. -/
theorem guarded_overlap :
    (¬Run.Always (System.step .shared) System.Guarded (System.make 1)
        (requestsRead ++ [.run 1, .run 0, .run 0, .run 1, .run 1])
      ∧ (Run.run (System.step .shared) (System.make 1)
        (requestsRead ++ [.run 1, .run 0, .run 0, .run 1, .run 1])).router.metrics_ (some 1)
          = some 2)
    ∧ ¬Run.Always (System.step .single) System.Guarded (System.make 1)
        (responseReads ++ requestOverlaps)
      ∧ (Run.run (System.step .single) (System.make 1)
        (responseReads ++ requestOverlaps)).router.metrics_ (some 1) = some 2 := by
  refine ⟨⟨fun h => ?_, by decide⟩, fun h => ?_, by decide⟩
  · have hguarded := Run.always_iff.mp h requestsRead _ rfl
    have hfresh := (hguarded 1 rfl).2 _ rfl
    exact absurd (congrFun hfresh.2 (some 1)) (by decide)
  · have hguarded := Run.always_iff.mp h responseReads requestOverlaps rfl
    exact absurd (hguarded 1 rfl).1 (by decide)

end LoadBalancer

end Cdcf
