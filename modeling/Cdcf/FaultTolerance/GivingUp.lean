import Cdcf.FaultTolerance.ActorUnion
import Cdcf.Library.Retry
import Cdcf.Library.RoundRobin
import Cdcf.Library.Run
import Mathlib.Data.List.Nodup
import Mathlib.Data.List.Perm.Subperm

/-!
When a union gives up.

`SendAndReceive` is a loop of attempts, which go to the workers of the pool in turn.  The last one
is the first that is answered with something else than a system error, or the one with which the
counter of the tries passes `actor_count_`, which it cannot where that is the largest number.

* `sendAndReceive_eq`: the loop of attempts.
* `fulfils_iff`: when the law of a call holds, after any history.
* `fulfils_always`: it holds while only actors that are there are removed.
-/

namespace Cdcf

namespace FaultTolerance

variable {σ ι μ ρ : Type*} [ActorPool σ ι]

namespace ActorUnion

open Sample

/-! ### The attempts -/

/-- The worker whose turn comes after `k` others. -/
def turn (u : ActorUnion σ) (k : ℕ) : Option ι :=
  (ActorPool.workers u.pool_)[
    (ActorPool.cursor u.pool_ + k) % (ActorPool.workers u.pool_).length]?

/-- The union after `k` requests. -/
def requested (u : ActorUnion σ) (k : ℕ) : ActorUnion σ :=
  { u with pool_ := (fun p => (ActorPool.request p).2)^[k] u.pool_ }

/-- The answer to attempt `k`. -/
def replyAt (u : ActorUnion σ) (answer : Answers ι μ ρ) (msg : μ) (k : ℕ) : Except CafError ρ :=
  match u.turn k with
  | some worker => answer k worker msg
  | none => .error (ActorPool.noWorker (u.requested k).pool_)

/-- What `SendAndReceive` has come to before attempt `k`. -/
def sending (u : ActorUnion σ) (answer : Answers ι μ ρ) (msg : μ) (k : ℕ) : Sending σ ι ρ :=
  ⟨u.requested k, (List.range k).map fun i => (u.turn i, u.replyAt answer msg i), []⟩

/-- Attempt `k` is the last one if it is made. -/
def Final (u : ActorUnion σ) (answer : Answers ι μ ρ) (msg : μ) (k : ℕ) : Prop :=
  isSystemError (u.replyAt answer msg k) = false ∨ u.actorCount_ < UInt16.ofNat (k + 1)

instance (u : ActorUnion σ) (answer : Answers ι μ ρ) (msg : μ) :
    DecidablePred (u.Final answer msg) :=
  fun _ => inferInstanceAs (Decidable (_ ∨ _))

/-- The call after a last attempt. -/
def lastCall : Except CafError ρ → Call ρ
  | .ok value => .returnFunction value
  | .error err =>
      if "system" ≠ err.category then .handleErrorFunction .worker err
      else .handleErrorFunction .union (makeError .allActorOutOfWork)

/-- What `SendAndReceive` comes to with attempt `k` as the last one. -/
def sent (u : ActorUnion σ) (answer : Answers ι μ ρ) (msg : μ) (k : ℕ) : Sending σ ι ρ :=
  (u.sending answer msg (k + 1)).call (lastCall (u.replyAt answer msg k))

omit [ActorPool σ ι] in
/-- An error is the last one, or another attempt follows. -/
lemma handleSendFailed_eq (retry : UInt16 → Sending σ ι ρ → Option (Sending σ ι ρ))
    (err : CafError) (hasTryTime : UInt16) (s : Sending σ ι ρ) :
    handleSendFailed retry err hasTryTime s
      = if isSystemError (.error err : Except CafError ρ) = false
            ∨ s.union.actorCount_ < hasTryTime + 1 then
          some (s.call (lastCall (.error err)))
        else retry (hasTryTime + 1) s := by
  rw [handleSendFailed, lastCall]
  by_cases hsystem : "system" = err.category
  · have hsys : isSystemError (.error err : Except CafError ρ) = true := by
      simp [isSystemError, hsystem]
    rw [if_neg (not_not.mpr hsystem), if_neg (not_not.mpr hsystem), hsys]
    by_cases hretry : hasTryTime + 1 ≤ s.union.actorCount_
    · have hlast : ¬(true = false ∨ s.union.actorCount_ < hasTryTime + 1) := by
        simpa using hretry
      rw [if_neg hlast]
      exact if_pos hretry
    · rw [if_pos (Or.inr (UInt16.not_le.mp hretry))]
      exact if_neg hretry
  · have hsys : isSystemError (.error err : Except CafError ρ) = false := by
      simpa [isSystemError] using Ne.symm hsystem
    rw [if_pos hsystem, if_pos hsystem, if_pos (Or.inl hsys)]

section

variable [DecidableEq ι] [LawfulActorPool σ] (u : ActorUnion σ)

/-- Requests leave the workers as they are. -/
lemma workers_requested (k : ℕ) :
    ActorPool.workers (u.requested k).pool_ = ActorPool.workers u.pool_ := by
  induction k with
  | zero => rfl
  | succ k ih =>
      rw [requested, Function.iterate_succ_apply', LawfulActorPool.workers_request]
      exact ih

/-- Every request moves the cursor on by one place. -/
lemma cursor_requested (k : ℕ) :
    ActorPool.cursor (u.requested k).pool_
      ≡ ActorPool.cursor u.pool_ + k [MOD (ActorPool.workers u.pool_).length] := by
  induction k with
  | zero => rfl
  | succ k ih =>
      have hnext := LawfulActorPool.cursor_request (u.requested k).pool_
      rw [workers_requested] at hnext
      rw [requested, Function.iterate_succ_apply', ← Nat.add_assoc]
      exact hnext.trans (ih.add_right 1)

/-- The requests go to the workers in turn. -/
lemma request_requested (k : ℕ) :
    ActorPool.request (u.requested k).pool_ = (u.turn k, (u.requested (k + 1)).pool_) := by
  refine Prod.ext ?_ ?_
  · have hplace : ActorPool.cursor (u.requested k).pool_ % (ActorPool.workers u.pool_).length
        = (ActorPool.cursor u.pool_ + k) % (ActorPool.workers u.pool_).length :=
      u.cursor_requested k
    rw [LawfulActorPool.request_eq (u.requested k).pool_, workers_requested, hplace]
    rfl
  · rw [requested, requested, Function.iterate_succ_apply']

/-- One attempt. -/
lemma request_sending (answer : Answers ι μ ρ) (msg : μ) (k : ℕ) :
    (u.sending answer msg k).request answer msg
      = (u.replyAt answer msg k, u.sending answer msg (k + 1)) := by
  rw [Sending.request]
  simp only [sending, request_requested, List.length_map, List.length_range, List.range_succ,
    List.map_append, List.map_cons, List.map_nil]
  rfl

/-- `SendAndReceive` is a loop of attempts. -/
lemma sendAndReceiveWithTryTime_eq (answer : Answers ι μ ρ) (msg : μ) (fuel k : ℕ) :
    sendAndReceiveWithTryTime answer msg fuel (UInt16.ofNat k) (u.sending answer msg k)
      = Retry.attempt (u.Final answer msg) (u.sent answer msg) fuel k := by
  induction fuel generalizing k with
  | zero => rfl
  | succ fuel ih =>
      have hnext : UInt16.ofNat k + 1 = UInt16.ofNat (k + 1) := (UInt16.ofNat_add k 1).symm
      rw [sendAndReceiveWithTryTime, Retry.attempt, request_sending, ← ih]
      cases hreply : u.replyAt answer msg k with
      | ok value =>
          have hfinal : u.Final answer msg k := Or.inl (by rw [hreply]; rfl)
          rw [if_pos hfinal, sent, hreply]
          rfl
      | error err =>
          have hfinal : u.Final answer msg k
              ↔ isSystemError (.error err : Except CafError ρ) = false
                ∨ u.actorCount_ < UInt16.ofNat (k + 1) := by
            rw [Final, hreply]
          simp only [handleSendFailed_eq, hnext, hfinal, sent, hreply]
          rfl

/-- `SendAndReceive` makes attempts until one is final. -/
lemma sendAndReceive_eq (answer : Answers ι μ ρ) (msg : μ) (fuel : ℕ) :
    u.sendAndReceive answer msg fuel
      = Retry.attempt (u.Final answer msg) (u.sent answer msg) fuel 0 :=
  u.sendAndReceiveWithTryTime_eq answer msg fuel 0

end

/-! ### The last attempt -/

/-- The union reports exactly after a system error. -/
lemma lastCall_eq_union_iff {reply : Except CafError ρ} :
    lastCall reply = .handleErrorFunction .union (makeError .allActorOutOfWork)
      ↔ isSystemError reply = true := by
  cases reply with
  | ok value => simp [lastCall, isSystemError]
  | error err =>
      rw [lastCall]
      split
      · next h => simpa [isSystemError] using Ne.symm h
      · next h => simpa [isSystemError] using (not_not.mp h).symm

section

variable {u : ActorUnion σ} {answer : Answers ι μ ρ} {msg : μ} {k : ℕ}

/-- The counter of the tries passes a number only after that many tries, and never the largest. -/
lemma ne_max_of_lt {count : UInt16} (h : count < UInt16.ofNat (k + 1)) :
    count ≠ 65535 ∧ count.toNat ≤ k := by
  have hlt := UInt16.lt_iff_toNat_lt.mp h
  have hle : (UInt16.ofNat (k + 1)).toNat ≤ k + 1 := by
    rw [UInt16.toNat_ofNat']
    exact Nat.mod_le _ _
  have hmax := (UInt16.ofNat (k + 1)).toNat_lt
  refine ⟨?_, by omega⟩
  rintro rfl
  have hnumber : (65535 : UInt16).toNat = 65535 := rfl
  omega

/-- The counter of the tries passes any but the largest number. -/
lemma lt_of_ne_max {count : UInt16} (h : count ≠ 65535) :
    count < UInt16.ofNat (count.toNat + 1) := by
  have hne : count.toNat ≠ 65535 := fun heq => h (UInt16.toNat_inj.mp heq)
  have hlt := count.toNat_lt
  rw [UInt16.lt_iff_toNat_lt, UInt16.toNat_ofNat', Nat.mod_eq_of_lt (by omega)]
  exact Nat.lt_succ_self _

/-- The attempts end with an answer that is no system error, or with the last try. -/
lemma first_cases (h : Retry.First (u.Final answer msg) k) :
    isSystemError (u.replyAt answer msg k) = false
        ∧ (k ≤ u.actorCount_.toNat ∨ u.actorCount_ = 65535)
      ∨ u.actorCount_ ≠ 65535 ∧ k = u.actorCount_.toNat
        ∧ ∀ i ≤ k, isSystemError (u.replyAt answer msg i) = true := by
  obtain ⟨hfinal, hbefore⟩ := h
  have hle : u.actorCount_ ≠ 65535 → k ≤ u.actorCount_.toNat := fun hne =>
    Nat.le_of_not_lt fun hlt => hbefore _ hlt (Or.inr (lt_of_ne_max hne))
  cases hsystem : isSystemError (u.replyAt answer msg k) with
  | false =>
      refine Or.inl ⟨rfl, ?_⟩
      by_cases hmax : u.actorCount_ = 65535
      · exact Or.inr hmax
      · exact Or.inl (hle hmax)
  | true =>
      obtain ⟨hne, hge⟩ := ne_max_of_lt (hfinal.resolve_left (by simp [hsystem]))
      refine Or.inr ⟨hne, Nat.le_antisymm (hle hne) hge, fun i hi => ?_⟩
      rcases Nat.lt_or_eq_of_le hi with hlt | rfl
      · exact Bool.eq_true_of_not_eq_false fun hanswer => hbefore i hlt (Or.inl hanswer)
      · exact hsystem

/-- One call is made, and it reports that all actors are out of work after a system error only. -/
lemma fulfils_iff_first [DecidableEq ι] [LawfulActorPool σ] :
    u.Fulfils answer msg ↔ ∃ k, Retry.First (u.Final answer msg) k
      ∧ (isSystemError (u.replyAt answer msg k) = true →
        ∀ w ∈ ActorPool.workers u.pool_, ∃ i ≤ k, u.turn i = some w
          ∧ isSystemError (u.replyAt answer msg i) = true) := by
  have hcall : ∀ k, (.handleErrorFunction .union (makeError .allActorOutOfWork))
      ∈ (u.sent answer msg k).calls ↔ isSystemError (u.replyAt answer msg k) = true := by
    intro k
    rw [← lastCall_eq_union_iff]
    exact List.mem_singleton.trans eq_comm
  have htried : ∀ k w, (∃ reply, (some w, reply) ∈ (u.sent answer msg k).attempts
      ∧ isSystemError reply = true) ↔ ∃ i ≤ k, u.turn i = some w
        ∧ isSystemError (u.replyAt answer msg i) = true := by
    intro k w
    constructor
    · rintro ⟨reply, hmem, hsystem⟩
      obtain ⟨i, hi, heq⟩ := List.mem_map.mp hmem
      obtain ⟨hturn, rfl⟩ := Prod.mk.inj heq
      exact ⟨i, Nat.lt_succ_iff.mp (List.mem_range.mp hi), hturn, hsystem⟩
    · rintro ⟨i, hi, hturn, hsystem⟩
      refine ⟨_, List.mem_map.mpr ⟨i, List.mem_range.mpr (Nat.lt_succ_of_le hi), ?_⟩, hsystem⟩
      rw [hturn]
  simp only [Fulfils, sendAndReceive_eq]
  rw [Retry.settles_iff (P := fun s : Sending σ ι ρ => s.calls.length = 1 ∧ _)]
  refine exists_congr fun k => and_congr_right fun _ => ?_
  simp only [hcall, htried]
  exact and_iff_right rfl

end

/-! ### Who is tried -/

/-- Every worker has its turn in the first `actor_count_ + 1` attempts. -/
def InReach (u : ActorUnion σ) : Prop :=
  ∀ w ∈ ActorPool.workers u.pool_, ∃ k ≤ u.actorCount_.toNat, u.turn k = some w

/-- With as many attempts as there are workers, every worker has its turn. -/
lemma inReach_of_le {u : ActorUnion σ}
    (h : (ActorPool.workers u.pool_).length ≤ u.actorCount_.toNat + 1) : u.InReach := by
  intro w hw
  obtain ⟨i, hi, rfl⟩ := List.getElem_of_mem hw
  obtain ⟨k, hk, hplace⟩ := RoundRobin.exists_offset (ActorPool.cursor u.pool_) hi
  refine ⟨k, by omega, ?_⟩
  rw [turn, hplace, List.getElem?_eq_getElem hi]

/-- For workers that are listed once the number of them decides. -/
lemma inReach_iff {u : ActorUnion σ} (hnodup : (ActorPool.workers u.pool_).Nodup) :
    u.InReach ↔ (ActorPool.workers u.pool_).length ≤ u.actorCount_.toNat + 1 := by
  refine ⟨fun h => ?_, inReach_of_le⟩
  have hsub : (ActorPool.workers u.pool_).map some
      ⊆ (List.range (u.actorCount_.toNat + 1)).map u.turn := by
    intro place hplace
    obtain ⟨w, hw, rfl⟩ := List.mem_map.mp hplace
    obtain ⟨k, hk, hturn⟩ := h w hw
    exact List.mem_map.mpr ⟨k, List.mem_range.mpr (Nat.lt_succ_of_le hk), hturn⟩
  have hsome := hnodup.map (Option.some_injective ι)
  simpa using (List.subperm_of_subset hsome hsub).length_le

variable [DecidableEq ι] [LawfulActorPool σ]

/-- The law of one call holds exactly when an attempt is made that is answered, or every worker has
its turn before the union gives up. -/
lemma fulfils_iff_inReach {u : ActorUnion σ} {answer : Answers ι μ ρ} {msg : μ} :
    u.Fulfils answer msg ↔
      (∃ k w, (k ≤ u.actorCount_.toNat ∨ u.actorCount_ = 65535) ∧ u.turn k = some w
          ∧ isSystemError (answer k w msg) = false)
        ∨ u.actorCount_ ≠ 65535 ∧ u.InReach := by
  have hanswered : ∀ k, isSystemError (u.replyAt answer msg k) = false
      ↔ ∃ w, u.turn k = some w ∧ isSystemError (answer k w msg) = false := by
    intro k
    have hnone := LawfulActorPool.isSystem_noWorker (u.requested k).pool_
    rw [replyAt]
    cases hturn : u.turn k with
    | none => simp [isSystemError, hnone]
    | some w => simp
  rw [fulfils_iff_first]
  constructor
  · rintro ⟨k, hfirst, htried⟩
    rcases first_cases hfirst with ⟨hanswer, hreached⟩ | ⟨hne, rfl, hall⟩
    · obtain ⟨w, hturn, hw⟩ := (hanswered k).mp hanswer
      exact Or.inl ⟨k, w, hreached, hturn, hw⟩
    · refine Or.inr ⟨hne, fun w hw => ?_⟩
      obtain ⟨i, hi, hturn, -⟩ := htried (hall _ le_rfl) w hw
      exact ⟨i, hi, hturn⟩
  · rintro (⟨k, w, hreached, hturn, hw⟩ | ⟨hne, hreach⟩)
    · have hanswer := (hanswered k).mpr ⟨w, hturn, hw⟩
      have hfinal : u.Final answer msg k := Or.inl hanswer
      obtain ⟨i, hi, hfirst⟩ := Retry.exists_first hfinal
      refine ⟨i, hfirst, fun hsystem => ?_⟩
      rcases first_cases hfirst with ⟨hanswer', -⟩ | ⟨hne, rfl, hall⟩
      · exact absurd hsystem (by simp [hanswer'])
      · -- the union gives up with the try that is answered
        have hk : k = u.actorCount_.toNat := Nat.le_antisymm (hreached.resolve_right hne) hi
        rw [hk] at hanswer
        exact absurd hsystem (by simp [hanswer])
    · have hfinal : u.Final answer msg u.actorCount_.toNat := Or.inr (lt_of_ne_max hne)
      obtain ⟨i, hi, hfirst⟩ := Retry.exists_first hfinal
      refine ⟨i, hfirst, fun hsystem w hw => ?_⟩
      rcases first_cases hfirst with ⟨hanswer, -⟩ | ⟨-, rfl, hall⟩
      · exact absurd hsystem (by simp [hanswer])
      · obtain ⟨k, hk, hturn⟩ := hreach w hw
        exact ⟨k, hk, hturn, hall k hk⟩

/-- **Giving up.**  After any history, `SendAndReceive` ends with one call and reports that all
actors are out of work only after all of them failed, exactly when an actor answers one of the
attempts that `actor_count_` allows, or `actor_count_` is not the largest number and allows for
every worker of the pool; of different workers it allows for one more than it counts. -/
theorem fulfils_iff (history : List (Op ι)) (answer : Answers ι μ ρ) (msg : μ) :
    let u : ActorUnion σ := Run.run step make history
    (u.Fulfils answer msg ↔
      (∃ k w, (k ≤ u.actorCount_.toNat ∨ u.actorCount_ = 65535) ∧ u.turn k = some w
          ∧ isSystemError (answer k w msg) = false)
        ∨ u.actorCount_ ≠ 65535 ∧ u.InReach)
      ∧ ((ActorPool.workers u.pool_).Nodup →
        (u.InReach ↔ (ActorPool.workers u.pool_).length ≤ u.actorCount_.toNat + 1)) :=
  ⟨fulfils_iff_inReach, inReach_iff⟩

/-- Of two actors one is left, and it is down. -/
theorem fulfils_iff_removed :
    (Run.run step (make : ActorUnion Pool) [.addActor 1, .addActor 2, .removeActor 1]).Fulfils
      (fun _ _ _ => (.error ⟨1, "system"⟩ : Except CafError Unit)) () := by
  have hiff := fulfils_iff (σ := Pool) [.addActor 1, .addActor 2, .removeActor 1]
    (fun _ _ _ => (.error ⟨1, "system"⟩ : Except CafError Unit)) ()
  exact hiff.1.mpr (Or.inr ⟨by decide, (hiff.2 (by decide)).mpr (by decide)⟩)

/-- An actor that was never added is removed twice: the union gives up after the first of two actors
and does not try the other one.  An actor is removed twice: the union never gives up. -/
theorem fulfils_fails :
    ¬(Run.run step (make : ActorUnion Pool)
        [.addActor 1, .addActor 2, .removeActor 3, .removeActor 3]).Fulfils
      (fun _ w _ => if w = 1 then .error ⟨1, "system"⟩ else .ok ()) ()
    ∧ ¬(Run.run step (make : ActorUnion Pool)
        [.addActor 1, .removeActor 1, .removeActor 1]).Fulfils
      (fun _ _ _ => .ok ()) () := by
  constructor
  · rw [fulfils_iff_inReach]
    rintro (⟨k, w, hk, hturn, hanswer⟩ | ⟨-, hreach⟩)
    · obtain rfl : k = 0 := Nat.le_zero.mp (hk.resolve_right (by decide))
      obtain rfl : w = 1 := (Option.some_inj.mp hturn).symm
      exact absurd hanswer (by decide)
    · exact absurd (inReach_iff (by decide) |>.mp hreach) (by decide)
  · rw [fulfils_iff_inReach]
    rintro (⟨k, w, -, hturn, -⟩ | ⟨hmax, -⟩)
    · have hmem : w ∈ ([] : List ℕ) := List.mem_of_getElem? hturn
      exact absurd hmem List.not_mem_nil
    · exact absurd rfl hmax

/-- The operation does not remove an actor that is not there, nor add one too many to count. -/
def Counted (u : ActorUnion σ) : Op ι → Prop
  | .addActor _ => (ActorPool.workers u.pool_).length + 1 < 65535
  | .removeActor actor => actor ∈ ActorPool.workers u.pool_
  | .request => True

/-- The number of the actors is that of the workers. -/
def Counts (u : ActorUnion σ) : Prop :=
  (ActorPool.workers u.pool_).length = u.actorCount_.toNat ∧ u.actorCount_.toNat < 65535

/-- Such an operation keeps the number right. -/
lemma counts_step {u : ActorUnion σ} (hu : u.Counts) {op : Op ι} (hop : u.Counted op) :
    (u.step op).Counts := by
  obtain ⟨hlength, hlt⟩ := hu
  cases op with
  | addActor actor =>
      have hput := (LawfulActorPool.workers_put u.pool_ actor).length_eq
      have hcount : (u.actorCount_ + 1).toNat = u.actorCount_.toNat + 1 := by
        rw [UInt16.toNat_add, UInt16.toNat_one]
        omega
      rw [Counted] at hop
      rw [List.length_cons] at hput
      rw [step, addActor, Counts, hput, hcount]
      omega
  | removeActor actor =>
      have hdelete := (LawfulActorPool.workers_delete u.pool_ actor).length_eq
      have hpos := List.length_pos_of_mem hop
      have hcount : (u.actorCount_ - 1).toNat = u.actorCount_.toNat - 1 := by
        rw [UInt16.toNat_sub, UInt16.toNat_one]
        omega
      rw [List.length_erase_of_mem hop] at hdelete
      rw [step, removeActor, Counts, hdelete, hcount]
      omega
  | request =>
      rw [step, Counts, LawfulActorPool.workers_request]
      exact ⟨hlength, hlt⟩

/-- Where only actors that are there are removed, and no more are added than can be counted, the law
holds of a call at any time. -/
theorem fulfils_always {history : List (Op ι)}
    (h : Run.Each step Counted (make : ActorUnion σ) history) (answer : Answers ι μ ρ) (msg : μ) :
    Run.Always step (fun u => u.Fulfils answer msg) (make : ActorUnion σ) history := by
  have hmake : (make : ActorUnion σ).Counts := by
    have hcount : (make : ActorUnion σ).actorCount_.toNat = 0 := rfl
    rw [Counts, hcount, make, LawfulActorPool.workers_make]
    exact ⟨rfl, by omega⟩
  have hcounts := Run.always_of_each (P := Counts) (fun _ _ hu hop => counts_step hu hop) hmake h
  refine hcounts.imp fun u ⟨hlength, hlt⟩ => fulfils_iff_inReach.mpr (Or.inr ⟨?_, ?_⟩)
  · rintro hmax
    rw [hmax] at hlt
    exact absurd hlt (by decide)
  · exact inReach_of_le (by omega)

end ActorUnion

end FaultTolerance

end Cdcf
