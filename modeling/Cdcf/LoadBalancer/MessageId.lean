import Mathlib.Logic.Function.Iterate

/-!
Message ids and mails of the actor runtime, as the load balancer uses them.

The runtime is a library outside the repository, so its message ids are a parameter.

* `MessageId`: the operations on ids that the load balancer calls;
* `LawfulMessageId`: what it relies on: requests, responses and asynchronous messages are told
  apart, the response ids of different requests differ, and counting up from `make_message_id`
  gives a new request id each time, of whichever priority: ids do not wrap around.
* `Content`, `Mail`: a mailbox element, its content sorted by what `Router::Filter` matches.
-/

namespace Cdcf

namespace LoadBalancer

/-- The operations of `caf::message_id`; `default` is `message_id()`. -/
class MessageId (μ : Type*) extends Inhabited μ where
  /-- `make_message_id()`. -/
  makeMessageId : μ
  /-- `operator++`. -/
  next : μ → μ
  isRequest : μ → Bool
  isResponse : μ → Bool
  responseId : μ → μ
  /-- The category is that of the normal priority. -/
  isNormalPriority : μ → Bool
  withHighPriority : μ → μ

export MessageId (makeMessageId next isRequest isResponse responseId isNormalPriority
  withHighPriority)

section

variable {μ : Type*} [MessageId μ]

/-- The id allocated when `n` ids were allocated before, for a mail of normal priority or not. -/
def allocated (n : ℕ) (normal : Bool) : μ :=
  let result := next^[n + 1] makeMessageId
  if normal then result else withHighPriority result

end

/-- What the load balancer relies on, as long as ids do not wrap around. -/
class LawfulMessageId (μ : Type*) [MessageId μ] : Prop where
  not_isResponse : ∀ a : μ, isRequest a → isResponse a = false
  isResponse_responseId : ∀ a : μ, isRequest a → isResponse (responseId a)
  responseId_injective : ∀ a b : μ, isRequest a → isRequest b → responseId a = responseId b → a = b
  responseId_async : ∀ a : μ, isRequest a = false → isResponse a = false → responseId a = a
  isRequest_allocated : ∀ n normal, isRequest (allocated n normal : μ)
  allocated_injective : ∀ n m p q, (allocated n p : μ) = allocated m q → n = m

/-- What a message holds, as `Router::Filter` tells it apart. -/
inductive Content (ι α : Type*) where
  /-- `exit_msg`. -/
  | exit
  /-- `down_msg` of an actor. -/
  | down (source : ι)
  /-- `sys_atom, put_atom, actor`. -/
  | put (worker : ι)
  /-- `sys_atom, delete_atom, actor`. -/
  | delete (worker : ι)
  /-- `sys_atom, delete_atom`. -/
  | clear
  /-- `sys_atom, get_atom`. -/
  | get
  /-- Anything else. -/
  | other (payload : α)
  deriving DecidableEq, Repr

/-- The content is one that the load balancer takes for itself. -/
def Content.isControl {ι α : Type*} : Content ι α → Bool
  | .other _ => false
  | _ => true

/-- `caf::mailbox_element`: an id, who sent it if anyone, and what is in it. -/
structure Mail (μ ι α : Type*) where
  mid : μ
  sender : Option ι
  content : Content ι α
  deriving DecidableEq, Repr

/-! ### Ids that count -/

namespace Sample

/-- A message id as its parts: the request number, zero for asynchronous messages, the flag of
responses and the priority. -/
structure Id where
  number : ℕ := 0
  isAnswer : Bool := false
  isHigh : Bool := false
  deriving DecidableEq, Repr

instance : MessageId Id where
  default := {}
  makeMessageId := {}
  next := fun a => { a with number := a.number + 1 }
  isRequest := fun a => a.number != 0 && !a.isAnswer
  isResponse := fun a => a.isAnswer
  responseId := fun a =>
    if a.number != 0 && !a.isAnswer then { a with isAnswer := true } else { isHigh := a.isHigh }
  isNormalPriority := fun a => !a.isHigh
  withHighPriority := fun a => { a with isHigh := true }

lemma iterate_next (n : ℕ) : next^[n] (makeMessageId : Id) = { number := n } := by
  induction n with
  | zero => rfl
  | succ n ih =>
      rw [Function.iterate_succ_apply', ih]
      rfl

lemma allocated_eq (n : ℕ) (normal : Bool) :
    (allocated n normal : Id) = { number := n + 1, isHigh := !normal } := by
  rw [allocated, iterate_next]
  cases normal <;> rfl

instance : LawfulMessageId Id where
  not_isResponse := fun a h => by
    simp only [isRequest, Bool.and_eq_true, Bool.not_eq_true'] at h
    exact h.2
  isResponse_responseId := fun a h => by
    simp only [isRequest] at h
    simp only [responseId, isResponse, h, if_true]
  responseId_injective := fun a b ha hb h => by
    simp only [isRequest] at ha hb
    simp only [responseId, ha, hb, if_true, Id.mk.injEq] at h
    simp only [Bool.and_eq_true, Bool.not_eq_true'] at ha hb
    obtain ⟨n, r, p⟩ := a
    obtain ⟨m, q, o⟩ := b
    simp_all
  responseId_async := fun a ha hb => by
    obtain ⟨n, r, p⟩ := a
    simp_all [isRequest, isResponse, responseId]
  isRequest_allocated := fun n normal => by
    rw [allocated_eq]
    simp [isRequest]
  allocated_injective := fun n m p q h => by
    rw [allocated_eq, allocated_eq, Id.mk.injEq] at h
    exact Nat.succ_inj.mp h.1

/-- The request of a number. -/
def ask (number : ℕ) : Id := { number }

/-- The response to the request of a number. -/
def answer (number : ℕ) : Id := { number, isAnswer := true }

end Sample

end LoadBalancer

end Cdcf
