import Cdcf.LoadBalancer.MessageId
import Mathlib.Logic.Function.Basic

/-!
The tickets of the load balancer (`load_balancer/ticket.h`, `load_balancer/proxy.h`).

A mail that is relayed goes out under a new id, and a ticket remembers under the response id of
the new one whom the answer is for.  A table is the partial function of its entries.

* `Ticket`, `Proxy`: the data and the operations;
* `Effect`: what the load balancer does to other actors.
-/

namespace Cdcf

namespace LoadBalancer

variable {μ ι α κ β : Type*}

/-- `emplace` on a table: an entry that is there stays. -/
def emplace [DecidableEq κ] (m : κ → Option β) (k : κ) (v : β) : κ → Option β :=
  Function.update m k (some ((m k).getD v))

@[simp] lemma emplace_self [DecidableEq κ] (m : κ → Option β) (k : κ) (v : β) :
    emplace m k v k = some ((m k).getD v) := Function.update_self ..

lemma emplace_of_ne [DecidableEq κ] (m : κ → Option β) {k k' : κ} (v : β) (h : k' ≠ k) :
    emplace m k v k' = m k' := Function.update_of_ne h _ _

lemma emplace_of_none [DecidableEq κ] {m : κ → Option β} {k : κ} (v : β) (h : m k = none) :
    emplace m k v = Function.update m k (some v) := by
  rw [emplace, h, Option.getD_none]

/-- `erase` on a table. -/
def erase [DecidableEq κ] (m : κ → Option β) (k : κ) : κ → Option β :=
  Function.update m k none

@[simp] lemma erase_self [DecidableEq κ] (m : κ → Option β) (k : κ) : erase m k k = none :=
  Function.update_self ..

lemma erase_of_ne [DecidableEq κ] (m : κ → Option β) {k k' : κ} (h : k' ≠ k) :
    erase m k k' = m k' := Function.update_of_ne h _ _

/-- What the load balancer does to other actors. -/
inductive Effect (μ ι α : Type*) where
  /-- A worker is monitored from now on. -/
  | attach (worker : ι)
  /-- A worker is not monitored any more. -/
  | detach (worker : ι)
  /-- A worker gets the content of a mail, under a new id. -/
  | relay (worker : ι) (newId : μ) (mail : Mail μ ι α)
  /-- A client gets an answer. -/
  | reply (client : ι) (responseId : μ) (content : Content ι α)
  /-- A client gets the list of the workers. -/
  | workers (client : ι) (responseId : μ) (workers : List ι)
  /-- A client gets the empty message. -/
  | empty (client : ι) (responseId : μ)
  /-- A worker gets an exit message. -/
  | exit (worker : ι)
  deriving DecidableEq, Repr

/-- `Ticket`. -/
structure Ticket (μ ι : Type*) where
  responseId : μ
  responseTo : Option ι
  deriving DecidableEq, Repr

/-- `Proxy`. -/
structure Proxy (μ ι : Type*) where
  lastRequestId_ : μ
  tickets_ : μ → Option (Ticket μ ι)

variable [MessageId μ] [DecidableEq μ] [DecidableEq ι]

namespace Ticket

/-- `Ticket::ReplyTo`. -/
def replyTo (mail : Mail μ ι α) : Ticket μ ι :=
  if mail.mid ≠ LoadBalancer.responseId mail.mid then
    ⟨LoadBalancer.responseId mail.mid, mail.sender⟩
  else ⟨default, none⟩

/-- `Ticket::Reply`. -/
def reply (ticket : Ticket μ ι) (content : Content ι α) : List (Effect μ ι α) :=
  match ticket.responseTo with
  | some client => [.reply client ticket.responseId content]
  | none => []

end Ticket

namespace Proxy

/-- A new proxy. -/
def init : Proxy μ ι := ⟨makeMessageId, fun _ => none⟩

/-- `Proxy::AllocateRequestID`. -/
def allocateRequestId (p : Proxy μ ι) (mail : Mail μ ι α) : μ × Proxy μ ι :=
  let result := next p.lastRequestId_
  (if isNormalPriority mail.mid then result else withHighPriority result,
    { p with lastRequestId_ := result })

/-- `Proxy::PlaceTicket`. -/
def placeTicket (p : Proxy μ ι) (mail : Mail μ ι α) : μ × Proxy μ ι :=
  let (newId, p) := p.allocateRequestId mail
  (newId, { p with tickets_ := emplace p.tickets_ (responseId newId) (Ticket.replyTo mail) })

/-- `Proxy::ExtractTicket`: the ticket of a response is used up, also when the response comes
from an actor that is no worker and so is not answered. -/
def extractTicket (p : Proxy μ ι) (mail : Mail μ ι α) (workers : List ι) :
    Ticket μ ι × Proxy μ ι :=
  match p.tickets_ mail.mid with
  | none => (⟨default, none⟩, p)
  | some ticket =>
      let rest := { p with tickets_ := erase p.tickets_ mail.mid }
      if mail.sender ∈ workers.map some then (ticket, rest) else (⟨default, none⟩, rest)

/-- `Proxy::Relay`. -/
def relay (p : Proxy μ ι) (mail : Mail μ ι α) (worker : ι) : Proxy μ ι × List (Effect μ ι α) :=
  let (newId, p) := p.placeTicket mail
  (p, [.relay worker newId mail])

/-- `Proxy::Reply`. -/
def reply (p : Proxy μ ι) (mail : Mail μ ι α) (workers : List ι) :
    Proxy μ ι × List (Effect μ ι α) :=
  let (ticket, p) := p.extractTicket mail workers
  (p, ticket.reply mail.content)

/-- A response has one reply at most, and no other effect. -/
lemma mem_reply {p : Proxy μ ι} {mail : Mail μ ι α} {workers : List ι} {effect : Effect μ ι α}
    (h : effect ∈ (p.reply mail workers).2) :
    ∃ client id, effect = .reply client id mail.content := by
  have hreply : (p.reply mail workers).2
      = (p.extractTicket mail workers).1.reply mail.content := rfl
  rw [hreply] at h
  cases hto : (p.extractTicket mail workers).1.responseTo with
  | none => simp [Ticket.reply, hto] at h
  | some client => exact ⟨client, _, by simpa [Ticket.reply, hto] using h⟩

lemma length_reply_le (p : Proxy μ ι) (mail : Mail μ ι α) (workers : List ι) :
    (p.reply mail workers).2.length ≤ 1 := by
  have hreply : (p.reply mail workers).2
      = (p.extractTicket mail workers).1.reply mail.content := rfl
  rw [hreply, Ticket.reply]
  split <;> simp

end Proxy

end LoadBalancer

end Cdcf
