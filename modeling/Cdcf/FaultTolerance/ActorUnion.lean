import Mathlib.Data.List.Perm.Basic
import Mathlib.Data.Nat.ModEq
import Mathlib.Data.UInt

/-!
The union of actors (`actor_union.h`, `actor_union.cc`).

A union hands a request to one of its actors.  When the actor answers with a system error it tries
again, and gives up when it has tried more often than `actor_count_` says.  The actors are in a pool
of the actor runtime, a library outside the repository, and `actor_count_` is kept beside it: it is
counted down for every actor that is removed, also for one that is not there.

* `ActorPool`, `LawfulActorPool`: the pool, and what the union relies on: the requests go to its
  workers in turn, and without a worker there is a system error.
* `ActorUnion`, `sendAndReceive`, `step`: the state and the operations.
* `Fulfils`: the law of one call of `SendAndReceive`.
-/

namespace Cdcf

namespace FaultTolerance

/-- `caf::error`: a code and the category that it belongs to. -/
structure CafError where
  code : UInt8
  category : String
  deriving DecidableEq, Repr

/-- `actor_union_error`. -/
inductive ActorUnionError where
  | allActorOutOfWork
  deriving DecidableEq, Repr

/-- The number of an error of the union. -/
def ActorUnionError.code : ActorUnionError → UInt8
  | .allActorOutOfWork => 1

/-- `make_error`. -/
def makeError (x : ActorUnionError) : CafError := ⟨x.code, "act_union"⟩

/-- The answer to a request is a system error: the actor is down, not in disagreement. -/
def isSystemError {ρ : Type*} : Except CafError ρ → Bool
  | .ok _ => false
  | .error err => err.category = "system"

/-! ### The pool -/

/-- `caf::actor_pool` with the policy `round_robin`. -/
class ActorPool (σ : Type*) (ι : outParam Type*) where
  /-- `actor_pool::make`. -/
  make : σ
  /-- `sys_atom, put_atom, actor`. -/
  put : σ → ι → σ
  /-- `sys_atom, delete_atom, actor`. -/
  delete : σ → ι → σ
  workers : σ → List ι
  /-- Where the next request goes. -/
  cursor : σ → ℕ
  /-- A request is handed to a worker, if there is one. -/
  request : σ → Option ι × σ
  /-- The answer when there is none. -/
  noWorker : σ → CafError

/-- What the union relies on. -/
class LawfulActorPool (σ : Type*) {ι : outParam (Type*)} [ActorPool σ ι] [DecidableEq ι] :
    Prop where
  workers_make : ActorPool.workers (ActorPool.make : σ) = []
  workers_put : ∀ (p : σ) a,
    (ActorPool.workers (ActorPool.put p a)).Perm (a :: ActorPool.workers p)
  workers_delete : ∀ (p : σ) a,
    (ActorPool.workers (ActorPool.delete p a)).Perm ((ActorPool.workers p).erase a)
  workers_request : ∀ p : σ, ActorPool.workers (ActorPool.request p).2 = ActorPool.workers p
  request_eq : ∀ p : σ, (ActorPool.request p).1
    = (ActorPool.workers p)[ActorPool.cursor p % (ActorPool.workers p).length]?
  cursor_request : ∀ p : σ, ActorPool.cursor (ActorPool.request p).2
    ≡ ActorPool.cursor p + 1 [MOD (ActorPool.workers p).length]
  isSystem_noWorker : ∀ p : σ, (ActorPool.noWorker p).category = "system"

namespace Sample

/-- A pool as its workers and how many requests it has handed to them. -/
structure Pool where
  workers : List ℕ := []
  handed : ℕ := 0
  deriving DecidableEq, Repr

instance : ActorPool Pool ℕ where
  make := {}
  put := fun p a => { p with workers := p.workers ++ [a] }
  delete := fun p a => { p with workers := p.workers.erase a }
  workers := fun p => p.workers
  cursor := fun p => p.handed
  request := fun p => (p.workers[p.handed % p.workers.length]?, { p with handed := p.handed + 1 })
  noWorker := fun _ => ⟨1, "system"⟩

instance : LawfulActorPool Pool where
  workers_make := rfl
  workers_put := fun p a => List.perm_append_singleton a p.workers
  workers_delete := fun p a => List.Perm.refl (p.workers.erase a)
  workers_request := fun _ => rfl
  request_eq := fun _ => rfl
  cursor_request := fun _ => rfl
  isSystem_noWorker := fun _ => rfl

end Sample

variable {σ ι μ ρ : Type*} [ActorPool σ ι]

/-! ### The union -/

/-- `ActorUnion`: the pool and the number of its actors. -/
structure ActorUnion (σ : Type*) where
  pool_ : σ
  actorCount_ : UInt16
  deriving DecidableEq, Repr

/-- Whose error it is that `handle_error_function` gets. -/
inductive Origin where
  | worker
  | union
  deriving DecidableEq, Repr

/-- A call of one of the two functions that `SendAndReceive` is given. -/
inductive Call (ρ : Type*) where
  | returnFunction (value : ρ)
  | handleErrorFunction (origin : Origin) (err : CafError)
  deriving DecidableEq, Repr

/-- A union in `SendAndReceive`: who has been tried with which answer, and the calls so far. -/
structure Sending (σ ι ρ : Type*) where
  union : ActorUnion σ
  attempts : List (Option ι × Except CafError ρ)
  calls : List (Call ρ)

/-- How the workers answer the attempts, which are numbered from zero. -/
abbrev Answers (ι μ ρ : Type*) := ℕ → ι → μ → Except CafError ρ

namespace Sending

/-- One of the two functions is called. -/
def call (s : Sending σ ι ρ) (c : Call ρ) : Sending σ ι ρ := { s with calls := s.calls ++ [c] }

/-- A request to the pool and the answer to it. -/
def request (answer : Answers ι μ ρ) (msg : μ) (s : Sending σ ι ρ) :
    Except CafError ρ × Sending σ ι ρ :=
  let (worker?, pool) := ActorPool.request s.union.pool_
  let reply :=
    match worker? with
    | some worker => answer s.attempts.length worker msg
    | none => .error (ActorPool.noWorker s.union.pool_)
  (reply, { s with
    union := { s.union with pool_ := pool }
    attempts := s.attempts ++ [(worker?, reply)] })

end Sending

namespace ActorUnion

/-- A new union. -/
def make : ActorUnion σ := ⟨ActorPool.make, 0⟩

/-- `ActorUnion::AddActor`. -/
def addActor (u : ActorUnion σ) (actor : ι) : ActorUnion σ :=
  { u with pool_ := ActorPool.put u.pool_ actor, actorCount_ := u.actorCount_ + 1 }

/-- `ActorUnion::RemoveActor`. -/
def removeActor (u : ActorUnion σ) (actor : ι) : ActorUnion σ :=
  { u with pool_ := ActorPool.delete u.pool_ actor, actorCount_ := u.actorCount_ - 1 }

/-- `ActorUnion::HandleSendFailed`; `retry` is `SendAndReceiveWithTryTime`. -/
def handleSendFailed (retry : UInt16 → Sending σ ι ρ → Option (Sending σ ι ρ)) (err : CafError)
    (hasTryTime : UInt16) (s : Sending σ ι ρ) : Option (Sending σ ι ρ) :=
  if "system" ≠ err.category then some (s.call (.handleErrorFunction .worker err))
  else
    let hasTryTime := hasTryTime + 1
    if hasTryTime ≤ s.union.actorCount_ then retry hasTryTime s
    else some (s.call (.handleErrorFunction .union (makeError .allActorOutOfWork)))

/-- `ActorUnion::SendAndReceiveWithTryTime`, with fuel for the attempts. -/
def sendAndReceiveWithTryTime (answer : Answers ι μ ρ) (msg : μ) :
    ℕ → UInt16 → Sending σ ι ρ → Option (Sending σ ι ρ)
  | 0, _, _ => none
  | fuel + 1, hasTryTime, s =>
      let (reply, s) := s.request answer msg
      match reply with
      | .ok value => some (s.call (.returnFunction value))
      | .error err =>
          handleSendFailed (sendAndReceiveWithTryTime answer msg fuel) err hasTryTime s

/-- `ActorUnion::SendAndReceive`. -/
def sendAndReceive (u : ActorUnion σ) (answer : Answers ι μ ρ) (msg : μ) (fuel : ℕ) :
    Option (Sending σ ι ρ) :=
  sendAndReceiveWithTryTime answer msg fuel 0 ⟨u, [], []⟩

/-- What can have happened to a union before. -/
inductive Op (ι : Type*) where
  | addActor (actor : ι)
  | removeActor (actor : ι)
  /-- An attempt of an earlier call. -/
  | request
  deriving DecidableEq, Repr

/-- One operation. -/
def step (u : ActorUnion σ) : Op ι → ActorUnion σ
  | .addActor actor => u.addActor actor
  | .removeActor actor => u.removeActor actor
  | .request => { u with pool_ := (ActorPool.request u.pool_).2 }

/-- `SendAndReceive` ends, calls one of the two functions once, and reports that all actors are out
of work only after each of them was tried and failed with a system error. -/
def Fulfils (u : ActorUnion σ) (answer : Answers ι μ ρ) (msg : μ) : Prop :=
  ∃ fuel₀ s, (∀ fuel ≥ fuel₀, u.sendAndReceive answer msg fuel = some s) ∧ s.calls.length = 1
    ∧ (.handleErrorFunction .union (makeError .allActorOutOfWork) ∈ s.calls →
      ∀ w ∈ ActorPool.workers u.pool_, ∃ reply, (some w, reply) ∈ s.attempts
        ∧ isSystemError reply = true)

end ActorUnion

end FaultTolerance

end Cdcf
