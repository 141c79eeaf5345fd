import Mathlib.Data.List.Basic

/-!
The queue between the node keeper and one of its subscribers (`channel.h`).

* `put` throws on a closed channel, `get` waits for an item or for `close`.
* `get_eq_some`: `get` takes what has waited longest, and changes nothing else; `get_eq_none`: it
  returns false only when the channel is closed and empty.
* `putAll_of_open`: on an open channel a loop of puts appends its items in their order.
-/

namespace Cdcf

/-- `node_keeper::Channel`. -/
structure Channel (Item : Type*) where
  queue : List Item := []
  closed : Bool := false
  deriving DecidableEq, Repr

namespace Channel

variable {Item : Type*}

/-- `Channel::Close`. -/
def close (c : Channel Item) : Channel Item := { c with closed := true }

/-- `Channel::Put`; `none` is the `std::logic_error`. -/
def put (c : Channel Item) (item : Item) : Option (Channel Item) :=
  if c.closed then none else some { c with queue := c.queue ++ [item] }

/-- `Channel::Get`: the item, if any, and the channel afterwards; `none` while the call waits. -/
def get (c : Channel Item) (wait : Bool := true) : Option (Option Item × Channel Item) :=
  match c.queue with
  | item :: queue => some (some item, { c with queue := queue })
  | [] => if wait && !c.closed then none else some (none, c)

/-- A loop of puts, which the first exception ends. -/
def putAll (c : Channel Item) (items : List Item) : Option (Channel Item) := items.foldlM put c

lemma put_of_open {c : Channel Item} (h : c.closed = false) (item : Item) :
    c.put item = some { c with queue := c.queue ++ [item] } := by
  rw [put, h, if_neg Bool.false_ne_true]

/-- `get` takes the item that has waited longest. -/
lemma get_eq_some {c c' : Channel Item} {item : Item} (h : c.get = some (some item, c')) :
    c.queue = item :: c'.queue ∧ c'.closed = c.closed := by
  rw [get] at h
  split at h
  · next item' queue hqueue =>
      cases Option.some.inj h
      exact ⟨hqueue, rfl⟩
  · split at h
    · exact absurd h (by simp)
    · exact absurd h (by simp)

/-- `get` returns false only when the channel is closed and empty. -/
lemma get_eq_none {c c' : Channel Item} (h : c.get = some (none, c')) :
    c.queue = [] ∧ c.closed = true := by
  rw [get] at h
  split at h
  · exact absurd h (by simp)
  · next hqueue =>
      split at h
      · exact absurd h (by simp)
      · next hwait => exact ⟨hqueue, by simpa using hwait⟩

/-- A closed channel still gives what waits in it. -/
lemma get_of_cons {c : Channel Item} {item : Item} {queue : List Item}
    (h : c.queue = item :: queue) : c.get = some (some item, { c with queue := queue }) := by
  rw [get, h]

/-- On an open channel a loop of puts appends its items in their order. -/
lemma putAll_of_open {c : Channel Item} (h : c.closed = false) (items : List Item) :
    c.putAll items = some { c with queue := c.queue ++ items } := by
  induction items generalizing c with
  | nil => rw [List.append_nil]; rfl
  | cons item items ih =>
      have hput : c.putAll (item :: items)
          = putAll { c with queue := c.queue ++ [item] } items := by
        rw [putAll, List.foldlM_cons, put_of_open h]
        rfl
      have htail := ih (c := { c with queue := c.queue ++ [item] }) h
      rw [hput, htail, List.append_assoc, List.singleton_append]

end Channel

end Cdcf
