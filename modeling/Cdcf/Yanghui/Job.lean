import Cdcf.Yanghui.Table

/-!
The jobs that go through the rows in one function (`yanghui_actor.cc`, `fake_counter.cc`,
`LocalYanghuiJob` of `yanghui_example_v2.cc`).

The additions and the comparison at the end are made in place, or by somebody else, who may fail.

* `Handler`: what a function does, which may be left early.
* `Counter`: the interface to who adds and compares; `fakeCounter`: the one without workers.
* `yanghui`, `localYanghuiJob`: the two jobs.
-/

namespace Cdcf

namespace Yanghui

/-- A function that can be left early, over a state of type `σ`. -/
abbrev Handler (σ : Type) := ExceptT Exit (StateM σ)

variable {σ : Type}

/-- The result of a call, if it comes to one, and the state after it. -/
def run (x : Handler σ ℤ) (s : σ) : Option ℤ × σ :=
  match ExceptT.run x s with
  | (.ok r, s') => (some r, s')
  | (.error (.returned r), s') => (some r, s')
  | (.error _, s') => (none, s')

/-! ### Who adds and compares -/

/-- `counter_interface`: both functions return an error, and write the result where they are told
to. -/
structure Counter (σ : Type) where
  addNumber : ℤ → ℤ → Handler σ (ℤ × ℤ)
  compare : List ℤ → Handler σ (ℤ × ℤ)

/-- `FakeCounter`. -/
def fakeCounter : Counter σ where
  addNumber := fun a b => do
    let result ← plus a b
    return (0, result)
  compare := fun numbers => return (0, leastOf intMax numbers)

/-! ### The loops over the rows -/

section

variable (add : ℤ → ℤ → Handler σ ℤ) (data : Table)

/-- The loop over `j`. -/
def nextRow (states : List ℤ) (i : ℕ) (tempStates : List ℤ) : Handler σ (List ℤ) := do
  let mut tempStates := tempStates
  for j in List.range (i + 1) do
    tempStates ← writeInt tempStates j (← nextEntry add data states i j)
  return tempStates

/-- The loop over `k`. -/
def copyRow (tempStates : List ℤ) (i : ℕ) (states : List ℤ) : Handler σ (List ℤ) := do
  let mut states := states
  for k in List.range (i + 1) do
    states ← writeInt states k (← readInt tempStates k)
  return states

/-- The loop over `i`, and what comes before it. -/
def rows (states tempStates : List ℤ) : Handler σ (List ℤ) := do
  let mut states ← writeInt states 0 1
  states ← writeInt states 0 (← readEntry data 0 0)
  let mut tempStates := tempStates
  for i in List.range' 1 (data.length - 1) do
    tempStates ← nextRow add data states i tempStates
    states ← copyRow tempStates i states
  return states

end

/-! ### The jobs -/

/-- `AddNumber` as the loops of `yanghui` use it. -/
def Counter.add (counter : Counter σ) (a b : ℤ) : Handler σ ℤ := do
  let (error, result) ← counter.addNumber a b
  if error ≠ 0 then throw (.returned intMax)
  return result

/-- The handler of `yanghui` for a table. -/
def yanghui (counter : Counter σ) (data : Table) : Handler σ ℤ := do
  let states ← rows counter.add data (List.replicate data.length 0) (List.replicate data.length 0)
  let (error, minSum) ← counter.compare states
  if error ≠ 0 then throw (.returned intMax)
  return minSum

/-- The last loop of `LocalYanghuiJob`. -/
def leastState (n : ℕ) (states : List ℤ) : Handler σ ℤ := do
  let mut minSum := intMax
  for j in List.range n do
    let state ← readInt states j
    if state < minSum then minSum := state
  return minSum

/-- `LocalYanghuiJob`; the arrays hold what was in the memory that `malloc` has returned. -/
def localYanghuiJob (states tempStates : List ℤ) (data : Table) : Handler Unit ℤ := do
  let states ← rows plus data states tempStates
  leastState data.length states

/-- What `LocalYanghuiJob` returns, in memory that holds zeros. -/
def localResult (data : Table) : Option ℤ :=
  (run (localYanghuiJob (List.replicate data.length 0) (List.replicate data.length 0) data) ()).1

/-- The first rows of the test. -/
example : (run (yanghui fakeCounter [[5], [7, 8], [2, 1, 4], [4, 2, 6, 1]]) ()).1 = some 15 := by
  decide

end Yanghui

end Cdcf
