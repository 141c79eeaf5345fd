import Cdcf.Library.Loop
import Cdcf.Yanghui.Job
import Mathlib

/-!
What the loops over the rows come to.

An invariant `I` of the state stands for whoever adds and compares; where it may fail, the function
is left early with `INT_MAX`.

* `nextRow_spec`, `copyRow_spec`, `rows_spec`: the loops fill the array, row after row.
* `Counter.Lawful`, `yanghui_spec`: the job over a counter that comes to the right results or fails.
* `localYanghuiJob_spec`: the job in place.
-/

namespace Cdcf

namespace Yanghui

open Std.Do Triangle

set_option mvcgen.warning false

variable {σ : Type} {I : σ → Prop} {mayFail : Prop} {add : ℤ → ℤ → Handler σ ℤ} {data : Table}

/-- The function is left with `INT_MAX`. -/
abbrev Fails (I : σ → Prop) (mayFail : Prop) : Exit → Assertion (.arg σ .pure) :=
  fun e s => ⌜I s ∧ mayFail ∧ e = .returned intMax⌝

/-- It adds. -/
def Adds (I : σ → Prop) (mayFail : Prop) (add : ℤ → ℤ → Handler σ ℤ) : Prop :=
  ∀ a b, Fits (a + b) → ⦃fun s => ⌜I s⌝⦄ add a b
    ⦃post⟨fun r s => ⌜I s ∧ r = a + b⌝, Fails I mayFail⟩⦄

lemma nextEntry_spec (hadd : Adds I mayFail add) (h : Triangular data) (hfit : SumsFit data)
    {i j : ℕ} {states : List ℤ} (hi : i + 1 < data.length) (hj : j ≤ i + 1)
    (hstates : Filled data i (i + 1) states) :
    ⦃fun s => ⌜I s⌝⦄ nextEntry add data states (i + 1) j
    ⦃post⟨fun r s => ⌜I s ∧ r = least (entry data) (i + 1) j⌝, Fails I mayFail⟩⦄ := by
  obtain ⟨a, b, heq, hsum⟩ := nextEntry_eq add h hi hj hstates
  rw [heq, ← hsum]
  exact hadd a b (hsum ▸ hfit (i + 1) hi j hj)

lemma nextRow_spec (hadd : Adds I mayFail add) (h : Triangular data) (hfit : SumsFit data)
    {i : ℕ} (hi : i + 1 < data.length) {states tempStates : List ℤ}
    (hstates : Filled data i (i + 1) states) (hlength : tempStates.length = data.length) :
    ⦃fun s => ⌜I s⌝⦄ nextRow add data states (i + 1) tempStates
    ⦃post⟨fun r s => ⌜I s ∧ Filled data (i + 1) (i + 2) r⌝, Fails I mayFail⟩⦄ := by
  have hentry := fun j (hj : j ≤ i + 1) => nextEntry_spec hadd h hfit hi hj hstates
  have hround : ∀ j < i + 2, ∀ r : List ℤ,
      ⦃fun s => ⌜I s ∧ Filled data (i + 1) j r⌝⦄
      (do
        let r' ← writeInt r j (← nextEntry add data states (i + 1) j)
        pure (ForInStep.yield r'))
      ⦃(Loop.Goes (fun r s => ⌜I s ∧ Filled data (i + 1) (j + 1) r⌝), post⟨Fails I mayFail⟩)⦄ := by
    intro j hj r
    mvcgen [hentry, writeInt]
    case vc1.hj => omega
    case vc2.pre hinv => exact hinv.1
    case vc3.post.success.isTrue hinv _ _ hresult _ =>
      exact ⟨hresult.1, hresult.2 ▸ hinv.2.set (by omega)⟩
    case vc4.post.success.isFalse hinv _ _ _ hout =>
      exact absurd (hinv.2.1 ▸ (by omega)) hout
  rw [nextRow]
  refine Triple.bind _ _ (Triple.entails_wp_of_pre (Loop.forIn_range _ hround) ?_) fun r =>
    Triple.pure _ SPred.entails.rfl
  exact fun s hs => ⟨hs, Filled.zero hlength⟩

lemma copyRow_spec (I : σ → Prop) (mayFail : Prop) {i : ℕ} (hi : i < data.length)
    {states tempStates : List ℤ}
    (htemp : Filled data i (i + 1) tempStates) (hlength : states.length = data.length) :
    ⦃fun s => ⌜I s⌝⦄ copyRow tempStates i states
    ⦃post⟨fun r s => ⌜I s ∧ Filled data i (i + 1) r⌝, Fails I mayFail⟩⦄ := by
  have hround : ∀ k < i + 1, ∀ r : List ℤ,
      ⦃fun s => ⌜I s ∧ Filled data i k r⌝⦄
      (do
        let r' ← writeInt r k (← readInt tempStates k)
        pure (ForInStep.yield r') : Handler σ (ForInStep (List ℤ)))
      ⦃(Loop.Goes (fun r s => ⌜I s ∧ Filled data i (k + 1) r⌝), post⟨Fails I mayFail⟩)⦄ := by
    intro k hk r
    rw [readInt_eq (htemp.2 k hk)]
    mvcgen [writeInt]
    case vc1.isTrue hinv _  => exact ⟨hinv.1, hinv.2.set (by omega)⟩
    case vc2.isFalse hinv hout => exact absurd (hinv.2.1 ▸ (by omega)) hout
  rw [copyRow]
  refine Triple.bind _ _ (Triple.entails_wp_of_pre (Loop.forIn_range _ hround) ?_) fun r =>
    Triple.pure _ SPred.entails.rfl
  exact fun s hs => ⟨hs, Filled.zero hlength⟩

lemma rows_spec (hadd : Adds I mayFail add) (h : Triangular data) (hfit : SumsFit data)
    {states tempStates : List ℤ} (hstates : states.length = data.length)
    (htemp : tempStates.length = data.length) :
    ⦃fun s => ⌜I s⌝⦄ rows add data states tempStates
    ⦃post⟨fun r s => ⌜I s ∧ Filled data (data.length - 1) data.length r⌝, Fails I mayFail⟩⦄ := by
  have hpos : 0 < data.length := List.length_pos_of_ne_nil h.ne_nil
  have hround : ∀ i, 1 ≤ i → i < 1 + (data.length - 1) → ∀ r : List ℤ × List ℤ,
      ⦃fun s => ⌜I s ∧ Filled data (i - 1) i r.1 ∧ r.2.length = data.length⌝⦄
      (do
        let tempStates ← nextRow add data r.1 i r.2
        let states ← copyRow tempStates i r.1
        pure (ForInStep.yield (states, tempStates)))
      ⦃(Loop.Goes (fun r s => ⌜I s ∧ Filled data (i + 1 - 1) (i + 1) r.1
        ∧ r.2.length = data.length⌝), post⟨Fails I mayFail⟩)⦄ := by
    intro i hi hlt r
    obtain ⟨k, rfl⟩ := Nat.exists_eq_add_of_le' hi
    have hnext := fun hfilled hlength =>
      @nextRow_spec _ _ _ _ _ hadd h hfit k (by omega) r.1 r.2 hfilled hlength
    have hcopy := fun tempStates hfilled hlength =>
      @copyRow_spec _ data I mayFail (k + 1) (by omega) r.1 tempStates hfilled hlength
    mvcgen [hnext, hcopy]
    case vc1.hfilled hinv => exact hinv.2.1
    case vc2.hlength hinv => exact hinv.2.2
    case vc3.pre hinv => exact hinv.1
    case vc4.hfilled hresult => exact hresult.2
    case vc5.hlength hinv _ _ _ => exact hinv.2.1.1
    case vc6.post.success.pre hresult => exact hresult.1
    case vc7.post.success.post.success hnew _ _ hcopied =>
      exact ⟨hcopied.1, hcopied.2, hnew.2.1⟩
  rw [rows, writeInt_eq (by omega), readEntry_eq h hpos (Nat.le_refl 0), pure_bind, pure_bind,
    writeInt_eq (by rw [List.length_set]; omega), pure_bind]
  refine Triple.bind _ _ (Triple.entails_wp_of_pre (Loop.forIn_range' _ hround) ?_) fun r =>
    Triple.pure _ ?_
  · have hlength : (states.set 0 1).length = data.length := by rw [List.length_set, hstates]
    exact fun s hs => ⟨hs, Filled.first hlength hpos, htemp⟩
  · rw [Nat.add_sub_cancel' (show 1 ≤ data.length from hpos)]
    exact fun s hs => ⟨hs.1, hs.2.1⟩

/-! ### The jobs -/

/-- What a counter comes to: the right result, or an error if it may fail. -/
structure Counter.Lawful (counter : Counter σ) (I : σ → Prop) (mayFail : Prop) : Prop where
  addNumber : ∀ a b, Fits (a + b) → ⦃fun s => ⌜I s⌝⦄ counter.addNumber a b
    ⦃⇓ r s => ⌜I s ∧ (r.1 = 0 → r.2 = a + b) ∧ (r.1 ≠ 0 → mayFail)⌝⦄
  compare : ∀ numbers, numbers ≠ [] → (∀ a ∈ numbers, Fits a) →
    ⦃fun s => ⌜I s⌝⦄ counter.compare numbers
    ⦃⇓ r s => ⌜I s ∧ (r.1 = 0 → IsLeast {a | a ∈ numbers} r.2) ∧ (r.1 ≠ 0 → mayFail)⌝⦄

lemma Counter.Lawful.adds {counter : Counter σ} (h : counter.Lawful I mayFail) :
    Adds I mayFail counter.add := by
  intro a b hfit
  have hnumber := h.addNumber a b hfit
  mvcgen [Counter.add, hnumber]
  case vc2.post.success.isTrue herror _ hresult => exact ⟨hresult.1, hresult.2.2 herror⟩
  case vc3.post.success.isFalse herror _ hresult =>
    exact ⟨hresult.1, hresult.2.1 (not_not.mp herror)⟩

lemma yanghui_spec {counter : Counter σ} (hcounter : counter.Lawful I mayFail)
    (h : Triangular data) (hfit : SumsFit data) :
    ⦃fun s => ⌜I s⌝⦄ yanghui counter data
    ⦃post⟨fun r s => ⌜I s ∧ IsAnswer data r⌝, Fails I mayFail⟩⦄ := by
  have hrows := rows_spec hcounter.adds h hfit (List.length_replicate (n := data.length) (a := 0))
    (List.length_replicate (n := data.length) (a := 0))
  have hcompare := fun states (hfilled : Filled data (data.length - 1) data.length states) =>
    hcounter.compare states (hfilled.ne_nil h) (hfilled.fits hfit)
  mvcgen [yanghui, hrows, hcompare]
  case vc2.hfilled hresult => exact hresult.2
  case vc3.post.success.pre hresult => exact hresult.1
  case vc4.post.success.post.success.isTrue herror _ hresult =>
    exact ⟨hresult.1, hresult.2.2 herror⟩
  case vc5.post.success.post.success.isFalse hfilled _ _ herror _ hresult =>
    exact ⟨hresult.1, isLeast_of_row (hfilled.2.isRow h) (hresult.2.1 (not_not.mp herror))⟩

/-! ### In place -/

lemma adds_plus (I : σ → Prop) (mayFail : Prop) : Adds I mayFail plus := by
  intro a b hfit
  rw [plus_eq hfit]
  exact Triple.pure _ fun s hs => ⟨hs, rfl⟩

lemma leastState_spec (I : σ → Prop) (mayFail : Prop) {states : List ℤ} {P : ℤ → Prop}
    (hP : P (leastOf intMax states)) :
    ⦃fun s => ⌜I s⌝⦄ leastState states.length states
    ⦃post⟨fun r s => ⌜I s ∧ P r⌝, Fails I mayFail⟩⦄ := by
  have hround : ∀ j < states.length, ∀ minSum : ℤ,
      ⦃fun s => ⌜I s ∧ minSum = leastOf intMax (states.take j)⌝⦄
      (do
        let state ← readInt states j
        if state < minSum then pure (ForInStep.yield state)
        else pure (ForInStep.yield minSum) : Handler σ (ForInStep ℤ))
      ⦃(Loop.Goes (fun r s => ⌜I s ∧ r = leastOf intMax (states.take (j + 1))⌝),
        post⟨Fails I mayFail⟩)⦄ := by
    intro j hj minSum
    rw [readInt_eq (List.getElem?_eq_getElem hj), pure_bind]
    have hnext : leastOf intMax (states.take (j + 1))
        = if states[j] < leastOf intMax (states.take j) then states[j]
          else leastOf intMax (states.take j) := by
      rw [← List.take_concat_get' _ _ hj, leastOf_append]
      rfl
    mvcgen
    case vc1.isTrue hlt _ hinv => exact ⟨hinv.1, by rw [hnext, if_pos (hinv.2 ▸ hlt)]⟩
    case vc2.isFalse hlt _ hinv => exact ⟨hinv.1, by rw [hnext, if_neg (hinv.2 ▸ hlt), hinv.2]⟩
  rw [leastState]
  refine Triple.bind _ _ (Triple.entails_wp_of_pre (Loop.forIn_range _ hround) ?_) fun r =>
    Triple.pure _ ?_
  · exact fun s hs => ⟨hs, rfl⟩
  · rw [List.take_length]
    exact fun s hs => ⟨hs.1, hs.2 ▸ hP⟩

lemma localYanghuiJob_spec (h : Triangular data) (hfit : SumsFit data) {states tempStates : List ℤ}
    (hstates : states.length = data.length) (htemp : tempStates.length = data.length) :
    ⦃fun _ => ⌜True⌝⦄ localYanghuiJob states tempStates data
    ⦃post⟨fun r _ => ⌜True ∧ IsAnswer data r⌝, Fails (fun _ => True) False⟩⦄ := by
  have hrows := rows_spec (adds_plus (fun _ : Unit => True) False) h hfit hstates htemp
  refine Triple.bind _ _ hrows fun states => ?_
  rintro s ⟨-, hfilled⟩
  rw [← hfilled.1]
  exact leastState_spec (fun _ => True) False (isLeast_of_row (hfilled.isRow h)
    (isLeast_leastOf_intMax (hfilled.ne_nil h) (hfilled.fits hfit))) s trivial

/-! ### Calls -/

/-- A call comes to a result, which is right, or `INT_MAX` after a failure. -/
lemma run_of_spec {x : Handler σ ℤ} {P : ℤ → Prop}
    (h : ⦃fun s => ⌜I s⌝⦄ x ⦃post⟨fun r s => ⌜I s ∧ P r⌝, Fails I mayFail⟩⦄) {s : σ} (hs : I s) :
    ∃ r s', run x s = (some r, s') ∧ I s' ∧ (P r ∨ mayFail ∧ r = intMax) := by
  have hrun := h s hs
  simp only [wp, PredTrans.apply_pushExcept, PredTrans.apply_pushArg,
    PredTrans.apply_Pure_pure] at hrun
  rcases hx : ExceptT.run x s with ⟨e | r, s'⟩
  · have heq : StateT.run (ExceptT.run x) s = (.error e, s') := hx
    simp only [heq] at hrun
    obtain ⟨hI, hfail, rfl⟩ : I s' ∧ mayFail ∧ e = .returned intMax := hrun
    exact ⟨intMax, s', by rw [run, hx], hI, Or.inr ⟨hfail, rfl⟩⟩
  · have heq : StateT.run (ExceptT.run x) s = (.ok r, s') := hx
    simp only [heq] at hrun
    obtain ⟨hI, hr⟩ : I s' ∧ P r := hrun
    exact ⟨r, s', by rw [run, hx], hI, Or.inl hr⟩

end Yanghui

end Cdcf
