import Mathlib.Data.List.Basic

/-!
Reading frames out of a stream that arrives in chunks.

A decoder takes bytes of the stream, says how many it took, and tells when it holds a whole
frame; the receive loop then hands the frame on and resets the decoder.

* `Decoder`: the operations; `receive`, `receiveAll`: the loop over one chunk and over many.
* `Decoder.Reads`: what a decoder of the frames of a set has to satisfy, one call at a time.
* `receiveAll_frames`: such a decoder finds the frames of the stream again, whatever the way
  the stream was cut.
-/

namespace Cdcf

/-- A decoder with state `σ` of a stream of `β`. -/
structure Decoder (σ β : Type*) where
  /-- How many elements are taken, and the state after that. -/
  decode : σ → List β → ℕ × σ
  /-- A whole frame is held. -/
  isSatisfied : σ → Bool
  /-- Nothing is held. -/
  reset : σ → σ

namespace Decoder

variable {σ β : Type*} (D : Decoder σ β)

/-- The receive loop over one chunk, of at most `n` rounds: the state after the chunk and the
states in which a whole frame was held; `none` when the rounds do not suffice. -/
def receive : ℕ → σ → List β → Option (σ × List σ)
  | _, s, [] => some (s, [])
  | 0, _, _ :: _ => none
  | n + 1, s, b :: data =>
      let (taken, s') := D.decode s (b :: data)
      let rest := (b :: data).drop taken
      if D.isSatisfied s' then
        (receive n (D.reset s') rest).map fun (s'', frames) => (s'', s' :: frames)
      else
        receive n s' rest

/-- The receive loop over the chunks of a stream. -/
def receiveAll (n : ℕ) : σ → List (List β) → Option (σ × List σ)
  | s, [] => some (s, [])
  | s, chunk :: chunks => do
      let (s', frames) ← D.receive n s chunk
      let (s'', frames') ← receiveAll n s' chunks
      return (s'', frames ++ frames')

/-- The decoder reads the frames of a set: `state p` holds the part `p` of a frame.  A call takes
what is there of the current frame and nothing behind it. -/
structure Reads (frame : List β → Prop) (state : List β → σ) : Prop where
  decode : ∀ p a b rest, frame (p ++ a ++ b) → a ++ b ≠ [] → b = [] ∨ rest = [] →
    D.decode (state p) (a ++ rest) = (a.length, state (p ++ a))
  isSatisfied : ∀ p b, frame (p ++ b) → D.isSatisfied (state p) = b.isEmpty
  reset : ∀ f, frame f → D.reset (state f) = state []
  ne_nil : ¬frame []

/-- The part `p` of the first of the frames is read, and not all of it. -/
def Stands (p : List β) : List (List β) → Prop
  | [] => p = []
  | f :: _ => ∃ q, q ≠ [] ∧ f = p ++ q

lemma stands_nil {frame : List β → Prop} (hnil : ¬frame []) {fs : List (List β)}
    (hfs : ∀ f ∈ fs, frame f) : Stands [] fs := by
  cases fs with
  | nil => rfl
  | cons f fs =>
      refine ⟨f, ?_, rfl⟩
      rintro rfl
      exact hnil (hfs [] List.mem_cons_self)

variable {D}

/-- A round that does not reach the end of the frame. -/
lemma Reads.receive_part {frame : List β → Prop} {state : List β → σ} (hD : D.Reads frame state)
    {p data later : List β} (hframe : frame (p ++ data ++ later)) (hlater : later ≠ [])
    {n : ℕ} (hn : data.length ≤ n) : D.receive n (state p) data = some (state (p ++ data), []) := by
  cases data with
  | nil => cases n <;> simp [receive]
  | cons b data =>
      obtain ⟨n, rfl⟩ : ∃ m, n = m + 1 := ⟨n - 1, by simp at hn; omega⟩
      have hdecode := hD.decode p (b :: data) later [] hframe (by simp) (Or.inr rfl)
      have hopen : D.isSatisfied (state (p ++ b :: data)) = false := by
        rw [hD.isSatisfied _ later hframe]
        simpa using hlater
      rw [List.append_nil] at hdecode
      rw [receive, hdecode]
      simp only [hopen, List.drop_length, Bool.false_eq_true, if_false]
      cases n <;> rfl

/-- A round that reaches the end of the frame. -/
lemma Reads.receive_whole {frame : List β → Prop} {state : List β → σ} (hD : D.Reads frame state)
    {p q : List β} (hframe : frame (p ++ q)) (hq : q ≠ []) (rest : List β) (n : ℕ) :
    D.receive (n + 1) (state p) (q ++ rest)
      = (D.receive n (state []) rest).map fun (s, frames) => (s, state (p ++ q) :: frames) := by
  obtain ⟨b, q, rfl⟩ := List.exists_cons_of_ne_nil hq
  have hdecode := hD.decode p (b :: q) [] rest (by simpa using hframe) (by simp) (Or.inl rfl)
  have hdone : D.isSatisfied (state (p ++ b :: q)) = true :=
    hD.isSatisfied _ [] (by simpa using hframe)
  rw [List.cons_append] at hdecode ⊢
  rw [receive, hdecode]
  simp only [hdone, if_true, hD.reset _ hframe]
  rw [← List.cons_append, List.drop_left]

/-- One chunk: the loop hands on the frames that end in it and stands where the chunk ends. -/
lemma Reads.receive_chunk {frame : List β → Prop} {state : List β → σ} (hD : D.Reads frame state)
    {fs : List (List β)} (hfs : ∀ f ∈ fs, frame f) {p data later : List β} {n : ℕ}
    (hp : Stands p fs) (hcut : p ++ (data ++ later) = fs.flatten) (hn : data.length ≤ n) :
    ∃ done rest p', fs = done ++ rest ∧ Stands p' rest ∧ p' ++ later = rest.flatten
      ∧ D.receive n (state p) data = some (state p', done.map state) := by
  induction fs generalizing p data n with
  | nil =>
      rw [List.flatten_nil, List.append_eq_nil_iff, List.append_eq_nil_iff] at hcut
      obtain ⟨rfl, rfl, rfl⟩ := hcut
      exact ⟨[], [], [], rfl, rfl, rfl, by cases n <;> rfl⟩
  | cons f fs ih =>
      obtain ⟨q, hq, rfl⟩ := hp
      have hf := hfs (p ++ q) List.mem_cons_self
      have hfs' : ∀ f ∈ fs, frame f := fun f hf => hfs f (List.mem_cons_of_mem _ hf)
      rw [List.flatten_cons, List.append_assoc, List.append_cancel_left_eq] at hcut
      by_cases hshort : ∃ b, b ≠ [] ∧ q = data ++ b
      · -- the frame does not end in the chunk
        obtain ⟨b, hb, rfl⟩ := hshort
        rw [List.append_assoc, List.append_cancel_left_eq] at hcut
        refine ⟨[], (p ++ (data ++ b)) :: fs, p ++ data, rfl, ⟨b, hb, ?_⟩, ?_, ?_⟩
        · rw [List.append_assoc]
        · rw [hcut, List.flatten_cons]
          simp only [List.append_assoc]
        · rw [← List.append_assoc] at hf
          exact hD.receive_part hf hb hn
      · -- the frame ends in the chunk, and the loop goes on behind it
        have hlong : ∃ c, data = q ++ c ∧ fs.flatten = c ++ later := by
          rcases List.append_eq_append_iff.mp hcut with ⟨b, hb, hlater⟩ | ⟨c, hc, hrest⟩
          · have hnil : b = [] := by
              by_contra hne
              exact hshort ⟨b, hne, hb⟩
            subst hnil
            exact ⟨[], by simp [hb], by simp [hlater]⟩
          · exact ⟨c, hc, hrest⟩
        obtain ⟨c, rfl, hrest⟩ := hlong
        have hpos := List.length_pos_of_ne_nil hq
        rw [List.length_append] at hn
        obtain ⟨m, rfl⟩ : ∃ m, n = m + 1 := ⟨n - 1, by omega⟩
        obtain ⟨done, rest, p', hsplit, hstands, hlater, hrec⟩ :=
          ih hfs' (stands_nil hD.ne_nil hfs') hrest.symm (by omega : c.length ≤ m)
        refine ⟨(p ++ q) :: done, rest, p', ?_, hstands, hlater, ?_⟩
        · rw [hsplit, List.cons_append]
        · rw [hD.receive_whole hf hq, hrec]
          rfl

/-- All chunks, from inside a frame on. -/
lemma Reads.receiveAll_stands {frame : List β → Prop} {state : List β → σ}
    (hD : D.Reads frame state) {n : ℕ} {chunks fs : List (List β)} (hfs : ∀ f ∈ fs, frame f)
    (hn : ∀ chunk ∈ chunks, chunk.length ≤ n) {p : List β} (hp : Stands p fs)
    (hcut : p ++ chunks.flatten = fs.flatten) :
    D.receiveAll n (state p) chunks = some (state [], fs.map state) := by
  induction chunks generalizing p fs with
  | nil =>
      cases fs with
      | nil => rw [show p = [] from hp]; rfl
      | cons f fs =>
          obtain ⟨q, hq, rfl⟩ := hp
          simp [hq] at hcut
  | cons chunk chunks ih =>
      obtain ⟨done, rest, p', rfl, hstands, hlater, hrec⟩ := hD.receive_chunk hfs hp
        hcut (hn chunk List.mem_cons_self)
      have hrest : ∀ f ∈ rest, frame f := fun f hf => hfs f (List.mem_append_right done hf)
      have hchunks := ih hrest (fun c hc => hn c (List.mem_cons_of_mem _ hc)) hstands hlater
      rw [receiveAll, hrec]
      simp [hchunks]

/-- However the stream of the frames was cut, the loop hands on each frame once and in order, and
holds nothing at the end. -/
theorem Reads.receiveAll_frames {frame : List β → Prop} {state : List β → σ}
    (hD : D.Reads frame state) {n : ℕ} {chunks fs : List (List β)} (hfs : ∀ f ∈ fs, frame f)
    (hcut : chunks.flatten = fs.flatten) (hn : ∀ chunk ∈ chunks, chunk.length ≤ n) :
    D.receiveAll n (state []) chunks = some (state [], fs.map state) :=
  hD.receiveAll_stands hfs hn (stands_nil hD.ne_nil hfs) hcut

end Decoder

end Cdcf
