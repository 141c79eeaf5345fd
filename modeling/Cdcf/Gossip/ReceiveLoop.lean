import Cdcf.Gossip.Decoding

/-!
The receive loop of a connection on arbitrary bytes (`gossip/connection.h`).

The handler of `Connection::Start` decodes a chunk from one place to the next, hands on what is
complete, and waits for the next chunk.  An exception in it ends the thread that serves all
connections.

* `receiveFrom`: the loop, from a place of the chunk on; where it has a result, it is that of the
  loop over infallible calls (`receive_of_receiveFrom`).
* `Armed`: the decoders of the connections that wait for a chunk; `Armed.pending` is what is known
  of them.
* `LowLengths`: the condition, that every header announces less than `2 ^ 31`.
* `handles_iff`: a chunk is handled exactly under that condition.
-/

namespace Cdcf

namespace Gossip

open Message

/-- The loop of the handler in `Connection::Start` from the place `decoded` on, of at most `n`
rounds: the place where it ends, the message then held, and what was passed to `on_receive_`.
`connected` tells, for the bytes of the chunk that are left, whether `remote_endpoint` still has a
result. -/
def receiveFrom (connected : ℕ → Bool) : ℕ → Message → ℕ → List UInt8 →
    Option (Except Fault (ℕ × Message × List Message))
  | 0, m, decoded, chunk =>
      if decoded < chunk.length then none else some (.ok (decoded, m, []))
  | n + 1, m, decoded, chunk =>
      if decoded < chunk.length then
        match m.tryDecode (chunk.drop decoded) with
        | .error fault => some (.error fault)
        | .ok (consumed, m') =>
            if m'.isSatisfied then
              if connected (chunk.length - (decoded + consumed)) then
                (receiveFrom connected n m'.reset (decoded + consumed) chunk).map
                  (Except.map fun (last, m'', received) => (last, m'', m' :: received))
              else some (.error .notConnected)
            else receiveFrom connected n m' (decoded + consumed) chunk
      else some (.ok (decoded, m, []))

/-- The message of a connection that waits for a chunk. -/
inductive Armed : Message → Prop
  | start : Armed ⟨[]⟩
  | next {connected : ℕ → Bool} {m m' : Message} {chunk : List UInt8} {n last : ℕ}
      {received : List Message} : Armed m →
      receiveFrom connected n m 0 chunk = some (.ok (last, m', received)) → Armed m'

/-- The handler ends at the end of the chunk without an exception, hands on complete frames only,
and drops none of the bytes that were held and received. -/
def Handles (connected : ℕ → Bool) (m : Message) (chunk : List UInt8) : Prop :=
  ∃ n m' received,
    receiveFrom connected n m 0 chunk = some (.ok (chunk.length, m', received))
      ∧ (∀ frame ∈ received, IsFrame frame)
      ∧ m.buffer_ ++ chunk = (received.map Message.buffer_).flatten ++ m'.buffer_

/-- Every header in a stream announces a length below `2 ^ 31`, except for a last one, with nothing
behind it, whose length wraps round; and the peer is connected at the end of every frame. -/
inductive LowLengths (connected : ℕ → Bool) : List UInt8 → Prop
  | short {bytes : List UInt8} : bytes.length < 5 → LowLengths connected bytes
  | frame {bytes : List UInt8} : announced bytes < 2 ^ 31 →
      (5 + announced bytes ≤ bytes.length →
        connected (bytes.length - (5 + announced bytes)) = true) →
      LowLengths connected (bytes.drop (5 + announced bytes)) → LowLengths connected bytes
  | wrapped {bytes : List UInt8} : bytes.length = 5 → 2 ^ 32 - 5 ≤ announced bytes →
      LowLengths connected bytes

/-! ### The condition -/

variable {connected : ℕ → Bool}

/-- The first frame is passed over. -/
lemma lowLengths_iff_drop {bytes : List UInt8} (hlow : announced bytes < 2 ^ 31)
    (hlen : 5 + announced bytes ≤ bytes.length) :
    LowLengths connected bytes ↔ connected (bytes.length - (5 + announced bytes)) = true
      ∧ LowLengths connected (bytes.drop (5 + announced bytes)) := by
  constructor
  · intro h
    cases h with
    | short hshort => omega
    | frame _ hpeer hrest => exact ⟨hpeer hlen, hrest⟩
    | wrapped _ hhigh => omega
  · rintro ⟨hpeer, hrest⟩
    exact .frame hlow (fun _ => hpeer) hrest

/-- A decoder may wait for more. -/
lemma lowLengths_of_pending {p : List UInt8} (hp : Pending p) : LowLengths connected p := by
  rcases hp with hshort | ⟨hlow, hpart⟩ | ⟨h5, hhigh⟩
  · exact .short hshort
  · refine .frame hlow (fun hlen => by omega) (.short ?_)
    rw [List.length_drop]
    omega
  · exact .wrapped h5 hhigh

/-- What stops a call is against the condition. -/
lemma not_lowLengths_of_negative {bytes : List UInt8} (h : Negative bytes) :
    ¬LowLengths connected bytes := by
  obtain ⟨hlen, hhigh, hwrap⟩ := h
  intro hall
  cases hall with
  | short hshort => omega
  | frame hlow _ _ => omega
  | wrapped h5 hwrapped => exact hwrap ⟨h5, hwrapped⟩

/-! ### The loop -/

variable {m m' : Message} {n decoded consumed last : ℕ} {chunk : List UInt8}
  {received : List Message}

/-- At the end of the chunk the loop ends. -/
lemma receiveFrom_end (hend : ¬decoded < chunk.length) :
    receiveFrom connected n m decoded chunk = some (.ok (decoded, m, [])) := by
  cases n <;> rw [receiveFrom, if_neg hend]

/-- A loop that has a result, and something left to decode, begins with a call that has a result
and goes on behind it. -/
lemma receiveFrom_eq_ok (hmore : decoded < chunk.length)
    (h : receiveFrom connected n m decoded chunk = some (.ok (last, m', received))) :
    ∃ n₁ consumed m₁, n = n₁ + 1 ∧ m.tryDecode (chunk.drop decoded) = .ok (consumed, m₁)
      ∧ (m₁.isSatisfied = true ∧ connected (chunk.length - (decoded + consumed)) = true
          ∧ (∃ received₁, received = m₁ :: received₁
            ∧ receiveFrom connected n₁ ⟨[]⟩ (decoded + consumed) chunk
              = some (.ok (last, m', received₁)))
        ∨ m₁.isSatisfied = false
          ∧ receiveFrom connected n₁ m₁ (decoded + consumed) chunk
            = some (.ok (last, m', received))) := by
  cases n with
  | zero => simp [receiveFrom, hmore] at h
  | succ n =>
      rw [receiveFrom, if_pos hmore] at h
      cases hcall : m.tryDecode (chunk.drop decoded) with
      | error fault => simp [hcall] at h
      | ok result =>
          obtain ⟨consumed, m₁⟩ := result
          simp only [hcall] at h
          refine ⟨n, consumed, m₁, rfl, rfl, ?_⟩
          cases hdone : m₁.isSatisfied with
          | false => exact Or.inr ⟨rfl, by simpa [hdone] using h⟩
          | true =>
              cases hpeer : connected (chunk.length - (decoded + consumed)) with
              | false => simp [hdone, hpeer] at h
              | true =>
                  rw [hdone, hpeer, if_pos rfl, if_pos rfl, Option.map_eq_some_iff] at h
                  obtain ⟨outcome, hrest, hresult⟩ := h
                  cases outcome with
                  | error fault => simp [Except.map] at hresult
                  | ok result =>
                      obtain ⟨last₁, m₂, received₁⟩ := result
                      obtain ⟨rfl, rfl, rfl⟩ := by simpa [Except.map] using hresult
                      exact Or.inl ⟨rfl, rfl, received₁, rfl, hrest⟩

/-- The rule for a loop that has a result: what holds at the end of the chunk, and of a round where
it holds of the rounds behind, holds of the loop. -/
lemma receiveFrom_induction {motive : ℕ → Message → ℕ → List Message → Prop}
    (hend : ∀ n {decoded}, ¬decoded < chunk.length → motive n m' decoded [])
    (hframe : ∀ {n m decoded consumed m₁ received}, decoded < chunk.length →
      m.tryDecode (chunk.drop decoded) = .ok (consumed, m₁) → m₁.isSatisfied = true →
      motive n ⟨[]⟩ (decoded + consumed) received → motive (n + 1) m decoded (m₁ :: received))
    (hpart : ∀ {n m decoded consumed m₁ received}, decoded < chunk.length →
      m.tryDecode (chunk.drop decoded) = .ok (consumed, m₁) → m₁.isSatisfied = false →
      motive n m₁ (decoded + consumed) received → motive (n + 1) m decoded received)
    (h : receiveFrom connected n m decoded chunk = some (.ok (last, m', received))) :
    motive n m decoded received := by
  induction n generalizing m decoded received with
  | zero =>
      by_cases hmore : decoded < chunk.length
      · obtain ⟨n₁, -, -, hn, -⟩ := receiveFrom_eq_ok hmore h
        omega
      · rw [receiveFrom_end hmore] at h
        obtain ⟨-, rfl, rfl⟩ := by simpa using h
        exact hend 0 hmore
  | succ n ih =>
      by_cases hmore : decoded < chunk.length
      · obtain ⟨n₁, consumed, m₁, hn, hcall, hrest⟩ := receiveFrom_eq_ok hmore h
        obtain rfl : n = n₁ := by omega
        rcases hrest with ⟨hdone, -, received₁, rfl, hrest⟩ | ⟨hopen, hrest⟩
        · exact hframe hmore hcall hdone (ih hrest)
        · exact hpart hmore hcall hopen (ih hrest)
      · rw [receiveFrom_end hmore] at h
        obtain ⟨-, rfl, rfl⟩ := by simpa using h
        exact hend (n + 1) hmore

/-- A round of the loop over infallible calls, from the place `decoded` on. -/
lemma receive_round {m₁ : Message} (hmore : decoded < chunk.length)
    (hcall : m.tryDecode (chunk.drop decoded) = .ok (consumed, m₁)) :
    connection.receive (n + 1) m (chunk.drop decoded)
      = if m₁.isSatisfied then
          (connection.receive n ⟨[]⟩ (chunk.drop (decoded + consumed))).map
            fun (m', received) => (m', m₁ :: received)
        else connection.receive n m₁ (chunk.drop (decoded + consumed)) := by
  obtain ⟨b, data, hdata⟩ : ∃ b data, chunk.drop decoded = b :: data :=
    List.exists_cons_of_ne_nil (by simpa using hmore)
  have hdecode : connection.decode m (b :: data) = (consumed, m₁) :=
    hdata ▸ decode_of_tryDecode hcall
  have hdrop : (b :: data).drop consumed = chunk.drop (decoded + consumed) := by
    rw [← hdata, List.drop_drop]
  rw [hdata, Decoder.receive, hdecode]
  simp only [hdrop]
  rfl

/-- Where it has a result, the loop is the one that knows of no faults. -/
lemma receive_of_receiveFrom
    (h : receiveFrom connected n m decoded chunk = some (.ok (last, m', received))) :
    connection.receive n m (chunk.drop decoded) = some (m', received) := by
  refine receiveFrom_induction (motive := fun n m decoded received =>
    connection.receive n m (chunk.drop decoded) = some (m', received)) ?_ ?_ ?_ h
  · intro n decoded hend
    rw [List.drop_of_length_le (by omega)]
    cases n <;> rfl
  · intro n m decoded consumed m₁ received hmore hcall hdone ih
    rw [receive_round hmore hcall, if_pos hdone, ih]
    rfl
  · intro n m decoded consumed m₁ received hmore hcall hopen ih
    rw [receive_round hmore hcall, if_neg (Bool.eq_false_iff.mp hopen), ih]

/-- The handler does so from the place `decoded` on. -/
def HandlesFrom (connected : ℕ → Bool) (m : Message) (decoded : ℕ) (chunk : List UInt8) :
    Prop :=
  ∃ n m' received,
    receiveFrom connected n m decoded chunk = some (.ok (chunk.length, m', received))
      ∧ (∀ frame ∈ received, IsFrame frame)
      ∧ m.buffer_ ++ chunk.drop decoded = (received.map Message.buffer_).flatten ++ m'.buffer_

/-- Nothing is left to handle at the end of the chunk. -/
lemma handlesFrom_end (m : Message) (chunk : List UInt8) :
    HandlesFrom connected m chunk.length chunk :=
  ⟨0, m, [], receiveFrom_end (lt_irrefl _), by simp, by simp⟩

/-- A round with a fault is the last. -/
lemma not_handlesFrom_of_error {fault : Fault} (hmore : decoded < chunk.length)
    (hcall : m.tryDecode (chunk.drop decoded) = .error fault) :
    ¬HandlesFrom connected m decoded chunk := by
  rintro ⟨n, m', received, h, -, -⟩
  obtain ⟨n₁, consumed, m₁, -, hok, -⟩ := receiveFrom_eq_ok hmore h
  rw [hcall] at hok
  simp at hok

/-- A round that takes everything that is left, and completes nothing, is the last. -/
lemma handlesFrom_of_part (hmore : decoded < chunk.length)
    (hcall : m.tryDecode (chunk.drop decoded)
      = .ok ((chunk.drop decoded).length, ⟨m.buffer_ ++ chunk.drop decoded⟩))
    (hopen : isSatisfied ⟨m.buffer_ ++ chunk.drop decoded⟩ = false) :
    HandlesFrom connected m decoded chunk := by
  have hlast : decoded + (chunk.length - decoded) = chunk.length := by omega
  refine ⟨1, ⟨m.buffer_ ++ chunk.drop decoded⟩, [], ?_, by simp, by simp⟩
  simp [receiveFrom, hmore, hcall, hopen, hlast]

/-- A round that completes a frame leaves the rest of the chunk to the others. -/
lemma handlesFrom_iff_of_frame (hmore : decoded < chunk.length)
    (hcall : m.tryDecode (chunk.drop decoded) = .ok (consumed, m')) (hdone : m'.isSatisfied = true)
    (hframe : IsFrame m')
    (hsplit : m.buffer_ ++ chunk.drop decoded = m'.buffer_ ++ chunk.drop (decoded + consumed)) :
    HandlesFrom connected m decoded chunk
      ↔ connected (chunk.length - (decoded + consumed)) = true
        ∧ HandlesFrom connected ⟨[]⟩ (decoded + consumed) chunk := by
  constructor
  · rintro ⟨n, m'', received, h, hframes, hbytes⟩
    obtain ⟨n₁, consumed₁, m₁, -, hcall₁, hrest⟩ := receiveFrom_eq_ok hmore h
    rw [hcall] at hcall₁
    obtain ⟨rfl, rfl⟩ := Prod.mk.inj (Except.ok.inj hcall₁)
    rcases hrest with ⟨-, hpeer, received₁, rfl, hrest⟩ | ⟨hopen, -⟩
    · refine ⟨hpeer, n₁, m'', received₁, hrest,
        fun frame hmem => hframes frame (List.mem_cons_of_mem _ hmem), ?_⟩
      rw [hsplit, List.map_cons, List.flatten_cons, List.append_assoc,
        List.append_cancel_left_eq] at hbytes
      rw [List.nil_append, hbytes]
    · rw [hdone] at hopen
      simp at hopen
  · rintro ⟨hpeer, n, m'', received, h, hframes, hbytes⟩
    refine ⟨n + 1, m'', m' :: received, ?_, ?_, ?_⟩
    · rw [receiveFrom, if_pos hmore, hcall]
      simp only [hdone, hpeer, if_true]
      rw [show m'.reset = ⟨[]⟩ from rfl, h]
      rfl
    · intro frame hmem
      rcases List.mem_cons.mp hmem with rfl | hmem
      · exact hframe
      · exact hframes frame hmem
    · rw [List.nil_append] at hbytes
      rw [hsplit, hbytes, List.map_cons, List.flatten_cons, List.append_assoc]

/-- From any place of a chunk on, the condition on what is held and left decides. -/
lemma handlesFrom_iff {p : List UInt8} (hp : Pending p) (hle : decoded ≤ chunk.length) :
    HandlesFrom connected ⟨p⟩ decoded chunk ↔ LowLengths connected (p ++ chunk.drop decoded) := by
  induction hleft : chunk.length - decoded using Nat.strongRecOn generalizing p decoded with
  | ind left ih =>
      by_cases hmore : decoded < chunk.length
      · have hdata : chunk.drop decoded ≠ [] := by simpa using hmore
        rcases tryDecode_cases hp hdata with
          ⟨fault, hcall, hnegative⟩ | ⟨hcall, hwait⟩ | ⟨hlow, hwhole, hpart, hcall⟩
        · exact iff_of_false (not_handlesFrom_of_error hmore hcall)
            (not_lowLengths_of_negative hnegative)
        · exact iff_of_true (handlesFrom_of_part hmore hcall hwait.isSatisfied)
            (lowLengths_of_pending hwait)
        · -- a frame is complete, and the rest of the chunk is shorter
          have happend : (p ++ chunk.drop decoded).length
              = p.length + (chunk.drop decoded).length := List.length_append
          rw [List.length_drop] at happend
          have hrest : (p ++ chunk.drop decoded).drop (5 + announced (p ++ chunk.drop decoded))
              = chunk.drop (decoded + (5 + announced (p ++ chunk.drop decoded) - p.length)) := by
            rw [List.drop_append, List.drop_of_length_le (by omega), List.nil_append,
              List.drop_drop]
          have hsplit : p ++ chunk.drop decoded
              = (p ++ chunk.drop decoded).take (5 + announced (p ++ chunk.drop decoded))
                ++ chunk.drop (decoded + (5 + announced (p ++ chunk.drop decoded) - p.length)) := by
            rw [← hrest, List.take_append_drop]
          have hbelow := ih _ (by omega) (show Pending [] from Or.inl (by simp)) (by omega)
            (rfl : chunk.length
              - (decoded + (5 + announced (p ++ chunk.drop decoded) - p.length)) = _)
          have hbehind : chunk.length
              - (decoded + (5 + announced (p ++ chunk.drop decoded) - p.length))
              = (p ++ chunk.drop decoded).length - (5 + announced (p ++ chunk.drop decoded)) := by
            omega
          rw [handlesFrom_iff_of_frame hmore hcall (isSatisfied_take hlow hwhole)
              (isFrame_take hwhole) hsplit,
            lowLengths_iff_drop hlow hwhole, hrest, hbelow, List.nil_append, hbehind]
      · obtain rfl : decoded = chunk.length := by omega
        refine iff_of_true (handlesFrom_end _ _) ?_
        rw [List.drop_length, List.append_nil]
        exact lowLengths_of_pending hp

/-! ### The connections that wait -/

/-- A call that completes nothing leaves a decoder that waits for more. -/
lemma pending_of_tryDecode (hp : Pending m.buffer_) (hmore : decoded < chunk.length)
    (hcall : m.tryDecode (chunk.drop decoded) = .ok (consumed, m'))
    (hopen : m'.isSatisfied = false) : Pending m'.buffer_ := by
  rcases tryDecode_cases hp (by simpa using hmore : chunk.drop decoded ≠ []) with
    ⟨fault, hfault, -⟩ | ⟨hpart, hwait⟩ | ⟨hlow, hwhole, -, hframe⟩
  · rw [hfault] at hcall
    simp at hcall
  · rw [hpart] at hcall
    obtain ⟨-, rfl⟩ := Prod.mk.inj (Except.ok.inj hcall)
    exact hwait
  · rw [hframe] at hcall
    obtain ⟨-, rfl⟩ := Prod.mk.inj (Except.ok.inj hcall)
    rw [isSatisfied_take hlow hwhole] at hopen
    simp at hopen

/-- The loop leaves a decoder that waits for more. -/
lemma pending_of_receiveFrom (hp : Pending m.buffer_)
    (h : receiveFrom connected n m decoded chunk = some (.ok (last, m', received))) :
    Pending m'.buffer_ := by
  refine receiveFrom_induction (motive := fun _ m _ _ => Pending m.buffer_ → Pending m'.buffer_)
    ?_ ?_ ?_ h hp
  · intro _ _ _ hwait
    exact hwait
  · intro _ _ _ _ _ _ _ _ _ ih _
    exact ih (Or.inl (by simp))
  · intro _ m decoded consumed m₁ _ hmore hcall hopen ih hwait
    exact ih (pending_of_tryDecode hwait hmore hcall hopen)

/-- A connection that waits holds less than a frame. -/
lemma Armed.pending (h : Armed m) : Pending m.buffer_ := by
  induction h with
  | start => exact Or.inl (by simp)
  | next _ hloop ih => exact pending_of_receiveFrom ih hloop

/-- Whatever a connection has received, it handles a chunk exactly when every header in what it
holds and receives announces a length below `2 ^ 31`, and the peer stays connected until the last
frame has been handed on. -/
theorem handles_iff (hm : Armed m) (connected : ℕ → Bool) (chunk : List UInt8) :
    Handles connected m chunk ↔ LowLengths connected (m.buffer_ ++ chunk) :=
  handlesFrom_iff hm.pending (Nat.zero_le _)

/-- A new connection handles an empty frame and the first bytes of another. -/
theorem handles_empty_frame : Handles (fun _ => true) ⟨[]⟩ [0, 0, 0, 0, 1, 0, 0] :=
  (handles_iff .start _ _).mpr (.frame (by decide) (fun _ => rfl) (.short (by decide)))

/-- The first byte of a peer can announce a length that throws in a new connection. -/
theorem not_handles_sign_bit :
    Armed ⟨[]⟩
      ∧ receiveFrom (fun _ => true) 1 ⟨[]⟩ 0 [0x80, 0, 0, 0, 0] = some (.error .lengthError)
      ∧ ¬Handles (fun _ => true) ⟨[]⟩ [0x80, 0, 0, 0, 0] := by
  have hcall : tryDecode ⟨[]⟩ [0x80, 0, 0, 0, 0] = .error .lengthError :=
    tryDecode_high (by decide) (by decide) (by decide) (by decide)
  refine ⟨.start, ?_, ?_⟩
  · rw [receiveFrom, if_pos (by decide), List.drop_zero, hcall]
  · show ¬HandlesFrom (fun _ => true) ⟨[]⟩ 0 [0x80, 0, 0, 0, 0]
    exact not_handlesFrom_of_error (by decide) hcall

end Gossip

end Cdcf
