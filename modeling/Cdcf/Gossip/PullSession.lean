import Cdcf.Gossip.Decoding

/-!
Reading the answer to a pull (`gossip/pull_session.h`).

A session reads chunks until its message is complete, and calls `did_pull` or returns.  The two
modes have a loop each.  The one that returns leaves its loop when the message is complete; the one
that calls back stays in it until the chunk is decoded, and asks for another chunk in every round
that does not complete the message.

The end of the stream is a read of no bytes, as the source tests it.

* `readMessage`, `readMessageAsync`: the two modes, on the chunks that arrive before the end of the
  stream.
* `CompletesOnce`: `did_pull` is called once, with what the other mode returns.
* `EndsInChunk`: the condition on the chunks; `completesOnce_iff`: it is exact.
-/

namespace Cdcf

namespace Gossip

/-- `gossip::ErrorCode`. -/
inductive ErrorCode where
  | kOK
  | kUnknown
  | kHostNotFound
deriving DecidableEq, Repr

/-- `Pullable::PullResult`. -/
abbrev PullResult := ErrorCode × List UInt8

namespace PullSession

open Message

/-- The loop of `ReadMessage` over a chunk, from the place `decoded` on and of at most `n` rounds:
the message then held, and whether it is returned. -/
def decodeChunk : ℕ → Message → ℕ → List UInt8 → Option (Except Fault (Message × Bool))
  | 0, m, decoded, chunk => if decoded < chunk.length then none else some (.ok (m, false))
  | n + 1, m, decoded, chunk =>
      if decoded < chunk.length then
        match m.tryDecode (chunk.drop decoded) with
        | .error fault => some (.error fault)
        | .ok (consumed, m') =>
            if m'.isSatisfied then some (.ok (m', true))
            else decodeChunk n m' (decoded + consumed) chunk
      else some (.ok (m, false))

/-- `ReadMessage` on the chunks before the end of the stream. -/
def readMessage (n : ℕ) : Message → List (List UInt8) →
    Option (Except Fault (Option Message))
  | _, [] => some (.ok none)
  | m, chunk :: chunks =>
      if chunk.length = 0 then some (.ok none)
      else
        match decodeChunk n m 0 chunk with
        | none => none
        | some (.error fault) => some (.error fault)
        | some (.ok (m', true)) => some (.ok (some m'))
        | some (.ok (m', false)) => readMessage n m' chunks

/-- The result of `RequestSync` for the message that is read. -/
def pullResult : Option Message → PullResult
  | some m => (.kOK, m.data)
  | none => (.kUnknown, [])

/-- `RequestSync`, from where the request has been sent. -/
def requestSync (n : ℕ) (m : Message) (chunks : List (List UInt8)) :
    Option (Except Fault PullResult) :=
  (readMessage n m chunks).map (Except.map pullResult)

/-- The loop in the handler of `ReadMessageAsync` over a chunk: the message then held, how many
reads it has started, and its calls of `did_pull`. -/
def decodeChunkAsync : ℕ → Message → ℕ → List UInt8 →
    Option (Except Fault (Message × ℕ × List PullResult))
  | 0, m, decoded, chunk => if decoded < chunk.length then none else some (.ok (m, 0, []))
  | n + 1, m, decoded, chunk =>
      if decoded < chunk.length then
        match m.tryDecode (chunk.drop decoded) with
        | .error fault => some (.error fault)
        | .ok (consumed, m') =>
            (decodeChunkAsync n m' (decoded + consumed) chunk).map
              (Except.map fun (m'', reads, results) =>
                if m'.isSatisfied then (m'', reads, (.kOK, m'.data) :: results)
                else (m'', reads + 1, results))
      else some (.ok (m, 0, []))

/-- `ReadMessageAsync` with so many reads started, on the chunks before the end of the stream: the
calls of `did_pull`.  Each read gets one chunk, or the end of the stream. -/
def readMessageAsync (n : ℕ) : ℕ → Message → List (List UInt8) →
    Option (Except Fault (List PullResult))
  | 0, _, _ => some (.ok [])
  | reads + 1, _, [] => some (.ok (List.replicate (reads + 1) (.kUnknown, [])))
  | reads + 1, m, chunk :: chunks =>
      if chunk.length = 0 then
        (readMessageAsync n reads m chunks).map (Except.map ((.kUnknown, []) :: ·))
      else
        match decodeChunkAsync n m 0 chunk with
        | none => none
        | some (.error fault) => some (.error fault)
        | some (.ok (m', more, results)) =>
            (readMessageAsync n (reads + more) m' chunks).map (Except.map (results ++ ·))

/-- Both modes end, and `did_pull` is called once with the result that is returned. -/
def CompletesOnceFrom (m : Message) (chunks : List (List UInt8)) : Prop :=
  ∃ n result, requestSync (n + 1) m chunks = some (.ok result)
    ∧ readMessageAsync (n + 1) 1 m chunks = some (.ok [result])

/-- The answer that arrives in these chunks completes a new session once. -/
def CompletesOnce (chunks : List (List UInt8)) : Prop := CompletesOnceFrom ⟨[]⟩ chunks

/-- The stream ends in a part of a frame, or the frame ends with a chunk. -/
def EndsInChunk : List UInt8 → List (List UInt8) → Prop
  | _, [] => True
  | p, chunk :: chunks =>
      chunk = []
        ∨ Pending (p ++ chunk) ∧ EndsInChunk (p ++ chunk) chunks
        ∨ announced (p ++ chunk) < 2 ^ 31
          ∧ (p ++ chunk).length = 5 + announced (p ++ chunk)

variable {p chunk : List UInt8} {chunks : List (List UInt8)}

/-! ### A session that is done -/

/-- Without a read, nothing more arrives. -/
lemma readMessageAsync_zero (n : ℕ) (m : Message) (chunks : List (List UInt8)) :
    readMessageAsync n 0 m chunks = some (.ok []) := by
  cases chunks <;> rfl

/-- Once the message is complete, decoding stands still. -/
lemma tryDecode_of_isSatisfied {m : Message} (h : m.isSatisfied = true) (data : List UInt8) :
    m.tryDecode data = .ok (0, m) := by
  rw [tryDecode, if_pos h]

/-- With something left behind a complete message, the loop of the handler does not end. -/
lemma decodeChunkAsync_of_isSatisfied {m : Message} (h : m.isSatisfied = true) {decoded : ℕ}
    (hmore : decoded < chunk.length) (n : ℕ) : decodeChunkAsync n m decoded chunk = none := by
  induction n with
  | zero => rw [decodeChunkAsync, if_pos hmore]
  | succ n ih =>
      rw [decodeChunkAsync, if_pos hmore, tryDecode_of_isSatisfied h]
      simp only [Nat.add_zero, ih, Option.map_none]

/-! ### One chunk -/

/-- A chunk that does not complete the message leaves one read waiting. -/
lemma completesOnceFrom_part (hchunk : chunk ≠ [])
    (hcall : tryDecode ⟨p⟩ chunk = .ok (chunk.length, ⟨p ++ chunk⟩))
    (hopen : isSatisfied ⟨p ++ chunk⟩ = false) :
    CompletesOnceFrom ⟨p⟩ (chunk :: chunks) ↔ CompletesOnceFrom ⟨p ++ chunk⟩ chunks := by
  have hpos := List.length_pos_of_ne_nil hchunk
  have hne : ¬chunk.length = 0 := by omega
  have hsync : ∀ n, decodeChunk (n + 1) ⟨p⟩ 0 chunk = some (.ok (⟨p ++ chunk⟩, false)) := by
    intro n
    rw [decodeChunk, if_pos hpos, List.drop_zero, hcall]
    simp only [hopen, Bool.false_eq_true, if_false, Nat.zero_add]
    cases n <;> simp [decodeChunk]
  have hasync : ∀ n, decodeChunkAsync (n + 1) ⟨p⟩ 0 chunk
      = some (.ok (⟨p ++ chunk⟩, 1, [])) := by
    intro n
    rw [decodeChunkAsync, if_pos hpos, List.drop_zero, hcall]
    simp only [hopen, Bool.false_eq_true, if_false, Nat.zero_add]
    cases n <;> simp [decodeChunkAsync, Except.map]
  have hstep : ∀ n, requestSync (n + 1) ⟨p⟩ (chunk :: chunks)
        = requestSync (n + 1) ⟨p ++ chunk⟩ chunks
      ∧ readMessageAsync (n + 1) 1 ⟨p⟩ (chunk :: chunks)
        = readMessageAsync (n + 1) 1 ⟨p ++ chunk⟩ chunks := by
    intro n
    constructor
    · rw [requestSync, readMessage, if_neg hne, hsync]
      rfl
    · rw [readMessageAsync, if_neg hne, hasync]
      show (readMessageAsync (n + 1) 1 ⟨p ++ chunk⟩ chunks).map _ = _
      cases readMessageAsync (n + 1) 1 ⟨p ++ chunk⟩ chunks with
      | none => rfl
      | some outcome => cases outcome <;> rfl
  refine exists_congr fun n => exists_congr fun result => ?_
  rw [(hstep n).1, (hstep n).2]

/-- A chunk that stops a call completes nothing. -/
lemma not_completesOnceFrom_of_error {fault : Fault} (hchunk : chunk ≠ [])
    (hcall : tryDecode ⟨p⟩ chunk = .error fault) :
    ¬CompletesOnceFrom ⟨p⟩ (chunk :: chunks) := by
  have hpos := List.length_pos_of_ne_nil hchunk
  have hne : ¬chunk.length = 0 := by omega
  rintro ⟨n, result, hs, -⟩
  rw [requestSync, readMessage, if_neg hne, decodeChunk, if_pos hpos, List.drop_zero, hcall] at hs
  simp [Except.map] at hs

/-- A chunk that completes the message completes the session once if it ends there. -/
lemma completesOnceFrom_frame {m' : Message} {consumed : ℕ} (hchunk : chunk ≠ [])
    (hcall : tryDecode ⟨p⟩ chunk = .ok (consumed, m')) (hdone : m'.isSatisfied = true)
    (hle : consumed ≤ chunk.length) :
    CompletesOnceFrom ⟨p⟩ (chunk :: chunks) ↔ consumed = chunk.length := by
  have hpos := List.length_pos_of_ne_nil hchunk
  have hne : ¬chunk.length = 0 := by omega
  have hasync : ∀ n, decodeChunkAsync (n + 1) ⟨p⟩ 0 chunk
      = (decodeChunkAsync n m' consumed chunk).map
          (Except.map fun (m'', reads, results) => (m'', reads, (.kOK, m'.data) :: results)) := by
    intro n
    rw [decodeChunkAsync, if_pos hpos, List.drop_zero, hcall]
    simp only [hdone, if_true, Nat.zero_add]
  constructor
  · rintro ⟨n, result, -, ha⟩
    by_contra hbehind
    rw [readMessageAsync, if_neg hne, hasync,
      decodeChunkAsync_of_isSatisfied hdone (by omega)] at ha
    simp at ha
  · rintro rfl
    refine ⟨0, (.kOK, m'.data), ?_, ?_⟩
    · rw [requestSync, readMessage, if_neg hne, decodeChunk, if_pos hpos, List.drop_zero, hcall]
      simp only [hdone, if_true]
      rfl
    · rw [readMessageAsync, if_neg hne, hasync, decodeChunkAsync, if_neg (lt_irrefl _)]
      simp [Except.map, readMessageAsync_zero]

/-! ### All chunks -/

/-- The end of the stream completes a session that waits. -/
lemma completesOnceFrom_nil (m : Message) : CompletesOnceFrom m [] := ⟨0, _, rfl, rfl⟩

/-- So does a read of no bytes. -/
lemma completesOnceFrom_empty (m : Message) (chunks : List (List UInt8)) :
    CompletesOnceFrom m ([] :: chunks) := by
  refine ⟨0, _, rfl, ?_⟩
  rw [readMessageAsync, if_pos List.length_nil, readMessageAsync_zero]
  rfl

/-- Whatever part of a frame is held, the condition on what is held and arrives decides. -/
lemma completesOnceFrom_iff (hp : Pending p) (chunks : List (List UInt8)) :
    CompletesOnceFrom ⟨p⟩ chunks ↔ EndsInChunk p chunks := by
  induction chunks generalizing p with
  | nil => exact iff_of_true (completesOnceFrom_nil _) trivial
  | cons chunk chunks ih =>
      by_cases hchunk : chunk = []
      · subst hchunk
        exact iff_of_true (completesOnceFrom_empty _ _) (Or.inl rfl)
      · simp only [EndsInChunk, hchunk, false_or]
        rcases tryDecode_cases hp hchunk with
          ⟨fault, hcall, hlen, hhigh, hwrap⟩ | ⟨hcall, hwait⟩ | ⟨hlow, hwhole, hpart, hcall⟩
        · refine iff_of_false (not_completesOnceFrom_of_error hchunk hcall) ?_
          rintro (⟨hshort | ⟨hlow, -⟩ | hwrap', -⟩ | ⟨hlow, -⟩)
          · omega
          · omega
          · exact hwrap hwrap'
          · omega
        · rw [completesOnceFrom_part hchunk hcall hwait.isSatisfied, ih hwait]
          refine ⟨fun h => Or.inl ⟨hwait, h⟩, ?_⟩
          rintro (⟨-, h⟩ | ⟨hlow, hwhole⟩)
          · exact h
          · rcases hwait with hshort | ⟨-, hpart⟩ | ⟨-, hhigh⟩ <;> omega
        · have happend : (p ++ chunk).length = p.length + chunk.length := List.length_append
          rw [completesOnceFrom_frame hchunk hcall (isSatisfied_take hlow hwhole) (by omega)]
          constructor
          · exact fun hend => Or.inr ⟨hlow, by omega⟩
          · rintro (⟨hshort | ⟨-, hpart'⟩ | ⟨-, hhigh⟩, -⟩ | ⟨-, hend⟩) <;> omega

/-- Whatever the peer sends and however it is cut, `did_pull` is called once and with what the other
mode returns exactly when the stream ends in a part of a frame, or the frame ends with a chunk. -/
theorem completesOnce_iff (chunks : List (List UInt8)) :
    CompletesOnce chunks ↔ EndsInChunk [] chunks :=
  completesOnceFrom_iff (Or.inl (by simp)) chunks

/-- With one byte behind the frame, the one mode returns the payload, and the other does not end. -/
theorem not_completesOnce_byte_behind :
    requestSync 1 ⟨[]⟩ [[0, 0, 0, 1, 2, 42, 0]] = some (.ok (.kOK, [42]))
      ∧ (∀ n, readMessageAsync n 1 ⟨[]⟩ [[0, 0, 0, 1, 2, 42, 0]] = none)
      ∧ ¬CompletesOnce [[0, 0, 0, 1, 2, 42, 0]] := by
  have hlength : announced ([] ++ [0, 0, 0, 1, 2, 42, 0]) = 1 := by decide
  have hcall : tryDecode ⟨[]⟩ [0, 0, 0, 1, 2, 42, 0] = .ok (6, ⟨[0, 0, 0, 1, 2, 42]⟩) := by
    have hlow : tryDecode ⟨[]⟩ [0, 0, 0, 1, 2, 42, 0] = _ :=
      tryDecode_low (by decide) (by decide) (by decide)
    rw [hlength] at hlow
    exact hlow
  have hdone : isSatisfied ⟨[0, 0, 0, 1, 2, 42]⟩ = true := by decide
  have hstays : ∀ n,
      decodeChunkAsync n ⟨[0, 0, 0, 1, 2, 42]⟩ (0 + 6) [0, 0, 0, 1, 2, 42, 0] = none :=
    decodeChunkAsync_of_isSatisfied hdone (by decide)
  have hasync : ∀ n, readMessageAsync n 1 ⟨[]⟩ [[0, 0, 0, 1, 2, 42, 0]] = none := by
    intro n
    cases n with
    | zero => rfl
    | succ n =>
        rw [readMessageAsync, if_neg (by decide), decodeChunkAsync, if_pos (by decide),
          List.drop_zero, hcall]
        simp only [hstays, Option.map_none]
  refine ⟨?_, hasync, ?_⟩
  · rw [requestSync, readMessage, if_neg (by decide), decodeChunk, if_pos (by decide),
      List.drop_zero, hcall]
    simp only [hdone, if_true]
    rfl
  · rintro ⟨n, result, -, ha⟩
    rw [hasync] at ha
    simp at ha

end PullSession

end Gossip

end Cdcf
