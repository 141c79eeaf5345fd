import Cdcf.Gossip.PullSession

/-!
Sending a frame (`gossip.cc`, `gossip/pull_session.h`).

A write on a socket accepts a part of what it is offered.  The three senders that do not wait for
the result write once, and none of them looks at how much was accepted.

* `Socket`: what a write can do; `requestAsync`, `push`, `onPull`: the senders.
* `Sent.Whole`: a frame is on the wire when no error is reported; `whole_iff`: when that is so.
* `receive_of_truncated`: a peer that gets less than a frame waits for the rest.
-/

namespace Cdcf

namespace Gossip

/-! ### The senders -/

/-- `Message::kPush`. -/
def kPush : UInt8 := 0

/-- `Message::kPull`. -/
def kPull : UInt8 := 1

/-- `Message::kPullResponse`. -/
def kPullResponse : UInt8 := 2

/-- A socket: how many of the bytes it is offered a write accepts, none of them if it fails. -/
structure Socket where
  writeSome : List UInt8 → Option ℕ
  pos : ∀ bytes n, bytes ≠ [] → writeSome bytes = some n → 0 < n
  le : ∀ bytes n, writeSome bytes = some n → n ≤ bytes.length

/-- What became of a frame: the bytes on the wire, what a callback was told, and whether an
exception was thrown. -/
structure Sent where
  frame : List UInt8
  wire : List UInt8
  reported : Option ErrorCode
  thrown : Bool

/-- Unless an error is reported, the whole frame is on the wire. -/
def Sent.Whole (s : Sent) : Prop :=
  s.thrown = false → (∀ code, s.reported = some code → code = .kOK) → s.wire = s.frame

/-- `PullSession::RequestAsync`, up to the call of `ReadMessageAsync`: a failure is told to
`did_pull_`. -/
def requestAsync (socket : Socket) (data : List UInt8) : Sent :=
  let out := (Message.init kPull data).encode
  match socket.writeSome out with
  | some sent => ⟨out, out.take sent, none, false⟩
  | none => ⟨out, [], some .kUnknown, false⟩

/-- `Transport::Push` with a callback, which is told `kOK` in any case. -/
def push (socket : Socket) (data : List UInt8) : Sent :=
  let buffer := (Message.init kPush data).encode
  match socket.writeSome buffer with
  | some sent => ⟨buffer, buffer.take sent, some .kOK, false⟩
  | none => ⟨buffer, [], some .kOK, false⟩

/-- `Transport::OnPull`, for the response that `pull_handler_` gives. -/
def onPull (socket : Socket) (response : List UInt8) : Sent :=
  let out := (Message.init kPullResponse response).encode
  match socket.writeSome out with
  | some sent => ⟨out, out.take sent, none, false⟩
  | none => ⟨out, [], none, true⟩

/-! ### What is on the wire -/

lemma encode_init_ne_nil (type : UInt8) (data : List UInt8) :
    (Message.init type data).encode ≠ [] := by
  simp [Message.init, Message.encode]

/-- Less than all of some bytes is not all of them. -/
lemma take_eq_self_iff_of_le {bytes : List UInt8} {n : ℕ} (h : n ≤ bytes.length) :
    bytes.take n = bytes ↔ n = bytes.length := by
  rw [List.take_eq_self_iff]
  omega

/-- A request is whole if a write that succeeds accepts all of it. -/
lemma whole_requestAsync_iff (socket : Socket) (data : List UInt8) :
    (requestAsync socket data).Whole ↔
      ∀ n, socket.writeSome (Message.init kPull data).encode = some n →
        n = (Message.init kPull data).encode.length := by
  cases hwrite : socket.writeSome (Message.init kPull data).encode with
  | none => simp [requestAsync, hwrite, Sent.Whole]
  | some sent => simp [requestAsync, hwrite, Sent.Whole,
      take_eq_self_iff_of_le (socket.le _ _ hwrite)]

/-- So is a response. -/
lemma whole_onPull_iff (socket : Socket) (response : List UInt8) :
    (onPull socket response).Whole ↔
      ∀ n, socket.writeSome (Message.init kPullResponse response).encode = some n →
        n = (Message.init kPullResponse response).encode.length := by
  cases hwrite : socket.writeSome (Message.init kPullResponse response).encode with
  | none => simp [onPull, hwrite, Sent.Whole]
  | some sent => simp [onPull, hwrite, Sent.Whole,
      take_eq_self_iff_of_le (socket.le _ _ hwrite)]

/-- What is pushed is whole if a write succeeds and accepts all of it. -/
lemma whole_push_iff (socket : Socket) (data : List UInt8) :
    (push socket data).Whole ↔
      socket.writeSome (Message.init kPush data).encode
        = some (Message.init kPush data).encode.length := by
  cases hwrite : socket.writeSome (Message.init kPush data).encode with
  | none => simp [push, hwrite, Sent.Whole, (encode_init_ne_nil kPush data).symm]
  | some sent => simp [push, hwrite, Sent.Whole,
      take_eq_self_iff_of_le (socket.le _ _ hwrite)]

/-- Without an error being reported, what is sent is on the wire as a whole exactly when the one
write accepts all of it; and for a push, which reports no errors, when the write does not fail
either. -/
theorem whole_iff (socket : Socket) (request data response : List UInt8) :
    ((requestAsync socket request).Whole ↔
        ∀ n, socket.writeSome (Message.init kPull request).encode = some n →
          n = (Message.init kPull request).encode.length)
      ∧ ((push socket data).Whole ↔
        socket.writeSome (Message.init kPush data).encode
          = some (Message.init kPush data).encode.length)
      ∧ ((onPull socket response).Whole ↔
        ∀ n, socket.writeSome (Message.init kPullResponse response).encode = some n →
          n = (Message.init kPullResponse response).encode.length) :=
  ⟨whole_requestAsync_iff socket request, whole_push_iff socket data,
    whole_onPull_iff socket response⟩

/-- A socket that accepts four bytes at a time. -/
def slowSocket : Socket where
  writeSome := fun bytes => some (min 4 bytes.length)
  pos := by
    intro bytes n hne h
    have hpos := List.length_pos_of_ne_nil hne
    have := Option.some_inj.mp h
    omega
  le := by
    intro bytes n h
    have := Option.some_inj.mp h
    omega

/-- Such a socket lets none of the senders put an empty frame on the wire. -/
theorem not_whole_slowSocket :
    ¬(requestAsync slowSocket []).Whole ∧ ¬(push slowSocket []).Whole
      ∧ ¬(onPull slowSocket []).Whole := by
  refine ⟨fun h => ?_, fun h => ?_, fun h => ?_⟩
  · exact absurd (h rfl (fun code hcode => by simp [requestAsync, slowSocket] at hcode)) (by decide)
  · exact absurd (h rfl (fun code hcode => by simpa [push, slowSocket, eq_comm] using hcode))
      (by decide)
  · exact absurd (h rfl (fun code hcode => by simp [onPull, slowSocket] at hcode)) (by decide)

/-! ### The peer -/

/-- A peer that gets less than a frame hands nothing on, and holds what it has got. -/
theorem receive_of_truncated (f : Frame) {wire missing : List UInt8}
    (hcut : wire ++ missing = f.encode) (hmissing : missing ≠ []) {n : ℕ}
    (hn : wire.length ≤ n) : connection.receive n ⟨[]⟩ wire = some (⟨wire⟩, []) :=
  Message.connection_reads.receive_part (p := []) ⟨f, hcut⟩ hmissing hn

end Gossip

end Cdcf
