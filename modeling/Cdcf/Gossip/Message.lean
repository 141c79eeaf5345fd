import Cdcf.Library.Framing
import Mathlib.Data.List.GetD
import Mathlib.Data.UInt

/-!
The frames of the gossip channels (`gossip/message.h`, `gossip/connection.h`).

A frame is a header of five bytes, the length of the payload in four bytes and the type, with the
payload behind it.  `Message` decodes it into one buffer, whose size alone says how far the frame
is read.

* `Message`: the buffer and its operations, as the source has them;
* `connection`: the decoder that `Connection::Start` runs over what a socket receives;
* `Message.announced`: the length in a header, read without a sign; `Message.toNat_length` is what
  `Length` makes of it, and `Message.length_iff` when that is what has been announced;
* `Message.connection_reads`: what one call of `Decode` does to a part of a frame;
* `Message.receiveAll_encode`: the stream of the frames is read back however it is cut.
-/

namespace Cdcf

namespace Gossip

/-- The bytes of a frame that is read or written. -/
structure Message where
  buffer_ : List UInt8
deriving DecidableEq, Repr

namespace Message

/-- The bytes of the header. -/
def kHeaderBytes : UInt64 := 5

/-- The bytes of the length in it. -/
def kHeaderLengthBytes : ℕ := 4

/-- The length bytes, the type byte and the payload. -/
def init (type : UInt8) (data : List UInt8) : Message :=
  let size := UInt64.ofNat data.length
  ⟨(List.range kHeaderLengthBytes).map
      (fun i => (size >>> UInt64.ofNat (8 * (kHeaderLengthBytes - i - 1))).toUInt8)
    ++ type :: data⟩

/-- The bytes that are sent. -/
def encode (m : Message) : List UInt8 := m.buffer_

/-- The size of the buffer. -/
def size (m : Message) : UInt64 := UInt64.ofNat m.buffer_.length

/-- A byte of the buffer, shifted as an `int` and widened with its sign. -/
def lengthByte (m : Message) (i : ℕ) : UInt64 :=
  ((m.buffer_.getD i 0).toUInt32 <<< UInt32.ofNat (8 * (kHeaderLengthBytes - i - 1)))
    |>.toInt32.toInt64.toUInt64

/-- The length of the payload, read from the header; zero before the header is there. -/
def length (m : Message) : UInt64 :=
  if m.size < kHeaderBytes then 0
  else (List.range kHeaderLengthBytes).foldl (fun result i => result ||| m.lengthByte i) 0

/-- The header is there. -/
def isHeaderOut (m : Message) : Bool := m.size ≥ kHeaderBytes

/-- The header and the payload it announces are there, and no more. -/
def isSatisfied (m : Message) : Bool := m.isHeaderOut && m.size == m.length + kHeaderBytes

/-- The bytes of the header that are there are taken. -/
def decodeHeader (m : Message) (data : List UInt8) : ℕ × Message :=
  let legacy := m.buffer_.length
  let current := data.length
  let consumed := if legacy + current < kHeaderBytes.toNat then current
    else kHeaderBytes.toNat - legacy
  (consumed, ⟨m.buffer_ ++ data.take consumed⟩)

/-- The bytes of the payload that are there are taken. -/
def decodeBody (m : Message) (data : List UInt8) : ℕ × Message :=
  let packageLength := kHeaderBytes + m.length
  let expected := packageLength - m.size
  let last := min expected.toNat data.length
  (last, ⟨m.buffer_ ++ data.take last⟩)

/-- One call: the header first, then the payload; how many bytes it took. -/
def decode (m : Message) (data : List UInt8) : ℕ × Message :=
  if m.isSatisfied then (0, m)
  else
    let (consumed, m') := if m.isHeaderOut then (0, m) else m.decodeHeader data
    if m'.isHeaderOut && data.length > consumed then
      let (body, m'') := m'.decodeBody (data.drop consumed)
      (consumed + body, m'')
    else (consumed, m')

/-- The payload. -/
def data (m : Message) : List UInt8 := m.buffer_.drop kHeaderBytes.toNat

/-- The type byte. -/
def type (m : Message) : UInt8 := m.buffer_.getD kHeaderLengthBytes 0

/-- The message is empty again. -/
def reset (_ : Message) : Message := ⟨[]⟩

end Message

/-- What a connection runs over the bytes its socket receives. -/
def connection : Decoder Message UInt8 where
  decode := Message.decode
  isSatisfied := Message.isSatisfied
  reset := Message.reset

/-- A frame: a type byte and a payload whose length fits the header. -/
structure Frame where
  type : UInt8
  payload : List UInt8
  length_lt : payload.length < 2 ^ 31

/-- The bytes of a frame. -/
def Frame.encode (f : Frame) : List UInt8 := (Message.init f.type f.payload).encode

namespace Message

/-! ### The length bytes -/

/-- A word without the sign bit is widened to itself. -/
lemma toNat_widen (y : UInt32) (h : y.toNat < 2 ^ 31) :
    y.toInt32.toInt64.toUInt64.toNat = y.toNat := by
  have hmsb : y.toBitVec.msb = false := by
    rw [BitVec.msb_eq_decide]
    simpa using h
  show (y.toBitVec.signExtend 64).toNat = y.toBitVec.toNat
  rw [BitVec.signExtend_eq_setWidth_of_msb_false hmsb]
  simp

/-- A word with the sign bit is widened with ones. -/
lemma toNat_widen_high (y : UInt32) (h : 2 ^ 31 ≤ y.toNat) :
    y.toInt32.toInt64.toUInt64.toNat = 2 ^ 64 - 2 ^ 32 + y.toNat := by
  have hmsb : y.toBitVec.msb = true := by
    rw [BitVec.msb_eq_decide]
    simpa using h
  have hlt := y.toNat_lt
  show (y.toBitVec.signExtend 64).toNat = _ + y.toBitVec.toNat
  rw [BitVec.toNat_signExtend, hmsb]
  simp
  omega

/-- A byte shifted to a place below the sign bit. -/
lemma toNat_shift (b : UInt8) {k : ℕ} (hk : k ≤ 24) (h : b.toNat * 2 ^ k < 2 ^ 31) :
    (b.toUInt32 <<< UInt32.ofNat k).toInt32.toInt64.toUInt64.toNat = b.toNat * 2 ^ k := by
  have hplace : (UInt32.ofNat k).toNat = k :=
    UInt32.toNat_ofNat_of_lt' (show k < 2 ^ 32 by omega)
  have hval : (b.toUInt32 <<< UInt32.ofNat k).toNat = b.toNat * 2 ^ k := by
    rw [UInt32.toNat_shiftLeft, UInt8.toNat_toUInt32, hplace,
      Nat.mod_eq_of_lt (by omega : k < 32), Nat.shiftLeft_eq]
    exact Nat.mod_eq_of_lt (by omega)
  rw [toNat_widen _ (by omega), hval]

/-- The byte of a word that is pushed into the header. -/
lemma toNat_byte (x : UInt64) {k : ℕ} (hk : k ≤ 24) :
    (x >>> UInt64.ofNat k).toUInt8.toNat = x.toNat / 2 ^ k % 256 := by
  have hplace : (UInt64.ofNat k).toNat = k :=
    UInt64.toNat_ofNat_of_lt' (show k < 2 ^ 64 by omega)
  rw [UInt64.toNat_toUInt8, UInt64.toNat_shiftRight, hplace,
    Nat.mod_eq_of_lt (by omega : k < 64), Nat.shiftRight_eq_div_pow]

/-! ### The length in a header -/

/-- The length that the first four bytes announce. -/
def announced (bytes : List UInt8) : ℕ :=
  (bytes.getD 0 0).toNat * 2 ^ 24 + (bytes.getD 1 0).toNat * 2 ^ 16
    + (bytes.getD 2 0).toNat * 2 ^ 8 + (bytes.getD 3 0).toNat

lemma announced_lt (bytes : List UInt8) : announced bytes < 2 ^ 32 := by
  have h0 := (bytes.getD 0 0).toNat_lt
  have h1 := (bytes.getD 1 0).toNat_lt
  have h2 := (bytes.getD 2 0).toNat_lt
  have h3 := (bytes.getD 3 0).toNat_lt
  rw [announced]
  omega

/-- The bytes behind the first four announce nothing. -/
lemma announced_append {p : List UInt8} (h : 4 ≤ p.length) (rest : List UInt8) :
    announced (p ++ rest) = announced p := by
  simp only [announced]
  rw [List.getD_append _ _ _ _ (by omega), List.getD_append _ _ _ _ (by omega),
    List.getD_append _ _ _ _ (by omega), List.getD_append _ _ _ _ (by omega)]

lemma announced_take {n : ℕ} (h : 4 ≤ n) {bytes : List UInt8} (hn : n ≤ bytes.length) :
    announced (bytes.take n) = announced bytes := by
  conv_rhs => rw [← List.take_append_drop n bytes]
  rw [announced_append (by rw [List.length_take]; omega)]

/-- Four bytes put together, of which the first may be widened. -/
lemma or_places {a b c d : ℕ} (hb : b < 256) (hc : c < 256) (hd : d < 256) :
    0 ||| a * 2 ^ 24 ||| b * 2 ^ 16 ||| c * 2 ^ 8 ||| d * 2 ^ 0
      = a * 2 ^ 24 + b * 2 ^ 16 + c * 2 ^ 8 + d := by
  have h0 := Nat.two_pow_add_eq_or_of_lt (i := 24) (b := b * 2 ^ 16) (by omega) a
  have h1 := Nat.two_pow_add_eq_or_of_lt (i := 16) (b := c * 2 ^ 8) (by omega) (a * 2 ^ 8 + b)
  have h2 := Nat.two_pow_add_eq_or_of_lt (i := 8) (b := d * 2 ^ 0) (by omega)
    (a * 2 ^ 16 + b * 2 ^ 8 + c)
  calc
    _ = 2 ^ 24 * a ||| b * 2 ^ 16 ||| c * 2 ^ 8 ||| d * 2 ^ 0 := by
        rw [Nat.zero_or, Nat.mul_comm a]
    _ = 2 ^ 16 * (a * 2 ^ 8 + b) ||| c * 2 ^ 8 ||| d * 2 ^ 0 := by
        rw [← h0]
        congr 2
        omega
    _ = 2 ^ 8 * (a * 2 ^ 16 + b * 2 ^ 8 + c) ||| d * 2 ^ 0 := by
        rw [← h1]
        congr 1
        omega
    _ = a * 2 ^ 24 + b * 2 ^ 16 + c * 2 ^ 8 + d := by
        rw [← h2]
        omega

/-- The first byte at its place, in the words that the sum of the length is made of. -/
lemma toNat_shift_first (b : UInt8) :
    (b.toUInt32 <<< UInt32.ofNat 24).toInt32.toInt64.toUInt64.toNat
      = (if b.toNat < 128 then b.toNat else 2 ^ 40 - 2 ^ 8 + b.toNat) * 2 ^ 24 := by
  have hb := b.toNat_lt
  split
  · next hlow => exact toNat_shift b (le_refl 24) (by omega)
  · next hhigh =>
      have hval : (b.toUInt32 <<< UInt32.ofNat 24).toNat = b.toNat * 2 ^ 24 := by
        rw [UInt32.toNat_shiftLeft, UInt8.toNat_toUInt32, Nat.shiftLeft_eq]
        exact Nat.mod_eq_of_lt (show b.toNat * 2 ^ 24 < 2 ^ 32 by omega)
      rw [toNat_widen_high _ (by omega), hval]
      omega

lemma toNat_size {m : Message} (h : m.buffer_.length < 2 ^ 64) :
    m.size.toNat = m.buffer_.length :=
  UInt64.toNat_ofNat_of_lt' h

/-- `Length` is the length announced, widened with its sign. -/
lemma toNat_length {bytes : List UInt8} (h5 : 5 ≤ bytes.length) (h64 : bytes.length < 2 ^ 64) :
    (length ⟨bytes⟩).toNat
      = if announced bytes < 2 ^ 31 then announced bytes
        else 2 ^ 64 - 2 ^ 32 + announced bytes := by
  have hout : ¬(Message.mk bytes).size < kHeaderBytes := by
    rw [UInt64.lt_iff_toNat_lt, toNat_size h64]
    exact Nat.not_lt.mpr h5
  have h0 := (bytes.getD 0 0).toNat_lt
  have h1 := (bytes.getD 1 0).toNat_lt
  have h2 := (bytes.getD 2 0).toNat_lt
  have h3 := (bytes.getD 3 0).toNat_lt
  rw [length, if_neg hout]
  calc
    _ = 0 ||| (if (bytes.getD 0 0).toNat < 128 then (bytes.getD 0 0).toNat
            else 2 ^ 40 - 2 ^ 8 + (bytes.getD 0 0).toNat) * 2 ^ 24
          ||| (bytes.getD 1 0).toNat * 2 ^ 16 ||| (bytes.getD 2 0).toNat * 2 ^ 8
          ||| (bytes.getD 3 0).toNat * 2 ^ 0 := by
        rw [← toNat_shift_first, ← toNat_shift (bytes.getD 1 0) (by omega : 16 ≤ 24) (by omega),
          ← toNat_shift (bytes.getD 2 0) (by omega : 8 ≤ 24) (by omega),
          ← toNat_shift (bytes.getD 3 0) (by omega : 0 ≤ 24) (by omega)]
        rfl
    _ = _ := by
        rw [or_places h1 h2 h3, announced]
        split <;> split <;> omega

/-- The four bytes that the constructor writes announce the size of the payload. -/
lemma announced_init (type : UInt8) {data : List UInt8} (hdata : data.length < 2 ^ 32) :
    announced (init type data).buffer_ = data.length := by
  have hsize : (UInt64.ofNat data.length).toNat = data.length :=
    UInt64.toNat_ofNat_of_lt' (show data.length < 2 ^ 64 by omega)
  have hbyte : ∀ k ≤ 24, (UInt64.ofNat data.length >>> UInt64.ofNat k).toUInt8.toNat
      = data.length / 2 ^ k % 256 := fun k hk => by rw [toNat_byte _ hk, hsize]
  calc announced (init type data).buffer_
      = data.length / 2 ^ 24 % 256 * 2 ^ 24 + data.length / 2 ^ 16 % 256 * 2 ^ 16
          + data.length / 2 ^ 8 % 256 * 2 ^ 8 + data.length / 2 ^ 0 % 256 := by
        rw [← hbyte 24 (by omega), ← hbyte 16 (by omega), ← hbyte 8 (by omega),
          ← hbyte 0 (by omega)]
        rfl
    _ = data.length := by omega

/-- `Length` of what the constructor makes. -/
lemma toNat_length_init (type : UInt8) {data : List UInt8} (hdata : data.length < 2 ^ 32) :
    (init type data).length.toNat
      = if data.length < 2 ^ 31 then data.length else 2 ^ 64 - 2 ^ 32 + data.length := by
  have hlen : (init type data).buffer_.length = 5 + data.length := by
    simp only [init, List.length_append, List.length_map, List.length_range, List.length_cons,
      kHeaderLengthBytes]
    omega
  have hlength := toNat_length (show 5 ≤ (init type data).buffer_.length by omega) (by omega)
  rwa [announced_init type hdata] at hlength

/-- **The length field.**  `Length` reads the size of the payload back exactly if it is below
`2 ^ 31`, and the value of a header without a sign exactly if its first byte is below 128. -/
theorem length_iff (type : UInt8) (data : List UInt8) (hdata : data.length < 2 ^ 32)
    (b₀ b₁ b₂ b₃ : UInt8) :
    ((init type data).length.toNat = data.length ↔ data.length < 2 ^ 31)
      ∧ ((Message.mk [b₀, b₁, b₂, b₃, type]).length.toNat = announced [b₀, b₁, b₂, b₃, type]
          ∧ (Message.mk [b₀, b₁, b₂, b₃, type]).length.toNat < 2 ^ 32 ↔ b₀ < 128) := by
  constructor
  · rw [toNat_length_init type hdata]
    split <;> omega
  · have hvalue : announced [b₀, b₁, b₂, b₃, type]
        = b₀.toNat * 2 ^ 24 + b₁.toNat * 2 ^ 16 + b₂.toNat * 2 ^ 8 + b₃.toNat := rfl
    have hlt := announced_lt [b₀, b₁, b₂, b₃, type]
    have h1 := b₁.toNat_lt
    have h2 := b₂.toNat_lt
    have h3 := b₃.toNat_lt
    have hfirst : b₀ < 128 ↔ announced [b₀, b₁, b₂, b₃, type] < 2 ^ 31 := by
      rw [UInt8.lt_iff_toNat_lt, hvalue]
      show b₀.toNat < 128 ↔ _
      omega
    rw [toNat_length (by simp) (by simp), hfirst]
    split <;> omega

/-- A payload of three bytes, and a header with the largest length that is read. -/
theorem length_three :
    ([7, 8, 9] : List UInt8).length < 2 ^ 32
      ∧ (init 1 [7, 8, 9]).length.toNat = 3
      ∧ (Message.mk [127, 255, 255, 255, 1]).length.toNat = 2 ^ 31 - 1 := by
  have hsmall : ([7, 8, 9] : List UInt8).length < 2 ^ 32 := by decide
  obtain ⟨hdata, hheader⟩ := length_iff 1 [7, 8, 9] hsmall 127 255 255 255
  exact ⟨hsmall, hdata.mpr (by decide), (hheader.mpr (by decide)).1⟩

/-- The length of a payload of `2 ^ 31` bytes is widened with its sign. -/
theorem not_length_sign :
    (init 0 (List.replicate (2 ^ 31) 0)).length.toNat = 2 ^ 64 - 2 ^ 31
      ∧ (Message.mk [0x80, 0, 0, 0, 0]).length.toNat = 2 ^ 64 - 2 ^ 31
      ∧ announced [0x80, 0, 0, 0, 0] = 2 ^ 31 := by
  have hlen : (List.replicate (2 ^ 31) (0 : UInt8)).length = 2 ^ 31 := List.length_replicate
  refine ⟨?_, by decide, by decide⟩
  rw [toNat_length_init 0 (by rw [hlen]; omega), hlen]
  rfl

end Message

/-! ### The bytes of a frame -/

namespace Frame

open Message

/-- The length bytes and the type byte. -/
def header (f : Frame) : List UInt8 :=
  let size := UInt64.ofNat f.payload.length
  [(size >>> 24).toUInt8, (size >>> 16).toUInt8, (size >>> 8).toUInt8, (size >>> 0).toUInt8,
    f.type]

lemma encode_eq (f : Frame) : f.encode = f.header ++ f.payload := rfl

@[simp] lemma length_header (f : Frame) : f.header.length = 5 := rfl

/-- A part of a frame behind its header. -/
lemma eq_header_append {f : Frame} {p b : List UInt8} (h : p ++ b = f.encode)
    (hp : 5 ≤ p.length) : ∃ q, p = f.header ++ q ∧ q ++ b = f.payload := by
  rw [encode_eq, List.append_eq_append_iff] at h
  rcases h with ⟨a, hheader, hrest⟩ | ⟨q, hpart, hpayload⟩
  · have hlen := congrArg List.length hheader
    rw [List.length_append, length_header] at hlen
    have hnil : a = [] := List.eq_nil_of_length_eq_zero (by omega)
    subst hnil
    exact ⟨[], by simpa using hheader.symm, by simpa using hrest⟩
  · exact ⟨q, hpart, hpayload.symm⟩

/-- The parts of a frame are not longer than its header and its payload. -/
lemma length_of_append {f : Frame} {p b : List UInt8} (h : p ++ b = f.encode) :
    p.length + b.length = 5 + f.payload.length := by
  have hlen := congrArg List.length h
  rwa [encode_eq, List.length_append, List.length_append, length_header] at hlen

end Frame

/-! ### What is read of a frame -/

namespace Message

lemma announced_header (f : Frame) : announced f.header = f.payload.length := by
  have hlt := f.length_lt
  rw [← announced_append (show 4 ≤ f.header.length by simp) f.payload]
  exact announced_init f.type (by omega)

/-- The header says how long the payload is. -/
lemma toNat_length_header (f : Frame) {q b : List UInt8} (h : q ++ b = f.payload) :
    (length ⟨f.header ++ q⟩).toNat = f.payload.length := by
  have hlt := f.length_lt
  have hlen := congrArg List.length h
  rw [List.length_append] at hlen
  have hbytes : (f.header ++ q).length = 5 + q.length := by
    rw [List.length_append, Frame.length_header]
  have hannounced : announced (f.header ++ q) = f.payload.length := by
    rw [announced_append (by simp), announced_header]
  rw [toNat_length (by omega) (by omega), hannounced, if_pos hlt]

/-- With the header there, the size of the buffer decides. -/
lemma isHeaderOut_eq {p : List UInt8} (h : p.length < 2 ^ 64) :
    isHeaderOut ⟨p⟩ = decide (5 ≤ p.length) := by
  rw [isHeaderOut, decide_eq_decide, ge_iff_le, UInt64.le_iff_toNat_le, toNat_size h]
  rfl

/-- The size of the whole frame, as the header has it. -/
lemma toNat_packageLength (f : Frame) {q b : List UInt8} (h : q ++ b = f.payload) :
    (kHeaderBytes + length ⟨f.header ++ q⟩).toNat = 5 + f.payload.length := by
  have hlt := f.length_lt
  rw [UInt64.toNat_add, toNat_length_header f h]
  exact Nat.mod_eq_of_lt (show 5 + f.payload.length < 2 ^ 64 by omega)

/-- A part of a frame is the whole of it exactly when nothing is missing. -/
lemma isSatisfied_part {f : Frame} {p b : List UInt8} (h : p ++ b = f.encode) :
    isSatisfied ⟨p⟩ = b.isEmpty := by
  have hlt := f.length_lt
  have hlen := Frame.length_of_append h
  rw [isSatisfied, isHeaderOut_eq (by omega)]
  by_cases hp : 5 ≤ p.length
  · obtain ⟨q, rfl, hq⟩ := Frame.eq_header_append h hp
    have hsize := toNat_size (m := ⟨f.header ++ q⟩) (show (f.header ++ q).length < _ by omega)
    rw [decide_eq_true hp, Bool.true_and, UInt64.add_comm, Bool.eq_iff_iff, beq_iff_eq,
      ← UInt64.toNat_inj, toNat_packageLength f hq, hsize, List.isEmpty_iff_length_eq_zero]
    show (f.header ++ q).length = _ ↔ _
    omega
  · have hb : b ≠ [] := by
      rintro rfl
      rw [List.length_nil] at hlen
      omega
    simp [hp, hb]

/-- Behind the header, a call takes what is there of the payload. -/
lemma decodeBody_part {f : Frame} {p a b rest : List UInt8} (h : p ++ a ++ b = f.encode)
    (hp : 5 ≤ p.length) (hend : b = [] ∨ rest = []) :
    decodeBody ⟨p⟩ (a ++ rest) = (a.length, ⟨p ++ a⟩) := by
  have hlt := f.length_lt
  rw [List.append_assoc] at h
  have hlen := Frame.length_of_append h
  rw [List.length_append] at hlen
  obtain ⟨q, rfl, hq⟩ := Frame.eq_header_append h hp
  have hsize := toNat_size (m := ⟨f.header ++ q⟩) (show (f.header ++ q).length < _ by omega)
  have hexpected : (kHeaderBytes + length ⟨f.header ++ q⟩ - size ⟨f.header ++ q⟩).toNat
      = a.length + b.length := by
    rw [UInt64.toNat_sub_of_le, toNat_packageLength f hq, hsize]
    · show 5 + _ - (f.header ++ q).length = _
      omega
    · rw [UInt64.le_iff_toNat_le, toNat_packageLength f hq, hsize]
      show (f.header ++ q).length ≤ _
      omega
  have hlast : min (a.length + b.length) (a ++ rest).length = a.length := by
    rw [List.length_append]
    rcases hend with rfl | rfl <;> rw [List.length_nil] <;> omega
  rw [decodeBody]
  simp only [hexpected, hlast, List.take_left]

/-- The header, when the bytes of this call end it. -/
lemma decodeHeader_whole {p a rest : List UInt8} (hp : p.length + a.length = 5) :
    decodeHeader ⟨p⟩ (a ++ rest) = (a.length, ⟨p ++ a⟩) := by
  have hk : kHeaderBytes.toNat - p.length = a.length := show 5 - p.length = _ by omega
  have hge : ¬p.length + (a ++ rest).length < kHeaderBytes.toNat := by
    rw [List.length_append]
    exact show ¬_ < 5 by omega
  rw [decodeHeader]
  simp only [hk, if_neg hge, List.take_left]

/-- The header, when the bytes of this call do not end it. -/
lemma decodeHeader_part {p a : List UInt8} (hp : p.length + a.length < 5) :
    decodeHeader ⟨p⟩ a = (a.length, ⟨p ++ a⟩) := by
  rw [decodeHeader]
  simp only [if_pos (show p.length + a.length < kHeaderBytes.toNat from hp), List.take_length]

/-- A call on a part of a frame takes what is there of it. -/
lemma decode_part {f : Frame} {p a b rest : List UInt8} (h : p ++ a ++ b = f.encode)
    (hne : a ++ b ≠ []) (hend : b = [] ∨ rest = []) :
    decode ⟨p⟩ (a ++ rest) = (a.length, ⟨p ++ a⟩) := by
  have hlt := f.length_lt
  have hp' := isSatisfied_part (p := p) (b := a ++ b) (by rw [← List.append_assoc, h])
  have hlen := Frame.length_of_append h
  rw [List.length_append] at hlen
  have hopen : isSatisfied ⟨p⟩ = false := by
    rw [hp']
    simpa using hne
  have hempty : ∀ c : List UInt8, ¬c.length > 0 → c = [] := fun c hc =>
    List.eq_nil_of_length_eq_zero (by omega)
  rw [decode, hopen, isHeaderOut_eq (by omega)]
  by_cases hp : 5 ≤ p.length
  · -- only the payload is left
    simp only [hp, isHeaderOut_eq (show p.length < 2 ^ 64 by omega), decide_true, if_true,
      Bool.true_and, Bool.false_eq_true, if_false, decide_eq_true_eq, List.drop_zero,
      decodeBody_part h hp hend]
    split
    · simp
    · next hnone =>
        obtain ⟨rfl, rfl⟩ := List.append_eq_nil_iff.mp (hempty _ hnone)
        simp
  · simp only [hp, decide_false, Bool.false_eq_true, if_false]
    by_cases hshort : p.length + a.length < 5
    · -- the header is not ended, so nothing follows
      have hrest : rest = [] := by
        rcases hend with rfl | hrest
        · rw [List.length_nil] at hlen
          omega
        · exact hrest
      subst hrest
      have hout : isHeaderOut ⟨p ++ a⟩ = false := by
        rw [isHeaderOut_eq (by rw [List.length_append]; omega), List.length_append]
        simp
        omega
      simp only [List.append_nil, decodeHeader_part hshort, hout, Bool.false_and,
        Bool.false_eq_true, if_false]
    · -- the header is ended, and the payload comes behind it
      obtain ⟨a₁, a₂, rfl, ha⟩ : ∃ a₁ a₂, a = a₁ ++ a₂ ∧ p.length + a₁.length = 5 :=
        ⟨a.take (5 - p.length), a.drop (5 - p.length), (List.take_append_drop _ a).symm, by
          rw [List.length_take]; omega⟩
      have hp₁ : 5 ≤ (p ++ a₁).length := by
        rw [List.length_append]
        omega
      have hout : isHeaderOut ⟨p ++ a₁⟩ = true := by
        rw [isHeaderOut_eq (by rw [List.length_append]; omega)]
        exact decide_eq_true hp₁
      have hbody := decodeBody_part (p := p ++ a₁) (a := a₂)
        (by rw [← h]; simp only [List.append_assoc]) hp₁ hend
      simp only [List.append_assoc, decodeHeader_whole ha, hout, Bool.true_and,
        decide_eq_true_eq, List.drop_left] at hbody ⊢
      split
      · rw [hbody]
        simp
      · next hnone =>
          rw [List.length_append] at hnone
          obtain ⟨rfl, rfl⟩ := List.append_eq_nil_iff.mp (hempty (a₂ ++ rest) (by omega))
          simp

/-- The decoder of a connection reads frames. -/
theorem connection_reads :
    connection.Reads (fun bytes => ∃ f : Frame, bytes = f.encode) Message.mk where
  decode := fun p a b rest ⟨_, h⟩ hne hend => decode_part h hne hend
  isSatisfied := fun p b ⟨_, h⟩ => isSatisfied_part h
  reset := fun _ _ => rfl
  ne_nil := fun ⟨f, h⟩ => by simp [Frame.encode_eq, Frame.header] at h

/-- What is read of a whole frame is what was put in. -/
lemma type_encode (f : Frame) : (Message.mk f.encode).type = f.type := rfl

lemma data_encode (f : Frame) : (Message.mk f.encode).data = f.payload := rfl

/-- The frames of a stream are received once each and in order, with their types and payloads,
however the stream is cut into chunks, and nothing is held at the end.  The loop takes no more
rounds over a chunk than the chunk has bytes. -/
theorem receiveAll_encode (n : ℕ) (frames : List Frame) (chunks : List (List UInt8))
    (hcut : chunks.flatten = (frames.map Frame.encode).flatten)
    (hn : ∀ chunk ∈ chunks, chunk.length ≤ n) :
    ∃ received, connection.receiveAll n ⟨[]⟩ chunks = some (⟨[]⟩, received)
      ∧ received.map (fun m => (m.type, m.data))
        = frames.map (fun f => (f.type, f.payload)) := by
  have hframes : ∀ bytes ∈ frames.map Frame.encode, ∃ f : Frame, bytes = f.encode := by
    intro bytes hmem
    obtain ⟨f, -, rfl⟩ := List.mem_map.mp hmem
    exact ⟨f, rfl⟩
  refine ⟨_, connection_reads.receiveAll_frames hframes hcut hn, ?_⟩
  simp only [List.map_map]
  refine List.map_congr_left fun f _ => ?_
  show ((Message.mk f.encode).type, (Message.mk f.encode).data) = _
  rw [type_encode, data_encode]

/-- A frame of three bytes and an empty one, cut inside the first header, and behind the second
one's length. -/
theorem receiveAll_encode_cut : ∃ received,
    connection.receiveAll 9 ⟨[]⟩ [[0, 0], [0, 3, 1, 7, 8, 9, 0, 0, 0], [0, 2]]
      = some (⟨[]⟩, received)
    ∧ received.map (fun m => (m.type, m.data)) = [(1, [7, 8, 9]), (2, [])] :=
  receiveAll_encode 9 [⟨1, [7, 8, 9], by decide⟩, ⟨2, [], by decide⟩] _ (by decide) (by decide)

end Message

end Gossip

end Cdcf
