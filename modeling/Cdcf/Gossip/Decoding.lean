import Cdcf.Gossip.Message

/-!
What a call of `Decode` can meet in arbitrary bytes (`gossip/message.h`).

The length of a payload comes from the peer.  Its first byte is shifted as an `int`, so that a
length from `2 ^ 31` on is widened with its sign; what is reserved for it is then more than a vector
can hold, or, where the sum with the header wraps round, less than the header.

* `Message.tryDecode`: `Message.decode` with the calls that can fail, `reserve` and the sum of a
  pointer; where it has a result it is that of `decode` (`decode_of_tryDecode`).
* `tryDecode_short`, `tryDecode_low`, `tryDecode_high`, `tryDecode_wrapped_header`,
  `tryDecode_wrapped_body`: a call on a part of a frame with any header.
-/

namespace Cdcf

namespace Gossip

/-- What stops a handler of a socket. -/
inductive Fault where
  /-- More than `max_size` is reserved, and `std::length_error` is thrown. -/
  | lengthError
  /-- A pointer is added to until it wraps round, which is undefined. -/
  | pointerOverflow
  /-- A socket that is not connected any more is asked for its peer, and throws. -/
  | notConnected
deriving DecidableEq, Repr

/-- `max_size` of a vector of bytes, and the greatest distance of two pointers. -/
def maxSize : UInt64 := 0x7fffffffffffffff

namespace Message

/-- `DecodeHeader`, with what it reserves. -/
def tryDecodeHeader (m : Message) (data : List UInt8) : Except Fault (ℕ × Message) :=
  let (consumed, m') := m.decodeHeader data
  if m'.length > 0 && kHeaderBytes + m'.length > maxSize then .error .lengthError
  else .ok (consumed, m')

/-- `DecodeBody`, with the pointer it adds to. -/
def tryDecodeBody (m : Message) (data : List UInt8) : Except Fault (ℕ × Message) :=
  if kHeaderBytes + m.length - m.size > maxSize then .error .pointerOverflow
  else .ok (m.decodeBody data)

/-- `Decode`. -/
def tryDecode (m : Message) (data : List UInt8) : Except Fault (ℕ × Message) :=
  if m.isSatisfied then .ok (0, m)
  else
    (if m.isHeaderOut then .ok (0, m) else m.tryDecodeHeader data).bind fun (consumed, m') =>
      if m'.isHeaderOut && data.length > consumed then
        (m'.tryDecodeBody (data.drop consumed)).map fun (body, m'') => (consumed + body, m'')
      else .ok (consumed, m')

/-- A call that has a result is a call of `decode`. -/
lemma decode_of_tryDecode {m : Message} {data : List UInt8} {result : ℕ × Message}
    (h : m.tryDecode data = .ok result) : m.decode data = result := by
  rw [tryDecode] at h
  rw [decode]
  cases hdone : m.isSatisfied with
  | true =>
      simp only [hdone, if_true] at h ⊢
      exact Except.ok.inj h
  | false =>
      simp only [hdone, Bool.false_eq_true, if_false] at h ⊢
      have hheader : ∀ {consumed m'},
          (if m.isHeaderOut then .ok (0, m) else m.tryDecodeHeader data)
              = (.ok (consumed, m') : Except Fault _) →
            (if m.isHeaderOut then (0, m) else m.decodeHeader data) = (consumed, m') := by
        intro consumed m' heq
        cases hout : m.isHeaderOut with
        | true =>
            simp only [hout, if_true] at heq ⊢
            exact Except.ok.inj heq
        | false =>
            simp only [hout, Bool.false_eq_true, if_false, tryDecodeHeader] at heq ⊢
            split at heq
            · simp at heq
            · exact Except.ok.inj heq
      cases hcall : (if m.isHeaderOut then .ok (0, m) else m.tryDecodeHeader data
          : Except Fault (ℕ × Message)) with
      | error fault => simp [hcall, Except.bind] at h
      | ok header =>
          obtain ⟨consumed, m'⟩ := header
          rw [hheader hcall]
          simp only [hcall, Except.bind] at h
          simp only
          split at h
          · next hmore =>
              rw [if_pos hmore]
              rw [tryDecodeBody] at h
              split at h
              · simp [Except.map] at h
              · exact Except.ok.inj h
          · next hmore =>
              rw [if_neg hmore]
              exact Except.ok.inj h

/-! ### A call on a part of a frame -/

variable {p data : List UInt8}

/-- What the buffer of a decoder may hold that waits for more: less than a header, less than the
frame that the header announces, or a header whose length wraps round. -/
def Pending (p : List UInt8) : Prop :=
  p.length < 5 ∨ announced p < 2 ^ 31 ∧ p.length < 5 + announced p
    ∨ p.length = 5 ∧ 2 ^ 32 - 5 ≤ announced p

lemma isHeaderOut_iff (h64 : p.length < 2 ^ 64) : isHeaderOut ⟨p⟩ = true ↔ 5 ≤ p.length := by
  rw [isHeaderOut_eq h64, decide_eq_true_iff]

/-- With a length below `2 ^ 31` announced, the size of the buffer decides. -/
lemma isSatisfied_low (h5 : 5 ≤ p.length) (h64 : p.length < 2 ^ 64)
    (hlow : announced p < 2 ^ 31) :
    isSatisfied ⟨p⟩ = decide (p.length = 5 + announced p) := by
  have hlength := toNat_length h5 h64
  rw [if_pos hlow] at hlength
  rw [isSatisfied, (isHeaderOut_iff h64).mpr h5, Bool.true_and, Bool.eq_iff_iff, beq_iff_eq,
    decide_eq_true_iff, ← UInt64.toNat_inj, toNat_size h64, UInt64.toNat_add, hlength]
  show p.length = (announced p + 5) % 2 ^ 64 ↔ _
  omega

/-- No frame with such a length is ever complete. -/
lemma isSatisfied_wrapped (h5 : p.length = 5) (hhigh : 2 ^ 32 - 5 ≤ announced p) :
    isSatisfied ⟨p⟩ = false := by
  have h64 : p.length < 2 ^ 64 := by omega
  have hlt := announced_lt p
  have hlength := toNat_length (le_of_eq h5.symm) h64
  rw [if_neg (by omega)] at hlength
  have hne : ¬(size ⟨p⟩ == length ⟨p⟩ + kHeaderBytes) = true := by
    rw [beq_iff_eq, ← UInt64.toNat_inj, toNat_size h64, UInt64.toNat_add, hlength]
    show ¬p.length = (2 ^ 64 - 2 ^ 32 + announced p + 5) % 2 ^ 64
    omega
  rw [isSatisfied, Bool.eq_false_iff.mpr hne, Bool.and_false]

lemma Pending.length_lt (hp : Pending p) : p.length < 2 ^ 64 := by
  rcases hp with hshort | ⟨hlow, hpart⟩ | ⟨h5, -⟩ <;> omega

/-- A decoder that waits for more holds no frame. -/
lemma Pending.isSatisfied (hp : Pending p) : isSatisfied ⟨p⟩ = false := by
  have h64 := hp.length_lt
  rcases hp with hshort | ⟨hlow, hpart⟩ | ⟨h5, hhigh⟩
  · have hout : isHeaderOut ⟨p⟩ = false := by
      rw [Bool.eq_false_iff, Ne, isHeaderOut_iff h64]
      omega
    rw [Message.isSatisfied, hout, Bool.false_and]
  · by_cases h5 : 5 ≤ p.length
    · rw [isSatisfied_low h5 h64 hlow, decide_eq_false (by omega)]
    · have hout : isHeaderOut ⟨p⟩ = false := by
        rw [Bool.eq_false_iff, Ne, isHeaderOut_iff h64]
        omega
      rw [Message.isSatisfied, hout, Bool.false_and]
  · exact isSatisfied_wrapped h5 hhigh

/-- Less than a header is taken as a whole. -/
lemma tryDecode_short (hshort : (p ++ data).length < 5) :
    tryDecode ⟨p⟩ data = .ok (data.length, ⟨p ++ data⟩) := by
  have hlen : (p ++ data).length = p.length + data.length := List.length_append
  have hwait : isSatisfied ⟨p⟩ = false := Pending.isSatisfied (Or.inl (by omega))
  have hout : isHeaderOut ⟨p⟩ = false := by
    rw [Bool.eq_false_iff, Ne, isHeaderOut_iff (by omega)]
    omega
  have hout' : isHeaderOut ⟨p ++ data⟩ = false := by
    rw [Bool.eq_false_iff, Ne, isHeaderOut_iff (by omega)]
    omega
  have hlength : length ⟨p ++ data⟩ = 0 := by
    refine if_pos ?_
    rw [UInt64.lt_iff_toNat_lt, toNat_size (show (p ++ data).length < _ by omega)]
    exact hshort
  have hheader : tryDecodeHeader ⟨p⟩ data = .ok (data.length, ⟨p ++ data⟩) := by
    rw [tryDecodeHeader, decodeHeader_part (by omega)]
    simp [hlength]
  rw [tryDecode, hwait, hout, hheader]
  simp [Except.bind, hout']

/-- The header ends in the call: what is reserved decides. -/
lemma tryDecodeHeader_whole (hp : p.length < 5) (hlen : 5 ≤ (p ++ data).length) :
    tryDecodeHeader ⟨p⟩ data
      = if 2 ^ 31 ≤ announced (p ++ data) ∧ announced (p ++ data) < 2 ^ 32 - 5
        then .error .lengthError
        else .ok (5 - p.length, ⟨(p ++ data).take 5⟩) := by
  have happend : (p ++ data).length = p.length + data.length := List.length_append
  have htake : (data.take (5 - p.length)).length = 5 - p.length := by
    rw [List.length_take]
    omega
  have hheader : decodeHeader ⟨p⟩ data = (5 - p.length, ⟨(p ++ data).take 5⟩) := by
    have hwhole : decodeHeader ⟨p⟩ (data.take (5 - p.length) ++ data.drop (5 - p.length)) = _ :=
      decodeHeader_whole (by omega)
    rw [List.take_append_drop, htake] at hwhole
    rw [hwhole, List.take_append, List.take_of_length_le (by omega : p.length ≤ 5)]
  have hfive : ((p ++ data).take 5).length = 5 := by
    rw [List.length_take]
    omega
  have hlength := toNat_length (le_of_eq hfive.symm) (by omega)
  rw [announced_take (by omega) hlen] at hlength
  have hlt := announced_lt (p ++ data)
  rw [tryDecodeHeader, hheader]
  have hreserve : ((length ⟨(p ++ data).take 5⟩ > 0
      && kHeaderBytes + length ⟨(p ++ data).take 5⟩ > maxSize) = true)
      ↔ 2 ^ 31 ≤ announced (p ++ data) ∧ announced (p ++ data) < 2 ^ 32 - 5 := by
    rw [Bool.and_eq_true, decide_eq_true_iff, decide_eq_true_iff, gt_iff_lt, gt_iff_lt,
      UInt64.lt_iff_toNat_lt, UInt64.lt_iff_toNat_lt, UInt64.toNat_add, hlength]
    show 0 < _ ∧ 2 ^ 63 - 1 < (5 + _) % 2 ^ 64 ↔ _
    split <;> omega
  simp only [hreserve]

/-- A header that announces too much for a vector stops the call. -/
lemma tryDecode_high (hp : p.length < 5) (hlen : 5 ≤ (p ++ data).length)
    (hhigh : 2 ^ 31 ≤ announced (p ++ data)) (hlt : announced (p ++ data) < 2 ^ 32 - 5) :
    tryDecode ⟨p⟩ data = .error .lengthError := by
  have hwait : isSatisfied ⟨p⟩ = false := Pending.isSatisfied (Or.inl hp)
  have hout : isHeaderOut ⟨p⟩ = false := by
    rw [Bool.eq_false_iff, Ne, isHeaderOut_iff (by omega)]
    omega
  have hheader := tryDecodeHeader_whole hp hlen
  rw [if_pos ⟨hhigh, hlt⟩] at hheader
  rw [tryDecode, hwait, hout, hheader]
  rfl

/-- Behind a header that announces a length below `2 ^ 31`, a call takes what is there of it. -/
lemma tryDecodeBody_low {q rest : List UInt8} (h5 : 5 ≤ q.length) (hlow : announced q < 2 ^ 31)
    (hpart : q.length ≤ 5 + announced q) :
    tryDecodeBody ⟨q⟩ rest
      = .ok (min (5 + announced q - q.length) rest.length,
          ⟨(q ++ rest).take (5 + announced q)⟩) := by
  have h64 : q.length < 2 ^ 64 := by omega
  have hlength := toNat_length h5 h64
  rw [if_pos hlow] at hlength
  have hpackage : (kHeaderBytes + length ⟨q⟩).toNat = 5 + announced q := by
    rw [UInt64.toNat_add, hlength]
    show (5 + announced q) % 2 ^ 64 = _
    omega
  have hexpected : (kHeaderBytes + length ⟨q⟩ - size ⟨q⟩).toNat = 5 + announced q - q.length := by
    rw [UInt64.toNat_sub_of_le, hpackage, toNat_size h64]
    rw [UInt64.le_iff_toNat_le, hpackage, toNat_size h64]
    exact hpart
  have hfits : ¬kHeaderBytes + length ⟨q⟩ - size ⟨q⟩ > maxSize := by
    rw [gt_iff_lt, UInt64.lt_iff_toNat_lt, hexpected]
    show ¬2 ^ 63 - 1 < _
    omega
  rw [tryDecodeBody, if_neg hfits, decodeBody]
  simp only [hexpected]
  rw [List.take_append, List.take_of_length_le hpart, ← List.take_eq_take_min]

/-- Behind a header whose length wraps round, there is no end of the frame to add up to. -/
lemma tryDecodeBody_wrapped {q : List UInt8} (h5 : q.length = 5)
    (hhigh : 2 ^ 32 - 5 ≤ announced q) (rest : List UInt8) :
    tryDecodeBody ⟨q⟩ rest = .error .pointerOverflow := by
  have h64 : q.length < 2 ^ 64 := by omega
  have hlt := announced_lt q
  have hlength := toNat_length (le_of_eq h5.symm) h64
  rw [if_neg (by omega)] at hlength
  have hexceeds : kHeaderBytes + length ⟨q⟩ - size ⟨q⟩ > maxSize := by
    rw [gt_iff_lt, UInt64.lt_iff_toNat_lt, UInt64.toNat_sub, UInt64.toNat_add, hlength,
      toNat_size h64]
    show 2 ^ 63 - 1 < (2 ^ 64 - q.length + (5 + (2 ^ 64 - 2 ^ 32 + announced q)) % 2 ^ 64) % 2 ^ 64
    omega
  rw [tryDecodeBody, if_pos hexceeds]

/-- Behind a whole header, with a length below `2 ^ 31`, a call takes what is there of the
payload. -/
lemma tryDecode_low_payload (h5 : 5 ≤ p.length) (hlow : announced p < 2 ^ 31)
    (hp : p.length < 5 + announced p) :
    tryDecode ⟨p⟩ data
      = .ok (min data.length (5 + announced p - p.length),
          ⟨(p ++ data).take (5 + announced p)⟩) := by
  have hwait : isSatisfied ⟨p⟩ = false :=
    Pending.isSatisfied (Or.inr (Or.inl ⟨hlow, hp⟩))
  have hout : isHeaderOut ⟨p⟩ = true := (isHeaderOut_iff (by omega)).mpr h5
  rw [tryDecode, hwait, hout]
  simp only [Bool.false_eq_true, if_false, if_true, Except.bind, Bool.true_and,
    decide_eq_true_eq, List.drop_zero, hout, tryDecodeBody_low h5 hlow (le_of_lt hp)]
  split
  · simp [Except.map, min_comm]
  · next hnone =>
      have hdata : data = [] := List.eq_nil_of_length_eq_zero (by omega)
      subst hdata
      simp [List.take_of_length_le (le_of_lt hp)]

/-- A call that ends the header, with a length below `2 ^ 31`, takes what is there of the payload
behind it. -/
lemma tryDecode_low_header (h5 : p.length < 5) (hlen : 5 ≤ (p ++ data).length)
    (hlow : announced (p ++ data) < 2 ^ 31) :
    tryDecode ⟨p⟩ data
      = .ok (min data.length (5 + announced (p ++ data) - p.length),
          ⟨(p ++ data).take (5 + announced (p ++ data))⟩) := by
  have happend : (p ++ data).length = p.length + data.length := List.length_append
  have hwait : isSatisfied ⟨p⟩ = false := Pending.isSatisfied (Or.inl h5)
  have hout : isHeaderOut ⟨p⟩ = false := by
    rw [Bool.eq_false_iff, Ne, isHeaderOut_iff (by omega)]
    omega
  have hfive : ((p ++ data).take 5).length = 5 := by
    rw [List.length_take]
    omega
  have hout' : isHeaderOut ⟨(p ++ data).take 5⟩ = true :=
    (isHeaderOut_iff (by omega)).mpr (by omega)
  have hsame := announced_take (by omega : 4 ≤ 5) hlen
  have hsplit : (p ++ data).take 5 ++ data.drop (5 - p.length) = p ++ data := by
    conv_rhs => rw [← List.take_append_drop 5 (p ++ data)]
    rw [List.drop_append, List.drop_of_length_le (by omega : p.length ≤ 5), List.nil_append]
  have hheader := tryDecodeHeader_whole h5 hlen
  rw [if_neg (by omega)] at hheader
  have hbody : tryDecodeBody ⟨(p ++ data).take 5⟩ (data.drop (5 - p.length)) = _ :=
    tryDecodeBody_low (by omega) (by omega) (by omega)
  rw [hsame, hsplit, hfive, List.length_drop] at hbody
  rw [tryDecode, hwait, hout, hheader]
  simp only [Bool.false_eq_true, if_false, Except.bind, hout', Bool.true_and,
    decide_eq_true_eq, hbody]
  split
  · simp only [Except.map]
    congr 2
    omega
  · next hnone =>
      congr 2
      · omega
      · rw [List.take_of_length_le (by omega : (p ++ data).length ≤ 5),
          List.take_of_length_le (by omega)]

/-- With a length below `2 ^ 31` announced, a call takes what is there of the frame, and nothing
behind it. -/
lemma tryDecode_low (hp : p.length < 5 + announced (p ++ data)) (hlen : 5 ≤ (p ++ data).length)
    (hlow : announced (p ++ data) < 2 ^ 31) :
    tryDecode ⟨p⟩ data
      = .ok (min data.length (5 + announced (p ++ data) - p.length),
          ⟨(p ++ data).take (5 + announced (p ++ data))⟩) := by
  by_cases h5 : 5 ≤ p.length
  · have hsame := announced_append (by omega : 4 ≤ p.length) data
    rw [hsame] at hp hlow ⊢
    exact tryDecode_low_payload h5 hlow hp
  · exact tryDecode_low_header (by omega) hlen hlow

/-- A header whose length wraps round is taken, if nothing is behind it. -/
lemma tryDecode_wrapped_header (hp : p.length < 5) (hlen : (p ++ data).length = 5)
    (hhigh : 2 ^ 32 - 5 ≤ announced (p ++ data)) :
    tryDecode ⟨p⟩ data = .ok (data.length, ⟨p ++ data⟩) := by
  have happend : (p ++ data).length = p.length + data.length := List.length_append
  have hwait : isSatisfied ⟨p⟩ = false := Pending.isSatisfied (Or.inl hp)
  have hout : isHeaderOut ⟨p⟩ = false := by
    rw [Bool.eq_false_iff, Ne, isHeaderOut_iff (by omega)]
    omega
  have hheader := tryDecodeHeader_whole hp (le_of_eq hlen.symm)
  rw [if_neg (by omega), List.take_of_length_le (by omega)] at hheader
  have hnone : ¬data.length > 5 - p.length := by omega
  rw [tryDecode, hwait, hout, hheader]
  simp only [Bool.false_eq_true, if_false, Except.bind, hnone, decide_false, Bool.and_false]
  rw [show 5 - p.length = data.length by omega]

/-- With something behind it, the end of the frame cannot be found. -/
lemma tryDecode_wrapped_body (hp : p.length ≤ 5) (hlen : 5 < (p ++ data).length)
    (hhigh : 2 ^ 32 - 5 ≤ announced (p ++ data)) :
    tryDecode ⟨p⟩ data = .error .pointerOverflow := by
  have happend : (p ++ data).length = p.length + data.length := List.length_append
  have hfive : ((p ++ data).take 5).length = 5 := by
    rw [List.length_take]
    omega
  have hsame := announced_take (by omega : 4 ≤ 5) (by omega : 5 ≤ (p ++ data).length)
  have hbody := tryDecodeBody_wrapped hfive (by omega)
  have hout' : isHeaderOut ⟨(p ++ data).take 5⟩ = true :=
    (isHeaderOut_iff (by omega)).mpr (by omega)
  by_cases h5 : p.length = 5
  · have hp5 : (p ++ data).take 5 = p := by rw [← h5, List.take_left]
    rw [hp5] at hout' hbody hsame
    have hwait := isSatisfied_wrapped h5 (by omega)
    have hmore : data.length > 0 := by omega
    rw [tryDecode, hwait, hout']
    simp [Except.bind, hout', hmore, hbody, Except.map]
  · have hwait : isSatisfied ⟨p⟩ = false := Pending.isSatisfied (Or.inl (by omega))
    have hout : isHeaderOut ⟨p⟩ = false := by
      rw [Bool.eq_false_iff, Ne, isHeaderOut_iff (by omega)]
      omega
    have hheader := tryDecodeHeader_whole (by omega : p.length < 5)
      (by omega : 5 ≤ (p ++ data).length)
    rw [if_neg (by omega)] at hheader
    have hmore : data.length > 5 - p.length := by omega
    rw [tryDecode, hwait, hout, hheader]
    simp only [Bool.false_eq_true, if_false, Except.bind, hout', hmore, decide_true,
      Bool.and_true, if_true, hbody, Except.map]

/-! ### What a call can do -/

/-- The buffer holds a header and exactly what it announces. -/
def IsFrame (m : Message) : Prop := m.buffer_.length = 5 + announced m.buffer_

/-- The frame at the head of some bytes. -/
lemma isFrame_take {bytes : List UInt8} (hlen : 5 + announced bytes ≤ bytes.length) :
    IsFrame ⟨bytes.take (5 + announced bytes)⟩ := by
  rw [IsFrame, announced_take (by omega) hlen, List.length_take]
  omega

/-- The decoder holds a frame that announces a length below `2 ^ 31` when it is there. -/
lemma isSatisfied_take {bytes : List UInt8} (hlow : announced bytes < 2 ^ 31)
    (hlen : 5 + announced bytes ≤ bytes.length) :
    isSatisfied ⟨bytes.take (5 + announced bytes)⟩ = true := by
  have htake : (bytes.take (5 + announced bytes)).length = 5 + announced bytes := by
    rw [List.length_take]
    omega
  have hsame := announced_take (by omega : 4 ≤ 5 + announced bytes) hlen
  rw [isSatisfied_low (by omega) (by omega) (by omega), hsame, htake]
  exact decide_eq_true rfl

/-- The header announces a length that is taken for a negative one, and more than the header is
there, unless the length wraps round. -/
def Negative (bytes : List UInt8) : Prop :=
  5 ≤ bytes.length ∧ 2 ^ 31 ≤ announced bytes
    ∧ ¬(bytes.length = 5 ∧ 2 ^ 32 - 5 ≤ announced bytes)

/-- A call on a decoder that waits for more fails, or takes everything and waits on, or takes what
is missing of a frame. -/
lemma tryDecode_cases (hp : Pending p) (hdata : data ≠ []) :
    (∃ fault, tryDecode ⟨p⟩ data = .error fault ∧ Negative (p ++ data))
      ∨ tryDecode ⟨p⟩ data = .ok (data.length, ⟨p ++ data⟩) ∧ Pending (p ++ data)
      ∨ announced (p ++ data) < 2 ^ 31 ∧ 5 + announced (p ++ data) ≤ (p ++ data).length
        ∧ p.length < 5 + announced (p ++ data)
        ∧ tryDecode ⟨p⟩ data
          = .ok (5 + announced (p ++ data) - p.length,
              ⟨(p ++ data).take (5 + announced (p ++ data))⟩) := by
  have happend : (p ++ data).length = p.length + data.length := List.length_append
  have hpos := List.length_pos_of_ne_nil hdata
  have hsame : 4 ≤ p.length → announced (p ++ data) = announced p := fun h =>
    announced_append h data
  by_cases hlen : 5 ≤ (p ++ data).length
  · by_cases hlow : announced (p ++ data) < 2 ^ 31
    · have hpart : p.length < 5 + announced (p ++ data) := by
        rcases hp with hshort | ⟨-, hpart⟩ | ⟨h5, hhigh⟩
        · omega
        · by_cases h4 : 4 ≤ p.length
          · rwa [hsame h4]
          · omega
        · have := hsame (by omega)
          omega
      have hcall := tryDecode_low hpart hlen hlow
      by_cases hwhole : 5 + announced (p ++ data) ≤ (p ++ data).length
      · rw [min_eq_right (by omega)] at hcall
        exact Or.inr (Or.inr ⟨hlow, hwhole, hpart, hcall⟩)
      · rw [min_eq_left (by omega), List.take_of_length_le (by omega)] at hcall
        exact Or.inr (Or.inl ⟨hcall, Or.inr (Or.inl ⟨hlow, by omega⟩)⟩)
    · have hp5 : p.length ≤ 5 := by
        rcases hp with hshort | ⟨hlow', hpart⟩ | ⟨h5, -⟩
        · omega
        · by_contra hlong
          have := hsame (by omega)
          omega
        · omega
      by_cases hwrap : 2 ^ 32 - 5 ≤ announced (p ++ data)
      · by_cases hend : (p ++ data).length = 5
        · exact Or.inr (Or.inl ⟨tryDecode_wrapped_header (by omega) hend hwrap,
            Or.inr (Or.inr ⟨hend, hwrap⟩)⟩)
        · exact Or.inl ⟨_, tryDecode_wrapped_body hp5 (by omega) hwrap, hlen, by omega,
            fun h => hend h.1⟩
      · have hshort : p.length < 5 := by
          rcases hp with hshort | ⟨hlow', -⟩ | ⟨h5, hhigh⟩
          · exact hshort
          · by_contra hlong
            have := hsame (by omega)
            omega
          · have := hsame (by omega)
            omega
        exact Or.inl ⟨_, tryDecode_high hshort hlen (by omega) (by omega), hlen, by omega,
          fun h => hwrap h.2⟩
  · exact Or.inr (Or.inl ⟨tryDecode_short (by omega), Or.inl (by omega)⟩)

end Message

end Gossip

end Cdcf
