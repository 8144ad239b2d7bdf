import Mathlib.Algebra.Group.Nat.Defs
import Mathlib.Data.Nat.Notation
import Mathlib.Data.List.Basic

/-!
# RTP packets

What `rtp-session.ts` receives and the packets that it builds. Bytes are `UInt8`; the samples of the
mu-law package are 16-bit words, and its decoder is a parameter.

* `handleIncomingPacket`: what the audio callback is called with. A read outside of the packet is an
  error, `receives_inside` says that there is none.
* `buildPacket`: the packet of a payload.
* `RtpPacket`: the well-formed packets without padding, and their bytes.
* `extracts_iff`: which of them are received as their payload.
-/

namespace VoiceServer

/-- A read outside of a buffer. -/
structure OutOfRange where
  index : ℕ
  deriving DecidableEq

/-- `RTP_HEADER_SIZE`. -/
def rtpHeaderSize : ℕ := 12

/-- `buffer[i]`. -/
def readUInt8 (buffer : List UInt8) (i : ℕ) : Except OutOfRange UInt8 :=
  match buffer[i]? with
  | some b => .ok b
  | none => .error ⟨i⟩

/-- `buffer.readUInt16BE(i)`. -/
def readUInt16BE (buffer : List UInt8) (i : ℕ) : Except OutOfRange ℕ := do
  let high ← readUInt8 buffer i
  let low ← readUInt8 buffer (i + 1)
  return high.toNat * 256 + low.toNat

/-- A word as `writeUInt16BE` writes it. -/
def be16 (v : BitVec 16) : List UInt8 := [.ofNat (v.toNat / 256), .ofNat v.toNat]

/-- A word as `writeUInt32BE` writes it. -/
def be32 (v : BitVec 32) : List UInt8 :=
  [.ofNat (v.toNat / 2 ^ 24), .ofNat (v.toNat / 2 ^ 16), .ofNat (v.toNat / 2 ^ 8), .ofNat v.toNat]

/-- The bytes of samples, the low one first. -/
def pcmBytes (samples : List (BitVec 16)) : List UInt8 :=
  samples.flatMap fun s => [.ofNat s.toNat, .ofNat (s.toNat / 256)]

/-- The offset of the payload in a packet with this first byte. -/
def payloadOffset (packet : List UInt8) (first : UInt8) : Except OutOfRange ℕ :=
  -- The CSRC list follows the fixed header, the extension follows the CSRC list.
  let cc := (first &&& 0x0F).toNat
  let hasExtension := first &&& 0x10 ≠ 0
  let offset := rtpHeaderSize + cc * 4
  if hasExtension ∧ packet.length > offset + 4 then do
    let extLength ← readUInt16BE packet (offset + 2)
    return offset + (4 + extLength * 4)
  else .ok offset

/-- `handleIncomingPacket`: the PCM that the audio callback is called with, if it is. -/
def handleIncomingPacket (decode : List UInt8 → List (BitVec 16)) (packet : List UInt8) :
    Except OutOfRange (Option (List UInt8)) := do
  if packet.length < rtpHeaderSize then return none
  let offset ← payloadOffset packet (← readUInt8 packet 0)
  if offset ≥ packet.length then return none
  return some (pcmBytes (decode (packet.drop offset)))

/-- `buildRtpPacket`: version 2, no padding, no extension, no CSRC, no marker, payload type 0. -/
def buildPacket (sequenceNumber : BitVec 16) (timestamp ssrc : BitVec 32) (payload : List UInt8) :
    List UInt8 :=
  [0x80, 0x00] ++ be16 sequenceNumber ++ be32 timestamp ++ be32 ssrc ++ payload

/-- A header extension: what its profile defines, and its 32-bit words. -/
structure HeaderExtension where
  profile : BitVec 16
  words : List (BitVec 32)
  length_lt : words.length < 2 ^ 16

/-- A packet of version 2 with payload type 0 (PCMU) and without padding. -/
structure RtpPacket where
  marker : Bool
  sequenceNumber : BitVec 16
  timestamp : BitVec 32
  ssrc : BitVec 32
  csrcs : List (BitVec 32)
  csrcs_le : csrcs.length ≤ 15
  extension : Option HeaderExtension
  payload : List UInt8

/-- The bytes of an extension: its profile, the number of its words, and the words. -/
def HeaderExtension.bytes (x : HeaderExtension) : List UInt8 :=
  be16 x.profile ++ be16 (.ofNat 16 x.words.length) ++ x.words.flatMap be32

namespace RtpPacket

/-- The first byte: the version, the extension bit and the CSRC count. -/
def firstByte (p : RtpPacket) : UInt8 :=
  .ofNat (0x80 + (if p.extension.isSome then 0x10 else 0) + p.csrcs.length)

/-- The bytes between the CSRC list and the payload. -/
def extensionBytes (p : RtpPacket) : List UInt8 := (p.extension.map HeaderExtension.bytes).getD []

/-- The bytes of a packet. -/
def bytes (p : RtpPacket) : List UInt8 :=
  [p.firstByte, if p.marker then 0x80 else 0x00] ++ be16 p.sequenceNumber ++ be32 p.timestamp ++
    be32 p.ssrc ++ p.csrcs.flatMap be32 ++ p.extensionBytes ++ p.payload

end RtpPacket

/-- What the callback is called with for a payload: its decoding, unless it is empty. -/
def audioOf (decode : List UInt8 → List (BitVec 16)) (payload : List UInt8) : Option (List UInt8) :=
  if payload = [] then none else some (pcmBytes (decode payload))

/-- The packet is received as its payload. -/
def Extracts (decode : List UInt8 → List (BitVec 16)) (p : RtpPacket) : Prop :=
  handleIncomingPacket decode p.bytes = .ok (audioOf decode p.payload)

/-- The packet ends with an extension that has no words. -/
def EndsWithEmptyExtension (p : RtpPacket) : Prop :=
  (∃ x, p.extension = some x ∧ x.words = []) ∧ p.payload = []

/-! ### Reading -/

theorem readUInt8_ok {buffer : List UInt8} {i : ℕ} (h : i < buffer.length) :
    readUInt8 buffer i = .ok buffer[i] := by
  rw [readUInt8, List.getElem?_eq_getElem h]

theorem readUInt16BE_ok {buffer : List UInt8} {i : ℕ} (h : i + 1 < buffer.length) :
    readUInt16BE buffer i = .ok (buffer[i].toNat * 256 + buffer[i + 1].toNat) := by
  rw [readUInt16BE, readUInt8_ok (Nat.lt_of_succ_lt h), readUInt8_ok h]
  rfl

/-- A word is read as it was written. -/
theorem readUInt16BE_be16 (before : List UInt8) (v : BitVec 16) (after : List UInt8) :
    readUInt16BE (before ++ be16 v ++ after) before.length = .ok v.toNat := by
  have hlength : before.length + 1 < (before ++ be16 v ++ after).length := by
    simp only [List.length_append, be16, List.length_cons]
    omega
  rw [readUInt16BE_ok hlength]
  have hhigh : (before ++ be16 v ++ after)[before.length] = UInt8.ofNat (v.toNat / 256) := by
    simp [be16]
  have hlow : (before ++ be16 v ++ after)[before.length + 1] = UInt8.ofNat v.toNat := by
    simp [be16]
  rw [hhigh, hlow, UInt8.toNat_ofNat', UInt8.toNat_ofNat']
  apply congrArg
  have := v.isLt
  omega

/-- The payload from an offset on. -/
def audioFrom (decode : List UInt8 → List (BitVec 16)) (packet : List UInt8) (offset : ℕ) :
    Option (List UInt8) :=
  if offset ≥ packet.length then none else some (pcmBytes (decode (packet.drop offset)))

variable {decode : List UInt8 → List (BitVec 16)} {packet : List UInt8} {first : UInt8}

/-- The payload starts at the offset that the header gives. -/
theorem handleIncomingPacket_of_offset (hlong : rtpHeaderSize ≤ packet.length)
    (hfirst : packet[0]? = some first) {offset : ℕ}
    (h : payloadOffset packet first = .ok offset) :
    handleIncomingPacket decode packet = .ok (audioFrom decode packet offset) := by
  have hread : readUInt8 packet 0 = .ok first := by
    rw [readUInt8, hfirst]
  rw [handleIncomingPacket, if_neg (Nat.not_lt.mpr hlong), hread]
  show payloadOffset packet first >>= _ = _
  rw [h, audioFrom]
  show (if offset ≥ packet.length then _ else _) = _
  split_ifs <;> rfl

/-- Without an extension, or when its four bytes and one more are not there, the payload follows the
CSRC list. -/
theorem handleIncomingPacket_plain (hlong : rtpHeaderSize ≤ packet.length)
    (hfirst : packet[0]? = some first)
    (hplain : ¬ (first &&& 0x10 ≠ 0 ∧
      packet.length > rtpHeaderSize + (first &&& 0x0F).toNat * 4 + 4)) :
    handleIncomingPacket decode packet =
      .ok (audioFrom decode packet (rtpHeaderSize + (first &&& 0x0F).toNat * 4)) := by
  apply handleIncomingPacket_of_offset hlong hfirst
  rw [payloadOffset, if_neg hplain]

/-- With an extension, the payload follows the words that it declares. -/
theorem handleIncomingPacket_extended (hlong : rtpHeaderSize ≤ packet.length)
    (hfirst : packet[0]? = some first)
    (hextended : first &&& 0x10 ≠ 0 ∧
      packet.length > rtpHeaderSize + (first &&& 0x0F).toNat * 4 + 4) {n : ℕ}
    (hn : readUInt16BE packet (rtpHeaderSize + (first &&& 0x0F).toNat * 4 + 2) = .ok n) :
    handleIncomingPacket decode packet =
      .ok (audioFrom decode packet
        (rtpHeaderSize + (first &&& 0x0F).toNat * 4 + (4 + n * 4))) := by
  apply handleIncomingPacket_of_offset hlong hfirst
  rw [payloadOffset, if_pos hextended, hn]
  rfl

/-- Every byte string is received without a read outside of it. -/
theorem receives_inside (decode : List UInt8 → List (BitVec 16)) (packet : List UInt8) :
    ∃ audio, handleIncomingPacket decode packet = .ok audio := by
  by_cases hshort : packet.length < rtpHeaderSize
  · refine ⟨none, ?_⟩
    rw [handleIncomingPacket, if_pos hshort]
    rfl
  · have hlong := Nat.le_of_not_lt hshort
    have hpos : 0 < packet.length := Nat.lt_of_lt_of_le (by decide) hlong
    have hfirst : packet[0]? = some packet[0] := List.getElem?_eq_getElem hpos
    by_cases hextended : packet[0] &&& 0x10 ≠ 0 ∧
        packet.length > rtpHeaderSize + (packet[0] &&& 0x0F).toNat * 4 + 4
    · -- The two bytes of the length are the last ones that are read.
      have hread : rtpHeaderSize + (packet[0] &&& 0x0F).toNat * 4 + 2 + 1 < packet.length := by omega
      exact ⟨_, handleIncomingPacket_extended hlong hfirst hextended (readUInt16BE_ok hread)⟩
    · exact ⟨_, handleIncomingPacket_plain hlong hfirst hextended⟩

/-! ### Well-formed packets -/

@[simp] theorem length_be16 (v : BitVec 16) : (be16 v).length = 2 := rfl

@[simp] theorem length_be32 (v : BitVec 32) : (be32 v).length = 4 := rfl

namespace RtpPacket

variable (p : RtpPacket)

/-- The bytes before the extension. -/
def head : List UInt8 :=
  [p.firstByte, if p.marker then 0x80 else 0x00] ++ be16 p.sequenceNumber ++ be32 p.timestamp ++
    be32 p.ssrc ++ p.csrcs.flatMap be32

theorem bytes_eq : p.bytes = p.head ++ p.extensionBytes ++ p.payload := rfl

theorem length_head : p.head.length = rtpHeaderSize + p.csrcs.length * 4 := by
  simp [head, rtpHeaderSize]
  omega

theorem first_bytes : p.bytes[0]? = some p.firstByte := rfl

theorem long_bytes : rtpHeaderSize ≤ p.bytes.length := by
  rw [bytes_eq, List.length_append, List.length_append, length_head]
  omega

/-- The first byte carries the CSRC count and the extension bit. -/
theorem firstByte_bits : (p.firstByte &&& 0x0F).toNat = p.csrcs.length ∧
    (p.firstByte &&& 0x10 ≠ 0 ↔ p.extension.isSome = true) := by
  have hall : ∀ (cc : Fin 16) (x : Bool),
      (UInt8.ofNat (0x80 + (if x then 0x10 else 0) + cc) &&& 0x0F).toNat = cc ∧
        (UInt8.ofNat (0x80 + (if x then 0x10 else 0) + cc) &&& 0x10 ≠ 0 ↔ x = true) := by
    decide
  exact hall ⟨p.csrcs.length, Nat.lt_succ_of_le p.csrcs_le⟩ p.extension.isSome

/-- The payload from the end of what comes before it on. -/
theorem audioFrom_bytes (decode : List UInt8 → List (BitVec 16)) (before payload : List UInt8) :
    audioFrom decode (before ++ payload) before.length = audioOf decode payload := by
  rw [audioFrom, audioOf, List.drop_left, List.length_append]
  by_cases hpayload : payload = []
  · rw [if_pos (by simp [hpayload]), if_pos hpayload]
  · have hpos := List.length_pos_iff.mpr hpayload
    rw [if_neg (by omega), if_neg hpayload]

/-- A packet without an extension is received as its payload. -/
theorem extracts_of_none (hnone : p.extension = none) : Extracts decode p := by
  obtain ⟨hcc, hbit⟩ := p.firstByte_bits
  have hplain : ¬ p.firstByte &&& 0x10 ≠ 0 := by
    rw [hbit, hnone]
    exact Bool.false_ne_true
  rw [Extracts, handleIncomingPacket_plain p.long_bytes p.first_bytes fun h => hplain h.1, hcc,
    ← length_head, bytes_eq, extensionBytes, hnone]
  show Except.ok (audioFrom decode (p.head ++ [] ++ p.payload) p.head.length) = _
  rw [List.append_nil, audioFrom_bytes]

/-- The number of words of an extension is where the receiver reads it. -/
theorem readUInt16BE_bytes {x : HeaderExtension} (hx : p.extension = some x) :
    readUInt16BE p.bytes (p.head.length + 2) = .ok x.words.length := by
  have hbytes : p.bytes = (p.head ++ be16 x.profile) ++ be16 (.ofNat 16 x.words.length) ++
      (x.words.flatMap be32 ++ p.payload) := by
    simp [bytes_eq, extensionBytes, hx, HeaderExtension.bytes]
  have hread := readUInt16BE_be16 (p.head ++ be16 x.profile) (.ofNat 16 x.words.length)
    (x.words.flatMap be32 ++ p.payload)
  rw [List.length_append, length_be16] at hread
  rw [hbytes, hread, BitVec.toNat_ofNat, Nat.mod_eq_of_lt x.length_lt]

theorem length_extension (x : HeaderExtension) : x.bytes.length = 4 + x.words.length * 4 := by
  simp [HeaderExtension.bytes]
  omega

/-- A packet with an extension is received as its payload, unless it ends with an extension that has
no words: then the four bytes of this one are taken for the payload. -/
theorem extracts_of_some {x : HeaderExtension} (hx : p.extension = some x) :
    Extracts decode p ↔ ¬ (x.words = [] ∧ p.payload = []) := by
  obtain ⟨hcc, hbit⟩ := p.firstByte_bits
  have hset : p.firstByte &&& 0x10 ≠ 0 := by
    rw [hbit, hx]
    rfl
  have hbytes : p.bytes = p.head ++ x.bytes ++ p.payload := by
    rw [bytes_eq, extensionBytes, hx]
    rfl
  have hlength : p.bytes.length =
      p.head.length + (4 + x.words.length * 4) + p.payload.length := by
    rw [hbytes, List.length_append, List.length_append, length_extension]
  have hread := p.readUInt16BE_bytes hx
  by_cases hempty : x.words = [] ∧ p.payload = []
  · -- The packet is no longer than the four bytes, and the receiver asks for one more.
    obtain ⟨hwords, hpayload⟩ := hempty
    refine iff_of_false ?_ fun h => h ⟨hwords, hpayload⟩
    rw [hwords, hpayload, List.length_nil, List.length_nil] at hlength
    have hplain : ¬ (p.firstByte &&& 0x10 ≠ 0 ∧
        p.bytes.length > rtpHeaderSize + (p.firstByte &&& 0x0F).toNat * 4 + 4) := by
      rw [hcc, ← length_head]
      omega
    rw [Extracts, handleIncomingPacket_plain p.long_bytes p.first_bytes hplain, hcc, ← length_head,
      audioFrom, if_neg (by omega), audioOf, if_pos hpayload]
    exact nofun
  · refine iff_of_true ?_ hempty
    have hextended : p.firstByte &&& 0x10 ≠ 0 ∧
        p.bytes.length > rtpHeaderSize + (p.firstByte &&& 0x0F).toNat * 4 + 4 := by
      refine ⟨hset, ?_⟩
      rw [hcc, ← length_head, hlength]
      rcases not_and_or.mp hempty with hwords | hpayload
      · have := List.length_pos_iff.mpr hwords
        omega
      · have := List.length_pos_iff.mpr hpayload
        omega
    rw [length_head, ← hcc] at hread
    rw [Extracts, handleIncomingPacket_extended p.long_bytes p.first_bytes hextended hread, hcc,
      ← length_head, ← length_extension, ← List.length_append, hbytes, audioFrom_bytes]

end RtpPacket

/-- A packet that was built is received as its payload. -/
theorem receives_buildPacket (sequenceNumber : BitVec 16) (timestamp ssrc : BitVec 32)
    (payload : List UInt8) :
    handleIncomingPacket decode (buildPacket sequenceNumber timestamp ssrc payload) =
      .ok (audioOf decode payload) :=
  RtpPacket.extracts_of_none
    { marker := false, sequenceNumber, timestamp, ssrc, csrcs := [], csrcs_le := by decide,
      extension := none, payload } rfl

/-- A well-formed packet is received as its payload exactly if it does not end with an extension
without words; no byte string is read outside of it; and a packet that was built is received as the
payload it was built for. -/
theorem extracts_iff (decode : List UInt8 → List (BitVec 16)) (p : RtpPacket) (packet : List UInt8)
    (sequenceNumber : BitVec 16) (timestamp ssrc : BitVec 32) (payload : List UInt8) :
    (Extracts decode p ↔ ¬ EndsWithEmptyExtension p) ∧
      (∃ audio, handleIncomingPacket decode packet = .ok audio) ∧
      handleIncomingPacket decode (buildPacket sequenceNumber timestamp ssrc payload) =
        .ok (audioOf decode payload) := by
  refine ⟨?_, receives_inside decode packet,
    receives_buildPacket sequenceNumber timestamp ssrc payload⟩
  cases hx : p.extension with
  | none =>
    refine iff_of_true (p.extracts_of_none hx) ?_
    rintro ⟨⟨x, hsome, -⟩, -⟩
    rw [hx] at hsome
    cases hsome
  | some x =>
    rw [p.extracts_of_some hx, EndsWithEmptyExtension, hx]
    simp

/-- A packet of a session that sends an empty extension and no audio. -/
def keepAlive : RtpPacket where
  marker := false
  sequenceNumber := 1
  timestamp := 160
  ssrc := 7
  csrcs := []
  csrcs_le := by decide
  extension := some { profile := 0xBEDE, words := [], length_lt := by decide }
  payload := []

/-- The mu-law decoding of one byte. -/
def decodeSample (b : UInt8) : BitVec 16 :=
  let inverted := 255 - b.toNat
  let exponent := inverted / 16 % 8
  let magnitude :=
    [0, 132, 396, 924, 1980, 4092, 8316, 16764].getD exponent 0 + inverted % 16 * 2 ^ (exponent + 3)
  -- The high bit is the sign.
  if 128 ≤ inverted then -.ofNat 16 magnitude else .ofNat 16 magnitude

/-- The four bytes of the extension are decoded as audio. -/
theorem keepAlive_decoded :
    handleIncomingPacket (List.map decodeSample) keepAlive.bytes =
        .ok (some [0x3C, 0x08, 0xAC, 0x01, 0x84, 0x82, 0x84, 0x82]) ∧
      ¬ Extracts (List.map decodeSample) keepAlive := by
  have hrun : handleIncomingPacket (List.map decodeSample) keepAlive.bytes =
      .ok (some [0x3C, 0x08, 0xAC, 0x01, 0x84, 0x82, 0x84, 0x82]) := by
    decide +kernel
  refine ⟨hrun, fun h => ?_⟩
  rw [Extracts, hrun] at h
  cases h

end VoiceServer
