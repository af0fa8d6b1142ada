import Tnp.Crypto.Encoding
import Tnp.Protocol.StreamMessage

/-!
The frame codec: a header of twenty bytes, then the payload.

version(1) type(1) flags(2) circuitId(8) streamId(4) length(4). A frame carries the limits of
its fields, so that encoding one cannot fail. The version is always the one there is.
-/

namespace Tnp.Protocol

open Tnp.Lib

lemma zero_flags_lt : 0 < 2 ^ 16 := by decide

lemma zero_flags_allowed (type : FrameType) :
    BitVec.ofNat 16 0 &&& ~~~(BitVec.ofNat 16 (allowedFlags type)) = 0 := BitVec.zero_and

lemma nil_payload_le : ([] : Bytes).length ≤ MAX_FRAME_PAYLOAD := Nat.zero_le _

structure Frame where
  type : FrameType
  flags : ℕ := 0
  circuitId : UInt64 := 0
  streamId : UInt32 := 0
  payload : Bytes := []
  flags_lt : flags < 2 ^ 16 := by first | exact zero_flags_lt | decide
  flags_allowed : BitVec.ofNat 16 flags &&& ~~~(BitVec.ofNat 16 (allowedFlags type)) = 0 := by
    first | exact zero_flags_allowed _ | decide
  payload_le : payload.length ≤ MAX_FRAME_PAYLOAD := by first | exact nil_payload_le | decide
  deriving DecidableEq

def encodeFrame (f : Frame) : Bytes :=
  be 1 PROTOCOL_VERSION ++ (be 1 f.type.value ++ (be 2 f.flags ++ (be 8 f.circuitId.toNat ++
    (be 4 f.streamId.toNat ++ (be 4 f.payload.length ++ f.payload)))))

/-- The number in `width` bytes from `offset` on. -/
def readBe (data : Bytes) (offset width : ℕ) : ℕ := ofBe ((data.drop offset).take width)

lemma readBe_lt (data : Bytes) (offset width : ℕ) : readBe data offset width < 256 ^ width :=
  (ofBe_lt _).trans_le (Nat.pow_le_pow_right (by decide) (List.length_take_le _ _))

def toString16 (n : ℕ) : String := String.ofList (Nat.toDigits 16 n)

/-- `toString(16).padStart(2, '0')`, of a byte. -/
def hexByte (n : ℕ) : String :=
  String.ofList [Crypto.hexDigit (n / 16), Crypto.hexDigit (n % 16)]

lemma length_payload_le {data : Bytes} {length : ℕ} (hmax : ¬MAX_FRAME_PAYLOAD < length)
    (hlength : ¬data.length ≠ HEADER_SIZE + length) : (data.drop HEADER_SIZE).length ≤ MAX_FRAME_PAYLOAD := by
  rw [List.length_drop]
  omega

def decodeFrame (data : Bytes) : Except FrameDecodeError Frame :=
  if data.length < HEADER_SIZE then
    .error ⟨s!"Frame too short: {data.length} bytes, need at least {HEADER_SIZE}",
      .PROTOCOL_VIOLATION⟩
  else
    let version := readBe data 0 1
    if version ≠ PROTOCOL_VERSION then
      .error ⟨s!"Unsupported protocol version 0x{hexByte version}", .UNSUPPORTED_VERSION⟩
    else
      match frameTypeOf (readBe data 1 1) with
      | none => .error ⟨s!"Unknown frame type 0x{hexByte (readBe data 1 1)}", .PROTOCOL_VIOLATION⟩
      | some type =>
        let flags := readBe data 2 2
        let stray := BitVec.ofNat 16 flags &&& ~~~(BitVec.ofNat 16 (allowedFlags type))
        if hflags : stray = 0 then
          let length := readBe data 16 4
          if hmax : MAX_FRAME_PAYLOAD < length then
            .error ⟨s!"Declared payload of {length} bytes exceeds MAX_FRAME_PAYLOAD " ++
              s!"({MAX_FRAME_PAYLOAD})", .PROTOCOL_VIOLATION⟩
          else if hlength : data.length ≠ HEADER_SIZE + length then
            .error ⟨s!"Frame length mismatch: header declares {length} payload bytes, " ++
              s!"frame carries {data.length - HEADER_SIZE}", .PROTOCOL_VIOLATION⟩
          else
            .ok {
              type, flags
              circuitId := UInt64.ofNat (readBe data 4 8)
              streamId := UInt32.ofNat (readBe data 12 4)
              payload := data.drop HEADER_SIZE
              flags_lt := readBe_lt data 2 2
              flags_allowed := hflags
              payload_le := length_payload_le hmax hlength }
        else
          .error ⟨s!"Unknown flag bits set for this frame type: 0x{toString16 stray.toNat}",
            .PROTOCOL_VIOLATION⟩

lemma be_readBe {data : Bytes} {offset width : ℕ} (h : offset + width ≤ data.length) :
    be width (readBe data offset width) = (data.drop offset).take width := by
  have hlength : ((data.drop offset).take width).length = width := by
    rw [List.length_take, List.length_drop]
    omega
  have hbe := be_ofBe ((data.drop offset).take width)
  rwa [hlength] at hbe

lemma take_append_drop_drop (data : Bytes) (offset width : ℕ) :
    (data.drop offset).take width ++ data.drop (offset + width) = data.drop offset := by
  rw [← List.drop_drop, List.take_append_drop]

/-- **What decodes is the encoding of what it decodes to.** -/
theorem encodeFrame_of_decodeFrame {data : Bytes} {f : Frame} (h : decodeFrame data = .ok f) :
    encodeFrame f = data := by
  unfold decodeFrame at h
  split at h
  · simp at h
  next hshort =>
  dsimp only at h
  split at h
  · simp at h
  next hversion =>
  split at h
  · simp at h
  next type htype =>
  split at h
  swap
  · simp at h
  split at h
  · simp at h
  split at h
  · simp at h
  next hlength =>
  rw [not_not] at hversion hlength
  unfold HEADER_SIZE at hshort hlength
  obtain rfl := Except.ok.inj h
  have hcircuit : (UInt64.ofNat (readBe data 4 8)).toNat = readBe data 4 8 :=
    UInt64.toNat_ofNat_of_lt' (readBe_lt data 4 8)
  have hstream : (UInt32.ofNat (readBe data 12 4)).toNat = readBe data 12 4 :=
    UInt32.toNat_ofNat_of_lt' (readBe_lt data 12 4)
  have hpayload : (data.drop HEADER_SIZE).length = readBe data 16 4 := by
    rw [List.length_drop, HEADER_SIZE]
    omega
  unfold encodeFrame
  simp only [hcircuit, hstream, hpayload]
  rw [← hversion, frameTypeOf_eq_some htype]
  -- field by field, each is the bytes it was read from
  rw [be_readBe (by omega), be_readBe (by omega), be_readBe (by omega), be_readBe (by omega),
    be_readBe (by omega), be_readBe (by omega)]
  rw [HEADER_SIZE, take_append_drop_drop data 16 4, take_append_drop_drop data 12 4,
    take_append_drop_drop data 4 8, take_append_drop_drop data 2 2, take_append_drop_drop data 1 1,
    take_append_drop_drop data 0 1, List.drop_zero]

/-- A field is read back from where it was put. -/
lemma readBe_be (before : Bytes) {after : Bytes} {offset width n : ℕ}
    (hoffset : before.length = offset) (hn : n < 256 ^ width) :
    readBe (before ++ (be width n ++ after)) offset width = n := by
  rw [readBe, List.drop_left' hoffset, List.take_left' (length_be width n), ofBe_be_of_lt hn]

/-- **What is encoded decodes to itself.** -/
theorem decodeFrame_encodeFrame (f : Frame) : decodeFrame (encodeFrame f) = .ok f := by
  have hmax : f.payload.length ≤ MAX_FRAME_PAYLOAD := f.payload_le
  have hlength : (encodeFrame f).length = HEADER_SIZE + f.payload.length := by
    simp [encodeFrame, HEADER_SIZE]
    omega
  have hversion : readBe (encodeFrame f) 0 1 = PROTOCOL_VERSION := readBe_be [] rfl (by decide)
  have htype : readBe (encodeFrame f) 1 1 = f.type.value :=
    readBe_be (be 1 PROTOCOL_VERSION) (length_be _ _) f.type.value_lt
  have hflags : readBe (encodeFrame f) 2 2 = f.flags := by
    unfold encodeFrame
    rw [← List.append_assoc]
    exact readBe_be _ (by simp) f.flags_lt
  have hcircuit : readBe (encodeFrame f) 4 8 = f.circuitId.toNat := by
    unfold encodeFrame
    rw [← List.append_assoc, ← List.append_assoc]
    exact readBe_be _ (by simp) f.circuitId.toNat_lt
  have hstream : readBe (encodeFrame f) 12 4 = f.streamId.toNat := by
    unfold encodeFrame
    rw [← List.append_assoc, ← List.append_assoc, ← List.append_assoc]
    exact readBe_be _ (by simp) f.streamId.toNat_lt
  have hpayload : readBe (encodeFrame f) 16 4 = f.payload.length := by
    unfold encodeFrame
    rw [← List.append_assoc, ← List.append_assoc, ← List.append_assoc, ← List.append_assoc]
    exact readBe_be _ (by simp) (hmax.trans_lt (by decide))
  have hdrop : (encodeFrame f).drop HEADER_SIZE = f.payload := by
    unfold encodeFrame
    rw [← List.append_assoc, ← List.append_assoc, ← List.append_assoc, ← List.append_assoc,
      ← List.append_assoc]
    exact List.drop_left' (by simp [HEADER_SIZE])
  unfold decodeFrame
  simp only [hlength, hversion, htype, hflags, hcircuit, hstream, hpayload, hdrop,
    frameTypeOf_value, f.flags_allowed, not_lt.mpr hmax]
  simp

/-- The bytes of a frame with another circuit id in it. -/
def setCircuitId (raw : Bytes) (id : UInt64) : Bytes := raw.take 4 ++ be 8 id.toNat ++ raw.drop 12

end Tnp.Protocol
