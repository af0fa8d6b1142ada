import Tnp.Lib.Fallible
import Tnp.Protocol.Frame
import Tnp.Protocol.Session

/-!
The frame encoder as its callers find it: it is given numbers, and checks them.

What it accepts need not be what it writes. The check of the flags looks at 32 bits of the number,
and 16 are written, so a number beyond 32 bits passes for what is left of it.
-/

namespace Tnp.Protocol.FrameCodec

open Tnp.Lib Tnp.Protocol.Session

def MAX_UINT64 : ℤ := 2 ^ 64 - 1

/-- A number that is no integer is refused like a negative one. -/
structure EncodeOptions where
  type : ℤ
  circuitId : Option ℤ := none
  streamId : Option ℤ := none
  flags : Option ℤ := none
  payload : Option Bytes := none

/-- `toString(16)`, with its sign. -/
def hexText (n : ℤ) : String := (if n < 0 then "-" else "") ++ toString16 n.natAbs

def encodeFrame (options : EncodeOptions) : Except RangeError Bytes :=
  let payload := options.payload.getD []
  let flags := options.flags.getD 0
  let circuitId := options.circuitId.getD 0
  let streamId := options.streamId.getD 0
  match frameTypeOf options.type.toNat with
  | none => .error ⟨s!"Unknown frame type: {options.type}"⟩
  | some type =>
    if MAX_FRAME_PAYLOAD < payload.length then
      .error ⟨s!"Payload of {payload.length} bytes exceeds MAX_FRAME_PAYLOAD " ++
        s!"({MAX_FRAME_PAYLOAD})"⟩
    else if flags < 0 ∨ strayFlags flags (allowedFlags type) ≠ 0 then
      let stray := (strayFlags flags (allowedFlags type)).toInt
      .error ⟨s!"Unknown flag bits set for this frame type: 0x{hexText stray}"⟩
    else if circuitId < 0 ∨ MAX_UINT64 < circuitId then
      .error ⟨s!"circuitId out of range: {circuitId}"⟩
    else if streamId < 0 ∨ 0xffffffff < streamId then
      .error ⟨s!"streamId out of range: {streamId}"⟩
    else
      .ok (be 1 PROTOCOL_VERSION ++ (be 1 type.value ++ (be 2 flags.toNat ++
        (be 8 circuitId.toNat ++ (be 4 streamId.toNat ++ (be 4 payload.length ++ payload))))))

/-- The options that a decoded frame is encoded with. -/
def EncodeOptions.ofFrame (f : Frame) : EncodeOptions where
  type := f.type.value
  circuitId := some f.circuitId.toNat
  streamId := some f.streamId.toNat
  flags := some f.flags
  payload := some f.payload

/-- The frame says what the options say. -/
structure Carries (options : EncodeOptions) (f : Frame) : Prop where
  type : options.type = f.type.value
  flags : options.flags.getD 0 = f.flags
  circuitId : options.circuitId.getD 0 = f.circuitId.toNat
  streamId : options.streamId.getD 0 = f.streamId.toNat
  payload : options.payload.getD [] = f.payload

/-! ### Flags -/

variable {flags : ℤ} {type : FrameType}

/-- The check sees 32 bits of the number. -/
lemma strayFlags_emod (flags : ℤ) (allowed : ℕ) :
    strayFlags (flags % 2 ^ 32) allowed = strayFlags flags allowed := by
  have hbits : BitVec.ofInt 32 (flags % 2 ^ 32) = BitVec.ofInt 32 flags := by
    apply BitVec.eq_of_toNat_eq
    simp only [BitVec.toNat_ofInt]
    exact congrArg Int.toNat (Int.emod_emod_of_dvd flags (dvd_refl _))
  rw [strayFlags, strayFlags, hbits]

/-- The bits that pass the check are flags of the type. -/
lemma flags_allowed (h : strayFlags flags (allowedFlags type) = 0) :
    (flags % 2 ^ 32).toNat ≤ allowedFlags type := by
  have hstray : strayFlags (flags % 2 ^ 32) (allowedFlags type) = 0 := by
    rw [strayFlags_emod, h]
  have hbound := strayFlags_eq_zero (Int.emod_nonneg _ (by decide))
    (Int.emod_lt_of_pos _ (by decide)) hstray
  exact hbound.trans (Nat.mod_le _ _)

lemma mask_of_le {n : ℕ} (h : n ≤ allowedFlags type) :
    BitVec.ofNat 16 n &&& ~~~(BitVec.ofNat 16 (allowedFlags type)) = 0 := by
  have hthree := allowedFlags_le type
  have hall : ∀ m ≤ 3, ∀ n ≤ m, m = 0 ∨ m = 3 →
      BitVec.ofNat 16 n &&& ~~~(BitVec.ofNat 16 m) = 0 := by decide
  refine hall _ hthree n h ?_
  cases type <;> decide

lemma stray_of_le {n : ℕ} (h : n ≤ allowedFlags type) : strayFlags n (allowedFlags type) = 0 := by
  have hthree := allowedFlags_le type
  have hall : ∀ m ≤ 3, ∀ n ≤ m, m = 0 ∨ m = 3 → strayFlags (n : ℕ) m = 0 := by decide
  refine hall _ hthree n h ?_
  cases type <;> decide

/-- Bits within a mask are no more than the mask. -/
lemma le_of_and_not {w : ℕ} {x y : BitVec w} (h : x &&& ~~~y = 0) : x.toNat ≤ y.toNat := by
  have hor := BitVec.and_or_distrib_left (x := x) (y := y) (z := ~~~y)
  rw [h, BitVec.or_not_self, BitVec.and_allOnes] at hor
  have hsub : x &&& y = x := (hor.trans BitVec.or_zero).symm
  have hle : (x &&& y).toNat ≤ y.toNat := by
    rw [BitVec.toNat_and]
    exact Nat.and_le_right
  rwa [hsub] at hle

lemma Frame.flags_le (f : Frame) : f.flags ≤ allowedFlags f.type := by
  have hmask := le_of_and_not f.flags_allowed
  have hlt := f.flags_lt
  have hthree := allowedFlags_le f.type
  rwa [BitVec.toNat_ofNat, BitVec.toNat_ofNat, Nat.mod_eq_of_lt hlt,
    Nat.mod_eq_of_lt (by omega)] at hmask

/-- What is written of a number is what is left of it in the bytes there are. -/
lemma be_mod (w n : ℕ) : be w (n % 256 ^ w) = be w n := by
  have hread := be_ofBe (be w n)
  rwa [length_be, ofBe_be] at hread

lemma be_flags (h0 : 0 ≤ flags) (h : strayFlags flags (allowedFlags type) = 0) :
    be 2 flags.toNat = be 2 (flags % 2 ^ 32).toNat := by
  have hle := flags_allowed h
  have hthree := allowedFlags_le type
  rw [← be_mod]
  congr 1
  omega

/-! ### What is accepted -/

section

variable {options : EncodeOptions} {bytes : Bytes}

/-- The options that the encoder accepts, for a type. -/
structure Accepts (options : EncodeOptions) (type : FrameType) : Prop where
  type_eq : options.type = type.value
  payload_le : (options.payload.getD []).length ≤ MAX_FRAME_PAYLOAD
  flags_nonneg : 0 ≤ options.flags.getD 0
  flags_known : strayFlags (options.flags.getD 0) (allowedFlags type) = 0
  circuitId_range : 0 ≤ options.circuitId.getD 0 ∧ options.circuitId.getD 0 ≤ MAX_UINT64
  streamId_range : 0 ≤ options.streamId.getD 0 ∧ options.streamId.getD 0 ≤ 0xffffffff

/-- The frame that is written of accepted options. -/
def Accepts.frame (h : Accepts options type) : Frame where
  type := type
  flags := (options.flags.getD 0 % 2 ^ 32).toNat
  circuitId := UInt64.ofNat (options.circuitId.getD 0).toNat
  streamId := UInt32.ofNat (options.streamId.getD 0).toNat
  payload := options.payload.getD []
  flags_lt := by
    have hle := flags_allowed h.flags_known
    have hthree := allowedFlags_le type
    omega
  flags_allowed := mask_of_le (flags_allowed h.flags_known)
  payload_le := h.payload_le

lemma Accepts.circuitId_eq (h : Accepts options type) :
    (h.frame.circuitId.toNat : ℤ) = options.circuitId.getD 0 := by
  have hrange := h.circuitId_range
  unfold MAX_UINT64 at hrange
  have hfits : (options.circuitId.getD 0).toNat < UInt64.size := by
    unfold UInt64.size
    omega
  have hread : h.frame.circuitId.toNat = (options.circuitId.getD 0).toNat :=
    UInt64.toNat_ofNat_of_lt' hfits
  rw [hread, Int.toNat_of_nonneg hrange.1]

lemma Accepts.streamId_eq (h : Accepts options type) :
    (h.frame.streamId.toNat : ℤ) = options.streamId.getD 0 := by
  have hrange := h.streamId_range
  have hfits : (options.streamId.getD 0).toNat < UInt32.size := by
    unfold UInt32.size
    omega
  have hread : h.frame.streamId.toNat = (options.streamId.getD 0).toNat :=
    UInt32.toNat_ofNat_of_lt' hfits
  rw [hread, Int.toNat_of_nonneg hrange.1]

/-- **The encoder writes the frame of what it accepts.** -/
theorem encodeFrame_eq_ok_iff :
    encodeFrame options = .ok bytes ↔
      ∃ (type : FrameType) (h : Accepts options type),
        bytes = Protocol.encodeFrame h.frame := by
  have hbytes {type : FrameType} (h : Accepts options type) : Protocol.encodeFrame h.frame =
      be 1 PROTOCOL_VERSION ++ (be 1 type.value ++ (be 2 (options.flags.getD 0).toNat ++
        (be 8 (options.circuitId.getD 0).toNat ++ (be 4 (options.streamId.getD 0).toNat ++
          (be 4 (options.payload.getD []).length ++ options.payload.getD []))))) := by
    have hcircuit := h.circuitId_eq
    have hstream := h.streamId_eq
    rw [← hcircuit, ← hstream, be_flags h.flags_nonneg h.flags_known]
    rfl
  constructor
  · intro h
    unfold encodeFrame at h
    dsimp only at h
    split at h
    · simp at h
    next type htype =>
    obtain ⟨hpayload, h⟩ := check_eq_ok.mp h
    obtain ⟨hflags, h⟩ := check_eq_ok.mp h
    obtain ⟨hcircuit, h⟩ := check_eq_ok.mp h
    obtain ⟨hstream, h⟩ := check_eq_ok.mp h
    push Not at hflags hcircuit hstream
    have hvalue := frameTypeOf_eq_some htype
    have hpos : 0 < type.value := by cases type <;> decide
    have haccepts : Accepts options type :=
      ⟨by omega, not_lt.mp hpayload, hflags.1, hflags.2, hcircuit, hstream⟩
    exact ⟨type, haccepts, ((hbytes haccepts).trans (Except.ok.inj h)).symm⟩
  · rintro ⟨type, h, rfl⟩
    have htype : frameTypeOf options.type.toNat = some type := by
      rw [h.type_eq, Int.toNat_natCast, frameTypeOf_value]
    unfold encodeFrame
    simp only [htype]
    refine check_eq_ok.mpr ⟨not_lt.mpr h.payload_le, check_eq_ok.mpr ⟨?_, check_eq_ok.mpr ⟨?_,
      check_eq_ok.mpr ⟨?_, ?_⟩⟩⟩⟩
    · push Not
      exact ⟨h.flags_nonneg, h.flags_known⟩
    · push Not
      exact h.circuitId_range
    · push Not
      exact h.streamId_range
    · rw [hbytes h]

/-- A frame carries what was accepted where the flags are not beyond 32 bits. -/
lemma Accepts.carries_iff (h : Accepts options type) :
    Carries options h.frame ↔ options.flags.getD 0 < 2 ^ 32 := by
  have hlt := Int.emod_lt_of_pos (options.flags.getD 0) (show (0 : ℤ) < 2 ^ 32 by decide)
  have h0 := h.flags_nonneg
  constructor
  · intro hcarries
    have hflags : options.flags.getD 0 = (options.flags.getD 0 % 2 ^ 32).toNat := hcarries.flags
    omega
  · intro hsmall
    refine ⟨h.type_eq, ?_, h.circuitId_eq.symm, h.streamId_eq.symm, rfl⟩
    change options.flags.getD 0 = ((options.flags.getD 0 % 2 ^ 32).toNat : ℤ)
    rw [Int.emod_eq_of_lt h0 hsmall, Int.toNat_of_nonneg h0]

/-- What is encoded decodes to what was given, where the flags are not beyond 32 bits. -/
lemma decodes_iff (h : encodeFrame options = .ok bytes) :
    (∃ f, decodeFrame bytes = .ok f ∧ Carries options f) ↔ options.flags.getD 0 < 2 ^ 32 := by
  obtain ⟨type, haccepts, rfl⟩ := encodeFrame_eq_ok_iff.mp h
  rw [decodeFrame_encodeFrame, ← haccepts.carries_iff]
  constructor
  · rintro ⟨f, hf, hcarries⟩
    obtain rfl := Except.ok.inj hf
    exact hcarries
  · exact fun hcarries => ⟨_, rfl, hcarries⟩

/-- What decodes is encoded again as it was. -/
lemma encodeFrame_ofFrame {f : Frame} (h : decodeFrame bytes = .ok f) :
    encodeFrame (.ofFrame f) = .ok bytes := by
  have hcircuit := f.circuitId.toNat_lt
  have hstream := f.streamId.toNat_lt
  have hpayload := f.payload_le
  rw [← encodeFrame_of_decodeFrame h]
  unfold encodeFrame
  simp only [EncodeOptions.ofFrame, Option.getD_some, Int.toNat_natCast, frameTypeOf_value]
  refine check_eq_ok.mpr ⟨not_lt.mpr hpayload, check_eq_ok.mpr ⟨?_, check_eq_ok.mpr ⟨?_,
    check_eq_ok.mpr ⟨?_, rfl⟩⟩⟩⟩
  · push Not
    exact ⟨Int.natCast_nonneg _, stray_of_le (Frame.flags_le f)⟩
  · unfold MAX_UINT64
    omega
  · omega

end

/-! ### Associated data -/

/-- Two headers that differ in their flags alone, and there by a multiple of 2³². -/
def FlagsWrap (h h' : RecordHeader) : Prop :=
  h.type = h'.type ∧ h.streamId = h'.streamId ∧ h.flags ≠ h'.flags ∧
    h.flags % 2 ^ 32 = h'.flags % 2 ^ 32

/-- The header with its flags cut to what the check sees. -/
def cut (h : RecordHeader) : RecordHeader := { h with flags := h.flags % 2 ^ 32 }

lemma frameAssociatedData_cut {h : RecordHeader} {ad : Bytes}
    (had : frameAssociatedData h = .ok ad) : frameAssociatedData (cut h) = .ok ad := by
  unfold frameAssociatedData at had
  split at had
  · simp at had
  next type htype =>
  obtain ⟨hflags, had⟩ := check_eq_ok.mp had
  obtain ⟨hstream, had⟩ := check_eq_ok.mp had
  push Not at hflags
  obtain ⟨h0, hstray⟩ := hflags
  have hcut0 : 0 ≤ h.flags % 2 ^ 32 := Int.emod_nonneg _ (by decide)
  unfold frameAssociatedData
  simp only [cut, htype, strayFlags_emod, hstray]
  refine check_eq_ok.mpr ⟨by simpa using hcut0, check_eq_ok.mpr ⟨hstream, ?_⟩⟩
  rw [← be_flags h0 hstray]
  exact had

/-- The associated data tells the header, but for a multiple of 2³² in the flags. -/
lemma ad_injective_iff {h h' : RecordHeader} {ad ad' : Bytes}
    (had : frameAssociatedData h = .ok ad) (had' : frameAssociatedData h' = .ok ad') :
    (ad = ad' → h = h') ↔ ¬ FlagsWrap h h' := by
  have hlt (g : RecordHeader) : (cut g).flags < 2 ^ 32 := Int.emod_lt_of_pos _ (by decide)
  have hsame : ad = ad' ↔ cut h = cut h' := by
    constructor
    · rintro rfl
      exact frameAssociatedData_injective (hlt h) (hlt h') (frameAssociatedData_cut had)
        (frameAssociatedData_cut had')
    · intro hcut
      have hboth := frameAssociatedData_cut had
      rw [hcut, frameAssociatedData_cut had'] at hboth
      exact (Except.ok.inj hboth).symm
  obtain ⟨type, flags, streamId⟩ := h
  obtain ⟨type', flags', streamId'⟩ := h'
  simp only [hsame, cut, RecordHeader.mk.injEq, FlagsWrap]
  tauto

/-! ### The codec -/

/-- **The frame codec round trips where no flags are beyond 32 bits.** What is encoded decodes to
what was given exactly where the flags are below 2³²; what decodes is encoded again as it was; and
the associated data tells two headers apart unless they differ by a multiple of 2³² in the flags
alone. -/
theorem frame_codec (options : EncodeOptions) (f : Frame) (h h' : RecordHeader) :
    (∀ bytes, encodeFrame options = .ok bytes →
      ((∃ f, decodeFrame bytes = .ok f ∧ Carries options f) ↔
        options.flags.getD 0 < 2 ^ 32)) ∧
    (∀ bytes, decodeFrame bytes = .ok f → encodeFrame (.ofFrame f) = .ok bytes) ∧
    ∀ ad ad', frameAssociatedData h = .ok ad → frameAssociatedData h' = .ok ad' →
      ((ad = ad' → h = h') ↔ ¬ FlagsWrap h h') :=
  ⟨fun _ => decodes_iff, fun _ => encodeFrame_ofFrame, fun _ _ => ad_injective_iff⟩

/-- A `PING` with flags 2³². -/
def wideFlags : EncodeOptions where
  type := FrameType.PING.value
  flags := some (2 ^ 32)

/-- **Flags beyond 32 bits are lost.** -/
theorem wideFlags_lost :
    ¬ ∀ options bytes, encodeFrame options = .ok bytes →
      ∃ f, decodeFrame bytes = .ok f ∧ Carries options f := by
  intro h
  obtain ⟨bytes, hbytes⟩ : ∃ bytes, encodeFrame wideFlags = .ok bytes := ⟨_, rfl⟩
  have hsmall := (decodes_iff hbytes).mp (h _ _ hbytes)
  exact absurd hsmall (by decide)

end Tnp.Protocol.FrameCodec
