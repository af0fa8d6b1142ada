import Tnp.Lib.Utf8
import Tnp.Protocol.CircuitCreate
import Tnp.Protocol.FrameCodec

/-!
ERROR frames: a code, a scope and a text for the logs, cut to size.

The text is cut where a character ends, so that what arrives is a beginning of what was sent. The
decoder drops a byte order mark that the text begins with.
-/

namespace Tnp.Protocol.ErrorFrame

open Tnp.Lib Tnp.Crypto

def MAX_ERROR_DETAIL : ℕ := 256

/-- The code and the scope are the numbers that are sent for them. -/
structure ProtocolError where
  code : UInt16
  scope : UInt8
  detail : String
  deriving DecidableEq

/-- The payload of `encodeError`. -/
def errorPayload (error : ProtocolError) : Bytes :=
  be 2 error.code.toNat ++ (error.scope :: Utf8.truncate error.detail.toList MAX_ERROR_DETAIL)

def encodeError (error : ProtocolError) (circuitId streamId : ℤ) : Except RangeError Bytes :=
  FrameCodec.encodeFrame {
    type := FrameType.ERROR.value
    circuitId := some circuitId
    streamId := some streamId
    payload := some (errorPayload error) }

def decodeError (payload : Bytes) : Except FrameDecodeError ProtocolError :=
  if payload.length < 3 then
    .error (violation s!"ERROR payload too short: {payload.length} bytes, need at least 3")
  else if 3 + MAX_ERROR_DETAIL < payload.length then
    .error (violation s!"ERROR detail exceeds MAX_ERROR_DETAIL ({MAX_ERROR_DETAIL} bytes)")
  else
    .ok {
      code := UInt16.ofNat (readBe payload 0 2)
      scope := payload.getD 2 0
      detail := String.ofList (Utf8.withoutMark (Utf8.decode (payload.drop 3))) }

/-- What arrives of an error: its detail without a mark, as far as it fits. -/
lemma decodeError_errorPayload (error : ProtocolError) {p : List Char}
    (hp : Utf8.LongestPrefix error.detail.toList MAX_ERROR_DETAIL p)
    (htruncate : Utf8.truncate error.detail.toList MAX_ERROR_DETAIL = Utf8.encode p) :
    decodeError (errorPayload error) =
      .ok ⟨error.code, error.scope, String.ofList (Utf8.withoutMark p)⟩ := by
  have hfits := hp.fits
  have hcode : readBe (errorPayload error) 0 2 = error.code.toNat :=
    readBe_be [] rfl error.code.toNat_lt
  have hscope : (errorPayload error).getD 2 0 = error.scope := by
    rw [errorPayload, List.getD_append_right _ _ _ _ (by simp), length_be]
    rfl
  have hdetail : (errorPayload error).drop 3 = Utf8.encode p := by
    rw [errorPayload, htruncate, show (3 : ℕ) = 2 + 1 from rfl, ← List.drop_drop,
      List.drop_left' (length_be 2 _), List.drop_one, List.tail_cons]
  have hlength : (errorPayload error).length = 3 + (Utf8.encode p).length := by
    rw [errorPayload, htruncate, List.length_append, length_be, List.length_cons]
    omega
  unfold decodeError
  rw [if_neg (by omega), if_neg (by omega), hcode, hscope, hdetail, Utf8.decode_encode,
    UInt16.ofNat_toNat]

lemma errorPayload_le (error : ProtocolError) :
    (errorPayload error).length ≤ MAX_FRAME_PAYLOAD := by
  obtain ⟨p, hp, htruncate⟩ := Utf8.truncate_eq error.detail.toList MAX_ERROR_DETAIL
  have hfits := hp.fits
  have hmax : 3 + MAX_ERROR_DETAIL ≤ MAX_FRAME_PAYLOAD := by decide
  rw [errorPayload, htruncate, List.length_append, length_be, List.length_cons]
  omega

/-- An error is always encoded, and the frame carries its payload. -/
lemma encodeError_ok (error : ProtocolError) (circuitId : UInt64) (streamId : UInt32) :
    ∃ bytes f, encodeError error circuitId.toNat streamId.toNat = .ok bytes ∧
      decodeFrame bytes = .ok f ∧ f.payload = errorPayload error := by
  have hcircuit := circuitId.toNat_lt
  have hstream := streamId.toNat_lt
  have haccepts : FrameCodec.Accepts {
      type := FrameType.ERROR.value
      circuitId := some (circuitId.toNat : ℤ)
      streamId := some (streamId.toNat : ℤ)
      payload := some (errorPayload error) } .ERROR := by
    have hflags : Session.strayFlags 0 (allowedFlags .ERROR) = 0 := by decide
    refine ⟨rfl, errorPayload_le error, le_rfl, hflags, ⟨by simp, ?_⟩, ⟨by simp, ?_⟩⟩
    · simp only [Option.getD_some, FrameCodec.MAX_UINT64]
      omega
    · simp only [Option.getD_some]
      omega
  exact ⟨_, haccepts.frame, FrameCodec.encodeFrame_eq_ok_iff.mpr ⟨_, haccepts, rfl⟩,
    decodeFrame_encodeFrame _, rfl⟩

/-- A longest beginning begins with the first character of the text, where that fits. -/
lemma head?_of_longestPrefix {cs p : List Char} {c : Char} {maxBytes : ℕ}
    (hp : Utf8.LongestPrefix cs maxBytes p) (hc : c.utf8Size ≤ maxBytes) :
    p.head? = some c ↔ cs.head? = some c := by
  constructor
  · intro h
    obtain ⟨tail, rfl⟩ := List.head?_eq_some_iff.mp h
    obtain ⟨rest, rfl⟩ := hp.isPrefix
    rfl
  · intro h
    obtain ⟨rest, rfl⟩ := List.head?_eq_some_iff.mp h
    have hone : [c] <+: p := by
      refine hp.longest [c] ⟨rest, rfl⟩ ?_
      rwa [Utf8.encode_cons, Utf8.encode_nil, List.append_nil, String.length_utf8EncodeChar]
    obtain ⟨tail, rfl⟩ := hone
    rfl

/-- **An error arrives as it was sent, its detail as far as it fits, exactly where the detail does
not begin with a byte order mark.** -/
theorem error_codec (error : ProtocolError) (circuitId : UInt64) (streamId : UInt32) :
    ∃ bytes f p, encodeError error circuitId.toNat streamId.toNat = .ok bytes ∧
      decodeFrame bytes = .ok f ∧
      Utf8.LongestPrefix error.detail.toList MAX_ERROR_DETAIL p ∧
      (decodeError f.payload = .ok ⟨error.code, error.scope, String.ofList p⟩ ↔
        error.detail.toList.head? ≠ some Utf8.byteOrderMark) := by
  obtain ⟨bytes, f, hencode, hdecode, hpayload⟩ := encodeError_ok error circuitId streamId
  obtain ⟨p, hp, htruncate⟩ := Utf8.truncate_eq error.detail.toList MAX_ERROR_DETAIL
  refine ⟨bytes, f, p, hencode, hdecode, hp, ?_⟩
  have hmark : error.detail.toList.head? ≠ some Utf8.byteOrderMark ↔ Utf8.withoutMark p = p := by
    rw [Utf8.withoutMark_eq_self_iff]
    exact not_congr (head?_of_longestPrefix hp (by decide)).symm
  rw [hpayload, decodeError_errorPayload error hp htruncate, hmark]
  simp only [Except.ok.injEq, ProtocolError.mk.injEq, true_and]
  exact String.ofList_inj

/-- A detail that begins with a mark. -/
def markedError : ProtocolError := ⟨0x0001, 0x01, String.ofList [Utf8.byteOrderMark, 'x']⟩

/-- **A detail that fits arrives without the mark it began with.** -/
theorem markedError_changed : ∃ bytes f, encodeError markedError 0 0 = .ok bytes ∧
    decodeFrame bytes = .ok f ∧
    Utf8.LongestPrefix markedError.detail.toList MAX_ERROR_DETAIL [Utf8.byteOrderMark, 'x'] ∧
    decodeError f.payload ≠ .ok markedError := by
  obtain ⟨bytes, f, hencode, hdecode, hpayload⟩ := encodeError_ok markedError 0 0
  have hself : Utf8.LongestPrefix markedError.detail.toList MAX_ERROR_DETAIL
      [Utf8.byteOrderMark, 'x'] := by
    rw [markedError, String.toList_ofList]
    exact .self (by decide)
  refine ⟨bytes, f, hencode, hdecode, hself, ?_⟩
  rw [hpayload, decodeError_errorPayload markedError hself (by decide)]
  decide

end Tnp.Protocol.ErrorFrame
