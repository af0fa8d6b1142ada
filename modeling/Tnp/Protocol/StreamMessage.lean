import Tnp.Lib.Bytes
import Tnp.Protocol.Constants

/-!
Stream messages: what the data records of a circuit carry.

A port, a code or a credit that is negative or no integer is out of range like one that is too
large.
-/

namespace Tnp.Protocol

open Tnp.Lib

structure FrameDecodeError where
  message : String
  code : ErrorCode
  deriving DecidableEq

structure RangeError where
  message : String
  deriving DecidableEq

def E2E_STREAM_ID : ℕ := 1

/-- The longest chunk of application data in one record. -/
def MAX_STREAM_DATA : ℕ := MAX_SEALED_PLAINTEXT - 1

inductive StreamMessage
  | opening (port : ℕ)
  | opened
  | data (data : Bytes)
  | reset (code : ℕ)
  | window (credit : ℕ)
  | fin
  deriving DecidableEq

namespace StreamMessageType

def OPEN : UInt8 := 0x01
def OPENED : UInt8 := 0x02
def DATA : UInt8 := 0x03
def RESET : UInt8 := 0x04
def WINDOW : UInt8 := 0x05
def FIN : UInt8 := 0x06

end StreamMessageType

open StreamMessageType

def encodeStreamMessage : StreamMessage → Except RangeError Bytes
  | .opening port =>
    if port < 1 ∨ 0xffff < port then .error ⟨"port out of range"⟩
    else .ok (OPEN :: be 2 port)
  | .opened => .ok [OPENED]
  | .data data =>
    if data.length = 0 ∨ MAX_STREAM_DATA < data.length then
      .error ⟨"data chunk empty or too large"⟩
    else .ok (DATA :: data)
  | .reset code =>
    if 0xffff < code then .error ⟨"reset code out of range"⟩ else .ok (RESET :: be 2 code)
  | .fin => .ok [FIN]
  | .window credit =>
    if credit < 1 ∨ 0xffffffff < credit then .error ⟨"window credit out of range"⟩
    else .ok (WINDOW :: be 4 credit)

def violation (message : String) : FrameDecodeError := ⟨message, .PROTOCOL_VIOLATION⟩

/-- The message that the bytes after the type byte spell. -/
def decodeBody (type : UInt8) (body : Bytes) : Except FrameDecodeError StreamMessage :=
  if type = OPEN then
    if body.length ≠ 2 then .error (violation "OPEN wrong size")
    else if ofBe body = 0 then .error (violation "OPEN port 0")
    else .ok (.opening (ofBe body))
  else if type = OPENED then
    if body.length ≠ 0 then .error (violation "OPENED wrong size") else .ok .opened
  else if type = DATA then
    if body.length < 1 then .error (violation "empty DATA") else .ok (.data body)
  else if type = RESET then
    if body.length ≠ 2 then .error (violation "RESET wrong size")
    else .ok (.reset (ofBe body))
  else if type = WINDOW then
    if body.length ≠ 4 then .error (violation "WINDOW wrong size")
    else if ofBe body = 0 then .error (violation "WINDOW of zero")
    else .ok (.window (ofBe body))
  else if type = FIN then
    if body.length ≠ 0 then .error (violation "FIN wrong size") else .ok .fin
  else .error (violation "unknown stream message type")

def decodeStreamMessage : Bytes → Except FrameDecodeError StreamMessage
  | [] => .error (violation "empty stream message")
  | type :: body => decodeBody type body

lemma encode_data {data : Bytes} (hpos : data.length ≠ 0) (hle : data.length ≤ MAX_STREAM_DATA) :
    encodeStreamMessage (.data data) = .ok (StreamMessageType.DATA :: data) := by
  simp only [encodeStreamMessage]
  rw [if_neg (by omega)]

lemma encode_length {m : StreamMessage} {plaintext : Bytes}
    (h : encodeStreamMessage m = .ok plaintext) : plaintext.length ≤ MAX_SEALED_PLAINTEXT := by
  have hmax : MAX_STREAM_DATA + 1 ≤ MAX_SEALED_PLAINTEXT ∧ 5 ≤ MAX_SEALED_PLAINTEXT := by decide
  cases m with
  | opening port =>
    simp only [encodeStreamMessage] at h
    split at h
    · simp at h
    · obtain rfl := Except.ok.inj h
      simp only [List.length_cons, length_be]
      omega
  | opened =>
    obtain rfl := Except.ok.inj h
    simp only [List.length_cons, List.length_nil]
    omega
  | data data =>
    simp only [encodeStreamMessage] at h
    split at h
    · simp at h
    · obtain rfl := Except.ok.inj h
      simp only [List.length_cons]
      omega
  | reset code =>
    simp only [encodeStreamMessage] at h
    split at h
    · simp at h
    · obtain rfl := Except.ok.inj h
      simp only [List.length_cons, length_be]
      omega
  | fin =>
    obtain rfl := Except.ok.inj h
    simp only [List.length_cons, List.length_nil]
    omega
  | window credit =>
    simp only [encodeStreamMessage] at h
    split at h
    · simp at h
    · obtain rfl := Except.ok.inj h
      simp only [List.length_cons, length_be]
      omega

/-- **What is encoded decodes to itself.** -/
theorem decodeStreamMessage_encodeStreamMessage {m : StreamMessage} {bytes : Bytes}
    (h : encodeStreamMessage m = .ok bytes) : decodeStreamMessage bytes = .ok m := by
  cases m with
  | opening port =>
    simp only [encodeStreamMessage] at h
    split at h
    · simp at h
    next hrange =>
    obtain rfl := Except.ok.inj h
    have hport : ofBe (be 2 port) = port := ofBe_be_of_lt (by omega)
    simp [decodeStreamMessage, decodeBody, hport, show port ≠ 0 by omega]
  | opened =>
    obtain rfl := Except.ok.inj h
    rfl
  | data data =>
    simp only [encodeStreamMessage] at h
    split at h
    · simp at h
    next hrange =>
    obtain rfl := Except.ok.inj h
    simp [decodeStreamMessage, decodeBody, OPEN, OPENED, DATA, show data.length ≠ 0 by omega]
  | reset code =>
    simp only [encodeStreamMessage] at h
    split at h
    · simp at h
    next hrange =>
    obtain rfl := Except.ok.inj h
    have hcode : ofBe (be 2 code) = code := ofBe_be_of_lt (by omega)
    simp [decodeStreamMessage, decodeBody, OPEN, OPENED, DATA, RESET, hcode]
  | window credit =>
    simp only [encodeStreamMessage] at h
    split at h
    · simp at h
    next hrange =>
    obtain rfl := Except.ok.inj h
    have hcredit : ofBe (be 4 credit) = credit := ofBe_be_of_lt (by omega)
    simp [decodeStreamMessage, decodeBody, OPEN, OPENED, DATA, RESET, WINDOW, hcredit,
      show credit ≠ 0 by omega]
  | fin =>
    obtain rfl := Except.ok.inj h
    rfl

/-- What a body spells is encoded as the body, where it is one that a record can carry. -/
lemma encodeStreamMessage_of_decodeBody {type : UInt8} {body : Bytes} {m : StreamMessage}
    (hlength : body.length ≤ MAX_STREAM_DATA) (h : decodeBody type body = .ok m) :
    encodeStreamMessage m = .ok (type :: body) := by
  have hbody : be body.length (ofBe body) = body := be_ofBe body
  have hlt : ofBe body < 256 ^ body.length := ofBe_lt body
  unfold decodeBody at h
  split at h
  next htype =>
    subst htype
    split at h
    · simp at h
    next hsize =>
    split at h
    · simp at h
    next hpositive =>
    obtain rfl := Except.ok.inj h
    rw [not_not.mp hsize] at hbody hlt
    simp only [encodeStreamMessage]
    rw [if_neg (by omega), hbody]
  split at h
  next htype =>
    subst htype
    split at h
    · simp at h
    next hsize =>
    obtain rfl := Except.ok.inj h
    rw [List.length_eq_zero_iff.mp (not_not.mp hsize)]
    rfl
  split at h
  next htype =>
    subst htype
    split at h
    · simp at h
    obtain rfl := Except.ok.inj h
    exact encode_data (by omega) hlength
  split at h
  next htype =>
    subst htype
    split at h
    · simp at h
    next hsize =>
    obtain rfl := Except.ok.inj h
    rw [not_not.mp hsize] at hbody hlt
    simp only [encodeStreamMessage]
    rw [if_neg (by omega), hbody]
  split at h
  next htype =>
    subst htype
    split at h
    · simp at h
    next hsize =>
    split at h
    · simp at h
    next hpositive =>
    obtain rfl := Except.ok.inj h
    rw [not_not.mp hsize] at hbody hlt
    simp only [encodeStreamMessage]
    rw [if_neg (by omega), hbody]
  split at h
  next htype =>
    subst htype
    split at h
    · simp at h
    next hsize =>
    obtain rfl := Except.ok.inj h
    rw [List.length_eq_zero_iff.mp (not_not.mp hsize)]
    rfl
  · simp at h

/-- **Stream messages have one encoding**: a message is encoded as some bytes exactly where a
record can carry them and they decode to it. -/
theorem encodeStreamMessage_eq_ok_iff {m : StreamMessage} {bytes : Bytes} :
    encodeStreamMessage m = .ok bytes ↔
      bytes.length ≤ MAX_SEALED_PLAINTEXT ∧ decodeStreamMessage bytes = .ok m := by
  constructor
  · exact fun h => ⟨encode_length h, decodeStreamMessage_encodeStreamMessage h⟩
  · rintro ⟨hlength, h⟩
    cases bytes with
    | nil => simp [decodeStreamMessage] at h
    | cons type body =>
      refine encodeStreamMessage_of_decodeBody ?_ h
      simp only [List.length_cons] at hlength
      have hmax : MAX_STREAM_DATA + 1 = MAX_SEALED_PLAINTEXT := by decide
      omega

end Tnp.Protocol
