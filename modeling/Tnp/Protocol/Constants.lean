import Mathlib.Algebra.Group.Nat.Defs
import Mathlib.Data.Nat.Basic
import Mathlib.Tactic.Lemma

/-!
The constants of wire protocol v1 that the session, the stream messages, the frames and the
relay use.
-/

namespace Tnp.Protocol

def PROTOCOL_VERSION : ℕ := 0x01
def HEADER_SIZE : ℕ := 20
def MAX_FRAME_PAYLOAD : ℕ := 65535
def MAX_FRAME_SIZE : ℕ := HEADER_SIZE + MAX_FRAME_PAYLOAD
def STREAM_WINDOW_INITIAL : ℕ := 256 * 1024
def HANDSHAKE_MESSAGE_SIZE : ℕ := 48

/-- Counter, record type and tag of a sealed record. -/
def SEALED_RECORD_OVERHEAD : ℕ := 25
def MAX_SEALED_PLAINTEXT : ℕ := MAX_FRAME_PAYLOAD - SEALED_RECORD_OVERHEAD
def MAX_RECORDS_PER_KEY : ℕ := 2 ^ 32
def KEY_UPDATE_INTERVAL : ℕ := 2 ^ 24

inductive FrameType
  | HELLO | HELLO_ACK | AUTH | AUTH_OK | PING | PONG | GOAWAY
  | CIRCUIT_CREATE | CIRCUIT_CREATED | CIRCUIT_EXTEND | CIRCUIT_EXTENDED
  | CIRCUIT_DESTROY | CIRCUIT_PADDING
  | STREAM_OPEN | STREAM_OPENED | STREAM_DATA | STREAM_WINDOW | STREAM_CLOSE | STREAM_RESET
  | ERROR
  deriving DecidableEq, Repr

/-- The byte on the wire. -/
def FrameType.value : FrameType → ℕ
  | HELLO => 0x01 | HELLO_ACK => 0x02 | AUTH => 0x03 | AUTH_OK => 0x04
  | PING => 0x05 | PONG => 0x06 | GOAWAY => 0x07
  | CIRCUIT_CREATE => 0x10 | CIRCUIT_CREATED => 0x11 | CIRCUIT_EXTEND => 0x12
  | CIRCUIT_EXTENDED => 0x13 | CIRCUIT_DESTROY => 0x14 | CIRCUIT_PADDING => 0x15
  | STREAM_OPEN => 0x20 | STREAM_OPENED => 0x21 | STREAM_DATA => 0x22
  | STREAM_WINDOW => 0x23 | STREAM_CLOSE => 0x24 | STREAM_RESET => 0x25
  | ERROR => 0x30

def FrameType.all : List FrameType :=
  [.HELLO, .HELLO_ACK, .AUTH, .AUTH_OK, .PING, .PONG, .GOAWAY, .CIRCUIT_CREATE,
    .CIRCUIT_CREATED, .CIRCUIT_EXTEND, .CIRCUIT_EXTENDED, .CIRCUIT_DESTROY, .CIRCUIT_PADDING,
    .STREAM_OPEN, .STREAM_OPENED, .STREAM_DATA, .STREAM_WINDOW, .STREAM_CLOSE, .STREAM_RESET,
    .ERROR]

lemma FrameType.mem_all (t : FrameType) : t ∈ FrameType.all := by cases t <;> decide

lemma FrameType.value_injective : Function.Injective FrameType.value := by
  intro s t h
  cases s <;> cases t <;> first | rfl | (exact absurd h (by decide))

lemma FrameType.value_lt (t : FrameType) : t.value < 256 := by cases t <;> decide

/-- `isFrameType`, with the type it finds. -/
def frameTypeOf (value : ℕ) : Option FrameType := FrameType.all.find? (·.value = value)

@[simp] lemma frameTypeOf_value (t : FrameType) : frameTypeOf t.value = some t := by
  cases t <;> rfl

lemma frameTypeOf_eq_some {v : ℕ} {t : FrameType} (h : frameTypeOf v = some t) : t.value = v := by
  simpa using List.find?_some h

def CLOSE_WRITE : ℕ := 0x0001
def CLOSE_READ : ℕ := 0x0002

/-- The flag bits a frame type may carry. -/
def allowedFlags : FrameType → ℕ
  | .STREAM_CLOSE => CLOSE_WRITE ||| CLOSE_READ
  | _ => 0

lemma allowedFlags_le (t : FrameType) : allowedFlags t ≤ 3 := by cases t <;> decide

/-- An error code, or another number in the place of one. -/
inductive ErrorCode
  | PROTOCOL_VIOLATION | UNSUPPORTED_VERSION | UNSUPPORTED_CAPABILITY
  | AUTH_REQUIRED | AUTH_FAILED | AUTH_EXPIRED | REVOKED | ALREADY_REGISTERED
  | CIRCUIT_UNKNOWN | CIRCUIT_LIMIT | CIRCUIT_REJECTED
  | STREAM_UNKNOWN | STREAM_LIMIT | STREAM_REFUSED
  | FLOW_CONTROL | RATE_LIMIT | RESOURCE_EXHAUSTED
  | TARGET_UNREACHABLE | TARGET_REFUSED
  | REPLAY_DETECTED | DOWNGRADE_DETECTED | DECRYPT_FAILED | TRUNCATED
  | OTHER (value : ℕ)
  deriving DecidableEq, Repr

def ErrorCode.value : ErrorCode → ℕ
  | PROTOCOL_VIOLATION => 0x0001 | UNSUPPORTED_VERSION => 0x0002
  | UNSUPPORTED_CAPABILITY => 0x0003
  | AUTH_REQUIRED => 0x0010 | AUTH_FAILED => 0x0011 | AUTH_EXPIRED => 0x0012
  | REVOKED => 0x0013 | ALREADY_REGISTERED => 0x0014
  | CIRCUIT_UNKNOWN => 0x0020 | CIRCUIT_LIMIT => 0x0021 | CIRCUIT_REJECTED => 0x0022
  | STREAM_UNKNOWN => 0x0030 | STREAM_LIMIT => 0x0031 | STREAM_REFUSED => 0x0032
  | FLOW_CONTROL => 0x0040 | RATE_LIMIT => 0x0041 | RESOURCE_EXHAUSTED => 0x0042
  | TARGET_UNREACHABLE => 0x0050 | TARGET_REFUSED => 0x0051
  | REPLAY_DETECTED => 0x0060 | DOWNGRADE_DETECTED => 0x0061
  | DECRYPT_FAILED => 0x0062 | TRUNCATED => 0x0063
  | OTHER value => value

def ErrorCode.all : List ErrorCode :=
  [PROTOCOL_VIOLATION, UNSUPPORTED_VERSION, UNSUPPORTED_CAPABILITY, AUTH_REQUIRED, AUTH_FAILED,
    AUTH_EXPIRED, REVOKED, ALREADY_REGISTERED, CIRCUIT_UNKNOWN, CIRCUIT_LIMIT, CIRCUIT_REJECTED,
    STREAM_UNKNOWN, STREAM_LIMIT, STREAM_REFUSED, FLOW_CONTROL, RATE_LIMIT, RESOURCE_EXHAUSTED,
    TARGET_UNREACHABLE, TARGET_REFUSED, REPLAY_DETECTED, DOWNGRADE_DETECTED, DECRYPT_FAILED,
    TRUNCATED]

/-- The code a number from the wire is taken for. -/
def ErrorCode.ofValue (n : ℕ) : ErrorCode := (all.find? (·.value = n)).getD (OTHER n)

@[simp] lemma ErrorCode.value_ofValue (n : ℕ) : (ofValue n).value = n := by
  unfold ofValue
  cases h : all.find? (·.value = n) with
  | none => rfl
  | some c => simpa using List.find?_some h

end Tnp.Protocol
