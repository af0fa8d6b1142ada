import Tnp.Crypto.Scope
import Tnp.Lib.Separated
import Tnp.Protocol.Frame

/-!
What a relay reads: the routing prefix of a circuit, the reason of its end, and the proof a
service node sends.
-/

namespace Tnp.Protocol

open Tnp.Lib Tnp.Crypto

def DESTROY_NORMAL : ℕ := 0
def MAX_ROUTING_NAME : ℕ := 253
def RELAY_HELLO_NONCE_SIZE : ℕ := 32
def SERVICE_CHALLENGE_SIZE : ℕ := 32

def isCanonicalName (value : String) : Bool :=
  let cs := value.toList
  decide (0 < cs.length) && decide (cs.length ≤ MAX_ROUTING_NAME) && (cs.splitOn '.').all isLabel

/-- No canonical name holds a NUL. -/
lemma nul_not_mem {name : String} (h : isCanonicalName name = true) :
    '\x00' ∉ name.toList := by
  intro hmem
  simp only [isCanonicalName, Bool.and_eq_true, List.all_eq_true] at h
  have hjoin : ['.'].intercalate (name.toList.splitOn '.') = name.toList :=
    List.intercalate_splitOn '.'
  rw [← hjoin] at hmem
  rcases mem_intercalate hmem with hdot | ⟨part, hpart, hc⟩
  · exact absurd hdot (by decide)
  · have hlabel := h.2 part hpart
    simp only [isLabel, Bool.and_eq_true, List.all_eq_true] at hlabel
    exact absurd (hlabel.2 _ hc) (by decide)

/-- `textDecoder.decode`: UTF-8 or nothing, without a leading byte order mark. -/
def decodeText (bytes : Bytes) : Option String :=
  (String.fromUTF8? ⟨bytes.toArray⟩).map fun s =>
    match s.toList with
    | c :: cs => if c.toNat = 0xfeff then String.ofList cs else s
    | [] => s

structure CircuitCreate where
  name : String
  message1 : Bytes
  name_canonical : isCanonicalName name = true

def decodeCircuitCreate (payload : Bytes) : Except FrameDecodeError CircuitCreate :=
  if payload.length < 2 + HANDSHAKE_MESSAGE_SIZE then .error (violation "CIRCUIT_CREATE too short")
  else
    let nameLength := readBe payload 0 1
    if nameLength = 0 ∨ payload.length ≠ 1 + nameLength + HANDSHAKE_MESSAGE_SIZE then
      .error (violation "CIRCUIT_CREATE length does not match its routing prefix")
    else
      match decodeText ((payload.drop 1).take nameLength) with
      | none => .error (violation "CIRCUIT_CREATE routing name is not UTF-8")
      | some name =>
        if h : isCanonicalName name = true then .ok ⟨name, payload.drop (1 + nameLength), h⟩
        else .error (violation "CIRCUIT_CREATE routing name is not canonical")

/-- `encodeDestroy`, of a reason in range. -/
def encodeDestroy (reason : ℕ) : Bytes := be 2 reason

def decodeRelayHello (payload : Bytes) : Except FrameDecodeError Bytes :=
  if payload.length ≠ RELAY_HELLO_NONCE_SIZE then .error (violation "HELLO nonce wrong size")
  else .ok payload

/-! ### AUTH -/

structure ServiceAuth where
  name : String
  chain : List Value
  signature : String
  name_canonical : isCanonicalName name = true

/-- `decodeServiceAuth`, with the text already read as JSON where it is. -/
def decodeServiceAuth (json : Option Value) : Except FrameDecodeError ServiceAuth :=
  match json with
  | none => .error (violation "AUTH is not JSON")
  | some (.object fields) =>
    if fields.any fun f => f.1 != "name" && f.1 != "chain" && f.1 != "signature" then
      .error (violation "AUTH has an unexpected field")
    else
      let v := Value.field fields
      match v "name" with
      | .string name =>
        if h : isCanonicalName name = true then
          match v "chain" with
          | .array chain =>
            if chain.length = 0 ∨ 4 < chain.length then .error (violation "AUTH chain invalid")
            else
              match v "signature" with
              | .string signature =>
                if 128 < utf16Length signature then .error (violation "AUTH signature invalid")
                else .ok ⟨name, chain, signature, h⟩
              | _ => .error (violation "AUTH signature invalid")
          | _ => .error (violation "AUTH chain invalid")
        else .error (violation "AUTH name invalid")
      | _ => .error (violation "AUTH name invalid")
  | some _ => .error (violation "AUTH must be an object")

end Tnp.Protocol
