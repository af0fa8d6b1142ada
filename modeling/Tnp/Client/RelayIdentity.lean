import Tnp.Crypto.RelayDirectory
import Tnp.Protocol.Overlay

/-!
A relay proves that it holds the key which the directory lists for its endpoint.

The proof covers the endpoint that was dialed and a nonce that was chosen for the connection.
-/

namespace Tnp.Client.RelayIdentity

open Tnp.Lib Tnp.Crypto Tnp.Crypto.Grants Tnp.Crypto.RelayDirectory Tnp.Protocol

def RELAY_HELLO_ACK_SIZE : ℕ := 96

structure RelayHelloAck where
  relayKey : Bytes
  signature : Bytes

def decodeRelayHelloAck (payload : Bytes) : Except FrameDecodeError RelayHelloAck :=
  if payload.length ≠ RELAY_HELLO_ACK_SIZE then .error (violation "HELLO_ACK wrong size")
  else .ok ⟨payload.take 32, payload.drop 32⟩

def decodeServiceHello (payload : Bytes) : Except FrameDecodeError Bytes :=
  if payload.length ≠ SERVICE_CHALLENGE_SIZE then .error (violation "HELLO challenge wrong size")
  else .ok payload

def verifyRelayIdentity (verify : Verifier) (statement : RelayIdentityStatement)
    (signature : Bytes) : Bool :=
  signature.length = SIGNATURE_LENGTH &&
    match encodeIdentity statement with
    | .ok bytes => verify bytes signature statement.relayKey.val
    | .error _ => false

/-- The challenge of one connection. -/
structure RelayIdentityCheck where
  nonce : Nonce
  endpoint : String
  expectedKey : PublicKey
  deriving DecidableEq

structure RelayIdentityError where
  message : String

/-- Throws unless the frame is a valid proof for this connection. -/
def RelayIdentityCheck.verify (verifier : Verifier) (check : RelayIdentityCheck) (frame : Frame) :
    Except RelayIdentityError Unit :=
  if frame.type ≠ .HELLO_ACK ∨ frame.circuitId ≠ 0 then
    .error ⟨"the relay sent something else before proving its identity"⟩
  else
    match decodeRelayHelloAck frame.payload with
    | .error _ => .error ⟨"the relay sent a malformed identity proof"⟩
    | .ok ack =>
      if ack.relayKey ≠ check.expectedKey.val then
        .error ⟨"the relay at " ++ check.endpoint ++ " presented key " ++
          encodeBase64 ack.relayKey ++ ", not the key the signed directory lists (" ++
          encodeBase64 check.expectedKey.val ++ ")"⟩
      else if !verifyRelayIdentity verifier ⟨units check.endpoint, check.nonce, check.expectedKey⟩
          ack.signature then
        .error ⟨"the relay at " ++ check.endpoint ++
          " did not prove possession of its directory key for this connection"⟩
      else .ok ()

/-- A proof carries the key and a signature over the endpoint and the nonce. -/
lemma RelayIdentityCheck.verify_eq_ok {verifier : Verifier} {check : RelayIdentityCheck}
    {frame : Frame} (h : check.verify verifier frame = .ok ()) :
    ∃ bytes signature, encodeIdentity ⟨units check.endpoint, check.nonce, check.expectedKey⟩ =
      .ok bytes ∧ verifier bytes signature check.expectedKey.val = true := by
  unfold verify at h
  split at h
  · simp at h
  split at h
  · simp at h
  next ack hack =>
  split at h
  · simp at h
  split at h
  · simp at h
  next hverified =>
    rw [Bool.not_eq_true, Bool.not_eq_false', verifyRelayIdentity, Bool.and_eq_true] at hverified
    obtain ⟨-, hsigned⟩ := hverified
    split at hsigned
    next bytes hbytes => exact ⟨bytes, ack.signature, hbytes, hsigned⟩
    · simp at hsigned

end Tnp.Client.RelayIdentity
