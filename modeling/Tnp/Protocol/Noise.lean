import Tnp.Lib.Bytes
import Tnp.Protocol.Constants

/-!
Noise_NK_25519_ChaChaPoly_SHA256: the handshake core.

The primitives are a parameter. What they compute on is either byte strings or terms; a method that
throws has changed its object before, so every method returns the object as well.
-/

namespace Tnp.Protocol.Noise

open Tnp.Lib

def NOISE_PROTOCOL_NAME : Bytes := "Noise_NK_25519_ChaChaPoly_SHA256".toUTF8.data.toList

def HASHLEN : ℕ := 32
def DHLEN : ℕ := 32

inductive NoiseErrorKind
  | decrypt
  | dh
  | state
  deriving DecidableEq

/-- A Noise operation failed. -/
structure NoiseError where
  message : String
  kind : NoiseErrorKind
  deriving DecidableEq

/-- The primitives, on scalars `S` and on what stands for byte strings. `hash a b` is the hash of
the 32 bytes `a` before `b`, and what is overwritten becomes `wiped` or `zeros`. -/
structure Suite (S M : Type*) where
  bytes : Bytes → M
  length : M → ℕ
  publicKey : S → M
  assertValid : M → Except String Unit
  x25519 : S → M → Except String M
  hash : M → M → M
  hkdf2 : M → M → M × M
  aeadSeal : M → ℕ → M → M → M
  aeadOpen : M → ℕ → M → M → Option M
  wiped : S
  zeros : M

structure KeyPair (S M : Type*) where
  publicKey : M
  secretKey : S

/-- A message of at least `DHLEN` bytes: a public key and what follows it. -/
@[ext] structure Message (M : Type*) where
  e : M
  payload : M
  deriving DecidableEq

variable {S M : Type*} (P : Suite S M)

def empty : M := P.bytes []

/-! ### The symmetric state -/

structure SymmetricState (M : Type*) where
  ck : M
  h : M
  k : Option M := none
  n : ℕ := 0

def SymmetricState.new (name : Bytes) : SymmetricState M :=
  let h := if name.length ≤ HASHLEN then
      P.bytes (name ++ List.replicate (HASHLEN - name.length) 0)
    else P.hash (empty P) (P.bytes name)
  { ck := h, h }

namespace SymmetricState

variable (ss : SymmetricState M)

def mixHash (data : M) : SymmetricState M := { ss with h := P.hash ss.h data }

def mixKey (ikm : M) : SymmetricState M :=
  let keys := P.hkdf2 ss.ck ikm
  { ss with ck := keys.1, k := some keys.2, n := 0 }

def encryptAndHash (plaintext : M) : M × SymmetricState M :=
  match ss.k with
  | some k =>
    let ciphertext := P.aeadSeal k ss.n ss.h plaintext
    (ciphertext, { ss with n := ss.n + 1 }.mixHash P ciphertext)
  | none => (plaintext, ss.mixHash P plaintext)

def decryptAndHash (ciphertext : M) : Except NoiseError M × SymmetricState M :=
  match ss.k with
  | some k =>
    match P.aeadOpen k ss.n ss.h ciphertext with
    | none => (.error ⟨"handshake payload failed authentication", .decrypt⟩, ss)
    | some plaintext => (.ok plaintext, { ss with n := ss.n + 1 }.mixHash P ciphertext)
  | none => (.ok ciphertext, ss.mixHash P ciphertext)

/-- The key from the initiator to the responder and the one back. -/
def split : (M × M) × SymmetricState M :=
  (P.hkdf2 ss.ck (empty P), { ss with ck := P.zeros, k := none })

end SymmetricState

/-- What a completed handshake hands to the transport phase. -/
structure NoiseSplit (M : Type*) where
  sendKey : M
  receiveKey : M
  handshakeHash : M

def dh (secretKey : S) (publicKey : M) : Except NoiseError M :=
  (P.x25519 secretKey publicKey).mapError (⟨·, .dh⟩)

/-! ### The initiator -/

inductive InitiatorStep
  | write1
  | read2
  | done
  deriving DecidableEq

/-- It knows the static key of the responder in advance and has none of its own. -/
structure NkInitiator (S M : Type*) where
  ss : SymmetricState M
  rs : M
  e : KeyPair S M
  step : InitiatorStep := .write1

def NkInitiator.new (prologue responderStatic : M) (ephemeral : KeyPair S M) : NkInitiator S M where
  ss := ((SymmetricState.new P NOISE_PROTOCOL_NAME).mixHash P prologue).mixHash P responderStatic
  rs := responderStatic
  e := ephemeral

namespace NkInitiator

variable (i : NkInitiator S M)

/-- -> e, es, payload -/
def writeMessage1 (payload : M) : Except NoiseError (Message M) × NkInitiator S M :=
  if i.step ≠ .write1 then (.error ⟨"message 1 already written", .state⟩, i)
  else
    let ss := i.ss.mixHash P i.e.publicKey
    match dh P i.e.secretKey i.rs with
    | .error error => (.error error, { i with step := .read2, ss })
    | .ok shared =>
      let written := (ss.mixKey P shared).encryptAndHash P payload
      (.ok ⟨i.e.publicKey, written.1⟩, { i with step := .read2, ss := written.2 })

/-- <- e, ee, payload -/
def readMessage2 (message : Message M) : Except NoiseError (M × NoiseSplit M) × NkInitiator S M :=
  if i.step ≠ .read2 then (.error ⟨"not expecting message 2", .state⟩, i)
  else
    -- the secret is overwritten however this ends
    let i : NkInitiator S M := { i with step := .done }
    let spent : NkInitiator S M := { i with e := ⟨i.e.publicKey, P.wiped⟩ }
    let ss := i.ss.mixHash P message.e
    match dh P i.e.secretKey message.e with
    | .error error => (.error error, { spent with ss })
    | .ok shared =>
      match (ss.mixKey P shared).decryptAndHash P message.payload with
      | (.error error, ss) => (.error error, { spent with ss })
      | (.ok payload, ss) =>
        let ended := ss.split P
        (.ok (payload, ⟨ended.1.1, ended.1.2, ss.h⟩), { spent with ss := ended.2 })

end NkInitiator

/-! ### The responder -/

inductive ResponderStep
  | read1
  | write2
  | done
  deriving DecidableEq

/-- It holds the static key that the initiator already trusts. -/
structure NkResponder (S M : Type*) where
  ss : SymmetricState M
  s : KeyPair S M
  e : KeyPair S M
  step : ResponderStep := .read1
  re : Option M := none

def NkResponder.new (prologue : M) (staticKey ephemeral : KeyPair S M) : NkResponder S M where
  ss := ((SymmetricState.new P NOISE_PROTOCOL_NAME).mixHash P prologue).mixHash P
    staticKey.publicKey
  s := staticKey
  e := ephemeral

namespace NkResponder

variable (r : NkResponder S M)

/-- -> e, es, payload -/
def readMessage1 (message : Message M) : Except NoiseError M × NkResponder S M :=
  if r.step ≠ .read1 then (.error ⟨"message 1 already read", .state⟩, r)
  else
    let r : NkResponder S M := { r with step := .write2 }
    -- the ephemeral of a handshake that failed is dead
    let failed : NkResponder S M := { r with e := ⟨r.e.publicKey, P.wiped⟩ }
    let ss := r.ss.mixHash P message.e
    match dh P r.s.secretKey message.e with
    | .error error => (.error error, { failed with ss })
    | .ok shared =>
      match (ss.mixKey P shared).decryptAndHash P message.payload with
      | (.error error, ss) => (.error error, { failed with ss })
      | (.ok payload, ss) => (.ok payload, { r with ss, re := some message.e })

/-- <- e, ee, payload -/
def writeMessage2 (payload : M) : Except NoiseError (Message M × NoiseSplit M) × NkResponder S M :=
  match r.re with
  | none => (.error ⟨"not ready to write message 2", .state⟩, r)
  | some re =>
    if r.step ≠ .write2 then (.error ⟨"not ready to write message 2", .state⟩, r)
    else
      let r : NkResponder S M := { r with step := .done }
      let spent : NkResponder S M := { r with e := ⟨r.e.publicKey, P.wiped⟩ }
      let ss := r.ss.mixHash P r.e.publicKey
      match dh P r.e.secretKey re with
      | .error error => (.error error, { spent with ss })
      | .ok shared =>
        let written := (ss.mixKey P shared).encryptAndHash P payload
        let ended := written.2.split P
        (.ok (⟨r.e.publicKey, written.1⟩, ⟨ended.1.2, ended.1.1, written.2.h⟩),
          { spent with ss := ended.2 })

end NkResponder

end Tnp.Protocol.Noise
