import Tnp.Crypto.RelayDirectory

/-!
Signing the directory of relays, and what a verifier accepts.
-/

namespace Tnp.Crypto.RelayDirectory

open Tnp.Lib Tnp.Crypto.Grants

/-! ### The document -/

structure DirectoryRelay where
  endpoint : String
  relayKey : String
  operator : DirectoryRelayOperator
  capabilities : List String
  region : String
  deriving DecidableEq

structure UnsignedRelayDirectory where
  serial : ℤ
  issuedAt : ℤ
  expiresAt : ℤ
  relays : List DirectoryRelay
  deriving DecidableEq

structure SignedRelayDirectory extends UnsignedRelayDirectory where
  signature : String
  deriving DecidableEq

def DirectoryRelay.value (r : DirectoryRelay) : Value :=
  .object [("endpoint", .string r.endpoint), ("relayKey", .string r.relayKey),
    ("operator", .string r.operator.text), ("capabilities", .array (r.capabilities.map .string)),
    ("region", .string r.region)]

def UnsignedRelayDirectory.fields (d : UnsignedRelayDirectory) : List (String × Value) :=
  [("v", .number RELAY_DIRECTORY_VERSION.val), ("serial", .number d.serial),
    ("issuedAt", .number d.issuedAt), ("expiresAt", .number d.expiresAt),
    ("relays", .array (d.relays.map DirectoryRelay.value))]

def UnsignedRelayDirectory.value (d : UnsignedRelayDirectory) : Value := .object d.fields

def SignedRelayDirectory.value (d : SignedRelayDirectory) : Value :=
  .object (d.fields ++ [("signature", .string d.signature)])

def ParsedRelay.toWire (r : ParsedRelay) : DirectoryRelay where
  endpoint := toWellFormed r.endpoint.val
  relayKey := encodeBase64 r.key.val
  operator := r.operator
  capabilities := r.capabilities
  region := r.region

def toWire (d : ParsedDirectory) : UnsignedRelayDirectory where
  serial := d.serial.val
  issuedAt := d.issuedAt.val
  expiresAt := d.expiresAt.val
  relays := d.relays.map ParsedRelay.toWire

/-! ### Signing -/

/-- `sign` is `nacl.sign.detached`. -/
def signRelayDirectory (sign : Bytes → Bytes → Bytes) (directory : UnsignedRelayDirectory)
    (secretKey : Bytes) : Except EncodingError SignedRelayDirectory := do
  let parsed ← parseDirectory directory.value false
  if secretKey.length ≠ 64 then .error ⟨"Ed25519 secret key must be 64 bytes"⟩
  else
    let bytes ← encodeDirectory parsed
    .ok { toWire parsed with signature := encodeBase64 (sign bytes secretKey) }

/-! ### Verifying -/

/-- A relay from a verified directory, with its key already decoded. -/
structure VerifiedDirectoryRelay extends DirectoryRelay where
  key : PublicKey

structure VerifiedRelayDirectory where
  serial : SafeUint
  issuedAt : SafeUint
  expiresAt : SafeUint
  relays : List VerifiedDirectoryRelay
  /-- The pinned key that verified it. -/
  signedBy : Bytes
  /-- The verified document, as it can be cached and re-verified later. -/
  document : SignedRelayDirectory

inductive DirectoryRejection
  | malformed
  | oversized
  | badSignature
  | notYetValid
  | expired
  | rolledBack
  deriving DecidableEq, Repr

def DirectoryRejection.text : DirectoryRejection → String
  | malformed => "malformed"
  | oversized => "oversized"
  | badSignature => "bad-signature"
  | notYetValid => "not-yet-valid"
  | expired => "expired"
  | rolledBack => "rolled-back"

structure VerifyDirectoryOptions where
  trustedKeys : List Bytes
  now : ℤ
  /-- A lower serial is `rolled-back`. -/
  minSerial : Option ℕ := none

def parseSigned (value : Value) : Except EncodingError (ParsedDirectory × Bytes) := do
  let parsed ← parseDirectory value true
  let signature ← decodeBase64Strict (value.get "signature") (some SIGNATURE_LENGTH)
  .ok (parsed, signature)

/-- Shape and bounds, signature by a pinned key, validity window, serial, in that order. -/
def verifyRelayDirectory (verify : Verifier) (value : Value) (options : VerifyDirectoryOptions) :
    Except DirectoryRejection VerifiedRelayDirectory :=
  match parseSigned value with
  | .error _ => .error .malformed
  | .ok (parsed, signature) =>
    match encodeDirectory parsed with
    | .error _ => .error .oversized
    | .ok bytes =>
      match options.trustedKeys.find? fun key =>
        key.length == PUBLIC_KEY_LENGTH && verify bytes signature key with
      | none => .error .badSignature
      | some signedBy =>
        if options.now + MAX_DIRECTORY_CLOCK_SKEW_SECONDS < parsed.issuedAt.val then
          .error .notYetValid
        else if parsed.expiresAt.val ≤ options.now then .error .expired
        else if options.minSerial.any (parsed.serial.val < ·) then .error .rolledBack
        else
          .ok
            { serial := parsed.serial
              issuedAt := parsed.issuedAt
              expiresAt := parsed.expiresAt
              relays := parsed.relays.map fun r => { r.toWire with key := r.key }
              signedBy := signedBy
              document := { toWire parsed with signature := encodeBase64 signature } }

end Tnp.Crypto.RelayDirectory
