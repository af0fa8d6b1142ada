import Tnp.Crypto.DomainKey
import Tnp.Lib.Fallible

/-!
Key-agreement certificates: a node key speaks for the key that sessions are agreed with.

Grants authorize signing keys, and the handshake runs on another curve. The certificate is the
signed statement between the two, of a few days' life.
-/

namespace Tnp.Crypto.KeyAgreement

open Tnp.Lib Tnp.Crypto.Grants Tnp.Crypto.DomainKey

/-- The primitives, which are not part of this code. -/
structure Nacl where
  verify : Verifier
  scalarMult : Bytes → Bytes → Bytes
  sha256 : Hash

inductive KeyAgreementRole
  | SERVICE_NODE
  | RELAY
  deriving DecidableEq, Repr

namespace KeyAgreementRole

def text : KeyAgreementRole → String
  | SERVICE_NODE => "service-node"
  | RELAY => "relay"

def ofText (s : String) : Option KeyAgreementRole := [SERVICE_NODE, RELAY].find? (·.text = s)

/-- `ROLE_PURPOSE`: what the chain must allow the signer. -/
def purpose : KeyAgreementRole → GrantPurpose
  | SERVICE_NODE => .SERVICE_NODE
  | RELAY => .RELAY

end KeyAgreementRole

def MAX_KEY_AGREEMENT_LIFETIME : ℕ := 7 * 24 * 60 * 60

def KEY_AGREEMENT_CONTEXT : String := "tnp-key-agreement-v1"

def CERT_FIELDS : List String :=
  ["signer", "key", "role", "scope", "notBefore", "notAfter", "serial", "signature"]

/-! ### Keys on the curve -/

def littleEndian (bytes : Bytes) : ℕ := ofBe bytes.reverse

/-- The top bit is clear and the coordinate is reduced. -/
def isCanonicalX25519 (key : PublicKey) : Bool :=
  (key.val.getD 31 0) &&& 0x80 == 0 && littleEndian key.val < 2 ^ 255 - 19

variable (nacl : Nacl)

/-- A scalar that sends exactly the points of small order to zero. -/
def LOW_ORDER_PROBE : Bytes := (nacl.sha256 (utf8 "tnp-x25519-low-order-probe-v1")).val

def isValidX25519PublicKey (key : PublicKey) : Bool :=
  isCanonicalX25519 key && !(nacl.scalarMult (LOW_ORDER_PROBE nacl) key.val).all (· == 0)

/-! ### Parsing -/

/-- A certificate after strict parsing. -/
structure ParsedCertificate where
  signer : PublicKey
  key : PublicKey
  role : KeyAgreementRole
  scope : String
  notBefore : SafeUint
  notAfter : SafeUint
  serial : SafeUint
  scope_valid : isValidScope scope = true
  window : notBefore.val < notAfter.val
  lifetime : notAfter.val - notBefore.val ≤ MAX_KEY_AGREEMENT_LIFETIME

def certificateKey (v : Value) : Except EncodingError PublicKey :=
  match v with
  | .string s => parsePublicKey (.text s)
  | _ => .error ⟨"signer and key must be base64 strings"⟩

def parseRole (v : Value) : Except EncodingError KeyAgreementRole :=
  match v with
  | .string s =>
    match KeyAgreementRole.ofText s with
    | some role => .ok role
    | none => .error ⟨"unknown role"⟩
  | _ => .error ⟨"unknown role"⟩

/-- The scope, once it is known to be a name. -/
def certificateScope (v : Value) : Except EncodingError {s : String // isValidScope s = true} :=
  match v with
  | .string s =>
    if h : isValidScope s = true then .ok ⟨s, h⟩ else .error ⟨"scope is not a canonical name"⟩
  | _ => .error ⟨"scope is not a canonical name"⟩

lemma lifetime_le {notBefore notAfter : SafeUint}
    (h : ¬MAX_KEY_AGREEMENT_LIFETIME < notAfter.val - notBefore.val) :
    notAfter.val - notBefore.val ≤ MAX_KEY_AGREEMENT_LIFETIME := Nat.not_lt.mp h

def parseUnsigned (cert : Value) (allowSignature : Bool) :
    Except EncodingError ParsedCertificate :=
  match cert with
  | .object fields => do
    if fields.any fun f => !(CERT_FIELDS.contains f.1) || (f.1 == "signature" && !allowSignature)
    then .error ⟨"certificate has an unexpected field"⟩
    let c := Value.field fields
    if !isText (c "signer") || !isText (c "key") then
      .error ⟨"signer and key must be base64 strings"⟩
    let signer ← certificateKey (c "signer")
    let key ← certificateKey (c "key")
    if !isValidX25519PublicKey nacl key then .error ⟨"key is not a valid X25519 public key"⟩
    let role ← parseRole (c "role")
    let scope ← certificateScope (c "scope")
    let notBefore ← assertUint (c "notBefore") "notBefore"
    let notAfter ← assertUint (c "notAfter") "notAfter"
    let serial ← assertUint (c "serial") "serial"
    if hwindow : notAfter.val ≤ notBefore.val then
      .error ⟨"validity window is empty or inverted"⟩
    else if hlifetime : MAX_KEY_AGREEMENT_LIFETIME < notAfter.val - notBefore.val then
      .error ⟨"validity exceeds MAX_KEY_AGREEMENT_LIFETIME"⟩
    else
      .ok ⟨signer, key, role, scope.val, notBefore, notAfter, serial, scope.property,
        SafeUint.lt_of_not_le hwindow, lifetime_le hlifetime⟩
  | _ => .error ⟨"certificate must be an object"⟩

/-- What is signed. -/
def encodeParsed (cert : ParsedCertificate) : Bytes :=
  ({} : CanonicalWriter)
    |>.string KEY_AGREEMENT_CONTEXT
    |>.fixed cert.signer
    |>.fixed cert.key
    |>.string cert.role.text
    |>.string cert.scope
    |>.uint cert.notBefore
    |>.uint cert.notAfter
    |>.uint cert.serial
    |>.finish

/-! ### Verifying -/

/-- The only kind of key that a handshake takes. -/
structure VerifiedKeyAgreementKey where
  publicKey : PublicKey
  role : KeyAgreementRole
  scope : String
  notAfter : SafeUint
  deriving DecidableEq

structure VerifiedCertificate where
  key : VerifiedKeyAgreementKey
  chain : VerifiedChain
  serialKey : String
  serial : SafeUint
  deriving DecidableEq

structure KeyAgreementVerifyOptions where
  trustedRoots : List KeyInput
  now : ℚ
  revoked : List KeyInput := []
  knownSerials : String → Option ℚ := fun _ => none
  role : KeyAgreementRole
  name : String

/-- The key of `knownSerials` for a certificate. -/
def ParsedCertificate.serialKey (cert : ParsedCertificate) : String :=
  toHex cert.signer.val ++ "|" ++ toHex cert.key.val

/-- What is checked of a certificate under a verified chain. -/
def checkCertificate (options : KeyAgreementVerifyOptions) (parsed : ParsedCertificate)
    (signature : Bytes) (chain : VerifiedChain) : Except Failure VerifiedCertificate :=
  if chain.subject ≠ parsed.signer then
    .error ⟨.chainBroken, "certificate signer is not the chain leaf"⟩
  else if parsed.role ≠ options.role then
    .error ⟨.purposeNotGranted, "certificate is for another role"⟩
  else if parsed.scope ≠ options.name then
    .error ⟨.scopeMismatch, "certificate is for another name"⟩
  else if !chain.scope.any fun outer => scopeCovers outer parsed.scope then
    .error ⟨.scopeMismatch, "certificate is outside its signer's scope"⟩
  else if parsed.notBefore.val < chain.notBefore.val ∨ chain.notAfter.val < parsed.notAfter.val then
    .error ⟨.windowNotNested, "certificate outlives its signer's grant"⟩
  else if options.now < parsed.notBefore.val then
    .error ⟨.notYetValid, "certificate is not valid yet"⟩
  else if (parsed.notAfter.val : ℚ) ≤ options.now then .error ⟨.expired, "certificate expired"⟩
  else if options.revoked.any fun k => decide ((parsePublicKey k).toOption = some parsed.key) then
    .error ⟨.revoked, "key-agreement key is revoked"⟩
  else if (options.knownSerials parsed.serialKey).any fun seen => (parsed.serial.val : ℚ) < seen
  then .error ⟨.rolledBack, "certificate serial is below the highest seen"⟩
  else if !nacl.verify (encodeParsed parsed) signature parsed.signer.val then
    .error ⟨.badSignature, "certificate signature does not verify"⟩
  else
    .ok {
      key := ⟨parsed.key, parsed.role, parsed.scope, parsed.notAfter⟩
      chain
      serialKey := parsed.serialKey
      serial := parsed.serial }

def verifyKeyAgreementCertificate (cert : Value) (chain : List Value)
    (options : KeyAgreementVerifyOptions) :
    Except EncodingError (Except Failure VerifiedCertificate) :=
  if !isValidScope options.name then
    .ok (.error ⟨.scopeRequired, "name must be a canonical name"⟩)
  else
    match parseUnsigned nacl cert true with
    | .error e => .ok (.error ⟨.malformed, "certificate: " ++ e.message⟩)
    | .ok parsed =>
      match decodeBase64Strict (cert.get "signature") (some SIGNATURE_LENGTH) with
      | .error e => .ok (.error ⟨.malformed, "certificate: " ++ e.message⟩)
      | .ok signature =>
        match verifyChainCore nacl.verify chain {
            trustedRoots := options.trustedRoots
            now := options.now
            revoked := options.revoked
            knownSerials := options.knownSerials
            requirePurpose := options.role.purpose } with
        | .error e => .error e
        | .ok (.error f) => .ok (.error f)
        | .ok (.ok verified) => .ok (checkCertificate nacl options parsed signature verified)

variable {nacl}

/-- What an accepted certificate passed under its chain. -/
lemma checkCertificate_eq_ok {options : KeyAgreementVerifyOptions} {parsed : ParsedCertificate}
    {signature : Bytes} {chain : VerifiedChain} {verified : VerifiedCertificate}
    (h : checkCertificate nacl options parsed signature chain = .ok verified) :
    chain.subject = parsed.signer ∧ parsed.scope = options.name ∧
      (∀ seen, options.knownSerials parsed.serialKey = some seen →
        seen ≤ (parsed.serial.val : ℚ)) ∧
      verified = ⟨⟨parsed.key, parsed.role, parsed.scope, parsed.notAfter⟩, chain,
        parsed.serialKey, parsed.serial⟩ := by
  unfold checkCertificate at h
  obtain ⟨hsigner, h⟩ := check_eq_ok.mp h
  obtain ⟨-, h⟩ := check_eq_ok.mp h
  obtain ⟨hname, h⟩ := check_eq_ok.mp h
  obtain ⟨-, -, -, -, -, hserial, -, h⟩ := by simpa only [check_eq_ok] using h
  obtain rfl := Except.ok.inj h
  refine ⟨not_not.mp hsigner, not_not.mp hname, fun seen hseen => ?_, rfl⟩
  simpa [hseen] using hserial

/-- What an accepted certificate passed. -/
lemma verifyKeyAgreementCertificate_eq_ok {cert : Value} {chain : List Value}
    {options : KeyAgreementVerifyOptions} {verified : VerifiedCertificate}
    (h : verifyKeyAgreementCertificate nacl cert chain options = .ok (.ok verified)) :
    isValidScope options.name = true ∧
      (∃ roots, options.trustedRoots.mapM parsePublicKey = .ok roots) ∧
      ∃ parsed signature result, parseUnsigned nacl cert true = .ok parsed ∧
        checkCertificate nacl options parsed signature result = .ok verified := by
  unfold verifyKeyAgreementCertificate at h
  split at h
  · simp at h
  next hname =>
  split at h
  · simp at h
  next parsed hparsed =>
  split at h
  · simp at h
  next signature _ =>
  split at h
  · contradiction
  · simp at h
  next result hchain =>
  obtain ⟨c, hcontext, -⟩ := bind_eq_ok.mp hchain
  refine ⟨by simpa using hname, ?_, parsed, signature, result, hparsed, Except.ok.inj h⟩
  unfold context at hcontext
  split at hcontext
  · contradiction
  · obtain ⟨roots, hroots, -⟩ := bind_eq_ok.mp hcontext
    exact ⟨roots, hroots⟩

end Tnp.Crypto.KeyAgreement
