import Tnp.Lib.Aead
import Tnp.Lib.Fallible
import Tnp.Crypto.Signing
import Tnp.Protocol.CircuitCreate

/-!
The envelope of a user's DNS rules, which the server keeps and cannot read.

The rules are sealed under a rules key, and the rules key is wrapped under a key from the
passphrase. The user and the version stand in the associated data of the seal and again before the
rules themselves, where they are read back as text.
-/

namespace Tnp.Crypto.DnsRules

open Tnp.Lib Tnp.Lib.Aead Tnp.Protocol

def RULES_ENVELOPE_VERSION : SafeUint := ⟨1, one_le_max_safe_integer⟩
def RULES_KEY_LENGTH : ℕ := 32
def RULES_SALT_LENGTH : ℕ := 16
def RULES_NONCE_LENGTH : ℕ := 24
def TAG_LENGTH : ℕ := 16
def RULES_WRAPPED_KEY_LENGTH : ℕ := RULES_NONCE_LENGTH + RULES_KEY_LENGTH + TAG_LENGTH
def RULES_MAX_CIPHERTEXT_BYTES : ℕ := 256 * 1024
def MAX_PLAINTEXT_BYTES : ℕ := RULES_MAX_CIPHERTEXT_BYTES - TAG_LENGTH
def MIN_PLAINTEXT_BUCKET : ℕ := 4096

structure RulesKdfParams where
  alg : String
  m : ℚ
  t : ℚ
  p : ℚ
  deriving DecidableEq

def DEFAULT_RULES_KDF : RulesKdfParams := ⟨"argon2id", 65536, 3, 1⟩

structure Range where
  min : ℕ
  max : ℕ

def RULES_KDF_LIMITS.m : Range := ⟨19456, 1048576⟩
def RULES_KDF_LIMITS.t : Range := ⟨2, 10⟩
def RULES_KDF_LIMITS.p : Range := ⟨1, 4⟩

structure RulesEnvelope where
  v : ℚ
  kdfParams : RulesKdfParams
  salt : String
  wrappedKey : String
  nonce : String
  ciphertext : String
  version : ℚ
  deriving DecidableEq

inductive RulesEnvelopeErrorCode
  | malformed
  | wrongPassphrase
  | tampered
  | rollback
  | tooLarge
  deriving DecidableEq, Repr

/-- What a call may throw: a `RulesEnvelopeError`, or the `TypeError` of a decoder. -/
inductive Thrown
  | rulesEnvelope (code : RulesEnvelopeErrorCode) (message : String)
  | type
  deriving DecidableEq, Repr

abbrev fail {α : Type} (code : RulesEnvelopeErrorCode) (message : String) : Except Thrown α :=
  .error (.rulesEnvelope code message)

def LABEL_WRAP_KEY : Bytes := utf8 "tnp/dns-rules/v1/wrap-key"
def LABEL_RULE_SET_KEY : Bytes := utf8 "tnp/dns-rules/v1/rule-set-key"
def AAD_WRAP : String := "tnp/dns-rules/v1/wrap"
def AAD_RULE_SET : String := "tnp/dns-rules/v1/rule-set"
def PLAINTEXT_LABEL : String := "tnp/dns-rules/v1/plaintext"

/-- The cipher, the two functions that derive keys, and `normalize('NFC')`. -/
structure Primitives extends Scheme Bytes where
  argon2id : Bytes → Bytes → SafeUint → SafeUint → SafeUint → Bytes
  hkdf : Bytes → Bytes → Bytes → Bytes
  normalizeNFC : JsString → JsString

/-- Bytes from `randomBytes`. -/
abbrev Drawn (n : ℕ) := {bytes : Bytes // bytes.length = n}

/-! ### Checks -/

/-- A number in a range, once it was checked. -/
abbrev In (range : Range) := {n : SafeUint // range.min ≤ n.val ∧ n.val ≤ range.max}

def isIntIn (value : ℚ) (range : Range) : Option (In range) :=
  match safeUint value with
  | some n => if h : range.min ≤ n.val ∧ n.val ≤ range.max then some ⟨n, h⟩ else none
  | none => none

/-- Parameters that passed the check. -/
structure KdfParams where
  m : In RULES_KDF_LIMITS.m
  t : In RULES_KDF_LIMITS.t
  p : In RULES_KDF_LIMITS.p

def KdfParams.alg : String := "argon2id"

def assertRulesKdfParams (params : RulesKdfParams) : Except Thrown KdfParams :=
  if params.alg ≠ KdfParams.alg then fail .malformed "kdfParams must name argon2id"
  else
    match isIntIn params.m RULES_KDF_LIMITS.m, isIntIn params.t RULES_KDF_LIMITS.t,
      isIntIn params.p RULES_KDF_LIMITS.p with
    | some m, some t, some p => .ok ⟨m, t, p⟩
    | _, _, _ => fail .malformed "kdfParams are outside the accepted Argon2id range"

def assertUserId (userId : JsString) : Except Thrown Unit :=
  if userId.length = 0 ∨ 256 < userId.length then fail .malformed "a user id is required"
  else .ok ()

def VERSIONS : Range := ⟨1, MAX_SAFE_INTEGER⟩

def assertVersion (version : ℚ) : Except Thrown (In VERSIONS) :=
  match isIntIn version VERSIONS with
  | some n => .ok n
  | none => fail .malformed "version must be a positive integer"

def decodeField (value label : String) (length : Option ℕ) : Except Thrown Bytes :=
  match decodeBase64Strict (.string value) length with
  | .ok bytes => .ok bytes
  | .error _ => fail .malformed s!"{label} is not canonical base64 of the right length"

/-- The fields of an envelope that passed the checks. -/
structure Checked where
  kdfParams : KdfParams
  version : In VERSIONS
  salt : Bytes
  wrappedKey : Bytes
  nonce : Bytes
  ciphertext : Bytes

def assertRulesEnvelope (envelope : RulesEnvelope) : Except Thrown Checked :=
  if envelope.v ≠ RULES_ENVELOPE_VERSION.val then
    fail .malformed "unsupported envelope version; expected v1"
  else do
    let kdfParams ← assertRulesKdfParams envelope.kdfParams
    let version ← assertVersion envelope.version
    let salt ← decodeField envelope.salt "salt" (some RULES_SALT_LENGTH)
    let wrappedKey ← decodeField envelope.wrappedKey "wrappedKey" (some RULES_WRAPPED_KEY_LENGTH)
    let nonce ← decodeField envelope.nonce "nonce" (some RULES_NONCE_LENGTH)
    let ciphertext ← decodeField envelope.ciphertext "ciphertext" none
    if ciphertext.length < TAG_LENGTH + MIN_PLAINTEXT_BUCKET then
      fail .malformed "ciphertext is too short"
    else if RULES_MAX_CIPHERTEXT_BYTES < ciphertext.length then
      fail .tooLarge "ciphertext is too large"
    else .ok { kdfParams, version, salt, wrappedKey, nonce, ciphertext }

/-! ### Keys and associated data -/

def deriveWrappingKey (C : Primitives) (passphrase : JsString) (salt : Bytes)
    (params : RulesKdfParams) : Except Thrown Bytes := do
  let kdf ← assertRulesKdfParams params
  if salt.length ≠ RULES_SALT_LENGTH then fail .malformed "salt must be 16 bytes"
  else if passphrase.length = 0 then fail .malformed "a passphrase is required"
  else
    let stretched := C.argon2id (textEncode (C.normalizeNFC passphrase)) salt kdf.m.val kdf.t.val
      kdf.p.val
    .ok (C.hkdf stretched salt LABEL_WRAP_KEY)

def wrapAad (userId : JsString) (params : KdfParams) (salt : Bytes) : Bytes :=
  ({} : CanonicalWriter)
    |>.string AAD_WRAP
    |>.uint RULES_ENVELOPE_VERSION
    |>.units userId
    |>.string KdfParams.alg
    |>.uint params.m.val
    |>.uint params.t.val
    |>.uint params.p.val
    |>.bytesPrefixed salt
    |>.finish

def ruleSetAad (userId : JsString) (version : SafeUint) : Bytes :=
  ({} : CanonicalWriter)
    |>.string AAD_RULE_SET
    |>.uint RULES_ENVELOPE_VERSION
    |>.units userId
    |>.uint version
    |>.finish

def ruleSetKey (C : Primitives) (rulesKey : Bytes) : Except Thrown Bytes :=
  if rulesKey.length ≠ RULES_KEY_LENGTH then fail .malformed "rules key must be 32 bytes"
  else .ok (C.hkdf rulesKey [] LABEL_RULE_SET_KEY)

/-! ### The plaintext -/

/-- `while (bucket < length) bucket *= 2`. -/
def growBucket (length bucket : ℕ) : ℕ :=
  if 0 < bucket ∧ bucket < length then growBucket length (bucket * 2) else bucket
termination_by length - bucket

def paddedPlaintextLength (length : ℕ) : Except Thrown ℕ :=
  if MAX_PLAINTEXT_BYTES < length then
    fail .tooLarge
      s!"the rule set is larger than {RULES_MAX_CIPHERTEXT_BYTES} bytes encrypted"
  else .ok (min (growBucket length MIN_PLAINTEXT_BUCKET) MAX_PLAINTEXT_BYTES)

/-- What is written before the padding. -/
def framed (userId : JsString) (version : SafeUint) (body : Bytes) : Bytes :=
  ({} : CanonicalWriter)
    |>.string PLAINTEXT_LABEL
    |>.units userId
    |>.uint version
    |>.bytesPrefixed body
    |>.finish

def framePlaintext (userId : JsString) (version : SafeUint) (body : Bytes) :
    Except Thrown Bytes := do
  let framed := framed userId version body
  let length ← paddedPlaintextLength framed.length
  .ok (framed ++ List.replicate (length - framed.length) 0)

def readPrefixed (rest : Bytes) : Except Thrown (Bytes × Bytes) :=
  if rest.length < 4 then fail .tampered "rule set framing is truncated"
  else
    let len := ofBe (rest.take 4)
    if (rest.drop 4).length < len then fail .tampered "rule set framing is truncated"
    else .ok ((rest.drop 4).take len, (rest.drop 4).drop len)

/-- `decoder.decode`, which throws at what is not UTF-8 and passes over a mark before the text. -/
def decode (bytes : Bytes) : Except Thrown String :=
  match decodeText bytes with
  | some text => .ok text
  | none => .error .type

def unframePlaintext (plain : Bytes) (userId : JsString) (version : SafeUint) :
    Except Thrown Bytes := do
  let (labelBytes, rest) ← readPrefixed plain
  let label ← decode labelBytes
  if label ≠ PLAINTEXT_LABEL then fail .tampered "not a TNP rule set"
  else do
    let (idBytes, rest) ← readPrefixed rest
    let id ← decode idBytes
    if units id ≠ userId then fail .tampered "the rule set belongs to another account"
    else if rest.length < 8 then fail .tampered "rule set framing is truncated"
    else if ofBe (rest.take 8) ≠ version.val then
      fail .tampered "the rule set version does not match"
    else do
      let (body, padding) ← readPrefixed (rest.drop 8)
      if padding.all (· == 0) then .ok body
      else fail .tampered "rule set padding is not zero"

/-! ### Sealing and opening -/

def sealRuleSet (C : Primitives) (table : Table Bytes) (rulesKey : Bytes) (userId : JsString)
    (version : SafeUint) (body : Bytes) (nonce : Drawn RULES_NONCE_LENGTH) :
    Except Thrown ((String × String) × Table Bytes) := do
  let key ← ruleSetKey C rulesKey
  let plain ← framePlaintext userId version body
  let (ciphertext, table) :=
    encrypt C.toScheme table key (ofBe nonce.val) (ruleSetAad userId version) plain
  .ok ((encodeBase64 nonce.val, encodeBase64 ciphertext), table)

def wrapKey (C : Primitives) (table : Table Bytes) (rulesKey wrappingKey : Bytes)
    (userId : JsString) (params : KdfParams) (salt : Bytes) (nonce : Drawn RULES_NONCE_LENGTH) :
    String × Table Bytes :=
  let (sealed, table) :=
    encrypt C.toScheme table wrappingKey (ofBe nonce.val) (wrapAad userId params salt) rulesKey
  (encodeBase64 (nonce.val ++ sealed), table)

structure CreateOptions where
  passphrase : JsString
  userId : JsString
  body : Bytes
  kdfParams : Option RulesKdfParams := none

/-- What creating an envelope draws, in order. -/
structure CreateDraws where
  salt : Drawn RULES_SALT_LENGTH
  rulesKey : Drawn RULES_KEY_LENGTH
  wrapNonce : Drawn RULES_NONCE_LENGTH
  nonce : Drawn RULES_NONCE_LENGTH

def createRulesEnvelope (C : Primitives) (table : Table Bytes) (options : CreateOptions)
    (draws : CreateDraws) : Except Thrown ((RulesEnvelope × Bytes) × Table Bytes) := do
  let kdfParams := options.kdfParams.getD DEFAULT_RULES_KDF
  assertUserId options.userId
  let kdf ← assertRulesKdfParams kdfParams
  let wrappingKey ← deriveWrappingKey C options.passphrase draws.salt.val kdfParams
  let (wrappedKey, table) := wrapKey C table draws.rulesKey.val wrappingKey options.userId kdf
    draws.salt.val draws.wrapNonce
  let ((nonce, ciphertext), table) ← sealRuleSet C table draws.rulesKey.val options.userId
    ⟨1, one_le_max_safe_integer⟩ options.body draws.nonce
  .ok (({
    v := RULES_ENVELOPE_VERSION.val
    kdfParams
    salt := encodeBase64 draws.salt.val
    wrappedKey
    nonce
    ciphertext
    version := 1 }, draws.rulesKey.val), table)

def unlockRulesKey (C : Primitives) (table : Table Bytes) (passphrase userId : JsString)
    (envelope : RulesEnvelope) : Except Thrown Bytes := do
  assertUserId userId
  let fields ← assertRulesEnvelope envelope
  let wrappingKey ← deriveWrappingKey C passphrase fields.salt envelope.kdfParams
  match decrypt C.toScheme table wrappingKey (ofBe (fields.wrappedKey.take RULES_NONCE_LENGTH))
      (wrapAad userId fields.kdfParams fields.salt)
      (fields.wrappedKey.drop RULES_NONCE_LENGTH) with
  | some rulesKey => .ok rulesKey
  | none => fail .wrongPassphrase "wrong passphrase, or the stored key was altered"

def openRulesEnvelope (C : Primitives) (table : Table Bytes) (rulesKey : Bytes)
    (userId : JsString) (envelope : RulesEnvelope) (minVersion : ℕ) : Except Thrown Bytes := do
  assertUserId userId
  let fields ← assertRulesEnvelope envelope
  if fields.version.val.val < minVersion then
    fail .rollback
      s!"the server offered rule set version {fields.version.val.val}, older than version {
        minVersion} already seen; refusing it"
  else do
    let key ← ruleSetKey C rulesKey
    match decrypt C.toScheme table key (ofBe fields.nonce)
        (ruleSetAad userId fields.version.val) fields.ciphertext with
    | none =>
      fail .tampered ("the rule set does not decrypt with this key: it was altered, belongs " ++
        "to another account, or was re-created with a new passphrase")
    | some plain => unframePlaintext plain userId fields.version.val

def resealRulesEnvelope (C : Primitives) (table : Table Bytes) (rulesKey : Bytes)
    (userId : JsString) (previous : RulesEnvelope) (body : Bytes)
    (nonce : Drawn RULES_NONCE_LENGTH) : Except Thrown (RulesEnvelope × Table Bytes) := do
  assertUserId userId
  let _ ← assertRulesEnvelope previous
  let version ← assertVersion (previous.version + 1)
  let ((nonce, ciphertext), table) ← sealRuleSet C table rulesKey userId version.val body nonce
  .ok ({
    v := RULES_ENVELOPE_VERSION.val
    kdfParams := previous.kdfParams
    salt := previous.salt
    wrappedKey := previous.wrappedKey
    nonce
    ciphertext
    version := version.val.val }, table)

end Tnp.Crypto.DnsRules
