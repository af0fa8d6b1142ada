import Tnp.Crypto.KeyAgreement
import Tnp.Crypto.Utf16

/-!
The signed directory of relays, and the statements a relay and a service node sign about one.
-/

namespace Tnp.Crypto.RelayDirectory

open Tnp.Lib Tnp.Crypto.Grants

def DIRECTORY_CONTEXT : String := "tnp-relay-directory-v1"
def IDENTITY_CONTEXT : String := "tnp-relay-identity-v1"
def REGISTRY_PROOF_CONTEXT : String := "tnp-relay-registry-proof-v1"
def BINDING_CONTEXT : String := "tnp-service-relay-binding-v1"

def RELAY_DIRECTORY_VERSION : SafeUint := ⟨1, one_le_max_safe_integer⟩
def MAX_DIRECTORY_RELAYS : ℕ := 256
def MAX_DIRECTORY_BYTES : ℕ := 128 * 1024
def MAX_DIRECTORY_LIFETIME_SECONDS : ℕ := 7 * 86400
def MAX_DIRECTORY_CLOCK_SKEW_SECONDS : ℤ := 600
def MAX_RELAY_CAPABILITIES : ℕ := 8
def MAX_RELAY_ENDPOINT_LENGTH : ℕ := 512
def MAX_RELAY_REGION_LENGTH : ℕ := 64
def RELAY_IDENTITY_NONCE_SIZE : ℕ := 32
def MAX_RELAY_BINDING_AGE_SECONDS : ℤ := 3600

/-! ### Fields -/

def isEndpoint (value : JsString) : Bool :=
  value.length != 0 && value.length ≤ MAX_RELAY_ENDPOINT_LENGTH &&
    ((units "wss://").isPrefixOf value || (units "ws://").isPrefixOf value)

abbrev Endpoint := {value : JsString // isEndpoint value = true}

def checkEndpoint (value : JsString) : Except EncodingError Endpoint :=
  if h : isEndpoint value = true then .ok ⟨value, h⟩
  else .error ⟨"relay endpoint must be a ws(s):// URL of at most 512 characters"⟩

def parseEndpoint (value : Value) : Except EncodingError Endpoint :=
  match value with
  | .string s => checkEndpoint (units s)
  | _ => .error ⟨"relay endpoint must be a ws(s):// URL of at most 512 characters"⟩

/-- `CAPABILITY`. -/
def isCapability (token : String) : Bool :=
  let cs := token.toList
  cs.head?.any (fun c => 'a' ≤ c && c ≤ 'z') && cs.length ≤ 32 &&
    cs.all fun c => isAlphanumeric c || c == '-'

/-- `REGION`, and how long it may be: printable ASCII. -/
def isRegion (region : String) : Bool :=
  region.toList.length ≤ MAX_RELAY_REGION_LENGTH &&
    region.toList.all fun c => 0x20 ≤ c.toNat && c.toNat ≤ 0x7e

inductive DirectoryRelayOperator
  | oxy
  | community
  deriving DecidableEq, Repr

namespace DirectoryRelayOperator

def text : DirectoryRelayOperator → String
  | oxy => "oxy"
  | community => "community"

def ofText (s : String) : Option DirectoryRelayOperator := [oxy, community].find? (·.text = s)

end DirectoryRelayOperator

/-! ### The directory -/

/-- A relay of a directory after strict parsing. -/
structure ParsedRelay where
  endpoint : Endpoint
  key : PublicKey
  operator : DirectoryRelayOperator
  capabilities : List String
  region : String
  capabilities_valid : ∀ cap ∈ capabilities, isCapability cap = true
  capabilities_bounded : capabilities.length ≤ MAX_RELAY_CAPABILITIES
  region_valid : isRegion region = true
  deriving DecidableEq

structure ParsedDirectory where
  serial : SafeUint
  issuedAt : SafeUint
  expiresAt : SafeUint
  relays : List ParsedRelay
  serial_pos : 1 ≤ serial.val
  serial_le : serial.val ≤ issuedAt.val
  window : issuedAt.val < expiresAt.val
  lifetime : expiresAt.val - issuedAt.val ≤ MAX_DIRECTORY_LIFETIME_SECONDS
  relays_bounded : relays.length ≤ MAX_DIRECTORY_RELAYS
  endpoints_nodup : (relays.map fun r => r.endpoint.val).Nodup

def RELAY_FIELDS : List String := ["endpoint", "relayKey", "operator", "capabilities", "region"]

def DIRECTORY_FIELDS : List String :=
  ["v", "serial", "issuedAt", "expiresAt", "relays", "signature"]

abbrev Capabilities := {caps : List String // (∀ cap ∈ caps, isCapability cap = true) ∧
  caps.length ≤ MAX_RELAY_CAPABILITIES}

/-- The tokens of a list of values, where all are strings. -/
def strings : List Value → Option (List String)
  | [] => some []
  | .string s :: rest => (strings rest).map (s :: ·)
  | _ :: _ => none

def parseCapabilities (value : Value) : Except EncodingError Capabilities :=
  match value with
  | .array caps =>
    if MAX_RELAY_CAPABILITIES < caps.length then
      .error ⟨s!"capabilities must be an array of at most {MAX_RELAY_CAPABILITIES}"⟩
    else
      match strings caps with
      | none => .error ⟨"capabilities must be distinct lowercase tokens"⟩
      | some tokens =>
        if h : (∀ cap ∈ tokens, isCapability cap = true) ∧
            tokens.length ≤ MAX_RELAY_CAPABILITIES then
          if tokens.Nodup then .ok ⟨tokens, h⟩
          else .error ⟨"capabilities must be distinct lowercase tokens"⟩
        else .error ⟨"capabilities must be distinct lowercase tokens"⟩
  | _ => .error ⟨s!"capabilities must be an array of at most {MAX_RELAY_CAPABILITIES}"⟩

def parseRelayKey (value : Value) : Except EncodingError PublicKey :=
  match value with
  | .string s => parsePublicKey (.text s)
  | _ => .error ⟨"relayKey must be base64"⟩

def parseOperator (value : Value) : Except EncodingError DirectoryRelayOperator :=
  match value with
  | .string s =>
    match DirectoryRelayOperator.ofText s with
    | some operator => .ok operator
    | none => .error ⟨"operator must be oxy or community"⟩
  | _ => .error ⟨"operator must be oxy or community"⟩

def parseRegion (value : Value) : Except EncodingError {s : String // isRegion s = true} :=
  match value with
  | .string s =>
    if h : isRegion s = true then .ok ⟨s, h⟩
    else .error ⟨"region must be printable ASCII of at most 64 characters"⟩
  | _ => .error ⟨"region must be printable ASCII of at most 64 characters"⟩

def parseRelay (value : Value) : Except EncodingError ParsedRelay :=
  match value with
  | .object fields => do
    if fields.any fun f => !(RELAY_FIELDS.contains f.1) then
      .error ⟨"relay entry has an unexpected field"⟩
    let v := Value.field fields
    let endpoint ← parseEndpoint (v "endpoint")
    let key ← parseRelayKey (v "relayKey")
    let operator ← parseOperator (v "operator")
    let capabilities ← parseCapabilities (v "capabilities")
    let region ← parseRegion (v "region")
    .ok ⟨endpoint, key, operator, capabilities.val, region.val, capabilities.property.1,
      capabilities.property.2, region.property⟩
  | _ => .error ⟨"relay entry must be an object"⟩

lemma lifetime_le {issuedAt expiresAt : SafeUint}
    (h : ¬MAX_DIRECTORY_LIFETIME_SECONDS < expiresAt.val - issuedAt.val) :
    expiresAt.val - issuedAt.val ≤ MAX_DIRECTORY_LIFETIME_SECONDS := Nat.not_lt.mp h

def parseDirectory (value : Value) (allowSignature : Bool) :
    Except EncodingError ParsedDirectory :=
  match value with
  | .object fields => do
    if fields.any fun f =>
        !(DIRECTORY_FIELDS.contains f.1) || (f.1 == "signature" && !allowSignature)
    then .error ⟨"directory has an unexpected field"⟩
    let d := Value.field fields
    match d "v" with
    | .number x => if x ≠ RELAY_DIRECTORY_VERSION.val then .error ⟨"unsupported directory version"⟩
    | _ => .error ⟨"unsupported directory version"⟩
    let serial ← assertUint (d "serial") "serial"
    let issuedAt ← assertUint (d "issuedAt") "issuedAt"
    let expiresAt ← assertUint (d "expiresAt") "expiresAt"
    if hserial : serial.val < 1 then .error ⟨"serial must be at least 1"⟩
    else if hdate : issuedAt.val < serial.val then .error ⟨"serial must not exceed issuedAt"⟩
    else if hwindow : expiresAt.val ≤ issuedAt.val then .error ⟨"expiresAt must follow issuedAt"⟩
    else if hlifetime : MAX_DIRECTORY_LIFETIME_SECONDS < expiresAt.val - issuedAt.val then
      .error ⟨"directory validity window is too long"⟩
    else
      match d "relays" with
      | .array items =>
        if MAX_DIRECTORY_RELAYS < items.length then
          .error ⟨s!"relays must be an array of at most {MAX_DIRECTORY_RELAYS}"⟩
        else do
          let relays ← items.mapM parseRelay
          if hrelays : relays.length ≤ MAX_DIRECTORY_RELAYS ∧
              (relays.map fun r => r.endpoint.val).Nodup then
            .ok ⟨serial, issuedAt, expiresAt, relays, SafeUint.one_le hserial,
              SafeUint.le_of_not_lt hdate, SafeUint.lt_of_not_le hwindow, lifetime_le hlifetime,
              hrelays.1, hrelays.2⟩
          else .error ⟨"duplicate relay endpoint"⟩
      | _ => .error ⟨s!"relays must be an array of at most {MAX_DIRECTORY_RELAYS}"⟩
  | _ => .error ⟨"directory must be an object"⟩

/-- A count, which is never too large to write. -/
def count (n : ℕ) (h : n ≤ 256) : SafeUint := ⟨n, h.trans (by decide)⟩

lemma ParsedRelay.capabilities_le (r : ParsedRelay) : r.capabilities.length ≤ 256 :=
  r.capabilities_bounded.trans (by decide)

def encodeRelay (w : CanonicalWriter) (r : ParsedRelay) : CanonicalWriter :=
  (r.capabilities.foldl CanonicalWriter.string
    (w.units r.endpoint.val
      |>.fixed r.key
      |>.string r.operator.text
      |>.uint (count r.capabilities.length r.capabilities_le))).string
    r.region

def encodeDirectory (d : ParsedDirectory) : Except EncodingError Bytes :=
  let bytes := (d.relays.foldl encodeRelay
    (({} : CanonicalWriter)
      |>.string DIRECTORY_CONTEXT
      |>.uint RELAY_DIRECTORY_VERSION
      |>.uint d.serial
      |>.uint d.issuedAt
      |>.uint d.expiresAt
      |>.uint (count d.relays.length d.relays_bounded))).finish
  if MAX_DIRECTORY_BYTES < bytes.length then .error ⟨"directory is too large"⟩ else .ok bytes

/-! ### Statements about one relay -/

abbrev Nonce := {bytes : Bytes // bytes.length = RELAY_IDENTITY_NONCE_SIZE}

structure RelayIdentityStatement where
  endpoint : JsString
  nonce : Nonce
  relayKey : PublicKey
  deriving DecidableEq

def encodeIdentity (statement : RelayIdentityStatement) : Except EncodingError Bytes := do
  let endpoint ← checkEndpoint statement.endpoint
  .ok (({} : CanonicalWriter)
    |>.string IDENTITY_CONTEXT
    |>.units endpoint.val
    |>.fixed statement.nonce
    |>.fixed statement.relayKey
    |>.finish)

inductive RelayRegistryProofPurpose
  | register
  | heartbeat
  deriving DecidableEq, Repr

def RelayRegistryProofPurpose.text : RelayRegistryProofPurpose → String
  | register => "register"
  | heartbeat => "heartbeat"

structure RelayRegistryProofStatement where
  purpose : RelayRegistryProofPurpose
  endpoint : JsString
  relayKey : PublicKey
  issuedAt : SafeUint
  deriving DecidableEq

def encodeRegistryProof (statement : RelayRegistryProofStatement) : Except EncodingError Bytes := do
  let endpoint ← checkEndpoint statement.endpoint
  .ok (({} : CanonicalWriter)
    |>.string REGISTRY_PROOF_CONTEXT
    |>.string statement.purpose.text
    |>.units endpoint.val
    |>.fixed statement.relayKey
    |>.uint statement.issuedAt
    |>.finish)

/-- Which relay the service node of a name is attached to. -/
structure BindingStatement where
  name : String
  endpoint : JsString
  relayKey : PublicKey
  issuedAt : SafeUint
  deriving DecidableEq

def encodeBinding (binding : BindingStatement) : Except EncodingError Bytes :=
  if !isValidScope binding.name then .error ⟨"name is not a canonical name"⟩
  else do
    let endpoint ← checkEndpoint binding.endpoint
    .ok (({} : CanonicalWriter)
      |>.string BINDING_CONTEXT
      |>.string binding.name
      |>.units endpoint.val
      |>.fixed binding.relayKey
      |>.uint binding.issuedAt
      |>.finish)

inductive BindingRejection
  | malformed
  | badSignature
  | stale
  | notYetValid
  deriving DecidableEq, Repr

def BindingRejection.text : BindingRejection → String
  | malformed => "malformed"
  | badSignature => "bad-signature"
  | stale => "stale"
  | notYetValid => "not-yet-valid"

def BINDING_FIELDS : List String := ["endpoint", "relayKey", "issuedAt", "signature"]

/-- The statement of a binding for `name`, its bytes and its signature. -/
def parseBinding (name : String) (value : Value) :
    Except EncodingError (BindingStatement × Bytes × Bytes) :=
  match value with
  | .object fields => do
    if fields.any fun f => !(BINDING_FIELDS.contains f.1) then
      .error ⟨"binding has an unexpected field"⟩
    let b := Value.field fields
    let issuedAt ← assertUint (b "issuedAt") "issuedAt"
    let endpoint ← match b "endpoint" with
      | .string s => .ok (units s)
      | _ => .error ⟨"relay endpoint must be a ws(s):// URL of at most 512 characters"⟩
    let relayKey ← parseRelayKey (b "relayKey")
    let statement := ⟨name, endpoint, relayKey, issuedAt⟩
    let bytes ← encodeBinding statement
    let signature ← decodeBase64Strict (b "signature") (some SIGNATURE_LENGTH)
    .ok (statement, bytes, signature)
  | _ => .error ⟨"binding must be an object"⟩

/-- A binding for `name`, signed by the node key that a verified chain authorized, and fresh. -/
def verifyServiceRelayBinding (verify : Verifier) (name : String) (value : Value)
    (nodeKey : PublicKey) (now : ℚ) : Except BindingRejection BindingStatement :=
  match parseBinding name value with
  | .error _ => .error .malformed
  | .ok (statement, bytes, signature) =>
    if !verify bytes signature nodeKey.val then .error .badSignature
    else if now + MAX_DIRECTORY_CLOCK_SKEW_SECONDS < statement.issuedAt.val then
      .error .notYetValid
    else if MAX_RELAY_BINDING_AGE_SECONDS < now - statement.issuedAt.val then .error .stale
    else .ok statement

end Tnp.Crypto.RelayDirectory
