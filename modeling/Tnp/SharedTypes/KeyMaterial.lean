import Tnp.Crypto.Encoding
import Tnp.Crypto.Scope
import Tnp.Lib.Fallible

/-!
The shapes of the key material that crosses the registry.

These parsers say that a value is the right kind of object with the right kinds of fields, and
prove nothing about it. Whoever relies on the material verifies it afterwards.
-/

namespace Tnp.SharedTypes

open Tnp.Lib Tnp.Crypto

abbrev ParseResult := Except String

abbrev Record := List (String × Value)

/-- An object that is not an array. -/
def asRecord : Value → Option Record
  | .object fields => some fields
  | _ => none

def MAX_CHAIN_LENGTH : ℕ := 4
def MAX_ROTATIONS : ℕ := 32
def MAX_B64 : ℕ := 88

/-- A lowercase DNS name, as grants and certificates are scoped to. -/
def isCanonicalName : Value → Bool
  | .string s => isValidScope s
  | _ => false

/-- The first field that is not allowed. A field whose name is empty does not count as one. -/
def onlyFields (record : Record) (allowed : List String) : Option String :=
  ((record.map Prod.fst).find? fun key => !allowed.contains key).filter (· ≠ "")

def isB64 : Value → Bool
  | .string s => utf16Length s != 0 && utf16Length s ≤ MAX_B64
  | _ => false

def isUint : Value → Bool
  | .number x => (safeUint x).isSome
  | _ => false

/-- A purpose may be any short string here. -/
def isPurposeShape : Value → Bool
  | .string s => utf16Length s ≤ 32
  | _ => false

def isPurposesShape : Value → Bool
  | .array purposes =>
    purposes.length != 0 && purposes.length ≤ 8 && purposes.all isPurposeShape
  | _ => false

def parseGrantShape (value : Value) (label : String) : ParseResult Value :=
  match asRecord value with
  | none => .error (label ++ " must be an object")
  | some record =>
    let r := Value.field record
    if (onlyFields record ["issuer", "subject", "purposes", "notBefore", "notAfter", "serial",
        "scope", "signature"]).isSome then .error (label ++ " has an unexpected field")
    else if !isB64 (r "issuer") || !isB64 (r "subject") || !isB64 (r "signature") then
      .error (label ++ " keys and signature must be base64 strings")
    else if !isPurposesShape (r "purposes") then
      .error (label ++ " purposes must be a non-empty array of strings")
    else if !isUint (r "notBefore") || !isUint (r "notAfter") || !isUint (r "serial") then
      .error (label ++ " times and serial must be non-negative integers")
    else
      match r "scope" with
      | .undefined => .ok value
      | scope =>
        if !isCanonicalName scope then .error (label ++ " scope must be a canonical name")
        else .ok value

/-- The entries of an array, each after its shape was checked under its own label. -/
def parseEntries (parse : Value → String → ParseResult Value) (label : String) :
    ℕ → List Value → ParseResult (List Value)
  | _, [] => .ok []
  | i, entry :: rest => do
    let parsed ← parse entry s!"{label}[{i}]"
    let others ← parseEntries parse label (i + 1) rest
    .ok (parsed :: others)

def parseChainShape (value : Value) : ParseResult (List Value) :=
  match value with
  | .array grants =>
    if grants.length = 0 ∨ MAX_CHAIN_LENGTH < grants.length then
      .error s!"chain must be an array of 1 to {MAX_CHAIN_LENGTH} grants"
    else parseEntries parseGrantShape "chain" 0 grants
  | _ => .error s!"chain must be an array of 1 to {MAX_CHAIN_LENGTH} grants"

def isRoleShape : Value → Bool
  | .string s => s == "service-node" || s == "relay"
  | _ => false

def parseKeyAgreementCertificateShape (value : Value) (label : String) : ParseResult Value :=
  match asRecord value with
  | none => .error (label ++ " must be an object")
  | some record =>
    let r := Value.field record
    if (onlyFields record ["signer", "key", "role", "scope", "notBefore", "notAfter", "serial",
        "signature"]).isSome then .error (label ++ " has an unexpected field")
    else if !isB64 (r "signer") || !isB64 (r "key") || !isB64 (r "signature") then
      .error (label ++ " keys and signature must be base64 strings")
    else if !isRoleShape (r "role") then .error (label ++ " role is unknown")
    else if !isCanonicalName (r "scope") then .error (label ++ " scope must be a canonical name")
    else if !isUint (r "notBefore") || !isUint (r "notAfter") || !isUint (r "serial") then
      .error (label ++ " times and serial must be non-negative integers")
    else .ok value

def parseRotationShape (value : Value) (label : String) : ParseResult Value :=
  match asRecord value with
  | none => .error (label ++ " must be an object")
  | some record =>
    let r := Value.field record
    if (onlyFields record ["name", "previousKey", "nextKey", "issuedAt", "signature"]).isSome then
      .error (label ++ " has an unexpected field")
    else if !isCanonicalName (r "name") then .error (label ++ " name must be a canonical name")
    else if !isB64 (r "previousKey") || !isB64 (r "nextKey") || !isB64 (r "signature") then
      .error (label ++ " keys and signature must be base64 strings")
    else if !isUint (r "issuedAt") then
      .error (label ++ " issuedAt must be a non-negative integer")
    else .ok value

def parseRotationsShape (value : Value) : ParseResult (List Value) :=
  match value with
  | .array rotations =>
    if MAX_ROTATIONS < rotations.length then
      .error s!"rotations must be an array of at most {MAX_ROTATIONS} statements"
    else parseEntries parseRotationShape "rotations" 0 rotations
  | _ => .error s!"rotations must be an array of at most {MAX_ROTATIONS} statements"

/-- The domain key was reset after a release, without a signed rotation. -/
structure DomainKeyReset where
  previousKeyFingerprint : String
  since : String
  deriving DecidableEq

/-- `FINGERPRINT_RE`. -/
def isFingerprint (s : String) : Bool :=
  s.toList.length == 64 && s.toList.all fun c => ('0' ≤ c && c ≤ '9') || ('a' ≤ c && c ≤ 'f')

/-- `parseKeyResetShape`, where `isDate` tells what `Date.parse` reads as a time. -/
def parseKeyResetShape (isDate : String → Bool) (value : Value) :
    ParseResult (Option DomainKeyReset) :=
  match value with
  | .undefined => .ok none
  | value =>
    match asRecord value with
    | none => .error "keyReset must be an object"
    | some record =>
      let r := Value.field record
      if (onlyFields record ["previousKeyFingerprint", "since"]).isSome then
        .error "keyReset has an unexpected field"
      else
        match r "previousKeyFingerprint" with
        | .string fingerprint =>
          if !isFingerprint fingerprint then
            .error "keyReset previousKeyFingerprint must be a hex SHA-256"
          else
            match r "since" with
            | .string since =>
              if !isDate since || 40 < utf16Length since then
                .error "keyReset since must be an ISO 8601 time"
              else .ok (some ⟨fingerprint, since⟩)
            | _ => .error "keyReset since must be an ISO 8601 time"
        | _ => .error "keyReset previousKeyFingerprint must be a hex SHA-256"

def parseKeyShape (value : Value) (field : String) : ParseResult String :=
  match value with
  | .string s => if isB64 value then .ok s else .error (field ++ " must be a base64 key")
  | _ => .error (field ++ " must be a base64 key")

/-- A character of a string in JSON. -/
def jsonChar (c : Char) : String :=
  match c.toNat with
  | 0x22 => "\\\x22"
  | 0x5C => "\\\\"
  | 0x08 => "\\b"
  | 0x0C => "\\f"
  | 0x0A => "\\n"
  | 0x0D => "\\r"
  | 0x09 => "\\t"
  | n => if n < 0x20 then "\\u00" ++ toHex [UInt8.ofNat n] else c.toString

/-- `JSON.stringify` of a string. -/
def jsonString (s : String) : String :=
  "\x22" ++ String.join (s.toList.map jsonChar) ++ "\x22"

/-- The relay a service node says it is attached to, of which only the shape is known. -/
def parseRelayBindingShape (value : Value) : ParseResult (Option Value) :=
  match value with
  | .undefined | .null => .ok none
  | value =>
    match asRecord value with
    | none => .error "relayBinding must be an object"
    | some record =>
      let r := Value.field record
      match onlyFields record ["endpoint", "relayKey", "issuedAt", "signature"] with
      | some extra => .error ("relayBinding has an unexpected field " ++ jsonString extra)
      | none =>
        match r "endpoint" with
        | .string endpoint =>
          if utf16Length endpoint = 0 ∨ 512 < utf16Length endpoint then
            .error "relayBinding.endpoint must be a URL"
          else
            match r "relayKey" with
            | .string relayKey =>
              if utf16Length relayKey ≠ 44 then
                .error "relayBinding.relayKey must be a base64 32-byte key"
              else if !isUint (r "issuedAt") then
                .error "relayBinding.issuedAt must be a non-negative integer"
              else
                match r "signature" with
                | .string signature =>
                  if utf16Length signature ≠ MAX_B64 then
                    .error "relayBinding.signature must be a base64 signature"
                  else
                    .ok (some (.object [("endpoint", .string endpoint),
                      ("relayKey", .string relayKey), ("issuedAt", r "issuedAt"),
                      ("signature", .string signature)]))
                | _ => .error "relayBinding.signature must be a base64 signature"
            | _ => .error "relayBinding.relayKey must be a base64 32-byte key"
        | _ => .error "relayBinding.endpoint must be a URL"

/-! ### The overlay block -/

/-- How to reach a name's service node, and the key material to verify first. -/
structure DnsResolveOverlay where
  relay : String
  available : Bool
  domainKey : String
  rotations : List Value
  chain : List Value
  kaCert : Value
  keyReset : Option DomainKeyReset
  relayBinding : Option Value

def parseDnsResolveOverlay (isDate : String → Bool) (value : Value) :
    ParseResult DnsResolveOverlay :=
  match asRecord value with
  | none => .error "overlay must be an object"
  | some record =>
    let r := Value.field record
    match r "relay" with
    | .string relay =>
      if utf16Length relay = 0 ∨ 512 < utf16Length relay then .error "overlay relay must be a URL"
      else
        match r "available" with
        | .bool available => do
          let domainKey ← parseKeyShape (r "domainKey") "domainKey"
          let rotations ← parseRotationsShape (r "rotations")
          let chain ← parseChainShape (r "chain")
          let kaCert ← parseKeyAgreementCertificateShape (r "kaCert") "kaCert"
          let keyReset ← parseKeyResetShape isDate (r "keyReset")
          let relayBinding ← parseRelayBindingShape (r "relayBinding")
          .ok ⟨relay, available, domainKey, rotations, chain, kaCert, keyReset, relayBinding⟩
        | _ => .error "overlay available must be a boolean"
    | _ => .error "overlay relay must be a URL"

/-- What parses is in the array as it was. -/
lemma parseEntries_eq_ok {parse : Value → String → ParseResult Value}
    (hparse : ∀ value label out, parse value label = .ok out → out = value) {label : String}
    {i : ℕ} {entries out : List Value} (h : parseEntries parse label i entries = .ok out) :
    out = entries := by
  induction entries generalizing i out with
  | nil => exact (Except.ok.inj h).symm
  | cons entry rest ih =>
    obtain ⟨parsed, hentry, h⟩ := bind_eq_ok.mp h
    obtain ⟨others, hrest, h⟩ := bind_eq_ok.mp h
    obtain rfl := Except.ok.inj h
    rw [hparse _ _ _ hentry, ih hrest]

lemma parseRotationShape_eq_ok (value : Value) (label : String) (out : Value)
    (h : parseRotationShape value label = .ok out) : out = value := by
  unfold parseRotationShape at h
  split at h
  · contradiction
  · dsimp only at h
    repeat (split at h; · contradiction)
    exact (Except.ok.inj h).symm

lemma parseRotationsShape_eq_ok {value : Value} {rotations : List Value}
    (h : parseRotationsShape value = .ok rotations) : value = .array rotations := by
  unfold parseRotationsShape at h
  split at h
  · split at h
    · contradiction
    · rw [parseEntries_eq_ok parseRotationShape_eq_ok h]
  · contradiction

/-- The rotations are those of the answer. -/
lemma parseDnsResolveOverlay_rotations {isDate : String → Bool} {value : Value}
    {overlay : DnsResolveOverlay} (h : parseDnsResolveOverlay isDate value = .ok overlay) :
    value.get "rotations" = .array overlay.rotations := by
  cases value with
  | object fields =>
    simp only [parseDnsResolveOverlay, asRecord] at h
    split at h
    next relay hrelay =>
      split at h
      · contradiction
      split at h
      next available havailable =>
        obtain ⟨domainKey, -, h⟩ := bind_eq_ok.mp h
        obtain ⟨rotations, hrotations, h⟩ := bind_eq_ok.mp h
        obtain ⟨chain, -, h⟩ := bind_eq_ok.mp h
        obtain ⟨kaCert, -, h⟩ := bind_eq_ok.mp h
        obtain ⟨keyReset, -, h⟩ := bind_eq_ok.mp h
        obtain ⟨relayBinding, -, h⟩ := bind_eq_ok.mp h
        obtain rfl := Except.ok.inj h
        exact parseRotationsShape_eq_ok hrotations
      · contradiction
    · contradiction
  | _ => simp [parseDnsResolveOverlay, asRecord] at h

end Tnp.SharedTypes
