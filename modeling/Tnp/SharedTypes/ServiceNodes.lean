import Tnp.Namespace.Policy
import Tnp.SharedTypes.KeyMaterial
import Tnp.SharedTypes.Relays

/-!
The requests of service nodes, and the overlay block as it is written.

A block whose parts have their shapes is read back as it was written.
-/

namespace Tnp.SharedTypes

open Tnp.Lib Tnp.Crypto Tnp.Namespace

/-- A field that is a string. -/
def textField (v : Value) (name : String) : Option String :=
  match v.get name with
  | .string s => some s
  | _ => none

inductive ServiceNodeStatus
  | online
  | offline
  deriving DecidableEq, Repr

/-- `UUID_RE`. -/
def isUuid (s : String) : Bool :=
  match s.toList.splitOn '-' with
  | [a, b, c, d, e] =>
    a.length == 8 && b.length == 4 && c.length == 4 && d.length == 4 && e.length == 12 &&
      (a ++ b ++ c ++ d ++ e).all isHexadecimal
  | _ => false

/-- A required field that is not empty, trimmed. -/
def stringField (record : Record) (field : String) : ParseResult String :=
  match Value.field record field with
  | .string s => if trim s = "" then .error (field ++ " is required") else .ok (trim s)
  | _ => .error (field ++ " is required")

def domainIdField (record : Record) : ParseResult String := do
  let domainId ← stringField record "domainId"
  if !isUuid domainId then .error "domainId must be a uuid" else .ok domainId

structure RegisterServiceNodeRequest where
  domainId : String
  chain : List Value
  kaCert : Value

structure ServiceNodeHeartbeatRequest where
  domainId : String
  connectedRelay : String
  relayBinding : Option Value

def parseRegisterServiceNodeRequest (body : Value) : ParseResult RegisterServiceNodeRequest :=
  match asRecord body with
  | none => .error "request body must be an object"
  | some record => do
    let domainId ← domainIdField record
    let chain ← parseChainShape (Value.field record "chain")
    let kaCert ← parseKeyAgreementCertificateShape (Value.field record "kaCert") "kaCert"
    .ok ⟨domainId, chain, kaCert⟩

def parseServiceNodeHeartbeatRequest (body : Value) : ParseResult ServiceNodeHeartbeatRequest :=
  match asRecord body with
  | none => .error "request body must be an object"
  | some record => do
    let domainId ← domainIdField record
    let connectedRelay ← stringField record "connectedRelay"
    let relayBinding ← parseRelayBindingShape (Value.field record "relayBinding")
    if relayBinding.any fun binding => textField binding "endpoint" ≠ some connectedRelay then
      .error "relayBinding.endpoint must equal connectedRelay"
    else .ok ⟨domainId, connectedRelay, relayBinding⟩

/-! ### The overlay block -/

def DomainKeyReset.json (reset : DomainKeyReset) : Value :=
  .object [("previousKeyFingerprint", .string reset.previousKeyFingerprint),
    ("since", .string reset.since)]

/-- The block in an answer. What it has not is left out. -/
def DnsResolveOverlay.json (overlay : DnsResolveOverlay) : Value :=
  .object <|
    [("relay", .string overlay.relay), ("available", .bool overlay.available),
      ("domainKey", .string overlay.domainKey), ("rotations", .array overlay.rotations),
      ("chain", .array overlay.chain), ("kaCert", overlay.kaCert)] ++
    (overlay.relayBinding.map fun binding => ("relayBinding", binding)).toList ++
    (overlay.keyReset.map fun reset => ("keyReset", reset.json)).toList

end Tnp.SharedTypes
