import Tnp.Client.Pins
import Tnp.Crypto.RelayDirectory
import Tnp.SharedTypes.KeyMaterial

/-!
From an untrusted answer of the registry to a key that the handshake takes, or a refusal that
says why.

The domain key must be the pinned one or be followed from it, the certificate must verify for the
name, and a relay binding must be signed by the key the certificate's chain authorizes. Only then
does the pin file learn anything.
-/

namespace Tnp.Client.VerifyOverlay

open Tnp.Lib Tnp.Crypto Tnp.Crypto.Grants Tnp.Crypto.DomainKey Tnp.Crypto.KeyAgreement
open Tnp.Crypto.RelayDirectory Tnp.SharedTypes Tnp.Client.Pins

inductive OverlayRefusal
  | notNative
  | noOverlay
  | malformed
  | pinMismatch
  | badChain
  | badBinding
  deriving DecidableEq, Repr

/-- A refusal, or a value that the cryptography does not take. -/
inductive Refused
  | refusal (reason : OverlayRefusal) (message : String)
  | encoding (e : EncodingError)
  deriving DecidableEq

structure VerifiedOverlay where
  name : String
  relay : String
  /-- The relay the service node itself signed that it is attached to. -/
  relayBinding : Option (JsString × PublicKey)
  key : VerifiedKeyAgreementKey
  /-- This verification created the pin. -/
  firstContact : Bool
  keyReset : Option DomainKeyReset
  deriving DecidableEq

variable (nacl : Nacl) (isDate : String → Bool) (pinsPath : String)

/-- What is said of a reset that the registry admits to. -/
def resetText (name : String) (overlay : DnsResolveOverlay) (pin : Pin) :
    Except EncodingError String :=
  match overlay.keyReset with
  | none => .ok ""
  | some reset => do
    let fingerprint ← domainKeyFingerprint nacl.sha256 (.text pin.domainKey)
    if reset.previousKeyFingerprint = fingerprint then
      .ok (s!" The registry says {name} was released and registered again with a new key on " ++
        s!"{reset.since}, without a signature from the key you pinned: it may now " ++
        "belong to someone else.")
    else .ok ""

def mismatchText (name : String) (pin : Pin) (reset : String) : String :=
  s!"REFUSING {name}: its domain key changed since you pinned it on {pin.pinnedAt}, and the " ++
  s!"change is not signed by the key you pinned.{reset} Someone — the registry, or " ++
  "whoever can alter its answers — may be impersonating this name to read your " ++
  "traffic. Do not override this unless the owner confirms, through a channel you " ++
  s!"trust, that the change is theirs; then run \x60tnp pins forget {name}\x60."

/-- The key in the answer is the pinned one, or is followed from it. -/
def followPin (name : String) (overlay : DnsResolveOverlay) : Option Pin → Except Refused Unit
  | none => .ok ()
  | some pin =>
    if pin.domainKey = overlay.domainKey then .ok ()
    else
      match followDomainKeyRotations nacl.verify
          ⟨name, .text pin.domainKey, .text overlay.domainKey, .array overlay.rotations⟩ with
      | .ok _ => .ok ()
      | .error _ =>
        match resetText nacl name overlay pin with
        | .error e => .error (.encoding e)
        | .ok reset => .error (.refusal .pinMismatch (mismatchText name pin reset))

/-- The marks of a name's pin, as the verification of chains takes them. -/
def knownSerials (pin : Option Pin) (key : String) : Option ℚ :=
  pin.bind fun pin => (pin.serials.get key).map fun serial => (serial : ℚ)

def verifyCertificate (name : String) (overlay : DnsResolveOverlay) (nowSeconds : ℚ)
    (pin : Option Pin) : Except Refused VerifiedCertificate :=
  match verifyKeyAgreementCertificate nacl overlay.kaCert overlay.chain {
      trustedRoots := [.text overlay.domainKey]
      role := .SERVICE_NODE
      name
      now := nowSeconds
      knownSerials := knownSerials pin } with
  | .error e => .error (.encoding e)
  | .ok (.error failure) =>
    .error (.refusal .badChain
      (s!"REFUSING {name}: the service node's key does not verify against the domain key " ++
        s!"({failure.reason.text}). The registry may be serving a substituted key."))
  | .ok (.ok verified) => .ok verified

def verifyBinding (name : String) (overlay : DnsResolveOverlay) (nowSeconds : ℚ)
    (verified : VerifiedCertificate) : Except Refused (Option (JsString × PublicKey)) :=
  match overlay.relayBinding with
  | none => .ok none
  | some binding =>
    match verifyServiceRelayBinding nacl.verify name binding verified.chain.subject nowSeconds with
    | .error reason =>
      .error (.refusal .badBinding
        (s!"REFUSING {name}: the relay binding in the registry's answer is not a fresh " ++
          s!"statement by the service node's key ({reason.text}). The registry may be routing " ++
          "you elsewhere."))
    | .ok bound => .ok (some (bound.endpoint, bound.relayKey))

/-- All that an answer must pass, against the pin. -/
def acceptOverlay (name : String) (overlay : DnsResolveOverlay) (nowSeconds : ℚ)
    (pin : Option Pin) :
    Except Refused (VerifiedCertificate × Option (JsString × PublicKey)) := do
  followPin nacl name overlay pin
  let verified ← verifyCertificate nacl name overlay nowSeconds pin
  let relayBinding ← verifyBinding nacl name overlay nowSeconds verified
  .ok (verified, relayBinding)

/-- The marks an accepted certificate raises: of the grants above it, then its own. -/
def serials (verified : VerifiedCertificate) : List (String × ℕ) :=
  (verified.chain.serials ++ [(verified.serialKey, verified.serial)]).map fun e => (e.1, e.2.val)

def decideOverlay (name : String) (overlay : DnsResolveOverlay) (nowSeconds : ℚ) (clock : String)
    (pin : Option Pin) : Except Refused (Option Pin × VerifiedOverlay) := do
  let (verified, relayBinding) ← acceptOverlay nacl name overlay nowSeconds pin
  .ok (some (next pin overlay.domainKey clock (serials verified)), {
    name
    relay := overlay.relay
    relayBinding
    key := verified.key
    firstContact := pin.isNone
    keyReset := overlay.keyReset })

/-- `verifyOverlay`, with the pin file as it was and as it is then. The clock is read twice: in
seconds for what is verified, and as text for a new pin. -/
def verifyOverlay (disk : PinDisk) (name : String) (overlayInput : Value) (nowSeconds : ℚ)
    (clock : String) : PinDisk × Except (Thrown Refused) VerifiedOverlay :=
  match parseDnsResolveOverlay isDate overlayInput with
  | .error e => (disk, .error (.decision (.refusal .malformed s!"overlay: {e}")))
  | .ok overlay =>
    if !overlay.available then
      (disk, .error (.decision (.refusal .noOverlay s!"{name} has no service node online")))
    else update pinsPath disk name (decideOverlay nacl name overlay nowSeconds clock)

/-! ### Calls -/

/-- What may be called, with whatever the registry answered. -/
inductive Call
  | verify (name : String) (overlay : Value) (nowSeconds : ℚ) (clock : String)
  | forget (name : String)

namespace Call

def name : Call → String
  | verify name _ _ _ => name
  | forget name => name

/-- The file after the call. -/
def disk (disk : PinDisk) : Call → PinDisk
  | verify name overlay nowSeconds clock =>
    (verifyOverlay nacl isDate pinsPath disk name overlay nowSeconds clock).1
  | forget name => (Pins.forget pinsPath disk name).1

/-- The call throws. -/
def fails (disk : PinDisk) : Call → Bool
  | verify name overlay nowSeconds clock =>
    (verifyOverlay nacl isDate pinsPath disk name overlay nowSeconds clock).2.toOption.isNone
  | forget name => (Pins.forget pinsPath disk name).2.toOption.isNone

/-- What the call accepts, against the file it finds. -/
def accepts (disk : PinDisk) : Call → Option (DnsResolveOverlay × VerifiedCertificate)
  | verify name answer nowSeconds _ =>
    (parseDnsResolveOverlay isDate answer).toOption.bind fun overlay =>
      (read pinsPath disk).toOption.bind fun file =>
        if !overlay.available then none
        else
          (acceptOverlay nacl name overlay nowSeconds (file.get name)).toOption.map
            fun accepted => (overlay, accepted.1)
  | forget _ => none

end Call

end Tnp.Client.VerifyOverlay
