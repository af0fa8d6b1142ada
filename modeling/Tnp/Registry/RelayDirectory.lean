import Tnp.SharedTypes.Relays

/-!
The signed relay directory as the registry publishes it.

The Oxy-operated relays come from the configuration, which is parsed strictly; the community relays
come from the rows of the registry, which are checked again. `new URL`, `JSON.parse` and the
signature are the runtime's.
-/

namespace Tnp.Registry.RelayDirectory

open Tnp.Lib Tnp.Namespace Tnp.Crypto Tnp.Crypto.RelayDirectory Tnp.SharedTypes

/-- One Oxy-operated relay of the configuration. -/
structure OxyRelayConfig where
  endpoint : String
  relayKey : String
  region : String
  deriving DecidableEq

/-- A community relay as the registry hands it over. -/
structure CommunityRelayRow where
  endpoint : String
  publicKey : String
  location : String
  deriving DecidableEq

def MAX_REGION : ℕ := 64

/-- `PRINTABLE`. -/
def isPrintable (s : String) : Bool := s.toList.all fun c => 0x20 ≤ c.toNat && c.toNat ≤ 0x7e

def isLabel (s : String) : Bool := utf16Length s ≤ MAX_REGION && isPrintable s

def ALL_CAPABILITIES : List String := [RelayCapability.SERVICE.text, RelayCapability.TUNNEL.text]

/-! ### The configuration -/

section

variable (parseUrl : UrlParser)

def OxyRelayConfig.relay (relay : OxyRelayConfig) : DirectoryRelay where
  endpoint := relay.endpoint
  relayKey := relay.relayKey
  operator := .oxy
  capabilities := ALL_CAPABILITIES
  region := relay.region

/-- What a row of the registry is listed as, if it passes the checks again. -/
def CommunityRelayRow.relay (row : CommunityRelayRow) : Option DirectoryRelay :=
  if normalizeRelayEndpoint parseUrl row.endpoint ≠ some row.endpoint then none
  else if publicRelayEndpointProblem parseUrl row.endpoint ≠ none then none
  else
    match parsePublicKey (.text row.publicKey) with
    | .error _ => none
    | .ok key =>
      if encodeBase64 key.val ≠ row.publicKey then none
      else
        some
          { endpoint := row.endpoint
            relayKey := row.publicKey
            operator := .community
            capabilities := ALL_CAPABILITIES
            region := if isLabel row.location then row.location else "" }

/-- The loop through the rows; `out` are the relays so far, and `seen` their endpoints. -/
def addCommunity (out : List DirectoryRelay) (seen : List String) :
    List CommunityRelayRow → List DirectoryRelay
  | [] => out
  | row :: rest =>
    match row.relay parseUrl with
    | none => addCommunity out seen rest
    | some relay =>
      if seen.contains relay.endpoint then addCommunity out seen rest
      else if MAX_DIRECTORY_RELAYS ≤ (out ++ [relay]).length then out ++ [relay]
      else addCommunity (out ++ [relay]) (relay.endpoint :: seen) rest

/-- Configured Oxy relays first, then proven community relays. -/
def directoryRelays (oxyRelays : List OxyRelayConfig) (community : List CommunityRelayRow) :
    List DirectoryRelay :=
  let out := (oxyRelays.take MAX_DIRECTORY_RELAYS).map OxyRelayConfig.relay
  addCommunity parseUrl out (out.map DirectoryRelay.endpoint) community

end

/-! ### The service -/

/-- Holds the secret in memory only. -/
structure DirectorySigner where
  publicKey : PublicKey
  secretKey : {bytes : Bytes // bytes.length = 64}

structure RelayDirectoryServiceOptions where
  /-- `nacl.sign.detached`. -/
  sign : Bytes → Bytes → Bytes
  parseUrl : UrlParser
  signer : DirectorySigner
  oxyRelays : List OxyRelayConfig
  cacheSeconds : ℤ := 60
  lifetimeSeconds : ℤ := RELAY_DIRECTORY_LIFETIME_SECONDS

structure CachedDocument where
  document : SignedRelayDirectory
  freshUntil : ℤ

structure RelayDirectoryService where
  cached : Option CachedDocument := none
  lastSerial : ℤ := 0
  /-- The documents that were built, newest first; never read. -/
  built : List SignedRelayDirectory := []

/-- A request, and the build it waits for when nothing cached answers it. -/
structure Request where
  /-- Milliseconds. -/
  now : ℤ
  /-- What the registry lists, unless that fails. -/
  community : Option (List CommunityRelayRow)
  /-- Milliseconds, once the registry has answered. -/
  builtAt : ℤ

namespace RelayDirectoryService

variable (options : RelayDirectoryServiceOptions) (service : RelayDirectoryService)

/-- The serial and the date of a build, never below what was signed before. -/
def issuedAt (nowMs : ℤ) : ℤ := max (nowMs / 1000) service.lastSerial

def unsigned (community : Option (List CommunityRelayRow)) (nowMs : ℤ) :
    UnsignedRelayDirectory where
  serial := service.issuedAt nowMs
  issuedAt := service.issuedAt nowMs
  expiresAt := service.issuedAt nowMs + options.lifetimeSeconds
  relays := directoryRelays options.parseUrl options.oxyRelays (community.getD [])

/-- The document that a build ends with. -/
def signed (community : Option (List CommunityRelayRow)) (nowMs : ℤ) :
    Except EncodingError SignedRelayDirectory :=
  signRelayDirectory options.sign (unsigned options service community nowMs)
    options.signer.secretKey.val

/-- A degraded document is not cached, and the serial is kept also where signing throws. -/
def build (community : Option (List CommunityRelayRow)) (nowMs : ℤ) : RelayDirectoryService :=
  let service' := { service with lastSerial := service.issuedAt nowMs }
  match signed options service community nowMs with
  | .error _ => service'
  | .ok document =>
    { service' with
      cached := community.map fun _ => ⟨document, nowMs + options.cacheSeconds * 1000⟩
      built := document :: service.built }

/-- The cached document answers. -/
def fresh (request : Request) : Bool := service.cached.any fun c => request.now < c.freshUntil

def current (request : Request) : RelayDirectoryService :=
  if service.fresh request then service
  else build options service request.community request.builtAt

end RelayDirectoryService

end Tnp.Registry.RelayDirectory
