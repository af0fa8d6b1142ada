import Tnp.Crypto.DirectoryDocument
import Tnp.Lib.Run
import Tnp.Registry.RelayDirectory

/-!
When the registry can publish its directory.

What the configuration and the rows may hold is bounded elsewhere than what a directory may hold:
an endpoint has no length limit where it is configured, the list of relays may be one too long, and
the limits on the relays together exceed the limit on the bytes. The serials never decrease.
-/

namespace Tnp.Registry.RelayDirectory

open Tnp.Lib Tnp.Lib.Run Tnp.Namespace Tnp.Crypto Tnp.Crypto.RelayDirectory Tnp.SharedTypes
open Tnp.Crypto.Grants (Verifier)

/-! ### Endpoints -/

/-- What the parser of the runtime is relied on for. The parts of a URL are printed in visible
ASCII; and a `ws:` URL that is printed without its credentials, query, fragment and trailing
slashes parses to the parts that are left. -/
structure Canonical (parseUrl : UrlParser) : Prop where
  visible : ∀ raw url, parseUrl raw = some url →
    ∀ c ∈ url.host.toList ++ url.pathname.toList, 0x21 ≤ c.toNat ∧ c.toNat ≤ 0x7e
  reparse : ∀ raw url, parseUrl raw = some url → url.protocol ∈ RELAY_ENDPOINT_PROTOCOLS →
    parseUrl url.endpoint = some
      { protocol := url.protocol
        host := url.host
        hostname := url.hostname
        pathname :=
          if withoutTrailingSlashes url.pathname = "" then "/"
          else withoutTrailingSlashes url.pathname }

section Endpoint

variable {parseUrl : UrlParser} {raw endpoint : String}

end Endpoint

/-! ### Relays that may be listed -/

section Listable

variable {parseUrl : UrlParser} {place : String} {seen : List String} {entry : Value}
  {relay : OxyRelayConfig} {relays done : List OxyRelayConfig} {entries : List Value}
  {row : CommunityRelayRow} {rows : List CommunityRelayRow} {r : DirectoryRelay}

end Listable

/-! ### The relays that are listed -/

section

variable {parseUrl : UrlParser} {oxyRelays : List OxyRelayConfig} {rows : List CommunityRelayRow}
  {seen : List String} {out : List DirectoryRelay}

/-- The relays of the rows that pass the checks, the first of each endpoint. -/
def admitted (parseUrl : UrlParser) (seen : List String) :
    List CommunityRelayRow → List DirectoryRelay
  | [] => []
  | row :: rest =>
    match row.relay parseUrl with
    | none => admitted parseUrl seen rest
    | some relay =>
      if seen.contains relay.endpoint then admitted parseUrl seen rest
      else relay :: admitted parseUrl (relay.endpoint :: seen) rest

/-- The configured relays that are listed. -/
def listedOxy (oxyRelays : List OxyRelayConfig) : List DirectoryRelay :=
  (oxyRelays.take MAX_DIRECTORY_RELAYS).map OxyRelayConfig.relay

/-- The community relays that may be listed after them. -/
def listableCommunity (parseUrl : UrlParser) (oxyRelays : List OxyRelayConfig)
    (rows : List CommunityRelayRow) : List DirectoryRelay :=
  admitted parseUrl ((listedOxy oxyRelays).map DirectoryRelay.endpoint) rows

/-- The configured relays, and then as many community relays as there is room for. -/
def listing (parseUrl : UrlParser) (oxyRelays : List OxyRelayConfig)
    (rows : List CommunityRelayRow) : List DirectoryRelay :=
  listedOxy oxyRelays ++
    (listableCommunity parseUrl oxyRelays rows).take (MAX_DIRECTORY_RELAYS - oxyRelays.length)

end

/-! ### One build -/

/-- What a pinned signer is relied on for. -/
structure Pinned (verify : Verifier) (trustedKeys : List Bytes)
    (options : RelayDirectoryServiceOptions) : Prop where
  trusted : options.signer.publicKey.val ∈ trustedKeys
  length : ∀ bytes, (options.sign bytes options.signer.secretKey.val).length = SIGNATURE_LENGTH
  verifies : ∀ bytes, verify bytes (options.sign bytes options.signer.secretKey.val)
    options.signer.publicKey.val = true

section Build

variable {verify : Verifier} {trustedKeys : List Bytes} {options : RelayDirectoryServiceOptions}
  {service : RelayDirectoryService} {request : Request}

/-- No document carries a lower serial than one built before it. -/
def SerialsRise (service : RelayDirectoryService) : Prop :=
  (service.built.map (·.serial)).Pairwise (· ≥ ·)

structure Rising (service : RelayDirectoryService) : Prop where
  le_last : ∀ document ∈ service.built, document.serial ≤ service.lastSerial
  rise : SerialsRise service

lemma le_issuedAt (nowMs : ℤ) : service.lastSerial ≤ service.issuedAt nowMs := le_max_right _ _

lemma serial_of_signed {document : SignedRelayDirectory} {nowMs : ℤ}
    {community : Option (List CommunityRelayRow)}
    (h : service.signed options community nowMs = .ok document) :
    document.serial = service.issuedAt nowMs := by
  obtain ⟨p, bytes, -, -, rfl⟩ :=
    (signRelayDirectory_eq_ok_iff options.signer.secretKey.property).mp h
  rfl

theorem Rising.current (h : Rising service) (request : Request) :
    Rising (service.current options request) := by
  unfold RelayDirectoryService.current
  split
  · exact h
  unfold RelayDirectoryService.build
  have hkept : ∀ document ∈ service.built, document.serial ≤ service.issuedAt request.builtAt :=
    fun document hdocument => (h.le_last document hdocument).trans (le_issuedAt _)
  dsimp only
  split
  · exact ⟨hkept, h.rise⟩
  · next document hsigned =>
    have hserial := serial_of_signed hsigned
    refine ⟨List.forall_mem_cons.mpr ⟨hserial.le, hkept⟩, List.pairwise_cons.mpr ⟨?_, h.rise⟩⟩
    intro serial hmem
    obtain ⟨earlier, hearlier, rfl⟩ := List.mem_map.mp hmem
    exact (hkept earlier hearlier).trans hserial.ge

end Build

def samplePath (letters : ℕ) : String := "/" ++ String.ofList (List.replicate letters 'a')

/-- One host, with a path of so many letters. -/
def sampleUrl (letters : ℕ) : Url where
  protocol := "wss:"
  host := "relay.example.org"
  hostname := "relay.example.org"
  pathname := samplePath letters

def sampleEndpoint (letters : ℕ) : String := "wss://relay.example.org" ++ samplePath letters

/-- A parser that knows this URL alone. -/
def sampleParser (letters : ℕ) : UrlParser := fun raw =>
  if raw = sampleEndpoint letters then some (sampleUrl letters) else none

def sampleKey : PublicKey := ⟨List.replicate 32 0, length_zeros⟩

def sampleRelay (letters : ℕ) : OxyRelayConfig where
  endpoint := sampleEndpoint letters
  relayKey := encodeBase64 sampleKey.val
  region := "eu"

/-- One relay, and a signature that always verifies. -/
def sampleOptions (letters : ℕ) : RelayDirectoryServiceOptions where
  sign := fun _ _ => List.replicate 64 0
  parseUrl := sampleParser letters
  signer := ⟨sampleKey, ⟨List.replicate 64 0, List.length_replicate⟩⟩
  oxyRelays := [sampleRelay letters]

def verifyAny : Verifier := fun _ _ _ => true

section Sample

variable {letters : ℕ}

end Sample

end Tnp.Registry.RelayDirectory
