import Tnp.Crypto.DirectorySignature
import Tnp.Namespace.Policy
import Tnp.SharedTypes.KeyMaterial

/-!
Relay endpoints, and the policy that the endpoints of a signed directory must meet.

The URL parser is the runtime's: a function from texts to the parts of a URL.
-/

namespace Tnp.SharedTypes

open Tnp.Lib Tnp.Namespace Tnp.Crypto Tnp.Crypto.Grants Tnp.Crypto.RelayDirectory

structure Url where
  protocol : String
  username : String := ""
  password : String := ""
  host : String
  hostname : String
  pathname : String := "/"
  search : String := ""
  hash : String := ""

/-- `new URL`; `none` is a throw. -/
abbrev UrlParser := String → Option Url

/-! ### Endpoints -/

def RELAY_ENDPOINT_PROTOCOLS : List String := ["ws:", "wss:"]

/-- `replace(/\/+$/, '')`. -/
def withoutTrailingSlashes (pathname : String) : String :=
  String.ofList (pathname.toList.rdropWhile (· = '/'))

/-- The endpoint that the parts of a URL spell. -/
def Url.endpoint (url : Url) : String :=
  url.protocol ++ "//" ++ url.host ++ withoutTrailingSlashes url.pathname

/-- Canonical form of a relay endpoint. -/
def normalizeRelayEndpoint (parseUrl : UrlParser) (raw : String) : Option String :=
  match parseUrl (trim raw) with
  | none => none
  | some url =>
    if ¬ RELAY_ENDPOINT_PROTOCOLS.contains url.protocol then none
    else if url.username ≠ "" ∨ url.password ≠ "" then none
    else if url.search ≠ "" ∨ url.hash ≠ "" then none
    else if url.hostname = "" then none
    else some url.endpoint

/-- Hostname suffixes that never name a publicly reachable host. -/
def LOCAL_HOST_SUFFIXES : List String := [".localhost", ".local", ".internal", ".home.arpa", ".lan"]

def ipv4Octet (part : List Char) : Option ℕ :=
  if 1 ≤ part.length ∧ part.length ≤ 3 ∧ part.all Char.isDigit ∧
      Nat.ofDigitChars 10 part 0 ≤ 255 then
    some (Nat.ofDigitChars 10 part 0)
  else none

def ipv4Octets (host : List Char) : Option (List ℕ) :=
  let parts := host.splitOn '.'
  if parts.length ≠ 4 then none else parts.mapM ipv4Octet

/-- Loopback, private, link-local, CGNAT, documentation, benchmarking, multicast, reserved. -/
def isNonPublicIpv4 (a b c : ℕ) : Bool :=
  a = 0 ∨ a = 10 ∨ a = 127 ∨
    (a = 100 ∧ 64 ≤ b ∧ b ≤ 127) ∨
    (a = 169 ∧ b = 254) ∨
    (a = 172 ∧ 16 ≤ b ∧ b ≤ 31) ∨
    (a = 192 ∧ b = 0 ∧ (c = 0 ∨ c = 2)) ∨
    (a = 192 ∧ b = 168) ∨
    (a = 198 ∧ (b = 18 ∨ b = 19)) ∨
    (a = 198 ∧ b = 51 ∧ c = 100) ∨
    (a = 203 ∧ b = 0 ∧ c = 113) ∨
    224 ≤ a

def isHexadecimal (c : Char) : Bool := c.isDigit || ('a' ≤ c && c ≤ 'f') || ('A' ≤ c && c ≤ 'F')

def hexadecimalValue (c : Char) : ℕ :=
  if c.isDigit then c.toNat - 48 else if c.toNat < 97 then c.toNat - 55 else c.toNat - 87

/-- `Number.parseInt(group, 16)` of a group as the URL parser prints it, `none` for `NaN`. -/
def parseGroup (group : List Char) : Option ℕ :=
  match group.takeWhile isHexadecimal with
  | [] => none
  | digits => some (digits.foldl (fun n c => 16 * n + hexadecimalValue c) 0)

/-- `host.split('::')`. -/
def splitDoubleColon : List Char → List (List Char)
  | ':' :: ':' :: rest => [] :: splitDoubleColon rest
  | c :: rest =>
    match splitDoubleColon rest with
    | part :: parts => (c :: part) :: parts
    | [] => [[c]]
  | [] => [[]]

/-- Eight 16-bit groups of a bracket-free IPv6 literal as the URL parser prints it. -/
def ipv6Groups (host : List Char) : Option (List ℕ) :=
  if ¬ host.contains ':' then none
  else
    let parse (part : List Char) := if part = [] then [] else (part.splitOn ':').map parseGroup
    let join (left right : List (Option ℕ)) (missing : ℕ) : Option (List ℕ) :=
      let groups := left ++ List.replicate missing (some 0) ++ right
      if groups.all fun group => group.any (· ≤ 0xffff) then some (groups.filterMap id) else none
    match splitDoubleColon host with
    | [head] => if (parse head).length ≠ 8 then none else join (parse head) [] 0
    | [head, tail] =>
      if 8 ≤ (parse head).length + (parse tail).length then none
      else join (parse head) (parse tail) (8 - (parse head).length - (parse tail).length)
    | _ => none

def isNonPublicIpv6 (groups : List ℕ) : Bool :=
  let g i := groups.getD i 0
  let allZeroTo n := (groups.take n).all (· = 0)
  if allZeroTo 7 ∧ (g 7 = 0 ∨ g 7 = 1) then true
  else if allZeroTo 5 ∧ (g 5 = 0xffff ∨ g 5 = 0) then
    -- IPv4-mapped, and the deprecated IPv4-compatible form
    isNonPublicIpv4 (g 6 >>> 8) (g 6 &&& 0xff) (g 7 >>> 8)
  else
    g 0 &&& 0xfe00 = 0xfc00 ∨ g 0 &&& 0xffc0 = 0xfe80 ∨ g 0 &&& 0xffc0 = 0xfec0 ∨
      g 0 &&& 0xff00 = 0xff00 ∨ (g 0 = 0x2001 ∧ g 1 = 0x0db8) ∨
      (g 0 = 0x0064 ∧ g 1 = 0xff9b ∧ g 2 = 0x0001) ∨
      (g 0 = 0x0100 ∧ g 1 = 0 ∧ g 2 = 0 ∧ g 3 = 0 ∧ g 4 = 0)

/-- `replace(/^\[|\]$/g, '')`. -/
def withoutBrackets (hostname : String) : List Char :=
  let cs := if hostname.toList.head? = some '[' then hostname.toList.drop 1 else hostname.toList
  if cs.getLast? = some ']' then cs.dropLast else cs

def isLocalHost (host : List Char) : Bool :=
  match ipv4Octets host with
  | some octets => isNonPublicIpv4 (octets.getD 0 0) (octets.getD 1 0) (octets.getD 2 0)
  | none =>
    match ipv6Groups host with
    | some groups => isNonPublicIpv6 groups
    | none =>
      host = "localhost".toList || !host.contains '.' ||
        LOCAL_HOST_SUFFIXES.any fun suffix => suffix.toList.isSuffixOf host

def RELAY_ENDPOINT_SHAPE_ERROR : String :=
  "endpoint must be a wss:// URL with no credentials, query or fragment"

/-- Why an endpoint in canonical form cannot be published, or `none` if it can. -/
def publicRelayEndpointProblem (parseUrl : UrlParser) (endpoint : String) : Option String :=
  match parseUrl endpoint with
  | none => some RELAY_ENDPOINT_SHAPE_ERROR
  | some url =>
    if url.protocol ≠ "wss:" then
      some "endpoint must use wss://; plain ws:// relays are not published"
    else if isLocalHost (withoutBrackets url.hostname) then
      some "endpoint must be a publicly reachable host, not a private, loopback or local address"
    else none

/-! ### The signed directory -/

/-- How long a directory the API signs stays valid. -/
def RELAY_DIRECTORY_LIFETIME_SECONDS : ℤ := 6 * 3600

inductive RelayCapability
  | TUNNEL
  | SERVICE

def RelayCapability.text : RelayCapability → String
  | TUNNEL => "tunnel"
  | SERVICE => "service"

structure VerifySignedRelayDirectoryOptions extends VerifyDirectoryOptions where
  allowNonPublicEndpoints : Bool := false

inductive RelayDirectoryFailure
  | rejected (reason : DirectoryRejection)
  | badEndpoint
  deriving DecidableEq

/-- An endpoint that a client's lookup finds, and may dial. -/
def endpointAllowed (parseUrl : UrlParser) (allowNonPublic : Bool) (endpoint : String) : Bool :=
  normalizeRelayEndpoint parseUrl endpoint = some endpoint &&
    (allowNonPublic || publicRelayEndpointProblem parseUrl endpoint = none)

/-- A signed document that breaks the policy is refused whole. -/
def verifySignedRelayDirectory (verify : Verifier) (parseUrl : UrlParser) (body : Value)
    (options : VerifySignedRelayDirectoryOptions) :
    Except RelayDirectoryFailure VerifiedRelayDirectory :=
  match verifyRelayDirectory verify body options.toVerifyDirectoryOptions with
  | .error reason => .error (.rejected reason)
  | .ok directory =>
    if directory.relays.all fun relay =>
        endpointAllowed parseUrl options.allowNonPublicEndpoints relay.endpoint then
      .ok directory
    else .error .badEndpoint

/-- Human wording for a rejection. -/
def describeDirectoryRejection : RelayDirectoryFailure → String
  | .rejected .malformed => "the relay directory is malformed or unsigned"
  | .rejected .oversized => "the relay directory is too large"
  | .rejected .badSignature => "the relay directory is not signed by a pinned directory key"
  | .rejected .notYetValid =>
    "the relay directory is dated in the future (check this device’s clock)"
  | .rejected .expired => "the relay directory has expired"
  | .rejected .rolledBack =>
    "the relay directory is older than one this device has already seen (rollback refused)"
  | .badEndpoint =>
    "the relay directory lists an endpoint that is not a canonical public wss:// URL"

end Tnp.SharedTypes
