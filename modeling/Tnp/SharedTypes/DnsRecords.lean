import Tnp.Lib.Fallible
import Tnp.Namespace.Policy
import Tnp.SharedTypes.Relays
import Tnp.SharedTypes.Vpn

/-!
The records of a native name, as a request may carry them and as they are stored.

One parser serves a new record and the record that an update would leave. Names and hosts are stored
in lower case, and an MX record's priority is part of its value.
-/

namespace Tnp.SharedTypes.DnsRecords

open Tnp.Lib Tnp.Crypto Tnp.Namespace Tnp.SharedTypes

inductive DnsRecordType
  | A
  | AAAA
  | CNAME
  | TXT
  | MX
  | NS
  deriving DecidableEq, Repr

def DnsRecordType.text : DnsRecordType → String
  | A => "A"
  | AAAA => "AAAA"
  | CNAME => "CNAME"
  | TXT => "TXT"
  | MX => "MX"
  | NS => "NS"

def DNS_RECORD_TYPES : List DnsRecordType := [.A, .AAAA, .CNAME, .TXT, .MX, .NS]

def DNS_RECORD_TTL_MIN : ℕ := 60
def DNS_RECORD_TTL_MAX : ℕ := 86400
def DNS_RECORD_TTL_DEFAULT : ℕ := 3600
def DNS_TXT_MAX_LENGTH : ℕ := 2048
def MAX_DNS_RECORDS_PER_DOMAIN : ℕ := 100

def MAX_HOSTNAME_LENGTH : ℕ := 253
def MX_PRIORITY_MAX : ℕ := 65535

/-- A validated record in its stored form. -/
structure DnsRecordInput where
  type : DnsRecordType
  name : String
  value : String
  ttl : ℕ
  deriving DecidableEq, Repr

/-- Every field that an update may name. -/
structure UpdateDnsRecordRequest where
  type : Option DnsRecordType := none
  name : Option String := none
  value : Option String := none
  ttl : Option ℕ := none
  priority : Option ℕ := none
  deriving DecidableEq, Repr

inductive DnsRecordField
  | body
  | type
  | name
  | value
  | priority
  | ttl
  deriving DecidableEq, Repr

inductive DnsRecordErrorCode
  | bodyInvalid
  | typeInvalid
  | nameRequired
  | nameInvalid
  | nameWildcard
  | valueRequired
  | ipv4Invalid
  | ipv6Invalid
  | hostnameInvalid
  | txtTooLong
  | txtInvalidChars
  | priorityInvalid
  | ttlInvalid
  deriving DecidableEq, Repr

structure DnsRecordParseError where
  field : DnsRecordField
  code : DnsRecordErrorCode
  error : String
  deriving DecidableEq, Repr

abbrev DnsRecordParseResult (α : Type) := Except DnsRecordParseError α

def fail {α : Type} (field : DnsRecordField) (code : DnsRecordErrorCode) (error : String) :
    DnsRecordParseResult α := .error ⟨field, code, error⟩

/-- `isDnsRecordType`, with the type that the text names. -/
def recordTypeOf (text : String) : Option DnsRecordType :=
  DNS_RECORD_TYPES.find? (·.text = text)

/-! ### Addresses and hosts -/

/-- What is before and after the first `::`. -/
def cutDoubleColon : List Char → Option (List Char × List Char)
  | ':' :: ':' :: rest => some ([], rest)
  | c :: rest => (cutDoubleColon rest).map fun cut => (c :: cut.1, cut.2)
  | [] => none

/-- The groups of a part, none of which may be empty. -/
def groupsOf (part : List Char) : Option (List (List Char)) :=
  if part = [] then some []
  else
    let groups := part.splitOn ':'
    if groups.contains [] then none else some groups

/-- How many 16-bit groups the groups fill, the last of which may be a dotted quad. -/
def groupsWidth : List (List Char) → Option ℕ
  | [] => some 0
  | group :: groups =>
    if groups = [] ∧ '.' ∈ group then
      if isValidIpv4 (String.ofList group) then some 2 else none
    else if 1 ≤ group.length ∧ group.length ≤ 4 ∧ group.all isHexadecimal then
      (groupsWidth groups).map (1 + ·)
    else none

/-- Text form of an address without a zone: eight groups, of which one `::` may stand for some. -/
def isValidIpv6 (value : String) : Bool :=
  if utf16Length value = 0 ∨ 45 < utf16Length value then false
  else
    match cutDoubleColon value.toList with
    | none => (groupsOf value.toList >>= groupsWidth) == some 8
    | some (before, after) =>
      -- a second `::` may share a colon with the first
      if (cutDoubleColon (':' :: after)).isSome then false
      else
        match groupsOf before, groupsOf after with
        | some head, some tail => (groupsWidth (head ++ tail)).any (· ≤ 7)
        | _, _ => false

variable (toLowerCase toUpperCase : String → String)

/-- A target hostname in the form of `normalizeName`, or `none` when it is not a hostname. -/
def normalizeHostname (input : String) : Option String :=
  let host := normalizeName toLowerCase input
  if host = "" ∨ MAX_HOSTNAME_LENGTH < utf16Length host then none
  else
    let labels := host.toList.splitOn '.'
    if !labels.all fun label =>
        utf16Length (String.ofList label) ≤ MAX_LABEL_LENGTH && matchesLabel (String.ofList label)
    then none
    else if (labels.getLastD []).all Char.isDigit then none
    else some host

/-! ### The fields -/

/-- A label of a record name: one of a hostname, after one underscore or none. -/
def matchesRecordLabel (label : List Char) : Bool :=
  matchesLabel (String.ofList (if label.head? = some '_' then label.tail else label))

def parseRecordName (raw : Value) : DnsRecordParseResult String :=
  match raw with
  | .string s =>
    if trim s = "" then fail .name .nameRequired "name is required"
    else
      let name := toLowerCase (trim s)
      let labels := name.toList.splitOn '.'
      if name = "@" then .ok name
      else if labels.contains ['*'] then
        fail .name .nameWildcard "Wildcard records are not supported"
      else if MAX_HOSTNAME_LENGTH < utf16Length name ∨ !labels.all fun label =>
          utf16Length (String.ofList label) ≤ MAX_LABEL_LENGTH && matchesRecordLabel label then
        fail .name .nameInvalid
          "name must be @ or labels of letters, digits and hyphens relative to the domain"
      else .ok name
  | _ => fail .name .nameRequired "name is required"

def parseType (raw : Value) : DnsRecordParseResult DnsRecordType :=
  let type :=
    match raw with
    | .string s => recordTypeOf (toUpperCase (trim s))
    | _ => none
  match type with
  | some type => .ok type
  | none => fail .type .typeInvalid "type must be one of A, AAAA, CNAME, TXT, MX, NS"

/-- An integer from `min` to `max`, or nothing where the value is absent. -/
def parseInteger (field : DnsRecordField) (code : DnsRecordErrorCode) (min max : ℕ)
    (error : String) (raw : Value) : DnsRecordParseResult (Option ℕ) :=
  match raw with
  | .undefined | .null => .ok none
  | .number x =>
    if x.den ≠ 1 ∨ x < min ∨ max < x then fail field code error else .ok (some x.num.toNat)
  | _ => fail field code error

def parseTtl (raw : Value) : DnsRecordParseResult (Option ℕ) :=
  parseInteger .ttl .ttlInvalid DNS_RECORD_TTL_MIN DNS_RECORD_TTL_MAX
    s!"ttl must be an integer between {DNS_RECORD_TTL_MIN} and {DNS_RECORD_TTL_MAX}" raw

def parsePriority (raw : Value) : DnsRecordParseResult (Option ℕ) :=
  parseInteger .priority .priorityInvalid 0 MX_PRIORITY_MAX
    s!"priority must be an integer between 0 and {MX_PRIORITY_MAX}" raw

def parseValueString (raw : Value) : DnsRecordParseResult String :=
  match raw with
  | .string s =>
    if trim s = "" then fail .value .valueRequired "value is required" else .ok (trim s)
  | _ => fail .value .valueRequired "value is required"

structure MxValue where
  priority : ℕ
  host : String
  deriving DecidableEq, Repr

/-- Digits, blanks, and a host without blanks. -/
def splitMxValue (value : String) : Option MxValue :=
  let cs := (trim value).toList
  let digits := cs.takeWhile Char.isDigit
  let rest := cs.dropWhile Char.isDigit
  let host := rest.dropWhile isSpace
  if digits = [] ∨ (rest.takeWhile isSpace) = [] ∨ host = [] ∨ host.any isSpace then none
  else some ⟨Nat.ofDigitChars 10 digits 0, String.ofList host⟩

/-- C0 or DEL. -/
def isControl (c : Char) : Bool := c.toNat ≤ 0x1f || c.toNat = 0x7f

/-- The value of an MX record with this priority and host. -/
def mxValue (priority : ℕ) (host : String) : DnsRecordParseResult String :=
  match normalizeHostname toLowerCase host with
  | none => fail .value .hostnameInvalid "An MX record needs a mail host like mail.example.ox"
  | some normalized => .ok (toString priority ++ " " ++ normalized)

def parseValue (type : DnsRecordType) (value : String) (priority : Option ℕ) :
    DnsRecordParseResult String :=
  match type with
  | .A =>
    if isValidIpv4 value then .ok value
    else fail .value .ipv4Invalid "An A record needs an IPv4 address like 192.0.2.1"
  | .AAAA =>
    if isValidIpv6 value then .ok (toLowerCase value)
    else fail .value .ipv6Invalid "An AAAA record needs an IPv6 address like 2001:db8::1"
  | .CNAME | .NS =>
    match normalizeHostname toLowerCase value with
    | some host => .ok host
    | none => fail .value .hostnameInvalid
        s!"A {type.text} record needs a hostname like host.example.ox"
  | .MX =>
    match priority with
    | some priority => mxValue toLowerCase priority value
    | none =>
      match splitMxValue value with
      | none => fail .priority .priorityInvalid
          "An MX record needs a priority between 0 and 65535"
      | some split => do
        let parsed ← parsePriority (.number split.priority)
        mxValue toLowerCase (parsed.getD split.priority) split.host
  | .TXT =>
    if DNS_TXT_MAX_LENGTH < utf16Length value then
      fail .value .txtTooLong s!"A TXT value may be at most {DNS_TXT_MAX_LENGTH} characters"
    else if value.toList.any isControl then
      fail .value .txtInvalidChars "A TXT value may not contain control characters"
    else .ok value

/-! ### The requests -/

/-- Validate and normalize a new record. -/
def parseCreateDnsRecordRequest (body : Value) : DnsRecordParseResult DnsRecordInput :=
  match asRecord body with
  | none => fail .body .bodyInvalid "request body must be an object"
  | some record => do
    let type ← parseType toUpperCase (Value.field record "type")
    let name ← parseRecordName toLowerCase (Value.field record "name")
    let rawValue ← parseValueString (Value.field record "value")
    let priority ← parsePriority (Value.field record "priority")
    let ttl ← parseTtl (Value.field record "ttl")
    let value ← parseValue toLowerCase type rawValue priority
    .ok { type, name, value, ttl := ttl.getD DNS_RECORD_TTL_DEFAULT }

/-- A field of an update: checked alone where it is there. -/
def parsePresent {α : Type} (raw : Value) (parse : Value → DnsRecordParseResult α) :
    DnsRecordParseResult (Option α) :=
  match raw with
  | .undefined => .ok none
  | raw => (parse raw).map some

/-- Validate the shape of an update. -/
def parseUpdateDnsRecordRequest (body : Value) : DnsRecordParseResult UpdateDnsRecordRequest :=
  match asRecord body with
  | none => fail .body .bodyInvalid "request body must be an object"
  | some record => do
    let type ← parsePresent (Value.field record "type") (parseType toUpperCase)
    let name ← parsePresent (Value.field record "name") (parseRecordName toLowerCase)
    let value ← parsePresent (Value.field record "value") parseValueString
    let ttl ← parsePresent (Value.field record "ttl") fun raw =>
      match raw with
      -- an explicit null does not reset the TTL: it is refused as `NaN` is
      | .null => parseTtl (.bool false)
      | raw => parseTtl raw
    let priority ← parsePresent (Value.field record "priority") parsePriority
    .ok { type, name, value, ttl := ttl.join, priority := priority.join }

/-- A number where there is one. -/
def optionalNumber (n : Option ℕ) : Value :=
  match n with
  | some n => .number n
  | none => .undefined

/-- The value and the priority that the merged record is parsed from. -/
def mergedValue (existing : DnsRecordInput) (patch : UpdateDnsRecordRequest)
    (type : DnsRecordType) : String × Option ℕ :=
  if type = .MX then
    let stored := if existing.type = .MX then splitMxValue existing.value else none
    match patch.value with
    | some value =>
      (value, patch.priority.or
        (if (splitMxValue value).isSome then none else stored.map (·.priority)))
    | none =>
      ((stored.map (·.host)).getD existing.value, patch.priority.or (stored.map (·.priority)))
  else (patch.value.getD existing.value, none)

/-- Apply an update to a stored record, and validate the result as a whole. -/
def mergeDnsRecordUpdate (existing : DnsRecordInput) (patch : UpdateDnsRecordRequest) :
    DnsRecordParseResult DnsRecordInput :=
  let type := patch.type.getD existing.type
  let (value, priority) := mergedValue existing patch type
  parseCreateDnsRecordRequest toLowerCase toUpperCase (.object [
    ("type", .string type.text), ("name", .string (patch.name.getD existing.name)),
    ("ttl", .number (patch.ttl.getD existing.ttl)), ("value", .string value),
    ("priority", optionalNumber priority)])

end Tnp.SharedTypes.DnsRecords
