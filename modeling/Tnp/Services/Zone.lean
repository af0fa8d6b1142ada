import Tnp.Lib.OrderedMap
import Tnp.SharedTypes.DnsRules

/-!
The zone of a public domain, as a provider holds it, and the changes merged into it.

A provider takes whole zones, so a change is merged into the zone just read and all of that is sent
back.
-/

namespace Tnp.Services

open Tnp.Lib Tnp.Crypto Tnp.Namespace Tnp.SharedTypes
open Tnp.SharedTypes.DnsRules (withoutRootDot)

structure ZoneRecord where
  host : String
  type : String
  value : String
  ttl : ℚ
  priority : Option ℚ
  deriving DecidableEq

structure Zone where
  records : List ZoneRecord
  settings : OrderedMap String String
  servedByProvider : Bool
  deriving DecidableEq

structure RecordMatch where
  host : String
  type : String
  value : String
  deriving DecidableEq

inductive ZoneChange
  | add (record : ZoneRecord)
  | update (target : RecordMatch) (record : ZoneRecord)
  | delete (target : RecordMatch)
  deriving DecidableEq

def HOSTNAME_VALUE_TYPES : List String := ["CNAME", "MX", "NS"]
def MIN_TTL : ℚ := 60
def MAX_TTL : ℚ := 86400
def MAX_ZONE_RECORDS : ℕ := 150

/-! ### Values -/

def hasControlCharacter (value : String) : Bool := value.toList.any fun c => c.toNat < 0x20

def isWordCharacter (c : Char) : Bool := Namespace.isAlphanumeric c || c == '_'

/-- A label of a host, or where it may not end in an underscore, of a hostname. -/
def isZoneLabel (last : Char → Bool) (label : List Char) : Bool :=
  label.head?.any isWordCharacter && label.length ≤ 63 &&
    label.all (fun c => isWordCharacter c || c == '-') &&
    (label.length ≤ 1 || label.getLast?.any last)

def isZoneHost (host : String) : Bool :=
  host == "@" || host == "*" ||
    let labels := host.toList.splitOn '.'
    if 2 ≤ labels.length && labels.head? = some ['*'] then
      labels.tail.all (isZoneLabel isWordCharacter)
    else labels.all (isZoneLabel isWordCharacter)

def isHostname (value : String) : Bool :=
  utf16Length value ≤ 253 && (value.toList.splitOn '.').all (isZoneLabel Namespace.isAlphanumeric)

/-- The characters are looked at first, and the parser of URLs decides. -/
def isIPv6 (parseUrl : UrlParser) (value : String) : Bool :=
  value != "" && value.toList.all (fun c => c.isDigit || ('a' ≤ c && c ≤ 'f') ||
      ('A' ≤ c && c ≤ 'F') || c == ':' || c == '.') && value.toList.contains ':' &&
    (parseUrl ("http://[" ++ value ++ "]/")).any fun url => 2 < utf16Length url.hostname

/-! ### Normal forms -/

variable (toLowerCase toUpperCase : String → String)

/-- One record the way providers compare them. -/
def normalizeRecord (record : ZoneRecord) : ZoneRecord :=
  let type := toUpperCase (trim record.type)
  let value := trim record.value
  let host := toLowerCase (trim record.host)
  { host := if host = "" then "@" else host
    type
    value := if HOSTNAME_VALUE_TYPES.contains type then withoutRootDot (toLowerCase value)
      else value
    ttl := record.ttl
    priority := if type = "MX" then some (record.priority.getD 10) else none }

def «matches» (record : ZoneRecord) (target : RecordMatch) : Bool :=
  let a := normalizeRecord toLowerCase toUpperCase record
  let b := normalizeRecord toLowerCase toUpperCase
    ⟨target.host, target.type, target.value, 0, none⟩
  a.host == b.host && a.type == b.type && a.value == b.value

variable {toLowerCase toUpperCase} in
/-- The rest of a normal form is settled by its texts. -/
lemma normalizeRecord_twice_iff {record : ZoneRecord} :
    let normal := normalizeRecord toLowerCase toUpperCase record
    let twice := normalizeRecord toLowerCase toUpperCase normal
    twice = normal ↔
      twice.host = normal.host ∧ twice.type = normal.type ∧ twice.value = normal.value := by
  intro normal twice
  constructor
  · intro h
    rw [h]
    exact ⟨rfl, rfl, rfl⟩
  · rintro ⟨hhost, htype, hvalue⟩
    have hpriority : twice.priority = normal.priority := by
      have hnormal : normal.priority =
          if normal.type = "MX" then some (record.priority.getD 10) else none := rfl
      have htwice : twice.priority =
          if twice.type = "MX" then some (normal.priority.getD 10) else none := rfl
      rw [htwice, hnormal, htype]
      split <;> rfl
    exact ZoneRecord.mk.injEq .. ▸ ⟨hhost, htype, hvalue, rfl, hpriority⟩

/-! ### Validation -/

variable (parseUrl : UrlParser)

/-- What is wrong with a record that a change writes. -/
def validateRecord (record : ZoneRecord) : Option String :=
  if record.ttl.den ≠ 1 ∨ record.ttl < MIN_TTL ∨ MAX_TTL < record.ttl then
    some "TTL must be an integer between 60 and 86400"
  else if !isZoneHost record.host then some ("invalid host " ++ jsonString record.host)
  else if record.value = "" then some "record value is required"
  else if record.type = "A" ∧ !isValidIpv4 record.value then
    some (record.value ++ " is not an IPv4 address")
  else if record.type = "AAAA" ∧ !isIPv6 parseUrl record.value then
    some (record.value ++ " is not an IPv6 address")
  else if HOSTNAME_VALUE_TYPES.contains record.type ∧ !isHostname record.value then
    some (record.value ++ " is not a hostname")
  else if record.type = "MX" ∧ !record.priority.any fun p => 0 ≤ p ∧ p ≤ 65535 then
    some "MX priority must be between 0 and 65535"
  else if record.type = "TXT" ∧
      (2048 < utf16Length record.value ∨ hasControlCharacter record.value) then
    some "TXT value must be at most 2048 printable characters"
  else none

/-- The loop that looks for a record that is there already. -/
def findDuplicate : List ZoneRecord → List (String × String × String × Option ℚ) → Option String
  | [], _ => none
  | record :: records, seen =>
    let key := (record.host, record.type, record.value, record.priority)
    if seen.contains key then
      some ("duplicate " ++ record.type ++ " record at " ++ record.host)
    else findDuplicate records (key :: seen)

/-- A CNAME beside records of another type; hosts are gone through as they first come. -/
def findCnameClash (records : List ZoneRecord) : Option String :=
  (records.find? fun record =>
    let types := (records.filter (·.host == record.host)).map (·.type)
    types.contains "CNAME" && types.any (· != "CNAME")).map fun record =>
      "a CNAME at " ++ record.host ++ " cannot coexist with other records"

def ZoneChange.written : ZoneChange → Option ZoneRecord
  | .add record | .update _ record => some record
  | .delete _ => none

def validateZone (zone : Zone) (changes : List ZoneChange) : Option String :=
  if MAX_ZONE_RECORDS < zone.records.length then some "a zone may hold at most 150 records"
  else
    let touched := (changes.filterMap ZoneChange.written).map
      (normalizeRecord toLowerCase toUpperCase)
    (touched.findSome? (validateRecord parseUrl)).or
      ((findDuplicate zone.records []).or (findCnameClash zone.records))

/-! ### Merging -/

def missing (target : RecordMatch) : String :=
  "no " ++ target.type ++ " record " ++ target.host ++ " → " ++ target.value ++
    " in the current zone"

/-- One change in the loop. -/
def applyChange (records : List ZoneRecord) (change : ZoneChange) :
    Except String (List ZoneRecord) :=
  let indexOf (target : RecordMatch) :=
    records.findIdx? fun r => «matches» toLowerCase toUpperCase r target
  match change with
  | .add record => .ok (records ++ [normalizeRecord toLowerCase toUpperCase record])
  | .update target record =>
    match indexOf target with
    | none => .error (missing target)
    | some index => .ok (records.set index (normalizeRecord toLowerCase toUpperCase record))
  | .delete target =>
    match indexOf target with
    | none => .error (missing target)
    | some index => .ok (records.eraseIdx index)

/-- The first type of a written record that the adapter cannot write. -/
def unsupportedType (supportedTypes : List String) (changes : List ZoneChange) : Option String :=
  ((changes.filterMap ZoneChange.written).map fun record => toUpperCase record.type).find?
    fun type => !(supportedTypes.map toUpperCase).contains type

def mergeZoneChanges (remote : Zone) (changes : List ZoneChange) (supportedTypes : List String) :
    Except String Zone := do
  let records ← changes.foldlM (applyChange toLowerCase toUpperCase)
    (remote.records.map (normalizeRecord toLowerCase toUpperCase))
  match unsupportedType toUpperCase supportedTypes changes with
  | some type => .error ("record type " ++ type ++ " is not supported by this provider")
  | none =>
    let zone : Zone := { remote with records }
    match validateZone toLowerCase toUpperCase parseUrl zone changes with
    | some invalid => .error invalid
    | none => .ok zone

end Tnp.Services
