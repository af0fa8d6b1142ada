import Tnp.Lib.Run
import Tnp.Registry.DomainKeys
import Tnp.SharedTypes.DnsRecords

/-!
The records of the registry's names: the requests that write them, and those that a query finds.

A request is one transaction that locks the row of its domain first, so requests for one domain
run one after the other.
-/

namespace Tnp.Registry

open Tnp.Lib Tnp.Crypto Tnp.Namespace Tnp.SharedTypes.DnsRecords

/-- A row of `dns_records`. -/
structure DnsRecord extends DnsRecordInput where
  domainId : ℕ
  deriving DecidableEq

/-- The tables that resolution reads. -/
structure ResolveDb (Node : Type) extends Db where
  /-- The TLDs whose `custom` flag is set. -/
  custom : List String := []
  /-- By their ids. -/
  dnsRecords : OrderedMap ℕ DnsRecord := {}
  /-- One for each domain at most. -/
  serviceNodes : OrderedMap ℕ Node := {}
  /-- Ids are the primary key of `domains`. -/
  primaryKey : (domains.values.map (·.id)).Nodup := by simp [OrderedMap.values]

variable {Node : Type}

/-! ### The rules that span records -/

inductive RecordConflictCode
  | cnameConflict
  | duplicate
  | recordLimit
  deriving DecidableEq, Repr

inductive RecordMutationFailure
  | domainNotFound
  | recordNotFound
  | conflict (code : RecordConflictCode) (error : String)
  | invalid (error : DnsRecordParseError)
  deriving DecidableEq, Repr

/-- The fields the conflict rules read. -/
structure ExistingRecord where
  id : ℕ
  type : DnsRecordType
  name : String
  value : String
  deriving DecidableEq, Repr

/-- Why the candidate may not sit beside the records there are, but the one it replaces. -/
def findRecordConflict (existing : List ExistingRecord) (candidate : DnsRecordInput)
    (ignoreId : Option ℕ) : Option (RecordConflictCode × String) :=
  let sameName := existing.filter fun record =>
    some record.id ≠ ignoreId && record.name = candidate.name
  if sameName.any fun record => record.type = candidate.type && record.value = candidate.value then
    some (.duplicate,
      s!"An identical {candidate.type.text} record already exists at {candidate.name}")
  else if candidate.type = .CNAME ∧ sameName ≠ [] then
    some (.cnameConflict, s!"A CNAME cannot share its name with other records, and " ++
      s!"{candidate.name} already has one")
  else if candidate.type ≠ .CNAME ∧ sameName.any (·.type = .CNAME) then
    some (.cnameConflict, s!"{candidate.name} has a CNAME record, which cannot share its name " ++
      "with other records")
  else none

/-- A record name relative to its domain. -/
def relativeRecordName (name fqdn : String) : String :=
  if name = fqdn then "@"
  else if '.' :: fqdn.toList <:+ name.toList then
    String.ofList (name.toList.take (name.toList.length - (1 + fqdn.toList.length)))
  else name

variable (toLowerCase toUpperCase : String → String)

/-- The records of a domain with names as a validated candidate's is. -/
def comparable (records : List (ℕ × DnsRecord)) (fqdn : String) : List ExistingRecord :=
  records.map fun e =>
    ⟨e.1, e.2.type, relativeRecordName (toLowerCase e.2.name) fqdn, e.2.value⟩

/-! ### The requests -/

namespace ResolveDb

variable (db : ResolveDb Node)

/-- The records of a domain, with their ids. -/
def recordsOf (domainId : ℕ) : List (ℕ × DnsRecord) :=
  db.dnsRecords.entries.filter (·.2.domainId = domainId)

/-- An id that no record has. -/
def freshId : ℕ := (db.dnsRecords.entries.map Prod.fst).sum + 1

end ResolveDb

def createDnsRecord (db : ResolveDb Node) (domainId : ℕ) (input : DnsRecordInput) :
    Except RecordMutationFailure (ResolveDb Node × DnsRecord) :=
  match db.byId domainId with
  | none => .error .domainNotFound
  | some (parts, row) =>
    let record := { input with name := relativeRecordName input.name parts.name }
    let existing := db.recordsOf row.id
    match findRecordConflict (comparable toLowerCase existing parts.name) record none with
    | some (code, error) => .error (.conflict code error)
    | none =>
      if MAX_DNS_RECORDS_PER_DOMAIN ≤ existing.length then
        .error (.conflict .recordLimit
          s!"A domain can hold at most {MAX_DNS_RECORDS_PER_DOMAIN} records")
      else
        let inserted := { record with domainId := row.id }
        .ok ({ db with dnsRecords := db.dnsRecords.set db.freshId inserted }, inserted)

def updateDnsRecord (db : ResolveDb Node) (domainId recordId : ℕ)
    (patch : UpdateDnsRecordRequest) :
    Except RecordMutationFailure (ResolveDb Node × DnsRecord) :=
  match db.byId domainId with
  | none => .error .domainNotFound
  | some (parts, row) =>
    let existing := db.recordsOf row.id
    match existing.find? (·.1 = recordId) with
    | none => .error .recordNotFound
    | some (id, current) =>
      match mergeDnsRecordUpdate toLowerCase toUpperCase current.toDnsRecordInput patch with
      | .error error => .error (.invalid error)
      | .ok merged =>
        let record := { merged with name := relativeRecordName merged.name parts.name }
        match findRecordConflict (comparable toLowerCase existing parts.name) record (some id) with
        | some (code, error) => .error (.conflict code error)
        | none =>
          let updated := { record with domainId := row.id }
          .ok ({ db with dnsRecords := db.dnsRecords.set id updated }, updated)

def deleteDnsRecord (db : ResolveDb Node) (domainId recordId : ℕ) :
    Except RecordMutationFailure (ResolveDb Node) :=
  match db.byId domainId with
  | none => .error .domainNotFound
  | some (_, row) =>
    if (db.recordsOf row.id).any (·.1 = recordId) then
      .ok { db with dnsRecords := db.dnsRecords.delete recordId }
    else .error .recordNotFound

inductive RecordRequest
  | create (domainId : ℕ) (body : Value)
  | update (domainId recordId : ℕ) (body : Value)
  | delete (domainId recordId : ℕ)

/-- The tables after a request. One that fails leaves them as they are. -/
def recordStep (db : ResolveDb Node) : RecordRequest → ResolveDb Node
  | .create domainId body =>
    match parseCreateDnsRecordRequest toLowerCase toUpperCase body with
    | .error _ => db
    | .ok input =>
      match createDnsRecord toLowerCase db domainId input with
      | .ok (db', _) => db'
      | .error _ => db
  | .update domainId recordId body =>
    match parseUpdateDnsRecordRequest toLowerCase toUpperCase body with
    | .error _ => db
    | .ok patch =>
      match updateDnsRecord toLowerCase toUpperCase db domainId recordId patch with
      | .ok (db', _) => db'
      | .error _ => db
  | .delete domainId recordId =>
    match deleteDnsRecord db domainId recordId with
    | .ok db' => db'
    | .error _ => db

/-! ### What a query finds -/

/-- Where a name is. -/
inductive Location
  | notNative
  | unregistered (tldCustom : Bool)
  | registered (tldCustom : Bool) (parts : NameParts) (row : Domain) (label : String)

/-- The domain that the name is in, and the label under it. -/
def locate (db : ResolveDb Node) (fqdn : String) : Location :=
  let labels := fqdn.toList.splitOn '.'
  if labels.length < 2 ∨ [] ∈ labels then .notNative
  else
    let tld := String.ofList (labels.getLastD [])
    if isReservedTld toLowerCase tld then .notNative
    else if db.tlds.get tld ≠ some .active then .notNative
    else
      let parts : NameParts := ⟨String.ofList (labels.getD (labels.length - 2) []), tld⟩
      match (db.domains.get parts).filter (·.status = .active) with
      | none => .unregistered (db.custom.contains tld)
      | some row =>
        .registered (db.custom.contains tld) parts row
          (if 2 < labels.length then
            String.ofList (['.'].intercalate (labels.take (labels.length - 2)))
          else "@")

/-- The rows that `loadNameFacts` selects, under the label or the full name. -/
def recordsAt (db : ResolveDb Node) (name : String) : List (ℕ × DnsRecord) :=
  let fqdn := normalizeName toLowerCase name
  match locate toLowerCase db fqdn with
  | .registered _ _ row label =>
    (db.recordsOf row.id).filter fun e => e.2.name = label || e.2.name = fqdn
  | _ => []

/-- The name ends in this one, after a dot. -/
def isBelow (name ancestor : String) : Bool := '.' :: ancestor.toList <:+ name.toList

structure RecordFacts where
  type : DnsRecordType
  value : String
  ttl : ℕ
  deriving DecidableEq

/-- What the answer for a registered name depends on. -/
structure DomainFacts (Node : Type) where
  row : Domain
  label : String
  records : List RecordFacts
  hasDescendants : Bool
  node : Option Node

inductive NameFacts (Node : Type)
  | notNative (fqdn : String)
  | native (fqdn : String) (tldCustom : Bool) (domain : Option (DomainFacts Node))

def loadNameFacts (db : ResolveDb Node) (name : String) : NameFacts Node :=
  let fqdn := normalizeName toLowerCase name
  match locate toLowerCase db fqdn with
  | .notNative => .notNative fqdn
  | .unregistered tldCustom => .native fqdn tldCustom none
  | .registered tldCustom _ row label =>
    .native fqdn tldCustom (some
      { row
        label
        records := (recordsAt toLowerCase db name).map fun e => ⟨e.2.type, e.2.value, e.2.ttl⟩
        hasDescendants := label ≠ "@" && (db.recordsOf row.id).any fun e =>
          isBelow e.2.name label || isBelow e.2.name fqdn
        node := db.serviceNodes.get row.id })

end Tnp.Registry
