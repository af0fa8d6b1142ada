import Mathlib.Data.List.DropRight
import Tnp.Crypto.DomainKey
import Tnp.Lib.OrderedMap
import Tnp.Namespace.Expiry
import Tnp.Namespace.Policy

/-!
The registry's copy of each native name's domain key: the requests that write it, and what is
published of it.

A request is one transaction. The row of the name is locked from the select to the update, so
the guards on the updates always hold. Clocks are in the requests: milliseconds where the code
has a date, seconds where it has Unix time.
-/

namespace Tnp.Registry

open Tnp.Lib Tnp.Crypto Tnp.Crypto.Grants Tnp.Crypto.DomainKey Tnp.Namespace

/-- How far in the future the `issuedAt` of a rotation may be. -/
def MAX_ROTATION_SKEW_SECONDS : ℤ := 300

/-- How long after a release a name registered again may take an unrelated key. -/
def DEFAULT_RESET_HOLD_SECONDS : ℕ := 30 * 86400

inductive DomainStatus
  | active
  | pending
  | suspended
  deriving DecidableEq, Repr

inductive TldStatus
  | active
  | proposed
  | pending
  deriving DecidableEq, Repr

/-- A row of `domains`, without the columns that no request here reads. -/
structure Domain where
  id : ℕ
  oxyUserId : String
  status : DomainStatus := .active
  domainKey : Option String := none
  domainKeyRotations : List Value := []
  domainKeyResetFrom : Option String := none
  domainKeyResetAt : Option ℤ := none
  expiresAt : Option ℤ

/-- A row of `domain_key_tombstones`. -/
structure Tombstone where
  domainKey : String
  rotations : List Value
  releasedAt : ℤ

structure NameParts where
  label : String
  tld : String
  deriving DecidableEq, Repr

/-- The name the parts are of. -/
def NameParts.name (parts : NameParts) : String := parts.label ++ "." ++ parts.tld

/-- The tables, each under its unique index. -/
structure Db where
  tlds : OrderedMap String TldStatus := {}
  domains : OrderedMap NameParts Domain := {}
  domainKeyTombstones : OrderedMap NameParts Tombstone := {}
  nextId : ℕ := 0

structure DomainKeyReset where
  previousKeyFingerprint : String
  since : String
  deriving DecidableEq, Repr

structure DomainKeyRecord where
  name : String
  domainKey : String
  rotations : List Value
  keyReset : Option DomainKeyReset

structure Failure where
  status : ℕ
  error : String
  deriving DecidableEq, Repr

variable (verify : Verifier) (sha256 : Hash) (toLowerCase : String → String)

/-- `label.tld` under a TLD that TNP may serve. -/
def splitNativeName (name : String) : Option NameParts :=
  if !isValidScope name then none
  else
    match name.toList.splitOn '.' with
    | [label, tld] =>
      if isReservedTld toLowerCase (String.ofList tld) then none
      else some ⟨String.ofList label, String.ofList tld⟩
    | _ => none

/-- The key that canonical base64 spells. -/
def canonicalKey (value : String) : Option PublicKey := (parsePublicKey (.text value)).toOption

/-! ### What is published -/

structure LookupSettings where
  expiryEnforced : Bool := false
  now : ℤ

def keyResetOf (row : Domain) : Option DomainKeyReset :=
  match row.domainKeyResetFrom.filter (· ≠ ""), row.domainKeyResetAt with
  | some resetFrom, some resetAt => some ⟨resetFrom, toISOString resetAt⟩
  | _, _ => none

/-- `domainKey`, unless it is null or empty. -/
def Domain.key (row : Domain) : Option String := row.domainKey.filter (· ≠ "")

/-- The active row of a name. -/
def Db.active (db : Db) (parts : NameParts) : Option Domain :=
  (db.domains.get parts).filter (·.status = .active)

def lookupDomainKey (db : Db) (name : String) (settings : LookupSettings) :
    Option DomainKeyRecord := do
  let parts ← splitNativeName toLowerCase name
  let row ← db.active parts
  if db.tlds.get parts.tld ≠ some .active then none
  let domainKey ← row.key
  if settings.expiryEnforced &&
      !isNativeNameServed (nativeExpiryState row.expiresAt settings.now) then none
  some ⟨name, domainKey, row.domainKeyRotations, keyResetOf row⟩

/-! ### Registering and releasing a name -/

/-- The TLD of a request, in lower case and without the dot it may be written with. -/
def cleanTld (tld : String) : String :=
  let cs := (trim (toLowerCase tld)).toList
  String.ofList (if cs.head? = some '.' then cs.tail else cs)

/-- `POST /domains`, up to the row it inserts. -/
def registerDomain (db : Db) (oxyUserId name tld : String) (expiresAt : Option ℤ) :
    Except Failure Db :=
  match validateNativeLabel toLowerCase name with
  | .error detail => .error ⟨400, detail⟩
  | .ok cleanName =>
    let cleanTld := cleanTld toLowerCase tld
    match validateNativeTld toLowerCase cleanTld with
    | .error ⟨.reserved, _⟩ => .error ⟨403, "TLD_RESERVED"⟩
    | _ =>
      if db.tlds.get cleanTld ≠ some .active then
        .error ⟨400, s!"TLD .{cleanTld} is not available"⟩
      else if db.domains.has ⟨cleanName, cleanTld⟩ then
        .error ⟨409, s!"{cleanName}.{cleanTld} is already registered"⟩
      else
        .ok { db with
          domains := db.domains.set ⟨cleanName, cleanTld⟩
            { id := db.nextId, oxyUserId, expiresAt }
          nextId := db.nextId + 1 }

/-- The row with an id. -/
def Db.byId (db : Db) (id : ℕ) : Option (NameParts × Domain) :=
  db.domains.entries.find? (·.2.id = id)

/-- What is kept of the key of a row that is about to go. -/
def tombstoneDomainKey (db : Db) (parts : NameParts) (row : Domain) (now : ℤ) : Db :=
  match row.key with
  | none => db
  | some domainKey =>
    { db with
      domainKeyTombstones :=
        db.domainKeyTombstones.set parts ⟨domainKey, row.domainKeyRotations, now⟩ }

/-- `DELETE /domains/:id`. -/
def releaseDomain (db : Db) (id : ℕ) (oxyUserId : String) (now : ℤ) : Except Failure Db :=
  match db.byId id with
  | none => .error ⟨404, "Domain not found"⟩
  | some (parts, row) =>
    if row.oxyUserId ≠ oxyUserId then .error ⟨403, "You do not own this domain"⟩
    else
      let kept := tombstoneDomainKey db parts row now
      .ok { kept with domains := kept.domains.delete parts }

/-! ### Registering and rotating the key -/

def REQUIRES_ROTATION : String :=
  "A different domain key requires a rotation statement signed by the current key"

/-- Whether `issuedAt` comes no later than that of a statement in the history. -/
def notAfter (issuedAt : ℕ) (last : Value) : Bool :=
  match last.get "issuedAt" with
  | .number x => decide ((issuedAt : ℚ) ≤ x)
  | _ => false

def checkRotation (rotation : Value) (name : String) (previous next : PublicKey)
    (history : List Value) (now : ℤ) : Except String Unit :=
  match verifyDomainKeyRotation verify rotation name with
  | .error _ => .error REQUIRES_ROTATION
  | .ok verified =>
    if verified.previousKey ≠ previous ∨ verified.nextKey ≠ next then .error REQUIRES_ROTATION
    else if history.getLast?.any (notAfter verified.issuedAt.val) ∨
        now + MAX_ROTATION_SKEW_SECONDS < verified.issuedAt.val then
      .error ("Rotation issuedAt must be later than the previous rotation and not in the " ++
        "future")
    else .ok ()

structure RegisterDomainKeyRequest where
  name : String
  domainKey : String
  rotation : Option Value := none

structure RegisterParams where
  userId : String
  request : RegisterDomainKeyRequest
  now : ℤ
  resetHoldSeconds : ℕ := DEFAULT_RESET_HOLD_SECONDS

/-- A key that the name did not reach by rotations: the fingerprint of the one before, and
when. -/
structure Reset where
  resetFrom : String
  resetAt : ℤ

/-- When the reset hold of a released key is over. -/
def Tombstone.allowedAt (tombstone : Tombstone) (hold : ℕ) : ℤ :=
  tombstone.releasedAt / 1000 + hold

/-- The rotations, and the reset if it is one, with which a name takes the first key of this
registration. -/
def firstKey (tombstone : Option Tombstone) (params : RegisterParams) (nextKey : PublicKey) :
    Except Failure (List Value × Option Reset) :=
  let name := params.request.name
  match tombstone with
  | none =>
    if params.request.rotation.isSome then .error ⟨400, "There is no domain key to rotate yet"⟩
    else .ok ([], none)
  | some tombstone =>
    let released := canonicalKey tombstone.domainKey
    if released = some nextKey ∧ params.request.rotation.isNone then
      .ok (tombstone.rotations, none)
    else
      match params.request.rotation, released with
      | some rotation, some released =>
        match checkRotation verify rotation name released nextKey tombstone.rotations
          params.now with
        | .error e => .error ⟨403, e⟩
        | .ok () => .ok ((tombstone.rotations ++ [rotation]).rtake MAX_DOMAIN_KEY_ROTATIONS, none)
      | _, _ =>
        let allowedAt := tombstone.allowedAt params.resetHoldSeconds
        if params.now < allowedAt then
          .error ⟨403, s!"{name} was released with a domain key on " ++
            s!"{toISOString tombstone.releasedAt}. A new key needs a rotation statement signed " ++
            "by that key; without one it can be registered after " ++
            s!"{toISOString (allowedAt * 1000)}, marked as a reset, and clients that pinned " ++
            "the old key will refuse it."⟩
        else
          match domainKeyFingerprint sha256 (.text tombstone.domainKey) with
          | .error _ => .error ⟨500, "Failed to register domain key"⟩
          | .ok resetFrom => .ok ([], some ⟨resetFrom, params.now * 1000⟩)

/-- Register the first key of a name, or rotate it. -/
def registerDomainKey (db : Db) (params : RegisterParams) :
    Except Failure (Db × ℕ × DomainKeyRecord) :=
  let request := params.request
  match splitNativeName toLowerCase request.name with
  | none => .error ⟨400, "name must be a registered name of the form label.tld"⟩
  | some parts =>
    match canonicalKey request.domainKey with
    | none => .error ⟨400, "domainKey must be canonical base64 of 32 bytes"⟩
    | some nextKey =>
      match db.active parts with
      | none => .error ⟨404, "Domain not found"⟩
      | some domain =>
        if domain.oxyUserId ≠ params.userId then .error ⟨403, "You do not own this domain"⟩
        else
          match domain.key with
          | none => do
            let (rotations, reset) ← firstKey verify sha256
              (db.domainKeyTombstones.get parts) params nextKey
            let row := { domain with
              domainKey := some request.domainKey
              domainKeyRotations := rotations
              domainKeyResetFrom := reset.map Reset.resetFrom
              domainKeyResetAt := reset.map Reset.resetAt }
            .ok ({ db with domains := db.domains.set parts row }, 201,
              ⟨request.name, request.domainKey, rotations,
                reset.map fun r => ⟨r.resetFrom, toISOString r.resetAt⟩⟩)
          | some domainKey =>
            let currentKey := canonicalKey domainKey
            if currentKey = some nextKey then
              .ok (db, 200,
                ⟨request.name, domainKey, domain.domainKeyRotations, keyResetOf domain⟩)
            else
              match request.rotation, currentKey with
              | some rotation, some currentKey =>
                match checkRotation verify rotation request.name currentKey nextKey
                  domain.domainKeyRotations params.now with
                | .error e => .error ⟨403, e⟩
                | .ok () =>
                  let rotations :=
                    (domain.domainKeyRotations ++ [rotation]).rtake MAX_DOMAIN_KEY_ROTATIONS
                  let row := { domain with
                    domainKey := some request.domainKey
                    domainKeyRotations := rotations }
                  .ok ({ db with domains := db.domains.set parts row }, 200,
                    ⟨request.name, request.domainKey, rotations, keyResetOf domain⟩)
              | _, _ => .error ⟨403, REQUIRES_ROTATION⟩

/-! ### Runs -/

inductive Request
  /-- An operator adds a TLD or changes its status. -/
  | tld (name : String) (status : TldStatus)
  | registerDomain (oxyUserId name tld : String) (expiresAt : Option ℤ)
  | renewDomain (id : ℕ) (expiresAt : Option ℤ)
  | releaseDomain (id : ℕ) (oxyUserId : String) (now : ℤ)
  | registerDomainKey (params : RegisterParams)
  | lookupDomainKey (name : String) (settings : LookupSettings)

def renewDomain (db : Db) (id : ℕ) (expiresAt : Option ℤ) : Db :=
  match db.byId id with
  | none => db
  | some (parts, row) => { db with domains := db.domains.set parts { row with expiresAt } }

/-- The tables after a request. One that fails leaves them as they are. -/
def step (db : Db) : Request → Db
  | .tld name status => { db with tlds := db.tlds.set name status }
  | .registerDomain oxyUserId name tld expiresAt =>
    match Registry.registerDomain toLowerCase db oxyUserId name tld expiresAt with
    | .ok db' => db'
    | .error _ => db
  | .renewDomain id expiresAt => Registry.renewDomain db id expiresAt
  | .releaseDomain id oxyUserId now =>
    match Registry.releaseDomain db id oxyUserId now with
    | .ok db' => db'
    | .error _ => db
  | .registerDomainKey params =>
    match Registry.registerDomainKey verify sha256 toLowerCase db params with
    | .ok (db', _, _) => db'
    | .error _ => db
  | .lookupDomainKey _ _ => db

/-- The record that a request answers with. -/
def published (db : Db) : Request → Option DomainKeyRecord
  | .registerDomainKey params =>
    match Registry.registerDomainKey verify sha256 toLowerCase db params with
    | .ok (_, _, record) => some record
    | .error _ => none
  | .lookupDomainKey name settings => Registry.lookupDomainKey toLowerCase db name settings
  | _ => none

end Tnp.Registry
