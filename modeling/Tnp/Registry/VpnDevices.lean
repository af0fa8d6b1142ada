import Tnp.Lib.OrderedMap
import Tnp.Lib.Run
import Tnp.SharedTypes.Vpn

/-!
Storage of VPN devices, and the transactions that create and delete them.

Times are microseconds of the database clock. `now()` is the time a transaction began; the rows it
reads are those committed when it was granted the advisory lock, which it keeps until it ends.
-/

namespace Tnp.Registry.VpnDevices

open Tnp.Lib Tnp.Crypto Tnp.SharedTypes

/-- How long a freed address is held back before another device may get it. -/
def VPN_ADDRESS_QUARANTINE_SECONDS : ℕ := 24 * 60 * 60

/-- Draws before giving up. -/
def MAX_ADDRESS_ATTEMPTS : ℕ := 32

structure Row where
  id : ℕ
  oxyUserId : String
  name : String
  publicKey : String
  address : String
  createdAt : ℕ
  deriving DecidableEq

structure VpnDevice where
  id : ℕ
  name : String
  publicKey : String
  ipv4 : String
  ipv6 : String
  createdAt : ℕ
  deriving DecidableEq

def toDevice (row : Row) : Except String VpnDevice := do
  let ipv6 ← vpnIpv6ForIpv4 row.address
  return ⟨row.id, row.name, row.publicKey, row.address, ipv6, row.createdAt⟩

structure CreateVpnDeviceRequest where
  name : String
  publicKey : String

structure CreateVpnDeviceOptions where
  maxDevices : ℕ
  quarantineSeconds : ℕ := VPN_ADDRESS_QUARANTINE_SECONDS

def CreateVpnDeviceOptions.hold (options : CreateVpnDeviceOptions) : ℕ :=
  options.quarantineSeconds * 1000000

inductive CreateVpnDeviceResult
  | ok (device : VpnDevice)
  | deviceLimit
  | publicKeyInUse
  | addressPoolExhausted

/-! ### The tables -/

structure Database where
  vpnDevices : List Row := []
  /-- The freed addresses, with `released_at`. -/
  vpnAddressQuarantine : OrderedMap String ℕ := ⟨[], List.nodup_nil⟩

namespace Database

variable (db : Database)

/-- The rows that a transaction begun at `now` finds past the hold are deleted. -/
def purge (now hold : ℕ) : Database :=
  { db with
    vpnAddressQuarantine :=
      db.vpnAddressQuarantine.filter fun _ releasedAt => now < releasedAt + hold }

def devicesOf (oxyUserId : String) : List Row :=
  db.vpnDevices.filter fun d => d.oxyUserId = oxyUserId

def keyInUse (publicKey : String) : Bool := db.vpnDevices.any fun d => d.publicKey = publicKey

/-- `ON CONFLICT DO NOTHING`: `none` is no row returned. -/
def insertDevice (row : Row) : Option Database :=
  if db.vpnDevices.any fun d => d.publicKey = row.publicKey ∨ d.address = row.address then none
  else some { db with vpnDevices := db.vpnDevices ++ [row] }

end Database

/-- The result of a transaction and what it commits; an error rolls it back. -/
abbrev Ended := Except String (CreateVpnDeviceResult × Database)

/-- A transaction draws no further than it needs. -/
def ended (draws : List ℕ) (outcome : Ended) : Option Ended :=
  if draws = [] then some outcome else none

/-- The draws of `createVpnDevice`, each a clash until one is not; `none` where they are not those
of one transaction. What is no index of the pool stands for any other number drawn. -/
def attempts (db : Database) (row : Row) : ℕ → List ℕ → Option Ended
  | 0, draws => ended draws (.ok (.addressPoolExhausted, db))
  | _ + 1, [] => none
  | n + 1, index :: draws =>
    if index < VPN_MIN_HOST_INDEX ∨ VPN_MAX_HOST_INDEX < index then
      ended draws (.error "drawn host index is outside the pool")
    else
      let row := { row with address := vpnIpv4ForIndex index }
      if db.vpnAddressQuarantine.has row.address then attempts db row n draws
      else
        match db.insertDevice row with
        | some db' => ended draws ((toDevice row).map fun device => (.ok device, db'))
        | none =>
          if db.keyInUse row.publicKey then ended draws (.ok (.publicKeyInUse, db))
          else attempts db row n draws

/-- `id` is what `gen_random_uuid` gives the row. -/
def createVpnDevice (db : Database) (now id : ℕ) (oxyUserId : String)
    (request : CreateVpnDeviceRequest) (options : CreateVpnDeviceOptions) (draws : List ℕ) :
    Option Ended :=
  let db := db.purge now options.hold
  if options.maxDevices ≤ (db.devicesOf oxyUserId).length then ended draws (.ok (.deviceLimit, db))
  else
    attempts db
      { id := id
        oxyUserId := oxyUserId
        name := request.name
        publicKey := request.publicKey
        address := ""
        createdAt := now }
      MAX_ADDRESS_ATTEMPTS draws

def ownDevice (db : Database) (oxyUserId : String) (id : ℕ) : Option Row :=
  db.vpnDevices.find? fun d => d.id = id ∧ d.oxyUserId = oxyUserId

/-- Returns whether the device existed. -/
def deleteVpnDevice (db : Database) (now : ℕ) (oxyUserId : String) (id : ℕ) : Bool × Database :=
  match ownDevice db oxyUserId id with
  | none => (false, db)
  | some deleted =>
    (true,
      { vpnDevices := db.vpnDevices.filter fun d => ¬ (d.id = id ∧ d.oxyUserId = oxyUserId)
        vpnAddressQuarantine := db.vpnAddressQuarantine.set deleted.address now })

/-! ### Transactions -/

abbrev TxId := ℕ

inductive Call
  | create (oxyUserId : String) (request : CreateVpnDeviceRequest)
  | delete (oxyUserId : String) (id : ℕ)

structure Transaction where
  began : ℕ
  call : Call

/-- A delete that was committed. -/
structure Release where
  address : String
  committedAt : ℕ
  deriving DecidableEq

structure State where
  now : ℕ := 0
  db : Database := {}
  /-- Those under way. -/
  transactions : OrderedMap TxId Transaction := ⟨[], List.nodup_nil⟩
  /-- Who has the advisory lock. -/
  holder : Option TxId := none
  /-- Remembered for the claims only. -/
  released : List Release := []

inductive Event
  | tick (micros : ℕ)
  | start (tx : TxId) (call : Call)
  /-- The advisory lock is granted. -/
  | grant (tx : TxId)
  /-- The holder of the lock runs to its end, with what it draws. -/
  | commit (tx : TxId) (id : ℕ) (draws : List ℕ)
  /-- A transaction is given up, waiting or not. -/
  | rollback (tx : TxId)

namespace State

variable (options : CreateVpnDeviceOptions) (s : State)

/-- A transaction ends, and with it its lock. -/
def done (tx : TxId) : State :=
  { s with
    transactions := s.transactions.delete tx
    holder := if s.holder = some tx then none else s.holder }

/-- Identifiers are drawn at random: none was used before. -/
def fresh (id : ℕ) : Bool := s.db.vpnDevices.all fun d => d.id ≠ id

def commit (tx : TxId) (t : Transaction) (id : ℕ)
    (draws : List ℕ) : State :=
  match t.call with
  | .create oxyUserId request =>
    if s.fresh id then
      match createVpnDevice s.db t.began id oxyUserId request options draws with
      | some (.ok (_, db)) => State.done { s with db := db } tx
      | some (.error _) => s.done tx
      | none => s
    else s
  | .delete oxyUserId device =>
    let deleted := ownDevice s.db oxyUserId device
    let s' : State := { s with
      db := (deleteVpnDevice s.db t.began oxyUserId device).2
      released := (deleted.map fun d => ⟨d.address, s.now⟩).toList ++ s.released }
    s'.done tx

def step : Event → State
  | .tick micros => { s with now := s.now + micros }
  | .start tx call =>
    if s.transactions.has tx then s
    else { s with transactions := s.transactions.set tx ⟨s.now, call⟩ }
  | .grant tx =>
    if s.transactions.has tx ∧ s.holder = none then { s with holder := some tx } else s
  | .commit tx id draws =>
    match s.transactions.get tx with
    | some t => if s.holder = some tx then s.commit options tx t id draws else s
    | none => s
  | .rollback tx => s.done tx

end State

end Tnp.Registry.VpnDevices
