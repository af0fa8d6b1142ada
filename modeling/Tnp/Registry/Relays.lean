import Tnp.Crypto.RelayDirectory
import Tnp.Lib.OrderedMap
import Tnp.Lib.Run

/-!
The registry of community relays: registration, heartbeats, and the rows the signed directory
takes.

Calls interleave between one await and the next. A transaction works on what is committed; its
upsert takes effect when it commits, since until then no other writer gets past the row's lock and
no reader sees the new row.
-/

namespace Tnp.Registry.Relays

open Tnp.Lib Tnp.Crypto Tnp.Crypto.Grants Tnp.Crypto.RelayDirectory

def MAX_RELAYS_PER_ACCOUNT : ℕ := 3
def RELAY_KEY_PROOF_WINDOW_SECONDS : ℕ := 300
def RELAY_STALE_AFTER_SECONDS : ℕ := 90
def RELAY_LIVE_RECHECK_SECONDS : ℕ := 15 * 60
def RELAY_LIVE_CHECK_VALID_SECONDS : ℕ := 60 * 60
def MAX_COMMUNITY_ROWS : ℕ := 256

/-- Microseconds of the database clock. -/
abbrev Micros := ℕ

def seconds (n : ℕ) : Micros := n * 1000000

/-! ### Requests -/

structure RelayKeyProof where
  issuedAt : SafeUint
  signature : String
  deriving DecidableEq

structure RelayCapacity where
  maxConnections : ℕ
  bandwidth : ℕ
  deriving DecidableEq, Repr

structure RegisterRelayRequest where
  endpoint : JsString
  publicKey : String
  capacity : RelayCapacity
  location : JsString
  proof : Option RelayKeyProof := none

structure RelayHeartbeatRequest where
  endpoint : JsString
  proof : Option RelayKeyProof := none

/-- What a key proof covers; the account is the caller's. -/
structure Proved where
  proof : RelayKeyProof
  purpose : RelayRegistryProofPurpose
  endpoint : JsString
  publicKey : String
  nowSeconds : ℤ
  deriving DecidableEq

def verifyRelayRegistryProof (verify : Verifier) (p : Proved) : Bool :=
  match parsePublicKey (.text p.publicKey) with
  | .error _ => false
  | .ok relayKey =>
    match encodeRegistryProof ⟨p.purpose, p.endpoint, relayKey, p.proof.issuedAt⟩,
        decodeBase64Strict (.string p.proof.signature) (some SIGNATURE_LENGTH) with
    | .ok statement, .ok signature => verify statement signature relayKey.val
    | _, _ => false

def relayKeyProofValid (verify : Verifier) (p : Proved) : Bool :=
  if RELAY_KEY_PROOF_WINDOW_SECONDS < (p.nowSeconds - p.proof.issuedAt.val).natAbs then false
  else verifyRelayRegistryProof verify p

/-! ### The table -/

inductive RelayStatus
  | active
  | degraded
  | offline
  deriving DecidableEq, Repr

/-- A row; its endpoint is its key, and `operator` is never read. -/
structure Relay where
  id : ℕ
  publicKey : String
  operatorUserId : String
  maxConnections : ℕ
  bandwidth : ℕ
  location : JsString
  status : RelayStatus := .offline
  lastSeen : Micros
  keyProvenAt : Option Micros
  liveCheckedAt : Option Micros
  createdAt : Micros
  updatedAt : Micros
  deriving DecidableEq

abbrev Table := OrderedMap JsString Relay

def othersOf (relays : Table) (operatorUserId : String) (endpoint : JsString) : ℕ :=
  relays.entries.countP fun e => e.2.operatorUserId = operatorUserId ∧ e.1 ≠ endpoint

/-- What a registration writes, with `id` for a row that is new; `none` where another account has
the endpoint. -/
def upsertRelay (relays : Table) (now : Micros) (id : ℕ) (request : RegisterRelayRequest)
    (operatorUserId : String) (keyProven liveChecked : Bool) : Option Relay :=
  let keyProvenAt := if keyProven then some now else none
  let liveCheckedAt := if keyProven && liveChecked then some now else none
  match relays.get request.endpoint with
  | none =>
    some
      { id := id
        publicKey := request.publicKey
        operatorUserId := operatorUserId
        maxConnections := request.capacity.maxConnections
        bandwidth := request.capacity.bandwidth
        location := request.location
        lastSeen := now
        keyProvenAt := keyProvenAt
        liveCheckedAt := liveCheckedAt
        createdAt := now
        updatedAt := now }
  | some relay =>
    if relay.operatorUserId = operatorUserId then
      some { relay with
        publicKey := request.publicKey
        maxConnections := request.capacity.maxConnections
        bandwidth := request.capacity.bandwidth
        location := request.location
        lastSeen := now
        keyProvenAt := keyProvenAt
        liveCheckedAt := liveCheckedAt
        updatedAt := now }
    else none

def ownedRelay (relays : Table) (endpoint : JsString) (operatorUserId : String) : Option Relay :=
  (relays.get endpoint).filter fun relay => relay.operatorUserId = operatorUserId

def liveDue (relay : Relay) (now : Micros) : Bool :=
  relay.liveCheckedAt.all fun time => time + seconds RELAY_LIVE_RECHECK_SECONDS < now

/-- The row that a heartbeat finds, as it leaves it: the caller's, still under the key its proof
was verified against. -/
def heartbeatRelay (relays : Table) (now : Micros) (endpoint : JsString) (operatorUserId : String)
    (checkedKey : Option String) (liveOk : Bool) : Option Relay :=
  ((ownedRelay relays endpoint operatorUserId).filter fun relay =>
    checkedKey.all fun key => relay.publicKey = key).map fun relay =>
      { relay with
        lastSeen := now
        status := .active
        updatedAt := now
        keyProvenAt := if checkedKey.isSome then some now else relay.keyProvenAt
        liveCheckedAt := if liveOk then some now else relay.liveCheckedAt }

structure CommunityRelayRow where
  endpoint : JsString
  publicKey : String
  location : JsString
  deriving DecidableEq

def listed (now : Micros) (relay : Relay) : Bool :=
  relay.status ≠ .offline &&
    now < relay.lastSeen + seconds RELAY_STALE_AFTER_SECONDS &&
    relay.keyProvenAt.any (fun time => now < time + seconds RELAY_STALE_AFTER_SECONDS) &&
    relay.liveCheckedAt.any (fun time => now < time + seconds RELAY_LIVE_CHECK_VALID_SECONDS)

/-- The longest registered first, then by identifier. -/
def registeredBefore (a b : JsString × Relay) : Bool :=
  a.2.createdAt < b.2.createdAt ∨ a.2.createdAt = b.2.createdAt ∧ a.2.id ≤ b.2.id

def listProvenCommunityRelays (relays : Table) (now : Micros) : List CommunityRelayRow :=
  (((relays.entries.filter fun e => listed now e.2).mergeSort registeredBefore).take
    MAX_COMMUNITY_ROWS).map fun e => ⟨e.1, e.2.publicKey, e.2.location⟩

/-! ### Calls -/

abbrev CallId := ℕ

inductive RegisterStage
  /-- Awaiting the live check of a proven registration. -/
  | checking
  /-- Its transaction has begun and waits for the account's lock. -/
  | waiting
  | locked
  /-- Past the cap. -/
  | counted
  deriving DecidableEq, Repr

structure RegisterCall where
  request : RegisterRelayRequest
  operatorUserId : String
  stage : RegisterStage
  keyProven : Bool
  liveChecked : Bool := false
  /-- `now()` of its transaction. -/
  began : Micros

def RegisterCall.holdsLock (call : RegisterCall) : Bool :=
  call.stage = .locked || call.stage = .counted

structure HeartbeatCall where
  endpoint : JsString
  operatorUserId : String
  /-- The key the proof was verified against. -/
  checkedKey : Option String
  checking : Bool
  liveOk : Bool := false

inductive Call
  | register (call : RegisterCall)
  | heartbeat (call : HeartbeatCall)

def Call.operatorUserId : Call → String
  | .register call => call.operatorUserId
  | .heartbeat call => call.operatorUserId

/-- What a call did, remembered for the claims only. -/
inductive Deed
  | proved (call : CallId) (operatorUserId : String) (proved : Proved)
  | live (call : CallId) (endpoint : JsString) (publicKey : String)
  | registered (call : CallId) (endpoint : JsString)
  /-- A heartbeat that found its row. -/
  | beat (call : CallId) (endpoint : JsString)
  deriving DecidableEq

structure State where
  now : Micros := 0
  relays : Table := ⟨[], List.nodup_nil⟩
  nextCall : CallId := 0
  /-- Those under way. -/
  calls : OrderedMap CallId Call := ⟨[], List.nodup_nil⟩
  /-- Latest first. -/
  deeds : List Deed := []

inductive Event
  | tick (micros : Micros)
  | register (operatorUserId : String) (request : RegisterRelayRequest) (nowSeconds : ℤ)
  | heartbeat (operatorUserId : String) (request : RelayHeartbeatRequest) (nowSeconds : ℤ)
  /-- The live check of a call answers. -/
  | live (call : CallId) (ok : Bool)
  /-- The advisory lock is granted. -/
  | lock (call : CallId)
  | count (call : CallId)
  /-- A registration commits, with the identifier of a row that is new, or a heartbeat updates. -/
  | write (call : CallId) (id : ℕ)
  /-- A call fails, wherever it is. -/
  | abort (call : CallId)

/-- What the code does not decide: signatures, and which accounts share an advisory lock. -/
structure Context where
  verify : Verifier
  hashtext : String → ℤ
  /-- The endpoints no account may register. -/
  oxyEndpoints : List JsString := []

namespace State

variable (c : Context) (s : State)

def enter (call : Call) : State :=
  { s with calls := s.calls.set s.nextCall call, nextCall := s.nextCall + 1 }

def resume (id : CallId) (call : Call) : State := { s with calls := s.calls.set id call }

def leave (id : CallId) : State := { s with calls := s.calls.delete id }

def note (deed : Deed) : State := { s with deeds := deed :: s.deeds }

/-- Whether a transaction holds the lock of an account. -/
def lockHeld (operatorUserId : String) : Bool :=
  s.calls.values.any fun
    | .register call =>
      call.holdsLock && c.hashtext call.operatorUserId = c.hashtext operatorUserId
    | .heartbeat _ => false

/-- The route of a registration, up to its first await. -/
def register (operatorUserId : String) (request : RegisterRelayRequest) (nowSeconds : ℤ) : State :=
  if c.oxyEndpoints.contains request.endpoint then s
  else
    match request.proof with
    | none => s.enter (.register ⟨request, operatorUserId, .waiting, false, false, s.now⟩)
    | some proof =>
      let proved := ⟨proof, .register, request.endpoint, request.publicKey, nowSeconds⟩
      if relayKeyProofValid c.verify proved then
        (s.note (.proved s.nextCall operatorUserId proved)).enter
          (.register ⟨request, operatorUserId, .checking, true, false, s.now⟩)
      else s

/-- A heartbeat, up to its first await. -/
def heartbeat (operatorUserId : String) (request : RelayHeartbeatRequest) (nowSeconds : ℤ) :
    State :=
  match request.proof with
  | none => s.enter (.heartbeat ⟨request.endpoint, operatorUserId, none, false, false⟩)
  | some proof =>
    match ownedRelay s.relays request.endpoint operatorUserId with
    | none => s
    | some relay =>
      let proved := ⟨proof, .heartbeat, request.endpoint, relay.publicKey, nowSeconds⟩
      if relayKeyProofValid c.verify proved then
        (s.note (.proved s.nextCall operatorUserId proved)).enter
          (.heartbeat
            ⟨request.endpoint, operatorUserId, some relay.publicKey, liveDue relay s.now, false⟩)
      else s

/-- A registration ends where its live check fails; a heartbeat goes on. -/
def live (id : CallId) (ok : Bool) : State :=
  match s.calls.get id with
  | some (.register call) =>
    if call.stage = .checking then
      if ok then
        (s.note (.live id call.request.endpoint call.request.publicKey)).resume id
          (.register { call with stage := .waiting, liveChecked := true, began := s.now })
      else s.leave id
    else s
  | some (.heartbeat call) =>
    match call.checkedKey, call.checking with
    | some key, true =>
      if ok then
        (s.note (.live id call.endpoint key)).resume id
          (.heartbeat { call with checking := false, liveOk := true })
      else s.resume id (.heartbeat { call with checking := false })
    | _, _ => s
  | none => s

def lock (id : CallId) : State :=
  match s.calls.get id with
  | some (.register call) =>
    if call.stage = .waiting ∧ s.lockHeld c call.operatorUserId = false then
      s.resume id (.register { call with stage := .locked })
    else s
  | _ => s

def count (id : CallId) : State :=
  match s.calls.get id with
  | some (.register call) =>
    if call.stage = .locked then
      if MAX_RELAYS_PER_ACCOUNT ≤ othersOf s.relays call.operatorUserId call.request.endpoint then
        s.leave id
      else s.resume id (.register { call with stage := .counted })
    else s
  | _ => s

def write (id : CallId) (row : ℕ) : State :=
  match s.calls.get id with
  | some (.register call) =>
    if call.stage = .counted then
      match upsertRelay s.relays call.began row call.request call.operatorUserId call.keyProven
          call.liveChecked with
      | some relay =>
        State.leave { s with
          relays := s.relays.set call.request.endpoint relay
          deeds := .registered id call.request.endpoint :: s.deeds } id
      | none => s.leave id
    else s
  | some (.heartbeat call) =>
    if call.checking then s
    else
      match heartbeatRelay s.relays s.now call.endpoint call.operatorUserId call.checkedKey
          call.liveOk with
      | some relay =>
        State.leave { s with
          relays := s.relays.set call.endpoint relay
          deeds := .beat id call.endpoint :: s.deeds } id
      | none => s.leave id
  | none => s

def step (s : State) : Event → State
  | .tick micros => { s with now := s.now + micros }
  | .register operatorUserId request nowSeconds => s.register c operatorUserId request nowSeconds
  | .heartbeat operatorUserId request nowSeconds => s.heartbeat c operatorUserId request nowSeconds
  | .live call ok => s.live call ok
  | .lock call => s.lock c call
  | .count call => s.count call
  | .write call id => s.write call id
  | .abort call => s.leave call

end State

end Tnp.Registry.Relays
