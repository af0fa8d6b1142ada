import Tnp.Crypto.ServiceAuth
import Tnp.Protocol.Overlay
import Tnp.Relay.Limits

/-!
The relay: anonymous clients on one side, authenticated service nodes on the other, circuits
between them.

Connections and circuits are objects that others refer to, so they live in a heap of their own.
A call runs to its end in one step, and an `await` ends a step: what is still to come is kept as
a task, and the answer it waits for is an event. What the registry, the clock, the transports
and the random source say is up to the environment.
-/

namespace Tnp.Relay

open Tnp.Lib Tnp.Crypto Tnp.Crypto.Grants Tnp.Protocol

/-- A connection, as others refer to it. -/
abbrev ConnId := ℕ

/-- A circuit, as others refer to it. -/
abbrev CircuitRef := ℕ

def CLOSE_NORMAL : ℕ := 1000
def CLOSE_POLICY : ℕ := 1008
def CLOSE_TOO_BIG : ℕ := 1009
def CLOSE_TRY_LATER : ℕ := 1013

/-! ### The circuits of one connection -/

lemma get_zero_empty : ({} : OrderedMap UInt64 CircuitRef).get 0 = none := rfl

structure CircuitTable where
  maxCircuits : ℕ
  circuits : OrderedMap UInt64 CircuitRef := {}
  size_le : circuits.size ≤ maxCircuits := by exact Nat.zero_le _
  reserved : circuits.get 0 = none := by first | exact get_zero_empty | rfl

namespace CircuitTable

variable (t : CircuitTable)

def atCapacity : Bool := t.maxCircuits ≤ t.circuits.size

def has (id : UInt64) : Bool := t.circuits.has id

def get (id : UInt64) : Option CircuitRef := t.circuits.get id

/-- `add`: nothing where it returns false. -/
def add (id : UInt64) (r : CircuitRef) : Option CircuitTable :=
  if hid : id = 0 then none
  else if t.has id then none
  else if hfull : t.maxCircuits ≤ t.circuits.size then none
  else
    some { t with
      circuits := t.circuits.set id r
      size_le := (OrderedMap.size_set_le r).trans (by omega)
      reserved := by rw [OrderedMap.get_set_of_ne _ hid, t.reserved] }

def delete (id : UInt64) : CircuitTable :=
  { t with
    circuits := t.circuits.delete id
    size_le := OrderedMap.size_delete_le.trans t.size_le
    reserved := by rw [OrderedMap.get_delete, t.reserved, ite_self] }

/-- Delete the entry of `id` where it is the circuit `r`. -/
def unlist (id : UInt64) (r : CircuitRef) : CircuitTable :=
  if t.get id = some r then t.delete id else t

def drain : List CircuitRef × CircuitTable :=
  (t.circuits.values, { maxCircuits := t.maxCircuits })

variable {t}

lemma get_unlist {id j : UInt64} {r : CircuitRef} :
    (t.unlist id r).get j = if id = j ∧ t.get j = some r then none else t.get j := by
  unfold unlist
  split
  · next h =>
    change (t.circuits.delete id).get j = _
    rw [OrderedMap.get_delete]
    by_cases hj : id = j
    · subst hj
      simp [h]
    · simp only [hj, if_false, false_and]
      rfl
  · next h =>
    rw [if_neg]
    rintro ⟨rfl, hj⟩
    exact h hj

@[simp] lemma maxCircuits_unlist (id : UInt64) (r : CircuitRef) :
    (t.unlist id r).maxCircuits = t.maxCircuits := by
  unfold unlist delete
  split <;> rfl

lemma get_add {id j : UInt64} {r : CircuitRef} {t' : CircuitTable} (h : t.add id r = some t') :
    t'.maxCircuits = t.maxCircuits ∧ t'.get j = if id = j then some r else t.get j := by
  unfold add at h
  split at h
  · simp at h
  split at h
  · simp at h
  split at h
  · simp at h
  · obtain rfl := Option.some.inj h
    exact ⟨rfl, OrderedMap.get_set r⟩

/-- A free id and a free place are all that `add` asks for. -/
lemma add_isSome {id : UInt64} {r : CircuitRef} (hid : id ≠ 0) (hfree : t.get id = none)
    (hroom : t.atCapacity = false) : ∃ t', t.add id r = some t' := by
  have hhas : t.has id = false := by
    unfold has OrderedMap.has
    rw [show t.circuits.get id = none from hfree]
    rfl
  have hsize : ¬ t.maxCircuits ≤ t.circuits.size := by simpa [atCapacity] using hroom
  exact ⟨_, by rw [add, dif_neg hid, hhas, if_neg Bool.false_ne_true, dif_neg hsize]⟩

end CircuitTable

/-! ### The state -/

inductive Kind
  | client
  | service
  deriving DecidableEq

inductive ServiceState
  | awaitingAuth
  | verifying
  | ready
  deriving DecidableEq

structure Connection where
  kind : Kind
  ip : String
  circuits : CircuitTable
  pending : ℤ := 0
  /-- Client connections: circuits held to each service connection. -/
  perService : OrderedMap ConnId ℤ := {}
  violations : ℕ := 0
  closed : Bool := false
  openedAt : ℚ
  identityProven : Bool := false
  state : Option ServiceState := none
  challenge : Option Challenge := none
  name : Option String := none
  nodeKeyHex : Option String := none
  domainKeyHex : Option String := none
  authNotAfter : Option SafeUint := none
  authCheckedAt : Option ℚ := none

structure Circuit where
  client : ConnId
  clientId : UInt64
  service : ConnId
  serviceId : UInt64
  isOpen : Bool
  createdAt : ℚ
  lastActivity : ℚ
  name : String

structure Counters where
  circuitsOpened : ℕ := 0
  circuitsRejected : ℕ := 0
  framesForwarded : ℕ := 0
  bytesForwarded : ℕ := 0
  framesDropped : ℕ := 0
  protocolViolations : ℕ := 0
  backpressureDestroys : ℕ := 0
  authFailures : ℕ := 0
  idleDestroys : ℕ := 0
  memoryCloses : ℕ := 0

/-- What a transport was told. -/
inductive Output
  | send (conn : ConnId) (frame : Bytes)
  | close (conn : ConnId) (code : ℕ) (reason : String)
  deriving DecidableEq

/-- A `verifyService` that waits for the domain key. -/
structure Verification where
  conn : ConnId
  name : String
  chain : List Value
  signature : String

structure RelayCore where
  connections : List ConnId := []
  services : OrderedMap String ConnId := {}
  circuitCount : ℤ := 0
  /-- `ip \0 name` to the circuits that address holds to that service. -/
  ipService : OrderedMap String ℤ := {}
  ips : IpTracker := {}
  counters : Counters := {}
  conn : ConnId → Connection
  circuit : CircuitRef → Circuit
  nextConn : ConnId := 0
  nextCircuit : CircuitRef := 0
  verifications : List Verification := []
  /-- Every `recheckDomainKey` that waits for the domain key. -/
  rechecks : List ConnId := []
  out : List Output := []

/-- What a relay is built with. `json` is `JSON.parse` of the text of a payload, and
`signRelayIdentity` may throw. -/
structure RelayCoreOptions where
  endpoint : JsString
  publicKey : PublicKey
  signRelayIdentity : Bytes → Option {signature : Bytes // signature.length = SIGNATURE_LENGTH}
  verify : Verifier
  json : Bytes → Option Value
  limits : RelayLimits

/-- What the surroundings answer during one step: the readings of the clock in their order, the
buffer of each transport, what `send` returns for a frame passed on, and what the random source
draws. -/
structure Env where
  clock : ℕ → ℚ := fun _ => 0
  bufferedAmount : ConnId → ℕ := fun _ => 0
  sendResult : ℤ := 1
  draws : List UInt64 := []
  challenge : Challenge := ⟨List.replicate 32 0, length_zeros⟩

/-- An object that is not there yet: nothing is received on it and nothing is sent to it. -/
def Connection.absent : Connection where
  kind := .client
  ip := ""
  circuits := { maxCircuits := 0 }
  closed := true
  openedAt := 0

def Circuit.absent : Circuit := ⟨0, 0, 0, 0, false, 0, 0, ""⟩

def RelayCore.new : RelayCore where
  conn _ := .absent
  circuit _ := .absent

inductive Notify
  | client
  | service
  | both
  deriving DecidableEq

/-- One less at `k`, and no entry once it is zero. -/
def decrement {κ : Type*} [DecidableEq κ] (m : OrderedMap κ ℤ) (k : κ) : OrderedMap κ ℤ :=
  let n := (m.get k).getD 1 - 1
  if 0 < n then m.set k n else m.delete k

def ipKey (ip name : String) : String := ip ++ "\x00" ++ name

def destroyFrame (id : UInt64) (reason : ℕ) : Frame where
  type := .CIRCUIT_DESTROY
  circuitId := id
  payload := encodeDestroy reason
  payload_le := by simp [encodeDestroy, MAX_FRAME_PAYLOAD]

/-- The CIRCUIT_CREATE of a client, as the service node gets it. -/
def createFrame (id : UInt64) (f : Frame) : Frame where
  type := .CIRCUIT_CREATE
  circuitId := id
  payload := f.payload
  payload_le := f.payload_le

def errorFrame (code : ErrorCode) : Frame where
  type := .ERROR
  payload := be 2 code.value ++ [0x01]
  payload_le := by simp [MAX_FRAME_PAYLOAD]

namespace RelayCore

variable (o : RelayCoreOptions) (e : Env) (s : RelayCore)

def modifyConn (c : ConnId) (f : Connection → Connection) : RelayCore :=
  { s with conn := Function.update s.conn c (f (s.conn c)) }

def modifyCircuit (r : CircuitRef) (f : Circuit → Circuit) : RelayCore :=
  { s with circuit := Function.update s.circuit r (f (s.circuit r)) }

section modify

variable {s} {c d : ConnId} {r x : CircuitRef} {β : Type*}

lemma conn_modifyConn (f : Connection → Connection) :
    (s.modifyConn c f).conn d = if d = c then f (s.conn c) else s.conn d :=
  Function.update_apply _ _ _ _

/-- What `f` leaves as it is, is as it was in every connection. -/
lemma conn_modifyConn_congr (g : Connection → β) {f : Connection → Connection}
    (hf : g (f (s.conn c)) = g (s.conn c)) : g ((s.modifyConn c f).conn d) = g (s.conn d) := by
  rw [conn_modifyConn]
  split
  · next h => rw [hf, h]
  · rfl

lemma circuit_modifyCircuit (f : Circuit → Circuit) :
    (s.modifyCircuit r f).circuit x = if x = r then f (s.circuit r) else s.circuit x :=
  Function.update_apply _ _ _ _

lemma circuit_modifyCircuit_congr (g : Circuit → β) {f : Circuit → Circuit}
    (hf : g (f (s.circuit r)) = g (s.circuit r)) :
    g ((s.modifyCircuit r f).circuit x) = g (s.circuit x) := by
  rw [circuit_modifyCircuit]
  split
  · next h => rw [hf, h]
  · rfl

end modify

def count (f : Counters → Counters) : RelayCore := { s with counters := f s.counters }

/-- `transport.send`. -/
def send (c : ConnId) (f : Bytes) : RelayCore := { s with out := s.out ++ [.send c f] }

def sendTo (c : ConnId) (f : Frame) : RelayCore :=
  if (s.conn c).closed then s else s.send c (encodeFrame f)

/-! ### Circuits -/

/-- `removeCircuit`, first part: out of the tables that have it. -/
def unlist (r : CircuitRef) : RelayCore :=
  let k := s.circuit r
  let s := s.modifyConn k.client fun c => { c with circuits := c.circuits.unlist k.clientId r }
  s.modifyConn k.service fun c => { c with circuits := c.circuits.unlist k.serviceId r }

/-- Second part: out of the counts. -/
def uncount (r : CircuitRef) : RelayCore :=
  let k := s.circuit r
  let s := s.modifyConn k.client fun c =>
    { c with
      pending := if !k.isOpen then c.pending - 1 else c.pending
      perService := decrement c.perService k.service }
  { s with
    circuitCount := s.circuitCount - 1
    ipService := decrement s.ipService (ipKey (s.conn k.client).ip k.name) }

/-- Third part: the CIRCUIT_DESTROY frames. -/
def notifyRemoved (r : CircuitRef) (notify : Notify) (reason : ℕ) : RelayCore :=
  let k := s.circuit r
  let s := if notify ≠ .service then s.sendTo k.client (destroyFrame k.clientId reason) else s
  if notify ≠ .client then s.sendTo k.service (destroyFrame k.serviceId reason) else s

def removeCircuit (r : CircuitRef) (notify : Notify) (reason : ℕ) : RelayCore :=
  let k := s.circuit r
  if (s.conn k.client).circuits.get k.clientId ≠ some r ∧
      (s.conn k.service).circuits.get k.serviceId ≠ some r then s
  else ((s.unlist r).uncount r).notifyRemoved r notify reason

/-! ### The end of a connection -/

/-- `onTransportClosed`, first part: the connection is gone, and its table is drained. -/
def detach (c : ConnId) : RelayCore :=
  let s := s.modifyConn c fun conn =>
    { conn with closed := true, circuits := conn.circuits.drain.2 }
  { s with
    connections := s.connections.erase c
    ips := s.ips.release (s.conn c).ip
    services := match (s.conn c).name with
      | some name =>
        if (s.conn c).kind = Kind.service ∧ name ≠ "" ∧ s.services.get name = some c then
          s.services.delete name
        else s.services
      | none => s.services }

def onTransportClosed (c : ConnId) : RelayCore :=
  if (s.conn c).closed then s
  else
    -- tell the far side; it loses only this circuit
    (s.conn c).circuits.drain.1.foldl (fun s r =>
      s.removeCircuit r (if c = (s.circuit r).client then Notify.service else Notify.client)
        ErrorCode.CIRCUIT_UNKNOWN.value) (s.detach c)

def closeConnection (c : ConnId) (code : ℕ) (reason : String) : RelayCore :=
  if (s.conn c).closed then s
  else { s with out := s.out ++ [Output.close c code reason] }.onTransportClosed c

/-- Send a connection-scope ERROR and close. -/
def fail (c : ConnId) (code : ErrorCode) (closeCode : ℕ := CLOSE_POLICY) : RelayCore :=
  if (s.conn c).closed then s
  else
    let s := if code = .PROTOCOL_VIOLATION then
        s.count fun n => { n with protocolViolations := n.protocolViolations + 1 }
      else s
    (s.send c (encodeFrame (errorFrame code))).closeConnection c closeCode "protocol error"

def unowned : RelayCore := s.count fun n => { n with framesDropped := n.framesDropped + 1 }

def violation (c : ConnId) : RelayCore :=
  let s := s.count fun n => { n with framesDropped := n.framesDropped + 1 }
  let s := s.modifyConn c fun conn => { conn with violations := conn.violations + 1 }
  if o.limits.maxViolations < (s.conn c).violations then s.fail c .PROTOCOL_VIOLATION else s

def authFailed (c : ConnId) (code : ErrorCode) : RelayCore :=
  (s.count fun n => { n with authFailures := n.authFailures + 1 }).fail c code
    (if code = .RESOURCE_EXHAUSTED then CLOSE_TRY_LATER else CLOSE_POLICY)

/-! ### Admission -/

def newConnection (kind : Kind) (ip : String) (maxCircuits : ℕ) (openedAt : ℚ) :
    ConnId × RelayCore :=
  let c := s.nextConn
  (c, { s with
    conn := Function.update s.conn c
      { kind, ip, circuits := { maxCircuits }, openedAt }
    connections := s.connections ++ [c]
    nextConn := c + 1 })

def acceptClient (ip : String) (openedAt : ℚ) : RelayCore :=
  (s.newConnection .client ip o.limits.maxCircuitsPerClient openedAt).2

def acceptService (ip : String) (openedAt : ℚ) : RelayCore :=
  let (c, s) := s.newConnection .service ip o.limits.maxCircuitsPerService openedAt
  let s := s.modifyConn c fun conn =>
    { conn with state := some .awaitingAuth, challenge := some e.challenge }
  s.send c (encodeFrame {
    type := .HELLO
    payload := e.challenge.val
    payload_le := by rw [e.challenge.property]; decide })

/-- `admit`: whether the address may connect. -/
def admitIp (ip : String) : Bool × RelayCore :=
  if o.limits.maxConnections ≤ s.connections.length then (false, s)
  else
    let (verdict, ips) := s.ips.admitIp o.limits ip (e.clock 0)
    (decide (verdict = .ok), { s with ips })

def releaseAdmission (ip : String) : RelayCore := { s with ips := s.ips.release ip }

/-! ### Frames of a client -/

/-- Forward `raw` to one side of a circuit, rewriting only the circuit id. -/
def forward (r : CircuitRef) (side : Kind) (raw : Bytes) : RelayCore :=
  let k := s.circuit r
  let (dest, destId, limit) := match side with
    | .client => (k.client, k.clientId, o.limits.clientBufferLimit)
    | .service => (k.service, k.serviceId, o.limits.serviceBufferLimit)
  if (s.conn dest).closed then s
  else if limit < e.bufferedAmount dest + raw.length then
    (s.count fun n => { n with backpressureDestroys := n.backpressureDestroys + 1 }).removeCircuit r
      .both ErrorCode.RESOURCE_EXHAUSTED.value
  else
    let s := s.send dest (setCircuitId raw destId)
    if e.sendResult = 0 then s
    else
      (s.modifyCircuit r fun k => { k with lastActivity := e.clock 0 }).count fun n =>
        { n with
          framesForwarded := n.framesForwarded + 1
          bytesForwarded := n.bytesForwarded + raw.length }

def reject (c : ConnId) (id : UInt64) (code : ErrorCode) : RelayCore :=
  (s.count fun n => { n with circuitsRejected := n.circuitsRejected + 1 }).sendTo c
    (destroyFrame id code.value)

/-- The circuit, its entries and its counts, once nothing stands against it. -/
def addCircuit (c : ConnId) (id : UInt64) (service : ConnId) (serviceId : UInt64)
    (name : String) : RelayCore :=
  let r := s.nextCircuit
  let k : Circuit := {
    client := c, clientId := id, service, serviceId, isOpen := false
    createdAt := e.clock 1, lastActivity := e.clock 2, name }
  let s := s.modifyConn c fun conn =>
    { conn with
      circuits := (conn.circuits.add id r).getD conn.circuits
      pending := conn.pending + 1
      perService := conn.perService.set service ((conn.perService.get service).getD 0 + 1) }
  let s := s.modifyConn service fun conn =>
    { conn with circuits := (conn.circuits.add serviceId r).getD conn.circuits }
  let key := ipKey (s.conn c).ip name
  { s with
    circuit := Function.update s.circuit r k
    nextCircuit := r + 1
    ipService := s.ipService.set key ((s.ipService.get key).getD 0 + 1)
    circuitCount := s.circuitCount + 1 }

/-- `generateCircuitId` until the table has no circuit of that id. It draws until then, so
without such a draw the call is still at it. -/
def drawCircuitId (taken : CircuitTable) (draws : List UInt64) : Option UInt64 :=
  draws.find? fun id => id ≠ 0 && !taken.has id

def createCircuit (c : ConnId) (f : Frame) : RelayCore :=
  let id := f.circuitId
  if id = 0 ∨ f.streamId ≠ 0 then s.violation o c
  else if (s.conn c).circuits.has id then s.violation o c
  else
    let (allowed, ips) := s.ips.allowCreate (s.conn c).ip (e.clock 0)
    let s := { s with ips }
    if !allowed then s.reject c id .RATE_LIMIT
    else if (s.conn c).circuits.atCapacity ∨
        (o.limits.maxPendingPerClient : ℤ) ≤ (s.conn c).pending ∨
        (o.limits.maxCircuits : ℤ) ≤ s.circuitCount then
      s.reject c id .CIRCUIT_LIMIT
    else
      match decodeCircuitCreate f.payload with
      | .error _ =>
        (s.count fun n => { n with protocolViolations := n.protocolViolations + 1 }).reject c id
          .PROTOCOL_VIOLATION
      | .ok create =>
        match s.services.get create.name with
        | none => s.reject c id .CIRCUIT_REJECTED
        | some service =>
          if (s.conn service).closed then s.reject c id .CIRCUIT_REJECTED
          else if (o.limits.maxCircuitsPerClientPerService : ℤ) ≤
                ((s.conn c).perService.get service).getD 0 ∨
              (o.limits.maxCircuitsPerIpPerService : ℤ) ≤
                (s.ipService.get (ipKey (s.conn c).ip create.name)).getD 0 then
            s.reject c id .CIRCUIT_LIMIT
          else if (s.conn service).circuits.atCapacity then s.reject c id .RESOURCE_EXHAUSTED
          else
            match drawCircuitId (s.conn service).circuits e.draws with
            | none => s
            | some serviceId =>
              (s.addCircuit e c id service serviceId create.name).sendTo service
                (createFrame serviceId f)

def receiveFromClient (c : ConnId) (f : Frame) (raw : Bytes) : RelayCore :=
  match f.type with
  | .CIRCUIT_CREATE => s.createCircuit o e c f
  | .STREAM_DATA =>
    match (s.conn c).circuits.get f.circuitId with
    | none => s.unowned
    | some r =>
      if !(s.circuit r).isOpen then
        (s.count fun n => { n with protocolViolations := n.protocolViolations + 1 }).removeCircuit r
          .both ErrorCode.PROTOCOL_VIOLATION.value
      else s.forward o e r .service raw
  | .CIRCUIT_DESTROY =>
    match (s.conn c).circuits.get f.circuitId with
    | none => s.unowned
    | some r => s.removeCircuit r .service DESTROY_NORMAL
  | _ => s.violation o c

/-! ### Frames of a service node -/

def openCircuit (r : CircuitRef) : RelayCore :=
  let client := (s.circuit r).client
  let s := s.modifyCircuit r fun k => { k with isOpen := true }
  let s := s.modifyConn client fun c => { c with pending := c.pending - 1 }
  s.count fun n => { n with circuitsOpened := n.circuitsOpened + 1 }

def receiveFromService (c : ConnId) (f : Frame) (raw : Bytes) : RelayCore :=
  match f.type with
  | .CIRCUIT_CREATED =>
    match (s.conn c).circuits.get f.circuitId with
    | none => s.violation o c
    | some r =>
      if (s.circuit r).isOpen then s.violation o c
      else if f.payload.length ≠ HANDSHAKE_MESSAGE_SIZE ∨ f.streamId ≠ 0 then
        (s.count fun n => { n with protocolViolations := n.protocolViolations + 1 }).removeCircuit r
          .both ErrorCode.PROTOCOL_VIOLATION.value
      else (s.openCircuit r).forward o e r .client raw
  | .STREAM_DATA =>
    match (s.conn c).circuits.get f.circuitId with
    | none => s.unowned
    | some r =>
      if !(s.circuit r).isOpen then s.violation o c else s.forward o e r .client raw
  | .CIRCUIT_DESTROY =>
    match (s.conn c).circuits.get f.circuitId with
    | none => s.unowned
    | some r => s.removeCircuit r .client DESTROY_NORMAL
  | _ => s.violation o c

/-! ### Service-node authentication -/

/-- `verifyService` up to where it waits for the domain key. -/
def startVerification (c : ConnId) (auth : ServiceAuth) : RelayCore :=
  let s := s.modifyConn c fun conn => { conn with state := some .verifying }
  { s with verifications := s.verifications ++ [⟨c, auth.name, auth.chain, auth.signature⟩] }

def receiveUnauthenticated (c : ConnId) (f : Frame) : RelayCore :=
  let failed := s.count fun n => { n with authFailures := n.authFailures + 1 }
  if (s.conn c).state ≠ some .awaitingAuth ∨ f.type ≠ .AUTH ∨ f.circuitId ≠ 0 then
    failed.fail c .AUTH_REQUIRED
  else
    match decodeServiceAuth (o.json f.payload) with
    | .error _ => failed.fail c .PROTOCOL_VIOLATION
    | .ok auth =>
      let (allowed, ips) := s.ips.allowAuth (s.conn c).ip (e.clock 0)
      let s := { s with ips }
      if !allowed then s.authFailed c .RATE_LIMIT else s.startVerification c auth

def authErrorCode : VerifyFailure → ErrorCode
  | .expired => .AUTH_EXPIRED
  | .revoked => .REVOKED
  | _ => .AUTH_FAILED

/-- What the chain is checked for. -/
def serviceOptions (domainKey : PublicKey) (now : ℚ) (name : String) : VerifyOptions where
  trustedRoots := [.raw domainKey.val]
  now := (⌊now / 1000⌋ : ℤ)
  requirePurpose := .SERVICE_NODE
  requireScope := some name

/-- A connection that has proved itself. -/
def enrolled (conn : Connection) (name : String) (domainKey : PublicKey)
    (verified : VerifiedChain) (now : ℚ) : Connection :=
  { conn with
    state := some .ready
    name := some name
    nodeKeyHex := some (toHex verified.subject.val)
    domainKeyHex := some (toHex domainKey.val)
    authNotAfter := some verified.notAfter
    authCheckedAt := some now
    challenge := none }

/-- The connection becomes the one that serves `name`. -/
def enroll (c : ConnId) (name : String) (domainKey : PublicKey) (verified : VerifiedChain)
    (now : ℚ) : RelayCore :=
  { s.modifyConn c fun conn => enrolled conn name domainKey verified now with
    services := s.services.set name c }

/-- The end of `verifyService`, once the node has proved its key. -/
def register (c : ConnId) (name : String) (domainKey : PublicKey) (verified : VerifiedChain) :
    RelayCore :=
  let nodeKeyHex := toHex verified.subject.val
  let incumbent := (s.services.get name).filter fun i => !(s.conn i).closed
  match incumbent.filter fun i => (s.conn i).nodeKeyHex ≠ some nodeKeyHex with
  | some _ => s.authFailed c .ALREADY_REGISTERED -- the incumbent is not evicted
  | none =>
    let s := match incumbent with
      | some i => s.closeConnection i CLOSE_NORMAL "replaced by the same node"
      | none => s
    if o.limits.maxServiceNodes ≤ s.services.size then s.authFailed c .RESOURCE_EXHAUSTED
    else (s.enroll c name domainKey verified (e.clock 1)).send c (encodeFrame { type := .AUTH_OK })

/-- `verifyService` from where it waited: the registry's answer, or none where it failed. -/
def verifyService (v : Verification) (answer : Option PublicKey) : RelayCore :=
  if (s.conn v.conn).closed then s
  else
    match answer with
    | none => s.authFailed v.conn .AUTH_FAILED
    | some domainKey =>
      match verifyChain o.verify v.chain (serviceOptions domainKey (e.clock 0) v.name) with
      | .error _ => s -- thrown, and nobody catches it
      | .ok (.error failure) => s.authFailed v.conn (authErrorCode failure.reason)
      | .ok (.ok verified) =>
        match (s.conn v.conn).challenge with
        | none => s.authFailed v.conn .AUTH_FAILED
        | some challenge =>
          if !verifyServiceAuth o.verify ⟨v.name, o.endpoint, challenge, verified.subject⟩
              v.signature then
            s.authFailed v.conn .AUTH_FAILED
          else s.register o e v.conn v.name domainKey verified

def hexValue (c : Char) : ℕ := ("0123456789abcdef".toList.idxOf? c).getD 0

def hexToBytes : List Char → Bytes
  | a :: b :: rest => UInt8.ofNat (hexValue a * 16 + hexValue b) :: hexToBytes rest
  | _ => []

/-- `recheckDomainKey` from where it waited: nothing where the registry cannot be reached. -/
def recheckDomainKey (c : ConnId) (answer : Option (Option PublicKey)) : RelayCore :=
  match answer with
  | none => s
  | some current =>
    if (s.conn c).closed then s
    else
      match current, (s.conn c).domainKeyHex with
      | some key, some hex =>
        if key.val ≠ hexToBytes hex.toList then s.fail c .REVOKED else s
      | _, _ => s.fail c .REVOKED

/-! ### Dispatch -/

def proveIdentity (c : ConnId) (f : Frame) : RelayCore :=
  if f.circuitId ≠ 0 ∨ f.streamId ≠ 0 ∨ (s.conn c).identityProven then s.violation o c
  else
    match decodeRelayHello f.payload with
    | .error _ => s.fail c .PROTOCOL_VIOLATION
    | .ok nonce =>
      let s := s.modifyConn c fun conn => { conn with identityProven := true }
      match o.signRelayIdentity nonce with
      | none => s.fail c .PROTOCOL_VIOLATION -- caught by the handle
      | some signature =>
        s.send c (encodeFrame {
          type := .HELLO_ACK
          payload := o.publicKey.val ++ signature.val
          payload_le := by
            rw [List.length_append, o.publicKey.property, signature.property]
            decide })

def receive (c : ConnId) (data : Bytes) : RelayCore :=
  if (s.conn c).closed then s
  else if MAX_FRAME_SIZE < data.length then s.fail c .PROTOCOL_VIOLATION CLOSE_TOO_BIG
  else
    match decodeFrame data with
    | .error err => s.fail c err.code
    | .ok f =>
      if f.type = .PING ∧ f.circuitId = 0 then
        s.send c (encodeFrame {
          type := .PONG
          payload := f.payload.take 32
          payload_le := (List.length_take_le 32 _).trans (by decide) })
      else if f.type = .PONG then s
      else if f.type = .HELLO then s.proveIdentity o c f
      else if (s.conn c).kind = .service ∧ (s.conn c).state ≠ some .ready then
        s.receiveUnauthenticated o e c f
      else
        match (s.conn c).kind with
        | .client => s.receiveFromClient o e c f data
        | .service => s.receiveFromService o e c f data

/-! ### Sweep -/

def sweepCircuit (nowMs : ℚ) (r : CircuitRef) : RelayCore :=
  let k := s.circuit r
  if !k.isOpen ∧ o.limits.createTimeoutMs < nowMs - k.createdAt then
    s.removeCircuit r .both ErrorCode.TARGET_UNREACHABLE.value
  else if k.isOpen ∧ o.limits.circuitIdleMs < nowMs - k.lastActivity then
    (s.count fun n => { n with idleDestroys := n.idleDestroys + 1 }).removeCircuit r .both
      ErrorCode.RESOURCE_EXHAUSTED.value
  else s

/-- `authCheckedAt` moves on, and `recheckDomainKey` starts, when it is time. -/
def startRecheck (nowMs : ℚ) (c : ConnId) : RelayCore :=
  if (s.conn c).authCheckedAt.any fun t => o.limits.reauthIntervalMs < nowMs - t then
    let s := s.modifyConn c fun conn => { conn with authCheckedAt := some nowMs }
    if (s.conn c).name.any (· ≠ "") then { s with rechecks := s.rechecks ++ [c] } else s
  else s

def sweepConnection (nowMs : ℚ) (c : ConnId) : RelayCore :=
  if (s.conn c).closed then s
  else if (s.conn c).kind ≠ .service then s
  else if (s.conn c).state ≠ some .ready then
    if o.limits.handshakeTimeoutMs < nowMs - (s.conn c).openedAt then
      s.authFailed c .AUTH_REQUIRED
    else s
  else if (s.conn c).authNotAfter.any fun t => (t.val : ℤ) ≤ ⌊nowMs / 1000⌋ then
    s.fail c .AUTH_EXPIRED
  else
    let s := s.startRecheck o nowMs c
    (s.conn c).circuits.circuits.values.foldl (fun s r => s.sweepCircuit o nowMs r) s

/-- The connections with something buffered, the most first. -/
def bufferedConnections : List (ConnId × ℕ) :=
  (((s.connections.filter fun c => !(s.conn c).closed).map fun c => (c, e.bufferedAmount c)).filter
    fun x => 0 < x.2).insertionSort fun x y => y.2 ≤ x.2

/-- Close the connections holding the most buffered bytes until the total fits the budget. -/
def closeLargest : List (ConnId × ℕ) → ℤ → RelayCore → RelayCore
  | [], _, s => s
  | (c, buffered) :: rest, total, s =>
    if total ≤ o.limits.globalBufferLimit then s
    else
      let s := s.count fun n => { n with memoryCloses := n.memoryCloses + 1 }
      closeLargest rest (total - buffered) (s.fail c .RESOURCE_EXHAUSTED CLOSE_TRY_LATER)

def enforceGlobalBuffer : RelayCore :=
  let sized := s.bufferedConnections e
  closeLargest o sized ((sized.map Prod.snd).sum : ℕ) s

def sweep : RelayCore :=
  let nowMs := e.clock 0
  let s := s.connections.foldl (fun s c => s.sweepConnection o nowMs c) s
  let s := s.enforceGlobalBuffer o e
  { s with ips := s.ips.sweep nowMs }

end RelayCore

/-! ### What can happen -/

inductive Event
  /-- `admit`, and the connection right after it where it was admitted. -/
  | connect (kind : Kind) (ip : String)
  /-- An `admit` whose upgrade is still to fail, or to be released. -/
  | admitIp (ip : String)
  | releaseAdmission (ip : String)
  | receive (c : ConnId) (data : Bytes)
  | closed (c : ConnId)
  | sweep
  /-- The registry answers the `i`-th verification that waits. -/
  | verified (i : ℕ) (answer : Option PublicKey)
  /-- The registry answers the `i`-th recheck that waits, or cannot be reached. -/
  | rechecked (i : ℕ) (answer : Option (Option PublicKey))

open RelayCore in
def step (o : RelayCoreOptions) (s : RelayCore) (x : Env × Event) : RelayCore :=
  let e := x.1
  match x.2 with
  | .connect kind ip =>
    match s.admitIp o e ip with
    | (false, s) => s
    | (true, s) =>
      match kind with
      | .client => s.acceptClient o ip (e.clock 1)
      | .service => s.acceptService o e ip (e.clock 1)
  | .admitIp ip => (s.admitIp o e ip).2
  | .releaseAdmission ip => s.releaseAdmission ip
  | .receive c data => s.receive o e c data
  | .closed c => s.onTransportClosed c
  | .sweep => s.sweep o e
  | .verified i answer =>
    match s.verifications[i]? with
    | none => s
    | some v =>
      RelayCore.verifyService o e { s with verifications := s.verifications.eraseIdx i } v answer
  | .rechecked i answer =>
    match s.rechecks[i]? with
    | none => s
    | some c => RelayCore.recheckDomainKey { s with rechecks := s.rechecks.eraseIdx i } c answer

end Tnp.Relay
