import Mathlib.Data.Rat.Floor
import Tnp.Lib.OrderedMap

/-!
The bounds a relay enforces, and what it counts per address.

Times are milliseconds and tokens are fractions of one, exact here.
-/

namespace Tnp.Relay

open Tnp.Lib

structure RelayLimits where
  maxConnections : ℕ := 4096
  maxConnectionsPerIp : ℕ := 32
  connectBurstPerIp : ℚ := 30
  connectRefillPerSecondPerIp : ℚ := 1
  maxCircuitsPerClient : ℕ := 64
  maxPendingPerClient : ℕ := 32
  maxCircuitsPerService : ℕ := 256
  maxCircuitsPerClientPerService : ℕ := 16
  maxCircuitsPerIpPerService : ℕ := 16
  circuitIdleMs : ℚ := 15 * 60000
  globalBufferLimit : ℕ := 512 * 1024 * 1024
  authBurstPerIp : ℚ := 10
  authRefillPerSecondPerIp : ℚ := 1 / 5
  maxCircuits : ℕ := 32768
  maxServiceNodes : ℕ := 4096
  createBurstPerIp : ℚ := 128
  createRefillPerSecondPerIp : ℚ := 32
  clientBufferLimit : ℕ := 64 * (256 * 1024) + 1024 * 1024
  serviceBufferLimit : ℕ := 256 * (256 * 1024) + 1024 * 1024
  handshakeTimeoutMs : ℚ := 10000
  createTimeoutMs : ℚ := 10000
  maxViolations : ℕ := 64
  maxTrackedIps : ℕ := 65536
  reauthIntervalMs : ℚ := 10 * 60000

structure TokenBucket where
  capacity : ℚ
  refillPerSecond : ℚ
  tokens : ℚ
  last : ℚ

namespace TokenBucket

def full (capacity refillPerSecond now : ℚ) : TokenBucket :=
  ⟨capacity, refillPerSecond, capacity, now⟩

variable (b : TokenBucket) (now : ℚ)

def refill : TokenBucket :=
  let elapsed := max 0 (now - b.last) / 1000
  { b with last := now, tokens := min b.capacity (b.tokens + elapsed * b.refillPerSecond) }

def take : Bool × TokenBucket :=
  let b := b.refill now
  if b.tokens < 1 then (false, b) else (true, { b with tokens := b.tokens - 1 })

/-- `full`, of a bucket in use. -/
def isFull : Bool × TokenBucket :=
  let b := b.refill now
  (decide (b.capacity ≤ b.tokens), b)

end TokenBucket

structure IpEntry where
  connections : ℕ
  connect : TokenBucket
  create : TokenBucket
  auth : TokenBucket

/-- What `sweep` asks of an entry: nothing held and nothing refilling. A bucket is refilled
only where the ones before it were full. -/
def IpEntry.idle (e : IpEntry) (now : ℚ) : Bool × IpEntry :=
  if e.connections ≠ 0 then (false, e)
  else
    let (full, connect) := e.connect.isFull now
    let e := { e with connect }
    if !full then (false, e)
    else
      let (full, create) := e.create.isFull now
      let e := { e with create }
      if !full then (false, e)
      else
        let (full, auth) := e.auth.isFull now
        (full, { e with auth })

inductive Verdict
  | ok
  | rate
  | perIp
  | tableFull
  deriving DecidableEq

structure IpTracker where
  entries : OrderedMap String IpEntry := {}

namespace IpTracker

variable (limits : RelayLimits) (t : IpTracker) (ip : String) (now : ℚ)

def sweep : IpTracker :=
  (t.entries.entries.map Prod.fst).foldl (fun t ip =>
    match t.entries.get ip with
    | none => t
    | some entry =>
      let (idle, entry) := entry.idle now
      ⟨if idle then t.entries.delete ip else t.entries.set ip entry⟩) t

def newEntry : IpEntry where
  connections := 0
  connect := .full limits.connectBurstPerIp limits.connectRefillPerSecondPerIp now
  create := .full limits.createBurstPerIp limits.createRefillPerSecondPerIp now
  auth := .full limits.authBurstPerIp limits.authRefillPerSecondPerIp now

/-- The entry of an address that has one, or can be given one. -/
def entryFor : IpTracker × Option IpEntry :=
  match t.entries.get ip with
  | some entry => (t, some entry)
  | none =>
    let t := if limits.maxTrackedIps ≤ t.entries.size then t.sweep now else t
    if limits.maxTrackedIps ≤ t.entries.size then (t, none)
    else
      let entry := newEntry limits now
      (⟨t.entries.set ip entry⟩, some entry)

def admitIp : Verdict × IpTracker :=
  match t.entryFor limits ip now with
  | (t, none) => (.tableFull, t)
  | (t, some entry) =>
    if limits.maxConnectionsPerIp ≤ entry.connections then (.perIp, t)
    else
      let (taken, connect) := entry.connect.take now
      let entry := { entry with connect }
      if !taken then (.rate, ⟨t.entries.set ip entry⟩)
      else (.ok, ⟨t.entries.set ip { entry with connections := entry.connections + 1 }⟩)

def release : IpTracker :=
  match t.entries.get ip with
  | none => t
  | some entry =>
    if 0 < entry.connections then
      ⟨t.entries.set ip { entry with connections := entry.connections - 1 }⟩
    else t

/-- One CIRCUIT_CREATE. -/
def allowCreate : Bool × IpTracker :=
  match t.entries.get ip with
  | none => (false, t)
  | some entry =>
    let (taken, create) := entry.create.take now
    (taken, ⟨t.entries.set ip { entry with create }⟩)

/-- One AUTH. -/
def allowAuth : Bool × IpTracker :=
  match t.entries.get ip with
  | none => (false, t)
  | some entry =>
    let (taken, auth) := entry.auth.take now
    (taken, ⟨t.entries.set ip { entry with auth }⟩)

end IpTracker

end Tnp.Relay
