import Tnp.Crypto.Utf16
import Tnp.Exit.Reconcile
import Tnp.Lib.Binary64
import Tnp.Lib.Run
import Tnp.Namespace.Calendar

/-!
The monthly traffic cap of an exit: counting, what is kept in the file, and the throttle.

Counts are doubles, and times milliseconds. A tick may be cut short between any two of its steps.
-/

namespace Tnp.Exit.TrafficCap

open Tnp.Lib Tnp.Crypto Tnp.Namespace Tnp.Exit

def BYTES_PER_GB : ℕ := 1000000000

/-- `tnp_exit_cap`. -/
def CAP_TABLE : String := "tnp_exit_cap"

/-- The cap in bytes is a whole number of GB, and at most a million of them. -/
structure CapSettings where
  capBytes : ℕ
  throttleMbit : ℕ

structure CapState where
  month : String
  bytes : ℕ
  lastRx : SafeUint
  lastTx : SafeUint
  bootId : String
  warned : Bool
  deriving DecidableEq

/-- The counters are checked as they are read. -/
structure CounterReading where
  rx : SafeUint
  tx : SafeUint
  bootId : String

inductive CapLevel
  | ok
  | warn
  | capped
  deriving DecidableEq, Repr

def monthKey (now : ℤ) : String := String.ofList ((toISOString now).toList.take 7)

/-! ### The file -/

/-- `MONTH_RE`. -/
def isMonth (month : String) : Bool :=
  match month.toList with
  | [a, b, c, d, '-', m, n] =>
    [a, b, c, d].all Char.isDigit &&
      (m == '0' && '1' ≤ n && n ≤ '9' || m == '1' && '0' ≤ n && n ≤ '2')
  | _ => false

/-- `isCount`. -/
def count : Value → Option SafeUint
  | .number x => safeUint x
  | _ => none

/-- What was persisted, where the file holds JSON. -/
def parseCapState (file : Option Value) : Option CapState :=
  match file with
  | some (.object r) =>
    match Value.field r "month", count (Value.field r "bytes"), count (Value.field r "lastRx"),
        count (Value.field r "lastTx"), Value.field r "bootId", Value.field r "warned" with
    | .string month, some bytes, some lastRx, some lastTx, .string bootId, .bool warned =>
      if isMonth month && (units bootId).length ≤ 64 then
        some ⟨month, bytes.val, lastRx, lastTx, bootId, warned⟩
      else none
    | _, _, _, _, _, _ => none
  | _ => none

/-- What `JSON.stringify` writes is parsed to. -/
def CapState.value (state : CapState) : Value :=
  .object [("month", .string state.month), ("bytes", .number state.bytes),
    ("lastRx", .number state.lastRx.val), ("lastTx", .number state.lastTx.val),
    ("bootId", .string state.bootId), ("warned", .bool state.warned)]

/-! ### Counting -/

/-- The counters were set back since the last reading. -/
def restarted (state : CapState) (reading : CounterReading) : Bool :=
  reading.bootId ≠ state.bootId || reading.rx.val < state.lastRx.val ||
    reading.tx.val < state.lastTx.val

def advanceCap (state : Option CapState) (reading : CounterReading) (now : ℤ) : CapState :=
  let month := monthKey now
  match state with
  | none => ⟨month, 0, reading.rx, reading.tx, reading.bootId, false⟩
  | some state =>
    let delta :=
      if restarted state reading then Binary64.add reading.rx.val reading.tx.val
      else
        Binary64.add (reading.rx.val - state.lastRx.val) (reading.tx.val - state.lastTx.val)
    let sameMonth := state.month = month
    { month := month
      bytes := Binary64.add (if sameMonth then state.bytes else 0) delta
      lastRx := reading.rx
      lastTx := reading.tx
      bootId := reading.bootId
      warned := if sameMonth then state.warned else false }

/-- Four fifths of a whole number of GB is exact as a double. -/
def capLevel (state : CapState) (settings : CapSettings) : CapLevel :=
  if settings.capBytes ≤ state.bytes then .capped
  else if settings.capBytes * 4 ≤ state.bytes * 5 then .warn
  else .ok

/-! ### The throttle -/

def lines (parts : List String) : String :=
  String.ofList (['\n'].intercalate (parts.map String.toList))

/-- `none` is a `RangeError`. -/
def throttleRuleset (wgInterface : String) (throttleMbit : ℕ) : Option String :=
  if !matchesIface wgInterface then none
  else if throttleMbit < 1 ∨ 10000 < throttleMbit then none
  else
    let kbytes := toString (throttleMbit * 125)
    let policer := "limit rate over " ++ kbytes ++ " kbytes/second burst " ++ kbytes ++
      " kbytes counter name throttled drop"
    some (lines
      ["table inet " ++ CAP_TABLE, "delete table inet " ++ CAP_TABLE,
        "table inet " ++ CAP_TABLE ++ " \x7b", "  counter throttled \x7b\x7d",
        "  chain forward \x7b",
        "    type filter hook forward priority filter + 10; policy accept;",
        "    iifname \"" ++ wgInterface ++ "\" " ++ policer,
        "    oifname \"" ++ wgInterface ++ "\" " ++ policer, "  \x7d", "\x7d", ""])

def unthrottleRuleset : String :=
  lines ["table inet " ++ CAP_TABLE, "delete table inet " ++ CAP_TABLE, ""]

/-- The packet filter of a kernel, whose scripts are applied whole or not at all. -/
structure Nft (κ : Type*) where
  boot : κ
  load : String → κ → κ
  hasCapTable : κ → Bool
  load_throttle : ∀ wgInterface throttleMbit script k,
    throttleRuleset wgInterface throttleMbit = some script → hasCapTable (load script k) = true
  load_unthrottle : ∀ k, hasCapTable (load unthrottleRuleset k) = false
  boot_clear : hasCapTable boot = false

structure Deps (κ : Type*) where
  settings : CapSettings
  wgInterface : String
  nft : Nft κ

/-! ### The agent -/

/-- How far a tick has come. -/
inductive Phase
  /-- None is under way; the last one failed, if there was one. -/
  | idle
  | read (next : CapState)
  | logged (next : CapState)
  /-- Persisted; `nft` is run if it has to be. -/
  | saved (level : CapLevel)
  /-- `nft` has succeeded. -/
  | told (level : CapLevel)
  /-- The tick has completed. -/
  | done (level : CapLevel)
  deriving DecidableEq

structure Agent where
  state : Option CapState
  throttled : Option Bool := none
  phase : Phase := .idle

/-- What becomes of a run of `nft`: it may fail, or be stopped at its time limit, when the kernel
has taken the script already. -/
inductive NftOutcome
  | ok
  | failed
  | failedApplied
  deriving DecidableEq, Repr

structure World (κ : Type*) where
  clock : ℤ
  file : Option Value
  kernel : κ
  agent : Option Agent := none
  /-- What was persisted and when, latest first. Remembered for the claims only, as are the rest. -/
  trail : List (ℤ × CapState) := []
  warnings : List ℤ := []
  /-- Since `nft` last succeeded for this agent, one that failed has been applied. -/
  unsure : Bool := false

inductive Event
  | start
  | tick (now : ℤ) (reading : CounterReading)
  | warn
  | save
  | nft (outcome : NftOutcome)
  | settle
  /-- The agent ends while it waits. -/
  | stop
  | crash
  | reboot

namespace World

variable {κ : Type*} (d : Deps κ) (w : World κ)

def start : World κ :=
  match w.agent with
  | some _ => w
  | none => { w with agent := some ⟨parseCapState w.file, none, .idle⟩, unsure := false }

def tick (now : ℤ) (reading : CounterReading) : World κ :=
  match w.agent with
  | some ⟨state, throttled, .idle⟩ | some ⟨state, throttled, .done _⟩ =>
    if w.clock ≤ now then
      { w with
        clock := now
        agent := some ⟨state, throttled, .read (advanceCap state reading now)⟩ }
    else w
  | _ => w

def warn : World κ :=
  match w.agent with
  | some ⟨state, throttled, .read next⟩ =>
    if capLevel next d.settings ≠ .ok ∧ next.warned = false then
      { w with
        warnings := w.clock :: w.warnings
        agent := some ⟨state, throttled, .logged { next with warned := true }⟩ }
    else { w with agent := some ⟨state, throttled, .logged next⟩ }
  | _ => w

def save : World κ :=
  match w.agent with
  | some ⟨_, throttled, .logged next⟩ =>
    { w with
      file := some next.value
      trail := (w.clock, next) :: w.trail
      agent := some ⟨some next, throttled, .saved (capLevel next d.settings)⟩ }
  | _ => w

/-- The script for a level. -/
def script (throttle : Bool) : Option String :=
  if throttle then throttleRuleset d.wgInterface d.settings.throttleMbit
  else some unthrottleRuleset

def nft (outcome : NftOutcome) : World κ :=
  match w.agent with
  | some ⟨state, throttled, .saved level⟩ =>
    if throttled = some (level = .capped : Bool) then
      { w with agent := some ⟨state, throttled, .done level⟩ }
    else
      match script d (level = .capped), outcome with
      | some script, .ok =>
        { w with
          kernel := d.nft.load script w.kernel
          agent := some ⟨state, throttled, .told level⟩ }
      | some script, .failedApplied =>
        { w with
          kernel := d.nft.load script w.kernel
          agent := some ⟨state, throttled, .idle⟩
          unsure := true }
      | _, _ => { w with agent := some ⟨state, throttled, .idle⟩ }
  | _ => w

def settle : World κ :=
  match w.agent with
  | some ⟨state, _, .told level⟩ =>
    { w with agent := some ⟨state, some (level = .capped), .done level⟩, unsure := false }
  | _ => w

def stop : World κ :=
  match w.agent with
  | some ⟨_, _, .idle⟩ | some ⟨_, _, .saved _⟩ | some ⟨_, _, .done _⟩ => { w with agent := none }
  | _ => w

def reboot : World κ :=
  match w.agent with
  | none => { w with kernel := d.nft.boot }
  | some _ => w

def step (w : World κ) : Event → World κ
  | .start => w.start
  | .tick now reading => w.tick now reading
  | .warn => w.warn d
  | .save => w.save d
  | .nft outcome => w.nft d outcome
  | .settle => w.settle
  | .stop => w.stop
  | .crash => { w with agent := none }
  | .reboot => w.reboot d

end World

end Tnp.Exit.TrafficCap
