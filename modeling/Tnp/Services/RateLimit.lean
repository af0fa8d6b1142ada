import Mathlib.Algebra.Order.Floor.Ring
import Mathlib.Data.Rat.Floor
import Tnp.Lib.OrderedMap
import Tnp.Services.NamecheapClient

/-!
The quota of a provider account, shared by every replica through three rows of the database.

An acquire is a transaction: it makes the rows of its windows where they are missing, locks them
one by one, counts itself in if each has room, and commits. Its windows are those of the instant
at which it began. Other transactions take their steps between its own, and any delay may lie
between two of them.
-/

namespace Tnp.Services

open Tnp.Lib

inductive Window
  | minute | hour | day
  deriving DecidableEq

/-- The windows in the order in which the type of their column lists them. -/
def WINDOWS : List Window := [.minute, .hour, .day]

lemma mem_windows (w : Window) : w ∈ WINDOWS := by cases w <;> decide

/-- Rounding to a double. -/
structure Doubles where
  round : ℚ → ℚ
  mono : Monotone round
  exact : ∀ n : ℕ, n ≤ 2 ^ 53 → round n = n

structure QuotaLimits where
  perMinute : ℕ
  perHour : ℕ
  perDay : ℕ
  /-- The share kept for calls that are critical. -/
  criticalReserve : ℚ
  isShare : 0 ≤ criticalReserve ∧ criticalReserve ≤ 1
  isSafe : perMinute ≤ 2 ^ 53 ∧ perHour ≤ 2 ^ 53 ∧ perDay ≤ 2 ^ 53

def QuotaLimits.limit (l : QuotaLimits) : Window → ℕ
  | .minute => l.perMinute
  | .hour => l.perHour
  | .day => l.perDay

def FALLBACK_LIMITS : QuotaLimits where
  perMinute := 10
  perHour := 100
  perDay := 1000
  criticalReserve := 1 / 5
  isShare := by norm_num
  isSafe := by norm_num

/-- `Math.floor(limit * (1 - reserve))` for calls that are interactive. -/
def capacityFor (doubles : Doubles) (limit : ℕ) (priority : QuotaPriority) (reserve : ℚ) : ℤ :=
  match priority with
  | .critical => limit
  | .interactive => ⌊doubles.round (limit * doubles.round (1 - reserve))⌋

/-! ### The rows -/

structure Key where
  account : String
  window : Window
  start : ℤ
  deriving DecidableEq

/-- A committed row. A row that was deleted and made again is another one. -/
structure Row where
  serial : ℕ
  count : ℕ
  deriving DecidableEq

inductive Phase where
  /-- The rows still to be made, in order. -/
  | inserting (todo : List Window)
  /-- The rows that the select found and has still to lock; an own row has no serial yet. -/
  | locking (todo : List (Window × Option ℕ))
  /-- The counts are raised, and only the commit is missing. -/
  | updated
  deriving DecidableEq

structure Acquire where
  account : String
  priority : QuotaPriority
  limits : QuotaLimits
  /-- `now()` of the transaction. -/
  began : ℤ
  inserted : List Window := []
  read : List (Window × ℕ) := []
  phase : Phase := .inserting WINDOWS

/-- A committed acquire. -/
structure Grant where
  account : String
  priority : QuotaPriority
  began : ℤ
  committed : ℤ
  deriving DecidableEq

structure Gate where
  clock : ℤ := 0
  rows : Key → Option Row := fun _ => none
  serial : ℕ := 0
  acquires : OrderedMap ℕ Acquire := {}
  grants : List Grant := []

inductive Event where
  | tick (t : ℤ)
  | begin (id : ℕ) (account : String) (priority : QuotaPriority)
  | insert (id : ℕ)
  | select (id : ℕ)
  | lock (id : ℕ)
  | check (id : ℕ)
  | commit (id : ℕ)
  /-- The connection is lost, or the database breaks a deadlock. -/
  | abort (id : ℕ)
  /-- A pruning transaction that began at some instant deletes a row. -/
  | prune (began : ℤ) (key : Key)
  deriving DecidableEq

/-- Two days in microseconds. -/
def RETENTION : ℤ := 2 * 86400000000

/-- The database's clock arithmetic, its doubles, and the limits of each account that exists. -/
structure Setting where
  /-- `date_trunc` in the time zone of the session. -/
  dateTrunc : Window → ℤ → ℤ
  doubles : Doubles
  limitsOf : String → Option QuotaLimits

variable (σ : Setting)

def Acquire.key (a : Acquire) (w : Window) : Key := ⟨a.account, w, σ.dateTrunc w a.began⟩

/-- The transaction has made the row of a key and not committed it. -/
def Acquire.makes (a : Acquire) (k : Key) : Bool :=
  a.key σ k.window = k && a.inserted.contains k.window

/-- The transaction has the row of a key under its lock. -/
def Acquire.locks (a : Acquire) (k : Key) : Bool :=
  a.key σ k.window = k && (a.read.map Prod.fst).contains k.window

/-- Another transaction than this one does. -/
def Gate.elsewhere (s : Gate) (id : ℕ) (p : Acquire → Bool) : Bool :=
  s.acquires.entries.any fun e => e.1 ≠ id && p e.2

def Acquire.capacity (a : Acquire) (w : Window) : ℤ :=
  capacityFor σ.doubles (a.limits.limit w) a.priority a.limits.criticalReserve

/-- Every row was found, and has room. -/
def Acquire.admitted (a : Acquire) : Bool :=
  WINDOWS.all fun w => (a.read.lookup w).any fun count : ℕ => (count : ℤ) < a.capacity σ w

/-! ### The statements of the transaction -/

/-- `insert … on conflict do nothing`, one row of it. It waits for another's uncommitted row. -/
def Gate.insert (s : Gate) (id : ℕ) (a : Acquire) : Gate :=
  match a.phase with
  | .inserting (w :: todo) =>
    if (s.rows (a.key σ w)).isSome then
      { s with acquires := s.acquires.set id { a with phase := .inserting todo } }
    else if s.elsewhere id fun b => b.makes σ (a.key σ w) then s
    else
      { s with
        acquires := s.acquires.set id
          { a with inserted := w :: a.inserted, phase := .inserting todo } }
  | _ => s

/-- What `select … for update` sees when it starts: own rows, and those that are committed. -/
def Gate.found (s : Gate) (a : Acquire) : List (Window × Option ℕ) :=
  WINDOWS.filterMap fun w =>
    if a.inserted.contains w then some (w, none)
    else (s.rows (a.key σ w)).map fun row => (w, some row.serial)

def Gate.select (s : Gate) (id : ℕ) (a : Acquire) : Gate :=
  match a.phase with
  | .inserting [] =>
    { s with acquires := s.acquires.set id { a with phase := .locking (s.found σ a) } }
  | _ => s

/-- The next row is locked and its count read. A row that is gone is passed over. -/
def Gate.lock (s : Gate) (id : ℕ) (a : Acquire) : Gate :=
  match a.phase with
  | .locking ((w, none) :: todo) =>
    { s with
      acquires := s.acquires.set id { a with read := a.read ++ [(w, 0)], phase := .locking todo } }
  | .locking ((w, some serial) :: todo) =>
    match s.rows (a.key σ w) with
    | some row =>
      if row.serial ≠ serial then
        { s with acquires := s.acquires.set id { a with phase := .locking todo } }
      else if s.elsewhere id fun b => b.locks σ (a.key σ w) then s
      else
        { s with
          acquires := s.acquires.set id
            { a with read := a.read ++ [(w, row.count)], phase := .locking todo } }
    | none => { s with acquires := s.acquires.set id { a with phase := .locking todo } }
  | _ => s

/-- The counts are raised if every window has room; else the transaction is rolled back. -/
def Gate.check (s : Gate) (id : ℕ) (a : Acquire) : Gate :=
  match a.phase with
  | .locking [] =>
    if a.admitted σ then { s with acquires := s.acquires.set id { a with phase := .updated } }
    else { s with acquires := s.acquires.delete id }
  | _ => s

/-- The row of a key after a transaction has counted itself in. -/
def Gate.counted (s : Gate) (a : Acquire) (k : Key) : Option Row :=
  if a.locks σ k then
    (a.read.lookup k.window).map fun count =>
      ⟨if a.inserted.contains k.window then s.serial else ((s.rows k).map Row.serial).getD 0,
        count + 1⟩
  else s.rows k

def Gate.commit (s : Gate) (id : ℕ) (a : Acquire) : Gate :=
  match a.phase with
  | .updated =>
    { s with
      rows := s.counted σ a
      serial := s.serial + 1
      acquires := s.acquires.delete id
      grants := ⟨a.account, a.priority, a.began, s.clock⟩ :: s.grants }
  | _ => s

def step (s : Gate) : Event → Gate
  | .tick t => { s with clock := max s.clock t }
  | .begin id account priority =>
    match s.acquires.get id, σ.limitsOf account with
    | none, some limits =>
      { s with acquires := s.acquires.set id { account, priority, limits, began := s.clock } }
    | _, _ => s
  | .insert id => ((s.acquires.get id).map (s.insert σ id)).getD s
  | .select id => ((s.acquires.get id).map (s.select σ id)).getD s
  | .lock id => ((s.acquires.get id).map (s.lock σ id)).getD s
  | .check id => ((s.acquires.get id).map (s.check σ id)).getD s
  | .commit id => ((s.acquires.get id).map (s.commit σ id)).getD s
  | .abort id => { s with acquires := s.acquires.delete id }
  | .prune began key =>
    if began ≤ s.clock ∧ key.start + RETENTION < began ∧
        ¬ s.acquires.entries.any fun e => e.2.locks σ key then
      { s with rows := fun k => if k = key then none else s.rows k }
    else s

end Tnp.Services
