import Tnp.Lib.OrderedMap
import Tnp.Lib.Run

/-!
The lock file that processes share, one file system call at a time.

Times are milliseconds, by the one clock of the device. A waiter that finds the file too old takes
its holder for crashed and unlinks it, some time after it looked.
-/

namespace Tnp.Client.WithLock

open Tnp.Lib Tnp.Lib.Run

/-- `SLOW_WRITES` is Windows. -/
structure Platform where
  SLOW_WRITES : Bool := false

/-- A lock older than this is a crashed holder's and is broken. -/
def Platform.STALE_LOCK_MS (platform : Platform) : ℕ :=
  if platform.SLOW_WRITES then 60000 else 10000

/-- How long to wait for another process's lock before giving up. -/
def Platform.LOCK_WAIT_MS (platform : Platform) : ℕ :=
  if platform.SLOW_WRITES then 30000 else 5000

abbrev Pid := ℕ

abbrev Inode := ℕ

inductive Stage
  /-- The file is created, the process number not yet written. -/
  | created
  | running
  /-- `fn` has returned or thrown, the file is closed. -/
  | leaving
  deriving DecidableEq

inductive Phase
  /-- About to create the file. -/
  | trying (deadline : ℕ)
  | contended (deadline : ℕ)
  /-- `Date.now()` is read, the file not yet looked at. -/
  | looking (deadline clock : ℕ)
  /-- The file seen is stale, and about to be unlinked. -/
  | breaking (deadline : ℕ) (seen : Inode)
  | sleeping (deadline wakesAt : ℕ)
  | holding (stage : Stage) (inode : Inode) (since : ℕ)
  | crashed
  deriving DecidableEq

namespace Phase

/-- Without the lock, and not crashed. -/
def waiting : Phase → Bool
  | holding .. | crashed => false
  | _ => true

/-- Waiting, and nothing seen of the file that counts. -/
def plain : Phase → Bool
  | trying _ | contended _ | sleeping .. => true
  | _ => false

end Phase

structure LockFile where
  inode : Inode
  creator : Pid
  mtimeMs : ℕ
  deriving DecidableEq

structure State where
  now : ℕ := 0
  lockPath : Option LockFile := none
  /-- The processes that are in `withLock`, or crashed. -/
  processes : OrderedMap Pid Phase := ⟨[], List.nodup_nil⟩
  nextInode : Inode := 0

inductive Event
  | tick (ms : ℕ)
  | enter (p : Pid)
  /-- The exclusive create. -/
  | create (p : Pid)
  /-- The create fails on a file that is being deleted, which only Windows does. -/
  | pending (p : Pid)
  /-- The create fails otherwise, which is thrown. -/
  | fail (p : Pid)
  /-- The deadline is checked, and the clock read. -/
  | check (p : Pid)
  | stat (p : Pid)
  | unlink (p : Pid)
  | wake (p : Pid)
  | write (p : Pid)
  /-- `fn` ends, or the write before it throws. -/
  | leave (p : Pid)
  /-- The unlink of the holder. -/
  | release (p : Pid)
  | crash (p : Pid)

namespace State

variable (platform : Platform) (s : State)

def phase (p : Pid) (phase : Phase) : State := { s with processes := s.processes.set p phase }

/-- The process is out of `withLock`. -/
def out (p : Pid) : State := { s with processes := s.processes.delete p }

def create (p : Pid) (deadline : ℕ) : State :=
  match s.lockPath with
  | some _ => s.phase p (.contended deadline)
  | none =>
    { s.phase p (.holding .created s.nextInode s.now) with
      lockPath := some ⟨s.nextInode, p, s.now⟩
      nextInode := s.nextInode + 1 }

def stat (p : Pid) (deadline clock : ℕ) : State :=
  match s.lockPath with
  | none => s.phase p (.trying deadline)
  | some f =>
    if platform.STALE_LOCK_MS < clock - f.mtimeMs then s.phase p (.breaking deadline f.inode)
    else s.phase p (.sleeping deadline (s.now + 10))

/-- A write through the descriptor reaches the file at the path only while it is the same file. -/
def touch (inode : Inode) : State :=
  { s with
    lockPath :=
      s.lockPath.map fun f => if f.inode = inode then { f with mtimeMs := s.now } else f }

def act : Event → Option Phase → State
  | .enter p, none => s.phase p (.trying (s.now + platform.LOCK_WAIT_MS))
  | .create p, some (.trying deadline) => s.create p deadline
  | .pending p, some (.trying deadline) =>
    if platform.SLOW_WRITES then s.phase p (.contended deadline) else s
  | .fail p, some (.trying _) => s.out p
  | .check p, some (.contended deadline) =>
    if deadline < s.now then s.out p else s.phase p (.looking deadline s.now)
  | .stat p, some (.looking deadline clock) => s.stat platform p deadline clock
  | .unlink p, some (.breaking deadline _) =>
    { s.phase p (.trying deadline) with lockPath := none }
  | .wake p, some (.sleeping deadline wakesAt) =>
    if wakesAt ≤ s.now then s.phase p (.trying deadline) else s
  | .write p, some (.holding .created inode since) =>
    (s.touch inode).phase p (.holding .running inode since)
  | .leave p, some (.holding .created inode since) => s.phase p (.holding .leaving inode since)
  | .leave p, some (.holding .running inode since) => s.phase p (.holding .leaving inode since)
  | .release p, some (.holding .leaving _ _) => { s.out p with lockPath := none }
  | .crash _, some .crashed => s
  | .crash p, some _ => s.phase p .crashed
  | _, _ => s

end State

def Event.process : Event → Option Pid
  | tick _ => none
  | enter p | create p | pending p | fail p | check p | stat p | unlink p | wake p | write p
  | leave p | release p | crash p => some p

def step (platform : Platform) (s : State) : Event → State
  | .tick ms => { s with now := s.now + ms }
  | e => s.act platform e (e.process.bind s.processes.get)

/-! ### What one call can do -/

inductive Move (platform : Platform) (s : State) : Event → State → Prop
  | still (e : Event) : Move platform s e s
  | tick (ms : ℕ) : Move platform s (.tick ms) { s with now := s.now + ms }
  | enter (p : Pid) (h : s.processes.get p = none) :
      Move platform s (.enter p) (s.phase p (.trying (s.now + platform.LOCK_WAIT_MS)))
  /-- What a waiter does, except to look at the file and to break it. -/
  | wait (e : Event) (p : Pid) (before after : Phase) (h : s.processes.get p = some before)
      (hbefore : before.waiting = true) (hafter : after.plain = true) :
      Move platform s e (s.phase p after)
  | look (p : Pid) (deadline : ℕ) (h : s.processes.get p = some (.contended deadline)) :
      Move platform s (.check p) (s.phase p (.looking deadline s.now))
  | judge (p : Pid) (deadline clock : ℕ) (f : LockFile)
      (h : s.processes.get p = some (.looking deadline clock)) (hfile : s.lockPath = some f)
      (hstale : platform.STALE_LOCK_MS < clock - f.mtimeMs) :
      Move platform s (.stat p) (s.phase p (.breaking deadline f.inode))
  | out (e : Event) (p : Pid) (before : Phase) (h : s.processes.get p = some before)
      (hbefore : before.waiting = true) : Move platform s e (s.out p)
  | create (p : Pid) (deadline : ℕ) (h : s.processes.get p = some (.trying deadline))
      (hfile : s.lockPath = none) :
      Move platform s (.create p)
        { s.phase p (.holding .created s.nextInode s.now) with
          lockPath := some ⟨s.nextInode, p, s.now⟩
          nextInode := s.nextInode + 1 }
  | unlink (p : Pid) (deadline : ℕ) (seen : Inode)
      (h : s.processes.get p = some (.breaking deadline seen)) :
      Move platform s (.unlink p) { s.phase p (.trying deadline) with lockPath := none }
  | write (p : Pid) (inode : Inode) (since : ℕ)
      (h : s.processes.get p = some (.holding .created inode since)) :
      Move platform s (.write p) ((s.touch inode).phase p (.holding .running inode since))
  | leave (p : Pid) (stage : Stage) (inode : Inode) (since : ℕ)
      (h : s.processes.get p = some (.holding stage inode since)) :
      Move platform s (.leave p) (s.phase p (.holding .leaving inode since))
  | release (p : Pid) (inode : Inode) (since : ℕ)
      (h : s.processes.get p = some (.holding .leaving inode since)) :
      Move platform s (.release p) { s.out p with lockPath := none }
  | crash (p : Pid) (before : Phase) (h : s.processes.get p = some before)
      (hbefore : before ≠ .crashed) :
      Move platform s (.crash p) (s.phase p .crashed)

lemma move_act {platform : Platform} {s : State} {e : Event} {p : Pid} {before : Option Phase}
    (hp : e.process = some p) (hbefore : s.processes.get p = before) :
    Move platform s e (s.act platform e before) := by
  unfold State.act
  split <;> try obtain rfl := Option.some.inj hp
  · exact .enter _ hbefore
  · next deadline =>
    unfold State.create
    split
    · exact .wait _ _ _ _ hbefore rfl rfl
    · next hfile => exact .create _ deadline hbefore hfile
  · split
    · exact .wait _ _ _ _ hbefore rfl rfl
    · exact .still _
  · exact .out _ _ _ hbefore rfl
  · split
    · exact .out _ _ _ hbefore rfl
    · exact .look _ _ hbefore
  · next deadline clock =>
    unfold State.stat
    split
    · exact .wait _ _ _ _ hbefore rfl rfl
    · next f hfile =>
      split
      · next hstale => exact .judge _ deadline clock f hbefore hfile hstale
      · exact .wait _ _ _ _ hbefore rfl rfl
  · exact .unlink _ _ _ hbefore
  · split
    · exact .wait _ _ _ _ hbefore rfl rfl
    · exact .still _
  · exact .write _ _ _ hbefore
  · exact .leave _ _ _ _ hbefore
  · exact .leave _ _ _ _ hbefore
  · exact .release _ _ _ hbefore
  · exact .still _
  · next hnot => exact .crash _ _ hbefore hnot
  · exact .still _

theorem move_step (platform : Platform) (s : State) (e : Event) :
    Move platform s e (step platform s e) := by
  cases e with
  | tick ms => exact .tick ms
  | _ => exact move_act rfl rfl

end Tnp.Client.WithLock
