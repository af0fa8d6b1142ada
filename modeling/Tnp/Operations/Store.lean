import Mathlib.Data.List.Sort
import Tnp.Lib.OrderedMap

/-!
The operations outbox: claim, submit, finish.

Times are milliseconds of the database clock. Every call below is one transaction.
-/

namespace Tnp.Operations

open Tnp.Lib

abbrev OpId := ℕ

inductive OperationStatus
  | queued | running | succeeded | failed | unknown | manualReview
  deriving DecidableEq

/-- A `timestamptz` that may be `'infinity'`. -/
inductive Expiry
  | instant (t : ℕ)
  | infinity
  deriving DecidableEq

def Expiry.before : Expiry → ℕ → Bool
  | instant t, now => t < now
  | infinity, _ => false

@[simp] lemma Expiry.before_instant (t now : ℕ) : (instant t).before now = decide (t < now) := rfl

@[simp] lemma Expiry.before_infinity (now : ℕ) : infinity.before now = false := rfl

structure Operation where
  kind : String
  resourceType : String
  resourceId : String
  status : OperationStatus := .queued
  attempts : ℕ := 0
  maxAttempts : ℕ := 5
  /-- How often a mutating operation shown absent was sent again. -/
  resubmissions : ℕ := 0
  reconcileAttempts : ℕ := 0
  leaseOwner : Option String := none
  leaseExpiresAt : Option ℕ := none
  nextRunAt : ℕ
  submittedAt : Option ℕ := none
  completedAt : Option ℕ := none
  errorCode : Option String := none
  errorMessage : Option String := none
  deriving DecidableEq

def resourceKey (op : Operation) : String := op.resourceType ++ ":" ++ op.resourceId

structure ResourceLease where
  operationId : OpId
  expiresAt : Expiry
  deriving DecidableEq

structure Store where
  operations : OrderedMap OpId Operation := ⟨[], List.nodup_nil⟩
  leases : OrderedMap String ResourceLease := ⟨[], List.nodup_nil⟩

/-! ### Claiming -/

structure ClaimOptions where
  workerId : String
  leaseMs : ℕ
  kinds : List String
  scan : ℕ := 10

def leaseSeconds (leaseMs : ℕ) : ℕ := max 1 ((leaseMs + 999) / 1000)

/-- Queued or in doubt and due, or running past its lease. -/
def runnable (op : Operation) (now : ℕ) : Bool :=
  ((op.status = .queued ∨ op.status = .unknown) ∧ op.nextRunAt ≤ now) ∨
    (op.status = .running ∧ op.leaseExpiresAt.any (· < now))

namespace Store

variable (s : Store) (now : ℕ)

/-- Another operation holds the resource. -/
def heldByOther (id : OpId) (op : Operation) : Bool :=
  (s.leases.get (resourceKey op)).any fun l => l.operationId ≠ id ∧ ¬ l.expiresAt.before now

/-- The rows one claim looks at; `locked` are the rows other transactions hold, which it skips. -/
def candidates (locked : List OpId) (o : ClaimOptions) : List (OpId × Operation) :=
  let rows := s.operations.entries.filter fun c =>
    c.2.kind ∈ o.kinds ∧ runnable c.2 now ∧ ¬ s.heldByOther now c.1 c.2 ∧ c.1 ∉ locked
  (rows.insertionSort fun a b => a.2.nextRunAt ≤ b.2.nextRunAt).take o.scan

/-- The upsert of the resource lease: only an expired one, or its own, is taken over. -/
def takeLease (id : OpId) (op : Operation) (expiresAt : Expiry) : Option Store :=
  match s.leases.get (resourceKey op) with
  | some l =>
    if l.expiresAt.before now ∨ l.operationId = id then
      some { s with leases := s.leases.set (resourceKey op) ⟨id, expiresAt⟩ }
    else none
  | none => some { s with leases := s.leases.set (resourceKey op) ⟨id, expiresAt⟩ }

def markRunning (op : Operation) (workerId : String) (expiresAt : ℕ) : Operation :=
  { op with
    status := .running
    leaseOwner := some workerId
    leaseExpiresAt := some expiresAt
    attempts := op.attempts + if op.submittedAt = none then 1 else 0 }

structure Claimed where
  id : OpId
  operation : Operation
  store : Store

/-- Tries the candidates in turn. -/
def claimFirst (workerId : String) (expiresAt : ℕ) : List (OpId × Operation) → Option Claimed
  | [] => none
  | (id, op) :: rest =>
    match s.takeLease now id op (.instant expiresAt) with
    | some s' =>
      let claimed := markRunning op workerId expiresAt
      some ⟨id, claimed, { s' with operations := s'.operations.set id claimed }⟩
    | none => claimFirst workerId expiresAt rest

def claimNextOperation (locked : List OpId) (o : ClaimOptions) : Option Claimed :=
  if o.kinds = [] then none
  else
    s.claimFirst now o.workerId (now + leaseSeconds o.leaseMs * 1000) (s.candidates now locked o)

/-! ### Submitting and finishing -/

/-- The guard of `markSubmitted`. -/
def submittable (id : OpId) (workerId : String) : Bool :=
  (s.operations.get id).any fun op =>
    op.status = .running ∧ op.leaseOwner = some workerId ∧ op.leaseExpiresAt.any (now < ·)

/-- `none` stands for `LeaseLostError`. -/
def markSubmitted (id : OpId) (workerId : String) : Option Store :=
  match s.operations.get id with
  | some op =>
    if s.submittable now id workerId then
      some { s with
        operations := s.operations.set id
          { op with submittedAt := some (op.submittedAt.getD now) } }
    else none
  | none => none

end Store

structure FinishUpdate where
  status : OperationStatus
  errorCode : Option String := none
  errorMessage : Option String := none
  nextRunAt : Option ℕ := none
  /-- `submittedAt: null`. -/
  clearSubmitted : Bool := false
  incrementResubmissions : Bool := false
  incrementReconcileAttempts : Bool := false
  deriving DecidableEq

def terminal (status : OperationStatus) : Bool :=
  status = .succeeded ∨ status = .failed ∨ status = .manualReview

/-- The row as `finishOperation` leaves it. -/
def FinishUpdate.apply (u : FinishUpdate) (now : ℕ) (op : Operation) : Operation :=
  { op with
    status := u.status
    leaseOwner := none
    leaseExpiresAt := none
    errorCode := u.errorCode
    errorMessage := u.errorMessage
    nextRunAt := u.nextRunAt.getD op.nextRunAt
    submittedAt := if u.clearSubmitted then none else op.submittedAt
    resubmissions := op.resubmissions + if u.incrementResubmissions then 1 else 0
    reconcileAttempts := op.reconcileAttempts + if u.incrementReconcileAttempts then 1 else 0
    completedAt := if terminal u.status then some now else none }

namespace Store

variable (s : Store) (now : ℕ)

/-- The guard of `finishOperation`. The lease may have run out; only its owner is compared. -/
def finishable (id : OpId) (workerId : String) : Bool :=
  (s.operations.get id).any fun op => op.status = .running ∧ op.leaseOwner = some workerId

/-- The effect of an operation may still land. -/
def keepsLease (op : Operation) : Bool :=
  op.status = .unknown ∨ (op.status = .manualReview ∧ op.submittedAt ≠ none)

/-- Parks the resource lease of `id`, or gives it up. -/
def releaseLease (id : OpId) (op : Operation) : Store :=
  match s.leases.get (resourceKey op) with
  | some l =>
    if l.operationId = id then
      if keepsLease op then
        { s with leases := s.leases.set (resourceKey op) { l with expiresAt := .infinity } }
      else { s with leases := s.leases.delete (resourceKey op) }
    else s
  | none => s

/-- `none` stands for `false`: this worker no longer holds the lease. -/
def finishOperation (id : OpId) (workerId : String) (u : FinishUpdate) : Option Store :=
  match s.operations.get id with
  | some op =>
    if s.finishable id workerId then
      let row := u.apply now op
      some (releaseLease { s with operations := s.operations.set id row } id row)
    else none
  | none => none

end Store

end Tnp.Operations
