import Tnp.Lib.Run
import Tnp.Operations.Engine

/-!
The outbox, the orders and the runs of the engine that are under way, one await at a time.

An event picks who moves next and what its environment answers; a crash may come anywhere. What
the claims speak about beside the database, the `history` and who made the `latest` claim of an
operation, is recorded and never read by a step.
-/

namespace Tnp.Operations

open Tnp.Lib

abbrev RunId := ℕ

abbrev OrderId := ℕ

inductive OrderState
  | awaitingPayment | paid | fulfilling | completed | partiallyCompleted | failed | cancelled
  deriving DecidableEq

structure OrderLine where
  orderId : OrderId
  state : LineState := .pending
  /-- Set in the transaction that inserts the line. -/
  operationId : OpId
  deriving DecidableEq

/-! ### A run of the engine -/

inductive Phase
  | executing (rest : List Act)
  /-- `submitted_at` is committed, the request not yet written. -/
  | marked (rest : List Act)
  /-- The request is out. -/
  | awaiting (rest : List Act)
  | reconciling
  | confirming (rest : List Act) (outcome : ReconcileOutcome)
  /-- `nothingApplied`: the decision rests on a proof that the submission had no effect. -/
  | deciding (d : Decision) (nothingApplied : Bool)
  | givingUp (rest : List Act)

structure Run where
  options : EngineOptions
  operationId : OpId
  /-- The row as it was claimed. -/
  operation : Operation
  submitted : Bool
  mutationReturned : Bool := false
  phase : Phase

namespace Run

variable (run : Run)

def handler : Option Handler := handlerOf run.operation.kind

def mutating : Bool := run.handler.any Handler.mutating

def reconcile (e : Evidence) : Option (List Act × ReconcileOutcome) :=
  run.handler.bind fun h => h.reconcile e

def onGiveUp (status : GiveUpStatus) : List Act := (run.handler.map (·.onGiveUp status)).getD []

def afterOutcome (clock : ℕ) (outcome : ExecuteOutcome) : Run :=
  { run with
    phase := .deciding (applyExecuteOutcome run.mutating run.submitted clock outcome) false }

def afterError (clock : ℕ) (err : Thrown) (nothingApplied : Bool) : Run :=
  { run with
    phase := .deciding (applyExecuteError run.mutating run.operation run.submitted
      run.mutationReturned clock err) nothingApplied }

/-- A reconciliation that observed the submission absent, past the settle window. -/
def observedAbsent (clock : ℕ) : ReconcileOutcome → Bool
  | .absent => settled run.options run.operation clock
  | _ => false

end Run

/-- Where `OperationEngine.run` begins. -/
def startRun (options : EngineOptions) (id : OpId) (op : Operation) : Run where
  options := options
  operationId := id
  operation := op
  submitted := op.submittedAt ≠ none
  phase :=
    match handlerOf op.kind with
    | none => .deciding (.finish
        { status := .manualReview
          errorCode := some "no_handler"
          errorMessage := some "No handler for this operation." }) false
    | some h => if h.mutating ∧ op.submittedAt ≠ none then .reconciling else .executing h.execute

/-! ### The world -/

/-- What is remembered of an operation, for the claims only. -/
inductive Mark
  | submitted (id : OpId) (r : RunId)
  | sent (id : OpId) (r : RunId)
  /-- The request of `r` was answered by an error that proves nothing was applied. -/
  | refused (id : OpId) (r : RunId)
  | absent (id : OpId) (r : RunId)
  | recorded (id : OpId) (r : RunId) (status : OperationStatus) (nothingApplied : Bool)

structure World where
  now : ℕ := 0
  store : Store := {}
  lines : List OrderLine := []
  orders : OrderedMap OrderId OrderState := ⟨[], List.nodup_nil⟩
  runs : OrderedMap RunId Run := ⟨[], List.nodup_nil⟩
  nextRun : RunId := 0
  latest : OrderedMap OpId RunId := ⟨[], List.nodup_nil⟩
  /-- Newest first. -/
  history : List Mark := []

inductive Reply
  | ok
  | exit (outcome : ExecuteOutcome)
  | evidence (e : Evidence)
  | throw (err : Thrown)

structure OrderItem where
  operationId : OpId
  publicDomainId : String

inductive Event
  | tick (ms : ℕ)
  | enqueue (id : OpId) (kind resourceType resourceId : String) (maxAttempts runAt : ℕ)
  | placeOrder (order : OrderId) (items : List OrderItem) (runAt : ℕ)
  | claim (options : EngineOptions) (locked : List OpId)
  | advance (r : RunId) (reply : Reply) (clock : ℕ)
  | crash (r : RunId)

def rollUpState (states : List LineState) : OrderState :=
  if states.any fun s => s = .pending ∨ s = .fulfilling ∨ s = .unknown ∨ s = .manualReview then
    .fulfilling
  else if states.all (· = .succeeded) then .completed
  else if states.any (· = .succeeded) then .partiallyCompleted
  else .failed

namespace World

variable (w : World)

def record (m : Mark) : World := { w with history := m :: w.history }

def setRun (r : RunId) (run : Run) : World := { w with runs := w.runs.set r run }

def gone (r : RunId) : World := { w with runs := w.runs.delete r }

/-! ### Orders -/

def lineStates (order : OrderId) : List LineState :=
  (w.lines.filter (·.orderId = order)).map OrderLine.state

def rollUpOrderState (order : OrderId) : World :=
  if (w.orders.get order).isSome ∧ w.lineStates order ≠ [] then
    { w with orders := w.orders.set order (rollUpState (w.lineStates order)) }
  else w

def lineOf (id : OpId) : Option OrderLine := w.lines.find? (·.operationId = id)

def perform (id : OpId) : Act → World
  | .setLine state =>
    { w with
      lines := w.lines.map fun l => if l.operationId = id then { l with state := state } else l }
  | .rollUp =>
    match w.lineOf id with
    | some l => w.rollUpOrderState l.orderId
    | none => w
  | _ => w

def insert (id : OpId) (op : Operation) : World :=
  { w with store := { w.store with operations := w.store.operations.set id op } }

def addItem (order : OrderId) (runAt : ℕ) (item : OrderItem) : World :=
  { w.insert item.operationId
      { kind := "domain.register"
        resourceType := "public_domain"
        resourceId := item.publicDomainId
        nextRunAt := runAt } with
    lines := w.lines ++ [{ orderId := order, operationId := item.operationId }] }

/-- The part of `writeOrder` that the engine sees. -/
def placeOrder (order : OrderId) (items : List OrderItem) (runAt : ℕ) : World :=
  items.foldl (fun w item => w.addItem order runAt item)
    { w with orders := w.orders.set order .fulfilling }

/-- Identifiers are drawn at random: none of an order's was used before. -/
def fresh (order : OrderId) (items : List OrderItem) : Bool :=
  w.orders.get order = none ∧ (w.lines.all fun l => l.orderId ≠ order) ∧
    (items.all fun item => w.store.operations.get item.operationId = none) ∧
    (items.map OrderItem.operationId).Nodup

/-! ### The engine -/

def claim (options : EngineOptions) (locked : List OpId) : World :=
  match w.store.claimNextOperation w.now locked
      { workerId := options.workerId, leaseMs := options.leaseMs, kinds := kinds } with
  | some c =>
    { w with
      store := c.store
      runs := w.runs.set w.nextRun (startRun options c.id c.operation)
      nextRun := w.nextRun + 1
      latest := w.latest.set c.id w.nextRun }
  | none => w

/-- `#finish` and `#giveUp`. -/
def commit (r : RunId) (run : Run) (nothingApplied : Bool) (d : Decision) : World :=
  match d with
  | .drop => w.gone r
  | .finish u =>
    match w.store.finishOperation w.now run.operationId run.options.workerId u with
    | some s =>
      ({ w with store := s }.record (.recorded run.operationId r u.status nothingApplied)).gone r
    | none => w.gone r
  | .giveUp status u =>
    match w.store.finishOperation w.now run.operationId run.options.workerId u with
    | some s =>
      ({ w with store := s }.record (.recorded run.operationId r u.status nothingApplied)).setRun r
        { run with phase := .givingUp (run.onGiveUp status) }
    | none => w.gone r

def advance (r : RunId) (run : Run) (reply : Reply) (clock : ℕ) : World :=
  match run.phase, reply with
  | .executing [], .ok => w.setRun r (run.afterOutcome clock .succeeded)
  | .executing (.read exits :: _), .exit outcome =>
    if exits outcome then w.setRun r (run.afterOutcome clock outcome) else w
  | .executing (.call :: rest), .ok =>
    match w.store.markSubmitted w.now run.operationId run.options.workerId with
    | some s =>
      ({ w with store := s }.record (.submitted run.operationId r)).setRun r
        { run with submitted := true, phase := .marked rest }
    | none => w.setRun r (run.afterError clock .leaseLost false)
  | .executing (a :: rest), .ok =>
    (w.perform run.operationId a).setRun r { run with phase := .executing rest }
  | .executing _, .throw err => w.setRun r (run.afterError clock err false)
  | .marked rest, .ok =>
    (w.record (.sent run.operationId r)).setRun r { run with phase := .awaiting rest }
  | .marked _, .throw err => w.setRun r (run.afterError clock err err.refusal)
  | .awaiting rest, .ok =>
    w.setRun r { run with mutationReturned := true, phase := .executing rest }
  | .awaiting _, .throw err =>
    if err.refusal then
      (w.record (.refused run.operationId r)).setRun r (run.afterError clock err true)
    else w.setRun r (run.afterError clock err false)
  | .reconciling, .evidence e =>
    match run.reconcile e with
    | some (rest, outcome) => w.setRun r { run with phase := .confirming rest outcome }
    | none => w
  | .confirming [] outcome, .ok =>
    let decision := applyReconcile run.options run.operation clock outcome
    if run.observedAbsent clock outcome then
      (w.record (.absent run.operationId r)).setRun r { run with phase := .deciding decision true }
    else w.setRun r { run with phase := .deciding decision false }
  | .confirming (a :: rest) outcome, .ok =>
    (w.perform run.operationId a).setRun r { run with phase := .confirming rest outcome }
  | .confirming (_ :: _) _, .throw err =>
    w.setRun r { run with phase := .confirming [] (unchecked err) }
  | .deciding d nothingApplied, .ok => w.commit r run nothingApplied d
  | .givingUp [], .ok => w.gone r
  | .givingUp (a :: rest), .ok =>
    (w.perform run.operationId a).setRun r { run with phase := .givingUp rest }
  | .givingUp _, .throw _ => w.gone r
  | _, _ => w

def step : Event → World
  | .tick ms => { w with now := w.now + ms }
  | .enqueue id kind resourceType resourceId maxAttempts runAt =>
    if w.store.operations.get id = none then
      w.insert id
        { kind := kind
          resourceType := resourceType
          resourceId := resourceId
          maxAttempts := maxAttempts
          nextRunAt := runAt }
    else w
  | .placeOrder order items runAt =>
    if w.fresh order items then w.placeOrder order items runAt else w
  | .claim options locked => w.claim options locked
  | .advance r reply clock =>
    match w.runs.get r with
    | some run => w.advance r run reply clock
    | none => w
  | .crash r => w.gone r

end World

end Tnp.Operations
