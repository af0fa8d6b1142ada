import Mathlib.Algebra.Group.Nat.Defs
import Tnp.Operations.Store

/-!
The decision table of the operation engine, and the handlers it drives.

A handler is a list of acts. What it reads, and what the provider answers, is the environment's;
what it does with that is fixed here.
-/

namespace Tnp.Operations

/-! ### Provider errors -/

inductive ProviderErrorCode
  | validation | notAvailable | unsupported | credentials | rateLimited | insufficientFunds
  | conflict | notFound | permanent | providerUnavailable | unknownOutcome
  deriving DecidableEq

def ProviderErrorCode.text : ProviderErrorCode → String
  | validation => "validation"
  | notAvailable => "not_available"
  | unsupported => "unsupported"
  | credentials => "credentials"
  | rateLimited => "rate_limited"
  | insufficientFunds => "insufficient_funds"
  | conflict => "conflict"
  | notFound => "not_found"
  | permanent => "permanent"
  | providerUnavailable => "provider_unavailable"
  | unknownOutcome => "unknown_outcome"

structure ProviderError where
  code : ProviderErrorCode
  safeMessage : String
  submitted : Bool := false
  retryAfterMs : Option ℕ := none

def provesNothingApplied (err : ProviderError) : Bool :=
  if err.code = .unknownOutcome then false
  else if ¬ err.submitted then true
  else err.code = .validation ∨ err.code = .notAvailable ∨ err.code = .unsupported ∨
    err.code = .credentials ∨ err.code = .insufficientFunds ∨ err.code = .rateLimited ∨
    err.code = .conflict ∨ err.code = .permanent

/-- What a handler may throw. -/
inductive Thrown
  | leaseLost
  | provider (err : ProviderError)
  | other

/-- A refusal by the request itself: the provider answered, and applied nothing. -/
def Thrown.refusal : Thrown → Bool
  | provider err => err.submitted && provesNothingApplied err
  | _ => false

def retryable (code : ProviderErrorCode) : Bool :=
  code = .rateLimited ∨ code = .providerUnavailable

def operatorProblem (code : ProviderErrorCode) : Bool :=
  code = .credentials ∨ code = .insufficientFunds

/-! ### Outcomes -/

inductive ExecuteOutcome
  | succeeded
  | failed (code message : String)
  | manualReview (code message : String)
  | unknown (message : String)

inductive ReconcileOutcome
  | succeeded
  | absent
  | undetermined (message : String)
  | conflict (message : String)

inductive GiveUpStatus
  | failed | manualReview
  deriving DecidableEq

def GiveUpStatus.status : GiveUpStatus → OperationStatus
  | failed => .failed
  | manualReview => .manualReview

structure EngineOptions where
  workerId : String
  leaseMs : ℕ := 300000
  settleMs : ℕ := 300000
  maxReconcileAttempts : ℕ := 12

/-- How a run of the engine ends. -/
inductive Decision
  | drop
  | finish (u : FinishUpdate)
  | giveUp (status : GiveUpStatus) (u : FinishUpdate)

def backoffMs (attempt baseMs capMs : ℕ) : ℕ := min capMs (baseMs * 2 ^ (attempt - 1))

def giveUp (status : GiveUpStatus) (code message : String) : Decision :=
  .giveUp status { status := status.status, errorCode := some code, errorMessage := some message }

def toUnknown (clock : ℕ) (code message : String) : Decision :=
  .finish
    { status := .unknown
      errorCode := some (if code = "unknown_outcome" then code else "unknown_outcome:" ++ code)
      errorMessage := some message
      nextRunAt := some (clock + 60000) }

def retryOrGiveUp (mutating : Bool) (op : Operation) (clock : ℕ) (code message : String)
    (retryAfterMs : Option ℕ) : Decision :=
  if op.maxAttempts ≤ op.attempts then
    giveUp (if mutating then .manualReview else .failed) code message
  else
    .finish
      { status := .queued
        errorCode := some code
        errorMessage := some message
        clearSubmitted := true
        nextRunAt :=
          some (clock + max (retryAfterMs.getD 0) (backoffMs op.attempts 30000 3600000)) }

def applyExecuteOutcome (mutating submitted : Bool) (clock : ℕ) : ExecuteOutcome → Decision
  | .succeeded => .finish { status := .succeeded }
  | .unknown message => toUnknown clock "unknown_outcome" message
  | .failed code message =>
    if mutating && submitted then toUnknown clock code message else giveUp .failed code message
  | .manualReview code message => giveUp .manualReview code message

def applyExecuteError (mutating : Bool) (op : Operation) (submitted mutationReturned : Bool)
    (clock : ℕ) : Thrown → Decision
  | .leaseLost => .drop
  | .other =>
    if mutating && submitted then toUnknown clock "internal" "The result is being checked."
    else retryOrGiveUp mutating op clock "internal" "An internal error occurred." none
  | .provider err =>
    if mutating && submitted &&
        (mutationReturned || !err.submitted || !provesNothingApplied err) then
      toUnknown clock err.code.text err.safeMessage
    else if retryable err.code then
      retryOrGiveUp mutating op clock err.code.text err.safeMessage err.retryAfterMs
    else
      giveUp (if operatorProblem err.code then .manualReview else .failed) err.code.text
        err.safeMessage

/-- The submission is old enough for its absence to be believed. -/
def settled (o : EngineOptions) (op : Operation) (clock : ℕ) : Bool :=
  op.submittedAt.getD clock + o.settleMs ≤ clock

def ReconcileOutcome.waiting : ReconcileOutcome → String
  | undetermined message => message
  | _ => "Waiting for the provider to settle."

def applyReconcile (o : EngineOptions) (op : Operation) (clock : ℕ) (outcome : ReconcileOutcome) :
    Decision :=
  match outcome with
  | .succeeded => .finish { status := .succeeded }
  | .conflict message => giveUp .manualReview "conflict" message
  | .absent =>
    if settled o op clock then
      if 1 ≤ op.resubmissions then
        giveUp .manualReview "absent_after_resubmission"
          "The provider shows no effect after a second attempt."
      else
        .finish
          { status := .queued
            clearSubmitted := true
            incrementResubmissions := true
            nextRunAt := some clock }
    else undecided
  | .undetermined _ => undecided
where
  undecided : Decision :=
    if o.maxReconcileAttempts ≤ op.reconcileAttempts + 1 then
      giveUp .manualReview "unreconciled" "The result could not be confirmed and needs review."
    else
      .finish
        { status := .unknown
          errorCode := some "unknown_outcome"
          errorMessage := some outcome.waiting
          incrementReconcileAttempts := true
          nextRunAt := some (clock + backoffMs (op.reconcileAttempts + 1) 60000 3600000) }

/-! ### Handlers -/

inductive LineState
  | pending | fulfilling | succeeded | failed | unknown | manualReview
  deriving DecidableEq

/-- One await of a handler. -/
inductive Act
  /-- Reads, from the database or the provider, that may end the handler. -/
  | read (exits : ExecuteOutcome → Bool)
  /-- A write outside the outbox and the orders. -/
  | write
  /-- The two statements of `setLineState`. -/
  | setLine (state : LineState)
  | rollUp
  /-- The mutating call of the provider. -/
  | call

/-- What the reads of a reconciliation brought. -/
inductive Evidence
  | threw (err : Thrown)
  | registration (visible : Bool)
  | renewal (previousExpiresAt expiresAt : Option ℕ)
  | zone (remoteHash : String) (baseHash : Option String) (intended : Except String String)

structure Handler where
  kind : String
  mutating : Bool
  execute : List Act
  /-- What is still written, and the outcome; `none` is evidence the handler does not read. -/
  reconcile : Evidence → Option (List Act × ReconcileOutcome)
  onGiveUp : GiveUpStatus → List Act

def setLineState (state : LineState) : List Act := [.setLine state, .rollUp]

def gaveUpLine : GiveUpStatus → LineState
  | .failed => .failed
  | .manualReview => .manualReview

def unchecked : Thrown → ReconcileOutcome
  | .provider err => .undetermined err.safeMessage
  | _ => .undetermined "The result could not be checked yet."

def register : Handler where
  kind := "domain.register"
  mutating := true
  execute :=
    .read (fun _ => false) :: setLineState .fulfilling ++ [.call, .write] ++
      setLineState .succeeded ++ [.write]
  reconcile
    | .threw err => some ([], unchecked err)
    | .registration true => some (.write :: setLineState .succeeded, .succeeded)
    | .registration false =>
      some ([], .undetermined "The registration is not visible at the registrar yet.")
    | _ => none
  onGiveUp status := .write :: setLineState (gaveUpLine status)

def renew : Handler where
  kind := "domain.renew"
  mutating := true
  execute :=
    [.read fun _ => false, .call, .write] ++ setLineState .succeeded ++ [.write]
  reconcile
    | .threw err => some ([], unchecked err)
    | .renewal none _ => some ([], .undetermined "No prior expiry to compare against.")
    | .renewal (some _) none =>
      some ([.write], .undetermined "The registrar reported no expiry.")
    | .renewal (some before) (some expiresAt) =>
      if before < expiresAt then some (.write :: setLineState .succeeded, .succeeded)
      else if expiresAt = before then some ([.write], .absent)
      else some ([.write],
        .conflict "The registrar reports an earlier expiry than before the renewal.")
    | _ => none
  onGiveUp status := setLineState (gaveUpLine status)

/-- The domain is no longer in the account. -/
def syncExits : ExecuteOutcome → Bool
  | .manualReview code message =>
    code = "not_in_account" ∧ message = "The provider account no longer holds this domain."
  | _ => false

def sync : Handler where
  kind := "domain.sync"
  mutating := false
  execute := [.read syncExits, .write]
  reconcile _ := none
  onGiveUp _ := []

/-- What the zone as it was read can end the change with. -/
def previewExits : ExecuteOutcome → Bool
  | .failed code message =>
    (code = "conflict" ∧ message = "The zone changed since it was previewed. Review it again.") ∨
      (code = "unsupported" ∧
        message = "This provider is not serving the zone, so changes would not be published.") ∨
      code = "validation"
  | _ => false

def confirmExits : ExecuteOutcome → Bool
  | .unknown message => message = "The provider's zone does not match what was sent."
  | _ => false

def dnsApply : Handler where
  kind := "dns.apply"
  mutating := true
  execute := [.write, .read previewExits, .call, .read confirmExits, .write]
  reconcile
    | .threw err => some ([], unchecked err)
    | .zone _ none _ => some ([], .undetermined "The previewed zone snapshot is missing.")
    | .zone _ (some _) (.error message) => some ([], .conflict message)
    | .zone remoteHash (some baseHash) (.ok intended) =>
      if remoteHash = intended then some ([.write, .write], .succeeded)
      else if remoteHash = baseHash then some ([], .absent)
      else some ([.write],
        .conflict "The zone matches neither the previous nor the requested version.")
    | _ => none
  onGiveUp _ := [.write]

def createOperationHandlers : List Handler := [register, renew, sync, dnsApply]

def handlerOf (kind : String) : Option Handler :=
  createOperationHandlers.find? fun h => h.kind = kind

def kinds : List String := createOperationHandlers.map Handler.kind

end Tnp.Operations
