import Tnp.Operations.Moves

/-!
Order lines follow their operations.

The outcome of an operation and the state of its line are written by separate statements. A line is
right where every pair of them is completed, and by the run that made the latest claim: the update
of a line has no guard of its own.
-/

namespace Tnp.Operations

open Tnp.Lib Tnp.Lib.Run

/-- The line state a terminal operation calls for. -/
def matching : OperationStatus → Option LineState
  | .succeeded => some .succeeded
  | .failed => some .failed
  | .manualReview => some .manualReview
  | _ => none

/-- No worker step is in progress. -/
def World.Idle (w : World) : Prop := ∀ r, w.runs.get r = none

/-! ### The steps that break it -/

def Act.isRollUp : Act → Bool
  | .rollUp => true
  | _ => false

def Act.setsLine : Act → Option LineState
  | .setLine state => some state
  | _ => none

/-- The next await of the run writes a line, or an outcome that the store lets through. -/
def World.publishes (w : World) (run : Run) : Bool :=
  match run.phase with
  | .executing (.setLine _ :: _) => true
  | .confirming (.setLine _ :: _) _ => true
  | .deciding (.finish _) _ => w.store.finishable run.operationId run.options.workerId
  | .deciding (.giveUp _ _) _ => w.store.finishable run.operationId run.options.workerId
  | _ => false

/-- Between the two statements of `setLineState`, or between the terminal write of an operation and
the update of its line. -/
def Run.unmirrored (run : Run) : Bool :=
  match run.phase with
  | .executing (a :: _) => a.isRollUp
  | .confirming (a :: _) _ => a.isRollUp
  | .givingUp rest => rest.any fun a => a.isRollUp || a.setsLine.isSome
  | _ => false

/-- A superseded run writes neither lines nor outcomes, and no run ends with a line behind. -/
def mirrored (w : World) : Event → Bool
  | .advance r .ok _ =>
    (w.runs.get r).all fun run => !w.publishes run || w.latest.get run.operationId = some r
  | .advance r (.throw _) _ => (w.runs.get r).all fun run => !run.unmirrored
  | .crash r => (w.runs.get r).all fun run => !run.unmirrored
  | _ => true

/-! ### Scripts -/

/-- Every line update is followed by its roll-up. -/
def paired : List Act → Bool
  | [] => true
  | .setLine _ :: a :: rest => a.isRollUp && paired (a :: rest)
  | .setLine _ :: [] => false
  | _ :: rest => paired rest

/-- The last state a script gives the line. -/
def lastLine : List Act → Option LineState
  | [] => none
  | a :: rest => (lastLine rest).or a.setsLine

def Phase.rest : Phase → List Act
  | .executing rest => rest
  | .marked rest => rest
  | .awaiting rest => rest
  | .confirming rest _ => rest
  | .givingUp rest => rest
  | _ => []

/-- The order of the run's line is about to be rolled up. -/
def Run.rollsNext (run : Run) : Bool :=
  match run.phase with
  | .executing (a :: _) => a.isRollUp
  | .confirming (a :: _) _ => a.isRollUp
  | .givingUp (a :: _) => a.isRollUp
  | _ => false

variable {w : World} {run run' : Run} {r : RunId} {id : OpId} {op : Operation} {a : Act}
  {rest : List Act} {state : LineState}

lemma paired_tail (h : paired (a :: rest) = true) : paired rest = true := by
  unfold paired at h
  split at h <;> simp_all

lemma paired_execute {kind : String} {h : Handler} (hh : handlerOf kind = some h) :
    paired h.execute = true := by
  obtain ⟨-, rfl | rfl | rfl | rfl⟩ := handlerOf_cases hh <;> decide

lemma paired_onGiveUp (status : GiveUpStatus) : paired (run.onGiveUp status) = true := by
  unfold Run.onGiveUp Run.handler
  cases hh : handlerOf run.operation.kind with
  | none => rfl
  | some h =>
    obtain ⟨-, rfl | rfl | rfl | rfl⟩ := handlerOf_cases hh <;> cases status <;> decide

lemma paired_reconcile {e : Evidence} {outcome : ReconcileOutcome}
    (h : run.reconcile e = some (rest, outcome)) : paired rest = true := by
  unfold Run.reconcile Run.handler at h
  obtain ⟨k, hh, h⟩ := Option.bind_eq_some_iff.mp h
  obtain ⟨-, rfl | rfl | rfl | rfl⟩ := handlerOf_cases hh
  · unfold register at h
    dsimp only at h
    split at h <;> grind [paired, setLineState, Act.isRollUp]
  · unfold renew at h
    dsimp only at h
    split at h <;> grind [paired, setLineState, Act.isRollUp]
  · simp [sync] at h
  · unfold dnsApply at h
    dsimp only at h
    split at h <;> grind [paired]

lemma setsLine_onGiveUp {status : GiveUpStatus} (ha : a ∈ run.onGiveUp status)
    (hs : a.setsLine = some state) : matching status.status = some state := by
  unfold Run.onGiveUp Run.handler at ha
  cases hh : handlerOf run.operation.kind with
  | none => simp [hh] at ha
  | some h =>
    rw [hh] at ha
    obtain ⟨-, rfl | rfl | rfl | rfl⟩ := handlerOf_cases hh <;> cases status <;>
      simp [register, renew, sync, dnsApply, setLineState, gaveUpLine] at ha <;>
      rcases ha with rfl | rfl | rfl <;> simp_all [Act.setsLine, matching, GiveUpStatus.status]

/-! ### Decisions -/

/-- A decision is terminal only with the line already `done`, or about to be given up. -/
def Decision.Sound (done : Prop) : Decision → Prop
  | .drop => True
  | .finish u => matching u.status = none ∨ u.status = .succeeded ∧ done
  | .giveUp status u => u.status = status.status

lemma sound_applyExecuteOutcome {mutating submitted : Bool} {clock : ℕ} {outcome : ExecuteOutcome}
    {done : Prop} (h : outcome = .succeeded → done) :
    (applyExecuteOutcome mutating submitted clock outcome).Sound done := by
  unfold applyExecuteOutcome
  grind [toUnknown, giveUp, Decision.Sound, matching, GiveUpStatus.status]

lemma sound_applyExecuteError {mutating submitted mutationReturned : Bool} {clock : ℕ}
    {err : Thrown} {done : Prop} :
    (applyExecuteError mutating op submitted mutationReturned clock err).Sound done := by
  unfold applyExecuteError
  grind [toUnknown, giveUp, retryOrGiveUp, Decision.Sound, matching, GiveUpStatus.status]

lemma sound_applyReconcile {o : EngineOptions} {clock : ℕ} {outcome : ReconcileOutcome}
    {done : Prop} (h : outcome = .succeeded → done) :
    (applyReconcile o op clock outcome).Sound done := by
  unfold applyReconcile applyReconcile.undecided
  grind [giveUp, Decision.Sound, matching, GiveUpStatus.status]

/-! ### The invariant -/

/-- The script still sets the line to succeeded, or has done so. -/
def Ends (done : Prop) (rest : List Act) : Prop :=
  lastLine rest = some .succeeded ∨ lastLine rest = none ∧ done

def noExit : Act → Bool
  | .read exits => !exits .succeeded
  | _ => true

/-- Where a run of a registration stands with its line. -/
def PhaseTracks (done : Prop) (run : Run) : Prop :=
  match run.phase with
  | .executing rest => Ends done rest ∧ rest.all noExit = true
  | .marked rest => Ends done rest ∧ rest.all noExit = true
  | .awaiting rest => Ends done rest ∧ rest.all noExit = true
  | .confirming rest outcome => outcome = .succeeded → Ends done rest
  | .deciding d _ => d.Sound done
  | _ => True

def Run.givesUp (run : Run) : Bool :=
  match run.phase with
  | .givingUp _ => true
  | _ => false

/-- The line of the operation says it succeeded. -/
def World.Done (w : World) (id : OpId) : Prop :=
  ∀ l ∈ w.lines, l.operationId = id → l.state = .succeeded

structure Tracked (w : World) : Prop where
  lines : ∀ l ∈ w.lines, ∃ op, w.store.operations.get l.operationId = some op ∧
    op.kind = register.kind
  distinct : (w.lines.map OrderLine.operationId).Nodup
  placed : ∀ l ∈ w.lines, (w.orders.get l.orderId).isSome
  known : ∀ r run, w.runs.get r = some run →
    ∃ op, w.store.operations.get run.operationId = some op ∧ op.kind = run.operation.kind
  fresh : ∀ r run, w.runs.get r = some run → r < w.nextRun
  scripts : ∀ r run, w.runs.get r = some run → paired run.phase.rest = true
  rolled : ∀ l ∈ w.lines, w.orders.get l.orderId = some (rollUpState (w.lineStates l.orderId)) ∨
    ∃ r run, w.runs.get r = some run ∧ run.rollsNext = true ∧
      ∃ k ∈ w.lines, k.operationId = run.operationId ∧ k.orderId = l.orderId
  settled : ∀ l ∈ w.lines, ∀ op, w.store.operations.get l.operationId = some op →
    ∀ state, matching op.status = some state → l.state = state ∨
      ∃ r run, w.runs.get r = some run ∧ run.operationId = l.operationId ∧ run.givesUp = true ∧
        ∃ a ∈ run.phase.rest, a.setsLine = some state
  givingUp : ∀ r run, w.runs.get r = some run → run.givesUp = true →
    ∀ op, w.store.operations.get run.operationId = some op → op.kind = register.kind →
      w.latest.get run.operationId = some r ∧ terminal op.status = true ∧
        ∀ a ∈ run.phase.rest, ∀ state, a.setsLine = some state → matching op.status = some state
  current : ∀ r run, w.runs.get r = some run → w.latest.get run.operationId = some r →
    run.givesUp = false → ∀ op, w.store.operations.get run.operationId = some op →
      op.status = .running ∧ (op.kind = register.kind → PhaseTracks (w.Done run.operationId) run)

lemma terminal_of_matching {status : OperationStatus} (h : matching status = some state) :
    terminal status = true := by
  cases status <;> simp_all [matching, terminal]

lemma running_of_effective {s : Store} {worker : String} (hop : s.operations.get id = some op)
    (h : s.finishable id worker = true) : op.status = .running :=
  ((Store.finishable_iff hop).mp h).1

namespace Tracked

/-- A run that keeps its line in view. -/
lemma setRun (h : Tracked w) (hr : w.runs.get r = some run)
    (hid : run'.operationId = run.operationId) (hop : run'.operation = run.operation)
    (hpaired : paired run'.phase.rest = true) (hrolls : run.rollsNext = false)
    (hgive : run.givesUp = false) (hgive' : run'.givesUp = false)
    (hok : ∀ done, run.operation.kind = register.kind → PhaseTracks done run →
      PhaseTracks done run') : Tracked (w.setRun r run') where
  lines := h.lines
  distinct := h.distinct
  placed := h.placed
  known q v hq := by
    change (w.runs.set r run').get q = some v at hq
    rw [OrderedMap.get_set] at hq
    split at hq
    · obtain rfl := Option.some.inj hq
      rw [hid, hop]
      exact h.known r run hr
    · exact h.known q v hq
  fresh q v hq := by
    change (w.runs.set r run').get q = some v at hq
    rw [OrderedMap.get_set] at hq
    split at hq
    · next e => exact e ▸ h.fresh r run hr
    · exact h.fresh q v hq
  scripts q v hq := by
    change (w.runs.set r run').get q = some v at hq
    rw [OrderedMap.get_set] at hq
    split at hq
    · obtain rfl := Option.some.inj hq
      exact hpaired
    · exact h.scripts q v hq
  rolled l hl := by
    refine (h.rolled l hl).imp_right ?_
    rintro ⟨q, v, hq, hnext, k⟩
    have hne : r ≠ q := by
      rintro rfl
      obtain rfl := Option.some.inj (hr.symm.trans hq)
      simp [hrolls] at hnext
    exact ⟨q, v, (OrderedMap.get_set_of_ne _ hne).trans hq, hnext, k⟩
  settled l hl op hrow state hstate := by
    refine (h.settled l hl op hrow state hstate).imp_right ?_
    rintro ⟨q, v, hq, hqid, hqgive, ha⟩
    have hne : r ≠ q := by
      rintro rfl
      obtain rfl := Option.some.inj (hr.symm.trans hq)
      simp [hgive] at hqgive
    exact ⟨q, v, (OrderedMap.get_set_of_ne _ hne).trans hq, hqid, hqgive, ha⟩
  givingUp q v hq hqgive := by
    change (w.runs.set r run').get q = some v at hq
    rw [OrderedMap.get_set] at hq
    split at hq
    · obtain rfl := Option.some.inj hq
      simp [hgive'] at hqgive
    · exact h.givingUp q v hq hqgive
  current q v hq hlatest hqgive op hrow := by
    change (w.runs.set r run').get q = some v at hq
    rw [OrderedMap.get_set] at hq
    split at hq
    · next e =>
      obtain rfl := Option.some.inj hq
      subst e
      obtain ⟨op', hrow', hkind⟩ := h.known r run hr
      rw [hid] at hlatest hrow ⊢
      obtain rfl := Option.some.inj (hrow.symm.trans hrow')
      obtain ⟨hstatus, hphase⟩ := h.current r run hr hlatest hgive op hrow
      exact ⟨hstatus, fun hk => hok _ (hkind.symm.trans hk) (hphase hk)⟩
    · exact h.current q v hq hlatest hqgive op hrow

/-- A run with no line behind may end. -/
lemma gone (h : Tracked w)
    (hdone : ∀ run, w.runs.get r = some run → run.rollsNext = false ∧
      (run.givesUp = true → ∀ a ∈ run.phase.rest, a.setsLine = none)) : Tracked (w.gone r) where
  lines := h.lines
  distinct := h.distinct
  placed := h.placed
  known q v hq := by
    change (w.runs.delete r).get q = some v at hq
    rw [OrderedMap.get_delete] at hq
    split at hq
    · simp at hq
    · exact h.known q v hq
  fresh q v hq := by
    change (w.runs.delete r).get q = some v at hq
    rw [OrderedMap.get_delete] at hq
    split at hq
    · simp at hq
    · exact h.fresh q v hq
  scripts q v hq := by
    change (w.runs.delete r).get q = some v at hq
    rw [OrderedMap.get_delete] at hq
    split at hq
    · simp at hq
    · exact h.scripts q v hq
  rolled l hl := by
    refine (h.rolled l hl).imp_right ?_
    rintro ⟨q, v, hq, hnext, k⟩
    have hne : r ≠ q := by
      rintro rfl
      simp [(hdone v hq).1] at hnext
    exact ⟨q, v, (OrderedMap.get_delete_of_ne hne).trans hq, hnext, k⟩
  settled l hl op hrow state hstate := by
    refine (h.settled l hl op hrow state hstate).imp_right ?_
    rintro ⟨q, v, hq, hqid, hqgive, ha⟩
    have hne : r ≠ q := by
      rintro rfl
      obtain ⟨a, hmem, hset⟩ := ha
      simp [(hdone v hq).2 hqgive a hmem] at hset
    exact ⟨q, v, (OrderedMap.get_delete_of_ne hne).trans hq, hqid, hqgive, ha⟩
  givingUp q v hq := by
    change (w.runs.delete r).get q = some v at hq
    rw [OrderedMap.get_delete] at hq
    split at hq
    · simp at hq
    · exact h.givingUp q v hq
  current q v hq := by
    change (w.runs.delete r).get q = some v at hq
    rw [OrderedMap.get_delete] at hq
    split at hq
    · simp at hq
    · exact h.current q v hq

/-- The history is nothing to the lines. -/
lemma record (h : Tracked w) (m : Mark) : Tracked (w.record m) :=
  ⟨h.lines, h.distinct, h.placed, h.known, h.fresh, h.scripts, h.rolled, h.settled, h.givingUp,
    h.current⟩

end Tracked

/-! ### Turns -/

lemma rollsNext_turn {reply : Reply} (ht : Turn run reply run')
    (hm : ∀ err, reply = .throw err → run.unmirrored = false) : run.rollsNext = false := by
  cases ht with
  | done clock h => simp [Run.rollsNext, h]
  | exit exits rest clock outcome h hexit => simp [Run.rollsNext, h, Act.isRollUp]
  | lost rest clock h => simp [Run.rollsNext, h, Act.isRollUp]
  | threw rest clock err h =>
    have := hm err rfl
    cases rest <;> simp_all [Run.rollsNext, Run.unmirrored]
  | unsent rest clock err h => simp [Run.rollsNext, h]
  | unproven rest clock err h herr => simp [Run.rollsNext, h]
  | returned rest h => simp [Run.rollsNext, h]
  | observe e rest outcome h he => simp [Run.rollsNext, h]
  | unchecked a rest outcome err h =>
    have := hm err rfl
    simp_all [Run.rollsNext, Run.unmirrored]
  | reconciled clock outcome h hobs => simp [Run.rollsNext, h]

lemma givesUp_turn {reply : Reply} (ht : Turn run reply run') :
    run.givesUp = false ∧ run'.givesUp = false := by
  cases ht <;> simp_all [Run.givesUp, Run.afterOutcome, Run.afterError]

lemma paired_turn {reply : Reply} (ht : Turn run reply run')
    (h : paired run.phase.rest = true) : paired run'.phase.rest = true := by
  cases ht with
  | returned rest hp => simpa [hp, Phase.rest] using h
  | observe e rest outcome hp he => exact paired_reconcile he
  | _ => rfl

lemma reconcile_succeeded {e : Evidence} {done : Prop} (hkind : run.operation.kind = register.kind)
    (h : run.reconcile e = some (rest, .succeeded)) : Ends done rest := by
  have hh : run.handler = some register := by
    unfold Run.handler
    rw [hkind]
    rfl
  unfold Run.reconcile at h
  rw [hh, Option.bind_some] at h
  unfold register at h
  cases e with
  | threw err => cases err <;> simp [unchecked] at h
  | registration visible =>
    cases visible with
    | false => simp at h
    | true => grind [Ends, lastLine, setLineState, Act.setsLine]
  | renewal before expiresAt => simp at h
  | zone remoteHash baseHash intended => simp at h

lemma phaseTracks_afterError {clock : ℕ} {err : Thrown} {p : Bool} {done : Prop} :
    PhaseTracks done (run.afterError clock err p) := by
  change Decision.Sound done _
  exact sound_applyExecuteError

lemma phaseTracks_afterOutcome {clock : ℕ} {outcome : ExecuteOutcome} {done : Prop}
    (h : outcome = .succeeded → done) : PhaseTracks done (run.afterOutcome clock outcome) := by
  change Decision.Sound done _
  exact sound_applyExecuteOutcome h

lemma phaseTracks_turn {reply : Reply} {done : Prop} (ht : Turn run reply run')
    (hkind : run.operation.kind = register.kind) (h : PhaseTracks done run) :
    PhaseTracks done run' := by
  unfold PhaseTracks at h
  cases ht with
  | done clock hp =>
    rw [hp] at h
    refine phaseTracks_afterOutcome fun _ => ?_
    obtain hlast | ⟨-, hdone⟩ := h.1
    · simp [lastLine] at hlast
    · exact hdone
  | exit exits rest clock outcome hp hexit =>
    rw [hp] at h
    refine phaseTracks_afterOutcome ?_
    rintro rfl
    have := h.2
    simp [noExit, hexit] at this
  | lost rest clock hp => exact phaseTracks_afterError
  | threw rest clock err hp => exact phaseTracks_afterError
  | unsent rest clock err hp => exact phaseTracks_afterError
  | unproven rest clock err hp herr => exact phaseTracks_afterError
  | returned rest hp =>
    rw [hp] at h
    exact h
  | observe e rest outcome hp he =>
    rintro rfl
    exact reconcile_succeeded hkind he
  | unchecked a rest outcome err hp =>
    intro hsucc
    cases err <;> simp [unchecked] at hsucc
  | reconciled clock outcome hp hobs =>
    rw [hp] at h
    change Decision.Sound done _
    refine sound_applyReconcile fun hsucc => ?_
    obtain hlast | ⟨-, hdone⟩ := h hsucc
    · simp [lastLine] at hlast
    · exact hdone

/-! ### Acts -/

/-- The line as an act of the run of `id` leaves it. -/
def Act.onLine (a : Act) (id : OpId) (l : OrderLine) : OrderLine :=
  match a.setsLine with
  | some state => if l.operationId = id then { l with state := state } else l
  | none => l

@[simp] lemma operationId_onLine (l : OrderLine) :
    (a.onLine id l).operationId = l.operationId := by
  unfold Act.onLine
  split
  · split <;> rfl
  · rfl

@[simp] lemma orderId_onLine (l : OrderLine) : (a.onLine id l).orderId = l.orderId := by
  unfold Act.onLine
  split
  · split <;> rfl
  · rfl

lemma onLine_of_ne {l : OrderLine} (h : l.operationId ≠ id) : a.onLine id l = l := by
  unfold Act.onLine
  split
  · exact if_neg h
  · rfl

lemma onLine_of_none (h : a.setsLine = none) : a.onLine id = fun l => l := by
  funext l
  simp [Act.onLine, h]

lemma state_onLine {l : OrderLine} (h : a.setsLine = some state) (hl : l.operationId = id) :
    (a.onLine id l).state = state := by
  simp [Act.onLine, h, hl]

lemma lines_perform : (w.perform id a).lines = w.lines.map (a.onLine id) := by
  cases a with
  | setLine state => rfl
  | rollUp =>
    rw [onLine_of_none rfl, List.map_id']
    unfold World.perform World.rollUpOrderState
    dsimp only
    split
    · split <;> rfl
    · rfl
  | _ => exact (List.map_id' _).symm

/-- A roll-up reads the lines as they are. -/
lemma orders_perform (w : World) (id : OpId) (a : Act) (o : OrderId) :
    (w.perform id a).orders.get o = w.orders.get o ∨
      a.setsLine = none ∧ (w.perform id a).orders.get o = some (rollUpState (w.lineStates o)) := by
  cases a with
  | rollUp =>
    unfold World.perform World.rollUpOrderState
    dsimp only
    split
    · split
      · dsimp only
        rw [OrderedMap.get_set]
        split
        · next e => exact .inr ⟨rfl, by rw [e]⟩
        · exact .inl rfl
      · exact .inl rfl
    · exact .inl rfl
  | _ => exact .inl rfl

lemma orders_rollUp {k : OrderLine} (hk : k ∈ w.lines) (hid : k.operationId = id)
    (hnodup : (w.lines.map OrderLine.operationId).Nodup)
    (hplaced : (w.orders.get k.orderId).isSome = true) :
    (w.perform id .rollUp).orders.get k.orderId = some (rollUpState (w.lineStates k.orderId)) := by
  have hfind : w.lineOf id = some k := by
    unfold World.lineOf
    cases hf : w.lines.find? (·.operationId = id) with
    | none => simpa [hid] using List.find?_eq_none.mp hf k hk
    | some l =>
      have hl := List.mem_of_find?_eq_some hf
      have hlid : l.operationId = id := by simpa using List.find?_some hf
      exact congrArg some (List.inj_on_of_nodup_map hnodup hl hk (hlid.trans hid.symm))
  have hne : w.lineStates k.orderId ≠ [] := by
    have hmem : k.state ∈ w.lineStates k.orderId :=
      List.mem_map.mpr ⟨k, List.mem_filter.mpr ⟨hk, by simp⟩, rfl⟩
    exact List.ne_nil_of_mem hmem
  unfold World.perform World.rollUpOrderState
  dsimp only
  rw [hfind]
  dsimp only
  rw [if_pos ⟨hplaced, hne⟩]
  exact OrderedMap.get_set_self _

/-- Only the order of the line that is written can fall behind. -/
lemma lineStates_perform {o : OrderId}
    (h : a.setsLine = none ∨ ∀ k ∈ w.lines, k.operationId = id → k.orderId ≠ o) :
    (w.perform id a).lineStates o = w.lineStates o := by
  unfold World.lineStates
  rw [lines_perform]
  obtain hnone | hne := h
  · rw [onLine_of_none hnone, List.map_id']
  · rw [List.filter_map, List.map_map]
    have hcomp : ((fun l : OrderLine => decide (l.orderId = o)) ∘ a.onLine id) =
        fun l => decide (l.orderId = o) := by
      funext l
      simp
    rw [hcomp]
    refine List.map_congr_left fun l hl => ?_
    obtain ⟨hmem, ho⟩ := List.mem_filter.mp hl
    have hlid : l.operationId ≠ id := fun e => hne l hmem e (by simpa using ho)
    rw [Function.comp_apply, onLine_of_ne hlid]

/-- The run behind an act. -/
structure Run.Behind (run : Run) (a : Act) (run' : Run) : Prop where
  operationId : run'.operationId = run.operationId
  operation : run'.operation = run.operation
  rest : run.phase.rest = a :: run'.phase.rest
  givesUp : run'.givesUp = run.givesUp
  rollsNext : run.rollsNext = a.isRollUp
  next : ∀ b tail, run'.phase.rest = b :: tail → run'.rollsNext = b.isRollUp

lemma behind_next (h : run.Next a run') : run.Behind a run' := by
  cases h with
  | executing rest hp hcall =>
    exact ⟨rfl, rfl, by rw [hp]; rfl, by simp [Run.givesUp, hp], by simp [Run.rollsNext, hp],
      fun b tail ht => by simp_all [Phase.rest, Run.rollsNext]⟩
  | confirming rest outcome hp =>
    exact ⟨rfl, rfl, by rw [hp]; rfl, by simp [Run.givesUp, hp], by simp [Run.rollsNext, hp],
      fun b tail ht => by simp_all [Phase.rest, Run.rollsNext]⟩
  | givingUp rest hp =>
    exact ⟨rfl, rfl, by rw [hp]; rfl, by simp [Run.givesUp, hp], by simp [Run.rollsNext, hp],
      fun b tail ht => by simp_all [Phase.rest, Run.rollsNext]⟩

/-- After a line update comes its roll-up. -/
lemma rollsNext_of_setsLine (h : run.Behind a run') (hs : a.setsLine = some state)
    (hpaired : paired run.phase.rest = true) : run'.rollsNext = true := by
  rw [h.rest] at hpaired
  cases a with
  | setLine s =>
    cases ht : run'.phase.rest with
    | nil => simp [ht, paired] at hpaired
    | cons b tail =>
      rw [ht] at hpaired
      simp only [paired, Bool.and_eq_true] at hpaired
      rw [h.next b tail ht]
      exact hpaired.1
  | _ => simp [Act.setsLine] at hs

lemma ends_tail {done done' : Prop} (h : Ends done (a :: rest))
    (hkeep : a.setsLine = none → done → done') (hset : a.setsLine = some .succeeded → done') :
    Ends done' rest := by
  unfold Ends at h ⊢
  cases hl : lastLine rest with
  | some s => simp_all [lastLine]
  | none =>
    cases ha : a.setsLine with
    | none => simp_all [lastLine]
    | some s => simp_all [lastLine]

lemma phaseTracks_next {done done' : Prop} (hn : run.Next a run') (h : PhaseTracks done run)
    (hkeep : a.setsLine = none → done → done') (hset : a.setsLine = some .succeeded → done') :
    PhaseTracks done' run' := by
  unfold PhaseTracks at h
  cases hn with
  | executing rest hp hcall =>
    rw [hp] at h
    have hall : rest.all noExit = true := by
      have := h.2
      simp only [List.all_cons, Bool.and_eq_true] at this
      exact this.2
    exact ⟨ends_tail h.1 hkeep hset, hall⟩
  | confirming rest outcome hp =>
    rw [hp] at h
    exact fun hsucc => ends_tail (h hsucc) hkeep hset
  | givingUp rest hp => trivial

lemma Decision.Sound.mono {done done' : Prop} {d : Decision} (h : d.Sound done)
    (himp : done → done') : d.Sound done' := by
  cases d with
  | drop => trivial
  | finish u => exact h.imp_right fun h => ⟨h.1, himp h.2⟩
  | giveUp status u => exact h

lemma PhaseTracks.mono {done done' : Prop} (h : PhaseTracks done run) (himp : done → done') :
    PhaseTracks done' run := by
  have hends : ∀ rest, Ends done rest → Ends done' rest := fun rest h =>
    h.imp_right fun h => ⟨h.1, himp h.2⟩
  unfold PhaseTracks at h ⊢
  split at h
  · exact ⟨hends _ h.1, h.2⟩
  · exact ⟨hends _ h.1, h.2⟩
  · exact ⟨hends _ h.1, h.2⟩
  · exact fun hs => hends _ (h hs)
  · exact h.mono himp
  · trivial

namespace Tracked

lemma done_onLine (h : w.Done id) (hnone : a.setsLine = none) : (w.perform id a).Done id := by
  intro l hl hlid
  rw [lines_perform, onLine_of_none hnone, List.map_id'] at hl
  exact h l hl hlid

lemma done_of_ne {j : OpId} (h : w.Done j) (hne : j ≠ id) : (w.perform id a).Done j := by
  intro l hl hlid
  rw [lines_perform] at hl
  obtain ⟨k, hk, rfl⟩ := List.mem_map.mp hl
  rw [operationId_onLine] at hlid
  rw [onLine_of_ne (hlid ▸ hne)]
  exact h k hk hlid

lemma done_of_sets (hs : a.setsLine = some .succeeded) : (w.perform id a).Done id := by
  intro l hl hlid
  rw [lines_perform] at hl
  obtain ⟨k, -, rfl⟩ := List.mem_map.mp hl
  exact state_onLine hs (by simpa using hlid)

/-- One act, and the run behind it. The run whose line is written made the latest claim. -/
lemma perform (h : Tracked w) (hr : w.runs.get r = some run) (hn : run.Next a run')
    (hlatest : a.setsLine.isSome = true → run.givesUp = false →
      w.latest.get run.operationId = some r) :
    Tracked ((w.perform run.operationId a).setRun r run') := by
  have hb := behind_next hn
  have hpaired := h.scripts r run hr
  obtain ⟨op, hop, hkind⟩ := h.known r run hr
  have hruns : ∀ q v, ((w.perform run.operationId a).runs.set r run').get q = some v →
      (q = r ∧ v = run') ∨ (q ≠ r ∧ w.runs.get q = some v) := by
    intro q v hq
    rw [World.runs_perform, OrderedMap.get_set] at hq
    split at hq
    · next e => exact .inl ⟨e.symm, (Option.some.inj hq).symm⟩
    · next e => exact .inr ⟨fun e' => e e'.symm, hq⟩
  have hget : ∀ q, r ≠ q → ∀ v, w.runs.get q = some v →
      ((w.perform run.operationId a).runs.set r run').get q = some v := by
    intro q hq v hv
    rwa [World.runs_perform, OrderedMap.get_set_of_ne _ hq]
  have hmem : ∀ l ∈ ((w.perform run.operationId a).setRun r run').lines,
      ∃ k ∈ w.lines, a.onLine run.operationId k = l := by
    intro l hl
    change l ∈ (w.perform run.operationId a).lines at hl
    rw [lines_perform] at hl
    exact List.mem_map.mp hl
  refine ⟨fun l hl => ?_, ?_, fun l hl => ?_, fun q v hq => ?_, fun q v hq => ?_,
    fun q v hq => ?_, fun l hl => ?_, fun l hl row hrow state hstate => ?_,
    fun q v hq hqgive row hrow hreg => ?_, fun q v hq hqlatest hqgive row hrow => ?_⟩
  · obtain ⟨k, hk, rfl⟩ := hmem l hl
    change ∃ op, (w.perform run.operationId a).store.operations.get _ = some op ∧ _
    rw [World.store_perform, operationId_onLine]
    exact h.lines k hk
  · change ((w.perform run.operationId a).lines.map _).Nodup
    rw [lines_perform, List.map_map]
    have hcomp : OrderLine.operationId ∘ a.onLine run.operationId = OrderLine.operationId := by
      funext l
      simp
    rw [hcomp]
    exact h.distinct
  · obtain ⟨k, hk, rfl⟩ := hmem l hl
    change ((w.perform run.operationId a).orders.get _).isSome = true
    rw [orderId_onLine]
    obtain heq | ⟨-, heq⟩ := orders_perform w run.operationId a k.orderId
    · exact heq ▸ h.placed k hk
    · rw [heq]
      rfl
  · change ∃ op, (w.perform run.operationId a).store.operations.get _ = some op ∧ _
    rw [World.store_perform]
    obtain ⟨-, rfl⟩ | ⟨-, hq⟩ := hruns q v hq
    · rw [hb.operationId, hb.operation]
      exact ⟨op, hop, hkind⟩
    · exact h.known q v hq
  · change q < (w.perform run.operationId a).nextRun
    rw [World.nextRun_perform]
    obtain ⟨rfl, -⟩ | ⟨-, hq⟩ := hruns q v hq
    · exact h.fresh q run hr
    · exact h.fresh q v hq
  · obtain ⟨-, rfl⟩ | ⟨-, hq⟩ := hruns q v hq
    · rw [hb.rest] at hpaired
      exact paired_tail hpaired
    · exact h.scripts q v hq
  · obtain ⟨k, hk, rfl⟩ := hmem l hl
    rw [orderId_onLine]
    by_cases htouched : a.setsLine ≠ none ∧
        ∃ x ∈ w.lines, x.operationId = run.operationId ∧ x.orderId = k.orderId
    · obtain ⟨hset, x, hx, hxid, hxo⟩ := htouched
      obtain ⟨state, hstate⟩ := Option.ne_none_iff_exists'.mp hset
      refine .inr ⟨r, run', OrderedMap.get_set_self _, rollsNext_of_setsLine hb hstate hpaired,
        a.onLine run.operationId x, ?_, ?_, ?_⟩
      · change _ ∈ (w.perform run.operationId a).lines
        rw [lines_perform]
        exact List.mem_map_of_mem hx
      · rw [operationId_onLine, hb.operationId, hxid]
      · rw [orderId_onLine, hxo]
    · have hstates : (w.perform run.operationId a).lineStates k.orderId =
          w.lineStates k.orderId := by
        refine lineStates_perform ?_
        by_contra hcon
        push Not at hcon
        exact htouched hcon
      change (w.perform run.operationId a).orders.get k.orderId =
        some (rollUpState ((w.perform run.operationId a).lineStates k.orderId)) ∨ _
      rw [hstates]
      obtain hsame | ⟨-, hrolled⟩ :=
        orders_perform w run.operationId a k.orderId
      · obtain hok | ⟨q, v, hq, hnext, x, hx, hxid, hxo⟩ := h.rolled k hk
        · exact .inl (hsame.trans hok)
        · by_cases hqr : r = q
          · subst hqr
            obtain rfl := Option.some.inj (hr.symm.trans hq)
            rw [hb.rollsNext] at hnext
            cases a with
            | rollUp => exact .inl (hxo ▸ orders_rollUp hx hxid h.distinct (h.placed x hx))
            | _ => simp [Act.isRollUp] at hnext
          · refine .inr ⟨q, v, hget q hqr v hq, hnext, a.onLine run.operationId x, ?_, ?_, ?_⟩
            · change _ ∈ (w.perform run.operationId a).lines
              rw [lines_perform]
              exact List.mem_map_of_mem hx
            · rw [operationId_onLine, hxid]
            · rw [orderId_onLine, hxo]
      · exact .inl hrolled
  · obtain ⟨k, hk, rfl⟩ := hmem l hl
    change (w.perform run.operationId a).store.operations.get _ = some row at hrow
    rw [World.store_perform, operationId_onLine] at hrow
    rw [operationId_onLine]
    by_cases hmine : k.operationId = run.operationId ∧ a.setsLine ≠ none
    · obtain ⟨hkid, hset⟩ := hmine
      obtain ⟨s, hs⟩ := Option.ne_none_iff_exists'.mp hset
      obtain ⟨op', hop', hreg⟩ := h.lines k hk
      obtain rfl := Option.some.inj (hrow.symm.trans hop')
      rw [hkid] at hrow
      left
      cases hgive : run.givesUp with
      | true =>
        obtain ⟨-, -, hall⟩ := h.givingUp r run hr hgive row hrow hreg
        have := hall a (hb.rest ▸ List.mem_cons_self) s hs
        obtain rfl := Option.some.inj (hstate.symm.trans this)
        exact state_onLine hs hkid
      | false =>
        have hrun := (h.current r run hr (hlatest (by simp [hs]) hgive) hgive row hrow).1
        simp [hrun, matching] at hstate
    · have hsame : a.onLine run.operationId k = k := by
        by_cases hkid : k.operationId = run.operationId
        · have hnone : a.setsLine = none := by
            by_contra hne
            exact hmine ⟨hkid, hne⟩
          rw [onLine_of_none hnone]
        · exact onLine_of_ne hkid
      rw [hsame]
      refine (h.settled k hk row hrow state hstate).imp_right ?_
      rintro ⟨q, v, hq, hqid, hqgive, b, hbmem, hbs⟩
      by_cases hqr : r = q
      · subst hqr
        obtain rfl := Option.some.inj (hr.symm.trans hq)
        refine ⟨r, run', OrderedMap.get_set_self _, hb.operationId.trans hqid,
          hb.givesUp.trans hqgive, b, ?_, hbs⟩
        rw [hb.rest] at hbmem
        refine (List.mem_cons.mp hbmem).resolve_left ?_
        rintro rfl
        exact hmine ⟨hqid.symm, by simp [hbs]⟩
      · exact ⟨q, v, hget q hqr v hq, hqid, hqgive, b, hbmem, hbs⟩
  · change (w.perform run.operationId a).store.operations.get _ = some row at hrow
    rw [World.store_perform] at hrow
    change (w.perform run.operationId a).latest.get _ = some q ∧ _
    rw [World.latest_perform]
    obtain ⟨rfl, rfl⟩ | ⟨-, hq⟩ := hruns q v hq
    · rw [hb.operationId] at hrow ⊢
      obtain ⟨hl, hterm, hall⟩ := h.givingUp q run hr (hb.givesUp.symm.trans hqgive) row hrow hreg
      exact ⟨hl, hterm, fun b hbmem => hall b (hb.rest ▸ List.mem_cons_of_mem _ hbmem)⟩
    · exact h.givingUp q v hq hqgive row hrow hreg
  · change (w.perform run.operationId a).store.operations.get _ = some row at hrow
    rw [World.store_perform] at hrow
    change (w.perform run.operationId a).latest.get _ = some q at hqlatest
    rw [World.latest_perform] at hqlatest
    obtain ⟨rfl, rfl⟩ | ⟨hne, hq⟩ := hruns q v hq
    · rw [hb.operationId] at hrow hqlatest ⊢
      obtain ⟨hstatus, hphase⟩ :=
        h.current q run hr hqlatest (hb.givesUp.symm.trans hqgive) row hrow
      exact ⟨hstatus, fun hreg => phaseTracks_next hn (hphase hreg) (fun hnone hd =>
        done_onLine hd hnone) fun hset => done_of_sets hset⟩
    · obtain ⟨hstatus, hphase⟩ := h.current q v hq hqlatest hqgive row hrow
      refine ⟨hstatus, fun hreg => (hphase hreg).mono fun hd => ?_⟩
      by_cases hid : v.operationId = run.operationId
      · cases hset : a.setsLine with
        | none => exact hid ▸ done_onLine (hid ▸ hd) hset
        | some s =>
          -- two runs cannot both have made the latest claim
          exfalso
          rw [hid] at hqlatest hrow
          cases hgive : run.givesUp with
          | true =>
            have hl := (h.givingUp r run hr hgive row hrow hreg).1
            exact hne (Option.some.inj (hqlatest.symm.trans hl))
          | false =>
            have hl := hlatest (by simp [hset]) hgive
            exact hne (Option.some.inj (hqlatest.symm.trans hl))
      · exact done_of_ne hd hid

/-- The run of the latest claim may change the row of its operation, if the line keeps up. -/
lemma own {s : Store} (row : Operation) (runs : OrderedMap RunId Run) (h : Tracked w)
    (hr : w.runs.get r = some run) (hlatest : w.latest.get run.operationId = some r)
    (hrolls : run.rollsNext = false)
    (hop : w.store.operations.get run.operationId = some op) (hkind : row.kind = op.kind)
    (hops : ∀ j, s.operations.get j =
      if run.operationId = j then some row else w.store.operations.get j)
    (hruns : ∀ q, r ≠ q → runs.get q = w.runs.get q)
    (hmine : ∀ v, runs.get r = some v → v.operationId = run.operationId ∧
      v.operation = run.operation ∧ paired v.phase.rest = true ∧
      (v.givesUp = true → op.kind = register.kind → terminal row.status = true ∧
        ∀ a ∈ v.phase.rest, ∀ state, a.setsLine = some state →
          matching row.status = some state) ∧
      (v.givesUp = false → row.status = .running ∧
        (op.kind = register.kind → PhaseTracks (w.Done run.operationId) v)))
    (hset : op.kind = register.kind → ∀ state, matching row.status = some state →
      (∀ l ∈ w.lines, l.operationId = run.operationId → l.state = state) ∨
        ∃ v, runs.get r = some v ∧ v.givesUp = true ∧
          ∃ a ∈ v.phase.rest, a.setsLine = some state) :
    Tracked { w with store := s, runs := runs } where
  lines l hl := by
    obtain ⟨op', hop', hreg⟩ := h.lines l hl
    rw [hops]
    split
    · next e =>
      rw [← e, hop] at hop'
      obtain rfl := Option.some.inj hop'
      exact ⟨row, rfl, hkind.trans hreg⟩
    · exact ⟨op', hop', hreg⟩
  distinct := h.distinct
  placed := h.placed
  known q v hq := by
    dsimp only at hq ⊢
    rw [hops]
    by_cases hqr : r = q
    · obtain ⟨hid, hopn, -⟩ := hmine v (hqr ▸ hq)
      obtain ⟨op', hop', hk⟩ := h.known r run hr
      obtain rfl := Option.some.inj (hop.symm.trans hop')
      rw [hid, hopn, if_pos rfl]
      exact ⟨row, rfl, hkind.trans hk⟩
    · rw [hruns q hqr] at hq
      obtain ⟨op', hop', hk⟩ := h.known q v hq
      split
      · next e =>
        rw [← e, hop] at hop'
        obtain rfl := Option.some.inj hop'
        exact ⟨row, rfl, hkind.trans hk⟩
      · exact ⟨op', hop', hk⟩
  fresh q v hq := by
    dsimp only at hq ⊢
    by_cases hqr : r = q
    · exact hqr ▸ h.fresh r run hr
    · exact h.fresh q v (hruns q hqr ▸ hq)
  scripts q v hq := by
    dsimp only at hq
    by_cases hqr : r = q
    · exact (hmine v (hqr ▸ hq)).2.2.1
    · exact h.scripts q v (hruns q hqr ▸ hq)
  rolled l hl := by
    refine (h.rolled l hl).imp_right ?_
    rintro ⟨q, v, hq, hnext, k⟩
    have hqr : r ≠ q := by
      rintro rfl
      obtain rfl := Option.some.inj (hr.symm.trans hq)
      simp [hrolls] at hnext
    exact ⟨q, v, (hruns q hqr).trans hq, hnext, k⟩
  settled l hl x hx state hstate := by
    dsimp only at hx
    rw [hops] at hx
    split at hx
    · next e =>
      obtain rfl := Option.some.inj hx
      obtain ⟨op', hop', hreg⟩ := h.lines l hl
      rw [← e, hop] at hop'
      obtain rfl := Option.some.inj hop'
      obtain hall | ⟨v, hv, hvgive, ha⟩ := hset hreg state hstate
      · exact .inl (hall l hl e.symm)
      · exact .inr ⟨r, v, hv, (hmine v hv).1.trans e, hvgive, ha⟩
    · next e =>
      refine (h.settled l hl x hx state hstate).imp_right ?_
      rintro ⟨q, v, hq, hqid, hqgive, ha⟩
      have hqr : r ≠ q := by
        rintro rfl
        obtain rfl := Option.some.inj (hr.symm.trans hq)
        exact e hqid
      exact ⟨q, v, (hruns q hqr).trans hq, hqid, hqgive, ha⟩
  givingUp q v hq hqgive x hx hreg := by
    dsimp only at hq hx ⊢
    rw [hops] at hx
    by_cases hqr : r = q
    · subst hqr
      obtain ⟨hid, -, -, hg, -⟩ := hmine v hq
      rw [hid, if_pos rfl] at hx
      obtain rfl := Option.some.inj hx
      exact ⟨hid ▸ hlatest, hg hqgive (hkind.symm.trans hreg)⟩
    · rw [hruns q hqr] at hq
      split at hx
      · next e =>
        -- the row is another run's
        obtain rfl := Option.some.inj hx
        have hl := (h.givingUp q v hq hqgive op (e ▸ hop) (hkind.symm.trans hreg)).1
        exact absurd (Option.some.inj (hlatest.symm.trans (e ▸ hl))) hqr
      · exact h.givingUp q v hq hqgive x hx hreg
  current q v hq hqlatest hqgive x hx := by
    dsimp only at hq hqlatest hx ⊢
    rw [hops] at hx
    by_cases hqr : r = q
    · subst hqr
      obtain ⟨hid, -, -, -, hc⟩ := hmine v hq
      rw [hid, if_pos rfl] at hx
      obtain rfl := Option.some.inj hx
      obtain ⟨hrun, hphase⟩ := hc hqgive
      exact ⟨hrun, fun hreg => hid ▸ hphase (hkind.symm.trans hreg)⟩
    · rw [hruns q hqr] at hq
      split at hx
      · next e => exact absurd (Option.some.inj (hlatest.symm.trans (e ▸ hqlatest))) hqr
      · exact h.current q v hq hqlatest hqgive x hx

/-- Marking a submission changes no status. -/
lemma touch (row : Operation) (h : Tracked w) (hop : w.store.operations.get id = some op)
    (hkind : row.kind = op.kind) (hstatus : row.status = op.status) :
    Tracked { w with store := { w.store with operations := w.store.operations.set id row } } := by
  have hback : ∀ j x, (w.store.operations.set id row).get j = some x →
      ∃ y, w.store.operations.get j = some y ∧ y.kind = x.kind ∧ y.status = x.status := by
    intro j x hx
    rw [OrderedMap.get_set] at hx
    split at hx
    · next e =>
      obtain rfl := Option.some.inj hx
      exact ⟨op, e ▸ hop, hkind.symm, hstatus.symm⟩
    · exact ⟨x, hx, rfl, rfl⟩
  have hforth : ∀ j y, w.store.operations.get j = some y →
      ∃ x, (w.store.operations.set id row).get j = some x ∧ x.kind = y.kind := by
    intro j y hy
    rw [OrderedMap.get_set]
    split
    · next e =>
      rw [← e, hop] at hy
      obtain rfl := Option.some.inj hy
      exact ⟨row, rfl, hkind⟩
    · exact ⟨y, hy, rfl⟩
  refine ⟨fun l hl => ?_, h.distinct, h.placed, fun q v hq => ?_, h.fresh, h.scripts, h.rolled,
    fun l hl x hx state hstate => ?_, fun q v hq hg x hx hreg => ?_,
    fun q v hq hl hg x hx => ?_⟩
  · obtain ⟨y, hy, hreg⟩ := h.lines l hl
    obtain ⟨x, hx, hk⟩ := hforth _ y hy
    exact ⟨x, hx, hk.trans hreg⟩
  · obtain ⟨y, hy, hk'⟩ := h.known q v hq
    obtain ⟨x, hx, hk⟩ := hforth _ y hy
    exact ⟨x, hx, hk.trans hk'⟩
  · obtain ⟨y, hy, -, hs⟩ := hback _ x hx
    exact h.settled l hl y hy state (hs ▸ hstate)
  · obtain ⟨y, hy, hk, hs⟩ := hback _ x hx
    exact hs ▸ h.givingUp q v hq hg y hy (hk.trans hreg)
  · obtain ⟨y, hy, hk, hs⟩ := hback _ x hx
    obtain ⟨hrun, hphase⟩ := h.current q v hq hl hg y hy
    exact ⟨hs ▸ hrun, fun hreg => hphase (hk.trans hreg)⟩

lemma insert (op : Operation) (h : Tracked w) (hnone : w.store.operations.get id = none) :
    Tracked (w.insert id op) := by
  have hget : ∀ j x, w.store.operations.get j = some x →
      (w.insert id op).store.operations.get j = some x := by
    intro j x hx
    have hne : id ≠ j := fun e => by simp [← e, hnone] at hx
    exact (OrderedMap.get_set_of_ne _ hne).trans hx
  have hback : ∀ j, (∃ x, w.store.operations.get j = some x) → ∀ x,
      (w.insert id op).store.operations.get j = some x → w.store.operations.get j = some x := by
    rintro j ⟨y, hy⟩ x hx
    rw [hget j y hy] at hx
    exact Option.some.inj hx ▸ hy
  have hline : ∀ l ∈ w.lines, ∃ x, w.store.operations.get l.operationId = some x := fun l hl =>
    (h.lines l hl).imp fun _ h => h.1
  have hrun : ∀ r v, w.runs.get r = some v → ∃ x, w.store.operations.get v.operationId = some x :=
    fun r v hv => (h.known r v hv).imp fun _ h => h.1
  refine ⟨fun l hl => ?_, h.distinct, h.placed, fun q v hq => ?_, h.fresh, h.scripts, h.rolled,
    fun l hl x hx => ?_, fun q v hq hg x hx => ?_, fun q v hq hl hg x hx => ?_⟩
  · obtain ⟨x, hx, hreg⟩ := h.lines l hl
    exact ⟨x, hget _ _ hx, hreg⟩
  · obtain ⟨x, hx, hk⟩ := h.known q v hq
    exact ⟨x, hget _ _ hx, hk⟩
  · exact h.settled l hl x (hback _ (hline l hl) x hx)
  · exact h.givingUp q v hq hg x (hback _ (hrun q v hq) x hx)
  · exact h.current q v hq hl hg x (hback _ (hrun q v hq) x hx)

lemma rollUpState_pending {states : List LineState} (hne : states ≠ [])
    (h : ∀ s ∈ states, s = .pending) : rollUpState states = .fulfilling := by
  obtain ⟨s, rest, rfl⟩ := List.exists_cons_of_ne_nil hne
  simp [rollUpState, h s List.mem_cons_self]

/-- An order under way of being written: all its lines are pending. -/
structure Placing (order : OrderId) (w : World) : Prop where
  tracked : Tracked w
  state : w.orders.get order = some .fulfilling
  pending : ∀ l ∈ w.lines, l.orderId = order → l.state = .pending

lemma Placing.addItem {order : OrderId} {runAt : ℕ} {item : OrderItem} (h : Placing order w)
    (hnone : w.store.operations.get item.operationId = none) :
    Placing order (w.addItem order runAt item) := by
  have hins := h.tracked.insert
    { kind := "domain.register"
      resourceType := "public_domain"
      resourceId := item.publicDomainId
      nextRunAt := runAt } hnone
  have hmem : ∀ l ∈ (w.addItem order runAt item).lines,
      l ∈ w.lines ∨ l = { orderId := order, operationId := item.operationId } := fun l hl => by
    simpa [World.addItem] using hl
  have hold : ∀ l ∈ w.lines, l ∈ (w.addItem order runAt item).lines := fun l hl => by
    simp [World.addItem, hl]
  have hpending : ∀ l ∈ (w.addItem order runAt item).lines, l.orderId = order →
      l.state = .pending := by
    intro l hl ho
    obtain hl | rfl := hmem l hl
    · exact h.pending l hl ho
    · rfl
  have hnew : ∀ l ∈ w.lines, l.operationId ≠ item.operationId := by
    intro l hl e
    obtain ⟨op, hop, -⟩ := h.tracked.lines l hl
    simp [e, hnone] at hop
  refine ⟨⟨fun l hl => ?_, ?_, fun l hl => ?_, hins.known, hins.fresh, hins.scripts,
    fun l hl => ?_, fun l hl op hop state hstate => ?_, hins.givingUp,
    fun q v hq hlatest hgive op hop => ?_⟩, h.state, hpending⟩
  · obtain hl | rfl := hmem l hl
    · exact hins.lines l hl
    · exact ⟨_, OrderedMap.get_set_self _, rfl⟩
  · change ((w.lines ++ [_]).map OrderLine.operationId).Nodup
    rw [List.map_append, List.nodup_append]
    refine ⟨h.tracked.distinct, by simp, fun x hx y hy => ?_⟩
    obtain ⟨l, hl, rfl⟩ := List.mem_map.mp hx
    obtain rfl : y = item.operationId := by simpa using hy
    exact hnew l hl
  · obtain hl | rfl := hmem l hl
    · exact hins.placed l hl
    · exact Option.isSome_iff_exists.mpr ⟨_, h.state⟩
  · by_cases ho : l.orderId = order
    · left
      rw [ho]
      refine h.state.trans (congrArg some (rollUpState_pending ?_ ?_).symm)
      · exact List.ne_nil_of_mem (List.mem_map.mpr
          ⟨l, List.mem_filter.mpr ⟨hl, by simpa using ho⟩, rfl⟩)
      · intro s hs
        obtain ⟨k, hk, rfl⟩ := List.mem_map.mp hs
        obtain ⟨hk, hko⟩ := List.mem_filter.mp hk
        exact hpending k hk (by simpa using hko)
    · obtain hl | rfl := hmem l hl
      · have hstates : (w.addItem order runAt item).lineStates l.orderId =
            w.lineStates l.orderId := by
          unfold World.lineStates World.addItem
          dsimp only
          rw [List.filter_append]
          simp [Ne.symm ho]
        rw [hstates]
        refine (hins.rolled l hl).imp_right ?_
        rintro ⟨q, v, hq, hnext, k, hk, hk'⟩
        exact ⟨q, v, hq, hnext, k, hold k hk, hk'⟩
      · exact absurd rfl ho
  · obtain hl | rfl := hmem l hl
    · exact hins.settled l hl op hop state hstate
    · obtain rfl := Option.some.inj ((OrderedMap.get_set_self _).symm.trans hop)
      simp [matching] at hstate
  · obtain ⟨hrun, hphase⟩ := hins.current q v hq hlatest hgive op hop
    refine ⟨hrun, fun hreg => (hphase hreg).mono fun hdone l hl hlid => ?_⟩
    obtain hl | rfl := hmem l hl
    · exact hdone l hl hlid
    · obtain ⟨x, hx, -⟩ := h.tracked.known q v hq
      simp [← hlid, hnone] at hx

lemma placeOrder {order : OrderId} {items : List OrderItem} {runAt : ℕ} (h : Tracked w)
    (hfresh : w.fresh order items = true) : Tracked (w.placeOrder order items runAt) := by
  have hunused : ∀ l ∈ w.lines, l.orderId ≠ order := by
    have := hfresh
    simp only [World.fresh, decide_eq_true_eq, List.all_eq_true] at this
    exact this.2.1
  refine (World.placeOrder_induction (I := Placing order) hfresh ⟨⟨h.lines, h.distinct,
    fun l hl => ?_, h.known, h.fresh, h.scripts, fun l hl => ?_, h.settled, h.givingUp,
    h.current⟩, OrderedMap.get_set_self _, fun l hl ho => absurd ho (hunused l hl)⟩
    fun v item hnone hv => hv.addItem hnone).tracked
  · dsimp only
    rw [OrderedMap.get_set_of_ne _ (Ne.symm (hunused l hl))]
    exact h.placed l hl
  · dsimp only
    rw [OrderedMap.get_set_of_ne _ (Ne.symm (hunused l hl))]
    exact h.rolled l hl

lemma phaseTracks_start {done : Prop} (o : EngineOptions) (id : OpId) (op : Operation)
    (hkind : op.kind = register.kind) : PhaseTracks done (startRun o id op) := by
  have hh : handlerOf op.kind = some register := by
    rw [hkind]
    rfl
  unfold PhaseTracks startRun
  dsimp only
  rw [hh]
  dsimp only
  split
  · next h =>
    split at h
    · simp at h
    · obtain rfl := Phase.executing.inj h
      exact ⟨.inl rfl, rfl⟩
  · next h => split at h <;> simp at h
  · next h => split at h <;> simp at h
  · next h => split at h <;> simp at h
  · next h => split at h <;> simp at h
  · trivial

lemma rest_start (o : EngineOptions) (id : OpId) (op : Operation) :
    paired (startRun o id op).phase.rest = true ∧ (startRun o id op).givesUp = false := by
  unfold startRun Run.givesUp
  dsimp only
  cases hh : handlerOf op.kind with
  | none => exact ⟨rfl, rfl⟩
  | some h =>
    dsimp only
    by_cases hsub : h.mutating = true ∧ op.submittedAt ≠ none
    · rw [if_pos hsub]
      exact ⟨rfl, rfl⟩
    · rw [if_neg hsub]
      exact ⟨paired_execute hh, rfl⟩

lemma not_terminal_of_runnable {now : ℕ} (h : runnable op now = true) :
    terminal op.status = false := by
  cases hs : op.status <;> simp_all [runnable, terminal]

lemma claim {o : EngineOptions} {locked : List OpId} (h : Tracked w) :
    Tracked (w.claim o locked) := by
  obtain heq | ⟨c, hc, heq⟩ := w.claim_cases o locked
  · rwa [heq]
  obtain ⟨-, op, -, -, -, hop, -, hrunnable, -, hrow, hstore⟩ :=
    Store.claimNextOperation_eq_some hc
  obtain ⟨hpaired, hgive⟩ := rest_start o c.id c.operation
  have hkind : c.operation.kind = op.kind := by rw [hrow]; rfl
  have hstatus : c.operation.status = .running := by rw [hrow]; rfl
  have hget : ∀ j x, ((w.store.operations.set c.id c.operation).get j = some x) →
      (j = c.id ∧ x = c.operation) ∨ (j ≠ c.id ∧ w.store.operations.get j = some x) := by
    intro j x hx
    rw [OrderedMap.get_set] at hx
    split at hx
    · next e => exact .inl ⟨e.symm, (Option.some.inj hx).symm⟩
    · next e => exact .inr ⟨fun e' => e e'.symm, hx⟩
  have hrow' : ∀ j x, w.store.operations.get j = some x →
      ∃ y, (w.store.operations.set c.id c.operation).get j = some y ∧ y.kind = x.kind := by
    intro j x hx
    rw [OrderedMap.get_set]
    split
    · next e =>
      rw [← e, hop] at hx
      obtain rfl := Option.some.inj hx
      exact ⟨_, rfl, hkind⟩
    · exact ⟨x, hx, rfl⟩
  have hruns : ∀ q v, (w.runs.set w.nextRun (startRun o c.id c.operation)).get q = some v →
      (q = w.nextRun ∧ v = startRun o c.id c.operation) ∨
        (q ≠ w.nextRun ∧ w.runs.get q = some v) := by
    intro q v hq
    rw [OrderedMap.get_set] at hq
    split at hq
    · next e => exact .inl ⟨e.symm, (Option.some.inj hq).symm⟩
    · next e => exact .inr ⟨fun e' => e e'.symm, hq⟩
  have hkeep : ∀ q v, w.runs.get q = some v →
      (w.runs.set w.nextRun (startRun o c.id c.operation)).get q = some v := fun q v hq =>
    (OrderedMap.get_set_of_ne _ (h.fresh q v hq).ne').trans hq
  rw [heq, hstore]
  refine ⟨fun l hl => ?_, h.distinct, h.placed, fun q v hq => ?_, fun q v hq => ?_,
    fun q v hq => ?_, fun l hl => ?_, fun l hl x hx state hstate => ?_,
    fun q v hq hqgive x hx hreg => ?_, fun q v hq hlatest hqgive x hx => ?_⟩
  · obtain ⟨x, hx, hreg⟩ := h.lines l hl
    obtain ⟨y, hy, hk⟩ := hrow' _ x hx
    exact ⟨y, hy, hk.trans hreg⟩
  · obtain ⟨-, rfl⟩ | ⟨-, hq⟩ := hruns q v hq
    · exact ⟨c.operation, OrderedMap.get_set_self _, rfl⟩
    · obtain ⟨x, hx, hk⟩ := h.known q v hq
      obtain ⟨y, hy, hk'⟩ := hrow' _ x hx
      exact ⟨y, hy, hk'.trans hk⟩
  · obtain ⟨rfl, -⟩ | ⟨-, hq⟩ := hruns q v hq
    · exact Nat.lt_succ_self _
    · exact (h.fresh q v hq).trans (Nat.lt_succ_self _)
  · obtain ⟨-, rfl⟩ | ⟨-, hq⟩ := hruns q v hq
    · exact hpaired
    · exact h.scripts q v hq
  · refine (h.rolled l hl).imp_right ?_
    rintro ⟨q, v, hq, hnext, k⟩
    exact ⟨q, v, hkeep q v hq, hnext, k⟩
  · obtain ⟨-, rfl⟩ | ⟨-, hx⟩ := hget _ x hx
    · simp [hstatus, matching] at hstate
    · refine (h.settled l hl x hx state hstate).imp_right ?_
      rintro ⟨q, v, hq, hqid, hqgive, ha⟩
      exact ⟨q, v, hkeep q v hq, hqid, hqgive, ha⟩
  · obtain ⟨-, rfl⟩ | ⟨-, hq⟩ := hruns q v hq
    · simp [hgive] at hqgive
    · obtain ⟨hid, rfl⟩ | ⟨hid, hx⟩ := hget _ x hx
      · -- a terminal operation is not claimed
        rw [← hid] at hop
        have hterm := (h.givingUp q v hq hqgive op hop (hkind.symm.trans hreg)).2.1
        simp [not_terminal_of_runnable hrunnable] at hterm
      · dsimp only
        rw [OrderedMap.get_set_of_ne _ (Ne.symm hid)]
        exact h.givingUp q v hq hqgive x hx hreg
  · dsimp only at hlatest
    rw [OrderedMap.get_set] at hlatest
    obtain ⟨rfl, rfl⟩ | ⟨hne, hq⟩ := hruns q v hq
    · obtain ⟨-, rfl⟩ | ⟨hid, -⟩ := hget _ x hx
      · exact ⟨hstatus, fun hreg => phaseTracks_start o _ _ hreg⟩
      · exact absurd rfl hid
    · split at hlatest
      · exact absurd (Option.some.inj hlatest).symm hne
      · next hid =>
        obtain ⟨e, -⟩ | ⟨-, hx⟩ := hget _ x hx
        · exact absurd e.symm hid
        · exact h.current q v hq hlatest hqgive x hx

lemma rollsNext_of_unmirrored (h : run.unmirrored = false) : run.rollsNext = false ∧
    (run.givesUp = true → ∀ a ∈ run.phase.rest, a.setsLine = none) := by
  unfold Run.unmirrored at h
  unfold Run.rollsNext Run.givesUp
  split at h
  · next hp => simp [hp, h]
  · next hp => simp [hp, h]
  · next rest hp =>
    simp only [hp, Phase.rest]
    have hall : ∀ a ∈ rest, a.isRollUp = false ∧ a.setsLine = none := by simpa using h
    refine ⟨?_, fun _ a ha => (hall a ha).2⟩
    cases rest with
    | nil => rfl
    | cons a rest => exact (hall a List.mem_cons_self).1
  · cases hp : run.phase with
    | givingUp rest => simp_all
    | executing rest => cases rest <;> simp_all
    | confirming rest outcome => cases rest <;> simp_all
    | _ => simp

lemma onGiveUp_register (hkind : run.operation.kind = register.kind) (status : GiveUpStatus) :
    ∃ a ∈ run.onGiveUp status, a.setsLine = matching status.status := by
  have hh : run.handler = some register := by
    unfold Run.handler
    rw [hkind]
    rfl
  refine ⟨.setLine (gaveUpLine status), ?_, ?_⟩
  · simp [Run.onGiveUp, hh, register, setLineState]
  · cases status <;> rfl

theorem advance {reply : Reply} (h : Tracked w) (hr : w.runs.get r = some run)
    (hf : reply = .ok → w.publishes run = true → w.latest.get run.operationId = some r)
    (hm : ∀ err, reply = .throw err → run.unmirrored = false)
    {w' : World} (hmove : Move w r run reply w') : Tracked w' := by
  obtain ⟨op, hop, hkind⟩ := h.known r run hr
  cases hmove with
  | still => exact h
  | turn _ run' hturn =>
    obtain ⟨hgive, hgive'⟩ := givesUp_turn hturn
    refine h.setRun hr ?_ ?_ (paired_turn hturn (h.scripts r run hr))
      (rollsNext_turn hturn hm) hgive hgive' fun done hreg => phaseTracks_turn hturn hreg
    · cases hturn <;> rfl
    · cases hturn <;> rfl
  | perform a run' hnext =>
    refine h.perform hr hnext fun hset hgive => hf rfl ?_
    cases a with
    | setLine state =>
      cases hnext with
      | executing rest hp hcall => simp [World.publishes, hp]
      | confirming rest outcome hp => simp [World.publishes, hp]
      | givingUp rest hp => simp [Run.givesUp, hp] at hgive
    | _ => simp [Act.setsLine] at hset
  | mark rest s hp hs =>
    obtain ⟨op', hop', -, rfl⟩ := Store.markSubmitted_eq_some_iff.mp hs
    have htouch := h.touch { op' with submittedAt := some (op'.submittedAt.getD w.now) } hop' rfl
      rfl
    refine (htouch.record (.submitted run.operationId r)).setRun hr rfl rfl ?_
      (by simp [Run.rollsNext, hp, Act.isRollUp]) (by simp [Run.givesUp, hp]) rfl
      fun done _ hphase => ?_
    · have := h.scripts r run hr
      rw [hp] at this
      exact paired_tail this
    · unfold PhaseTracks at hphase
      rw [hp] at hphase
      have hall := hphase.2
      simp only [List.all_cons, Bool.and_eq_true] at hall
      exact ⟨ends_tail hphase.1 (fun _ hd => hd) (by simp [Act.setsLine]), hall.2⟩
  | send rest hp =>
    refine (h.record (.sent run.operationId r)).setRun hr rfl rfl ?_ (by simp [Run.rollsNext, hp])
      (by simp [Run.givesUp, hp]) rfl fun done _ hphase => ?_
    · have := h.scripts r run hr
      simpa [hp, Phase.rest] using this
    · unfold PhaseTracks at hphase
      rw [hp] at hphase
      exact hphase
  | refused rest clock err hp herr =>
    exact (h.record (.refused run.operationId r)).setRun hr rfl rfl rfl
      (by simp [Run.rollsNext, hp]) (by simp [Run.givesUp, hp]) rfl
      fun done _ _ => phaseTracks_afterError
  | absent clock outcome hp hobs =>
    refine (h.record (.absent run.operationId r)).setRun hr rfl rfl rfl
      (by simp [Run.rollsNext, hp]) (by simp [Run.givesUp, hp]) rfl fun done _ hphase => ?_
    change Decision.Sound done _
    refine sound_applyReconcile ?_
    rintro rfl
    simp [Run.observedAbsent] at hobs
  | finish u p s hp hs =>
    obtain ⟨op', hop', hfin, rfl⟩ := Store.finishOperation_eq_some_iff.mp hs
    obtain rfl := Option.some.inj (hop.symm.trans hop')
    have hlatest := hf rfl (by simp [World.publishes, hp, hfin])
    have hgive : run.givesUp = false := by simp [Run.givesUp, hp]
    obtain ⟨-, hphase⟩ := h.current r run hr hlatest hgive op hop
    refine (h.own (u.apply w.now op) (w.runs.delete r) hr hlatest
      (by simp [Run.rollsNext, hp]) hop rfl (fun j => ?_)
      (fun q hq => OrderedMap.get_delete_of_ne hq) (fun v hv => by simp at hv)
      fun hreg state hstate => .inl ?_).record _
    · exact (congrArg (OrderedMap.get · j) Store.operations_releaseLease).trans
        (OrderedMap.get_set _)
    · have hsound := hphase hreg
      unfold PhaseTracks at hsound
      rw [hp] at hsound
      obtain hnone | ⟨hsucc, hdone⟩ := hsound
      · simp [FinishUpdate.apply, hnone] at hstate
      · obtain rfl : LineState.succeeded = state := by
          simpa [FinishUpdate.apply, hsucc, matching] using hstate
        exact hdone
  | giveUp status u p s hp hs =>
    obtain ⟨op', hop', hfin, rfl⟩ := Store.finishOperation_eq_some_iff.mp hs
    obtain rfl := Option.some.inj (hop.symm.trans hop')
    have hlatest := hf rfl (by simp [World.publishes, hp, hfin])
    have hgive : run.givesUp = false := by simp [Run.givesUp, hp]
    obtain ⟨-, hphase⟩ := h.current r run hr hlatest hgive op hop
    have hstatus : op.kind = register.kind → (u.apply w.now op).status = status.status := by
      intro hreg
      have hsound := hphase hreg
      unfold PhaseTracks at hsound
      rwa [hp] at hsound
    have hself : (w.runs.set r { run with phase := .givingUp (run.onGiveUp status) }).get r =
        some { run with phase := .givingUp (run.onGiveUp status) } := OrderedMap.get_set_self _
    refine (h.own (u.apply w.now op)
      (w.runs.set r { run with phase := .givingUp (run.onGiveUp status) }) hr hlatest
      (by simp [Run.rollsNext, hp]) hop rfl (fun j => ?_)
      (fun q hq => OrderedMap.get_set_of_ne _ hq) (fun v hv => ?_)
      fun hreg state hstate => .inr ⟨_, hself, rfl, ?_⟩).record _
    · exact (congrArg (OrderedMap.get · j) Store.operations_releaseLease).trans
        (OrderedMap.get_set _)
    · obtain rfl := Option.some.inj (hself.symm.trans hv)
      refine ⟨rfl, rfl, paired_onGiveUp status, fun _ hreg => ?_, fun hno => by
        simp [Run.givesUp] at hno⟩
      rw [hstatus hreg]
      exact ⟨by cases status <;> rfl, fun a ha state hs => setsLine_onGiveUp ha hs⟩
    · obtain ⟨a, ha, hs⟩ := onGiveUp_register (hkind.symm.trans hreg) status
      exact ⟨a, ha, hs.trans ((hstatus hreg) ▸ hstate)⟩
  | dropped d p hp =>
    refine h.gone fun v hv => ?_
    obtain rfl := Option.some.inj (hr.symm.trans hv)
    exact ⟨by simp [Run.rollsNext, hp], fun hg => by simp [Run.givesUp, hp] at hg⟩
  | mirrored hp =>
    refine h.gone fun v hv => ?_
    obtain rfl := Option.some.inj (hr.symm.trans hv)
    exact ⟨by simp [Run.rollsNext, hp], fun _ a ha => by simp [hp, Phase.rest] at ha⟩
  | unmirrored rest err hp =>
    refine h.gone fun v hv => ?_
    obtain rfl := Option.some.inj (hr.symm.trans hv)
    exact rollsNext_of_unmirrored (hm err rfl)

theorem step {e : Event} (hm : mirrored w e = true) (h : Tracked w) : Tracked (w.step e) := by
  cases e with
  | tick ms =>
    exact ⟨h.lines, h.distinct, h.placed, h.known, h.fresh, h.scripts, h.rolled, h.settled,
      h.givingUp, h.current⟩
  | enqueue id kind resourceType resourceId maxAttempts runAt =>
    unfold World.step
    dsimp only
    split
    · next hnone => exact h.insert _ hnone
    · exact h
  | placeOrder order items runAt =>
    unfold World.step
    dsimp only
    split
    · next hfresh => exact h.placeOrder hfresh
    · exact h
  | claim options locked => exact h.claim
  | advance r reply clock =>
    unfold World.step
    dsimp only
    split
    · next run hr =>
      refine h.advance hr ?_ ?_ (move_advance w r run reply clock)
      · rintro rfl hpub
        simpa [mirrored, hr, hpub] using hm
      · rintro err rfl
        simpa [mirrored, hr] using hm
    · exact h
  | crash r =>
    refine h.gone fun run hr => rollsNext_of_unmirrored ?_
    simpa [mirrored, hr] using hm

lemma init : Tracked {} where
  lines _ h := by simp at h
  distinct := List.nodup_nil
  placed _ h := by simp at h
  known _ _ h := by simp at h
  fresh _ _ h := by simp at h
  scripts _ _ h := by simp at h
  rolled _ h := by simp at h
  settled _ h := by simp at h
  givingUp _ _ h := by simp at h
  current _ _ h := by simp at h

end Tracked

/-- A registration that goes through. -/
def registered : List Event :=
  [.placeOrder 0 [⟨0, "d"⟩] 0, .claim { workerId := "w" } [], .advance 0 .ok 0, .advance 0 .ok 0,
    .advance 0 .ok 0, .advance 0 .ok 0, .advance 0 .ok 0, .advance 0 .ok 0, .advance 0 .ok 0,
    .advance 0 .ok 0, .advance 0 .ok 0, .advance 0 .ok 0, .advance 0 .ok 0, .advance 0 .ok 0]

end Tnp.Operations
