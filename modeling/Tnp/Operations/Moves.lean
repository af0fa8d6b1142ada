import Tnp.Operations.World

/-!
What one event can do: an inversion of the step function, and what each call of the store leaves
behind.
-/

namespace Tnp.Operations

open Tnp.Lib

/-! ### The store -/

namespace Store

variable {s s' : Store} {now : ℕ} {id j : OpId} {op row : Operation} {worker : String}

lemma takeLease_eq_some_iff {e : Expiry} :
    s.takeLease now id op e = some s' ↔
      (∀ l, s.leases.get (resourceKey op) = some l →
        l.expiresAt.before now = true ∨ l.operationId = id) ∧
      s' = { s with leases := s.leases.set (resourceKey op) ⟨id, e⟩ } := by
  unfold takeLease
  cases hl : s.leases.get (resourceKey op) with
  | none => simp [@eq_comm _ s']
  | some l =>
    by_cases hfree : l.expiresAt.before now ∨ l.operationId = id <;> simp [hfree, @eq_comm _ s']

/-- A claim takes one of the candidates, whose resource is free or its own. -/
lemma claimFirst_eq_some {t : ℕ} {l : List (OpId × Operation)} {c : Claimed}
    (h : s.claimFirst now worker t l = some c) :
    ∃ before op rest, l = before ++ (c.id, op) :: rest ∧
      (∀ b ∈ before, s.takeLease now b.1 b.2 (.instant t) = none) ∧
      (∀ k, s.leases.get (resourceKey op) = some k →
        k.expiresAt.before now = true ∨ k.operationId = c.id) ∧
      c.operation = markRunning op worker t ∧
      c.store = { operations := s.operations.set c.id c.operation
                  leases := s.leases.set (resourceKey op) ⟨c.id, .instant t⟩ } := by
  induction l with
  | nil => simp [claimFirst] at h
  | cons e rest ih =>
    obtain ⟨id, op⟩ := e
    unfold claimFirst at h
    split at h
    · next s' hs =>
      obtain ⟨hfree, rfl⟩ := takeLease_eq_some_iff.mp hs
      obtain rfl := Option.some.inj h
      exact ⟨[], op, rest, rfl, by simp, hfree, rfl, rfl⟩
    · next hnone =>
      obtain ⟨before, op', rest', hl, hbefore, hc⟩ := ih h
      refine ⟨(id, op) :: before, op', rest', by simp [hl], ?_, hc⟩
      exact fun b hb => (List.mem_cons.mp hb).elim (fun e => e ▸ hnone) (hbefore b)

lemma mem_candidates {locked : List OpId} {o : ClaimOptions}
    (h : (id, op) ∈ s.candidates now locked o) :
    s.operations.get id = some op ∧ op.kind ∈ o.kinds ∧ runnable op now = true ∧
      s.heldByOther now id op = false ∧ id ∉ locked := by
  unfold candidates at h
  have hmem := (List.mem_insertionSort _).mp (List.mem_of_mem_take h)
  simp only [List.mem_filter, decide_eq_true_eq, OrderedMap.mem_entries_iff] at hmem
  simpa using hmem

lemma claimNextOperation_eq_some {locked : List OpId} {o : ClaimOptions} {c : Claimed}
    (h : s.claimNextOperation now locked o = some c) :
    ∃ before op rest, s.candidates now locked o = before ++ (c.id, op) :: rest ∧
      (∀ b ∈ before, s.takeLease now b.1 b.2
        (.instant (now + leaseSeconds o.leaseMs * 1000)) = none) ∧
      s.operations.get c.id = some op ∧ op.kind ∈ o.kinds ∧ runnable op now = true ∧
      s.heldByOther now c.id op = false ∧
      c.operation = markRunning op o.workerId (now + leaseSeconds o.leaseMs * 1000) ∧
      c.store = { operations := s.operations.set c.id c.operation
                  leases := s.leases.set (resourceKey op)
                    ⟨c.id, .instant (now + leaseSeconds o.leaseMs * 1000)⟩ } := by
  unfold claimNextOperation at h
  split at h
  · simp at h
  · obtain ⟨before, op, rest, hl, hbefore, -, hop, hstore⟩ := claimFirst_eq_some h
    obtain ⟨hget, hkind, hrun, hheld, -⟩ :=
      mem_candidates (hl ▸ List.mem_append_right _ List.mem_cons_self)
    exact ⟨before, op, rest, hl, hbefore, hget, hkind, hrun, hheld, hop, hstore⟩

lemma markSubmitted_eq_some_iff :
    s.markSubmitted now id worker = some s' ↔
      ∃ op, s.operations.get id = some op ∧ s.submittable now id worker = true ∧
        s' = { s with
          operations := s.operations.set id
            { op with submittedAt := some (op.submittedAt.getD now) } } := by
  unfold markSubmitted
  cases hop : s.operations.get id with
  | none => simp
  | some op => by_cases hsub : s.submittable now id worker <;> simp [hsub, @eq_comm _ s']

lemma submittable_iff (hop : s.operations.get id = some op) :
    s.submittable now id worker = true ↔
      op.status = .running ∧ op.leaseOwner = some worker ∧
        ∃ t, op.leaseExpiresAt = some t ∧ now < t := by
  simp [submittable, hop, Option.any_eq_true]

lemma finishable_iff (hop : s.operations.get id = some op) :
    s.finishable id worker = true ↔ op.status = .running ∧ op.leaseOwner = some worker := by
  simp [finishable, hop]

lemma finishOperation_eq_some_iff {u : FinishUpdate} :
    s.finishOperation now id worker u = some s' ↔
      ∃ op, s.operations.get id = some op ∧ s.finishable id worker = true ∧
        s' = releaseLease { s with operations := s.operations.set id (u.apply now op) } id
          (u.apply now op) := by
  unfold finishOperation
  cases hop : s.operations.get id with
  | none => simp
  | some op => by_cases hfin : s.finishable id worker <;> simp [hfin, @eq_comm _ s']

@[simp] lemma operations_releaseLease : (releaseLease s id op).operations = s.operations := by
  unfold releaseLease
  grind

/-- Only the lease of the operation itself is parked or given up. -/
lemma leases_releaseLease (key : String) :
    (releaseLease s id op).leases.get key =
      if key = resourceKey op ∧ (s.leases.get key).any (·.operationId = id) then
        if keepsLease op then some ⟨id, .infinity⟩ else none
      else s.leases.get key := by
  unfold releaseLease
  by_cases hkey : key = resourceKey op
  · subst hkey
    cases hl : s.leases.get (resourceKey op) with
    | none => simp [hl]
    | some l =>
      by_cases hid : l.operationId = id
      · subst hid
        by_cases hkeep : keepsLease op <;> simp [hkeep]
      · simp [hid, hl]
  · have hne : resourceKey op ≠ key := fun e => hkey e.symm
    cases hl : s.leases.get (resourceKey op) with
    | none => simp [hkey]
    | some l =>
      by_cases hid : l.operationId = id
      · subst hid
        by_cases hkeep : keepsLease op <;>
          simp [hkeep, hkey, OrderedMap.get_set_of_ne _ hne, OrderedMap.get_delete_of_ne hne]
      · simp [hid, hkey]

end Store

@[simp] lemma resourceKey_apply (u : FinishUpdate) (now : ℕ) (op : Operation) :
    resourceKey (u.apply now op) = resourceKey op := rfl

@[simp] lemma resourceKey_markRunning (op : Operation) (worker : String) (t : ℕ) :
    resourceKey (Store.markRunning op worker t) = resourceKey op := rfl

/-! ### Runs -/

def Act.isCall : Act → Bool
  | .call => true
  | _ => false

/-- The steps of a run that touch nothing but the run. -/
inductive Turn (run : Run) : Reply → Run → Prop
  | done (clock : ℕ) (h : run.phase = .executing []) :
      Turn run .ok (run.afterOutcome clock .succeeded)
  | exit (exits : ExecuteOutcome → Bool) (rest : List Act) (clock : ℕ) (outcome : ExecuteOutcome)
      (h : run.phase = .executing (.read exits :: rest)) (hexit : exits outcome = true) :
      Turn run (.exit outcome) (run.afterOutcome clock outcome)
  | lost (rest : List Act) (clock : ℕ) (h : run.phase = .executing (.call :: rest)) :
      Turn run .ok (run.afterError clock .leaseLost false)
  | threw (rest : List Act) (clock : ℕ) (err : Thrown) (h : run.phase = .executing rest) :
      Turn run (.throw err) (run.afterError clock err false)
  | unsent (rest : List Act) (clock : ℕ) (err : Thrown) (h : run.phase = .marked rest) :
      Turn run (.throw err) (run.afterError clock err err.refusal)
  | unproven (rest : List Act) (clock : ℕ) (err : Thrown) (h : run.phase = .awaiting rest)
      (herr : err.refusal = false) : Turn run (.throw err) (run.afterError clock err false)
  | returned (rest : List Act) (h : run.phase = .awaiting rest) :
      Turn run .ok { run with mutationReturned := true, phase := .executing rest }
  | observe (e : Evidence) (rest : List Act) (outcome : ReconcileOutcome)
      (h : run.phase = .reconciling) (he : run.reconcile e = some (rest, outcome)) :
      Turn run (.evidence e) { run with phase := .confirming rest outcome }
  | unchecked (a : Act) (rest : List Act) (outcome : ReconcileOutcome) (err : Thrown)
      (h : run.phase = .confirming (a :: rest) outcome) :
      Turn run (.throw err) { run with phase := .confirming [] (unchecked err) }
  | reconciled (clock : ℕ) (outcome : ReconcileOutcome) (h : run.phase = .confirming [] outcome)
      (hobs : run.observedAbsent clock outcome = false) :
      Turn run .ok { run with
        phase := .deciding (applyReconcile run.options run.operation clock outcome) false }

/-- The next act of a run, other than the provider call, and the run behind it. -/
inductive Run.Next (run : Run) : Act → Run → Prop
  | executing (a : Act) (rest : List Act) (h : run.phase = .executing (a :: rest))
      (hcall : a.isCall = false) : Next run a { run with phase := .executing rest }
  | confirming (a : Act) (rest : List Act) (outcome : ReconcileOutcome)
      (h : run.phase = .confirming (a :: rest) outcome) :
      Next run a { run with phase := .confirming rest outcome }
  | givingUp (a : Act) (rest : List Act) (h : run.phase = .givingUp (a :: rest)) :
      Next run a { run with phase := .givingUp rest }

def Decision.update : Decision → Option FinishUpdate
  | .drop => none
  | .finish u => some u
  | .giveUp _ u => some u

/-- What one await of a run can do to the world. -/
inductive Move (w : World) (r : RunId) (run : Run) : Reply → World → Prop
  | still (reply : Reply) : Move w r run reply w
  | turn (reply : Reply) (run' : Run) (h : Turn run reply run') :
      Move w r run reply (w.setRun r run')
  | perform (a : Act) (run' : Run) (h : run.Next a run') :
      Move w r run .ok ((w.perform run.operationId a).setRun r run')
  | mark (rest : List Act) (s : Store) (h : run.phase = .executing (.call :: rest))
      (hs : w.store.markSubmitted w.now run.operationId run.options.workerId = some s) :
      Move w r run .ok (({ w with store := s }.record (.submitted run.operationId r)).setRun r
        { run with submitted := true, phase := .marked rest })
  | send (rest : List Act) (h : run.phase = .marked rest) :
      Move w r run .ok
        ((w.record (.sent run.operationId r)).setRun r { run with phase := .awaiting rest })
  | refused (rest : List Act) (clock : ℕ) (err : Thrown) (h : run.phase = .awaiting rest)
      (herr : err.refusal = true) :
      Move w r run (.throw err)
        ((w.record (.refused run.operationId r)).setRun r (run.afterError clock err true))
  | absent (clock : ℕ) (outcome : ReconcileOutcome) (h : run.phase = .confirming [] outcome)
      (hobs : run.observedAbsent clock outcome = true) :
      Move w r run .ok ((w.record (.absent run.operationId r)).setRun r
        { run with
          phase := .deciding (applyReconcile run.options run.operation clock outcome) true })
  | finish (u : FinishUpdate) (p : Bool) (s : Store) (h : run.phase = .deciding (.finish u) p)
      (hs : w.store.finishOperation w.now run.operationId run.options.workerId u = some s) :
      Move w r run .ok
        (({ w with store := s }.record (.recorded run.operationId r u.status p)).gone r)
  | giveUp (status : GiveUpStatus) (u : FinishUpdate) (p : Bool) (s : Store)
      (h : run.phase = .deciding (.giveUp status u) p)
      (hs : w.store.finishOperation w.now run.operationId run.options.workerId u = some s) :
      Move w r run .ok
        (({ w with store := s }.record (.recorded run.operationId r u.status p)).setRun r
          { run with phase := .givingUp (run.onGiveUp status) })
  /-- The result is dropped: another worker holds the lease. -/
  | dropped (d : Decision) (p : Bool) (h : run.phase = .deciding d p) :
      Move w r run .ok (w.gone r)
  | mirrored (h : run.phase = .givingUp []) : Move w r run .ok (w.gone r)
  | unmirrored (rest : List Act) (err : Thrown) (h : run.phase = .givingUp rest) :
      Move w r run (.throw err) (w.gone r)

lemma move_commit (w : World) (r : RunId) (run : Run) (d : Decision) (p : Bool)
    (h : run.phase = .deciding d p) : Move w r run .ok (w.commit r run p d) := by
  unfold World.commit
  split
  · exact .dropped _ _ h
  · split
    · next hs => exact .finish _ _ _ h hs
    · exact .dropped _ _ h
  · split
    · next hs => exact .giveUp _ _ _ _ h hs
    · exact .dropped _ _ h

theorem move_advance (w : World) (r : RunId) (run : Run) (reply : Reply) (clock : ℕ) :
    Move w r run reply (w.advance r run reply clock) := by
  unfold World.advance
  split
  · next h => exact .turn _ _ (.done clock h)
  · next exits rest outcome h =>
    split
    · next hexit => exact .turn _ _ (.exit exits rest clock outcome h hexit)
    · exact .still _
  · next rest h =>
    split
    · next hs => exact .mark rest _ h hs
    · exact .turn _ _ (.lost rest clock h)
  · next a rest hcall h =>
    refine .perform a _ (.executing a rest h ?_)
    cases a <;> first | rfl | exact absurd rfl hcall
  · next rest err h => exact .turn _ _ (.threw rest clock err h)
  · next rest h => exact .send rest h
  · next rest err h => exact .turn _ _ (.unsent rest clock err h)
  · next rest h => exact .turn _ _ (.returned rest h)
  · next rest err h =>
    split
    · next herr => exact .refused rest clock err h herr
    · next herr => exact .turn _ _ (.unproven rest clock err h (by simpa using herr))
  · next e h =>
    split
    · next rest outcome he => exact .turn _ _ (.observe e rest outcome h he)
    · exact .still _
  · next outcome h =>
    dsimp only
    split
    · next hobs => exact .absent clock outcome h hobs
    · next hobs => exact .turn _ _ (.reconciled clock outcome h (by simpa using hobs))
  · next a rest outcome h => exact .perform a _ (.confirming a rest outcome h)
  · next a rest outcome err h => exact .turn _ _ (.unchecked a rest outcome err h)
  · next d p h => exact move_commit w r run d p h
  · next h => exact .mirrored h
  · next a rest h => exact .perform a _ (.givingUp a rest h)
  · next rest err h => exact .unmirrored rest err h
  · exact .still _

/-! ### What the parts of a step leave alone -/

namespace World

variable {w : World} {r : RunId} {run : Run} {id : OpId} {a : Act}

lemma perform_frame (w : World) (id : OpId) (a : Act) :
    ∃ lines orders, w.perform id a = { w with lines := lines, orders := orders } := by
  unfold perform
  split
  · exact ⟨_, _, rfl⟩
  · split
    · unfold rollUpOrderState
      split <;> exact ⟨_, _, rfl⟩
    · exact ⟨_, _, rfl⟩
  · exact ⟨_, _, rfl⟩

@[simp] lemma store_perform : (w.perform id a).store = w.store := by
  obtain ⟨_, _, h⟩ := perform_frame w id a
  rw [h]

@[simp] lemma history_perform : (w.perform id a).history = w.history := by
  obtain ⟨_, _, h⟩ := perform_frame w id a
  rw [h]

@[simp] lemma runs_perform : (w.perform id a).runs = w.runs := by
  obtain ⟨_, _, h⟩ := perform_frame w id a
  rw [h]

@[simp] lemma latest_perform : (w.perform id a).latest = w.latest := by
  obtain ⟨_, _, h⟩ := perform_frame w id a
  rw [h]

@[simp] lemma nextRun_perform : (w.perform id a).nextRun = w.nextRun := by
  obtain ⟨_, _, h⟩ := perform_frame w id a
  rw [h]

@[simp] lemma now_perform : (w.perform id a).now = w.now := by
  obtain ⟨_, _, h⟩ := perform_frame w id a
  rw [h]

/-- What the first claim of an operation finds. -/
structure Unstarted (op : Operation) : Prop where
  status : op.status = .queued
  submittedAt : op.submittedAt = none
  resubmissions : op.resubmissions = 0

/-- An order is its operations inserted one by one, each under a new identifier. -/
lemma placeOrder_induction {I : World → Prop} {order : OrderId} {items : List OrderItem}
    {runAt : ℕ} (hfresh : w.fresh order items = true)
    (h0 : I { w with orders := w.orders.set order .fulfilling })
    (hadd : ∀ v item, v.store.operations.get item.operationId = none → I v →
      I (v.addItem order runAt item)) : I (w.placeOrder order items runAt) := by
  simp only [fresh, decide_eq_true_eq, List.all_eq_true] at hfresh
  obtain ⟨-, -, hnew, hnodup⟩ := hfresh
  have hnew' : ∀ item ∈ items, ({ w with orders := w.orders.set order .fulfilling } :
      World).store.operations.get item.operationId = none := by simpa using hnew
  unfold placeOrder
  generalize { w with orders := w.orders.set order .fulfilling } = v at h0 hnew'
  induction items generalizing v with
  | nil => exact h0
  | cons item items ih =>
    rw [List.map_cons, List.nodup_cons] at hnodup
    refine ih (fun x hx => hnew x (List.mem_cons_of_mem _ hx)) hnodup.2 _
      (hadd v item (hnew' item List.mem_cons_self) h0) fun x hx => ?_
    have hne : item.operationId ≠ x.operationId := fun e =>
      hnodup.1 (e ▸ List.mem_map_of_mem hx)
    exact (OrderedMap.get_set_of_ne _ hne).trans (hnew' x (List.mem_cons_of_mem _ hx))

/-- A claim leaves the world alone, or starts a run. -/
lemma claim_cases (w : World) (o : EngineOptions) (locked : List OpId) :
    w.claim o locked = w ∨
    ∃ c, w.store.claimNextOperation w.now locked
        { workerId := o.workerId, leaseMs := o.leaseMs, kinds := kinds } = some c ∧
      w.claim o locked = { w with
        store := c.store
        runs := w.runs.set w.nextRun (startRun o c.id c.operation)
        nextRun := w.nextRun + 1
        latest := w.latest.set c.id w.nextRun } := by
  unfold claim
  split
  · next c hc => exact .inr ⟨c, hc, rfl⟩
  · exact .inl rfl

end World

/-! ### Handlers -/

def mutatingKind (kind : String) : Bool := (handlerOf kind).any Handler.mutating

def calls (rest : List Act) : ℕ := rest.countP Act.isCall

lemma handlerOf_cases {kind : String} {h : Handler} (hh : handlerOf kind = some h) :
    h.kind = kind ∧ (h = register ∨ h = renew ∨ h = sync ∨ h = dnsApply) := by
  have hmem := List.mem_of_find?_eq_some hh
  have hkind := List.find?_some hh
  exact ⟨by simpa using hkind, by simpa [createOperationHandlers] using hmem⟩

lemma calls_execute {kind : String} {h : Handler} (hh : handlerOf kind = some h) :
    calls h.execute ≤ 1 ∧ (0 < calls h.execute → h.mutating = true) := by
  obtain ⟨-, rfl | rfl | rfl | rfl⟩ := handlerOf_cases hh
  · exact ⟨by decide, fun _ => rfl⟩
  · exact ⟨by decide, fun _ => rfl⟩
  · exact ⟨by decide, fun h => absurd h (by decide)⟩
  · exact ⟨by decide, fun _ => rfl⟩

lemma unchecked_ne_absent (err : Thrown) : unchecked err ≠ .absent := by
  cases err <;> simp [unchecked]

lemma mutating_eq {op : Operation} {run : Run} (h : op.kind = run.operation.kind) :
    run.mutating = mutatingKind op.kind := by
  rw [h]
  rfl

/-! ### Superseded runs -/

/-- The next await of the run is a send, or a write that the guard of the store lets through. -/
def World.effective (w : World) (run : Run) : Bool :=
  match run.phase with
  | .executing (.call :: _) =>
    w.store.submittable w.now run.operationId run.options.workerId
  | .marked _ => true
  | .deciding (.finish _) _ => w.store.finishable run.operationId run.options.workerId
  | .deciding (.giveUp _ _) _ => w.store.finishable run.operationId run.options.workerId
  | _ => false

/-- Every send, and every write the store lets through, is by the run of the operation's latest
claim. -/
def fenced (w : World) : Event → Bool
  | .advance r .ok _ =>
    (w.runs.get r).all fun run => !w.effective run || w.latest.get run.operationId = some r
  | _ => true

lemma latest_of_fenced {w : World} {r : RunId} {run : Run} {clock : ℕ}
    (h : fenced w (.advance r .ok clock) = true) (hr : w.runs.get r = some run)
    (heff : w.effective run = true) : w.latest.get run.operationId = some r := by
  simpa [fenced, hr, heff] using h

end Tnp.Operations
