import Tnp.Operations.Moves

/-!
A mutating provider call is not sent twice on a guess.

The store compares lease owners, and every loop of a process owns its leases under one name: a
loop that stalled past its lease passes the guards of the loop that took over. What is proved is
what holds as long as no superseded run gets through.
-/

namespace Tnp.Operations

open Tnp.Lib Tnp.Lib.Run

/-! ### The sends of an operation -/

structure LastSend where
  run : RunId
  refused : Bool := false
  /-- A reconciliation has since observed it absent, past the settle window. -/
  absent : Bool := false

structure Sends where
  last : Option LastSend := none
  /-- Sent again with the previous send neither refused nor observed absent. -/
  unproven : ℕ := 0
  /-- Sent again because the previous send was observed absent. -/
  afterAbsent : ℕ := 0

namespace Sends

variable (x : Sends) (id : OpId)

def add : Mark → Sends
  | .sent j r =>
    if j = id then
      { last := some { run := r }
        unproven := x.unproven + if x.last.any fun l => !l.refused && !l.absent then 1 else 0
        afterAbsent := x.afterAbsent + if x.last.any fun l => !l.refused && l.absent then 1 else 0 }
    else x
  | .refused j r =>
    if j = id then
      { x with last := x.last.map fun l => if l.run = r then { l with refused := true } else l }
    else x
  | .absent j _ =>
    if j = id then { x with last := x.last.map fun l => { l with absent := true } } else x
  | _ => x

/-- Another send would be justified, and within the allowance of resubmissions. -/
def Ready (resubmissions : ℕ) : Prop :=
  ∀ l, x.last = some l → l.refused = true ∨ l.absent = true ∧ x.afterAbsent < resubmissions

end Sends

def sends (id : OpId) : List Mark → Sends
  | [] => {}
  | m :: history => (sends id history).add id m

/-- **At most once**: what the sends of every operation have to satisfy. -/
def World.AtMostOnce (w : World) : Prop :=
  ∀ id op, w.store.operations.get id = some op →
    (sends id w.history).unproven = 0 ∧ (sends id w.history).afterAbsent ≤ 1 ∧
      (op.kind = register.kind → (sends id w.history).afterAbsent = 0)

/-! ### What a decision may ask for -/

variable {mutating submitted mutationReturned p : Bool} {op : Operation} {clock : ℕ}
  {o : EngineOptions} {u : FinishUpdate} {x : Sends} {id j : OpId} {r : RunId} {m : Mark}
  {w : World} {run run' : Run}

lemma update_applyExecuteOutcome {outcome : ExecuteOutcome}
    (h : (applyExecuteOutcome mutating submitted clock outcome).update = some u) :
    u.clearSubmitted = false ∧ u.incrementResubmissions = false := by
  unfold applyExecuteOutcome at h
  grind [toUnknown, giveUp, Decision.update]

/-- The mark of a submission is cleared only where nothing was submitted, or all of it refused. -/
lemma update_applyExecuteError {err : Thrown}
    (h : (applyExecuteError mutating op submitted mutationReturned clock err).update = some u) :
    u.incrementResubmissions = false ∧ (u.clearSubmitted = true → mutating = true →
      submitted = false ∨ mutationReturned = false ∧ err.refusal = true) := by
  unfold applyExecuteError at h
  grind [toUnknown, giveUp, retryOrGiveUp, Decision.update, Thrown.refusal]

/-- Reconciliation sends an operation back only once, and only on observing it absent. -/
lemma update_applyReconcile {outcome : ReconcileOutcome}
    (h : (applyReconcile o op clock outcome).update = some u) :
    (u.incrementResubmissions = false ∧ u.clearSubmitted = false) ∨
      outcome = .absent ∧ settled o op clock = true ∧ op.resubmissions = 0 ∧
        u.incrementResubmissions = true := by
  unfold applyReconcile applyReconcile.undecided at h
  grind [giveUp, Decision.update]

/-! ### What a mark changes -/

lemma add_of_ne {m : Mark} (h : ∀ r, m ≠ .sent id r ∧ m ≠ .refused id r ∧ m ≠ .absent id r) :
    x.add id m = x := by
  unfold Sends.add
  grind

/-- Only a send counts, and only an answer changes what is known of the last one. -/
structure Sends.Grows (x y : Sends) : Prop where
  unproven : y.unproven = x.unproven
  afterAbsent : y.afterAbsent = x.afterAbsent
  last : ∀ l, y.last = some l → ∃ k, x.last = some k ∧ k.run = l.run ∧
    (k.refused = true → l.refused = true) ∧ (k.absent = true → l.absent = true)
  some : ∀ k, x.last = some k → ∃ l, y.last = some l ∧ l.run = k.run

lemma Sends.grows_refl : x.Grows x :=
  ⟨rfl, rfl, fun l h => ⟨l, h, rfl, id, id⟩, fun k h => ⟨k, h, rfl⟩⟩

lemma Sends.grows_add (h : ∀ r, m ≠ .sent id r) : x.Grows (x.add id m) := by
  unfold Sends.add
  split
  · next j r =>
    split
    · next hj => exact absurd (by rw [hj]) (h r)
    · exact grows_refl
  · split
    · refine ⟨rfl, rfl, fun l hl => ?_, fun k hk => ?_⟩
      · obtain ⟨k, hk, rfl⟩ := Option.map_eq_some_iff.mp hl
        exact ⟨k, hk, by split <;> rfl, by grind, by grind⟩
      · exact ⟨_, Option.map_eq_some_iff.mpr ⟨k, hk, rfl⟩, by split <;> rfl⟩
    · exact grows_refl
  · split
    · refine ⟨rfl, rfl, fun l hl => ?_, fun k hk => ?_⟩
      · obtain ⟨k, hk, rfl⟩ := Option.map_eq_some_iff.mp hl
        exact ⟨k, hk, rfl, by grind, by grind⟩
      · exact ⟨_, Option.map_eq_some_iff.mpr ⟨k, hk, rfl⟩, rfl⟩
    · exact grows_refl
  · exact grows_refl

lemma Sends.Ready.grows {y : Sends} {n : ℕ} (h : x.Ready n) (hg : x.Grows y) : y.Ready n := by
  intro l hl
  obtain ⟨k, hk, -, href, habs⟩ := hg.last l hl
  rw [hg.afterAbsent]
  exact (h k hk).imp href fun h => ⟨habs h.1, h.2⟩

lemma Sends.Ready.mono {n k : ℕ} (h : x.Ready n) (hle : n ≤ k) : x.Ready k := fun l hl =>
  (h l hl).imp_right fun h => ⟨h.1, h.2.trans_le hle⟩

lemma Sends.refused_add {l : LastSend} (h : (x.add id (.refused id r)).last = some l)
    (hrun : l.run = r) : l.refused = true := by
  simp only [Sends.add, if_pos] at h
  obtain ⟨k, -, rfl⟩ := Option.map_eq_some_iff.mp h
  split
  · rfl
  · next hne =>
    rw [if_neg hne] at hrun
    exact absurd hrun hne

lemma Sends.absent_add {l : LastSend} (h : (x.add id (.absent id r)).last = some l) :
    l.absent = true := by
  simp only [Sends.add, if_pos] at h
  obtain ⟨k, -, rfl⟩ := Option.map_eq_some_iff.mp h
  rfl

/-- A send that was ready is a justified one. -/
lemma Sends.Ready.sent {n : ℕ} (id : OpId) (r : RunId) (h : x.Ready n) (hun : x.unproven = 0)
    (hle : x.afterAbsent ≤ n) :
    (x.add id (.sent id r)).unproven = 0 ∧ (x.add id (.sent id r)).afterAbsent ≤ n ∧
      (x.add id (.sent id r)).last = some { run := r } := by
  simp only [Sends.add, if_pos]
  cases hl : x.last with
  | none => simp [hun, hle]
  | some l =>
    obtain href | ⟨habs, hlt⟩ := h l hl
    · simp [hun, hle, href]
    · cases href : l.refused with
      | true => simp [hun, hle, href]
      | false => simpa [hun, habs, href] using Nat.succ_le_of_lt hlt

/-! ### The invariant -/

structure RowOk (x : Sends) (op : Operation) : Prop where
  once : op.resubmissions ≤ 1
  registration : op.kind = register.kind → op.resubmissions = 0
  unproven : x.unproven = 0
  afterAbsent : x.afterAbsent ≤ op.resubmissions
  ready : op.submittedAt = none → x.Ready op.resubmissions
  idle : mutatingKind op.kind = false → x.last = none

structure UpdateOk (x : Sends) (op : Operation) (u : FinishUpdate) : Prop where
  clear : u.incrementResubmissions = false → u.clearSubmitted = true →
    mutatingKind op.kind = true → x.Ready op.resubmissions
  resubmit : u.incrementResubmissions = true → op.resubmissions = 0 ∧ op.kind ≠ register.kind ∧
    ∀ l, x.last = some l → l.refused = true ∨ l.absent = true

/-- Where a run of a mutating operation stands with its one call. -/
def PhaseOk (x : Sends) (op : Operation) (r : RunId) (run : Run) : Prop :=
  match run.phase with
  | .executing rest => calls rest ≤ 1 ∧
      (0 < calls rest → mutatingKind op.kind = true ∧ run.submitted = false) ∧
      (mutatingKind op.kind = true → run.submitted = run.mutationReturned ∧
        (run.submitted = false → op.submittedAt = none))
  | .marked rest => mutatingKind op.kind = true ∧ run.submitted = true ∧ calls rest = 0 ∧
      op.submittedAt ≠ none ∧ x.Ready op.resubmissions
  | .awaiting rest => mutatingKind op.kind = true ∧ run.submitted = true ∧ calls rest = 0 ∧
      op.submittedAt ≠ none ∧ ∃ l, x.last = some l ∧ l.run = r
  | .reconciling => op.resubmissions = run.operation.resubmissions
  | .confirming _ outcome => op.resubmissions = run.operation.resubmissions ∧
      (outcome = .absent → op.kind ≠ register.kind)
  | .deciding d _ => ∀ u, d.update = some u → UpdateOk x op u
  | .givingUp _ => True

structure RunOk (x : Sends) (op : Operation) (r : RunId) (run : Run) : Prop where
  kind : op.kind = run.operation.kind
  phase : PhaseOk x op r run

structure Inv (w : World) : Prop where
  rows : ∀ id op, w.store.operations.get id = some op → RowOk (sends id w.history) op
  blank : ∀ id, w.store.operations.get id = none → sends id w.history = {}
  known : ∀ r run, w.runs.get r = some run → ∃ op, w.store.operations.get run.operationId = some op
  runs : ∀ r run, w.runs.get r = some run → w.latest.get run.operationId = some r →
    ∀ op, w.store.operations.get run.operationId = some op →
      RunOk (sends run.operationId w.history) op r run

lemma RowOk.grows {y : Sends} (h : RowOk x op) (hg : x.Grows y) : RowOk y op where
  once := h.once
  registration := h.registration
  unproven := hg.unproven.trans h.unproven
  afterAbsent := hg.afterAbsent ▸ h.afterAbsent
  ready hsub := (h.ready hsub).grows hg
  idle hkind := by
    cases hy : y.last with
    | none => rfl
    | some l =>
      obtain ⟨k, hk, -⟩ := hg.last l hy
      simp [h.idle hkind] at hk

lemma UpdateOk.grows {y : Sends} (h : UpdateOk x op u) (hg : x.Grows y) : UpdateOk y op u where
  clear hinc hclear hkind := (h.clear hinc hclear hkind).grows hg
  resubmit hinc := by
    obtain ⟨h0, hkind, hall⟩ := h.resubmit hinc
    refine ⟨h0, hkind, fun l hl => ?_⟩
    obtain ⟨k, hk, -, href, habs⟩ := hg.last l hl
    exact (hall k hk).imp href habs

lemma PhaseOk.grows {y : Sends} (h : PhaseOk x op r run) (hg : x.Grows y) : PhaseOk y op r run := by
  unfold PhaseOk at h ⊢
  split at h
  · exact h
  · exact ⟨h.1, h.2.1, h.2.2.1, h.2.2.2.1, h.2.2.2.2.grows hg⟩
  · obtain ⟨l, hl, hrun⟩ := h.2.2.2.2
    obtain ⟨k, hk, hk'⟩ := hg.some l hl
    exact ⟨h.1, h.2.1, h.2.2.1, h.2.2.2.1, k, hk, hk'.trans hrun⟩
  · exact h
  · exact h
  · exact fun u hu => (h u hu).grows hg
  · exact h

lemma RunOk.grows {y : Sends} (h : RunOk x op r run) (hg : x.Grows y) : RunOk y op r run :=
  ⟨h.kind, h.phase.grows hg⟩

/-- A committed decision leaves a sound row. -/
lemma rowOk_apply {now : ℕ} (h : RowOk x op) (hu : UpdateOk x op u) :
    RowOk x (u.apply now op) := by
  cases hinc : u.incrementResubmissions with
  | false =>
    have hres : (u.apply now op).resubmissions = op.resubmissions := by
      simp [FinishUpdate.apply, hinc]
    refine ⟨hres ▸ h.once, fun hk => hres ▸ h.registration hk, h.unproven, hres ▸ h.afterAbsent,
      fun hsub => ?_, h.idle⟩
    rw [hres]
    cases hclear : u.clearSubmitted with
    | false => exact h.ready (by simpa [FinishUpdate.apply, hclear] using hsub)
    | true =>
      cases hkind : mutatingKind op.kind with
      | false => exact fun l hl => by simp [h.idle hkind] at hl
      | true => exact hu.clear hinc hclear hkind
  | true =>
    obtain ⟨h0, hkind, hall⟩ := hu.resubmit hinc
    have hres : (u.apply now op).resubmissions = 1 := by simp [FinishUpdate.apply, hinc, h0]
    have hab : x.afterAbsent = 0 := Nat.le_zero.mp (h0 ▸ h.afterAbsent)
    refine ⟨hres.le, fun hk => absurd hk hkind, h.unproven, by omega, fun _ l hl => ?_, h.idle⟩
    exact (hall l hl).imp_right fun habs => ⟨habs, by omega⟩

/-! ### Parts of a step -/

namespace Inv

lemma setRun (h : Inv w) (hr : w.runs.get r = some run) (hid : run'.operationId = run.operationId)
    (hok : ∀ op, w.store.operations.get run.operationId = some op →
      RunOk (sends run.operationId w.history) op r run →
      RunOk (sends run.operationId w.history) op r run') : Inv (w.setRun r run') where
  rows := h.rows
  blank := h.blank
  known q v hq := by
    change (w.runs.set r run').get q = some v at hq
    rw [OrderedMap.get_set] at hq
    split at hq
    · obtain rfl := Option.some.inj hq
      exact hid ▸ h.known r run hr
    · exact h.known q v hq
  runs q v hq hlatest op hop := by
    change (w.runs.set r run').get q = some v at hq
    rw [OrderedMap.get_set] at hq
    split at hq
    · next e =>
      obtain rfl := Option.some.inj hq
      subst e
      rw [hid] at hlatest hop ⊢
      exact hok op hop (h.runs r run hr hlatest op hop)
    · exact h.runs q v hq hlatest op hop

lemma gone (h : Inv w) (r : RunId) : Inv (w.gone r) where
  rows := h.rows
  blank := h.blank
  known q v hq := by
    change (w.runs.delete r).get q = some v at hq
    rw [OrderedMap.get_delete] at hq
    split at hq
    · simp at hq
    · exact h.known q v hq
  runs q v hq := by
    change (w.runs.delete r).get q = some v at hq
    rw [OrderedMap.get_delete] at hq
    split at hq
    · simp at hq
    · exact h.runs q v hq

/-- A mark other than a send only adds to what is known. -/
lemma record (h : Inv w) (hm : ∀ j q, m ≠ .sent j q) : Inv (w.record m) where
  rows j op hop := (h.rows j op hop).grows (Sends.grows_add (hm j))
  blank j hj := by
    change (sends j w.history).add j m = {}
    rw [h.blank j hj]
    unfold Sends.add
    split
    · next i q => exact absurd rfl (hm i q)
    · split <;> rfl
    · split <;> rfl
    · rfl
  known := h.known
  runs q v hq hlatest op hop := (h.runs q v hq hlatest op hop).grows (Sends.grows_add (hm _))

lemma perform (h : Inv w) {a : Act} : Inv (w.perform id a) := by
  obtain ⟨lines, orders, heq⟩ := World.perform_frame w id a
  rw [heq]
  exact ⟨h.rows, h.blank, h.known, h.runs⟩

/-- The run of the latest claim may change the row and the sends of its operation: no other run is
held to them. -/
lemma own {w' : World} (row : Operation) (h : Inv w) (hlatest : w.latest.get id = some r)
    (hlatest' : w'.latest = w.latest)
    (hops : ∀ j, w'.store.operations.get j = if id = j then some row else w.store.operations.get j)
    (hsends : ∀ j, id ≠ j → sends j w'.history = sends j w.history)
    (hrow : RowOk (sends id w'.history) row)
    (hruns : ∀ q, r ≠ q → w'.runs.get q = w.runs.get q)
    (hmine : ∀ v, w'.runs.get r = some v →
      v.operationId = id ∧ RunOk (sends id w'.history) row r v) : Inv w' where
  rows j op hop := by
    rw [hops] at hop
    split at hop
    · next e =>
      obtain rfl := Option.some.inj hop
      exact e ▸ hrow
    · next e => exact hsends j e ▸ h.rows j op hop
  blank j hj := by
    rw [hops] at hj
    split at hj
    · simp at hj
    · next e => exact (hsends j e).trans (h.blank j hj)
  known q v hq := by
    rw [hops]
    split
    · exact ⟨_, rfl⟩
    · next e =>
      by_cases hqr : r = q
      · exact absurd (hmine v (hqr ▸ hq)).1.symm e
      · exact h.known q v (hruns q hqr ▸ hq)
  runs q v hq hcur op hop := by
    by_cases hqr : r = q
    · subst hqr
      obtain ⟨hid, hok⟩ := hmine v hq
      rw [hops, if_pos hid.symm] at hop
      obtain rfl := Option.some.inj hop
      rwa [hid]
    · rw [hruns q hqr] at hq
      rw [hlatest'] at hcur
      have hne : id ≠ v.operationId := by
        rintro rfl
        exact hqr (Option.some.inj (hlatest.symm.trans hcur))
      rw [hops, if_neg hne] at hop
      rw [hsends _ hne]
      exact h.runs q v hq hcur op hop

end Inv

/-! ### A step -/

/-- A registration is never observed absent. -/
lemma reconcile_absent {e : Evidence} {rest : List Act}
    (h : run.reconcile e = some (rest, .absent)) : run.operation.kind ≠ register.kind := by
  intro hkind
  have hh : run.handler = some register := by
    unfold Run.handler
    rw [hkind]
    rfl
  unfold Run.reconcile at h
  rw [hh, Option.bind_some] at h
  unfold register at h
  cases e with
  | threw err => exact unchecked_ne_absent err (by simpa using congrArg (·.map Prod.snd) h)
  | registration visible => cases visible <;> simp at h
  | renewal before expiresAt => simp at h
  | zone remoteHash baseHash intended => simp at h

lemma updateOk_of_keeps (hclear : u.clearSubmitted = false)
    (hinc : u.incrementResubmissions = false) : UpdateOk x op u where
  clear _ h := absurd h (by simp [hclear])
  resubmit h := absurd h (by simp [hinc])

lemma runOk_turn {reply : Reply} (hrow : RowOk x op) (h : RunOk x op r run)
    (ht : Turn run reply run') : RunOk x op r run' := by
  have hmut := mutating_eq h.kind
  have hphase := h.phase
  unfold PhaseOk at hphase
  cases ht with
  | done clock hp =>
    refine ⟨h.kind, fun u hu => ?_⟩
    obtain ⟨hclear, hinc⟩ := update_applyExecuteOutcome hu
    exact updateOk_of_keeps hclear hinc
  | exit exits rest clock outcome hp hexit =>
    refine ⟨h.kind, fun u hu => ?_⟩
    obtain ⟨hclear, hinc⟩ := update_applyExecuteOutcome hu
    exact updateOk_of_keeps hclear hinc
  | lost rest clock hp =>
    exact ⟨h.kind, fun u hu => by simp [applyExecuteError, Decision.update] at hu⟩
  | threw rest clock err hp =>
    rw [hp] at hphase
    refine ⟨h.kind, fun u hu => ?_⟩
    obtain ⟨hinc, hclear⟩ := update_applyExecuteError hu
    refine ⟨fun _ hc hk => ?_, fun hi => absurd hi (by simp [hinc])⟩
    obtain ⟨heq, hnone⟩ := hphase.2.2 hk
    obtain hsub | ⟨hret, -⟩ := hclear hc (hmut.trans hk)
    · exact hrow.ready (hnone hsub)
    · exact hrow.ready (hnone (heq.trans hret))
  | unsent rest clock err hp =>
    rw [hp] at hphase
    refine ⟨h.kind, fun u hu => ?_⟩
    obtain ⟨hinc, -⟩ := update_applyExecuteError hu
    exact ⟨fun _ _ _ => hphase.2.2.2.2, fun hi => absurd hi (by simp [hinc])⟩
  | unproven rest clock err hp herr =>
    rw [hp] at hphase
    refine ⟨h.kind, fun u hu => ?_⟩
    obtain ⟨hinc, hclear⟩ := update_applyExecuteError hu
    refine ⟨fun _ hc hk => ?_, fun hi => absurd hi (by simp [hinc])⟩
    obtain hsub | ⟨-, href⟩ := hclear hc (hmut.trans hk)
    · simp [hphase.2.1] at hsub
    · simp [herr] at href
  | returned rest hp =>
    rw [hp] at hphase
    obtain ⟨hk, hsub, hcalls, -⟩ := hphase
    exact ⟨h.kind, by omega, fun hpos => by omega,
      fun _ => ⟨hsub, fun hnot => by simp [hsub] at hnot⟩⟩
  | observe e rest outcome hp he =>
    rw [hp] at hphase
    refine ⟨h.kind, hphase, fun habs => ?_⟩
    subst habs
    exact h.kind ▸ reconcile_absent he
  | unchecked a rest outcome err hp =>
    rw [hp] at hphase
    exact ⟨h.kind, hphase.1, fun habs => absurd habs (unchecked_ne_absent err)⟩
  | reconciled clock outcome hp hobs =>
    refine ⟨h.kind, fun u hu => ?_⟩
    obtain ⟨hinc, hclear⟩ | ⟨rfl, hsettled, -⟩ := update_applyReconcile hu
    · exact updateOk_of_keeps hclear hinc
    · exact absurd hsettled (by simpa [Run.observedAbsent] using hobs)

lemma runOk_next {a : Act} (h : RunOk x op r run) (hn : run.Next a run') : RunOk x op r run' := by
  have hphase := h.phase
  unfold PhaseOk at hphase
  cases hn with
  | executing rest hp hcall =>
    rw [hp] at hphase
    have hcalls : calls rest = calls (a :: rest) := by simp [calls, hcall]
    exact ⟨h.kind, hcalls ▸ hphase.1, hcalls ▸ hphase.2.1, hphase.2.2⟩
  | confirming rest outcome hp =>
    rw [hp] at hphase
    exact ⟨h.kind, hphase⟩
  | givingUp rest hp => exact ⟨h.kind, trivial⟩

lemma runOk_start (x : Sends) (o : EngineOptions) (id : OpId) (op : Operation) (r : RunId) :
    RunOk x op r (startRun o id op) := by
  refine ⟨rfl, ?_⟩
  unfold PhaseOk startRun
  dsimp only
  cases hh : handlerOf op.kind with
  | none =>
    intro u hu
    obtain rfl := Option.some.inj hu
    exact updateOk_of_keeps rfl rfl
  | some h =>
    have hmut : mutatingKind op.kind = h.mutating := by simp [mutatingKind, hh]
    obtain ⟨hle, hpos⟩ := calls_execute hh
    dsimp only
    by_cases hsub : h.mutating = true ∧ op.submittedAt ≠ none
    · rw [if_pos hsub]
    · rw [if_neg hsub]
      have hnone : h.mutating = true → op.submittedAt = none := fun hm => by
        by_contra hne
        exact hsub ⟨hm, hne⟩
      exact ⟨hle, fun hc => ⟨hmut.trans (hpos hc), by simp [hnone (hpos hc)]⟩,
        fun hm => ⟨by simp [hnone (hmut ▸ hm)], fun _ => hnone (hmut ▸ hm)⟩⟩

lemma rowOk_markRunning {t : ℕ} {worker : String} (h : RowOk x op) :
    RowOk x (Store.markRunning op worker t) :=
  ⟨h.once, h.registration, h.unproven, h.afterAbsent, h.ready, h.idle⟩

lemma rowOk_new (hres : op.resubmissions = 0) : RowOk {} op where
  once := by omega
  registration _ := hres
  unproven := rfl
  afterAbsent := Nat.zero_le _
  ready _ := fun l hl => by simp at hl
  idle _ := rfl

namespace Inv

lemma insert (op : Operation) (h : Inv w) (hnone : w.store.operations.get id = none)
    (hres : op.resubmissions = 0) : Inv (w.insert id op) where
  rows j row hj := by
    change (w.store.operations.set id op).get j = some row at hj
    rw [OrderedMap.get_set] at hj
    split at hj
    · next e =>
      obtain rfl := Option.some.inj hj
      subst e
      exact (h.blank _ hnone : sends id w.history = {}) ▸ rowOk_new hres
    · exact h.rows j row hj
  blank j hj := by
    change (w.store.operations.set id op).get j = none at hj
    rw [OrderedMap.get_set] at hj
    split at hj
    · simp at hj
    · exact h.blank j hj
  known q v hq := by
    change ∃ row, (w.store.operations.set id op).get v.operationId = some row
    rw [OrderedMap.get_set]
    split
    · exact ⟨_, rfl⟩
    · exact h.known q v hq
  runs q v hq hcur row hrow := by
    obtain ⟨row', hrow'⟩ := h.known q v hq
    have hne : id ≠ v.operationId := fun e => by simp [← e, hnone] at hrow'
    change (w.store.operations.set id op).get v.operationId = some row at hrow
    rw [OrderedMap.get_set_of_ne _ hne] at hrow
    exact h.runs q v hq hcur row hrow

lemma claim (h : Inv w) (locked : List OpId) : Inv (w.claim o locked) := by
  obtain heq | ⟨c, hc, heq⟩ := w.claim_cases o locked
  · rwa [heq]
  obtain ⟨-, op, -, -, -, hop, -, -, -, hrow, hstore⟩ := Store.claimNextOperation_eq_some hc
  rw [heq, hstore]
  have hrowOk : RowOk (sends c.id w.history) c.operation :=
    hrow ▸ rowOk_markRunning (h.rows _ _ hop)
  refine ⟨fun j row hj => ?_, fun j hj => ?_, fun q v hq => ?_, fun q v hq hcur row hj => ?_⟩
  · dsimp only at hj ⊢
    rw [OrderedMap.get_set] at hj
    split at hj
    · next e =>
      obtain rfl := Option.some.inj hj
      exact e ▸ hrowOk
    · exact h.rows j row hj
  · dsimp only at hj ⊢
    rw [OrderedMap.get_set] at hj
    split at hj
    · simp at hj
    · exact h.blank j hj
  · dsimp only at hq ⊢
    rw [OrderedMap.get_set] at hq ⊢
    split
    · exact ⟨_, rfl⟩
    · next hne =>
      split at hq
      · obtain rfl := Option.some.inj hq
        exact absurd rfl hne
      · exact h.known q v hq
  · dsimp only at hq hcur hj ⊢
    rw [OrderedMap.get_set] at hq hcur hj
    by_cases hid : c.id = v.operationId
    · -- only the run just started made the latest claim
      rw [if_pos hid] at hcur hj
      rw [if_pos (Option.some.inj hcur)] at hq
      obtain rfl := Option.some.inj hq
      obtain rfl := Option.some.inj hj
      exact runOk_start _ _ _ _ _
    · rw [if_neg hid] at hcur hj
      split at hq
      · obtain rfl := Option.some.inj hq
        exact absurd rfl hid
      · exact h.runs q v hq hcur row hj

/-- What a run of the latest claim writes to its own row, and what it then is. -/
lemma write {s : Store} {row : Operation} (h : Inv w)
    (hlatest : w.latest.get run.operationId = some r)
    (hs : s.operations = w.store.operations.set run.operationId row)
    (hm : ∀ j, run.operationId ≠ j → ∀ x : Sends, x.add j m = x)
    (hrow : RowOk (sends run.operationId (m :: w.history)) row)
    (hid : run'.operationId = run.operationId)
    (hok : RunOk (sends run.operationId (m :: w.history)) row r run') :
    Inv (({ w with store := s }.record m).setRun r run') := by
  refine h.own row hlatest rfl (fun j => ?_) (fun j hj => hm j hj _) hrow
    (fun q hq => OrderedMap.get_set_of_ne _ hq) fun v hv => ?_
  · exact (congrArg (OrderedMap.get · j) hs).trans (OrderedMap.get_set _)
  · obtain rfl := Option.some.inj ((OrderedMap.get_set_self _).symm.trans hv)
    exact ⟨hid, hok⟩

theorem advance (h : Inv w) {reply : Reply} (hr : w.runs.get r = some run)
    (hf : reply = .ok → w.effective run = true → w.latest.get run.operationId = some r)
    {w' : World} (hmove : Move w r run reply w') : Inv w' := by
  obtain ⟨op, hop⟩ := h.known r run hr
  have hrow := h.rows _ _ hop
  cases hmove with
  | still => exact h
  | turn _ run' hturn =>
    refine h.setRun hr ?_ fun op' hop' hok => runOk_turn (h.rows _ _ hop') hok hturn
    cases hturn <;> rfl
  | perform a run' hnext =>
    have hr' : (w.perform run.operationId a).runs.get r = some run := by simpa using hr
    refine h.perform.setRun hr' ?_ fun op' _ hok => runOk_next hok hnext
    cases hnext <;> rfl
  | mark rest s hp hs =>
    obtain ⟨op', hop', hsub, rfl⟩ := Store.markSubmitted_eq_some_iff.mp hs
    obtain rfl := Option.some.inj (hop.symm.trans hop')
    have hlatest := hf rfl (by simp [World.effective, hp, hsub])
    have hok := h.runs r run hr hlatest op hop
    have hphase := hok.phase
    simp only [PhaseOk, hp] at hphase
    have hcalls : calls (.call :: rest) = calls rest + 1 := List.countP_cons_of_pos rfl
    obtain ⟨hmut, hnot⟩ := hphase.2.1 (by omega)
    have hready := hrow.ready ((hphase.2.2 hmut).2 hnot)
    refine h.write hlatest rfl (fun _ _ _ => rfl) ?_ rfl ⟨hok.kind, ?_⟩
    · exact ⟨hrow.once, hrow.registration, hrow.unproven, hrow.afterAbsent,
        fun hnone => by simp at hnone, hrow.idle⟩
    · exact ⟨hmut, rfl, by omega, by simp, hready⟩
  | send rest hp =>
    have hlatest := hf rfl (by simp [World.effective, hp])
    have hok := h.runs r run hr hlatest op hop
    have hphase := hok.phase
    simp only [PhaseOk, hp] at hphase
    obtain ⟨hmut, hsub, hcalls, hset, hready⟩ := hphase
    obtain ⟨hun, hab, hlast⟩ := hready.sent run.operationId r hrow.unproven
      hrow.afterAbsent
    refine h.own op hlatest rfl (fun j => ?_) (fun j hj => if_neg hj) ?_
      (fun q hq => OrderedMap.get_set_of_ne _ hq) fun v hv => ?_
    · split
      · next e => exact e ▸ hop
      · rfl
    · exact ⟨hrow.once, hrow.registration, hun, hab, fun hnone => absurd hnone hset,
        fun hidle => by simp [hidle] at hmut⟩
    · obtain rfl := Option.some.inj ((OrderedMap.get_set_self _).symm.trans hv)
      exact ⟨rfl, hok.kind, hmut, hsub, hcalls, hset, _, hlast, rfl⟩
  | refused rest clock err hp herr =>
    refine (h.record (m := .refused run.operationId r) (by simp)).setRun hr rfl
      fun op' _ hok => ⟨hok.kind, fun u hu => ?_⟩
    have hphase := hok.phase
    simp only [PhaseOk, hp] at hphase
    obtain ⟨-, -, -, -, l, hl, hrun⟩ := hphase
    obtain ⟨hinc, -⟩ := update_applyExecuteError hu
    refine ⟨fun _ _ _ k hk => ?_, fun hi => absurd hi (by simp [hinc])⟩
    obtain rfl := Option.some.inj (hl.symm.trans hk)
    exact .inl (Sends.refused_add hl hrun)
  | absent clock outcome hp hobs =>
    refine (h.record (m := .absent run.operationId r) (by simp)).setRun hr rfl
      fun op' _ hok => ⟨hok.kind, fun u hu => ?_⟩
    have hphase := hok.phase
    simp only [PhaseOk, hp] at hphase
    obtain ⟨hinc, hclear⟩ | ⟨rfl, -, hres, hinc⟩ := update_applyReconcile hu
    · exact updateOk_of_keeps hclear hinc
    · exact ⟨fun hno => by simp [hinc] at hno,
        fun _ => ⟨hphase.1.trans hres, hphase.2 rfl, fun l hl => .inr (Sends.absent_add hl)⟩⟩
  | finish u p s hp hs =>
    obtain ⟨op', hop', hfin, rfl⟩ := Store.finishOperation_eq_some_iff.mp hs
    obtain rfl := Option.some.inj (hop.symm.trans hop')
    have hlatest := hf rfl (by simp [World.effective, hp, hfin])
    have hphase := (h.runs r run hr hlatest op hop).phase
    simp only [PhaseOk, hp] at hphase
    refine h.own (u.apply w.now op) hlatest rfl (fun j => ?_) (fun _ _ => rfl)
      (rowOk_apply hrow (hphase u rfl))
      (fun q hq => OrderedMap.get_delete_of_ne hq) fun v hv => ?_
    · exact (congrArg (OrderedMap.get · j) Store.operations_releaseLease).trans
        (OrderedMap.get_set _)
    · exact absurd ((OrderedMap.get_delete_self).symm.trans hv) (by simp)
  | giveUp status u p s hp hs =>
    obtain ⟨op', hop', hfin, rfl⟩ := Store.finishOperation_eq_some_iff.mp hs
    obtain rfl := Option.some.inj (hop.symm.trans hop')
    have hlatest := hf rfl (by simp [World.effective, hp, hfin])
    have hok := h.runs r run hr hlatest op hop
    have hphase := hok.phase
    simp only [PhaseOk, hp] at hphase
    refine h.write hlatest Store.operations_releaseLease (fun _ _ _ => rfl)
      (rowOk_apply hrow (hphase u rfl)) rfl ⟨hok.kind, trivial⟩
  | dropped d p hp => exact h.gone r
  | mirrored hp => exact h.gone r
  | unmirrored rest err hp => exact h.gone r

theorem step {e : Event} (hf : fenced w e = true) (h : Inv w) : Inv (w.step e) := by
  cases e with
  | tick ms => exact ⟨h.rows, h.blank, h.known, h.runs⟩
  | enqueue id kind resourceType resourceId maxAttempts runAt =>
    unfold World.step
    dsimp only
    split
    · next hnone => exact h.insert _ hnone rfl
    · exact h
  | placeOrder order items runAt =>
    unfold World.step
    dsimp only
    split
    · next hfresh =>
      refine World.placeOrder_induction hfresh ⟨h.rows, h.blank, h.known, h.runs⟩
        fun v item hnone hv => ?_
      have hins := hv.insert
        { kind := "domain.register"
          resourceType := "public_domain"
          resourceId := item.publicDomainId
          nextRunAt := runAt } hnone rfl
      exact ⟨hins.rows, hins.blank, hins.known, hins.runs⟩
    · exact h
  | claim options locked => exact h.claim locked
  | advance r reply clock =>
    unfold World.step
    dsimp only
    split
    · next run hr =>
      refine h.advance hr ?_ (move_advance w r run reply clock)
      rintro rfl
      exact latest_of_fenced hf hr
    · exact h
  | crash r => exact h.gone r

lemma init : Inv {} where
  rows _ _ h := by simp at h
  blank _ _ := rfl
  known _ _ h := by simp at h
  runs _ _ h := by simp at h

end Inv

/-- **At-most-once provider effects.** As long as no superseded run gets through the guards of the
store or to the provider, a mutating call goes out again only after a refusal or an observed
absence, the second kind at most once, and never for a registration. -/
theorem at_most_once (es : List Event)
    (hes : Allowed World.step (fun w e => fenced w e = true) {} es) :
    (Lib.Run.run World.step {} es).AtMostOnce := by
  have hinv : Inv (Lib.Run.run World.step {} es) :=
    invariant_of_allowed (fun _ _ hf h => h.step hf) Inv.init hes
  intro id op hop
  have hrow := hinv.rows id op hop
  refine ⟨hrow.unproven, hrow.afterAbsent.trans hrow.once, fun hkind => ?_⟩
  exact Nat.le_zero.mp (hrow.registration hkind ▸ hrow.afterAbsent)

/-- A registration refused for its rate, and sent again. -/
def resend : List Event :=
  [.placeOrder 0 [⟨0, "d"⟩] 0, .claim { workerId := "w" } [], .advance 0 .ok 0, .advance 0 .ok 0,
    .advance 0 .ok 0, .advance 0 .ok 0, .advance 0 .ok 0,
    .advance 0 (.throw (.provider
      { code := .rateLimited, safeMessage := "Try again shortly.", submitted := true })) 0,
    .advance 0 .ok 0, .tick 30000, .claim { workerId := "w" } [], .advance 1 .ok 0,
    .advance 1 .ok 0, .advance 1 .ok 0, .advance 1 .ok 0, .advance 1 .ok 0]

theorem at_most_once_resend :
    Allowed World.step (fun w e => fenced w e = true) {} resend ∧
      (sends 0 (Lib.Run.run World.step {} resend).history).last.map LastSend.run = some 1 ∧
      (Lib.Run.run World.step {} resend).AtMostOnce :=
  ⟨by decide, by decide, at_most_once resend (by decide)⟩

/-- Two loops of one process. The first stalls before its call until its lease has run out; the
second takes over and sends; the first wakes, and its mark is accepted. -/
def doubleCharge : List Event :=
  [.placeOrder 0 [⟨0, "d"⟩] 0, .claim { workerId := "w" } [], .advance 0 .ok 0, .advance 0 .ok 0,
    .advance 0 .ok 0, .tick 300001, .claim { workerId := "w" } [], .advance 1 .ok 0,
    .advance 1 .ok 0, .advance 1 .ok 0, .advance 1 .ok 0, .advance 1 .ok 0, .advance 0 .ok 0,
    .advance 0 .ok 0]

theorem doubleCharge_sent_twice : ¬ (Lib.Run.run World.step {} doubleCharge).AtMostOnce := by
  intro h
  have hop : ∃ op, (Lib.Run.run World.step {} doubleCharge).store.operations.get 0 = some op :=
    Option.isSome_iff_exists.mp (by decide)
  obtain ⟨op, hop⟩ := hop
  have hcount : (sends 0 (Lib.Run.run World.step {} doubleCharge).history).unproven = 1 := by decide
  have := (h 0 op hop).1
  omega

end Tnp.Operations
