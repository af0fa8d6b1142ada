import Tnp.Operations.Moves

/-!
While an operation is in doubt, nothing else is claimed on its resource.

Parked in doubt, an operation holds its resource for ever. Claimed again, to be reconciled, it
holds it only as long as the new lease: where the reconciling worker dies, the resource is free for
whichever operation is due first.
-/

namespace Tnp.Operations

open Tnp.Lib Tnp.Lib.Run

/-- Submitted, with neither a success nor a failure that applied nothing recorded since. -/
def inDoubt (id : OpId) : List Mark → Bool
  | [] => false
  | .submitted j _ :: history => j = id || inDoubt id history
  | .recorded j _ status nothingApplied :: history =>
    if j = id ∧ (status = .succeeded ∨
        nothingApplied = true ∧ (status = .queued ∨ status = .failed)) then false
    else inDoubt id history
  | _ :: history => inDoubt id history

/-- A claim picks no operation whose resource another one, in doubt, is on. -/
def Excludes (w : World) : Event → Prop
  | .claim o locked =>
    ∀ c, w.store.claimNextOperation w.now locked
        { workerId := o.workerId, leaseMs := o.leaseMs, kinds := kinds } = some c →
      ∀ id op, w.store.operations.get id = some op → inDoubt id w.history = true →
        resourceKey op = resourceKey c.operation → c.id = id
  | _ => True

/-- Running with its submission marked, past its lease. -/
def stranded (op : Operation) (now : ℕ) : Bool :=
  op.status = .running ∧ op.submittedAt ≠ none ∧ op.leaseExpiresAt.any (· < now)

/-- Every stranded operation comes before any other candidate on its resource. -/
def strandedFirst (w : World) : Event → Bool
  | .claim o locked =>
    w.store.operations.entries.all fun x =>
      !stranded x.2 w.now ||
        ((w.store.candidates w.now locked
            { workerId := o.workerId, leaseMs := o.leaseMs, kinds := kinds }).find?
          fun c => resourceKey c.2 = resourceKey x.2).all fun c => c.1 = x.1
  | _ => true

def Orderly (w : World) (e : Event) : Prop := fenced w e = true ∧ strandedFirst w e = true

instance (w : World) (e : Event) : Decidable (Orderly w e) :=
  inferInstanceAs (Decidable (_ ∧ _))

/-! ### What a decision records -/

variable {mutating submitted mutationReturned : Bool} {op row : Operation} {clock : ℕ}
  {o : EngineOptions} {u : FinishUpdate} {id j : OpId} {r : RunId} {m : Mark}
  {w : World} {run run' : Run}

/-- A status that leaves an operation in doubt leaves its submission marked, and one that does not
is backed by a proof, unless nothing was in doubt. -/
structure Settles (doubt nothingApplied : Bool) (u : FinishUpdate) : Prop where
  proven : u.status = .queued ∨ u.status = .failed → doubt = false ∨ nothingApplied = true
  kept : u.status = .unknown ∨ u.status = .manualReview → u.clearSubmitted = false
  ended : u.status ≠ .running

lemma settles_applyExecuteOutcome {doubt : Bool} {outcome : ExecuteOutcome}
    (hd : doubt = true → mutating = true ∧ submitted = true)
    (h : (applyExecuteOutcome mutating submitted clock outcome).update = some u) :
    Settles doubt false u := by
  unfold applyExecuteOutcome at h
  constructor <;> grind [toUnknown, giveUp, Decision.update, GiveUpStatus.status]

lemma settles_applyExecuteError {doubt p : Bool} {err : Thrown}
    (hd : doubt = true →
      mutating = true ∧ submitted = true ∧ (mutationReturned = true ∨ p = err.refusal))
    (h : (applyExecuteError mutating op submitted mutationReturned clock err).update = some u) :
    Settles doubt p u := by
  unfold applyExecuteError at h
  constructor <;>
    grind [toUnknown, giveUp, retryOrGiveUp, Decision.update, Thrown.refusal, GiveUpStatus.status]

lemma settles_applyReconcile {doubt : Bool} {outcome : ReconcileOutcome}
    (h : (applyReconcile run.options run.operation clock outcome).update = some u) :
    Settles doubt (run.observedAbsent clock outcome) u := by
  unfold applyReconcile applyReconcile.undecided at h
  constructor <;> grind [giveUp, Decision.update, GiveUpStatus.status, Run.observedAbsent]

/-! ### The invariant -/

/-- Running, the operation has its resource until its own lease ends. -/
def RunsHeld (now : ℕ) (leases : OrderedMap String ResourceLease) (id : OpId) (op : Operation) :
    Prop :=
  op.status = .running → ∃ t, op.leaseExpiresAt = some t ∧
    (now ≤ t → leases.get (resourceKey op) = some ⟨id, .instant t⟩)

/-- In doubt, the row of its resource is its own, parked or not. -/
structure DoubtHeld (leases : OrderedMap String ResourceLease) (id : OpId) (op : Operation) :
    Prop where
  mutating : mutatingKind op.kind = true
  submitted : op.submittedAt ≠ none
  lease : (∃ t, op.status = .running ∧ op.leaseExpiresAt = some t ∧
      leases.get (resourceKey op) = some ⟨id, .instant t⟩) ∨
    (op.status = .unknown ∨ op.status = .manualReview) ∧
      leases.get (resourceKey op) = some ⟨id, .infinity⟩

def RunHeld (doubt : Bool) (run : Run) : Prop :=
  match run.phase with
  | .executing rest => calls rest ≤ 1 ∧
      (0 < calls rest → run.mutating = true) ∧
      (doubt = true → run.mutating = true ∧ run.submitted = true ∧ run.mutationReturned = true)
  | .marked rest => run.mutating = true ∧ run.submitted = true ∧ calls rest = 0
  | .awaiting rest => run.mutating = true ∧ run.submitted = true ∧ calls rest = 0
  | .deciding d nothingApplied => ∀ u, d.update = some u → Settles doubt nothingApplied u
  | _ => True

structure Held (w : World) : Prop where
  rows : ∀ id op, w.store.operations.get id = some op →
    RunsHeld w.now w.store.leases id op
  doubts : ∀ id, inDoubt id w.history = true →
    ∃ op, w.store.operations.get id = some op ∧ DoubtHeld w.store.leases id op
  known : ∀ r run, w.runs.get r = some run →
    ∃ op, w.store.operations.get run.operationId = some op ∧ op.kind = run.operation.kind
  runs : ∀ r run, w.runs.get r = some run → w.latest.get run.operationId = some r →
    RunHeld (inDoubt run.operationId w.history) run

lemma runHeld_turn {reply : Reply} {doubt : Bool} (h : RunHeld doubt run)
    (ht : Turn run reply run') : RunHeld doubt run' := by
  unfold RunHeld at h
  cases ht with
  | done clock hp =>
    rw [hp] at h
    exact fun u hu => settles_applyExecuteOutcome (fun hd => ⟨(h.2.2 hd).1, (h.2.2 hd).2.1⟩) hu
  | exit exits rest clock outcome hp hexit =>
    rw [hp] at h
    exact fun u hu => settles_applyExecuteOutcome (fun hd => ⟨(h.2.2 hd).1, (h.2.2 hd).2.1⟩) hu
  | lost rest clock hp => exact fun u hu => by simp [applyExecuteError, Decision.update] at hu
  | threw rest clock err hp =>
    rw [hp] at h
    refine fun u hu => settles_applyExecuteError (fun hd => ?_) hu
    obtain ⟨hmut, hsub, hret⟩ := h.2.2 hd
    exact ⟨hmut, hsub, .inl hret⟩
  | unsent rest clock err hp =>
    rw [hp] at h
    exact fun u hu => settles_applyExecuteError (fun _ => ⟨h.1, h.2.1, .inr rfl⟩) hu
  | unproven rest clock err hp herr =>
    rw [hp] at h
    exact fun u hu => settles_applyExecuteError (fun _ => ⟨h.1, h.2.1, .inr herr.symm⟩) hu
  | returned rest hp =>
    rw [hp] at h
    obtain ⟨hmut, hsub, hcalls⟩ := h
    exact ⟨by omega, fun hpos => by omega, fun _ => ⟨hmut, hsub, rfl⟩⟩
  | observe e rest outcome hp he => trivial
  | unchecked a rest outcome err hp => trivial
  | reconciled clock outcome hp hobs => exact fun u hu => hobs ▸ settles_applyReconcile hu

lemma runHeld_next {a : Act} {doubt : Bool} (h : RunHeld doubt run) (hn : run.Next a run') :
    RunHeld doubt run' := by
  unfold RunHeld at h
  cases hn with
  | executing rest hp hcall =>
    rw [hp] at h
    have hcalls : calls rest = calls (a :: rest) := by simp [calls, hcall]
    exact ⟨hcalls ▸ h.1, hcalls ▸ h.2.1, h.2.2⟩
  | confirming rest outcome hp => trivial
  | givingUp rest hp => trivial

/-- A run begins with nothing in doubt, or as a reconciliation. -/
lemma runHeld_start {doubt : Bool} (o : EngineOptions) (id : OpId) (op : Operation)
    (hd : doubt = true → mutatingKind op.kind = true ∧ op.submittedAt ≠ none) :
    RunHeld doubt (startRun o id op) := by
  unfold RunHeld startRun
  dsimp only
  cases hh : handlerOf op.kind with
  | none =>
    intro u hu
    obtain rfl := Option.some.inj hu
    have hdoubt : doubt = false := by
      cases hdoubt : doubt with
      | false => rfl
      | true => simp [mutatingKind, hh] at hd; simp [hdoubt] at hd
    exact ⟨fun _ => .inl hdoubt, fun _ => rfl, by simp⟩
  | some h =>
    have hmut : mutatingKind op.kind = h.mutating := by simp [mutatingKind, hh]
    obtain ⟨hle, hpos⟩ := calls_execute hh
    dsimp only
    by_cases hsub : h.mutating = true ∧ op.submittedAt ≠ none
    · rw [if_pos hsub]
      trivial
    · rw [if_neg hsub]
      exact ⟨hle, fun hc => hmut.trans (hpos hc), fun hdoubt => absurd (hmut ▸ hd hdoubt) hsub⟩

namespace Held

lemma setRun (h : Held w) (hr : w.runs.get r = some run) (hid : run'.operationId = run.operationId)
    (hop : run'.operation = run.operation)
    (hok : RunHeld (inDoubt run.operationId w.history) run →
      RunHeld (inDoubt run.operationId w.history) run') : Held (w.setRun r run') where
  rows := h.rows
  doubts := h.doubts
  known q v hq := by
    change (w.runs.set r run').get q = some v at hq
    rw [OrderedMap.get_set] at hq
    split at hq
    · obtain rfl := Option.some.inj hq
      rw [hid, hop]
      exact h.known r run hr
    · exact h.known q v hq
  runs q v hq hlatest := by
    change (w.runs.set r run').get q = some v at hq
    rw [OrderedMap.get_set] at hq
    split at hq
    · next e =>
      obtain rfl := Option.some.inj hq
      subst e
      rw [hid] at hlatest ⊢
      exact hok (h.runs r run hr hlatest)
    · exact h.runs q v hq hlatest

lemma gone (h : Held w) (r : RunId) : Held (w.gone r) where
  rows := h.rows
  doubts := h.doubts
  known q v hq := by
    change (w.runs.delete r).get q = some v at hq
    rw [OrderedMap.get_delete] at hq
    split at hq
    · simp at hq
    · exact h.known q v hq
  runs q v hq := by
    change (w.runs.delete r).get q = some v at hq
    rw [OrderedMap.get_delete] at hq
    split at hq
    · simp at hq
    · exact h.runs q v hq

/-- A mark that settles nothing. -/
lemma record (h : Held w) (hm : ∀ j history, inDoubt j (m :: history) = inDoubt j history) :
    Held (w.record m) where
  rows := h.rows
  doubts j hj := h.doubts j ((hm j _).symm.trans hj)
  known := h.known
  runs q v hq hlatest := (hm v.operationId w.history) ▸ h.runs q v hq hlatest

lemma perform (h : Held w) {a : Act} : Held (w.perform id a) := by
  obtain ⟨lines, orders, heq⟩ := World.perform_frame w id a
  rw [heq]
  exact ⟨h.rows, h.doubts, h.known, h.runs⟩

lemma insert (op : Operation) (h : Held w) (hnone : w.store.operations.get id = none)
    (hop : op.status = .queued) :
    Held (w.insert id op) where
  rows j row hj := by
    change (w.store.operations.set id op).get j = some row at hj
    rw [OrderedMap.get_set] at hj
    split at hj
    · obtain rfl := Option.some.inj hj
      exact fun hrun => by simp [hop] at hrun
    · exact h.rows j row hj
  doubts j hj := by
    obtain ⟨row, hrow, hheld⟩ := h.doubts j hj
    have hne : id ≠ j := fun e => by simp [← e, hnone] at hrow
    exact ⟨row, (OrderedMap.get_set_of_ne _ hne).trans hrow, hheld⟩
  known q v hq := by
    obtain ⟨row, hrow, hkind⟩ := h.known q v hq
    have hne : id ≠ v.operationId := fun e => by simp [← e, hnone] at hrow
    exact ⟨row, (OrderedMap.get_set_of_ne _ hne).trans hrow, hkind⟩
  runs := h.runs

/-- **What the claim asks of the next event.** -/
theorem excludes {e : Event} (h : Held w) (hs : strandedFirst w e = true) : Excludes w e := by
  cases e with
  | claim o locked =>
    intro c hc id op hop hdoubt hkey
    obtain ⟨before, op', rest, hcand, hbefore, hget, -, -, hheld, hrow, -⟩ :=
      Store.claimNextOperation_eq_some hc
    rw [hrow, resourceKey_markRunning] at hkey
    obtain ⟨row, hrow', hlease⟩ := h.doubts id hdoubt
    obtain rfl := Option.some.inj (hop.symm.trans hrow')
    by_contra hne
    have hne' : id ≠ c.id := fun e => hne e.symm
    -- an unexpired row of another operation keeps the candidate out
    have hfree : ∀ x, w.store.leases.get (resourceKey op) = some ⟨id, x⟩ →
        x.before w.now = true := fun x hx => by
      simpa [Store.heldByOther, ← hkey, hx, hne'] using hheld
    obtain ⟨t, hrun, ht, hl⟩ | ⟨-, hl⟩ := hlease.lease
    · have hlt : t < w.now := by simpa using hfree _ hl
      have hstr : stranded op w.now = true := by simp [stranded, hrun, hlease.submitted, ht, hlt]
      have hfirst : ((before ++ (c.id, op') :: rest).find? fun c =>
          resourceKey c.2 = resourceKey op).all (fun c => c.1 = id) = true := by
        have hall := List.all_eq_true.mp hs (id, op) (OrderedMap.mem_entries_iff.mpr hop)
        rw [hcand] at hall
        simpa [hstr] using hall
      rw [List.find?_append] at hfirst
      cases hfind : before.find? fun c => resourceKey c.2 = resourceKey op with
      | none =>
        rw [hfind, Option.none_or, List.find?_cons_of_pos (by simpa using hkey.symm)] at hfirst
        exact hne (by simpa using hfirst)
      | some x =>
        obtain ⟨j, row⟩ := x
        rw [hfind] at hfirst
        obtain rfl : j = id := by simpa using hfirst
        have hmem := List.mem_of_find?_eq_some hfind
        have hj := (Store.mem_candidates (hcand ▸ List.mem_append_left _ hmem)).1
        obtain rfl := Option.some.inj (hop.symm.trans hj)
        have htake := hbefore _ hmem
        simp [Store.takeLease, hl] at htake
    · simpa using hfree _ hl
  | _ => trivial

lemma claim {locked : List OpId} (h : Held w) (hs : strandedFirst w (.claim o locked) = true) :
    Held (w.claim o locked) := by
  obtain heq | ⟨c, hc, heq⟩ := w.claim_cases o locked
  · rwa [heq]
  have hexcl := h.excludes hs c hc
  obtain ⟨-, op, -, -, -, hop, -, hrun, hheld, hrow, hstore⟩ :=
    Store.claimNextOperation_eq_some hc
  have hkey : resourceKey c.operation = resourceKey op := by rw [hrow, resourceKey_markRunning]
  rw [heq, hstore]
  refine ⟨fun j row hj => ?_, fun j hj => ?_, fun q v hq => ?_, fun q v hq hcur => ?_⟩
  · dsimp only at hj ⊢
    rw [OrderedMap.get_set] at hj
    split at hj
    · next e =>
      subst e
      obtain rfl := Option.some.inj hj
      refine fun _ => ⟨_, by rw [hrow]; rfl, fun _ => ?_⟩
      rw [hkey, OrderedMap.get_set_self]
    · next e =>
      intro hstatus
      obtain ⟨t, ht, hl⟩ := h.rows j row hj hstatus
      refine ⟨t, ht, fun hle => ?_⟩
      rw [OrderedMap.get_set]
      split
      · next hsame =>
        -- the claimed operation would have been held off
        have hj' := hl hle
        rw [← hsame] at hj'
        simp [Store.heldByOther, hj', Ne.symm e, Nat.not_lt.mpr hle] at hheld
      · exact hl hle
  · obtain ⟨row, hj', hlease⟩ := h.doubts j hj
    dsimp only
    by_cases e : c.id = j
    · subst e
      obtain rfl := Option.some.inj (hop.symm.trans hj')
      refine ⟨c.operation, OrderedMap.get_set_self _, ?_, ?_,
        .inl ⟨w.now + leaseSeconds o.leaseMs * 1000, ?_, ?_, ?_⟩⟩
      · exact hrow ▸ hlease.mutating
      · exact hrow ▸ hlease.submitted
      · rw [hrow]
        rfl
      · rw [hrow]
        rfl
      · rw [hkey, OrderedMap.get_set_self]
    · refine ⟨row, (OrderedMap.get_set_of_ne _ e).trans hj', hlease.mutating, hlease.submitted, ?_⟩
      have hne : resourceKey op ≠ resourceKey row := fun hsame =>
        e (hexcl j row hj' hj (hsame.symm.trans hkey.symm))
      rw [OrderedMap.get_set_of_ne _ hne]
      exact hlease.lease
  · dsimp only at hq ⊢
    rw [OrderedMap.get_set] at hq ⊢
    by_cases e : c.id = v.operationId
    · rw [if_pos e]
      refine ⟨_, rfl, ?_⟩
      split at hq
      · obtain rfl := Option.some.inj hq
        rfl
      · obtain ⟨row, hrow', hkind⟩ := h.known q v hq
        rw [← e] at hrow'
        obtain rfl := Option.some.inj (hop.symm.trans hrow')
        rw [hrow]
        exact hkind
    · rw [if_neg e]
      split at hq
      · obtain rfl := Option.some.inj hq
        exact absurd rfl e
      · exact h.known q v hq
  · dsimp only at hq hcur ⊢
    rw [OrderedMap.get_set] at hq hcur
    by_cases e : c.id = v.operationId
    · rw [if_pos e] at hcur
      rw [if_pos (Option.some.inj hcur)] at hq
      obtain rfl := Option.some.inj hq
      refine runHeld_start _ _ _ fun hd => ?_
      obtain ⟨row, hj', hlease⟩ := h.doubts _ hd
      obtain rfl := Option.some.inj (hop.symm.trans hj')
      rw [hrow]
      exact ⟨hlease.mutating, hlease.submitted⟩
    · rw [if_neg e] at hcur
      split at hq
      · obtain rfl := Option.some.inj hq
        exact absurd rfl e
      · exact h.runs q v hq hcur

/-- The run of the latest claim may change the row, the lease and the doubt of its operation. -/
lemma own {w' : World} (row : Operation) (h : Held w) (hlatest : w.latest.get id = some r)
    (hlatest' : w'.latest = w.latest) (hnow : w'.now = w.now)
    (hop : w.store.operations.get id = some op) (hkind : row.kind = op.kind)
    (hops : ∀ j, w'.store.operations.get j = if id = j then some row else w.store.operations.get j)
    (hdoubt : ∀ j, id ≠ j → inDoubt j w'.history = inDoubt j w.history)
    (hleases : ∀ key l, w.store.leases.get key = some l → l.operationId ≠ id →
      w'.store.leases.get key = some l)
    (hrow : RunsHeld w'.now w'.store.leases id row)
    (hheld : inDoubt id w'.history = true → DoubtHeld w'.store.leases id row)
    (hruns : ∀ q, r ≠ q → w'.runs.get q = w.runs.get q)
    (hmine : ∀ v, w'.runs.get r = some v → v.operationId = id ∧ v.operation.kind = op.kind ∧
      RunHeld (inDoubt id w'.history) v) : Held w' where
  rows j x hj := by
    rw [hops] at hj
    split at hj
    · next e =>
      obtain rfl := Option.some.inj hj
      exact e ▸ hrow
    · next e =>
      intro hstatus
      obtain ⟨t, ht, hl⟩ := h.rows j x hj hstatus
      exact ⟨t, ht, fun hle => hleases _ _ (hl (hnow ▸ hle)) fun e' => e e'.symm⟩
  doubts j hj := by
    rw [hops]
    split
    · next e =>
      subst e
      exact ⟨row, rfl, hheld hj⟩
    · next e =>
      rw [hdoubt j e] at hj
      obtain ⟨x, hx, hlease⟩ := h.doubts j hj
      refine ⟨x, hx, hlease.mutating, hlease.submitted, ?_⟩
      obtain ⟨t, hrun, ht, hl⟩ | ⟨hstatus, hl⟩ := hlease.lease
      · exact .inl ⟨t, hrun, ht, hleases _ _ hl fun e' => e e'.symm⟩
      · exact .inr ⟨hstatus, hleases _ _ hl fun e' => e e'.symm⟩
  known q v hq := by
    rw [hops]
    by_cases hqr : r = q
    · obtain ⟨hid, hk, -⟩ := hmine v (hqr ▸ hq)
      exact ⟨row, if_pos hid.symm, hkind.trans hk.symm⟩
    · obtain ⟨x, hx, hk⟩ := h.known q v (hruns q hqr ▸ hq)
      split
      · next e =>
        rw [← e, hop] at hx
        obtain rfl := Option.some.inj hx
        exact ⟨row, rfl, hkind.trans hk⟩
      · exact ⟨x, hx, hk⟩
  runs q v hq hcur := by
    by_cases hqr : r = q
    · subst hqr
      obtain ⟨hid, -, hok⟩ := hmine v hq
      rwa [hid]
    · rw [hruns q hqr] at hq
      rw [hlatest'] at hcur
      have hne : id ≠ v.operationId := by
        rintro rfl
        exact hqr (Option.some.inj (hlatest.symm.trans hcur))
      rw [hdoubt _ hne]
      exact h.runs q v hq hcur

/-- A recorded outcome that leaves the operation in doubt parks its resource. -/
lemma doubtHeld_apply {now : ℕ} {s : Store} {p : Bool} {history : List Mark}
    (hset : Settles (inDoubt id history) p u)
    (hheld : inDoubt id history = true → DoubtHeld s.leases id op)
    (hdoubt : inDoubt id (.recorded id r u.status p :: history) = true) :
    DoubtHeld (Store.releaseLease s id (u.apply now op)).leases id (u.apply now op) := by
  have hnot : ¬ (u.status = .succeeded ∨ p = true ∧ (u.status = .queued ∨ u.status = .failed)) :=
    fun hyes => by simp [inDoubt, hyes] at hdoubt
  have hbefore : inDoubt id history = true := by simpa [inDoubt, hnot] using hdoubt
  have hstatus : u.status = .unknown ∨ u.status = .manualReview := by
    have hproven := hset.proven
    have hended := hset.ended
    cases hs : u.status <;> simp_all
  obtain ⟨hmut, hsub, hlease⟩ := hheld hbefore
  have hmine : (s.leases.get (resourceKey op)).any (·.operationId = id) = true := by
    obtain ⟨t, -, -, hl⟩ | ⟨-, hl⟩ := hlease <;> simp [hl]
  have hsub' : (u.apply now op).submittedAt = op.submittedAt := by
    simp [FinishUpdate.apply, hset.kept hstatus]
  refine ⟨hmut, hsub' ▸ hsub, .inr ⟨hstatus, ?_⟩⟩
  have hkeeps : Store.keepsLease (u.apply now op) = true := by
    have hst : (u.apply now op).status = u.status := rfl
    simpa [Store.keepsLease, hsub', hst, hsub] using hstatus
  rw [Store.leases_releaseLease, if_pos ⟨rfl, hmine⟩, if_pos hkeeps]

lemma leases_finish {s : Store} {key : String} {l : ResourceLease}
    (hl : s.leases.get key = some l) (hne : l.operationId ≠ id) :
    (Store.releaseLease s id op).leases.get key = some l := by
  rw [Store.leases_releaseLease, if_neg (by simp [hl, hne]), hl]

theorem advance (h : Held w) {reply : Reply} (hr : w.runs.get r = some run)
    (hf : reply = .ok → w.effective run = true → w.latest.get run.operationId = some r)
    {w' : World} (hmove : Move w r run reply w') : Held w' := by
  obtain ⟨op, hop, hkind⟩ := h.known r run hr
  have hmut := mutating_eq hkind
  cases hmove with
  | still => exact h
  | turn _ run' hturn =>
    refine h.setRun hr ?_ ?_ fun hok => runHeld_turn hok hturn
    · cases hturn <;> rfl
    · cases hturn <;> rfl
  | perform a run' hnext =>
    have hr' : (w.perform run.operationId a).runs.get r = some run := by simpa using hr
    refine h.perform.setRun hr' ?_ ?_ fun hok => runHeld_next hok hnext
    · cases hnext <;> rfl
    · cases hnext <;> rfl
  | mark rest s hp hs =>
    obtain ⟨op', hop', hsub, rfl⟩ := Store.markSubmitted_eq_some_iff.mp hs
    obtain rfl := Option.some.inj (hop.symm.trans hop')
    have hlatest := hf rfl (by simp [World.effective, hp, hsub])
    have hok := h.runs r run hr hlatest
    simp only [RunHeld, hp] at hok
    have hcalls : calls (.call :: rest) = calls rest + 1 := List.countP_cons_of_pos rfl
    have hm := hok.2.1 (by omega)
    obtain ⟨hrun, -, t, ht, hlt⟩ := (Store.submittable_iff hop).mp hsub
    obtain ⟨t', ht', hl⟩ := h.rows _ op hop hrun
    obtain rfl := Option.some.inj (ht.symm.trans ht')
    refine h.own { op with submittedAt := some (op.submittedAt.getD w.now) } hlatest rfl rfl hop
      rfl (fun j => OrderedMap.get_set _)
      (fun j hj => by simp [World.setRun, World.record, inDoubt, hj]) (fun _ _ hl _ => hl)
      (h.rows _ op hop) (fun _ => ?_) (fun q hq => OrderedMap.get_set_of_ne _ hq) fun v hv => ?_
    · exact ⟨hmut ▸ hm, by simp, .inl ⟨t, hrun, ht, hl hlt.le⟩⟩
    · obtain rfl := Option.some.inj ((OrderedMap.get_set_self _).symm.trans hv)
      exact ⟨rfl, hkind.symm, hm, rfl, by omega⟩
  | send rest hp =>
    refine (h.record (m := .sent run.operationId r) fun _ _ => rfl).setRun hr rfl rfl fun hok => ?_
    simp only [RunHeld, hp] at hok
    exact hok
  | refused rest clock err hp herr =>
    refine (h.record (m := .refused run.operationId r) fun _ _ => rfl).setRun hr rfl rfl
      fun hok u hu => settles_applyExecuteError (fun _ => ?_) hu
    simp only [RunHeld, hp] at hok
    exact ⟨hok.1, hok.2.1, .inr herr.symm⟩
  | absent clock outcome hp hobs =>
    exact (h.record (m := .absent run.operationId r) fun _ _ => rfl).setRun hr rfl rfl
      fun _ u hu => hobs ▸ settles_applyReconcile hu
  | finish u p s hp hs =>
    obtain ⟨op', hop', hfin, rfl⟩ := Store.finishOperation_eq_some_iff.mp hs
    obtain rfl := Option.some.inj (hop.symm.trans hop')
    have hlatest := hf rfl (by simp [World.effective, hp, hfin])
    have hok := h.runs r run hr hlatest
    simp only [RunHeld, hp] at hok
    have hset := hok u rfl
    refine h.own (u.apply w.now op) hlatest rfl rfl hop rfl (fun j => ?_) (fun j hj => ?_)
      (fun _ _ hl hne => leases_finish hl hne) (fun hrun => absurd hrun hset.ended)
      (fun hd => ?_) (fun q hq => OrderedMap.get_delete_of_ne hq) fun v hv => ?_
    · exact (congrArg (OrderedMap.get · j) Store.operations_releaseLease).trans
        (OrderedMap.get_set _)
    · simp [World.gone, World.record, inDoubt, hj]
    · refine doubtHeld_apply hset (fun hbefore => ?_) hd
      obtain ⟨row, hrow, hlease⟩ := h.doubts _ hbefore
      obtain rfl := Option.some.inj (hop.symm.trans hrow)
      exact hlease
    · exact absurd ((OrderedMap.get_delete_self).symm.trans hv) (by simp)
  | giveUp status u p s hp hs =>
    obtain ⟨op', hop', hfin, rfl⟩ := Store.finishOperation_eq_some_iff.mp hs
    obtain rfl := Option.some.inj (hop.symm.trans hop')
    have hlatest := hf rfl (by simp [World.effective, hp, hfin])
    have hok := h.runs r run hr hlatest
    simp only [RunHeld, hp] at hok
    have hset := hok u rfl
    refine h.own (u.apply w.now op) hlatest rfl rfl hop rfl (fun j => ?_) (fun j hj => ?_)
      (fun _ _ hl hne => leases_finish hl hne) (fun hrun => absurd hrun hset.ended)
      (fun hd => ?_) (fun q hq => OrderedMap.get_set_of_ne _ hq) fun v hv => ?_
    · exact (congrArg (OrderedMap.get · j) Store.operations_releaseLease).trans
        (OrderedMap.get_set _)
    · simp [World.setRun, World.record, inDoubt, hj]
    · refine doubtHeld_apply hset (fun hbefore => ?_) hd
      obtain ⟨row, hrow, hlease⟩ := h.doubts _ hbefore
      obtain rfl := Option.some.inj (hop.symm.trans hrow)
      exact hlease
    · obtain rfl := Option.some.inj ((OrderedMap.get_set_self _).symm.trans hv)
      exact ⟨rfl, hkind.symm, trivial⟩
  | dropped d p hp => exact h.gone r
  | mirrored hp => exact h.gone r
  | unmirrored rest err hp => exact h.gone r

theorem step {e : Event} (hord : Orderly w e) (h : Held w) : Held (w.step e) := by
  obtain ⟨hf, hs⟩ := hord
  cases e with
  | tick ms =>
    refine ⟨fun id op hop hrun => ?_, h.doubts, h.known, h.runs⟩
    obtain ⟨t, ht, hl⟩ := h.rows id op hop hrun
    exact ⟨t, ht, fun hle => hl ((Nat.le_add_right _ _).trans hle)⟩
  | enqueue id kind resourceType resourceId maxAttempts runAt =>
    unfold World.step
    dsimp only
    split
    · next hnone => exact h.insert _ hnone rfl
    · exact h
  | placeOrder order items runAt =>
    unfold World.step
    dsimp only
    split
    · next hfresh =>
      refine World.placeOrder_induction hfresh ⟨h.rows, h.doubts, h.known, h.runs⟩
        fun v item hnone hv => ?_
      have hins := hv.insert
        { kind := "domain.register"
          resourceType := "public_domain"
          resourceId := item.publicDomainId
          nextRunAt := runAt } hnone rfl
      exact ⟨hins.rows, hins.doubts, hins.known, hins.runs⟩
    · exact h
  | claim options locked => exact h.claim hs
  | advance r reply clock =>
    unfold World.step
    dsimp only
    split
    · next run hr =>
      refine h.advance hr ?_ (move_advance w r run reply clock)
      rintro rfl
      exact latest_of_fenced hf hr
    · exact h
  | crash r => exact h.gone r

lemma init : Held {} where
  rows _ _ h := by simp at h
  doubts _ h := by simp [inDoubt] at h
  known _ _ h := by simp at h
  runs _ _ h := by simp at h

end Held

/-- **Resource exclusion.** As long as no superseded run gets through the guards of the store, and
every operation stranded with its submission marked is the next candidate of its resource, no claim
picks an operation on a resource that another one, in doubt, is on. -/
theorem resource_exclusion (es : List Event) (hes : Allowed World.step Orderly {} es) :
    Allowed World.step Excludes {} es :=
  allowed_of_invariant (fun _ _ ho h => h.step ho) (fun _ _ ho h => h.excludes ho.2) Held.init hes

/-- Two changes of one zone; the first is refused for its rate before it is sent, and both run. -/
def inTurn : List Event :=
  [.enqueue 0 "dns.apply" "dns_zone" "z" 5 0, .enqueue 1 "dns.apply" "dns_zone" "z" 5 0,
    .claim { workerId := "v" } [], .advance 0 .ok 0, .advance 0 .ok 0, .advance 0 .ok 0,
    .claim { workerId := "w" } [], .advance 0 .ok 0, .advance 0 .ok 0, .advance 0 .ok 0,
    .advance 0 .ok 0, .advance 0 .ok 0, .advance 0 .ok 0, .claim { workerId := "w" } []]

theorem resource_exclusion_inTurn :
    Allowed World.step Orderly {} inTurn ∧
      (Lib.Run.run World.step {} inTurn).latest.get 1 = some 1 ∧
      Allowed World.step Excludes {} inTurn :=
  ⟨by decide, by decide, resource_exclusion inTurn (by decide)⟩

/-- The first change times out and is parked; the worker that comes to reconcile it dies, and with
its lease goes the hold on the zone. -/
def deadReconciler : List Event :=
  [.enqueue 0 "dns.apply" "dns_zone" "z" 5 0, .claim { workerId := "v" } [], .advance 0 .ok 0,
    .advance 0 .ok 0, .advance 0 .ok 0, .advance 0 .ok 0,
    .advance 0 (.throw (.provider
      { code := .unknownOutcome, safeMessage := "The result is being checked.",
        submitted := true })) 0,
    .advance 0 .ok 0, .enqueue 1 "dns.apply" "dns_zone" "z" 5 1000, .tick 60000,
    .claim { workerId := "w" } [], .crash 1, .tick 300001]

theorem deadReconciler_not_excluded :
    ¬ Allowed World.step Excludes {} (deadReconciler ++ [.claim { workerId := "v" } []]) := by
  intro h
  have hlast := h.last
  obtain ⟨op, hop⟩ : ∃ op,
      (Lib.Run.run World.step {} deadReconciler).store.operations.get 0 = some op :=
    Option.isSome_iff_exists.mp (by decide)
  have hkey : ((Lib.Run.run World.step {} deadReconciler).store.operations.get 0).map resourceKey =
      some "dns_zone:z" := by decide
  have hclaim : (((Lib.Run.run World.step {} deadReconciler).store.claimNextOperation
      (Lib.Run.run World.step {} deadReconciler).now []
      { workerId := "v", leaseMs := 300000, kinds := kinds }).map fun c =>
        (c.id, resourceKey c.operation)) = some (1, "dns_zone:z") := by decide
  obtain ⟨c, hc, hpair⟩ := Option.map_eq_some_iff.mp hclaim
  have hzero := hlast c hc 0 op hop (by decide) ?_
  · simp [hzero] at hpair
  · rw [hop] at hkey
    exact (Option.some.inj hkey).trans (congrArg Prod.snd hpair).symm

end Tnp.Operations
