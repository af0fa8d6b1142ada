import Tnp.Operations.Moves

/-!
Whom the fence of the outbox keeps out.

The fence compares the name under which a row was claimed with the caller's. It tells two runs
apart as long as no two of them, of one operation and under way together, were started under one
name.
-/

namespace Tnp.Operations

open Tnp.Lib Tnp.Lib.Run

/-- A run that is not of the latest claim passes no guard of the store, and whatever comes of it
leaves the store as it is. -/
def Fenced (w : World) : Prop :=
  ∀ r run, w.runs.get r = some run → w.latest.get run.operationId ≠ some r →
    w.store.submittable w.now run.operationId run.options.workerId = false ∧
      w.store.finishable run.operationId run.options.workerId = false ∧
      ∀ reply clock, (w.step (.advance r reply clock)).store = w.store

/-- A claim takes no operation that a run of the same worker is still under way with. -/
def Apart (w : World) : Event → Prop
  | .claim o locked =>
    ∀ c, w.store.claimNextOperation w.now locked
        { workerId := o.workerId, leaseMs := o.leaseMs, kinds := kinds } = some c →
      ∀ r run, w.runs.get r = some run → run.operationId = c.id →
        run.options.workerId ≠ o.workerId
  | _ => True

variable {w : World} {r : RunId} {run run' : Run} {id : OpId} {op : Operation} {e : Event}

/-- The run that a row is claimed under the name of is that of the latest claim. -/
structure Owned (w : World) : Prop where
  started : ∀ r run, w.runs.get r = some run → r < w.nextRun
  owner : ∀ r run op, w.runs.get r = some run → w.store.operations.get run.operationId = some op →
    op.status = .running → op.leaseOwner = some run.options.workerId →
    w.latest.get run.operationId = some r

/-! ### The fence -/

lemma finishable_of_submittable {s : Store} {now : ℕ} {worker : String}
    (h : s.submittable now id worker = true) : s.finishable id worker = true := by
  cases hop : s.operations.get id with
  | none => simp [Store.submittable, hop] at h
  | some op =>
    obtain ⟨hrunning, howner, -⟩ := (Store.submittable_iff hop).mp h
    exact (Store.finishable_iff hop).mpr ⟨hrunning, howner⟩

/-- What a run cannot finish, it leaves alone. -/
lemma store_move {reply : Reply} {w' : World}
    (hguard : w.store.finishable run.operationId run.options.workerId = false)
    (h : Move w r run reply w') : w'.store = w.store := by
  have hnot {u : FinishUpdate} {s : Store} : w.store.finishOperation w.now run.operationId
      run.options.workerId u ≠ some s := by
    intro hs
    obtain ⟨op, -, hfinish, -⟩ := Store.finishOperation_eq_some_iff.mp hs
    simp [hguard] at hfinish
  cases h with
  | perform a run' hn => exact World.store_perform
  | mark rest s hphase hs =>
    obtain ⟨op, -, hsubmit, -⟩ := Store.markSubmitted_eq_some_iff.mp hs
    simp [finishable_of_submittable hsubmit] at hguard
  | finish u p s hphase hs => exact absurd hs hnot
  | giveUp status u p s hphase hs => exact absurd hs hnot
  | _ => rfl

lemma Owned.fenced (h : Owned w) : Fenced w := by
  intro r run hr hlatest
  have hguard : w.store.finishable run.operationId run.options.workerId = false := by
    by_contra hfinish
    rw [Bool.not_eq_false] at hfinish
    cases hop : w.store.operations.get run.operationId with
    | none => simp [Store.finishable, hop] at hfinish
    | some op =>
      obtain ⟨hrunning, howner⟩ := (Store.finishable_iff hop).mp hfinish
      exact hlatest (h.owner r run op hr hop hrunning howner)
  refine ⟨?_, hguard, fun reply clock => ?_⟩
  · by_contra hsubmit
    rw [Bool.not_eq_false] at hsubmit
    simp [finishable_of_submittable hsubmit] at hguard
  · simp only [World.step, hr]
    exact store_move hguard (move_advance w r run reply clock)

/-! ### One step -/

namespace Owned

lemma gone (h : Owned w) (r : RunId) : Owned (w.gone r) where
  started := OrderedMap.forall_delete (P := fun j _ => j < w.nextRun) h.started
  owner j run op hj := by
    have hj' := OrderedMap.forall_delete (k := r) (P := fun j run => w.runs.get j = some run)
      (fun _ _ hget => hget) j run hj
    exact h.owner j run op hj'

/-- A run that goes on keeps its operation and its name. -/
lemma setRun (h : Owned w) (hr : w.runs.get r = some run)
    (hid : run'.operationId = run.operationId)
    (hworker : run'.options.workerId = run.options.workerId) : Owned (w.setRun r run') where
  started := OrderedMap.forall_set (P := fun j _ => j < w.nextRun) h.started (h.started r run hr)
  owner j jrun op hj hop hrunning howner := by
    simp only [World.setRun, OrderedMap.get_set] at hj
    split at hj
    · next heq =>
      obtain rfl := Option.some.inj hj
      subst heq
      rw [hid] at hop ⊢
      exact h.owner r run op hr hop hrunning (hworker ▸ howner)
    · exact h.owner j jrun op hj hop hrunning howner

/-- The rows may change where no row is claimed anew. -/
lemma store {s : Store} (h : Owned w)
    (hrows : ∀ id op, s.operations.get id = some op → op.status = .running →
      op.leaseOwner ≠ none → ∃ before, w.store.operations.get id = some before ∧
        before.status = .running ∧ before.leaseOwner = op.leaseOwner) :
    Owned { w with store := s } where
  started := h.started
  owner j run op hj hop hrunning howner := by
    obtain ⟨before, hbefore, hrun, hsame⟩ := hrows _ op hop hrunning (by simp [howner])
    exact h.owner j run before hj hbefore hrun (hsame.trans howner)

lemma record (h : Owned w) (m : Mark) : Owned (w.record m) := ⟨h.started, h.owner⟩

lemma perform (h : Owned w) (id : OpId) (a : Act) : Owned (w.perform id a) := by
  obtain ⟨_, _, hframe⟩ := World.perform_frame w id a
  rw [hframe]
  exact ⟨h.started, h.owner⟩

/-- A new row is nobody's. -/
lemma insert (h : Owned w) (id : OpId) (op : Operation) (hop : op.leaseOwner = none) :
    Owned (w.insert id op) := by
  refine h.store fun j row hj hrunning howner => ?_
  simp only [OrderedMap.get_set] at hj
  split at hj
  · obtain rfl := Option.some.inj hj
    exact absurd hop howner
  · exact ⟨row, hj, hrunning, rfl⟩

lemma finish {worker : String} {u : FinishUpdate} {s : Store} (h : Owned w)
    (hs : w.store.finishOperation w.now id worker u = some s) : Owned { w with store := s } := by
  obtain ⟨op, -, -, rfl⟩ := Store.finishOperation_eq_some_iff.mp hs
  refine h.store fun j row hj hrunning howner => ?_
  rw [Store.operations_releaseLease, OrderedMap.get_set] at hj
  split at hj
  · obtain rfl := Option.some.inj hj
    exact absurd rfl howner
  · exact ⟨row, hj, hrunning, rfl⟩

lemma submit {worker : String} {s : Store} (h : Owned w)
    (hs : w.store.markSubmitted w.now id worker = some s) : Owned { w with store := s } := by
  obtain ⟨op, hop, -, rfl⟩ := Store.markSubmitted_eq_some_iff.mp hs
  refine h.store fun j row hj hrunning howner => ?_
  simp only [OrderedMap.get_set] at hj
  split at hj
  · next heq =>
    obtain rfl := Option.some.inj hj
    exact ⟨op, heq ▸ hop, hrunning, rfl⟩
  · exact ⟨row, hj, hrunning, rfl⟩

lemma turn_keeps {reply : Reply} (h : Turn run reply run') :
    run'.operationId = run.operationId ∧ run'.options = run.options := by
  cases h <;> exact ⟨rfl, rfl⟩

lemma next_keeps {a : Act} (h : run.Next a run') :
    run'.operationId = run.operationId ∧ run'.options = run.options := by
  cases h <;> exact ⟨rfl, rfl⟩

theorem advance (h : Owned w) {reply : Reply} {w' : World} (hr : w.runs.get r = some run)
    (hmove : Move w r run reply w') : Owned w' := by
  cases hmove with
  | still => exact h
  | turn _ run' ht =>
    obtain ⟨hid, hoptions⟩ := turn_keeps ht
    exact h.setRun hr hid (by rw [hoptions])
  | perform a run' hn =>
    obtain ⟨hid, hoptions⟩ := next_keeps hn
    exact (h.perform _ a).setRun (by simpa using hr) hid (by rw [hoptions])
  | mark rest s _ hs => exact ((h.submit hs).record _).setRun hr rfl rfl
  | send rest _ => exact (h.record _).setRun hr rfl rfl
  | refused rest clock err _ _ => exact (h.record _).setRun hr rfl rfl
  | absent clock outcome _ _ => exact (h.record _).setRun hr rfl rfl
  | finish u p s _ hs => exact ((h.finish hs).record _).gone r
  | giveUp status u p s _ hs => exact ((h.finish hs).record _).setRun hr rfl rfl
  | dropped d p _ => exact h.gone r
  | mirrored _ => exact h.gone r
  | unmirrored rest err _ => exact h.gone r

/-- A claim apart from the runs under way leaves each row to its latest claim. -/
lemma claim {o : EngineOptions} {locked : List OpId} (h : Owned w)
    (hapart : Apart w (.claim o locked)) : Owned (w.claim o locked) := by
  rcases World.claim_cases w o locked with hsame | ⟨c, hc, hclaim⟩
  · rw [hsame]
    exact h
  rw [hclaim]
  obtain ⟨-, row, -, -, -, -, -, -, -, hop, hstore⟩ := Store.claimNextOperation_eq_some hc
  refine ⟨?_, ?_⟩
  · intro r run hr
    simp only [OrderedMap.get_set] at hr
    split at hr
    · next heq => exact heq ▸ Nat.lt_succ_self _
    · exact (h.started r run hr).trans (Nat.lt_succ_self _)
  · intro r run op hr hget hrunning howner
    simp only [OrderedMap.get_set] at hr
    split at hr
    · next heq =>
      obtain rfl := Option.some.inj hr
      subst heq
      simp [startRun]
    · by_cases hid : c.id = run.operationId
      · exfalso
        simp only [hstore, hid, OrderedMap.get_set_self, Option.some.injEq] at hget
        subst hget
        rw [hop] at howner
        exact hapart c hc r run hr hid.symm (Option.some.inj howner).symm
      · simp only [hstore, OrderedMap.get_set_of_ne _ hid] at hget
        simp only [OrderedMap.get_set_of_ne _ hid]
        exact h.owner r run op hr hget hrunning howner

theorem step (h : Owned w) (hapart : Apart w e) : Owned (w.step e) := by
  cases e with
  | tick ms => exact ⟨h.started, h.owner⟩
  | enqueue id kind resourceType resourceId maxAttempts runAt =>
    unfold World.step
    dsimp only
    split
    · exact h.insert id _ rfl
    · exact h
  | placeOrder order items runAt =>
    unfold World.step
    dsimp only
    split
    · next hfresh =>
      refine World.placeOrder_induction hfresh ⟨h.started, h.owner⟩ fun v item _ hv => ?_
      have hins := hv.insert item.operationId
        { kind := "domain.register"
          resourceType := "public_domain"
          resourceId := item.publicDomainId
          nextRunAt := runAt } rfl
      exact ⟨hins.started, hins.owner⟩
    · exact h
  | claim options locked => exact h.claim hapart
  | advance r reply clock =>
    unfold World.step
    dsimp only
    split
    · next run hr => exact h.advance hr (move_advance w r run reply clock)
    · exact h
  | crash r => exact h.gone r

lemma init : Owned {} where
  started _ _ h := by simp at h
  owner _ _ _ h := by simp at h

end Owned

/-- Where two runs of one worker are under way with one operation, the fence lets the older one
through. -/
lemma apart_of_fenced (h : Owned w) (hfenced : Fenced (w.step e)) : Apart w e := by
  cases e with
  | claim o locked =>
    intro c hc r run hr hid hworker
    have hclaim : w.claim o locked = { w with
        store := c.store
        runs := w.runs.set w.nextRun (startRun o c.id c.operation)
        nextRun := w.nextRun + 1
        latest := w.latest.set c.id w.nextRun } := by
      unfold World.claim
      rw [hc]
    obtain ⟨-, row, -, -, -, -, -, -, -, hop, hstore⟩ := Store.claimNextOperation_eq_some hc
    have hne : w.nextRun ≠ r := (h.started r run hr).ne'
    obtain ⟨-, hguard, -⟩ := hfenced r run
      (by simpa [World.step, hclaim, OrderedMap.get_set_of_ne _ hne] using hr)
      (by simpa [World.step, hclaim, hid] using hne)
    have hrow : c.store.operations.get run.operationId = some c.operation := by
      rw [hstore, hid]
      exact OrderedMap.get_set_self _
    simp only [World.step, hclaim] at hguard
    have hopen : c.store.finishable run.operationId run.options.workerId = true :=
      (Store.finishable_iff hrow).mpr ⟨by rw [hop]; rfl, by rw [hop, hworker]; rfl⟩
    simp [hopen] at hguard
  | _ => trivial

/-- **The fence holds exactly where no worker takes over from itself**: in every state that a run
reaches, only the run of an operation's latest claim passes the guards of the store, and no other
changes the store, if and only if no claim takes an operation that an earlier run of the same
worker is still under way with. -/
theorem lease_fencing (es : List Event) :
    Allowed World.step (fun w e => Fenced (w.step e)) {} es ↔ Allowed World.step Apart {} es := by
  suffices hrun : ∀ w, Owned w →
      (Allowed World.step (fun w e => Fenced (w.step e)) w es ↔ Allowed World.step Apart w es) from
    hrun {} Owned.init
  induction es with
  | nil => exact fun _ _ => Iff.rfl
  | cons e es ih =>
    intro w hw
    constructor
    · rintro ⟨hfenced, hrest⟩
      have hapart := apart_of_fenced hw hfenced
      exact ⟨hapart, (ih _ (hw.step hapart)).mp hrest⟩
    · rintro ⟨hapart, hrest⟩
      have hstep := hw.step hapart
      exact ⟨hstep.fenced, (ih _ hstep).mpr hrest⟩

/-- A loop claims an operation, and stalls until its lease has run out. -/
def stalled : List Event :=
  [.enqueue 0 "dns.apply" "dns_zone" "z" 5 0, .claim { workerId := "w" } [], .tick 300001]

/-- **Another loop of the process takes over**, and the fence lets the first one through. -/
theorem stalled_not_fenced :
    ¬ ∀ es : List Event, Allowed World.step (fun w e => Fenced (w.step e)) {} es := by
  intro h
  have hlast := (h (stalled ++ [.claim { workerId := "w" } []])).last
  set w := (Lib.Run.run World.step {} stalled).step (.claim { workerId := "w" } []) with hw
  obtain ⟨run, hrun⟩ : ∃ run, w.runs.get 0 = some run :=
    Option.isSome_iff_exists.mp (by decide)
  have hold : (w.runs.get 0).map (fun run => (run.operationId, run.options.workerId)) =
      some (0, "w") := by decide
  rw [hrun, Option.map_some, Option.some.injEq, Prod.mk.injEq] at hold
  obtain ⟨hid, hworker⟩ := hold
  have hlatest : w.latest.get 0 = some 1 := by decide
  have hopen : w.store.finishable 0 "w" = true := by decide
  obtain ⟨-, hguard, -⟩ := hlast 0 run hrun (by rw [hid, hlatest]; decide)
  rw [hid, hworker, hopen] at hguard
  exact absurd hguard (by decide)

end Tnp.Operations
