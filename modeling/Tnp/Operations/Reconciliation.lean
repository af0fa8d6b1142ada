import Tnp.Operations.Moves

/-!
What a reconciliation concludes from the state of the provider.

A reconciler reads a later state, and takes it for the effect of one call where the state is as
that call would have left it. It is right as long as nothing but that call can explain the state.
-/

namespace Tnp.Operations

open Tnp.Lib Tnp.Lib.Run

/-! ### The provider -/

structure Provider where
  /-- The domains in the account, with the expiry the registrar reports. -/
  domains : OrderedMap String (Option ℕ) := ⟨[], List.nodup_nil⟩
  /-- The hash of each zone. -/
  zones : OrderedMap String String := ⟨[], List.nodup_nil⟩

/-- What the payload of an operation asks for. -/
inductive Intent
  | register (domain : String)
  | renew (domain : String) (previousExpiresAt : Option ℕ)
  | sync (domain : String)
  /-- `intended` is the changes merged into the zone of the base hash. -/
  | dnsApply (zone baseHash : String) (intended : Except String String)

/-- What a request that takes effect leaves behind. -/
inductive Effect
  | domain (expiresAt : Option ℕ)
  | zone (hash : String)

namespace Provider

variable (p : Provider)

def apply : Intent → Effect → Provider
  | .register domain, .domain expiresAt => { p with domains := p.domains.set domain expiresAt }
  | .renew domain _, .domain expiresAt => { p with domains := p.domains.set domain expiresAt }
  | .dnsApply zone _ _, .zone hash => { p with zones := p.zones.set zone hash }
  | _, _ => p

/-- The reads of a reconciliation show the true state, or throw; the snapshot of the previewed zone
may be gone. -/
def answers : Intent → Evidence → Bool
  | _, .threw _ => true
  | .register domain, .registration visible => visible = (p.domains.get domain).isSome
  | .renew domain previousExpiresAt, .renewal before expiresAt =>
    before = previousExpiresAt ∧
      (previousExpiresAt = none ∨ p.domains.get domain = some expiresAt)
  | .dnsApply zone baseHash intended, .zone remoteHash base merged =>
    p.zones.get zone = some remoteHash ∧ (base = none ∨ base = some baseHash ∧ merged = intended)
  | _, _ => false

end Provider

/-- The provider is as the call of the operation would have left it. -/
def Intent.shown (p : Provider) : Intent → Bool
  | register domain => (p.domains.get domain).isSome
  | renew domain (some before) => (p.domains.get domain).any fun e => e.any (before < ·)
  | dnsApply zone _ (.ok intended) => p.zones.get zone = some intended
  | _ => false

/-- The outbox and the provider at the other end. -/
structure Outside where
  world : World := {}
  provider : Provider := {}
  /-- The requests that may still take effect, each once. -/
  inFlight : List OpId := []
  /-- The operations of which a request took effect. -/
  effects : List OpId := []

inductive Happening
  | engine (e : Event)
  | lands (id : OpId) (effect : Effect)

/-- The operation whose request goes out. -/
def requestOf (w : World) : Event → Option OpId
  | .advance r .ok _ =>
    (w.runs.get r).bind fun run =>
      match run.phase with
      | .marked _ => some run.operationId
      | _ => none
  | _ => none

/-- The operation whose submission is written. -/
def submissionOf (w : World) : Event → Option OpId
  | .advance r .ok _ =>
    (w.runs.get r).bind fun run =>
      match run.phase with
      | .executing (.call :: _) =>
        if w.store.submittable w.now run.operationId run.options.workerId then
          some run.operationId
        else none
      | _ => none
  | _ => none

namespace Outside

variable (intent : OpId → Intent) (s : Outside)

def truthful : Event → Bool
  | .advance r (.evidence e) _ =>
    (s.world.runs.get r).all fun run => s.provider.answers (intent run.operationId) e
  | _ => true

def step : Happening → Outside
  | .engine e =>
    if s.truthful intent e then
      { s with world := s.world.step e, inFlight := (requestOf s.world e).toList ++ s.inFlight }
    else s
  | .lands id effect =>
    if id ∈ s.inFlight then
      { s with
        provider := s.provider.apply (intent id) effect
        inFlight := s.inFlight.erase id
        effects := id :: s.effects }
    else s

/-- Where a reconciliation returned `succeeded`, the call of the operation took effect. -/
def TrueSuccess : Prop :=
  ∀ r run, s.world.runs.get r = some run → run.phase = .confirming [] .succeeded →
    run.operationId ∈ s.effects

end Outside

def Phase.isReconciling : Phase → Bool
  | .reconciling => true
  | _ => false

/-- The operations that were submitted and have no result, or are being reconciled. -/
def doubted (w : World) : List OpId :=
  (w.store.operations.entries.filter fun c =>
      c.2.submittedAt ≠ none ∧ terminal c.2.status = false).map Prod.fst ++
    (w.runs.entries.filter fun c => c.2.phase.isReconciling).map (·.2.operationId)

/-- Nothing but its own call can explain the state that an operation waits for: it is not submitted
while the provider is already in that state, and no other call brings the provider there as long
as it is in doubt. -/
def Unexplained (intent : OpId → Intent) (s : Outside) : Happening → Prop
  | .engine e =>
    ∀ id ∈ submissionOf s.world e, id ∉ s.effects → (intent id).shown s.provider = false
  | .lands id effect =>
    id ∈ s.inFlight → ∀ j ∈ doubted s.world, j ≠ id → j ∉ s.effects →
      (intent j).shown (s.provider.apply (intent id) effect) = false

instance (intent : OpId → Intent) (s : Outside) : ∀ e, Decidable (Unexplained intent s e)
  | .engine e => inferInstanceAs (Decidable (∀ id ∈ submissionOf s.world e, _))
  | .lands id _ => inferInstanceAs (Decidable (id ∈ s.inFlight → _))

variable {intent : OpId → Intent} {p : Provider} {effects : List OpId} {w : World} {r : RunId}
  {run run' : Run} {id : OpId}

/-! ### What the handlers conclude -/

lemma unchecked_ne_succeeded (err : Thrown) : unchecked err ≠ .succeeded := by
  cases err <;> simp [unchecked]

lemma register_succeeded {e : Evidence} {rest : List Act}
    (h : register.reconcile e = some (rest, .succeeded)) : e = .registration true := by
  unfold register at h
  dsimp only at h
  split at h
  · next err => exact absurd (congrArg Prod.snd (Option.some.inj h)) (unchecked_ne_succeeded err)
  · rfl
  all_goals simp at h

lemma renew_succeeded {e : Evidence} {rest : List Act}
    (h : renew.reconcile e = some (rest, .succeeded)) :
    ∃ before expiresAt, e = .renewal (some before) (some expiresAt) ∧ before < expiresAt := by
  unfold renew at h
  dsimp only at h
  split at h
  · next err => exact absurd (congrArg Prod.snd (Option.some.inj h)) (unchecked_ne_succeeded err)
  · simp at h
  · simp at h
  · next before expiresAt =>
    split_ifs at h with hlater hsame
    · exact ⟨before, expiresAt, rfl, hlater⟩
    all_goals simp at h
  · simp at h

lemma dnsApply_succeeded {e : Evidence} {rest : List Act}
    (h : dnsApply.reconcile e = some (rest, .succeeded)) :
    ∃ baseHash intended, e = .zone intended (some baseHash) (.ok intended) := by
  unfold dnsApply at h
  dsimp only at h
  split at h
  · next err => exact absurd (congrArg Prod.snd (Option.some.inj h)) (unchecked_ne_succeeded err)
  · simp at h
  · simp at h
  · next remoteHash baseHash intended =>
    split_ifs at h with hsame hbase
    · exact ⟨baseHash, intended, by rw [hsame]⟩
    all_goals simp at h
  · simp at h

/-- A handler returns `succeeded` only where the provider shows the operation done. -/
lemma shown_of_succeeded {e : Evidence} {rest : List Act} {i : Intent}
    (h : run.reconcile e = some (rest, .succeeded)) (he : p.answers i e = true) :
    i.shown p = true := by
  obtain ⟨handler, hhandler, hrec⟩ := Option.bind_eq_some_iff.mp h
  obtain ⟨-, rfl | rfl | rfl | rfl⟩ := handlerOf_cases hhandler
  · obtain rfl := register_succeeded hrec
    cases i with
    | register domain => simpa [Provider.answers, Intent.shown] using he
    | _ => simp [Provider.answers] at he
  · obtain ⟨before, expiresAt, rfl, hlater⟩ := renew_succeeded hrec
    cases i with
    | renew domain previousExpiresAt =>
      simp only [Provider.answers, decide_eq_true_eq] at he
      obtain ⟨rfl, hnone | hexpiry⟩ := he
      · cases hnone
      · simp [Intent.shown, hexpiry, hlater]
    | _ => simp [Provider.answers] at he
  · cases hrec
  · obtain ⟨baseHash, intended, rfl⟩ := dnsApply_succeeded hrec
    cases i with
    | dnsApply zone previewed merged =>
      simp only [Provider.answers, decide_eq_true_eq] at he
      obtain ⟨hzone, hnone | ⟨-, rfl⟩⟩ := he
      · cases hnone
      · simp [Intent.shown, hzone]
    | _ => simp [Provider.answers] at he

/-! ### One step -/

/-- The operation was submitted and has no result, or is being reconciled. -/
def InDoubt (w : World) (id : OpId) : Prop :=
  (∃ op, w.store.operations.get id = some op ∧ op.submittedAt ≠ none ∧
    terminal op.status = false) ∨
  ∃ r run, w.runs.get r = some run ∧ run.operationId = id ∧ run.phase = .reconciling

lemma Phase.isReconciling_iff {phase : Phase} :
    phase.isReconciling = true ↔ phase = .reconciling := by
  cases phase <;> simp [isReconciling]

lemma mem_doubted_iff : id ∈ doubted w ↔ InDoubt w id := by
  simp only [doubted, InDoubt, List.mem_append, List.mem_map, List.mem_filter, Prod.exists,
    Phase.isReconciling_iff, decide_eq_true_eq, OrderedMap.mem_entries_iff]
  constructor
  · rintro (⟨j, op, ⟨hop, hsub, hopen⟩, rfl⟩ | ⟨r, run, ⟨hr, hphase⟩, rfl⟩)
    · exact .inl ⟨op, hop, hsub, hopen⟩
    · exact .inr ⟨r, run, hr, rfl, hphase⟩
  · rintro (⟨op, hop, hsub, hopen⟩ | ⟨r, run, hr, rfl, hphase⟩)
    · exact .inl ⟨id, op, ⟨hop, hsub, hopen⟩, rfl⟩
    · exact .inr ⟨r, run, ⟨hr, hphase⟩, rfl⟩

/-- The provider shows an operation in doubt done only where its call took effect. -/
structure Sound (intent : OpId → Intent) (p : Provider) (effects : List OpId) (w : World) :
    Prop where
  doubt : ∀ id, InDoubt w id → id ∉ effects → (intent id).shown p = false
  confirmed : ∀ r run rest, w.runs.get r = some run → run.phase = .confirming rest .succeeded →
    run.operationId ∈ effects

namespace Sound

/-- Nothing new comes in doubt, and nothing new is confirmed. -/
lemma of_subset {w' : World} (h : Sound intent p effects w)
    (hdoubt : ∀ id, InDoubt w' id → InDoubt w id)
    (hruns : ∀ r run rest, w'.runs.get r = some run → run.phase = .confirming rest .succeeded →
      run.operationId ∈ effects) : Sound intent p effects w' where
  doubt id hid := h.doubt id (hdoubt id hid)
  confirmed := hruns

/-- The rows may change where none is submitted or reopened. -/
lemma store {s : Store} (h : Sound intent p effects w)
    (hrows : ∀ id op, s.operations.get id = some op → op.submittedAt ≠ none →
      terminal op.status = false → InDoubt w id) :
    Sound intent p effects { w with store := s } := by
  refine h.of_subset ?_ h.confirmed
  rintro id (⟨op, hop, hsub, hopen⟩ | hrun)
  · exact hrows id op hop hsub hopen
  · exact .inr hrun

lemma frame {w' : World} (h : Sound intent p effects w) (hstore : w'.store = w.store)
    (hruns : w'.runs = w.runs) : Sound intent p effects w' := by
  refine h.of_subset ?_ (by rw [hruns]; exact h.confirmed)
  intro id hid
  unfold InDoubt at hid ⊢
  rwa [hstore, hruns] at hid

lemma gone (h : Sound intent p effects w) (r : RunId) : Sound intent p effects (w.gone r) := by
  have hget {j : RunId} {run : Run} (hj : (w.gone r).runs.get j = some run) :
      w.runs.get j = some run :=
    OrderedMap.forall_delete (k := r) (P := fun j run => w.runs.get j = some run)
      (fun _ _ h => h) j run hj
  refine h.of_subset ?_ fun j run rest hj => h.confirmed j run rest (hget hj)
  rintro id (hrow | ⟨j, run, hj, hid, hphase⟩)
  · exact .inl hrow
  · exact .inr ⟨j, run, hget hj, hid, hphase⟩

/-- A run that goes on, and does not begin to reconcile. -/
lemma setRun (h : Sound intent p effects w) (hphase : run'.phase ≠ .reconciling)
    (hconfirmed : ∀ rest, run'.phase = .confirming rest .succeeded → run'.operationId ∈ effects) :
    Sound intent p effects (w.setRun r run') := by
  refine h.of_subset ?_ ?_
  · rintro id (hrow | ⟨j, jrun, hj, hid, hrec⟩)
    · exact .inl hrow
    · simp only [World.setRun, OrderedMap.get_set] at hj
      split at hj
      · obtain rfl := Option.some.inj hj
        exact absurd hrec hphase
      · exact .inr ⟨j, jrun, hj, hid, hrec⟩
  · intro j jrun rest hj hconf
    simp only [World.setRun, OrderedMap.get_set] at hj
    split at hj
    · obtain rfl := Option.some.inj hj
      exact hconfirmed rest hconf
    · exact h.confirmed j jrun rest hj hconf

/-- A run that goes on to anything but a confirmation. -/
lemma setRun_of_ne (h : Sound intent p effects w) (hphase : run'.phase ≠ .reconciling)
    (hconfirm : ∀ rest outcome, run'.phase ≠ .confirming rest outcome) :
    Sound intent p effects (w.setRun r run') :=
  h.setRun hphase fun rest hrest => absurd hrest (hconfirm rest _)

lemma perform (h : Sound intent p effects w) (id : OpId) (a : Act) :
    Sound intent p effects (w.perform id a) := h.frame World.store_perform World.runs_perform

lemma record (h : Sound intent p effects w) (m : Mark) : Sound intent p effects (w.record m) :=
  h.frame rfl rfl

lemma insert (h : Sound intent p effects w) (id : OpId) (op : Operation)
    (hop : op.submittedAt = none) : Sound intent p effects (w.insert id op) := by
  refine h.store fun j row hj hsub hopen => ?_
  simp only [OrderedMap.get_set] at hj
  split at hj
  · obtain rfl := Option.some.inj hj
    exact absurd hop hsub
  · exact .inl ⟨row, hj, hsub, hopen⟩

/-- A row with a result is not reopened. -/
lemma finish {worker : String} {u : FinishUpdate} {s : Store} (h : Sound intent p effects w)
    (hs : w.store.finishOperation w.now id worker u = some s) :
    Sound intent p effects { w with store := s } := by
  obtain ⟨op, hop, hfinish, rfl⟩ := Store.finishOperation_eq_some_iff.mp hs
  obtain ⟨hrunning, -⟩ := (Store.finishable_iff hop).mp hfinish
  refine h.store fun j row hj hsub hopen => ?_
  rw [Store.operations_releaseLease, OrderedMap.get_set] at hj
  split at hj
  · next heq =>
    obtain rfl := Option.some.inj hj
    refine .inl ⟨op, heq ▸ hop, ?_, by simp [hrunning, terminal]⟩
    intro hnone
    simp [FinishUpdate.apply, hnone] at hsub
  · exact .inl ⟨row, hj, hsub, hopen⟩

/-- What is submitted comes in doubt. -/
lemma submit {worker : String} {s : Store} (h : Sound intent p effects w)
    (hs : w.store.markSubmitted w.now id worker = some s)
    (hnew : id ∉ effects → (intent id).shown p = false) :
    Sound intent p effects { w with store := s } where
  doubt j hj hnot := by
    by_cases hid : j = id
    · exact hid ▸ hnew (hid ▸ hnot)
    obtain ⟨op, -, -, rfl⟩ := Store.markSubmitted_eq_some_iff.mp hs
    refine h.doubt j ?_ hnot
    rcases hj with ⟨row, hrow, hsub, hopen⟩ | hrun
    · exact .inl ⟨row, by rwa [OrderedMap.get_set_of_ne _ (Ne.symm hid)] at hrow, hsub, hopen⟩
    · exact .inr hrun
  confirmed := h.confirmed

/-- A run that turns confirms nothing but what a reconciliation read. -/
lemma turn {reply : Reply} (h : Sound intent p effects w) (hr : w.runs.get r = some run)
    (ht : Turn run reply run')
    (hreply : ∀ e, reply = .evidence e → p.answers (intent run.operationId) e = true) :
    Sound intent p effects (w.setRun r run') := by
  cases ht with
  | observe e rest outcome hphase he =>
    refine h.setRun (by simp) fun rest' hrest => ?_
    obtain ⟨rfl, rfl⟩ := Phase.confirming.inj hrest
    have hshown := shown_of_succeeded he (hreply e rfl)
    by_contra hnot
    simp [h.doubt _ (.inr ⟨r, run, hr, rfl, hphase⟩) hnot] at hshown
  | unchecked a rest outcome err hphase =>
    refine h.setRun (by simp) fun rest' hrest => ?_
    exact absurd (Phase.confirming.inj hrest).2 (unchecked_ne_succeeded err)
  | _ => refine h.setRun_of_ne ?_ ?_ <;> simp [Run.afterOutcome, Run.afterError]

lemma next {a : Act} (h : Sound intent p effects w) (hr : w.runs.get r = some run)
    (hn : run.Next a run') : Sound intent p effects (w.setRun r run') := by
  cases hn with
  | confirming rest outcome hphase =>
    refine h.setRun (by simp) fun rest' hrest => ?_
    obtain ⟨rfl, rfl⟩ := Phase.confirming.inj hrest
    exact h.confirmed r run _ hr hphase
  | _ => refine h.setRun_of_ne ?_ ?_ <;> simp

theorem advance (h : Sound intent p effects w) {reply : Reply} {w' : World}
    (hr : w.runs.get r = some run) (hmove : Move w r run reply w')
    (hreply : ∀ e, reply = .evidence e → p.answers (intent run.operationId) e = true)
    (hmark : ∀ rest, reply = .ok → run.phase = .executing (.call :: rest) →
      w.store.submittable w.now run.operationId run.options.workerId = true →
      run.operationId ∉ effects → (intent run.operationId).shown p = false) :
    Sound intent p effects w' := by
  cases hmove with
  | still => exact h
  | turn _ run' ht => exact h.turn hr ht hreply
  | perform a run' hn => exact (h.perform _ a).next (by simpa using hr) hn
  | mark rest s hphase hs =>
    obtain ⟨op, -, hsubmit, -⟩ := Store.markSubmitted_eq_some_iff.mp hs
    refine ((h.submit hs ?_).record _).setRun_of_ne (by simp) (by simp)
    exact hmark rest rfl hphase hsubmit
  | send rest _ => exact (h.record _).setRun_of_ne (by simp) (by simp)
  | refused rest clock err _ _ =>
    exact (h.record _).setRun_of_ne (by simp [Run.afterError]) (by simp [Run.afterError])
  | absent clock outcome _ _ => exact (h.record _).setRun_of_ne (by simp) (by simp)
  | finish u b s _ hs => exact ((h.finish hs).record _).gone r
  | giveUp status u b s _ hs => exact ((h.finish hs).record _).setRun_of_ne (by simp) (by simp)
  | dropped d b _ => exact h.gone r
  | mirrored _ => exact h.gone r
  | unmirrored rest err _ => exact h.gone r

lemma runnable_open {op : Operation} {now : ℕ} (h : runnable op now = true) :
    terminal op.status = false := by
  unfold runnable at h
  cases hstatus : op.status <;> simp_all [terminal]

/-- A claim reconciles what was in doubt. -/
lemma claim (h : Sound intent p effects w) (o : EngineOptions) (locked : List OpId) :
    Sound intent p effects (w.claim o locked) := by
  rcases World.claim_cases w o locked with hsame | ⟨c, hc, hclaim⟩
  · rw [hsame]
    exact h
  rw [hclaim]
  obtain ⟨-, row, -, -, -, hrow, -, hrunnable, -, hop, hstore⟩ :=
    Store.claimNextOperation_eq_some hc
  have hclaimed (hsub : c.operation.submittedAt ≠ none) : InDoubt w c.id :=
    .inl ⟨row, hrow, by rwa [hop] at hsub, runnable_open hrunnable⟩
  refine h.of_subset ?_ ?_
  · rintro id (⟨op, hget, hsub, hopen⟩ | ⟨r, run, hr, hid, hphase⟩)
    · simp only [hstore, OrderedMap.get_set] at hget
      split at hget
      · next heq =>
        obtain rfl := Option.some.inj hget
        exact heq ▸ hclaimed hsub
      · exact .inl ⟨op, hget, hsub, hopen⟩
    · simp only [OrderedMap.get_set] at hr
      split at hr
      · obtain rfl := Option.some.inj hr
        obtain rfl : c.id = id := hid
        refine hclaimed fun hnone => ?_
        simp only [startRun, hnone] at hphase
        split at hphase <;> simp at hphase
      · exact .inr ⟨r, run, hr, hid, hphase⟩
  · intro r run rest hr hconf
    simp only [OrderedMap.get_set] at hr
    split at hr
    · obtain rfl := Option.some.inj hr
      simp only [startRun] at hconf
      split at hconf
      · simp at hconf
      · split_ifs at hconf
    · exact h.confirmed r run rest hr hconf

theorem engine {s : Outside} {e : Event} (h : Sound intent s.provider s.effects s.world)
    (htruthful : s.truthful intent e = true) (hun : Unexplained intent s (.engine e)) :
    Sound intent s.provider s.effects (s.world.step e) := by
  cases e with
  | tick ms => exact h.frame rfl rfl
  | enqueue id kind resourceType resourceId maxAttempts runAt =>
    unfold World.step
    dsimp only
    split
    · exact h.insert id _ rfl
    · exact h
  | placeOrder order items runAt =>
    unfold World.step
    dsimp only
    split
    · next hfresh =>
      refine World.placeOrder_induction hfresh (h.frame rfl rfl) fun v item _ hv => ?_
      exact (hv.insert item.operationId _ rfl).frame rfl rfl
    · exact h
  | claim options locked => exact h.claim options locked
  | advance r reply clock =>
    unfold World.step
    dsimp only
    split
    · next run hr =>
      refine h.advance hr (move_advance s.world r run reply clock) ?_ ?_
      · rintro e rfl
        simpa [Outside.truthful, hr] using htruthful
      · rintro rest rfl hphase hsubmit hnot
        exact hun run.operationId (by simp [submissionOf, hr, hphase, hsubmit]) hnot
    · exact h
  | crash r => exact h.gone r

/-- **One step, of the outbox or of the provider.** -/
theorem step {s : Outside} {e : Happening} (h : Sound intent s.provider s.effects s.world)
    (hun : Unexplained intent s e) :
    Sound intent (s.step intent e).provider (s.step intent e).effects (s.step intent e).world := by
  cases e with
  | engine e =>
    simp only [Outside.step]
    split
    · next htruthful => exact h.engine htruthful hun
    · exact h
  | lands id effect =>
    simp only [Outside.step]
    split
    · next hflight =>
      refine ⟨fun j hj hnot => ?_, fun r run rest hr hconf => ?_⟩
      · rw [List.mem_cons, not_or] at hnot
        exact hun hflight j (mem_doubted_iff.mpr hj) hnot.1 hnot.2
      · exact List.mem_cons_of_mem _ (h.confirmed r run rest hr hconf)
    · exact h

lemma init : Sound intent p [] {} where
  doubt id h := by simp [InDoubt] at h
  confirmed r run rest h := by simp at h

end Sound

/-- **No reconciliation succeeds for another's call**: in a run in which nothing but the call of an
operation can explain the state the operation waits for, whatever reconciliation returned
`succeeded` in any state reached, the call of its operation took effect. -/
theorem true_success (intent : OpId → Intent) (p : Provider) (es : List Happening)
    (hun : Allowed (Outside.step intent) (Unexplained intent) { provider := p } es) :
    (Lib.Run.run (Outside.step intent) { provider := p } es).TrueSuccess := by
  have hsound : Sound intent _ _ _ :=
    invariant_of_allowed
      (I := fun s : Outside => Sound intent s.provider s.effects s.world)
      (fun s e hallowed h => h.step hallowed) Sound.init hun
  exact fun r run hr hphase => hsound.confirmed r run [] hr hphase

/-- A domain that runs out at 1000, and renewals of it ordered before any has run. -/
def renewals : OpId → Intent := fun _ => .renew "example" (some 1000)

def registrar : Provider := { domains := .ofList [("example", some 1000)] }

/-- `n` awaits of a run, each of which goes well. -/
def goesOn (r : RunId) (n : ℕ) : List Happening :=
  List.replicate n (.engine (.advance r .ok 0))

/-- The answer to a renewal is lost, and the later expiry read. -/
def answerLost : List Happening :=
  [.engine (.enqueue 0 "domain.renew" "public_domain" "1" 5 0),
    .engine (.claim { workerId := "w" } [])] ++ goesOn 0 3 ++
  [.lands 0 (.domain (some 2000)), .engine (.advance 0 (.throw .other) 0)] ++ goesOn 0 1 ++
  [.engine (.tick 60000), .engine (.claim { workerId := "w" } []),
    .engine (.advance 1 (.evidence (.renewal (some 1000) (some 2000))) 60000)] ++ goesOn 1 3

theorem answerLost_true :
    (Lib.Run.run (Outside.step renewals) { provider := registrar } answerLost).TrueSuccess :=
  true_success renewals registrar answerLost (by decide)

/-- The first renewal goes through. The request of the second is lost, and its expiry read. -/
def renewedOnce : List Happening :=
  [.engine (.enqueue 0 "domain.renew" "public_domain" "1" 5 0),
    .engine (.enqueue 1 "domain.renew" "public_domain" "1" 5 0),
    .engine (.claim { workerId := "w" } [])] ++ goesOn 0 3 ++ [.lands 0 (.domain (some 2000))] ++
  goesOn 0 7 ++ [.engine (.claim { workerId := "w" } [])] ++ goesOn 1 3 ++
  [.engine (.advance 1 (.throw .other) 0)] ++ goesOn 1 1 ++
  [.engine (.tick 60000), .engine (.claim { workerId := "w" } []),
    .engine (.advance 2 (.evidence (.renewal (some 1000) (some 2000))) 60000)] ++ goesOn 2 3

def Phase.returnedSuccess : Phase → Bool
  | .confirming [] .succeeded => true
  | _ => false

lemma Phase.returnedSuccess_iff {phase : Phase} :
    phase.returnedSuccess = true ↔ phase = .confirming [] .succeeded := by
  unfold returnedSuccess
  split <;> simp_all

/-- **The first renewal explains what the second waits for**, and the second is reported done. -/
theorem renewedOnce_not_true : ¬ ∀ (intent : OpId → Intent) (p : Provider) (es : List Happening),
    (Lib.Run.run (Outside.step intent) { provider := p } es).TrueSuccess := by
  intro h
  have hlast := h renewals registrar renewedOnce
  set s := Lib.Run.run (Outside.step renewals) { provider := registrar } renewedOnce with hs
  obtain ⟨run, hrun⟩ : ∃ run, s.world.runs.get 2 = some run :=
    Option.isSome_iff_exists.mp (by decide)
  have hend : (s.world.runs.get 2).map (fun run => (run.operationId, run.phase.returnedSuccess)) =
      some (1, true) := by decide
  have heffects : s.effects = [0] := by decide
  rw [hrun, Option.map_some, Option.some.injEq, Prod.mk.injEq, Phase.returnedSuccess_iff] at hend
  have hmem := hlast 2 run hrun hend.2
  rw [hend.1, heffects] at hmem
  exact absurd hmem (by decide)

end Tnp.Operations
