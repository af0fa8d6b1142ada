import Tnp.Operations.Moves

/-!
The zones that `dns.apply` changes: what is asked of them, and what is recorded as applied.

Every request raises the version wanted of its zone and puts an operation in the outbox; the runs of
those operations write the zone's row at the acts that the engine leaves open as `write`. What is
`confirmed`, the operations whose zone the provider was read to hold, is remembered and read by no
step.
-/

namespace Tnp.Operations

open Tnp.Lib Tnp.Lib.Run

inductive ZoneState
  | unmanaged | inSync | pending | conflict | unknown
  deriving DecidableEq

structure ZoneRow where
  state : ZoneState := .unknown
  desiredVersion : ℕ := 0
  appliedVersion : ℕ := 0
  deriving DecidableEq

/-- What an operation is enqueued with. -/
structure ZonePayload where
  zoneId : String
  baseHash : String
  changes : String
  desiredVersion : ℕ
  deriving DecidableEq

structure ZoneApplyRequest where
  scope : String
  idempotencyKey : String
  zoneId : String
  baseHash : String
  changes : String

structure ZoneWorld where
  world : World := {}
  zones : OrderedMap String ZoneRow := ⟨[], List.nodup_nil⟩
  payloads : OrderedMap OpId ZonePayload := ⟨[], List.nodup_nil⟩
  keys : OrderedMap (String × String) OpId := ⟨[], List.nodup_nil⟩
  /-- What `onGiveUp` is called with. -/
  verdicts : OrderedMap RunId (GiveUpStatus × String) := ⟨[], List.nodup_nil⟩
  confirmed : List OpId := []

inductive ZoneEvent
  /-- The row that an order writes for a domain. -/
  | insert (zoneId : String)
  | request (q : ZoneApplyRequest) (id : OpId)
  | engine (e : Event)
  /-- A conflict is written, and the worker dies before it is returned. -/
  | crashAfterConflict (r : RunId)

/-- Its request may still be carried out. -/
def outstanding (status : OperationStatus) : Bool :=
  status = .queued ∨ status = .running ∨ status = .unknown

namespace ZoneRow

variable (row : ZoneRow)

def requested : ZoneRow :=
  { row with desiredVersion := row.desiredVersion + 1, state := .pending }

def inConflict : ZoneRow := { row with state := .conflict }

def markApplied (version : ℕ) : ZoneRow :=
  { row with
    appliedVersion := max row.appliedVersion version
    state := if row.desiredVersion ≤ version then .inSync else row.state }

def onGiveUp (status : GiveUpStatus) (code : String) : ZoneRow :=
  if row.state = .pending then
    { row with
      state :=
        if code = "conflict" then .conflict
        else if status = .manualReview then .unknown else .inSync }
  else row

end ZoneRow

/-- What the next await of a run writes of the zone's row. -/
inductive ZoneWrite
  | applied
  | conflict
  | gaveUp
  deriving DecidableEq

/-- A run of `dns.apply` that stands before this write, and is answered so. -/
def Run.zoneWrite (run : Run) (reply : Reply) : Option ZoneWrite :=
  if run.operation.kind = dnsApply.kind then
    match run.phase, reply with
    | .executing [.write], .ok => some .applied
    | .executing (.read exits :: _), .exit (.failed code message) =>
      if exits (.failed code message) ∧ code = "conflict" then some .conflict else none
    | .confirming [.write] .succeeded, .ok => some .applied
    | .confirming [.write] (.conflict _), .ok => some .conflict
    | .givingUp [.write], .ok => some .gaveUp
    | _, _ => none
  else none

/-- The await at which the provider is read to hold what the operation makes of the zone. -/
def Run.confirms (run : Run) (reply : Reply) : Bool :=
  run.operation.kind = dnsApply.kind &&
    match run.phase, reply with
    | .executing [.read _, .write], .ok => true
    | .reconciling, .evidence (.zone remoteHash (some _) (.ok intended)) => remoteHash = intended
    | _, _ => false

namespace ZoneWorld

variable (z : ZoneWorld)

def setRow (zoneId : String) (f : ZoneRow → ZoneRow) : ZoneWorld :=
  match z.zones.get zoneId with
  | some row => { z with zones := z.zones.set zoneId (f row) }
  | none => z

/-- The row of the zone of an operation. -/
def setRowOf (id : OpId) (f : ZonePayload → ZoneRow → ZoneRow) : ZoneWorld :=
  match z.payloads.get id with
  | some payload => z.setRow payload.zoneId (f payload)
  | none => z

def write (r : RunId) (run : Run) : ZoneWrite → ZoneWorld
  | .applied => z.setRowOf run.operationId fun payload row => row.markApplied payload.desiredVersion
  | .conflict => z.setRowOf run.operationId fun _ row => row.inConflict
  | .gaveUp =>
    match z.verdicts.get r with
    | some (status, code) => z.setRowOf run.operationId fun _ row => row.onGiveUp status code
    | none => z

/-- What the await of a run writes, if anything. -/
def writeNext (r : RunId) (run : Run) (reply : Reply) : ZoneWorld :=
  match run.zoneWrite reply with
  | some w => z.write r run w
  | none => z

/-- What is kept of a decision to give up. -/
def verdictsAfter (r : RunId) (run : Run) (reply : Reply) :
    OrderedMap RunId (GiveUpStatus × String) :=
  match run.phase, reply with
  | .deciding (.giveUp status u) _, .ok => z.verdicts.set r (status, u.errorCode.getD "")
  | _, _ => z.verdicts

/-- A transaction: a key that was used before changes nothing, whether it is answered with its
operation or refused. -/
def request (q : ZoneApplyRequest) (id : OpId) : ZoneWorld :=
  match z.zones.get q.zoneId with
  | none => z
  | some row =>
    if z.keys.get (q.scope, q.idempotencyKey) = none ∧ z.world.store.operations.get id = none then
      { z with
        zones := z.zones.set q.zoneId row.requested
        payloads := z.payloads.set id
          ⟨q.zoneId, q.baseHash, q.changes, row.requested.desiredVersion⟩
        keys := z.keys.set (q.scope, q.idempotencyKey) id
        world := z.world.insert id
          { kind := dnsApply.kind
            resourceType := "dns_zone"
            resourceId := q.zoneId
            nextRunAt := z.world.now } }
    else z

def engine (e : Event) : ZoneWorld :=
  match e with
  | .enqueue _ kind .. => if kind = dnsApply.kind then z else { z with world := z.world.step e }
  | .advance r reply _ =>
    match z.world.runs.get r with
    | none => z
    | some run =>
      { z.writeNext r run reply with
        world := z.world.step e
        verdicts := z.verdictsAfter r run reply
        confirmed := if run.confirms reply then run.operationId :: z.confirmed else z.confirmed }
  | e => { z with world := z.world.step e }

def step : ZoneEvent → ZoneWorld
  | .insert zoneId =>
    if z.zones.get zoneId = none then { z with zones := z.zones.set zoneId {} } else z
  | .request q id => z.request q id
  | .engine e => z.engine e
  | .crashAfterConflict r =>
    match z.world.runs.get r with
    | some run =>
      match run.phase with
      | .executing (.read _ :: .call :: _) =>
        if run.operation.kind = dnsApply.kind then
          { z.write r run .conflict with world := z.world.step (.crash r) }
        else z
      | _ => z
    | none => z

/-! ### What is claimed of it -/

/-- A request for the zone is outstanding whose version is above the one applied. -/
def Newer (zoneId : String) (row : ZoneRow) : Prop :=
  ∃ id op payload, z.world.store.operations.get id = some op ∧ z.payloads.get id = some payload ∧
    payload.zoneId = zoneId ∧ outstanding op.status = true ∧
    row.appliedVersion < payload.desiredVersion

/-- A zone is in sync only when nothing newer is outstanding. -/
def InSync : Prop :=
  ∀ zoneId row, z.zones.get zoneId = some row → row.state = .inSync → ¬ z.Newer zoneId row

/-- A step only raises what is applied, up to what is wanted, and to the version of an operation
whose zone the provider was read to hold. -/
def Raises (z' : ZoneWorld) : Prop :=
  ∀ zoneId row, z.zones.get zoneId = some row → ∃ row', z'.zones.get zoneId = some row' ∧
    row.appliedVersion ≤ row'.appliedVersion ∧ row'.appliedVersion ≤ row'.desiredVersion ∧
    (row.appliedVersion < row'.appliedVersion → ∃ id payload, z.payloads.get id = some payload ∧
      payload.zoneId = zoneId ∧ payload.desiredVersion = row'.appliedVersion ∧ id ∈ z.confirmed)

/-- No operation that gives up as failed, a conflict apart, settles a pending zone for which a
newer request is outstanding. -/
def SettlesLast (e : ZoneEvent) : Prop :=
  ∀ r clock run payload row code, e = .engine (.advance r .ok clock) →
    z.world.runs.get r = some run → run.zoneWrite .ok = some .gaveUp →
    z.verdicts.get r = some (.failed, code) → code ≠ "conflict" →
    z.payloads.get run.operationId = some payload → z.zones.get payload.zoneId = some row →
    row.state = .pending → ¬ z.Newer payload.zoneId row

end ZoneWorld

/-! ### What is outstanding -/

/-- Nothing that was known is lost, and nothing that is settled becomes outstanding again. -/
def Carries (s s' : Store) : Prop :=
  ∀ id op, s.operations.get id = some op → ∃ op', s'.operations.get id = some op' ∧
    (outstanding op'.status = true → outstanding op.status = true)

namespace Carries

variable {s s' s'' : Store} {id : OpId} {op op' : Operation}

lemma refl (s : Store) : Carries s s := fun _ op h => ⟨op, h, fun hout => hout⟩

lemma trans (h : Carries s s') (h' : Carries s' s'') : Carries s s'' := by
  intro id op hop
  obtain ⟨op', hop', hout⟩ := h id op hop
  obtain ⟨op'', hop'', hout'⟩ := h' id op' hop'
  exact ⟨op'', hop'', fun h => hout (hout' h)⟩

/-- A new row touches no other. -/
lemma fresh (hs : s'.operations = s.operations.set id op) (hnone : s.operations.get id = none) :
    Carries s s' := by
  intro j row hrow
  have hne : id ≠ j := by
    rintro rfl
    simp [hnone] at hrow
  exact ⟨row, by rw [hs, OrderedMap.get_set_of_ne _ hne, hrow], fun hout => hout⟩

lemma set (hs : s'.operations = s.operations.set id op') (hop : s.operations.get id = some op)
    (hout : outstanding op'.status = true → outstanding op.status = true) : Carries s s' := by
  intro j row hrow
  by_cases hj : id = j
  · subst hj
    obtain rfl := Option.some.inj (hop.symm.trans hrow)
    exact ⟨op', by rw [hs, OrderedMap.get_set_self], hout⟩
  · exact ⟨row, by rw [hs, OrderedMap.get_set_of_ne _ hj, hrow], fun hout => hout⟩

lemma markSubmitted {now : ℕ} {worker : String}
    (h : s.markSubmitted now id worker = some s') : Carries s s' := by
  obtain ⟨op, hop, -, rfl⟩ := Store.markSubmitted_eq_some_iff.mp h
  exact .set rfl hop fun hout => hout

lemma finishOperation {now : ℕ} {worker : String} {u : FinishUpdate}
    (h : s.finishOperation now id worker u = some s') : Carries s s' := by
  obtain ⟨op, hop, hfin, rfl⟩ := Store.finishOperation_eq_some_iff.mp h
  refine .set (Store.operations_releaseLease) hop fun _ => ?_
  simp [outstanding, ((Store.finishable_iff hop).mp hfin).1]

lemma move {w w' : World} {r : RunId} {run : Run} {reply : Reply} (h : Move w r run reply w') :
    Carries w.store w'.store := by
  cases h with
  | perform a run' hnext =>
    have hstore : ((w.perform run.operationId a).setRun r run').store = w.store :=
      World.store_perform
    exact hstore ▸ refl _
  | mark rest s hp hs => exact markSubmitted hs
  | finish u p s hp hs => exact finishOperation hs
  | giveUp status u p s hp hs => exact finishOperation hs
  | _ => exact refl _

lemma step (w : World) (e : Event) : Carries w.store (w.step e).store := by
  cases e with
  | tick ms => exact refl _
  | enqueue id kind resourceType resourceId maxAttempts runAt =>
    unfold World.step
    dsimp only
    split
    · next hnone => exact fresh rfl hnone
    · exact refl _
  | placeOrder order items runAt =>
    unfold World.step
    dsimp only
    split
    · next hfresh =>
      exact World.placeOrder_induction (I := fun v => Carries w.store v.store) hfresh (refl _)
        fun v item hnone hv => hv.trans (fresh rfl hnone)
    · exact refl _
  | claim options locked =>
    obtain h | ⟨c, hc, h⟩ := World.claim_cases w options locked
    · exact (congrArg World.store h) ▸ refl _
    · obtain ⟨-, op, -, -, -, hop, -, hrun, -, hclaimed, hstore⟩ :=
        Store.claimNextOperation_eq_some hc
      have hstep : (w.step (.claim options locked)).store = c.store := congrArg World.store h
      rw [hstep]
      refine set (congrArg Store.operations hstore) hop fun _ => ?_
      simp only [runnable, outstanding, decide_eq_true_eq] at hrun ⊢
      tauto
  | advance r reply clock =>
    unfold World.step
    dsimp only
    split
    · exact move (move_advance _ _ _ _ _)
    · exact refl _
  | crash r => exact refl _

end Carries

/-! ### Writes of a row -/

/-- The row that a write leaves. -/
inductive RowWrite (z : ZoneWorld) (r : RunId) (payload : ZonePayload) (row : ZoneRow) :
    ZoneWrite → ZoneRow → Prop
  | applied : RowWrite z r payload row .applied (row.markApplied payload.desiredVersion)
  | conflict : RowWrite z r payload row .conflict row.inConflict
  | gaveUp (status : GiveUpStatus) (code : String) (h : z.verdicts.get r = some (status, code)) :
      RowWrite z r payload row .gaveUp (row.onGiveUp status code)

namespace RowWrite

variable {z : ZoneWorld} {r : RunId} {payload : ZonePayload} {row row' : ZoneRow} {w : ZoneWrite}

lemma versions (h : RowWrite z r payload row w row') :
    row'.desiredVersion = row.desiredVersion ∧
      (row'.appliedVersion = row.appliedVersion ∨
        w = .applied ∧ row'.appliedVersion = max row.appliedVersion payload.desiredVersion) := by
  cases h with
  | applied => exact ⟨rfl, .inr ⟨rfl, rfl⟩⟩
  | conflict => exact ⟨rfl, .inl rfl⟩
  | gaveUp status code hverdict =>
    unfold ZoneRow.onGiveUp
    split
    · exact ⟨rfl, .inl rfl⟩
    · exact ⟨rfl, .inl rfl⟩

/-- What settles a row. -/
lemma inSync (h : RowWrite z r payload row w row') (hsync : row'.state = .inSync) :
    row.state = .inSync ∨ (w = .applied ∧ row.desiredVersion ≤ payload.desiredVersion) ∨
      (w = .gaveUp ∧ row.state = .pending ∧
        ∃ code, z.verdicts.get r = some (.failed, code) ∧ code ≠ "conflict") := by
  cases h with
  | applied =>
    by_cases hlast : row.desiredVersion ≤ payload.desiredVersion
    · exact .inr (.inl ⟨rfl, hlast⟩)
    · exact .inl (by simpa [ZoneRow.markApplied, hlast] using hsync)
  | conflict => simp [ZoneRow.inConflict] at hsync
  | gaveUp status code hverdict =>
    by_cases hpending : row.state = .pending
    · by_cases hconflict : code = "conflict"
      · simp [ZoneRow.onGiveUp, hpending, hconflict] at hsync
      · cases status with
        | failed => exact .inr (.inr ⟨rfl, hpending, code, hverdict, hconflict⟩)
        | manualReview => simp [ZoneRow.onGiveUp, hpending, hconflict] at hsync
    · exact .inl (by simpa [ZoneRow.onGiveUp, hpending] using hsync)

end RowWrite

namespace ZoneWorld

variable {z : ZoneWorld} {r : RunId} {run : Run}

lemma setRowOf_cases (z : ZoneWorld) (id : OpId) (f : ZonePayload → ZoneRow → ZoneRow) :
    z.setRowOf id f = z ∨
    ∃ payload row, z.payloads.get id = some payload ∧ z.zones.get payload.zoneId = some row ∧
      z.setRowOf id f = { z with zones := z.zones.set payload.zoneId (f payload row) } := by
  unfold setRowOf
  split
  · next payload hpayload =>
    unfold setRow
    split
    · next row hrow => exact .inr ⟨payload, row, hpayload, hrow, rfl⟩
    · exact .inl rfl
  · exact .inl rfl

/-- A write leaves everything alone, or one row changed. -/
lemma write_cases (z : ZoneWorld) (r : RunId) (run : Run) (w : ZoneWrite) :
    z.write r run w = z ∨
    ∃ payload row row', z.payloads.get run.operationId = some payload ∧
      z.zones.get payload.zoneId = some row ∧ RowWrite z r payload row w row' ∧
      z.write r run w = { z with zones := z.zones.set payload.zoneId row' } := by
  cases w with
  | applied =>
    obtain h | ⟨payload, row, hpayload, hrow, h⟩ := setRowOf_cases z run.operationId
      fun payload row => row.markApplied payload.desiredVersion
    · exact .inl h
    · exact .inr ⟨payload, row, _, hpayload, hrow, .applied, h⟩
  | conflict =>
    obtain h | ⟨payload, row, hpayload, hrow, h⟩ := setRowOf_cases z run.operationId
      fun _ row => row.inConflict
    · exact .inl h
    · exact .inr ⟨payload, row, _, hpayload, hrow, .conflict, h⟩
  | gaveUp =>
    simp only [write]
    split
    · next status code hverdict =>
      obtain h | ⟨payload, row, hpayload, hrow, h⟩ := setRowOf_cases z run.operationId
        fun _ row => row.onGiveUp status code
      · exact .inl h
      · exact .inr ⟨payload, row, _, hpayload, hrow, .gaveUp status code hverdict, h⟩
    · exact .inl rfl

/-! ### What a run has seen -/

/-- A run of `dns.apply` has its acts before it, and what it is about to record it has seen. -/
def Tracked (confirmed : List OpId) (run : Run) : Prop :=
  match run.phase with
  | .executing rest => rest <:+ dnsApply.execute ∧ (rest = [.write] → run.operationId ∈ confirmed)
  | .marked rest | .awaiting rest => rest = [.read confirmExits, .write]
  | .confirming _ outcome => outcome = .succeeded → run.operationId ∈ confirmed
  | _ => True

lemma Tracked.mono {confirmed confirmed' : List OpId} (h : Tracked confirmed run)
    (hsub : confirmed ⊆ confirmed') : Tracked confirmed' run := by
  unfold Tracked at h ⊢
  split
  · next rest hphase =>
    rw [hphase] at h
    exact ⟨h.1, fun hrest => hsub (h.2 hrest)⟩
  · next rest hphase =>
    rw [hphase] at h
    exact h
  · next rest hphase =>
    rw [hphase] at h
    exact h
  · next rest outcome hphase =>
    rw [hphase] at h
    exact fun hout => hsub (h hout)
  · trivial

/-- The acts that a run of `dns.apply` may have before it. -/
lemma suffix_execute {rest : List Act} (h : rest <:+ dnsApply.execute) :
    rest = [.write, .read previewExits, .call, .read confirmExits, .write] ∨
      rest = [.read previewExits, .call, .read confirmExits, .write] ∨
      rest = [.call, .read confirmExits, .write] ∨ rest = [.read confirmExits, .write] ∨
      rest = [.write] ∨ rest = [] := by
  simpa [dnsApply, List.suffix_cons_iff] using h

/-- What is confirmed once the await is over. -/
def seen (confirmed : List OpId) (run : Run) (reply : Reply) : List OpId :=
  if run.confirms reply then run.operationId :: confirmed else confirmed

lemma subset_seen (confirmed : List OpId) (run : Run) (reply : Reply) :
    confirmed ⊆ seen confirmed run reply := by
  unfold seen
  split
  · exact List.subset_cons_self _ _
  · exact List.Subset.refl _

lemma mem_seen {confirmed : List OpId} {reply : Reply} (h : run.confirms reply = true) :
    run.operationId ∈ seen confirmed run reply := by
  simp [seen, h]

/-- A reconciliation succeeds only where the provider was read to hold the zone that is wanted. -/
lemma confirms_of_reconcile {e : Evidence} {rest : List Act}
    (hkind : run.operation.kind = dnsApply.kind) (hphase : run.phase = .reconciling)
    (h : run.reconcile e = some (rest, .succeeded)) : run.confirms (.evidence e) = true := by
  have hhandler : run.handler = some dnsApply := by
    rw [Run.handler, hkind]
    rfl
  rw [Run.reconcile, hhandler, Option.bind_some] at h
  cases e with
  | threw err => cases err <;> simp [dnsApply, Operations.unchecked] at h
  | registration visible => simp [dnsApply] at h
  | renewal before expiresAt => simp [dnsApply] at h
  | zone remoteHash baseHash intended =>
    cases baseHash with
    | none => simp [dnsApply] at h
    | some baseHash =>
      cases intended with
      | error message => simp [dnsApply] at h
      | ok intended =>
        have heq : remoteHash = intended := by
          by_contra hne
          simp only [dnsApply, if_neg hne] at h
          split at h <;> simp at h
        simp [Run.confirms, hkind, hphase, heq]

lemma Tracked.turn {confirmed : List OpId} {reply : Reply} {run' : Run}
    (hkind : run.operation.kind = dnsApply.kind) (h : Tracked confirmed run)
    (ht : Turn run reply run') : Tracked (seen confirmed run reply) run' := by
  have hmono := h.mono (subset_seen confirmed run reply)
  cases ht with
  | returned rest hp =>
    rw [Tracked, hp] at hmono
    subst hmono
    exact ⟨by simp [dnsApply, List.suffix_cons_iff], by simp⟩
  | observe e rest outcome hp he =>
    intro hout
    subst hout
    exact mem_seen (confirms_of_reconcile hkind hp he)
  | unchecked a rest outcome err hp =>
    intro hout
    cases err <;> simp [Operations.unchecked] at hout
  | _ => trivial

lemma Tracked.next {confirmed : List OpId} {a : Act} {run' : Run}
    (hkind : run.operation.kind = dnsApply.kind) (h : Tracked confirmed run)
    (hn : run.Next a run') : Tracked (seen confirmed run .ok) run' := by
  have hmono := h.mono (subset_seen confirmed run .ok)
  cases hn with
  | executing rest hp hcall =>
    rw [Tracked, hp] at hmono
    refine ⟨(List.suffix_cons a rest).trans hmono.1, ?_⟩
    rintro rfl
    refine mem_seen ?_
    obtain hacts | hacts | hacts | hacts | hacts | hacts := suffix_execute hmono.1
    all_goals simp only [List.cons.injEq, reduceCtorEq, and_false] at hacts
    simp [Run.confirms, hkind, hp, hacts.1]
  | confirming rest outcome hp =>
    rw [Tracked, hp] at hmono
    exact hmono
  | givingUp rest hp => trivial

/-- Every run of `dns.apply` is tracked. -/
def AllTracked (confirmed : List OpId) (runs : OrderedMap RunId Run) : Prop :=
  ∀ r run, runs.get r = some run → run.operation.kind = dnsApply.kind → Tracked confirmed run

namespace AllTracked

variable {confirmed : List OpId} {runs : OrderedMap RunId Run}

lemma set {run' : Run} (h : AllTracked confirmed runs)
    (hrun : run'.operation.kind = dnsApply.kind → Tracked confirmed run') :
    AllTracked confirmed (runs.set r run') := by
  intro j row hrow hkind
  by_cases hj : r = j
  · subst hj
    obtain rfl := Option.some.inj ((OrderedMap.get_set_self _).symm.trans hrow)
    exact hrun hkind
  · exact h j row (by rwa [OrderedMap.get_set_of_ne _ hj] at hrow) hkind

lemma delete (h : AllTracked confirmed runs) : AllTracked confirmed (runs.delete r) := by
  intro j row hrow hkind
  by_cases hj : r = j
  · subst hj
    simp at hrow
  · exact h j row (by rwa [OrderedMap.get_delete_of_ne hj] at hrow) hkind

lemma move {w w' : World} {reply : Reply} (h : AllTracked confirmed w.runs)
    (hr : w.runs.get r = some run) (hm : Move w r run reply w') :
    AllTracked (seen confirmed run reply) w'.runs := by
  have hmono : AllTracked (seen confirmed run reply) w.runs :=
    fun j row hrow hkind => (h j row hrow hkind).mono (subset_seen confirmed run reply)
  cases hm with
  | still reply => exact hmono
  | turn reply run' ht =>
    refine hmono.set fun hkind => ?_
    have hsame : run'.operation = run.operation := by cases ht <;> rfl
    rw [hsame] at hkind
    exact (h r run hr hkind).turn hkind ht
  | perform a run' hn =>
    have hruns : ((w.perform run.operationId a).setRun r run').runs = w.runs.set r run' := by
      simp [World.setRun]
    rw [hruns]
    refine hmono.set fun hkind => ?_
    have hsame : run'.operation = run.operation := by cases hn <;> rfl
    rw [hsame] at hkind
    exact (h r run hr hkind).next hkind hn
  | mark rest s hp hs =>
    refine hmono.set fun hkind => ?_
    have htracked := h r run hr hkind
    rw [Tracked, hp] at htracked
    obtain hacts | hacts | hacts | hacts | hacts | hacts := suffix_execute htracked.1
    all_goals simp only [List.cons.injEq, reduceCtorEq, false_and] at hacts
    exact hacts.2
  | send rest hp =>
    refine hmono.set fun hkind => ?_
    have htracked := h r run hr hkind
    rw [Tracked, hp] at htracked
    exact htracked
  | refused rest clock err hp herr => exact hmono.set fun _ => trivial
  | absent clock outcome hp hobs => exact hmono.set fun _ => trivial
  | finish u p s hp hs => exact hmono.delete
  | giveUp status u p s hp hs => exact hmono.set fun _ => trivial
  | dropped d p hp => exact hmono.delete
  | mirrored hp => exact hmono.delete
  | unmirrored rest err hp => exact hmono.delete

end AllTracked

/-- A run begins with all of its acts before it. -/
lemma tracked_startRun {confirmed : List OpId} (o : EngineOptions) (id : OpId) (op : Operation) :
    (startRun o id op).operation.kind = dnsApply.kind →
      Tracked confirmed (startRun o id op) := by
  intro hkind
  have hhandler : handlerOf op.kind = some dnsApply := by
    rw [show op.kind = dnsApply.kind from hkind]
    rfl
  unfold Tracked startRun
  rw [hhandler]
  by_cases hsubmitted : dnsApply.mutating = true ∧ op.submittedAt ≠ none
  · simp only [if_pos hsubmitted]
  · simp only [if_neg hsubmitted]
    exact ⟨List.suffix_refl _, by simp [dnsApply]⟩

/-- What every event keeps. -/
structure Inv (z : ZoneWorld) : Prop where
  known : ∀ id payload, z.payloads.get id = some payload →
    z.world.store.operations.get id ≠ none
  wanted : ∀ id payload, z.payloads.get id = some payload →
    ∃ row, z.zones.get payload.zoneId = some row ∧ payload.desiredVersion ≤ row.desiredVersion
  bounded : ∀ zoneId row, z.zones.get zoneId = some row → row.appliedVersion ≤ row.desiredVersion
  runs : AllTracked z.confirmed z.world.runs

/-! ### Steps of the engine -/

/-- What the engine does to the zones: it writes one row at most, as `written` tells. -/
structure Worked (z z' : ZoneWorld) (written : ZoneWrite → RunId → Run → Prop) : Prop where
  payloads : z'.payloads = z.payloads
  store : Carries z.world.store z'.world.store
  tracked : AllTracked z.confirmed z.world.runs → AllTracked z'.confirmed z'.world.runs
  rows : z'.zones = z.zones ∨
    ∃ w r run payload row row', written w r run ∧ z.world.runs.get r = some run ∧
      run.operation.kind = dnsApply.kind ∧ z.payloads.get run.operationId = some payload ∧
      z.zones.get payload.zoneId = some row ∧ RowWrite z r payload row w row' ∧
      z'.zones = z.zones.set payload.zoneId row'

lemma write_frame (z : ZoneWorld) (r : RunId) (run : Run) (w : ZoneWrite) :
    (z.write r run w).payloads = z.payloads ∧ (z.write r run w).confirmed = z.confirmed ∧
      ((z.write r run w).zones = z.zones ∨
        ∃ payload row row', z.payloads.get run.operationId = some payload ∧
          z.zones.get payload.zoneId = some row ∧ RowWrite z r payload row w row' ∧
          (z.write r run w).zones = z.zones.set payload.zoneId row') := by
  obtain h | ⟨payload, row, row', hpayload, hrow, hwrite, h⟩ := write_cases z r run w
  · rw [h]
    exact ⟨rfl, rfl, .inl rfl⟩
  · rw [h]
    exact ⟨rfl, rfl, .inr ⟨payload, row, row', hpayload, hrow, hwrite, rfl⟩⟩

lemma kind_of_zoneWrite {reply : Reply} {w : ZoneWrite} (h : run.zoneWrite reply = some w) :
    run.operation.kind = dnsApply.kind := by
  by_contra hkind
  simp [Run.zoneWrite, hkind] at h

lemma writeNext_frame (z : ZoneWorld) (r : RunId) (run : Run) (reply : Reply) :
    (z.writeNext r run reply).payloads = z.payloads ∧
      ((z.writeNext r run reply).zones = z.zones ∨
        ∃ w payload row row', run.zoneWrite reply = some w ∧
          z.payloads.get run.operationId = some payload ∧
          z.zones.get payload.zoneId = some row ∧ RowWrite z r payload row w row' ∧
          (z.writeNext r run reply).zones = z.zones.set payload.zoneId row') := by
  unfold writeNext
  split
  · next w hwrite =>
    obtain ⟨hpayloads, -, hrows⟩ := write_frame z r run w
    refine ⟨hpayloads, hrows.imp (fun h => h) ?_⟩
    rintro ⟨payload, row, row', hrow⟩
    exact ⟨w, payload, row, row', hwrite, hrow⟩
  · exact ⟨rfl, .inl rfl⟩

lemma worked_world {world : World} (hstore : Carries z.world.store world.store)
    (hruns : AllTracked z.confirmed z.world.runs → AllTracked z.confirmed world.runs)
    (written : ZoneWrite → RunId → Run → Prop) : Worked z { z with world } written :=
  ⟨rfl, hstore, hruns, .inl rfl⟩

/-- The writes that one event can make. -/
def Writes (e : ZoneEvent) (w : ZoneWrite) (r : RunId) (run : Run) : Prop :=
  (e = .crashAfterConflict r ∧ w = .conflict) ∨
    ∃ reply clock, e = .engine (.advance r reply clock) ∧ run.zoneWrite reply = some w

lemma worked_engine (z : ZoneWorld) (e : Event) :
    Worked z (z.engine e) (Writes (.engine e)) := by
  cases e with
  | tick ms => exact worked_world (Carries.step z.world (.tick ms)) (fun h => h) _
  | enqueue id kind resourceType resourceId maxAttempts runAt =>
    simp only [engine]
    split
    · exact worked_world (Carries.refl _) (fun h => h) _
    · refine worked_world (Carries.step z.world _) (fun h => ?_) _
      unfold World.step
      dsimp only
      split <;> exact h
  | placeOrder order items runAt =>
    refine worked_world (Carries.step z.world (.placeOrder order items runAt)) (fun h => ?_) _
    unfold World.step
    dsimp only
    split
    · next hfresh =>
      exact World.placeOrder_induction (I := fun v => AllTracked z.confirmed v.runs) hfresh h
        fun v item _ hv => hv
    · exact h
  | claim options locked =>
    refine worked_world (Carries.step z.world (.claim options locked)) (fun h => ?_) _
    obtain hsame | ⟨c, hc, hclaim⟩ := World.claim_cases z.world options locked
    · exact (congrArg World.runs hsame) ▸ h
    · have hruns := congrArg World.runs hclaim
      exact hruns ▸ h.set (tracked_startRun options c.id c.operation)
  | advance r reply clock =>
    unfold engine
    dsimp only
    split
    · exact worked_world (Carries.refl _) (fun h => h) _
    · next run hr =>
      have hstep : z.world.step (.advance r reply clock) = z.world.advance r run reply clock := by
        simp [World.step, hr]
      have hmove := move_advance z.world r run reply clock
      have htracked (h : AllTracked z.confirmed z.world.runs) :
          AllTracked (seen z.confirmed run reply) (z.world.step (.advance r reply clock)).runs :=
        hstep ▸ h.move hr hmove
      obtain ⟨hpayloads, hrows⟩ := writeNext_frame z r run reply
      refine ⟨hpayloads, Carries.step z.world (.advance r reply clock), htracked,
        hrows.imp (fun h => h) ?_⟩
      rintro ⟨w, payload, row, row', hwrite, hpayload, hrow, hw, hset⟩
      exact ⟨w, r, run, payload, row, row', .inr ⟨reply, clock, rfl, hwrite⟩, hr,
        kind_of_zoneWrite hwrite, hpayload, hrow, hw, hset⟩
  | crash r => exact worked_world (Carries.step z.world (.crash r)) (fun h => h.delete) _

lemma worked_crashAfterConflict (z : ZoneWorld) (r : RunId) :
    Worked z (z.step (.crashAfterConflict r)) (Writes (.crashAfterConflict r)) := by
  have hidle := worked_world (Carries.refl z.world.store) (fun h => h)
    (Writes (.crashAfterConflict r))
  unfold step
  dsimp only
  split
  · next run hr =>
    split
    · split
      · next hkind =>
        obtain ⟨hpayloads, hconfirmed, hrows⟩ := write_frame z r run .conflict
        refine ⟨hpayloads, Carries.step z.world (.crash r), fun h => ?_, hrows.imp (fun h => h) ?_⟩
        · exact hconfirmed ▸ h.delete
        · rintro ⟨payload, row, row', hpayload, hrow, hw, hset⟩
          exact ⟨.conflict, r, run, payload, row, row', .inl ⟨rfl, rfl⟩, hr, hkind, hpayload, hrow,
            hw, hset⟩
      · exact hidle
    · exact hidle
  · exact hidle

lemma phase_of_applied {reply : Reply} (h : run.zoneWrite reply = some .applied) :
    run.phase = .executing [.write] ∨ ∃ rest, run.phase = .confirming rest .succeeded := by
  unfold Run.zoneWrite at h
  split at h
  · split at h
    · next hphase => exact .inl hphase
    · split at h <;> simp at h
    · next hphase => exact .inr ⟨_, hphase⟩
    · simp at h
    · simp at h
    · simp at h
  · simp at h

lemma phase_of_gaveUp {reply : Reply} (h : run.zoneWrite reply = some .gaveUp) :
    reply = .ok ∧ run.phase = .givingUp [.write] := by
  unfold Run.zoneWrite at h
  split at h
  · split at h
    · simp at h
    · split at h <;> simp at h
    · simp at h
    · simp at h
    · next hphase => exact ⟨rfl, hphase⟩
    · simp at h
  · simp at h

/-- What is recorded as applied was seen at the provider. -/
lemma confirmed_of_writes {e : ZoneEvent} (h : Writes e .applied r run)
    (hr : z.world.runs.get r = some run) (hkind : run.operation.kind = dnsApply.kind)
    (hruns : AllTracked z.confirmed z.world.runs) : run.operationId ∈ z.confirmed := by
  obtain ⟨-, hne⟩ | ⟨reply, clock, -, hwrite⟩ := h
  · simp at hne
  · have htracked := hruns r run hr hkind
    obtain hphase | ⟨rest, hphase⟩ := phase_of_applied hwrite
    · rw [Tracked, hphase] at htracked
      exact htracked.2 rfl
    · rw [Tracked, hphase] at htracked
      exact htracked rfl

variable {z' : ZoneWorld} {e : ZoneEvent}

lemma get_set_row {zones : OrderedMap String ZoneRow} {zoneId k : String} {row row' : ZoneRow}
    (h : (zones.set zoneId row).get k = some row') :
    (k = zoneId ∧ row' = row) ∨ (k ≠ zoneId ∧ zones.get k = some row') := by
  by_cases hk : zoneId = k
  · subst hk
    exact .inl ⟨rfl, Option.some.inj (h.symm.trans (OrderedMap.get_set_self _))⟩
  · exact .inr ⟨fun e => hk e.symm, by rwa [OrderedMap.get_set_of_ne _ hk] at h⟩

lemma Worked.inv {written : ZoneWrite → RunId → Run → Prop} (h : Worked z z' written)
    (hinv : Inv z) : Inv z' := by
  refine ⟨fun id payload hpayload => ?_, fun id payload hpayload => ?_, fun zoneId row' hrow' => ?_,
    h.tracked hinv.runs⟩
  · rw [h.payloads] at hpayload
    obtain ⟨op, hop⟩ := Option.ne_none_iff_exists'.mp (hinv.known id payload hpayload)
    obtain ⟨op', hop', -⟩ := h.store id op hop
    simp [hop']
  · rw [h.payloads] at hpayload
    obtain ⟨row, hrow, hle⟩ := hinv.wanted id payload hpayload
    obtain hsame | ⟨w, r, run, payload', row₀, row', -, -, -, -, hrow₀, hw, hset⟩ := h.rows
    · exact ⟨row, hsame ▸ hrow, hle⟩
    · rw [hset]
      by_cases hzone : payload'.zoneId = payload.zoneId
      · rw [← hzone] at hrow ⊢
        obtain rfl := Option.some.inj (hrow₀.symm.trans hrow)
        exact ⟨row', OrderedMap.get_set_self _, hw.versions.1 ▸ hle⟩
      · exact ⟨row, by rw [OrderedMap.get_set_of_ne _ hzone, hrow], hle⟩
  · obtain hsame | ⟨w, r, run, payload, row, row₁, -, -, -, hpayload, hrow, hw, hset⟩ := h.rows
    · exact hinv.bounded zoneId row' (hsame ▸ hrow')
    · rw [hset] at hrow'
      obtain ⟨rfl, rfl⟩ | ⟨-, hrow'⟩ := get_set_row hrow'
      · obtain ⟨row₂, hrow₂, hle⟩ := hinv.wanted _ payload hpayload
        obtain rfl := Option.some.inj (hrow.symm.trans hrow₂)
        have hbound := hinv.bounded _ row hrow
        obtain ⟨hdesired, happlied | ⟨-, happlied⟩⟩ := hw.versions
        · omega
        · omega
      · exact hinv.bounded zoneId row' hrow'

/-- What is outstanding after a step of the engine was so before it. -/
lemma Worked.newer {written : ZoneWrite → RunId → Run → Prop} (h : Worked z z' written)
    (hinv : Inv z) {zoneId : String} {row row' : ZoneRow}
    (hle : row.appliedVersion ≤ row'.appliedVersion) (hnewer : z'.Newer zoneId row') :
    z.Newer zoneId row := by
  obtain ⟨id, op', payload, hop', hpayload, hzone, hout, hlt⟩ := hnewer
  rw [h.payloads] at hpayload
  obtain ⟨op, hop⟩ := Option.ne_none_iff_exists'.mp (hinv.known id payload hpayload)
  obtain ⟨op₁, hop₁, hback⟩ := h.store id op hop
  obtain rfl := Option.some.inj (hop₁.symm.trans hop')
  exact ⟨id, op, payload, hop, hpayload, hzone, hback hout, by omega⟩

/-- A step of the engine leaves no zone in sync that is not, unless it settles one too soon. -/
lemma Worked.inSync (h : Worked z z' (Writes e)) (hinv : Inv z) (hsync : z.InSync)
    (hlast : z.SettlesLast e) : z'.InSync := by
  intro zoneId row' hrow' hstate hnewer
  obtain hsame | ⟨w, r, run, payload, row, row₁, hwrites, hr, -, hpayload, hrow, hw, hset⟩ := h.rows
  · exact hsync zoneId row' (hsame ▸ hrow') hstate (h.newer hinv le_rfl hnewer)
  · rw [hset] at hrow'
    obtain ⟨rfl, rfl⟩ | ⟨-, hrow'⟩ := get_set_row hrow'
    · have hle : row.appliedVersion ≤ row'.appliedVersion := by
        obtain ⟨-, happlied | ⟨-, happlied⟩⟩ := hw.versions <;> omega
      have hbefore := h.newer hinv hle hnewer
      obtain hsettled | ⟨rfl, hmax⟩ | ⟨rfl, hpending, code, hverdict, hcode⟩ := hw.inSync hstate
      · exact hsync _ row hrow hsettled hbefore
      · -- what is applied is all that was asked
        obtain ⟨id, op', payload', -, hpayload', hzone, -, hlt⟩ := hnewer
        rw [h.payloads] at hpayload'
        obtain ⟨row₂, hrow₂, hwanted⟩ := hinv.wanted id payload' hpayload'
        rw [hzone, hrow] at hrow₂
        obtain rfl := Option.some.inj hrow₂
        cases hw
        have happlied : payload.desiredVersion ≤ (row.markApplied
          payload.desiredVersion).appliedVersion := le_max_right _ _
        omega
      · obtain ⟨-, hne⟩ | ⟨reply, clock, rfl, hwrite⟩ := hwrites
        · simp at hne
        · obtain ⟨rfl, -⟩ := phase_of_gaveUp hwrite
          exact hlast r clock run payload row code rfl hr hwrite hverdict hcode hpayload hrow
            hpending hbefore
    · exact hsync zoneId row' hrow' hstate (h.newer hinv le_rfl hnewer)

lemma Worked.raises (h : Worked z z' (Writes e)) (hinv : Inv z) : z.Raises z' := by
  have hinv' := h.inv hinv
  intro zoneId row hrow
  obtain hsame | ⟨w, r, run, payload, row₀, row', hwrites, hr, hkind, hpayload, hrow₀, hw, hset⟩ :=
    h.rows
  · exact ⟨row, hsame ▸ hrow, le_rfl, hinv.bounded zoneId row hrow, fun hlt => by omega⟩
  · by_cases hzone : payload.zoneId = zoneId
    · subst hzone
      obtain rfl := Option.some.inj (hrow₀.symm.trans hrow)
      have hrow' : z'.zones.get payload.zoneId = some row' := by
        rw [hset, OrderedMap.get_set_self]
      have hbound := hinv'.bounded _ row' hrow'
      obtain ⟨-, happlied | ⟨rfl, happlied⟩⟩ := hw.versions
      · exact ⟨row', hrow', by omega, hbound, fun hlt => by omega⟩
      · refine ⟨row', hrow', by omega, hbound, fun hlt => ?_⟩
        exact ⟨run.operationId, payload, hpayload, rfl, by omega,
          confirmed_of_writes hwrites hr hkind hinv.runs⟩
    · exact ⟨row, by rw [hset, OrderedMap.get_set_of_ne _ hzone, hrow], le_rfl,
        hinv.bounded zoneId row hrow, fun hlt => by omega⟩

/-! ### Requests -/

lemma request_cases (z : ZoneWorld) (q : ZoneApplyRequest) (id : OpId) :
    z.request q id = z ∨
    ∃ row op keys, z.zones.get q.zoneId = some row ∧ z.world.store.operations.get id = none ∧
      z.request q id = { z with
        zones := z.zones.set q.zoneId row.requested
        payloads := z.payloads.set id
          ⟨q.zoneId, q.baseHash, q.changes, row.requested.desiredVersion⟩
        keys
        world := z.world.insert id op } := by
  unfold request
  split
  · exact .inl rfl
  · next row hrow =>
    split
    · next hfresh => exact .inr ⟨row, _, _, hrow, hfresh.2, rfl⟩
    · exact .inl rfl

/-- What each kind of event gives. -/
structure Kept (z : ZoneWorld) (e : ZoneEvent) : Prop where
  inv : Inv (z.step e)
  raises : z.Raises (z.step e)
  inSync : z.InSync → z.SettlesLast e → (z.step e).InSync

lemma kept_of_worked (hinv : Inv z) (h : Worked z (z.step e) (Writes e)) : Kept z e :=
  ⟨h.inv hinv, h.raises hinv, h.inSync hinv⟩

lemma kept_of_same (hinv : Inv z) (h : z.step e = z) : Kept z e := by
  refine ⟨h.symm ▸ hinv, ?_, fun hsync _ => h.symm ▸ hsync⟩
  rw [h]
  exact fun zoneId row hrow =>
    ⟨row, hrow, le_rfl, hinv.bounded zoneId row hrow, fun hlt => by omega⟩

lemma kept_insert (hinv : Inv z) (zoneId : String) : Kept z (.insert zoneId) := by
  by_cases hnone : z.zones.get zoneId = none
  · have hstep : z.step (.insert zoneId) = { z with zones := z.zones.set zoneId {} } := by
      simp [step, hnone]
    have hkeep {k : String} {row : ZoneRow} (hrow : z.zones.get k = some row) :
        (z.zones.set zoneId {}).get k = some row := by
      have hne : zoneId ≠ k := by
        rintro rfl
        simp [hnone] at hrow
      rw [OrderedMap.get_set_of_ne _ hne, hrow]
    constructor
    · rw [hstep]
      refine ⟨hinv.known, fun id payload hpayload => ?_, fun k row hrow => ?_, hinv.runs⟩
      · obtain ⟨row, hrow, hle⟩ := hinv.wanted id payload hpayload
        exact ⟨row, hkeep hrow, hle⟩
      · obtain ⟨-, rfl⟩ | ⟨-, hrow⟩ := get_set_row hrow
        · exact le_rfl
        · exact hinv.bounded k row hrow
    · rw [hstep]
      exact fun k row hrow =>
        ⟨row, hkeep hrow, le_rfl, hinv.bounded k row hrow, fun hlt => by omega⟩
    · intro hsync _
      rw [hstep]
      intro k row hrow hstate hnewer
      obtain ⟨-, rfl⟩ | ⟨-, hrow⟩ := get_set_row hrow
      · simp at hstate
      · exact hsync k row hrow hstate hnewer
  · exact kept_of_same hinv (by simp [step, hnone])

lemma kept_request (hinv : Inv z) (q : ZoneApplyRequest) (id : OpId) : Kept z (.request q id) := by
  obtain hsame | ⟨row, op, keys, hrow, hnone, hstep⟩ := request_cases z q id
  · exact kept_of_same hinv hsame
  · have hother {j : OpId} {payload : ZonePayload} (hpayload : z.payloads.get j = some payload) :
        id ≠ j := by
      rintro rfl
      exact hinv.known id payload hpayload hnone
    have hstep' : z.step (.request q id) = _ := hstep
    constructor
    · rw [hstep']
      refine ⟨fun j payload hpayload => ?_, fun j payload hpayload => ?_, fun k row' hrow' => ?_,
        hinv.runs⟩
      · by_cases hj : id = j
        · subst hj
          simp [World.insert]
        · rw [OrderedMap.get_set_of_ne _ hj] at hpayload
          simpa [World.insert, OrderedMap.get_set_of_ne _ hj] using hinv.known j payload hpayload
      · by_cases hj : id = j
        · subst hj
          obtain rfl := Option.some.inj ((OrderedMap.get_set_self _).symm.trans hpayload)
          exact ⟨row.requested, OrderedMap.get_set_self _, le_rfl⟩
        · rw [OrderedMap.get_set_of_ne _ hj] at hpayload
          obtain ⟨row', hrow', hle⟩ := hinv.wanted j payload hpayload
          by_cases hzone : q.zoneId = payload.zoneId
          · rw [← hzone, hrow] at hrow'
            obtain rfl := Option.some.inj hrow'
            exact ⟨row.requested, hzone ▸ OrderedMap.get_set_self _, Nat.le_succ_of_le hle⟩
          · exact ⟨row', by rw [OrderedMap.get_set_of_ne _ hzone, hrow'], hle⟩
      · obtain ⟨rfl, rfl⟩ | ⟨-, hrow'⟩ := get_set_row hrow'
        · exact Nat.le_succ_of_le (hinv.bounded _ row hrow)
        · exact hinv.bounded k row' hrow'
    · rw [hstep']
      intro k row' hrow'
      have hbound := hinv.bounded k row' hrow'
      by_cases hzone : q.zoneId = k
      · subst hzone
        obtain rfl := Option.some.inj (hrow.symm.trans hrow')
        exact ⟨row.requested, OrderedMap.get_set_self _, le_rfl, Nat.le_succ_of_le hbound,
          fun hlt => absurd hlt (lt_irrefl _)⟩
      · exact ⟨row', by rw [OrderedMap.get_set_of_ne _ hzone, hrow'], le_rfl, hbound,
          fun hlt => by omega⟩
    · intro hsync _
      rw [hstep']
      intro k row' hrow' hstate hnewer
      obtain ⟨rfl, rfl⟩ | ⟨hzone, hrow'⟩ := get_set_row hrow'
      · simp [ZoneRow.requested] at hstate
      · refine hsync k row' hrow' hstate ?_
        obtain ⟨j, op', payload, hop', hpayload, hk, hout, hlt⟩ := hnewer
        by_cases hj : id = j
        · subst hj
          obtain rfl := Option.some.inj ((OrderedMap.get_set_self _).symm.trans hpayload)
          exact absurd hk.symm hzone
        · refine ⟨j, op', payload, ?_, ?_, hk, hout, hlt⟩
          · simpa [World.insert, OrderedMap.get_set_of_ne _ hj] using hop'
          · simpa [OrderedMap.get_set_of_ne _ hj] using hpayload

lemma kept (hinv : Inv z) (e : ZoneEvent) : Kept z e := by
  cases e with
  | insert zoneId => exact kept_insert hinv zoneId
  | request q id => exact kept_request hinv q id
  | engine e => exact kept_of_worked hinv (worked_engine z e)
  | crashAfterConflict r => exact kept_of_worked hinv (worked_crashAfterConflict z r)

/-- A zone settled too soon is in sync with something newer outstanding. -/
lemma settlesLast_of_inSync (h : (z.step e).InSync) : z.SettlesLast e := by
  rintro r clock run payload row code rfl hr hwrite hverdict hcode hpayload hrow hpending hnewer
  obtain ⟨-, hphase⟩ := phase_of_gaveUp hwrite
  have hzones : (z.step (.engine (.advance r .ok clock))).zones =
      z.zones.set payload.zoneId (row.onGiveUp .failed code) := by
    simp [step, engine, hr, writeNext, hwrite, write, hverdict, setRowOf, hpayload, setRow, hrow]
  have hstore : (z.step (.engine (.advance r .ok clock))).world.store = z.world.store := by
    simp [step, engine, hr, World.step, World.advance, hphase, World.setRun]
  have hpayloads := (worked_engine z (.advance r .ok clock)).payloads
  have hstate : (row.onGiveUp .failed code).state = .inSync := by
    simp [ZoneRow.onGiveUp, hpending, hcode]
  refine h payload.zoneId _ (hzones ▸ OrderedMap.get_set_self _) hstate ?_
  obtain ⟨id, op, payload', hop, hpayload', hzone, hout, hlt⟩ := hnewer
  refine ⟨id, op, payload', hstore ▸ hop, hpayloads ▸ hpayload', hzone, hout, ?_⟩
  simpa [ZoneRow.onGiveUp, hpending] using hlt

lemma inv_empty : Inv {} where
  known _ _ h := by simp at h
  wanted _ _ h := by simp at h
  bounded _ _ h := by simp at h
  runs _ _ h := by simp at h

/-- **A zone is in sync only when nothing newer is outstanding** in exactly the runs in which no
operation that gives up as failed, a conflict apart, settles a pending zone before a newer request
for it is done; and in every run what is applied only rises, never above what is wanted, and to the
version of an operation whose zone the provider was read to hold. -/
theorem in_sync_iff (es : List ZoneEvent) :
    (Allowed step (fun z e => (z.step e).InSync) {} es ↔ Allowed step SettlesLast {} es) ∧
      Allowed step (fun z e => z.Raises (z.step e)) {} es := by
  constructor
  · have hempty : Inv {} ∧ InSync {} := ⟨inv_empty, fun _ _ h => by simp at h⟩
    refine allowed_congr (I := fun z => Inv z ∧ z.InSync) ?_ ?_ hempty es
    · exact fun z e hsync hz => ⟨(kept hz.1 e).inv, hsync⟩
    · exact fun z e hz => ⟨settlesLast_of_inSync, (kept hz.1 e).inSync hz.2⟩
  · have hall : Allowed step (fun _ _ => True) {} es := allowed_of_always (fun _ _ => trivial) _ es
    refine allowed_of_invariant (I := Inv) ?_ ?_ inv_empty hall
    · exact fun z e _ hz => (kept hz e).inv
    · exact fun z e _ hz => (kept hz e).raises

/-- The older of two changes is refused by validation while the newer one is queued. -/
def refusedBeforeNewer : List ZoneEvent :=
  [.insert "z", .request ⟨"user:u", "first-key", "z", "h0", "[]"⟩ 0,
    .request ⟨"user:u", "second-key", "z", "h0", "[]"⟩ 1,
    .engine (.claim { workerId := "w" } []), .engine (.advance 0 .ok 0),
    .engine (.advance 0 (.exit (.failed "validation" "TTL must be an integer")) 0),
    .engine (.advance 0 .ok 0), .engine (.advance 0 .ok 0)]

theorem refusedBeforeNewer_in_sync :
    ¬ Allowed step (fun z e => (z.step e).InSync) {} refusedBeforeNewer := by
  intro h
  have hsplit : refusedBeforeNewer =
      refusedBeforeNewer.dropLast ++ [.engine (.advance 0 .ok 0)] := rfl
  rw [hsplit] at h
  refine h.last "z" ⟨.inSync, 2, 0⟩ (by decide) rfl ?_
  have hqueued : ((run step {} refusedBeforeNewer).world.store.operations.get 1).map
      (fun op => outstanding op.status) = some true := by decide
  obtain ⟨op, hop, hout⟩ := Option.map_eq_some_iff.mp hqueued
  exact ⟨1, op, ⟨"z", "h0", "[]", 2⟩, hop, by decide, rfl, hout, by decide⟩

end ZoneWorld

end Tnp.Operations
