import Tnp.Exit.Agent

/-!
When an exit with no fresh list of peers stops serving.

A tick that fails asks how long its own process has gone without a sync, and where that is too long
it removes every peer. What an earlier process did it does not know.
-/

namespace Tnp.Exit

open Tnp.Lib Tnp.SharedTypes

/-- `wg` succeeds and prints the peers in the documented form. -/
def Documented (w : World) (e : Event) : Prop :=
  match e with
  | .shown output _ => ∃ listing, Lists listing w.kernel ∧ output = .ok (showAllowedIps listing)
  | .ran (.failed _) _ => w.phase.wg = []
  | _ => True

/-- A tick left no peer after the last sync became stale, and none when it was told to stop. -/
def ClosedEnd (o : AgentOptions) (x : TickEnd) : Prop :=
  (∀ t, x.lastSync = some t → o.maxStaleMs < x.now - t → x.peers = []) ∧
    (x.stopNow = true → x.peers = [])

variable (nacl : Crypto.KeyAgreement.Nacl) (o : AgentOptions)

/-- The moment at which a sync fails, other than by being told to stop. -/
def failsAt (w : World) (e : Event) : Option ℤ :=
  match w.phase, e with
  | .fetching, .fetched .failed now => some now
  | .fetching, .fetched (.body value) now =>
    match parseExitPeersResponse nacl value with
    | .error _ => some now
    | .ok _ => none
  | .applying ⟨_, _, [], _ :: _⟩ _, .ran (.failed _) now => some now
  | _, _ => none

/-- Where a sync fails while there are peers, and the last sync of any process is stale, this
process has itself gone without one for as long. -/
def KnowsStale (w : World) (e : Event) : Prop :=
  ∀ now, failsAt nacl w e = some now → (∃ t, w.lastSync = some t ∧ o.maxStaleMs < now - t) →
    w.kernel.entries ≠ [] → o.maxStaleMs < now - w.agent.lastSuccessAt.getD w.agent.startedAt

/-- What holds between any two answers. -/
structure Serving (w : World) : Prop where
  printable : w.kernel.Printable
  listed : ∀ parsed, w.phase = .showing parsed → Listed nacl parsed.peers
  writable : ∀ args ∈ w.phase.wg, ∀ c ∈ changesOf args, c.Writable
  flushes : ∀ work stopNow, w.phase = .flushing work stopNow →
    (w.kernel.runAll work.wg).entries = []

variable {nacl o} {w : World} {e : Event}

lemma entries_eq_nil {kernel : Kernel} (h : Matches kernel []) : kernel.entries = [] := by
  refine List.eq_nil_iff_forall_not_mem.mpr ?_
  rintro ⟨key, held⟩ hmem
  obtain ⟨peer, hpeer, -⟩ := h.only key held (OrderedMap.mem_entries_iff.mp hmem)
  exact absurd hpeer (List.not_mem_nil)

lemma Serving.idle {w : World} (h : w.kernel.Printable) (hphase : w.phase = .idle) :
    Serving nacl w :=
  ⟨h, by simp [hphase], by simp [hphase, Phase.wg], by simp [hphase]⟩

lemma Serving.caught (h : w.kernel.Printable) (stopNow : Bool) (now : ℤ) :
    Serving nacl (w.caught o stopNow now) := by
  unfold World.caught
  dsimp only
  split
  · exact ⟨h, by simp, by simp [Phase.wg], by simp⟩
  · exact Serving.idle h rfl

lemma Serving.continueSync {work : Work} (h : w.kernel.Printable)
    (hwritable : ∀ args ∈ work.wg, ∀ c ∈ changesOf args, c.Writable) (peers : ℕ) (now : ℤ) :
    Serving nacl (w.continueSync work peers now) := by
  unfold World.continueSync
  split
  · exact Serving.idle h rfl
  · exact ⟨h, by simp, hwritable, by simp⟩

lemma Serving.continueFlush {work : Work} (h : w.kernel.Printable)
    (hwritable : ∀ args ∈ work.wg, ∀ c ∈ changesOf args, c.Writable)
    (hflushes : (w.kernel.runAll work.wg).entries = []) (stopNow : Bool) (now : ℤ) :
    Serving nacl (w.continueFlush work stopNow now) := by
  unfold World.continueFlush
  split
  · exact Serving.idle h rfl
  · refine ⟨h, by simp, hwritable, ?_⟩
    intro work' stopNow' hphase
    obtain ⟨rfl, -⟩ := Phase.flushing.inj hphase
    exact hflushes

/-! ### How ticks end -/

variable (o) in
/-- Every tick so far ended as it should. -/
def AllClosed (w : World) : Prop := ∀ x ∈ w.ends, ClosedEnd o x

lemma allClosed_endTick {stopNow : Bool} {now : ℤ} :
    AllClosed o (w.endTick stopNow now) ↔
      ClosedEnd o ⟨now, stopNow, w.lastSync, w.kernel.entries.map Prod.fst⟩ ∧ AllClosed o w := by
  exact List.forall_mem_cons

/-- A tick that syncs leaves no stale peers. -/
lemma allClosed_synced {peers : ℕ} {now : ℤ} :
    AllClosed o (w.synced peers now) ↔ AllClosed o w := by
  refine allClosed_endTick.trans (and_iff_right ⟨?_, by simp⟩)
  rintro t ht hstale
  obtain rfl := Option.some.inj ht
  simp only [sub_self] at hstale
  omega

lemma allClosed_continueSync {work : Work} {peers : ℕ} {now : ℤ} :
    AllClosed o (w.continueSync work peers now) ↔ AllClosed o w := by
  unfold World.continueSync
  split
  · exact allClosed_synced
  · rfl

/-- A tick that leaves no peers ends as it should. -/
lemma allClosed_endTick_of_nil (h : w.kernel.entries = []) {stopNow : Bool} {now : ℤ} :
    AllClosed o (w.endTick stopNow now) ↔ AllClosed o w := by
  refine allClosed_endTick.trans (and_iff_right ⟨?_, ?_⟩)
  · intro _ _ _
    simp [h]
  · intro _
    simp [h]

lemma allClosed_continueFlush {work : Work} {stopNow : Bool} {now : ℤ}
    (h : (w.kernel.runAll work.wg).entries = []) :
    AllClosed o (w.continueFlush work stopNow now) ↔ AllClosed o w := by
  unfold World.continueFlush
  split
  · next hdone =>
    rw [hdone.1] at h
    exact allClosed_endTick_of_nil h
  · rfl

/-- A sync that fails ends well exactly where its process counts as long as it should. -/
lemma allClosed_caught {now : ℤ} : AllClosed o (w.caught o false now) ↔ AllClosed o w ∧
    ((∃ t, w.lastSync = some t ∧ o.maxStaleMs < now - t) → w.kernel.entries ≠ [] →
      o.maxStaleMs < now - w.agent.lastSuccessAt.getD w.agent.startedAt) := by
  unfold World.caught
  dsimp only
  split
  · next hstale =>
    have hlong : (o.maxStaleMs : ℤ) < now - w.agent.lastSuccessAt.getD w.agent.startedAt := by
      simpa using hstale
    exact ⟨fun h => ⟨h, fun _ _ => hlong⟩, fun h => h.1⟩
  · next hfresh =>
    have hshort : ¬ (o.maxStaleMs : ℤ) < now - w.agent.lastSuccessAt.getD w.agent.startedAt := by
      simpa using hfresh
    refine allClosed_endTick.trans ((and_congr_left fun _ => ?_).trans and_comm)
    constructor
    · rintro ⟨hclosed, -⟩ ⟨t, ht, hstale⟩ hpeers
      exact absurd (List.map_eq_nil_iff.mp (hclosed t ht hstale)) hpeers
    · intro hknows
      refine ⟨fun t ht hstale => ?_, by simp⟩
      by_contra hpeers
      exact hshort (hknows ⟨t, ht, hstale⟩ fun hnil => hpeers (List.map_eq_nil_iff.mpr hnil))

lemma knowsStale_of_none (h : failsAt nacl w e = none) : KnowsStale nacl o w e := by
  intro now hnow
  exact absurd (h.symm.trans hnow) nofun

/-! ### One step -/

variable (nacl o) in
/-- A step keeps what holds between answers, and ends a tick well exactly under the condition. -/
structure Kept (w w' : World) (e : Event) : Prop where
  serving : Serving nacl w'
  ends : AllClosed o w' ↔ AllClosed o w ∧ KnowsStale nacl o w e

/-- A step that is no failure of a sync ends no tick badly. -/
lemma Kept.of_iff {w' : World} (hserving : Serving nacl w') (hnone : failsAt nacl w e = none)
    (hends : AllClosed o w' ↔ AllClosed o w) : Kept nacl o w w' e :=
  ⟨hserving, hends.trans (and_iff_left (knowsStale_of_none hnone)).symm⟩

lemma Kept.caught {now : ℤ} (h : w.kernel.Printable) (hnow : failsAt nacl w e = some now) :
    Kept nacl o w (w.caught o false now) e := by
  refine ⟨Serving.caught h false now, allClosed_caught.trans (and_congr_right fun _ => ?_)⟩
  constructor
  · intro hknows now' hnow'
    obtain rfl := Option.some.inj (hnow.symm.trans hnow')
    exact hknows
  · intro hknows
    exact hknows now hnow

lemma kept_shown_sync {parsed : ParsedExitPeers} {output : Except String String} {now : ℤ}
    (h : Serving nacl w) (hphase : w.phase = .showing parsed)
    (hdoc : Documented w (.shown output now)) :
    Kept nacl o w (step nacl o w (.shown output now)) (.shown output now) := by
  obtain ⟨listing, hlist, rfl⟩ := hdoc
  obtain ⟨work, hwork, hplanned⟩ :=
    workFor_listing (o := o) (h.listed parsed hphase) h.printable hlist
  have hstep : step nacl o w (.shown (.ok (showAllowedIps listing)) now) =
      w.continueSync work parsed.peers.length now := by
    simp only [step, hphase, hwork]
  rw [hstep]
  exact Kept.of_iff (Serving.continueSync h.printable hplanned.writable _ _)
    (by simp [failsAt, hphase]) allClosed_continueSync

lemma kept_shown_flush {stopNow : Bool} {output : Except String String} {now : ℤ}
    (h : Serving nacl w) (hphase : w.phase = .flushShowing stopNow)
    (hdoc : Documented w (.shown output now)) :
    Kept nacl o w (step nacl o w (.shown output now)) (.shown output now) := by
  obtain ⟨listing, hlist, rfl⟩ := hdoc
  have hnone : Listed nacl [] := Listed.nil
  obtain ⟨work, hwork, hplanned⟩ := workFor_listing (o := o) hnone h.printable hlist
  have hstep : step nacl o w (.shown (.ok (showAllowedIps listing)) now) =
      w.continueFlush work stopNow now := by
    simp only [step, hphase, hwork]
  have hflushes : (w.kernel.runAll work.wg).entries = [] := by
    rw [Kernel.runAll_eq, hplanned.wg, hplanned.changes]
    exact entries_eq_nil (carryOut_matches hnone hplanned.wellFormed hplanned.shows)
  rw [hstep]
  exact Kept.of_iff (Serving.continueFlush h.printable hplanned.writable hflushes _ _)
    (by simp [failsAt, hphase]) (allClosed_continueFlush hflushes)

lemma kept_ran_sync {work : Work} {peers : ℕ} {outcome : Outcome} {now : ℤ}
    (h : Serving nacl w) (hphase : w.phase = .applying work peers)
    (hdoc : Documented w (.ran outcome now)) :
    Kept nacl o w (step nacl o w (.ran outcome now)) (.ran outcome now) := by
  obtain ⟨actual, changes, wg, conntrack⟩ := work
  have hwritable := h.writable
  simp only [Phase.wg, hphase] at hwritable
  match wg, conntrack, outcome with
  | args :: wg, conntrack, .done =>
    have hnow := hwritable args List.mem_cons_self
    have hrest : ∀ args ∈ wg, ∀ c ∈ changesOf args, c.Writable := fun args hargs =>
      hwritable args (List.mem_cons_of_mem _ hargs)
    simp only [step, hphase, World.runNext]
    refine Kept.of_iff (Serving.continueSync ?_ hrest _ _) (by simp [failsAt, hphase]) ?_
    · rw [World.carry_kernel]
      exact h.printable.carryOut hnow
    · refine allClosed_continueSync.trans ?_
      unfold AllClosed
      rw [World.carry_ends]
  | args :: wg, conntrack, .failed carried =>
    simp [Documented, hphase, Phase.wg] at hdoc
  | [], args :: conntrack, .done =>
    simp only [step, hphase, World.runNext]
    have hprintable : (w.deleteFlows args).kernel.Printable := h.printable
    exact Kept.of_iff (Serving.continueSync hprintable hwritable _ _)
      (by simp [failsAt, hphase]) allClosed_continueSync
  | [], args :: conntrack, .failed carried =>
    simp only [step, hphase, World.runNext]
    exact Kept.caught h.printable (by simp [failsAt, hphase])
  | [], [], outcome =>
    simp only [step, hphase, World.runNext]
    exact Kept.of_iff (Serving.continueSync h.printable hwritable _ _)
      (by simp [failsAt, hphase]) allClosed_continueSync

lemma kept_ran_flush {work : Work} {stopNow : Bool} {outcome : Outcome} {now : ℤ}
    (h : Serving nacl w) (hphase : w.phase = .flushing work stopNow)
    (hdoc : Documented w (.ran outcome now)) :
    Kept nacl o w (step nacl o w (.ran outcome now)) (.ran outcome now) := by
  obtain ⟨actual, changes, wg, conntrack⟩ := work
  have hwritable := h.writable
  have hflushes := h.flushes _ _ hphase
  simp only [Phase.wg, hphase] at hwritable
  match wg, conntrack, outcome with
  | args :: wg, conntrack, .done =>
    have hnow := hwritable args List.mem_cons_self
    have hrest : ∀ args ∈ wg, ∀ c ∈ changesOf args, c.Writable := fun args hargs =>
      hwritable args (List.mem_cons_of_mem _ hargs)
    have hflushes' : ((w.carry (changesOf args)).kernel.runAll wg).entries = [] := by
      rw [World.carry_kernel]
      exact hflushes
    simp only [step, hphase, World.runNext]
    refine Kept.of_iff (Serving.continueFlush ?_ hrest hflushes' _ _) (by simp [failsAt, hphase]) ?_
    · rw [World.carry_kernel]
      exact h.printable.carryOut hnow
    · refine (allClosed_continueFlush hflushes').trans ?_
      unfold AllClosed
      rw [World.carry_ends]
  | args :: wg, conntrack, .failed carried =>
    simp [Documented, hphase, Phase.wg] at hdoc
  | [], args :: conntrack, .done =>
    simp only [step, hphase, World.runNext]
    have hprintable : (w.deleteFlows args).kernel.Printable := h.printable
    have hflushes' : ((w.deleteFlows args).kernel.runAll []).entries = [] := hflushes
    exact Kept.of_iff (Serving.continueFlush hprintable hwritable hflushes' _ _)
      (by simp [failsAt, hphase]) (allClosed_continueFlush hflushes')
  | [], args :: conntrack, .failed carried =>
    simp only [step, hphase, World.runNext]
    exact Kept.of_iff (Serving.idle h.printable rfl) (by simp [failsAt, hphase])
      (allClosed_endTick_of_nil hflushes)
  | [], [], outcome =>
    simp only [step, hphase, World.runNext]
    exact Kept.of_iff (Serving.continueFlush h.printable hwritable hflushes _ _)
      (by simp [failsAt, hphase]) (allClosed_continueFlush hflushes)

lemma writable_next (h : Serving nacl w) {c : PeerChange}
    (hc : c ∈ changesOf (w.phase.wg.headD [])) : c.Writable := by
  have hwritable := h.writable
  cases hwg : w.phase.wg with
  | nil => simp [hwg, changesOf] at hc
  | cons args rest =>
    rw [hwg, List.headD_cons] at hc
    rw [hwg] at hwritable
    exact hwritable args List.mem_cons_self c hc

/-- **One answer.** -/
lemma kept_step (h : Serving nacl w) (hdoc : Documented w e) :
    Kept nacl o w (step nacl o w e) e := by
  have hsame (hstep : step nacl o w e = w) (hnone : failsAt nacl w e = none) :
      Kept nacl o w (step nacl o w e) e := by
    rw [hstep]
    exact Kept.of_iff h hnone Iff.rfl
  cases e with
  | restarted carried now =>
    have hrestart : step nacl o w (.restarted carried now) =
        { w.interrupted carried with agent := { startedAt := now }, phase := .idle } := by
      unfold step
      cases hphase : w.phase <;> simp
    rw [hrestart]
    refine Kept.of_iff (Serving.idle ?_ rfl) ?_ ?_
    · rw [World.interrupted, World.carry_kernel]
      exact h.printable.carryOut fun c hc => writable_next h (List.mem_of_mem_take hc)
    · cases hphase : w.phase <;> simp [failsAt, hphase]
    · unfold AllClosed World.interrupted
      rw [World.carry_ends]
  | tick =>
    cases hphase : w.phase with
    | idle =>
      simp only [step, hphase]
      exact Kept.of_iff ⟨h.printable, by simp, by simp [Phase.wg], by simp⟩
        (by simp [failsAt, hphase]) Iff.rfl
    | _ => exact hsame (by simp [step, hphase]) (by simp [failsAt, hphase])
  | fetched result now =>
    cases hphase : w.phase with
    | fetching =>
      cases result with
      | stopServing =>
        simp only [step, hphase]
        refine Kept.of_iff (Serving.caught h.printable true now) (by simp [failsAt, hphase]) ?_
        simp [World.caught, AllClosed]
      | failed =>
        simp only [step, hphase]
        exact Kept.caught h.printable (by simp [failsAt, hphase])
      | body value =>
        cases hparse : parseExitPeersResponse nacl value with
        | error error =>
          simp only [step, hphase, hparse]
          exact Kept.caught h.printable (by simp [failsAt, hphase, hparse])
        | ok parsed =>
          simp only [step, hphase, hparse]
          refine Kept.of_iff ⟨h.printable, ?_, by simp [Phase.wg], by simp⟩
            (by simp [failsAt, hphase, hparse]) Iff.rfl
          intro parsed' hphase'
          obtain rfl := Phase.showing.inj hphase'
          exact parseExitPeersResponse_listed hparse
    | _ => exact hsame (by simp [step, hphase]) (by simp [failsAt, hphase])
  | shown output now =>
    cases hphase : w.phase with
    | showing parsed => exact kept_shown_sync h hphase hdoc
    | flushShowing stopNow => exact kept_shown_flush h hphase hdoc
    | _ => exact hsame (by simp [step, hphase]) (by simp [failsAt, hphase])
  | ran outcome now =>
    cases hphase : w.phase with
    | applying work peers => exact kept_ran_sync h hphase hdoc
    | flushing work stopNow => exact kept_ran_flush h hphase hdoc
    | _ => exact hsame (by simp [step, hphase]) (by simp [failsAt, hphase])

/-! ### Runs -/

lemma allClosed_run {es : List Event} (h : Serving nacl w)
    (hes : Run.Allowed (step nacl o) Documented w es) :
    AllClosed o (Run.run (step nacl o) w es) ↔
      AllClosed o w ∧ Run.Allowed (step nacl o) (KnowsStale nacl o) w es := by
  induction es generalizing w with
  | nil => exact (and_iff_left trivial).symm
  | cons e es ih =>
    have hstep := kept_step (o := o) h hes.1
    rw [Run.run_cons, ih hstep.serving hes.2, hstep.ends, and_assoc]
    rfl

/-- **The exit fails closed exactly where no restart hides a stale list**: every tick of a run left
no peer after the last sync became stale, and none when it was told to stop, if and only if every
sync that failed with peers and a stale list failed in a process that had itself gone without a
sync for as long. -/
theorem fails_closed {startedAt : ℤ} {es : List Event}
    (hes : Run.Allowed (step nacl o) Documented (.initial startedAt) es) :
    (∀ x ∈ (Run.run (step nacl o) (.initial startedAt) es).ends, ClosedEnd o x) ↔
      Run.Allowed (step nacl o) (KnowsStale nacl o) (.initial startedAt) es := by
  have hserving : Serving nacl (.initial startedAt) :=
    Serving.idle ⟨by simp [World.initial], by simp [World.initial]⟩ rfl
  exact (allClosed_run hserving hes).trans (and_iff_right (by simp [AllClosed, World.initial]))

/-! ### A restart between -/

/-- A peer is synced, the process restarts after five minutes, and the next list fails to come
eleven minutes after the sync. -/
def hiddenRestart : List Event :=
  [.tick, .fetched (.body (.object [("peers", .array [entryOf laptop])])) 0, .shown (.ok "") 0,
    .ran .done 0, .restarted 0 300000, .tick, .fetched .failed 660000]

lemma documented_empty (h : w.kernel = {}) (now : ℤ) : Documented w (.shown (.ok "") now) :=
  ⟨[], ⟨by simp, by simp, by simp [h]⟩, rfl⟩

lemma documented_hiddenRestart :
    Run.Allowed (step sampleNacl sampleOptions) Documented (.initial 0) hiddenRestart :=
  ⟨trivial, trivial, documented_empty (by decide) 0, trivial, trivial, trivial, trivial,
    trivial⟩

theorem fails_closed_hiddenRestart :
    (∀ x ∈ (Run.run (step sampleNacl sampleOptions) (.initial 0) hiddenRestart).ends,
      ClosedEnd sampleOptions x) ↔
      Run.Allowed (step sampleNacl sampleOptions) (KnowsStale sampleNacl sampleOptions)
        (.initial 0) hiddenRestart :=
  fails_closed documented_hiddenRestart

/-- **Peers are served on a stale list**, in a process that has not been up for as long. -/
theorem hiddenRestart_not_closed :
    ¬ ∀ (nacl : Crypto.KeyAgreement.Nacl) (o : AgentOptions) (startedAt : ℤ) (es : List Event),
      Run.Allowed (step nacl o) Documented (.initial startedAt) es →
      ∀ x ∈ (Run.run (step nacl o) (.initial startedAt) es).ends, ClosedEnd o x := by
  intro h
  have hend : ⟨660000, false, some 0, [laptopKey]⟩ ∈
      (Run.run (step sampleNacl sampleOptions) (.initial 0) hiddenRestart).ends := by
    decide
  have hclosed := h sampleNacl sampleOptions 0 hiddenRestart documented_hiddenRestart _ hend
  have hpeers := hclosed.1 0 rfl (by decide)
  exact absurd hpeers (by decide)

end Tnp.Exit
