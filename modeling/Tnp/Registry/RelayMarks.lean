import Tnp.Registry.Relays

/-!
What the marks of a relay's row stand for, and what a run of registrations and heartbeats keeps.
-/

namespace Tnp.Registry.Relays

open Tnp.Lib Tnp.Lib.Run Tnp.Crypto Tnp.Crypto.RelayDirectory

/-! ### The deeds behind a row -/

namespace Deed

def registers (endpoint : JsString) : Deed → Bool
  | registered _ e => e = endpoint
  | _ => false

/-- The call that registered an endpoint. -/
def registrant (endpoint : JsString) : Deed → Option CallId
  | registered call e => if e = endpoint then some call else none
  | _ => none

end Deed

/-- What was done since an endpoint was last registered. -/
def since (endpoint : JsString) (deeds : List Deed) : List Deed :=
  deeds.takeWhile fun deed => !deed.registers endpoint

def lastRegistration (endpoint : JsString) (deeds : List Deed) : Option CallId :=
  deeds.findSome? (Deed.registrant endpoint)

variable (c : Context)

/-- A call of an account came with a good proof of a key for an endpoint. -/
def KeyProven (deeds : List Deed) (call : CallId) (operatorUserId : String) (endpoint : JsString)
    (publicKey : String) : Prop :=
  ∃ p : Proved, .proved call operatorUserId p ∈ deeds ∧ relayKeyProofValid c.verify p = true ∧
    p.endpoint = endpoint ∧ p.publicKey = publicKey

/-- A call made the last registration of an endpoint, or is a heartbeat that wrote after it. -/
def WroteSince (deeds : List Deed) (call : CallId) (endpoint : JsString) : Prop :=
  lastRegistration endpoint deeds = some call ∨ .beat call endpoint ∈ since endpoint deeds

def ProvenMark (deeds : List Deed) (endpoint : JsString) (relay : Relay) : Prop :=
  relay.keyProvenAt.isSome → ∃ call,
    KeyProven c deeds call relay.operatorUserId endpoint relay.publicKey ∧
      WroteSince deeds call endpoint

def LiveMark (deeds : List Deed) (endpoint : JsString) (relay : Relay) : Prop :=
  relay.liveCheckedAt.isSome → ∃ call,
    .live call endpoint relay.publicKey ∈ deeds ∧ WroteSince deeds call endpoint

/-- A proof of the row's key was verified since the endpoint was last registered, or by that
registration itself. -/
def ProvenSince (deeds : List Deed) (endpoint : JsString) (relay : Relay) : Prop :=
  relay.keyProvenAt.isSome → ∃ call,
    KeyProven c (since endpoint deeds) call relay.operatorUserId endpoint relay.publicKey ∨
      KeyProven c deeds call relay.operatorUserId endpoint relay.publicKey ∧
        lastRegistration endpoint deeds = some call

def LiveSince (deeds : List Deed) (endpoint : JsString) (relay : Relay) : Prop :=
  relay.liveCheckedAt.isSome → ∃ call,
    .live call endpoint relay.publicKey ∈ since endpoint deeds ∨
      .live call endpoint relay.publicKey ∈ deeds ∧ lastRegistration endpoint deeds = some call

section Deeds

variable {c} {deeds more : List Deed} {deed : Deed} {call : CallId} {endpoint : JsString}
  {relay : Relay}

lemma registrant_of_not (h : deed.registers endpoint = false) :
    deed.registrant endpoint = none := by
  cases deed with
  | registered call e =>
    have hne : e ≠ endpoint := by simpa [Deed.registers] using h
    simp [Deed.registrant, hne]
  | _ => rfl

lemma since_cons_of_not (h : deed.registers endpoint = false) :
    since endpoint (deed :: deeds) = deed :: since endpoint deeds := by
  simp [since, h]

lemma lastRegistration_cons_of_not (h : deed.registers endpoint = false) :
    lastRegistration endpoint (deed :: deeds) = lastRegistration endpoint deeds := by
  simp [lastRegistration, registrant_of_not h]

lemma lastRegistration_registered :
    lastRegistration endpoint (.registered call endpoint :: deeds) = some call := by
  simp [lastRegistration, Deed.registrant]

lemma KeyProven.mono {user key : String} (h : KeyProven c deeds call user endpoint key)
    (hmore : deeds ⊆ more) : KeyProven c more call user endpoint key := by
  obtain ⟨p, hp, hrest⟩ := h
  exact ⟨p, hmore hp, hrest⟩

lemma WroteSince.cons (h : WroteSince deeds call endpoint)
    (hdeed : deed.registers endpoint = false) : WroteSince (deed :: deeds) call endpoint := by
  unfold WroteSince
  rw [lastRegistration_cons_of_not hdeed, since_cons_of_not hdeed]
  exact h.imp_right (List.mem_cons_of_mem _)

lemma wroteSince_beat : WroteSince (.beat call endpoint :: deeds) call endpoint := by
  right
  rw [since_cons_of_not rfl]
  exact List.mem_cons_self

lemma ProvenMark.cons (h : ProvenMark c deeds endpoint relay)
    (hdeed : deed.registers endpoint = false) : ProvenMark c (deed :: deeds) endpoint relay := by
  intro hmark
  obtain ⟨call, hproof, hwrote⟩ := h hmark
  exact ⟨call, hproof.mono (List.subset_cons_self _ _), hwrote.cons hdeed⟩

lemma LiveMark.cons (h : LiveMark deeds endpoint relay)
    (hdeed : deed.registers endpoint = false) : LiveMark (deed :: deeds) endpoint relay := by
  intro hmark
  obtain ⟨call, hlive, hwrote⟩ := h hmark
  exact ⟨call, List.mem_cons_of_mem _ hlive, hwrote.cons hdeed⟩

end Deeds

/-! ### What the two writes do -/

section Writes

variable {relays : Table} {now : Micros} {id : ℕ} {request : RegisterRelayRequest}
  {user : String} {keyProven liveChecked liveOk : Bool} {relay : Relay} {endpoint : JsString}
  {checkedKey : Option String}

lemma upsertRelay_spec
    (h : upsertRelay relays now id request user keyProven liveChecked = some relay) :
    relay.operatorUserId = user ∧ relay.publicKey = request.publicKey ∧
      (relay.keyProvenAt.isSome → keyProven = true) ∧
      (relay.liveCheckedAt.isSome → liveChecked = true) ∧
      ∀ old, relays.get request.endpoint = some old → old.operatorUserId = user := by
  unfold upsertRelay at h
  dsimp only at h
  split at h
  · next hnone =>
    obtain rfl := Option.some.inj h
    refine ⟨rfl, rfl, ?_, ?_, fun old hold => ?_⟩
    · cases keyProven <;> simp
    · cases liveChecked <;> simp
    · rw [hnone] at hold
      contradiction
  · next old hold =>
    split at h
    · next howner =>
      obtain rfl := Option.some.inj h
      refine ⟨howner, rfl, ?_, ?_, fun old' hold' => ?_⟩
      · cases keyProven <;> simp
      · cases liveChecked <;> simp
      · rw [hold] at hold'
        exact Option.some.inj hold' ▸ howner
    · contradiction

lemma heartbeatRelay_spec
    (h : heartbeatRelay relays now endpoint user checkedKey liveOk = some relay) :
    ∃ old, relays.get endpoint = some old ∧ old.operatorUserId = user ∧
      (∀ key ∈ checkedKey, old.publicKey = key) ∧
      relay = { old with
        lastSeen := now
        status := .active
        updatedAt := now
        keyProvenAt := if checkedKey.isSome then some now else old.keyProvenAt
        liveCheckedAt := if liveOk then some now else old.liveCheckedAt } := by
  unfold heartbeatRelay ownedRelay at h
  obtain ⟨old, hold, hrelay⟩ := Option.map_eq_some_iff.mp h
  obtain ⟨hold, hkey⟩ := Option.filter_eq_some_iff.mp hold
  obtain ⟨hold, howner⟩ := Option.filter_eq_some_iff.mp hold
  refine ⟨old, hold, by simpa using howner, fun key hmem => ?_, hrelay.symm⟩
  rw [Option.mem_def.mp hmem] at hkey
  simpa using hkey

end Writes

/-! ### The marks -/

/-- The verdicts that a call carries across its awaits. -/
def Backed (deeds : List Deed) (id : CallId) : Call → Prop
  | .register call =>
    (call.keyProven = true → KeyProven c deeds id call.operatorUserId call.request.endpoint
      call.request.publicKey) ∧
    (call.liveChecked = true → .live id call.request.endpoint call.request.publicKey ∈ deeds)
  | .heartbeat call =>
    (∀ key ∈ call.checkedKey, KeyProven c deeds id call.operatorUserId call.endpoint key) ∧
    (call.liveOk = true → ∃ key ∈ call.checkedKey, .live id call.endpoint key ∈ deeds)

structure Marks (s : State) : Prop where
  backed : ∀ id call, s.calls.get id = some call → Backed c s.deeds id call
  proven : ∀ endpoint relay, s.relays.get endpoint = some relay →
    ProvenMark c s.deeds endpoint relay
  live : ∀ endpoint relay, s.relays.get endpoint = some relay → LiveMark s.deeds endpoint relay

section MarksStep

variable {c} {s : State} {deed : Deed} {id : CallId} {call : Call}

lemma Backed.cons {deeds : List Deed} (h : Backed c deeds id call) :
    Backed c (deed :: deeds) id call := by
  have hsub : deeds ⊆ deed :: deeds := List.subset_cons_self _ _
  cases call with
  | register call => exact ⟨fun hk => (h.1 hk).mono hsub, fun hl => hsub (h.2 hl)⟩
  | heartbeat call =>
    refine ⟨fun key hkey => (h.1 key hkey).mono hsub, fun hl => ?_⟩
    obtain ⟨key, hkey, hlive⟩ := h.2 hl
    exact ⟨key, hkey, hsub hlive⟩

lemma Marks.note (h : Marks c s) (hdeed : ∀ endpoint, deed.registers endpoint = false) :
    Marks c (s.note deed) where
  backed id call hcall := (h.backed id call hcall).cons
  proven endpoint relay hrelay := (h.proven endpoint relay hrelay).cons (hdeed endpoint)
  live endpoint relay hrelay := (h.live endpoint relay hrelay).cons (hdeed endpoint)

lemma Marks.resume (h : Marks c s) (hcall : Backed c s.deeds id call) :
    Marks c (s.resume id call) where
  backed := OrderedMap.forall_set h.backed hcall
  proven := h.proven
  live := h.live

lemma Marks.enter (h : Marks c s) (hcall : Backed c s.deeds s.nextCall call) :
    Marks c (s.enter call) where
  backed := OrderedMap.forall_set h.backed hcall
  proven := h.proven
  live := h.live

lemma Marks.leave (h : Marks c s) : Marks c (s.leave id) where
  backed := OrderedMap.forall_delete h.backed
  proven := h.proven
  live := h.live

lemma Marks.register (h : Marks c s) (user : String) (request : RegisterRelayRequest)
    (nowSeconds : ℤ) : Marks c (s.register c user request nowSeconds) := by
  unfold State.register
  split
  · exact h
  · split
    · exact h.enter ⟨nofun, nofun⟩
    · dsimp only
      split
      · next proof hproof hvalid =>
        refine (h.note fun _ => rfl).enter ⟨fun _ => ?_, nofun⟩
        exact ⟨_, List.mem_cons_self, hvalid, rfl, rfl⟩
      · exact h

lemma Marks.heartbeat (h : Marks c s) (user : String) (request : RelayHeartbeatRequest)
    (nowSeconds : ℤ) : Marks c (s.heartbeat c user request nowSeconds) := by
  unfold State.heartbeat
  split
  · exact h.enter ⟨nofun, nofun⟩
  · split
    · exact h
    · dsimp only
      split
      · next proof hproof relay hrelay hvalid =>
        refine (h.note fun _ => rfl).enter ⟨fun key hkey => ?_, nofun⟩
        obtain rfl := Option.some.inj hkey
        exact ⟨_, List.mem_cons_self, hvalid, rfl, rfl⟩
      · exact h

lemma Marks.answer (h : Marks c s) (ok : Bool) : Marks c (s.live id ok) := by
  unfold State.live
  split
  · next call hcall =>
    have hbacked := h.backed id _ hcall
    split
    · split
      · exact (h.note fun _ => rfl).resume ⟨hbacked.cons.1, fun _ => List.mem_cons_self⟩
      · exact h.leave
    · exact h
  · next call hcall =>
    have hbacked := h.backed id _ hcall
    split
    · next key hkey _ =>
      split
      · exact (h.note fun _ => rfl).resume
          ⟨hbacked.cons.1, fun _ => ⟨key, hkey, List.mem_cons_self⟩⟩
      · exact h.resume hbacked
    · exact h
  · exact h

lemma Marks.lock (h : Marks c s) : Marks c (s.lock c id) := by
  unfold State.lock
  split
  · next call hcall =>
    have hbacked := h.backed id _ hcall
    split
    · exact h.resume hbacked
    · exact h
  · exact h

lemma Marks.count (h : Marks c s) : Marks c (s.count id) := by
  unfold State.count
  split
  · next call hcall =>
    have hbacked := h.backed id _ hcall
    split
    · split
      · exact h.leave
      · exact h.resume hbacked
    · exact h
  · exact h

/-- A registration that commits leaves only the marks of its own verdicts. -/
lemma Marks.registered {call : RegisterCall} {relay : Relay} {now : Micros} {row : ℕ}
    (h : Marks c s) (hcall : s.calls.get id = some (.register call))
    (hrelay : upsertRelay s.relays now row call.request call.operatorUserId call.keyProven
      call.liveChecked = some relay) :
    Marks c { s with
      relays := s.relays.set call.request.endpoint relay
      deeds := .registered id call.request.endpoint :: s.deeds } := by
  obtain ⟨hproof, hlive⟩ := h.backed id _ hcall
  obtain ⟨howner, hkey, hproven, hchecked, -⟩ := upsertRelay_spec hrelay
  have hwrote : WroteSince (.registered id call.request.endpoint :: s.deeds) id
      call.request.endpoint := .inl lastRegistration_registered
  refine ⟨fun id call hcall => (h.backed id call hcall).cons, fun e r hr => ?_, fun e r hr => ?_⟩
  all_goals
    rw [OrderedMap.get_set] at hr
    split at hr
  · next he =>
    obtain rfl := he
    obtain rfl := Option.some.inj hr
    intro hmark
    refine ⟨id, ?_, hwrote⟩
    rw [howner, hkey]
    exact (hproof (hproven hmark)).mono (List.subset_cons_self _ _)
  · next he => exact (h.proven e r hr).cons (by simpa [Deed.registers] using he)
  · next he =>
    obtain rfl := he
    obtain rfl := Option.some.inj hr
    intro hmark
    refine ⟨id, ?_, hwrote⟩
    rw [hkey]
    exact List.mem_cons_of_mem _ (hlive (hchecked hmark))
  · next he => exact (h.live e r hr).cons (by simpa [Deed.registers] using he)

/-- A heartbeat raises marks by its own verdicts, and keeps the others. -/
lemma Marks.beat {call : HeartbeatCall} {relay : Relay} (h : Marks c s)
    (hcall : s.calls.get id = some (.heartbeat call))
    (hrelay : heartbeatRelay s.relays s.now call.endpoint call.operatorUserId call.checkedKey
      call.liveOk = some relay) :
    Marks c { s with
      relays := s.relays.set call.endpoint relay
      deeds := .beat id call.endpoint :: s.deeds } := by
  obtain ⟨hproof, hlive⟩ := h.backed id _ hcall
  obtain ⟨old, hold, howner, hkey, rfl⟩ := heartbeatRelay_spec hrelay
  refine ⟨fun id call hcall => (h.backed id call hcall).cons, fun e r hr => ?_, fun e r hr => ?_⟩
  all_goals
    rw [OrderedMap.get_set] at hr
    split at hr
  · next he =>
    obtain rfl := he
    obtain rfl := Option.some.inj hr
    intro hmark
    cases hchecked : call.checkedKey with
    | none =>
      rw [hchecked] at hmark
      exact (h.proven _ old hold).cons rfl hmark
    | some key =>
      refine ⟨id, ?_, wroteSince_beat⟩
      dsimp only
      rw [howner, hkey key hchecked]
      exact (hproof key hchecked).mono (List.subset_cons_self _ _)
  · exact (h.proven e r hr).cons rfl
  · next he =>
    obtain rfl := he
    obtain rfl := Option.some.inj hr
    intro hmark
    cases hok : call.liveOk with
    | false =>
      rw [hok] at hmark
      exact (h.live _ old hold).cons rfl hmark
    | true =>
      obtain ⟨key, hchecked, hdeed⟩ := hlive hok
      refine ⟨id, ?_, wroteSince_beat⟩
      dsimp only
      rw [hkey key hchecked]
      exact List.mem_cons_of_mem _ hdeed
  · exact (h.live e r hr).cons rfl

lemma Marks.write (h : Marks c s) (row : ℕ) : Marks c (s.write id row) := by
  unfold State.write
  split
  · next call hcall =>
    split
    · split
      · next relay hrelay => exact (h.registered hcall hrelay).leave
      · exact h.leave
    · exact h
  · next call hcall =>
    split
    · exact h
    · split
      · next relay hrelay => exact (h.beat hcall hrelay).leave
      · exact h.leave
  · exact h

theorem Marks.step (h : Marks c s) (e : Event) : Marks c (s.step c e) := by
  cases e with
  | tick micros => exact ⟨h.backed, h.proven, h.live⟩
  | register user request nowSeconds => exact h.register user request nowSeconds
  | heartbeat user request nowSeconds => exact h.heartbeat user request nowSeconds
  | live id ok => exact h.answer ok
  | lock id => exact h.lock
  | count id => exact h.count
  | write id row => exact h.write row
  | abort id => exact h.leave

end MarksStep

/-! ### The cap -/

def relaysOf (relays : Table) (operatorUserId : String) : ℕ :=
  relays.entries.countP fun e => e.2.operatorUserId = operatorUserId

section Counts

variable {relays : Table} {user : String} {endpoint e : JsString} {relay : Relay}

lemma relaysOf_eq (relays : Table) (user : String) (endpoint : JsString) :
    relaysOf relays user = othersOf relays user endpoint +
      ((relays.get endpoint).any fun relay => relay.operatorUserId = user).toNat := by
  unfold relaysOf othersOf
  rw [← OrderedMap.countP_delete (k := endpoint), OrderedMap.delete, List.countP_filter]
  simp

lemma countP_set_eq {p : JsString × Relay → Bool}
    (hp : ((relays.get endpoint).any fun old => p (endpoint, old)) = p (endpoint, relay)) :
    (relays.set endpoint relay).entries.countP p = relays.entries.countP p := by
  have hset := relays.countP_set (k := endpoint) p relay
  rw [hp] at hset
  omega

lemma othersOf_set_self :
    othersOf (relays.set endpoint relay) user endpoint = othersOf relays user endpoint :=
  countP_set_eq (by simp)

/-- What an account writes is not counted for another. -/
lemma count_set_of_other {other : String} (howner : relay.operatorUserId = user)
    (hold : ∀ old, relays.get endpoint = some old → old.operatorUserId = user)
    (hne : user ≠ other) :
    relaysOf (relays.set endpoint relay) other = relaysOf relays other ∧
      othersOf (relays.set endpoint relay) other e = othersOf relays other e := by
  constructor
  all_goals
    refine countP_set_eq ?_
    cases hget : relays.get endpoint with
    | none => simp [howner, hne]
    | some old => simp [howner, hold old hget, hne]

lemma count_set_of_owner {old : Relay} (hold : relays.get endpoint = some old)
    (howner : relay.operatorUserId = old.operatorUserId) :
    relaysOf (relays.set endpoint relay) user = relaysOf relays user ∧
      othersOf (relays.set endpoint relay) user e = othersOf relays user e := by
  constructor
  all_goals
    refine countP_set_eq ?_
    simp [hold, howner]

end Counts

/-- An account past the cap still has its place, since no other call holds its lock. -/
structure Cap (calls : OrderedMap CallId Call) (relays : Table) : Prop where
  exclusive : ∀ i j a b, calls.get i = some (.register a) → calls.get j = some (.register b) →
    a.holdsLock = true → b.holdsLock = true →
      c.hashtext a.operatorUserId = c.hashtext b.operatorUserId → i = j
  counted : ∀ id call, calls.get id = some (.register call) → call.stage = .counted →
    othersOf relays call.operatorUserId call.request.endpoint < MAX_RELAYS_PER_ACCOUNT
  bounded : ∀ user, relaysOf relays user ≤ MAX_RELAYS_PER_ACCOUNT

section CapStep

variable {c} {s : State} {calls : OrderedMap CallId Call} {relays : Table} {id : CallId}
  {call : Call}

lemma Cap.delete (h : Cap c calls relays) : Cap c (calls.delete id) relays := by
  have hget {j : CallId} {call : Call} (hj : (calls.delete id).get j = some call) :
      calls.get j = some call := by
    rw [OrderedMap.get_delete] at hj
    split at hj
    · contradiction
    · exact hj
  exact ⟨fun i j a b ha hb => h.exclusive i j a b (hget ha) (hget hb),
    fun j call hj => h.counted j call (hget hj), h.bounded⟩

lemma Cap.set (h : Cap c calls relays)
    (hlock : ∀ a, call = .register a → a.holdsLock = true → ∀ j b, j ≠ id →
      calls.get j = some (.register b) → b.holdsLock = true →
        c.hashtext a.operatorUserId ≠ c.hashtext b.operatorUserId)
    (hcount : ∀ a, call = .register a → a.stage = .counted →
      othersOf relays a.operatorUserId a.request.endpoint < MAX_RELAYS_PER_ACCOUNT) :
    Cap c (calls.set id call) relays := by
  refine ⟨fun i j a b hi hj ha hb hhash => ?_, fun j a hj => ?_, h.bounded⟩
  · rw [OrderedMap.get_set] at hi hj
    split at hi
    · next hii =>
      split at hj
      · next hij => exact hii.symm.trans hij
      · next hij =>
        exact absurd hhash (hlock a (Option.some.inj hi) ha j b (Ne.symm hij) hj hb)
    · next hii =>
      split at hj
      · exact absurd hhash.symm (hlock b (Option.some.inj hj) hb i a (Ne.symm hii) hi ha)
      · exact h.exclusive i j a b hi hj ha hb hhash
  · rw [OrderedMap.get_set] at hj
    split at hj
    · exact hcount a (Option.some.inj hj)
    · exact h.counted j a hj

/-- A call that holds no lock changes nothing of this. -/
lemma Cap.set_of_free (h : Cap c calls relays)
    (hfree : ∀ a, call = .register a → a.holdsLock = false) : Cap c (calls.set id call) relays := by
  refine h.set (fun a ha hlock => ?_) fun a ha hstage => ?_
  · rw [hfree a ha] at hlock
    contradiction
  · have hlock := hfree a ha
    simp [RegisterCall.holdsLock, hstage] at hlock

lemma Cap.register (h : Cap c s.calls s.relays) (user : String) (request : RegisterRelayRequest)
    (nowSeconds : ℤ) :
    Cap c (s.register c user request nowSeconds).calls
      (s.register c user request nowSeconds).relays := by
  unfold State.register
  split
  · exact h
  · split
    · exact h.set_of_free fun a ha => by obtain rfl := Call.register.inj ha; rfl
    · dsimp only
      split
      · exact h.set_of_free fun a ha => by obtain rfl := Call.register.inj ha; rfl
      · exact h

lemma Cap.heartbeat (h : Cap c s.calls s.relays) (user : String) (request : RelayHeartbeatRequest)
    (nowSeconds : ℤ) :
    Cap c (s.heartbeat c user request nowSeconds).calls
      (s.heartbeat c user request nowSeconds).relays := by
  unfold State.heartbeat
  split
  · exact h.set_of_free nofun
  · split
    · exact h
    · dsimp only
      split
      · exact h.set_of_free nofun
      · exact h

lemma Cap.answer (h : Cap c s.calls s.relays) (ok : Bool) :
    Cap c (s.live id ok).calls (s.live id ok).relays := by
  unfold State.live
  split
  · split
    · split
      · exact h.set_of_free fun a ha => by obtain rfl := Call.register.inj ha; rfl
      · exact h.delete
    · exact h
  · split
    · split
      · exact h.set_of_free nofun
      · exact h.set_of_free nofun
    · exact h
  · exact h

/-- The lock is granted where no other call holds it. -/
lemma Cap.lock (h : Cap c s.calls s.relays) :
    Cap c (s.lock c id).calls (s.lock c id).relays := by
  unfold State.lock
  split
  · next call hcall =>
    split
    · next hfree =>
      refine h.set (fun a ha _ j b _ hb hlock hhash => ?_) fun a ha hstage => ?_
      · obtain rfl := Call.register.inj ha
        have hheld : s.lockHeld c call.operatorUserId = true :=
          List.any_eq_true.mpr ⟨.register b, OrderedMap.mem_values_iff.mpr ⟨j, hb⟩,
            by simpa [hlock] using hhash.symm⟩
        rw [hfree.2] at hheld
        contradiction
      · obtain rfl := Call.register.inj ha
        contradiction
    · exact h
  · exact h

lemma Cap.count (h : Cap c s.calls s.relays) :
    Cap c (s.count id).calls (s.count id).relays := by
  unfold State.count
  split
  · next call hcall =>
    split
    · next hstage =>
      split
      · exact h.delete
      · next hcap =>
        refine h.set (fun a ha _ j b hj hb hlock hhash => ?_) fun a ha _ => ?_
        · obtain rfl := Call.register.inj ha
          have hholds : call.holdsLock = true := by simp [RegisterCall.holdsLock, hstage]
          exact hj (h.exclusive j id b call hb hcall hlock hholds hhash.symm)
        · obtain rfl := Call.register.inj ha
          exact Nat.lt_of_not_le hcap
    · exact h
  · exact h

/-- The row that a registration adds is the one its count left room for. -/
lemma Cap.registered {call : RegisterCall} {relay : Relay} {now : Micros} {row : ℕ}
    (h : Cap c calls relays) (hcall : calls.get id = some (.register call))
    (hstage : call.stage = .counted)
    (hrelay : upsertRelay relays now row call.request call.operatorUserId call.keyProven
      call.liveChecked = some relay) :
    Cap c (calls.delete id) (relays.set call.request.endpoint relay) := by
  obtain ⟨howner, -, -, -, hold⟩ := upsertRelay_spec hrelay
  have hroom := h.counted id call hcall hstage
  have hholds : call.holdsLock = true := by simp [RegisterCall.holdsLock, hstage]
  refine ⟨h.delete.exclusive, fun j b hj hcounted => ?_, fun user => ?_⟩
  · rw [OrderedMap.get_delete] at hj
    split at hj
    · contradiction
    · next hne =>
      have hother : call.operatorUserId ≠ b.operatorUserId := by
        intro huser
        have hlock : b.holdsLock = true := by simp [RegisterCall.holdsLock, hcounted]
        exact hne (h.exclusive id j call b hcall hj hholds hlock (by rw [huser]))
      rw [(count_set_of_other howner hold hother).2]
      exact h.counted j b hj hcounted
  · by_cases huser : call.operatorUserId = user
    · subst huser
      rw [relaysOf_eq _ _ call.request.endpoint, othersOf_set_self, OrderedMap.get_set_self]
      have hone := Bool.toNat_le ((some relay).any fun r => r.operatorUserId = call.operatorUserId)
      omega
    · rw [(count_set_of_other (e := call.request.endpoint) howner hold huser).1]
      exact h.bounded user

lemma Cap.beat {call : HeartbeatCall} {relay : Relay} {now : Micros} (h : Cap c calls relays)
    (hrelay : heartbeatRelay relays now call.endpoint call.operatorUserId call.checkedKey
      call.liveOk = some relay) :
    Cap c (calls.delete id) (relays.set call.endpoint relay) := by
  obtain ⟨old, hold, -, -, hnew⟩ := heartbeatRelay_spec hrelay
  have howner : relay.operatorUserId = old.operatorUserId := by rw [hnew]
  refine ⟨h.delete.exclusive, fun j b hj hcounted => ?_, fun user => ?_⟩
  · rw [(count_set_of_owner hold howner).2]
    exact h.delete.counted j b hj hcounted
  · rw [(count_set_of_owner (e := call.endpoint) hold howner).1]
    exact h.bounded user

lemma Cap.write (h : Cap c s.calls s.relays) (row : ℕ) :
    Cap c (s.write id row).calls (s.write id row).relays := by
  unfold State.write
  split
  · next call hcall =>
    split
    · next hstage =>
      split
      · next relay hrelay => exact h.registered hcall hstage hrelay
      · exact h.delete
    · exact h
  · next call hcall =>
    split
    · exact h
    · split
      · next relay hrelay => exact h.beat hrelay
      · exact h.delete
  · exact h

theorem Cap.step (h : Cap c s.calls s.relays) (e : Event) :
    Cap c (s.step c e).calls (s.step c e).relays := by
  cases e with
  | tick micros => exact h
  | register user request nowSeconds => exact h.register user request nowSeconds
  | heartbeat user request nowSeconds => exact h.heartbeat user request nowSeconds
  | live id ok => exact h.answer ok
  | lock id => exact h.lock
  | count id => exact h.count
  | write id row => exact h.write row
  | abort id => exact h.delete

end CapStep

/-! ### Whose rows a call changes -/

/-- The account whose call an event belongs to. -/
def Event.account (s : State) : Event → Option String
  | .tick _ => none
  | .register operatorUserId _ _ | .heartbeat operatorUserId _ _ => some operatorUserId
  | .live id _ | .lock id | .count id | .write id _ | .abort id =>
    (s.calls.get id).map Call.operatorUserId

/-- The rows of every other account stay as they are. -/
def OwnOnly (s : State) (e : Event) : Prop :=
  ∀ endpoint relay, s.relays.get endpoint = some relay →
    e.account s ≠ some relay.operatorUserId → (s.step c e).relays.get endpoint = some relay

section OwnOnly

variable {c} {s : State} {id : CallId}

/-- Only a write touches the table. -/
lemma relays_step {e : Event} (h : ∀ id row, e ≠ .write id row) :
    (s.step c e).relays = s.relays := by
  cases e with
  | tick micros => rfl
  | register user request nowSeconds =>
    unfold State.step State.register
    dsimp only
    split
    · rfl
    · split
      · rfl
      · split <;> rfl
  | heartbeat user request nowSeconds =>
    unfold State.step State.heartbeat
    dsimp only
    split
    · rfl
    · split
      · rfl
      · split <;> rfl
  | live id ok =>
    unfold State.step State.live
    dsimp only
    split
    · split
      · split <;> rfl
      · rfl
    · split
      · split <;> rfl
      · rfl
    · rfl
  | lock id =>
    unfold State.step State.lock
    dsimp only
    split
    · split <;> rfl
    · rfl
  | count id =>
    unfold State.step State.count
    dsimp only
    split
    · split
      · split <;> rfl
      · rfl
    · rfl
  | write id row => exact absurd rfl (h id row)
  | abort id => rfl

/-- A write is to a row of the caller, or to a new one. -/
lemma write_spec (s : State) (id : CallId) (row : ℕ) : (s.write id row).relays = s.relays ∨
    ∃ call endpoint relay, s.calls.get id = some call ∧
      (s.write id row).relays = s.relays.set endpoint relay ∧
      ∀ old, s.relays.get endpoint = some old → old.operatorUserId = call.operatorUserId := by
  unfold State.write
  split
  · next call hcall =>
    split
    · split
      · next relay hrelay =>
        exact .inr ⟨_, _, relay, hcall, rfl, (upsertRelay_spec hrelay).2.2.2.2⟩
      · exact .inl rfl
    · exact .inl rfl
  · next call hcall =>
    split
    · exact .inl rfl
    · split
      · next relay hrelay =>
        obtain ⟨old, hold, howner, -⟩ := heartbeatRelay_spec hrelay
        refine .inr ⟨_, _, relay, hcall, rfl, fun old' hold' => ?_⟩
        rw [hold] at hold'
        exact Option.some.inj hold' ▸ howner
      · exact .inl rfl
  · exact .inl rfl

lemma ownOnly_step (s : State) (e : Event) : OwnOnly c s e := by
  intro endpoint relay hrelay haccount
  by_cases hwrite : ∃ id row, e = .write id row
  · obtain ⟨id, row, rfl⟩ := hwrite
    rcases write_spec s id row with hsame | ⟨call, e, new, hcall, hset, howner⟩
    · exact (congrArg (·.get endpoint) hsame).trans hrelay
    · refine (congrArg (·.get endpoint) hset).trans ?_
      rw [OrderedMap.get_set_of_ne, hrelay]
      rintro rfl
      refine haccount ?_
      rw [Event.account, hcall, Option.map_some, howner relay hrelay]
  · rw [relays_step fun id row he => hwrite ⟨id, row, he⟩]
    exact hrelay

end OwnOnly

/-! ### Every run -/

lemma listed_marks {relays : Table} {now : Micros} {row : CommunityRelayRow}
    (h : row ∈ listProvenCommunityRelays relays now) : ∃ relay,
      relays.get row.endpoint = some relay ∧ relay.publicKey = row.publicKey ∧
        relay.keyProvenAt.isSome ∧ relay.liveCheckedAt.isSome := by
  obtain ⟨⟨endpoint, relay⟩, hmem, rfl⟩ := List.mem_map.mp h
  obtain ⟨hmem, hlisted⟩ := List.mem_filter.mp (List.mem_mergeSort.mp (List.mem_of_mem_take hmem))
  simp only [listed, Bool.and_eq_true] at hlisted
  obtain ⟨⟨-, hproven⟩, hlive⟩ := hlisted
  refine ⟨relay, OrderedMap.mem_entries_iff.mp hmem, rfl, ?_, ?_⟩
  · cases hmark : relay.keyProvenAt <;> simp_all
  · cases hmark : relay.liveCheckedAt <;> simp_all

/-- **The marks of a row stand for proofs of its key by calls of its owner that wrote it since it
was last registered, so that nothing else is listed; no account has more relays than it may, and
no call changes a row of another account.** -/
theorem marks_of_run (es : List Event) :
    let s := run (State.step c) {} es
    (∀ endpoint relay, s.relays.get endpoint = some relay →
      ProvenMark c s.deeds endpoint relay ∧ LiveMark s.deeds endpoint relay) ∧
    (∀ row ∈ listProvenCommunityRelays s.relays s.now,
      (∃ call user, KeyProven c s.deeds call user row.endpoint row.publicKey ∧
        WroteSince s.deeds call row.endpoint) ∧
      ∃ call, .live call row.endpoint row.publicKey ∈ s.deeds ∧
        WroteSince s.deeds call row.endpoint) ∧
    (∀ user, relaysOf s.relays user ≤ MAX_RELAYS_PER_ACCOUNT) ∧
    Allowed (State.step c) (OwnOnly c) {} es := by
  have hcalls (id : CallId) : ({} : State).calls.get id = none := rfl
  have hrelays (endpoint : JsString) : ({} : State).relays.get endpoint = none := rfl
  have hmarks : Marks c (run (State.step c) {} es) :=
    invariant (fun s e h => h.step e) ⟨by simp [hcalls], by simp [hrelays], by simp [hrelays]⟩ es
  have hcap : Cap c (run (State.step c) {} es).calls (run (State.step c) {} es).relays :=
    invariant (I := fun s : State => Cap c s.calls s.relays) (fun s e h => h.step e)
      ⟨by simp [hcalls], by simp [hcalls], fun _ => Nat.zero_le _⟩ es
  refine ⟨fun endpoint relay h => ⟨hmarks.proven endpoint relay h, hmarks.live endpoint relay h⟩,
    fun row hrow => ?_, hcap.bounded, allowed_of_always ownOnly_step _ _⟩
  obtain ⟨relay, hrelay, hkey, hproven, hlive⟩ := listed_marks hrow
  obtain ⟨call, hproof, hwrote⟩ := hmarks.proven _ relay hrelay hproven
  rw [hkey] at hproof
  refine ⟨⟨call, _, hproof, hwrote⟩, ?_⟩
  rw [← hkey]
  exact hmarks.live _ relay hrelay hlive

/-- Any 32 bytes are a key here, and any 64 a signature. -/
def lenient : Context := ⟨fun _ _ _ => true, fun _ => 0, []⟩

def someKey : String := "AAAAAAAAAAAAAAAAAAAAAAAAAAAAAAAAAAAAAAAAAAA="

def someProof : RelayKeyProof :=
  ⟨⟨0, Nat.zero_le _⟩, String.ofList (List.replicate 86 'A' ++ ['=', '='])⟩

def unproven : RegisterRelayRequest := ⟨units "wss://r.example", someKey, ⟨1, 1⟩, [], none⟩

/-- A heartbeat proves the key and waits; the relay is registered again without a proof, which
clears the marks; then the heartbeat sets them. -/
def overtaken : List Event :=
  [.register "a" unproven 0, .lock 0, .count 0, .write 0 0,
    .heartbeat "a" ⟨units "wss://r.example", some someProof⟩ 0, .live 1 true,
    .register "a" unproven 0, .lock 2, .count 2, .write 2 0, .write 1 0]

theorem marks_overtaken :
    let s := run (State.step lenient) {} overtaken
    ∃ relay, s.relays.get (units "wss://r.example") = some relay ∧
      ¬ ProvenSince lenient s.deeds (units "wss://r.example") relay ∧
      ¬ LiveSince s.deeds (units "wss://r.example") relay := by
  have hrun : (run (State.step lenient) {} overtaken).relays.get (units "wss://r.example") =
        some ⟨0, someKey, "a", 1, 1, [], .active, 0, some 0, some 0, 0, 0⟩ ∧
      (run (State.step lenient) {} overtaken).deeds =
        [.beat 1 (units "wss://r.example"), .registered 2 (units "wss://r.example"),
          .live 1 (units "wss://r.example") someKey,
          .proved 1 "a" ⟨someProof, .heartbeat, units "wss://r.example", someKey, 0⟩,
          .registered 0 (units "wss://r.example")] := by
    decide +kernel
  refine ⟨_, hrun.1, fun h => ?_, fun h => ?_⟩
  all_goals
    rw [hrun.2] at h
    obtain ⟨call, hcall⟩ := h rfl
  · rcases hcall with ⟨p, hp, -⟩ | ⟨⟨p, hp, -⟩, hlast⟩
    · simp [since, Deed.registers] at hp
    · rw [lastRegistration_cons_of_not rfl, lastRegistration_registered] at hlast
      obtain rfl := Option.some.inj hlast
      simp at hp
  · rcases hcall with hlive | ⟨hlive, hlast⟩
    · simp [since, Deed.registers] at hlive
    · rw [lastRegistration_cons_of_not rfl, lastRegistration_registered] at hlast
      obtain rfl := Option.some.inj hlast
      simp at hlive

end Tnp.Registry.Relays
