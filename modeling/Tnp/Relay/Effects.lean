import Mathlib.Algebra.Order.BigOperators.Group.List
import Mathlib.Logic.Relation
import Tnp.Relay.Teardown

/-!
What the calls of the relay do, one effect after the other.

Each call is taken apart here once: it is a chain of effects within the reach it is given. What
holds of every effect then holds of every call, whatever property it is.
-/

namespace Tnp.Relay

open Relation Tnp.Lib Tnp.Protocol Tnp.Crypto Tnp.Crypto.Grants

/-- How far a connection has come. -/
structure Standing where
  state : Option ServiceState
  challenge : Option Challenge
  name : Option String
  nodeKeyHex : Option String
  domainKeyHex : Option String
  authNotAfter : Option SafeUint

def Connection.standing (c : Connection) : Standing :=
  ⟨c.state, c.challenge, c.name, c.nodeKeyHex, c.domainKeyHex, c.authNotAfter⟩

/-- What a call may do: the connections it may close, add circuits for or let begin to prove
themselves, the circuits it may use or remove, and what it may tell the transports. -/
structure Reach where
  closes : ConnId → Prop
  adds : ConnId → Prop
  auths : ConnId → Prop
  touches : CircuitRef → Prop
  tells : Output → Prop

/-- Nothing changes but counters, clocks and what limits the rates. -/
structure Quiet (s s' : RelayCore) : Prop where
  account : ∀ c, (s'.conn c).account = (s.conn c).account
  standing : ∀ c, (s'.conn c).standing = (s.conn c).standing
  closed : ∀ c, (s'.conn c).closed = (s.conn c).closed
  connections : s'.connections = s.connections
  services : s'.services = s.services
  circuitCount : s'.circuitCount = s.circuitCount
  ipService : s'.ipService = s.ipService
  nextConn : s'.nextConn = s.nextConn
  nextCircuit : s'.nextCircuit = s.nextCircuit
  circuit : s'.circuit = s.circuit
  verifications : s'.verifications = s.verifications
  out : s'.out = s.out

/-- What the relay has checked when it adds a circuit. -/
structure Addable (limits : RelayLimits) (s : RelayCore) (c : ConnId) (id : UInt64)
    (service : ConnId) (serviceId : UInt64) (name : String) : Prop where
  closed : (s.conn c).closed = false
  kind : (s.conn c).kind = .client
  id_ne : id ≠ 0
  id_free : (s.conn c).circuits.get id = none
  room : (s.conn c).circuits.atCapacity = false
  pending : (s.conn c).pending < limits.maxPendingPerClient
  count : s.circuitCount < limits.maxCircuits
  named : isCanonicalName name = true
  serves : s.services.get name = some service
  perService : ((s.conn c).perService.get service).getD 0 < limits.maxCircuitsPerClientPerService
  perIp : (s.ipService.get (ipKey (s.conn c).ip name)).getD 0 < limits.maxCircuitsPerIpPerService
  serviceRoom : (s.conn service).circuits.atCapacity = false
  serviceId_ne : serviceId ≠ 0
  serviceId_free : (s.conn service).circuits.get serviceId = none

inductive Effect (o : RelayCoreOptions) (reach : Reach) (s : RelayCore) : RelayCore → Prop
  | quiet {s' : RelayCore} : Quiet s s' → Effect o reach s s'
  | say {x : Output} : reach.tells x → Effect o reach s { s with out := s.out ++ [x] }
  | touch {r : CircuitRef} {f : Circuit → Circuit} : reach.touches r →
    (f (s.circuit r)).deal = (s.circuit r).deal → Effect o reach s (s.modifyCircuit r f)
  | opens {r : CircuitRef} {c : ConnId} {id : UInt64} : reach.touches r →
    (s.conn c).circuits.get id = some r → (s.circuit r).isOpen = false →
    Effect o reach s (s.openCircuit r)
  | remove {r : CircuitRef} {notify : Notify} {reason : ℕ} : reach.touches r →
    Effect o reach s (s.removeCircuit r notify reason)
  | add {e : Env} {c service : ConnId} {id serviceId : UInt64} {name : String} : reach.adds c →
    Addable o.limits s c id service serviceId name →
    Effect o reach s (s.addCircuit e c id service serviceId name)
  | verifies {c : ConnId} {auth : ServiceAuth} : reach.auths c → (s.conn c).closed = false →
    (s.conn c).kind = .service → (s.conn c).state = some .awaitingAuth →
    Effect o reach s (s.startVerification c auth)
  | close {c : ConnId} : reach.closes c → (s.conn c).closed = false →
    Effect o reach s (s.onTransportClosed c)

def Effects (o : RelayCoreOptions) (reach : Reach) : RelayCore → RelayCore → Prop :=
  ReflTransGen (Effect o reach)

variable {o : RelayCoreOptions} {reach : Reach} {e : Env} {s s' s'' : RelayCore}
  {c d : ConnId} {r : CircuitRef}

lemma Effects.quiet (h : Quiet s s') : Effects o reach s s' := .single (.quiet h)

namespace RelayCore

/-! ### Small calls -/

lemma quiet_modifyConn {f : Connection → Connection}
    (haccount : (f (s.conn c)).account = (s.conn c).account)
    (hstanding : (f (s.conn c)).standing = (s.conn c).standing)
    (hclosed : (f (s.conn c)).closed = (s.conn c).closed) : Quiet s (s.modifyConn c f) :=
  ⟨fun _ => conn_modifyConn_congr Connection.account haccount,
    fun _ => conn_modifyConn_congr Connection.standing hstanding,
    fun _ => conn_modifyConn_congr Connection.closed hclosed,
    rfl, rfl, rfl, rfl, rfl, rfl, rfl, rfl, rfl⟩

lemma effects_count (f : Counters → Counters) : Effects o reach s (s.count f) :=
  .quiet ⟨fun _ => rfl, fun _ => rfl, fun _ => rfl, rfl, rfl, rfl, rfl, rfl, rfl, rfl, rfl, rfl⟩

lemma effects_ips (ips : IpTracker) : Effects o reach s { s with ips } :=
  .quiet ⟨fun _ => rfl, fun _ => rfl, fun _ => rfl, rfl, rfl, rfl, rfl, rfl, rfl, rfl, rfl, rfl⟩

lemma effects_admitIp (ip : String) : Effects o reach s (s.admitIp o e ip).2 := by
  unfold admitIp
  split
  · exact .refl
  · exact effects_ips _

lemma effects_send {f : Bytes} (h : reach.tells (.send c f)) : Effects o reach s (s.send c f) :=
  .single (.say h)

lemma effects_sendTo {f : Frame} (h : reach.tells (.send c (encodeFrame f))) :
    Effects o reach s (s.sendTo c f) := by
  unfold sendTo
  split
  · exact .refl
  · exact effects_send h

lemma effects_removeCircuit {notify : Notify} {reason : ℕ} (h : reach.touches r) :
    Effects o reach s (s.removeCircuit r notify reason) :=
  .single (.remove h)

lemma effects_unowned : Effects o reach s s.unowned := effects_count _

/-! ### Closing a connection -/

/-- The reach has all that concerns `c` alone. -/
structure Own (reach : Reach) (c : ConnId) : Prop where
  closes : reach.closes c
  sends : ∀ f, reach.tells (.send c f)
  ends : ∀ code reason, reach.tells (.close c code reason)

lemma effects_closeConnection {code : ℕ} {reason : String} (h : Own reach c) :
    Effects o reach s (s.closeConnection c code reason) := by
  unfold closeConnection
  split
  · exact .refl
  · next hclosed =>
    have hsaid : Effect o reach s { s with out := s.out ++ [.close c code reason] } :=
      .say (h.ends code reason)
    exact .tail (.single hsaid) (.close h.closes (Bool.eq_false_iff.mpr hclosed))

lemma effects_fail {code : ErrorCode} {closeCode : ℕ} (h : Own reach c) :
    Effects o reach s (s.fail c code closeCode) := by
  unfold fail
  split
  · exact .refl
  · refine .trans ?_ ((effects_send (h.sends _)).trans (effects_closeConnection h))
    split
    · exact effects_count _
    · exact .refl

lemma effects_violation (h : Own reach c) : Effects o reach s (s.violation o c) := by
  unfold violation
  have hquiet : Effects o reach s ((s.count fun n => { n with
      framesDropped := n.framesDropped + 1 }).modifyConn c fun conn =>
        { conn with violations := conn.violations + 1 }) :=
    (effects_count _).trans (Effects.quiet (quiet_modifyConn rfl rfl rfl))
  dsimp only
  split
  · exact hquiet.trans (effects_fail h)
  · exact hquiet

lemma effects_authFailed {code : ErrorCode} (h : Own reach c) :
    Effects o reach s (s.authFailed c code) :=
  (effects_count _).trans (effects_fail h)

/-! ### Frames of circuits -/

lemma effects_forward {side : Kind} {raw : Bytes} (hr : reach.touches r)
    (hclient : side = .client →
      reach.tells (.send (s.circuit r).client (setCircuitId raw (s.circuit r).clientId)))
    (hservice : side = .service →
      reach.tells (.send (s.circuit r).service (setCircuitId raw (s.circuit r).serviceId))) :
    Effects o reach s (s.forward o e r side raw) := by
  unfold forward
  cases side with
  | client =>
    dsimp only
    split
    · exact .refl
    split
    · exact (effects_count _).trans (effects_removeCircuit hr)
    refine (effects_send (hclient rfl)).trans ?_
    split
    · exact .refl
    · exact .trans (.single (.touch hr rfl)) (effects_count _)
  | service =>
    dsimp only
    split
    · exact .refl
    split
    · exact (effects_count _).trans (effects_removeCircuit hr)
    refine (effects_send (hservice rfl)).trans ?_
    split
    · exact .refl
    · exact .trans (.single (.touch hr rfl)) (effects_count _)

lemma effects_reject {id : UInt64} {code : ErrorCode} (h : Own reach c) :
    Effects o reach s (s.reject c id code) :=
  (effects_count _).trans (effects_sendTo (h.sends _))

/-- The reach has all that a frame received on `c` may bring about, a new circuit apart. -/
structure Covers (reach : Reach) (s : RelayCore) (c : ConnId) (raw : Bytes) : Prop where
  own : Own reach c
  auths : reach.auths c
  touches : ∀ id r, (s.conn c).circuits.get id = some r → reach.touches r
  toClient : (s.conn c).kind = .service → ∀ id r, (s.conn c).circuits.get id = some r →
    reach.tells (.send (s.circuit r).client (setCircuitId raw (s.circuit r).clientId))
  toService : (s.conn c).kind = .client → ∀ id r, (s.conn c).circuits.get id = some r →
    reach.tells (.send (s.circuit r).service (setCircuitId raw (s.circuit r).serviceId))

/-- A CIRCUIT_CREATE of `c` is accepted. -/
inductive Creates (o : RelayCoreOptions) (e : Env) (s : RelayCore) (c : ConnId) (raw : Bytes) :
    RelayCore → Prop
  | mk {f : Frame} {create : CircuitCreate} {service : ConnId} {serviceId : UInt64}
    {ips : IpTracker} : decodeFrame raw = .ok f → f.type = .CIRCUIT_CREATE → f.streamId = 0 →
    decodeCircuitCreate f.payload = .ok create →
    Addable o.limits { s with ips } c f.circuitId service serviceId create.name →
    Creates o e s c raw ((addCircuit e { s with ips } c f.circuitId service serviceId
      create.name).sendTo service (createFrame serviceId f))

lemma effects_of_creates {raw : Bytes} (h : Creates o e s c raw s') (hadds : reach.adds c)
    (htells : ∀ x, reach.tells x) : Effects o reach s s' := by
  obtain ⟨hf, htype, hstream, hcreate, hadd⟩ := h
  exact (effects_ips _).trans (.trans (.single (.add hadds hadd)) (effects_sendTo (htells _)))

lemma effects_createCircuit {f : Frame} {raw : Bytes} (h : Own reach c)
    (hf : decodeFrame raw = .ok f) (htype : f.type = .CIRCUIT_CREATE)
    (hclosed : (s.conn c).closed = false) (hkind : (s.conn c).kind = .client) :
    Effects o reach s (s.createCircuit o e c f) ∨
      Creates o e s c raw (s.createCircuit o e c f) := by
  unfold createCircuit
  dsimp only
  split
  · exact .inl (effects_violation h)
  next hid =>
  push Not at hid
  split
  · exact .inl (effects_violation h)
  next hfree =>
  rcases s.ips.allowCreate (s.conn c).ip (e.clock 0) with ⟨allowed, ips⟩
  dsimp only
  split
  · exact .inl ((effects_ips ips).trans (effects_reject h))
  split
  · exact .inl ((effects_ips ips).trans (effects_reject h))
  next hlimits =>
  push Not at hlimits
  split
  · exact .inl ((effects_ips ips).trans ((effects_count _).trans (effects_reject h)))
  next create hcreate =>
  split
  · exact .inl ((effects_ips ips).trans (effects_reject h))
  next service hservice =>
  split
  · exact .inl ((effects_ips ips).trans (effects_reject h))
  split
  · exact .inl ((effects_ips ips).trans (effects_reject h))
  next hper =>
  push Not at hper
  split
  · exact .inl ((effects_ips ips).trans (effects_reject h))
  next hroom =>
  split
  · exact .inl (effects_ips ips)
  next serviceId hdraw =>
  obtain ⟨hne, hnew⟩ : serviceId ≠ 0 ∧ (s.conn service).circuits.has serviceId = false := by
    have := List.find?_some hdraw
    simpa using this
  refine .inr (.mk hf htype hid.2 hcreate ?_)
  exact {
    closed := hclosed
    kind := hkind
    id_ne := hid.1
    id_free := by simpa [CircuitTable.has, OrderedMap.has, CircuitTable.get] using hfree
    room := by simpa using hlimits.1
    pending := hlimits.2.1
    count := hlimits.2.2
    named := create.name_canonical
    serves := hservice
    perService := hper.1
    perIp := hper.2
    serviceRoom := by simpa using hroom
    serviceId_ne := hne
    serviceId_free := by simpa [CircuitTable.has, OrderedMap.has, CircuitTable.get] using hnew }

lemma effects_receiveFromClient {f : Frame} {raw : Bytes} (h : Covers reach s c raw)
    (hf : decodeFrame raw = .ok f) (hclosed : (s.conn c).closed = false)
    (hkind : (s.conn c).kind = .client) : Effects o reach s (s.receiveFromClient o e c f raw) ∨
      Creates o e s c raw (s.receiveFromClient o e c f raw) := by
  unfold receiveFromClient
  split
  · next htype => exact effects_createCircuit h.own hf htype hclosed hkind
  · left
    split
    · exact effects_unowned
    next r hr =>
    split
    · exact (effects_count _).trans (effects_removeCircuit (h.touches _ r hr))
    · exact effects_forward (h.touches _ r hr) (fun h => nomatch h)
        fun _ => h.toService hkind _ r hr
  · left
    split
    · exact effects_unowned
    · next r hr => exact effects_removeCircuit (h.touches _ r hr)
  · exact .inl (effects_violation h.own)

lemma effects_receiveFromService {f : Frame} {raw : Bytes} (h : Covers reach s c raw)
    (hkind : (s.conn c).kind = .service) :
    Effects o reach s (s.receiveFromService o e c f raw) := by
  unfold receiveFromService
  split
  · split
    · exact effects_violation h.own
    next r hr =>
    split
    · exact effects_violation h.own
    next hopen =>
    split
    · exact (effects_count _).trans (effects_removeCircuit (h.touches _ r hr))
    have hsame : ((s.openCircuit r).circuit r).client = (s.circuit r).client ∧
        ((s.openCircuit r).circuit r).clientId = (s.circuit r).clientId := by
      simp [openCircuit, count, modifyConn, modifyCircuit]
    have hopens : Effect o reach s (s.openCircuit r) :=
      .opens (h.touches _ r hr) hr (Bool.eq_false_iff.mpr hopen)
    refine .trans (.single hopens) (effects_forward (h.touches _ r hr) (fun _ => ?_)
      (by simp))
    rw [hsame.1, hsame.2]
    exact h.toClient hkind _ r hr
  · split
    · exact effects_unowned
    next r hr =>
    split
    · exact effects_violation h.own
    · exact effects_forward (h.touches _ r hr) (fun _ => h.toClient hkind _ r hr)
        (by simp)
  · split
    · exact effects_unowned
    · next r hr => exact effects_removeCircuit (h.touches _ r hr)
  · exact effects_violation h.own

/-! ### Every frame -/

lemma effects_receiveUnauthenticated {f : Frame} (hown : Own reach c) (hauths : reach.auths c)
    (hclosed : (s.conn c).closed = false) (hkind : (s.conn c).kind = .service) :
    Effects o reach s (s.receiveUnauthenticated o e c f) := by
  unfold receiveUnauthenticated
  dsimp only
  split
  · exact (effects_count _).trans (effects_fail hown)
  next hstate =>
  push Not at hstate
  split
  · exact (effects_count _).trans (effects_fail hown)
  next auth _ =>
  rcases s.ips.allowAuth (s.conn c).ip (e.clock 0) with ⟨allowed, ips⟩
  refine .trans (effects_ips ips) ?_
  split
  · exact effects_authFailed hown
  · exact .single (.verifies hauths hclosed hkind hstate.1)

lemma effects_proveIdentity {f : Frame} (hown : Own reach c) :
    Effects o reach s (s.proveIdentity o c f) := by
  unfold proveIdentity
  split
  · exact effects_violation hown
  split
  · exact effects_fail hown
  have hproven : Quiet s (s.modifyConn c fun conn => { conn with identityProven := true }) :=
    quiet_modifyConn rfl rfl rfl
  refine .trans (Effects.quiet hproven) ?_
  dsimp only
  split
  · exact effects_fail hown
  · exact effects_send (hown.sends _)

/-- **A received frame has the effects of its connection only, or creates a circuit for it.** -/
theorem effects_receive {data : Bytes} (h : Covers reach s c data) :
    Effects o reach s (s.receive o e c data) ∨ Creates o e s c data (s.receive o e c data) := by
  unfold receive
  split
  · exact .inl .refl
  next hclosed =>
  rw [Bool.not_eq_true] at hclosed
  split
  · exact .inl (effects_fail h.own)
  split
  · exact .inl (effects_fail h.own)
  next f hf =>
  split
  · exact .inl (effects_send (h.own.sends _))
  split
  · exact .inl .refl
  split
  · exact .inl (effects_proveIdentity h.own)
  split
  · next hservice => exact .inl (effects_receiveUnauthenticated h.own h.auths hclosed hservice.1)
  split
  · next hkind => exact effects_receiveFromClient h hf hclosed hkind
  · next hkind => exact .inl (effects_receiveFromService h hkind)

/-! ### What no effect undoes -/

/-- Connections go, and none of them starts again. -/
structure Onward (auths : ConnId → Prop) (s s' : RelayCore) : Prop where
  standing : ∀ d, ¬ auths d → (s'.conn d).standing = (s.conn d).standing
  kind : ∀ d, (s'.conn d).kind = (s.conn d).kind
  closed : ∀ d, (s'.conn d).closed = false → (s.conn d).closed = false
  connections : s'.connections.Sublist s.connections
  services : ∀ name d, s'.services.get name = some d → s.services.get name = some d
  size : s'.services.size ≤ s.services.size
  nextConn : s'.nextConn = s.nextConn

lemma Onward.refl {auths : ConnId → Prop} (s : RelayCore) : Onward auths s s :=
  ⟨fun _ _ => rfl, fun _ => rfl, fun _ => id, .refl _, fun _ _ => id, le_rfl, rfl⟩

lemma Onward.trans {auths : ConnId → Prop} (h : Onward auths s s') (h' : Onward auths s' s'') :
    Onward auths s s'' where
  standing d hd := (h'.standing d hd).trans (h.standing d hd)
  kind d := (h'.kind d).trans (h.kind d)
  closed d hd := h.closed d (h'.closed d hd)
  connections := h'.connections.trans h.connections
  services name d hd := h.services name d (h'.services name d hd)
  size := h'.size.trans h.size
  nextConn := h'.nextConn.trans h.nextConn

lemma Spares.onward {auths : ConnId → Prop} (h : Spares s s') : Onward auths s s' := by
  refine ⟨fun d _ => ?_, fun d => ?_, fun d => ?_, h.connections ▸ .refl _,
    fun _ _ => h.services ▸ id, h.services ▸ le_rfl, h.nextConn⟩ <;>
    obtain ⟨t, p, q, hconn⟩ := h.conn d <;> rw [hconn]
  · rfl
  · exact id

lemma onward_modifyConn {auths : ConnId → Prop} {f : Connection → Connection}
    (hstanding : ¬ auths c → (f (s.conn c)).standing = (s.conn c).standing)
    (hkind : (f (s.conn c)).kind = (s.conn c).kind)
    (hclosed : (f (s.conn c)).closed = false → (s.conn c).closed = false) :
    Onward auths s (s.modifyConn c f) := by
  refine ⟨fun d hd => ?_, fun d => conn_modifyConn_congr Connection.kind hkind, fun d => ?_,
    .refl _, fun _ _ => id, le_rfl, rfl⟩
  · rw [conn_modifyConn]
    split
    · next h => rw [h, hstanding (h ▸ hd)]
    · rfl
  · rw [conn_modifyConn]
    split
    · next h => exact h ▸ hclosed
    · exact id

lemma conn_detach : (s.detach c).conn d = if d = c then
    { s.conn c with closed := true, circuits := (s.conn c).circuits.drain.2 } else s.conn d :=
  conn_modifyConn (s := s) fun conn =>
    { conn with closed := true, circuits := conn.circuits.drain.2 }

lemma services_detach (s : RelayCore) (c : ConnId) :
    (∀ name d, (s.detach c).services.get name = some d → s.services.get name = some d) ∧
      (s.detach c).services.size ≤ s.services.size := by
  unfold detach
  dsimp only
  split
  · split
    · refine ⟨fun name d h => ?_, OrderedMap.size_delete_le⟩
      rw [OrderedMap.get_delete] at h
      split at h
      · simp at h
      · exact h
    · exact ⟨fun _ _ => id, le_rfl⟩
  · exact ⟨fun _ _ => id, le_rfl⟩

lemma onward_detach {auths : ConnId → Prop} (c : ConnId) : Onward auths s (s.detach c) := by
  have h : Onward auths s (s.modifyConn c fun conn =>
      { conn with closed := true, circuits := conn.circuits.drain.2 }) :=
    onward_modifyConn (fun _ => rfl) rfl (fun h => nomatch h)
  obtain ⟨hget, hsize⟩ := services_detach s c
  exact ⟨h.standing, h.kind, h.closed, List.erase_sublist, hget, hsize, rfl⟩

lemma spares_onTransportClosed (hclosed : (s.conn c).closed = false) :
    Spares (s.detach c) (s.onTransportClosed c) := by
  rw [onTransportClosed, hclosed]
  exact spares_foldl (fun _ r => spares_removeCircuit r _ _) _ _

lemma onward_onTransportClosed {auths : ConnId → Prop} (c : ConnId) :
    Onward auths s (s.onTransportClosed c) := by
  cases hclosed : (s.conn c).closed with
  | false => exact (onward_detach c).trans (spares_onTransportClosed hclosed).onward
  | true =>
    rw [onTransportClosed, hclosed]
    exact .refl s

/-- Adding a circuit, too, changes nothing of a connection but its table and its counts. -/
lemma exists_conn_addCircuit {service : ConnId} {id serviceId : UInt64} {name : String}
    (d : ConnId) : ∃ circuits pending perService,
      (s.addCircuit e c id service serviceId name).conn d =
        { s.conn d with circuits, pending, perService } := by
  unfold addCircuit
  dsimp only
  rw [conn_modifyConn]
  split
  · next h =>
    rw [conn_modifyConn]
    split
    · next h' => exact ⟨_, _, _, by rw [h, h']⟩
    · exact ⟨_, _, _, by rw [h]⟩
  · rw [conn_modifyConn]
    split
    · next h' => exact ⟨_, _, _, by rw [h']⟩
    · exact ⟨_, _, _, rfl⟩

lemma onward_addCircuit {auths : ConnId → Prop} {service : ConnId} {id serviceId : UInt64}
    {name : String} : Onward auths s (s.addCircuit e c id service serviceId name) := by
  refine ⟨fun d _ => ?_, fun d => ?_, fun d => ?_, .refl _, fun _ _ h => h, le_rfl, rfl⟩ <;>
    obtain ⟨t, p, q, hconn⟩ := exists_conn_addCircuit d <;> rw [hconn]
  · rfl
  · exact fun h => h

lemma conn_openCircuit (s : RelayCore) (r : CircuitRef) (d : ConnId) :
    (s.openCircuit r).conn d = if d = (s.circuit r).client then
      { s.conn (s.circuit r).client with pending := (s.conn (s.circuit r).client).pending - 1 }
      else s.conn d :=
  conn_modifyConn (s := s.modifyCircuit r fun k => { k with isOpen := true }) fun c =>
    { c with pending := c.pending - 1 }

lemma conn_startVerification (s : RelayCore) (c : ConnId) (auth : ServiceAuth) (d : ConnId) :
    (s.startVerification c auth).conn d = if d = c then
      { s.conn c with state := some .verifying } else s.conn d :=
  conn_modifyConn (s := s) fun conn => { conn with state := some .verifying }

lemma onward_of_effect (h : Effect o reach s s') : Onward reach.auths s s' := by
  cases h with
  | quiet h =>
    exact ⟨fun d _ => h.standing d, fun d => congrArg Account.kind (h.account d),
      fun d => (h.closed d).symm.trans, h.connections ▸ .refl _, fun _ _ => h.services ▸ id,
      h.services ▸ le_rfl, h.nextConn⟩
  | say h => exact ⟨fun _ _ => rfl, fun _ => rfl, fun _ => id, .refl _, fun _ _ => id, le_rfl, rfl⟩
  | touch hr hdeal =>
    exact ⟨fun _ _ => rfl, fun _ => rfl, fun _ => id, .refl _, fun _ _ => id, le_rfl, rfl⟩
  | @opens r c id hr hlisted hopen =>
    have h : Onward reach.auths s (s.modifyConn (s.circuit r).client fun conn =>
      { conn with pending := conn.pending - 1 }) := onward_modifyConn (fun _ => rfl) rfl fun h => h
    exact ⟨h.standing, h.kind, h.closed, .refl _, fun _ _ h => h, le_rfl, rfl⟩
  | remove hr => exact (spares_removeCircuit _ _ _).onward
  | add hc hadd => exact onward_addCircuit
  | @verifies c auth hc hclosed hkind hstate =>
    have h : Onward reach.auths s (s.modifyConn c fun conn =>
      { conn with state := some .verifying }) :=
        onward_modifyConn (fun h => absurd hc h) rfl fun h => h
    exact ⟨h.standing, h.kind, h.closed, .refl _, fun _ _ h => h, le_rfl, rfl⟩
  | close hc hclosed => exact onward_onTransportClosed _

lemma onward_of_effects (h : Effects o reach s s') : Onward reach.auths s s' := by
  induction h with
  | refl => exact .refl s
  | tail _ h ih => exact ih.trans (onward_of_effect h)

/-- An effect starts a verification, or lets no connection begin to prove itself. -/
lemma effect_cases (h : Effect o reach s s') : (∃ c auth, reach.auths c ∧
    (s.conn c).closed = false ∧ (s.conn c).kind = .service ∧
    (s.conn c).state = some .awaitingAuth ∧ s' = s.startVerification c auth) ∨
    Effect o { reach with auths := fun _ => False } s s' ∧ s'.verifications = s.verifications := by
  cases h with
  | quiet h => exact .inr ⟨.quiet h, h.verifications⟩
  | say h => exact .inr ⟨.say h, rfl⟩
  | touch hr hdeal => exact .inr ⟨.touch hr hdeal, rfl⟩
  | opens hr hlisted hopen => exact .inr ⟨.opens hr hlisted hopen, rfl⟩
  | remove hr => exact .inr ⟨.remove hr, (spares_removeCircuit _ _ _).verifications⟩
  | add hc hadd => exact .inr ⟨.add hc hadd, rfl⟩
  | verifies hc hclosed hkind hstate => exact .inl ⟨_, _, hc, hclosed, hkind, hstate, rfl⟩
  | close hc hclosed =>
    exact .inr ⟨.close hc hclosed, (spares_onTransportClosed hclosed).verifications⟩

/-! ### The sweep -/

/-- The sweep may close a service node that has not proved itself, or whose chain has ended, and
whoever has something buffered while all of it together is too much. -/
def SweepCloses (o : RelayCoreOptions) (e : Env) (s : RelayCore) (c : ConnId) : Prop :=
  (s.conn c).kind = .service ∧ ((s.conn c).state ≠ some .ready ∨
    (s.conn c).authNotAfter.any fun t => (t.val : ℤ) ≤ ⌊e.clock 0 / 1000⌋) ∨
  0 < e.bufferedAmount c ∧ o.limits.globalBufferLimit < (s.connections.map e.bufferedAmount).sum

lemma effects_sweepCircuit {nowMs : ℚ} (hr : reach.touches r) :
    Effects o reach s (s.sweepCircuit o nowMs r) := by
  unfold sweepCircuit
  dsimp only
  split
  · exact effects_removeCircuit hr
  split
  · exact (effects_count _).trans (effects_removeCircuit hr)
  · exact .refl

lemma effects_startRecheck {nowMs : ℚ} : Effects o reach s (s.startRecheck o nowMs c) := by
  unfold startRecheck
  split
  · have hchecked : Quiet s (s.modifyConn c fun conn =>
        { conn with authCheckedAt := some nowMs }) :=
      quiet_modifyConn rfl rfl rfl
    refine .trans (Effects.quiet hchecked) ?_
    dsimp only
    split
    · exact Effects.quiet ⟨fun _ => rfl, fun _ => rfl, fun _ => rfl, rfl, rfl, rfl, rfl, rfl, rfl,
        rfl, rfl, rfl⟩
    · exact .refl
  · exact .refl

/-- A chain of calls that each stay within the reach. -/
lemma effects_foldl {α : Type*} {f : RelayCore → α → RelayCore}
    (hf : ∀ s x, Effects o reach s (f s x)) (xs : List α) (s : RelayCore) :
    Effects o reach s (xs.foldl f s) := by
  induction xs generalizing s with
  | nil => exact .refl
  | cons x xs ih => exact (hf s x).trans (ih (f s x))

lemma effects_sweepConnection (htouches : ∀ r, reach.touches r)
    (h : (s.conn c).kind = .service → ((s.conn c).state ≠ some .ready ∨
      (s.conn c).authNotAfter.any fun t => (t.val : ℤ) ≤ ⌊e.clock 0 / 1000⌋) → Own reach c) :
    Effects o reach s (s.sweepConnection o (e.clock 0) c) := by
  unfold sweepConnection
  split
  · exact .refl
  split
  · exact .refl
  next hkind =>
  rw [not_not] at hkind
  split
  · next hstate =>
    split
    · exact effects_authFailed (h hkind (Or.inl hstate))
    · exact .refl
  split
  · next hexpired => exact effects_fail (h hkind (Or.inr hexpired))
  · exact effects_startRecheck.trans
      (effects_foldl (fun s r => effects_sweepCircuit (htouches r)) _ _)

lemma effects_sweepConnections (htouches : ∀ r, reach.touches r) (hauths : ∀ c, ¬ reach.auths c)
    (h : ∀ c, SweepCloses o e s c → Own reach c) (cs : List ConnId)
    (hs : Onward reach.auths s s') :
    Effects o reach s' (cs.foldl (fun s c => s.sweepConnection o (e.clock 0) c) s') := by
  induction cs generalizing s' with
  | nil => exact .refl
  | cons c cs ih =>
    have hfirst : Effects o reach s' (s'.sweepConnection o (e.clock 0) c) := by
      refine effects_sweepConnection htouches fun hkind hstate => h c (Or.inl ?_)
      have hstanding := hs.standing c (hauths c)
      have hsameState : (s'.conn c).state = (s.conn c).state := congrArg Standing.state hstanding
      have hsameEnd : (s'.conn c).authNotAfter = (s.conn c).authNotAfter :=
        congrArg Standing.authNotAfter hstanding
      rw [hsameState, hsameEnd] at hstate
      exact ⟨hs.kind c ▸ hkind, hstate⟩
    exact hfirst.trans (ih (hs.trans (onward_of_effects hfirst)))

lemma effects_closeLargest (sized : List (ConnId × ℕ)) {total : ℤ}
    (h : ∀ x ∈ sized, (o.limits.globalBufferLimit : ℤ) < total → Own reach x.1) :
    Effects o reach s (closeLargest o sized total s) := by
  induction sized generalizing s total with
  | nil => exact .refl
  | cons x rest ih =>
    obtain ⟨c, buffered⟩ := x
    unfold closeLargest
    split
    · exact .refl
    · next hover =>
      have hown := h _ List.mem_cons_self (not_le.mp hover)
      refine .trans ((effects_count _).trans (effects_fail hown))
        (ih fun x hx hmore => h x (List.mem_cons_of_mem _ hx) ?_)
      omega

lemma mem_bufferedConnections {x : ConnId × ℕ} (h : x ∈ s.bufferedConnections e) :
    x.2 = e.bufferedAmount x.1 ∧ 0 < x.2 := by
  unfold bufferedConnections at h
  rw [List.mem_insertionSort, List.mem_filter, List.mem_map] at h
  obtain ⟨⟨c, -, rfl⟩, hpos⟩ := h
  exact ⟨rfl, of_decide_eq_true hpos⟩

lemma sum_bufferedConnections_le : ((s.bufferedConnections e).map Prod.snd).sum ≤
    (s.connections.map e.bufferedAmount).sum := by
  unfold bufferedConnections
  rw [((List.perm_insertionSort _ _).map Prod.snd).sum_eq]
  refine le_trans
    (List.Sublist.sum_le_sum (List.filter_sublist.map Prod.snd) fun _ _ => Nat.zero_le _) ?_
  rw [List.map_map]
  exact List.Sublist.sum_le_sum (List.filter_sublist.map e.bufferedAmount) fun _ _ => Nat.zero_le _

/-- **A sweep removes circuits, and closes only whom it may.** -/
theorem effects_sweep (htouches : ∀ r, reach.touches r) (hauths : ∀ c, ¬ reach.auths c)
    (h : ∀ c, SweepCloses o e s c → Own reach c) : Effects o reach s (s.sweep o e) := by
  have hall := effects_sweepConnections htouches hauths h s.connections (.refl s)
  refine hall.trans (.trans ?_ (effects_ips _))
  refine effects_closeLargest _ fun x hx hover => h x.1 (Or.inr ?_)
  obtain ⟨hx, hpos⟩ := mem_bufferedConnections hx
  refine ⟨hx ▸ hpos, ?_⟩
  have hsum := (sum_bufferedConnections_le (e := e)).trans
    (((onward_of_effects hall).connections.map e.bufferedAmount).sum_le_sum
      fun x _ => Nat.zero_le x)
  exact lt_of_lt_of_le (by exact_mod_cast hover) hsum

/-! ### Answers of the registry -/

lemma closed_onTransportClosed (s : RelayCore) (c : ConnId) :
    ((s.onTransportClosed c).conn c).closed = true := by
  cases hclosed : (s.conn c).closed with
  | true => rw [onTransportClosed, hclosed, if_pos rfl, hclosed]
  | false =>
    obtain ⟨t, p, q, hconn⟩ := (spares_onTransportClosed hclosed).conn c
    rw [hconn, conn_detach, if_pos rfl]

lemma closed_closeConnection (s : RelayCore) (c : ConnId) (code : ℕ) (reason : String) :
    ((s.closeConnection c code reason).conn c).closed = true := by
  unfold closeConnection
  split
  · assumption
  · exact closed_onTransportClosed _ c

lemma closed_onTransportClosed_of_ne (h : d ≠ c) :
    ((s.onTransportClosed c).conn d).closed = (s.conn d).closed := by
  cases hclosed : (s.conn c).closed with
  | true => rw [onTransportClosed, hclosed, if_pos rfl]
  | false =>
    obtain ⟨t, p, q, hconn⟩ := (spares_onTransportClosed hclosed).conn d
    rw [hconn, conn_detach, if_neg h]

lemma closed_closeConnection_of_ne {code : ℕ} {reason : String} (h : d ≠ c) :
    ((s.closeConnection c code reason).conn d).closed = (s.conn d).closed := by
  unfold closeConnection
  split
  · rfl
  · exact closed_onTransportClosed_of_ne (s := { s with out := s.out ++ [.close c code reason] }) h

/-- What a connection has proved when it becomes the one that serves `v.name`. -/
structure Proves (o : RelayCoreOptions) (e : Env) (s : RelayCore) (v : Verification)
    (domainKey : PublicKey) (verified : VerifiedChain) : Prop where
  closed : (s.conn v.conn).closed = false
  chain : verifyChain o.verify v.chain (serviceOptions domainKey (e.clock 0) v.name) =
    .ok (.ok verified)
  signed : ∃ challenge, (s.conn v.conn).challenge = some challenge ∧
    verifyServiceAuth o.verify ⟨v.name, o.endpoint, challenge, verified.subject⟩ v.signature = true

/-- The node that serves `name` has the key that was proved. -/
def SameNode (s : RelayCore) (name : String) (verified : VerifiedChain) (i : ConnId) : Prop :=
  s.services.get name = some i ∧ (s.conn i).closed = false ∧
    (s.conn i).nodeKeyHex = some (toHex verified.subject.val)

/-- **A node that proves its key is refused, or enrolled once the name is free.** -/
lemma effects_register {name : String} {domainKey : PublicKey} {verified : VerifiedChain}
    (hown : Own reach c) (hsame : ∀ i, SameNode s name verified i → Own reach i) :
    Effects o reach s (s.register o e c name domainKey verified) ∨
      ∃ s', Effects o reach s s' ∧ s'.services.size < o.limits.maxServiceNodes ∧
        (∀ i, s'.services.get name = some i → (s'.conn i).closed = true) ∧
        (∀ d, (s'.conn d).closed = (s.conn d).closed ∨ SameNode s name verified d) ∧
        s.register o e c name domainKey verified =
          (s'.enroll c name domainKey verified (e.clock 1)).send c
            (encodeFrame { type := .AUTH_OK }) := by
  unfold register
  dsimp only
  split
  · exact .inl (effects_authFailed hown)
  next hincumbent =>
  rcases hlive : (s.services.get name).filter fun i => !(s.conn i).closed with _ | i
  · -- nobody serves the name
    dsimp only
    split
    · exact .inl (effects_authFailed hown)
    next hroom =>
    refine .inr ⟨s, .refl, not_le.mp hroom, fun i hi => ?_, fun d => .inl rfl, rfl⟩
    simpa [hi, Option.filter] using hlive
  · -- the same node does, over another connection
    obtain ⟨hi, hclosed⟩ := Option.filter_eq_some_iff.mp hlive
    have hkey : (s.conn i).nodeKeyHex = some (toHex verified.subject.val) := by
      rw [hlive] at hincumbent
      simpa [Option.filter] using hincumbent
    have hi' : SameNode s name verified i := ⟨hi, by simpa using hclosed, hkey⟩
    have hclose : Effects o reach s
        (s.closeConnection i CLOSE_NORMAL "replaced by the same node") :=
      effects_closeConnection (hsame i hi')
    dsimp only
    split
    · exact .inl (hclose.trans (effects_authFailed hown))
    next hroom =>
    refine .inr ⟨_, hclose, not_le.mp hroom, fun j hj => ?_, fun d => ?_, rfl⟩
    · have hj' := (onward_of_effects hclose).services name j hj
      obtain rfl := Option.some.inj (hi.symm.trans hj')
      exact closed_closeConnection s i _ _
    · rcases eq_or_ne d i with rfl | hne
      · exact .inr hi'
      · exact .inl (closed_closeConnection_of_ne hne)

/-- **What the answer of the registry to a verification brings about.** -/
theorem effects_verifyService (v : Verification) (answer : Option PublicKey)
    (hown : Own reach v.conn) (hsame : ∀ domainKey verified i, answer = some domainKey →
      Proves o e s v domainKey verified → SameNode s v.name verified i → Own reach i) :
    Effects o reach s (s.verifyService o e v answer) ∨
      ∃ s' domainKey verified, answer = some domainKey ∧ Proves o e s v domainKey verified ∧
        Effects o reach s s' ∧ s'.services.size < o.limits.maxServiceNodes ∧
        (∀ i, s'.services.get v.name = some i → (s'.conn i).closed = true) ∧
        (∀ d, (s'.conn d).closed = (s.conn d).closed ∨ SameNode s v.name verified d) ∧
        s.verifyService o e v answer =
          (s'.enroll v.conn v.name domainKey verified (e.clock 1)).send v.conn
            (encodeFrame { type := .AUTH_OK }) := by
  unfold verifyService
  split
  · exact .inl .refl
  next hclosed =>
  split
  · exact .inl (effects_authFailed hown)
  next domainKey =>
  split
  · exact .inl .refl
  · exact .inl (effects_authFailed hown)
  next verified hchain =>
  split
  · exact .inl (effects_authFailed hown)
  next challenge hchallenge =>
  split
  · exact .inl (effects_authFailed hown)
  next hsigned =>
  have hproves : Proves o e s v domainKey verified :=
    ⟨Bool.eq_false_iff.mpr hclosed, hchain, challenge, hchallenge, by simpa using hsigned⟩
  rcases effects_register hown (hsame domainKey verified · rfl hproves) with h | ⟨s', h⟩
  · exact .inl h
  · exact .inr ⟨s', domainKey, verified, rfl, hproves, h⟩

/-- The registry says that the key under which `c` proved itself is no longer the one. -/
def Revokes (s : RelayCore) (c : ConnId) (answer : Option (Option PublicKey)) : Prop :=
  ∃ current, answer = some current ∧ ∀ key hex, current = some key →
    (s.conn c).domainKeyHex = some hex → key.val ≠ hexToBytes hex.toList

lemma effects_recheckDomainKey {answer : Option (Option PublicKey)}
    (h : Revokes s c answer → Own reach c) :
    Effects o reach s (s.recheckDomainKey c answer) := by
  unfold recheckDomainKey
  split
  · exact .refl
  next current =>
  split
  · exact .refl
  split
  · next key hex hhex =>
    split
    · next hne =>
      refine effects_fail (h ⟨_, rfl, fun key' hex' hkey' hhex' => ?_⟩)
      obtain rfl := Option.some.inj hkey'
      obtain rfl := Option.some.inj (hhex.symm.trans hhex')
      exact hne
    · exact .refl
  · next hnot =>
    exact effects_fail (h ⟨_, rfl, fun key hex hkey hhex => (hnot key hex hkey hhex).elim⟩)

/-! ### Every event but new connections and new proofs -/

/-- Nothing is out of reach. -/
def everything : Reach :=
  ⟨fun _ => True, fun _ => True, fun _ => True, fun _ => True, fun _ => True⟩

lemma own_everything (c : ConnId) : Own everything c :=
  ⟨trivial, fun _ => trivial, fun _ _ => trivial⟩

/-- The connections an event may close. -/
def Closes (o : RelayCoreOptions) (e : Env) (s : RelayCore) : Event → ConnId → Prop
  | .receive c _ => fun d => d = c
  | .closed c => fun d => d = c
  | .sweep => SweepCloses o e s
  | .rechecked i answer => fun d => s.rechecks[i]? = some d ∧ Revokes s d answer
  | _ => fun _ => False

def stepReach (o : RelayCoreOptions) (e : Env) (s : RelayCore) (x : Event) : Reach :=
  { everything with
    closes := Closes o e s x
    auths := fun c => ∃ data, x = .receive c data }

/-- The events of connections and proofs that were there. -/
def Event.Plain : Event → Prop
  | .connect .. => False
  | .verified .. => False
  | _ => True

/-- **What an event brings about,** where it is not a connection or a proof that is new. -/
theorem effects_step {x : Event} (hx : Event.Plain x) :
    Effects o (stepReach o e s x) s (step o s (e, x)) := by
  cases x with
  | connect kind ip => exact hx.elim
  | verified i answer => exact hx.elim
  | admitIp ip => exact effects_admitIp ip
  | releaseAdmission ip => exact effects_ips _
  | receive c data =>
    have hcovers : Covers (stepReach o e s (.receive c data)) s c data :=
      ⟨⟨rfl, fun _ => trivial, fun _ _ => trivial⟩, ⟨data, rfl⟩, fun _ _ _ => trivial,
        fun _ _ _ _ => trivial, fun _ _ _ _ => trivial⟩
    rcases effects_receive (o := o) (e := e) hcovers with he | he
    · exact he
    · exact effects_of_creates he trivial fun _ => trivial
  | closed c =>
    change Effects o _ s (s.onTransportClosed c)
    cases hclosed : (s.conn c).closed with
    | true =>
      rw [onTransportClosed, hclosed]
      exact .refl
    | false => exact .single (.close rfl hclosed)
  | sweep =>
    exact effects_sweep (fun _ => trivial) (fun c ⟨data, h⟩ => nomatch h) fun c hc =>
      ⟨hc, fun _ => trivial, fun _ _ => trivial⟩
  | rechecked i answer =>
    unfold step
    dsimp only
    split
    · exact .refl
    next c hc =>
    have hquiet : Quiet s { s with rechecks := s.rechecks.eraseIdx i } :=
      ⟨fun _ => rfl, fun _ => rfl, fun _ => rfl, rfl, rfl, rfl, rfl, rfl, rfl, rfl, rfl, rfl⟩
    exact .trans (Effects.quiet hquiet) (effects_recheckDomainKey fun hrevokes =>
      ⟨⟨hc, hrevokes⟩, fun _ => trivial, fun _ _ => trivial⟩)

end RelayCore

end Tnp.Relay
