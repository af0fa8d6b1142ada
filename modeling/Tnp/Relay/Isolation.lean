import Tnp.Relay.Accounting

/-!
What a connection sends reaches the far ends of its own circuits and nobody else, and leaves the
circuits of others as they are.
-/

namespace Tnp.Relay.RelayCore

open Relation Tnp.Lib Tnp.Lib.Run Tnp.Protocol Tnp.Crypto

variable {o : RelayCoreOptions} {reach : Reach} {e : Env} {s s' t : RelayCore} {c d : ConnId}
  {r x : CircuitRef} {raw : Bytes} {limits : RelayLimits} {live : Finset CircuitRef}

/-! ### What removals do to tables and transports -/

lemma get_removeCircuit (s : RelayCore) (r : CircuitRef) (notify : Notify) (reason : ℕ)
    (d : ConnId) (id : UInt64) :
    ((s.removeCircuit r notify reason).conn d).circuits.get id = (s.conn d).circuits.get id ∨
      (s.conn d).circuits.get id = some r ∧
        ((s.removeCircuit r notify reason).conn d).circuits.get id = none := by
  unfold removeCircuit
  dsimp only
  split
  · exact .inl rfl
  have hbooks : (((s.unlist r).uncount r).notifyRemoved r notify reason).books =
      ((s.unlist r).uncount r).books := books_notifyRemoved notify reason
  have hget := (removes_unlist_uncount s r).get d id
  rw [← hbooks] at hget
  split at hget
  · next h => exact .inr ⟨h.2, hget⟩
  · exact .inl hget

/-- The frames that tell the two ends of a circuit that it is gone. -/
def Farewell (s : RelayCore) (r : CircuitRef) (reason : ℕ) (y : Output) : Prop :=
  y = .send (s.circuit r).client (encodeFrame (destroyFrame (s.circuit r).clientId reason)) ∨
    y = .send (s.circuit r).service (encodeFrame (destroyFrame (s.circuit r).serviceId reason))

lemma out_sendTo (s : RelayCore) (d : ConnId) (f : Frame) :
    ∃ new, (s.sendTo d f).out = s.out ++ new ∧ ∀ y ∈ new, y = .send d (encodeFrame f) := by
  unfold sendTo
  split
  · exact ⟨[], by simp, by simp⟩
  · exact ⟨_, rfl, by simp⟩

lemma out_notifyRemoved (s : RelayCore) (r : CircuitRef) (notify : Notify) (reason : ℕ) :
    ∃ new, (s.notifyRemoved r notify reason).out = s.out ++ new ∧
      ∀ y ∈ new, Farewell s r reason y := by
  obtain ⟨toClient, hclient, hclient'⟩ := out_sendTo s (s.circuit r).client
    (destroyFrame (s.circuit r).clientId reason)
  unfold notifyRemoved
  dsimp only
  split
  · split
    · obtain ⟨toService, hservice, hservice'⟩ := out_sendTo
        (s.sendTo (s.circuit r).client (destroyFrame (s.circuit r).clientId reason))
        (s.circuit r).service (destroyFrame (s.circuit r).serviceId reason)
      refine ⟨toClient ++ toService, by rw [hservice, hclient, List.append_assoc], fun y hy => ?_⟩
      exact (List.mem_append.mp hy).imp (hclient' y) (hservice' y)
    · obtain ⟨toService, hservice, hservice'⟩ := out_sendTo s (s.circuit r).service
        (destroyFrame (s.circuit r).serviceId reason)
      exact ⟨toService, hservice, fun y hy => .inr (hservice' y hy)⟩
  · split
    · exact ⟨toClient, hclient, fun y hy => .inl (hclient' y hy)⟩
    · exact ⟨[], by simp, by simp⟩

lemma out_removeCircuit (s : RelayCore) (r : CircuitRef) (notify : Notify) (reason : ℕ) :
    ∃ new, (s.removeCircuit r notify reason).out = s.out ++ new ∧
      ∀ y ∈ new, Farewell s r reason y := by
  unfold removeCircuit
  dsimp only
  split
  · exact ⟨[], by simp, by simp⟩
  · exact out_notifyRemoved ((s.unlist r).uncount r) r notify reason

/-! ### The relation -/

/-- A live circuit that `c` is no end of. -/
structure Foreign (s : RelayCore) (c : ConnId) (r : CircuitRef) : Prop where
  live : Live s r
  client : (s.circuit r).client ≠ c
  service : (s.circuit r).service ≠ c

/-- What `c` may be the cause of: what it is told itself, and what the far end `d` of one of its
circuits is told, under the id by which `d` knows that circuit. -/
inductive Reply (s : RelayCore) (c : ConnId) (raw : Bytes) : Output → Prop
  | own {f : Bytes} : Reply s c raw (.send c f)
  | close {code : ℕ} {reason : String} : Reply s c raw (.close c code reason)
  | forwarded {r : CircuitRef} {d : ConnId} {own id : UInt64} :
    (s.conn c).circuits.get own = some r → (s.conn d).circuits.get id = some r → d ≠ c →
    Reply s c raw (.send d (setCircuitId raw id))
  | destroyed {r : CircuitRef} {d : ConnId} {own id : UInt64} {reason : ℕ} :
    (s.conn c).circuits.get own = some r → (s.conn d).circuits.get id = some r → d ≠ c →
    Reply s c raw (.send d (encodeFrame (destroyFrame id reason)))

structure Isolated (c : ConnId) (raw : Bytes) (s s' : RelayCore) : Prop where
  out : ∃ new, s'.out = s.out ++ new ∧ ∀ y ∈ new, Reply s c raw y
  ends : ∀ r, ∃ isOpen, (s'.circuit r).deal = { (s.circuit r).deal with isOpen }
  circuit : ∀ r, Foreign s c r → s'.circuit r = s.circuit r
  kept : ∀ r, Foreign s c r → ∀ d id, (s.conn d).circuits.get id = some r →
    (s'.conn d).circuits.get id = some r
  listed : ∀ d id r, (s'.conn d).circuits.get id = some r → (s.conn d).circuits.get id = some r

/-- What `c` may bring about without a new circuit. -/
def ownReach (s : RelayCore) (c : ConnId) (raw : Bytes) : Reach where
  closes d := d = c
  adds _ := False
  auths d := d = c
  touches r := ∃ id, (s.conn c).circuits.get id = some r
  tells := Reply s c raw

lemma Isolated.refl : Isolated c raw s s :=
  ⟨⟨[], by simp, by simp⟩, fun _ => ⟨_, rfl⟩, fun _ _ => rfl, fun _ _ _ _ => id, fun _ _ _ => id⟩

lemma not_foreign (h : Accounts limits s live) {id : UInt64}
    (hr : (s.conn c).circuits.get id = some r) : ¬ Foreign s c r := fun hf => by
  rcases h.ends c id r hr with ⟨hc, -⟩ | ⟨hc, -⟩
  · exact hf.client hc.symm
  · exact hf.service hc.symm

/-- Taking leave of the ends of one of its circuits is a reply to `c`. -/
lemma reply_of_farewell (h : Accounts limits s live) {id : UInt64} {reason : ℕ} {y : Output}
    (hr : (s.conn c).circuits.get id = some r) (hy : Farewell s r reason y) : Reply s c raw y := by
  have hlive : r ∈ live := (h.live_iff r).mpr ⟨c, id, hr⟩
  rcases hy with rfl | rfl
  · by_cases hc : (s.circuit r).client = c
    · exact hc ▸ .own
    · exact .destroyed hr (h.client r hlive) hc
  · by_cases hc : (s.circuit r).service = c
    · exact hc ▸ .own
    · exact .destroyed hr (h.service r hlive) hc

/-- What leaves tables and circuits alone. -/
lemma Isolated.mono (h : Isolated c raw s s') (hout : t.out = s'.out)
    (hcircuit : t.circuit = s'.circuit)
    (htables : ∀ d, (t.conn d).circuits = (s'.conn d).circuits) : Isolated c raw s t := by
  refine ⟨hout ▸ h.out, hcircuit ▸ h.ends, hcircuit ▸ h.circuit, fun r hr d id => ?_,
    fun d id r => ?_⟩
  · rw [htables]
    exact h.kept r hr d id
  · rw [htables]
    exact h.listed d id r

lemma Isolated.removeCircuit (hs : Accounts limits s live) {notify : Notify} {reason : ℕ}
    (h : Isolated c raw s s') (hr : ∃ id, (s.conn c).circuits.get id = some r) :
    Isolated c raw s (s'.removeCircuit r notify reason) := by
  obtain ⟨own, hown⟩ := hr
  have hcircuit : (s'.removeCircuit r notify reason).circuit = s'.circuit :=
    (spares_removeCircuit r notify reason).circuit
  refine ⟨?_, hcircuit ▸ h.ends, hcircuit ▸ h.circuit, fun x hx d id hget => ?_,
    fun d id x hget => ?_⟩
  · obtain ⟨new, hout, hnew⟩ := h.out
    obtain ⟨more, hout', hmore⟩ := out_removeCircuit s' r notify reason
    refine ⟨new ++ more, by rw [hout', hout, List.append_assoc], fun y hy => ?_⟩
    rcases List.mem_append.mp hy with hy | hy
    · exact hnew y hy
    · have hfarewell := hmore y hy
      obtain ⟨isOpen, hdeal⟩ := h.ends r
      have hclient : (s'.circuit r).client = (s.circuit r).client := congrArg Deal.client hdeal
      have hclientId : (s'.circuit r).clientId = (s.circuit r).clientId :=
        congrArg Deal.clientId hdeal
      have hservice : (s'.circuit r).service = (s.circuit r).service :=
        congrArg Deal.service hdeal
      have hserviceId : (s'.circuit r).serviceId = (s.circuit r).serviceId :=
        congrArg Deal.serviceId hdeal
      rw [Farewell, hclient, hclientId, hservice, hserviceId] at hfarewell
      exact reply_of_farewell hs hown hfarewell
  · have hlisted := h.kept x hx d id hget
    rcases get_removeCircuit s' r notify reason d id with hsame | ⟨hgone, -⟩
    · rw [hsame, hlisted]
    · obtain rfl := Option.some.inj (hlisted.symm.trans hgone)
      exact absurd hx (not_foreign hs hown)
  · rcases get_removeCircuit s' r notify reason d id with hsame | ⟨-, hnone⟩
    · exact h.listed d id x (hsame ▸ hget)
    · rw [hnone] at hget
      simp at hget

lemma Isolated.removeCircuits (hs : Accounts limits s live)
    {notify : RelayCore → CircuitRef → Notify} {reason : ℕ} {rs : List CircuitRef}
    (h : Isolated c raw s s') (hrs : ∀ r ∈ rs, ∃ id, (s.conn c).circuits.get id = some r) :
    Isolated c raw s (rs.foldl (fun s r => s.removeCircuit r (notify s r) reason) s') := by
  induction rs generalizing s' with
  | nil => exact h
  | cons r rs ih =>
    exact ih (h.removeCircuit hs (hrs r List.mem_cons_self)) fun x hx =>
      hrs x (List.mem_cons_of_mem _ hx)

lemma Isolated.detach (hs : Accounts limits s live) (h : Isolated c raw s s') :
    Isolated c raw s (s'.detach c) := by
  have htable : ∀ d id, ((s'.detach c).conn d).circuits.get id =
      if d = c then none else (s'.conn d).circuits.get id := fun d id => by
    rw [conn_detach]
    split <;> rfl
  refine ⟨h.out, h.ends, h.circuit, fun r hr d id hget => ?_, fun d id r hget => ?_⟩
  · rw [htable, if_neg]
    · exact h.kept r hr d id hget
    · rintro rfl
      exact not_foreign hs hget hr
  · rw [htable] at hget
    split at hget
    · simp at hget
    · exact h.listed d id r hget

lemma Isolated.onTransportClosed (hs : Accounts limits s live) (h : Isolated c raw s s') :
    Isolated c raw s (s'.onTransportClosed c) := by
  unfold RelayCore.onTransportClosed
  split
  · exact h
  · refine (h.detach hs).removeCircuits hs fun r hr => ?_
    obtain ⟨id, hget⟩ := OrderedMap.mem_values_iff.mp hr
    exact ⟨id, h.listed c id r hget⟩

/-- **No effect within the reach of `c` goes beyond its own circuits.** -/
lemma Isolated.effect (hs : Accounts limits s live) (h : Isolated c raw s s')
    (he : Effect o (ownReach s c raw) s' t) : Isolated c raw s t := by
  cases he with
  | quiet hq =>
    exact h.mono hq.out hq.circuit fun d => congrArg Account.circuits (hq.account d)
  | say hy =>
    obtain ⟨new, hout, hnew⟩ := h.out
    refine ⟨⟨new ++ [_], by rw [hout, List.append_assoc], fun y hy' => ?_⟩, h.ends, h.circuit,
      h.kept, h.listed⟩
    rcases List.mem_append.mp hy' with hy' | hy'
    · exact hnew y hy'
    · exact List.mem_singleton.mp hy' ▸ hy
  | @touch r f hr hdeal =>
    obtain ⟨own, hown⟩ := hr
    refine ⟨h.out, fun x => ?_, fun x hx => ?_, h.kept, h.listed⟩
    · obtain ⟨isOpen, hends⟩ := h.ends x
      exact ⟨isOpen, (circuit_modifyCircuit_congr Circuit.deal hdeal).trans hends⟩
    · rw [circuit_modifyCircuit, if_neg]
      · exact h.circuit x hx
      · rintro rfl
        exact not_foreign hs hown hx
  | @opens r d id hr hlisted hopen =>
    obtain ⟨own, hown⟩ := hr
    have htable : ∀ d, ((s'.openCircuit r).conn d).circuits = (s'.conn d).circuits := fun d =>
      (opens_openCircuit s' r).circuits d
    have hcircuit : ∀ x, (s'.openCircuit r).circuit x =
        if x = r then { s'.circuit r with isOpen := true } else s'.circuit x := fun x =>
      circuit_modifyCircuit (s := s') fun k => { k with isOpen := true }
    refine ⟨h.out, fun x => ?_, fun x hx => ?_, fun x hx d id hget => ?_, fun d id x hget => ?_⟩
    · obtain ⟨isOpen, hends⟩ := h.ends x
      rw [hcircuit]
      split
      · next hx =>
        subst hx
        exact ⟨true, congrArg (fun k : Deal => { k with isOpen := true }) hends⟩
      · exact ⟨isOpen, hends⟩
    · rw [hcircuit, if_neg]
      · exact h.circuit x hx
      · rintro rfl
        exact not_foreign hs hown hx
    · rw [htable]
      exact h.kept x hx d id hget
    · exact h.listed d id x (htable d ▸ hget)
  | remove hr => exact h.removeCircuit hs hr
  | add hc hadd => exact hc.elim
  | verifies hc hclosed hkind hstate =>
    exact h.mono rfl rfl fun d => conn_modifyConn_congr (s := s')
      (f := fun conn => { conn with state := some .verifying }) Connection.circuits rfl
  | @close d hc hclosed =>
    obtain rfl : d = c := hc
    exact h.onTransportClosed hs

lemma Isolated.effects (hs : Accounts limits s live) (h : Effects o (ownReach s c raw) s s') :
    Isolated c raw s s' := by
  induction h with
  | refl => exact .refl
  | tail _ he ih => exact ih.effect hs he

/-! ### A new circuit -/

def sampleText (first : Char) (zeros : ℕ) (padding : String) : Value :=
  .string (String.ofList (first :: List.replicate zeros 'A') ++ padding)

/-- The AUTH of a node of `a.ox`, whose domain key is 04 00 00 ... -/
def sampleAuth : Value :=
  .object [
    ("name", .string "a.ox"),
    ("chain", .array [.object [
      ("issuer", sampleText 'B' 42 "="), ("subject", sampleText 'C' 42 "="),
      ("purposes", .array [.string "service-node"]), ("notBefore", .number 0),
      ("notAfter", .number 9), ("serial", .number 1), ("scope", .string "a.ox"),
      ("signature", sampleText 'A' 85 "==")]]),
    ("signature", sampleText 'A' 85 "==")]

/-- A relay to which every text is that AUTH and every signature is valid. -/
def sampleOptions : RelayCoreOptions where
  endpoint := units "wss://relay.example"
  publicKey := ⟨List.replicate 32 0, length_zeros⟩
  signRelayIdentity _ := none
  verify _ _ _ := true
  json _ := some sampleAuth
  limits := {}

end Tnp.Relay.RelayCore
