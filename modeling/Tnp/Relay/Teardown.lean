import Tnp.Relay.Ledger

/-!
What the removal of a circuit changes: two tables and the counts. Nothing else of any connection.
-/

namespace Tnp.Relay

open Tnp.Lib Tnp.Protocol

namespace RelayCore

variable {o : RelayCoreOptions} {e : Env} {s s' : RelayCore} {c d : ConnId} {r : CircuitRef}

/-! ### What the books do not see -/

lemma books_modifyConn {f : Connection → Connection}
    (hf : (f (s.conn c)).account = (s.conn c).account) : (s.modifyConn c f).books = s.books := by
  have haccount : ∀ d, ((s.modifyConn c f).conn d).account = (s.conn d).account := fun d =>
    conn_modifyConn_congr Connection.account hf
  simp only [books, haccount]
  rfl

lemma books_modifyCircuit {f : Circuit → Circuit}
    (hf : (f (s.circuit r)).deal = (s.circuit r).deal) : (s.modifyCircuit r f).books = s.books := by
  have hdeal : ∀ x, ((s.modifyCircuit r f).circuit x).deal = (s.circuit x).deal := fun x =>
    circuit_modifyCircuit_congr Circuit.deal hf
  simp only [books, hdeal]
  rfl

@[simp] lemma books_count (f : Counters → Counters) : (s.count f).books = s.books := rfl

@[simp] lemma books_send (f : Bytes) : (s.send c f).books = s.books := rfl

@[simp] lemma books_sendTo (f : Frame) : (s.sendTo c f).books = s.books := by
  unfold sendTo
  split <;> rfl

@[simp] lemma books_reject (id : UInt64) (code : ErrorCode) :
    (s.reject c id code).books = s.books := by
  unfold reject
  simp

@[simp] lemma books_notifyRemoved (notify : Notify) (reason : ℕ) :
    (s.notifyRemoved r notify reason).books = s.books := by
  unfold notifyRemoved
  dsimp only
  split <;> split <;> simp

/-! ### Removing a circuit -/

lemma conn_modifyConn_unlist (s : RelayCore) (d : ConnId) (id : UInt64) (r : CircuitRef)
    (c : ConnId) : ∃ t : CircuitTable,
      (s.modifyConn d fun k => { k with circuits := k.circuits.unlist id r }).conn c =
        { s.conn c with circuits := t } ∧
      t.maxCircuits = (s.conn c).circuits.maxCircuits ∧
      ∀ j, t.get j = if c = d ∧ j = id ∧ (s.conn c).circuits.get j = some r then none
        else (s.conn c).circuits.get j := by
  rcases eq_or_ne c d with rfl | hne
  · refine ⟨(s.conn c).circuits.unlist id r, Function.update_self _ _ _, by simp, fun j => ?_⟩
    rw [CircuitTable.get_unlist]
    simp only [true_and, eq_comm (a := id)]
  · exact ⟨(s.conn c).circuits, Function.update_of_ne hne _ _, rfl, fun j => by simp [hne]⟩

lemma ite_unlist_unlist {x : Option CircuitRef} (p q : Prop) [Decidable p] [Decidable q] :
    (if q ∧ (if p ∧ x = some r then none else x) = some r then none
      else if p ∧ x = some r then none else x) = if (p ∨ q) ∧ x = some r then none else x := by
  by_cases hx : x = some r
  · by_cases hp : p <;> by_cases hq : q <;> simp [hp, hq, hx]
  · simp [hx]

/-- Only the tables of the two ends change, and only where they have the circuit. -/
lemma conn_unlist (s : RelayCore) (r : CircuitRef) (c : ConnId) :
    ∃ t : CircuitTable, (s.unlist r).conn c = { s.conn c with circuits := t } ∧
      t.maxCircuits = (s.conn c).circuits.maxCircuits ∧
      ∀ id, t.get id = if s.books.Ends r c id ∧ (s.conn c).circuits.get id = some r then none
        else (s.conn c).circuits.get id := by
  obtain ⟨t, hconn, hmax, hget⟩ := conn_modifyConn_unlist s (s.circuit r).client
    (s.circuit r).clientId r c
  obtain ⟨t', hconn', hmax', hget'⟩ := conn_modifyConn_unlist
    (s.modifyConn (s.circuit r).client fun k =>
      { k with circuits := k.circuits.unlist (s.circuit r).clientId r })
    (s.circuit r).service (s.circuit r).serviceId r c
  rw [hconn] at hconn' hmax' hget'
  refine ⟨t', hconn', hmax'.trans hmax, fun id => ?_⟩
  have hends : s.books.Ends r c id ↔ c = (s.circuit r).client ∧ id = (s.circuit r).clientId ∨
      c = (s.circuit r).service ∧ id = (s.circuit r).serviceId := Iff.rfl
  rw [hget', hget]
  simp only [hends, ← and_assoc]
  exact ite_unlist_unlist _ _

lemma get_decrement {κ : Type*} [DecidableEq κ] (m : OrderedMap κ ℤ) (k j : κ) :
    (decrement m k).get j = if k = j then entry ((m.get j).getD 1 - 1) else m.get j := by
  unfold decrement entry
  dsimp only
  rcases eq_or_ne k j with rfl | hj
  · rw [if_pos rfl]
    split
    · exact OrderedMap.get_set_self _
    · exact OrderedMap.get_delete_self
  · rw [if_neg hj]
    split
    · exact OrderedMap.get_set_of_ne _ hj
    · exact OrderedMap.get_delete_of_ne hj

lemma conn_uncount (s : RelayCore) (r : CircuitRef) (c : ConnId) :
    (s.uncount r).conn c = if c = (s.circuit r).client then
      { s.conn c with
        pending := if !(s.circuit r).isOpen then (s.conn c).pending - 1 else (s.conn c).pending
        perService := decrement (s.conn c).perService (s.circuit r).service }
      else s.conn c := by
  unfold uncount
  dsimp only
  rw [conn_modifyConn]
  split
  · next h => rw [h]
  · rfl

lemma ipService_uncount (s : RelayCore) (r : CircuitRef) : (s.uncount r).ipService =
    decrement s.ipService (ipKey (s.conn (s.circuit r).client).ip (s.circuit r).name) :=
  congrArg (fun ip => decrement s.ipService (ipKey ip (s.circuit r).name))
    (conn_modifyConn_congr Connection.ip rfl)

/-- **What the removal of a circuit does to the books.** -/
theorem removes_unlist_uncount (s : RelayCore) (r : CircuitRef) :
    Removes r s.books ((s.unlist r).uncount r).books := by
  refine ⟨rfl, rfl, rfl, rfl, fun c => ?_, fun c => ?_, fun c => ?_, fun c id => ?_, fun c => ?_,
    fun c service => ?_, fun key => ?_⟩
  · obtain ⟨t, hunlist, -⟩ := conn_unlist s r c
    change (((s.unlist r).uncount r).conn c).kind = _
    rw [conn_uncount, hunlist]
    split <;> rfl
  · obtain ⟨t, hunlist, -⟩ := conn_unlist s r c
    change (((s.unlist r).uncount r).conn c).ip = _
    rw [conn_uncount, hunlist]
    split <;> rfl
  · obtain ⟨t, hunlist, hmax, -⟩ := conn_unlist s r c
    change (((s.unlist r).uncount r).conn c).circuits.maxCircuits = _
    rw [conn_uncount, hunlist]
    split <;> exact hmax
  · obtain ⟨t, hunlist, -, hget⟩ := conn_unlist s r c
    change (((s.unlist r).uncount r).conn c).circuits.get id = _
    rw [conn_uncount, hunlist]
    split <;> exact hget id
  · obtain ⟨t, hunlist, -⟩ := conn_unlist s r c
    have hpending : s.books.Pending c r ↔ c = (s.circuit r).client ∧ (s.circuit r).isOpen = false :=
      and_congr_left fun _ => eq_comm
    change (((s.unlist r).uncount r).conn c).pending = (s.conn c).pending - _
    rw [conn_uncount, hunlist]
    simp only [hpending]
    change (if c = (s.circuit r).client then _ else _ : Connection).pending = _
    split
    · next hclient =>
      cases hopen : (s.circuit r).isOpen <;> simp [hclient, unlist, modifyConn, hopen]
    · next hclient => simp [hclient]
  · obtain ⟨t, hunlist, -⟩ := conn_unlist s r c
    have hserves : s.books.Serves c service r ↔
        c = (s.circuit r).client ∧ (s.circuit r).service = service :=
      and_congr_left fun _ => eq_comm
    change (((s.unlist r).uncount r).conn c).perService.get service =
      if _ then entry (((s.conn c).perService.get service).getD 1 - 1)
      else (s.conn c).perService.get service
    rw [conn_uncount, hunlist]
    simp only [hserves]
    change (if c = (s.circuit r).client then _ else _ : Connection).perService.get service = _
    split
    · next hclient =>
      simp only [hclient, true_and]
      exact get_decrement _ _ _
    · next hclient => rw [if_neg fun h => hclient h.1]
  · obtain ⟨t, hunlist, -⟩ := conn_unlist s r (s.circuit r).client
    have hip : ((s.unlist r).conn (s.circuit r).client).ip = (s.conn (s.circuit r).client).ip := by
      rw [hunlist]
    change ((s.unlist r).uncount r).ipService.get key = _
    rw [ipService_uncount, get_decrement]
    change (if ipKey ((s.unlist r).conn (s.circuit r).client).ip (s.circuit r).name = key then _
      else _) = _
    rw [hip]
    rfl

/-! ### What is spared -/

/-- Nothing of a connection changes but its table and its counts of circuits. -/
structure Spares (s s' : RelayCore) : Prop where
  conn : ∀ c, ∃ circuits pending perService,
    s'.conn c = { s.conn c with circuits, pending, perService }
  connections : s'.connections = s.connections
  services : s'.services = s.services
  nextConn : s'.nextConn = s.nextConn
  nextCircuit : s'.nextCircuit = s.nextCircuit
  circuit : s'.circuit = s.circuit
  verifications : s'.verifications = s.verifications

lemma Spares.refl (s : RelayCore) : Spares s s :=
  ⟨fun _ => ⟨_, _, _, rfl⟩, rfl, rfl, rfl, rfl, rfl, rfl⟩

lemma Spares.trans {s s' s'' : RelayCore} (h : Spares s s') (h' : Spares s' s'') :
    Spares s s'' := by
  refine ⟨fun c => ?_, h'.connections.trans h.connections, h'.services.trans h.services,
    h'.nextConn.trans h.nextConn, h'.nextCircuit.trans h.nextCircuit, h'.circuit.trans h.circuit,
    h'.verifications.trans h.verifications⟩
  obtain ⟨_, _, _, hconn⟩ := h.conn c
  obtain ⟨t, p, q, hconn'⟩ := h'.conn c
  exact ⟨t, p, q, by rw [hconn', hconn]⟩

lemma spares_sendTo (f : Frame) : Spares s (s.sendTo c f) := by
  unfold sendTo
  split
  · exact .refl s
  · exact ⟨fun _ => ⟨_, _, _, rfl⟩, rfl, rfl, rfl, rfl, rfl, rfl⟩

lemma spares_unlist (r : CircuitRef) : Spares s (s.unlist r) := by
  refine ⟨fun c => ?_, rfl, rfl, rfl, rfl, rfl, rfl⟩
  obtain ⟨t, hconn, -⟩ := conn_unlist s r c
  exact ⟨t, _, _, hconn⟩

lemma spares_uncount (r : CircuitRef) : Spares s (s.uncount r) := by
  refine ⟨fun c => ?_, rfl, rfl, rfl, rfl, rfl, rfl⟩
  rw [conn_uncount]
  split
  · exact ⟨_, _, _, rfl⟩
  · exact ⟨_, _, _, rfl⟩

lemma spares_notifyRemoved (r : CircuitRef) (notify : Notify) (reason : ℕ) :
    Spares s (s.notifyRemoved r notify reason) := by
  unfold notifyRemoved
  dsimp only
  split
  · split
    · exact (spares_sendTo _).trans (spares_sendTo _)
    · exact spares_sendTo _
  · split
    · exact spares_sendTo _
    · exact .refl s

lemma spares_removeCircuit (r : CircuitRef) (notify : Notify) (reason : ℕ) :
    Spares s (s.removeCircuit r notify reason) := by
  unfold removeCircuit
  dsimp only
  split
  · exact .refl s
  · exact ((spares_unlist r).trans (spares_uncount r)).trans (spares_notifyRemoved r notify reason)

/-- Taking circuits down one after the other. -/
lemma spares_foldl {f : RelayCore → CircuitRef → RelayCore} (hf : ∀ s r, Spares s (f s r))
    (rs : List CircuitRef) (s : RelayCore) : Spares s (rs.foldl f s) := by
  induction rs generalizing s with
  | nil => exact .refl s
  | cons r rs ih => exact (hf s r).trans (ih (f s r))

end RelayCore

end Tnp.Relay
