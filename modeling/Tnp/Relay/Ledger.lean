import Tnp.Lib.Tally
import Tnp.Relay.Core

/-!
The books of the relay: its tables and counts, and the set of circuits they are about.

What a circuit does to the books is one of three moves: it is added, it opens, it is removed.
Each keeps the books balanced, whatever else a call does.
-/

namespace Tnp.Relay

open Tnp.Lib Tnp.Protocol

/-! ### What the books see -/

structure Account where
  kind : Kind
  ip : String
  circuits : CircuitTable
  pending : ℤ
  perService : OrderedMap ConnId ℤ

structure Deal where
  client : ConnId
  clientId : UInt64
  service : ConnId
  serviceId : UInt64
  isOpen : Bool
  name : String

structure Books where
  circuitCount : ℤ
  ipService : OrderedMap String ℤ
  nextConn : ConnId
  nextCircuit : CircuitRef
  account : ConnId → Account
  deal : CircuitRef → Deal

def Connection.account (c : Connection) : Account :=
  ⟨c.kind, c.ip, c.circuits, c.pending, c.perService⟩

def Circuit.deal (k : Circuit) : Deal :=
  ⟨k.client, k.clientId, k.service, k.serviceId, k.isOpen, k.name⟩

def RelayCore.books (s : RelayCore) : Books where
  circuitCount := s.circuitCount
  ipService := s.ipService
  nextConn := s.nextConn
  nextCircuit := s.nextCircuit
  account c := (s.conn c).account
  deal r := (s.circuit r).deal

namespace Books

variable (limits : RelayLimits) (b : Books)

/-- The key of the per-address count of a circuit. -/
def key (r : CircuitRef) : String := ipKey (b.account (b.deal r).client).ip (b.deal r).name

/-- `c` knows the circuit as `id`. -/
def Ends (r : CircuitRef) (c : ConnId) (id : UInt64) : Prop :=
  c = (b.deal r).client ∧ id = (b.deal r).clientId ∨
    c = (b.deal r).service ∧ id = (b.deal r).serviceId

instance (r : CircuitRef) (c : ConnId) (id : UInt64) : Decidable (b.Ends r c id) :=
  inferInstanceAs (Decidable (_ ∨ _))

def Pending (c : ConnId) (r : CircuitRef) : Prop :=
  (b.deal r).client = c ∧ (b.deal r).isOpen = false

instance (c : ConnId) : DecidablePred (b.Pending c) := fun _ => inferInstanceAs (Decidable (_ ∧ _))

def Serves (c service : ConnId) (r : CircuitRef) : Prop :=
  (b.deal r).client = c ∧ (b.deal r).service = service

instance (c service : ConnId) : DecidablePred (b.Serves c service) :=
  fun _ => inferInstanceAs (Decidable (_ ∧ _))

end Books

open Books in
/-- The books balance for the circuits in `live`. While the circuits of a closed connection are
taken down one by one, its table is empty already: that connection is `drained`. -/
structure Balanced (limits : RelayLimits) (live : Finset CircuitRef) (drained : Option ConnId)
    (b : Books) : Prop where
  allocated : ∀ r ∈ live, r < b.nextCircuit ∧ (b.deal r).client < b.nextConn ∧
    (b.deal r).service < b.nextConn
  kinds : ∀ r ∈ live, (b.account (b.deal r).client).kind = .client ∧
    (b.account (b.deal r).service).kind = .service
  named : ∀ r ∈ live, isCanonicalName (b.deal r).name = true
  table : ∀ c id r, (b.account c).circuits.get id = some r ↔
    drained ≠ some c ∧ r ∈ live ∧ b.Ends r c id
  sizes : ∀ c < b.nextConn, (b.account c).circuits.maxCircuits =
    match (b.account c).kind with
    | .client => limits.maxCircuitsPerClient
    | .service => limits.maxCircuitsPerService
  count : b.circuitCount = live.card
  pending : ∀ c, (b.account c).pending = tally (b.Pending c) live
  perService : ∀ c service, (b.account c).perService.get service =
    entry (tally (b.Serves c service) live)
  perIp : ∀ key, b.ipService.get key = entry (tally (fun r => b.key r = key) live)
  count_le : live.card ≤ limits.maxCircuits
  pending_le : ∀ c, tally (b.Pending c) live ≤ limits.maxPendingPerClient
  perService_le : ∀ c service, tally (b.Serves c service) live ≤
    limits.maxCircuitsPerClientPerService
  perIp_le : ∀ key, tally (fun r => b.key r = key) live ≤ limits.maxCircuitsPerIpPerService

variable {limits : RelayLimits} {live : Finset CircuitRef} {drained : Option ConnId} {b b' : Books}

namespace Books

lemma ends_congr (hdeal : b'.deal = b.deal) : b'.Ends = b.Ends := by
  funext r c id
  rw [Ends, Ends, hdeal]

lemma pending_congr (hdeal : b'.deal = b.deal) (c : ConnId) : b'.Pending c = b.Pending c := by
  funext r
  rw [Pending, Pending, hdeal]

lemma serves_congr (hdeal : b'.deal = b.deal) (c service : ConnId) :
    b'.Serves c service = b.Serves c service := by
  funext r
  rw [Serves, Serves, hdeal]

lemma key_congr (hdeal : b'.deal = b.deal) (hip : ∀ c, (b'.account c).ip = (b.account c).ip) :
    b'.key = b.key := by
  funext r
  rw [key, key, hdeal, hip]

end Books

lemma Balanced.new : Balanced limits ∅ none RelayCore.new.books := by
  refine ⟨by simp, by simp, by simp, fun c id r => ?_, fun c hc => absurd hc (Nat.not_lt_zero _),
    rfl, fun c => rfl, fun c service => rfl, fun key => rfl, by simp, by simp, by simp, by simp⟩
  simp [RelayCore.books, RelayCore.new, Connection.account, Connection.absent, CircuitTable.get,
    OrderedMap.get]

/-! ### Removing a circuit -/

/-- What the removal of `r` does to the books. -/
structure Removes (r : CircuitRef) (b b' : Books) : Prop where
  count : b'.circuitCount = b.circuitCount - 1
  nextConn : b'.nextConn = b.nextConn
  nextCircuit : b'.nextCircuit = b.nextCircuit
  deal : b'.deal = b.deal
  kind : ∀ c, (b'.account c).kind = (b.account c).kind
  ip : ∀ c, (b'.account c).ip = (b.account c).ip
  maxCircuits : ∀ c, (b'.account c).circuits.maxCircuits = (b.account c).circuits.maxCircuits
  get : ∀ c id, (b'.account c).circuits.get id =
    if b.Ends r c id ∧ (b.account c).circuits.get id = some r then none
    else (b.account c).circuits.get id
  pending : ∀ c, (b'.account c).pending =
    (b.account c).pending - if b.Pending c r then 1 else 0
  perService : ∀ c service, (b'.account c).perService.get service =
    if b.Serves c service r then entry (((b.account c).perService.get service).getD 1 - 1)
    else (b.account c).perService.get service
  perIp : ∀ key, b'.ipService.get key =
    if b.key r = key then entry ((b.ipService.get key).getD 1 - 1) else b.ipService.get key

/-- **Removing a circuit keeps the books balanced.** -/
theorem Balanced.remove {r : CircuitRef} (h : Balanced limits live drained b) (hr : r ∈ live)
    (hb : Removes r b b') : Balanced limits (live.erase r) drained b' := by
  have hkey := Books.key_congr hb.deal hb.ip
  have hends := Books.ends_congr hb.deal
  have hpending := Books.pending_congr hb.deal
  have hserves := Books.serves_congr hb.deal
  have hmem : ∀ x ∈ live.erase r, x ∈ live := fun x hx => Finset.mem_of_mem_erase hx
  refine ⟨?_, ?_, ?_, ?_, ?_, ?_, ?_, ?_, ?_, ?_, ?_, ?_, ?_⟩
  · intro x hx
    rw [hb.deal, hb.nextConn, hb.nextCircuit]
    exact h.allocated x (hmem x hx)
  · intro x hx
    rw [hb.deal, hb.kind, hb.kind]
    exact h.kinds x (hmem x hx)
  · intro x hx
    rw [hb.deal]
    exact h.named x (hmem x hx)
  · intro c id x
    rw [hb.get, hends, Finset.mem_erase]
    have htable := h.table c id
    split
    · next hgone =>
      have : x ∈ live ∧ b.Ends x c id → x = r := by
        rintro ⟨hx, hends⟩
        have hd := ((htable r).mp hgone.2).1
        have := (htable x).mpr ⟨hd, hx, hends⟩
        exact Option.some.inj (this.symm.trans hgone.2)
      simp only [reduceCtorEq, false_iff]
      tauto
    · next hkept =>
      constructor
      · intro hx
        obtain ⟨hd, hlive, hends⟩ := (htable x).mp hx
        refine ⟨hd, ⟨?_, hlive⟩, hends⟩
        rintro rfl
        exact hkept ⟨hends, hx⟩
      · rintro ⟨hd, ⟨-, hlive⟩, hends⟩
        exact (htable x).mpr ⟨hd, hlive, hends⟩
  · intro c hc
    rw [hb.maxCircuits, hb.kind]
    exact h.sizes c (hb.nextConn ▸ hc)
  · have hcard := Finset.card_erase_add_one hr
    rw [hb.count, h.count]
    omega
  · intro c
    have htally := tally_erase (p := b.Pending c) hr
    simp only [hb.pending, h.pending, hpending]
    split at htally <;> simp_all
  · intro c service
    have htally := tally_erase (p := b.Serves c service) hr
    simp only [hb.perService, h.perService, hserves]
    split
    · next hs =>
      rw [if_pos hs] at htally
      rw [entry_getD_one (by omega), htally]
      congr 1
      push_cast
      ring
    · next hs =>
      rw [if_neg hs] at htally
      rw [htally, add_zero]
  · intro key
    have htally := tally_erase (p := fun x => b.key x = key) hr
    simp only [hb.perIp, h.perIp, hkey]
    split
    · next hs =>
      rw [if_pos hs] at htally
      rw [entry_getD_one (by omega), htally]
      congr 1
      push_cast
      ring
    · next hs =>
      rw [if_neg hs] at htally
      rw [htally, add_zero]
  · exact (Finset.card_le_card (Finset.erase_subset r live)).trans h.count_le
  · intro c
    simp only [hpending]
    exact tally_erase_le.trans (h.pending_le c)
  · intro c service
    simp only [hserves]
    exact tally_erase_le.trans (h.perService_le c service)
  · intro key
    simp only [hkey]
    exact tally_erase_le.trans (h.perIp_le key)

/-! ### Adding a circuit -/

/-- What a new circuit does to the books. -/
structure Adds (k : Deal) (b b' : Books) : Prop where
  count : b'.circuitCount = b.circuitCount + 1
  nextConn : b'.nextConn = b.nextConn
  nextCircuit : b'.nextCircuit = b.nextCircuit + 1
  deal : b'.deal = Function.update b.deal b.nextCircuit k
  kind : ∀ c, (b'.account c).kind = (b.account c).kind
  ip : ∀ c, (b'.account c).ip = (b.account c).ip
  maxCircuits : ∀ c, (b'.account c).circuits.maxCircuits = (b.account c).circuits.maxCircuits
  get : ∀ c id, (b'.account c).circuits.get id =
    if c = k.client ∧ id = k.clientId ∨ c = k.service ∧ id = k.serviceId then some b.nextCircuit
    else (b.account c).circuits.get id
  pending : ∀ c, (b'.account c).pending = (b.account c).pending + if k.client = c then 1 else 0
  perService : ∀ c service, (b'.account c).perService.get service =
    if k.client = c ∧ k.service = service then
      some (((b.account c).perService.get service).getD 0 + 1)
    else (b.account c).perService.get service
  perIp : ∀ key, b'.ipService.get key =
    if ipKey (b.account k.client).ip k.name = key then some ((b.ipService.get key).getD 0 + 1)
    else b.ipService.get key

/-- The circuit may be added: its ids are free, and no limit is reached. -/
structure Room (limits : RelayLimits) (b : Books) (k : Deal) : Prop where
  allocated : k.client < b.nextConn ∧ k.service < b.nextConn
  kinds : (b.account k.client).kind = .client ∧ (b.account k.service).kind = .service
  named : isCanonicalName k.name = true
  isOpen : k.isOpen = false
  clientId : (b.account k.client).circuits.get k.clientId = none
  serviceId : (b.account k.service).circuits.get k.serviceId = none
  count : b.circuitCount < limits.maxCircuits
  pending : (b.account k.client).pending < limits.maxPendingPerClient
  perService : ((b.account k.client).perService.get k.service).getD 0 <
    limits.maxCircuitsPerClientPerService
  perIp : (b.ipService.get (ipKey (b.account k.client).ip k.name)).getD 0 <
    limits.maxCircuitsPerIpPerService

lemma some_add_one (n : ℕ) : (some ((n : ℤ) + 1)) = entry ((n + 1 : ℕ) : ℤ) := by
  rw [entry, if_pos (by omega)]
  push_cast
  rfl

/-- **Adding a circuit there is room for keeps the books balanced.** -/
theorem Balanced.add {k : Deal} (h : Balanced limits live none b) (hk : Room limits b k)
    (hb : Adds k b b') : Balanced limits (insert b.nextCircuit live) none b' := by
  have hnew : b.nextCircuit ∉ live := fun hmem => absurd (h.allocated _ hmem).1 (lt_irrefl _)
  have hold : ∀ x ∈ live, b'.deal x = b.deal x := fun x hx => by
    rw [hb.deal, Function.update_of_ne]
    rintro rfl
    exact hnew hx
  have hself : b'.deal b.nextCircuit = k := by rw [hb.deal, Function.update_self]
  have hends : ∀ x ∈ live, ∀ c id, b'.Ends x c id ↔ b.Ends x c id := fun x hx c id => by
    rw [Books.Ends, Books.Ends, hold x hx]
  have hkey : ∀ x ∈ live, b'.key x = b.key x := fun x hx => by
    rw [Books.key, Books.key, hold x hx, hb.ip]
  have hpending : ∀ c, tally (b'.Pending c) live = tally (b.Pending c) live := fun c =>
    tally_congr fun x hx => by rw [Books.Pending, Books.Pending, hold x hx]
  have hserves : ∀ c service, tally (b'.Serves c service) live = tally (b.Serves c service) live :=
    fun c service => tally_congr fun x hx => by rw [Books.Serves, Books.Serves, hold x hx]
  have hperIp : ∀ key, tally (fun x => b'.key x = key) live = tally (fun x => b.key x = key) live :=
    fun key => tally_congr fun x hx => by rw [hkey x hx]
  have hpendingSelf : ∀ c, b'.Pending c b.nextCircuit ↔ k.client = c := fun c => by
    rw [Books.Pending, hself, hk.isOpen]
    simp
  have hservesSelf : ∀ c service, b'.Serves c service b.nextCircuit ↔
      k.client = c ∧ k.service = service := fun c service => by rw [Books.Serves, hself]
  have hkeySelf : b'.key b.nextCircuit = ipKey (b.account k.client).ip k.name := by
    rw [Books.key, hself, hb.ip]
  refine ⟨?_, ?_, ?_, ?_, ?_, ?_, ?_, ?_, ?_, ?_, ?_, ?_, ?_⟩
  · intro x hx
    rw [hb.nextConn, hb.nextCircuit]
    rcases Finset.mem_insert.mp hx with rfl | hx
    · rw [hself]
      exact ⟨Nat.lt_succ_self _, hk.allocated⟩
    · rw [hold x hx]
      exact ⟨(h.allocated x hx).1.trans (Nat.lt_succ_self _), (h.allocated x hx).2⟩
  · intro x hx
    rw [hb.kind, hb.kind]
    rcases Finset.mem_insert.mp hx with rfl | hx
    · rw [hself]
      exact hk.kinds
    · rw [hold x hx]
      exact h.kinds x hx
  · intro x hx
    rcases Finset.mem_insert.mp hx with rfl | hx
    · rw [hself]
      exact hk.named
    · rw [hold x hx]
      exact h.named x hx
  · intro c id x
    rw [hb.get, Finset.mem_insert]
    split
    · next hnewEnds =>
      -- the id was free, so no other circuit has it here
      have hfree : (b.account c).circuits.get id = none := by
        rcases hnewEnds with ⟨rfl, rfl⟩ | ⟨rfl, rfl⟩
        · exact hk.clientId
        · exact hk.serviceId
      have hnone : ∀ y ∈ live, ¬ b.Ends y c id := fun y hy hy' => by
        rw [(h.table c id y).mpr ⟨by simp, hy, hy'⟩] at hfree
        simp at hfree
      constructor
      · intro hx
        obtain rfl := Option.some.inj hx
        refine ⟨by simp, Or.inl rfl, ?_⟩
        rwa [Books.Ends, hself]
      · rintro ⟨-, rfl | hx, hx'⟩
        · rfl
        · exact absurd ((hends x hx c id).mp hx') (hnone x hx)
    · next hother =>
      rw [h.table]
      constructor
      · rintro ⟨hd, hx, hx'⟩
        exact ⟨hd, Or.inr hx, (hends x hx c id).mpr hx'⟩
      · rintro ⟨hd, rfl | hx, hx'⟩
        · rw [Books.Ends, hself] at hx'
          exact absurd hx' hother
        · exact ⟨hd, hx, (hends x hx c id).mp hx'⟩
  · intro c hc
    rw [hb.maxCircuits, hb.kind]
    exact h.sizes c (hb.nextConn ▸ hc)
  · rw [hb.count, h.count, Finset.card_insert_of_notMem hnew]
    push_cast
    rfl
  · intro c
    rw [tally_insert hnew, hpending, hb.pending, h.pending]
    simp only [hpendingSelf]
    split <;> push_cast <;> rfl
  · intro c service
    rw [tally_insert hnew, hserves, hb.perService, h.perService]
    simp only [hservesSelf]
    split
    · rw [entry_getD_zero, some_add_one]
    · rfl
  · intro key
    rw [tally_insert hnew, hperIp, hb.perIp, h.perIp]
    simp only [hkeySelf]
    split
    · rw [entry_getD_zero, some_add_one]
    · rfl
  · have hcount := hk.count
    rw [h.count] at hcount
    rw [Finset.card_insert_of_notMem hnew]
    omega
  · intro c
    rw [tally_insert hnew, hpending]
    simp only [hpendingSelf]
    split
    · next hc =>
      have hroom := hk.pending
      rw [hc, h.pending] at hroom
      omega
    · exact h.pending_le c
  · intro c service
    rw [tally_insert hnew, hserves]
    simp only [hservesSelf]
    split
    · next hc =>
      have hroom := hk.perService
      rw [hc.1, hc.2, h.perService, entry_getD_zero] at hroom
      omega
    · exact h.perService_le c service
  · intro key
    rw [tally_insert hnew, hperIp]
    simp only [hkeySelf]
    split
    · next hc =>
      have hroom := hk.perIp
      rw [hc, h.perIp, entry_getD_zero] at hroom
      omega
    · exact h.perIp_le key

/-! ### Opening a circuit -/

/-- What the answer of the service node does to the books. -/
structure Opens (r : CircuitRef) (b b' : Books) : Prop where
  count : b'.circuitCount = b.circuitCount
  nextConn : b'.nextConn = b.nextConn
  nextCircuit : b'.nextCircuit = b.nextCircuit
  ipService : b'.ipService = b.ipService
  deal : b'.deal = Function.update b.deal r { b.deal r with isOpen := true }
  kind : ∀ c, (b'.account c).kind = (b.account c).kind
  ip : ∀ c, (b'.account c).ip = (b.account c).ip
  circuits : ∀ c, (b'.account c).circuits = (b.account c).circuits
  pending : ∀ c, (b'.account c).pending =
    (b.account c).pending - if (b.deal r).client = c then 1 else 0
  perService : ∀ c, (b'.account c).perService = (b.account c).perService

/-- **Opening a circuit that was pending keeps the books balanced.** -/
theorem Balanced.opens {r : CircuitRef} (h : Balanced limits live drained b) (hr : r ∈ live)
    (hopen : (b.deal r).isOpen = false) (hb : Opens r b b') :
    Balanced limits live drained b' := by
  have hdeal : ∀ x, (b'.deal x).client = (b.deal x).client ∧
      (b'.deal x).clientId = (b.deal x).clientId ∧ (b'.deal x).service = (b.deal x).service ∧
      (b'.deal x).serviceId = (b.deal x).serviceId ∧ (b'.deal x).name = (b.deal x).name := by
    intro x
    rw [hb.deal]
    rcases eq_or_ne x r with rfl | hne
    · simp
    · simp [hne]
  have hends : b'.Ends = b.Ends := by
    funext x c id
    obtain ⟨h1, h2, h3, h4, -⟩ := hdeal x
    rw [Books.Ends, Books.Ends, h1, h2, h3, h4]
  have hkey : b'.key = b.key := by
    funext x
    obtain ⟨h1, -, -, -, h5⟩ := hdeal x
    rw [Books.key, Books.key, h1, h5, hb.ip]
  have hserves : ∀ c service, b'.Serves c service = b.Serves c service := fun c service => by
    funext x
    obtain ⟨h1, -, h3, -⟩ := hdeal x
    rw [Books.Serves, Books.Serves, h1, h3]
  -- of the pending circuits only `r` is gone
  have hpending : ∀ c, tally (b.Pending c) live =
      tally (b'.Pending c) live + if (b.deal r).client = c then 1 else 0 := fun c => by
    have hrest : tally (b.Pending c) (live.erase r) = tally (b'.Pending c) (live.erase r) :=
      tally_congr fun x hx => by
        rw [Books.Pending, Books.Pending, hb.deal,
          Function.update_of_ne (Finset.ne_of_mem_erase hx)]
    have hself : b.Pending c r ↔ (b.deal r).client = c := by
      rw [Books.Pending, hopen]
      simp
    have hself' : ¬ b'.Pending c r := by
      rw [Books.Pending, hb.deal, Function.update_self]
      simp
    rw [tally_erase (p := b.Pending c) hr, tally_erase (p := b'.Pending c) hr, hrest,
      if_neg hself']
    simp only [hself, add_zero]
  refine ⟨fun x hx => ?_, fun x hx => ?_, fun x hx => ?_, fun c id x => ?_, fun c hc => ?_, ?_,
    fun c => ?_, fun c service => ?_, fun key => ?_, h.count_le, fun c => ?_, fun c service => ?_,
    fun key => ?_⟩
  · rw [(hdeal x).1, (hdeal x).2.2.1, hb.nextConn, hb.nextCircuit]
    exact h.allocated x hx
  · rw [(hdeal x).1, (hdeal x).2.2.1, hb.kind, hb.kind]
    exact h.kinds x hx
  · rw [(hdeal x).2.2.2.2]
    exact h.named x hx
  · rw [hb.circuits, hends]
    exact h.table c id x
  · rw [hb.circuits, hb.kind]
    exact h.sizes c (hb.nextConn ▸ hc)
  · rw [hb.count, h.count]
  · have htally := hpending c
    rw [hb.pending, h.pending, htally]
    split <;> push_cast <;> ring
  · rw [hb.perService, h.perService]
    simp only [hserves]
  · rw [hb.ipService, h.perIp]
    simp only [hkey]
  · exact (Nat.le_add_right _ _).trans ((hpending c).symm.trans_le (h.pending_le c))
  · simp only [hserves]
    exact h.perService_le c service
  · simp only [hkey]
    exact h.perIp_le key

/-! ### Connections come and go -/

/-- A connection that holds nothing yet is added. -/
structure Connects (c : ConnId) (account : Account) (b b' : Books) : Prop where
  count : b'.circuitCount = b.circuitCount
  ipService : b'.ipService = b.ipService
  deal : b'.deal = b.deal
  nextCircuit : b'.nextCircuit = b.nextCircuit
  isNext : c = b.nextConn
  nextConn : b'.nextConn = c + 1
  account : b'.account = Function.update b.account c account

/-- The account of a new connection. -/
def Account.fresh (limits : RelayLimits) (kind : Kind) (ip : String) : Account where
  kind := kind
  ip := ip
  circuits := { maxCircuits := match kind with
    | .client => limits.maxCircuitsPerClient
    | .service => limits.maxCircuitsPerService }
  pending := 0
  perService := {}

theorem Balanced.connect {c : ConnId} {kind : Kind} {ip : String}
    (h : Balanced limits live drained b) (hb : Connects c (.fresh limits kind ip) b b') :
    Balanced limits live drained b' := by
  have hne : ∀ x ∈ live, (b.deal x).client ≠ c ∧ (b.deal x).service ≠ c := fun x hx =>
    ⟨(hb.isNext ▸ (h.allocated x hx).2.1).ne, (hb.isNext ▸ (h.allocated x hx).2.2).ne⟩
  have hother : ∀ d, d ≠ c → b'.account d = b.account d := fun d hd => by
    rw [hb.account, Function.update_of_ne hd]
  have hself : b'.account c = .fresh limits kind ip := by rw [hb.account, Function.update_self]
  have hends := Books.ends_congr hb.deal
  have hpending := Books.pending_congr hb.deal
  have hserves := Books.serves_congr hb.deal
  have hkey : ∀ key, tally (fun x => b'.key x = key) live = tally (fun x => b.key x = key) live :=
    fun key => tally_congr fun x hx => by
      rw [Books.key, Books.key, hb.deal, hother _ (hne x hx).1]
  refine ⟨fun x hx => ?_, fun x hx => ?_, fun x hx => ?_, fun d id x => ?_, fun d hd => ?_, ?_,
    fun d => ?_, fun d service => ?_, fun key => ?_, h.count_le, fun d => ?_, fun d service => ?_,
    fun key => ?_⟩
  · obtain ⟨hr, hclient, hservice⟩ := h.allocated x hx
    rw [hb.deal, hb.nextCircuit, hb.nextConn, hb.isNext]
    exact ⟨hr, hclient.trans (Nat.lt_succ_self _), hservice.trans (Nat.lt_succ_self _)⟩
  · rw [hb.deal, hother _ (hne x hx).1, hother _ (hne x hx).2]
    exact h.kinds x hx
  · rw [hb.deal]
    exact h.named x hx
  · rw [hends]
    rcases eq_or_ne d c with rfl | hd
    · rw [hself]
      refine iff_of_false (by simp [Account.fresh, CircuitTable.get, OrderedMap.get]) ?_
      rintro ⟨-, hx, ⟨hclient, -⟩ | ⟨hservice, -⟩⟩
      · exact (hne x hx).1 hclient.symm
      · exact (hne x hx).2 hservice.symm
    · rw [hother d hd]
      exact h.table d id x
  · rcases eq_or_ne d c with rfl | hne'
    · rw [hself]
      rfl
    · rw [hother d hne']
      rw [hb.nextConn] at hd
      exact h.sizes d (hb.isNext ▸ Nat.lt_of_le_of_ne (Nat.le_of_lt_succ hd) hne')
  · rw [hb.count, h.count]
  · simp only [hpending]
    rcases eq_or_ne d c with rfl | hd
    · have hzero : tally (b.Pending d) live = 0 := by
        refine Finset.card_eq_zero.mpr (Finset.filter_eq_empty_iff.mpr fun x hx hp => ?_)
        exact (hne x hx).1 hp.1
      rw [hself, hzero]
      rfl
    · rw [hother d hd]
      exact h.pending d
  · simp only [hserves]
    rcases eq_or_ne d c with rfl | hd
    · have hzero : tally (b.Serves d service) live = 0 := by
        refine Finset.card_eq_zero.mpr (Finset.filter_eq_empty_iff.mpr fun x hx hp => ?_)
        exact (hne x hx).1 hp.1
      rw [hself, hzero]
      rfl
    · rw [hother d hd]
      exact h.perService d service
  · simp only [hb.ipService, hkey]
    exact h.perIp key
  · simp only [hpending]
    exact h.pending_le d
  · simp only [hserves]
    exact h.perService_le d service
  · simp only [hkey]
    exact h.perIp_le key

/-- The table of one connection is emptied. -/
structure Drains (c : ConnId) (b b' : Books) : Prop where
  count : b'.circuitCount = b.circuitCount
  ipService : b'.ipService = b.ipService
  deal : b'.deal = b.deal
  nextCircuit : b'.nextCircuit = b.nextCircuit
  nextConn : b'.nextConn = b.nextConn
  kind : ∀ d, (b'.account d).kind = (b.account d).kind
  ip : ∀ d, (b'.account d).ip = (b.account d).ip
  maxCircuits : ∀ d, (b'.account d).circuits.maxCircuits = (b.account d).circuits.maxCircuits
  pending : ∀ d, (b'.account d).pending = (b.account d).pending
  perService : ∀ d, (b'.account d).perService = (b.account d).perService
  get : ∀ d id, (b'.account d).circuits.get id =
    if d = c then none else (b.account d).circuits.get id

theorem Balanced.drain {c : ConnId} (h : Balanced limits live none b) (hb : Drains c b b') :
    Balanced limits live (some c) b' := by
  have hends := Books.ends_congr hb.deal
  have hpending := Books.pending_congr hb.deal
  have hserves := Books.serves_congr hb.deal
  have hkey := Books.key_congr hb.deal hb.ip
  refine ⟨fun x hx => ?_, fun x hx => ?_, fun x hx => ?_, fun d id x => ?_, fun d hd => ?_, ?_,
    fun d => ?_, fun d service => ?_, fun key => ?_, h.count_le, fun d => ?_, fun d service => ?_,
    fun key => ?_⟩
  · rw [hb.deal, hb.nextCircuit, hb.nextConn]
    exact h.allocated x hx
  · rw [hb.deal, hb.kind, hb.kind]
    exact h.kinds x hx
  · rw [hb.deal]
    exact h.named x hx
  · rw [hends, hb.get]
    split
    · next hd => simp [hd]
    · next hd =>
      rw [h.table]
      simp [Ne.symm hd]
  · rw [hb.maxCircuits, hb.kind]
    exact h.sizes d (hb.nextConn ▸ hd)
  · rw [hb.count, h.count]
  · simp only [hpending, hb.pending]
    exact h.pending d
  · simp only [hserves, hb.perService]
    exact h.perService d service
  · simp only [hb.ipService, hkey]
    exact h.perIp key
  · simp only [hpending]
    exact h.pending_le d
  · simp only [hserves]
    exact h.perService_le d service
  · simp only [hkey]
    exact h.perIp_le key

/-- Once no circuit of the drained connection is left, its table is as it should be. -/
theorem Balanced.settle {c : ConnId} (h : Balanced limits live (some c) b)
    (hnone : ∀ r ∈ live, (b.deal r).client ≠ c ∧ (b.deal r).service ≠ c) :
    Balanced limits live none b := by
  refine { h with table := fun d id x => ?_ }
  rw [h.table]
  simp only [ne_eq, Option.some.injEq, reduceCtorEq, not_false_eq_true, true_and]
  constructor
  · exact fun hx => hx.2
  · rintro ⟨hx, hends⟩
    refine ⟨?_, hx, hends⟩
    rintro rfl
    rcases hends with ⟨hclient, -⟩ | ⟨hservice, -⟩
    · exact (hnone x hx).1 hclient.symm
    · exact (hnone x hx).2 hservice.symm

end Tnp.Relay
