import Tnp.Lib.Run
import Tnp.Relay.Effects

/-!
Every effect of a call moves the books of the relay by a move that keeps them balanced, so they
balance in every state it reaches.
-/

namespace Tnp.Relay

open Relation Tnp.Lib Tnp.Lib.Run Tnp.Protocol Tnp.Crypto Tnp.Crypto.Grants

namespace RelayCore

variable {o : RelayCoreOptions} {reach : Reach} {e : Env} {s s' : RelayCore} {c d : ConnId}
  {r : CircuitRef} {limits : RelayLimits} {live : Finset CircuitRef} {drained : Option ConnId}

/-! ### Removal -/

/-- Whatever circuit is named, it is gone afterwards and no other is. -/
lemma balanced_removeCircuit (r : CircuitRef) (notify : Notify) (reason : ℕ)
    (h : Balanced limits live drained s.books) :
    Balanced limits (live.erase r) drained (s.removeCircuit r notify reason).books := by
  have hclient := h.table (s.circuit r).client (s.circuit r).clientId r
  have hservice := h.table (s.circuit r).service (s.circuit r).serviceId r
  unfold removeCircuit
  dsimp only
  split
  · next hunlisted =>
    rw [Finset.erase_eq_of_notMem]
    · exact h
    · intro hr
      -- at most one of its two ends is drained
      have hends := h.kinds r hr
      by_cases hd : drained = some (s.circuit r).client
      · refine hunlisted.2 (hservice.mpr ⟨?_, hr, Or.inr ⟨rfl, rfl⟩⟩)
        rw [hd]
        intro heq
        have hsame : (s.books.deal r).client = (s.books.deal r).service := Option.some.inj heq
        rw [hsame] at hends
        exact absurd (hends.1.symm.trans hends.2) (by decide)
      · exact hunlisted.1 (hclient.mpr ⟨hd, hr, Or.inl ⟨rfl, rfl⟩⟩)
  · next hlisted =>
    have hr : r ∈ live := by
      rcases Classical.em ((s.conn (s.circuit r).client).circuits.get (s.circuit r).clientId =
        some r) with hlist | hlist
      · exact (hclient.mp hlist).2.1
      · by_contra hr
        exact hlisted ⟨hlist, fun hlist => hr (hservice.mp hlist).2.1⟩
    rw [books_notifyRemoved]
    exact h.remove hr (removes_unlist_uncount s r)

lemma balanced_removeCircuits (notify : RelayCore → CircuitRef → Notify) (reason : ℕ)
    (rs : List CircuitRef) (h : Balanced limits live drained s.books) :
    ∃ live', (∀ x ∈ live', x ∈ live ∧ x ∉ rs) ∧ Balanced limits live' drained
      (rs.foldl (fun s r => s.removeCircuit r (notify s r) reason) s).books := by
  induction rs generalizing s live with
  | nil => exact ⟨live, fun x hx => ⟨hx, List.not_mem_nil⟩, h⟩
  | cons r rs ih =>
    obtain ⟨live', hsub, h'⟩ := ih (balanced_removeCircuit r (notify s r) reason h)
    refine ⟨live', fun x hx => ?_, h'⟩
    obtain ⟨hx', hrs⟩ := hsub x hx
    have hne := Finset.ne_of_mem_erase hx'
    exact ⟨Finset.mem_of_mem_erase hx', List.not_mem_cons_of_ne_of_not_mem hne hrs⟩

lemma drains_detach (s : RelayCore) (c : ConnId) : Drains c s.books (s.detach c).books := by
  have hconn : ∀ d, (s.detach c).books.account d = (if d = c then
      { s.conn c with closed := true, circuits := (s.conn c).circuits.drain.2 }
      else s.conn d).account := fun d => congrArg Connection.account conn_detach
  refine ⟨rfl, rfl, rfl, rfl, rfl, fun d => ?_, fun d => ?_, fun d => ?_, fun d => ?_, fun d => ?_,
    fun d id => ?_⟩ <;> rw [hconn] <;> split
  all_goals first | rfl | (next h => subst h; rfl)

/-- **Closing a connection takes all its circuits down.** -/
lemma balanced_onTransportClosed (h : Balanced limits live none s.books) :
    ∃ live, Balanced limits live none (s.onTransportClosed c).books := by
  cases hclosed : (s.conn c).closed with
  | true =>
    rw [onTransportClosed, hclosed]
    exact ⟨live, h⟩
  | false =>
    obtain ⟨live', hsub, h'⟩ := balanced_removeCircuits (s := s.detach c)
      (fun s r => if c = (s.circuit r).client then .service else .client)
      ErrorCode.CIRCUIT_UNKNOWN.value (s.conn c).circuits.drain.1
      (h.drain (drains_detach s c))
    have hbooks : Balanced limits live' (some c) (s.onTransportClosed c).books := by
      rw [onTransportClosed, hclosed]
      exact h'
    refine ⟨live', hbooks.settle fun r hr => ?_⟩
    obtain ⟨hlive, hrs⟩ := hsub r hr
    -- a live circuit of `c` was in its table
    have hgone : ∀ id, ¬ s.books.Ends r c id := fun id hends =>
      hrs (OrderedMap.mem_values_iff.mpr ⟨id, (h.table c id r).mpr ⟨by simp, hlive, hends⟩⟩)
    have hdeal : (s.onTransportClosed c).books.deal r = s.books.deal r :=
      congrArg Circuit.deal (congrFun (spares_onTransportClosed hclosed).circuit r)
    rw [hdeal]
    exact ⟨fun hc => hgone _ (Or.inl ⟨hc.symm, rfl⟩), fun hc => hgone _ (Or.inr ⟨hc.symm, rfl⟩)⟩

/-! ### Admission of a circuit -/

lemma conn_addCircuit {service : ConnId} {id serviceId : UInt64} {name : String}
    (hne : c ≠ service) : (s.addCircuit e c id service serviceId name).conn d =
      if d = service then
        { s.conn service with
          circuits := ((s.conn service).circuits.add serviceId s.nextCircuit).getD
            (s.conn service).circuits }
      else if d = c then
        { s.conn c with
          circuits := ((s.conn c).circuits.add id s.nextCircuit).getD (s.conn c).circuits
          pending := (s.conn c).pending + 1
          perService := (s.conn c).perService.set service
            (((s.conn c).perService.get service).getD 0 + 1) }
      else s.conn d := by
  unfold addCircuit
  dsimp only
  rw [conn_modifyConn, conn_modifyConn, if_neg hne.symm, conn_modifyConn]

lemma adds_addCircuit {service : ConnId} {id serviceId : UInt64} {name : String}
    (h : Addable limits s c id service serviceId name) (hne : c ≠ service) :
    Adds ⟨c, id, service, serviceId, false, name⟩ s.books
      (s.addCircuit e c id service serviceId name).books := by
  obtain ⟨t, ht⟩ := CircuitTable.add_isSome (r := s.nextCircuit) h.id_ne h.id_free h.room
  obtain ⟨t', ht'⟩ := CircuitTable.add_isSome (r := s.nextCircuit) h.serviceId_ne h.serviceId_free
    h.serviceRoom
  have hservice : (s.addCircuit e c id service serviceId name).books.account service =
      { s.books.account service with circuits := t' } := by
    change ((s.addCircuit e c id service serviceId name).conn service).account = _
    rw [conn_addCircuit hne, if_pos rfl, ht']
    rfl
  have hclient : (s.addCircuit e c id service serviceId name).books.account c =
      { s.books.account c with
        circuits := t
        pending := (s.conn c).pending + 1
        perService := (s.conn c).perService.set service
          (((s.conn c).perService.get service).getD 0 + 1) } := by
    change ((s.addCircuit e c id service serviceId name).conn c).account = _
    rw [conn_addCircuit hne, if_neg hne, if_pos rfl, ht]
    rfl
  have hother : ∀ d, d ≠ service → d ≠ c →
      (s.addCircuit e c id service serviceId name).books.account d = s.books.account d := by
    intro d h1 h2
    change ((s.addCircuit e c id service serviceId name).conn d).account = _
    rw [conn_addCircuit hne, if_neg h1, if_neg h2]
    rfl
  have hcases : ∀ d, d = service ∨ d = c ∨ d ≠ service ∧ d ≠ c := fun d => by tauto
  refine ⟨rfl, rfl, rfl, ?_, fun d => ?_, fun d => ?_, fun d => ?_, fun d j => ?_, fun d => ?_,
    fun d j => ?_, fun key => ?_⟩
  · funext x
    exact Function.apply_update (fun _ => Circuit.deal) s.circuit s.nextCircuit _ x
  · rcases hcases d with rfl | rfl | ⟨h1, h2⟩
    · rw [hservice]
    · rw [hclient]
    · rw [hother d h1 h2]
  · rcases hcases d with rfl | rfl | ⟨h1, h2⟩
    · rw [hservice]
    · rw [hclient]
    · rw [hother d h1 h2]
  · rcases hcases d with rfl | rfl | ⟨h1, h2⟩
    · rw [hservice]
      exact (CircuitTable.get_add (j := 0) ht').1
    · rw [hclient]
      exact (CircuitTable.get_add (j := 0) ht).1
    · rw [hother d h1 h2]
  · rcases hcases d with rfl | rfl | ⟨h1, h2⟩
    · rw [hservice]
      simp only [hne.symm, false_and, true_and, false_or, eq_comm (a := j)]
      exact (CircuitTable.get_add ht').2
    · rw [hclient]
      simp only [hne, false_and, true_and, or_false, eq_comm (a := j)]
      exact (CircuitTable.get_add ht).2
    · rw [hother d h1 h2, if_neg (by simp [h1, h2])]
  · rcases hcases d with rfl | rfl | ⟨h1, h2⟩
    · rw [hservice, if_neg hne, add_zero]
    · rw [hclient, if_pos rfl]
      rfl
    · rw [hother d h1 h2, if_neg (Ne.symm h2), add_zero]
  · rcases hcases d with rfl | rfl | ⟨h1, h2⟩
    · rw [hservice, if_neg fun h => hne h.1]
    · rw [hclient]
      refine (OrderedMap.get_set _).trans ?_
      simp only [true_and]
      split
      · next h => rw [← h]; rfl
      · rfl
    · rw [hother d h1 h2, if_neg fun h => h2 h.1.symm]
  · have hip : ((s.addCircuit e c id service serviceId name).conn c).ip = (s.conn c).ip :=
      congrArg Account.ip hclient
    let key' := ipKey ((s.addCircuit e c id service serviceId name).conn c).ip name
    change (s.ipService.set key' ((s.ipService.get key').getD 0 + 1)).get key = _
    simp only [key']
    rw [hip, OrderedMap.get_set]
    change _ = if ipKey (s.conn c).ip name = key then _ else _
    split
    · next h => rw [h]; rfl
    · rfl

/-! ### Opening a circuit -/

lemma opens_openCircuit (s : RelayCore) (r : CircuitRef) :
    Opens r s.books (s.openCircuit r).books := by
  have hsame : ∀ {β : Type} (g : Account → β) (d : ConnId), (∀ a : Account, ∀ n,
      g { a with pending := n } = g a) → g ((s.openCircuit r).books.account d) =
        g (s.books.account d) := fun g d hg => by
    change g ((s.openCircuit r).conn d).account = _
    rw [conn_openCircuit]
    split
    · next h =>
      subst h
      exact hg (s.books.account (s.circuit r).client) _
    · rfl
  refine ⟨rfl, rfl, rfl, rfl, ?_, fun d => hsame _ d fun _ _ => rfl,
    fun d => hsame _ d fun _ _ => rfl, fun d => hsame _ d fun _ _ => rfl, fun d => ?_,
    fun d => hsame _ d fun _ _ => rfl⟩
  · funext x
    exact Function.apply_update (fun _ => Circuit.deal) s.circuit r _ x
  · change ((s.openCircuit r).conn d).pending = _
    rw [conn_openCircuit]
    change _ = (s.conn d).pending - if (s.circuit r).client = d then 1 else 0
    simp only [eq_comm (b := d)]
    split
    · next h => rw [h]
    · rw [sub_zero]

/-! ### Every effect -/

/-- Whom the relay serves, and whom it verifies, is a service node it has. -/
structure Placed (s : RelayCore) : Prop where
  present : ∀ c, (s.conn c).closed = false → c < s.nextConn
  services : ∀ name c, s.services.get name = some c → c < s.nextConn ∧ (s.conn c).kind = .service
  verifications : ∀ v ∈ s.verifications, v.conn < s.nextConn ∧ (s.conn v.conn).kind = .service

lemma placed_effect (h : Placed s) (he : Effect o reach s s') : Placed s' := by
  have hon := onward_of_effect he
  refine ⟨fun c hc => ?_, fun name c hc => ?_, fun v hv => ?_⟩
  · rw [hon.nextConn]
    exact h.present c (hon.closed c hc)
  · rw [hon.nextConn, hon.kind]
    exact h.services name c (hon.services name c hc)
  · rw [hon.nextConn, hon.kind]
    rcases effect_cases he with ⟨c, auth, hc, hclosed, hkind, hstate, rfl⟩ | ⟨-, hsame⟩
    · rcases List.mem_append.mp hv with hv | hv
      · exact h.verifications v hv
      · obtain rfl := List.mem_singleton.mp hv
        exact ⟨h.present c hclosed, hkind⟩
    · exact h.verifications v (hsame ▸ hv)

lemma books_quiet (h : Quiet s s') : s'.books = s.books := by
  have haccount : (fun c => (s'.conn c).account) = fun c => (s.conn c).account :=
    funext h.account
  unfold books
  rw [haccount, h.circuit, h.circuitCount, h.ipService, h.nextConn, h.nextCircuit]

lemma books_startVerification (s : RelayCore) (c : ConnId) (auth : ServiceAuth) :
    (s.startVerification c auth).books = s.books :=
  books_modifyConn (s := s) (f := fun conn => { conn with state := some .verifying }) rfl

lemma room_of_addable {service : ConnId} {id serviceId : UInt64} {name : String}
    (h : Placed s) (hadd : Addable limits s c id service serviceId name) :
    Room limits s.books ⟨c, id, service, serviceId, false, name⟩ :=
  ⟨⟨h.present c hadd.closed, (h.services name service hadd.serves).1⟩,
    ⟨hadd.kind, (h.services name service hadd.serves).2⟩, hadd.named, rfl, hadd.id_free,
    hadd.serviceId_free, hadd.count, hadd.pending, hadd.perService, hadd.perIp⟩

/-- **Every effect keeps the books balanced.** -/
theorem balanced_effect (hp : Placed s) (h : Balanced o.limits live none s.books)
    (he : Effect o reach s s') : ∃ live, Balanced o.limits live none s'.books := by
  cases he with
  | quiet hq => exact ⟨live, books_quiet hq ▸ h⟩
  | say hx => exact ⟨live, h⟩
  | touch hr hdeal => exact ⟨live, (books_modifyCircuit hdeal).symm ▸ h⟩
  | opens hr hlisted hopen =>
    exact ⟨live, h.opens ((h.table _ _ _).mp hlisted).2.1 hopen (opens_openCircuit s _)⟩
  | remove hr => exact ⟨_, balanced_removeCircuit _ _ _ h⟩
  | @add e c service id serviceId name hc hadd =>
    have hne : c ≠ service := by
      rintro rfl
      exact absurd (hadd.kind.symm.trans (hp.services name c hadd.serves).2) (by decide)
    exact ⟨_, h.add (room_of_addable hp hadd) (adds_addCircuit hadd hne)⟩
  | verifies hc hclosed hkind hstate =>
    exact ⟨live, (books_startVerification s _ _).symm ▸ h⟩
  | close hc hclosed => exact balanced_onTransportClosed h

/-! ### Every step -/

/-- The books balance for some set of circuits. -/
structure Kept (limits : RelayLimits) (s : RelayCore) : Prop where
  placed : Placed s
  balanced : ∃ live, Balanced limits live none s.books

lemma kept_new : Kept limits .new :=
  ⟨⟨fun _ hc => Bool.noConfusion hc, fun _ _ hc => absurd hc (by simp [new]),
    fun _ hv => absurd hv List.not_mem_nil⟩, ∅, .new⟩

lemma kept_effects (reach : Reach) (h : Kept o.limits s) (he : Effects o reach s s') :
    Kept o.limits s' := by
  induction he with
  | refl => exact h
  | tail _ he ih =>
    obtain ⟨live, hb⟩ := ih.balanced
    exact ⟨placed_effect ih.placed he, balanced_effect ih.placed hb he⟩

lemma kept_newConnection {kind : Kind} {ip : String} {openedAt : ℚ} {maxCircuits : ℕ}
    (hmax : maxCircuits = match kind with
      | .client => limits.maxCircuitsPerClient
      | .service => limits.maxCircuitsPerService)
    (h : Kept limits s) : Kept limits (s.newConnection kind ip maxCircuits openedAt).2 := by
  obtain ⟨live, hb⟩ := h.balanced
  have hother : ∀ d, d ≠ s.nextConn →
      (s.newConnection kind ip maxCircuits openedAt).2.conn d = s.conn d := fun d hd =>
    Function.update_of_ne hd _ _
  have hconnects : Connects s.nextConn (.fresh limits kind ip) s.books
      (s.newConnection kind ip maxCircuits openedAt).2.books := by
    refine ⟨rfl, rfl, rfl, rfl, rfl, rfl, ?_⟩
    subst hmax
    funext d
    exact Function.apply_update (fun _ => Connection.account) s.conn s.nextConn _ d
  refine ⟨⟨fun c hc => ?_, fun name c hc => ?_, fun v hv => ?_⟩, live, hb.connect hconnects⟩
  · rcases eq_or_ne c s.nextConn with rfl | hne
    · exact Nat.lt_succ_self _
    · rw [hother c hne] at hc
      exact (h.placed.present c hc).trans (Nat.lt_succ_self _)
  · obtain ⟨hlt, hkind⟩ := h.placed.services name c hc
    exact ⟨hlt.trans (Nat.lt_succ_self _), by rw [hother c (Nat.ne_of_lt hlt), hkind]⟩
  · obtain ⟨hlt, hkind⟩ := h.placed.verifications v hv
    exact ⟨hlt.trans (Nat.lt_succ_self _), by rw [hother _ (Nat.ne_of_lt hlt), hkind]⟩

lemma conn_enroll {name : String} {domainKey : PublicKey} {verified : VerifiedChain} {now : ℚ} :
    (s.enroll c name domainKey verified now).conn d =
      if d = c then enrolled (s.conn c) name domainKey verified now else s.conn d :=
  conn_modifyConn fun conn => enrolled conn name domainKey verified now

lemma kept_enroll {name : String} {domainKey : PublicKey} {verified : VerifiedChain} {now : ℚ}
    (h : Kept limits s) (hc : c < s.nextConn) (hkind : (s.conn c).kind = .service) :
    Kept limits (s.enroll c name domainKey verified now) := by
  obtain ⟨live, hb⟩ := h.balanced
  have hbooks : (s.enroll c name domainKey verified now).books = s.books :=
    books_modifyConn (s := s) (f := fun conn => enrolled conn name domainKey verified now) rfl
  have hsame : ∀ d, ((s.enroll c name domainKey verified now).conn d).kind = (s.conn d).kind ∧
      ((s.enroll c name domainKey verified now).conn d).closed = (s.conn d).closed := fun d => by
    rw [conn_enroll]
    split
    · next h => exact h ▸ ⟨rfl, rfl⟩
    · exact ⟨rfl, rfl⟩
  refine ⟨⟨fun d hd => ?_, fun n d hd => ?_, fun v hv => ?_⟩, live, hbooks.symm ▸ hb⟩
  · exact h.placed.present d ((hsame d).2 ▸ hd)
  · rw [(hsame d).1]
    change (s.services.set name c).get n = some d at hd
    rw [OrderedMap.get_set] at hd
    split at hd
    · obtain rfl := Option.some.inj hd
      exact ⟨hc, hkind⟩
    · exact h.placed.services n d hd
  · rw [(hsame v.conn).1]
    exact h.placed.verifications v hv

lemma kept_modifyConn {f : Connection → Connection}
    (haccount : (f (s.conn c)).account = (s.conn c).account)
    (hclosed : (f (s.conn c)).closed = (s.conn c).closed) (h : Kept limits s) :
    Kept limits (s.modifyConn c f) := by
  obtain ⟨live, hb⟩ := h.balanced
  have hkind : ∀ d, ((s.modifyConn c f).conn d).kind = (s.conn d).kind := fun d =>
    conn_modifyConn_congr Connection.kind (congrArg Account.kind haccount)
  refine ⟨⟨fun d hd => ?_, fun n d hd => ?_, fun v hv => ?_⟩, live,
    (books_modifyConn haccount).symm ▸ hb⟩
  · rw [conn_modifyConn_congr Connection.closed hclosed] at hd
    exact h.placed.present d hd
  · rw [hkind]
    exact h.placed.services n d hd
  · rw [hkind]
    exact h.placed.verifications v hv

lemma kept_connect (kind : Kind) (ip : String) (h : Kept o.limits s) :
    Kept o.limits (step o s (e, .connect kind ip)) := by
  have hadmitted : Kept o.limits (s.admitIp o e ip).2 :=
    kept_effects everything h (effects_admitIp ip)
  unfold step
  dsimp only
  split
  · next s' hs' =>
    rw [hs'] at hadmitted
    exact hadmitted
  next s' hs' =>
  rw [hs'] at hadmitted
  cases kind with
  | client => exact kept_newConnection rfl hadmitted
  | service =>
    refine kept_effects everything ?_ (effects_send trivial)
    exact kept_modifyConn rfl rfl (kept_newConnection rfl hadmitted)

lemma kept_verified {i : ℕ} {answer : Option PublicKey} (h : Kept o.limits s) :
    Kept o.limits (step o s (e, .verified i answer)) := by
  unfold step
  dsimp only
  split
  · exact h
  next v hv =>
  obtain ⟨hlt, hkind⟩ := h.placed.verifications v (List.mem_of_getElem? hv)
  have hrest : Kept o.limits { s with verifications := s.verifications.eraseIdx i } :=
    ⟨⟨h.placed.present, h.placed.services, fun w hw =>
      h.placed.verifications w ((List.eraseIdx_sublist _ _).subset hw)⟩, h.balanced⟩
  have hall := effects_verifyService (s := { s with verifications := s.verifications.eraseIdx i })
    (e := e) (o := o) v answer (own_everything v.conn) fun _ verified i _ _ _ =>
      own_everything i
  rcases hall with he | ⟨s', domainKey, verified, -, -, he, -, -, -, hresult⟩
  · exact kept_effects everything hrest he
  · rw [hresult]
    have hon := onward_of_effects he
    exact kept_effects everything (kept_enroll (kept_effects everything hrest he)
      (hon.nextConn ▸ hlt) ((hon.kind v.conn).trans hkind)) (effects_send trivial)

/-- **Every step keeps the books balanced.** -/
theorem kept_step (h : Kept o.limits s) (x : Env × Event) : Kept o.limits (step o s x) := by
  obtain ⟨e, event⟩ := x
  cases event with
  | connect kind ip => exact kept_connect kind ip h
  | verified i answer => exact kept_verified h
  | _ => exact kept_effects _ h (effects_step trivial)

/-! ### The accounts of a reachable state -/

/-- A circuit is live while some table has it. -/
def Live (s : RelayCore) (r : CircuitRef) : Prop := ∃ c id, (s.conn c).circuits.get id = some r

/-- The tables and the counts of the relay agree on the circuits there are, and none of the
limits is exceeded. -/
structure Accounts (limits : RelayLimits) (s : RelayCore) (live : Finset CircuitRef) : Prop where
  live_iff : ∀ r, r ∈ live ↔ Live s r
  client : ∀ r ∈ live,
    (s.conn (s.circuit r).client).circuits.get (s.circuit r).clientId = some r
  service : ∀ r ∈ live,
    (s.conn (s.circuit r).service).circuits.get (s.circuit r).serviceId = some r
  ends : ∀ c id r, (s.conn c).circuits.get id = some r →
    c = (s.circuit r).client ∧ id = (s.circuit r).clientId ∨
      c = (s.circuit r).service ∧ id = (s.circuit r).serviceId
  count : s.circuitCount = live.card
  pending : ∀ c, (s.conn c).pending =
    tally (fun r => (s.circuit r).client = c ∧ (s.circuit r).isOpen = false) live
  perService : ∀ c service, (s.conn c).perService.get service =
    entry (tally (fun r => (s.circuit r).client = c ∧ (s.circuit r).service = service) live)
  perIp : ∀ ip name, isCanonicalName name = true → s.ipService.get (ipKey ip name) =
    entry (tally (fun r => (s.conn (s.circuit r).client).ip = ip ∧ (s.circuit r).name = name) live)
  perIp_keys : ∀ key n, s.ipService.get key = some n → ∃ ip name, isCanonicalName name = true ∧
    key = ipKey ip name
  count_le : live.card ≤ limits.maxCircuits
  client_le : ∀ c, tally (fun r => (s.circuit r).client = c) live ≤ limits.maxCircuitsPerClient
  service_le : ∀ c, tally (fun r => (s.circuit r).service = c) live ≤ limits.maxCircuitsPerService
  pending_le : ∀ c, (s.conn c).pending ≤ limits.maxPendingPerClient
  perService_le : ∀ c service,
    tally (fun r => (s.circuit r).client = c ∧ (s.circuit r).service = service) live ≤
      limits.maxCircuitsPerClientPerService
  perIp_le : ∀ ip name, isCanonicalName name = true →
    tally (fun r => (s.conn (s.circuit r).client).ip = ip ∧ (s.circuit r).name = name) live ≤
      limits.maxCircuitsPerIpPerService

/-- What follows the last `a`, and what comes before it. -/
lemma append_cons_inj {α : Type*} {a : α} {l l' m m' : List α} (h : a ∉ m) (h' : a ∉ m')
    (heq : l ++ a :: m = l' ++ a :: m') : l = l' ∧ m = m' := by
  rcases List.append_eq_append_iff.mp heq with ⟨k, rfl, hk⟩ | ⟨k, rfl, hk⟩
  · cases k with
    | nil => simpa using hk
    | cons b k =>
      obtain ⟨-, rfl⟩ := List.cons.inj hk
      exact absurd (List.mem_append_right k List.mem_cons_self) h
  · cases k with
    | nil => simpa [eq_comm] using hk
    | cons b k =>
      obtain ⟨-, rfl⟩ := List.cons.inj hk
      exact absurd (List.mem_append_right k List.mem_cons_self) h'

lemma ipKey_inj {ip ip' name name' : String} (h : isCanonicalName name = true)
    (h' : isCanonicalName name' = true) :
    ipKey ip name = ipKey ip' name' ↔ ip = ip' ∧ name = name' := by
  constructor
  · intro heq
    have hlists := congrArg String.toList heq
    simp only [ipKey, String.toList_append, List.append_assoc] at hlists
    obtain ⟨hip, hname⟩ := append_cons_inj (nul_not_mem h) (nul_not_mem h') hlists
    exact ⟨String.toList_injective hip, String.toList_injective hname⟩
  · rintro ⟨rfl, rfl⟩
    rfl

/-- Circuits that one table has under ids of their own are no more than its entries. -/
lemma tally_le_size {t : CircuitTable} {p : CircuitRef → Prop} [DecidablePred p]
    (id : CircuitRef → UInt64) (h : ∀ r ∈ live, p r → t.get (id r) = some r) :
    tally p live ≤ t.circuits.size := by
  have hget : ∀ r ∈ live.filter p, t.get (id r) = some r := fun r hr =>
    h r (Finset.mem_filter.mp hr).1 (Finset.mem_filter.mp hr).2
  have hcard : (live.filter p).card ≤ (t.circuits.entries.map Prod.fst).toFinset.card := by
    refine Finset.card_le_card_of_injOn id (fun r hr => ?_) fun r hr r' hr' heq => ?_
    · exact List.mem_toFinset.mpr
        (List.mem_map.mpr ⟨_, OrderedMap.mem_entries_iff.mpr (hget r hr), rfl⟩)
    · exact Option.some.inj ((hget r hr).symm.trans (heq ▸ hget r' hr'))
  exact hcard.trans ((List.toFinset_card_le _).trans_eq (List.length_map _))

lemma tally_pos_iff {p : CircuitRef → Prop} [DecidablePred p] :
    0 < tally p live ↔ ∃ r ∈ live, p r := by
  rw [tally, Finset.card_pos, Finset.filter_nonempty_iff]

lemma accounts_of_balanced (h : Balanced limits live none s.books) : Accounts limits s live := by
  have hclient : ∀ r ∈ live,
      (s.conn (s.circuit r).client).circuits.get (s.circuit r).clientId = some r := fun r hr =>
    (h.table _ _ r).mpr ⟨by simp, hr, Or.inl ⟨rfl, rfl⟩⟩
  have hservice : ∀ r ∈ live,
      (s.conn (s.circuit r).service).circuits.get (s.circuit r).serviceId = some r := fun r hr =>
    (h.table _ _ r).mpr ⟨by simp, hr, Or.inr ⟨rfl, rfl⟩⟩
  have hkey : ∀ ip name, isCanonicalName name = true → ∀ r ∈ live,
      s.books.key r = ipKey ip name ↔
        (s.conn (s.circuit r).client).ip = ip ∧ (s.circuit r).name = name :=
    fun ip name hname r hr => ipKey_inj (h.named r hr) hname
  refine ⟨fun r => ⟨fun hr => ⟨_, _, hclient r hr⟩, ?_⟩, hclient, hservice,
    fun c id r hr => ((h.table c id r).mp hr).2.2, h.count, h.pending, h.perService,
    fun ip name hname => ?_, fun key n hn => ?_, h.count_le, fun c => ?_, fun c => ?_, fun c => ?_,
    h.perService_le, fun ip name hname => ?_⟩
  · rintro ⟨c, id, hr⟩
    exact ((h.table c id r).mp hr).2.1
  · have hcount := h.perIp (ipKey ip name)
    rwa [tally_congr (hkey ip name hname)] at hcount
  · obtain ⟨hpos, hn'⟩ := entry_eq_some ((h.perIp key).symm.trans hn)
    obtain ⟨r, hr, hr'⟩ := tally_pos_iff.mp (Int.natCast_pos.mp (hn'.symm ▸ hpos))
    exact ⟨_, _, h.named r hr, hr'.symm⟩
  · rcases Nat.eq_zero_or_pos (tally (fun r => (s.circuit r).client = c) live) with hzero | hpos
    · rw [hzero]
      exact Nat.zero_le _
    obtain ⟨r, hr, rfl⟩ := tally_pos_iff.mp hpos
    have hmax := h.sizes _ (h.allocated r hr).2.1
    rw [(h.kinds r hr).1] at hmax
    refine (tally_le_size (fun x => (s.circuit x).clientId) fun x hx hc => ?_).trans
      ((s.books.account (s.circuit r).client).circuits.size_le.trans_eq hmax)
    exact hc ▸ hclient x hx
  · rcases Nat.eq_zero_or_pos (tally (fun r => (s.circuit r).service = c) live) with hzero | hpos
    · rw [hzero]
      exact Nat.zero_le _
    obtain ⟨r, hr, rfl⟩ := tally_pos_iff.mp hpos
    have hmax := h.sizes _ (h.allocated r hr).2.2
    rw [(h.kinds r hr).2] at hmax
    refine (tally_le_size (fun x => (s.circuit x).serviceId) fun x hx hc => ?_).trans
      ((s.books.account (s.circuit r).service).circuits.size_le.trans_eq hmax)
    exact hc ▸ hservice x hx
  · have hcount := h.pending c
    have hle := h.pending_le c
    change (s.conn c).pending = _ at hcount
    omega
  · have hcount := h.perIp_le (ipKey ip name)
    rwa [tally_congr (hkey ip name hname)] at hcount

lemma kept_run (o : RelayCoreOptions) (xs : List (Env × Event)) :
    Kept o.limits (run (step o) .new xs) :=
  invariant (I := Kept o.limits) (fun _ x h => kept_step h x) kept_new xs

/-- **The accounts of the relay.** Whatever connections come and go, whatever they send, however
the clocks run, the registry answers and the transports behave: in every state the relay reaches
its tables and counts are about the same live circuits, and each count is within its limit. -/
theorem accounting (o : RelayCoreOptions) (xs : List (Env × Event)) :
    ∃ live, Accounts o.limits (run (step o) .new xs) live := by
  obtain ⟨live, hb⟩ := (kept_run o xs).balanced
  exact ⟨live, accounts_of_balanced hb⟩

end RelayCore

end Tnp.Relay
