import Tnp.Protocol.HandshakeRuns

/-!
A client that finishes a handshake has finished it with the holder of the key it asked for.

The key under which the second message is sealed is shared by two honest scalars, so the attacker
cannot have sealed it; what it is sealed with is bound to everything that both ends have said.
-/

namespace Tnp.Protocol.Handshake

open Tnp.Lib Tnp.Lib.Symbolic Tnp.Crypto Tnp.Crypto.KeyAgreement Tnp.Protocol.Session
  Tnp.Protocol.Noise

variable {n : ℕ} {key : ServerKey Term} {limits : ResolvedLimits}

/-! ### How the runs stand -/

inductive ClientSpec (w : World) (n : ℕ) (run : ClientRun) : Prop
  | new (limits : ResolvedLimits) (handshake : run.handshake = clientStart n run.key limits)
    (message1 : run.message1 = none) (session : run.session = none)
  | started (limits : ResolvedLimits)
    (handshake : run.handshake = ((clientStart n run.key limits).start symbolic).2)
    (message1 : run.message1 = ((clientStart n run.key limits).start symbolic).1.toOption)
    (session : run.session = none)
  | done (limits : ResolvedLimits) (state : run.handshake.state = .done)
    (message1 : run.message1 = ((clientStart n run.key limits).start symbolic).1.toOption)
    (session : ∀ message cipher, run.session = some (message, cipher) →
      (((clientStart n run.key limits).start symbolic).2.finish symbolic message).1 = .ok cipher ∧
        message.payload.Safe w.Sent)

structure ServerSpec (w : World) (n : ℕ) (run : ServerRun) : Prop where
  static : w.parties[run.static]? = some .static
  fresh : run.handshake.used = false → run.answered = none ∧
    ∃ limits, run.handshake = serverStart n run.static run.role run.name limits
  answered : ∀ message1 message2 cipher, run.answered = some (message1, message2, cipher) →
    ∃ limits, ((serverStart n run.static run.role run.name limits).respond symbolic message1).1 =
      .ok (message2, cipher)

def Spec (w : World) (n : ℕ) : Party → Prop
  | .static => True
  | .client run => ClientSpec w n run
  | .server run => ServerSpec w n run

structure Inv (w : World) : Prop where
  seen : ∀ t ∈ w.seen, t.Safe w.Sent
  party : ∀ n p, w.parties[n]? = some p → Spec w n p

/-- Static keys stay, and what was sent was sent. -/
structure Grows (w w' : World) : Prop where
  static : ∀ {n : ℕ}, w.parties[n]? = some .static → w'.parties[n]? = some .static
  sent : ∀ t, w.Sent t → w'.Sent t

variable {w w' : World} {p p' : Party}

lemma Spec.mono (h : Spec w n p) (hgrows : Grows w w') : Spec w' n p := by
  cases p with
  | static => trivial
  | client run =>
    cases h with
    | new limits handshake message1 session => exact .new limits handshake message1 session
    | started limits handshake message1 session =>
      exact .started limits handshake message1 session
    | done limits state message1 session =>
      refine .done limits state message1 fun message cipher hsession => ?_
      obtain ⟨hfinish, hsafe⟩ := session message cipher hsession
      exact ⟨hfinish, hsafe.mono hgrows.sent⟩
  | server run =>
    exact ⟨hgrows.static h.static, h.fresh, h.answered⟩

lemma Inv.grow (h : Inv w) (hgrows : Grows w w')
    (hseen : ∀ t ∈ w'.seen, t ∈ w.seen ∨ t.Safe w'.Sent)
    (hparty : ∀ n p, w'.parties[n]? = some p → w.parties[n]? = some p ∨ Spec w' n p) :
    Inv w' where
  seen t ht := (hseen t ht).elim (fun hold => (h.seen t hold).mono hgrows.sent) id
  party n p hp := (hparty n p hp).elim (fun hold => (h.party n p hold).mono hgrows) id

/-- A party more. -/
lemma Inv.join (h : Inv w) (ts : List Term)
    (hspec : ∀ w', Grows w w' → Spec w' w.parties.length p)
    (hts : ∀ t ∈ ts, t.Safe ((w.join p).see ts).Sent) : Inv ((w.join p).see ts) := by
  have hgrows : Grows w ((w.join p).see ts) := by
    constructor
    · intro n hn
      exact (List.getElem?_append_left (List.getElem?_eq_some_iff.mp hn).1).trans hn
    · rintro t ⟨q, hq, hsent⟩
      exact ⟨q, List.mem_append_left _ hq, hsent⟩
  refine h.grow hgrows (fun t ht => (List.mem_append.mp ht).symm.imp id (hts t)) fun n q hq => ?_
  change (w.parties ++ [p])[n]? = some q at hq
  rcases Nat.lt_or_ge n w.parties.length with hlt | hge
  · rw [List.getElem?_append_left hlt] at hq
    exact .inl hq
  · rw [List.getElem?_append_right hge, List.getElem?_singleton] at hq
    split at hq
    · next heq =>
      obtain rfl := Option.some.inj hq
      rw [Nat.le_antisymm (Nat.sub_eq_zero_iff_le.mp heq) hge]
      exact .inr (hspec _ hgrows)
    · cases hq

/-- A run goes on, and has still sent what it had. -/
lemma Inv.update (h : Inv w) (ts : List Term) (hp : w.parties[n]? = some p) (hne : p ≠ .static)
    (hsent : ∀ t, p.sent = some t → p'.sent = some t)
    (hspec : ∀ w', Grows w w' → Spec w' n p')
    (hts : ∀ t ∈ ts, t.Safe ((w.update n p').see ts).Sent) : Inv ((w.update n p').see ts) := by
  have hlt : n < w.parties.length := (List.getElem?_eq_some_iff.mp hp).1
  have hgrows : Grows w ((w.update n p').see ts) := by
    constructor
    · intro m hm
      have hmn : n ≠ m := by
        rintro rfl
        exact hne (Option.some.inj (hp.symm.trans hm))
      exact (List.getElem?_set_ne hmn).trans hm
    · rintro t ⟨q, hq, hqt⟩
      obtain ⟨m, hm⟩ := List.mem_iff_getElem?.mp hq
      by_cases hmn : n = m
      · subst hmn
        obtain rfl := Option.some.inj (hp.symm.trans hm)
        exact ⟨p', List.mem_set hlt p', hsent t hqt⟩
      · exact ⟨q, List.mem_iff_getElem?.mpr ⟨m, (List.getElem?_set_ne hmn).trans hm⟩, hqt⟩
  refine h.grow hgrows (fun t ht => (List.mem_append.mp ht).symm.imp id (hts t)) fun m q hq => ?_
  change (w.parties.set n p')[m]? = some q at hq
  by_cases hmn : n = m
  · subst hmn
    rw [List.getElem?_set_self hlt] at hq
    obtain rfl := Option.some.inj hq
    exact .inr (hspec _ hgrows)
  · rw [List.getElem?_set_ne hmn] at hq
    exact .inl hq

/-! ### One step -/

lemma ClientHandshake.start_of_ne {c : ClientHandshake Scalar Term} (h : c.state ≠ .new) :
    c.start symbolic =
      (.error (.session ⟨"handshake already started", .PROTOCOL_VIOLATION⟩), c) := if_pos h

lemma ClientHandshake.finish_of_ne {c : ClientHandshake Scalar Term} {message : Message Term}
    (h : c.state ≠ .started) : c.finish symbolic message =
      (.error ⟨"handshake not awaiting message 2", .PROTOCOL_VIOLATION⟩, c) := if_pos h

lemma ClientHandshake.state_start {c : ClientHandshake Scalar Term} (h : c.state = .new) :
    (c.start symbolic).2.state = .started := by
  rw [ClientHandshake.start, if_neg (not_not.mpr h)]

lemma ClientHandshake.state_finish {c : ClientHandshake Scalar Term} (h : c.state = .started)
    (message : Message Term) : (c.finish symbolic message).2.state = .done := by
  rw [ClientHandshake.finish, if_neg (not_not.mpr h)]
  split
  · rfl
  · dsimp only
    split <;> rfl

lemma ServerHandshake.used_respond (s : ServerHandshake Scalar Term) (message : Message Term) :
    (s.respond symbolic message).2.used = true := by
  unfold ServerHandshake.respond
  split
  · assumption
  split
  · rfl
  dsimp only
  split
  · rfl
  split <;> rfl

lemma safe_of_sent {sent : Term → Prop} {t k ad : Term} (h : sent t)
    (hsealed : t = .sealed k 0 ad (.bytes [])) : t.Safe sent := by
  subst hsealed
  exact ⟨trivial, .inr h⟩

/-- A run to which nothing happens. -/
lemma Inv.same (h : Inv w) (hp : w.parties[n]? = some p) (hne : p ≠ .static) :
    Inv (w.update n p) :=
  h.update [] hp hne (fun _ => id) (fun _ hgrows => (h.party n p hp).mono hgrows) (by simp)

lemma Inv.start (h : Inv w) {run : ClientRun} (hrun : w.parties[n]? = some (.client run)) :
    Inv (w.start n run) := by
  have hlt : n < w.parties.length := (List.getElem?_eq_some_iff.mp hrun).1
  by_cases hstate : run.handshake.state = .new
  · cases h.party n _ hrun with
    | new limits handshake message1 session =>
      unfold World.start
      dsimp only
      rw [handshake]
      split
      · next error herror =>
        refine h.update [] hrun (by simp) (by simp [Party.sent, message1]) ?_ (by simp)
        refine fun w' _ => .started limits rfl ?_ session
        rw [herror]
        exact message1
      · next message hok =>
        refine h.update _ hrun (by simp) (by simp [Party.sent, message1]) ?_ ?_
        · refine fun w' _ => .started limits rfl ?_ session
          rw [hok]
          rfl
        · obtain ⟨s, -, rfl⟩ := start_eq_ok hok
          simp only [List.mem_cons, List.not_mem_nil, or_false, forall_eq_or_imp, forall_eq]
          exact ⟨Term.safe_publicKey _, safe_of_sent ⟨_, List.mem_set hlt _, rfl⟩ rfl⟩
    | started limits handshake =>
      rw [handshake, ClientHandshake.state_start rfl] at hstate
      cases hstate
    | done limits state =>
      rw [state] at hstate
      cases hstate
  · rw [World.start, ClientHandshake.start_of_ne hstate]
    exact h.same hrun (by simp)

lemma Inv.finish (h : Inv w) {run : ClientRun} (hrun : w.parties[n]? = some (.client run))
    {message : Message Term} (hsafe : message.payload.Safe w.Sent) :
    Inv (w.finish n run message) := by
  by_cases hstate : run.handshake.state = .started
  · cases h.party n _ hrun with
    | new limits handshake =>
      rw [handshake] at hstate
      cases hstate
    | started limits handshake message1 session =>
      have hdone := ClientHandshake.state_finish hstate message
      unfold World.finish
      dsimp only
      split
      · refine h.update [] hrun (by simp) (fun _ => id) ?_ (by simp)
        exact fun w' _ => .done limits hdone message1 (by simp [session])
      · next cipher hok =>
        refine h.update [] hrun (by simp) (fun _ => id) ?_ (by simp)
        refine fun w' hgrows => .done limits hdone message1 fun m c hsession => ?_
        obtain ⟨rfl, rfl⟩ := Prod.mk.inj (Option.some.inj hsession)
        rw [← handshake]
        exact ⟨hok, hsafe.mono hgrows.sent⟩
    | done limits state =>
      rw [state] at hstate
      cases hstate
  · rw [World.finish, ClientHandshake.finish_of_ne hstate]
    exact h.same hrun (by simp)

lemma Inv.respond (h : Inv w) {run : ServerRun} (hrun : w.parties[n]? = some (.server run))
    (message1 : Message Term) : Inv (w.respond n run message1) := by
  have hlt : n < w.parties.length := (List.getElem?_eq_some_iff.mp hrun).1
  have hspec : ServerSpec w n run := h.party n _ hrun
  have hused := ServerHandshake.used_respond run.handshake message1
  cases hfresh : run.handshake.used with
  | true =>
    rw [World.respond, ServerHandshake.respond, if_pos hfresh]
    exact h.same hrun (by simp)
  | false =>
    obtain ⟨hnone, limits, hhandshake⟩ := hspec.fresh hfresh
    unfold World.respond
    dsimp only
    split
    · refine h.update [] hrun (by simp) (fun _ => id) ?_ (by simp)
      refine fun w' hgrows => ⟨hgrows.static hspec.static, fun hunused => ?_, hspec.answered⟩
      rw [hused] at hunused
      cases hunused
    · next message cipher hok =>
      refine h.update _ hrun (by simp) (by simp [Party.sent, hnone]) ?_ ?_
      · refine fun w' hgrows => ⟨hgrows.static hspec.static, fun hunused => ?_,
          fun m1 m2 c hanswered => ?_⟩
        · rw [hused] at hunused
          cases hunused
        · obtain ⟨rfl, hrest⟩ := Prod.mk.inj (Option.some.inj hanswered)
          obtain ⟨rfl, rfl⟩ := Prod.mk.inj hrest
          rw [hhandshake] at hok
          exact ⟨limits, hok⟩
      · rw [hhandshake] at hok
        obtain ⟨s, -, he, hpayload, -⟩ := respond_eq_ok hok
        simp only [List.mem_cons, List.not_mem_nil, or_false, forall_eq_or_imp, forall_eq]
        constructor
        · rw [he]
          exact Term.safe_publicKey _
        · exact safe_of_sent ⟨_, List.mem_set hlt _, rfl⟩ hpayload

lemma Inv.step (h : Inv w) {event : Event} (hallowed : w.Allowed event) : Inv (w.step event) := by
  cases event with
  | keygen =>
    refine h.join _ (fun _ _ => trivial) ?_
    simp only [List.mem_singleton, forall_eq]
    exact Term.safe_publicKey _
  | connect options =>
    unfold World.step
    dsimp only
    split
    · exact h
    · next handshake hnew =>
      obtain ⟨limits, rfl⟩ := clientStart_of_new hnew
      exact h.join [] (fun _ _ => .new limits rfl rfl rfl) (by simp)
  | start n =>
    unfold World.step
    dsimp only
    split
    · next run hrun => exact h.start hrun
    · exact h
  | finish n message =>
    unfold World.step
    dsimp only
    split
    · next run hrun => exact h.finish hrun (hallowed.2.safe h.seen)
    · exact h
  | serve static name role limits =>
    unfold World.step
    dsimp only
    split
    · next hstatic =>
      split
      · exact h
      · next handshake hnew =>
        obtain ⟨limits', rfl⟩ := serverStart_of_new hnew
        refine h.join [] (fun w' hgrows => ?_) (by simp)
        exact ⟨hgrows.static hstatic, fun _ => ⟨rfl, limits', rfl⟩, by simp⟩
    · exact h
  | respond n message =>
    unfold World.step
    dsimp only
    split
    · next run hrun => exact h.respond hrun message
    · exact h

/-- **The runs stand so in every world that is reached.** -/
theorem Reachable.inv (h : Reachable w) : Inv w := by
  induction h with
  | initial => exact ⟨by simp, by simp⟩
  | step _ hallowed ih => exact ih.step hallowed

/-! ### Agreement -/

/-- What two honest scalars have shared keeps the keys of the session. -/
lemma not_derives_keys (h : Inv w) (m : ℕ) (b : Multiset Scalar) :
    ¬ Derives w.seen (forward {.honest n, .honest m} b) ∧
      ¬ Derives w.seen (backward {.honest n, .honest m} b) :=
  ⟨fun hkey => Term.not_safe_shared n m (hkey.safe h.seen).1.1.2,
    fun hkey => Term.not_safe_shared n m (hkey.safe h.seen).1.1.2⟩

/-- A session of a client that asked for a point, and what it came from. -/
lemma ClientSpec.session_eq {run : ClientRun} (h : ClientSpec w n run) {s : Multiset Scalar}
    (hkey : run.key.publicKey = .point s) {message2 : Message Term} {cipher : SessionCipher Term}
    (hsession : run.session = some (message2, cipher)) :
    run.message1 =
        some (firstMessage n (opening run.key.role run.key.scope run.key.publicKey) s) ∧
      message2.payload.Safe w.Sent ∧ ∃ limits,
        (((clientStart n run.key limits).start symbolic).2.finish symbolic message2).1 =
          .ok cipher := by
  cases h with
  | new limits handshake message1 session =>
    rw [session] at hsession
    cases hsession
  | started limits handshake message1 session =>
    rw [session] at hsession
    cases hsession
  | done limits state message1 session =>
    obtain ⟨hfinish, hsafe⟩ := session _ _ hsession
    refine ⟨message1.trans ?_, hsafe, limits, hfinish⟩
    simp only [clientStart, hkey]
    rfl

/-- The key is one of a session in which the honest scalar `n` is. -/
def Holds (t : Term) (n : ℕ) : Prop :=
  ∃ ck s, t = .first (.first ck (.point (.honest n ::ₘ s))) (.bytes []) ∨
    t = .second (.first ck (.point (.honest n ::ₘ s))) (.bytes [])

lemma Holds.mem {a b : Multiset Scalar} (h : Holds (forward a b) n ∨ Holds (backward a b) n) :
    .honest n ∈ b := by
  rcases h with ⟨ck, s, h | h⟩ | ⟨ck, s, h | h⟩ <;>
    simp only [forward, backward, chained, Term.first.injEq, Term.second.injEq, Term.point.injEq,
      reduceCtorEq, and_true] at h
  all_goals
    rw [h.2]
    exact Multiset.mem_cons_self _ _

lemma secretKey_start : ((clientStart n key limits).start symbolic).2.noise.e = pair n := by
  unfold ClientHandshake.start NkInitiator.writeMessage1
  split
  · rfl
  dsimp only
  split
  · rfl
  split <;> rfl

lemma finish_holds {message : Message Term} {cipher : SessionCipher Term}
    (h : (((clientStart n key limits).start symbolic).2.finish symbolic message).1 =
      .ok cipher) : Holds cipher.sendKey n ∧ Holds cipher.receiveKey n := by
  unfold ClientHandshake.finish at h
  split at h
  · cases h
  split at h
  · cases h
  dsimp only at h
  split at h
  · cases h
  next p split hread =>
  obtain ⟨t, -, -, rfl⟩ := readMessage2_eq_ok hread
  obtain rfl := Except.ok.inj h
  rw [secretKey_start]
  exact ⟨⟨_, t, .inl rfl⟩, ⟨_, t, .inr rfl⟩⟩

/-- The keys of every session are of its own run. -/
lemma Spec.holds (h : Spec w n p) {cipher : SessionCipher Term}
    (hsession : p.session = some cipher) :
    Holds cipher.sendKey n ∧ Holds cipher.receiveKey n := by
  cases p with
  | static => cases hsession
  | client run =>
    obtain ⟨⟨message, _⟩, hrun, rfl⟩ := Option.map_eq_some_iff.mp hsession
    cases h with
    | new limits handshake message1 session =>
      rw [session] at hrun
      cases hrun
    | started limits handshake message1 session =>
      rw [session] at hrun
      cases hrun
    | done limits state message1 session => exact finish_holds (session _ _ hrun).1
  | server run =>
    obtain ⟨⟨message1, message2, _⟩, hrun, rfl⟩ := Option.map_eq_some_iff.mp hsession
    obtain ⟨limits, hrespond⟩ := ServerSpec.answered h _ _ _ hrun
    obtain ⟨s, -, -, -, hsend, hreceive, -⟩ := respond_eq_ok hrespond
    exact ⟨⟨_, s, .inr hsend⟩, ⟨_, s, .inl hreceive⟩⟩

/-- What a client and a service node agree on: the messages, the hash and the keys, which nobody
else has. -/
structure Agreement (w : World) (n m : ℕ) (client : ClientRun) (server : ServerRun)
    (message2 : Message Term) (cipher : SessionCipher Term) : Prop where
  joined : w.parties[m]? = some (.server server)
  key : client.key.publicKey = .publicKey (.honest server.static)
  name : server.name = client.key.scope
  role : server.role = client.key.role
  messages : ∃ message1 cipher', client.message1 = some message1 ∧
    server.answered = some (message1, message2, cipher') ∧ cipher'.hash = cipher.hash ∧
    cipher'.receiveKey = cipher.sendKey ∧ cipher'.sendKey = cipher.receiveKey
  directions : cipher.sendKey ≠ cipher.receiveKey
  secret : ¬ Derives w.seen cipher.sendKey ∧ ¬ Derives w.seen cipher.receiveKey
  unshared : ∀ p party other, w.parties[p]? = some party → party.session = some other →
    other.sendKey ∈ [cipher.sendKey, cipher.receiveKey] ∨
      other.receiveKey ∈ [cipher.sendKey, cipher.receiveKey] → p = n ∨ p = m

/-- The second message was not sealed by the attacker, so a service node has sealed it. -/
lemma sealed_by_server (h : Inv w) {h₁ e plaintext : Term} {s : ℕ} {b : Multiset Scalar}
    {payload : Term} (hpayload : payload = .sealed
      (.second (.first ck₀ (.point {.honest n, .honest s})) (.point b)) 0 (.hash h₁ e) plaintext)
    (hsafe : payload.Safe w.Sent) :
    ∃ (m : ℕ) (server : ServerRun) (message1 message2 : Message Term)
      (cipher : SessionCipher Term), w.parties[m]? = some (.server server) ∧
      server.answered = some (message1, message2, cipher) ∧ message2.payload = payload := by
  have hsent : w.Sent payload := by
    subst hpayload
    exact hsafe.2.resolve_left fun hkey => Term.not_safe_shared n s hkey.1.2
  obtain ⟨p, hp, hsent⟩ := hsent
  obtain ⟨m, hm⟩ := List.mem_iff_getElem?.mp hp
  cases p with
  | static => cases hsent
  | server server =>
    obtain ⟨⟨message1, message2, cipher⟩, hanswered, hsame⟩ := Option.map_eq_some_iff.mp hsent
    exact ⟨m, server, message1, message2, cipher, hm, hanswered, hsame⟩
  | client run =>
    -- a first message is sealed under a key that is chained to nothing before
    exfalso
    obtain ⟨message1, hmessage, rfl⟩ := Option.map_eq_some_iff.mp hsent
    have hstart {limits : ResolvedLimits} (hstart : run.message1 =
        ((clientStart m run.key limits).start symbolic).1.toOption) : False := by
      rw [hmessage] at hstart
      obtain ⟨t, -, rfl⟩ := start_eq_ok (toOption_eq_some.mp hstart.symm)
      simp only [firstMessage, Term.sealed.injEq, Term.second.injEq] at hpayload
      exact ck₀_ne_first _ _ hpayload.1.1
    cases h.party m _ hm with
    | new limits handshake message1 =>
      rw [message1] at hmessage
      cases hmessage
    | started limits handshake message1 => exact hstart message1
    | done limits state message1 => exact hstart message1

/-- **A handshake that a client finishes is one that the holder of the key has answered.** -/
theorem handshake_agreement (hreachable : Reachable w) {client : ClientRun}
    (hclient : w.parties[n]? = some (.client client)) {s : ℕ}
    (hkey : client.key.publicKey = .publicKey (.honest s)) {message2 : Message Term}
    {cipher : SessionCipher Term} (hsession : client.session = some (message2, cipher)) :
    ∃ m server, Agreement w n m client server message2 cipher := by
  have h := hreachable.inv
  obtain ⟨hmessage1, hsafe, limits, hfinish⟩ :=
    ClientSpec.session_eq (h.party n _ hclient) hkey hsession
  obtain ⟨t, plaintext, he, hpayload, hsend, hreceive, hhash⟩ := finish_eq_ok hkey hfinish
  obtain ⟨m, server, message1, message2', cipher', hm, hanswered, hsame⟩ :=
    sealed_by_server h hpayload hsafe
  have hserver : ServerSpec w m server := h.party m _ hm
  obtain ⟨limits', hrespond⟩ := hserver.answered _ _ _ hanswered
  obtain ⟨a, ha, he', hpayload', hsend', hreceive', hhash'⟩ := respond_eq_ok hrespond
  -- both have sealed the same, under the same key and with the same hash
  have hseals := hpayload'.symm.trans (hsame.trans hpayload)
  simp only [Term.sealed.injEq, Term.second.injEq, Term.first.injEq, Term.point.injEq,
    Term.hash.injEq, true_and] at hseals
  obtain ⟨⟨hchain, hpoint⟩, ⟨hheard, hsecond⟩, -⟩ := hseals
  obtain ⟨hopening, rfl⟩ := after_injective hheard
  obtain ⟨hrole, hname, hstatic⟩ := opening_injective hopening
  obtain rfl : message2' = message2 := Message.ext hsecond hsame
  obtain rfl : a = {.honest n} := (Term.point.inj ha).symm
  rw [hchain, hpoint] at hsend' hreceive'
  refine ⟨m, server, hm, hstatic.symm, hname, hrole,
    ⟨_, cipher', hmessage1, hanswered, ?_, hreceive'.trans hsend.symm,
      hsend'.trans hreceive.symm⟩, ?_, ?_, ?_⟩
  · rw [hhash, hhash', hopening]
  · rw [hsend, hreceive]
    simp [forward, backward]
  · rw [hsend, hreceive]
    exact not_derives_keys h s _
  · intro p party other hp hother hshared
    obtain ⟨hsendHeld, hreceiveHeld⟩ := (h.party p party hp).holds hother
    rw [hsend, hreceive, ← hpoint] at hshared
    have hmem : Scalar.honest p ∈ Scalar.honest m ::ₘ {Scalar.honest n} := by
      simp only [List.mem_cons, List.not_mem_nil, or_false] at hshared
      rcases hshared with (h | h) | (h | h)
      · exact Holds.mem (.inl (h ▸ hsendHeld))
      · exact Holds.mem (.inr (h ▸ hsendHeld))
      · exact Holds.mem (.inl (h ▸ hreceiveHeld))
      · exact Holds.mem (.inr (h ▸ hreceiveHeld))
    simpa [or_comm] using hmem

/-- The message that was sent last. -/
def World.last (w : World) : Message Term := ⟨w.seen.getD 0 (.point 0), w.seen.getD 1 (.point 0)⟩

lemma derives_getD (seen : List Term) (i : ℕ) : Derives seen (seen.getD i (.point 0)) := by
  rw [List.getD]
  cases hi : seen[i]? with
  | none => exact .base
  | some t => exact .seen (List.mem_of_getElem? hi)

/-- A client has finished with the key of the honest scalar `s`. -/
def Party.finished (s : ℕ) : Party → Bool
  | client run => run.key.publicKey = .publicKey (.honest s) && run.session.isSome
  | _ => false

/-- A client asks for the key of a service node, and each hears what the other has sent. -/
def exchange : World :=
  let connected := (({} : World).step .keygen).step (.connect
    { serverKey := ⟨.publicKey (.honest 0), .SERVICE_NODE, "shop.ox",
        ⟨1, one_le_max_safe_integer⟩, true⟩
      name := "shop.ox"
      now := 0 })
  let asked := (connected.step (.start 1)).step (.serve 0 "shop.ox" none {})
  let answered := asked.step (.respond 2 asked.last)
  answered.step (.finish 1 answered.last)

lemma reachable_exchange : Reachable exchange := by
  unfold exchange
  apply Reachable.step
  · apply Reachable.step
    · iterate 4 refine .step ?_ (by trivial)
      exact .initial
    · exact ⟨derives_getD _ 0, derives_getD _ 1⟩
  · exact ⟨derives_getD _ 0, derives_getD _ 1⟩

theorem handshake_agreement_exchange : ∃ client message2 cipher,
    exchange.parties[1]? = some (.client client) ∧ client.session = some (message2, cipher) ∧
      ∃ m server, Agreement exchange 1 m client server message2 cipher := by
  have hfinished : (exchange.parties[1]?).any (Party.finished 0) = true := by decide +kernel
  obtain ⟨p, hp, hfinished⟩ := (Option.any_eq_true _ _).mp hfinished
  cases p with
  | client client =>
    simp only [Party.finished, Bool.and_eq_true, decide_eq_true_eq] at hfinished
    obtain ⟨hkey, hsession⟩ := hfinished
    obtain ⟨⟨message2, cipher⟩, hsession⟩ := Option.isSome_iff_exists.mp hsession
    exact ⟨client, message2, cipher, hp, hsession,
      handshake_agreement reachable_exchange hp hkey hsession⟩
  | _ => cases hfinished

end Tnp.Protocol.Handshake
