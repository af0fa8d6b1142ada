import Tnp.Crypto.Utf16
import Tnp.Lib.Fallible
import Tnp.Lib.Symbolic
import Tnp.Protocol.Handshake

/-!
The handshake on terms: what each end computes, and from what.
-/

namespace Tnp.Protocol.Handshake

open Tnp.Lib Tnp.Lib.Symbolic Tnp.Crypto Tnp.Crypto.KeyAgreement Tnp.Protocol.Session
  Tnp.Protocol.Noise

/-- The primitives on terms. What is no power of the base point is refused as a public key. -/
def symbolic : Suite Scalar Term where
  bytes := .bytes
  length := Term.length
  publicKey := Term.publicKey
  assertValid key := match key with
    | .point _ => .ok ()
    | _ => .error "X25519 public key has small order"
  x25519 x key := match key with
    | .point s => .ok (.point (x ::ₘ s))
    | _ => .error "X25519 produced the all-zero output (small-order peer key)"
  hash := .hash
  hkdf2 ck ikm := (.first ck ikm, .second ck ikm)
  aeadSeal := .sealed
  aeadOpen k n ad ciphertext := match ciphertext with
    | .sealed k' n' ad' plaintext => if k' = k ∧ n' = n ∧ ad' = ad then some plaintext else none
    | _ => none
  wiped := .attacker 0
  zeros := .bytes (List.replicate 32 0)

/-- The pair of the honest scalar of a place. -/
def pair (n : ℕ) : KeyPair Scalar Term := ⟨.publicKey (.honest n), .honest n⟩

lemma symbolic_lawful : Lawful symbolic where
  x25519_ok x y := ⟨.point (x ::ₘ {y}), rfl⟩
  x25519_comm x y := congrArg (fun s => Except.ok (Term.point s)) (Multiset.pair_comm x y)
  aeadOpen_aeadSeal _ _ _ _ := if_pos ⟨rfl, rfl, rfl⟩
  length_aeadSeal _ _ _ _ := rfl
  length_empty := rfl

/-- What a client of one relay asks for. -/
def relayOptions : ClientHandshakeOptions Term where
  serverKey := ⟨.publicKey (.honest 0), .RELAY, "r.ox", ⟨1, one_le_max_safe_integer⟩, true⟩
  name := "r.ox"
  now := 0

theorem exchange_completes_symbolic : ∃ client server,
    ClientHandshake.new symbolic relayOptions (pair 1) = .ok client ∧
      ServerHandshake.new symbolic ⟨pair 0, "r.ox", some .RELAY, {}⟩ (pair 2) = .ok server ∧
      ∃ message1 message2 c s, (client.start symbolic).1 = .ok message1 ∧
        (server.respond symbolic message1).1 = .ok (message2, s) ∧
        ((client.start symbolic).2.finish symbolic message2).1 = .ok c ∧
        c.sendKey = s.receiveKey ∧ c.receiveKey = s.sendKey ∧ c.hash = s.hash := by
  obtain ⟨client, hclient⟩ : ∃ client,
      ClientHandshake.new symbolic relayOptions (pair 1) = .ok client := ⟨_, rfl⟩
  obtain ⟨server, hserver⟩ : ∃ server,
      ServerHandshake.new symbolic ⟨pair 0, "r.ox", some .RELAY, {}⟩ (pair 2) = .ok server :=
    ⟨_, rfl⟩
  exact ⟨client, server, hclient, hserver,
    exchange_completes symbolic_lawful hclient hserver rfl rfl rfl⟩

/-! ### The prologue -/

lemma prologue_injective {role role' : KeyAgreementRole} {name name' : String}
    (h : sessionPrologue role name = sessionPrologue role' name') :
    role = role' ∧ name = name' := by
  simp only [sessionPrologue, CanonicalWriter.string, CanonicalWriter.bytesPrefixed,
    CanonicalWriter.fixed, CanonicalWriter.finish, List.append_assoc, List.append_cancel_left_eq]
    at h
  obtain ⟨hlength, h⟩ := List.append_inj h (by simp only [length_be])
  have hrole : role = role' := by
    have htexts := be_injective (by cases role <;> decide) (by cases role' <;> decide) hlength
    cases role <;> cases role' <;> first | rfl | exact absurd htexts (by decide)
  subst hrole
  rw [List.append_cancel_left_eq] at h
  exact ⟨rfl, utf8_injective (List.append_inj h (by simp only [length_be])).2⟩

/-! ### The core, on terms -/

/-- What opens under a fresh key was sealed under it, with the hash there is. -/
lemma decryptAndHash_eq_ok {ss ss' : SymmetricState Term} {shared ciphertext plaintext : Term}
    (h : (ss.mixKey symbolic shared).decryptAndHash symbolic ciphertext = (.ok plaintext, ss')) :
    ciphertext = .sealed (.second ss.ck shared) 0 ss.h plaintext ∧
      ss'.ck = .first ss.ck shared ∧ ss'.h = .hash ss.h ciphertext := by
  cases ciphertext with
  | sealed k n ad p =>
    by_cases hopen : k = .second ss.ck shared ∧ n = 0 ∧ ad = ss.h
    · obtain ⟨rfl, rfl, rfl⟩ := hopen
      simp [SymmetricState.decryptAndHash, SymmetricState.mixKey, SymmetricState.mixHash,
        symbolic] at h
      obtain ⟨rfl, rfl⟩ := h
      exact ⟨rfl, rfl, rfl⟩
    · simp [SymmetricState.decryptAndHash, SymmetricState.mixKey, symbolic, hopen] at h
  | _ => simp [SymmetricState.decryptAndHash, SymmetricState.mixKey, symbolic] at h

lemma dh_eq_ok {x : Scalar} {key shared : Term} (h : dh symbolic x key = .ok shared) :
    ∃ s, key = .point s ∧ shared = .point (x ::ₘ s) := by
  cases key with
  | point s => exact ⟨s, rfl, (Except.ok.inj h).symm⟩
  | _ => cases h

lemma readMessage2_eq_ok {i : NkInitiator Scalar Term} {message : Message Term} {payload : Term}
    {split : NoiseSplit Term} (h : (i.readMessage2 symbolic message).1 = .ok (payload, split)) :
    ∃ t, message.e = .point t ∧
      message.payload = .sealed (.second i.ss.ck (.point (i.e.secretKey ::ₘ t))) 0
        (.hash i.ss.h message.e) payload ∧
      split = ⟨.first (.first i.ss.ck (.point (i.e.secretKey ::ₘ t))) (.bytes []),
        .second (.first i.ss.ck (.point (i.e.secretKey ::ₘ t))) (.bytes []),
        .hash (.hash i.ss.h message.e) message.payload⟩ := by
  unfold NkInitiator.readMessage2 at h
  split at h
  · cases h
  dsimp only at h
  split at h
  · cases h
  next shared hshared =>
  obtain ⟨t, he, rfl⟩ := dh_eq_ok hshared
  split at h
  · cases h
  next hopen =>
  obtain ⟨hpayload, hck, hh⟩ := decryptAndHash_eq_ok hopen
  obtain ⟨rfl, rfl⟩ := Prod.mk.inj (Except.ok.inj h)
  refine ⟨t, he, hpayload, ?_⟩
  simp only [SymmetricState.split, hck, hh]
  rfl

lemma readMessage1_eq_ok {r r' : NkResponder Scalar Term} {message : Message Term}
    {payload : Term} (h : r.readMessage1 symbolic message = (.ok payload, r')) :
    ∃ s, message.e = .point s ∧
      message.payload = .sealed (.second r.ss.ck (.point (r.s.secretKey ::ₘ s))) 0
        (.hash r.ss.h message.e) payload ∧
      r'.re = some message.e ∧ r'.e = r.e ∧
      r'.ss.ck = .first r.ss.ck (.point (r.s.secretKey ::ₘ s)) ∧
      r'.ss.h = .hash (.hash r.ss.h message.e) message.payload := by
  unfold NkResponder.readMessage1 at h
  split at h
  · cases h
  dsimp only at h
  split at h
  · cases h
  next shared hshared =>
  obtain ⟨s, he, rfl⟩ := dh_eq_ok hshared
  split at h
  · cases h
  next hopen =>
  obtain ⟨hpayload, hck, hh⟩ := decryptAndHash_eq_ok hopen
  obtain ⟨hok, rfl⟩ := Prod.mk.inj h
  obtain rfl := Except.ok.inj hok
  exact ⟨s, he, hpayload, rfl, rfl, hck, hh⟩

lemma writeMessage2_eq_ok {r : NkResponder Scalar Term} {s : Multiset Scalar}
    (hre : r.re = some (.point s)) {message : Message Term} {split : NoiseSplit Term}
    (h : (r.writeMessage2 symbolic (empty symbolic)).1 = .ok (message, split)) :
    message.e = r.e.publicKey ∧
      message.payload = .sealed (.second r.ss.ck (.point (r.e.secretKey ::ₘ s))) 0
        (.hash r.ss.h message.e) (.bytes []) ∧
      split = ⟨.second (.first r.ss.ck (.point (r.e.secretKey ::ₘ s))) (.bytes []),
        .first (.first r.ss.ck (.point (r.e.secretKey ::ₘ s))) (.bytes []),
        .hash (.hash r.ss.h message.e) message.payload⟩ := by
  unfold NkResponder.writeMessage2 at h
  rw [hre] at h
  dsimp only at h
  split at h
  · cases h
  obtain ⟨rfl, rfl⟩ := Prod.mk.inj (Except.ok.inj h)
  exact ⟨rfl, rfl, rfl⟩

/-! ### What the ends compute -/

/-- The chaining key before any message. -/
def ck₀ : Term := (SymmetricState.new symbolic NOISE_PROTOCOL_NAME).ck

lemma ck₀_ne_first (a b : Term) : ck₀ ≠ .first a b := by
  unfold ck₀ SymmetricState.new
  dsimp only
  split <;> simp [symbolic]

/-- The hash before any message. -/
def opening (role : KeyAgreementRole) (name : String) (key : Term) : Term :=
  .hash (.hash ck₀ (.bytes (sessionPrologue role name))) key

/-- The chaining key after the exponents of both messages, and the keys of the session. -/
def chained (a b : Multiset Scalar) : Term := .first (.first ck₀ (.point a)) (.point b)

def forward (a b : Multiset Scalar) : Term := .first (chained a b) (.bytes [])
def backward (a b : Multiset Scalar) : Term := .second (chained a b) (.bytes [])

/-- The first message of the honest scalar `n`. -/
def firstMessage (n : ℕ) (h : Term) (s : Multiset Scalar) : Message Term where
  e := .publicKey (.honest n)
  payload := .sealed (.second ck₀ (.point (.honest n ::ₘ s))) 0
    (.hash h (.publicKey (.honest n))) (.bytes [])

/-- The hash after a message. -/
def after (h : Term) (m : Message Term) : Term := .hash (.hash h m.e) m.payload

lemma opening_injective {role role' : KeyAgreementRole} {name name' : String} {key key' : Term}
    (h : opening role name key = opening role' name' key') :
    role = role' ∧ name = name' ∧ key = key' := by
  simp only [opening, Term.hash.injEq, Term.bytes.injEq, true_and] at h
  obtain ⟨hrole, hname⟩ := prologue_injective h.1
  exact ⟨hrole, hname, h.2⟩

lemma after_injective {h h' : Term} {m m' : Message Term} (heq : after h m = after h' m') :
    h = h' ∧ m = m' := by
  simp only [after, Term.hash.injEq] at heq
  exact ⟨heq.1.1, Message.ext heq.1.2 heq.2⟩

def clientStart (n : ℕ) (key : ServerKey Term) (limits : ResolvedLimits) :
    ClientHandshake Scalar Term where
  noise := .new symbolic (.bytes (sessionPrologue key.role key.scope)) key.publicKey (pair n)
  limits

def serverStart (n static : ℕ) (role : KeyAgreementRole) (name : String)
    (limits : ResolvedLimits) : ServerHandshake Scalar Term where
  noise := .new symbolic (.bytes (sessionPrologue role name)) (pair static) (pair n)
  limits

variable {n static : ℕ} {key : ServerKey Term} {limits : ResolvedLimits} {role : KeyAgreementRole}
  {name : String}

lemma start_eq_ok {message : Message Term}
    (h : ((clientStart n key limits).start symbolic).1 = .ok message) :
    ∃ s, key.publicKey = .point s ∧
      message = firstMessage n (opening key.role key.scope key.publicKey) s := by
  cases hkey : key.publicKey with
  | point s =>
    refine ⟨s, rfl, ?_⟩
    simp only [clientStart, hkey] at h
    exact (Except.ok.inj h).symm
  | _ =>
    simp only [clientStart, hkey] at h
    cases h

/-- What a client that has started finishes with. -/
lemma finish_eq_ok {s : Multiset Scalar} (hkey : key.publicKey = .point s)
    {message2 : Message Term} {cipher : SessionCipher Term}
    (h : (((clientStart n key limits).start symbolic).2.finish symbolic message2).1 =
      .ok cipher) :
    let hash := opening key.role key.scope key.publicKey
    let h₁ := after hash (firstMessage n hash s)
    ∃ t p, message2.e = .point t ∧
      message2.payload = .sealed (.second (.first ck₀ (.point (.honest n ::ₘ s)))
        (.point (.honest n ::ₘ t))) 0 (.hash h₁ message2.e) p ∧
      cipher.sendKey = forward (.honest n ::ₘ s) (.honest n ::ₘ t) ∧
      cipher.receiveKey = backward (.honest n ::ₘ s) (.honest n ::ₘ t) ∧
      cipher.hash = after h₁ message2 := by
  simp only [clientStart, hkey] at h ⊢
  unfold ClientHandshake.finish at h
  split at h
  · cases h
  split at h
  · cases h
  dsimp only at h
  split at h
  · cases h
  next p split hread =>
  obtain ⟨t, he, hpayload, rfl⟩ := readMessage2_eq_ok hread
  obtain rfl := Except.ok.inj h
  exact ⟨t, p, he, hpayload, rfl, rfl, rfl⟩

/-- What a service node answers, and to what. -/
lemma respond_eq_ok {message1 message2 : Message Term} {cipher : SessionCipher Term}
    (h : ((serverStart n static role name limits).respond symbolic message1).1 =
      .ok (message2, cipher)) :
    let hash := opening role name (.publicKey (.honest static))
    let h₁ := after hash message1
    ∃ s, message1.e = .point s ∧ message2.e = .publicKey (.honest n) ∧
      message2.payload = .sealed (.second (.first ck₀ (.point (.honest static ::ₘ s)))
        (.point (.honest n ::ₘ s))) 0 (.hash h₁ message2.e) (.bytes []) ∧
      cipher.sendKey = backward (.honest static ::ₘ s) (.honest n ::ₘ s) ∧
      cipher.receiveKey = forward (.honest static ::ₘ s) (.honest n ::ₘ s) ∧
      cipher.hash = after h₁ message2 := by
  unfold ServerHandshake.respond at h
  split at h
  · cases h
  split at h
  · cases h
  dsimp only at h
  split at h
  · cases h
  next payload hread =>
  obtain ⟨s, he, -, hre, hpair, hck, hh⟩ := readMessage1_eq_ok (Prod.ext hread rfl)
  rw [he] at hre
  split at h
  · cases h
  next message split hwrite =>
  obtain ⟨hanswer, hpayload, rfl⟩ := writeMessage2_eq_ok hre hwrite
  obtain ⟨rfl, rfl⟩ := Prod.mk.inj (Except.ok.inj h)
  rw [hpair] at hanswer
  rw [hck, hh, hpair] at hpayload
  refine ⟨s, he, hanswer, hpayload, ?_, ?_, ?_⟩
  · simp only [hck, hpair]
    rfl
  · simp only [hck, hpair]
    rfl
  · simp only [hh]
    rfl

lemma clientStart_of_new {options : ClientHandshakeOptions Term}
    {handshake : ClientHandshake Scalar Term}
    (h : ClientHandshake.new symbolic options (pair n) = .ok handshake) :
    ∃ limits, handshake = clientStart n options.serverKey limits := by
  obtain ⟨hname, limits, rfl⟩ := ClientHandshake.new_eq_ok h
  rw [hname]
  exact ⟨limits, rfl⟩

lemma serverStart_of_new {role : Option KeyAgreementRole} {limits : SessionLimits}
    {handshake : ServerHandshake Scalar Term}
    (h : ServerHandshake.new symbolic ⟨pair static, name, role, limits⟩ (pair n) =
      .ok handshake) :
    ∃ limits, handshake = serverStart n static (role.getD .SERVICE_NODE) name limits := by
  obtain ⟨-, limits, rfl⟩ := ServerHandshake.new_eq_ok h
  exact ⟨limits, rfl⟩

end Tnp.Protocol.Handshake
