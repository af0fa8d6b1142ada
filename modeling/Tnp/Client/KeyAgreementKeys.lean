import Mathlib.Tactic.Linarith
import Tnp.Lib.Run
import Tnp.Crypto.KeyAgreement

/-!
The session keys a service node holds.

A node certifies a fresh key when the certificate of the current one is about to end, and keeps
each key until its certificate has ended, for clients that still have the older one.
-/

namespace Tnp.Crypto.KeyAgreement

open Tnp.Lib

/-! ### Signing a certificate -/

structure UnsignedKeyAgreementCertificate where
  signer : String
  key : String
  role : KeyAgreementRole
  scope : String
  notBefore : ℚ
  notAfter : ℚ
  serial : ℚ
  deriving DecidableEq

structure KeyAgreementCertificate extends UnsignedKeyAgreementCertificate where
  signature : String
  deriving DecidableEq

def UnsignedKeyAgreementCertificate.value (c : UnsignedKeyAgreementCertificate) : Value :=
  .object [("signer", .string c.signer), ("key", .string c.key), ("role", .string c.role.text),
    ("scope", .string c.scope), ("notBefore", .number c.notBefore),
    ("notAfter", .number c.notAfter), ("serial", .number c.serial)]

def assertSecretMatches (secretKey publicKey : Bytes) : Except EncodingError Unit :=
  if secretKey.length ≠ 64 then .error ⟨"Ed25519 secret key must be 64 bytes"⟩
  else if secretKey.drop 32 ≠ publicKey then
    .error ⟨"secret key does not belong to the named public key"⟩
  else .ok ()

/-- `sign` is `nacl.sign.detached`. -/
def signKeyAgreementCertificate (nacl : Nacl) (sign : Bytes → Bytes → Bytes)
    (cert : UnsignedKeyAgreementCertificate) (signerSecretKey : Bytes) :
    Except EncodingError KeyAgreementCertificate := do
  let parsed ← parseUnsigned nacl cert.value false
  assertSecretMatches signerSecretKey parsed.signer.val
  .ok { cert with signature := encodeBase64 (sign (encodeParsed parsed) signerSecretKey) }

/-- What is signed is what was given. -/
lemma unsigned_of_sign {nacl : Nacl} {sign : Bytes → Bytes → Bytes}
    {unsigned : UnsignedKeyAgreementCertificate} {secretKey : Bytes}
    {cert : KeyAgreementCertificate}
    (h : signKeyAgreementCertificate nacl sign unsigned secretKey = .ok cert) :
    cert.toUnsignedKeyAgreementCertificate = unsigned := by
  simp only [signKeyAgreementCertificate, bind, Except.bind] at h
  split at h
  · simp at h
  split at h
  · simp at h
  · rw [← Except.ok.inj h]

end Tnp.Crypto.KeyAgreement

namespace Tnp.Client

open Tnp.Lib Tnp.Crypto Tnp.Crypto.KeyAgreement

def DAY : ℚ := 86400

/-- A certificate is replaced when less than this remains. -/
def RENEW_CERT_BEFORE : ℚ := 4 * DAY

def SKEW : ℚ := 60

structure SigningKeyPair where
  publicKey : Bytes
  secretKey : Bytes

structure X25519KeyPair where
  publicKey : Bytes
  secretKey : Bytes
  deriving DecidableEq

structure StaticKey where
  keyPair : X25519KeyPair
  cert : KeyAgreementCertificate
  deriving DecidableEq

structure KeyAgreementKeys where
  name : String
  nodeKey : SigningKeyPair
  chainNotAfter : ℚ
  keys : List StaticKey := []

namespace KeyAgreementKeys

variable (nacl : Nacl) (sign : Bytes → Bytes → Bytes)

/-- The chain was renewed: later certificates may run to its new end. -/
def setChainNotAfter (s : KeyAgreementKeys) (notAfter : ℚ) : KeyAgreementKeys :=
  { s with chainNotAfter := notAfter }

def current (s : KeyAgreementKeys) : Option StaticKey := s.keys.getLast?

/-- Keys whose certificates are still valid, newest first. -/
def active (s : KeyAgreementKeys) (now : ℚ) : List StaticKey × KeyAgreementKeys :=
  let keys := s.keys.filter fun k => now < k.cert.notAfter
  (keys.reverse, { s with keys })

/-- `notAfter` of a certificate signed now. -/
def certificateEnd (s : KeyAgreementKeys) (now : ℚ) : ℚ :=
  min (now - SKEW + MAX_KEY_AGREEMENT_LIFETIME) s.chainNotAfter

def unsignedCertificate (s : KeyAgreementKeys) (now : ℚ) (keyPair : X25519KeyPair) :
    UnsignedKeyAgreementCertificate where
  signer := encodeBase64 s.nodeKey.publicKey
  key := encodeBase64 keyPair.publicKey
  role := .SERVICE_NODE
  scope := s.name
  notBefore := now - SKEW
  notAfter := s.certificateEnd now
  serial := now

def push (s : KeyAgreementKeys) (k : StaticKey) : KeyAgreementKeys :=
  { s with keys := s.keys ++ [k] }

/-- Certify a fresh key if needed, where `keyPair` is the one that would be generated. -/
def rotateIfNeeded (s : KeyAgreementKeys) (now : ℚ) (keyPair : X25519KeyPair) :
    Except String Bool × KeyAgreementKeys :=
  if s.current.any fun c => decide (RENEW_CERT_BEFORE < c.cert.notAfter - now) then (.ok false, s)
  else if s.certificateEnd now ≤ now then
    (.error "the node grant has expired; cannot certify a session key", s)
  -- capped by a grant that is itself ending: a new key would not last longer
  else if s.current.any fun c => decide (now < c.cert.notAfter) &&
      decide (s.certificateEnd now ≤ c.cert.notAfter) then (.ok false, s)
  else
    match signKeyAgreementCertificate nacl sign (s.unsignedCertificate now keyPair)
        s.nodeKey.secretKey with
    | .error e => (.error e.message, s)
    | .ok cert => (.ok true, ((s.push { keyPair, cert }).active now).2)

/-- When a fresh key is certified: the current one is due, a new certificate would end later than
now and than the current one, and it can be signed. -/
structure Certifies (s : KeyAgreementKeys) (now : ℚ) (keyPair : X25519KeyPair) : Prop where
  due : ∀ c ∈ s.current, c.cert.notAfter - now ≤ RENEW_CERT_BEFORE
  later : now < s.certificateEnd now
  longer : ∀ c ∈ s.current, now < c.cert.notAfter → c.cert.notAfter < s.certificateEnd now
  signed : (signKeyAgreementCertificate nacl sign (s.unsignedCertificate now keyPair)
    s.nodeKey.secretKey).isOk = true

variable {nacl sign} {s : KeyAgreementKeys} {now : ℚ} {keyPair : X25519KeyPair}

/-- All that a call can do. -/
lemma rotateIfNeeded_cases (nacl : Nacl) (sign : Bytes → Bytes → Bytes) (s : KeyAgreementKeys)
    (now : ℚ) (keyPair : X25519KeyPair) :
    (¬ s.Certifies nacl sign now keyPair ∧ (s.rotateIfNeeded nacl sign now keyPair).2 = s ∧
        (s.rotateIfNeeded nacl sign now keyPair).1.toOption ≠ some true) ∨
      (s.Certifies nacl sign now keyPair ∧ ∃ key : StaticKey,
        key.cert.notAfter = s.certificateEnd now ∧
          s.rotateIfNeeded nacl sign now keyPair = (.ok true, ((s.push key).active now).2)) := by
  unfold rotateIfNeeded
  split
  · next hfresh =>
    refine .inl ⟨fun h => ?_, rfl, by simp [Except.toOption]⟩
    obtain ⟨c, hc, hlong⟩ := (Option.any_eq_true _ _).mp hfresh
    exact absurd (h.due c hc) (not_le.mpr (of_decide_eq_true hlong))
  next hdue =>
  split
  · next hended =>
    exact .inl ⟨fun h => absurd h.later (not_lt.mpr hended), rfl, by simp [Except.toOption]⟩
  next hlater =>
  split
  · next hcapped =>
    refine .inl ⟨fun h => ?_, rfl, by simp [Except.toOption]⟩
    obtain ⟨c, hc, hboth⟩ := (Option.any_eq_true _ _).mp hcapped
    obtain ⟨hvalid, hshort⟩ := (Bool.and_eq_true _ _).mp hboth
    exact absurd (h.longer c hc (of_decide_eq_true hvalid)) (not_lt.mpr (of_decide_eq_true hshort))
  next hlonger =>
  split
  · next e hsign =>
    refine .inl ⟨fun h => ?_, rfl, by simp [Except.toOption]⟩
    have hok := h.signed
    rw [hsign] at hok
    simp [Except.isOk, Except.toBool] at hok
  · next cert hsign =>
    refine .inr ⟨⟨fun c hc => ?_, not_le.mp hlater, fun c hc hvalid => ?_, by rw [hsign]; rfl⟩,
      ⟨keyPair, cert⟩, ?_, rfl⟩
    · by_contra hlong
      exact hdue ((Option.any_eq_true _ _).mpr ⟨c, hc, decide_eq_true (not_le.mp hlong)⟩)
    · by_contra hshort
      exact hlonger ((Option.any_eq_true _ _).mpr ⟨c, hc, by
        rw [decide_eq_true hvalid, decide_eq_true (not_lt.mp hshort)]
        rfl⟩)
    · dsimp only
      rw [unsigned_of_sign hsign]
      rfl

end KeyAgreementKeys

/-! ### Every schedule of calls -/

inductive KeyCall
  | rotateIfNeeded (keyPair : X25519KeyPair)
  | active
  | setChainNotAfter (notAfter : ℚ)

/-- The keys after a call, and those whose certificates were published. -/
structure Holding where
  keys : KeyAgreementKeys
  clock : ℚ
  published : List StaticKey := []

namespace Holding

variable (nacl : Nacl) (sign : Bytes → Bytes → Bytes)

def step (s : Holding) (x : ℚ × KeyCall) : Holding :=
  match x.2 with
  | .rotateIfNeeded keyPair =>
    let (rotated, keys) := s.keys.rotateIfNeeded nacl sign x.1 keyPair
    let published := if rotated.toOption = some true then keys.current.toList else []
    { keys, clock := x.1, published := s.published ++ published }
  | .active => { s with
      keys := (s.keys.active x.1).2
      clock := x.1 }
  | .setChainNotAfter notAfter => { s with
      keys := s.keys.setChainNotAfter notAfter
      clock := x.1 }

/-- At most two keys are active from now on, and a key that was published is until its certificate
ends. -/
structure AsDocumented (s : Holding) : Prop where
  two : ∀ t, s.clock ≤ t → (s.keys.active t).1.length ≤ 2
  published : ∀ k ∈ s.published, ∀ t, s.clock ≤ t → t < k.cert.notAfter →
    k ∈ (s.keys.active t).1

/-- Where a call certifies a fresh key, every key before the current one has ended. -/
def Spaced (s : Holding) (x : ℚ × KeyCall) : Prop :=
  ∀ keyPair, x.2 = .rotateIfNeeded keyPair → s.keys.Certifies nacl sign x.1 keyPair →
    ∀ k ∈ s.keys.keys.dropLast, k.cert.notAfter ≤ x.1

/-- Newer keys end later, and a key that was published is held until it ends. -/
structure Ordered (s : Holding) : Prop where
  sorted : s.keys.keys.Pairwise fun a b => a.cert.notAfter < b.cert.notAfter
  published : ∀ k ∈ s.published, s.clock < k.cert.notAfter → k ∈ s.keys.keys

variable {nacl sign} {s : Holding} {now : ℚ}

lemma mem_active {keys : KeyAgreementKeys} {k : StaticKey} :
    k ∈ (keys.active now).1 ↔ k ∈ keys.keys ∧ now < k.cert.notAfter := by
  simp [KeyAgreementKeys.active]

lemma length_active (keys : KeyAgreementKeys) (now : ℚ) :
    (keys.active now).1.length = (keys.keys.filter fun k => now < k.cert.notAfter).length := by
  rw [KeyAgreementKeys.active, List.length_reverse]

lemma Ordered.active_published (h : Ordered s) :
    ∀ k ∈ s.published, ∀ t, s.clock ≤ t → t < k.cert.notAfter → k ∈ (s.keys.active t).1 :=
  fun k hk _ ht hvalid => mem_active.mpr ⟨h.published k hk (ht.trans_lt hvalid), hvalid⟩

/-- To drop the keys that have ended makes no difference later. -/
lemma active_drop (keys : KeyAgreementKeys) {now t : ℚ} (ht : now ≤ t) :
    ((keys.active now).2.active t).1 = (keys.active t).1 := by
  simp only [KeyAgreementKeys.active, List.filter_filter]
  refine congrArg List.reverse (List.filter_congr fun k _ => ?_)
  by_cases hvalid : t < k.cert.notAfter
  · simp [hvalid, ht.trans_lt hvalid]
  · simp [hvalid]

/-- A certificate signed now ends after every other. -/
lemma Ordered.lt_certificateEnd (h : Ordered s) {keyPair : X25519KeyPair}
    (hcertifies : s.keys.Certifies nacl sign now keyPair) {k : StaticKey}
    (hk : k ∈ s.keys.keys) : k.cert.notAfter < s.keys.certificateEnd now := by
  have hnonempty := List.ne_nil_of_mem hk
  have hcurrent : s.keys.current = some (s.keys.keys.getLast hnonempty) :=
    List.getLast?_eq_some_getLast hnonempty
  have hlast : (s.keys.keys.getLast hnonempty).cert.notAfter < s.keys.certificateEnd now := by
    rcases lt_or_ge now (s.keys.keys.getLast hnonempty).cert.notAfter with hvalid | hended
    · exact hcertifies.longer _ hcurrent hvalid
    · exact hended.trans_lt hcertifies.later
  have hsorted := h.sorted
  rw [← List.dropLast_append_getLast hnonempty] at hsorted hk
  obtain ⟨-, -, hbefore⟩ := List.pairwise_append.mp hsorted
  rcases List.mem_append.mp hk with hk | hk
  · exact (hbefore k hk _ List.mem_cons_self).trans hlast
  · rwa [List.mem_singleton.mp hk]

/-- What a call does: it certifies a key or does not, and what has ended may be dropped. -/
lemma step_cases (nacl : Nacl) (sign : Bytes → Bytes → Bytes) (s : Holding) (x : ℚ × KeyCall) :
    (Spaced nacl sign s x ∧ (s.step nacl sign x).published = s.published ∧
        ((s.step nacl sign x).keys.keys = s.keys.keys ∨
          (s.step nacl sign x).keys.keys = (s.keys.active x.1).2.keys)) ∨
      ∃ keyPair key, x.2 = .rotateIfNeeded keyPair ∧
        s.keys.Certifies nacl sign x.1 keyPair ∧
        key.cert.notAfter = s.keys.certificateEnd x.1 ∧
        (s.step nacl sign x).published = s.published ++ [key] ∧
        (s.step nacl sign x).keys.keys = ((s.keys.push key).active x.1).2.keys := by
  obtain ⟨now, call⟩ := x
  cases call with
  | active => exact .inl ⟨fun _ h => by simp at h, rfl, .inr rfl⟩
  | setChainNotAfter notAfter => exact .inl ⟨fun _ h => by simp at h, rfl, .inl rfl⟩
  | rotateIfNeeded keyPair =>
    rcases s.keys.rotateIfNeeded_cases nacl sign now keyPair with
      ⟨hnot, hkeys, hanswer⟩ | ⟨hcertifies, key, hend, hrotate⟩
    · refine .inl ⟨fun keyPair' heq hcertifies => ?_, ?_, .inl ?_⟩
      · obtain rfl := KeyCall.rotateIfNeeded.inj heq
        exact absurd hcertifies hnot
      · simp only [step, hanswer, if_false, List.append_nil]
      · simp only [step, hkeys]
    · refine .inr ⟨keyPair, key, rfl, hcertifies, hend, ?_, ?_⟩
      · have hvalid : now < key.cert.notAfter := by
          rw [hend]
          exact hcertifies.later
        have hcurrent : ((s.keys.push key).active now).2.current = some key := by
          simp [KeyAgreementKeys.active, KeyAgreementKeys.push, KeyAgreementKeys.current,
            List.filter_append, hvalid]
        simp only [step, hrotate, Except.toOption, if_true, hcurrent, Option.toList_some]
      · simp only [step, hrotate]

@[simp] lemma step_clock (nacl : Nacl) (sign : Bytes → Bytes → Bytes) (s : Holding)
    (x : ℚ × KeyCall) : (s.step nacl sign x).clock = x.1 := by
  unfold step
  split <;> rfl

variable (nacl sign) in
lemma Ordered.step (h : Ordered s) {x : ℚ × KeyCall} (hclock : s.clock ≤ x.1) :
    Ordered (s.step nacl sign x) := by
  rcases step_cases nacl sign s x with
    ⟨-, hpublished, hkeys | hkeys⟩ | ⟨keyPair, key, -, hcertifies, hend, hpublished, hkeys⟩
  · refine ⟨by rw [hkeys]; exact h.sorted, fun k hk hvalid => ?_⟩
    rw [step_clock] at hvalid
    rw [hpublished] at hk
    rw [hkeys]
    exact h.published k hk (hclock.trans_lt hvalid)
  · refine ⟨by rw [hkeys]; exact h.sorted.filter _, fun k hk hvalid => ?_⟩
    rw [step_clock] at hvalid
    rw [hpublished] at hk
    rw [hkeys]
    exact List.mem_filter.mpr ⟨h.published k hk (hclock.trans_lt hvalid), decide_eq_true hvalid⟩
  · have hpushed : (s.keys.push key).keys.Pairwise
        fun a b => a.cert.notAfter < b.cert.notAfter := by
      refine List.pairwise_append.mpr ⟨h.sorted, List.pairwise_singleton _ _, ?_⟩
      intro k hk last hlast
      rw [List.mem_singleton.mp hlast, hend]
      exact h.lt_certificateEnd hcertifies hk
    refine ⟨by rw [hkeys]; exact hpushed.filter _, fun k hk hvalid => ?_⟩
    rw [step_clock] at hvalid
    rw [hpublished] at hk
    rw [hkeys]
    refine List.mem_filter.mpr ⟨List.mem_append.mpr ?_, decide_eq_true hvalid⟩
    exact (List.mem_append.mp hk).imp_left fun hk => h.published k hk (hclock.trans_lt hvalid)

/-- Of the keys and a new one, at most two are active where all before the current one have
ended. -/
lemma length_active_push_le {keys : KeyAgreementKeys} {key : StaticKey} {t : ℚ}
    (h : ∀ k ∈ keys.keys.dropLast, k.cert.notAfter ≤ t) :
    ((keys.push key).active t).1.length ≤ 2 := by
  rw [length_active, KeyAgreementKeys.push, List.filter_append, List.length_append]
  have hone := List.length_filter_le (fun k : StaticKey => decide (t < k.cert.notAfter)) [key]
  have hkeys : (keys.keys.filter fun k => t < k.cert.notAfter).length ≤ 1 := by
    rcases List.eq_nil_or_concat keys.keys with hnil | ⟨front, last, hlast⟩
    · simp [hnil]
    · rw [List.concat_eq_append] at hlast
      rw [hlast, List.dropLast_concat] at h
      have hended : (front.filter fun k => decide (t < k.cert.notAfter)) = [] :=
        List.filter_eq_nil_iff.mpr fun k hk => by simpa using h k hk
      rw [hlast, List.filter_append, hended, List.nil_append]
      exact List.length_filter_le _ [last]
  rw [List.length_singleton] at hone
  omega

/-- If one before the current one has not ended, it, the current one and the new one are active. -/
lemma three_le_length_active_push {keys : KeyAgreementKeys} {key k : StaticKey}
    (hsorted : keys.keys.Pairwise fun a b => a.cert.notAfter < b.cert.notAfter)
    (hk : k ∈ keys.keys.dropLast) (hvalid : now < k.cert.notAfter)
    (hkey : now < key.cert.notAfter) : 3 ≤ ((keys.push key).active now).1.length := by
  rcases List.eq_nil_or_concat keys.keys with hnil | ⟨front, last, hsplit⟩
  · simp [hnil] at hk
  rw [List.concat_eq_append] at hsplit
  rw [hsplit] at hsorted hk
  rw [List.dropLast_concat] at hk
  obtain ⟨-, -, hbefore⟩ := List.pairwise_append.mp hsorted
  have hlast := hvalid.trans (hbefore k hk last List.mem_cons_self)
  have hsub : List.Sublist [k, last, key] (keys.push key).keys := by
    rw [KeyAgreementKeys.push, hsplit]
    exact (List.singleton_sublist.mpr hk |>.append (List.Sublist.refl [last])).append
      (List.Sublist.refl [key])
  have hlength := (hsub.filter fun k => now < k.cert.notAfter).length_le
  rw [length_active]
  simpa [hvalid, hlast, hkey] using hlength

variable (nacl sign) in
/-- A call leaves at most two keys active exactly where it is spaced. -/
lemma asDocumented_step (h : Ordered s) (htwo : ∀ t, s.clock ≤ t → (s.keys.active t).1.length ≤ 2)
    {x : ℚ × KeyCall} (hclock : s.clock ≤ x.1) :
    AsDocumented (s.step nacl sign x) ↔ Spaced nacl sign s x := by
  have hpublished := (h.step nacl sign hclock).active_published
  have hactive {keys : KeyAgreementKeys} (hkeys : (s.step nacl sign x).keys.keys = keys.keys)
      (t : ℚ) : ((s.step nacl sign x).keys.active t).1 = (keys.active t).1 := by
    rw [KeyAgreementKeys.active, KeyAgreementKeys.active, hkeys]
  rcases step_cases nacl sign s x with
    ⟨hspaced, -, hkeys | hkeys⟩ | ⟨keyPair, key, hcall, hcertifies, hend, -, hkeys⟩
  · refine iff_of_true ⟨fun t ht => ?_, hpublished⟩ hspaced
    rw [step_clock] at ht
    rw [hactive hkeys]
    exact htwo t (hclock.trans ht)
  · refine iff_of_true ⟨fun t ht => ?_, hpublished⟩ hspaced
    rw [step_clock] at ht
    rw [hactive hkeys, active_drop _ ht]
    exact htwo t (hclock.trans ht)
  · have hvalid : x.1 < key.cert.notAfter := by
      rw [hend]
      exact hcertifies.later
    constructor
    · intro hdocumented keyPair' _ _ k hk
      by_contra hlong
      have hthree := three_le_length_active_push h.sorted hk (not_le.mp hlong) hvalid
      have hbound := hdocumented.two x.1 (step_clock nacl sign s x).le
      rw [hactive hkeys, active_drop _ le_rfl] at hbound
      omega
    · intro hspaced
      refine ⟨fun t ht => ?_, hpublished⟩
      rw [step_clock] at ht
      rw [hactive hkeys, active_drop _ ht]
      exact length_active_push_le fun k hk => (hspaced keyPair hcall hcertifies k hk).trans ht

/-- The keys of a node that has certified none yet. -/
def start (keys : KeyAgreementKeys) (clock : ℚ) : Holding := ⟨{ keys with keys := [] }, clock, []⟩

lemma Ordered.start (keys : KeyAgreementKeys) (clock : ℚ) : Ordered (.start keys clock) where
  sorted := List.Pairwise.nil
  published := fun _ h => by simp [Holding.start] at h

lemma allowed_iff {calls : List (ℚ × KeyCall)} (h : Ordered s)
    (htwo : ∀ t, s.clock ≤ t → (s.keys.active t).1.length ≤ 2)
    (hclock : (s.clock :: calls.map Prod.fst).Pairwise (· ≤ ·)) :
    Run.Allowed (step nacl sign) (fun s x => AsDocumented (s.step nacl sign x)) s calls ↔
      Run.Allowed (step nacl sign) (Spaced nacl sign) s calls := by
  induction calls generalizing s with
  | nil => exact Iff.rfl
  | cons x calls ih =>
    obtain ⟨hnow, hrest⟩ := List.pairwise_cons.mp hclock
    have hx : s.clock ≤ x.1 := hnow x.1 List.mem_cons_self
    have hone := asDocumented_step nacl sign h htwo hx
    have hrest' : ((s.step nacl sign x).clock :: calls.map Prod.fst).Pairwise (· ≤ ·) := by
      rwa [step_clock]
    constructor
    · rintro ⟨hdocumented, hcalls⟩
      exact ⟨hone.mp hdocumented, (ih (h.step nacl sign hx) hdocumented.two hrest').mp hcalls⟩
    · rintro ⟨hspaced, hcalls⟩
      have hdocumented := hone.mpr hspaced
      exact ⟨hdocumented, (ih (h.step nacl sign hx) hdocumented.two hrest').mpr hcalls⟩

end Holding

/-- **A node holds at most two active keys exactly where its keys are certified far enough apart**:
no fresh key may be certified while a key before the current one has not ended. -/
theorem at_most_two_active (nacl : Nacl) (sign : Bytes → Bytes → Bytes) (keys : KeyAgreementKeys)
    (clock : ℚ) (calls : List (ℚ × KeyCall))
    (hclock : (clock :: calls.map Prod.fst).Pairwise (· ≤ ·)) :
    Run.Allowed (Holding.step nacl sign) (fun s x => (s.step nacl sign x).AsDocumented)
        (.start keys clock) calls ↔
      Run.Allowed (Holding.step nacl sign) (Holding.Spaced nacl sign) (.start keys clock) calls :=
  Holding.allowed_iff (.start keys clock) (fun _ _ => Nat.zero_le 2) hclock

/-! ### Keys for a week, renewed after three days -/

/-- Signatures of nothing, and keys that are not of small order. -/
def plainNacl : Nacl :=
  ⟨fun _ _ _ => true, fun _ _ => [1], fun _ => ⟨List.replicate 32 0, length_zeros⟩⟩

def plainSign : Bytes → Bytes → Bytes := fun _ _ => List.replicate 64 0

/-- A node whose chain is good for thirty days. -/
def plainKeys : KeyAgreementKeys where
  name := "shop.ox"
  nodeKey := ⟨List.replicate 32 2, List.replicate 32 7 ++ List.replicate 32 2⟩
  chainNotAfter := 100 + 30 * DAY

def plainKeyPair (b : UInt8) : X25519KeyPair := ⟨List.replicate 32 b, List.replicate 32 b⟩

/-- A node that is asked at the first instants at which it renews. -/
def plainCalls : List (ℚ × KeyCall) :=
  [(100, .rotateIfNeeded (plainKeyPair 9)), (100 + 3 * DAY - 60, .rotateIfNeeded (plainKeyPair 10)),
    (100 + 6 * DAY - 120, .rotateIfNeeded (plainKeyPair 11))]

/-- While it has two keys all is well. -/
theorem at_most_two_active_plain :
    Run.Allowed (Holding.step plainNacl plainSign)
      (fun s x => (s.step plainNacl plainSign x).AsDocumented) (.start plainKeys 100)
      (plainCalls.take 2) := by
  refine (at_most_two_active plainNacl plainSign plainKeys 100 (plainCalls.take 2) ?_).mpr ?_
  · norm_num [plainCalls, DAY]
  · have hfirst : ((Holding.start plainKeys 100).step plainNacl plainSign
        (100, .rotateIfNeeded (plainKeyPair 9))).keys.keys.dropLast = [] := by
      decide +kernel
    refine ⟨fun _ _ _ k hk => ?_, fun _ _ _ k hk => ?_, trivial⟩
    · simp [Holding.start] at hk
    · rw [hfirst] at hk
      simp at hk

/-- **Three keys are active**: the third is certified before the first has ended. -/
theorem three_active :
    ¬ Run.Allowed (Holding.step plainNacl plainSign)
      (fun s x => (s.step plainNacl plainSign x).AsDocumented) (.start plainKeys 100)
      plainCalls := by
  have hthree : ((Run.run (Holding.step plainNacl plainSign) (.start plainKeys 100)
      plainCalls).keys.active (100 + 6 * DAY - 120)).1.length = 3 := by
    decide +kernel
  intro h
  have hbound : ((Run.run (Holding.step plainNacl plainSign) (.start plainKeys 100)
      plainCalls).keys.active (100 + 6 * DAY - 120)).1.length ≤ 2 :=
    h.2.2.1.two _ (Holding.step_clock _ _ _ _).le
  omega

end Tnp.Client
