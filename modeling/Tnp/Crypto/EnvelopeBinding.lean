import Tnp.Crypto.EnvelopeSpec

/-!
Envelopes over a run: any number of users create them and seal new versions.

The cipher is ideal: no nonce is drawn twice, and no two encryptions come out the same. A seal then
binds the key, the user and the fields it was made with, and a wrap binds the others.
-/

namespace Tnp.Crypto.DnsRules

open Tnp.Lib Tnp.Lib.Aead Tnp.Protocol Tnp.Crypto.Signing

/-- What was sealed, by whom and as which version, and the envelope it is in. -/
structure Sealing where
  rulesKey : Bytes
  userId : JsString
  body : Bytes
  version : ℚ
  envelope : RulesEnvelope

/-- A rules key that was wrapped, and the envelope it was created in. -/
structure Wrapping where
  passphrase : JsString
  userId : JsString
  rulesKey : Bytes
  envelope : RulesEnvelope

structure World where
  table : Table Bytes := []
  sealings : List Sealing := []
  wrappings : List Wrapping := []

/-- What comes of the two calls, in any order and on any arguments they accept. A new version may
be sealed after any envelope at all, under any key. -/
inductive Reachable (C : Primitives) : World → Prop
  | start : Reachable C {}
  | create {w : World} {options : CreateOptions} {draws : CreateDraws} {envelope : RulesEnvelope}
      {rulesKey : Bytes} {table : Table Bytes} (before : Reachable C w)
      (created : createRulesEnvelope C w.table options draws =
        .ok ((envelope, rulesKey), table)) :
      Reachable C {
        table
        sealings := ⟨rulesKey, options.userId, options.body, 1, envelope⟩ :: w.sealings
        wrappings := ⟨options.passphrase, options.userId, rulesKey, envelope⟩ :: w.wrappings }
  | reseal {w : World} {rulesKey : Bytes} {userId : JsString} {previous envelope : RulesEnvelope}
      {body : Bytes} {nonce : Drawn RULES_NONCE_LENGTH} {table : Table Bytes}
      (before : Reachable C w)
      (resealed : resealRulesEnvelope C w.table rulesKey userId previous body nonce =
        .ok (envelope, table)) :
      Reachable C {
        table
        sealings := ⟨rulesKey, userId, body, previous.version + 1, envelope⟩ :: w.sealings
        wrappings := w.wrappings }

/-- The tag is as long as it is, and no two rules keys seal under one key. -/
structure Ideal (C : Primitives) : Prop where
  tagLength_eq : C.tagLength = TAG_LENGTH
  hkdf_inj : ∀ k k', k.length = RULES_KEY_LENGTH → k'.length = RULES_KEY_LENGTH →
    C.hkdf k [] LABEL_RULE_SET_KEY = C.hkdf k' [] LABEL_RULE_SET_KEY → k = k'

/-- Nothing was drawn twice, and no two encryptions came out the same. -/
structure World.Fresh (C : Primitives) (w : World) : Prop where
  apart : Apart C.toScheme w.table
  salts : (w.wrappings.map (·.envelope.salt)).Nodup

/-- One envelope is the next version of another. -/
def Reseals (C : Primitives) (previous envelope : RulesEnvelope) : Prop :=
  ∃ t rulesKey userId body nonce t',
    resealRulesEnvelope C t rulesKey userId previous body nonce = .ok (envelope, t')

/-- What is to hold of a sealed envelope. It opens to its body and has its version. Nothing with its
nonce or its ciphertext opens with another key, for another user or with another of the fields of
the seal altered. Where it carries a wrap, the passphrase unlocks it, and nothing with its salt or
its wrapped key unlocks with another of the fields of the wrap altered. -/
structure Kept (C : Primitives) (w : World) (s : Sealing) : Prop where
  opens : ∀ minVersion : ℕ, minVersion ≤ s.envelope.version →
    openRulesEnvelope C w.table s.rulesKey s.userId s.envelope minVersion = .ok s.body
  version : s.envelope.version = s.version
  binds : ∀ rulesKey userId envelope minVersion body,
    (envelope.nonce = s.envelope.nonce ∨ envelope.ciphertext = s.envelope.ciphertext) →
    openRulesEnvelope C w.table rulesKey userId envelope minVersion = .ok body →
      rulesKey = s.rulesKey ∧ userId = s.userId ∧ SameSeal envelope s.envelope
  unlocks : ∀ r ∈ w.wrappings, SameWrap s.envelope r.envelope →
    unlockRulesKey C w.table r.passphrase r.userId s.envelope = .ok r.rulesKey
  wraps : ∀ r ∈ w.wrappings, SameWrap s.envelope r.envelope →
    ∀ passphrase userId envelope rulesKey,
      (envelope.salt = s.envelope.salt ∨ envelope.wrappedKey = s.envelope.wrappedKey) →
      unlockRulesKey C w.table passphrase userId envelope = .ok rulesKey →
        rulesKey = r.rulesKey ∧ SameWrap envelope s.envelope

/-! ### What is in the table -/

section Table

variable {C : Primitives} {t t' : Table Bytes}

lemma IsSealed.mono {k body plain : Bytes} {u : JsString} {e : RulesEnvelope} {c : Checked}
    (h : IsSealed C t k u body e c plain) (ht : t ⊆ t') : IsSealed C t' k u body e c plain :=
  ⟨h.user, h.key_length, h.fields, h.frame, ht h.mem, h.cipher_eq⟩

lemma IsWrapped.mono {k wrappingKey : Bytes} {p u : JsString} {e : RulesEnvelope} {c : Checked}
    (h : IsWrapped C t p k u e c wrappingKey) (ht : t ⊆ t') :
    IsWrapped C t' p k u e c wrappingKey :=
  ⟨h.user, h.fields, h.key, ht h.mem, h.cipher_eq⟩

end Table

/-- An encryption that an envelope carries, as its seal or as its wrap. -/
def Carried (C : Primitives) (w : World) (e : Encryption Bytes) : Prop :=
  (∃ s ∈ w.sealings, ∃ c plain,
    IsSealed C w.table s.rulesKey s.userId s.body s.envelope c plain ∧
      e = sealEntry C s.rulesKey s.userId c plain) ∨
  ∃ r ∈ w.wrappings, ∃ c wrappingKey,
    IsWrapped C w.table r.passphrase r.rulesKey r.userId r.envelope c wrappingKey ∧
      e = wrapEntry wrappingKey r.userId c r.rulesKey

lemma Carried.mono {C : Primitives} {w w' : World} {e : Encryption Bytes} (h : Carried C w e)
    (ht : w.table ⊆ w'.table) (hs : w.sealings ⊆ w'.sealings)
    (hr : w.wrappings ⊆ w'.wrappings) : Carried C w' e := by
  rcases h with ⟨s, hmem, c, plain, hsealed, rfl⟩ | ⟨r, hmem, c, key, hwrapped, rfl⟩
  · exact .inl ⟨s, hs hmem, c, plain, hsealed.mono ht, rfl⟩
  · exact .inr ⟨r, hr hmem, c, key, hwrapped.mono ht, rfl⟩

/-- The table holds what the envelopes carry, and nothing else. -/
structure Inv (C : Primitives) (w : World) : Prop where
  sealings : ∀ s ∈ w.sealings, ∃ c plain,
    IsSealed C w.table s.rulesKey s.userId s.body s.envelope c plain
  versions : ∀ s ∈ w.sealings, s.envelope.version = s.version
  wrappings : ∀ r ∈ w.wrappings, ∃ c wrappingKey,
    IsWrapped C w.table r.passphrase r.rulesKey r.userId r.envelope c wrappingKey
  entries : ∀ e ∈ w.table, Carried C w e

theorem inv_of_reachable {C : Primitives} (hideal : Ideal C) {w : World} (h : Reachable C w) :
    Inv C w := by
  induction h with
  | start => exact ⟨by simp, by simp, by simp, by simp⟩
  | @create w options draws envelope rulesKey table before created ih =>
    obtain ⟨c, plain, key, hsealed, hwrapped, rfl, hversion, -, -⟩ :=
      createRulesEnvelope_eq_ok hideal.tagLength_eq created
    have hgrow := List.subset_append_left w.table [wrapEntry key options.userId c rulesKey,
      sealEntry C rulesKey options.userId c plain]
    refine ⟨?_, List.forall_mem_cons.mpr ⟨hversion, ih.versions⟩, ?_, ?_⟩
    · rw [List.forall_mem_cons]
      refine ⟨⟨c, plain, hsealed⟩, fun s hs => ?_⟩
      obtain ⟨c', plain', hold⟩ := ih.sealings s hs
      exact ⟨c', plain', hold.mono hgrow⟩
    · rw [List.forall_mem_cons]
      refine ⟨⟨c, key, hwrapped⟩, fun r hr => ?_⟩
      obtain ⟨c', key', hold⟩ := ih.wrappings r hr
      exact ⟨c', key', hold.mono hgrow⟩
    · intro e he
      rcases List.mem_append.mp he with he | he
      · exact (ih.entries e he).mono hgrow (List.subset_cons_self _ _) (List.subset_cons_self _ _)
      · rcases List.mem_pair.mp he with rfl | rfl
        · exact .inr ⟨_, List.mem_cons_self, c, key, hwrapped, rfl⟩
        · exact .inl ⟨_, List.mem_cons_self, c, plain, hsealed, rfl⟩
  | @reseal w rulesKey userId previous envelope body nonce table before resealed ih =>
    obtain ⟨c, plain, hsealed, rfl, -, hversion⟩ :=
      resealRulesEnvelope_eq_ok hideal.tagLength_eq resealed
    have hgrow := List.subset_append_left w.table [sealEntry C rulesKey userId c plain]
    refine ⟨?_, List.forall_mem_cons.mpr ⟨hversion, ih.versions⟩, fun r hr => ?_, ?_⟩
    · rw [List.forall_mem_cons]
      refine ⟨⟨c, plain, hsealed⟩, fun s hs => ?_⟩
      obtain ⟨c', plain', hold⟩ := ih.sealings s hs
      exact ⟨c', plain', hold.mono hgrow⟩
    · obtain ⟨c', key', hold⟩ := ih.wrappings r hr
      exact ⟨c', key', hold.mono hgrow⟩
    · intro e he
      rcases List.mem_append.mp he with he | he
      · exact (ih.entries e he).mono hgrow (List.subset_cons_self _ _) (List.Subset.refl _)
      · obtain rfl := List.mem_singleton.mp he
        exact .inl ⟨_, List.mem_cons_self, c, plain, hsealed, rfl⟩

/-! ### What an encryption tells -/

lemma ofBe_inj {a b : Bytes} (hlength : a.length = b.length) (h : ofBe a = ofBe b) : a = b := by
  rw [← be_ofBe a, ← be_ofBe b, hlength, h]

lemma cast_inj {m n : SafeUint} (h : m = n) : (m.val : ℚ) = n.val := by rw [h]

section Same

variable {C : Primitives} {t t' : Table Bytes} {rulesKey rulesKey' body plain plain' : Bytes}
  {userId userId' passphrase passphrase' : JsString} {envelope envelope' : RulesEnvelope}
  {c c' : Checked} {key key' : Bytes}

/-- One seal, one key and the same fields, and users that are the same text. -/
lemma sealEntry_inj (hideal : Ideal C) (hu : assertUserId userId = .ok ())
    (hu' : assertUserId userId' = .ok ()) (hkey : rulesKey.length = RULES_KEY_LENGTH)
    (hkey' : rulesKey'.length = RULES_KEY_LENGTH) (hc : HasFields envelope c)
    (hc' : HasFields envelope' c')
    (hcipher : c.ciphertext = cipher C.toScheme (sealEntry C rulesKey userId c plain))
    (hcipher' : c'.ciphertext = cipher C.toScheme (sealEntry C rulesKey' userId' c' plain'))
    (h : sealEntry C rulesKey userId c plain = sealEntry C rulesKey' userId' c' plain') :
    rulesKey = rulesKey' ∧ SameSeal envelope envelope' ∧ c.version = c'.version ∧
      plain = plain' := by
  have hciphertext : c.ciphertext = c'.ciphertext := by rw [hcipher, hcipher', h]
  obtain ⟨hhkdf, hnonce, had, hplain⟩ := Encryption.mk.inj h
  obtain ⟨-, hversion⟩ := ruleSetAad_inj hu hu' had
  have hnonce' := ofBe_inj (hc.nonce_length.trans hc'.nonce_length.symm) hnonce
  refine ⟨hideal.hkdf_inj _ _ hkey hkey' hhkdf, ⟨?_, ?_, ?_, ?_⟩, Subtype.ext hversion, hplain⟩
  · rw [hc.v, hc'.v]
  · rw [hc.version, hc'.version, hversion]
  · rw [hc.nonce, hc'.nonce, hnonce']
  · rw [hc.ciphertext, hc'.ciphertext, hciphertext]

/-- One wrap, one rules key and the same fields. -/
lemma IsWrapped.same (h : IsWrapped C t passphrase rulesKey userId envelope c key)
    (h' : IsWrapped C t' passphrase' rulesKey' userId' envelope' c' key')
    (hentry : wrapEntry key userId c rulesKey = wrapEntry key' userId' c' rulesKey') :
    rulesKey = rulesKey' ∧ SameWrap envelope envelope' := by
  have hsealed : c.wrappedKey.drop RULES_NONCE_LENGTH = c'.wrappedKey.drop RULES_NONCE_LENGTH := by
    rw [h.cipher_eq, h'.cipher_eq, hentry]
  obtain ⟨-, hnonce, had, hkey⟩ := Encryption.mk.inj hentry
  obtain ⟨-, hm, ht, hp, hsalt⟩ := wrapAad_inj h.user h'.user
    (h.fields.salt_length.trans h'.fields.salt_length.symm) had
  have htake : c.wrappedKey.take RULES_NONCE_LENGTH = c'.wrappedKey.take RULES_NONCE_LENGTH := by
    refine ofBe_inj ?_ hnonce
    rw [List.length_take, List.length_take, h.fields.wrappedKey_length,
      h'.fields.wrappedKey_length]
  have hwrapped : c.wrappedKey = c'.wrappedKey := by
    rw [← List.take_append_drop RULES_NONCE_LENGTH c.wrappedKey, htake, hsealed,
      List.take_append_drop]
  refine ⟨hkey, ?_, ?_, ?_⟩
  · rw [h.fields.kdfParams, h'.fields.kdfParams, hm, ht, hp]
  · rw [h.fields.salt, h'.fields.salt, hsalt]
  · rw [h.fields.wrappedKey, h'.fields.wrappedKey, hwrapped]

/-- An envelope with the wrap of another unlocks as the other does. -/
lemma IsWrapped.unlocks (h : IsWrapped C t passphrase rulesKey userId envelope c key)
    (hc' : HasFields envelope' c') (hsame : SameWrap envelope' envelope) :
    unlockRulesKey C t passphrase userId envelope' = .ok rulesKey := by
  obtain ⟨hkdf, hsalt, hwrapped⟩ := hsame
  rw [hc'.salt, h.fields.salt] at hsalt
  rw [hc'.wrappedKey, h.fields.wrappedKey] at hwrapped
  have hsalt' := encodeBase64_inj hsalt
  have hwrapped' := encodeBase64_inj hwrapped
  have hparams := hkdf
  rw [hc'.kdfParams, h.fields.kdfParams] at hparams
  obtain ⟨-, hm, ht, hp⟩ := RulesKdfParams.mk.inj hparams
  have haad : wrapAad userId c'.kdfParams c'.salt = wrapAad userId c.kdfParams c.salt := by
    rw [wrapAad_eq, wrapAad_eq, hsalt', Subtype.ext (Nat.cast_injective hm),
      Subtype.ext (Nat.cast_injective ht), Subtype.ext (Nat.cast_injective hp)]
  have hentry : wrapEntry key userId c' rulesKey = wrapEntry key userId c rulesKey := by
    rw [wrapEntry, wrapEntry, hwrapped', haad]
  refine unlockRulesKey_eq_ok_iff.mpr ⟨h.user, c', key, hc', ?_, hentry ▸ h.mem, ?_⟩
  · rw [hsalt', hkdf]
    exact h.key
  · rw [hwrapped', hentry]
    exact h.cipher_eq

end Same

/-! ### What an envelope keeps -/

section Kept

variable {C : Primitives} {w : World} {s : Sealing} {c : Checked} {plain : Bytes}

/-- A sealed envelope opens exactly for a user who is read back. -/
lemma opens_iff (h : IsSealed C w.table s.rulesKey s.userId s.body s.envelope c plain) :
    (∀ minVersion : ℕ, minVersion ≤ s.envelope.version →
      openRulesEnvelope C w.table s.rulesKey s.userId s.envelope minVersion = .ok s.body) ↔
      PlainId s.userId := by
  rw [← readBack_eq_self_iff]
  constructor
  · intro hopens
    have hopen := hopens 0 (by rw [h.fields.version]; exact Nat.cast_le.mpr (Nat.zero_le _))
    rw [h.openRulesEnvelope_eq (Nat.zero_le _), check_eq_ok] at hopen
    exact not_not.mp hopen.1
  · intro hread minVersion hmin
    rw [h.fields.version] at hmin
    rw [h.openRulesEnvelope_eq (Nat.cast_le.mp hmin), if_neg (not_not.mpr hread)]

lemma binds_of_plainId (hideal : Ideal C) (hfresh : w.Fresh C)
    (h : IsSealed C w.table s.rulesKey s.userId s.body s.envelope c plain)
    (hplain : PlainId s.userId) {rulesKey : Bytes} {userId : JsString} {envelope : RulesEnvelope}
    {minVersion : ℕ} {body : Bytes}
    (hshared : envelope.nonce = s.envelope.nonce ∨ envelope.ciphertext = s.envelope.ciphertext)
    (hopen : openRulesEnvelope C w.table rulesKey userId envelope minVersion = .ok body) :
    rulesKey = s.rulesKey ∧ userId = s.userId ∧ SameSeal envelope s.envelope := by
  obtain ⟨hu, c', hc', -, hlength, plain', hmem, hcipher, hunframe⟩ :=
    openRulesEnvelope_eq_ok_iff.mp hopen
  have hentry : sealEntry C rulesKey userId c' plain' =
      sealEntry C s.rulesKey s.userId c plain := by
    refine hfresh.apart.eq _ hmem h.mem (hshared.imp (fun hnonce => ?_) (fun hciphertext => ?_))
    · rw [hc'.nonce, h.fields.nonce] at hnonce
      exact congrArg ofBe (encodeBase64_inj hnonce)
    · rw [hc'.ciphertext, h.fields.ciphertext] at hciphertext
      rw [← hcipher, ← h.cipher_eq, encodeBase64_inj hciphertext]
  obtain ⟨hkey, hsame, -, rfl⟩ :=
    sealEntry_inj hideal hu h.user hlength h.key_length hc' h.fields hcipher h.cipher_eq hentry
  rw [unframePlaintext_framePlaintext h.user h.frame, check_eq_ok] at hunframe
  have hread : readBack s.userId = userId := not_not.mp hunframe.1
  rw [readBack_eq_self_iff.mpr hplain] at hread
  exact ⟨hkey, hread.symm, hsame⟩

/-- No two wraps share a salt. -/
lemma wraps_of_shared (hinv : Inv C w) (hfresh : w.Fresh C) {r : Wrapping} (hr : r ∈ w.wrappings)
    {passphrase userId : JsString} {envelope : RulesEnvelope} {rulesKey : Bytes}
    (hshared : envelope.salt = r.envelope.salt ∨ envelope.wrappedKey = r.envelope.wrappedKey)
    (hunlock : unlockRulesKey C w.table passphrase userId envelope = .ok rulesKey) :
    rulesKey = r.rulesKey ∧ SameWrap envelope r.envelope := by
  obtain ⟨hu, c', key', hc', hkey', hmem, hcipher⟩ := unlockRulesKey_eq_ok_iff.mp hunlock
  have hopened : IsWrapped C w.table passphrase rulesKey userId envelope c' key' :=
    ⟨hu, hc', hkey', hmem, hcipher⟩
  rcases hshared with hsalt | hwrapped
  · rcases hinv.entries _ hmem with ⟨s, -, c, plain, -, hentry⟩ | ⟨r', hr', c, key, hwrap, hentry⟩
    · exact absurd (congrArg Encryption.ad hentry).symm ruleSetAad_ne_wrapAad
    · obtain ⟨hrules, hsame⟩ := hopened.same hwrap hentry
      obtain rfl : r' = r := List.inj_on_of_nodup_map hfresh.salts hr' hr
        (hsame.2.1.symm.trans hsalt)
      exact ⟨hrules, hsame⟩
  · obtain ⟨c, key, hwrap⟩ := hinv.wrappings r hr
    refine hopened.same hwrap (hfresh.apart.eq _ hmem hwrap.mem (.inl ?_))
    rw [hc'.wrappedKey, hwrap.fields.wrappedKey] at hwrapped
    rw [wrapEntry, wrapEntry, encodeBase64_inj hwrapped]

end Kept

/-- The version goes up by one. -/
lemma Reseals.version {C : Primitives} (hideal : Ideal C) {previous envelope : RulesEnvelope}
    (h : Reseals C previous envelope) : previous.version < envelope.version := by
  obtain ⟨t, rulesKey, userId, body, nonce, t', hreseal⟩ := h
  obtain ⟨-, -, -, -, -, hversion⟩ := resealRulesEnvelope_eq_ok hideal.tagLength_eq hreseal
  rw [hversion]
  exact lt_add_one _

instance : Trans (fun e f : RulesEnvelope => e.version < f.version)
    (fun e f : RulesEnvelope => e.version < f.version)
    (fun e f : RulesEnvelope => e.version < f.version) := ⟨fun h h' => lt_trans h h'⟩

/-- **What an envelope keeps, exactly**: along any chain of new versions the version goes up,
nothing opens that was not sealed, and a sealed envelope is bound to its key, its user and its
fields and opens to its body exactly when the user is text that does not begin with a byte order
mark. -/
theorem envelope_kept_iff {C : Primitives} (hideal : Ideal C) {w : World} (h : Reachable C w)
    (hfresh : w.Fresh C) :
    (∀ chain : List RulesEnvelope, chain.IsChain (Reseals C) →
      chain.Pairwise fun e f => e.version < f.version) ∧
    (∀ rulesKey userId envelope minVersion body,
      openRulesEnvelope C w.table rulesKey userId envelope minVersion = .ok body →
        ∃ s ∈ w.sealings, rulesKey = s.rulesKey ∧ SameSeal envelope s.envelope) ∧
    ∀ s ∈ w.sealings, Kept C w s ↔ PlainId s.userId := by
  have hinv := inv_of_reachable hideal h
  refine ⟨fun chain hchain => ?_, ?_, fun s hs => ?_⟩
  · exact List.isChain_iff_pairwise.mp (hchain.imp fun _ _ hreseal => hreseal.version hideal)
  · intro rulesKey userId envelope minVersion body hopen
    obtain ⟨hu, c', hc', -, hlength, plain', hmem, hcipher, -⟩ :=
      openRulesEnvelope_eq_ok_iff.mp hopen
    rcases hinv.entries _ hmem with ⟨s, hs, c, plain, hsealed, hentry⟩ | ⟨r, -, c, key, -, hentry⟩
    · obtain ⟨hkey, hsame, -, -⟩ := sealEntry_inj hideal hu hsealed.user hlength
        hsealed.key_length hc' hsealed.fields hcipher hsealed.cipher_eq hentry
      exact ⟨s, hs, hkey, hsame⟩
    · exact absurd (congrArg Encryption.ad hentry) ruleSetAad_ne_wrapAad
  · obtain ⟨c, plain, hsealed⟩ := hinv.sealings s hs
    constructor
    · exact fun hkept => (opens_iff hsealed).mp hkept.opens
    · intro hplain
      refine ⟨(opens_iff hsealed).mpr hplain, hinv.versions s hs, ?_, ?_, ?_⟩
      · intro rulesKey userId envelope minVersion body hshared hopen
        exact binds_of_plainId hideal hfresh hsealed hplain hshared hopen
      · intro r hr hsame
        obtain ⟨c', key, hwrap⟩ := hinv.wrappings r hr
        exact hwrap.unlocks hsealed.fields hsame
      · intro r hr hsame passphrase userId envelope rulesKey hshared hunlock
        obtain ⟨hkdf, hsalt, hwrapped⟩ := hsame
        rw [hsalt, hwrapped] at hshared
        obtain ⟨hrules, hkdf', hsalt', hwrapped'⟩ := wraps_of_shared hinv hfresh hr hshared hunlock
        exact ⟨hrules, hkdf'.trans hkdf.symm, hsalt'.trans hsalt.symm,
          hwrapped'.trans hwrapped.symm⟩

/-! ### An envelope to open -/

/-- Nothing is derived, and the tag is sixteen zeros. -/
def samplePrimitives : Primitives where
  tagLength := 16
  bytes _ _ _ p := p ++ List.replicate 16 0
  injective _ _ _ _ _ h := List.append_cancel_right h
  length _ _ _ p := by simp
  argon2id password _ _ _ _ := password
  hkdf key _ _ := key
  normalizeNFC := id

lemma ideal_sample : Ideal samplePrimitives := ⟨rfl, fun _ _ _ _ h => h⟩

def sampleDraws : CreateDraws where
  salt := ⟨List.replicate 16 1, by decide⟩
  rulesKey := ⟨List.replicate 32 2, by decide⟩
  wrapNonce := ⟨List.replicate 24 3, by decide⟩
  nonce := ⟨List.replicate 24 4, by decide⟩

def sampleOptions (userId : JsString) : CreateOptions :=
  { passphrase := [0x70], userId, body := [] }

lemma create_sample {userId : JsString} (hu : assertUserId userId = .ok ()) :
    ∃ envelope t', createRulesEnvelope samplePrimitives [] (sampleOptions userId) sampleDraws =
      .ok ((envelope, sampleDraws.rulesKey.val), t') := by
  have hkdf : assertRulesKdfParams DEFAULT_RULES_KDF = .ok ⟨⟨⟨65536, by decide⟩, by decide⟩,
      ⟨⟨3, by decide⟩, by decide⟩, ⟨⟨1, by decide⟩, by decide⟩⟩ :=
    assertRulesKdfParams_eq_ok_iff.mpr (by simp [DEFAULT_RULES_KDF, KdfParams.alg])
  refine createRulesEnvelope_of hu hkdf (Nat.one_ne_zero) ?_
  have hlabel : (utf8 PLAINTEXT_LABEL).length = 26 := by decide
  have hid := length_utf8_le (scalars userId)
  have hchars := length_scalars_le userId
  have huser := (assertUserId_eq_ok_iff.mp hu).2
  have hmax : MAX_PLAINTEXT_BYTES = 262128 := by decide
  rw [framed_eq, hmax]
  simp only [str, u64, sampleOptions, List.length_append, length_be, hlabel, toWellFormed,
    List.length_nil]
  omega

/-- The first envelope of a world, where its two nonces differ. -/
lemma fresh_create {C : Primitives} (hideal : Ideal C) {options : CreateOptions}
    {draws : CreateDraws} {envelope : RulesEnvelope} {rulesKey : Bytes} {t : Table Bytes}
    (hnonces : draws.wrapNonce ≠ draws.nonce)
    (h : createRulesEnvelope C [] options draws = .ok ((envelope, rulesKey), t))
    (ss : List Sealing) (r : Wrapping) :
    World.Fresh C { table := t, sealings := ss, wrappings := [r] } := by
  obtain ⟨c, plain, key, hsealed, hwrapped, rfl, -, htake, hnonce⟩ :=
    createRulesEnvelope_eq_ok hideal.tagLength_eq h
  refine ⟨?_, List.nodup_singleton _⟩
  refine List.pairwise_pair.mpr ⟨fun hshared => hnonces ?_, fun hshared => ?_⟩
  · change ofBe (c.wrappedKey.take RULES_NONCE_LENGTH) = ofBe c.nonce at hshared
    rw [htake, hnonce] at hshared
    exact Subtype.ext (ofBe_inj (draws.wrapNonce.property.trans draws.nonce.property.symm) hshared)
  · obtain ⟨-, -, hlong, -⟩ := framePlaintext_eq_ok hsealed.frame
    have hlength := congrArg List.length hshared
    rw [cipher, cipher, C.length, C.length] at hlength
    have hplain : rulesKey.length = plain.length := Nat.add_right_cancel hlength
    rw [hsealed.key_length] at hplain
    rw [← hplain] at hlong
    exact absurd hlong (by decide)

theorem envelope_kept_iff_sample : ∃ w s, Reachable samplePrimitives w ∧ s ∈ w.sealings ∧
    s.userId = units "alice" ∧ Kept samplePrimitives w s := by
  have hu : assertUserId (units "alice") = .ok () := by decide
  have hplain : PlainId (units "alice") := ⟨by rw [toWellFormed_units], by decide⟩
  obtain ⟨envelope, t, hcreate⟩ := create_sample hu
  have hreach := Reachable.create .start hcreate
  refine ⟨_, _, hreach, List.mem_cons_self, rfl, ?_⟩
  have hfresh := fresh_create ideal_sample (by decide) hcreate
  exact ((envelope_kept_iff ideal_sample hreach (hfresh _ _)).2.2 _ List.mem_cons_self).mpr hplain

/-- A user whose name begins with a byte order mark creates an envelope and cannot open it. -/
theorem marked_user_refused : ∃ envelope t,
    createRulesEnvelope samplePrimitives [] (sampleOptions [0xFEFF, 0x78]) sampleDraws =
      .ok ((envelope, sampleDraws.rulesKey.val), t) ∧
    openRulesEnvelope samplePrimitives t sampleDraws.rulesKey.val [0xFEFF, 0x78] envelope 0 =
      .error (.rulesEnvelope .tampered "the rule set belongs to another account") := by
  have hu : assertUserId [0xFEFF, 0x78] = .ok () := by decide
  obtain ⟨envelope, t, hcreate⟩ := create_sample hu
  obtain ⟨c, plain, key, hsealed, -⟩ := createRulesEnvelope_eq_ok ideal_sample.tagLength_eq hcreate
  have hread : readBack [0xFEFF, 0x78] ≠ [0xFEFF, 0x78] := by decide
  refine ⟨envelope, t, hcreate, ?_⟩
  exact (hsealed.openRulesEnvelope_eq (Nat.zero_le _)).trans (if_pos hread)

end Tnp.Crypto.DnsRules
