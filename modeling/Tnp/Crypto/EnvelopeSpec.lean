import Tnp.Crypto.RulesEnvelope
import Tnp.SharedTypes.CanonicalBase64

/-!
What the calls on an envelope do, one statement for each.

What is framed is read back, but for the user: the decoder passes over a byte order mark, and the
encoder writes a replacement for half a surrogate pair. A user who is read back is one who is
`PlainId`.
-/

namespace Tnp.Crypto.DnsRules

open Tnp.Lib Tnp.Lib.Aead Tnp.Protocol Tnp.Crypto.Signing Tnp.SharedTypes

/-! ### Checks -/

lemma safeUint_natCast (n : SafeUint) : safeUint (n.val : ℚ) = some n := by
  simp [safeUint, n.property]

lemma isIntIn_eq_some_iff {value : ℚ} {range : Range} {n : In range} :
    isIntIn value range = some n ↔ value = n.val.val := by
  constructor
  · intro h
    unfold isIntIn at h
    split at h
    next m hm =>
      split at h
      · obtain rfl := Option.some.inj h
        exact (safeUint_eq_some hm).symm
      · simp at h
    · simp at h
  · rintro rfl
    rw [isIntIn, safeUint_natCast]
    exact dif_pos n.property

lemma assertRulesKdfParams_eq_ok_iff {params : RulesKdfParams} {kdf : KdfParams} :
    assertRulesKdfParams params = .ok kdf ↔
      params = ⟨KdfParams.alg, kdf.m.val.val, kdf.t.val.val, kdf.p.val.val⟩ := by
  obtain ⟨alg, m, t, p⟩ := params
  constructor
  · intro h
    unfold assertRulesKdfParams at h
    obtain ⟨halg, h⟩ := check_eq_ok.mp h
    split at h
    next m' t' p' hm ht hp =>
      obtain rfl := Except.ok.inj h
      obtain rfl := not_not.mp halg
      obtain rfl := isIntIn_eq_some_iff.mp hm
      obtain rfl := isIntIn_eq_some_iff.mp ht
      obtain rfl := isIntIn_eq_some_iff.mp hp
      rfl
    · simp at h
  · intro h
    obtain ⟨rfl, rfl, rfl, rfl⟩ := RulesKdfParams.mk.inj h
    have hm := isIntIn_eq_some_iff.mpr (Eq.refl (kdf.m.val.val : ℚ))
    have ht := isIntIn_eq_some_iff.mpr (Eq.refl (kdf.t.val.val : ℚ))
    have hp := isIntIn_eq_some_iff.mpr (Eq.refl (kdf.p.val.val : ℚ))
    rw [assertRulesKdfParams, if_neg (by simp)]
    simp only [hm, ht, hp]

lemma assertVersion_eq_ok_iff {version : ℚ} {n : In VERSIONS} :
    assertVersion version = .ok n ↔ version = n.val.val := by
  rw [← isIntIn_eq_some_iff, assertVersion]
  split
  next m hm => simp [hm]
  next hm => simp [hm]

lemma assertUserId_eq_ok_iff {userId : JsString} :
    assertUserId userId = .ok () ↔ userId.length ≠ 0 ∧ userId.length ≤ 256 := by
  rw [assertUserId, check_eq_ok]
  simp

lemma decodeField_eq_ok_iff {value label : String} {length : Option ℕ} {bytes : Bytes} :
    decodeField value label length = .ok bytes ↔
      decodeBase64Strict (.string value) length = .ok bytes := by
  unfold decodeField
  split
  next out h => simp [h]
  next h => simp [h]

/-- A field of so many bytes is the encoding of them. -/
lemma decodeField_some_iff {value label : String} {n : ℕ} {bytes : Bytes} :
    decodeField value label (some n) = .ok bytes ↔
      value = encodeBase64 bytes ∧ bytes.length = n := by
  rw [decodeField_eq_ok_iff]
  constructor
  · exact fun h => ⟨(encodeBase64_of_decode h).symm, decodeBase64Strict_length h⟩
  · rintro ⟨rfl, hlength⟩
    exact decodeBase64Strict_encodeBase64 hlength

lemma decodeField_none_iff {value label : String} {bytes : Bytes} :
    decodeField value label none = .ok bytes ↔ value = encodeBase64 bytes := by
  rw [decodeField_eq_ok_iff]
  constructor
  · exact fun h => (encodeBase64_of_decode h).symm
  · rintro rfl
    exact decodeBase64Strict_none (decodeBase64Strict_encodeBase64 rfl)

/-- The fields an envelope has, with what the check says of them. -/
structure HasFields (envelope : RulesEnvelope) (c : Checked) : Prop where
  v : envelope.v = RULES_ENVELOPE_VERSION.val
  kdfParams : envelope.kdfParams =
    ⟨KdfParams.alg, c.kdfParams.m.val.val, c.kdfParams.t.val.val, c.kdfParams.p.val.val⟩
  version : envelope.version = c.version.val.val
  salt : envelope.salt = encodeBase64 c.salt
  salt_length : c.salt.length = RULES_SALT_LENGTH
  wrappedKey : envelope.wrappedKey = encodeBase64 c.wrappedKey
  wrappedKey_length : c.wrappedKey.length = RULES_WRAPPED_KEY_LENGTH
  nonce : envelope.nonce = encodeBase64 c.nonce
  nonce_length : c.nonce.length = RULES_NONCE_LENGTH
  ciphertext : envelope.ciphertext = encodeBase64 c.ciphertext
  not_short : TAG_LENGTH + MIN_PLAINTEXT_BUCKET ≤ c.ciphertext.length
  not_large : c.ciphertext.length ≤ RULES_MAX_CIPHERTEXT_BYTES

lemma assertRulesEnvelope_eq_ok_iff {envelope : RulesEnvelope} {c : Checked} :
    assertRulesEnvelope envelope = .ok c ↔ HasFields envelope c := by
  simp only [assertRulesEnvelope, check_eq_ok, bind_eq_ok, assertRulesKdfParams_eq_ok_iff,
    assertVersion_eq_ok_iff, decodeField_some_iff, decodeField_none_iff, not_not, not_lt]
  constructor
  · rintro ⟨hv, kdf, hkdf, version, hversion, salt, ⟨hsalt, hsaltlen⟩, wrapped,
      ⟨hwrapped, hwrappedlen⟩, nonce, ⟨hnonce, hnoncelen⟩, ciphertext, hciphertext, hshort, hlarge,
      hc⟩
    obtain rfl := Except.ok.inj hc
    exact ⟨hv, hkdf, hversion, hsalt, hsaltlen, hwrapped, hwrappedlen, hnonce, hnoncelen,
      hciphertext, hshort, hlarge⟩
  · rintro ⟨hv, hkdf, hversion, hsalt, hsaltlen, hwrapped, hwrappedlen, hnonce, hnoncelen,
      hciphertext, hshort, hlarge⟩
    exact ⟨hv, _, hkdf, _, hversion, _, ⟨hsalt, hsaltlen⟩, _, ⟨hwrapped, hwrappedlen⟩, _,
      ⟨hnonce, hnoncelen⟩, _, hciphertext, hshort, hlarge, rfl⟩

/-! ### Keys and associated data -/

lemma deriveWrappingKey_eq_ok_iff {C : Primitives} {passphrase : JsString} {salt key : Bytes}
    {params : RulesKdfParams} : deriveWrappingKey C passphrase salt params = .ok key ↔
      ∃ kdf, assertRulesKdfParams params = .ok kdf ∧ salt.length = RULES_SALT_LENGTH ∧
        passphrase.length ≠ 0 ∧ key = C.hkdf (C.argon2id (textEncode (C.normalizeNFC passphrase))
          salt kdf.m.val kdf.t.val kdf.p.val) salt LABEL_WRAP_KEY := by
  simp only [deriveWrappingKey, bind_eq_ok, check_eq_ok, not_not, Except.ok.injEq,
    eq_comm (a := key)]

lemma ruleSetKey_eq_ok_iff {C : Primitives} {rulesKey key : Bytes} :
    ruleSetKey C rulesKey = .ok key ↔
      rulesKey.length = RULES_KEY_LENGTH ∧ key = C.hkdf rulesKey [] LABEL_RULE_SET_KEY := by
  rw [ruleSetKey, check_eq_ok, not_not, Except.ok.injEq, eq_comm (a := key)]

lemma short_userId {userId : JsString} (h : assertUserId userId = .ok ()) :
    toWellFormed userId ∈ Short :=
  short_toWellFormed ((assertUserId_eq_ok_iff.mp h).2.trans (by decide))

lemma short_label {s : String} (h : s.toList.length ≤ 32) : s ∈ Short :=
  short_of_length (h.trans (by decide))

lemma ruleSetAad_eq (userId : JsString) (version : SafeUint) :
    ruleSetAad userId version = str AAD_RULE_SET ++ (u64 RULES_ENVELOPE_VERSION ++
      (str (toWellFormed userId) ++ u64 version)) := by
  simp [ruleSetAad]

lemma wrapAad_eq (userId : JsString) (params : KdfParams) (salt : Bytes) :
    wrapAad userId params salt = str AAD_WRAP ++ (u64 RULES_ENVELOPE_VERSION ++
      (str (toWellFormed userId) ++ (str KdfParams.alg ++ (u64 params.m.val ++
        (u64 params.t.val ++ (u64 params.p.val ++ (be 4 salt.length ++ salt))))))) := by
  simp [wrapAad, CanonicalWriter.bytesPrefixed]

/-- The associated data of a seal tells the version, and the user as text. -/
lemma ruleSetAad_inj {u u' : JsString} {v v' : SafeUint} (hu : assertUserId u = .ok ())
    (hu' : assertUserId u' = .ok ()) (h : ruleSetAad u v = ruleSetAad u' v') :
    toWellFormed u = toWellFormed u' ∧ v = v' := by
  rw [ruleSetAad_eq, ruleSetAad_eq] at h
  obtain ⟨-, h⟩ := (str_append (short_label (by decide)) (short_label (by decide))).mp h
  obtain ⟨-, h⟩ := u64_append.mp h
  obtain ⟨htext, h⟩ := (str_append (short_userId hu) (short_userId hu')).mp h
  rw [← List.append_nil (u64 v), ← List.append_nil (u64 v')] at h
  exact ⟨htext, (u64_append.mp h).1⟩

/-- That of a wrap tells the parameters and the salt as well. -/
lemma wrapAad_inj {u u' : JsString} {p p' : KdfParams} {salt salt' : Bytes}
    (hu : assertUserId u = .ok ()) (hu' : assertUserId u' = .ok ())
    (hlength : salt.length = salt'.length) (h : wrapAad u p salt = wrapAad u' p' salt') :
    toWellFormed u = toWellFormed u' ∧ p.m.val = p'.m.val ∧ p.t.val = p'.t.val ∧
      p.p.val = p'.p.val ∧ salt = salt' := by
  rw [wrapAad_eq, wrapAad_eq] at h
  obtain ⟨-, h⟩ := (str_append (short_label (by decide)) (short_label (by decide))).mp h
  obtain ⟨-, h⟩ := u64_append.mp h
  obtain ⟨htext, h⟩ := (str_append (short_userId hu) (short_userId hu')).mp h
  obtain ⟨-, h⟩ := (str_append (short_label (by decide)) (short_label (by decide))).mp h
  obtain ⟨hm, h⟩ := u64_append.mp h
  obtain ⟨ht, h⟩ := u64_append.mp h
  obtain ⟨hp, h⟩ := u64_append.mp h
  rw [hlength] at h
  exact ⟨htext, hm, ht, hp, List.append_cancel_left h⟩

/-- No wrap passes for a seal. -/
lemma ruleSetAad_ne_wrapAad {u u' : JsString} {v : SafeUint} {p : KdfParams} {salt : Bytes} :
    ruleSetAad u v ≠ wrapAad u' p salt := by
  intro h
  rw [ruleSetAad_eq, wrapAad_eq] at h
  have hlabel := ((str_append (short_label (by decide)) (short_label (by decide))).mp h).1
  exact absurd hlabel (by decide)

/-! ### Padding -/

lemma le_growBucket (length bucket : ℕ) (h : 0 < bucket) :
    length ≤ growBucket length bucket ∧ bucket ≤ growBucket length bucket := by
  induction bucket using growBucket.induct length with
  | case1 bucket hless ih =>
    rw [growBucket, if_pos hless]
    have hgrown := ih (by omega)
    omega
  | case2 bucket hless =>
    rw [growBucket, if_neg hless]
    omega

/-- What is framed is padded to a length within the bounds. -/
lemma framePlaintext_eq_ok {u : JsString} {v : SafeUint} {body plain : Bytes}
    (h : framePlaintext u v body = .ok plain) :
    (∃ n, plain = framed u v body ++ List.replicate n 0) ∧
      (framed u v body).length ≤ MAX_PLAINTEXT_BYTES ∧
      MIN_PLAINTEXT_BUCKET ≤ plain.length ∧ plain.length ≤ MAX_PLAINTEXT_BYTES := by
  simp only [framePlaintext, paddedPlaintextLength, bind_eq_ok, check_eq_ok, not_lt] at h
  obtain ⟨n, ⟨hmax, hn⟩, hplain⟩ := h
  obtain rfl := Except.ok.inj hn
  obtain rfl := Except.ok.inj hplain
  have hgrow := le_growBucket (framed u v body).length MIN_PLAINTEXT_BUCKET (by decide)
  have hbounds : MIN_PLAINTEXT_BUCKET ≤ MAX_PLAINTEXT_BYTES := by decide
  refine ⟨⟨_, rfl⟩, hmax, ?_, ?_⟩
  · rw [List.length_append, List.length_replicate]
    omega
  · rw [List.length_append, List.length_replicate]
    omega

lemma framePlaintext_of_le {u : JsString} {v : SafeUint} {body : Bytes}
    (h : (framed u v body).length ≤ MAX_PLAINTEXT_BYTES) :
    ∃ plain, framePlaintext u v body = .ok plain := by
  simp only [framePlaintext, paddedPlaintextLength, bind_eq_ok, check_eq_ok, not_lt]
  exact ⟨_, _, ⟨h, rfl⟩, rfl⟩

/-! ### Reading back -/

lemma readPrefixed_append {bytes : Bytes} (h : bytes.length < 256 ^ 4) (rest : Bytes) :
    readPrefixed (be 4 bytes.length ++ (bytes ++ rest)) = .ok (bytes, rest) := by
  have htake : (be 4 bytes.length ++ (bytes ++ rest)).take 4 = be 4 bytes.length :=
    List.take_left' (length_be 4 _)
  have hdrop : (be 4 bytes.length ++ (bytes ++ rest)).drop 4 = bytes ++ rest :=
    List.drop_left' (length_be 4 _)
  rw [readPrefixed, if_neg (by simp), htake, hdrop, ofBe_be_of_lt h]
  dsimp only
  rw [if_neg (by simp), List.take_left, List.drop_left]

lemma readPrefixed_str {s : String} (h : s ∈ Short) (rest : Bytes) :
    readPrefixed (str s ++ rest) = .ok (utf8 s, rest) := by
  rw [str, List.append_assoc]
  exact readPrefixed_append h rest

/-- What the decoder reads of what the encoder wrote. -/
lemma decode_utf8 (s : String) :
    decode (utf8 s) = .ok (String.ofList (Utf8.withoutMark s.toList)) := by
  have hdecoded : decodeText (utf8 s) = some (String.ofList (Utf8.withoutMark s.toList)) :=
    decodeText_eq_some_iff.mpr ⟨s.toList, utf8_eq_encode s, rfl⟩
  rw [decode, hdecoded]

/-- The user that is read back. -/
def readBack (userId : JsString) : JsString :=
  units (String.ofList (Utf8.withoutMark (scalars userId)))

/-- The user is text, and does not begin with a byte order mark. -/
def PlainId (userId : JsString) : Prop :=
  units (toWellFormed userId) = userId ∧ userId.head? ≠ some 0xFEFF

lemma framed_eq (u : JsString) (v : SafeUint) (body : Bytes) :
    framed u v body = str PLAINTEXT_LABEL ++ (str (toWellFormed u) ++ (u64 v ++
      (be 4 body.length ++ body))) := by
  simp [framed, CanonicalWriter.bytesPrefixed]

/-- **What a frame is read as**: the body, where the user read back is the one who reads, and the
version is the one looked for. -/
lemma unframePlaintext_framePlaintext {u : JsString} {v : SafeUint} {body plain : Bytes}
    (hu : assertUserId u = .ok ()) (h : framePlaintext u v body = .ok plain) (u' : JsString)
    (v' : SafeUint) : unframePlaintext plain u' v' =
      if readBack u ≠ u' then fail .tampered "the rule set belongs to another account"
      else if v ≠ v' then fail .tampered "the rule set version does not match"
      else .ok body := by
  obtain ⟨⟨n, rfl⟩, hmax, -, -⟩ := framePlaintext_eq_ok h
  have hbody : body.length < 256 ^ 4 := by
    rw [framed_eq] at hmax
    simp only [List.length_append] at hmax
    have hbound : MAX_PLAINTEXT_BYTES < 256 ^ 4 := by decide
    omega
  have hlabel : decode (utf8 PLAINTEXT_LABEL) = .ok PLAINTEXT_LABEL := by
    have hmark : Utf8.withoutMark PLAINTEXT_LABEL.toList = PLAINTEXT_LABEL.toList :=
      Utf8.withoutMark_eq_self_iff.mpr (by decide)
    rw [decode_utf8, hmark, String.ofList_toList]
  have hid : decode (utf8 (toWellFormed u)) =
      .ok (String.ofList (Utf8.withoutMark (scalars u))) := by
    rw [decode_utf8, toWellFormed, String.toList_ofList]
  have hversion : ofBe ((u64 v ++ (be 4 body.length ++ (body ++ List.replicate n 0))).take 8) =
      v.val := by
    rw [u64, List.take_left' (length_be 8 _), ofBe_be_of_lt (v.property.trans_lt (by decide))]
  have hdrop : (u64 v ++ (be 4 body.length ++ (body ++ List.replicate n 0))).drop 8 =
      be 4 body.length ++ (body ++ List.replicate n 0) := List.drop_left' (length_be 8 _)
  rw [framed_eq, unframePlaintext]
  simp only [List.append_assoc]
  rw [readPrefixed_str (short_label (by decide))]
  simp only [bind, Except.bind]
  rw [hlabel]
  dsimp only
  rw [if_neg (by simp), readPrefixed_str (short_userId hu)]
  dsimp only
  rw [hid]
  dsimp only
  rw [if_neg (c := _ < 8) (by simp [u64]), hversion, hdrop, readPrefixed_append hbody]
  simp only [readBack, List.all_replicate, ne_eq, Subtype.ext_iff]
  simp

lemma scalars_units (s : String) : scalars (units s) = s.toList := by
  have h := congrArg String.toList (toWellFormed_units s)
  rwa [toWellFormed, String.toList_ofList] at h

lemma head_scalars_of_mark {u : JsString} (h : u.head? = some 0xFEFF) :
    (scalars u).head? = some Utf8.byteOrderMark := by
  have hchar : unitChar 0xFEFF = Utf8.byteOrderMark := by decide
  have hhigh : isHighSurrogate 0xFEFF = false := by decide
  match u, h with
  | [_], rfl => rw [scalars, hchar, List.head?_cons]
  | _ :: v :: rest, rfl =>
    rw [scalars, hhigh, Bool.false_and, if_neg (by simp), hchar, List.head?_cons]

/-- **Who is read back**: the users that are text without a mark. -/
theorem readBack_eq_self_iff {u : JsString} : readBack u = u ↔ PlainId u := by
  constructor
  · intro h
    have hself : Utf8.withoutMark (scalars u) = scalars u := by
      have hscalars := congrArg scalars h
      rwa [readBack, scalars_units, String.toList_ofList] at hscalars
    refine ⟨?_, fun hmark => ?_⟩
    · rw [readBack, hself] at h
      exact h
    · exact Utf8.withoutMark_eq_self_iff.mp hself (head_scalars_of_mark hmark)
  · rintro ⟨htext, hmark⟩
    have hunmarked : (scalars u).head? ≠ some Utf8.byteOrderMark := by
      intro hhead
      obtain ⟨cs, hcs⟩ := List.head?_eq_some_iff.mp hhead
      apply hmark
      rw [← htext, toWellFormed, hcs, units, String.toList_ofList, List.flatMap_cons]
      rfl
    rw [readBack, Utf8.withoutMark_eq_self_iff.mpr hunmarked]
    exact htext

/-! ### Sealing and opening -/

variable {C : Primitives} {t t' : Table Bytes} {rulesKey : Bytes} {userId : JsString}
  {body : Bytes}

/-- What seals a rule set: its encryption, given the fields of the envelope. -/
def sealEntry (C : Primitives) (rulesKey : Bytes) (userId : JsString) (c : Checked)
    (plain : Bytes) : Encryption Bytes where
  key := C.hkdf rulesKey [] LABEL_RULE_SET_KEY
  nonce := ofBe c.nonce
  ad := ruleSetAad userId c.version.val
  plaintext := plain

/-- What wraps a rules key. -/
def wrapEntry (wrappingKey : Bytes) (userId : JsString) (c : Checked) (rulesKey : Bytes) :
    Encryption Bytes where
  key := wrappingKey
  nonce := ofBe (c.wrappedKey.take RULES_NONCE_LENGTH)
  ad := wrapAad userId c.kdfParams c.salt
  plaintext := rulesKey

lemma openRulesEnvelope_eq_ok_iff {envelope : RulesEnvelope} {minVersion : ℕ} :
    openRulesEnvelope C t rulesKey userId envelope minVersion = .ok body ↔
      assertUserId userId = .ok () ∧ ∃ c, HasFields envelope c ∧ minVersion ≤ c.version.val.val ∧
        rulesKey.length = RULES_KEY_LENGTH ∧ ∃ plain, sealEntry C rulesKey userId c plain ∈ t ∧
          c.ciphertext = cipher C.toScheme (sealEntry C rulesKey userId c plain) ∧
          unframePlaintext plain userId c.version.val = .ok body := by
  simp only [openRulesEnvelope, bind_eq_ok, check_eq_ok, not_lt, assertRulesEnvelope_eq_ok_iff,
    ruleSetKey_eq_ok_iff]
  constructor
  · rintro ⟨⟨⟩, hu, c, hc, hmin, key, ⟨hlength, rfl⟩, hopen⟩
    split at hopen
    · simp at hopen
    next plain hplain =>
    obtain ⟨hmem, hcipher⟩ := (decrypt_eq_some_iff C.toScheme).mp hplain
    exact ⟨hu, c, hc, hmin, hlength, plain, hmem, hcipher, hopen⟩
  · rintro ⟨hu, c, hc, hmin, hlength, plain, hmem, hcipher, hopen⟩
    refine ⟨(), hu, c, hc, hmin, _, ⟨hlength, rfl⟩, ?_⟩
    have hplain := (decrypt_eq_some_iff C.toScheme).mpr ⟨hmem, hcipher⟩
    rw [hplain]
    exact hopen

lemma unlockRulesKey_eq_ok_iff {passphrase : JsString} {envelope : RulesEnvelope} :
    unlockRulesKey C t passphrase userId envelope = .ok rulesKey ↔
      assertUserId userId = .ok () ∧ ∃ c wrappingKey, HasFields envelope c ∧
        deriveWrappingKey C passphrase c.salt envelope.kdfParams = .ok wrappingKey ∧
        wrapEntry wrappingKey userId c rulesKey ∈ t ∧
        c.wrappedKey.drop RULES_NONCE_LENGTH =
          cipher C.toScheme (wrapEntry wrappingKey userId c rulesKey) := by
  simp only [unlockRulesKey, bind_eq_ok, assertRulesEnvelope_eq_ok_iff]
  constructor
  · rintro ⟨⟨⟩, hu, c, hc, wrappingKey, hkey, hopen⟩
    split at hopen
    next key hplain =>
      obtain rfl := Except.ok.inj hopen
      obtain ⟨hmem, hcipher⟩ := (decrypt_eq_some_iff C.toScheme).mp hplain
      exact ⟨hu, c, wrappingKey, hc, hkey, hmem, hcipher⟩
    · simp at hopen
  · rintro ⟨hu, c, wrappingKey, hc, hkey, hmem, hcipher⟩
    refine ⟨(), hu, c, hc, wrappingKey, hkey, ?_⟩
    have hplain := (decrypt_eq_some_iff C.toScheme).mpr ⟨hmem, hcipher⟩
    rw [hplain]

/-- An envelope whose seal is in the table: its fields and the padded plaintext. -/
structure IsSealed (C : Primitives) (t : Table Bytes) (rulesKey : Bytes) (userId : JsString)
    (body : Bytes) (envelope : RulesEnvelope) (c : Checked) (plain : Bytes) : Prop where
  user : assertUserId userId = .ok ()
  key_length : rulesKey.length = RULES_KEY_LENGTH
  fields : HasFields envelope c
  frame : framePlaintext userId c.version.val body = .ok plain
  mem : sealEntry C rulesKey userId c plain ∈ t
  cipher_eq : c.ciphertext = cipher C.toScheme (sealEntry C rulesKey userId c plain)

/-- An envelope whose wrap is in the table. -/
structure IsWrapped (C : Primitives) (t : Table Bytes) (passphrase : JsString) (rulesKey : Bytes)
    (userId : JsString) (envelope : RulesEnvelope) (c : Checked) (wrappingKey : Bytes) : Prop where
  user : assertUserId userId = .ok ()
  fields : HasFields envelope c
  key : deriveWrappingKey C passphrase c.salt envelope.kdfParams = .ok wrappingKey
  mem : wrapEntry wrappingKey userId c rulesKey ∈ t
  cipher_eq : c.wrappedKey.drop RULES_NONCE_LENGTH =
    cipher C.toScheme (wrapEntry wrappingKey userId c rulesKey)

/-- The fields that the seal binds. -/
def SameSeal (e f : RulesEnvelope) : Prop :=
  e.v = f.v ∧ e.version = f.version ∧ e.nonce = f.nonce ∧ e.ciphertext = f.ciphertext

/-- The fields that the wrap binds. -/
def SameWrap (e f : RulesEnvelope) : Prop :=
  e.kdfParams = f.kdfParams ∧ e.salt = f.salt ∧ e.wrappedKey = f.wrappedKey

lemma sealRuleSet_eq_ok {version : SafeUint} {nonce : Drawn RULES_NONCE_LENGTH}
    {fields : String × String}
    (h : sealRuleSet C t rulesKey userId version body nonce = .ok (fields, t')) :
    rulesKey.length = RULES_KEY_LENGTH ∧ ∃ plain, framePlaintext userId version body = .ok plain ∧
      fields.1 = encodeBase64 nonce.val ∧
      fields.2 = encodeBase64 (C.bytes (C.hkdf rulesKey [] LABEL_RULE_SET_KEY) (ofBe nonce.val)
        (ruleSetAad userId version) plain) ∧
      t' = t ++ [⟨C.hkdf rulesKey [] LABEL_RULE_SET_KEY, ofBe nonce.val,
        ruleSetAad userId version, plain⟩] := by
  simp only [sealRuleSet, bind_eq_ok, ruleSetKey_eq_ok_iff, encrypt] at h
  obtain ⟨key, ⟨hlength, rfl⟩, plain, hplain, hfields⟩ := h
  obtain ⟨rfl, rfl⟩ := Prod.mk.inj (Except.ok.inj hfields)
  exact ⟨hlength, plain, hplain, rfl, rfl, rfl⟩

lemma length_ciphertext (htag : C.tagLength = TAG_LENGTH) {key ad plain : Bytes} {nonce : ℕ}
    {version : SafeUint} (hplain : framePlaintext userId version body = .ok plain) :
    TAG_LENGTH + MIN_PLAINTEXT_BUCKET ≤ (C.bytes key nonce ad plain).length ∧
      (C.bytes key nonce ad plain).length ≤ RULES_MAX_CIPHERTEXT_BYTES := by
  obtain ⟨-, -, hmin, hmax⟩ := framePlaintext_eq_ok hplain
  have hbound : MAX_PLAINTEXT_BYTES + TAG_LENGTH = RULES_MAX_CIPHERTEXT_BYTES := by decide
  rw [C.length, htag]
  omega

lemma encodeBase64_inj {a b : Bytes} (h : encodeBase64 a = encodeBase64 b) : a = b := by
  have ha := decodeBase64Strict_none (decodeBase64Strict_encodeBase64 (Eq.refl a.length))
  have hb := decodeBase64Strict_none (decodeBase64Strict_encodeBase64 (Eq.refl b.length))
  rw [h, hb] at ha
  exact (Except.ok.inj ha).symm

/-- A sealed envelope opens to what its frame is read as. -/
lemma IsSealed.openRulesEnvelope_eq {envelope : RulesEnvelope} {c : Checked} {plain : Bytes}
    (h : IsSealed C t rulesKey userId body envelope c plain) {minVersion : ℕ}
    (hmin : minVersion ≤ c.version.val.val) :
    openRulesEnvelope C t rulesKey userId envelope minVersion =
      if readBack userId ≠ userId then
        fail .tampered "the rule set belongs to another account"
      else .ok body := by
  have hplain := (decrypt_eq_some_iff C.toScheme).mpr ⟨h.mem, h.cipher_eq⟩
  have hkey := (ruleSetKey_eq_ok_iff (C := C)).mpr ⟨h.key_length, rfl⟩
  have hread := unframePlaintext_framePlaintext h.user h.frame userId c.version.val
  rw [if_neg (c := c.version.val ≠ _) (not_not.mpr rfl)] at hread
  simp only [openRulesEnvelope, h.user, assertRulesEnvelope_eq_ok_iff.mpr h.fields, hkey, bind,
    Except.bind]
  rw [if_neg (Nat.not_lt.mpr hmin), hplain]
  exact hread

/-- What a reseal returns. -/
lemma resealRulesEnvelope_eq_ok (htag : C.tagLength = TAG_LENGTH)
    {previous envelope : RulesEnvelope} {nonce : Drawn RULES_NONCE_LENGTH}
    (h : resealRulesEnvelope C t rulesKey userId previous body nonce = .ok (envelope, t')) :
    ∃ c plain, IsSealed C t' rulesKey userId body envelope c plain ∧
      t' = t ++ [sealEntry C rulesKey userId c plain] ∧ SameWrap envelope previous ∧
      envelope.version = previous.version + 1 := by
  simp only [resealRulesEnvelope, bind_eq_ok, assertRulesEnvelope_eq_ok_iff,
    assertVersion_eq_ok_iff] at h
  obtain ⟨⟨⟩, hu, p, hp, version, hversion, ⟨fields, table⟩, hseal, hreturn⟩ := h
  obtain ⟨rfl, rfl⟩ := Prod.mk.inj (Except.ok.inj hreturn)
  obtain ⟨hlength, plain, hplain, hnonce, hciphertext, rfl⟩ := sealRuleSet_eq_ok hseal
  obtain ⟨hshort, hlarge⟩ := length_ciphertext htag hplain
  refine ⟨⟨p.kdfParams, version, p.salt, p.wrappedKey, nonce.val, C.bytes
    (C.hkdf rulesKey [] LABEL_RULE_SET_KEY) (ofBe nonce.val) (ruleSetAad userId version.val) plain⟩,
    plain, ⟨hu, hlength, ?_, hplain, ?_, rfl⟩, rfl, ⟨rfl, rfl, rfl⟩, hversion.symm⟩
  · exact ⟨rfl, hp.kdfParams, rfl, hp.salt, hp.salt_length, hp.wrappedKey, hp.wrappedKey_length,
      hnonce, nonce.property, hciphertext, hshort, hlarge⟩
  · exact List.mem_append_right _ (List.mem_singleton_self _)

/-- What creating an envelope returns. -/
lemma createRulesEnvelope_eq_ok (htag : C.tagLength = TAG_LENGTH) {options : CreateOptions}
    {draws : CreateDraws} {envelope : RulesEnvelope}
    (h : createRulesEnvelope C t options draws = .ok ((envelope, rulesKey), t')) :
    ∃ c plain wrappingKey,
      IsSealed C t' rulesKey options.userId options.body envelope c plain ∧
      IsWrapped C t' options.passphrase rulesKey options.userId envelope c wrappingKey ∧
      t' = t ++ [wrapEntry wrappingKey options.userId c rulesKey,
        sealEntry C rulesKey options.userId c plain] ∧ envelope.version = 1 ∧
      c.wrappedKey.take RULES_NONCE_LENGTH = draws.wrapNonce.val ∧ c.nonce = draws.nonce.val := by
  simp only [createRulesEnvelope, bind_eq_ok, assertRulesKdfParams_eq_ok_iff, wrapKey,
    encrypt] at h
  obtain ⟨⟨⟩, hu, kdf, hkdf, wrappingKey, hkey, ⟨fields, table⟩, hseal, hreturn⟩ := h
  obtain ⟨hmade, rfl⟩ := Prod.mk.inj (Except.ok.inj hreturn)
  obtain ⟨henvelope, rfl⟩ := Prod.mk.inj hmade
  obtain ⟨hlength, plain, hplain, hnonce, hciphertext, rfl⟩ := sealRuleSet_eq_ok hseal
  obtain ⟨hshort, hlarge⟩ := length_ciphertext htag hplain
  let c : Checked := {
    kdfParams := kdf
    version := ⟨⟨1, by decide⟩, by decide⟩
    salt := draws.salt.val
    wrappedKey := draws.wrapNonce.val ++ C.bytes wrappingKey (ofBe draws.wrapNonce.val)
      (wrapAad options.userId kdf draws.salt.val) draws.rulesKey.val
    nonce := draws.nonce.val
    ciphertext := C.bytes (C.hkdf draws.rulesKey.val [] LABEL_RULE_SET_KEY) (ofBe draws.nonce.val)
      (ruleSetAad options.userId ⟨1, by decide⟩) plain }
  have htake : c.wrappedKey.take RULES_NONCE_LENGTH = draws.wrapNonce.val :=
    List.take_left' draws.wrapNonce.property
  have hdrop : c.wrappedKey.drop RULES_NONCE_LENGTH = C.bytes wrappingKey
      (ofBe draws.wrapNonce.val) (wrapAad options.userId kdf draws.salt.val) draws.rulesKey.val :=
    List.drop_left' draws.wrapNonce.property
  have hwrapped : c.wrappedKey.length = RULES_WRAPPED_KEY_LENGTH := by
    dsimp only [c]
    rw [List.length_append, C.length, htag, draws.wrapNonce.property, hlength]
    rfl
  have hentry : wrapEntry wrappingKey options.userId c draws.rulesKey.val = ⟨wrappingKey,
      ofBe draws.wrapNonce.val, wrapAad options.userId kdf draws.salt.val,
      draws.rulesKey.val⟩ := by
    rw [wrapEntry, htake]
  have hfields : HasFields envelope c := by
    rw [← henvelope]
    exact ⟨rfl, hkdf, Nat.cast_one.symm, rfl, draws.salt.property, rfl, hwrapped, hnonce,
      draws.nonce.property, hciphertext, hshort, hlarge⟩
  refine ⟨c, plain, wrappingKey, ⟨hu, hlength, hfields, hplain, ?_, rfl⟩,
    ⟨hu, hfields, by rwa [← henvelope], ?_, ?_⟩, ?_, by rw [← henvelope], htake, rfl⟩
  · simp [c, sealEntry]
  · rw [hentry]
    simp
  · rw [hdrop, hentry]
    rfl
  · rw [hentry]
    simp [c, sealEntry]

/-- What creating an envelope asks. -/
lemma createRulesEnvelope_of {options : CreateOptions} {draws : CreateDraws} {kdf : KdfParams}
    (hu : assertUserId options.userId = .ok ())
    (hkdf : assertRulesKdfParams (options.kdfParams.getD DEFAULT_RULES_KDF) = .ok kdf)
    (hpass : options.passphrase.length ≠ 0)
    (hbody : (framed options.userId ⟨1, by decide⟩ options.body).length ≤ MAX_PLAINTEXT_BYTES) :
    ∃ envelope t', createRulesEnvelope C t options draws =
      .ok ((envelope, draws.rulesKey.val), t') := by
  obtain ⟨plain, hplain⟩ := framePlaintext_of_le hbody
  have hkey := deriveWrappingKey_eq_ok_iff.mpr
    ⟨kdf, hkdf, draws.salt.property, hpass, Eq.refl (C.hkdf (C.argon2id
      (textEncode (C.normalizeNFC options.passphrase)) draws.salt.val kdf.m.val kdf.t.val
        kdf.p.val) draws.salt.val LABEL_WRAP_KEY)⟩
  have hrules := (ruleSetKey_eq_ok_iff (C := C)).mpr ⟨draws.rulesKey.property, rfl⟩
  simp only [createRulesEnvelope, sealRuleSet, wrapKey, encrypt, hu, hkdf, hkey, hrules, hplain,
    bind, Except.bind]
  exact ⟨_, _, rfl⟩

end Tnp.Crypto.DnsRules
