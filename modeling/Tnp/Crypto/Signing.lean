import Mathlib.Data.List.Perm.Subperm
import Tnp.Crypto.RelayDirectory
import Tnp.Crypto.ServiceAuth
import Tnp.Lib.Delimited

/-!
What the bytes under a signature say.

Every kind of signed statement is written as its context and then its fields, in one order. No
two kinds share a context, and the fields can be read back. Only the endpoints are not text that
was checked: a surrogate without its other half is written as the replacement character, and two
statements that differ there alone have the same bytes.
-/

namespace Tnp.Crypto.Signing

open Tnp.Lib Tnp.Crypto.Grants Tnp.Crypto.DomainKey Tnp.Crypto.KeyAgreement
open Tnp.Crypto.RelayDirectory

/-- A statement of any kind. Fields whose checks are made when a statement is parsed are parsed
here; the encoders check the others. -/
inductive Statement
  | grant (g : ParsedGrant)
  | keyAgreement (c : ParsedCertificate)
  | rotation (r : ParsedRotation)
  | serviceAuth (s : ServiceAuthStatement)
  | relayIdentity (s : RelayIdentityStatement)
  | registryProof (s : RelayRegistryProofStatement)
  | relayBinding (s : BindingStatement)
  | relayDirectory (d : ParsedDirectory)

/-- The bytes that are signed, if the encoder accepts the statement. -/
def signingBytes : Statement → Except EncodingError Bytes
  | .grant g => .ok (Grants.encodeParsed g)
  | .keyAgreement c => .ok (KeyAgreement.encodeParsed c)
  | .rotation r => .ok (encodeRotation r)
  | .serviceAuth s => encodeStatement s
  | .relayIdentity s => encodeIdentity s
  | .registryProof s => encodeRegistryProof s
  | .relayBinding s => encodeBinding s
  | .relayDirectory d => encodeDirectory d

/-- Two relays agree, where endpoints are compared by `eq`. -/
def AgreeRelay (eq : JsString → JsString → Prop) (r s : ParsedRelay) : Prop :=
  eq r.endpoint.val s.endpoint.val ∧ r.key = s.key ∧ r.operator = s.operator ∧
    r.capabilities = s.capabilities ∧ r.region = s.region

/-- Two statements are of one kind and have the same fields, where endpoints are compared by
`eq`, and the purposes of a grant are a set. -/
def Agree (eq : JsString → JsString → Prop) : Statement → Statement → Prop
  | .grant g, .grant h =>
    g.issuer = h.issuer ∧ g.subject = h.subject ∧ g.purposes.Perm h.purposes ∧
      g.notBefore = h.notBefore ∧ g.notAfter = h.notAfter ∧ g.serial = h.serial ∧
      g.scope = h.scope
  | .keyAgreement c, .keyAgreement d => c = d
  | .rotation r, .rotation s => r = s
  | .serviceAuth s, .serviceAuth t =>
    s.name = t.name ∧ eq s.endpoint t.endpoint ∧ s.challenge = t.challenge ∧ s.nodeKey = t.nodeKey
  | .relayIdentity s, .relayIdentity t =>
    eq s.endpoint t.endpoint ∧ s.nonce = t.nonce ∧ s.relayKey = t.relayKey
  | .registryProof s, .registryProof t =>
    s.purpose = t.purpose ∧ eq s.endpoint t.endpoint ∧ s.relayKey = t.relayKey ∧
      s.issuedAt = t.issuedAt
  | .relayBinding s, .relayBinding t =>
    s.name = t.name ∧ eq s.endpoint t.endpoint ∧ s.relayKey = t.relayKey ∧
      s.issuedAt = t.issuedAt
  | .relayDirectory d, .relayDirectory e =>
    d.serial = e.serial ∧ d.issuedAt = e.issuedAt ∧ d.expiresAt = e.expiresAt ∧
      List.Forall₂ (AgreeRelay eq) d.relays e.relays
  | _, _ => False

/-- The statements are the same. -/
def Same : Statement → Statement → Prop := Agree (· = ·)

/-- The statements are the same once every lone surrogate of an endpoint is replaced. -/
def SameText : Statement → Statement → Prop := Agree fun e f => toWellFormed e = toWellFormed f

/-! ### Fields -/

def str (s : String) : Bytes := be 4 (utf8 s).length ++ utf8 s

def u64 (n : SafeUint) : Bytes := be 8 n.val

/-- Strings that are not too long for their length to be written. -/
def Short : Set String := {s | (utf8 s).length < 256 ^ 4}

lemma delimits_str : Delimits Short (· = ·) str := fun _ ha _ hb r s =>
  (delimits_prefixed 4 ha hb r s).trans (and_congr_left' utf8_injective.eq_iff)

lemma delimits_u64 : Delimits Set.univ (· = ·) u64 := by
  intro m _ n _ r s
  have hbound : ∀ k : SafeUint, k.val < 256 ^ 8 := fun k => k.property.trans_lt (by decide)
  exact (delimits_be 8 (hbound m) (hbound n) r s).trans (and_congr_left' Subtype.ext_iff.symm)

lemma short_of_length {s : String} (h : s.toList.length ≤ 1000000) : s ∈ Short := by
  have hbytes := length_utf8_le s.toList
  rw [String.ofList_toList] at hbytes
  change (utf8 s).length < 256 ^ 4
  omega

lemma short_of_isValidScope {s : String} (h : isValidScope s = true) : s ∈ Short := by
  apply short_of_length
  simp only [isValidScope, Bool.and_eq_true] at h
  obtain ⟨⟨-, hlength⟩, -⟩ := h
  exact (of_decide_eq_true hlength).trans (by decide)

lemma short_toWellFormed {e : JsString} (h : e.length ≤ 512) : toWellFormed e ∈ Short := by
  apply short_of_length
  have hchars := length_scalars_le e
  rw [toWellFormed, String.toList_ofList]
  omega

/-- Fields of one length. -/
lemma fixed_append {n : ℕ} {a b : {bytes : Bytes // bytes.length = n}} {r s : Bytes} :
    a.val ++ r = b.val ++ s ↔ a = b ∧ r = s :=
  delimits_fixed n trivial trivial r s

lemma u64_append {m n : SafeUint} {r s : Bytes} : u64 m ++ r = u64 n ++ s ↔ m = n ∧ r = s :=
  delimits_u64 trivial trivial r s

lemma str_append {a b : String} (ha : a ∈ Short) (hb : b ∈ Short) {r s : Bytes} :
    str a ++ r = str b ++ s ↔ a = b ∧ r = s :=
  delimits_str ha hb r s

/-! ### Layouts -/

/-- The sorted purposes, joined. -/
def joined (purposes : List GrantPurpose) : String :=
  ",".intercalate ((purposes.map GrantPurpose.text).insertionSort (· ≤ ·))

/-- The context each kind of statement begins with. -/
def context : Statement → String
  | .grant _ => GRANT_CONTEXT
  | .keyAgreement _ => KEY_AGREEMENT_CONTEXT
  | .rotation _ => ROTATION_CONTEXT
  | .serviceAuth _ => SERVICE_AUTH_CONTEXT
  | .relayIdentity _ => IDENTITY_CONTEXT
  | .registryProof _ => REGISTRY_PROOF_CONTEXT
  | .relayBinding _ => BINDING_CONTEXT
  | .relayDirectory _ => DIRECTORY_CONTEXT

def relayBody (r : ParsedRelay) : Bytes :=
  str (toWellFormed r.endpoint.val) ++ (r.key.val ++ (str r.operator.text ++
    (u64 (count r.capabilities.length r.capabilities_le) ++
      (r.capabilities.flatMap str ++ str r.region))))

/-- The fields of a statement after its context. -/
def body : Statement → Bytes
  | .grant g => g.issuer.val ++ (g.subject.val ++ (str (joined g.purposes) ++ (u64 g.notBefore ++
      (u64 g.notAfter ++ (u64 g.serial ++ str (g.scope.getD ""))))))
  | .keyAgreement c => c.signer.val ++ (c.key.val ++ (str c.role.text ++ (str c.scope ++
      (u64 c.notBefore ++ (u64 c.notAfter ++ u64 c.serial)))))
  | .rotation r => str r.name ++ (r.previousKey.val ++ (r.nextKey.val ++ u64 r.issuedAt))
  | .serviceAuth s => str s.name ++ (str (toWellFormed s.endpoint) ++ (s.challenge.val ++
      s.nodeKey.val))
  | .relayIdentity s => str (toWellFormed s.endpoint) ++ (s.nonce.val ++ s.relayKey.val)
  | .registryProof s => str s.purpose.text ++ (str (toWellFormed s.endpoint) ++ (s.relayKey.val ++
      u64 s.issuedAt))
  | .relayBinding s => str s.name ++ (str (toWellFormed s.endpoint) ++ (s.relayKey.val ++
      u64 s.issuedAt))
  | .relayDirectory d => u64 RELAY_DIRECTORY_VERSION ++ (u64 d.serial ++ (u64 d.issuedAt ++
      (u64 d.expiresAt ++ (u64 (count d.relays.length d.relays_bounded) ++
        d.relays.flatMap relayBody))))

/-- What the encoder checked. -/
def Checked : Statement → Prop
  | .serviceAuth s => isValidScope s.name = true ∧ s.endpoint.length ≤ MAX_ENDPOINT_LENGTH
  | .relayIdentity s => isEndpoint s.endpoint = true
  | .registryProof s => isEndpoint s.endpoint = true
  | .relayBinding s => isValidScope s.name = true ∧ isEndpoint s.endpoint = true
  | _ => True

section Writer

variable (w : CanonicalWriter)

@[simp] lemma parts_string (s : String) : (w.string s).parts = w.parts ++ str s := by
  simp [CanonicalWriter.string, CanonicalWriter.bytesPrefixed, str]

@[simp] lemma parts_units (e : JsString) :
    (w.units e).parts = w.parts ++ str (toWellFormed e) := by
  simp [CanonicalWriter.units, CanonicalWriter.bytesPrefixed, str, textEncode]

@[simp] lemma parts_fixed {n : ℕ} (bytes : {bytes : Bytes // bytes.length = n}) :
    (w.fixed bytes).parts = w.parts ++ bytes.val := rfl

@[simp] lemma parts_uint (n : SafeUint) : (w.uint n).parts = w.parts ++ u64 n := rfl

@[simp] lemma finish_eq : w.finish = w.parts := rfl

@[simp] lemma parts_foldl_string (caps : List String) :
    (caps.foldl CanonicalWriter.string w).parts = w.parts ++ caps.flatMap str := by
  induction caps generalizing w with
  | nil => simp
  | cons cap caps ih => simp [ih]

@[simp] lemma parts_encodeRelay (r : ParsedRelay) :
    (encodeRelay w r).parts = w.parts ++ relayBody r := by
  simp [encodeRelay, relayBody]

@[simp] lemma parts_foldl_encodeRelay (relays : List ParsedRelay) :
    (relays.foldl encodeRelay w).parts = w.parts ++ relays.flatMap relayBody := by
  induction relays generalizing w with
  | nil => simp
  | cons r relays ih => simp [ih]

end Writer

lemma checkEndpoint_eq_ok {e : JsString} {value : Endpoint} (h : checkEndpoint e = .ok value) :
    isEndpoint e = true ∧ value.val = e := by
  unfold checkEndpoint at h
  split at h
  · next hvalid => exact ⟨hvalid, congrArg Subtype.val (Except.ok.inj h).symm⟩
  · simp at h

/-- **The bytes under a signature are the context, then the fields.** -/
theorem signingBytes_eq_ok {s : Statement} {bytes : Bytes} (h : signingBytes s = .ok bytes) :
    bytes = str (context s) ++ body s ∧ Checked s := by
  cases s with
  | grant g =>
    obtain rfl := Except.ok.inj h
    exact ⟨by simp [Grants.encodeParsed, context, body, joined], trivial⟩
  | keyAgreement c =>
    obtain rfl := Except.ok.inj h
    exact ⟨by simp [KeyAgreement.encodeParsed, context, body], trivial⟩
  | rotation r =>
    obtain rfl := Except.ok.inj h
    exact ⟨by simp [encodeRotation, context, body], trivial⟩
  | serviceAuth s =>
    simp only [signingBytes, encodeStatement] at h
    split at h
    · simp at h
    next hname =>
    split at h
    · simp at h
    next hendpoint =>
    obtain rfl := Except.ok.inj h
    exact ⟨by simp [context, body], by simpa using hname, by omega⟩
  | relayIdentity s =>
    simp only [signingBytes, encodeIdentity] at h
    cases he : checkEndpoint s.endpoint with
    | error e => simp [he, bind, Except.bind] at h
    | ok value =>
      obtain ⟨hvalid, hvalue⟩ := checkEndpoint_eq_ok he
      simp only [he, bind, Except.bind, Except.ok.injEq] at h
      subst h
      exact ⟨by simp [context, body, hvalue], hvalid⟩
  | registryProof s =>
    simp only [signingBytes, encodeRegistryProof] at h
    cases he : checkEndpoint s.endpoint with
    | error e => simp [he, bind, Except.bind] at h
    | ok value =>
      obtain ⟨hvalid, hvalue⟩ := checkEndpoint_eq_ok he
      simp only [he, bind, Except.bind, Except.ok.injEq] at h
      subst h
      exact ⟨by simp [context, body, hvalue], hvalid⟩
  | relayBinding s =>
    simp only [signingBytes, encodeBinding] at h
    split at h
    · simp at h
    next hname =>
    cases he : checkEndpoint s.endpoint with
    | error e => simp [he, bind, Except.bind] at h
    | ok value =>
      obtain ⟨hvalid, hvalue⟩ := checkEndpoint_eq_ok he
      simp only [he, bind, Except.bind, Except.ok.injEq] at h
      subst h
      exact ⟨by simp [context, body, hvalue], by simpa using hname, hvalid⟩
  | relayDirectory d =>
    simp only [signingBytes, encodeDirectory] at h
    split at h
    · simp at h
    · obtain rfl := Except.ok.inj h
      exact ⟨by simp [context, body], trivial⟩

/-! ### Short strings -/

lemma short_text (p : GrantPurpose) : p.text ∈ Short := by
  cases p <;> exact short_of_length (by decide)

lemma short_context (s : Statement) : context s ∈ Short := by
  have hall : ∀ c ∈ [GRANT_CONTEXT, KEY_AGREEMENT_CONTEXT, ROTATION_CONTEXT, SERVICE_AUTH_CONTEXT,
      IDENTITY_CONTEXT, REGISTRY_PROOF_CONTEXT, BINDING_CONTEXT, DIRECTORY_CONTEXT],
      c.toList.length ≤ 1000000 := by decide
  apply short_of_length
  cases s <;> exact hall _ (by simp [context])

lemma short_role (role : KeyAgreementRole) : role.text ∈ Short := by
  cases role <;> exact short_of_length (by decide)

lemma short_operator (operator : DirectoryRelayOperator) : operator.text ∈ Short := by
  cases operator <;> exact short_of_length (by decide)

lemma short_purpose (purpose : RelayRegistryProofPurpose) : purpose.text ∈ Short := by
  cases purpose <;> exact short_of_length (by decide)

lemma short_endpoint {e : JsString} (h : isEndpoint e = true) : toWellFormed e ∈ Short := by
  simp only [isEndpoint, Bool.and_eq_true] at h
  obtain ⟨⟨-, hlength⟩, -⟩ := h
  exact short_toWellFormed (of_decide_eq_true hlength)

lemma short_capability {cap : String} (h : isCapability cap = true) : cap ∈ Short := by
  apply short_of_length
  simp only [isCapability, Bool.and_eq_true] at h
  obtain ⟨⟨-, hlength⟩, -⟩ := h
  exact (of_decide_eq_true hlength).trans (by decide)

lemma short_region {region : String} (h : isRegion region = true) : region ∈ Short := by
  apply short_of_length
  simp only [isRegion, Bool.and_eq_true] at h
  exact (of_decide_eq_true h.1).trans (by decide)

/-! ### Purposes as a set -/

lemma text_injective : Function.Injective GrantPurpose.text := by
  intro p q
  cases p <;> cases q <;> decide

/-- The sorted texts of purposes, as lists of characters. -/
def sorted (purposes : List GrantPurpose) : List (List Char) :=
  ((purposes.map GrantPurpose.text).insertionSort (· ≤ ·)).map String.toList

lemma toList_joined (purposes : List GrantPurpose) :
    (joined purposes).toList = [','].intercalate (sorted purposes) :=
  String.toList_intercalate

lemma mem_sorted {purposes : List GrantPurpose} {cs : List Char} (h : cs ∈ sorted purposes) :
    ∃ p : GrantPurpose, cs = p.text.toList := by
  simp only [sorted, List.mem_map, List.mem_insertionSort] at h
  obtain ⟨_, ⟨p, -, rfl⟩, rfl⟩ := h
  exact ⟨p, rfl⟩

lemma length_intercalate_le {l : List (List Char)} (h : ∀ cs ∈ l, cs.length ≤ 14) :
    ([','].intercalate l).length ≤ 15 * l.length := by
  induction l with
  | nil => simp
  | cons cs l ih =>
    have hcs := h cs List.mem_cons_self
    have hl := ih fun ds hds => h ds (List.mem_cons_of_mem _ hds)
    cases l with
    | nil =>
      simp [List.intercalate]
      omega
    | cons ds l =>
      simp only [List.intercalate, List.intersperse_cons_cons, List.flatten_cons,
        List.length_append, List.length_cons, List.length_nil] at hl ⊢
      omega

lemma short_joined (g : ParsedGrant) : joined g.purposes ∈ Short := by
  apply short_of_length
  rw [toList_joined]
  have hbound : ∀ cs ∈ sorted g.purposes, cs.length ≤ 14 := by
    intro cs hcs
    obtain ⟨p, rfl⟩ := mem_sorted hcs
    cases p <;> decide
  have hcount : g.purposes.length ≤ 5 := by
    have hsub : g.purposes ⊆ GrantPurpose.all := by
      intro p _
      cases p <;> decide
    exact (g.purposes_nodup.subperm hsub).length_le
  have hsorted : (sorted g.purposes).length = g.purposes.length := by
    simp [sorted, List.length_insertionSort]
  have hlength := length_intercalate_le hbound
  omega

/-- The joined text tells the purposes, but not their order. -/
lemma joined_eq_iff {ps qs : List GrantPurpose} (hps : ps ≠ []) (hqs : qs ≠ []) :
    joined ps = joined qs ↔ ps.Perm qs := by
  have hsplit : ∀ rs : List GrantPurpose, rs ≠ [] →
      (joined rs).toList.splitOn ',' = sorted rs := by
    intro rs hrs
    rw [toList_joined]
    refine List.splitOn_intercalate ',' ?_ ?_
    · intro cs hcs
      obtain ⟨p, rfl⟩ := mem_sorted hcs
      cases p <;> decide
    · have hlength : (sorted rs).length = rs.length := by
        simp [sorted, List.length_insertionSort]
      intro hnil
      rw [hnil] at hlength
      exact hrs (List.length_eq_zero_iff.mp hlength.symm)
  constructor
  · intro h
    have hsorted : sorted ps = sorted qs := by rw [← hsplit ps hps, h, hsplit qs hqs]
    have htexts := List.map_injective_iff.mpr (fun _ _ => String.toList_injective) hsorted
    have hperm := (List.perm_insertionSort (· ≤ ·) (ps.map GrantPurpose.text)).symm.trans
      (htexts ▸ List.perm_insertionSort (· ≤ ·) (qs.map GrantPurpose.text))
    exact (List.map_perm_map_iff text_injective).mp hperm
  · intro h
    have hsame : (ps.map GrantPurpose.text).insertionSort (· ≤ ·) =
        (qs.map GrantPurpose.text).insertionSort (· ≤ ·) := by
      refine List.Perm.eq_of_pairwise (fun a b _ _ => String.le_antisymm)
        (List.pairwise_insertionSort _ _) (List.pairwise_insertionSort _ _) ?_
      exact (List.perm_insertionSort _ _).trans
        ((h.map _).trans (List.perm_insertionSort _ _).symm)
    rw [joined, joined, hsame]

/-! ### Fields read back -/

lemma count_eq_iff {m n : ℕ} {hm : m ≤ 256} {hn : n ≤ 256} : count m hm = count n hn ↔ m = n :=
  Subtype.ext_iff

lemma text_role_eq_iff {a b : KeyAgreementRole} : a.text = b.text ↔ a = b := by
  cases a <;> cases b <;> decide

lemma text_operator_eq_iff {a b : DirectoryRelayOperator} : a.text = b.text ↔ a = b := by
  cases a <;> cases b <;> decide

lemma text_purpose_eq_iff {a b : RelayRegistryProofPurpose} : a.text = b.text ↔ a = b := by
  cases a <;> cases b <;> decide

/-- The endpoints are the same once their lone surrogates are replaced. -/
def TextEq (e f : JsString) : Prop := toWellFormed e = toWellFormed f

lemma delimits_capabilities {r s : ParsedRelay}
    (hlength : r.capabilities.length = s.capabilities.length) (u v : Bytes) :
    r.capabilities.flatMap str ++ u = s.capabilities.flatMap str ++ v ↔
      r.capabilities = s.capabilities ∧ u = v := by
  rw [delimits_str.list (fun cap hcap => short_capability (r.capabilities_valid cap hcap))
    (fun cap hcap => short_capability (s.capabilities_valid cap hcap)) hlength,
    List.forall₂_eq_eq_eq]

lemma delimits_relay : Delimits Set.univ (AgreeRelay TextEq) relayBody := by
  intro a _ b _ r s
  simp only [relayBody, List.append_assoc, AgreeRelay, TextEq, and_assoc]
  rw [str_append (short_endpoint a.endpoint.property) (short_endpoint b.endpoint.property),
    fixed_append, str_append (short_operator _) (short_operator _), text_operator_eq_iff,
    u64_append, count_eq_iff]
  refine and_congr_right fun _ => and_congr_right fun _ => and_congr_right fun _ => ?_
  constructor
  · rintro ⟨hlength, hrest⟩
    obtain ⟨hcaps, hregion⟩ := (delimits_capabilities hlength _ _).mp hrest
    exact ⟨hcaps, (str_append (short_region a.region_valid) (short_region b.region_valid)).mp
      hregion⟩
  · rintro ⟨hcaps, hregion⟩
    have hlength := congrArg List.length hcaps
    exact ⟨hlength, (delimits_capabilities hlength _ _).mpr ⟨hcaps, (str_append
      (short_region a.region_valid) (short_region b.region_valid)).mpr hregion⟩⟩

lemma scope_getD_eq_iff (g h : ParsedGrant) :
    g.scope.getD "" = h.scope.getD "" ↔ g.scope = h.scope := by
  have hne : ∀ k : ParsedGrant, k.scope ≠ some "" := by
    intro k hk
    have hvalid := k.scope_valid "" hk
    exact absurd hvalid (by decide)
  cases hg : g.scope with
  | none =>
    cases hh : h.scope with
    | none => simp
    | some t =>
      have ht : t ≠ "" := fun e => hne h (e ▸ hh)
      simp [ht.symm]
  | some s =>
    have hs : s ≠ "" := fun e => hne g (e ▸ hg)
    cases hh : h.scope with
    | none => simp [hs]
    | some t => simp

lemma short_scope (g : ParsedGrant) : g.scope.getD "" ∈ Short := by
  cases hg : g.scope with
  | none => exact short_of_length (by decide)
  | some s => exact short_of_isValidScope (g.scope_valid s hg)

lemma delimits_directory {d e : ParsedDirectory} (u v : Bytes) :
    body (.relayDirectory d) ++ u = body (.relayDirectory e) ++ v ↔
      SameText (.relayDirectory d) (.relayDirectory e) ∧ u = v := by
  simp only [body, List.append_assoc, SameText, Agree, and_assoc]
  have hcount : count d.relays.length d.relays_bounded = count e.relays.length e.relays_bounded ↔
      d.relays.length = e.relays.length := count_eq_iff
  rw [u64_append, u64_append, u64_append, u64_append, u64_append, hcount]
  simp only [true_and]
  refine and_congr_right fun _ => and_congr_right fun _ => and_congr_right fun _ => ?_
  constructor
  · rintro ⟨hlength, hrest⟩
    exact (delimits_relay.list (fun _ _ => trivial) (fun _ _ => trivial) hlength u v).mp hrest
  · rintro ⟨hrelays, hrest⟩
    have hlength := hrelays.length_eq
    exact ⟨hlength, (delimits_relay.list (fun _ _ => trivial) (fun _ _ => trivial) hlength u v).mpr
      ⟨hrelays, hrest⟩⟩

/-- **Within a kind, the fields can be read back**, up to lone surrogates in endpoints. -/
theorem body_append_iff {s t : Statement} (hs : Checked s) (ht : Checked t)
    (hkind : context s = context t) (u v : Bytes) :
    body s ++ u = body t ++ v ↔ SameText s t ∧ u = v := by
  cases s with
  | grant g =>
    cases t with
    | grant h =>
      simp only [body, List.append_assoc, SameText, Agree, and_assoc]
      rw [fixed_append, fixed_append, str_append (short_joined g) (short_joined h),
        joined_eq_iff g.purposes_ne_nil h.purposes_ne_nil, u64_append, u64_append, u64_append,
        str_append (short_scope g) (short_scope h), scope_getD_eq_iff]
    | _ => exact absurd hkind (by simp only [context]; decide)
  | keyAgreement c =>
    cases t with
    | keyAgreement d =>
      simp only [body, List.append_assoc]
      rw [fixed_append, fixed_append, str_append (short_role _) (short_role _), text_role_eq_iff,
        str_append (short_of_isValidScope c.scope_valid) (short_of_isValidScope d.scope_valid),
        u64_append, u64_append, u64_append]
      obtain ⟨_, _, _, _, _, _, _⟩ := c
      obtain ⟨_, _, _, _, _, _, _⟩ := d
      simp only [SameText, Agree, ParsedCertificate.mk.injEq, and_assoc]
    | _ => exact absurd hkind (by simp only [context]; decide)
  | rotation r =>
    cases t with
    | rotation q =>
      simp only [body, List.append_assoc]
      rw [str_append (short_of_isValidScope r.name_valid) (short_of_isValidScope q.name_valid),
        fixed_append, fixed_append, u64_append]
      obtain ⟨_, _, _, _⟩ := r
      obtain ⟨_, _, _, _⟩ := q
      simp only [SameText, Agree, ParsedRotation.mk.injEq, and_assoc]
    | _ => exact absurd hkind (by simp only [context]; decide)
  | serviceAuth s =>
    cases t with
    | serviceAuth t =>
      simp only [body, List.append_assoc, SameText, Agree, and_assoc]
      rw [str_append (short_of_isValidScope hs.1) (short_of_isValidScope ht.1),
        str_append (short_toWellFormed hs.2) (short_toWellFormed ht.2), fixed_append, fixed_append]
    | _ => exact absurd hkind (by simp only [context]; decide)
  | relayIdentity s =>
    cases t with
    | relayIdentity t =>
      simp only [body, List.append_assoc, SameText, Agree, and_assoc]
      rw [str_append (short_endpoint hs) (short_endpoint ht), fixed_append, fixed_append]
    | _ => exact absurd hkind (by simp only [context]; decide)
  | registryProof s =>
    cases t with
    | registryProof t =>
      simp only [body, List.append_assoc, SameText, Agree, and_assoc]
      rw [str_append (short_purpose _) (short_purpose _), text_purpose_eq_iff,
        str_append (short_endpoint hs) (short_endpoint ht), fixed_append, u64_append]
    | _ => exact absurd hkind (by simp only [context]; decide)
  | relayBinding s =>
    cases t with
    | relayBinding t =>
      simp only [body, List.append_assoc, SameText, Agree, and_assoc]
      rw [str_append (short_of_isValidScope hs.1) (short_of_isValidScope ht.1),
        str_append (short_endpoint hs.2) (short_endpoint ht.2), fixed_append, u64_append]
    | _ => exact absurd hkind (by simp only [context]; decide)
  | relayDirectory d =>
    cases t with
    | relayDirectory e => exact delimits_directory u v
    | _ => exact absurd hkind (by simp only [context]; decide)

lemma context_eq_of_agree {eq : JsString → JsString → Prop} {s t : Statement}
    (h : Agree eq s t) : context s = context t := by
  cases s <;> cases t <;> first | rfl | exact h.elim

/-- **The bytes tell the statement**, up to lone surrogates in endpoints: the kind by its context,
then the fields in their order. -/
theorem signingBytes_eq_iff {s t : Statement} {bs bt : Bytes} (hs : signingBytes s = .ok bs)
    (ht : signingBytes t = .ok bt) : bs = bt ↔ SameText s t := by
  obtain ⟨rfl, hcheckedS⟩ := signingBytes_eq_ok hs
  obtain ⟨rfl, hcheckedT⟩ := signingBytes_eq_ok ht
  rw [str_append (short_context s) (short_context t)]
  constructor
  · rintro ⟨hkind, hbody⟩
    exact ((body_append_iff hcheckedS hcheckedT hkind [] []).mp (congrArg (· ++ []) hbody)).1
  · intro h
    have hkind := context_eq_of_agree h
    have hbody := (body_append_iff hcheckedS hcheckedT hkind [] []).mpr ⟨h, rfl⟩
    rw [List.append_nil, List.append_nil] at hbody
    exact ⟨hkind, hbody⟩

/-! ### What a signature is over -/

/-- The two statements are not the same, but differ only in lone surrogates of their endpoints. -/
def DifferInSurrogates (s t : Statement) : Prop := SameText s t ∧ ¬ Same s t

/-- **A signature is over one statement, except for lone surrogates.** Equal bytes mean equal
statements exactly where the two do not differ in lone surrogates alone. -/
theorem signed_statement {s t : Statement} {bs bt : Bytes} (hs : signingBytes s = .ok bs)
    (ht : signingBytes t = .ok bt) : (bs = bt → Same s t) ↔ ¬ DifferInSurrogates s t := by
  rw [signingBytes_eq_iff hs ht, DifferInSurrogates, not_and_not_right]

/-- The identity a relay states for an endpoint. -/
def identityAt (endpoint : JsString) : Statement :=
  .relayIdentity ⟨endpoint, ⟨List.replicate 32 0, length_zeros⟩,
    ⟨List.replicate 32 1, length_ones⟩⟩

/-- An endpoint that ends in half of a pair. -/
def brokenEndpoint : JsString := units "wss://relay" ++ [0xD800]

/-- The endpoint it is written as. -/
def writtenEndpoint : JsString := units "wss://relay" ++ [0xFFFD]

/-- Two endpoints that differ in more. -/
theorem signed_statement_endpoints :
    ∃ bs bt, signingBytes (identityAt writtenEndpoint) = .ok bs ∧
      signingBytes (identityAt (units "wss://relay")) = .ok bt ∧
      ((bs = bt → Same (identityAt writtenEndpoint) (identityAt (units "wss://relay"))) ↔
        ¬ DifferInSurrogates (identityAt writtenEndpoint) (identityAt (units "wss://relay"))) :=
  ⟨_, _, rfl, rfl, signed_statement rfl rfl⟩

/-- **Two identities have one signature**: half of a pair and the character it is written as. -/
theorem identity_signed_twice :
    ¬ ∀ (s t : Statement) (bs bt : Bytes), signingBytes s = .ok bs → signingBytes t = .ok bt →
      bs = bt → Same s t := by
  intro h
  obtain ⟨bytes, hwritten⟩ : ∃ bytes, signingBytes (identityAt writtenEndpoint) = .ok bytes :=
    ⟨_, rfl⟩
  have hbroken : signingBytes (identityAt brokenEndpoint) =
      signingBytes (identityAt writtenEndpoint) := by
    decide +kernel
  have hsame := h _ _ bytes bytes (hbroken.trans hwritten) hwritten rfl
  exact absurd hsame.1 (by decide)

end Tnp.Crypto.Signing
