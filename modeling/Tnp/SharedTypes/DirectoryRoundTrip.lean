import Tnp.Crypto.DirectoryDocument
import Tnp.SharedTypes.Relays

/-!
A signed directory is read back as it was signed, and what is accepted is accepted again.

The endpoint policy stands on top of the signature: a directory can be signed whose endpoints no
client may dial, and such a one is refused whole.
-/

namespace Tnp.Crypto.RelayDirectory

open Tnp.Lib Tnp.Crypto.Grants Tnp.Crypto.Signing

/-! ### What is parsed is written back -/

lemma parsePublicKey_encodeBase64 (key : PublicKey) :
    parsePublicKey (.text (encodeBase64 key.val)) = .ok key := by
  have hdecode := decodeBase64Strict_encodeBase64 key.property
  simp only [parsePublicKey]
  split
  · next bytes hbytes =>
    rw [hdecode] at hbytes
    exact congrArg _ (Subtype.ext (Except.ok.inj hbytes).symm)
  · next e herror => simp [hdecode] at herror

lemma parseEndpoint_toWellFormed {v : Value} {endpoint : Endpoint}
    (h : parseEndpoint v = .ok endpoint) :
    parseEndpoint (.string (toWellFormed endpoint.val)) = .ok endpoint := by
  cases v with
  | string s =>
    have hunits := (parseEndpoint_eq_ok h).2
    rw [hunits, toWellFormed_units]
    exact h
  | _ => simp [parseEndpoint] at h

lemma strings_eq_some {caps : List Value} {tokens : List String}
    (h : strings caps = some tokens) : caps = tokens.map .string := by
  induction caps generalizing tokens with
  | nil => simp [strings] at h; simp [← h]
  | cons v caps ih =>
    cases v with
    | string s =>
      obtain ⟨rest, hrest, rfl⟩ := Option.map_eq_some_iff.mp h
      rw [ih hrest, List.map_cons]
    | _ => simp [strings] at h

lemma parseCapabilities_map {v : Value} {parsed : Capabilities}
    (h : parseCapabilities v = .ok parsed) :
    parseCapabilities (.array (parsed.val.map .string)) = .ok parsed := by
  cases v with
  | array caps =>
    have hcaps : caps = parsed.val.map .string := by
      simp only [parseCapabilities, check_eq_ok] at h
      obtain ⟨-, h⟩ := h
      split at h
      · simp at h
      next tokens htokens =>
      split at h
      swap
      · simp at h
      split at h
      · rw [← Except.ok.inj h]
        exact strings_eq_some htokens
      · simp at h
    rwa [← hcaps]
  | _ => simp [parseCapabilities] at h

lemma parseRegion_val {v : Value} {region : {s : String // isRegion s = true}}
    (_ : parseRegion v = .ok region) : parseRegion (.string region.val) = .ok region :=
  dif_pos region.property

lemma parseRelay_toWire {v : Value} {p : ParsedRelay} (h : parseRelay v = .ok p) :
    parseRelay p.toWire.value = .ok p := by
  cases v with
  | object fields =>
    simp only [parseRelay] at h
    split at h
    · obtain ⟨_, hrefused, -⟩ := bind_eq_ok.mp h
      simp at hrefused
    obtain ⟨endpoint, hendpoint, h⟩ := bind_eq_ok.mp h
    obtain ⟨key, -, h⟩ := bind_eq_ok.mp h
    obtain ⟨operator, -, h⟩ := bind_eq_ok.mp h
    obtain ⟨capabilities, hcapabilities, h⟩ := bind_eq_ok.mp h
    obtain ⟨region, hregion, h⟩ := bind_eq_ok.mp h
    obtain rfl := Except.ok.inj h
    rw [parseRelay_value]
    refine bind_eq_ok.mpr ⟨endpoint, parseEndpoint_toWellFormed hendpoint, ?_⟩
    refine bind_eq_ok.mpr ⟨key, parsePublicKey_encodeBase64 key, ?_⟩
    refine bind_eq_ok.mpr ⟨capabilities, parseCapabilities_map hcapabilities, ?_⟩
    exact bind_eq_ok.mpr ⟨region, parseRegion_val hregion, rfl⟩
  | _ => simp [parseRelay] at h

lemma exists_of_forall₂ {α β : Type} {R : α → β → Prop} {l : List α} {l' : List β}
    (h : List.Forall₂ R l l') : ∀ b ∈ l', ∃ a, R a b := by
  induction h with
  | nil => simp
  | cons hab _ ih => exact List.forall_mem_cons.mpr ⟨⟨_, hab⟩, ih⟩

/-- What a document that is parsed is made of. -/
lemma parseDirectory_parts {v : Value} {allowSignature : Bool} {p : ParsedDirectory}
    (h : parseDirectory v allowSignature = .ok p) :
    ∀ r ∈ p.relays, parseRelay r.toWire.value = .ok r := by
  cases v with
  | object fields =>
    simp only [parseDirectory] at h
    split at h
    · obtain ⟨_, hrefused, -⟩ := bind_eq_ok.mp h
      simp at hrefused
    split at h
    swap
    · obtain ⟨_, hrefused, -⟩ := bind_eq_ok.mp h
      simp at hrefused
    split at h
    · obtain ⟨_, hrefused, -⟩ := bind_eq_ok.mp h
      simp at hrefused
    obtain ⟨serial, -, h⟩ := bind_eq_ok.mp h
    obtain ⟨issuedAt, -, h⟩ := bind_eq_ok.mp h
    obtain ⟨expiresAt, -, h⟩ := bind_eq_ok.mp h
    obtain ⟨hpos, h⟩ := dcheck_eq_ok.mp h
    obtain ⟨hdate, h⟩ := dcheck_eq_ok.mp h
    obtain ⟨hwindow, h⟩ := dcheck_eq_ok.mp h
    obtain ⟨hlifetime, h⟩ := dcheck_eq_ok.mp h
    split at h
    swap
    · simp at h
    obtain ⟨-, h⟩ := check_eq_ok.mp h
    obtain ⟨relays, hrelays, h⟩ := bind_eq_ok.mp h
    split at h
    swap
    · simp at h
    obtain rfl := Except.ok.inj h
    intro r hr
    obtain ⟨item, hitem⟩ := exists_of_forall₂ (mapM_eq_ok_iff.mp hrelays) r hr
    exact parseRelay_toWire hitem
  | _ => simp [parseDirectory] at h

/-- A document that is parsed is written back, and parsed as it was. -/
lemma parseDirectory_toWire {v : Value} {allowSignature : Bool} {p : ParsedDirectory}
    (h : parseDirectory v allowSignature = .ok p) :
    parseDirectory (toWire p).value false = .ok p := by
  have hparts := parseDirectory_parts h
  have hrelays : ((toWire p).relays.map DirectoryRelay.value).mapM parseRelay = .ok p.relays := by
    rw [mapM_eq_ok_iff, List.forall₂_map_left_iff]
    simp only [toWire, List.forall₂_map_left_iff]
    exact List.forall₂_same.mpr hparts
  have hserial := p.serial_pos
  have hdate := p.serial_le
  have hwindow := p.window
  have hlifetime := p.lifetime
  have hlength : ((toWire p).relays.map DirectoryRelay.value).length = p.relays.length := by
    simp [toWire]
  have hbounded := p.relays_bounded
  rw [parseDirectory_value]
  refine bind_eq_ok.mpr ⟨p.serial, assertUint_number.mpr rfl, ?_⟩
  refine bind_eq_ok.mpr ⟨p.issuedAt, assertUint_number.mpr rfl, ?_⟩
  refine bind_eq_ok.mpr ⟨p.expiresAt, assertUint_number.mpr rfl, ?_⟩
  refine dcheck_eq_ok.mpr ⟨by omega, dcheck_eq_ok.mpr ⟨by omega, dcheck_eq_ok.mpr ⟨by omega, ?_⟩⟩⟩
  refine dcheck_eq_ok.mpr ⟨by omega, check_eq_ok.mpr ⟨by omega, ?_⟩⟩
  exact bind_eq_ok.mpr ⟨p.relays, hrelays, dif_pos ⟨hbounded, p.endpoints_nodup⟩⟩

/-! ### Verifying again -/

/-- What a verifier returns for a parsed document. -/
def verified (p : ParsedDirectory) (signedBy signature : Bytes) : VerifiedRelayDirectory where
  serial := p.serial
  issuedAt := p.issuedAt
  expiresAt := p.expiresAt
  relays := p.relays.map fun r => { r.toWire with key := r.key }
  signedBy := signedBy
  document := { toWire p with signature := encodeBase64 signature }

/-- The pinned key under which a signature verifies, if there is one. -/
def signer (verify : Verifier) (trustedKeys : List Bytes) (bytes signature : Bytes) :
    Option Bytes :=
  trustedKeys.find? fun key => key.length == PUBLIC_KEY_LENGTH && verify bytes signature key

/-- The clock and the serial let a document be used. -/
structure Timely (options : VerifyDirectoryOptions) (p : ParsedDirectory) : Prop where
  begun : (p.issuedAt.val : ℤ) ≤ options.now + MAX_DIRECTORY_CLOCK_SKEW_SECONDS
  running : options.now < p.expiresAt.val
  recent : ∀ m, options.minSerial = some m → m ≤ p.serial.val

lemma verifyRelayDirectory_eq_ok_iff {verify : Verifier} {value : Value}
    {options : VerifyDirectoryOptions} {directory : VerifiedRelayDirectory} :
    verifyRelayDirectory verify value options = .ok directory ↔
      ∃ p signature bytes signedBy, parseSigned value = .ok (p, signature) ∧
        encodeDirectory p = .ok bytes ∧
        signer verify options.trustedKeys bytes signature = some signedBy ∧
        Timely options p ∧ verified p signedBy signature = directory := by
  unfold verifyRelayDirectory signer
  cases hparse : parseSigned value with
  | error e => simp
  | ok parsed =>
    obtain ⟨p, signature⟩ := parsed
    cases hencode : encodeDirectory p with
    | error e => simp [hencode]
    | ok bytes =>
      cases hsigner : options.trustedKeys.find? fun key =>
          key.length == PUBLIC_KEY_LENGTH && verify bytes signature key with
      | none => simp [hencode, hsigner]
      | some signedBy =>
        simp only [hencode, hsigner, check_eq_ok, Except.ok.injEq]
        constructor
        · rintro ⟨hbegun, hrunning, hrecent, rfl⟩
          refine ⟨p, signature, bytes, signedBy, rfl, hencode, hsigner,
            ⟨not_lt.mp hbegun, not_le.mp hrunning, fun m hm => ?_⟩, rfl⟩
          simpa [hm] using hrecent
        · rintro ⟨_, _, _, _, hpair, hencode', hsigner', ⟨hbegun, hrunning, hrecent⟩, rfl⟩
          obtain ⟨rfl, rfl⟩ := Prod.mk.inj hpair
          rw [hencode] at hencode'
          obtain rfl := Except.ok.inj hencode'
          rw [hsigner] at hsigner'
          obtain rfl := Option.some.inj hsigner'
          refine ⟨not_lt.mpr hbegun, not_le.mpr hrunning, ?_, rfl⟩
          cases hm : options.minSerial with
          | none => simp
          | some m => simpa using hrecent m hm

/-- The document that comes with what is verified is parsed as the one that was verified. -/
lemma parseSigned_document {value : Value} {p : ParsedDirectory} {signature : Bytes}
    (h : parseSigned value = .ok (p, signature)) (signedBy : Bytes) :
    parseSigned (verified p signedBy signature).document.value = .ok (p, signature) := by
  obtain ⟨parsed, hparsed, h⟩ := bind_eq_ok.mp h
  obtain ⟨decoded, hdecoded, h⟩ := bind_eq_ok.mp h
  obtain ⟨rfl, rfl⟩ := Prod.mk.inj (Except.ok.inj h)
  refine bind_eq_ok.mpr ⟨parsed, ?_, bind_eq_ok.mpr ⟨decoded, ?_, rfl⟩⟩
  · rw [parseDirectory_signed]
    exact parseDirectory_toWire hparsed
  · exact decodeBase64Strict_encodeBase64 (decodeBase64Strict_length hdecoded)

/-- **What was accepted is accepted again** while the clock and the marks let it be. -/
theorem verifyRelayDirectory_again {verify : Verifier} {value : Value}
    {options options' : VerifyDirectoryOptions} {directory : VerifiedRelayDirectory}
    (h : verifyRelayDirectory verify value options = .ok directory)
    (hkeys : options'.trustedKeys = options.trustedKeys)
    (hbegun : (directory.issuedAt.val : ℤ) ≤ options'.now + MAX_DIRECTORY_CLOCK_SKEW_SECONDS)
    (hrunning : options'.now < directory.expiresAt.val)
    (hrecent : ∀ m, options'.minSerial = some m → m ≤ directory.serial.val) :
    verifyRelayDirectory verify directory.document.value options' = .ok directory := by
  obtain ⟨p, signature, bytes, signedBy, hparsed, hbytes, hsigner, -, rfl⟩ :=
    verifyRelayDirectory_eq_ok_iff.mp h
  refine verifyRelayDirectory_eq_ok_iff.mpr ⟨p, signature, bytes, signedBy,
    parseSigned_document hparsed signedBy, hbytes, ?_, ⟨hbegun, hrunning, hrecent⟩, rfl⟩
  rw [hkeys]
  exact hsigner

/-! ### Reading what was signed -/

/-- What a verifier returns says what was signed. -/
structure Says (directory : VerifiedRelayDirectory) (d : UnsignedRelayDirectory) : Prop where
  serial : (directory.serial.val : ℤ) = d.serial
  issuedAt : (directory.issuedAt.val : ℤ) = d.issuedAt
  expiresAt : (directory.expiresAt.val : ℤ) = d.expiresAt
  relays : directory.relays.map (·.toDirectoryRelay) = d.relays

lemma Says.all_endpoints {directory : VerifiedRelayDirectory} {d : UnsignedRelayDirectory}
    (h : Says directory d) (allowed : String → Bool) :
    (directory.relays.all fun relay => allowed relay.endpoint) =
      d.relays.all fun relay => allowed relay.endpoint := by
  rw [← h.relays, List.all_map]
  rfl

lemma says_verified (p : ParsedDirectory) (signedBy signature : Bytes) :
    Says (verified p signedBy signature) (toWire p) where
  serial := rfl
  issuedAt := rfl
  expiresAt := rfl
  relays := by simp [verified, toWire, Function.comp_def]

/-- With the key that signed it pinned, a directory is accepted inside its window. -/
theorem verifyRelayDirectory_of_sign {sign : Bytes → Bytes → Bytes} {verify : Verifier}
    {secretKey key : Bytes} (hlength : ∀ bytes, (sign bytes secretKey).length = SIGNATURE_LENGTH)
    (hkeyLength : key.length = PUBLIC_KEY_LENGTH)
    (hverify : ∀ bytes, verify bytes (sign bytes secretKey) key = true)
    {d : UnsignedRelayDirectory} {document : SignedRelayDirectory}
    (hsigned : signRelayDirectory sign d secretKey = .ok document)
    {options : VerifyDirectoryOptions} (hkey : key ∈ options.trustedKeys)
    (hbegun : d.issuedAt ≤ options.now) (hrunning : options.now < d.expiresAt)
    (hrecent : ∀ m : ℕ, options.minSerial = some m → (m : ℤ) ≤ d.serial) :
    ∃ directory, verifyRelayDirectory verify document.value options = .ok directory ∧
      Says directory d := by
  obtain ⟨p, hp, hsigned⟩ := bind_eq_ok.mp hsigned
  obtain ⟨-, hsigned⟩ := check_eq_ok.mp hsigned
  obtain ⟨bytes, hbytes, hsigned⟩ := bind_eq_ok.mp hsigned
  obtain rfl := Except.ok.inj hsigned
  obtain ⟨rfl, -⟩ := parseDirectory_sound hp
  have hparsed : parseSigned ({ toWire p with
      signature := encodeBase64 (sign bytes secretKey) } : SignedRelayDirectory).value =
      .ok (p, sign bytes secretKey) :=
    bind_eq_ok.mpr ⟨p, hp, bind_eq_ok.mpr ⟨sign bytes secretKey,
      decodeBase64Strict_encodeBase64 (hlength bytes), rfl⟩⟩
  obtain ⟨signedBy, hsignedBy⟩ : ∃ signedBy,
      signer verify options.trustedKeys bytes (sign bytes secretKey) = some signedBy := by
    refine Option.isSome_iff_exists.mp (List.find?_isSome.mpr ⟨key, hkey, ?_⟩)
    simp [hkeyLength, hverify]
  have htimely : Timely options p := by
    refine ⟨?_, hrunning, fun m hm => ?_⟩
    swap
    · have hserial : (m : ℤ) ≤ p.serial.val := hrecent m hm
      exact_mod_cast hserial
    have hskew : (0 : ℤ) ≤ MAX_DIRECTORY_CLOCK_SKEW_SECONDS := by decide
    have hissuedAt : (p.issuedAt.val : ℤ) ≤ options.now := hbegun
    omega
  exact ⟨_, verifyRelayDirectory_eq_ok_iff.mpr
    ⟨p, _, bytes, signedBy, hparsed, hbytes, hsignedBy, htimely, rfl⟩, says_verified p _ _⟩

end Tnp.Crypto.RelayDirectory

namespace Tnp.SharedTypes

open Tnp.Lib Tnp.Crypto Tnp.Crypto.Grants Tnp.Crypto.RelayDirectory

/-- The endpoint policy stands on top of what a signature says. -/
lemma verifySigned_of_verify {verify : Verifier} {parseUrl : UrlParser} {body : Value}
    {options : VerifySignedRelayDirectoryOptions} {directory : VerifiedRelayDirectory}
    (h : verifyRelayDirectory verify body options.toVerifyDirectoryOptions = .ok directory) :
    verifySignedRelayDirectory verify parseUrl body options =
      if directory.relays.all fun relay =>
          endpointAllowed parseUrl options.allowNonPublicEndpoints relay.endpoint
      then .ok directory else .error .badEndpoint := by
  simp only [verifySignedRelayDirectory, h]

/-- **A signed directory is read back**: with the key that signed it pinned, it verifies inside its
window as what was signed, and a client takes it where every endpoint meets the policy; and what a
client took it takes again, from the document that came with it. -/
theorem directory_round_trip {sign : Bytes → Bytes → Bytes} {verify : Verifier}
    (parseUrl : UrlParser) {secretKey key : Bytes}
    (hlength : ∀ bytes, (sign bytes secretKey).length = SIGNATURE_LENGTH)
    (hkeyLength : key.length = PUBLIC_KEY_LENGTH)
    (hverify : ∀ bytes, verify bytes (sign bytes secretKey) key = true) :
    (∀ d document, signRelayDirectory sign d secretKey = .ok document →
      ∀ options : VerifySignedRelayDirectoryOptions, key ∈ options.trustedKeys →
        d.issuedAt ≤ options.now → options.now < d.expiresAt →
        (∀ m : ℕ, options.minSerial = some m → (m : ℤ) ≤ d.serial) →
        ∃ directory, Says directory d ∧
          verifyRelayDirectory verify document.value options.toVerifyDirectoryOptions =
            .ok directory ∧
          verifySignedRelayDirectory verify parseUrl document.value options =
            if d.relays.all fun relay =>
                endpointAllowed parseUrl options.allowNonPublicEndpoints relay.endpoint
            then .ok directory else .error .badEndpoint) ∧
    ∀ body options directory,
      verifySignedRelayDirectory verify parseUrl body options = .ok directory →
      ∀ options' : VerifySignedRelayDirectoryOptions, options'.trustedKeys = options.trustedKeys →
        options'.allowNonPublicEndpoints = options.allowNonPublicEndpoints →
        (directory.issuedAt.val : ℤ) ≤ options'.now + MAX_DIRECTORY_CLOCK_SKEW_SECONDS →
        options'.now < directory.expiresAt.val →
        (∀ m, options'.minSerial = some m → m ≤ directory.serial.val) →
        verifySignedRelayDirectory verify parseUrl directory.document.value options' =
          .ok directory := by
  constructor
  · intro d document hsigned options hkey hbegun hrunning hrecent
    obtain ⟨directory, hverified, hstated⟩ :=
      verifyRelayDirectory_of_sign hlength hkeyLength hverify
        hsigned hkey hbegun hrunning hrecent
    refine ⟨directory, hstated, hverified, ?_⟩
    rw [verifySigned_of_verify hverified]
    exact if_congr (by rw [hstated.all_endpoints]) rfl rfl
  · intro body options directory haccepted options' hkeys hallow hbegun hrunning hrecent
    unfold verifySignedRelayDirectory at haccepted
    split at haccepted
    · simp at haccepted
    next accepted hverified =>
    split at haccepted
    · next hallowed =>
      obtain rfl := Except.ok.inj haccepted
      rw [verifySigned_of_verify
        (verifyRelayDirectory_again hverified hkeys hbegun hrunning hrecent), hallow, hallowed]
      rfl
    · simp at haccepted

/-! ### An endpoint that no client may dial -/

def plainSign : Bytes → Bytes → Bytes := fun _ _ => List.replicate 64 0

def plainVerify : Verifier := fun _ signature key =>
  signature == List.replicate 64 0 && key == List.replicate 32 1

def plainUrl : UrlParser := fun raw =>
  if raw = "wss://relay.example.org" then
    some { protocol := "wss:", host := "relay.example.org", hostname := "relay.example.org" }
  else if raw = "ws://10.0.0.1" then
    some { protocol := "ws:", host := "10.0.0.1", hostname := "10.0.0.1" }
  else none

/-- A directory of one relay. -/
def plainDirectory (endpoint : String) : UnsignedRelayDirectory where
  serial := 1
  issuedAt := 1000
  expiresAt := 2000
  relays := [⟨endpoint, encodeBase64 (List.replicate 32 9), .community, ["tunnel"], ""⟩]

def plainDocument (endpoint : String) : SignedRelayDirectory :=
  { plainDirectory endpoint with signature := encodeBase64 (List.replicate 64 0) }

def plainOptions : VerifySignedRelayDirectoryOptions where
  trustedKeys := [List.replicate 32 1]
  now := 1500

lemma plain_verifies (bytes : Bytes) :
    plainVerify bytes (plainSign bytes (List.replicate 64 2)) (List.replicate 32 1) = true := by
  simp [plainVerify, plainSign]

lemma plain_signed (endpoint : String)
    (h : (signRelayDirectory plainSign (plainDirectory endpoint) (List.replicate 64 2)).isOk =
      true) :
    signRelayDirectory plainSign (plainDirectory endpoint) (List.replicate 64 2) =
      .ok (plainDocument endpoint) := by
  cases hsigned : signRelayDirectory plainSign (plainDirectory endpoint) (List.replicate 64 2) with
  | error e =>
    rw [hsigned] at h
    simp [Except.isOk, Except.toBool] at h
  | ok document =>
    obtain ⟨-, bytes, -, -, rfl⟩ := (signRelayDirectory_eq_ok_iff rfl).mp hsigned
    rfl

theorem directory_round_trip_plain :
    ∃ directory, Says directory (plainDirectory "wss://relay.example.org") ∧
      verifySignedRelayDirectory plainVerify plainUrl
        (plainDocument "wss://relay.example.org").value plainOptions = .ok directory := by
  obtain ⟨directory, hstated, -, hclient⟩ := (directory_round_trip plainUrl
    (fun _ => List.length_replicate) List.length_replicate plain_verifies).1 _ _
    (plain_signed "wss://relay.example.org" (by decide +kernel)) plainOptions List.mem_cons_self
    (by decide) (by decide) (by simp [plainOptions])
  exact ⟨directory, hstated, hclient.trans (if_pos (by decide))⟩

/-- **A directory that is signed without error is refused by a client**: its relay is at a private
address over plain `ws:`. -/
theorem plain_ws_refused :
    signRelayDirectory plainSign (plainDirectory "ws://10.0.0.1") (List.replicate 64 2) =
        .ok (plainDocument "ws://10.0.0.1") ∧
      verifySignedRelayDirectory plainVerify plainUrl (plainDocument "ws://10.0.0.1").value
        plainOptions = .error .badEndpoint := by
  have hsigned := plain_signed "ws://10.0.0.1" (by decide +kernel)
  obtain ⟨directory, hverified, hstated⟩ : ∃ directory,
      verifyRelayDirectory plainVerify (plainDocument "ws://10.0.0.1").value
        plainOptions.toVerifyDirectoryOptions = .ok directory ∧
      Says directory (plainDirectory "ws://10.0.0.1") :=
    verifyRelayDirectory_of_sign (fun _ => List.length_replicate) List.length_replicate
      plain_verifies hsigned List.mem_cons_self (by decide) (by decide) (by simp [plainOptions])
  refine ⟨hsigned, ?_⟩
  rw [verifySigned_of_verify hverified, hstated.all_endpoints]
  exact if_neg (by decide)

end Tnp.SharedTypes
