import Mathlib.Algebra.Order.Ring.Unbundled.Rat
import Tnp.Crypto.DirectorySignature
import Tnp.Crypto.Signing

/-!
Which directories can be signed, and how a signed one reads back.

What is parsed from a document says what the document says, so a signed document parses to what
was signed. Its size is that of its fields.
-/

namespace Tnp.Crypto.RelayDirectory

open Tnp.Lib Tnp.Crypto.Signing
open Tnp.Crypto.Grants (Verifier)

/-! ### Relays -/

lemma parseEndpoint_eq_ok {s : String} {endpoint : Endpoint}
    (h : parseEndpoint (.string s) = .ok endpoint) :
    isEndpoint (units s) = true ∧ endpoint.val = units s :=
  checkEndpoint_eq_ok h

lemma strings_map (caps : List String) : strings (caps.map .string) = some caps := by
  induction caps with
  | nil => rfl
  | cons cap caps ih => simp [strings, ih]

lemma parseCapabilities_eq_ok {caps : List String} {parsed : Capabilities}
    (h : parseCapabilities (.array (caps.map .string)) = .ok parsed) : parsed.val = caps := by
  simp only [parseCapabilities, strings_map, check_eq_ok] at h
  obtain ⟨-, h⟩ := h
  split at h
  · split at h
    · exact congrArg Subtype.val (Except.ok.inj h).symm
    · simp at h
  · simp at h

lemma parseRegion_eq_ok {s : String} {region : {s : String // isRegion s = true}}
    (h : parseRegion (.string s) = .ok region) : region.val = s := by
  simp only [parseRegion] at h
  split at h
  · exact congrArg Subtype.val (Except.ok.inj h).symm
  · simp at h

@[simp] lemma parseOperator_text (operator : DirectoryRelayOperator) :
    parseOperator (.string operator.text) = .ok operator := by
  cases operator <;> decide

lemma parseRelay_value (r : DirectoryRelay) :
    parseRelay r.value = (do
      let endpoint ← parseEndpoint (.string r.endpoint)
      let key ← parsePublicKey (.text r.relayKey)
      let capabilities ← parseCapabilities (.array (r.capabilities.map .string))
      let region ← parseRegion (.string r.region)
      .ok ⟨endpoint, key, r.operator, capabilities.val, region.val, capabilities.property.1,
        capabilities.property.2, region.property⟩) := by
  simp [parseRelay, DirectoryRelay.value, Value.field, RELAY_FIELDS, List.lookup_cons, parseRelayKey]
  rfl

/-- What is parsed of a relay is what it says. -/
lemma toWire_of_parseRelay {r : DirectoryRelay} {p : ParsedRelay}
    (h : parseRelay r.value = .ok p) : p.toWire = r := by
  rw [parseRelay_value] at h
  obtain ⟨endpoint, hendpoint, h⟩ := bind_eq_ok.mp h
  obtain ⟨key, hkey, h⟩ := bind_eq_ok.mp h
  obtain ⟨capabilities, hcapabilities, h⟩ := bind_eq_ok.mp h
  obtain ⟨region, hregion, h⟩ := bind_eq_ok.mp h
  obtain rfl := Except.ok.inj h
  obtain ⟨-, hunits⟩ := parseEndpoint_eq_ok hendpoint
  simp only [ParsedRelay.toWire, hunits, toWellFormed_units, encodeBase64_of_parse hkey,
    parseCapabilities_eq_ok hcapabilities, parseRegion_eq_ok hregion]

lemma endpoint_of_parseRelay {r : DirectoryRelay} {p : ParsedRelay}
    (h : parseRelay r.value = .ok p) : p.endpoint.val = units r.endpoint := by
  rw [parseRelay_value] at h
  obtain ⟨endpoint, hendpoint, h⟩ := bind_eq_ok.mp h
  obtain ⟨_, -, h⟩ := bind_eq_ok.mp h
  obtain ⟨_, -, h⟩ := bind_eq_ok.mp h
  obtain ⟨_, -, h⟩ := bind_eq_ok.mp h
  obtain rfl := Except.ok.inj h
  exact (parseEndpoint_eq_ok hendpoint).2

/-- The relays of a document, parsed. -/
abbrev Parse (relays : List DirectoryRelay) (parsed : List ParsedRelay) : Prop :=
  List.Forall₂ (fun r p => parseRelay r.value = .ok p) relays parsed

section Parse

variable {relays : List DirectoryRelay} {parsed : List ParsedRelay}

lemma map_toWire (h : Parse relays parsed) : parsed.map ParsedRelay.toWire = relays := by
  induction h with
  | nil => rfl
  | cons hp _ ih => rw [List.map_cons, toWire_of_parseRelay hp, ih]

lemma map_endpoint (h : Parse relays parsed) :
    (parsed.map fun p => p.endpoint.val) = relays.map fun r => units r.endpoint := by
  induction h with
  | nil => rfl
  | cons hp _ ih => rw [List.map_cons, List.map_cons, endpoint_of_parseRelay hp, ih]

lemma units_injective : Function.Injective units :=
  Function.LeftInverse.injective toWellFormed_units

lemma nodup_endpoint (h : Parse relays parsed) :
    (parsed.map fun p => p.endpoint.val).Nodup ↔ (relays.map DirectoryRelay.endpoint).Nodup := by
  have hmap : (relays.map fun r => units r.endpoint) =
      (relays.map DirectoryRelay.endpoint).map units := by
    rw [List.map_map]
    rfl
  rw [map_endpoint h, hmap, List.nodup_map_iff units_injective]

lemma parse_mem (h : Parse relays parsed) : ∀ r ∈ relays, ∃ p, parseRelay r.value = .ok p := by
  induction h with
  | nil => simp
  | cons hp _ ih => exact List.forall_mem_cons.mpr ⟨⟨_, hp⟩, ih⟩

end Parse

/-! ### Directories -/

lemma assertUint_number {n : ℤ} {label : String} {m : SafeUint} :
    assertUint (.number n) label = .ok m ↔ (m.val : ℤ) = n := by
  constructor
  · intro h
    have hvalue := assertUint_eq_ok h
    have hrat : (n : ℚ) = m.val := Value.number.inj hvalue
    exact_mod_cast hrat.symm
  · rintro rfl
    have hsafe : safeUint ((m.val : ℤ) : ℚ) = some m := by
      simp only [safeUint, Rat.num_intCast, Rat.den_intCast, Int.toNat_natCast]
      rw [dif_pos m.property, if_pos ⟨trivial, Int.natCast_nonneg _⟩]
    simp only [assertUint, hsafe]

/-- What a directory must be to be parsed. -/
structure WellFormed (d : UnsignedRelayDirectory) : Prop where
  serial_pos : 1 ≤ d.serial
  serial_le : d.serial ≤ d.issuedAt
  window : d.issuedAt < d.expiresAt
  safe : d.expiresAt ≤ MAX_SAFE_INTEGER
  lifetime : d.expiresAt - d.issuedAt ≤ MAX_DIRECTORY_LIFETIME_SECONDS
  bounded : d.relays.length ≤ MAX_DIRECTORY_RELAYS
  relays : ∀ r ∈ d.relays, ∃ p, parseRelay r.value = .ok p
  nodup : (d.relays.map DirectoryRelay.endpoint).Nodup

lemma parseDirectory_value (d : UnsignedRelayDirectory) :
    parseDirectory d.value false = (do
      let serial ← assertUint (.number d.serial) "serial"
      let issuedAt ← assertUint (.number d.issuedAt) "issuedAt"
      let expiresAt ← assertUint (.number d.expiresAt) "expiresAt"
      if hserial : serial.val < 1 then .error ⟨"serial must be at least 1"⟩
      else if hdate : issuedAt.val < serial.val then .error ⟨"serial must not exceed issuedAt"⟩
      else if hwindow : expiresAt.val ≤ issuedAt.val then
        .error ⟨"expiresAt must follow issuedAt"⟩
      else if hlifetime : MAX_DIRECTORY_LIFETIME_SECONDS < expiresAt.val - issuedAt.val then
        .error ⟨"directory validity window is too long"⟩
      else if MAX_DIRECTORY_RELAYS < (d.relays.map DirectoryRelay.value).length then
        .error ⟨s!"relays must be an array of at most {MAX_DIRECTORY_RELAYS}"⟩
      else do
        let relays ← (d.relays.map DirectoryRelay.value).mapM parseRelay
        if hrelays : relays.length ≤ MAX_DIRECTORY_RELAYS ∧
            (relays.map fun r => r.endpoint.val).Nodup then
          .ok ⟨serial, issuedAt, expiresAt, relays, by omega, by omega, by omega, by omega,
            hrelays.1, hrelays.2⟩
        else .error ⟨"duplicate relay endpoint"⟩) := by
  simp [parseDirectory, UnsignedRelayDirectory.value, UnsignedRelayDirectory.fields, Value.field,
    DIRECTORY_FIELDS, List.lookup_cons, RELAY_DIRECTORY_VERSION]

/-- What is parsed of a directory is what it says, and it is well formed. -/
lemma parseDirectory_sound {d : UnsignedRelayDirectory} {p : ParsedDirectory}
    (h : parseDirectory d.value false = .ok p) : toWire p = d ∧ WellFormed d := by
  rw [parseDirectory_value] at h
  obtain ⟨serial, hserial, h⟩ := bind_eq_ok.mp h
  obtain ⟨issuedAt, hissuedAt, h⟩ := bind_eq_ok.mp h
  obtain ⟨expiresAt, hexpiresAt, h⟩ := bind_eq_ok.mp h
  rw [assertUint_number] at hserial hissuedAt hexpiresAt
  obtain ⟨hpos, h⟩ := dcheck_eq_ok.mp h
  obtain ⟨hdate, h⟩ := dcheck_eq_ok.mp h
  obtain ⟨hwindow, h⟩ := dcheck_eq_ok.mp h
  obtain ⟨hlifetime, h⟩ := dcheck_eq_ok.mp h
  obtain ⟨-, h⟩ := check_eq_ok.mp h
  obtain ⟨relays, hrelays, h⟩ := bind_eq_ok.mp h
  rw [mapM_eq_ok_iff, List.forall₂_map_left_iff] at hrelays
  split at h
  swap
  · simp at h
  next hchecked =>
  obtain rfl := Except.ok.inj h
  have hwire : relays.map ParsedRelay.toWire = d.relays := map_toWire hrelays
  have hexpires := expiresAt.property
  refine ⟨?_, ?_⟩
  · simp only [toWire, hwire, hserial, hissuedAt, hexpiresAt]
  · exact
      { serial_pos := by omega
        serial_le := by omega
        window := by omega
        safe := by omega
        lifetime := by omega
        bounded := by
          rw [hrelays.length_eq]
          exact hchecked.1
        relays := parse_mem hrelays
        nodup := (nodup_endpoint hrelays).mp hchecked.2 }

/-- The bytes that a text is written in, its length among them. -/
def written (s : String) : ℕ := 4 + s.utf8ByteSize

def DirectoryRelay.size (r : DirectoryRelay) : ℕ :=
  written r.endpoint + PUBLIC_KEY_LENGTH + written r.operator.text + 8 +
    (r.capabilities.map written).sum + written r.region

/-- The bytes that a signature of the directory is over. -/
def UnsignedRelayDirectory.size (d : UnsignedRelayDirectory) : ℕ :=
  written DIRECTORY_CONTEXT + 5 * 8 + (d.relays.map DirectoryRelay.size).sum

section Signed

variable {sign : Bytes → Bytes → Bytes} {d : UnsignedRelayDirectory} {secretKey : Bytes}
  {document : SignedRelayDirectory}

/-- **What is signed is what was given**: a well-formed directory that is not too large. -/
theorem signRelayDirectory_eq_ok_iff (hkey : secretKey.length = 64) :
    signRelayDirectory sign d secretKey = .ok document ↔
      ∃ p bytes, parseDirectory d.value false = .ok p ∧ encodeDirectory p = .ok bytes ∧
        document = { d with signature := encodeBase64 (sign bytes secretKey) } := by
  unfold signRelayDirectory
  constructor
  · intro h
    obtain ⟨p, hp, h⟩ := bind_eq_ok.mp h
    obtain ⟨-, h⟩ := check_eq_ok.mp h
    obtain ⟨bytes, hbytes, h⟩ := bind_eq_ok.mp h
    obtain rfl := Except.ok.inj h
    refine ⟨p, bytes, hp, hbytes, ?_⟩
    rw [(parseDirectory_sound hp).1]
  · rintro ⟨p, bytes, hp, hbytes, rfl⟩
    refine bind_eq_ok.mpr ⟨p, hp, check_eq_ok.mpr ⟨by simp [hkey], ?_⟩⟩
    refine bind_eq_ok.mpr ⟨bytes, hbytes, ?_⟩
    rw [(parseDirectory_sound hp).1]

lemma parseDirectory_signed (document : SignedRelayDirectory) :
    parseDirectory document.value true =
      parseDirectory document.toUnsignedRelayDirectory.value false := rfl

end Signed

end Tnp.Crypto.RelayDirectory
