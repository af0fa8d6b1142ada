import Tnp.Registry.RecordSets
import Tnp.SharedTypes.DnsRules

/-!
Updates of stored records: what is stored is parsed as it is, and an update keeps what it does not
name.

An update that changes only the type stores the value in the normal form of the new type.
-/

namespace Tnp.Registry.RecordUpdates

open Tnp.Lib Tnp.Crypto Tnp.Namespace Tnp.SharedTypes Tnp.SharedTypes.DnsRecords
open Tnp.Registry.RecordSets
open Tnp.SharedTypes.DnsRules (IsHost LowersAscii isHostChar_spec isAddressChar_spec
  ascii_of_isAddressChar mem_of_isValidIpv4 mem_of_isValidIpv6 isValidIpv6_asciiLower
  isDigit_spec utf16Length_of_ascii of_ascii)

/-- Upper case leaves capital letters alone, as the runtime's does. -/
def Uppers (toUpperCase : String → String) : Prop :=
  ∀ s : String, (∀ c ∈ s.toList, 'A' ≤ c ∧ c ≤ 'Z') → toUpperCase s = s

/-- A host in normal form, the last label of which is not a number. -/
structure IsTarget (host : String) : Prop extends IsHost host where
  last : ((host.toList.splitOn '.').getLastD []).all Char.isDigit = false

/-- A value that no blanks surround. -/
def Trimmed (value : String) : Prop := trim value = value ∧ value ≠ ""

/-- How the value of a record of a type is stored. -/
def ValidValue : DnsRecordType → String → Prop
  | .A, value => isValidIpv4 value = true
  | .AAAA, value => isValidIpv6 value = true ∧ asciiLower value = value
  | .CNAME, value | .NS, value => IsTarget value
  | .MX, value => ∃ priority host, priority ≤ MX_PRIORITY_MAX ∧ IsTarget host ∧
    value = toString priority ++ " " ++ host
  | .TXT, value => Trimmed value ∧ utf16Length value ≤ DNS_TXT_MAX_LENGTH ∧
    value.toList.any isControl = false

def ValidTtl (ttl : ℕ) : Prop := DNS_RECORD_TTL_MIN ≤ ttl ∧ ttl ≤ DNS_RECORD_TTL_MAX

/-- A record as it is stored. -/
structure ValidRecord (toLowerCase : String → String) (r : DnsRecordInput) : Prop where
  name : parseRecordName toLowerCase (.string r.name) = .ok r.name
  value : ValidValue r.type r.value
  ttl : ValidTtl r.ttl

/-- A record as the body of a request. -/
def recordBody (r : DnsRecordInput) : Value :=
  .object [("type", .string r.type.text), ("name", .string r.name), ("value", .string r.value),
    ("ttl", .number r.ttl)]

section Values

variable {toLowerCase toUpperCase : String → String} {value host : String}

/-! ### Hosts -/

lemma isNameChar_of_isHostChar {c : Char} (h : DnsRules.isHostChar c = true) :
    isNameChar c = true := by
  simp only [DnsRules.isHostChar, isNameChar, Bool.or_eq_true, beq_iff_eq,
    decide_eq_true_eq] at h ⊢
  tauto

lemma canonical_of_isHost (h : IsHost host) : Canonical host :=
  fun c hc => isNameChar_of_isHostChar (h.chars c hc)

lemma lowers_of_lowersAscii (hlower : LowersAscii toLowerCase) : Lowers toLowerCase := by
  intro name hname
  have hascii : ∀ c ∈ name.toList, c.toNat < 128 := by
    intro c hc
    have hchar := hname c hc
    simp only [isNameChar, Namespace.isAlphanumeric, Bool.or_eq_true, Bool.and_eq_true,
      decide_eq_true_eq] at hchar
    obtain (((((⟨-, h⟩ | ⟨-, h⟩) | rfl) | rfl) | rfl) | rfl) := hchar
    · exact Nat.lt_of_le_of_lt h (show ('z' : Char).toNat < 128 by decide)
    · exact Nat.lt_of_le_of_lt h (show ('9' : Char).toNat < 128 by decide)
    all_goals decide
  rw [hlower name hascii, lowers_asciiLower name hname]

lemma IsHost.trimmed (h : IsHost host) : Trimmed host := ⟨h.trim_eq, h.ne_empty⟩

lemma utf16Length_label {label : List Char}
    (h : matchesLabel (String.ofList label) = true) :
    utf16Length (String.ofList label) = label.length := by
  rw [utf16Length_of_ascii, String.toList_ofList]
  intro c hc
  simp only [matchesLabel, String.toList_ofList, Bool.and_eq_true, List.all_eq_true] at h hc
  refine (isHostChar_spec (c := c) ?_).2.1
  rw [DnsRules.isHostChar, h.2 c hc, Bool.true_or]

/-- A label of a host, as the two parsers write it. -/
lemma label_iff (label : List Char) :
    (decide (utf16Length (String.ofList label) ≤ MAX_LABEL_LENGTH) &&
      matchesLabel (String.ofList label)) = DnsRules.isLdhLabel label := by
  unfold DnsRules.isLdhLabel
  cases h : matchesLabel (String.ofList label) with
  | false => simp
  | true => rw [utf16Length_label h]; rfl

lemma normalizeHostname_eq (toLowerCase : String → String) (input : String) :
    normalizeHostname toLowerCase input =
      let host := normalizeName toLowerCase input
      let labels := host.toList.splitOn '.'
      if host = "" ∨ MAX_HOSTNAME_LENGTH < utf16Length host then none
      else if !labels.all DnsRules.isLdhLabel then none
      else if (labels.getLastD []).all Char.isDigit then none
      else some host := by
  unfold normalizeHostname
  simp only [label_iff]

lemma isTarget_of_normalizeHostname {input : String}
    (h : normalizeHostname toLowerCase input = some host) : IsTarget host := by
  rw [normalizeHostname_eq] at h
  dsimp only at h
  split_ifs at h with hlength hlabels hlast
  obtain rfl := Option.some.inj h
  rw [not_or, not_lt] at hlength
  exact ⟨⟨by simpa using hlabels, hlength.1, hlength.2⟩, by simpa using hlast⟩

lemma IsTarget.normalizeHostname_eq_self (hlower : LowersAscii toLowerCase) (h : IsTarget host) :
    normalizeHostname toLowerCase host = some host := by
  have hname : normalizeName toLowerCase host = host := by
    change DnsRules.withoutRootDot (toLowerCase (trim host)) = host
    rw [h.trim_eq, lowers_of_lowersAscii hlower host (canonical_of_isHost h.toIsHost)]
    exact h.withoutRootDot_eq
  rw [normalizeHostname_eq]
  dsimp only
  rw [hname, if_neg, if_neg, if_neg]
  · simpa using h.last
  · simpa using h.labels
  · exact not_or.mpr ⟨h.ne_empty, not_lt.mpr h.length_le⟩

/-! ### Priorities -/

lemma parseInteger_number {field : DnsRecordField} {code : DnsRecordErrorCode} {min max n : ℕ}
    {error : String} (hmin : min ≤ n) (hmax : n ≤ max) :
    parseInteger field code min max error (.number n) = .ok (some n) := by
  have hden : (n : ℚ).den = 1 := Rat.den_natCast n
  simp only [parseInteger]
  rw [if_neg]
  · simp
  · simp only [hden, Nat.cast_lt]
    omega

lemma parseInteger_eq_ok {field : DnsRecordField} {code : DnsRecordErrorCode} {min max n : ℕ}
    {error : String} {raw : Value}
    (h : parseInteger field code min max error raw = .ok (some n)) : min ≤ n ∧ n ≤ max := by
  unfold parseInteger at h
  split at h
  · simp at h
  · simp at h
  · next x =>
    split at h
    · contradiction
    next hrange =>
    obtain rfl := Option.some.inj (Except.ok.inj h)
    simp only [not_or, not_not, not_lt] at hrange
    obtain ⟨hden, hmin, hmax⟩ := hrange
    have hnum : (x.num : ℚ) = x := Rat.coe_int_num_of_den_eq_one hden
    rw [← hnum] at hmin hmax
    have hmin' : (min : ℤ) ≤ x.num := by exact_mod_cast hmin
    have hmax' : x.num ≤ (max : ℤ) := by exact_mod_cast hmax
    omega
  · contradiction

lemma toList_mx (priority : ℕ) (host : String) :
    (toString priority ++ " " ++ host).toList =
      Nat.toDigits 10 priority ++ ' ' :: host.toList := by
  simp

lemma isDigit_of_toDigits {priority : ℕ} {c : Char} (h : c ∈ Nat.toDigits 10 priority) :
    c.isDigit = true := Nat.isDigit_of_mem_toDigits (by decide) (by decide) h

lemma trimmed_mx {priority : ℕ} (h : IsHost host) :
    Trimmed (toString priority ++ " " ++ host) := by
  refine ⟨trim_of_ends (fun c hc => ?_) (fun c hc => ?_), fun hempty => ?_⟩
  · rw [toList_mx, List.head?_append_of_ne_nil _ Nat.toDigits_ne_nil] at hc
    have hdigit := isDigit_of_toDigits (List.mem_of_head? hc)
    exact (isAddressChar_spec (isDigit_spec (.inl hdigit)).1).1
  · have hne : host.toList ≠ [] := fun hnil => h.ne_empty (String.toList_eq_nil_iff.mp hnil)
    rw [toList_mx, List.getLast?_append_of_ne_nil _ (by simp),
      List.getLast?_cons_of_ne_nil hne] at hc
    exact (isHostChar_spec (h.chars c (List.mem_of_getLast? hc))).1
  · have hlist := congrArg String.toList hempty
    rw [toList_mx] at hlist
    simp at hlist

/-- What is written of a priority and a host is read as these. -/
lemma splitMxValue_written {priority : ℕ} (h : IsHost host) :
    splitMxValue (toString priority ++ " " ++ host) = some ⟨priority, host⟩ := by
  have hdigits : ∀ c ∈ Nat.toDigits 10 priority, c.isDigit = true :=
    fun c hc => isDigit_of_toDigits hc
  have hspaces : ∀ c ∈ host.toList, isSpace c = false := fun c hc =>
    (isHostChar_spec (h.chars c hc)).1
  have hne : host.toList ≠ [] := fun hnil => h.ne_empty (String.toList_eq_nil_iff.mp hnil)
  have hdrop : host.toList.dropWhile isSpace = host.toList := by
    rw [List.dropWhile_eq_self_iff]
    intro hpos
    simp [hspaces _ (List.getElem_mem hpos)]
  have hspace : isSpace ' ' = true := by decide
  have hdigit : (' ' : Char).isDigit = false := by decide
  unfold splitMxValue
  dsimp only
  rw [(trimmed_mx h).1, toList_mx, List.takeWhile_append_of_pos hdigits,
    List.dropWhile_append_of_pos hdigits]
  simp only [List.takeWhile_cons, List.dropWhile_cons, hdigit, hspace, Bool.false_eq_true,
    if_false, if_true, List.append_nil, hdrop, Nat.ofDigitChars_ten_toDigits, String.ofList_toList]
  rw [if_neg]
  simp only [not_or]
  exact ⟨Nat.toDigits_ne_nil, by simp, hne, by simpa using hspaces⟩

lemma parsePriority_number {priority : ℕ} (h : priority ≤ MX_PRIORITY_MAX) :
    parsePriority (.number priority) = .ok (some priority) :=
  parseInteger_number (Nat.zero_le _) h

/-- A number is parsed as itself, where it is a priority. -/
lemma parsePriority_eq_ok {priority : ℕ} {parsed : Option ℕ}
    (h : parsePriority (.number priority) = .ok parsed) :
    parsed = some priority ∧ priority ≤ MX_PRIORITY_MAX := by
  by_cases hle : priority ≤ MX_PRIORITY_MAX
  · rw [parsePriority_number hle] at h
    exact ⟨(Except.ok.inj h).symm, hle⟩
  · unfold parsePriority parseInteger at h
    dsimp only at h
    rw [if_pos (by simp; omega)] at h
    contradiction

lemma mxValue_of_target (hlower : LowersAscii toLowerCase) {priority : ℕ} (h : IsTarget host) :
    mxValue toLowerCase priority host = .ok (toString priority ++ " " ++ host) := by
  rw [mxValue, h.normalizeHostname_eq_self hlower]

/-! ### Values -/

lemma asciiLower_asciiLower {s : String} (h : ∀ c ∈ s.toList, c.toNat < 128) :
    asciiLower (asciiLower s) = asciiLower s := by
  simp only [asciiLower, String.toList_ofList, List.map_map]
  congr 1
  refine List.map_congr_left fun c hc => ?_
  exact of_ascii (P := fun c => c.toLower.toLower = c.toLower) (by decide) (h c hc)

lemma trimmed_of_isValidIpv4 (h : isValidIpv4 value = true) : Trimmed value := by
  refine ⟨trim_eq_self fun c hc =>
    (isAddressChar_spec (isDigit_spec (mem_of_isValidIpv4 h hc)).1).1, ?_⟩
  rintro rfl
  exact absurd h (by decide)

lemma trimmed_of_isValidIpv6 (h : isValidIpv6 value = true) : Trimmed value := by
  refine ⟨trim_eq_self fun c hc => (isAddressChar_spec (mem_of_isValidIpv6 h hc)).1, ?_⟩
  rintro rfl
  exact absurd h (by decide)

lemma ValidValue.trimmed {type : DnsRecordType} (h : ValidValue type value) : Trimmed value := by
  cases type with
  | A => exact trimmed_of_isValidIpv4 h
  | AAAA => exact trimmed_of_isValidIpv6 h.1
  | CNAME => exact IsHost.trimmed h.toIsHost
  | TXT => exact h.1
  | MX =>
    obtain ⟨priority, host, -, hhost, rfl⟩ := h
    exact trimmed_mx hhost.toIsHost
  | NS => exact IsHost.trimmed h.toIsHost

/-- A stored value is parsed as it is. -/
lemma ValidValue.parseValue_eq_self (hlower : LowersAscii toLowerCase) {type : DnsRecordType}
    (h : ValidValue type value) : parseValue toLowerCase type value none = .ok value := by
  have htarget (hhost : IsTarget value) :
      normalizeHostname toLowerCase value = some value := hhost.normalizeHostname_eq_self hlower
  cases type with
  | A => exact if_pos h
  | AAAA =>
    have hascii : ∀ c ∈ value.toList, c.toNat < 128 := fun c hc =>
      ascii_of_isAddressChar (mem_of_isValidIpv6 h.1 hc)
    simp only [parseValue, h.1, if_true, hlower value hascii, h.2]
  | CNAME => simp only [parseValue, htarget h]
  | NS => simp only [parseValue, htarget h]
  | TXT =>
    simp only [parseValue]
    rw [if_neg (not_lt.mpr h.2.1), if_neg (by simp [h.2.2])]
  | MX =>
    obtain ⟨priority, host, hpriority, hhost, rfl⟩ := h
    simp only [parseValue, splitMxValue_written hhost.toIsHost]
    rw [parsePriority_number hpriority]
    exact mxValue_of_target hlower hhost

lemma validValue_of_mxValue {priority : ℕ} {input : String} (hpriority : priority ≤ MX_PRIORITY_MAX)
    (h : mxValue toLowerCase priority input = .ok value) : ValidValue .MX value := by
  unfold mxValue at h
  split at h
  · contradiction
  · next normalized hnormal =>
    obtain rfl := Except.ok.inj h
    exact ⟨priority, normalized, hpriority, isTarget_of_normalizeHostname hnormal, rfl⟩

/-- What is parsed is stored as its type has it. -/
lemma validValue_of_parseValue (hlower : LowersAscii toLowerCase) {type : DnsRecordType}
    {priority : Option ℕ} {input : String} (htrimmed : Trimmed input)
    (hpriority : ∀ q ∈ priority, q ≤ MX_PRIORITY_MAX)
    (h : parseValue toLowerCase type input priority = .ok value) : ValidValue type value := by
  cases type with
  | A =>
    simp only [parseValue, fail] at h
    split at h
    · next hvalid =>
      obtain rfl := Except.ok.inj h
      exact hvalid
    · contradiction
  | AAAA =>
    simp only [parseValue, fail] at h
    split at h
    · next hvalid =>
      obtain rfl := Except.ok.inj h
      have hascii : ∀ c ∈ input.toList, c.toNat < 128 := fun c hc =>
        ascii_of_isAddressChar (mem_of_isValidIpv6 hvalid hc)
      rw [hlower input hascii]
      exact ⟨isValidIpv6_asciiLower hvalid, asciiLower_asciiLower hascii⟩
    · contradiction
  | CNAME | NS =>
    simp only [parseValue, fail] at h
    split at h
    · next host hhost =>
      obtain rfl := Except.ok.inj h
      exact isTarget_of_normalizeHostname hhost
    · contradiction
  | TXT =>
    simp only [parseValue, fail] at h
    obtain ⟨hlength, h⟩ := check_eq_ok.mp h
    obtain ⟨hcontrol, h⟩ := check_eq_ok.mp h
    obtain rfl := Except.ok.inj h
    exact ⟨htrimmed, not_lt.mp hlength, by simpa using hcontrol⟩
  | MX =>
    simp only [parseValue] at h
    split at h
    · exact validValue_of_mxValue (hpriority _ rfl) h
    · split at h
      · contradiction
      · obtain ⟨parsed, hparsed, h⟩ := bind_eq_ok.mp h
        obtain ⟨rfl, hle⟩ := parsePriority_eq_ok hparsed
        exact validValue_of_mxValue hle h

/-! ### Fields -/

lemma parseType_text (hupper : Uppers toUpperCase) (type : DnsRecordType) :
    parseType toUpperCase (.string type.text) = .ok type := by
  have hall : type.text.toList.all (fun c => decide ('A' ≤ c ∧ c ≤ 'Z')) = true := by
    cases type <;> decide
  have hcapital : ∀ c ∈ type.text.toList, 'A' ≤ c ∧ c ≤ 'Z' := fun c hc =>
    of_decide_eq_true (List.all_eq_true.mp hall c hc)
  have htrim : trim type.text = type.text := by
    cases type <;> decide
  have hfind : recordTypeOf type.text = some type := by
    cases type <;> decide
  simp only [parseType, htrim, hupper _ hcapital, hfind]

lemma parseValueString_trimmed (h : Trimmed value) :
    parseValueString (.string value) = .ok value := by
  simp only [parseValueString, h.1]
  rw [if_neg h.2]

lemma trimmed_of_parseValueString {raw : Value} (h : parseValueString raw = .ok value) :
    Trimmed value := by
  unfold parseValueString at h
  split at h
  · split at h
    · contradiction
    next s hne =>
    obtain rfl := Except.ok.inj h
    exact ⟨trim_trim s, hne⟩
  · contradiction

/-- An accepted name is accepted as it is. -/
lemma parseRecordName_again (hlower : LowersAscii toLowerCase) {raw : Value} {name : String}
    (h : parseRecordName toLowerCase raw = .ok name) :
    parseRecordName toLowerCase (.string name) = .ok name := by
  obtain ⟨hcanonical, s, rfl, rfl⟩ := parseRecordName_ok h
  have hfixed : toLowerCase (trim (toLowerCase (trim s))) = toLowerCase (trim s) := by
    rw [hcanonical.trim, lowers_of_lowersAscii hlower _ hcanonical]
  have hne : trim (toLowerCase (trim s)) ≠ "" := by
    rw [hcanonical.trim]
    intro hempty
    simp only [parseRecordName, fail, hempty] at h
    split at h
    · contradiction
    · revert h
      decide
  simp only [parseRecordName] at h ⊢
  rw [if_neg hne, hfixed]
  rwa [if_neg] at h
  intro hempty
  rw [if_pos hempty] at h
  contradiction

/-- A request whose other fields are accepted is as its value is. -/
lemma parseCreateDnsRecordRequest_eq {record : Record} {type : DnsRecordType} {name input : String}
    {priority ttl : Option ℕ}
    (htype : parseType toUpperCase (Value.field record "type") = .ok type)
    (hname : parseRecordName toLowerCase (Value.field record "name") = .ok name)
    (hinput : parseValueString (Value.field record "value") = .ok input)
    (hpriority : parsePriority (Value.field record "priority") = .ok priority)
    (httl : parseTtl (Value.field record "ttl") = .ok ttl) :
    parseCreateDnsRecordRequest toLowerCase toUpperCase (.object record) =
      (parseValue toLowerCase type input priority).map fun value =>
        { type, name, value, ttl := ttl.getD DNS_RECORD_TTL_DEFAULT } := by
  simp only [parseCreateDnsRecordRequest, asRecord, htype, hname, hinput, hpriority, httl,
    bind, Except.bind]
  cases parseValue toLowerCase type input priority <;> rfl

lemma parseTtl_number {ttl : ℕ} (h : ValidTtl ttl) : parseTtl (.number ttl) = .ok (some ttl) :=
  parseInteger_number h.1 h.2

lemma validTtl_of_parseTtl {raw : Value} {ttl : ℕ} (h : parseTtl raw = .ok (some ttl)) :
    ValidTtl ttl := parseInteger_eq_ok h

lemma validTtl_default : ValidTtl DNS_RECORD_TTL_DEFAULT := ⟨by decide, by decide⟩

/-- **A stored record is parsed as it is.** -/
theorem ValidRecord.parse_eq_self (hlower : LowersAscii toLowerCase) (hupper : Uppers toUpperCase)
    {r : DnsRecordInput} (h : ValidRecord toLowerCase r) :
    parseCreateDnsRecordRequest toLowerCase toUpperCase (recordBody r) = .ok r := by
  let record : Record := [("type", .string r.type.text), ("name", .string r.name),
    ("value", .string r.value), ("ttl", .number r.ttl)]
  have htype : parseType toUpperCase (Value.field record "type") = .ok r.type :=
    parseType_text hupper r.type
  have hname : parseRecordName toLowerCase (Value.field record "name") = .ok r.name := h.name
  have hinput : parseValueString (Value.field record "value") = .ok r.value :=
    parseValueString_trimmed h.value.trimmed
  have hpriority : parsePriority (Value.field record "priority") = .ok none := rfl
  have httl : parseTtl (Value.field record "ttl") = .ok (some r.ttl) := parseTtl_number h.ttl
  rw [recordBody, parseCreateDnsRecordRequest_eq htype hname hinput hpriority httl,
    h.value.parseValue_eq_self hlower]
  rfl

/-- **A parsed record is as it is stored.** -/
theorem validRecord_of_parse (hlower : LowersAscii toLowerCase) {body : Value}
    {r : DnsRecordInput}
    (h : parseCreateDnsRecordRequest toLowerCase toUpperCase body = .ok r) :
    ValidRecord toLowerCase r := by
  unfold parseCreateDnsRecordRequest at h
  split at h
  · contradiction
  next record hrecord =>
  obtain ⟨type, -, h⟩ := bind_eq_ok.mp h
  obtain ⟨name, hname, h⟩ := bind_eq_ok.mp h
  obtain ⟨input, hinput, h⟩ := bind_eq_ok.mp h
  obtain ⟨priority, hpriority, h⟩ := bind_eq_ok.mp h
  obtain ⟨ttl, httl, h⟩ := bind_eq_ok.mp h
  obtain ⟨value, hvalue, h⟩ := bind_eq_ok.mp h
  obtain rfl := Except.ok.inj h
  constructor
  · exact parseRecordName_again hlower hname
  · refine validValue_of_parseValue hlower (trimmed_of_parseValueString hinput) ?_ hvalue
    rintro q rfl
    exact (parseInteger_eq_ok hpriority).2
  · cases ttl with
    | none => exact validTtl_default
    | some ttl => exact validTtl_of_parseTtl httl

/-! ### Updates -/

/-- What is parsed of an update. -/
structure ValidUpdate (toLowerCase : String → String) (p : UpdateDnsRecordRequest) : Prop where
  name : ∀ name ∈ p.name, parseRecordName toLowerCase (.string name) = .ok name
  value : ∀ value ∈ p.value, Trimmed value
  ttl : ∀ ttl ∈ p.ttl, ValidTtl ttl
  priority : ∀ priority ∈ p.priority, priority ≤ MX_PRIORITY_MAX

lemma parsePresent_join {α : Type} {raw : Value} {parse : Value → DnsRecordParseResult (Option α)}
    {found : Option (Option α)} {a : α} (h : parsePresent raw parse = .ok found)
    (ha : a ∈ found.join) : parse raw = .ok (some a) := by
  obtain rfl : found = some (some a) := Option.join_eq_some_iff.mp ha
  exact parsePresent_eq_some h

lemma validUpdate_of_parse (hlower : LowersAscii toLowerCase) {body : Value}
    {p : UpdateDnsRecordRequest}
    (h : parseUpdateDnsRecordRequest toLowerCase toUpperCase body = .ok p) :
    ValidUpdate toLowerCase p := by
  unfold parseUpdateDnsRecordRequest at h
  split at h
  · contradiction
  next record hrecord =>
  obtain ⟨type, -, h⟩ := bind_eq_ok.mp h
  obtain ⟨name, hname, h⟩ := bind_eq_ok.mp h
  obtain ⟨value, hvalue, h⟩ := bind_eq_ok.mp h
  obtain ⟨ttl, httl, h⟩ := bind_eq_ok.mp h
  obtain ⟨priority, hpriority, h⟩ := bind_eq_ok.mp h
  obtain rfl := Except.ok.inj h
  constructor
  · rintro s rfl
    exact parseRecordName_again hlower (parsePresent_eq_some hname)
  · rintro s rfl
    exact trimmed_of_parseValueString (parsePresent_eq_some hvalue)
  · intro n hn
    have hparse := parsePresent_join httl hn
    split at hparse
    · contradiction
    · exact validTtl_of_parseTtl hparse
  · intro n hn
    exact (parseInteger_eq_ok (parsePresent_join hpriority hn)).2

/-- The parts of a stored MX value. -/
def storedMx (r : DnsRecordInput) : Option MxValue :=
  if r.type = .MX then splitMxValue r.value else none

lemma mergedValue_eq (r : DnsRecordInput) (p : UpdateDnsRecordRequest) (type : DnsRecordType) :
    mergedValue r p type =
      if type = .MX then
        match p.value with
        | some value => (value, p.priority.or
            (if (splitMxValue value).isSome then none else (storedMx r).map (·.priority)))
        | none => (((storedMx r).map (·.host)).getD r.value,
            p.priority.or ((storedMx r).map (·.priority)))
      else (p.value.getD r.value, none) := rfl

section Merge

variable {r : DnsRecordInput} {p : UpdateDnsRecordRequest}

lemma ValidRecord.storedMx_valid (h : ValidRecord toLowerCase r) {stored : MxValue}
    (hstored : storedMx r = some stored) : r.type = .MX ∧ stored.priority ≤ MX_PRIORITY_MAX ∧
      IsTarget stored.host ∧ r.value = toString stored.priority ++ " " ++ stored.host := by
  unfold storedMx at hstored
  split at hstored
  · next hmx =>
    have hvalue := h.value
    rw [hmx] at hvalue
    obtain ⟨priority, host, hpriority, hhost, hwritten⟩ := hvalue
    rw [hwritten, splitMxValue_written hhost.toIsHost] at hstored
    obtain rfl := Option.some.inj hstored
    exact ⟨hmx, hpriority, hhost, hwritten⟩
  · contradiction

lemma ValidRecord.exists_storedMx (h : ValidRecord toLowerCase r) (hmx : r.type = .MX) :
    ∃ stored, storedMx r = some stored := by
  have hvalue := h.value
  rw [hmx] at hvalue
  obtain ⟨priority, host, -, hhost, hwritten⟩ := hvalue
  refine ⟨⟨priority, host⟩, ?_⟩
  rw [storedMx, if_pos hmx, hwritten, splitMxValue_written hhost.toIsHost]

/-- What a merged record is parsed from is trimmed and in range. -/
lemma mergedValue_valid (hr : ValidRecord toLowerCase r) (hp : ValidUpdate toLowerCase p)
    (type : DnsRecordType) : Trimmed (mergedValue r p type).1 ∧
      ∀ q ∈ (mergedValue r p type).2, q ≤ MX_PRIORITY_MAX := by
  have hstored : ∀ q ∈ (storedMx r).map (·.priority), q ≤ MX_PRIORITY_MAX := by
    intro q hq
    obtain ⟨stored, hsome, rfl⟩ := Option.mem_map.mp hq
    exact (hr.storedMx_valid hsome).2.1
  have hor (found : Option ℕ) (hfound : ∀ q ∈ found, q ≤ MX_PRIORITY_MAX) :
      ∀ q ∈ p.priority.or found, q ≤ MX_PRIORITY_MAX := by
    intro q hq
    rcases Option.or_eq_some_iff.mp hq with hnamed | ⟨-, hfound'⟩
    · exact hp.priority q hnamed
    · exact hfound q hfound'
  rw [mergedValue_eq]
  split
  · split
    · next value hvalue =>
      refine ⟨hp.value value hvalue, hor _ ?_⟩
      split
      · simp
      · exact hstored
    · refine ⟨?_, hor _ hstored⟩
      cases hsome : storedMx r with
      | none => exact hr.value.trimmed
      | some stored => exact IsHost.trimmed (hr.storedMx_valid hsome).2.2.1.toIsHost
  · refine ⟨?_, by simp⟩
    cases hvalue : p.value with
    | none => exact hr.value.trimmed
    | some value => exact hp.value value hvalue

/-- The body of a merged record. -/
def mergedBody (r : DnsRecordInput) (p : UpdateDnsRecordRequest) (merged : String × Option ℕ) :
    Record :=
  [("type", .string (p.type.getD r.type).text), ("name", .string (p.name.getD r.name)),
    ("ttl", .number (p.ttl.getD r.ttl)), ("value", .string merged.1),
    ("priority", optionalNumber merged.2)]

lemma parse_mergedBody (hupper : Uppers toUpperCase) (hr : ValidRecord toLowerCase r)
    (hp : ValidUpdate toLowerCase p) {merged : String × Option ℕ} (htrimmed : Trimmed merged.1)
    (hrange : ∀ q ∈ merged.2, q ≤ MX_PRIORITY_MAX) :
    parseCreateDnsRecordRequest toLowerCase toUpperCase (.object (mergedBody r p merged)) =
      (parseValue toLowerCase (p.type.getD r.type) merged.1 merged.2).map fun value =>
        { type := p.type.getD r.type, name := p.name.getD r.name, value
          ttl := p.ttl.getD r.ttl } := by
  have htype : parseType toUpperCase (Value.field (mergedBody r p merged) "type") =
      .ok (p.type.getD r.type) := parseType_text hupper _
  have hname : parseRecordName toLowerCase (Value.field (mergedBody r p merged) "name") =
      .ok (p.name.getD r.name) := by
    change parseRecordName toLowerCase (.string (p.name.getD r.name)) = _
    cases hname : p.name with
    | none => exact hr.name
    | some name => exact hp.name name hname
  have hinput : parseValueString (Value.field (mergedBody r p merged) "value") = .ok merged.1 :=
    parseValueString_trimmed htrimmed
  have hpriority : parsePriority (Value.field (mergedBody r p merged) "priority") =
      .ok merged.2 := by
    change parsePriority (optionalNumber merged.2) = _
    cases hmerged : merged.2 with
    | none => rfl
    | some q => exact parsePriority_number (hrange q hmerged)
  have httl : parseTtl (Value.field (mergedBody r p merged) "ttl") =
      .ok (some (p.ttl.getD r.ttl)) := by
    refine parseTtl_number ?_
    cases httl : p.ttl with
    | none => exact hr.ttl
    | some ttl => exact hp.ttl ttl httl
  exact parseCreateDnsRecordRequest_eq htype hname hinput hpriority httl

/-- An update of a stored record is refused only for the merged value. -/
lemma mergeDnsRecordUpdate_eq (hupper : Uppers toUpperCase) (hr : ValidRecord toLowerCase r)
    (hp : ValidUpdate toLowerCase p) :
    mergeDnsRecordUpdate toLowerCase toUpperCase r p =
      (parseValue toLowerCase (p.type.getD r.type) (mergedValue r p (p.type.getD r.type)).1
        (mergedValue r p (p.type.getD r.type)).2).map fun value =>
          { type := p.type.getD r.type, name := p.name.getD r.name, value
            ttl := p.ttl.getD r.ttl } := by
  obtain ⟨htrimmed, hrange⟩ := mergedValue_valid hr hp (p.type.getD r.type)
  exact parse_mergedBody hupper hr hp htrimmed hrange

/-- The value is read in full, as the type it is given has it. -/
lemma mergedValue_retyped {type : DnsRecordType} (hvalue : p.value = none) (htype : type ≠ r.type) :
    mergedValue r p type = (r.value, if type = .MX then p.priority else none) := by
  have hnone (hmx : type = .MX) : storedMx r = none := if_neg fun hr => htype (hmx.trans hr.symm)
  rw [mergedValue_eq, hvalue]
  by_cases hmx : type = .MX
  · rw [if_pos hmx, if_pos hmx, hnone hmx]
    simp
  · rw [if_neg hmx, if_neg hmx]
    rfl

/-- What an update keeps of a record. -/
structure Keeps (toLowerCase : String → String) (r : DnsRecordInput) (p : UpdateDnsRecordRequest)
    (m : DnsRecordInput) : Prop where
  type : m.type = p.type.getD r.type
  name : m.name = p.name.getD r.name
  ttl : m.ttl = p.ttl.getD r.ttl
  value : p.value = none → m.type = r.type → m.type ≠ .MX → m.value = r.value
  mx : m.type = r.type → m.type = .MX → ∃ old new : MxValue,
    splitMxValue r.value = some old ∧ splitMxValue m.value = some new ∧
      (p.value = none → new.host = old.host) ∧
      ((∀ value ∈ p.value, splitMxValue value = none) →
        new.priority = p.priority.getD old.priority)
  retyped : p.value = none → m.type ≠ r.type →
    parseValue toLowerCase m.type r.value (if m.type = .MX then p.priority else none) = .ok m.value

lemma mxValue_eq_ok {priority : ℕ} {input : String}
    (h : mxValue toLowerCase priority input = .ok value) :
    ∃ host, normalizeHostname toLowerCase input = some host ∧
      splitMxValue value = some ⟨priority, host⟩ := by
  unfold mxValue at h
  split at h
  · contradiction
  · next host hhost =>
    obtain rfl := Except.ok.inj h
    exact ⟨host, hhost, splitMxValue_written (isTarget_of_normalizeHostname hhost).toIsHost⟩

lemma mergeDnsRecordUpdate_eq_ok (hupper : Uppers toUpperCase) (hr : ValidRecord toLowerCase r)
    (hp : ValidUpdate toLowerCase p) {m : DnsRecordInput}
    (h : mergeDnsRecordUpdate toLowerCase toUpperCase r p = .ok m) :
    ∃ value, parseValue toLowerCase (p.type.getD r.type)
        (mergedValue r p (p.type.getD r.type)).1 (mergedValue r p (p.type.getD r.type)).2 =
          .ok value ∧
      m = ⟨p.type.getD r.type, p.name.getD r.name, value, p.ttl.getD r.ttl⟩ := by
  rw [mergeDnsRecordUpdate_eq hupper hr hp] at h
  cases hvalue : parseValue toLowerCase (p.type.getD r.type)
      (mergedValue r p (p.type.getD r.type)).1 (mergedValue r p (p.type.getD r.type)).2 with
  | error e =>
    rw [hvalue] at h
    contradiction
  | ok value =>
    rw [hvalue] at h
    exact ⟨value, rfl, (Except.ok.inj h).symm⟩

/-- An MX record keeps the part that is not named. -/
lemma keeps_mx (hlower : LowersAscii toLowerCase) (hr : ValidRecord toLowerCase r)
    (hp : ValidUpdate toLowerCase p) (hmx : r.type = .MX)
    (h : parseValue toLowerCase .MX (mergedValue r p .MX).1 (mergedValue r p .MX).2 = .ok value) :
    ∃ old new : MxValue, splitMxValue r.value = some old ∧ splitMxValue value = some new ∧
      (p.value = none → new.host = old.host) ∧
      ((∀ v ∈ p.value, splitMxValue v = none) →
        new.priority = p.priority.getD old.priority) := by
  obtain ⟨old, hold⟩ := hr.exists_storedMx hmx
  obtain ⟨-, -, hhost, -⟩ := hr.storedMx_valid hold
  have hsplit : splitMxValue r.value = some old := by
    rwa [storedMx, if_pos hmx] at hold
  have hor : p.priority.or (some old.priority) = some (p.priority.getD old.priority) := by
    cases p.priority <;> rfl
  rw [mergedValue_eq, if_pos rfl, hold] at h
  cases hvalue : p.value with
  | none =>
    simp only [hvalue, Option.map_some, Option.getD_some, hor] at h
    obtain ⟨host, hnormal, hnew⟩ := mxValue_eq_ok h
    rw [hhost.normalizeHostname_eq_self hlower] at hnormal
    exact ⟨old, _, hsplit, hnew, fun _ => (Option.some.inj hnormal).symm, fun _ => rfl⟩
  | some v =>
    have hmerged := mergedValue_valid hr hp .MX
    rw [mergedValue_eq, if_pos rfl, hold] at hmerged
    simp only [hvalue, Option.map_some] at h hmerged
    obtain ⟨priority, host, -, hnew, rfl⟩ : ValidValue .MX value :=
      validValue_of_parseValue hlower hmerged.1 hmerged.2 h
    have hread : splitMxValue (toString priority ++ " " ++ host) = some ⟨priority, host⟩ :=
      splitMxValue_written hnew.toIsHost
    refine ⟨old, _, hsplit, hread, nofun, fun hbare => ?_⟩
    rw [hbare v rfl] at h
    simp only [Option.isSome_none, Bool.false_eq_true, if_false, hor] at h
    obtain ⟨host', -, hread'⟩ := mxValue_eq_ok h
    rw [hread] at hread'
    exact congrArg MxValue.priority (Option.some.inj hread')

lemma keeps_of_merge (hlower : LowersAscii toLowerCase) (hupper : Uppers toUpperCase)
    (hr : ValidRecord toLowerCase r) (hp : ValidUpdate toLowerCase p) {m : DnsRecordInput}
    (h : mergeDnsRecordUpdate toLowerCase toUpperCase r p = .ok m) : Keeps toLowerCase r p m := by
  obtain ⟨value, hvalue, rfl⟩ := mergeDnsRecordUpdate_eq_ok hupper hr hp h
  generalize htype : p.type.getD r.type = type at hvalue ⊢
  refine ⟨htype.symm, rfl, rfl, fun hnone hsame hmx => ?_, fun hsame hmx => ?_,
    fun hnone hother => ?_⟩
  · dsimp only at hsame hmx
    rw [mergedValue_eq, if_neg hmx, hnone, Option.getD_none, hsame,
      hr.value.parseValue_eq_self hlower] at hvalue
    exact (Except.ok.inj hvalue).symm
  · dsimp only at hsame hmx
    subst hmx
    exact keeps_mx hlower hr hp hsame.symm hvalue
  · rwa [mergedValue_retyped hnone hother] at hvalue

lemma validRecord_of_merge (hlower : LowersAscii toLowerCase)
    {m : DnsRecordInput} (h : mergeDnsRecordUpdate toLowerCase toUpperCase r p = .ok m) :
    ValidRecord toLowerCase m := by
  unfold mergeDnsRecordUpdate at h
  exact validRecord_of_parse hlower h

/-! ### Two updates -/

/-- Only a priority, and only a value. -/
def priorityOnly (priority : ℕ) : UpdateDnsRecordRequest := { priority := some priority }

def valueOnly (value : String) : UpdateDnsRecordRequest := { value := some value }

def valueAndPriority (value : String) (priority : ℕ) : UpdateDnsRecordRequest :=
  { value := some value, priority := some priority }

lemma validUpdate_both {priority : ℕ} (hpriority : priority ≤ MX_PRIORITY_MAX)
    (hvalue : Trimmed value) : ValidUpdate toLowerCase (valueAndPriority value priority) where
  name := nofun
  value _ hv := Option.some.inj hv ▸ hvalue
  ttl := nofun
  priority _ hq := Option.some.inj hq ▸ hpriority

lemma validUpdate_priorityOnly {priority : ℕ} (h : priority ≤ MX_PRIORITY_MAX) :
    ValidUpdate toLowerCase (priorityOnly priority) where
  name := nofun
  value := nofun
  ttl := nofun
  priority _ hq := Option.some.inj hq ▸ h

lemma validUpdate_valueOnly (h : Trimmed value) : ValidUpdate toLowerCase (valueOnly value) where
  name := nofun
  value _ hv := Option.some.inj hv ▸ h
  ttl := nofun
  priority := nofun

/-- A priority alone is put before the stored host. -/
lemma merge_priorityOnly (hlower : LowersAscii toLowerCase) (hupper : Uppers toUpperCase)
    (hr : ValidRecord toLowerCase r) {priority : ℕ} (hpriority : priority ≤ MX_PRIORITY_MAX) :
    mergeDnsRecordUpdate toLowerCase toUpperCase r (priorityOnly priority) =
      .ok { r with value := ((storedMx r).map fun stored =>
        toString priority ++ " " ++ stored.host).getD r.value } := by
  rw [mergeDnsRecordUpdate_eq hupper hr (validUpdate_priorityOnly hpriority)]
  change (parseValue toLowerCase r.type (mergedValue r (priorityOnly priority) r.type).1
    (mergedValue r (priorityOnly priority) r.type).2).map _ = _
  by_cases hmx : r.type = .MX
  · obtain ⟨stored, hstored⟩ := hr.exists_storedMx hmx
    obtain ⟨-, -, hhost, -⟩ := hr.storedMx_valid hstored
    have hmerged : mergedValue r (priorityOnly priority) r.type =
        (stored.host, some priority) := by
      rw [mergedValue_eq, if_pos hmx, hstored]
      rfl
    have hparse : parseValue toLowerCase r.type stored.host (some priority) =
        .ok (toString priority ++ " " ++ stored.host) := by
      rw [hmx]
      exact mxValue_of_target hlower hhost
    rw [hmerged, hparse, hstored]
    rfl
  · have hmerged : mergedValue r (priorityOnly priority) r.type = (r.value, none) := by
      rw [mergedValue_eq, if_neg hmx]
      rfl
    have hnone : storedMx r = none := if_neg hmx
    rw [hmerged, hr.value.parseValue_eq_self hlower, hnone]
    rfl

/-- A value with a priority is read apart from what is stored. -/
lemma merge_valueAndPriority (hupper : Uppers toUpperCase) (hr : ValidRecord toLowerCase r)
    {priority : ℕ} (hpriority : priority ≤ MX_PRIORITY_MAX) (hvalue : Trimmed value) :
    mergeDnsRecordUpdate toLowerCase toUpperCase r (valueAndPriority value priority) =
      (parseValue toLowerCase r.type value (if r.type = .MX then some priority else none)).map
        fun value => { r with value } := by
  rw [mergeDnsRecordUpdate_eq hupper hr (validUpdate_both hpriority hvalue)]
  change (parseValue toLowerCase r.type
    (mergedValue r (valueAndPriority value priority) r.type).1
    (mergedValue r (valueAndPriority value priority) r.type).2).map _ = _
  have hmerged : mergedValue r (valueAndPriority value priority) r.type =
      (value, if r.type = .MX then some priority else none) := by
    rw [mergedValue_eq]
    split <;> rfl
  rw [hmerged]
  rfl

/-- A bare host is put after the stored priority. -/
lemma merge_valueOnly (hupper : Uppers toUpperCase) (hr : ValidRecord toLowerCase r)
    (hvalue : Trimmed value) (hbare : splitMxValue value = none) :
    mergeDnsRecordUpdate toLowerCase toUpperCase r (valueOnly value) =
      (parseValue toLowerCase r.type value ((storedMx r).map (·.priority))).map
        fun value => { r with value } := by
  rw [mergeDnsRecordUpdate_eq hupper hr (validUpdate_valueOnly hvalue)]
  change (parseValue toLowerCase r.type (mergedValue r (valueOnly value) r.type).1
    (mergedValue r (valueOnly value) r.type).2).map _ = _
  have hmerged : mergedValue r (valueOnly value) r.type =
      (value, (storedMx r).map (·.priority)) := by
    rw [mergedValue_eq]
    split
    · simp [valueOnly, hbare]
    · next hmx =>
      have hnone : storedMx r = none := if_neg hmx
      rw [hnone]
      rfl
  rw [hmerged]
  rfl

lemma storedMx_with {priority : ℕ} (hmx : r.type = .MX) (h : IsHost host) :
    storedMx { r with value := toString priority ++ " " ++ host } = some ⟨priority, host⟩ :=
  (if_pos hmx).trans (splitMxValue_written h)

/-- A priority and then a bare host are the two at once. -/
lemma priority_then_value (hlower : LowersAscii toLowerCase) (hupper : Uppers toUpperCase)
    (hr : ValidRecord toLowerCase r) {priority : ℕ} (hpriority : priority ≤ MX_PRIORITY_MAX)
    (hvalue : Trimmed value) (hbare : splitMxValue value = none) :
    (mergeDnsRecordUpdate toLowerCase toUpperCase r (priorityOnly priority) >>= fun m =>
        mergeDnsRecordUpdate toLowerCase toUpperCase m (valueOnly value)) =
      mergeDnsRecordUpdate toLowerCase toUpperCase r (valueAndPriority value priority) := by
  have hfirst := merge_priorityOnly hlower hupper hr hpriority
  have hm := validRecord_of_merge hlower hfirst
  rw [hfirst, merge_valueAndPriority hupper hr hpriority hvalue]
  change mergeDnsRecordUpdate toLowerCase toUpperCase _ (valueOnly value) = _
  rw [merge_valueOnly hupper hm hvalue hbare]
  by_cases hmx : r.type = .MX
  · obtain ⟨stored, hstored⟩ := hr.exists_storedMx hmx
    have hhost := (hr.storedMx_valid hstored).2.2.1.toIsHost
    rw [if_pos hmx, hstored]
    simp only [Option.map_some, Option.getD_some, storedMx_with hmx hhost]
  · have hstored : storedMx r = none := if_neg hmx
    have hnone : storedMx { r with value := r.value } = none := if_neg hmx
    rw [if_neg hmx, hstored]
    simp only [Option.map_none, Option.getD_none, hnone]

/-- A bare host and then a priority are the two at once. -/
lemma value_then_priority (hlower : LowersAscii toLowerCase) (hupper : Uppers toUpperCase)
    (hr : ValidRecord toLowerCase r) {priority : ℕ} (hpriority : priority ≤ MX_PRIORITY_MAX)
    (hvalue : Trimmed value) (hbare : splitMxValue value = none) :
    (mergeDnsRecordUpdate toLowerCase toUpperCase r (valueOnly value) >>= fun m =>
        mergeDnsRecordUpdate toLowerCase toUpperCase m (priorityOnly priority)) =
      mergeDnsRecordUpdate toLowerCase toUpperCase r (valueAndPriority value priority) := by
  have hfirst := merge_valueOnly hupper hr hvalue hbare
  rw [merge_valueAndPriority hupper hr hpriority hvalue]
  by_cases hmx : r.type = .MX
  · obtain ⟨stored, hstored⟩ := hr.exists_storedMx hmx
    have hparse (q : ℕ) : parseValue toLowerCase r.type value (some q) =
        mxValue toLowerCase q value := by
      rw [hmx]
      rfl
    rw [hstored, Option.map_some, hparse] at hfirst
    rw [if_pos hmx, hparse]
    cases hhost : normalizeHostname toLowerCase value with
    | none =>
      simp only [mxValue, hhost] at hfirst ⊢
      rw [hfirst]
      rfl
    | some host =>
      simp only [mxValue, hhost] at hfirst ⊢
      have htarget := (isTarget_of_normalizeHostname hhost).toIsHost
      have hm := validRecord_of_merge hlower hfirst
      rw [hfirst]
      change mergeDnsRecordUpdate toLowerCase toUpperCase
        { r with value := toString stored.priority ++ " " ++ host } (priorityOnly priority) = _
      rw [merge_priorityOnly hlower hupper hm hpriority, storedMx_with hmx htarget]
      rfl
  · have hnone (v : String) : storedMx { r with value := v } = none := if_neg hmx
    have hstored : storedMx r = none := if_neg hmx
    rw [hstored] at hfirst
    rw [if_neg hmx, hfirst]
    cases hparse : parseValue toLowerCase r.type value none with
    | error e =>
      rw [Option.map_none, hparse]
      rfl
    | ok stored =>
      rw [Option.map_none, hparse] at hfirst ⊢
      have hm := validRecord_of_merge hlower hfirst
      change mergeDnsRecordUpdate toLowerCase toUpperCase _ (priorityOnly priority) = _
      rw [merge_priorityOnly hlower hupper hm hpriority, hnone]
      rfl

lemma merge_empty (hlower : LowersAscii toLowerCase) (hupper : Uppers toUpperCase)
    (hr : ValidRecord toLowerCase r) :
    mergeDnsRecordUpdate toLowerCase toUpperCase r {} = .ok r := by
  have hempty : ValidUpdate toLowerCase {} := ⟨nofun, nofun, nofun, nofun⟩
  rw [mergeDnsRecordUpdate_eq hupper hr hempty]
  change (parseValue toLowerCase r.type (mergedValue r {} r.type).1
    (mergedValue r {} r.type).2).map _ = _
  by_cases hmx : r.type = .MX
  · obtain ⟨stored, hstored⟩ := hr.exists_storedMx hmx
    obtain ⟨-, -, hhost, hwritten⟩ := hr.storedMx_valid hstored
    have hmerged : mergedValue r {} r.type = (stored.host, some stored.priority) := by
      rw [mergedValue_eq, if_pos hmx, hstored]
      rfl
    have hparse : parseValue toLowerCase r.type stored.host (some stored.priority) =
        .ok r.value := by
      rw [hmx, hwritten]
      exact mxValue_of_target hlower hhost
    rw [hmerged, hparse]
    rfl
  · have hmerged : mergedValue r {} r.type = (r.value, none) := by
      rw [mergedValue_eq, if_neg hmx]
      rfl
    rw [hmerged, hr.value.parseValue_eq_self hlower]
    rfl

end Merge

end Values

variable (toLowerCase toUpperCase : String → String)

/-- Updates of a record merge exactly. -/
structure Merges (r : DnsRecordInput) : Prop where
  empty : mergeDnsRecordUpdate toLowerCase toUpperCase r {} = .ok r
  merged : ∀ update p m, parseUpdateDnsRecordRequest toLowerCase toUpperCase update = .ok p →
    mergeDnsRecordUpdate toLowerCase toUpperCase r p = .ok m →
      ValidRecord toLowerCase m ∧
        parseCreateDnsRecordRequest toLowerCase toUpperCase (recordBody m) = .ok m ∧
          Keeps toLowerCase r p m
  either : ∀ first second priority host,
    parseUpdateDnsRecordRequest toLowerCase toUpperCase first = .ok (priorityOnly priority) →
    parseUpdateDnsRecordRequest toLowerCase toUpperCase second = .ok (valueOnly host) →
    splitMxValue host = none →
      (mergeDnsRecordUpdate toLowerCase toUpperCase r (priorityOnly priority) >>= fun m =>
          mergeDnsRecordUpdate toLowerCase toUpperCase m (valueOnly host)) =
        (mergeDnsRecordUpdate toLowerCase toUpperCase r (valueOnly host) >>= fun m =>
          mergeDnsRecordUpdate toLowerCase toUpperCase m (priorityOnly priority))

variable {toLowerCase toUpperCase}

/-- **An update of a parsed record keeps what it does not name, and leaves a record that is parsed
as it is.** -/
theorem updates_merge (hlower : LowersAscii toLowerCase) (hupper : Uppers toUpperCase)
    {body : Value} {r : DnsRecordInput}
    (hr : parseCreateDnsRecordRequest toLowerCase toUpperCase body = .ok r) :
    Merges toLowerCase toUpperCase r := by
  have hvalid := validRecord_of_parse hlower hr
  constructor
  case empty => exact merge_empty hlower hupper hvalid
  case merged =>
    intro update p m hp hm
    have hmvalid := validRecord_of_merge hlower hm
    exact ⟨hmvalid, hmvalid.parse_eq_self hlower hupper,
      keeps_of_merge hlower hupper hvalid (validUpdate_of_parse hlower hp) hm⟩
  case either =>
    intro first second priority host hfirst hsecond hbare
    have hpriority := (validUpdate_of_parse hlower hfirst).priority priority rfl
    have hvalue := (validUpdate_of_parse hlower hsecond).value host rfl
    exact (priority_then_value hlower hupper hvalid hpriority hvalue hbare).trans
      (value_then_priority hlower hupper hvalid hpriority hvalue hbare).symm

lemma uppers_asciiUpper : Uppers asciiUpper := by
  intro s hs
  unfold asciiUpper
  have hmap : s.toList.map Char.toUpper = s.toList.map id := by
    refine List.map_congr_left fun c hc => dif_neg fun hlower => ?_
    have hle : c.toNat ≤ 90 := (hs c hc).2
    have hge : 97 ≤ c.toNat := hlower.1
    omega
  rw [hmap, List.map_id, String.ofList_toList]

/-- A mail host with its priority. -/
theorem updates_merge_mail :
    Merges asciiLower asciiUpper ⟨.MX, "@", "10 mail.a.ox", 3600⟩ :=
  updates_merge (fun _ _ => rfl) uppers_asciiUpper
    (show parseCreateDnsRecordRequest asciiLower asciiUpper (.object [("type", .string "mx"),
      ("name", .string "@"), ("value", .string "Mail.a.ox."), ("priority", .number 10)]) = _ by
        decide)

/-- A text that becomes a host is kept in lower case, though the update does not name the value. -/
theorem retyped_lowered : ∃ body update r p m,
    parseCreateDnsRecordRequest asciiLower asciiUpper body = .ok r ∧
    parseUpdateDnsRecordRequest asciiLower asciiUpper update = .ok p ∧ p.value = none ∧
    mergeDnsRecordUpdate asciiLower asciiUpper r p = .ok m ∧ m.value ≠ r.value :=
  ⟨.object [("type", .string "TXT"), ("name", .string "www"), ("value", .string "Mail.a.ox")],
    .object [("type", .string "CNAME")], ⟨.TXT, "www", "Mail.a.ox", 3600⟩, { type := some .CNAME },
    ⟨.CNAME, "www", "mail.a.ox", 3600⟩, by decide, by decide, rfl, by decide, by decide⟩

end Tnp.Registry.RecordUpdates
