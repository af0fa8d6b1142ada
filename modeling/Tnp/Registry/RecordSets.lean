import Mathlib.Algebra.Order.BigOperators.Group.List
import Tnp.Lib.Separated
import Tnp.Registry.Records

/-!
The records of a name as resolution sees them: none twice, and a CNAME alone.

The checks compare names that are made relative once more than the candidate's is. The two agree on
every name that carries the domain's suffix at most once; a name that carries it twice is stored
with a suffix left, and a query finds it beside records that the checks took to be elsewhere.
-/

namespace Tnp.Registry.RecordSets

open Tnp.Lib Tnp.Lib.Run Tnp.Crypto Tnp.Namespace Tnp.SharedTypes
open Tnp.SharedTypes.DnsRecords

variable {Node : Type} {toLowerCase toUpperCase : String → String}

/-! ### Names -/

/-- What an accepted record name is written with. -/
def isNameChar (c : Char) : Bool :=
  Namespace.isAlphanumeric c || c = '-' || c = '_' || c = '.' || c = '@'

/-- A name that lower case and `trim` leave alone. -/
def Canonical (name : String) : Prop := ∀ c ∈ name.toList, isNameChar c = true

/-- Lower case leaves canonical names alone, as the runtime's does. -/
def Lowers (toLowerCase : String → String) : Prop :=
  ∀ name, Canonical name → toLowerCase name = name

lemma isSpace_of_isNameChar {c : Char} (h : isNameChar c = true) : isSpace c = false := by
  refine isSpace_of_visible ?_
  simp only [isNameChar, Namespace.isAlphanumeric, Bool.or_eq_true, Bool.and_eq_true,
    decide_eq_true_eq] at h
  obtain (((((⟨h1, h2⟩ | ⟨h1, h2⟩) | rfl) | rfl) | rfl) | rfl) := h
  · have h1' : ('a' : Char).toNat ≤ c.toNat := h1
    have h2' : c.toNat ≤ ('z' : Char).toNat := h2
    simp only [Char.reduceToNat] at h1' h2'
    omega
  · have h1' : ('0' : Char).toNat ≤ c.toNat := h1
    have h2' : c.toNat ≤ ('9' : Char).toNat := h2
    simp only [Char.reduceToNat] at h1' h2'
    omega
  all_goals decide

lemma Canonical.trim {name : String} (h : Canonical name) : Namespace.trim name = name :=
  trim_eq_self fun c hc => isSpace_of_isNameChar (h c hc)

lemma isNameChar_of_label {label : List Char} (h : matchesRecordLabel label = true) :
    ∀ c ∈ label, isNameChar c = true := by
  intro c hc
  have hrest : ∀ cs : List Char, matchesLabel (String.ofList cs) = true →
      ∀ c ∈ cs, isNameChar c = true := by
    intro cs hcs c hc
    simp only [matchesLabel, String.toList_ofList, Bool.and_eq_true, List.all_eq_true] at hcs
    have hone := hcs.2 c hc
    simp only [isNameChar, Bool.or_eq_true, beq_iff_eq, decide_eq_true_eq] at hone ⊢
    tauto
  unfold matchesRecordLabel at h
  split at h
  · next hhead =>
    cases label with
    | nil => simp at hhead
    | cons first rest =>
      obtain rfl : first = '_' := by simpa using hhead
      rcases List.mem_cons.mp hc with rfl | hc
      · decide
      · exact hrest rest h c hc
  · exact hrest label h c hc

/-- An accepted name is canonical, and is what lower case and `trim` made of the text. -/
lemma parseRecordName_ok {raw : Value} {name : String}
    (h : parseRecordName toLowerCase raw = .ok name) :
    Canonical name ∧ ∃ s, raw = .string s ∧ name = toLowerCase (trim s) := by
  cases raw with
  | string s =>
    simp only [parseRecordName, fail] at h
    split at h
    · simp at h
    split at h
    · next hapex =>
      obtain rfl := Except.ok.inj h
      refine ⟨?_, s, rfl, rfl⟩
      intro c hc
      rw [hapex] at hc
      obtain rfl : c = '@' := by simpa using hc
      decide
    split at h
    · simp at h
    split at h
    · simp at h
    next hlabels =>
    obtain rfl := Except.ok.inj h
    refine ⟨fun c hc => ?_, s, rfl, rfl⟩
    simp only [not_or, Bool.not_eq_true', Bool.not_eq_false, List.all_eq_true,
      Bool.and_eq_true] at hlabels
    obtain rfl | ⟨label, hlabel, hmem⟩ := @mem_splitOn _ _ _ '.' _ hc
    · decide
    · exact isNameChar_of_label (hlabels.2 label hlabel).2 c hmem
  | _ => simp [parseRecordName, fail] at h

/-- A canonical name is accepted as it is, where it is accepted. -/
lemma parseRecordName_canonical (hlower : Lowers toLowerCase) {s name : String}
    (hs : Canonical s) (h : parseRecordName toLowerCase (.string s) = .ok name) : name = s := by
  obtain ⟨-, s', hs', rfl⟩ := parseRecordName_ok h
  obtain rfl := Value.string.inj hs'
  rw [hs.trim, hlower s hs]

/-- A name that is relative already. -/
def Plain (name fqdn : String) : Prop := relativeRecordName name fqdn = name

lemma canonical_relativeRecordName {name : String} (h : Canonical name) (fqdn : String) :
    Canonical (relativeRecordName name fqdn) := by
  unfold relativeRecordName
  split
  · intro c hc
    obtain rfl : c = '@' := by simpa using hc
    decide
  split
  · intro c hc
    rw [String.toList_ofList] at hc
    exact h c (List.mem_of_mem_take hc)
  · exact h

/-- A relative name is neither the domain nor a name below it. -/
lemma Plain.not_below {name fqdn : String} (h : Plain name fqdn) (hdot : '.' ∈ fqdn.toList) :
    name ≠ fqdn ∧ ¬ '.' :: fqdn.toList <:+ name.toList := by
  unfold Plain relativeRecordName at h
  constructor
  · rintro rfl
    rw [if_pos rfl] at h
    rw [← h] at hdot
    exact absurd hdot (by decide)
  · intro hbelow
    split at h
    · next heq =>
      have hlength := hbelow.length_le
      rw [heq] at hlength
      simp at hlength
    · have hlist := congrArg (fun s => s.toList.length) h
      have hlength := hbelow.length_le
      simp only [List.length_cons] at hlength
      simp only [String.toList_ofList, List.length_take] at hlist
      omega

/-! ### Conflicts -/

/-- Two records that may share a name. -/
def Apart (r s : DnsRecordInput) : Prop :=
  ¬ (r.type = s.type ∧ r.value = s.value) ∧ r.type ≠ .CNAME ∧ s.type ≠ .CNAME

lemma Apart.symm {r s : DnsRecordInput} (h : Apart r s) : Apart s r :=
  ⟨fun hsame => h.1 ⟨hsame.1.symm, hsame.2.symm⟩, h.2.2, h.2.1⟩

/-- No conflict is found exactly where the candidate is apart from every other record under its
name. -/
lemma findRecordConflict_eq_none {existing : List ExistingRecord} {candidate : DnsRecordInput}
    {ignoreId : Option ℕ} (h : findRecordConflict existing candidate ignoreId = none) :
    ∀ e ∈ existing, some e.id ≠ ignoreId → e.name = candidate.name →
      ¬ (e.type = candidate.type ∧ e.value = candidate.value) ∧ e.type ≠ .CNAME ∧
        candidate.type ≠ .CNAME := by
  intro e he hid hname
  unfold findRecordConflict at h
  have hmem : e ∈ existing.filter fun record =>
      some record.id ≠ ignoreId && record.name = candidate.name := by
    simp [he, hid, hname]
  dsimp only at h
  split at h
  · simp at h
  next hduplicate =>
  split at h
  · simp at h
  next hcname =>
  split at h
  · simp at h
  next hbeside =>
  have hnotCname : candidate.type ≠ .CNAME := fun hc =>
    hcname ⟨hc, List.ne_nil_of_mem hmem⟩
  refine ⟨fun hsame => hduplicate ?_, fun hc => hbeside ⟨hnotCname, ?_⟩, hnotCname⟩
  · exact List.any_eq_true.mpr ⟨e, hmem, by simp [hsame]⟩
  · exact List.any_eq_true.mpr ⟨e, hmem, by simp [hc]⟩

/-! ### The tables -/

section Tables

variable {db : ResolveDb Node}

lemma mem_recordsOf {domainId i : ℕ} {r : DnsRecord} : (i, r) ∈ db.recordsOf domainId ↔
    db.dnsRecords.get i = some r ∧ r.domainId = domainId := by
  simp [ResolveDb.recordsOf, List.mem_filter, OrderedMap.mem_entries_iff]

lemma get_freshId : db.dnsRecords.get db.freshId = none := by
  by_contra hget
  obtain ⟨r, hr⟩ := Option.ne_none_iff_exists'.mp hget
  have hmem : db.freshId ∈ db.dnsRecords.entries.map Prod.fst :=
    List.mem_map_of_mem (OrderedMap.mem_entries_iff.mpr hr)
  have hle := List.single_le_sum (by simp) _ hmem
  simp only [ResolveDb.freshId] at hle
  omega

/-- The row with an id is the only one. -/
lemma byId_eq_some {id : ℕ} {parts : NameParts} {row : Domain} :
    db.byId id = some (parts, row) ↔ db.domains.get parts = some row ∧ row.id = id := by
  have hkeys : (db.domains.entries.map fun e => e.2.id).Nodup := by
    simpa [OrderedMap.values, Function.comp_def] using db.primaryKey
  constructor
  · intro h
    have hid := List.find?_some h
    exact ⟨OrderedMap.mem_entries_iff.mp (List.mem_of_find?_eq_some h), by simpa using hid⟩
  · rintro ⟨hget, hid⟩
    have hmem := OrderedMap.mem_entries_iff.mpr hget
    unfold Db.byId
    cases hfind : db.domains.entries.find? (·.2.id = id) with
    | none =>
      have hnot := List.find?_eq_none.mp hfind _ hmem
      simp [hid] at hnot
    | some e =>
      have hfound : e.2.id = id := by simpa using List.find?_some hfind
      rw [List.inj_on_of_nodup_map hkeys (List.mem_of_find?_eq_some hfind) hmem
        (hfound.trans hid.symm)]

end Tables

/-! ### The invariant -/

/-- What the tables keep. -/
structure Inv (db : ResolveDb Node) : Prop where
  canonical : ∀ i r, db.dnsRecords.get i = some r → Canonical r.name
  plain : ∀ i r, db.dnsRecords.get i = some r → ∀ parts row,
    db.byId r.domainId = some (parts, row) → Plain r.name parts.name
  apart : ∀ i j r s, i ≠ j → db.dnsRecords.get i = some r → db.dnsRecords.get j = some s →
    r.domainId = s.domainId → r.name = s.name → Apart r.toDnsRecordInput s.toDnsRecordInput
  bounded : ∀ domainId, (db.recordsOf domainId).length ≤ MAX_DNS_RECORDS_PER_DOMAIN

section Step

variable {db : ResolveDb Node}

/-- A record that is new, or in the place of one, and apart from every other under its name. -/
lemma Inv.put (h : Inv db) {i : ℕ} {r : DnsRecord} (hcanonical : Canonical r.name)
    (hplain : ∀ parts row, db.byId r.domainId = some (parts, row) → Plain r.name parts.name)
    (hapart : ∀ j s, j ≠ i → db.dnsRecords.get j = some s → s.domainId = r.domainId →
      s.name = r.name → Apart s.toDnsRecordInput r.toDnsRecordInput)
    (hroom : (db.dnsRecords.get i).any (·.domainId = r.domainId) = true ∨
      (db.recordsOf r.domainId).length < MAX_DNS_RECORDS_PER_DOMAIN) :
    Inv { db with dnsRecords := db.dnsRecords.set i r } := by
  have hget (j : ℕ) (s : DnsRecord) (hs : (db.dnsRecords.set i r).get j = some s) :
      j = i ∧ s = r ∨ j ≠ i ∧ db.dnsRecords.get j = some s := by
    rw [OrderedMap.get_set] at hs
    split at hs
    · next heq => exact .inl ⟨heq.symm, (Option.some.inj hs).symm⟩
    · next hne => exact .inr ⟨Ne.symm hne, hs⟩
  refine ⟨fun j s hs => ?_, fun j s hs => ?_, fun j k s t hjk hs ht hdomain hname => ?_,
    fun domainId => ?_⟩
  · rcases hget j s hs with ⟨-, rfl⟩ | ⟨-, hs⟩
    · exact hcanonical
    · exact h.canonical j s hs
  · rcases hget j s hs with ⟨-, rfl⟩ | ⟨-, hs⟩
    · exact hplain
    · exact h.plain j s hs
  · rcases hget j s hs with ⟨hj, hsr⟩ | ⟨hj, hs'⟩ <;>
      rcases hget k t ht with ⟨hk, htr⟩ | ⟨hk, ht'⟩
    · exact absurd (hj.trans hk.symm) hjk
    · subst hsr
      exact (hapart k t hk ht' hdomain.symm hname.symm).symm
    · subst htr
      exact hapart j s hj hs' hdomain hname
    · exact h.apart j k s t hjk hs' ht' hdomain hname
  · have hcount := OrderedMap.countP_set (m := db.dnsRecords) (k := i)
      (fun e : ℕ × DnsRecord => decide (e.2.domainId = domainId)) r
    have hbound := h.bounded domainId
    have hlength (m : OrderedMap ℕ DnsRecord) : (m.entries.filter fun e =>
        e.2.domainId = domainId).length =
          m.entries.countP fun e => decide (e.2.domainId = domainId) :=
      List.countP_eq_length_filter.symm
    simp only [ResolveDb.recordsOf, hlength] at hbound hroom ⊢
    by_cases hsame : r.domainId = domainId
    · subst hsame
      rw [List.countP_eq_length_filter] at hbound hcount ⊢
      rw [List.countP_eq_length_filter] at hcount
      rcases hroom with hold | hless
      · simp only [hold, decide_true, Bool.toNat_true] at hcount
        omega
      · simp only [decide_true, Bool.toNat_true] at hcount
        omega
    · simp only [hsame, decide_false, Bool.toNat_false] at hcount
      omega

/-- What no conflict says of the records of a domain. -/
lemma Inv.apart_of_no_conflict (hlower : Lowers toLowerCase) (h : Inv db) {domainId : ℕ}
    {parts : NameParts} {row : Domain} (hrow : db.byId domainId = some (parts, row))
    {candidate : DnsRecordInput} {ignoreId : Option ℕ}
    (hnone : findRecordConflict (comparable toLowerCase (db.recordsOf row.id) parts.name) candidate
      ignoreId = none) {j : ℕ} {s : DnsRecord} (hj : some j ≠ ignoreId)
    (hs : db.dnsRecords.get j = some s) (hdomain : s.domainId = row.id)
    (hname : s.name = candidate.name) : Apart s.toDnsRecordInput candidate := by
  obtain ⟨-, rfl⟩ := byId_eq_some.mp hrow
  have hplain := h.plain j s hs parts row (by rw [hdomain]; exact hrow)
  have hrelative : relativeRecordName (toLowerCase s.name) parts.name = s.name := by
    rw [hlower s.name (h.canonical j s hs)]
    exact hplain
  have hmem : (⟨j, s.type, s.name, s.value⟩ : ExistingRecord) ∈
      comparable toLowerCase (db.recordsOf row.id) parts.name :=
    List.mem_map.mpr ⟨(j, s), mem_recordsOf.mpr ⟨hs, hdomain⟩, by rw [hrelative]⟩
  exact findRecordConflict_eq_none hnone _ hmem hj hname

/-- The name is relative, once its suffix is taken off. -/
def SuffixOnce (name fqdn : String) : Prop := Plain (relativeRecordName name fqdn) fqdn

lemma Inv.create (hlower : Lowers toLowerCase) (h : Inv db) {domainId : ℕ}
    {input : DnsRecordInput} (hcanonical : Canonical input.name)
    (honce : ∀ parts row, db.byId domainId = some (parts, row) → SuffixOnce input.name parts.name)
    {db' : ResolveDb Node} {inserted : DnsRecord}
    (hok : createDnsRecord toLowerCase db domainId input = .ok (db', inserted)) : Inv db' := by
  unfold createDnsRecord at hok
  split at hok
  · simp at hok
  next parts row hrow =>
  have hid := (byId_eq_some.mp hrow).2
  dsimp only at hok
  split at hok
  · simp at hok
  next hnone =>
  split at hok
  · simp at hok
  next hroom =>
  obtain ⟨rfl, rfl⟩ := Prod.mk.inj (Except.ok.inj hok)
  refine h.put (canonical_relativeRecordName hcanonical _) (fun parts' row' hrow' => ?_)
    (fun j s _ hs hdomain hname => ?_) (.inr (by simpa using hroom))
  · dsimp only at hrow'
    rw [hid, hrow] at hrow'
    obtain ⟨rfl, rfl⟩ := Prod.mk.inj (Option.some.inj hrow')
    exact honce parts row hrow
  · exact h.apart_of_no_conflict hlower hrow hnone (by simp) hs hdomain hname

/-- The name of an accepted request is what the name field parses to. -/
lemma parseCreateDnsRecordRequest_name {body : Value} {input : DnsRecordInput}
    (h : parseCreateDnsRecordRequest toLowerCase toUpperCase body = .ok input) :
    ∃ record, asRecord body = some record ∧
      parseRecordName toLowerCase (Value.field record "name") = .ok input.name := by
  unfold parseCreateDnsRecordRequest at h
  split at h
  · simp [fail] at h
  next record hrecord =>
  obtain ⟨type, -, h⟩ := bind_eq_ok.mp h
  obtain ⟨name, hname, h⟩ := bind_eq_ok.mp h
  obtain ⟨rawValue, -, h⟩ := bind_eq_ok.mp h
  obtain ⟨priority, -, h⟩ := bind_eq_ok.mp h
  obtain ⟨ttl, -, h⟩ := bind_eq_ok.mp h
  obtain ⟨value, -, h⟩ := bind_eq_ok.mp h
  obtain rfl := Except.ok.inj h
  exact ⟨record, hrecord, hname⟩

/-- A field that an update carries is what it parses to. -/
lemma parsePresent_eq_some {α : Type} {raw : Value} {parse : Value → DnsRecordParseResult α}
    {a : α} (h : parsePresent raw parse = .ok (some a)) : parse raw = .ok a := by
  have hmap (value : Value) (h : (parse value).map some = .ok (some a)) : parse value = .ok a := by
    cases hparse : parse value with
    | error e => rw [hparse] at h; simp [Except.map] at h
    | ok b => rw [hparse] at h; simpa [Except.map] using h
  cases raw with
  | undefined => simp [parsePresent] at h
  | _ => exact hmap _ h

/-- The name of an accepted update is canonical, where there is one. -/
lemma parseUpdateDnsRecordRequest_name {body : Value} {patch : UpdateDnsRecordRequest}
    (h : parseUpdateDnsRecordRequest toLowerCase toUpperCase body = .ok patch) :
    ∀ name ∈ patch.name, Canonical name := by
  unfold parseUpdateDnsRecordRequest at h
  split at h
  · simp [fail] at h
  next record hrecord =>
  obtain ⟨type, -, h⟩ := bind_eq_ok.mp h
  obtain ⟨name, hname, h⟩ := bind_eq_ok.mp h
  obtain ⟨value, -, h⟩ := bind_eq_ok.mp h
  obtain ⟨ttl, -, h⟩ := bind_eq_ok.mp h
  obtain ⟨priority, -, h⟩ := bind_eq_ok.mp h
  obtain rfl := Except.ok.inj h
  rintro s hs
  obtain rfl : name = some s := hs
  exact (parseRecordName_ok (parsePresent_eq_some hname)).1

/-- The name of a merged record: the one of the patch, or the one it had. -/
lemma mergeDnsRecordUpdate_name (hlower : Lowers toLowerCase) {existing merged : DnsRecordInput}
    {patch : UpdateDnsRecordRequest} (hexisting : Canonical existing.name)
    (hpatch : ∀ name ∈ patch.name, Canonical name)
    (h : mergeDnsRecordUpdate toLowerCase toUpperCase existing patch = .ok merged) :
    merged.name = patch.name.getD existing.name := by
  unfold mergeDnsRecordUpdate at h
  obtain ⟨record, hrecord, hparse⟩ := parseCreateDnsRecordRequest_name h
  obtain rfl := Option.some.inj hrecord
  refine parseRecordName_canonical hlower ?_ hparse
  cases hp : patch.name with
  | none => exact hexisting
  | some name => exact hpatch name (by simp [hp])

lemma Inv.update (hlower : Lowers toLowerCase) (h : Inv db) {domainId recordId : ℕ}
    {patch : UpdateDnsRecordRequest} (hpatch : ∀ name ∈ patch.name, Canonical name)
    (honce : ∀ name ∈ patch.name, ∀ parts row, db.byId domainId = some (parts, row) →
      SuffixOnce name parts.name) {db' : ResolveDb Node} {updated : DnsRecord}
    (hok : updateDnsRecord toLowerCase toUpperCase db domainId recordId patch =
      .ok (db', updated)) : Inv db' := by
  unfold updateDnsRecord at hok
  split at hok
  · simp at hok
  next parts row hrow =>
  have hid := (byId_eq_some.mp hrow).2
  dsimp only at hok
  split at hok
  · simp at hok
  next i current hfind =>
  split at hok
  · simp at hok
  next merged hmerged =>
  split at hok
  · simp at hok
  next hnone =>
  obtain ⟨rfl, rfl⟩ := Prod.mk.inj (Except.ok.inj hok)
  obtain ⟨hcurrent, hdomain⟩ := mem_recordsOf.mp (List.mem_of_find?_eq_some hfind)
  have hcanonical := h.canonical i current hcurrent
  have hname := mergeDnsRecordUpdate_name hlower hcanonical hpatch hmerged
  refine h.put (canonical_relativeRecordName ?_ _) (fun parts' row' hrow' => ?_)
    (fun j s hj hs hdomain' hsame => ?_) (.inl (by simp [hcurrent, hdomain]))
  · rw [hname]
    cases hp : patch.name with
    | none => exact hcanonical
    | some name => exact hpatch name (by simp [hp])
  · dsimp only at hrow' ⊢
    rw [hid, hrow] at hrow'
    obtain ⟨rfl, rfl⟩ := Prod.mk.inj (Option.some.inj hrow')
    rw [hname]
    cases hp : patch.name with
    | none =>
      -- a stored name is relative already
      have hplain := h.plain i current hcurrent parts row (by rw [hdomain, hid]; exact hrow)
      simp only [Option.getD_none]
      rw [hplain]
      exact hplain
    | some name => exact honce name (by simp [hp]) parts row hrow
  · exact h.apart_of_no_conflict hlower hrow hnone (by simpa using hj) hs hdomain' hsame

lemma Inv.delete (h : Inv db) {domainId recordId : ℕ} {db' : ResolveDb Node}
    (hok : deleteDnsRecord db domainId recordId = .ok db') : Inv db' := by
  unfold deleteDnsRecord at hok
  split at hok
  · simp at hok
  split at hok
  swap
  · simp at hok
  obtain rfl := Except.ok.inj hok
  have hget (i : ℕ) (r : DnsRecord) (hr : (db.dnsRecords.delete recordId).get i = some r) :
      db.dnsRecords.get i = some r := by
    rw [OrderedMap.get_delete] at hr
    split at hr
    · simp at hr
    · exact hr
  refine ⟨fun i r hr => h.canonical i r (hget i r hr), fun i r hr => h.plain i r (hget i r hr),
    fun i j r s hij hr hs => h.apart i j r s hij (hget i r hr) (hget j s hs), fun d => ?_⟩
  refine le_trans ?_ (h.bounded d)
  exact (List.filter_sublist.filter _).length_le

/-- The names that a request would write carry the domain's suffix once at most. -/
def namesOnce (toLowerCase toUpperCase : String → String) (db : ResolveDb Node) :
    RecordRequest → Prop
  | .create domainId body =>
    ∀ input, parseCreateDnsRecordRequest toLowerCase toUpperCase body = .ok input →
      ∀ parts row, db.byId domainId = some (parts, row) → SuffixOnce input.name parts.name
  | .update domainId _ body =>
    ∀ patch, parseUpdateDnsRecordRequest toLowerCase toUpperCase body = .ok patch →
      ∀ name ∈ patch.name, ∀ parts row, db.byId domainId = some (parts, row) →
        SuffixOnce name parts.name
  | .delete _ _ => True

/-- A request of which every name carries the suffix once keeps the invariant. -/
lemma Inv.step (hlower : Lowers toLowerCase) {request : RecordRequest}
    (hrequest : namesOnce toLowerCase toUpperCase db request) (h : Inv db) :
    Inv (recordStep toLowerCase toUpperCase db request) := by
  cases request with
  | create domainId body =>
    dsimp only [recordStep]
    split
    · exact h
    next input hinput =>
    split
    next db' inserted hok =>
      obtain ⟨record, -, hname⟩ := parseCreateDnsRecordRequest_name hinput
      exact h.create hlower (parseRecordName_ok hname).1 (hrequest input hinput) hok
    · exact h
  | update domainId recordId body =>
    dsimp only [recordStep]
    split
    · exact h
    next patch hpatch =>
    split
    next db' updated hok =>
      exact h.update hlower (parseUpdateDnsRecordRequest_name hpatch) (hrequest patch hpatch) hok
    · exact h
  | delete domainId recordId =>
    dsimp only [recordStep]
    split
    next db' hok => exact h.delete hok
    · exact h

lemma Inv.start (hempty : db.dnsRecords = {}) : Inv db where
  canonical i r hget := by simp [hempty] at hget
  plain i r hget := by simp [hempty] at hget
  apart i j r s _ hget := by simp [hempty] at hget
  bounded domainId := by simp [ResolveDb.recordsOf, hempty]

end Step

/-! ### What a query finds -/

section Query

variable {db : ResolveDb Node}

lemma NameParts.toList_name (parts : NameParts) :
    parts.name.toList = parts.label.toList ++ ['.'] ++ parts.tld.toList := by
  simp [NameParts.name]

/-- A name that is found in a domain is the domain's, or a label below it. -/
lemma locate_eq_registered {fqdn : String} {tldCustom : Bool} {parts : NameParts} {row : Domain}
    {label : String}
    (h : locate toLowerCase db fqdn = .registered tldCustom parts row label) :
    db.domains.get parts = some row ∧ row.status = .active ∧
      (fqdn = parts.name ∧ label = "@" ∨
        fqdn.toList = label.toList ++ '.' :: parts.name.toList) := by
  unfold locate at h
  dsimp only at h
  split at h
  · simp at h
  next hlabels =>
  split at h
  · simp at h
  split at h
  · simp at h
  split at h
  · simp at h
  next row' hrow =>
  obtain ⟨-, rfl, rfl, rfl⟩ := Location.registered.inj h
  obtain ⟨hget, hactive⟩ := Option.filter_eq_some_iff.mp hrow
  refine ⟨hget, by simpa using hactive, ?_⟩
  have hjoin : ['.'].intercalate (fqdn.toList.splitOn '.') = fqdn.toList :=
    List.intercalate_splitOn '.'
  generalize fqdn.toList.splitOn '.' = labels at hlabels hjoin ⊢
  -- the last two labels name the domain
  obtain ⟨init, x, y, rfl⟩ : ∃ init x y, labels = init ++ [x, y] := by
    have hlength : 2 ≤ labels.length := by
      by_contra hlt
      exact hlabels (.inl (by omega))
    refine ⟨labels.take (labels.length - 2), labels[labels.length - 2],
      labels[labels.length - 1], ?_⟩
    conv_lhs => rw [← List.take_append_drop (labels.length - 2) labels]
    rw [List.drop_eq_getElem_cons (by omega), List.drop_eq_getElem_cons (by omega),
      List.drop_eq_nil_of_le (by omega)]
    congr 3
    congr 1
    omega
  have hdomain : (init ++ [x, y]).getD ((init ++ [x, y]).length - 2) [] = x := by simp
  have htld : (init ++ [x, y]).getLastD [] = y := by simp
  rw [hdomain, htld]
  by_cases hinit : init = []
  · subst hinit
    refine .inl ⟨String.toList_injective ?_, by simp⟩
    rw [NameParts.toList_name, ← hjoin]
    simp
  · have hpos := List.length_pos_iff.mpr hinit
    refine .inr ?_
    rw [if_pos (by simp; omega), ← hjoin, NameParts.toList_name,
      intercalate_append hinit (List.cons_ne_nil _ _)]
    simp

/-- What a query finds are the records of one domain, all stored under one label. -/
lemma Inv.mem_recordsAt (h : Inv db) {query : String} {i : ℕ} {r : DnsRecord}
    (hmem : (i, r) ∈ recordsAt toLowerCase db query) :
    ∃ tldCustom parts row label,
      locate toLowerCase db (normalizeName toLowerCase query) =
        .registered tldCustom parts row label ∧
      db.dnsRecords.get i = some r ∧ r.domainId = row.id ∧ r.name = label := by
  unfold recordsAt at hmem
  dsimp only at hmem
  split at hmem
  swap
  · simp at hmem
  next tldCustom parts row label hlocate =>
  obtain ⟨hrecord, hname⟩ := List.mem_filter.mp hmem
  obtain ⟨hget, hdomain⟩ := mem_recordsOf.mp hrecord
  refine ⟨tldCustom, parts, row, label, hlocate, hget, hdomain, ?_⟩
  simp only [Bool.or_eq_true, decide_eq_true_eq] at hname
  refine hname.resolve_right fun hfqdn => ?_
  -- a stored name is relative, and the full name is not
  obtain ⟨hrow, -, hparts⟩ := locate_eq_registered hlocate
  have hplain := h.plain i r hget parts row (byId_eq_some.mpr ⟨hrow, hdomain.symm⟩)
  have hbelow := hplain.not_below (by simp [NameParts.toList_name])
  rcases hparts with ⟨hapex, -⟩ | hlabel
  · exact hbelow.1 (hfqdn.trans hapex)
  · refine hbelow.2 ?_
    rw [hfqdn, hlabel]
    exact List.suffix_append _ _

end Query

/-! ### Valid record sets -/

/-- No query finds a record twice, or a CNAME beside another, and no domain has too many. -/
structure Valid (toLowerCase : String → String) (db : ResolveDb Node) : Prop where
  apart : ∀ query i j r s, i ≠ j → (i, r) ∈ recordsAt toLowerCase db query →
    (j, s) ∈ recordsAt toLowerCase db query → Apart r.toDnsRecordInput s.toDnsRecordInput
  bounded : ∀ domainId, (db.recordsOf domainId).length ≤ MAX_DNS_RECORDS_PER_DOMAIN

lemma Inv.valid {db : ResolveDb Node} (h : Inv db) : Valid toLowerCase db where
  apart query i j r s hij hr hs := by
    obtain ⟨_, parts, row, label, hlocate, hgetr, hdomainr, hnamer⟩ := h.mem_recordsAt hr
    obtain ⟨_, _, _, _, hlocate', hgets, hdomains, hnames⟩ := h.mem_recordsAt hs
    rw [hlocate] at hlocate'
    obtain ⟨-, -, rfl, rfl⟩ := Location.registered.inj hlocate'
    exact h.apart i j r s hij hgetr hgets (hdomainr.trans hdomains.symm) (hnamer.trans hnames.symm)
  bounded := h.bounded

lemma toLower_of_isNameChar {c : Char} (h : isNameChar c = true) : c.toLower = c := by
  have hrange : ¬ (65 ≤ c.toNat ∧ c.toNat ≤ 90) → c.toLower = c := fun hnot =>
    dif_neg hnot
  refine hrange fun ⟨hge, hle⟩ => ?_
  simp only [isNameChar, Namespace.isAlphanumeric, Bool.or_eq_true, Bool.and_eq_true,
    decide_eq_true_eq] at h
  obtain (((((⟨h1, -⟩ | ⟨-, h2⟩) | rfl) | rfl) | rfl) | rfl) := h
  · have h1' : 97 ≤ c.toNat := h1
    omega
  · have h2' : c.toNat ≤ 57 := h2
    omega
  all_goals simp at hge hle

lemma lowers_asciiLower : Lowers asciiLower := by
  intro name hname
  unfold asciiLower
  have hmap : name.toList.map Char.toLower = name.toList.map id :=
    List.map_congr_left fun c hc => toLower_of_isNameChar (hname c hc)
  rw [hmap, List.map_id, String.ofList_toList]

/-! ### Runs from no records -/

def asciiUpper (s : String) : String := String.ofList (s.toList.map Char.toUpper)

/-- One domain, and no records. -/
def oneDomain : ResolveDb Unit :=
  { tlds := ({} : OrderedMap String TldStatus).set "ox" .active
    domains := ({} : OrderedMap NameParts Domain).set ⟨"a", "ox"⟩
      { id := 1, oxyUserId := "ada", expiresAt := none }
    primaryKey := by decide }

def create (type name value : String) : RecordRequest :=
  .create 1 (.object [("type", .string type), ("name", .string name), ("value", .string value)])

/-- An address and a CNAME at two names, one of them written with the suffix. -/
def suffixOnce : List RecordRequest :=
  [create "A" "@" "192.0.2.1", create "CNAME" "www.a.ox" "a.ox"]

lemma namesOnce_create {db : ResolveDb Node} {domainId : ℕ} {body : Value} {input : DnsRecordInput}
    {parts : NameParts}
    (hinput : parseCreateDnsRecordRequest toLowerCase toUpperCase body = .ok input)
    (hparts : (db.byId domainId).map Prod.fst = some parts)
    (honce : SuffixOnce input.name parts.name) :
    namesOnce toLowerCase toUpperCase db (.create domainId body) := by
  intro input' hinput' parts' row hrow
  obtain rfl : input = input' := Except.ok.inj (hinput.symm.trans hinput')
  obtain rfl : parts' = parts := by simpa [hrow] using hparts
  exact honce

/-- **The record sets of every reachable state are valid as resolution sees them, where no
accepted name carries its domain's suffix twice.** -/
theorem record_sets_valid (hlower : Lowers toLowerCase) {db : ResolveDb Node}
    (hempty : db.dnsRecords = {}) (requests : List RecordRequest)
    (honce : Allowed (recordStep toLowerCase toUpperCase) (namesOnce toLowerCase toUpperCase) db
      requests) :
    Valid toLowerCase (run (recordStep toLowerCase toUpperCase) db requests) :=
  (invariant_of_allowed (I := Inv) (fun _ _ hrequest h => h.step hlower hrequest)
    (Inv.start hempty) honce).valid

theorem suffixOnce_valid :
    Valid asciiLower (run (recordStep asciiLower asciiUpper) oneDomain suffixOnce) := by
  refine record_sets_valid lowers_asciiLower rfl suffixOnce ⟨?_, ?_, trivial⟩
  · refine namesOnce_create (show _ = Except.ok ⟨.A, "@", "192.0.2.1", 3600⟩ by decide)
      (show _ = some ⟨"a", "ox"⟩ by decide) ?_
    unfold SuffixOnce Plain
    decide
  · refine namesOnce_create
      (show _ = Except.ok ⟨.CNAME, "www.a.ox", "a.ox", 3600⟩ by decide)
      (show _ = some ⟨"a", "ox"⟩ by decide) ?_
    unfold SuffixOnce Plain
    decide

/-- A CNAME, and an address under a name with the suffix twice. -/
def suffixTwice : List RecordRequest :=
  [create "CNAME" "www" "host.example", create "A" "www.a.ox.a.ox" "192.0.2.1"]

/-- The query for the name with its suffix once finds both. -/
theorem suffixTwice_found :
    ¬ Valid asciiLower (run (recordStep asciiLower asciiUpper) oneDomain suffixTwice) := by
  intro h
  have hfound :
      recordsAt asciiLower (run (recordStep asciiLower asciiUpper) oneDomain suffixTwice)
        "www.a.ox" =
          [(1, ⟨⟨.CNAME, "www", "host.example", 3600⟩, 1⟩),
            (2, ⟨⟨.A, "www.a.ox", "192.0.2.1", 3600⟩, 1⟩)] := by decide +kernel
  have hapart := h.apart "www.a.ox" 1 2 _ _ (by decide) (by rw [hfound]; exact List.mem_cons_self)
    (by rw [hfound]; exact List.mem_cons_of_mem _ List.mem_cons_self)
  exact hapart.2.1 rfl

end Tnp.Registry.RecordSets
