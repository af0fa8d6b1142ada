import Tnp.Lib.StableSort
import Tnp.Services.Zone

/-!
The hash that tells whether a zone has changed.

What is hashed is the zone in normal form, put in order by a comparison that may tie on texts that
differ. Case mappings, the comparison, the text of a number and the digest are parameters.
-/

namespace Tnp.Services

open Tnp.Lib Tnp.Namespace Tnp.SharedTypes
open Tnp.SharedTypes.DnsRules (withoutRootDot)

/-- What is made a text and hashed. -/
structure CanonicalZone where
  records : List ZoneRecord
  settings : List (String × String)
  deriving DecidableEq

section

variable (toLowerCase toUpperCase : String → String) (numberText : ℚ → String)
  (localeCompare : String → String → Ordering)

def recordKey (record : ZoneRecord) : String :=
  let priority := (record.priority.map numberText).getD "null"
  "[" ++ ",".intercalate [jsonString record.host, jsonString record.type, jsonString record.value,
    priority, numberText record.ttl] ++ "]"

/-- The order that records are sorted in. -/
def recordLe : ZoneRecord → ZoneRecord → Bool := keyLe localeCompare (recordKey numberText)

/-- The order that settings are sorted in. -/
def settingLe : String × String → String × String → Bool := keyLe localeCompare Prod.fst

/-- Entries are listed as `Object.entries` lists them. -/
def canonicalZone (zone : Zone) : CanonicalZone where
  records := (zone.records.map (normalizeRecord toLowerCase toUpperCase)).mergeSort
    (recordLe numberText localeCompare)
  settings := zone.settings.entries.mergeSort (settingLe localeCompare)

variable {Digest : Type*} (digest : CanonicalZone → Digest)

/-- `digest` hashes the text of what it is given. -/
def hashZone (zone : Zone) : Digest :=
  digest (canonicalZone toLowerCase toUpperCase numberText localeCompare zone)

/-- One zone, but for the order of its records and for spellings. -/
structure Zone.Same (a b : Zone) : Prop where
  settings : a.settings.entries.Perm b.settings.entries
  records : (a.records.map (normalizeRecord toLowerCase toUpperCase)).Perm
    (b.records.map (normalizeRecord toLowerCase toUpperCase))

/-- What a provider gives back of a zone that it stored record by record. -/
structure Zone.Returned (sent returned : Zone) : Prop where
  records : returned.records.Perm sent.records
  settings : returned.settings = sent.settings

/-- What the comparison ties stands in the same order in both. -/
structure Zone.TiesAgree (a b : Zone) : Prop where
  records : ∀ key,
    (a.records.map (normalizeRecord toLowerCase toUpperCase)).filter
        (tied (recordLe numberText localeCompare) key) =
      (b.records.map (normalizeRecord toLowerCase toUpperCase)).filter
        (tied (recordLe numberText localeCompare) key)
  settings : ∀ key, a.settings.entries.filter (tied (settingLe localeCompare) key) =
    b.settings.entries.filter (tied (settingLe localeCompare) key)

/-- No two records that differ in normal form are tied. -/
def Zone.Untied (zone : Zone) : Prop :=
  ∀ a ∈ zone.records.map (normalizeRecord toLowerCase toUpperCase),
    ∀ b ∈ zone.records.map (normalizeRecord toLowerCase toUpperCase),
      tied (recordLe numberText localeCompare) a b = true → a = b

/-- A hostname that one dot is taken from ends in no other, nor in a blank. -/
def ZoneRecord.Settled (record : ZoneRecord) : Prop :=
  HOSTNAME_VALUE_TYPES.contains (toUpperCase (trim record.type)) = true →
    let value := withoutRootDot (toLowerCase (trim record.value))
    value.toList.getLast? ≠ some '.' ∧ trim value = value

end

/-! ### Case mappings -/

/-- What is relied on of a case mapping: what it gives it leaves, part by part, it makes or takes
no blanks at the ends, and leaves the name of the apex. -/
structure CaseMapping (f : String → String) : Prop where
  fixed : ∀ s t : String, t.toList <:+: (f s).toList → f t = t
  trimmed : ∀ s, trim s = s → trim (f s) = f s
  apex : f "@" = "@"

lemma eq_of_infix {s t : String} (h : s.toList <:+: t.toList)
    (hlength : t.toList.length ≤ s.toList.length) : s = t :=
  String.toList_inj.mp (h.eq_of_length_le hlength)

lemma isPrefix_withoutRootDot (s : String) : (withoutRootDot s).toList <+: s.toList := by
  rw [withoutRootDot, String.toList_ofList]
  split
  · exact List.dropLast_prefix _
  · exact List.prefix_refl _

lemma withoutRootDot_eq_self {s : String} :
    withoutRootDot s = s ↔ s.toList.getLast? ≠ some '.' := by
  rw [withoutRootDot, ← String.toList_inj, String.toList_ofList]
  split
  · next hdot =>
    have hne : s.toList ≠ [] := by
      intro hnil
      simp [hnil] at hdot
    have hlength : s.toList.dropLast.length < s.toList.length := by
      rw [List.length_dropLast]
      exact Nat.sub_lt (List.length_pos_of_ne_nil hne) Nat.one_pos
    constructor
    · intro h
      rw [h] at hlength
      exact absurd hlength (lt_irrefl _)
    · intro h
      exact absurd hdot h
  · next hdot => exact ⟨fun _ => hdot, fun _ => rfl⟩

section

variable {f : String → String} (hf : CaseMapping f)
include hf

/-- A case mapping gives what it has given, trimmed or not. -/
lemma CaseMapping.twice (s : String) : f (trim (f (trim s))) = f (trim s) := by
  rw [hf.trimmed _ (trim_trim s)]
  exact hf.fixed _ _ (List.infix_refl _)

/-- Taking the root's dot off again changes nothing exactly where nothing is left to take. -/
lemma CaseMapping.withoutRootDot_twice (s : String) :
    let value := withoutRootDot (f s)
    withoutRootDot (f (trim value)) = value ↔
      value.toList.getLast? ≠ some '.' ∧ trim value = value := by
  intro value
  have hfixed : f (trim value) = trim value :=
    hf.fixed s _ ((isInfix_trim value).trans (isPrefix_withoutRootDot (f s)).isInfix)
  rw [hfixed]
  constructor
  · intro h
    have hlength := (isPrefix_withoutRootDot (trim value)).length_le
    rw [h] at hlength
    have htrim := eq_of_infix (isInfix_trim value) hlength
    rw [htrim] at h
    exact ⟨withoutRootDot_eq_self.mp h, htrim⟩
  · rintro ⟨hdot, htrim⟩
    rw [htrim]
    exact withoutRootDot_eq_self.mpr hdot

end

variable {toLowerCase toUpperCase : String → String} {numberText : ℚ → String}
  {localeCompare : String → String → Ordering}

lemma host_twice (hlower : CaseMapping toLowerCase) (record : ZoneRecord) :
    (normalizeRecord toLowerCase toUpperCase
      (normalizeRecord toLowerCase toUpperCase record)).host =
        (normalizeRecord toLowerCase toUpperCase record).host := by
  have hform (r : ZoneRecord) : (normalizeRecord toLowerCase toUpperCase r).host =
      if toLowerCase (trim r.host) = "" then "@" else toLowerCase (trim r.host) := rfl
  rw [hform (normalizeRecord _ _ _)]
  by_cases hhost : toLowerCase (trim record.host) = ""
  · have hapex : toLowerCase (trim "@") = "@" := by
      rw [trim_eq_self (by simp [isSpace]), hlower.apex]
    rw [hform, if_pos hhost, hapex]
    rfl
  · rw [hform, if_neg hhost, hlower.twice, if_neg hhost]

lemma type_twice (hupper : CaseMapping toUpperCase) (record : ZoneRecord) :
    (normalizeRecord toLowerCase toUpperCase
      (normalizeRecord toLowerCase toUpperCase record)).type =
        (normalizeRecord toLowerCase toUpperCase record).type :=
  hupper.twice record.type

/-- A normal form is kept exactly where its value is settled. -/
lemma normalizeRecord_twice (hlower : CaseMapping toLowerCase) (hupper : CaseMapping toUpperCase)
    (record : ZoneRecord) :
    normalizeRecord toLowerCase toUpperCase (normalizeRecord toLowerCase toUpperCase record) =
      normalizeRecord toLowerCase toUpperCase record ↔
        record.Settled toLowerCase toUpperCase := by
  refine normalizeRecord_twice_iff.trans ?_
  have hhost := @host_twice toLowerCase toUpperCase hlower record
  have htype := @type_twice toLowerCase toUpperCase hupper record
  have hvalue : (normalizeRecord toLowerCase toUpperCase
      (normalizeRecord toLowerCase toUpperCase record)).value =
        (normalizeRecord toLowerCase toUpperCase record).value ↔
          record.Settled toLowerCase toUpperCase := by
    simp only [normalizeRecord, hupper.twice, ZoneRecord.Settled]
    by_cases hhostname : HOSTNAME_VALUE_TYPES.contains (toUpperCase (trim record.type)) = true
    · rw [if_pos hhostname, if_pos hhostname]
      refine (hlower.withoutRootDot_twice (trim record.value)).trans ?_
      exact ⟨fun h _ => h, fun h => h hhostname⟩
    · rw [if_neg hhostname, if_neg hhostname, trim_trim]
      exact ⟨fun _ h => absurd h hhostname, fun _ => rfl⟩
  exact ⟨fun h => hvalue.mp h.2.2, fun h => ⟨hhost, htype, hvalue.mpr h⟩⟩

/-! ### The order -/

section

variable [Std.TransCmp localeCompare]

variable {Digest : Type*} {digest : CanonicalZone → Digest}

lemma hashZone_eq_iff (hdigest : Function.Injective digest) (a b : Zone) :
    hashZone toLowerCase toUpperCase numberText localeCompare digest a =
        hashZone toLowerCase toUpperCase numberText localeCompare digest b ↔
      a.TiesAgree toLowerCase toUpperCase numberText localeCompare b := by
  rw [hashZone, hashZone, hdigest.eq_iff, canonicalZone, canonicalZone, CanonicalZone.mk.injEq]
  unfold recordLe settingLe
  rw [mergeSort_eq_iff keyLe_trans keyLe_total, mergeSort_eq_iff keyLe_trans keyLe_total]
  exact ⟨fun ⟨h, h'⟩ => ⟨h, h'⟩, fun ⟨h, h'⟩ => ⟨h, h'⟩⟩

/-- Zones of one hash are one zone. -/
lemma Zone.TiesAgree.same {a b : Zone}
    (h : a.TiesAgree toLowerCase toUpperCase numberText localeCompare b) :
    a.Same toLowerCase toUpperCase b := by
  have hrecords := (mergeSort_eq_iff keyLe_trans keyLe_total).mpr h.records
  have hsettings := (mergeSort_eq_iff keyLe_trans keyLe_total).mpr h.settings
  constructor
  · have hperm := (List.mergeSort_perm a.settings.entries (settingLe localeCompare)).symm
    rw [settingLe, hsettings] at hperm
    exact hperm.trans (List.mergeSort_perm _ _)
  · have hperm := (List.mergeSort_perm (a.records.map (normalizeRecord toLowerCase toUpperCase))
      (recordLe numberText localeCompare)).symm
    rw [recordLe, hrecords] at hperm
    exact hperm.trans (List.mergeSort_perm _ _)

/-- **A hash tells a zone and nothing else** where what the comparison ties keeps its order; a
normal form is kept where its value is settled; and a zone that was stored hashes alike in
whatever order it comes back exactly where no two of its records that differ are tied. -/
theorem hashZone_identifies_iff (hdigest : Function.Injective digest)
    (hlower : CaseMapping toLowerCase) (hupper : CaseMapping toUpperCase) :
    (∀ a b : Zone,
      (hashZone toLowerCase toUpperCase numberText localeCompare digest a =
          hashZone toLowerCase toUpperCase numberText localeCompare digest b ↔
        a.Same toLowerCase toUpperCase b) ↔
      (a.Same toLowerCase toUpperCase b →
        a.TiesAgree toLowerCase toUpperCase numberText localeCompare b)) ∧
    (∀ record,
      normalizeRecord toLowerCase toUpperCase (normalizeRecord toLowerCase toUpperCase record) =
          normalizeRecord toLowerCase toUpperCase record ↔
        record.Settled toLowerCase toUpperCase) ∧
    ∀ sent : Zone,
      (∀ returned, sent.Returned returned →
        hashZone toLowerCase toUpperCase numberText localeCompare digest returned =
          hashZone toLowerCase toUpperCase numberText localeCompare digest sent) ↔
      sent.Untied toLowerCase toUpperCase numberText localeCompare := by
  refine ⟨fun a b => ?_, normalizeRecord_twice hlower hupper, fun sent => ?_⟩
  · rw [hashZone_eq_iff hdigest]
    exact ⟨fun h => h.mpr, fun h => ⟨Zone.TiesAgree.same, h⟩⟩
  · refine Iff.trans ?_ (mergeSort_order_iff keyLe_trans keyLe_total
      (normalizeRecord toLowerCase toUpperCase))
    constructor
    · intro h records hperm
      have hhash := hdigest (h { sent with records } ⟨hperm, rfl⟩)
      exact congrArg CanonicalZone.records hhash
    · intro h returned hreturned
      have hrecords := h returned.records hreturned.records
      refine congrArg digest ?_
      rw [canonicalZone, canonicalZone, hreturned.settings]
      unfold recordLe
      rw [hrecords]

end

/-! ### Ties -/

/-- Texts compared without their soft hyphens, as collation ignores them. -/
def compareUnhyphenated : String → String → Ordering :=
  compareOn fun s => String.ofList (s.toList.filter (· ≠ '\u00ad'))

instance : Std.TransCmp compareUnhyphenated := by
  unfold compareUnhyphenated
  infer_instance

/-- A zone of these records. -/
def zoneOf (records : List ZoneRecord) : Zone := ⟨records, {}, true⟩

def plainText : ZoneRecord := ⟨"@", "TXT", "v", 300, none⟩

def hyphenatedText : ZoneRecord := ⟨"@", "TXT", "v\u00ad", 300, none⟩

lemma caseMapping_id : CaseMapping id := ⟨fun _ _ _ => rfl, fun _ h => h, rfl⟩

/-- A record in lower case keeps its form, and it and an address come back in either order. -/
theorem hashZone_identifies_one :
    (normalizeRecord id id (normalizeRecord id id plainText) = normalizeRecord id id plainText) ∧
    ∀ returned, (zoneOf [plainText, ⟨"api", "A", "192.0.2.2", 300, none⟩]).Returned returned →
      hashZone id id (fun _ => "300") compareUnhyphenated id returned =
        hashZone id id (fun _ => "300") compareUnhyphenated id
          (zoneOf [plainText, ⟨"api", "A", "192.0.2.2", 300, none⟩]) :=
  have h := @hashZone_identifies_iff id id (fun _ => "300") compareUnhyphenated _ _ id
    Function.injective_id caseMapping_id caseMapping_id
  ⟨(h.2.1 plainText).mpr (fun h => by revert h; decide +kernel),
    (h.2.2 _).mpr (by unfold Zone.Untied; decide +kernel)⟩

/-- Two texts that differ in a soft hyphen hash by the order they are listed in, before a host is
added and after, and an alias with two dots at its end loses them one at a time. -/
theorem not_hashZone_identifies :
    let hash := hashZone id id (fun _ => "300") compareUnhyphenated id
    (¬ ∀ a b : Zone, hash a = hash b ↔ a.Same id id b) ∧
    (¬ ∀ record, normalizeRecord id id (normalizeRecord id id record) =
      normalizeRecord id id record) ∧
    ¬ ∀ (remote : Zone) (changes : List ZoneChange) (supportedTypes : List String)
      (sent returned : Zone),
      mergeZoneChanges id id (fun _ => none) remote changes supportedTypes = .ok sent →
        sent.Returned returned → hash returned = hash sent := by
  intro hash
  have hne (rest : List ZoneRecord)
      (hrest : rest = [] ∨ rest = [⟨"api", "A", "192.0.2.2", 300, none⟩]) :
      hash (zoneOf (hyphenatedText :: plainText :: rest)) ≠
        hash (zoneOf (plainText :: hyphenatedText :: rest)) := by
    intro heq
    have hties := ((hashZone_eq_iff Function.injective_id _ _).mp heq).records plainText
    rcases hrest with rfl | rfl <;> revert hties <;> decide +kernel
  refine ⟨fun h => hne [] (.inl rfl) ((h _ _).mpr ⟨.refl _, .swap _ _ _⟩), fun h => ?_, fun h => ?_⟩
  · have htwice := h ⟨"www", "CNAME", "a..", 300, none⟩
    revert htwice
    decide +kernel
  · refine hne _ (.inr rfl) (h (zoneOf [plainText, hyphenatedText])
      [.add ⟨"api", "A", "192.0.2.2", 300, none⟩] ["A"] _ _ ?_ ⟨.swap _ _ _, rfl⟩)
    decide +kernel

end Tnp.Services
