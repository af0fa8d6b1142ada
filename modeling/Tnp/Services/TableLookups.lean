import Tnp.Services.ErrorCodes

/-!
What a provider's text can make of the tables it is looked up in.

References in text, the status of a domain, the status of a transfer and the number of an error
are all looked up in object literals. A name that every object inherits finds a value there that
nobody wrote; any other text finds an entry or the default.
-/

namespace Tnp.Services

open Tnp.Crypto Tnp.Lib Tnp.Namespace
open Tnp.Operations (ProviderErrorCode)

/-! ### The tables of the registrar -/

inductive PublicDomainLifecycle
  | active | expired | redemption | pending | transferringIn | transferredOut | lockedByRegistry
  | unknown
  deriving DecidableEq

inductive TransferState
  | pending | completed | failed | cancelled | unknown
  deriving DecidableEq

def LIFECYCLE_BY_STATUS : ObjectLiteral JsString PublicDomainLifecycle :=
  literal [("ok", .active), ("active", .active), ("locked", .lockedByRegistry),
    ("expired", .expired)]

def TRANSFER_STATE_BY_ID : ObjectLiteral JsString TransferState :=
  literal [("5", .completed), ("27", .cancelled), ("45", .cancelled), ("0", .pending),
    ("1", .pending), ("3", .pending), ("9", .pending), ("10", .pending), ("11", .pending),
    ("12", .pending), ("13", .pending), ("14", .pending), ("28", .pending), ("29", .pending),
    ("35", .pending), ("-1", .pending), ("-2", .pending), ("-5", .pending), ("2", .failed),
    ("4", .failed), ("8", .failed), ("15", .failed), ("16", .failed), ("17", .failed),
    ("18", .failed), ("19", .failed), ("20", .failed), ("21", .failed), ("22", .failed),
    ("23", .failed), ("24", .failed), ("25", .failed), ("26", .failed), ("30", .failed),
    ("31", .failed), ("32", .failed), ("33", .failed), ("34", .failed), ("36", .failed),
    ("37", .failed), ("48", .failed), ("49", .failed), ("50", .failed), ("51", .failed),
    ("-4", .failed)]

def lifecycleFromStatus (lower : JsString → JsString) (raw : JsString) :
    Property JsString PublicDomainLifecycle :=
  LIFECYCLE_BY_STATUS.getOr (lower (trimUnits raw)) .unknown

def transferState (statusId : JsString) : Property JsString TransferState :=
  TRANSFER_STATE_BY_ID.getOr statusId .unknown

/-! ### What is documented -/

/-- A reference that stands for a text. -/
inductive Reference : JsString → JsString → Prop
  | predefined {name value : JsString} (h : PREDEFINED.entries.lookup name = some value) :
    Reference (spelled name) value
  | hex {digits : JsString} (hne : digits ≠ []) (hd : ∀ u ∈ digits, isHexUnit u = true)
    (hle : parseDigits 16 digits ≤ 0x10ffff) :
    Reference (spelled (35 :: 120 :: digits)) (fromCodePoint (parseDigits 16 digits))
  | decimal {digits : JsString} (hne : digits ≠ []) (hd : ∀ u ∈ digits, isDigitUnit u = true)
    (hle : parseDigits 10 digits ≤ 0x10ffff) :
    Reference (spelled (35 :: digits)) (fromCodePoint (parseDigits 10 digits))

/-- One pass from left to right in which references are replaced and all else stays. -/
inductive Decodes : JsString → JsString → Prop
  | nil : Decodes [] []
  | reference {w v rest out : JsString} (h : Reference w v) (ht : Decodes rest out) :
    Decodes (w ++ rest) (v ++ out)
  | literal {u : UInt16} {rest out : JsString}
    (h : ∀ w v tail, Reference w v → u :: rest ≠ w ++ tail) (ht : Decodes rest out) :
    Decodes (u :: rest) (u :: out)

/-- Text in which every character that needs it is written as a predefined entity. -/
def escapeUnit (u : UInt16) : JsString :=
  if u = 38 then units "&amp;" else if u = 60 then units "&lt;" else if u = 62 then units "&gt;"
  else if u = 34 then units "&quot;" else if u = 39 then units "&apos;" else [u]

def escapeXmlText (t : JsString) : JsString := t.flatMap escapeUnit

def refinedCode (number : JsString) (code : ProviderErrorCode) (description : JsString) :
    ProviderErrorCode :=
  if number = units "2528166" && (testIgnoreCase "insufficient" description ||
      testIgnoreCase "balance" description || testIgnoreCase "funds" description) then
    .insufficientFunds
  else if number = units "4011103" && namesUser description then .credentials
  else code

/-- The code that the table and its rules give a number. -/
def documentedCode (number description : JsString) (mutating : Bool) : ProviderErrorCode :=
  let entry := ERROR_NUMBERS.entries.lookup number
  let providerSide := beginsWith "345" number && !MUTATION_REFUSALS.contains number
  if mutating && (providerSide || (entry.isNone && !beginsWith "12" number)) then .unknownOutcome
  else (entry.map fun code => refinedCode number code description).getD .permanent

/-- Somewhere the text has a reference to a name that objects inherit. -/
def NamesInherited (s : JsString) : Prop :=
  ∃ before after, ∃ name ∈ OBJECT_PROTOTYPE, name.all isLetterUnit = true ∧
    s = before ++ (spelled name ++ after)

/-! ### The shape of a reference -/

/-- What can stand between the ampersand and the semicolon. -/
def Shape (ref : JsString) : Prop :=
  (∃ digits, ref = 35 :: 120 :: digits ∧ digits ≠ [] ∧ ∀ u ∈ digits, isHexUnit u = true) ∨
    (∃ digits, ref = 35 :: digits ∧ digits ≠ [] ∧ ∀ u ∈ digits, isDigitUnit u = true) ∨
    (ref ≠ [] ∧ ∀ u ∈ ref, isLetterUnit u = true)

lemma runOf_eq_some {p : UInt16 → Bool} (hp : p 59 = false) {s run : JsString} :
    runOf p s = some run ↔
      run ≠ [] ∧ (∀ u ∈ run, p u = true) ∧ ∃ rest, s = run ++ 59 :: rest := by
  have hsplit : s.takeWhile p ++ s.dropWhile p = s := List.takeWhile_append_dropWhile
  have hall : ∀ u ∈ s.takeWhile p, p u = true := fun u hu => List.mem_takeWhile_imp hu
  constructor
  · intro h
    unfold runOf at h
    split at h
    · next u run' rest htake hdrop =>
      cases h
      exact ⟨by simp, htake ▸ hall, rest, by rw [← htake, ← hdrop, hsplit]⟩
    · cases h
  · rintro ⟨hne, hrun, rest, rfl⟩
    obtain ⟨u, run, rfl⟩ := List.exists_cons_of_ne_nil hne
    have htake : (u :: run ++ 59 :: rest).takeWhile p = u :: run := by
      rw [List.takeWhile_append_of_pos hrun, List.takeWhile_cons_of_neg (by simp [hp]),
        List.append_nil]
    have hdrop : (u :: run ++ 59 :: rest).dropWhile p = 59 :: rest := by
      rw [List.dropWhile_append_of_pos hrun, List.dropWhile_cons_of_neg (by simp [hp])]
    rw [runOf, htake, hdrop]
    rfl

/-- A match is a reference of the right shape at the front. -/
lemma matchReference_eq_some {s ref : JsString} :
    matchReference s = some ref ↔ Shape ref ∧ ∃ rest, s = spelled ref ++ rest := by
  constructor
  · intro h
    unfold matchReference at h
    split at h
    · next rest =>
      obtain ⟨run, hrun, rfl⟩ := Option.map_eq_some_iff.mp h
      obtain ⟨hne, hall, tail, rfl⟩ := (runOf_eq_some rfl).mp hrun
      exact ⟨.inl ⟨run, rfl, hne, hall⟩, tail, by simp [spelled]⟩
    · next rest _ =>
      obtain ⟨run, hrun, rfl⟩ := Option.map_eq_some_iff.mp h
      obtain ⟨hne, hall, tail, rfl⟩ := (runOf_eq_some rfl).mp hrun
      exact ⟨.inr (.inl ⟨run, rfl, hne, hall⟩), tail, by simp [spelled]⟩
    · next rest _ _ =>
      obtain ⟨hne, hall, tail, rfl⟩ := (runOf_eq_some rfl).mp h
      exact ⟨.inr (.inr ⟨hne, hall⟩), tail, by simp [spelled]⟩
    · cases h
  · rintro ⟨hshape, rest, rfl⟩
    rcases hshape with ⟨digits, rfl, hne, hall⟩ | ⟨digits, rfl, hne, hall⟩ | ⟨hne, hall⟩
    · have hrun : runOf isHexUnit (digits ++ 59 :: rest) = some digits :=
        (runOf_eq_some rfl).mpr ⟨hne, hall, rest, rfl⟩
      simp [spelled, matchReference, hrun]
    · have hrun : runOf isDigitUnit (digits ++ 59 :: rest) = some digits :=
        (runOf_eq_some rfl).mpr ⟨hne, hall, rest, rfl⟩
      obtain ⟨d, digits, rfl⟩ := List.exists_cons_of_ne_nil hne
      have hd : d ≠ 120 := by
        rintro rfl
        exact absurd (hall 120 List.mem_cons_self) (by decide)
      simp only [spelled, List.cons_append, List.append_assoc, List.nil_append] at hrun ⊢
      rw [matchReference, hrun]
      · rfl
      · intro tail h
        exact hd (List.cons.inj h).1
    · obtain ⟨c, ref, rfl⟩ := List.exists_cons_of_ne_nil hne
      have hrun : runOf isLetterUnit (c :: ref ++ 59 :: rest) = some (c :: ref) :=
        (runOf_eq_some rfl).mpr ⟨hne, hall, rest, rfl⟩
      have hc : c ≠ 35 := by
        rintro rfl
        exact absurd (hall 35 List.mem_cons_self) (by decide)
      simp only [spelled, List.cons_append, List.append_assoc, List.nil_append] at hrun ⊢
      rw [matchReference, hrun]
      · intro tail h
        exact hc (List.cons.inj h).1
      · intro tail h
        exact hc (List.cons.inj h).1

/-- Behind its ampersand a reference has none. -/
lemma Shape.ne_ampersand {ref : JsString} (h : Shape ref) {u : UInt16} (hu : u ∈ ref ++ [59]) :
    u ≠ 38 := by
  rintro rfl
  rw [List.mem_append] at hu
  rcases hu with hu | hu
  · rcases h with ⟨digits, rfl, _, hall⟩ | ⟨digits, rfl, _, hall⟩ | ⟨_, hall⟩
    · simp only [List.mem_cons] at hu
      rcases hu with hu | hu | hu
      · exact absurd hu (by decide)
      · exact absurd hu (by decide)
      · exact absurd (hall 38 hu) (by decide)
    · simp only [List.mem_cons] at hu
      rcases hu with hu | hu
      · exact absurd hu (by decide)
      · exact absurd (hall 38 hu) (by decide)
    · exact absurd (hall 38 hu) (by decide)
  · exact absurd hu (by decide)

/-- The same reference is at the front however the text is cut. -/
lemma spelled_append_inj {ref ref' rest rest' : JsString} (h : Shape ref) (h' : Shape ref')
    (heq : spelled ref ++ rest = spelled ref' ++ rest') : ref = ref' ∧ rest = rest' := by
  have hm : matchReference (spelled ref ++ rest) = some ref :=
    matchReference_eq_some.mpr ⟨h, rest, rfl⟩
  have hm' : matchReference (spelled ref ++ rest) = some ref' :=
    matchReference_eq_some.mpr ⟨h', rest', heq⟩
  have href : ref = ref' := Option.some.inj (hm.symm.trans hm')
  subst href
  exact ⟨rfl, List.append_cancel_left heq⟩

lemma predefined_names : ∀ e ∈ PREDEFINED.entries,
    e.1 ≠ [] ∧ e.1.all isLetterUnit = true := by decide

lemma plain_predefined : PREDEFINED.Plain := by decide

lemma Reference.shape {w v : JsString} (h : Reference w v) :
    ∃ ref, w = spelled ref ∧ Shape ref := by
  cases h with
  | @predefined name _ h =>
    obtain ⟨hne, hall⟩ := predefined_names (name, v) (ObjectLiteral.mem_of_lookup h)
    exact ⟨name, rfl, .inr (.inr ⟨hne, by simpa using hall⟩)⟩
  | @hex digits hne hd hle => exact ⟨_, rfl, .inl ⟨digits, rfl, hne, hd⟩⟩
  | @decimal digits hne hd hle => exact ⟨_, rfl, .inr (.inl ⟨digits, rfl, hne, hd⟩)⟩

lemma spelled_inj {ref ref' : JsString} (h : spelled ref = spelled ref') : ref = ref' :=
  List.append_cancel_right (List.cons.inj h).2

/-! ### What is put in the place of a reference -/

variable (nativeCode : JsString → JsString)

lemma replacement_hex (digits whole : JsString) :
    replacement nativeCode (35 :: 120 :: digits) whole =
      codePointOrLiteral (parseDigits 16 digits) whole := by
  have hx : units "#x" = [35, 120] := by decide
  simp [replacement, hx]

lemma replacement_decimal {digits : JsString} (hd : ∀ u ∈ digits, isDigitUnit u = true)
    (whole : JsString) : replacement nativeCode (35 :: digits) whole =
      codePointOrLiteral (parseDigits 10 digits) whole := by
  have hx : units "#x" = [35, 120] := by decide
  have hX : units "#X" = [35, 88] := by decide
  have hhash : units "#" = [35] := by decide
  cases digits with
  | nil => simp [replacement, hx, hX, hhash]
  | cons d digits =>
    have hdigit := hd d List.mem_cons_self
    have h120 : (120 == d) = false := by
      rw [beq_eq_false_iff_ne]
      rintro rfl
      exact absurd hdigit (by decide)
    have h88 : (88 == d) = false := by
      rw [beq_eq_false_iff_ne]
      rintro rfl
      exact absurd hdigit (by decide)
    simp [replacement, hx, hX, hhash, List.isPrefixOf, h120, h88]

lemma replacement_letters {ref : JsString} (hne : ref ≠ [])
    (hall : ∀ u ∈ ref, isLetterUnit u = true) (whole : JsString) :
    replacement nativeCode ref whole =
      match PREDEFINED.get ref with
      | some (.own value) => value
      | some (.inherited name) => functionText nativeCode name
      | none => whole := by
  have hx : units "#x" = [35, 120] := by decide
  have hX : units "#X" = [35, 88] := by decide
  have hhash : units "#" = [35] := by decide
  obtain ⟨c, ref, rfl⟩ := List.exists_cons_of_ne_nil hne
  have hc : (35 == c) = false := by
    rw [beq_eq_false_iff_ne]
    rintro rfl
    exact absurd (hall 35 List.mem_cons_self) (by decide)
  simp [replacement, hx, hX, hhash, List.isPrefixOf, hc] <;> rfl

lemma Reference.replacement_eq {ref v : JsString} (h : Reference (spelled ref) v) :
    replacement nativeCode ref (spelled ref) = v := by
  generalize hw : spelled ref = w at h
  cases h with
  | @predefined name _ h =>
    obtain rfl := spelled_inj hw
    obtain ⟨hne, hall⟩ := predefined_names (ref, v) (ObjectLiteral.mem_of_lookup h)
    rw [replacement_letters nativeCode hne (by simpa using hall),
      ObjectLiteral.get_eq_own.mpr h]
  | @hex digits hne hd hle =>
    obtain rfl := spelled_inj hw
    rw [replacement_hex, codePointOrLiteral, if_neg (by omega)]
  | @decimal digits hne hd hle =>
    obtain rfl := spelled_inj hw
    rw [replacement_decimal nativeCode hd, codePointOrLiteral, if_neg (by omega)]

lemma prototype_names : ∀ name ∈ OBJECT_PROTOTYPE, name ≠ [] ∧ name.head? ≠ some 35 ∧
    beginsWith "12345" name = false := by decide

/-- A name that objects inherit is no reference. -/
lemma not_reference_of_inherited {name v : JsString} (h : name ∈ OBJECT_PROTOTYPE) :
    ¬ Reference (spelled name) v := by
  obtain ⟨_, hhead, _⟩ := prototype_names name h
  generalize hw : spelled name = w
  intro href
  cases href with
  | predefined hp =>
    obtain rfl := spelled_inj hw
    rw [plain_predefined name h] at hp
    cases hp
  | hex =>
    obtain rfl := spelled_inj hw
    exact hhead rfl
  | decimal =>
    obtain rfl := spelled_inj hw
    exact hhead rfl

lemma not_inherited_of_hash {digits : JsString} : 35 :: digits ∉ OBJECT_PROTOTYPE :=
  fun h => (prototype_names _ h).2.1 rfl

/-- The names of the predefined entities begin with no number sign. -/
lemma predefined_ne_hash {name digits v : JsString}
    (h : PREDEFINED.entries.lookup name = some v) : name ≠ 35 :: digits := by
  rintro rfl
  have hall := (predefined_names _ (ObjectLiteral.mem_of_lookup h)).2
  simp [isLetterUnit] at hall

lemma not_reference_hex {digits v : JsString} (h : parseDigits 16 digits > 0x10ffff) :
    ¬ Reference (spelled (35 :: 120 :: digits)) v := by
  generalize hw : spelled (35 :: 120 :: digits) = w
  intro href
  cases href with
  | predefined hp => exact predefined_ne_hash hp (spelled_inj hw).symm
  | hex hne hd hle =>
    obtain rfl : digits = _ := (List.cons.inj (List.cons.inj (spelled_inj hw)).2).2
    omega
  | decimal hne hd hle =>
    have heq := (List.cons.inj (spelled_inj hw)).2
    exact absurd (hd 120 (heq ▸ List.mem_cons_self)) (by decide)

lemma not_reference_decimal {digits v : JsString} (hall : ∀ u ∈ digits, isDigitUnit u = true)
    (h : parseDigits 10 digits > 0x10ffff) : ¬ Reference (spelled (35 :: digits)) v := by
  generalize hw : spelled (35 :: digits) = w
  intro href
  cases href with
  | predefined hp => exact predefined_ne_hash hp (spelled_inj hw).symm
  | hex hne hd hle =>
    have heq := (List.cons.inj (spelled_inj hw)).2
    exact absurd (hall 120 (heq ▸ List.mem_cons_self)) (by decide)
  | decimal hne hd hle =>
    obtain rfl : digits = _ := (List.cons.inj (spelled_inj hw)).2
    omega

lemma not_reference_letters {ref v : JsString} (hall : ∀ u ∈ ref, isLetterUnit u = true)
    (h : PREDEFINED.entries.lookup ref = none) : ¬ Reference (spelled ref) v := by
  generalize hw : spelled ref = w
  intro href
  cases href with
  | predefined hp =>
    obtain rfl := spelled_inj hw
    exact absurd (h.symm.trans hp) (by simp)
  | hex hne hd hle =>
    obtain rfl := spelled_inj hw
    exact absurd (hall 35 List.mem_cons_self) (by decide)
  | decimal hne hd hle =>
    obtain rfl := spelled_inj hw
    exact absurd (hall 35 List.mem_cons_self) (by decide)

/-- A match is a reference, or the name of an inherited method, or it is left as it stands. -/
lemma replacement_cases {ref : JsString} (h : Shape ref) :
    Reference (spelled ref) (replacement nativeCode ref (spelled ref)) ∨
      (ref ∈ OBJECT_PROTOTYPE ∧ ref.all isLetterUnit = true ∧
        replacement nativeCode ref (spelled ref) = functionText nativeCode ref) ∨
      (ref ∉ OBJECT_PROTOTYPE ∧ replacement nativeCode ref (spelled ref) = spelled ref ∧
        ∀ v, ¬ Reference (spelled ref) v) := by
  rcases h with ⟨digits, rfl, hne, hall⟩ | ⟨digits, rfl, hne, hall⟩ | ⟨hne, hall⟩
  · rw [replacement_hex, codePointOrLiteral]
    split
    · next h => exact .inr (.inr ⟨not_inherited_of_hash, rfl, fun v => not_reference_hex h⟩)
    · next h => exact .inl (.hex hne hall (by omega))
  · rw [replacement_decimal nativeCode hall, codePointOrLiteral]
    split
    · next h =>
      exact .inr (.inr ⟨not_inherited_of_hash, rfl, fun v => not_reference_decimal hall h⟩)
    · next h => exact .inl (.decimal hne hall (by omega))
  · rw [replacement_letters nativeCode hne hall]
    by_cases hproto : ref ∈ OBJECT_PROTOTYPE
    · rw [ObjectLiteral.get_eq_inherited plain_predefined hproto]
      exact .inr (.inl ⟨hproto, by simpa using hall, rfl⟩)
    · cases hlookup : PREDEFINED.entries.lookup ref with
      | some value =>
        rw [ObjectLiteral.get_eq_own.mpr hlookup]
        exact .inl (.predefined hlookup)
      | none =>
        rw [ObjectLiteral.get_eq_none.mpr ⟨hlookup, hproto⟩]
        exact .inr (.inr ⟨hproto, rfl, fun v => not_reference_letters hall hlookup⟩)

/-! ### The pass -/

lemma Decodes.of_reference {w v rest out : JsString} (hw : Reference w v)
    (h : Decodes (w ++ rest) out) : ∃ tail, out = v ++ tail ∧ Decodes rest tail := by
  obtain ⟨ref, rfl, hshape⟩ := hw.shape
  generalize hs : spelled ref ++ rest = s at h
  cases h with
  | nil => simp [spelled] at hs
  | @reference w' v' rest' out' hw' ht =>
    obtain ⟨ref', rfl, hshape'⟩ := hw'.shape
    obtain ⟨rfl, rfl⟩ := spelled_append_inj hshape hshape' hs
    have hv : v = v' := by
      rw [← hw.replacement_eq id, ← hw'.replacement_eq id]
    exact ⟨out', by rw [hv], ht⟩
  | literal hno ht => exact absurd hs.symm (hno _ _ _ hw)

lemma Decodes.of_literal {u : UInt16} {rest out : JsString}
    (hno : ∀ w v tail, Reference w v → u :: rest ≠ w ++ tail) (h : Decodes (u :: rest) out) :
    ∃ tail, out = u :: tail ∧ Decodes rest tail := by
  generalize hs : u :: rest = s at h
  cases h with
  | nil => cases hs
  | reference hw ht => exact absurd hs (hno _ _ _ hw)
  | @literal u' rest' out' _ ht =>
    cases hs
    exact ⟨out', rfl, ht⟩

/-- A reference begins with an ampersand. -/
lemma no_reference_of_ne {u : UInt16} {rest : JsString} (hu : u ≠ 38) (w v tail : JsString)
    (hw : Reference w v) : u :: rest ≠ w ++ tail := by
  obtain ⟨ref, rfl, _⟩ := hw.shape
  intro h
  exact hu (List.cons.inj h).1

lemma decodes_literal_iff {u : UInt16} {rest out : JsString}
    (hno : ∀ w v tail, Reference w v → u :: rest ≠ w ++ tail) :
    Decodes (u :: rest) (u :: out) ↔ Decodes rest out := by
  refine ⟨fun h => ?_, .literal hno⟩
  obtain ⟨tail, heq, ht⟩ := h.of_literal hno
  rwa [(List.cons.inj heq).2]

/-- Text without ampersands is passed over. -/
lemma decodes_append_iff {w rest out : JsString} (hw : ∀ u ∈ w, u ≠ 38) :
    Decodes (w ++ rest) (w ++ out) ↔ Decodes rest out := by
  induction w with
  | nil => rfl
  | cons u w ih =>
    obtain ⟨hu, hw⟩ := List.forall_mem_cons.mp hw
    rw [List.cons_append, List.cons_append, decodes_literal_iff (no_reference_of_ne hu), ih hw]

lemma no_reference_of_spelled {ref : JsString} (rest : JsString) (hshape : Shape ref)
    (hno : ∀ v, ¬ Reference (spelled ref) v) (w v tail : JsString) (hw : Reference w v) :
    spelled ref ++ rest ≠ w ++ tail := by
  obtain ⟨ref', rfl, hshape'⟩ := hw.shape
  intro h
  obtain ⟨rfl, _⟩ := spelled_append_inj hshape hshape' h
  exact hno v hw

/-- A match that is no reference is passed over. -/
lemma decodes_spelled_iff {ref rest out : JsString} (hshape : Shape ref)
    (hno : ∀ v, ¬ Reference (spelled ref) v) :
    Decodes (spelled ref ++ rest) (spelled ref ++ out) ↔ Decodes rest out := by
  have hfront := no_reference_of_spelled rest hshape hno
  have hcons : ∀ tail, spelled ref ++ tail = 38 :: (ref ++ [59] ++ tail) := fun _ => rfl
  rw [hcons] at hfront
  calc Decodes (spelled ref ++ rest) (spelled ref ++ out)
      ↔ Decodes (38 :: (ref ++ [59] ++ rest)) (38 :: (ref ++ [59] ++ out)) := by rw [hcons, hcons]
    _ ↔ Decodes (ref ++ [59] ++ rest) (ref ++ [59] ++ out) := decodes_literal_iff hfront
    _ ↔ Decodes rest out := decodes_append_iff fun u hu => hshape.ne_ampersand hu

lemma Shape.of_inherited {name : JsString} (h : name ∈ OBJECT_PROTOTYPE)
    (hall : name.all isLetterUnit = true) : Shape name :=
  .inr (.inr ⟨(prototype_names name h).1, by simpa using hall⟩)

/-- A name that is inherited is found behind what is no such name. -/
lemma namesInherited_append_iff {w rest : JsString}
    (hw : ∀ name ∈ OBJECT_PROTOTYPE, ∀ tail, name.all isLetterUnit = true →
      w ++ rest ≠ spelled name ++ tail) (hamp : ∀ u ∈ w.tail, u ≠ 38) :
    NamesInherited (w ++ rest) ↔ NamesInherited rest := by
  constructor
  · rintro ⟨before, after, name, hname, hall, heq⟩
    rcases List.append_eq_append_iff.mp heq with ⟨more, rfl, hrest⟩ | ⟨more, rfl, hrest⟩
    · exact ⟨more, after, name, hname, hall, hrest⟩
    · cases more with
      | nil => exact ⟨[], after, name, hname, hall, by simpa using hrest.symm⟩
      | cons u more =>
        have hu : u = 38 := (List.cons.inj hrest).1.symm
        cases before with
        | nil => exact absurd heq (hw name hname after hall)
        | cons b before => exact absurd hu (hamp u (by simp))
  · rintro ⟨before, after, name, hname, hall, rfl⟩
    exact ⟨w ++ before, after, name, hname, hall, by simp⟩

lemma decodeMatch_eq_some {s new : JsString} {n : ℕ} :
    decodeMatch nativeCode s = some (n, new) ↔ ∃ ref, matchReference s = some ref ∧
      n = (spelled ref).length ∧ new = replacement nativeCode ref (spelled ref) := by
  rw [decodeMatch, Option.map_eq_some_iff]
  simp [eq_comm]

lemma decodeMatch_inside : Inside (decodeMatch nativeCode) := by
  intro s n new h
  obtain ⟨ref, hmatch, rfl, rfl⟩ := (decodeMatch_eq_some nativeCode).mp h
  obtain ⟨_, rest, rfl⟩ := matchReference_eq_some.mp hmatch
  exact ⟨by simp [spelled], by simp⟩

lemma decodeXmlText_spelled {ref : JsString} (h : Shape ref) (rest : JsString) :
    decodeXmlText nativeCode (spelled ref ++ rest) =
      replacement nativeCode ref (spelled ref) ++ decodeXmlText nativeCode rest := by
  refine replaceAll_of_match (by simp [spelled]) ?_
  exact (decodeMatch_eq_some nativeCode).mpr
    ⟨ref, matchReference_eq_some.mpr ⟨h, rest, rfl⟩, rfl, rfl⟩

lemma decodeXmlText_literal {u : UInt16} {rest : JsString} (h : matchReference (u :: rest) = none) :
    decodeXmlText nativeCode (u :: rest) = u :: decodeXmlText nativeCode rest :=
  replaceAll_of_none (by rw [decodeMatch, h]; rfl)

/-- **References are decoded as documented in every text that names nothing inherited.** -/
theorem decodes_decodeXmlText_iff (s : JsString) :
    Decodes s (decodeXmlText nativeCode s) ↔ ¬ NamesInherited s := by
  induction s using replace_induction (decodeMatch_inside nativeCode) with
  | nil =>
    refine iff_of_true .nil ?_
    rintro ⟨before, after, name, _, _, heq⟩
    simp [spelled] at heq
  | matched w rest new hne hmatch ih =>
    obtain ⟨ref, hmatch, hlen, -⟩ := (decodeMatch_eq_some nativeCode).mp hmatch
    obtain ⟨hshape, tail, heq⟩ := matchReference_eq_some.mp hmatch
    obtain ⟨rfl, rfl⟩ := List.append_inj heq hlen
    have hinherited : ref ∉ OBJECT_PROTOTYPE →
        (NamesInherited (spelled ref ++ rest) ↔ NamesInherited rest) := by
      intro hproto
      refine namesInherited_append_iff ?_ (fun u hu => hshape.ne_ampersand hu)
      intro name hname tail hall h
      obtain ⟨rfl, _⟩ := spelled_append_inj hshape (.of_inherited hname hall) h
      exact hproto hname
    rw [decodeXmlText_spelled nativeCode hshape]
    rcases replacement_cases nativeCode hshape with
      href | ⟨hproto, hall, hfun⟩ | ⟨hproto, hlit, hno⟩
    · have hproto : ref ∉ OBJECT_PROTOTYPE := fun h => not_reference_of_inherited h href
      rw [hinherited hproto, ← ih]
      refine ⟨fun h => ?_, .reference href⟩
      obtain ⟨tail, htail, ht⟩ := h.of_reference href
      rwa [List.append_cancel_left htail]
    · -- the output begins with the text of a function, where the ampersand should be
      refine iff_of_false ?_ (not_not.mpr ⟨[], rest, ref, hproto, hall, rfl⟩)
      intro h
      have hno := no_reference_of_spelled rest hshape
        fun v => not_reference_of_inherited hproto
      obtain ⟨tail, htail, _⟩ := Decodes.of_literal hno h
      have hf : units "function" = 102 :: units "unction" := by decide
      rw [hfun, functionText, hf] at htail
      exact absurd (List.cons.inj htail).1 (by decide)
    · rw [hlit, decodes_spelled_iff hshape hno, hinherited hproto, ih]
  | literal u rest hnone ih =>
    have hmatch : matchReference (u :: rest) = none := by
      simpa [decodeMatch] using hnone
    have hfront : ∀ ref tail, Shape ref → u :: rest ≠ spelled ref ++ tail := by
      intro ref tail hshape h
      have hsome := matchReference_eq_some.mpr ⟨hshape, tail, h⟩
      exact absurd (hmatch.symm.trans hsome) (by simp)
    rw [decodeXmlText_literal nativeCode hmatch, decodes_literal_iff, ih]
    · refine not_congr (namesInherited_append_iff (w := [u]) ?_ (by simp)).symm
      intro name hname tail hall
      exact hfront name tail (.of_inherited hname hall)
    · intro w v tail hw
      obtain ⟨ref, rfl, hshape⟩ := hw.shape
      exact hfront ref tail hshape

/-- What is escaped is a reference to itself, and nothing else begins with an ampersand. -/
lemma decodeXmlText_escapeUnit (u : UInt16) (rest : JsString) :
    decodeXmlText nativeCode (escapeUnit u ++ rest) = u :: decodeXmlText nativeCode rest := by
  have hentity : ∀ name, PREDEFINED.entries.lookup name = some [u] →
      decodeXmlText nativeCode (spelled name ++ rest) = u :: decodeXmlText nativeCode rest := by
    intro name h
    obtain ⟨hne, hall⟩ := predefined_names _ (ObjectLiteral.mem_of_lookup h)
    rw [decodeXmlText_spelled nativeCode (.inr (.inr ⟨hne, by simpa using hall⟩)),
      (Reference.predefined h).replacement_eq]
    rfl
  have hamp : units "&amp;" = spelled (units "amp") := by decide
  have hlt : units "&lt;" = spelled (units "lt") := by decide
  have hgt : units "&gt;" = spelled (units "gt") := by decide
  have hquot : units "&quot;" = spelled (units "quot") := by decide
  have hapos : units "&apos;" = spelled (units "apos") := by decide
  unfold escapeUnit
  split_ifs with h1 h2 h3 h4 h5
  · rw [hamp]
    exact hentity _ (by subst h1; decide)
  · rw [hlt]
    exact hentity _ (by subst h2; decide)
  · rw [hgt]
    exact hentity _ (by subst h3; decide)
  · rw [hquot]
    exact hentity _ (by subst h4; decide)
  · rw [hapos]
    exact hentity _ (by subst h5; decide)
  · refine decodeXmlText_literal nativeCode ?_
    change matchReference (u :: rest) = none
    cases hmatch : matchReference (u :: rest) with
    | none => rfl
    | some ref =>
      obtain ⟨_, tail, heq⟩ := matchReference_eq_some.mp hmatch
      exact absurd (List.cons.inj heq).1 h1

/-- **Escaped text reads back as it was.** -/
theorem decodeXmlText_escapeXmlText (t : JsString) :
    decodeXmlText nativeCode (escapeXmlText t) = t := by
  induction t with
  | nil => rfl
  | cons u t ih =>
    have happ : escapeXmlText (u :: t) = escapeUnit u ++ escapeXmlText t := rfl
    rw [happ, decodeXmlText_escapeUnit, ih]

/-! ### Error numbers -/

lemma plain_errorNumbers : ERROR_NUMBERS.Plain := by decide

lemma refineByDescription_own (number : JsString) (code : ProviderErrorCode)
    (description : JsString) : refineByDescription number (.own code) description =
      .own (refinedCode number code description) := by
  unfold refineByDescription refinedCode
  split_ifs <;> rfl

lemma beginsWith_mono {digits more : String} {number : JsString}
    (h : (units digits).all (units more).contains = true) (hb : beginsWith digits number = true) :
    beginsWith more number = true := by
  cases number with
  | nil => exact hb
  | cons u number =>
    simp only [beginsWith, List.contains_iff_mem] at hb
    exact List.all_eq_true.mp h u hb

/-- An inherited name has the code of no number, and refers to no rule about numbers. -/
lemma classify_inherited {number : JsString} (h : number ∈ OBJECT_PROTOTYPE)
    (description : JsString) (mutating : Bool) :
    classifyErrorNumber number description mutating = ⟨.inherited number, number⟩ := by
  have hplain : ∀ name ∈ OBJECT_PROTOTYPE, beginsWith "345" name = false ∧
      name ≠ units "2528166" ∧ name ≠ units "4011103" := by decide
  obtain ⟨hside, hfunds, huser⟩ := hplain number h
  have hget := ObjectLiteral.get_eq_inherited plain_errorNumbers h
  simp [classifyErrorNumber, hget, hside, refineByDescription, hfunds, huser]

lemma classify_of_not_inherited {number : JsString} (h : number ∉ OBJECT_PROTOTYPE)
    (description : JsString) (mutating : Bool) :
    classifyErrorNumber number description mutating =
      ⟨.own (documentedCode number description mutating), number⟩ := by
  unfold classifyErrorNumber documentedCode
  cases hlookup : ERROR_NUMBERS.entries.lookup number with
  | some code =>
    rw [ObjectLiteral.get_eq_own.mpr hlookup]
    simp only [refineByDescription_own, Option.isNone_some, Option.map_some, Option.getD_some]
    split_ifs <;> rfl
  | none =>
    rw [ObjectLiteral.get_eq_none.mpr ⟨hlookup, h⟩]
    simp only [Option.isNone_none, Option.map_none, Option.getD_none]
    split_ifs <;> rfl

/--
**Text from the provider is looked up in the tables and nowhere else, as long as it names nothing
that objects inherit.** What is escaped always reads back.
-/
theorem provider_lookups_exact (lower : JsString → JsString)
    (value escaped status statusId number description : JsString) (mutating : Bool) :
    (Decodes value (decodeXmlText nativeCode value) ↔ ¬ NamesInherited value) ∧
      decodeXmlText nativeCode (escapeXmlText escaped) = escaped ∧
      (lifecycleFromStatus lower status =
          .own (LIFECYCLE_BY_STATUS.entryOr (lower (trimUnits status)) .unknown) ↔
        lower (trimUnits status) ∉ OBJECT_PROTOTYPE) ∧
      (transferState statusId = .own (TRANSFER_STATE_BY_ID.entryOr statusId .unknown) ↔
        statusId ∉ OBJECT_PROTOTYPE) ∧
      ((classifyErrorNumber number description mutating).code =
          .own (documentedCode number description mutating) ↔ number ∉ OBJECT_PROTOTYPE) := by
  refine ⟨decodes_decodeXmlText_iff nativeCode value,
    decodeXmlText_escapeXmlText nativeCode escaped, ?_, ?_, ?_⟩
  · have hplain : LIFECYCLE_BY_STATUS.Plain := by decide
    exact ObjectLiteral.getOr_exact hplain
  · have hplain : TRANSFER_STATE_BY_ID.Plain := by decide
    exact ObjectLiteral.getOr_exact hplain
  · constructor
    · intro h hproto
      rw [classify_inherited hproto] at h
      cases h
    · intro h
      rw [classify_of_not_inherited h]

/-- The text of a function as it is in the runtime of the program. -/
def bunCode (_ : JsString) : JsString := units " Object() \x7b\n    [native code]\n\x7d"

/-- An unknown entity, an unknown status and an unknown number are all called `constructor`. -/
theorem provider_lookups_inherited :
    ¬ Decodes (units "&constructor;") (decodeXmlText bunCode (units "&constructor;")) ∧
      decodeXmlText bunCode (units "&constructor;") =
        units "function Object() \x7b\n    [native code]\n\x7d" ∧
      lifecycleFromStatus id (units "constructor") ≠ .own .unknown ∧
      transferState (units "constructor") ≠ .own .unknown ∧
      (classifyErrorNumber (units "constructor") [] true).code ≠ .own .unknownOutcome := by
  refine ⟨?_, by decide, by decide, by decide, by decide⟩
  rw [decodes_decodeXmlText_iff, not_not]
  exact ⟨[], [], units "constructor", by decide, by decide, by decide⟩

end Tnp.Services
