import Mathlib.Data.List.Induction
import Mathlib.Tactic.Lemma
import Mathlib.Tactic.Ring
import Tnp.Lib.Separated

/-!
The text forms of IPv6 addresses, as in section 2.2 of RFC 4291.

A form is what a text spells: groups of hexadecimal digits, perhaps a `::` among them, and perhaps
the last 32 bits as a dotted quad. A text spells one form at most, so it denotes one address at
most, while an address has many texts.
-/

namespace Tnp.Lib

/-! ### Texts cut at a doubled separator -/

section

variable {α : Type*} [DecidableEq α]

/-- What is before and after the first two separators in a row. -/
def cutPair (sep : α) : List α → Option (List α × List α)
  | a :: b :: rest =>
    if a = sep ∧ b = sep then some ([], rest)
    else (cutPair sep (b :: rest)).map fun cut => (a :: cut.1, cut.2)
  | _ => none

/-- The parts of a text between separators, of which an empty text has none. -/
def partsOf (sep : α) (cs : List α) : List (List α) := if cs = [] then [] else cs.splitOn sep

variable {sep : α} {part cs after : List α} {parts : List (List α)}

lemma cutPair_cons_of_ne {c : α} (hc : c ≠ sep) :
    cutPair sep (c :: cs) = (cutPair sep cs).map fun cut => (c :: cut.1, cut.2) := by
  cases cs with
  | nil => rfl
  | cons b rest => rw [cutPair, if_neg fun h => hc h.1]

lemma cutPair_append (hpart : sep ∉ part) :
    cutPair sep (part ++ cs) = (cutPair sep cs).map fun cut => (part ++ cut.1, cut.2) := by
  induction part with
  | nil => simp
  | cons c part ih =>
    obtain ⟨hc, hpart⟩ := not_or.mp (mt List.mem_cons.mpr hpart)
    rw [List.cons_append, cutPair_cons_of_ne (Ne.symm hc), ih hpart, Option.map_map]
    rfl

lemma cutPair_sep_cons {c : α} (hc : c ≠ sep) :
    cutPair sep (sep :: c :: cs) =
      (cutPair sep (c :: cs)).map fun cut => (sep :: cut.1, cut.2) := by
  rw [cutPair, if_neg fun h => hc h.2]

/-- Parts, none of them empty, and what may stand between them. -/
structure Parted (sep : α) (parts : List (List α)) : Prop where
  ne_nil : ∀ part ∈ parts, part ≠ []
  notMem : ∀ part ∈ parts, sep ∉ part

omit [DecidableEq α] in
lemma Parted.cons (h : Parted sep (part :: parts)) : (part ≠ [] ∧ sep ∉ part) ∧ Parted sep parts :=
  ⟨⟨h.ne_nil part List.mem_cons_self, h.notMem part List.mem_cons_self⟩,
    fun p hp => h.ne_nil p (List.mem_cons_of_mem _ hp),
    fun p hp => h.notMem p (List.mem_cons_of_mem _ hp)⟩

/-- Parts joined by one separator each are not cut between. -/
lemma Parted.cutPair_intercalate (h : Parted sep parts) :
    cutPair sep ([sep].intercalate parts ++ cs) =
      (cutPair sep cs).map fun cut => ([sep].intercalate parts ++ cut.1, cut.2) := by
  induction parts with
  | nil => simp
  | cons part parts ih =>
    obtain ⟨⟨hne, hpart⟩, hparts⟩ := h.cons
    by_cases hnil : parts = []
    · subst hnil
      rw [List.intercalate_singleton, cutPair_append hpart]
    · rw [List.intercalate_cons_of_ne_nil hnil, List.append_assoc, List.append_assoc,
        cutPair_append hpart, List.singleton_append]
      obtain ⟨next, rest, rfl⟩ := List.exists_cons_of_ne_nil hnil
      obtain ⟨⟨hnext, hfree⟩, -⟩ := hparts.cons
      obtain ⟨c, next, rfl⟩ := List.exists_cons_of_ne_nil hnext
      have hc : c ≠ sep := fun heq => hfree (heq ▸ List.mem_cons_self)
      have hhead : ([sep].intercalate ((c :: next) :: rest)).head? = some c :=
        head_of_intercalate hnext
      obtain ⟨tail, htail⟩ := List.head?_eq_some_iff.mp hhead
      have hrest := ih hparts
      rw [htail, List.cons_append] at hrest ⊢
      rw [cutPair_sep_cons hc, hrest, Option.map_map, Option.map_map]
      simp [Function.comp_def]

lemma Parted.cutPair_none (h : Parted sep parts) :
    cutPair sep ([sep].intercalate parts) = none := by
  have hcut := @cutPair_intercalate _ _ _ [] _ h
  rwa [List.append_nil] at hcut

lemma Parted.cutPair_some (h : Parted sep parts) :
    cutPair sep ([sep].intercalate parts ++ sep :: sep :: after) =
      some ([sep].intercalate parts, after) := by
  rw [h.cutPair_intercalate, cutPair, if_pos ⟨rfl, rfl⟩, Option.map_some,
    List.append_nil]

/-- Nor does one separator before them make two. -/
lemma Parted.cutPair_sep (h : Parted sep parts) :
    cutPair sep (sep :: [sep].intercalate parts) = none := by
  cases parts with
  | nil => rfl
  | cons part parts =>
    obtain ⟨hne, hpart⟩ := (h.cons).1
    obtain ⟨c, part, rfl⟩ := List.exists_cons_of_ne_nil hne
    have hc : c ≠ sep := fun heq => hpart (heq ▸ List.mem_cons_self)
    have hhead : ([sep].intercalate ((c :: part) :: parts)).head? = some c :=
      head_of_intercalate hne
    obtain ⟨tail, htail⟩ := List.head?_eq_some_iff.mp hhead
    have hnone := h.cutPair_none
    rw [htail] at hnone ⊢
    rw [cutPair_sep_cons hc, hnone, Option.map_none]

lemma Parted.partsOf_intercalate (h : Parted sep parts) :
    partsOf sep ([sep].intercalate parts) = parts := by
  cases parts with
  | nil => rfl
  | cons part parts =>
    have hne := (h.cons).1.1
    have hhead : ([sep].intercalate (part :: parts)).head? = part.head? := head_of_intercalate hne
    rw [partsOf, if_neg, List.splitOn_intercalate sep h.notMem (List.cons_ne_nil _ _)]
    intro hnil
    rw [hnil, List.head?_nil] at hhead
    exact hne (List.head?_eq_none_iff.mp hhead.symm)

omit [DecidableEq α] in
lemma map_intercalate {β : Type*} (f : α → β) (parts : List (List α)) :
    ([sep].intercalate parts).map f = [f sep].intercalate (parts.map (List.map f)) := by
  induction parts with
  | nil => rfl
  | cons part parts ih =>
    by_cases hnil : parts = []
    · subst hnil
      rw [List.intercalate_singleton, List.map_cons, List.map_nil, List.intercalate_singleton]
    · have hmap : parts.map (List.map f) ≠ [] := by simpa using hnil
      rw [List.intercalate_cons_of_ne_nil hnil, List.map_append, List.map_append, ih,
        List.map_cons (f := List.map f), List.intercalate_cons_of_ne_nil hmap, List.map_singleton]

/-- Lists of parts joined alike are alike. -/
lemma intercalate_inj {parts others : List (List α)} (hparts : ∀ part ∈ parts, sep ∉ part)
    (hothers : ∀ part ∈ others, sep ∉ part) (hne : parts ≠ []) (hne' : others ≠ [])
    (h : [sep].intercalate parts = [sep].intercalate others) : parts = others := by
  rw [← List.splitOn_intercalate sep hparts hne, h, List.splitOn_intercalate sep hothers hne']

end

/-! ### Groups and quads -/

namespace Ipv6

def isHex (c : Char) : Bool := c.isDigit || ('a' ≤ c && c ≤ 'f') || ('A' ≤ c && c ≤ 'F')

/-- The value of a hexadecimal digit of either case. -/
def hexOf (c : Char) : ℕ := if c.isDigit then c.toNat - 48 else c.toLower.toNat - 87

def groupValue (group : List Char) : ℕ := group.foldl (fun n c => 16 * n + hexOf c) 0

/-- One to four hexadecimal digits. -/
structure IsGroup (group : List Char) : Prop where
  ne_nil : group ≠ []
  length_le : group.length ≤ 4
  isHex : ∀ c ∈ group, isHex c = true

/-- 32 bits as four numbers without leading zeros. -/
def quadText (v : ℕ) : List Char :=
  ['.'].intercalate [Nat.toDigits 10 (v / 16777216), Nat.toDigits 10 (v / 65536 % 256),
    Nat.toDigits 10 (v / 256 % 256), Nat.toDigits 10 (v % 256)]

/-- The 32 bits that a text writes as a dotted quad. -/
def readQuad (cs : List Char) : Option ℕ :=
  match (cs.splitOn '.').map fun part => Nat.ofDigitChars 10 part 0 with
  | [a, b, c, d] =>
    let v := ((a * 256 + b) * 256 + c) * 256 + d
    if v < 4294967296 ∧ quadText v = cs then some v else none
  | _ => none

lemma isHex_ascii {P : Char → Prop} (h : ∀ i : Fin 128, isHex (Char.ofNat i) = true →
    P (Char.ofNat i)) {c : Char} (hc : isHex c = true) : P c := by
  have hlt : c.toNat < 128 := by
    have hle (d : Char) (hd : d.toNat < 128) (hcd : c ≤ d) : c.toNat < 128 :=
      Nat.lt_of_le_of_lt hcd hd
    simp only [isHex, Char.isDigit, Bool.or_eq_true, Bool.and_eq_true, decide_eq_true_eq] at hc
    rcases hc with ((⟨-, hc⟩ | ⟨-, hc⟩) | ⟨-, hc⟩)
    · exact hle '9' (by decide) hc
    · exact hle 'f' (by decide) hc
    · exact hle 'F' (by decide) hc
  have hi := h ⟨c.toNat, hlt⟩
  rw [Char.ofNat_toNat] at hi
  exact hi hc

lemma isHex_spec {c : Char} (h : isHex c = true) :
    c ≠ ':' ∧ c ≠ '.' ∧ isHex c.toLower = true ∧ hexOf c.toLower = hexOf c ∧ hexOf c < 16 ∧
      c.toLower = (hexOf c).digitChar :=
  isHex_ascii (P := fun c => c ≠ ':' ∧ c ≠ '.' ∧ isHex c.toLower = true ∧
    hexOf c.toLower = hexOf c ∧ hexOf c < 16 ∧ c.toLower = (hexOf c).digitChar)
    (by decide) h

lemma isGroup_zero : IsGroup ['0'] :=
  ⟨by simp, by simp, fun c hc => by rw [List.mem_singleton.mp hc]; decide⟩

lemma IsGroup.notMem_colon {group : List Char} (h : IsGroup group) : ':' ∉ group :=
  fun hmem => (isHex_spec (h.isHex _ hmem)).1 rfl

lemma IsGroup.notMem_dot {group : List Char} (h : IsGroup group) : '.' ∉ group :=
  fun hmem => (isHex_spec (h.isHex _ hmem)).2.1 rfl

lemma groupValue_snoc (group : List Char) (c : Char) :
    groupValue (group ++ [c]) = 16 * groupValue group + hexOf c := by
  rw [groupValue, List.foldl_append]
  rfl

lemma groupValue_lt {group : List Char} (h : ∀ c ∈ group, isHex c = true) :
    groupValue group < 16 ^ group.length := by
  induction group using List.reverseRecOn with
  | nil => decide
  | append_singleton group c ih =>
    have hgroup := ih fun d hd => h d (List.mem_append_left _ hd)
    have hc := (isHex_spec (h c (by simp))).2.2.2.2.1
    rw [groupValue_snoc, List.length_append, List.length_singleton, pow_succ]
    omega

lemma IsGroup.lt {group : List Char} (h : IsGroup group) : groupValue group < 65536 := by
  have hpow : (16 : ℕ) ^ group.length ≤ 16 ^ 4 := Nat.pow_le_pow_right (by decide) h.length_le
  have hlt := groupValue_lt h.isHex
  omega

/-- Digits in lower case are those of their value, after zeros. -/
lemma lower_eq {group : List Char} (hne : group ≠ []) (h : ∀ c ∈ group, isHex c = true) :
    ∃ n, group.map Char.toLower = List.replicate n '0' ++ Nat.toDigits 16 (groupValue group) := by
  induction group using List.reverseRecOn with
  | nil => exact absurd rfl hne
  | append_singleton group c ih =>
    obtain ⟨-, -, -, -, hlt, hchar⟩ := isHex_spec (h c (by simp))
    rw [List.map_append, List.map_singleton, groupValue_snoc]
    by_cases hnil : group = []
    · subst hnil
      have hzero : groupValue [] = 0 := rfl
      exact ⟨0, by rw [hzero, Nat.mul_zero, Nat.zero_add, Nat.toDigits_of_lt_base hlt, hchar]; rfl⟩
    · obtain ⟨n, hn⟩ := ih hnil fun d hd => h d (List.mem_append_left _ hd)
      rw [hn, hchar]
      by_cases hzero : groupValue group = 0
      · refine ⟨n + 1, ?_⟩
        rw [hzero, Nat.toDigits_of_lt_base (by decide), Nat.mul_zero, Nat.zero_add,
          Nat.toDigits_of_lt_base hlt, List.replicate_succ']
        rfl
      · refine ⟨n, ?_⟩
        have hdigits := Nat.toDigits_append_toDigits (b := 16) (by decide)
          (Nat.pos_of_ne_zero hzero) hlt
        rw [← hdigits, Nat.toDigits_of_lt_base hlt, List.append_assoc]

lemma groupValue_lower {group : List Char} (h : ∀ c ∈ group, isHex c = true) :
    groupValue (group.map Char.toLower) = groupValue group := by
  induction group using List.reverseRecOn with
  | nil => rfl
  | append_singleton group c ih =>
    rw [List.map_append, List.map_singleton, groupValue_snoc, groupValue_snoc,
      ih fun d hd => h d (List.mem_append_left _ hd), (isHex_spec (h c (by simp))).2.2.2.1]

lemma IsGroup.lower {group : List Char} (h : IsGroup group) : IsGroup (group.map Char.toLower) := by
  refine ⟨?_, by rw [List.length_map]; exact h.length_le, fun c hc => ?_⟩
  · rw [Ne, List.map_eq_nil_iff]
    exact h.ne_nil
  · obtain ⟨d, hd, rfl⟩ := List.mem_map.mp hc
    exact (isHex_spec (h.isHex d hd)).2.2.1

/-- The hexadecimal digits of a number. -/
lemma digits_spec (n : ℕ) :
    (∀ c ∈ Nat.toDigits 16 n, isHex c = true ∧ c.toLower = c) ∧
      groupValue (Nat.toDigits 16 n) = n := by
  have key : ∀ i : Fin 16, (isHex i.val.digitChar = true ∧
      i.val.digitChar.toLower = i.val.digitChar) ∧ hexOf i.val.digitChar = i.val := by
    decide
  induction n using Nat.strong_induction_on with
  | h n ih =>
    rw [Nat.toDigits_eq_if (by decide)]
    split
    next hn =>
      refine ⟨fun c hc => ?_, ?_⟩
      · obtain rfl := List.mem_singleton.mp hc
        exact (key ⟨n, hn⟩).1
      · have hvalue := groupValue_snoc [] n.digitChar
        rw [List.nil_append, (key ⟨n, hn⟩).2] at hvalue
        exact hvalue.trans (Nat.zero_add n)
    · obtain ⟨hchars, hvalue⟩ := ih (n / 16) (by omega)
      have hlast := key ⟨n % 16, Nat.mod_lt n (by decide)⟩
      refine ⟨fun c hc => ?_, ?_⟩
      · rcases List.mem_append.mp hc with hc | hc
        · exact hchars c hc
        · obtain rfl := List.mem_singleton.mp hc
          exact hlast.1
      · rw [groupValue_snoc, hvalue, hlast.2]
        exact Nat.div_add_mod n 16

lemma isGroup_toDigits {n : ℕ} (h : n < 65536) : IsGroup (Nat.toDigits 16 n) :=
  ⟨Nat.toDigits_ne_nil, (Nat.length_toDigits_le_iff (by decide) (by decide)).mpr h,
    fun c hc => ((digits_spec n).1 c hc).1⟩

lemma isDigit_quadText {v : ℕ} {c : Char} (hc : c ∈ quadText v) : c.isDigit = true ∨ c = '.' := by
  rcases mem_intercalate hc with rfl | ⟨part, hpart, hc⟩
  · exact .inr rfl
  · refine .inl ?_
    simp only [List.mem_cons, List.not_mem_nil, or_false] at hpart
    rcases hpart with rfl | rfl | rfl | rfl <;>
      exact Nat.isDigit_of_mem_toDigits (by decide) (by decide) hc

lemma dot_mem_quadText (v : ℕ) : '.' ∈ quadText v := by
  simp [quadText, List.intercalate_cons_cons]

lemma colon_notMem_quadText (v : ℕ) : ':' ∉ quadText v := by
  intro hmem
  rcases isDigit_quadText hmem with h | h
  · exact absurd h (by decide)
  · exact absurd h (by decide)

/-- The four numbers of a quad. -/
lemma splitOn_quadText (v : ℕ) :
    (quadText v).splitOn '.' = [Nat.toDigits 10 (v / 16777216), Nat.toDigits 10 (v / 65536 % 256),
      Nat.toDigits 10 (v / 256 % 256), Nat.toDigits 10 (v % 256)] := by
  refine List.splitOn_intercalate '.' (fun part hpart hmem => ?_) (by simp)
  simp only [List.mem_cons, List.not_mem_nil, or_false] at hpart
  have hdigit : ('.' : Char).isDigit = true := by
    rcases hpart with rfl | rfl | rfl | rfl <;>
      exact Nat.isDigit_of_mem_toDigits (by decide) (by decide) hmem
  exact absurd hdigit (by decide)

/-- Only a quad is read as one. -/
lemma readQuad_eq_some {cs : List Char} {v : ℕ} :
    readQuad cs = some v ↔ v < 4294967296 ∧ quadText v = cs := by
  constructor
  · intro h
    unfold readQuad at h
    split at h
    next a b c d _ =>
      dsimp only at h
      split at h
      next hv =>
        obtain rfl := Option.some.inj h
        exact hv
      · simp at h
    · simp at h
  · rintro ⟨hv, rfl⟩
    have hback : ((v / 16777216 * 256 + v / 65536 % 256) * 256 + v / 256 % 256) * 256 + v % 256 =
        v := by
      omega
    simp only [readQuad, splitOn_quadText, List.map_cons, List.map_nil,
      Nat.ofDigitChars_ten_toDigits, hback]
    exact if_pos ⟨hv, trivial⟩

lemma IsGroup.readQuad {group : List Char} (h : IsGroup group) : readQuad group = none := by
  cases hread : Ipv6.readQuad group with
  | none => rfl
  | some v => exact absurd ((readQuad_eq_some.mp hread).2 ▸ dot_mem_quadText v) h.notMem_dot

end Ipv6

/-! ### Forms -/

/-- What a text spells: the groups before a `::`, those after it where there is one, and the quad
at the end. -/
structure Ipv6Form where
  head : List (List Char)
  tail : Option (List (List Char))
  quad : Option ℕ
  deriving DecidableEq

namespace Ipv6Form

open Ipv6

variable (f : Ipv6Form)

/-- How many groups of 16 bits are spelled out. -/
def width : ℕ := f.head.length + (f.tail.getD []).length + 2 * f.quad.toList.length

/-- Eight groups, of which a `::` stands for one or more. -/
structure Valid : Prop where
  head : ∀ group ∈ f.head, IsGroup group
  tail : ∀ group ∈ f.tail.getD [], IsGroup group
  quad : ∀ v ∈ f.quad, v < 4294967296
  full : f.tail = none → f.width = 8
  short : f.tail ≠ none → f.width ≤ 7

/-- The quad, as the last part. -/
def last : List (List Char) := (f.quad.map quadText).toList

def text : List Char :=
  match f.tail with
  | none => [':'].intercalate (f.head ++ f.last)
  | some tail => [':'].intercalate f.head ++ ':' :: ':' :: [':'].intercalate (tail ++ f.last)

/-- The eight groups of 16 bits that a form denotes. -/
def values : List ℕ :=
  f.head.map groupValue ++ List.replicate (8 - f.width) 0 ++ (f.tail.getD []).map groupValue ++
    f.quad.toList.flatMap fun v => [v / 65536, v % 65536]

/-- The address of 128 bits. -/
def number : ℕ := f.values.foldl (fun n group => 65536 * n + group) 0

/-- Parts of which the last may be a quad. -/
def splitQuad (parts : List (List Char)) : List (List Char) × Option ℕ :=
  match parts.getLast?.bind readQuad with
  | some v => (parts.dropLast, some v)
  | none => (parts, none)

/-- What a text spells if it spells anything. -/
def candidate (cs : List Char) : Ipv6Form :=
  match cutPair ':' cs with
  | none =>
    let (head, quad) := splitQuad (partsOf ':' cs)
    ⟨head, none, quad⟩
  | some (before, after) =>
    let (tail, quad) := splitQuad (partsOf ':' after)
    ⟨partsOf ':' before, some tail, quad⟩

instance {group : List Char} : Decidable (IsGroup group) :=
  decidable_of_iff (group ≠ [] ∧ group.length ≤ 4 ∧ group.all isHex = true)
    ⟨fun h => ⟨h.1, h.2.1, List.all_eq_true.mp h.2.2⟩,
      fun h => ⟨h.1, h.2, List.all_eq_true.mpr h.3⟩⟩

instance : Decidable f.Valid :=
  decidable_of_iff ((∀ group ∈ f.head, IsGroup group) ∧ (∀ group ∈ f.tail.getD [], IsGroup group) ∧
      (∀ v ∈ f.quad.toList, v < 4294967296) ∧ (f.tail = none → f.width = 8) ∧
      (f.tail ≠ none → f.width ≤ 7))
    ⟨fun h => ⟨h.1, h.2.1, fun v hv => h.2.2.1 v (Option.mem_toList.mpr hv), h.2.2.2.1, h.2.2.2.2⟩,
      fun h => ⟨h.1, h.2, fun v hv => h.3 v (Option.mem_toList.mp hv), h.4, h.5⟩⟩

/-- The form that a text spells. -/
def parse (cs : List Char) : Option Ipv6Form :=
  if (candidate cs).Valid ∧ (candidate cs).text = cs then some (candidate cs) else none

variable {f}

lemma Valid.parted_last (_ : f.Valid) : Parted ':' f.last := by
  cases hquad : f.quad with
  | none => simp [last, hquad, Parted.mk]
  | some v =>
    have hlast : f.last = [quadText v] := by rw [last, hquad]; rfl
    rw [hlast]
    refine ⟨fun part hpart => ?_, fun part hpart => ?_⟩
    · obtain rfl := List.mem_singleton.mp hpart
      exact List.ne_nil_of_mem (dot_mem_quadText v)
    · obtain rfl := List.mem_singleton.mp hpart
      exact colon_notMem_quadText v

lemma parted_groups {groups : List (List Char)} (h : ∀ group ∈ groups, IsGroup group) :
    Parted ':' groups :=
  ⟨fun g hg => (h g hg).ne_nil, fun g hg => (h g hg).notMem_colon⟩

lemma Valid.parted_append (h : f.Valid) {groups : List (List Char)}
    (hgroups : ∀ group ∈ groups, IsGroup group) : Parted ':' (groups ++ f.last) := by
  refine ⟨fun part hpart => ?_, fun part hpart => ?_⟩ <;>
    rcases List.mem_append.mp hpart with hpart | hpart
  · exact (hgroups part hpart).ne_nil
  · exact h.parted_last.ne_nil part hpart
  · exact (hgroups part hpart).notMem_colon
  · exact h.parted_last.notMem part hpart

/-- The quad is told from the groups. -/
lemma Valid.splitQuad (h : f.Valid) {groups : List (List Char)}
    (hgroups : ∀ group ∈ groups, IsGroup group) :
    splitQuad (groups ++ f.last) = (groups, f.quad) := by
  unfold Ipv6Form.splitQuad
  cases hquad : f.quad with
  | none =>
    have hnil : f.last = [] := by rw [last, hquad]; rfl
    have hnone : groups.getLast?.bind readQuad = none := by
      refine Option.bind_eq_none_iff.mpr fun group hgroup => ?_
      exact (hgroups group (List.mem_of_getLast? hgroup)).readQuad
    rw [hnil, List.append_nil, hnone]
  | some v =>
    have hlast : f.last = [quadText v] := by rw [last, hquad]; rfl
    have hread : readQuad (quadText v) = some v :=
      readQuad_eq_some.mpr ⟨h.quad v hquad, rfl⟩
    rw [hlast, List.getLast?_concat, Option.bind_some, hread, List.dropLast_concat]

lemma Valid.cut_text (h : f.Valid) :
    cutPair ':' f.text =
      f.tail.map fun tail => ([':'].intercalate f.head, [':'].intercalate (tail ++ f.last)) := by
  unfold text
  split
  next hnone =>
    rw [(h.parted_append h.head).cutPair_none, hnone]
    rfl
  next tail hsome => rw [(parted_groups h.head).cutPair_some, hsome, Option.map_some]

lemma Valid.candidate_text (h : f.Valid) : candidate f.text = f := by
  obtain ⟨head, tail, quad⟩ := f
  cases tail with
  | none =>
    simp only [candidate, h.cut_text, Option.map_none]
    rw [text, (h.parted_append h.head).partsOf_intercalate, h.splitQuad h.head]
  | some tail =>
    have htail : ∀ group ∈ tail, IsGroup group := h.tail
    simp only [candidate, h.cut_text, Option.map_some]
    rw [(parted_groups h.head).partsOf_intercalate, (h.parted_append htail).partsOf_intercalate,
      h.splitQuad htail]

/-- **One form.** A text is read as a form exactly where the form is valid and spelled so. -/
theorem parse_eq_some {cs : List Char} : parse cs = some f ↔ f.Valid ∧ f.text = cs := by
  unfold parse
  constructor
  · intro h
    split at h
    next hvalid =>
      obtain rfl := Option.some.inj h
      exact hvalid
    · simp at h
  · rintro ⟨hvalid, rfl⟩
    rw [hvalid.candidate_text, if_pos ⟨hvalid, rfl⟩]

/-- The form in lower case. -/
def lower (f : Ipv6Form) : Ipv6Form :=
  ⟨f.head.map (List.map Char.toLower), f.tail.map (List.map (List.map Char.toLower)), f.quad⟩

lemma map_lower_quadText (v : ℕ) : (quadText v).map Char.toLower = quadText v := by
  have hlower : ∀ i : Fin 128, (Char.ofNat i).isDigit = true ∨ Char.ofNat i = '.' →
      (Char.ofNat i).toLower = Char.ofNat i := by
    decide
  refine (List.map_congr_left fun c hc => ?_).trans (List.map_id _)
  have hcases := isDigit_quadText hc
  have hlt : c.toNat < 128 := by
    rcases hcases with hdigit | rfl
    · simp only [Char.isDigit, Bool.and_eq_true, decide_eq_true_eq] at hdigit
      have hle : c.toNat ≤ 57 := hdigit.2
      omega
    · decide
  have hchar := hlower ⟨c.toNat, hlt⟩
  rw [Char.ofNat_toNat] at hchar
  exact hchar hcases

lemma last_lower (f : Ipv6Form) : f.lower.last = f.last.map (List.map Char.toLower) := by
  cases hquad : f.quad with
  | none => simp [last, lower, hquad]
  | some v => simp [last, lower, hquad, map_lower_quadText]

lemma text_lower (f : Ipv6Form) : f.lower.text = f.text.map Char.toLower := by
  have hcolon : ':'.toLower = ':' := by decide
  obtain ⟨head, tail, quad⟩ := f
  cases tail with
  | none =>
    have hlast := last_lower ⟨head, none, quad⟩
    simp only [text, map_intercalate, List.map_append, hcolon, ← hlast]
    rfl
  | some tail =>
    have hlast := last_lower ⟨head, some tail, quad⟩
    simp only [text, map_intercalate, List.map_append, List.map_cons, hcolon, ← hlast]
    rfl

lemma Valid.lower (h : f.Valid) : f.lower.Valid := by
  have hall {groups : List (List Char)} (hgroups : ∀ group ∈ groups, IsGroup group) :
      ∀ group ∈ groups.map (List.map Char.toLower), IsGroup group := by
    intro group hgroup
    obtain ⟨g, hg, rfl⟩ := List.mem_map.mp hgroup
    exact (hgroups g hg).lower
  have hwidth : f.lower.width = f.width := by
    cases htail : f.tail <;> simp [width, Ipv6Form.lower, htail]
  refine ⟨hall h.head, ?_, h.quad, fun htail => ?_, fun htail => ?_⟩
  · cases htail : f.tail with
    | none => simp [Ipv6Form.lower, htail]
    | some tail =>
      have hgroups := h.tail
      rw [htail] at hgroups
      simpa [Ipv6Form.lower, htail] using hall hgroups
  · rw [hwidth]
    exact h.full (by simpa [Ipv6Form.lower] using htail)
  · rw [hwidth]
    exact h.short (by simpa [Ipv6Form.lower] using htail)

/-- It denotes the same. -/
lemma Valid.values_lower (h : f.Valid) : f.lower.values = f.values := by
  have hsame {groups : List (List Char)} (hgroups : ∀ group ∈ groups, IsGroup group) :
      (groups.map (List.map Char.toLower)).map groupValue = groups.map groupValue := by
    rw [List.map_map]
    exact List.map_congr_left fun group hgroup => groupValue_lower (hgroups group hgroup).isHex
  have htail := h.tail
  cases hcase : f.tail with
  | none => simp only [values, Ipv6Form.lower, width, hcase, Option.map_none, hsame h.head,
      List.length_map]
  | some tail =>
    rw [hcase, Option.getD_some] at htail
    simp only [values, Ipv6Form.lower, width, hcase, Option.map_some, Option.getD_some,
      hsame h.head, hsame htail, List.length_map]

/-- There is a colon in every text. -/
lemma Valid.colon_mem_text (h : f.Valid) : ':' ∈ f.text := by
  unfold text
  split
  next htail =>
    have hwidth := h.full htail
    have hone : f.quad.toList.length ≤ 1 := by cases f.quad <;> simp
    have hlast : f.last.length = f.quad.toList.length := by
      unfold last
      cases f.quad <;> rfl
    rw [width, htail, Option.getD_none, List.length_nil, Nat.add_zero] at hwidth
    refine mem_iff_length_splitOn.mpr ?_
    have hparted := h.parted_append h.head
    rw [List.splitOn_intercalate ':' hparted.notMem, List.length_append]
    · omega
    · refine List.ne_nil_of_length_pos ?_
      rw [List.length_append]
      omega
  · simp

/-- Eight numbers can be written in full. -/
lemma exists_full {values : List ℕ} (hlength : values.length = 8) (h : ∀ n ∈ values, n < 65536) :
    ∃ f : Ipv6Form, f.Valid ∧ f.values = values ∧ f.tail = none ∧ f.quad = none := by
  refine ⟨⟨values.map (Nat.toDigits 16), none, none⟩, ?_, ?_, rfl, rfl⟩
  · refine ⟨fun group hgroup => ?_, by simp, by simp, fun _ => ?_, by simp⟩
    · obtain ⟨n, hn, rfl⟩ := List.mem_map.mp hgroup
      exact isGroup_toDigits (h n hn)
    · simp [width, hlength]
  · have hback : (values.map (Nat.toDigits 16)).map groupValue = values := by
      rw [List.map_map]
      exact (List.map_congr_left fun n _ => (digits_spec n).2).trans (List.map_id values)
    simp [Ipv6Form.values, width, hlength, hback]

/-- A text denotes an address. -/
def Denotes (cs : List Char) (n : ℕ) : Prop := ∃ f : Ipv6Form, f.Valid ∧ f.text = cs ∧ f.number = n

lemma Valid.eq_of_text {e : Ipv6Form} (h : f.Valid) (he : e.Valid) (htext : f.text = e.text) :
    f = e := by
  rw [← h.candidate_text, htext, he.candidate_text]

lemma Valid.length_values (h : f.Valid) : f.values.length = 8 := by
  have hwidth : f.width ≤ 8 := by
    cases htail : f.tail with
    | none => exact (h.full htail).le
    | some tail =>
      have := h.short (by simp [htail])
      omega
  have hquad : (f.quad.toList.flatMap fun v => [v / 65536, v % 65536]).length =
      2 * f.quad.toList.length := by
    cases f.quad <;> rfl
  simp only [values, List.length_append, List.length_map, List.length_replicate, hquad]
  unfold width at hwidth ⊢
  omega

lemma Valid.lt_of_mem_values (h : f.Valid) {n : ℕ} (hn : n ∈ f.values) : n < 65536 := by
  simp only [values, List.mem_append, List.mem_map, List.mem_replicate, List.mem_flatMap] at hn
  rcases hn with ((⟨group, hgroup, rfl⟩ | ⟨-, rfl⟩) | ⟨group, hgroup, rfl⟩) | ⟨v, hv, hn⟩
  · exact (h.head group hgroup).lt
  · decide
  · exact (h.tail group hgroup).lt
  · have hlt := h.quad v (Option.mem_toList.mp hv)
    simp only [List.mem_cons, List.not_mem_nil, or_false] at hn
    omega

lemma foldl_lt {values : List ℕ} (h : ∀ n ∈ values, n < 65536) :
    values.foldl (fun n group => 65536 * n + group) 0 < 65536 ^ values.length := by
  induction values using List.reverseRecOn with
  | nil => decide
  | append_singleton values n ih =>
    have hn := h n (by simp)
    have hrest := ih fun m hm => h m (List.mem_append_left _ hm)
    rw [List.foldl_append, List.foldl_cons, List.foldl_nil, List.length_append,
      List.length_singleton, pow_succ]
    omega

lemma Valid.number_lt (h : f.Valid) : f.number < 2 ^ 128 := by
  have hlt := foldl_lt fun n hn => h.lt_of_mem_values hn
  rw [h.length_values] at hlt
  exact hlt.trans_eq (by norm_num)

/-- **One address.** A text that spells a form denotes one address of 128 bits. -/
theorem Valid.denotes (h : f.Valid) : ∃! n : BitVec 128, Denotes f.text n.toNat := by
  have hnumber : (BitVec.ofNat 128 f.number).toNat = f.number :=
    Nat.mod_eq_of_lt h.number_lt
  refine ⟨BitVec.ofNat 128 f.number, ⟨f, h, rfl, hnumber.symm⟩, ?_⟩
  rintro n ⟨e, he, htext, hn⟩
  refine BitVec.eq_of_toNat_eq ?_
  rw [← hn, he.eq_of_text h htext, hnumber]

end Ipv6Form

end Tnp.Lib
