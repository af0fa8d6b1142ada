import Mathlib
import Tnp.Crypto.Utf16

/-!
The length of canonical base64, as the server reads it off the text.

The server does not decode: it matches the text against a pattern and looks at the bits the last
digit has to spare. A client decodes and encodes again. Both accept the same texts, which are the
encodings of byte strings, and the length read off is that of the bytes.
-/

namespace Tnp.SharedTypes

open Tnp.Lib Tnp.Crypto

/-- `[A-Za-z0-9+/]`. -/
def isBase64Digit (c : Char) : Bool := c.isAlphanum || c == '+' || c == '/'

/-- `^[A-Za-z0-9+/]*(?:[A-Za-z0-9+/]{2}==|[A-Za-z0-9+/]{3}=)?$` -/
def isBase64Text (cs : List Char) : Bool :=
  cs.all isBase64Digit ||
    ("==".toList.isSuffixOf cs && 4 ≤ cs.length && (cs.take (cs.length - 2)).all isBase64Digit) ||
    ("=".toList.isSuffixOf cs && 4 ≤ cs.length && (cs.take (cs.length - 1)).all isBase64Digit)

/-- Whether the last digit has bits set that no byte takes. What is no digit counts as −1, which
has every bit set. -/
def strayBits (padding : ℕ) (last : Option ℕ) : Bool :=
  match last with
  | some d => (padding == 2 && d % 16 != 0) || (padding == 1 && d % 4 != 0)
  | none => padding != 0

def canonicalBase64Length (value : Value) : Option ℕ :=
  match value with
  | .string s =>
    let length := (units s).length
    let cs := s.toList
    if length % 4 ≠ 0 then none
    else if !isBase64Text cs then none
    else
      let padding := base64Padding cs
      if strayBits padding (cs[cs.length - padding - 1]?.bind decodeDigit) then none
      else some (length / 4 * 3 - padding)
  | _ => none

/-! ### Digits -/

lemma isBase64Digit_encodeDigit (n : ℕ) : isBase64Digit (encodeDigit n) = true := by
  have key : ∀ i : Fin 64, isBase64Digit (ALPHABET.getD i 'A') = true := by decide +kernel
  exact key ⟨n % 64, by omega⟩

lemma isBase64Digit_lt {c : Char} (h : isBase64Digit c = true) : c.toNat < 128 := by
  simp only [isBase64Digit, Char.isAlphanum, Char.isAlpha, Char.isUpper, Char.isLower,
    Char.isDigit, Bool.or_eq_true, Bool.and_eq_true, decide_eq_true_eq, beq_iff_eq] at h
  have hval : c.toNat = c.val.toNat := rfl
  rcases h with (((⟨_, h⟩ | ⟨_, h⟩) | ⟨_, h⟩) | rfl) | rfl
  · rw [hval]; exact lt_of_le_of_lt (UInt32.le_iff_toNat_le.mp h) (by decide)
  · rw [hval]; exact lt_of_le_of_lt (UInt32.le_iff_toNat_le.mp h) (by decide)
  · rw [hval]; exact lt_of_le_of_lt (UInt32.le_iff_toNat_le.mp h) (by decide)
  · decide
  · decide

/-- Every digit is the digit of a number. -/
lemma exists_encodeDigit {c : Char} (h : isBase64Digit c = true) :
    ∃ d, d < 64 ∧ encodeDigit d = c := by
  have key : ∀ i : Fin 128, isBase64Digit (Char.ofNat i) = true →
      ∃ d : Fin 64, encodeDigit d = Char.ofNat i := by decide +kernel
  obtain ⟨d, hd⟩ := key ⟨c.toNat, isBase64Digit_lt h⟩ (by rwa [Char.ofNat_toNat])
  exact ⟨d, d.isLt, by rw [hd, Char.ofNat_toNat]⟩

lemma encodeDigit_mod {n d : ℕ} (h : n % 64 = d) : encodeDigit n = encodeDigit d := by
  subst h
  simp [encodeDigit]

lemma encodeDigit_lt (n : ℕ) : (encodeDigit n).toNat < 128 :=
  isBase64Digit_lt (isBase64Digit_encodeDigit n)

/-! ### Groups -/

lemma encodeGroups_append {front : Bytes} (back : Bytes) (h : front.length % 3 = 0) :
    encodeGroups (front ++ back) = encodeGroups front ++ encodeGroups back := by
  induction front using encodeGroups.induct with
  | case1 a b c rest ih =>
    have hrest : rest.length % 3 = 0 := by
      simp only [List.length_cons] at h
      omega
    simp only [List.cons_append, encodeGroups, ih hrest]
  | case2 a b => simp at h
  | case3 a => simp at h
  | case4 => rfl

/-- Digits in whole groups encode bytes. -/
lemma exists_encodeGroups {cs : List Char} (hfour : cs.length % 4 = 0)
    (hdigits : ∀ c ∈ cs, isBase64Digit c = true) :
    ∃ bytes, encodeGroups bytes = cs ∧ bytes.length % 3 = 0 := by
  match cs with
  | [] => exact ⟨[], rfl, rfl⟩
  | [_] => simp at hfour
  | [_, _] => simp at hfour
  | [_, _, _] => simp at hfour
  | w :: x :: y :: z :: rest =>
    obtain ⟨bytes, hrest, hlength⟩ := @exists_encodeGroups rest
      (by simp only [List.length_cons] at hfour; omega)
      (fun c hc => hdigits c (by simp [hc]))
    obtain ⟨dw, hw, rfl⟩ := exists_encodeDigit (hdigits w (by simp))
    obtain ⟨dx, hx, rfl⟩ := exists_encodeDigit (hdigits x (by simp))
    obtain ⟨dy, hy, rfl⟩ := exists_encodeDigit (hdigits y (by simp))
    obtain ⟨dz, hz, rfl⟩ := exists_encodeDigit (hdigits z (by simp))
    -- the three bytes of the four digits
    refine ⟨UInt8.ofNat (dw * 4 + dx / 16) :: UInt8.ofNat (dx % 16 * 16 + dy / 4) ::
      UInt8.ofNat (dy % 4 * 64 + dz) :: bytes, ?_, ?_⟩
    · have ha : (UInt8.ofNat (dw * 4 + dx / 16)).toNat = dw * 4 + dx / 16 := by
        rw [UInt8.toNat_ofNat']
        omega
      have hb : (UInt8.ofNat (dx % 16 * 16 + dy / 4)).toNat = dx % 16 * 16 + dy / 4 := by
        rw [UInt8.toNat_ofNat']
        omega
      have hc : (UInt8.ofNat (dy % 4 * 64 + dz)).toNat = dy % 4 * 64 + dz := by
        rw [UInt8.toNat_ofNat']
        omega
      simp only [encodeGroups, hrest, ha, hb, hc, List.cons.injEq, and_true]
      refine ⟨encodeDigit_mod ?_, encodeDigit_mod ?_, encodeDigit_mod ?_, encodeDigit_mod ?_⟩ <;>
        omega
    · simp only [List.length_cons]
      omega

/-- The group of one byte over, of digits that have no bits to spare. -/
lemma encodeGroups_one {x y : ℕ} (hx : x < 64) (hy : y < 64) (hspare : y % 16 = 0) :
    ∃ a, encodeGroups [a] = [encodeDigit x, encodeDigit y, '=', '='] := by
  refine ⟨UInt8.ofNat (x * 4 + y / 16), ?_⟩
  have ha : (UInt8.ofNat (x * 4 + y / 16)).toNat = x * 4 + y / 16 := by
    rw [UInt8.toNat_ofNat']
    omega
  simp only [encodeGroups, ha, List.cons.injEq, and_true]
  exact ⟨encodeDigit_mod (by omega), encodeDigit_mod (by omega)⟩

/-- The group of two bytes over. -/
lemma encodeGroups_two {x y z : ℕ} (hx : x < 64) (hy : y < 64) (hz : z < 64)
    (hspare : z % 4 = 0) :
    ∃ a b, encodeGroups [a, b] = [encodeDigit x, encodeDigit y, encodeDigit z, '='] := by
  refine ⟨UInt8.ofNat (x * 4 + y / 16), UInt8.ofNat (y % 16 * 16 + z / 4), ?_⟩
  have ha : (UInt8.ofNat (x * 4 + y / 16)).toNat = x * 4 + y / 16 := by
    rw [UInt8.toNat_ofNat']
    omega
  have hb : (UInt8.ofNat (y % 16 * 16 + z / 4)).toNat = y % 16 * 16 + z / 4 := by
    rw [UInt8.toNat_ofNat']
    omega
  simp only [encodeGroups, ha, hb, List.cons.injEq, and_true]
  exact ⟨encodeDigit_mod (by omega), encodeDigit_mod (by omega), encodeDigit_mod (by omega)⟩

/-- Bytes are whole groups and at most two bytes over. -/
lemma exists_groups (bytes : Bytes) :
    ∃ front back, bytes = front ++ back ∧ front.length % 3 = 0 ∧ back.length < 3 := by
  refine ⟨bytes.take (bytes.length / 3 * 3), bytes.drop (bytes.length / 3 * 3),
    (List.take_append_drop _ _).symm, ?_, ?_⟩
  · rw [List.length_take]
    omega
  · rw [List.length_drop]
    omega

lemma encodeGroups_digits {bytes : Bytes} (h : bytes.length % 3 = 0) :
    ∀ c ∈ encodeGroups bytes, isBase64Digit c = true := by
  induction bytes using encodeGroups.induct with
  | case1 a b c rest ih =>
    have hrest : rest.length % 3 = 0 := by
      simp only [List.length_cons] at h
      omega
    simp only [encodeGroups, List.mem_cons, forall_eq_or_imp, isBase64Digit_encodeDigit, true_and]
    exact ih hrest
  | case2 a b => simp at h
  | case3 a => simp at h
  | case4 => simp [encodeGroups]

/-! ### The length of each shape -/

/-- A text of digits and padding has one unit a character. -/
lemma units_length {cs : List Char} (h : ∀ c ∈ cs, c.toNat < 128) :
    (units (String.ofList cs)).length = cs.length := by
  rw [units, String.toList_ofList]
  induction cs with
  | nil => rfl
  | cons c cs ih =>
    rw [List.flatMap_cons, List.length_append, List.length_cons,
      ih fun d hd => h d (List.mem_cons_of_mem c hd)]
    have hc := h c List.mem_cons_self
    simp [charUnits, show c.toNat < 0x10000 by omega]
    omega

/-- The pattern: digits, with two places of padding or one at the end. -/
lemma isBase64Text_iff {cs : List Char} :
    isBase64Text cs = true ↔
      (∀ c ∈ cs, isBase64Digit c = true) ∨
        ∃ body pad, cs = body ++ pad ∧ (∀ c ∈ body, isBase64Digit c = true) ∧
          (pad = ['=', '='] ∧ 2 ≤ body.length ∨ pad = ['='] ∧ 3 ≤ body.length) := by
  have hpadded (pad : List Char) (k : ℕ) (hk : pad.length = k) :
      (pad.isSuffixOf cs && 4 ≤ cs.length && (cs.take (cs.length - k)).all isBase64Digit) = true ↔
        ∃ body, cs = body ++ pad ∧ (∀ c ∈ body, isBase64Digit c = true) ∧
          4 ≤ body.length + k := by
    simp only [Bool.and_eq_true, List.isSuffixOf_iff_suffix, decide_eq_true_eq, List.all_eq_true]
    constructor
    · rintro ⟨⟨⟨body, rfl⟩, hlength⟩, hdigits⟩
      rw [List.length_append, hk, Nat.add_sub_cancel, List.take_left] at hdigits
      rw [List.length_append, hk] at hlength
      exact ⟨body, rfl, hdigits, hlength⟩
    · rintro ⟨body, rfl, hdigits, hlength⟩
      rw [List.length_append, hk, Nat.add_sub_cancel, List.take_left]
      exact ⟨⟨List.suffix_append body pad, hlength⟩, hdigits⟩
  rw [isBase64Text, Bool.or_eq_true, Bool.or_eq_true, hpadded _ 2 rfl, hpadded _ 1 rfl,
    List.all_eq_true, or_assoc]
  refine or_congr_right ⟨?_, ?_⟩
  · rintro (⟨body, hcs, hdigits, hlength⟩ | ⟨body, hcs, hdigits, hlength⟩)
    · exact ⟨body, _, hcs, hdigits, .inl ⟨rfl, by omega⟩⟩
    · exact ⟨body, _, hcs, hdigits, .inr ⟨rfl, by omega⟩⟩
  · rintro ⟨body, pad, hcs, hdigits, ⟨rfl, hlength⟩ | ⟨rfl, hlength⟩⟩
    · exact .inl ⟨body, hcs, hdigits, by omega⟩
    · exact .inr ⟨body, hcs, hdigits, by omega⟩

/-- A text of the pattern is ASCII. -/
lemma lt_of_isBase64Text {cs : List Char} (h : isBase64Text cs = true) :
    ∀ c ∈ cs, c.toNat < 128 := by
  intro c hc
  rcases isBase64Text_iff.mp h with hdigits | ⟨body, pad, rfl, hdigits, hpad⟩
  · exact isBase64Digit_lt (hdigits c hc)
  rcases List.mem_append.mp hc with hc | hc
  · exact isBase64Digit_lt (hdigits c hc)
  · have heq : c = '=' := by
      rcases hpad with ⟨rfl, _⟩ | ⟨rfl, _⟩ <;> simpa using hc
    subst heq
    decide

lemma canonicalBase64Length_eq_some_iff {s : String} {n : ℕ} :
    canonicalBase64Length (.string s) = some n ↔
      s.toList.length % 4 = 0 ∧ isBase64Text s.toList = true ∧
        strayBits (base64Padding s.toList)
          (s.toList[s.toList.length - base64Padding s.toList - 1]?.bind decodeDigit) = false ∧
        s.toList.length / 4 * 3 - base64Padding s.toList = n := by
  by_cases htext : isBase64Text s.toList = true
  · have hunits : (units s).length = s.toList.length := by
      have h := units_length (lt_of_isBase64Text htext)
      rwa [String.ofList_toList] at h
    by_cases hfour : s.toList.length % 4 = 0
    · simp [canonicalBase64Length, hunits, hfour, htext]
    · simp [canonicalBase64Length, hunits, hfour]
  · simp [canonicalBase64Length, htext]

/-- Whole groups of digits. -/
lemma canonical_digits {cs : List Char} (hdigits : ∀ c ∈ cs, isBase64Digit c = true) {n : ℕ} :
    canonicalBase64Length (.string (String.ofList cs)) = some n ↔
      cs.length % 4 = 0 ∧ cs.length / 4 * 3 = n := by
  have hpad : base64Padding cs = 0 := by
    have hno (front : List Char) : ¬ front ++ ['='] = cs := by
      rintro rfl
      exact absurd (hdigits '=' (by simp)) (by decide)
    have hone : ¬ "=".toList <:+ cs := fun ⟨front, h⟩ => hno front h
    have htwo : ¬ "==".toList <:+ cs := fun ⟨front, h⟩ => hno (front ++ ['=']) (by simpa using h)
    simp only [base64Padding, hone, htwo, if_false]
  have hstray (last : Option ℕ) : strayBits 0 last = false := by cases last <;> rfl
  rw [canonicalBase64Length_eq_some_iff, String.toList_ofList, hpad, hstray]
  simp [isBase64Text_iff.mpr (.inl hdigits)]

/-- Two digits and two places of padding after whole groups. -/
lemma canonical_one {body : List Char} {y : ℕ}
    (hdigits : ∀ c ∈ body ++ [encodeDigit y], isBase64Digit c = true) (hbody : body ≠ []) {n : ℕ} :
    canonicalBase64Length (.string (String.ofList
        (body ++ [encodeDigit y] ++ ['=', '=']))) = some n ↔
      body.length % 4 = 1 ∧ y % 16 = 0 ∧ body.length / 4 * 3 + 1 = n := by
  have hlength : (body ++ [encodeDigit y] ++ ['=', '=']).length = body.length + 3 := by simp
  have hpositive := List.length_pos_iff.mpr hbody
  have htext : isBase64Text (body ++ [encodeDigit y] ++ ['=', '=']) = true :=
    isBase64Text_iff.mpr (.inr ⟨_, _, rfl, hdigits, .inl ⟨rfl, by simp; omega⟩⟩)
  have hpad : base64Padding (body ++ [encodeDigit y] ++ ['=', '=']) = 2 := by
    rw [base64Padding_append (by simp)]
    rfl
  have hlast : (body ++ [encodeDigit y] ++ ['=', '='])[body.length + 3 - 2 - 1]? =
      some (encodeDigit y) := by
    simp
  rw [canonicalBase64Length_eq_some_iff, String.toList_ofList, hpad, hlength, hlast, htext]
  simp only [Option.bind_some, decodeDigit_encodeDigit, strayBits]
  have hstray : ((2 == 2 && y % 64 % 16 != 0) || (2 == 1 && y % 64 % 4 != 0)) = false ↔
      y % 16 = 0 := by
    simp
  rw [hstray]
  simp only [true_and]
  omega

/-- Three digits and one place of padding after whole groups. -/
lemma canonical_two {body : List Char} {y : ℕ}
    (hdigits : ∀ c ∈ body ++ [encodeDigit y], isBase64Digit c = true) (hbody : 2 ≤ body.length)
    {n : ℕ} :
    canonicalBase64Length (.string (String.ofList (body ++ [encodeDigit y] ++ ['=']))) = some n ↔
      body.length % 4 = 2 ∧ y % 4 = 0 ∧ body.length / 4 * 3 + 2 = n := by
  have hlength : (body ++ [encodeDigit y] ++ ['=']).length = body.length + 2 := by simp
  have htext : isBase64Text (body ++ [encodeDigit y] ++ ['=']) = true :=
    isBase64Text_iff.mpr (.inr ⟨_, _, rfl, hdigits, .inr ⟨rfl, by simp; omega⟩⟩)
  have hpad : base64Padding (body ++ [encodeDigit y] ++ ['=']) = 1 := by
    rw [List.append_assoc, base64Padding_append (by simp)]
    simp [base64Padding, List.suffix_cons_iff, (encodeDigit_ne y).symm]
  have hlast : (body ++ [encodeDigit y] ++ ['='])[body.length + 2 - 1 - 1]? =
      some (encodeDigit y) := by
    simp
  rw [canonicalBase64Length_eq_some_iff, String.toList_ofList, hpad, hlength, hlast, htext]
  simp only [Option.bind_some, decodeDigit_encodeDigit, strayBits]
  have hstray : ((1 == 2 && y % 64 % 16 != 0) || (1 == 1 && y % 64 % 4 != 0)) = false ↔
      y % 4 = 0 := by
    simp
  rw [hstray]
  simp only [true_and]
  omega

/-! ### The same texts -/

lemma exists_concat_digit {cs : List Char} (hdigits : ∀ c ∈ cs, isBase64Digit c = true)
    (hcs : cs.length ≠ 0) :
    ∃ front d, d < 64 ∧ cs = front ++ [encodeDigit d] ∧
      ∀ c ∈ front, isBase64Digit c = true := by
  rcases List.eq_nil_or_concat cs with rfl | ⟨front, last, rfl⟩
  · simp at hcs
  obtain ⟨d, hd, hlast⟩ := exists_encodeDigit (hdigits last (by simp))
  exact ⟨front, d, hd, by rw [hlast, List.concat_eq_append], fun c hc => hdigits c (by simp [hc])⟩

/-- What has a length is the encoding of that many bytes. -/
lemma encodeBase64_of_canonical {s : String} {n : ℕ}
    (h : canonicalBase64Length (.string s) = some n) :
    ∃ bytes, encodeBase64 bytes = s ∧ bytes.length = n := by
  suffices ∃ bytes, encodeGroups bytes = s.toList ∧ bytes.length = n by
    obtain ⟨bytes, hgroups, hlength⟩ := this
    exact ⟨bytes, by rw [encodeBase64, hgroups, String.ofList_toList], hlength⟩
  obtain ⟨_, htext, _⟩ := canonicalBase64Length_eq_some_iff.mp h
  rw [← String.ofList_toList (s := s)] at h
  generalize s.toList = cs at h htext ⊢
  -- whole groups encode their bytes, and the last one the bytes that are left
  have hgroup (front back : List Char) (tail : Bytes) (hfour : front.length % 4 = 0)
      (hdigits : ∀ c ∈ front, isBase64Digit c = true) (hback : encodeGroups tail = back) :
      ∃ bytes, encodeGroups bytes = front ++ back ∧
        bytes.length = front.length / 4 * 3 + tail.length := by
    obtain ⟨bytes, hfront, hlength⟩ := exists_encodeGroups hfour hdigits
    refine ⟨bytes ++ tail, ?_, ?_⟩
    · rw [encodeGroups_append tail hlength, hfront, hback]
    · have hcount := length_encodeGroups bytes
      rw [hfront] at hcount
      rw [List.length_append]
      omega
  rcases isBase64Text_iff.mp htext with hdigits | ⟨body, pad, rfl, hdigits, hpad⟩
  · obtain ⟨hfour, hn⟩ := (canonical_digits hdigits).mp h
    obtain ⟨bytes, hgroups, hlength⟩ := hgroup cs [] [] hfour hdigits rfl
    refine ⟨bytes, by rw [hgroups, List.append_nil], ?_⟩
    rw [hlength, ← hn]
    rfl
  rcases hpad with ⟨rfl, htwo⟩ | ⟨rfl, hthree⟩
  · obtain ⟨body, y, hy, rfl, hbody⟩ := exists_concat_digit hdigits (by omega)
    rw [List.length_append, List.length_singleton] at htwo
    obtain ⟨front, x, hx, rfl, hfront⟩ := exists_concat_digit hbody (by omega)
    obtain ⟨hfour, hspare, hn⟩ := (canonical_one hdigits (by simp)).mp h
    rw [List.length_append, List.length_singleton] at hfour hn
    obtain ⟨a, ha⟩ := encodeGroups_one hx hy hspare
    obtain ⟨bytes, hgroups, hlength⟩ := hgroup front _ [a] (by omega) hfront ha
    refine ⟨bytes, by rw [hgroups]; simp, ?_⟩
    rw [hlength, List.length_singleton]
    omega
  · obtain ⟨body, z, hz, rfl, hbody⟩ := exists_concat_digit hdigits (by omega)
    rw [List.length_append, List.length_singleton] at hthree
    obtain ⟨middle, y, hy, rfl, hmiddle⟩ := exists_concat_digit hbody (by omega)
    rw [List.length_append, List.length_singleton] at hthree
    obtain ⟨front, x, hx, rfl, hfront⟩ := exists_concat_digit hmiddle (by omega)
    obtain ⟨hfour, hspare, hn⟩ := (canonical_two hdigits (by simp)).mp h
    simp only [List.length_append, List.length_singleton] at hfour hn
    obtain ⟨a, b, hab⟩ := encodeGroups_two hx hy hz hspare
    obtain ⟨bytes, hgroups, hlength⟩ := hgroup front _ [a, b] (by omega) hfront hab
    refine ⟨bytes, by rw [hgroups]; simp, ?_⟩
    rw [hlength, show [a, b].length = 2 from rfl]
    omega

/-- The length of an encoding is that of its bytes. -/
lemma canonicalBase64Length_encodeBase64 (bytes : Bytes) :
    canonicalBase64Length (.string (encodeBase64 bytes)) = some bytes.length := by
  obtain ⟨front, back, rfl, hfront, hback⟩ := exists_groups bytes
  have hdigits := encodeGroups_digits hfront
  have hlength := length_encodeGroups front
  rw [encodeBase64, encodeGroups_append back hfront]
  rcases back with _ | ⟨a, _ | ⟨b, _ | ⟨c, rest⟩⟩⟩
  · rw [encodeGroups, List.append_nil, canonical_digits hdigits, List.append_nil]
    omega
  · have happend (x y : Char) : encodeGroups front ++ [x, y, '=', '='] =
        encodeGroups front ++ [x] ++ [y] ++ ['=', '='] := by simp
    rw [encodeGroups, happend, canonical_one]
    · simp only [List.length_append, List.length_singleton]
      omega
    · simpa [or_imp, forall_and, isBase64Digit_encodeDigit] using hdigits
    · simp
  · have happend (x y z : Char) : encodeGroups front ++ [x, y, z, '='] =
        encodeGroups front ++ [x, y] ++ [z] ++ ['='] := by simp
    rw [encodeGroups, happend, canonical_two]
    · simp only [List.length_append, List.length_cons, List.length_nil]
      omega
    · simpa [or_imp, forall_and, isBase64Digit_encodeDigit] using hdigits
    · simp
  · simp at hback
    omega

/-- What decodes to a number of bytes decodes. -/
lemma decodeBase64Strict_none {value : Value} {n : ℕ} {bytes : Bytes}
    (h : decodeBase64Strict value (some n) = .ok bytes) :
    decodeBase64Strict value none = .ok bytes := by
  cases value with
  | string s =>
    simp only [decodeBase64Strict] at h ⊢
    split at h
    · simp at h
    next hfour =>
    split at h
    · simp at h
    split at h
    · simp at h
    next hcanonical =>
    split at h
    · simp at h
    rw [if_neg hfour, if_neg hcanonical]
    exact h
  | _ => simp [decodeBase64Strict] at h

/-- **Strict base64**: bytes are read back from their encoding, a text is accepted exactly where it
is the encoding of bytes, and the server finds a length in the texts a client decodes, that of the
bytes. -/
theorem strict_base64 :
    (∀ bytes, decodeBase64Strict (.string (encodeBase64 bytes)) none = .ok bytes) ∧
    (∀ value, (decodeBase64Strict value none).isOk = true ↔
      ∃ bytes, value = .string (encodeBase64 bytes)) ∧
    ∀ value n, canonicalBase64Length value = some n ↔
      ∃ bytes, decodeBase64Strict value none = .ok bytes ∧ bytes.length = n := by
  have hdecode (bytes : Bytes) :
      decodeBase64Strict (.string (encodeBase64 bytes)) none = .ok bytes :=
    decodeBase64Strict_none (decodeBase64Strict_encodeBase64 rfl)
  refine ⟨hdecode, fun value => ⟨fun h => ?_, ?_⟩, fun value n => ⟨fun h => ?_, ?_⟩⟩
  · cases value with
    | string s =>
      cases hs : decodeBase64Strict (.string s) none with
      | ok bytes => exact ⟨bytes, by rw [encodeBase64_of_decode hs]⟩
      | error e => simp [hs, Except.isOk, Except.toBool] at h
    | _ => simp [decodeBase64Strict, Except.isOk, Except.toBool] at h
  · rintro ⟨bytes, rfl⟩
    rw [hdecode]
    rfl
  · cases value with
    | string s =>
      obtain ⟨bytes, rfl, hlength⟩ := encodeBase64_of_canonical h
      exact ⟨bytes, hdecode bytes, hlength⟩
    | _ => simp [canonicalBase64Length] at h
  · rintro ⟨bytes, hbytes, rfl⟩
    cases value with
    | string s =>
      rw [← encodeBase64_of_decode hbytes, canonicalBase64Length_encodeBase64]
    | _ => simp [decodeBase64Strict] at hbytes

end Tnp.SharedTypes
