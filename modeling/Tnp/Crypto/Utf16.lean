import Tnp.Crypto.Encoding

/-!
Strings as the runtime has them: sequences of 16-bit units.

Not every sequence of units is text. A surrogate that is not half of a pair is written to bytes
as the replacement character, so two strings that differ there have the same bytes.
-/

namespace Tnp.Crypto

open Tnp.Lib

abbrev JsString := List UInt16

instance : LawfulBEq JsString := inferInstance

def isHighSurrogate (u : UInt16) : Bool := 0xD800 ≤ u.toNat && u.toNat ≤ 0xDBFF
def isLowSurrogate (u : UInt16) : Bool := 0xDC00 ≤ u.toNat && u.toNat ≤ 0xDFFF

/-- The character of a unit by itself. -/
def unitChar (u : UInt16) : Char :=
  if isHighSurrogate u || isLowSurrogate u then Char.ofNat 0xFFFD else Char.ofNat u.toNat

/-- The character of a surrogate pair. -/
def pairChar (high low : UInt16) : Char :=
  Char.ofNat (0x10000 + (high.toNat - 0xD800) * 0x400 + (low.toNat - 0xDC00))

/-- The characters of a string, with the replacement character for every lone surrogate. -/
def scalars : JsString → List Char
  | [] => []
  | [u] => [unitChar u]
  | u :: v :: rest =>
    if isHighSurrogate u && isLowSurrogate v then pairChar u v :: scalars rest
    else unitChar u :: scalars (v :: rest)

/-- The units of a character. -/
def charUnits (c : Char) : JsString :=
  if c.toNat < 0x10000 then [UInt16.ofNat c.toNat]
  else
    let n := c.toNat - 0x10000
    [UInt16.ofNat (0xD800 + n / 0x400), UInt16.ofNat (0xDC00 + n % 0x400)]

/-- The units of a text. -/
def units (s : String) : JsString := s.toList.flatMap charUnits

/-- `toWellFormed`: every lone surrogate replaced. -/
def toWellFormed (s : JsString) : String := String.ofList (scalars s)

/-- `TextEncoder.encode`. -/
def textEncode (s : JsString) : Bytes := utf8 (toWellFormed s)

def CanonicalWriter.units (w : CanonicalWriter) (value : JsString) : CanonicalWriter :=
  w.bytesPrefixed (textEncode value)

/-! ### Text is its units -/

lemma surrogate_of_char {c : Char} : ¬ (0xD800 ≤ c.toNat ∧ c.toNat ≤ 0xDFFF) := by
  have h := c.valid
  simp only [UInt32.isValidChar, Nat.isValidChar] at h
  have : c.toNat = c.val.toNat := rfl
  omega

lemma scalars_charUnits (c : Char) (rest : JsString) :
    scalars (charUnits c ++ rest) = c :: scalars rest := by
  have hs := surrogate_of_char (c := c)
  have hlt : c.toNat < 0x110000 := by
    have h := c.valid
    simp only [UInt32.isValidChar, Nat.isValidChar] at h
    have : c.toNat = c.val.toNat := rfl
    omega
  unfold charUnits
  split
  · next hsmall =>
    have hu : (UInt16.ofNat c.toNat).toNat = c.toNat := by
      rw [UInt16.toNat_ofNat']
      omega
    have hhigh : isHighSurrogate (UInt16.ofNat c.toNat) = false := by
      simp [isHighSurrogate, hu]
      omega
    have hlow : isLowSurrogate (UInt16.ofNat c.toNat) = false := by
      simp [isLowSurrogate, hu]
      omega
    have hchar : unitChar (UInt16.ofNat c.toNat) = c := by
      simp [unitChar, hhigh, hlow, hu, Char.ofNat_toNat]
    cases rest with
    | nil => simp [scalars, hchar]
    | cons v rest => simp [scalars, hhigh, hchar]
  · next hbig =>
    have hu : (UInt16.ofNat (0xD800 + (c.toNat - 0x10000) / 0x400)).toNat =
        0xD800 + (c.toNat - 0x10000) / 0x400 := by
      rw [UInt16.toNat_ofNat']
      omega
    have hv : (UInt16.ofNat (0xDC00 + (c.toNat - 0x10000) % 0x400)).toNat =
        0xDC00 + (c.toNat - 0x10000) % 0x400 := by
      rw [UInt16.toNat_ofNat']
      omega
    have hhigh : isHighSurrogate (UInt16.ofNat (0xD800 + (c.toNat - 0x10000) / 0x400)) = true := by
      simp only [isHighSurrogate, hu, Bool.and_eq_true, decide_eq_true_eq]
      omega
    have hlow : isLowSurrogate (UInt16.ofNat (0xDC00 + (c.toNat - 0x10000) % 0x400)) = true := by
      simp only [isLowSurrogate, hv, Bool.and_eq_true, decide_eq_true_eq]
      omega
    have hback : 0x10000 + (0xD800 + (c.toNat - 0x10000) / 0x400 - 0xD800) * 0x400 +
        (0xDC00 + (c.toNat - 0x10000) % 0x400 - 0xDC00) = c.toNat := by
      omega
    simp only [List.cons_append, List.nil_append, scalars, hhigh, hlow, Bool.and_self, if_true,
      pairChar, hu, hv]
    rw [hback, Char.ofNat_toNat]

/-- Text comes back from its units. -/
@[simp] lemma toWellFormed_units (s : String) : toWellFormed (units s) = s := by
  have hlist : ∀ cs : List Char, scalars (cs.flatMap charUnits) = cs := by
    intro cs
    induction cs with
    | nil => rfl
    | cons c cs ih => rw [List.flatMap_cons, scalars_charUnits, ih]
  simp [toWellFormed, units, hlist]

lemma length_scalars_le (s : JsString) : (scalars s).length ≤ s.length := by
  induction s using scalars.induct with
  | case1 => simp [scalars]
  | case2 u => simp [scalars]
  | case3 u v rest hpair ih =>
    simp only [scalars, hpair, if_true, List.length_cons]
    omega
  | case4 u v rest hpair ih =>
    simp only [scalars, hpair, if_false, List.length_cons, Bool.false_eq_true] at ih ⊢
    omega

lemma utf8_injective : Function.Injective utf8 := by
  intro s t h
  apply String.toByteArray_inj.mp
  exact ByteArray.ext (Array.toList_inj.mp h)

lemma length_utf8_le (cs : List Char) : (utf8 (String.ofList cs)).length ≤ 4 * cs.length := by
  simp only [utf8, String.toUTF8_eq_toByteArray, String.toByteArray_ofList]
  induction cs with
  | nil => simp
  | cons c cs ih =>
    have hc := c.utf8Size_le_four
    rw [List.utf8Encode_cons, List.utf8Encode_singleton]
    simp at ih ⊢
    omega

end Tnp.Crypto
