import Mathlib.Algebra.Ring.Rat
import Mathlib.Data.Fintype.Basic
import Tnp.Lib.Decimal
import Tnp.Namespace.Policy
import Tnp.SharedTypes.KeyMaterial

/-!
Money as a whole number of minor units, and the decimal text that a provider quotes it in.

The text is scaled by its digits alone. More digits behind the point than the currency has are
refused rather than rounded, and zeros at the end are not digits in that sense.
-/

namespace Tnp.Services

open Tnp.Lib Tnp.Namespace Tnp.SharedTypes

def CURRENCY_RE (currency : String) : Bool :=
  currency.toList.length == 3 && currency.toList.all fun c => 'A' ≤ c && c ≤ 'Z'

/-- An amount in the minor unit of a currency that has an ISO 4217 code. -/
structure Money where
  currency : String
  minor : ℤ
  isCurrency : CURRENCY_RE currency = true
  deriving DecidableEq

/-- The exponents that differ from 2. -/
def EXPONENTS : List (String × ℕ) :=
  [("BHD", 3), ("CLP", 0), ("IQD", 3), ("ISK", 0), ("JOD", 3), ("JPY", 0), ("KRW", 0), ("KWD", 3),
    ("LYD", 3), ("OMR", 3), ("PYG", 0), ("TND", 3), ("UGX", 0), ("VND", 0), ("XAF", 0), ("XOF", 0)]

def currencyExponent (currency : String) : ℕ := (EXPONENTS.lookup currency).getD 2

/-- The code, with what makes it one. -/
def assertCurrency (currency : String) : Except String (PLift (CURRENCY_RE currency = true)) :=
  if h : CURRENCY_RE currency = true then .ok ⟨h⟩
  else .error ("not an ISO 4217 currency code: " ++ jsonString currency)

def parseDecimalAmount (value currency : String) : Except String Money := do
  let isCurrency ← assertCurrency currency
  match Decimal.parse (trim value).toList with
  | none => .error ("not a non-negative decimal amount: " ++ jsonString value)
  | some d =>
    let exponent := currencyExponent currency
    let fraction := d.fraction.rdropWhile (· = '0')
    if exponent < fraction.length then
      .error (jsonString value ++ " has more precision than " ++ currency ++ " minor units allow")
    else
      let minor := Nat.ofDigitChars 10 (d.whole ++ fraction.rightpad exponent '0') 0
      .ok ⟨currency, minor, isCurrency.down⟩

def formatDecimalAmount (money : Money) : String :=
  let exponent := currencyExponent money.currency
  let negative : Bool := money.minor < 0
  let digits := (Nat.toDigits 10 money.minor.natAbs).leftpad (exponent + 1) '0'
  let whole := digits.take (digits.length - exponent)
  let fraction := digits.drop (digits.length - exponent)
  String.ofList ((if negative then ['-'] else []) ++ whole ++
    if 0 < exponent then '.' :: fraction else [])

def addMoney (a b : Money) : Except String Money :=
  if a.currency ≠ b.currency then .error ("cannot add " ++ a.currency ++ " to " ++ b.currency)
  else .ok ⟨a.currency, a.minor + b.minor, a.isCurrency⟩

/-! ### What is accepted -/

/-- A text accepted is a number whose digits all fit, and is scaled by moving the point. -/
lemma parseDecimalAmount_eq_ok {value currency : String} {money : Money} :
    parseDecimalAmount value currency = .ok money ↔
      money.currency = currency ∧ ∃ d : Decimal, d.text = (trim value).toList ∧
        d.significant.length ≤ currencyExponent currency ∧
        money.minor = Nat.ofDigitChars 10
          (d.whole ++ d.significant.rightpad (currencyExponent currency) '0') 0 := by
  obtain ⟨code, minor, hcode⟩ := money
  simp only [parseDecimalAmount, assertCurrency, bind_eq_ok]
  constructor
  · rintro ⟨isCurrency, -, h⟩
    split at h
    · simp at h
    next d hd =>
      rw [check_eq_ok, not_lt] at h
      obtain ⟨hfits, heq⟩ := h
      obtain ⟨rfl, rfl⟩ := Money.mk.inj (Except.ok.inj heq)
      exact ⟨rfl, d, d.parse_eq_some.mp hd, hfits, rfl⟩
  · rintro ⟨rfl, d, hd, hfits, rfl⟩
    refine ⟨⟨hcode⟩, dif_pos hcode, ?_⟩
    rw [d.parse_eq_some.mpr hd]
    exact check_eq_ok.mpr ⟨not_lt.mpr hfits, rfl⟩

/-- Surrounding white space apart, an amount is a plain decimal that its currency has units for. -/
lemma parseDecimalAmount_iff {value currency : String} {money : Money} :
    parseDecimalAmount value currency = .ok money ↔
      money.currency = currency ∧ ∃ d : Decimal, d.text = (trim value).toList ∧
        d.value * 10 ^ currencyExponent currency = money.minor := by
  rw [parseDecimalAmount_eq_ok]
  refine and_congr_right fun _ => exists_congr fun d => and_congr_right fun _ => ?_
  constructor
  · rintro ⟨hfits, hminor⟩
    rw [d.value_mul_pow hfits, hminor, Int.cast_natCast]
  · intro hvalue
    have hfits := d.significant_length_le hvalue
    rw [d.value_mul_pow hfits] at hvalue
    exact ⟨hfits, by exact_mod_cast hvalue.symm⟩

/-! ### What is written -/

section

variable (currency : String) (m : ℕ)

/-- The digits of an amount, at least one of them before the point. -/
def amountDigits : List Char :=
  (Nat.toDigits 10 m).leftpad (currencyExponent currency + 1) '0'

lemma length_amountDigits : currencyExponent currency < (amountDigits currency m).length := by
  rw [amountDigits, List.length_leftpad]
  omega

lemma isDigit_amountDigits {c : Char} (hc : c ∈ amountDigits currency m) : c.isDigit = true := by
  rw [amountDigits, List.leftpad, List.mem_append, List.mem_replicate] at hc
  rcases hc with ⟨-, rfl⟩ | hc
  · rfl
  · exact Nat.isDigit_of_mem_toDigits (by decide) (by decide) hc

lemma ofDigitChars_amountDigits : Nat.ofDigitChars 10 (amountDigits currency m) 0 = m := by
  rw [amountDigits, List.leftpad, Nat.ofDigitChars_append, Nat.ofDigitChars_replicate_zero,
    Nat.mul_zero, Nat.ofDigitChars_ten_toDigits]

/-- An amount as the number it is written as. -/
def amountDecimal : Decimal where
  whole := (amountDigits currency m).take
    ((amountDigits currency m).length - currencyExponent currency)
  fraction := (amountDigits currency m).drop
    ((amountDigits currency m).length - currencyExponent currency)
  whole_ne_nil := by
    have hlength := length_amountDigits currency m
    rw [Ne, List.take_eq_nil_iff, not_or]
    exact ⟨by omega, List.ne_nil_of_length_pos (by omega)⟩
  isDigit_whole := fun _ hc => isDigit_amountDigits currency m (List.mem_of_mem_take hc)
  isDigit_fraction := fun _ hc => isDigit_amountDigits currency m (List.mem_of_mem_drop hc)

lemma length_fraction_amountDecimal :
    (amountDecimal currency m).fraction.length = currencyExponent currency := by
  have hlength := length_amountDigits currency m
  simp only [amountDecimal, List.length_drop]
  omega

lemma value_amountDecimal :
    (amountDecimal currency m).value * 10 ^ currencyExponent currency = m := by
  have hpow : (10 : ℚ) ^ currencyExponent currency ≠ 0 := pow_ne_zero _ (by norm_num)
  have hdigits : (amountDecimal currency m).whole ++ (amountDecimal currency m).fraction =
      amountDigits currency m := List.take_append_drop _ _
  rw [Decimal.value, length_fraction_amountDecimal, hdigits, ofDigitChars_amountDigits,
    div_mul_cancel₀ _ hpow]

lemma formatDecimalAmount_natCast (h : CURRENCY_RE currency = true) :
    (formatDecimalAmount ⟨currency, m, h⟩).toList = (amountDecimal currency m).text := by
  have hlength := length_fraction_amountDecimal currency m
  have hneg : ¬ (m : ℤ) < 0 := by omega
  simp only [formatDecimalAmount, String.toList_ofList, Int.natAbs_natCast, hneg, decide_false,
    Bool.false_eq_true, if_false, List.nil_append, Decimal.text]
  by_cases hzero : currencyExponent currency = 0
  · have hnil : (amountDecimal currency m).fraction = [] :=
      List.length_eq_zero_iff.mp (hlength.trans hzero)
    rw [if_neg (by omega), if_pos hnil, List.append_nil]
    rfl
  · have hne : (amountDecimal currency m).fraction ≠ [] := by
      intro hnil
      rw [hnil] at hlength
      exact hzero hlength.symm
    rw [if_pos (by omega), if_neg hne]
    rfl

lemma trim_formatDecimalAmount (h : CURRENCY_RE currency = true) :
    trim (formatDecimalAmount ⟨currency, m, h⟩) = formatDecimalAmount ⟨currency, m, h⟩ := by
  refine trim_eq_self fun c hc => isSpace_of_visible ?_
  rw [formatDecimalAmount_natCast] at hc
  have hcases : c.isDigit = true ∨ c = '.' := by
    unfold Decimal.text at hc
    split at hc
    · exact .inl ((amountDecimal currency m).isDigit_whole c hc)
    · rcases List.mem_append.mp hc with hc | hc
      · exact .inl ((amountDecimal currency m).isDigit_whole c hc)
      · rcases List.mem_cons.mp hc with rfl | hc
        · exact .inr rfl
        · exact .inl ((amountDecimal currency m).isDigit_fraction c hc)
  rcases hcases with hdigit | rfl
  · simp only [Char.isDigit, Bool.and_eq_true, decide_eq_true_eq] at hdigit
    have hbounds : 48 ≤ c.toNat ∧ c.toNat ≤ 57 := hdigit
    omega
  · decide

end

/-- **Exact amounts.** An amount written and read again is the amount; and what is read is, white
space around it apart, a plain decimal whose value in minor units is whole, read as that value. -/
theorem parseDecimalAmount_exact :
    (∀ (currency : String) (h : CURRENCY_RE currency = true) (m : ℕ),
      parseDecimalAmount (formatDecimalAmount ⟨currency, m, h⟩) currency =
        .ok ⟨currency, m, h⟩) ∧
    ∀ (value currency : String) (money : Money),
      parseDecimalAmount value currency = .ok money ↔
        money.currency = currency ∧ ∃ d : Decimal, d.text = (trim value).toList ∧
          d.value * 10 ^ currencyExponent currency = money.minor := by
  refine ⟨fun currency h m => ?_, fun _ _ _ => parseDecimalAmount_iff⟩
  refine parseDecimalAmount_iff.mpr ⟨rfl, amountDecimal currency m, ?_, ?_⟩
  · rw [trim_formatDecimalAmount, formatDecimalAmount_natCast]
  · rw [value_amountDecimal, Int.cast_natCast]

theorem parseDecimalAmount_exact_cents :
    parseDecimalAmount (formatDecimalAmount ⟨"USD", 1298, by decide⟩) "USD" =
      .ok ⟨"USD", 1298, by decide⟩ :=
  parseDecimalAmount_exact.1 "USD" (by decide) 1298

/-- A blank before the digits is accepted, and is not part of a plain decimal. -/
theorem parseDecimalAmount_blank :
    (∃ money, parseDecimalAmount " 1" "USD" = .ok money) ∧
      ¬ ∃ d : Decimal, d.text = " 1".toList := by
  refine ⟨⟨⟨"USD", 100, by decide⟩, by decide⟩, ?_⟩
  rintro ⟨d, hd⟩
  have hparse := d.parse_eq_some.mpr hd
  have hnone : Decimal.parse " 1".toList = none := by decide
  rw [hnone] at hparse
  simp at hparse

end Tnp.Services
