import Mathlib.Algebra.Group.Nat.Defs
import Mathlib.Data.Int.Order.Basic
import Tnp.Namespace.Expiry

/-!
The days of the civil calendar in order.

A year is counted from March, so that its leap day is its last; the months of a year from March on
are then numbered from 0.
-/

namespace Tnp.Namespace

/-! ### Years from March -/

/-- The first day of a year from March, counted from the March of the year 0. -/
def marchStart (year : ℤ) : ℤ := 365 * year + year / 4 - year / 100 + year / 400

/-- The same within an era of 400 years. -/
def startOfEra (year : ℕ) : ℕ := 365 * year + year / 4 - year / 100

/-- The year of a day of an era, as the code computes it. -/
def yearOfEra (day : ℕ) : ℕ := (day - day / 1460 + day / 36524 - day / 146096) / 365

lemma yearOfEra_mono {a b : ℕ} (h : a ≤ b) : yearOfEra a ≤ yearOfEra b := by
  have hstep (n : ℕ) : yearOfEra n ≤ yearOfEra (n + 1) := by
    unfold yearOfEra
    refine Nat.div_le_div_right ?_
    omega
  induction h with
  | refl => exact le_rfl
  | step _ ih => exact ih.trans (hstep _)

/-- The days of a year begin and end where they should, for each year of an era. -/
lemma yearOfEra_ends : ∀ y < 399, yearOfEra (startOfEra y) = y ∧
    yearOfEra (startOfEra (y + 1) - 1) = y := by
  decide +kernel

lemma yearOfEra_spec (day : ℕ) (h : day < 146097) :
    yearOfEra day < 400 ∧ startOfEra (yearOfEra day) ≤ day ∧
      day ≤ startOfEra (yearOfEra day) + 365 ∧
      (yearOfEra day < 399 → day < startOfEra (yearOfEra day + 1)) := by
  have hlast : yearOfEra 146096 = 399 := by decide
  have hle : yearOfEra day ≤ 399 := hlast ▸ yearOfEra_mono (by omega)
  have hstart : startOfEra (yearOfEra day) ≤ day := by
    by_contra hlt
    cases hy : yearOfEra day with
    | zero => simp [hy, startOfEra] at hlt
    | succ y =>
      have hbefore := yearOfEra_mono (a := day) (b := startOfEra (y + 1) - 1)
        (by rw [hy] at hlt; omega)
      rw [(yearOfEra_ends y (by omega)).2, hy] at hbefore
      omega
  have hend (hy : yearOfEra day < 399) : day < startOfEra (yearOfEra day + 1) := by
    by_contra hge
    rcases Nat.lt_or_ge (yearOfEra day + 1) 399 with hnext | hnext
    · have hafter := yearOfEra_mono (not_lt.mp hge)
      rw [(yearOfEra_ends _ hnext).1] at hafter
      omega
    · have hy398 : yearOfEra day = 398 := by omega
      have h399 : yearOfEra (startOfEra 399) = 399 := by decide
      have hafter := yearOfEra_mono (not_lt.mp hge)
      rw [hy398, h399] at hafter
      omega
  refine ⟨by omega, hstart, ?_, hend⟩
  rcases Nat.lt_or_ge (yearOfEra day) 399 with hy | hy
  · have hlt := hend hy
    unfold startOfEra at hlt ⊢
    omega
  · have hy399 : yearOfEra day = 399 := by omega
    rw [hy399]
    have : startOfEra 399 = 145731 := by decide
    omega

/-- The year from March that a day since 1970 is in. -/
def marchYear (days : ℤ) : ℤ :=
  yearOfEra ((days + 719468) % 146097).toNat + (days + 719468) / 146097 * 400

/-- The day of that year. -/
def marchDay (days : ℤ) : ℤ := days + 719468 - marchStart (marchYear days)

lemma marchStart_era (year : ℕ) (h : year < 400) (era : ℤ) :
    marchStart (year + era * 400) = startOfEra year + era * 146097 := by
  unfold marchStart startOfEra
  omega

lemma marchStart_mono {a b : ℤ} (h : a ≤ b) : marchStart a ≤ marchStart b := by
  unfold marchStart
  omega

lemma marchYear_spec (days : ℤ) : marchStart (marchYear days) ≤ days + 719468 ∧
    days + 719468 < marchStart (marchYear days + 1) ∧
    marchDay days = ((days + 719468) % 146097).toNat -
      startOfEra (yearOfEra ((days + 719468) % 146097).toNat) ∧ marchDay days ≤ 365 := by
  set z := days + 719468
  set day := (z % 146097).toNat with hday
  have hz : z = z / 146097 * 146097 + day := by omega
  obtain ⟨hlt, hstart, hlen, hend⟩ := yearOfEra_spec day (by omega)
  have hyear : marchYear days = yearOfEra day + z / 146097 * 400 := rfl
  have hbegin := marchStart_era _ hlt (z / 146097)
  have hdayOf : marchDay days = day - startOfEra (yearOfEra day) := by
    unfold marchDay
    rw [hyear, hbegin]
    omega
  refine ⟨by rw [hyear, hbegin]; omega, ?_, hdayOf, by omega⟩
  rw [hyear]
  rcases Nat.lt_or_ge (yearOfEra day) 399 with hy | hy
  · have hnext := marchStart_era (yearOfEra day + 1) (by omega) (z / 146097)
    have hfollow := hend hy
    push_cast at hnext
    rw [show (yearOfEra day : ℤ) + z / 146097 * 400 + 1 = yearOfEra day + 1 + z / 146097 * 400 by
      omega, hnext]
    omega
  · have hy399 : yearOfEra day = 399 := by omega
    have hnext := marchStart_era 0 (by omega) (z / 146097 + 1)
    have hzero : startOfEra 0 = 0 := rfl
    rw [hy399, show ((399 : ℕ) : ℤ) + z / 146097 * 400 + 1 = (0 : ℕ) + (z / 146097 + 1) * 400 by
      omega, hnext, hzero]
    omega

/-! ### Months -/

/-- The month of a date, counted through the years. -/
def monthIndex (days : ℤ) : ℤ := 12 * (civilDate days).1 + (civilDate days).2.1

/-- The month of a day of a year from March, counted from 0. -/
def monthFromMarch (day : ℕ) : ℕ := (5 * day + 2) / 153

lemma civilDate_eq (days : ℤ) : (civilDate days).1 = marchYear days +
      (if (civilDate days).2.1 ≤ 2 then 1 else 0) ∧
    (civilDate days).2.1 = if monthFromMarch (marchDay days).toNat < 10 then
      monthFromMarch (marchDay days).toNat + 3 else monthFromMarch (marchDay days).toNat - 9 := by
  obtain ⟨-, -, hday, -⟩ := marchYear_spec days
  obtain ⟨-, hstart, -, -⟩ :=
    yearOfEra_spec ((days + 719468) % 146097).toNat (by omega)
  have hnat : (marchDay days).toNat = ((days + 719468) % 146097).toNat -
      startOfEra (yearOfEra ((days + 719468) % 146097).toNat) := by omega
  rw [hnat]
  exact ⟨rfl, rfl⟩

lemma monthIndex_eq (days : ℤ) :
    monthIndex days = 12 * marchYear days + monthFromMarch (marchDay days).toNat + 3 ∧
      1 ≤ (civilDate days).2.1 ∧ (civilDate days).2.1 ≤ 12 := by
  obtain ⟨-, -, -, hle⟩ := marchYear_spec days
  obtain ⟨hyear, hmonth⟩ := civilDate_eq days
  have hmarch : monthFromMarch (marchDay days).toNat ≤ 11 := by
    unfold monthFromMarch
    omega
  unfold monthIndex
  rw [hyear, hmonth]
  split_ifs <;> omega

lemma marchYear_mono {a b : ℤ} (h : a ≤ b) : marchYear a ≤ marchYear b := by
  obtain ⟨ha, -, -, -⟩ := marchYear_spec a
  obtain ⟨-, hb, -, -⟩ := marchYear_spec b
  by_contra hlt
  have hmono := marchStart_mono (a := marchYear b + 1) (b := marchYear a) (by omega)
  omega

/-- A later day is in no earlier month. -/
theorem monthIndex_mono {a b : ℤ} (h : a ≤ b) : monthIndex a ≤ monthIndex b := by
  obtain ⟨-, -, -, hle⟩ := marchYear_spec a
  rw [(monthIndex_eq a).1, (monthIndex_eq b).1]
  unfold monthFromMarch
  rcases (marchYear_mono h).lt_or_eq with hlt | heq
  · omega
  · have hday : marchDay a ≤ marchDay b := by
      unfold marchDay
      rw [heq]
      omega
    omega

lemma civilDate_eq_of_monthIndex {a b : ℤ} (h : monthIndex a = monthIndex b) :
    (civilDate a).1 = (civilDate b).1 ∧ (civilDate a).2.1 = (civilDate b).2.1 := by
  obtain ⟨-, ha, ha'⟩ := monthIndex_eq a
  obtain ⟨-, hb, hb'⟩ := monthIndex_eq b
  unfold monthIndex at h
  omega

/-! ### How a month is written -/

lemma toList_padStart (width n : ℕ) : (padStart width n).toList =
    List.replicate (width - (Nat.toDigits 10 n).length) '0' ++ Nat.toDigits 10 n := by
  simp only [padStart, Nat.toString_eq_ofList_toDigits, String.toList_ofList]

/-- A number that fits is written with as many digits as it should have, and read back. -/
lemma padStart_spec (width n : ℕ) (hwidth : 0 < width) (h : n < 10 ^ width) :
    (padStart width n).toList.length = width ∧
      (∀ c ∈ (padStart width n).toList, c.isDigit = true) ∧
      Nat.ofDigitChars 10 (padStart width n).toList 0 = n := by
  have hlength := (Nat.length_toDigits_le_iff (b := 10) (by omega) hwidth).mpr h
  rw [toList_padStart]
  refine ⟨?_, fun c hc => ?_, ?_⟩
  · rw [List.length_append, List.length_replicate]
    omega
  · rcases List.mem_append.mp hc with hc | hc
    · rw [List.eq_of_mem_replicate hc]
      decide
    · exact Nat.isDigit_of_mem_toDigits (by omega) le_rfl hc
  · rw [Nat.ofDigitChars_append, Nat.ofDigitChars_replicate_zero, Nat.mul_zero,
      Nat.ofDigitChars_ten_toDigits]

lemma padStart_injective {width m n : ℕ} (hwidth : 0 < width) (hm : m < 10 ^ width)
    (hn : n < 10 ^ width) (h : (padStart width m).toList = (padStart width n).toList) : m = n := by
  rw [← (padStart_spec width m hwidth hm).2.2, h, (padStart_spec width n hwidth hn).2.2]

/-- The years of four digits. -/
def FourDigits (ms : ℤ) : Prop :=
  0 ≤ (civilDate (ms / DAY_MS)).1 ∧ (civilDate (ms / DAY_MS)).1 ≤ 9999

instance (ms : ℤ) : Decidable (FourDigits ms) := inferInstanceAs (Decidable (_ ∧ _))

lemma take_toISOString {ms : ℤ} (h : FourDigits ms) : (toISOString ms).toList.take 7 =
    (padStart 4 (civilDate (ms / DAY_MS)).1.toNat).toList ++
      '-' :: (padStart 2 (civilDate (ms / DAY_MS)).2.1).toList := by
  obtain ⟨hyear, hyear'⟩ := h
  obtain ⟨-, -, hmonth⟩ := monthIndex_eq (ms / DAY_MS)
  have hfour := (padStart_spec 4 (civilDate (ms / DAY_MS)).1.toNat (by omega)
    (by omega)).1
  have htwo := (padStart_spec 2 (civilDate (ms / DAY_MS)).2.1 (by omega)
    (by omega)).1
  have hdash : "-".toList = ['-'] := String.toList_ofList
  simp only [toISOString, hyear, hyear', and_self, if_true, String.toList_append, hdash,
    List.append_assoc, List.cons_append, List.nil_append]
  rw [List.take_append, hfour, List.take_of_length_le (i := 7) (by omega), List.take_succ_cons,
    List.take_append, htwo, List.take_of_length_le (i := 2) htwo.le, Nat.sub_self, List.take_zero,
    List.append_nil]

end Tnp.Namespace
