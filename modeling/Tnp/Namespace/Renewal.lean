import Tnp.Namespace.Calendar

/-!
The expiry that a renewal sets: a calendar year later.

A year after 29 February is 1 March. Dates are not kept in their order by that, and this is all
that is lost: two dates are at most a day out of order.
-/

namespace Tnp.Namespace

def NATIVE_TERM_YEARS : ℤ := 1

/-- The day of a date, with days past the end of a month taken into the next. -/
def makeDay (year : ℤ) (month date : ℕ) : ℤ :=
  let marchYear := if month ≤ 2 then year - 1 else year
  let fromMarch := if month ≤ 2 then month + 9 else month - 3
  marchStart marchYear + (153 * fromMarch + 2) / 5 + (date - 1) - 719468

/-- `setUTCFullYear`. -/
def setUTCFullYear (ms year : ℤ) : ℤ :=
  let (_, month, date) := civilDate (ms / DAY_MS)
  makeDay year month date * DAY_MS + ms % DAY_MS

def nextNativeExpiry (expiresAt : Option ℤ) (now : ℤ) : ℤ :=
  let base := match expiresAt with
    | none => now
    | some expiresAt => if expiresAt < now then now else expiresAt
  setUTCFullYear base ((civilDate (base / DAY_MS)).1 + NATIVE_TERM_YEARS)

/-! ### A year later -/

/-- How many days a year from March has. -/
def marchLength (year : ℤ) : ℤ := marchStart (year + 1) - marchStart year

lemma marchLength_eq (year : ℤ) : marchLength year = 365 ∨ marchLength year = 366 := by
  unfold marchLength marchStart
  omega

/-- The same date of the next year. -/
def addYear (ms : ℤ) : ℤ := ms + marchLength (marchYear (ms / DAY_MS)) * DAY_MS

/-- It is 29 February. -/
def LeapDay (ms : ℤ) : Prop := marchDay (ms / DAY_MS) = 365

lemma civilDate_date (days : ℤ) : (civilDate days).2.2 =
    (marchDay days).toNat - (153 * monthFromMarch (marchDay days).toNat + 2) / 5 + 1 := by
  obtain ⟨-, -, hday, -⟩ := marchYear_spec days
  obtain ⟨-, hstart, -, -⟩ := yearOfEra_spec ((days + 719468) % 146097).toNat (by omega)
  have hnat : (marchDay days).toNat = ((days + 719468) % 146097).toNat -
      startOfEra (yearOfEra ((days + 719468) % 146097).toNat) := by omega
  rw [hnat]
  rfl

lemma makeDay_next (days : ℤ) :
    makeDay ((civilDate days).1 + 1) (civilDate days).2.1 (civilDate days).2.2 =
      days + marchLength (marchYear days) := by
  obtain ⟨hstart, -, -, hle⟩ := marchYear_spec days
  obtain ⟨hyear, hmonth⟩ := civilDate_eq days
  have hdate := civilDate_date days
  have hday : marchDay days = days + 719468 - marchStart (marchYear days) := rfl
  have hlength : marchLength (marchYear days) =
      marchStart (marchYear days + 1) - marchStart (marchYear days) := rfl
  have hfrom : 153 * monthFromMarch (marchDay days).toNat ≤ 5 * (marchDay days).toNat + 2 ∧
      monthFromMarch (marchDay days).toNat ≤ 11 := by
    unfold monthFromMarch
    omega
  generalize monthFromMarch (marchDay days).toNat = fromMarch at hmonth hdate hfrom
  unfold makeDay
  dsimp only
  rw [hyear, hdate]
  by_cases hlate : fromMarch < 10
  · rw [if_pos hlate] at hmonth
    rw [hmonth, if_neg (by omega), if_neg (by omega), if_neg (by omega),
      show fromMarch + 3 - 3 = fromMarch by omega, Int.add_zero, hlength]
    push_cast
    omega
  · rw [if_neg hlate] at hmonth
    rw [hmonth, if_pos (by omega), if_pos (by omega), if_pos (by omega),
      show fromMarch - 9 + 9 = fromMarch by omega,
      show marchYear days + 1 + 1 - 1 = marchYear days + 1 by omega, hlength]
    push_cast
    omega

lemma setUTCFullYear_next (ms : ℤ) :
    setUTCFullYear ms ((civilDate (ms / DAY_MS)).1 + NATIVE_TERM_YEARS) = addYear ms := by
  unfold setUTCFullYear addYear NATIVE_TERM_YEARS
  dsimp only
  rw [makeDay_next, Int.add_mul]
  have hsplit := Int.ediv_mul_add_emod ms DAY_MS
  omega

/-- **A renewal sets a year after the later of the expiry and the clock.** -/
theorem nextNativeExpiry_eq (expiresAt now : ℤ) :
    nextNativeExpiry (some expiresAt) now = addYear (max expiresAt now) := by
  unfold nextNativeExpiry
  rw [setUTCFullYear_next]
  dsimp only
  split
  · next h => rw [max_eq_right h.le]
  · next h => rw [max_eq_left (not_lt.mp h)]

lemma lt_addYear (ms : ℤ) : ms + 365 * DAY_MS ≤ addYear ms ∧ addYear ms ≤ ms + 366 * DAY_MS := by
  unfold addYear
  have hday : (0 : ℤ) < DAY_MS := by decide
  rcases marchLength_eq (marchYear (ms / DAY_MS)) with h | h <;> rw [h] <;> omega

/-- **An earlier time is a year later not after the year of a later one, but for a 29 February,
which is by less than a day.** -/
theorem addYear_le {s t : ℤ} (h : s ≤ t) :
    addYear s ≤ addYear t ∨ LeapDay s ∧ addYear s < addYear t + DAY_MS := by
  have hday : (0 : ℤ) < DAY_MS := by decide
  have hyears := marchYear_mono (Int.ediv_le_ediv hday h)
  obtain ⟨-, -, -, hle⟩ := marchYear_spec (s / DAY_MS)
  obtain ⟨hstart, -, -, -⟩ := marchYear_spec (t / DAY_MS)
  have hs : marchDay (s / DAY_MS) =
    s / DAY_MS + 719468 - marchStart (marchYear (s / DAY_MS)) := rfl
  rcases hyears.lt_or_eq with hlt | heq
  · -- The year of the later time begins after the last day of the earlier one's.
    have hmono : marchStart (marchYear (s / DAY_MS) + 1) ≤ marchStart (marchYear (t / DAY_MS)) :=
      marchStart_mono (by omega)
    have hlength : marchLength (marchYear (s / DAY_MS)) =
      marchStart (marchYear (s / DAY_MS) + 1) - marchStart (marchYear (s / DAY_MS)) := rfl
    have hlater := (lt_addYear t).1
    unfold LeapDay
    have hnow : addYear s = s + marchLength (marchYear (s / DAY_MS)) * DAY_MS := rfl
    have hms : DAY_MS = 86400000 := rfl
    simp only [hms] at hle hstart hs hmono hlength hlater hnow ⊢
    rcases marchLength_eq (marchYear (s / 86400000)) with hshort | hlong
    · rw [hshort] at hlength hnow
      omega
    · rw [hlong] at hlength hnow
      omega
  · left
    unfold addYear
    rw [heq]
    exact Int.add_le_add_right h _

end Tnp.Namespace
