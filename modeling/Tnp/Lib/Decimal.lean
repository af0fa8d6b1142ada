import Mathlib

/-!
Numbers written out in decimal: digits, and perhaps a point with more digits.

To scale by a power of ten is to move the point, so what a scaled number is can be read off the
digits as long as none of them is left behind the point.
-/

namespace Tnp.Lib

/-- Digits, of which those after the point are apart. -/
structure Decimal where
  whole : List Char
  fraction : List Char
  whole_ne_nil : whole ≠ []
  isDigit_whole : ∀ c ∈ whole, c.isDigit = true
  isDigit_fraction : ∀ c ∈ fraction, c.isDigit = true

namespace Decimal

variable (d : Decimal)

/-- There is a point only where digits follow it. -/
def text : List Char :=
  if d.fraction = [] then d.whole else d.whole ++ '.' :: d.fraction

def value : ℚ := Nat.ofDigitChars 10 (d.whole ++ d.fraction) 0 / 10 ^ d.fraction.length

/-- The number that a text writes out. -/
def parse (cs : List Char) : Option Decimal :=
  if hwhole : cs.takeWhile Char.isDigit = [] then none
  else
    match cs.dropWhile Char.isDigit with
    | [] => some ⟨_, [], hwhole, fun _ => List.mem_takeWhile_imp, by simp⟩
    | '.' :: fraction =>
      if hfraction : fraction ≠ [] ∧ ∀ c ∈ fraction, c.isDigit = true then
        some ⟨_, fraction, hwhole, fun _ => List.mem_takeWhile_imp, hfraction.2⟩
      else none
    | _ => none

/-! ### A text writes out one number -/

lemma text_of_parse {cs : List Char} {d : Decimal} (h : parse cs = some d) : d.text = cs := by
  unfold parse at h
  split at h
  · simp at h
  have hcut := List.takeWhile_append_dropWhile (p := Char.isDigit) (l := cs)
  split at h
  next hrest =>
    obtain rfl := Option.some.inj h
    rw [hrest, List.append_nil] at hcut
    exact hcut
  next fraction hrest =>
    split at h
    next hfraction =>
      obtain rfl := Option.some.inj h
      rw [hrest] at hcut
      simp only [text, hfraction.1, if_false]
      exact hcut
    · simp at h
  · simp at h

lemma takeWhile_text : d.text.takeWhile Char.isDigit = d.whole := by
  unfold text
  split
  · exact List.takeWhile_eq_self_iff.mpr d.isDigit_whole
  · rw [List.takeWhile_append_of_pos d.isDigit_whole, List.takeWhile_cons_of_neg (by decide),
      List.append_nil]

lemma dropWhile_text :
    d.text.dropWhile Char.isDigit = if d.fraction = [] then [] else '.' :: d.fraction := by
  unfold text
  split
  · exact List.dropWhile_eq_nil_iff.mpr d.isDigit_whole
  · rw [List.dropWhile_append_of_pos d.isDigit_whole, List.dropWhile_cons_of_neg (by decide)]

lemma text_injective {d e : Decimal} (h : d.text = e.text) : d = e := by
  have hwhole : d.whole = e.whole := by rw [← takeWhile_text, h, takeWhile_text]
  have hrest := dropWhile_text d
  rw [h, dropWhile_text] at hrest
  have hfraction : d.fraction = e.fraction := by
    split at hrest <;> split at hrest <;> simp_all
  obtain ⟨whole, fraction, _, _, _⟩ := d
  obtain ⟨whole', fraction', _, _, _⟩ := e
  obtain rfl := hwhole
  obtain rfl := hfraction
  rfl

lemma isSome_parse_text : (parse d.text).isSome = true := by
  unfold parse
  rw [dif_neg (by rw [takeWhile_text]; exact d.whole_ne_nil)]
  split
  · rfl
  next fraction hrest =>
    rw [dropWhile_text] at hrest
    split at hrest
    · simp at hrest
    next hne =>
      obtain rfl : d.fraction = fraction := (List.cons.inj hrest).2
      rw [dif_pos ⟨hne, d.isDigit_fraction⟩]
      rfl
  next hempty hpoint =>
    rw [dropWhile_text] at hempty hpoint
    split at hempty
    · exact absurd rfl hempty
    next hne => exact absurd (if_neg hne) (hpoint _)

/-- **Reading.** A number is read of a text exactly where the text writes it out. -/
lemma parse_eq_some {cs : List Char} : parse cs = some d ↔ d.text = cs := by
  refine ⟨text_of_parse, ?_⟩
  rintro rfl
  obtain ⟨e, he⟩ := Option.isSome_iff_exists.mp (isSome_parse_text d)
  rw [he, text_injective (text_of_parse he)]

/-! ### Moving the point -/

lemma ofDigitChars_append (front back : List Char) :
    Nat.ofDigitChars 10 (front ++ back) 0 =
      10 ^ back.length * Nat.ofDigitChars 10 front 0 + Nat.ofDigitChars 10 back 0 := by
  rw [Nat.ofDigitChars_append, Nat.ofDigitChars_eq_ofDigitChars_zero]

lemma ofDigitChars_append_zeros (cs : List Char) (n : ℕ) :
    Nat.ofDigitChars 10 (cs ++ List.replicate n '0') 0 = 10 ^ n * Nat.ofDigitChars 10 cs 0 := by
  rw [Nat.ofDigitChars_append, Nat.ofDigitChars_replicate_zero]

/-- The fraction without the zeros at its end. -/
def significant : List Char := d.fraction.rdropWhile (· = '0')

lemma fraction_eq : ∃ n, d.fraction = d.significant ++ List.replicate n '0' := by
  refine ⟨(d.fraction.rtakeWhile (· = '0')).length, ?_⟩
  have hzeros : d.fraction.rtakeWhile (· = '0') =
      List.replicate (d.fraction.rtakeWhile (· = '0')).length '0' := by
    refine List.eq_replicate_of_mem fun c hc => ?_
    simpa using List.mem_rtakeWhile_imp hc
  rw [← hzeros]
  exact List.rdropWhile_append_rtakeWhile.symm

/-- Zeros at the end of the fraction say nothing. -/
lemma value_eq :
    d.value = Nat.ofDigitChars 10 (d.whole ++ d.significant) 0 / 10 ^ d.significant.length := by
  obtain ⟨n, hn⟩ := fraction_eq d
  have hpow : (10 : ℚ) ^ n ≠ 0 := pow_ne_zero _ (by norm_num)
  rw [value, hn, ← List.append_assoc, ofDigitChars_append_zeros, List.length_append,
    List.length_replicate, pow_add, Nat.cast_mul, Nat.cast_pow, Nat.cast_ofNat, mul_comm,
    mul_div_mul_right _ _ hpow]

/-- The digits with the point moved to their end. -/
lemma value_mul_pow {n : ℕ} (h : d.significant.length ≤ n) :
    d.value * 10 ^ n =
      (Nat.ofDigitChars 10 (d.whole ++ d.significant.rightpad n '0') 0 : ℕ) := by
  have hpow : (10 : ℚ) ^ d.significant.length ≠ 0 := pow_ne_zero _ (by norm_num)
  rw [value_eq, List.rightpad, ← List.append_assoc, ofDigitChars_append_zeros, Nat.cast_mul,
    Nat.cast_pow, Nat.cast_ofNat, div_mul_eq_mul_div, div_eq_iff hpow]
  obtain ⟨k, rfl⟩ := Nat.exists_eq_add_of_le h
  rw [Nat.add_sub_cancel_left, pow_add]
  ring

lemma not_dvd_of_getLast (cs : List Char) {c : Char} (hdigit : c.isDigit = true) (hc : c ≠ '0') :
    ¬ 10 ∣ Nat.ofDigitChars 10 (cs ++ [c]) 0 := by
  have hne : c.toNat ≠ 48 := fun h => hc (Char.toNat_inj.mp h)
  simp only [Char.isDigit, Bool.and_eq_true, decide_eq_true_eq] at hdigit
  have hbounds : 48 ≤ c.toNat ∧ c.toNat ≤ 57 := hdigit
  rw [ofDigitChars_append, Nat.ofDigitChars_cons, Nat.ofDigitChars_nil]
  have hzero : '0'.toNat = 48 := rfl
  rw [hzero, List.length_singleton]
  omega

/-- A significant digit behind the point keeps a number from being whole. -/
lemma significant_length_le {n : ℕ} {m : ℤ} (h : d.value * 10 ^ n = m) :
    d.significant.length ≤ n := by
  by_contra hlong
  obtain ⟨k, hk⟩ := Nat.exists_eq_add_of_lt (not_le.mp hlong)
  have hne : d.significant ≠ [] := by
    intro hnil
    rw [hnil] at hk
    simp at hk
  have hlast : d.significant.getLast hne ≠ '0' := by
    have hnot : ¬ decide (d.significant.getLast hne = '0') = true :=
      List.rdropWhile_last_not _ d.fraction hne
    exact fun hzero => hnot (decide_eq_true hzero)
  have hdigit : (d.significant.getLast hne).isDigit = true := by
    refine d.isDigit_fraction _ ?_
    exact (List.rdropWhile_prefix _ _).subset (List.getLast_mem hne)
  -- all digits together are a multiple of ten, which the last of them forbids
  have hmul : (Nat.ofDigitChars 10 (d.whole ++ d.significant) 0 : ℤ) = 10 ^ (k + 1) * m := by
    have hpow : (10 : ℚ) ^ d.significant.length ≠ 0 := pow_ne_zero _ (by norm_num)
    rw [value_eq, div_mul_eq_mul_div, div_eq_iff hpow, hk] at h
    have hn : (10 : ℚ) ^ n ≠ 0 := pow_ne_zero _ (by norm_num)
    have hq : (Nat.ofDigitChars 10 (d.whole ++ d.significant) 0 : ℚ) = 10 ^ (k + 1) * m := by
      refine mul_right_cancel₀ hn ?_
      rw [h, add_assoc, pow_add]
      ring
    exact_mod_cast hq
  refine not_dvd_of_getLast (d.whole ++ d.significant.dropLast) hdigit hlast ?_
  rw [List.append_assoc, List.dropLast_append_getLast hne]
  refine Int.natCast_dvd_natCast.mp ?_
  rw [hmul, pow_succ]
  exact ⟨10 ^ k * m, by push_cast; ring⟩

end Decimal

end Tnp.Lib
