import Mathlib.Data.List.Induction
import Mathlib.Tactic.Ring
import Mathlib.Tactic.Lemma

/-!
Byte strings and fixed-width big-endian numbers, as a `DataView` with
`littleEndian = false` writes and reads them.
-/

namespace Tnp.Lib

abbrev Bytes := List UInt8

lemma length_zeros : (List.replicate 32 (0 : UInt8)).length = 32 := List.length_replicate

lemma length_ones : (List.replicate 32 (1 : UInt8)).length = 32 := List.length_replicate

/-- The low `w` bytes of `n`, most significant first. -/
def be : ℕ → ℕ → Bytes
  | 0, _ => []
  | w + 1, n => be w (n / 256) ++ [UInt8.ofNat n]

/-- The number a byte string spells, most significant byte first. -/
def ofBe (bs : Bytes) : ℕ := bs.foldl (fun a b => a * 256 + b.toNat) 0

@[simp] lemma length_be (w n : ℕ) : (be w n).length = w := by
  induction w generalizing n with
  | zero => rfl
  | succ w ih => simp [be, ih]

@[simp] lemma ofBe_nil : ofBe [] = 0 := rfl

@[simp] lemma ofBe_snoc (bs : Bytes) (b : UInt8) : ofBe (bs ++ [b]) = ofBe bs * 256 + b.toNat := by
  simp [ofBe, List.foldl_append]

lemma ofBe_be (w n : ℕ) : ofBe (be w n) = n % 256 ^ w := by
  induction w generalizing n with
  | zero => simp [be, Nat.mod_one]
  | succ w ih =>
    rw [be, ofBe_snoc, ih, pow_succ, Nat.mul_comm (256 ^ w) 256, Nat.mod_mul]
    simp only [UInt8.toNat_ofNat']
    ring

lemma ofBe_be_of_lt {w n : ℕ} (h : n < 256 ^ w) : ofBe (be w n) = n := by
  rw [ofBe_be, Nat.mod_eq_of_lt h]

/-- A fixed-width field determines a number that fits in it. -/
lemma be_injective {w m n : ℕ} (hm : m < 256 ^ w) (hn : n < 256 ^ w) (h : be w m = be w n) :
    m = n := by
  rw [← ofBe_be_of_lt hm, h, ofBe_be_of_lt hn]

lemma ofBe_lt (bs : Bytes) : ofBe bs < 256 ^ bs.length := by
  induction bs using List.reverseRecOn with
  | nil => simp
  | append_singleton bs b ih =>
    have hb : b.toNat < 256 := b.toNat_lt
    rw [ofBe_snoc, List.length_append, List.length_singleton, pow_succ]
    omega

lemma be_ofBe (bs : Bytes) : be bs.length (ofBe bs) = bs := by
  induction bs using List.reverseRecOn with
  | nil => rfl
  | append_singleton bs b ih =>
    have hb : b.toNat < 256 := b.toNat_lt
    have hdiv : (ofBe bs * 256 + b.toNat) / 256 = ofBe bs := by omega
    have hlast : UInt8.ofNat (ofBe bs * 256 + b.toNat) = b := by
      apply UInt8.toNat_inj.mp
      rw [UInt8.toNat_ofNat']
      omega
    rw [List.length_append, List.length_singleton, ofBe_snoc, be, hdiv, ih, hlast]

end Tnp.Lib
