import Mathlib.Algebra.Group.Nat.Defs
import Mathlib.Data.Nat.Log
import Mathlib.Tactic.Lemma

/-!
Natural numbers as doubles: what 53 bits cannot hold is rounded to the nearest that they can, and
to the even one of two.
-/

namespace Tnp.Lib.Binary64

/-- How many bits are past the last that is kept. -/
def excess (n : ℕ) : ℕ := n.log2 - 52

def round (n : ℕ) : ℕ :=
  let unit := 2 ^ excess n
  let low := n / unit
  let rest := n % unit
  if 2 * rest < unit ∨ 2 * rest = unit ∧ low % 2 = 0 then low * unit else (low + 1) * unit

def add (m n : ℕ) : ℕ := round (m + n)

/-- A number of 53 bits is kept as it is. -/
lemma round_of_lt {n : ℕ} (h : n < 2 ^ 53) : round n = n := by
  have hexcess : excess n = 0 := by
    rcases Nat.eq_zero_or_pos n with rfl | hpos
    · rfl
    · have hlog := (Nat.log2_lt hpos.ne').mpr h
      unfold excess
      omega
  unfold round
  rw [hexcess]
  simp [Nat.mod_one]

lemma add_of_lt {m n : ℕ} (h : m + n < 2 ^ 53) : add m n = m + n := round_of_lt h

end Tnp.Lib.Binary64
