import Mathlib.Algebra.Order.Floor.Ring
import Mathlib.Tactic.Linarith
import Mathlib.Tactic.FieldSimp

/-!
Lives that are counted down in whole units while a thing is held.

Counted down by the units that have begun, nothing outlives the life it was stored with. Counted
down by those that have passed, it does so by the part of a unit.
-/

namespace Tnp.Lib

variable {K : Type*} [Field K] [LinearOrder K] [IsStrictOrderedRing K] [FloorRing K]
  {unit now left storedAt life : K}

/-- A life of so many units from now ends no later than one of so many since it was stored. -/
def Within (unit now left storedAt life : K) : Prop := now + unit * left ≤ storedAt + unit * life

omit [IsStrictOrderedRing K] [FloorRing K] in
lemma Within.trans {earlier more : K} (h : Within unit now left storedAt life)
    (h' : Within unit storedAt life earlier more) : Within unit now left earlier more :=
  le_trans h h'

/-- Counted down by the units that have begun. -/
lemma within_ceil (hunit : 0 < unit) (h : now ≤ storedAt + unit * life) :
    Within unit now (max 0 (life - ⌈(now - storedAt) / unit⌉)) storedAt life := by
  have hceil : (now - storedAt) / unit ≤ ⌈(now - storedAt) / unit⌉ := Int.le_ceil _
  rw [div_le_iff₀ hunit] at hceil
  rw [Within, mul_max_of_nonneg _ _ hunit.le, ← max_add_add_left, max_le_iff]
  constructor
  · linarith
  · linarith [mul_sub unit life ⌈(now - storedAt) / unit⌉]

/-- Counted down by the units that have passed, a thing lives longer by the part of one. -/
lemma within_floor_iff (hunit : 0 < unit) {earlier more : K} :
    Within unit now (life - ⌊(now - storedAt) / unit⌋) earlier more ↔
      unit * Int.fract ((now - storedAt) / unit) ≤
        (earlier + unit * more) - (storedAt + unit * life) := by
  have hfract : unit * Int.fract ((now - storedAt) / unit) =
      now - storedAt - unit * ⌊(now - storedAt) / unit⌋ := by
    rw [Int.fract, mul_sub, mul_div_cancel₀ _ hunit.ne']
  rw [hfract, Within, mul_sub]
  constructor
  · intro h
    linarith
  · intro h
    linarith

omit [Field K] [IsStrictOrderedRing K] [FloorRing K] in
/-- The least of a list is no more than any of it. -/
lemma foldl_min_le (x : K) (xs : List K) : ∀ y ∈ x :: xs, xs.foldl min x ≤ y := by
  induction xs generalizing x with
  | nil => simp
  | cons next xs ih =>
    rw [List.foldl_cons]
    have hhead := ih (min x next) (min x next) List.mem_cons_self
    rintro y (_ | ⟨_, _ | ⟨_, hy⟩⟩)
    · exact hhead.trans (min_le_left _ _)
    · exact hhead.trans (min_le_right _ _)
    · exact ih _ y (List.mem_cons_of_mem _ hy)

end Tnp.Lib
