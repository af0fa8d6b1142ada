import Mathlib.Data.List.Basic
import Mathlib.Tactic.Lemma

/-!
Tables whose rows are added and changed, but not taken out: the place of a row is its id.
-/

namespace Tnp.Lib.Table

variable {α : Type*} {l : List α} {a b : α} {i : ℕ}

lemma getElem?_concat : (l ++ [a])[i]? = some b ↔ l[i]? = some b ∨ i = l.length ∧ a = b := by
  rcases Nat.lt_trichotomy i l.length with h | rfl | h
  · rw [List.getElem?_append_left h]
    simp [Nat.ne_of_lt h]
  · simp
  · rw [List.getElem?_eq_none (by simp; omega), List.getElem?_eq_none (by omega)]
    simp [Nat.ne_of_gt h]

lemma getElem?_concat_of_some (h : l[i]? = some b) : (l ++ [a])[i]? = some b :=
  getElem?_concat.mpr (.inl h)

lemma getElem?_concat_new (l : List α) (a : α) : (l ++ [a])[l.length]? = some a :=
  getElem?_concat.mpr (.inr ⟨rfl, rfl⟩)

lemma lt_of_getElem? (h : l[i]? = some a) : i < l.length := (List.getElem?_eq_some_iff.mp h).1

/-- No two rows are the same in a sense, such as having one key. -/
def Distinct (same : α → α → Prop) (l : List α) : Prop :=
  ∀ (i j : ℕ) (a b : α), l[i]? = some a → l[j]? = some b → same a b → i = j

variable {same : α → α → Prop}

lemma Distinct.concat (h : Distinct same l) (hnew : ∀ x ∈ l, ¬ same x a ∧ ¬ same a x) :
    Distinct same (l ++ [a]) := by
  intro i j x y hx hy hsame
  rcases getElem?_concat.mp hx with hx | ⟨rfl, rfl⟩ <;>
    rcases getElem?_concat.mp hy with hy | ⟨rfl, rfl⟩
  · exact h i j x y hx hy hsame
  · exact absurd hsame (hnew x (List.mem_of_getElem? hx)).1
  · exact absurd hsame (hnew y (List.mem_of_getElem? hy)).2
  · rfl

/-- A row may change to one that is the same as no other. -/
lemma Distinct.set (h : Distinct same l)
    (hnew : ∀ j x, l[j]? = some x → j ≠ i → ¬ same x a ∧ ¬ same a x) :
    Distinct same (l.set i a) := by
  intro j k x y hx hy hsame
  rw [List.getElem?_set] at hx hy
  split at hx
  · next hj =>
    subst hj
    split at hy
    · next hk => exact hk
    · next hk =>
      split at hx
      · obtain rfl := Option.some.inj hx
        exact absurd hsame (hnew k y hy fun heq => hk heq.symm).2
      · contradiction
  · next hj =>
    split at hy
    · next hk =>
      subst hk
      split at hy
      · obtain rfl := Option.some.inj hy
        exact absurd hsame (hnew j x hx fun heq => hj heq.symm).1
      · contradiction
    · exact h j k x y hx hy hsame

end Tnp.Lib.Table
