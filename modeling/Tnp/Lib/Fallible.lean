import Mathlib.Data.List.Forall2
import Mathlib.Tactic.Lemma

/-!
Computations that may fail, one after the other.
-/

namespace Tnp.Lib

universe u v

variable {ε : Type u} {α β : Type v}

/-- Two computations succeed together exactly where the first succeeds, and the second does on
what the first returned. -/
lemma bind_eq_ok {x : Except ε α} {f : α → Except ε β} {b : β} :
    (x >>= f) = .ok b ↔ ∃ a, x = .ok a ∧ f a = .ok b := by
  cases x with
  | error e => simp [bind, Except.bind]
  | ok a => simp [bind, Except.bind]

/-- A check, and then the rest. -/
lemma check_eq_ok {p : Prop} [Decidable p] {e : ε} {x : Except ε α} {a : α} :
    (if p then .error e else x) = .ok a ↔ ¬ p ∧ x = .ok a := by
  split
  · next h => simp [h]
  · next h => simp [h]

/-- A check whose outcome the rest depends on. -/
lemma dcheck_eq_ok {p : Prop} [Decidable p] {e : ε} {f : ¬ p → Except ε α} {a : α} :
    (if h : p then .error e else f h) = .ok a ↔ ∃ h : ¬ p, f h = .ok a := by
  split
  · next h => simp [h]
  · next h => exact ⟨fun ha => ⟨h, ha⟩, fun ⟨_, ha⟩ => ha⟩

/-- A computation that never fails is a function of each element. -/
lemma mapM_eq_ok {f : α → Except ε β} {g : α → β} {l : List α} (h : ∀ a ∈ l, f a = .ok (g a)) :
    l.mapM f = .ok (l.map g) := by
  induction l with
  | nil => rfl
  | cons a l ih =>
    obtain ⟨ha, hl⟩ := List.forall_mem_cons.mp h
    rw [List.mapM_cons, ha, ih hl]
    rfl

/-- A map succeeds where the computation of each element does. -/
lemma mapM_eq_ok_iff {f : α → Except ε β} {l : List α} {bs : List β} :
    l.mapM f = .ok bs ↔ List.Forall₂ (fun a b => f a = .ok b) l bs := by
  induction l generalizing bs with
  | nil =>
    rw [List.forall₂_nil_left_iff, List.mapM_nil]
    exact ⟨fun h => (Except.ok.inj h).symm, fun h => h ▸ rfl⟩
  | cons a l ih =>
    simp only [List.mapM_cons, bind_eq_ok, List.forall₂_cons_left_iff, ih]
    constructor
    · rintro ⟨b, hb, cs, hcs, hpure⟩
      exact ⟨b, cs, hb, hcs, (Except.ok.inj hpure).symm⟩
    · rintro ⟨b, cs, hb, hcs, rfl⟩
      exact ⟨b, hb, cs, hcs, rfl⟩

/-- What holds at the start and survives each element holds of the result of a fold. -/
lemma foldlM_invariant {f : β → α → Except ε β} {P : β → Prop}
    (hstep : ∀ b a b', P b → f b a = .ok b' → P b') {l : List α} {b b' : β} (hb : P b)
    (h : l.foldlM f b = .ok b') : P b' := by
  induction l generalizing b with
  | nil => exact Except.ok.inj h ▸ hb
  | cons a l ih =>
    rw [List.foldlM_cons, bind_eq_ok] at h
    obtain ⟨mid, hmid, hrest⟩ := h
    exact ih (hstep b a mid hb hmid) hrest

lemma toOption_eq_some {x : Except ε α} {a : α} : x.toOption = some a ↔ x = .ok a := by
  cases x <;> simp [Except.toOption]

end Tnp.Lib
