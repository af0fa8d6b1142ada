import Mathlib.Data.List.Basic
import Mathlib.Tactic.Lemma

/-!
Replacing every match in a list, in one pass from left to right.

A matcher looks at the front of a list and says how many elements it matched and what stands in
their place. What was put in is not looked at again.
-/

namespace Tnp.Lib

variable {α : Type*} (m : List α → Option (ℕ × List α))

/-- The pass, with so many elements still to be stepped over. -/
def replaceFrom : ℕ → List α → List α
  | _, [] => []
  | skip + 1, _ :: rest => replaceFrom skip rest
  | 0, a :: rest =>
    match m (a :: rest) with
    | some (n, new) => new ++ replaceFrom (n - 1) rest
    | none => a :: replaceFrom 0 rest

def replaceAll (l : List α) : List α := replaceFrom m 0 l

@[simp] lemma replaceAll_nil : replaceAll m [] = [] := rfl

lemma replaceFrom_eq_drop (k : ℕ) (l : List α) : replaceFrom m k l = replaceAll m (l.drop k) := by
  induction l generalizing k with
  | nil => simp [replaceFrom, replaceAll]
  | cons a rest ih =>
    cases k with
    | zero => rfl
    | succ k => exact ih k

variable {m}

lemma replaceAll_of_none {a : α} {rest : List α} (h : m (a :: rest) = none) :
    replaceAll m (a :: rest) = a :: replaceAll m rest := by
  rw [replaceAll, replaceFrom, h]
  rfl

lemma replaceAll_of_match {w rest new : List α} (hw : w ≠ [])
    (h : m (w ++ rest) = some (w.length, new)) :
    replaceAll m (w ++ rest) = new ++ replaceAll m rest := by
  obtain ⟨a, w, rfl⟩ := List.exists_cons_of_ne_nil hw
  rw [List.cons_append] at h ⊢
  rw [replaceAll, replaceFrom, h]
  change new ++ replaceFrom m w.length (w ++ rest) = _
  rw [replaceFrom_eq_drop, List.drop_left]

/-- A match is not empty and lies within the list. -/
def Inside (m : List α → Option (ℕ × List α)) : Prop :=
  ∀ l n new, m l = some (n, new) → 0 < n ∧ n ≤ l.length

/-- A list is read match by match, and element by element between the matches. -/
@[elab_as_elim] theorem replace_induction {motive : List α → Prop} (hm : Inside m)
    (nil : motive [])
    (matched : ∀ w rest new, w ≠ [] → m (w ++ rest) = some (w.length, new) → motive rest →
      motive (w ++ rest))
    (literal : ∀ a rest, m (a :: rest) = none → motive rest → motive (a :: rest))
    (l : List α) : motive l := by
  induction hn : l.length using Nat.strongRecOn generalizing l with
  | ind n ih =>
    cases l with
    | nil => exact nil
    | cons a rest =>
      rcases h : m (a :: rest) with _ | ⟨k, new⟩
      · exact literal a rest h (ih rest.length (by simp [← hn]) rest rfl)
      · obtain ⟨hpos, hle⟩ := hm _ _ _ h
        have hlen : ((a :: rest).take k).length = k := List.length_take_of_le hle
        have hsplit : (a :: rest).take k ++ (a :: rest).drop k = a :: rest :=
          List.take_append_drop k _
        rw [← hsplit] at h ⊢
        refine matched _ _ new ?_ (by rw [h, hlen]) (ih _ ?_ _ rfl)
        · intro hnil
          rw [hnil] at hlen
          simp only [List.length_nil] at hlen
          omega
        · rw [List.length_drop, ← hn]
          simp only [List.length_cons] at hle ⊢
          omega

end Tnp.Lib
