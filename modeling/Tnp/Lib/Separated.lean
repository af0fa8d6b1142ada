import Mathlib.Data.List.Basic
import Mathlib.Tactic.Lemma

/-!
Lists joined by a separator, and split at one.
-/

namespace Tnp.Lib

variable {α β : Type*}

lemma mem_intercalate {c sep : α} {parts : List (List α)} (hc : c ∈ [sep].intercalate parts) :
    c = sep ∨ ∃ part ∈ parts, c ∈ part := by
  induction parts with
  | nil => simp at hc
  | cons part rest ih =>
    by_cases hrest : rest = []
    · subst hrest
      rw [List.intercalate_singleton] at hc
      exact .inr ⟨part, by simp, hc⟩
    · rw [List.intercalate_cons_of_ne_nil hrest, List.mem_append, List.mem_append,
        List.mem_singleton] at hc
      rcases hc with (hc | hc) | hc
      · exact .inr ⟨part, by simp, hc⟩
      · exact .inl hc
      · exact (ih hc).imp_right fun ⟨q, hq, hc⟩ => ⟨q, by simp [hq], hc⟩

lemma mem_splitOn [DecidableEq α] {c sep : α} {cs : List α} (h : c ∈ cs) :
    c = sep ∨ ∃ part ∈ cs.splitOn sep, c ∈ part := by
  have hjoin : [sep].intercalate (cs.splitOn sep) = cs := List.intercalate_splitOn sep
  exact mem_intercalate (hjoin.symm.subst h)

/-- What maps nothing else to the separator maps the parts. -/
lemma splitOn_map [DecidableEq α] [DecidableEq β] {f : α → β} {sep : α} {sep' : β} {cs : List α}
    (h : ∀ c ∈ cs, f c = sep' ↔ c = sep) :
    (cs.map f).splitOn sep' = (cs.splitOn sep).map (List.map f) := by
  induction cs with
  | nil => rfl
  | cons c cs ih =>
    obtain ⟨hc, hcs⟩ := List.forall_mem_cons.mp h
    rw [List.map_cons, List.splitOn_cons_eq_if_modifyHead, List.splitOn_cons_eq_if_modifyHead,
      ih hcs]
    by_cases heq : c = sep
    · rw [if_pos (by simpa using hc.mpr heq), if_pos (by simpa using heq)]
      rfl
    · have hne : f c ≠ sep' := fun e => heq (hc.mp e)
      rw [if_neg (by simpa using hne), if_neg (by simpa using heq)]
      cases cs.splitOn sep with
      | nil => rfl
      | cons part parts => rfl

/-- Splitting where a test holds gives back parts on which it does not. -/
lemma splitOnP_intercalate {p : α → Bool} {sep : α} (hsep : p sep = true) {parts : List (List α)}
    (h : ∀ part ∈ parts, ∀ c ∈ part, p c = false) (hne : parts ≠ []) :
    ([sep].intercalate parts).splitOnP p = parts := by
  induction parts with
  | nil => exact absurd rfl hne
  | cons part rest ih =>
    obtain ⟨hpart, hrest⟩ := List.forall_mem_cons.mp h
    by_cases hnil : rest = []
    · subst hnil
      rw [List.intercalate_singleton, List.splitOnP_eq_singleton hpart]
    · rw [List.intercalate_cons_of_ne_nil hnil, List.append_assoc, List.singleton_append,
        List.splitOnP_append_cons_of_forall_mem hpart sep hsep, ih hrest hnil]

/-- A separator after every part is one between them and one at the end. -/
lemma intercalate_append_sep {sep : α} {parts : List (List α)} (hne : parts ≠ []) :
    [sep].intercalate parts ++ [sep] = parts.flatMap fun part => part ++ [sep] := by
  induction parts with
  | nil => exact absurd rfl hne
  | cons part rest ih =>
    by_cases hnil : rest = []
    · subst hnil
      simp
    · rw [List.intercalate_cons_of_ne_nil hnil, List.append_assoc, ih hnil, List.flatMap_cons]

/-- With a separator at the end, there is an empty part after it. -/
lemma splitOn_intercalate_append_sep [DecidableEq α] {sep : α} {parts : List (List α)}
    (h : ∀ part ∈ parts, sep ∉ part) (hne : parts ≠ []) :
    ([sep].intercalate parts ++ [sep]).splitOn sep = parts ++ [[]] := by
  rw [List.splitOn_append_cons_self, List.splitOn_intercalate sep h hne, List.splitOn_nil]

lemma head_of_intercalate {sep : α} {part : List α} {rest : List (List α)} (hne : part ≠ []) :
    ([sep].intercalate (part :: rest)).head? = part.head? := by
  by_cases hnil : rest = []
  · rw [hnil, List.intercalate_singleton]
  · rw [List.intercalate_cons_of_ne_nil hnil, List.append_assoc, List.head?_append_of_ne_nil _ hne]

lemma getLast_of_intercalate {sep : α} {front : List (List α)} {part : List α} (hne : part ≠ []) :
    ([sep].intercalate (front ++ [part])).getLast? = part.getLast? := by
  induction front with
  | nil => rw [List.nil_append, List.intercalate_singleton]
  | cons first front ih =>
    rw [List.cons_append, List.intercalate_cons_of_ne_nil (by simp),
      List.getLast?_append_of_ne_nil, ih]
    intro hnil
    rw [hnil, List.getLast?_nil] at ih
    exact hne (List.getLast?_eq_none_iff.mp ih.symm)

lemma intercalate_append {sep : List α} {front back : List (List α)}
    (hfront : front ≠ []) (hback : back ≠ []) :
    sep.intercalate (front ++ back) = sep.intercalate front ++ sep ++ sep.intercalate back := by
  induction front with
  | nil => exact absurd rfl hfront
  | cons part front ih =>
    by_cases hnil : front = []
    · subst hnil
      rw [List.singleton_append, List.intercalate_cons_of_ne_nil hback, List.intercalate_singleton]
    · rw [List.cons_append, List.intercalate_cons_of_ne_nil (by simp [hnil]),
        List.intercalate_cons_of_ne_nil hnil, ih hnil]
      simp only [List.append_assoc]

lemma mem_iff_length_splitOn [DecidableEq α] {sep : α} {cs : List α} :
    sep ∈ cs ↔ 1 < (cs.splitOn sep).length := by
  constructor
  · intro h
    obtain ⟨front, back, rfl⟩ := List.append_of_mem h
    rw [List.splitOn_append_cons_self, List.length_append]
    have hfront := List.length_pos_iff.mpr (List.splitOn_ne_nil sep front)
    have hback := List.length_pos_iff.mpr (List.splitOn_ne_nil sep back)
    omega
  · intro h
    by_contra hnot
    rw [List.splitOn_eq_singleton hnot, List.length_singleton] at h
    exact Nat.lt_irrefl 1 h

/-- No part has the separator in it. -/
lemma notMem_of_mem_splitOn [DecidableEq α] {sep : α} {cs part : List α}
    (h : part ∈ cs.splitOn sep) : sep ∉ part := by
  induction cs generalizing part with
  | nil =>
    rw [List.splitOn_nil, List.mem_singleton] at h
    simp [h]
  | cons c cs ih =>
    rw [List.splitOn_cons_eq_if_modifyHead] at h
    split at h
    · rcases List.mem_cons.mp h with rfl | h
      · simp
      · exact ih h
    · next hc =>
      have hne : sep ≠ c := fun e => hc (by simp [e])
      cases hparts : cs.splitOn sep with
      | nil => exact absurd hparts (List.splitOn_ne_nil _ _)
      | cons first rest =>
        rw [hparts, List.modifyHead_cons] at h
        rcases List.mem_cons.mp h with rfl | h
        · simpa [hne] using ih (hparts ▸ List.mem_cons_self)
        · exact ih (hparts ▸ List.mem_cons_of_mem _ h)

end Tnp.Lib
