import Mathlib.Data.List.Sort
import Mathlib.Tactic.Lemma

/-!
What a list of ranges leaves of the numbers up to a bound, as ranges in order.

Ranges hold both of their ends. They may overlap, and need not be in order.
-/

namespace Tnp.Lib

/-- A number is in a range. -/
def InRange (r : ℕ × ℕ) (n : ℕ) : Prop := r.1 ≤ n ∧ n ≤ r.2

/-- The gaps from `next` on, before and between ranges in order and after the last of them. -/
def gapsFrom (max : ℕ) : ℕ → List (ℕ × ℕ) → List (ℕ × ℕ)
  | next, [] => if next ≤ max then [(next, max)] else []
  | next, (lo, hi) :: rest =>
    (if next < lo then [(next, lo - 1)] else []) ++
      gapsFrom max (if next < hi + 1 then hi + 1 else next) rest

/-- What the ranges leave of the numbers up to `max`. -/
def gaps (excluded : List (ℕ × ℕ)) (max : ℕ) : List (ℕ × ℕ) :=
  gapsFrom max 0 (excluded.mergeSort fun a b => a.1 ≤ b.1)

variable {max next : ℕ} {l : List (ℕ × ℕ)}

lemma le_fst_of_mem_gapsFrom {g : ℕ × ℕ} (h : g ∈ gapsFrom max next l) : next ≤ g.1 := by
  induction l generalizing next with
  | nil =>
    unfold gapsFrom at h
    split at h
    · rw [List.mem_singleton.mp h]
    · simp at h
  | cons r rest ih =>
    obtain ⟨lo, hi⟩ := r
    rw [gapsFrom, List.mem_append] at h
    rcases h with h | h
    · split at h
      · rw [List.mem_singleton.mp h]
      · simp at h
    · have hle := ih h
      split at hle
      · omega
      · exact hle

/-- A number from `next` on is in a gap where it is in no range. -/
lemma exists_mem_gapsFrom (hsorted : l.Pairwise fun a b => a.1 ≤ b.1)
    (hproper : ∀ r ∈ l, r.1 ≤ r.2) {n : ℕ} (hn : next ≤ n) (hmax : n ≤ max) :
    (∃ g ∈ gapsFrom max next l, InRange g n) ↔ ∀ r ∈ l, ¬ InRange r n := by
  induction l generalizing next with
  | nil =>
    rw [gapsFrom, if_pos (hn.trans hmax)]
    simp [InRange, hn, hmax]
  | cons r rest ih =>
    obtain ⟨lo, hi⟩ := r
    obtain ⟨hfirst, hsorted⟩ := List.pairwise_cons.mp hsorted
    obtain ⟨hle, hproper⟩ := List.forall_mem_cons.mp hproper
    dsimp only at hfirst hle
    rw [gapsFrom, List.forall_mem_cons]
    by_cases hpast : hi < n
    · -- what is behind the first range is decided by the others
      have hnext : (if next < hi + 1 then hi + 1 else next) ≤ n := by split <;> omega
      rw [← ih hsorted hproper hnext]
      constructor
      · rintro ⟨g, hg, hin⟩
        refine ⟨fun hr => absurd hr.2 (by dsimp only; omega), ?_⟩
        rcases List.mem_append.mp hg with hg | hg
        · split at hg
          · obtain rfl := List.mem_singleton.mp hg
            exact absurd hin.2 (by dsimp only; omega)
          · simp at hg
        · exact ⟨g, hg, hin⟩
      · rintro ⟨-, g, hg, hin⟩
        exact ⟨g, List.mem_append_right _ hg, hin⟩
    · have hlt : next < hi + 1 := by omega
      rw [if_pos hlt]
      constructor
      · rintro ⟨g, hg, hin⟩
        have hlo : n < lo := by
          rcases List.mem_append.mp hg with hg | hg
          · split at hg
            · obtain rfl := List.mem_singleton.mp hg
              have hle := hin.2
              dsimp only at hle
              omega
            · simp at hg
          · have hstart := le_fst_of_mem_gapsFrom hg
            have hg1 := hin.1
            omega
        exact ⟨fun hr => absurd hr.1 (by dsimp only; omega),
          fun r hr hr' => absurd hr'.1 (by have := hfirst r hr; omega)⟩
      · rintro ⟨hout, -⟩
        have hlo : n < lo := by
          by_contra hge
          exact hout ⟨not_lt.mp hge, not_lt.mp hpast⟩
        have hgap : next < lo := by omega
        refine ⟨(next, lo - 1), List.mem_append_left _ ?_, hn, ?_⟩
        · rw [if_pos hgap]
          exact List.mem_singleton_self _
        · dsimp only
          omega

/-- Gaps are proper, below the bound and in order. -/
lemma ordered_gapsFrom (hproper : ∀ r ∈ l, r.1 ≤ r.2 ∧ r.2 ≤ max) :
    (gapsFrom max next l).Pairwise (fun a b => a.2 < b.1) ∧
      ∀ g ∈ gapsFrom max next l, g.1 ≤ g.2 ∧ g.2 ≤ max := by
  induction l generalizing next with
  | nil =>
    unfold gapsFrom
    split
    · next hle => simp [hle]
    · simp
  | cons r rest ih =>
    obtain ⟨lo, hi⟩ := r
    obtain ⟨⟨hle, hmax⟩, hrest⟩ := List.forall_mem_cons.mp hproper
    dsimp only at hle hmax
    rw [gapsFrom]
    generalize hnext : (if next < hi + 1 then hi + 1 else next) = start
    have hstart : hi + 1 ≤ start := by
      rw [← hnext]
      split <;> omega
    obtain ⟨hordered, hbound⟩ := @ih start hrest
    split
    · next hgap =>
      rw [List.singleton_append, List.pairwise_cons, List.forall_mem_cons]
      refine ⟨⟨fun g hg => ?_, hordered⟩, ⟨by dsimp only; omega, by dsimp only; omega⟩, hbound⟩
      have hfirst := le_fst_of_mem_gapsFrom hg
      dsimp only
      omega
    · exact ⟨hordered, hbound⟩

/-- **What is left.** The gaps are proper, in order, and hold the numbers up to the bound that no
range holds. -/
theorem gaps_spec {excluded : List (ℕ × ℕ)} (h : ∀ r ∈ excluded, r.1 ≤ r.2 ∧ r.2 ≤ max) :
    (gaps excluded max).Pairwise (fun a b => a.2 < b.1) ∧
      (∀ g ∈ gaps excluded max, g.1 ≤ g.2 ∧ g.2 ≤ max) ∧
        ∀ n ≤ max, (∃ g ∈ gaps excluded max, InRange g n) ↔ ∀ r ∈ excluded, ¬ InRange r n := by
  have hmem {r : ℕ × ℕ} : r ∈ excluded.mergeSort (fun a b => a.1 ≤ b.1) ↔ r ∈ excluded :=
    List.mem_mergeSort
  have hsorted : (excluded.mergeSort fun a b => a.1 ≤ b.1).Pairwise fun a b => a.1 ≤ b.1 := by
    have hpairwise := @List.pairwise_mergeSort _ (fun a b : ℕ × ℕ => decide (a.1 ≤ b.1))
      (fun a b c hab hbc => by simp only [decide_eq_true_eq] at *; omega)
      (fun a b => by simp only [Bool.or_eq_true, decide_eq_true_eq]; omega) excluded
    simpa using hpairwise
  have hproper : ∀ r ∈ excluded.mergeSort (fun a b => a.1 ≤ b.1), r.1 ≤ r.2 ∧ r.2 ≤ max :=
    fun r hr => h r (hmem.mp hr)
  obtain ⟨hordered, hbound⟩ := @ordered_gapsFrom max 0 _ hproper
  refine ⟨hordered, hbound, fun n hn => ?_⟩
  rw [gaps, exists_mem_gapsFrom hsorted (fun r hr => (hproper r hr).1) (Nat.zero_le n) hn]
  exact forall_congr' fun r => by rw [hmem]

end Tnp.Lib
