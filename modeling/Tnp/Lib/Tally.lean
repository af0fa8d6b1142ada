import Mathlib.Data.Finset.Card
import Mathlib.Tactic.Lemma

/-!
Counting the members of a finite set that satisfy a condition, as the set grows and shrinks by
one, and the entry that such a count has in a map that holds positive counts only.
-/

namespace Tnp.Lib

variable {α : Type*} {s : Finset α} {a : α}

def tally (p : α → Prop) [DecidablePred p] (s : Finset α) : ℕ := (s.filter p).card

variable {p q : α → Prop} [DecidablePred p] [DecidablePred q]

@[simp] lemma tally_empty : tally p ∅ = 0 := rfl

lemma tally_congr (h : ∀ x ∈ s, p x ↔ q x) : tally p s = tally q s := by
  rw [tally, tally, Finset.filter_congr h]

lemma tally_insert [DecidableEq α] (ha : a ∉ s) :
    tally p (insert a s) = tally p s + if p a then 1 else 0 := by
  unfold tally
  rw [Finset.filter_insert]
  split
  · rw [Finset.card_insert_of_notMem fun h => ha (Finset.mem_filter.mp h).1]
  · rfl

lemma tally_erase [DecidableEq α] (ha : a ∈ s) :
    tally p s = tally p (s.erase a) + if p a then 1 else 0 := by
  have h := tally_insert (p := p) (Finset.notMem_erase a s)
  rwa [Finset.insert_erase ha] at h

lemma tally_erase_le [DecidableEq α] : tally p (s.erase a) ≤ tally p s :=
  Finset.card_le_card (Finset.filter_subset_filter p (Finset.erase_subset a s))

lemma tally_pos (ha : a ∈ s) (hp : p a) : 0 < tally p s :=
  Finset.card_pos.mpr ⟨a, Finset.mem_filter.mpr ⟨ha, hp⟩⟩

lemma tally_true : tally (fun _ => True) s = s.card := by simp [tally]

/-- The entry of a count: none while it is zero. -/
def entry (n : ℤ) : Option ℤ := if 0 < n then some n else none

@[simp] lemma entry_getD_zero (n : ℕ) : (entry n).getD 0 = n := by
  unfold entry
  split
  · rfl
  · simp only [Option.getD_none]
    omega

lemma entry_getD_one {n : ℕ} (h : 0 < n) : (entry n).getD 1 = n := by
  rw [entry, if_pos (by omega)]
  rfl

lemma entry_eq_some {n k : ℤ} (h : entry n = some k) : 0 < k ∧ n = k := by
  unfold entry at h
  split at h
  · next hn =>
    obtain rfl := Option.some.inj h
    exact ⟨hn, rfl⟩
  · simp at h

end Tnp.Lib
