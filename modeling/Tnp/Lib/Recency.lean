import Mathlib.Data.Finset.Card
import Mathlib.Data.List.DropRight
import Tnp.Lib.OrderedMap

/-!
Marks that only rise, of which the ones raised last are kept.

A raised mark moves to the end. So the keys stand in the order in which each was raised last, and
a mark that is dropped is one that at least as many others were raised after as are kept.
-/

namespace Tnp.Lib

namespace OrderedMap

variable {κ ν : Type*} [DecidableEq κ] (m : OrderedMap κ ν) (k : κ)

def keys : List κ := m.entries.map Prod.fst

/-- The entries at the end, at most `n`. -/
def latest (n : ℕ) : OrderedMap κ ν :=
  ⟨m.entries.drop (m.entries.length - n), m.nodup.sublist ((List.drop_sublist _ _).map _)⟩

variable {m k}

section Latest

omit [DecidableEq κ]

lemma keys_latest_suffix (n : ℕ) : (m.latest n).keys <:+ m.keys := by
  simp only [latest, keys, List.map_drop]
  exact List.drop_suffix _ _

lemma length_keys_latest (n : ℕ) : (m.latest n).keys.length = min n m.keys.length := by
  simp only [latest, keys, List.length_map, List.length_drop]
  omega

variable (m) in
lemma size_latest_le (n : ℕ) : (m.latest n).size ≤ n := by
  simp only [latest, size, List.length_drop]
  omega

end Latest

lemma mem_keys_iff : k ∈ m.keys ↔ ∃ v, m.get k = some v := by
  simp [keys, ← mem_entries_iff]

lemma setEntries_of_notMem {v : ν} {l : List (κ × ν)} (h : k ∉ l.map Prod.fst) :
    setEntries k v l = l ++ [(k, v)] := by
  induction l with
  | nil => rfl
  | cons e rest ih =>
    obtain ⟨k', v'⟩ := e
    rw [List.map_cons, List.mem_cons, not_or] at h
    rw [setEntries, if_neg (Ne.symm h.1), ih h.2, List.cons_append]

/-- What is deleted and set again stands at the end. -/
lemma keys_set_delete (v : ν) : ((m.delete k).set k v).keys = m.keys.filter (· ≠ k) ++ [k] := by
  have hnew : k ∉ (m.delete k).entries.map Prod.fst := by simp [delete]
  have hentries : ((m.delete k).set k v).entries = (m.delete k).entries ++ [(k, v)] :=
    setEntries_of_notMem hnew
  rw [keys, hentries, List.map_append, keys, List.filter_map]
  rfl

lemma get_of_get_latest {n : ℕ} {v : ν} (h : (m.latest n).get k = some v) : m.get k = some v :=
  mem_entries_iff.mp (List.mem_of_mem_drop (mem_entries_iff.mpr h))

end OrderedMap

/-! ### Which keys came later -/

variable {κ : Type*} [DecidableEq κ]

/-- The keys that occur after the last `k`. -/
def later (k : κ) (log : List κ) : Finset κ := (log.rtakeWhile (· ≠ k)).toFinset

lemma later_append_cons {k : κ} {older newer : List κ} (h : k ∉ newer) :
    later k (older ++ k :: newer) = newer.toFinset := by
  have hstop : (older ++ k :: newer).rtakeWhile (· ≠ k) = newer := by
    have hrest : newer.reverse.takeWhile (· ≠ k) = newer.reverse := by
      refine List.takeWhile_eq_self_iff.mpr fun x hx => ?_
      exact decide_eq_true fun e => h (e ▸ List.mem_reverse.mp hx)
    rw [List.rtakeWhile, List.reverse_append, List.reverse_cons, List.append_assoc,
      List.takeWhile_append_of_pos fun x hx => List.takeWhile_eq_self_iff.mp hrest x hx]
    simp
  rw [later, hstop]

/-- What came after the last `k` came after any. -/
lemma later_subset (k : κ) (older newer : List κ) :
    later k (older ++ k :: newer) ⊆ newer.toFinset.erase k := by
  have hnot : k ∉ (older ++ k :: newer).rtakeWhile (· ≠ k) := fun h => by
    simpa using List.mem_rtakeWhile_imp h
  have hsuffix : (older ++ k :: newer).rtakeWhile (· ≠ k) <:+ newer := by
    rcases List.suffix_or_suffix_of_suffix (List.rtakeWhile_suffix (· ≠ k) (older ++ k :: newer))
      (List.suffix_append older (k :: newer)) with h | h
    · rcases List.suffix_cons_iff.mp h with h | h
      · rw [h] at hnot
        exact absurd List.mem_cons_self hnot
      · exact h
    · exact absurd (h.subset List.mem_cons_self) hnot
  intro x hx
  have hx := List.mem_toFinset.mp hx
  exact Finset.mem_erase.mpr ⟨fun e => hnot (e ▸ hx), List.mem_toFinset.mpr (hsuffix.subset hx)⟩

/-- In the order of last occurrences, what stands after `k` came later. -/
lemma length_le_card_later {k : κ} {log a b : List κ} (h : log.dedup = a ++ k :: b) :
    b.length ≤ (later k log).card := by
  obtain ⟨older, newer, rfl, hk, hsub⟩ : ∃ older newer, log = older ++ k :: newer ∧ k ∉ newer ∧
      b ⊆ newer := by
    induction log generalizing a with
    | nil => simp at h
    | cons x log ih =>
      by_cases hx : x ∈ log
      · rw [List.dedup_cons_of_mem hx] at h
        obtain ⟨older, newer, rfl, hk, hsub⟩ := ih h
        exact ⟨x :: older, newer, rfl, hk, hsub⟩
      · rw [List.dedup_cons_of_notMem hx] at h
        cases a with
        | nil =>
          obtain ⟨rfl, rfl⟩ := List.cons.inj h
          exact ⟨[], log, rfl, hx, List.dedup_subset log⟩
        | cons y a =>
          obtain ⟨older, newer, rfl, hk, hsub⟩ := ih (List.cons.inj h).2
          exact ⟨x :: older, newer, rfl, hk, hsub⟩
  have hnodup : b.Nodup := by
    have hall := h ▸ List.nodup_dedup (older ++ k :: newer)
    exact hall.of_append_right.of_cons
  rw [later_append_cons hk, ← List.toFinset_card_of_nodup hnodup]
  exact Finset.card_le_card fun x hx => List.mem_toFinset.mpr (hsub (List.mem_toFinset.mp hx))

lemma dedup_append_singleton (log : List κ) (k : κ) :
    (log ++ [k]).dedup = log.dedup.filter (· ≠ k) ++ [k] := by
  induction log with
  | nil => rfl
  | cons x log ih =>
    by_cases hx : x ∈ log
    · rw [List.cons_append, List.dedup_cons_of_mem (by simp [hx]), List.dedup_cons_of_mem hx, ih]
    · by_cases hk : x = k
      · subst hk
        rw [List.cons_append, List.dedup_cons_of_mem (by simp), List.dedup_cons_of_notMem hx, ih]
        simp
      · rw [List.cons_append, List.dedup_cons_of_notMem (by simp [hx, hk]),
          List.dedup_cons_of_notMem hx, ih]
        simp [hk]

/-! ### Marks -/

/-- The mark of a key is raised, and moved to the end. -/
def raise (marks : OrderedMap κ ℕ) (e : κ × ℕ) : OrderedMap κ ℕ :=
  (marks.delete e.1).set e.1 (max ((marks.get e.1).getD 0) e.2)

def raiseAll (marks : OrderedMap κ ℕ) (es : List (κ × ℕ)) : OrderedMap κ ℕ := es.foldl raise marks

/-- The keys stand in the order in which each was raised last. -/
def Ordered (log : List κ) (marks : OrderedMap κ ℕ) : Prop := marks.keys <:+ log.dedup

lemma ordered_keys (marks : OrderedMap κ ℕ) : Ordered marks.keys marks := by
  rw [Ordered, List.dedup_eq_self.mpr (show marks.keys.Nodup from marks.nodup)]

variable {log : List κ} {marks : OrderedMap κ ℕ}

lemma Ordered.raise (h : Ordered log marks) (e : κ × ℕ) :
    Ordered (log ++ [e.1]) (raise marks e) := by
  rw [Ordered, Lib.raise, OrderedMap.keys_set_delete, dedup_append_singleton]
  obtain ⟨front, hfront⟩ := h.filter (· ≠ e.1)
  exact ⟨front, by rw [← hfront, List.append_assoc]⟩

lemma Ordered.raiseAll (h : Ordered log marks) (es : List (κ × ℕ)) :
    Ordered (log ++ es.map Prod.fst) (raiseAll marks es) := by
  induction es generalizing log marks with
  | nil => simpa [Lib.raiseAll] using h
  | cons e es ih =>
    have hrest := ih (h.raise e)
    rwa [List.append_assoc] at hrest

lemma Ordered.latest (h : Ordered log marks) (n : ℕ) : Ordered log (marks.latest n) :=
  (OrderedMap.keys_latest_suffix n).trans h

/-- **A mark is dropped only after as many others were raised as are kept.** -/
theorem Ordered.dropped (h : Ordered log marks) {n : ℕ} {k : κ} (hmem : k ∈ marks.keys)
    (hgone : k ∉ (marks.latest n).keys) : n ≤ (later k log).card := by
  obtain ⟨front, hfront⟩ := OrderedMap.keys_latest_suffix (m := marks) n
  obtain ⟨first, hfirst⟩ := h
  have hlength := OrderedMap.length_keys_latest (m := marks) n
  -- the dropped key stands before all that are kept
  have hk : k ∈ front := by
    rw [← hfront] at hmem
    exact (List.mem_append.mp hmem).resolve_right hgone
  obtain ⟨a, b, rfl⟩ := List.append_of_mem hk
  have hdedup : log.dedup = (first ++ a) ++ k :: (b ++ (marks.latest n).keys) := by
    rw [← hfirst, ← hfront]
    simp
  have hlater := length_le_card_later hdedup
  have hmore : n ≤ marks.keys.length := by
    by_contra hless
    have hall : (marks.latest n).keys.length = marks.keys.length := by omega
    rw [← hfront, List.length_append, List.length_append, List.length_cons] at hall
    omega
  rw [List.length_append] at hlater
  omega

/-- A mark is kept, or as many others were raised after it as are kept. -/
lemma Ordered.get_latest (h : Ordered log marks) (n : ℕ) {k : κ} {m : ℕ}
    (hm : marks.get k = some m) :
    (marks.latest n).get k = some m ∨
      ((marks.latest n).get k = none ∧ n ≤ (later k log).card) := by
  cases hk : (marks.latest n).get k with
  | some m' =>
    have hm' := OrderedMap.get_of_get_latest hk
    rw [hm] at hm'
    exact .inl hm'.symm
  | none =>
    refine .inr ⟨rfl, h.dropped (OrderedMap.mem_keys_iff.mpr ⟨m, hm⟩) fun hmem => ?_⟩
    obtain ⟨m', hm'⟩ := OrderedMap.mem_keys_iff.mp hmem
    exact Option.some_ne_none m' (hm'.symm.trans hk)

lemma get_raise {k : κ} (e : κ × ℕ) : (raise marks e).get k =
    if e.1 = k then some (max ((marks.get k).getD 0) e.2) else marks.get k := by
  rw [raise, OrderedMap.get_set, OrderedMap.get_delete]
  split
  · next h => rw [h]
  · rfl

variable (marks) in
/-- A mark is at least what it was raised to last. -/
lemma le_get_raiseAll_concat (es : List (κ × ℕ)) (e : κ × ℕ) :
    ∃ m, (raiseAll marks (es ++ [e])).get e.1 = some m ∧ e.2 ≤ m := by
  rw [raiseAll, List.foldl_append]
  exact ⟨_, (get_raise e).trans (if_pos rfl), le_max_right _ _⟩

/-- Marks only rise. -/
lemma le_get_raiseAll {k : κ} {n : ℕ} (es : List (κ × ℕ)) (h : marks.get k = some n) :
    ∃ m, (raiseAll marks es).get k = some m ∧ n ≤ m := by
  induction es generalizing marks n with
  | nil => exact ⟨n, h, le_rfl⟩
  | cons e es ih =>
    obtain ⟨v, hv, hle⟩ : ∃ v, (raise marks e).get k = some v ∧ n ≤ v := by
      rw [get_raise]
      split
      · exact ⟨_, rfl, by simp [h]⟩
      · exact ⟨n, h, le_rfl⟩
    obtain ⟨m, hm, hvm⟩ := ih hv
    exact ⟨m, hm, hle.trans hvm⟩

end Tnp.Lib
