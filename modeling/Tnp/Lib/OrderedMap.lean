import Mathlib.Data.List.Nodup
import Mathlib.Tactic.Lemma

/-!
Maps that remember the order in which their keys came, as a JavaScript `Map` does.

Setting a key again keeps its place. Only `get`, `size` and what a loop visits are meant to be
reasoned about.
-/

namespace Tnp.Lib

structure OrderedMap (κ ν : Type*) where
  entries : List (κ × ν) := []
  nodup : (entries.map Prod.fst).Nodup := by first | exact List.nodup_nil | simp
  deriving DecidableEq

namespace OrderedMap

variable {κ ν : Type*} [DecidableEq κ] (m : OrderedMap κ ν) (k : κ)

def size : ℕ := m.entries.length

def values : List ν := m.entries.map Prod.snd

def get : Option ν := m.entries.lookup k

def has : Bool := (m.get k).isSome

/-- Every value replaced, in its place. -/
def mapValues {μ : Type*} (f : ν → μ) : OrderedMap κ μ :=
  ⟨m.entries.map fun e => (e.1, f e.2), by simpa [Function.comp_def] using m.nodup⟩

def delete : OrderedMap κ ν :=
  ⟨m.entries.filter fun e => e.1 ≠ k, m.nodup.sublist (List.filter_sublist.map _)⟩

def filter (p : κ → ν → Bool) : OrderedMap κ ν :=
  ⟨m.entries.filter fun e => p e.1 e.2, m.nodup.sublist (List.filter_sublist.map _)⟩

/-- The entries with the value of `k` replaced, or added at the end. -/
def setEntries (v : ν) : List (κ × ν) → List (κ × ν)
  | [] => [(k, v)]
  | (k', v') :: rest => if k' = k then (k, v) :: rest else (k', v') :: setEntries v rest

lemma mem_keys_setEntries {v : ν} {l : List (κ × ν)} {j : κ} :
    j ∈ (setEntries k v l).map Prod.fst ↔ j = k ∨ j ∈ l.map Prod.fst := by
  induction l with
  | nil => simp [setEntries]
  | cons e rest ih =>
    obtain ⟨k', v'⟩ := e
    unfold setEntries
    split
    · next h => simp [h]
    · simp only [List.map_cons, List.mem_cons, ih]
      tauto

lemma nodup_setEntries {v : ν} {l : List (κ × ν)} (h : (l.map Prod.fst).Nodup) :
    ((setEntries k v l).map Prod.fst).Nodup := by
  induction l with
  | nil => simp [setEntries]
  | cons e rest ih =>
    obtain ⟨k', v'⟩ := e
    rw [List.map_cons, List.nodup_cons] at h
    unfold setEntries
    split
    · next hk => exact List.nodup_cons.mpr ⟨hk ▸ h.1, h.2⟩
    · next hk =>
      rw [List.map_cons, List.nodup_cons, mem_keys_setEntries]
      exact ⟨fun hmem => hmem.elim hk h.1, ih h.2⟩

def set (v : ν) : OrderedMap κ ν := ⟨setEntries k v m.entries, nodup_setEntries k m.nodup⟩

/-- `new Map` of a list of entries. -/
def ofList (l : List (κ × ν)) : OrderedMap κ ν := l.foldl (fun m e => m.set e.1 e.2) {}

variable {m k} {j : κ} {v : ν}

@[simp] lemma get_empty : (⟨[], by simp⟩ : OrderedMap κ ν).get k = none := rfl

lemma lookup_cons_ite (k' : κ) (v' : ν) (l : List (κ × ν)) :
    ((k', v') :: l).lookup j = if k' = j then some v' else l.lookup j := by
  rw [List.lookup_cons]
  by_cases h : k' = j
  · simp [h]
  · have hne : (j == k') = false := beq_eq_false_iff_ne.mpr fun e => h e.symm
    simp [h, hne]

lemma lookup_setEntries (v : ν) (l : List (κ × ν)) :
    (setEntries k v l).lookup j = if k = j then some v else l.lookup j := by
  induction l with
  | nil => simp [setEntries, lookup_cons_ite]
  | cons e rest ih =>
    obtain ⟨k', v'⟩ := e
    unfold setEntries
    split
    · next hk =>
      subst hk
      simp only [lookup_cons_ite]
      split <;> rfl
    · next hk =>
      rw [lookup_cons_ite, lookup_cons_ite, ih]
      by_cases h : k' = j
      · subst h
        simp [Ne.symm hk]
      · simp [h]

lemma get_set (v : ν) : (m.set k v).get j = if k = j then some v else m.get j :=
  lookup_setEntries v m.entries

@[simp] lemma get_set_self (v : ν) : (m.set k v).get k = some v := by simp [get_set]

lemma get_set_of_ne (v : ν) (h : k ≠ j) : (m.set k v).get j = m.get j := by simp [get_set, h]

lemma lookup_filter_ne (l : List (κ × ν)) :
    (l.filter fun e => e.1 ≠ k).lookup j = if k = j then none else l.lookup j := by
  induction l with
  | nil => simp
  | cons e rest ih =>
    obtain ⟨k', v'⟩ := e
    rw [List.filter_cons, lookup_cons_ite]
    by_cases hk : k' = k
    · subst hk
      rw [if_neg (by simp), ih]
      by_cases h : k' = j <;> simp [h]
    · rw [if_pos (by simp [hk]), lookup_cons_ite, ih]
      by_cases h : k' = j
      · subst h
        simp [Ne.symm hk]
      · simp [h]

lemma get_delete : (m.delete k).get j = if k = j then none else m.get j :=
  lookup_filter_ne m.entries

@[simp] lemma get_delete_self : (m.delete k).get k = none := by simp [get_delete]

lemma get_delete_of_ne (h : k ≠ j) : (m.delete k).get j = m.get j := by simp [get_delete, h]

lemma mem_entries_iff : (k, v) ∈ m.entries ↔ m.get k = some v := by
  obtain ⟨entries, hnodup⟩ := m
  unfold get
  dsimp only
  induction entries with
  | nil => simp
  | cons e rest ih =>
    obtain ⟨k', v'⟩ := e
    rw [List.map_cons, List.nodup_cons] at hnodup
    rw [List.mem_cons, lookup_cons_ite]
    split
    · next hk =>
      subst hk
      have hnew : (k', v) ∉ rest := fun hmem => hnodup.1 (List.mem_map.mpr ⟨_, hmem, rfl⟩)
      simp [hnew, eq_comm]
    · next hk => simp [Ne.symm hk, ih hnodup.2]

lemma get_filter {p : κ → ν → Bool} :
    (m.filter p).get k = some v ↔ m.get k = some v ∧ p k v = true := by
  simp [← mem_entries_iff, filter]

lemma mem_values_iff : v ∈ m.values ↔ ∃ k, m.get k = some v := by
  simp [values, ← mem_entries_iff]

lemma length_setEntries_le (v : ν) (l : List (κ × ν)) :
    (setEntries k v l).length ≤ l.length + 1 := by
  induction l with
  | nil => simp [setEntries]
  | cons e rest ih =>
    obtain ⟨k', v'⟩ := e
    unfold setEntries
    split <;> simp only [List.length_cons] <;> omega

lemma size_set_le (v : ν) : (m.set k v).size ≤ m.size + 1 := length_setEntries_le v m.entries

/-- Setting a key puts its new entry in the place of the one it had. -/
lemma countP_setEntries (p : κ × ν → Bool) (v : ν) (l : List (κ × ν)) :
    (setEntries k v l).countP p + ((l.lookup k).any fun w => p (k, w)).toNat =
      l.countP p + (p (k, v)).toNat := by
  induction l with
  | nil => cases h : p (k, v) <;> simp [setEntries, h]
  | cons e rest ih =>
    obtain ⟨k', v'⟩ := e
    rw [lookup_cons_ite]
    unfold setEntries
    by_cases hk : k' = k
    · subst hk
      simp only [if_true, List.countP_cons, Option.any_some]
      cases p (k', v) <;> cases p (k', v') <;> simp
    · simp only [hk, if_false, List.countP_cons]
      omega

lemma countP_set (p : κ × ν → Bool) (v : ν) :
    (m.set k v).entries.countP p + ((m.get k).any fun w => p (k, w)).toNat =
      m.entries.countP p + (p (k, v)).toNat := countP_setEntries p v m.entries

/-- A deleted key takes its entry out of the count. -/
lemma countP_delete (p : κ × ν → Bool) :
    (m.delete k).entries.countP p + ((m.get k).any fun w => p (k, w)).toNat =
      m.entries.countP p := by
  obtain ⟨entries, hnodup⟩ := m
  unfold delete get
  dsimp only
  induction entries with
  | nil => rfl
  | cons e rest ih =>
    obtain ⟨k', v'⟩ := e
    rw [List.map_cons, List.nodup_cons] at hnodup
    have hrest := ih hnodup.2
    rw [lookup_cons_ite]
    by_cases hk : k' = k
    · subst hk
      have hnone : rest.lookup k' = none := by
        refine List.lookup_eq_none_iff.mpr fun e he => bne_iff_ne.mpr fun hkey => hnodup.1 ?_
        exact List.mem_map.mpr ⟨e, he, hkey.symm⟩
      rw [hnone] at hrest
      simp only [Option.any_none, Bool.toNat_false, Nat.add_zero] at hrest
      rw [List.filter_cons_of_neg (by simp), if_pos rfl, hrest, List.countP_cons, Option.any_some]
      cases p (k', v') <;> rfl
    · rw [List.filter_cons_of_pos (by simpa using hk), if_neg hk, List.countP_cons,
        List.countP_cons]
      omega

lemma size_delete_le : (m.delete k).size ≤ m.size := List.length_filter_le _ _

lemma get_mapValues {μ : Type*} (f : ν → μ) : (m.mapValues f).get k = (m.get k).map f := by
  obtain ⟨entries, hnodup⟩ := m
  unfold mapValues get
  dsimp only
  clear hnodup
  induction entries with
  | nil => rfl
  | cons e rest ih =>
    obtain ⟨k', v'⟩ := e
    rw [List.map_cons, lookup_cons_ite, lookup_cons_ite, ih]
    split <;> rfl

/-- What holds of every entry holds after one is set to which it applies. -/
lemma forall_set {P : κ → ν → Prop} (h : ∀ k v, m.get k = some v → P k v) (hv : P k v) :
    ∀ j w, (m.set k v).get j = some w → P j w := by
  intro j w hj
  rw [get_set] at hj
  split at hj
  · next hkj =>
    obtain rfl := Option.some.inj hj
    exact hkj ▸ hv
  · exact h j w hj

lemma forall_delete {P : κ → ν → Prop} (h : ∀ k v, m.get k = some v → P k v) :
    ∀ j w, (m.delete k).get j = some w → P j w := by
  intro j w hj
  rw [get_delete] at hj
  split at hj
  · contradiction
  · exact h j w hj

lemma get_foldl_set {l : List (κ × ν)} (hl : (l.map Prod.fst).Nodup) :
    (l.foldl (fun m e => m.set e.1 e.2) m).get k = (l.lookup k).or (m.get k) := by
  induction l generalizing m with
  | nil => rfl
  | cons e rest ih =>
    obtain ⟨k', v'⟩ := e
    rw [List.map_cons, List.nodup_cons] at hl
    rw [List.foldl_cons, ih hl.2, lookup_cons_ite, get_set]
    split
    · next hk =>
      subst hk
      have hnone : rest.lookup k' = none := by
        refine List.lookup_eq_none_iff.mpr fun e he => bne_iff_ne.mpr fun hkey => hl.1 ?_
        exact List.mem_map.mpr ⟨e, he, hkey.symm⟩
      rw [hnone]
      rfl
    · rfl

lemma mem_setEntries {l : List (κ × ν)} {e : κ × ν} (h : e ∈ setEntries k v l) :
    e = (k, v) ∨ e ∈ l := by
  induction l with
  | nil => exact .inl (List.mem_singleton.mp h)
  | cons first rest ih =>
    obtain ⟨k', v'⟩ := first
    unfold setEntries at h
    split at h
    · rcases List.mem_cons.mp h with hnew | hold
      · exact .inl hnew
      · exact .inr (List.mem_cons_of_mem _ hold)
    · rcases List.mem_cons.mp h with hfirst | hrest
      · exact .inr (hfirst ▸ List.mem_cons_self)
      · exact (ih hrest).imp_right (List.mem_cons_of_mem _)

lemma mem_of_get_foldl {l : List (κ × ν)}
    (h : (l.foldl (fun m e => m.set e.1 e.2) m).get k = some v) :
    m.get k = some v ∨ (k, v) ∈ l := by
  induction l generalizing m with
  | nil => exact .inl h
  | cons e l ih =>
    rcases ih h with hset | hlater
    · rw [get_set] at hset
      split at hset
      · next hk =>
        obtain rfl := Option.some.inj hset
        exact .inr (by simp [← hk])
      · exact .inl hset
    · exact .inr (List.mem_cons_of_mem _ hlater)

lemma mem_of_get_ofList {l : List (κ × ν)} (h : (ofList l).get k = some v) : (k, v) ∈ l := by
  rcases mem_of_get_foldl h with hnone | hmem
  · simp at hnone
  · exact hmem

/-- A list that has each key once is the entries of its map. -/
lemma get_ofList {l : List (κ × ν)} (hl : (l.map Prod.fst).Nodup) :
    (ofList l).get k = some v ↔ (k, v) ∈ l := by
  rw [ofList, get_foldl_set hl, get_empty, Option.or_none]
  exact (mem_entries_iff (m := ⟨l, hl⟩)).symm

end OrderedMap

end Tnp.Lib
