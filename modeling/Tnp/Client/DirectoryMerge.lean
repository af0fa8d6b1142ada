import Tnp.Client.RelayDirectory

/-!
What is left of the states that processes save.

The mark of each key is the greatest any of them had, and the document is one of the newest,
whatever the order in which they are merged and however they are grouped.
-/

namespace Tnp.Client.RelayDirectory

open Tnp.Lib Tnp.Crypto Tnp.Crypto.RelayDirectory

/-- States merged in some order and grouping, each the first of a file or into one. -/
inductive Merging
  | state (s : DirectoryState)
  | first (next : Merging)
  | into (current next : Merging)

namespace Merging

def value : Merging → DirectoryState
  | state s => s
  | first next => mergeStates none next.value
  | into current next => mergeStates (some current.value) next.value

def states : Merging → List DirectoryState
  | state s => [s]
  | first next => next.states
  | into current next => current.states ++ next.states

end Merging

/-- The file after processes saved their states in it, one after the other. -/
def fileAfter (saved : List DirectoryState) : Option DirectoryState :=
  saved.foldl (fun file state => some (mergeStates file state)) none

/-- None where there is none, and else one of those issued last. -/
def Newest (documents : List SignedRelayDirectory) : Option SignedRelayDirectory → Prop
  | none => documents = []
  | some a => a ∈ documents ∧ ∀ b ∈ documents, b.issuedAt ≤ a.issuedAt

/-! ### Marks -/

lemma merge_max_comm (x y : Option ℕ) : x.merge max y = y.merge max x := by
  cases x <;> cases y <;> simp [max_comm]

lemma merge_max_assoc (x y z : Option ℕ) :
    (x.merge max y).merge max z = x.merge max (y.merge max z) := by
  cases x <;> cases y <;> cases z <;> simp [max_assoc]

lemma merge_max_self (x : Option ℕ) : x.merge max x = x := by
  cases x <;> simp

lemma get_raise (marks : Marks) (key k : String) (serial : ℕ) :
    (raise marks key serial).get k =
      if key = k then (marks.get key).merge max (some serial) else marks.get k := by
  rw [raise, OrderedMap.get_set]
  by_cases h : key = k
  · rw [if_pos h, if_pos h, markOf]
    cases marks.get key <;> simp
  · rw [if_neg h, if_neg h]

lemma get_foldl_raise (entries : List (String × ℕ)) (hkeys : (entries.map Prod.fst).Nodup)
    (marks : Marks) (k : String) :
    (entries.foldl (fun marks e => raise marks e.1 e.2) marks).get k =
      (marks.get k).merge max (entries.lookup k) := by
  induction entries generalizing marks with
  | nil => simp
  | cons e entries ih =>
    obtain ⟨key, serial⟩ := e
    obtain ⟨hnew, hkeys⟩ := List.nodup_cons.mp hkeys
    rw [List.foldl_cons, ih hkeys, get_raise, OrderedMap.lookup_cons_ite]
    by_cases h : key = k
    · subst h
      have hnone : entries.lookup key = none :=
        List.lookup_eq_none_iff.mpr fun e he => bne_iff_ne.mpr fun hkey =>
          hnew (List.mem_map.mpr ⟨e, he, hkey.symm⟩)
      simp [hnone]
    · simp [h]

/-- The mark of a key is the greater of the two, or the one there is. -/
lemma get_mergeStates (current : Option DirectoryState) (next : DirectoryState) (k : String) :
    (mergeStates current next).marks.get k =
      ((marksOf current).get k).merge max (next.marks.get k) :=
  get_foldl_raise next.marks.entries next.marks.nodup (marksOf current) k

lemma max?_append (xs ys : List ℕ) : (xs ++ ys).max? = xs.max?.merge max ys.max? := by
  induction xs with
  | nil => simp
  | cons x xs ih =>
    rw [List.cons_append, List.max?_cons, List.max?_cons, ih]
    cases xs.max? <;> cases ys.max? <;> simp [max_assoc]

/-- The marks of a key among states. -/
def marksAt (k : String) (states : List DirectoryState) : List ℕ :=
  states.filterMap fun s => s.marks.get k

lemma max?_marksAt_append (k : String) (xs ys : List DirectoryState) :
    (marksAt k (xs ++ ys)).max? = (marksAt k xs).max?.merge max (marksAt k ys).max? := by
  rw [marksAt, List.filterMap_append, max?_append]
  rfl

lemma max?_marksAt_singleton (k : String) (s : DirectoryState) :
    (marksAt k [s]).max? = s.marks.get k := by
  cases h : s.marks.get k <;> simp [marksAt, h]

lemma Merging.get_value (m : Merging) (k : String) :
    m.value.marks.get k = (marksAt k m.states).max? := by
  induction m with
  | state s => exact (max?_marksAt_singleton k s).symm
  | first next ih =>
    rw [value, get_mergeStates, ih]
    simp [marksOf, states]
  | into current next ihcurrent ihnext =>
    rw [value, get_mergeStates, states, max?_marksAt_append, ← ihcurrent, ← ihnext]
    rfl

lemma get_foldl_mergeStates (saved : List DirectoryState) (file : Option DirectoryState)
    (k : String) :
    (marksOf (saved.foldl (fun file state => some (mergeStates file state)) file)).get k =
      ((marksOf file).get k).merge max (marksAt k saved).max? := by
  induction saved generalizing file with
  | nil => simp [marksAt]
  | cons s saved ih =>
    have happend := max?_marksAt_append k [s] saved
    rw [List.singleton_append, max?_marksAt_singleton] at happend
    rw [List.foldl_cons, ih, happend]
    have hmerge : (marksOf (some (mergeStates file s))).get k =
        ((marksOf file).get k).merge max (s.marks.get k) := get_mergeStates file s k
    rw [hmerge]
    exact merge_max_assoc _ _ _

/-! ### The document -/

/-- Which of two documents is kept. -/
def newer (a b : Option SignedRelayDirectory) : Option SignedRelayDirectory :=
  match a, b with
  | some a, some b => if b.issuedAt < a.issuedAt then some a else some b
  | some a, none => some a
  | none, b => b

lemma document_mergeStates (current : Option DirectoryState) (next : DirectoryState) :
    (mergeStates current next).document =
      newer (current.bind DirectoryState.document) next.document := rfl

lemma Newest.newer {as bs : List SignedRelayDirectory} {a b : Option SignedRelayDirectory}
    (ha : Newest as a) (hb : Newest bs b) : Newest (as ++ bs) (newer a b) := by
  cases a with
  | none =>
    rw [show as = [] from ha, List.nil_append]
    exact hb
  | some a =>
    cases b with
    | none =>
      rw [show bs = [] from hb, List.append_nil]
      exact ha
    | some b =>
      obtain ⟨hmema, hmaxa⟩ := ha
      obtain ⟨hmemb, hmaxb⟩ := hb
      by_cases hlater : b.issuedAt < a.issuedAt
      · rw [RelayDirectory.newer, if_pos hlater]
        refine ⟨List.mem_append_left bs hmema, fun c hc => ?_⟩
        rcases List.mem_append.mp hc with hc | hc
        · exact hmaxa c hc
        · exact (hmaxb c hc).trans hlater.le
      · rw [RelayDirectory.newer, if_neg hlater]
        refine ⟨List.mem_append_right as hmemb, fun c hc => ?_⟩
        rcases List.mem_append.mp hc with hc | hc
        · exact (hmaxa c hc).trans (not_lt.mp hlater)
        · exact hmaxb c hc

/-- The documents among states. -/
def documentsOf (states : List DirectoryState) : List SignedRelayDirectory :=
  states.filterMap DirectoryState.document

lemma newest_singleton (s : DirectoryState) : Newest (documentsOf [s]) s.document := by
  cases h : s.document <;> simp [documentsOf, Newest, h]

lemma documentsOf_append (xs ys : List DirectoryState) :
    documentsOf (xs ++ ys) = documentsOf xs ++ documentsOf ys := List.filterMap_append

lemma Merging.newest_value (m : Merging) : Newest (documentsOf m.states) m.value.document := by
  induction m with
  | state s => exact newest_singleton s
  | first next ih => exact ih
  | into current next ihcurrent ihnext =>
    rw [states, documentsOf_append]
    exact ihcurrent.newer ihnext

lemma newest_foldl {earlier : List SignedRelayDirectory} (saved : List DirectoryState)
    {file : Option DirectoryState} (h : Newest earlier (file.bind DirectoryState.document)) :
    Newest (earlier ++ documentsOf saved)
      ((saved.foldl (fun file state => some (mergeStates file state)) file).bind
        DirectoryState.document) := by
  induction saved generalizing earlier file with
  | nil => simpa [documentsOf] using h
  | cons s saved ih =>
    have hone := h.newer (newest_singleton s)
    have hrest := @ih _ (some (mergeStates file s)) hone
    rw [List.append_assoc, ← documentsOf_append] at hrest
    exact hrest

/-- **Merging loses nothing**: on the marks it is commutative, associative and idempotent; whatever
the order and the grouping, the mark of a key is the greatest of the states that have one, and the
document is one of those issued last. -/
theorem merging_loses_nothing :
    (∀ (a b : DirectoryState) (k : String),
      (mergeStates (some a) b).marks.get k = (mergeStates (some b) a).marks.get k) ∧
    (∀ (a b c : DirectoryState) (k : String),
      (mergeStates (some (mergeStates (some a) b)) c).marks.get k =
        (mergeStates (some a) (mergeStates (some b) c)).marks.get k) ∧
    (∀ (a : DirectoryState) (k : String),
      (mergeStates (some a) a).marks.get k = a.marks.get k) ∧
    (∀ m : Merging,
      (∀ k, m.value.marks.get k = (marksAt k m.states).max?) ∧
        Newest (documentsOf m.states) m.value.document) ∧
    ∀ saved : List DirectoryState,
      (∀ k, (marksOf (fileAfter saved)).get k = (marksAt k saved).max?) ∧
        Newest (documentsOf saved) ((fileAfter saved).bind DirectoryState.document) := by
  refine ⟨fun a b k => ?_, fun a b c k => ?_, fun a k => ?_,
    fun m => ⟨m.get_value, m.newest_value⟩, fun saved => ⟨fun k => ?_, ?_⟩⟩
  · rw [get_mergeStates, get_mergeStates]
    exact merge_max_comm _ _
  · have hleft := (Merging.into (.into (.state a) (.state b)) (.state c)).get_value k
    have hright := (Merging.into (.state a) (.into (.state b) (.state c))).get_value k
    exact hleft.trans hright.symm
  · rw [get_mergeStates]
    exact merge_max_self _
  · rw [fileAfter, get_foldl_mergeStates]
    simp [marksOf]
  · have hnone : Newest [] ((none : Option DirectoryState).bind DirectoryState.document) := rfl
    exact newest_foldl saved hnone

end Tnp.Client.RelayDirectory
