import Tnp.Client.ActiveRulesFile

/-!
The rule of a snapshot that decides a name: one for exactly the name before one that it inherits,
and of those the one of the nearest ancestor.
-/

namespace Tnp.Client.PersonalRules

open Tnp.Lib Tnp.SharedTypes.DnsRules Tnp.Client.ActiveRules

inductive PersonalRuleMatch
  | redirect (target : DnsRuleTarget)
  | block
  deriving DecidableEq, Repr

/-- `labels.slice(i).join('.')` -/
def joinedFrom (labels : List (List Char)) (i : ℕ) : String :=
  String.ofList (['.'].intercalate (labels.drop i))

def matchPersonalRule (snapshot : PersonalRuleSnapshot) (name : String)
    (isNative : String → Bool) : Option PersonalRuleMatch :=
  match (snapshot.redirects.get name).filter fun _ => !isNative name with
  | some target => some (.redirect target)
  | none =>
    if snapshot.blocks.has name then some .block
    else
      let labels := name.toList.splitOn '.'
      -- rules never cover a single label, so the loop stops before it
      if (List.range' 1 (labels.length - 2)).any fun i =>
          snapshot.blocks.get (joinedFrom labels i) == some true then some .block
      else none

/-! ### What is to decide a name -/

/-- What is left of a name without its first labels. -/
def IsAncestor (a name : String) : Prop := ∃ labels, name.toList = labels ++ '.' :: a.toList

/-- A block of an ancestor of two labels or more that is for the names under it too. -/
structure Covers (snapshot : PersonalRuleSnapshot) (name a : String) : Prop where
  ancestor : IsAncestor a name
  dotted : '.' ∈ a.toList
  subdomains : snapshot.blocks.get a = some true

/-- The block that a name inherits. -/
structure IsNearest (snapshot : PersonalRuleSnapshot) (name a : String) : Prop where
  covers : Covers snapshot name a
  nearest : ∀ b, Covers snapshot name b → b = a ∨ IsAncestor b a

inductive Decides (snapshot : PersonalRuleSnapshot) (isNative : String → Bool) (name : String) :
    Option PersonalRuleMatch → Prop
  | redirect {target : DnsRuleTarget} (hredirect : snapshot.redirects.get name = some target)
      (hnative : isNative name = false) : Decides snapshot isNative name (some (.redirect target))
  | exact (hredirect : isNative name = false → snapshot.redirects.get name = none)
      (hblock : snapshot.blocks.has name = true) : Decides snapshot isNative name (some .block)
  | inherited (hredirect : isNative name = false → snapshot.redirects.get name = none)
      (hblock : snapshot.blocks.has name = false) {a : String} (h : IsNearest snapshot name a) :
      Decides snapshot isNative name (some .block)
  | none (hredirect : isNative name = false → snapshot.redirects.get name = none)
      (hblock : snapshot.blocks.has name = false) (h : ∀ a, ¬ Covers snapshot name a) :
      Decides snapshot isNative name none

/-! ### Ancestors -/

section Ancestors

variable {name a b : String}

/-- The labels of a name. -/
def labelsOf (name : String) : List (List Char) := name.toList.splitOn '.'

lemma labelsOf_ne_nil : labelsOf name ≠ [] := List.splitOn_ne_nil _ _

lemma labelsOf_injective (h : labelsOf a = labelsOf b) : a = b := by
  have ha : ['.'].intercalate (labelsOf a) = a.toList := List.intercalate_splitOn '.'
  have hb : ['.'].intercalate (labelsOf b) = b.toList := List.intercalate_splitOn '.'
  rw [← String.toList_inj, ← ha, ← hb, h]

lemma labelsOf_joinedFrom {i : ℕ} (hi : i < (labelsOf name).length) :
    labelsOf (joinedFrom (labelsOf name) i) = (labelsOf name).drop i := by
  rw [labelsOf, joinedFrom, String.toList_ofList, List.splitOn_intercalate]
  · intro part hpart
    exact notMem_of_mem_splitOn (List.mem_of_mem_drop hpart)
  · exact List.drop_eq_nil_iff.not.mpr (not_le.mpr hi)

/-- The ancestors of a name are what is left of its labels. -/
lemma isAncestor_iff : IsAncestor a name ↔
    ∃ i, 0 < i ∧ i < (labelsOf name).length ∧ a = joinedFrom (labelsOf name) i := by
  constructor
  · rintro ⟨labels, h⟩
    have hsplit : labelsOf name = labels.splitOn '.' ++ labelsOf a := by
      rw [labelsOf, h, List.splitOn_append_cons_self, labelsOf]
    have hpos := List.length_pos_iff.mpr (List.splitOn_ne_nil '.' labels)
    have hapos := List.length_pos_iff.mpr (@labelsOf_ne_nil a)
    have hlt : (labels.splitOn '.').length < (labelsOf name).length := by
      rw [hsplit, List.length_append]
      omega
    refine ⟨_, hpos, hlt, labelsOf_injective ?_⟩
    rw [labelsOf_joinedFrom hlt, hsplit, List.drop_left]
  · rintro ⟨i, hpos, hlt, rfl⟩
    refine ⟨['.'].intercalate ((labelsOf name).take i), ?_⟩
    have hjoin : ['.'].intercalate (labelsOf name) = name.toList := List.intercalate_splitOn '.'
    have htake : (labelsOf name).take i ≠ [] := by
      simp only [ne_eq, List.take_eq_nil_iff, not_or]
      exact ⟨hpos.ne', labelsOf_ne_nil⟩
    have hdrop : (labelsOf name).drop i ≠ [] := List.drop_eq_nil_iff.not.mpr (not_le.mpr hlt)
    rw [← hjoin, joinedFrom, String.toList_ofList]
    nth_rewrite 1 [← List.take_append_drop i (labelsOf name)]
    rw [intercalate_append htake hdrop, List.append_assoc, List.singleton_append]

lemma dotted_joinedFrom {i : ℕ} (hi : i < (labelsOf name).length) :
    '.' ∈ (joinedFrom (labelsOf name) i).toList ↔ i + 1 < (labelsOf name).length := by
  rw [mem_iff_length_splitOn, ← labelsOf, labelsOf_joinedFrom hi, List.length_drop]
  omega

/-- Of two ancestors of a name, the one with fewer labels is an ancestor of the other. -/
lemma isAncestor_joinedFrom {i j : ℕ} (hij : i < j) (hj : j < (labelsOf name).length) :
    IsAncestor (joinedFrom (labelsOf name) j) (joinedFrom (labelsOf name) i) := by
  refine isAncestor_iff.mpr ⟨j - i, by omega, ?_, ?_⟩
  · rw [labelsOf_joinedFrom (by omega), List.length_drop]
    omega
  · rw [labelsOf_joinedFrom (by omega), joinedFrom, joinedFrom, List.drop_drop]
    congr 3
    omega

end Ancestors

/-! ### The loop -/

section Loop

variable {snapshot : PersonalRuleSnapshot} {name : String} {isNative : String → Bool}

/-- The ancestor that the loop asks about at its index. -/
def BlocksAt (snapshot : PersonalRuleSnapshot) (name : String) (i : ℕ) : Prop :=
  1 ≤ i ∧ i + 1 < (labelsOf name).length ∧
    snapshot.blocks.get (joinedFrom (labelsOf name) i) = some true

instance (i : ℕ) : Decidable (BlocksAt snapshot name i) := inferInstanceAs (Decidable (_ ∧ _ ∧ _))

lemma covers_iff {a : String} : Covers snapshot name a ↔
    ∃ i, BlocksAt snapshot name i ∧ a = joinedFrom (labelsOf name) i := by
  constructor
  · rintro ⟨hancestor, hdotted, hsub⟩
    obtain ⟨i, hpos, hlt, rfl⟩ := isAncestor_iff.mp hancestor
    exact ⟨i, ⟨hpos, (dotted_joinedFrom hlt).mp hdotted, hsub⟩, rfl⟩
  · rintro ⟨i, ⟨hpos, hlt, hsub⟩, rfl⟩
    exact ⟨isAncestor_iff.mpr ⟨i, hpos, by omega, rfl⟩, (dotted_joinedFrom (by omega)).mpr hlt,
      hsub⟩

lemma loop_iff : ((List.range' 1 ((labelsOf name).length - 2)).any fun i =>
    snapshot.blocks.get (joinedFrom (labelsOf name) i) == some true) = true ↔
      ∃ i, BlocksAt snapshot name i := by
  simp only [List.any_eq_true, List.mem_range'_1, beq_iff_eq]
  refine exists_congr fun i => ?_
  rw [BlocksAt, ← and_assoc]
  refine and_congr_left' ?_
  omega

/-- A name under a block for the names under it has a nearest one. -/
lemma exists_nearest (h : ∃ i, BlocksAt snapshot name i) : ∃ a, IsNearest snapshot name a := by
  refine ⟨joinedFrom (labelsOf name) (Nat.find h), covers_iff.mpr ⟨_, Nat.find_spec h, rfl⟩, ?_⟩
  intro b hb
  obtain ⟨j, hj, rfl⟩ := covers_iff.mp hb
  rcases (Nat.find_min' h hj).eq_or_lt with heq | hlt
  · exact .inl (by rw [heq])
  · exact .inr (isAncestor_joinedFrom hlt (by have := hj.2.1; omega))

lemma decides_matchPersonalRule :
    Decides snapshot isNative name (matchPersonalRule snapshot name isNative) := by
  unfold matchPersonalRule
  split
  next target htarget =>
    obtain ⟨hredirect, hnative⟩ := Option.filter_eq_some_iff.mp htarget
    exact .redirect hredirect (by simpa using hnative)
  next hnone =>
  have hredirect : isNative name = false → snapshot.redirects.get name = none := by
    intro hnative
    rw [hnative] at hnone
    exact Option.eq_none_iff_forall_ne_some.mpr fun target ht => by simp [ht] at hnone
  split
  next hblock => exact .exact hredirect hblock
  next hblock =>
  rw [Bool.not_eq_true] at hblock
  dsimp only
  split
  next hloop =>
    obtain ⟨a, ha⟩ := exists_nearest (loop_iff.mp hloop)
    exact .inherited hredirect hblock ha
  next hloop =>
    refine .none hredirect hblock fun a ha => hloop (loop_iff.mpr ?_)
    obtain ⟨i, hi, -⟩ := covers_iff.mp ha
    exact ⟨i, hi⟩

/-- One thing is decided of a name. -/
lemma Decides.unique {m m' : Option PersonalRuleMatch} (h : Decides snapshot isNative name m)
    (h' : Decides snapshot isNative name m') : m = m' := by
  cases h with
  | redirect hredirect hnative =>
    cases h' with
    | redirect hredirect' _ => rw [Option.some.inj (hredirect.symm.trans hredirect')]
    | exact h' _ | inherited h' _ _ | none h' _ _ => simp [h' hnative] at hredirect
  | exact hredirect hblock =>
    cases h' with
    | redirect hredirect' hnative => simp [hredirect hnative] at hredirect'
    | exact _ _ | inherited _ _ _ => rfl
    | none _ hblock' _ => simp [hblock] at hblock'
  | inherited hredirect hblock hnearest =>
    cases h' with
    | redirect hredirect' hnative => simp [hredirect hnative] at hredirect'
    | exact _ _ | inherited _ _ _ => rfl
    | none _ _ hnot => exact absurd hnearest.covers (hnot _)
  | none hredirect hblock hnot =>
    cases h' with
    | redirect hredirect' hnative => simp [hredirect hnative] at hredirect'
    | exact _ hblock' => simp [hblock] at hblock'
    | inherited _ _ hnearest => exact absurd hnearest.covers (hnot _)
    | none _ _ _ => rfl

/-- **Matching**: of every snapshot and every name, exactly what is to decide the name. -/
theorem matchPersonalRule_decides (snapshot : PersonalRuleSnapshot) (name : String)
    (isNative : String → Bool) (m : Option PersonalRuleMatch) :
    matchPersonalRule snapshot name isNative = m ↔ Decides snapshot isNative name m := by
  constructor
  · rintro rfl
    exact decides_matchPersonalRule
  · exact decides_matchPersonalRule.unique

end Loop

end Tnp.Client.PersonalRules
