import Tnp.Lib.OrderedMap
import Tnp.Lib.Run

/-!
Keys that hold items, where giving an item to one key takes it from every other.

A plan releases keys and then assigns items to keys. What it leaves depends only on what is
assigned: the assignments of a plan that share no item do not disturb each other, whatever was
held before.
-/

namespace Tnp.Lib

/-- What each key holds. -/
abbrev Holdings (κ α : Type*) := OrderedMap κ (List α)

namespace Holdings

inductive Change (κ α : Type*)
  | release (k : κ)
  | assign (k : κ) (items : List α)

namespace Change

variable {κ α : Type*}

def key : Change κ α → κ
  | release k => k
  | assign k _ => k

/-- What the change gives to its key. -/
def items : Change κ α → List α
  | release _ => []
  | assign _ items => items

end Change

variable {κ α : Type*} [DecidableEq κ] [DecidableEq α]

/-- An assignment replaces what the key held, and takes the items from every other key. -/
def apply (h : Holdings κ α) : Change κ α → Holdings κ α
  | .release k => h.delete k
  | .assign k items => (h.mapValues fun held => held.filter (· ∉ items)).set k items

def Holds (h : Holdings κ α) (k : κ) (a : α) : Prop := ∃ held, h.get k = some held ∧ a ∈ held

variable {h : Holdings κ α} {c : Change κ α} {j k : κ} {a : α}

lemma get_release : (h.apply (.release k)).get j = if k = j then none else h.get j :=
  OrderedMap.get_delete

lemma get_assign {items : List α} :
    (h.apply (.assign k items)).get j =
      if k = j then some items else (h.get j).map fun held => held.filter (· ∉ items) := by
  rw [apply, OrderedMap.get_set, OrderedMap.get_mapValues]

/-- A change gives a key nothing but its own items. -/
lemma holds_apply (hholds : (h.apply c).Holds k a) :
    h.Holds k a ∨ (c.key = k ∧ a ∈ c.items) := by
  obtain ⟨held, hget, ha⟩ := hholds
  cases c with
  | release j =>
    rw [get_release] at hget
    split at hget
    · contradiction
    · exact .inl ⟨held, hget, ha⟩
  | assign j items =>
    rw [get_assign] at hget
    split at hget
    · next hj =>
      obtain rfl := Option.some.inj hget
      exact .inr ⟨hj, ha⟩
    · obtain ⟨before, hbefore, rfl⟩ := Option.map_eq_some_iff.mp hget
      exact .inl ⟨before, hbefore, (List.mem_filter.mp ha).1⟩

/-- A change leaves alone a key that is not its own and holds none of its items. -/
lemma get_apply_of_disjoint (hkey : c.key ≠ k)
    (hitems : ∀ a ∈ c.items, ¬ h.Holds k a) : (h.apply c).get k = h.get k := by
  cases c with
  | release j => exact get_release.trans (if_neg hkey)
  | assign j items =>
    refine get_assign.trans ((if_neg hkey).trans ?_)
    cases hget : h.get k with
    | none => rfl
    | some held =>
      have hkeep : held.filter (· ∉ items) = held :=
        List.filter_eq_self.mpr fun a ha =>
          decide_eq_true fun hmem => hitems a hmem ⟨held, hget, ha⟩
      exact congrArg some hkeep

/-! ### Plans -/

/-- The changes of a plan are of different keys and assign different items. -/
structure Separate (plan : List (Change κ α)) : Prop where
  keys : (plan.map Change.key).Nodup
  items : plan.Pairwise fun c d => ∀ a ∈ c.items, a ∉ d.items

/-- What a run gives a key is among what the plan assigns to it. -/
lemma holds_run {plan : List (Change κ α)} (hholds : (Run.run apply h plan).Holds k a) :
    h.Holds k a ∨ ∃ c ∈ plan, c.key = k ∧ a ∈ c.items := by
  induction plan generalizing h with
  | nil => exact .inl hholds
  | cons c plan ih =>
    rcases ih hholds with hmid | ⟨d, hd, hkey, ha⟩
    · rcases holds_apply hmid with hbefore | hgiven
      · exact .inl hbefore
      · exact .inr ⟨c, List.mem_cons_self, hgiven⟩
    · exact .inr ⟨d, List.mem_cons_of_mem c hd, hkey, ha⟩

/-- A run leaves alone a key of which the plan changes nothing. -/
lemma get_run_of_disjoint {plan : List (Change κ α)}
    (hplan : ∀ c ∈ plan, c.key ≠ k ∧ ∀ a ∈ c.items, ¬ h.Holds k a) :
    (Run.run apply h plan).get k = h.get k := by
  induction plan generalizing h with
  | nil => rfl
  | cons c plan ih =>
    obtain ⟨hc, hplan⟩ := List.forall_mem_cons.mp hplan
    have hsame := get_apply_of_disjoint hc.1 hc.2
    rw [Run.run_cons, ih, hsame]
    intro d hd
    refine ⟨(hplan d hd).1, fun a ha hholds => (hplan d hd).2 a ha ?_⟩
    obtain ⟨held, hget, hmem⟩ := hholds
    exact ⟨held, hsame ▸ hget, hmem⟩

/-- What a key holds right after a change to it, it holds at the end. -/
lemma get_run_of_mem {plan : List (Change κ α)} (hplan : Separate plan) (hc : c ∈ plan) :
    ∃ before, (∀ a, (apply (Run.run apply h before) c).Holds c.key a → a ∈ c.items) →
      (Run.run apply h plan).get c.key = (apply (Run.run apply h before) c).get c.key := by
  obtain ⟨before, after, rfl⟩ := List.append_of_mem hc
  have hkeys := hplan.keys
  have hitems := hplan.items
  rw [List.map_append, List.map_cons, List.nodup_append] at hkeys
  rw [List.pairwise_append] at hitems
  have hafter : ∀ d ∈ after, d.key ≠ c.key := fun d hd e =>
    (List.nodup_cons.mp hkeys.2.1).1 (e ▸ List.mem_map_of_mem hd)
  have hsep := (List.pairwise_cons.mp hitems.2.1).1
  refine ⟨before, fun hown => ?_⟩
  rw [Run.run_append, Run.run_cons]
  refine get_run_of_disjoint fun d hd => ⟨hafter d hd, fun a ha hholds => ?_⟩
  exact hsep d hd a (hown a hholds) ha

/-- **A key that a plan releases holds nothing at the end.** -/
theorem get_run_release {plan : List (Change κ α)} (hplan : Separate plan)
    (hc : .release k ∈ plan) : (Run.run apply h plan).get k = none := by
  obtain ⟨before, hrun⟩ := get_run_of_mem (h := h) hplan hc
  have hgone : (apply (Run.run apply h before) (.release k)).get k = none :=
    get_release.trans (if_pos rfl)
  refine (hrun ?_).trans hgone
  rintro a ⟨held, hget, -⟩
  exact absurd (hgone.symm.trans hget) nofun

/-- **A key that a plan assigns items to holds exactly these at the end.** -/
theorem get_run_assign {plan : List (Change κ α)} {items : List α} (hplan : Separate plan)
    (hc : .assign k items ∈ plan) : (Run.run apply h plan).get k = some items := by
  obtain ⟨before, hrun⟩ := get_run_of_mem (h := h) hplan hc
  have hgiven : (apply (Run.run apply h before) (.assign k items)).get k = some items :=
    get_assign.trans (if_pos rfl)
  refine (hrun ?_).trans hgiven
  rintro a ⟨held, hget, ha⟩
  obtain rfl := Option.some.inj (hgiven.symm.trans hget)
  exact ha

omit [DecidableEq κ] [DecidableEq α] in
/-- The plan may be stopped anywhere: what was carried out is a plan itself. -/
lemma Separate.take {plan : List (Change κ α)} (hplan : Separate plan) (n : ℕ) :
    Separate (plan.take n) :=
  ⟨hplan.keys.sublist ((List.take_sublist n plan).map _),
    hplan.items.sublist (List.take_sublist n plan)⟩

end Holdings

end Tnp.Lib
