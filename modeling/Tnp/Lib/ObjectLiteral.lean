import Mathlib.Data.List.Basic
import Mathlib.Tactic.Lemma

/-!
Tables written as JavaScript object literals, read by a key that comes from outside.

Reading a property that the literal does not write looks for it in the prototype of the object,
so a key can find a value that is no entry of the table.
-/

namespace Tnp.Lib

structure ObjectLiteral (κ α : Type*) where
  entries : List (κ × α)
  prototype : List κ

/-- What reading a property finds. -/
inductive Property (κ α : Type*) where
  | own (value : α)
  | inherited (name : κ)
  deriving DecidableEq

namespace ObjectLiteral

variable {κ α : Type*} [BEq κ] [LawfulBEq κ] (table : ObjectLiteral κ α) (k : κ) (d : α)

def get : Option (Property κ α) :=
  match table.entries.lookup k with
  | some value => some (.own value)
  | none => if k ∈ table.prototype then some (.inherited k) else none

/-- `table[k] ?? d`. -/
def getOr : Property κ α := (table.get k).getD (.own d)

/-- The entry of the table, or else the default. -/
def entryOr : α := (table.entries.lookup k).getD d

/-- No entry is written under a name that the prototype has too. -/
def Plain : Prop := ∀ k ∈ table.prototype, table.entries.lookup k = none

instance : Decidable table.Plain :=
  inferInstanceAs (Decidable (∀ k ∈ table.prototype, table.entries.lookup k = none))

variable {table k d}

lemma mem_of_lookup {l : List (κ × α)} {value : α} (h : l.lookup k = some value) :
    (k, value) ∈ l := by
  obtain ⟨before, after, rfl, _⟩ := List.lookup_eq_some_iff.mp h
  simp

lemma get_eq_own {value : α} : table.get k = some (.own value) ↔
    table.entries.lookup k = some value := by
  unfold get
  cases h : table.entries.lookup k with
  | some v => simp
  | none => simp only [reduceCtorEq, iff_false]; split <;> simp

lemma get_eq_inherited (ht : table.Plain) (hk : k ∈ table.prototype) :
    table.get k = some (.inherited k) := by
  unfold get
  rw [ht k hk, if_pos hk]

lemma get_eq_none : table.get k = none ↔ table.entries.lookup k = none ∧ k ∉ table.prototype := by
  unfold get
  cases table.entries.lookup k with
  | some v => simp
  | none => split <;> simp_all

lemma getOr_of_notMem (hk : k ∉ table.prototype) : table.getOr k d = .own (table.entryOr k d) := by
  unfold getOr entryOr get
  cases table.entries.lookup k with
  | some v => rfl
  | none => rw [if_neg hk]; rfl

/-- **A lookup gives an entry of the table or the default, unless the prototype has the key.** -/
theorem getOr_exact (ht : table.Plain) :
    table.getOr k d = .own (table.entryOr k d) ↔ k ∉ table.prototype := by
  refine ⟨fun h hk => ?_, getOr_of_notMem⟩
  rw [getOr, get_eq_inherited ht hk] at h
  cases h

end ObjectLiteral

end Tnp.Lib
