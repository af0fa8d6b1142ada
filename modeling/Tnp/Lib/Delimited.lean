import Mathlib.Data.List.Forall2
import Mathlib.Data.Set.Basic
import Tnp.Lib.Bytes

/-!
Encodings that can be read back from the front of what they are written before.

Such encodings compose: what is written one after the other is read back one after the other, and
two encodings agree exactly where their parts do.
-/

namespace Tnp.Lib

variable {α : Type*}

/-- On these values, the encoding in front of anything tells the value up to `R`, and where the
rest begins. -/
def Delimits (S : Set α) (R : α → α → Prop) (enc : α → Bytes) : Prop :=
  ∀ ⦃a⦄, a ∈ S → ∀ ⦃b⦄, b ∈ S → ∀ r s, enc a ++ r = enc b ++ s ↔ R a b ∧ r = s

/-- An encoding of one length, which no two values share. -/
lemma delimits_of_length {S : Set α} {enc : α → Bytes} {n : ℕ}
    (hlength : ∀ a ∈ S, (enc a).length = n) (hinj : Set.InjOn enc S) :
    Delimits S (· = ·) enc := by
  intro a ha b hb r s
  constructor
  · intro h
    obtain ⟨hfront, hrest⟩ := List.append_inj h ((hlength a ha).trans (hlength b hb).symm)
    exact ⟨hinj ha hb hfront, hrest⟩
  · rintro ⟨rfl, rfl⟩
    rfl

/-- Strings of one length. -/
lemma delimits_fixed (n : ℕ) :
    Delimits Set.univ (· = ·) (fun bytes : {bytes : Bytes // bytes.length = n} => bytes.val) :=
  delimits_of_length (fun a _ => a.property) (fun _ _ _ _ h => Subtype.ext h)

/-- Numbers that fit in `w` bytes. -/
lemma delimits_be (w : ℕ) : Delimits {n | n < 256 ^ w} (· = ·) (be w) :=
  delimits_of_length (fun n _ => length_be w n) (fun _ hm _ hn h => be_injective hm hn h)

/-- Bytes after their length, where the length fits. -/
lemma delimits_prefixed (w : ℕ) :
    Delimits {bytes : Bytes | bytes.length < 256 ^ w} (· = ·)
      (fun bytes => be w bytes.length ++ bytes) := by
  intro a ha b hb r s
  constructor
  · intro h
    simp only [List.append_assoc] at h
    obtain ⟨hlength, hrest⟩ := (delimits_be w ha hb _ _).mp h
    exact List.append_inj hrest hlength
  · rintro ⟨rfl, rfl⟩
    rfl

/-- The encodings of a list, where the number of entries is known. -/
lemma Delimits.list {S : Set α} {R : α → α → Prop} {enc : α → Bytes} (h : Delimits S R enc)
    {l m : List α} (hl : ∀ a ∈ l, a ∈ S) (hm : ∀ a ∈ m, a ∈ S) (hlength : l.length = m.length)
    (r s : Bytes) :
    l.flatMap enc ++ r = m.flatMap enc ++ s ↔ List.Forall₂ R l m ∧ r = s := by
  induction l generalizing m with
  | nil =>
    obtain rfl := List.length_eq_zero_iff.mp hlength.symm
    simp
  | cons a l ih =>
    cases m with
    | nil => simp at hlength
    | cons b m =>
      have ha := hl a List.mem_cons_self
      have hb := hm b List.mem_cons_self
      simp only [List.flatMap_cons, List.append_assoc, List.forall₂_cons]
      rw [h ha hb, ih (fun x hx => hl x (List.mem_cons_of_mem _ hx))
        (fun x hx => hm x (List.mem_cons_of_mem _ hx)) (by simpa using hlength), and_assoc]

end Tnp.Lib
