import Mathlib.Data.List.Basic
import Mathlib.Tactic.Lemma

/-!
Stable sorting by a comparison that may tie on different things.

The result remembers the order of what is tied, and nothing else of the order of the list.
-/

namespace Tnp.Lib

variable {α : Type*} {le : α → α → Bool}

/-- Neither comes before the other. -/
def tied (le : α → α → Bool) (a b : α) : Bool := le a b && le b a

section

variable (htrans : ∀ a b c, le a b → le b c → le a c) (htotal : ∀ a b, le a b || le b a)

include htotal in
lemma tied_self (a : α) : tied le a a = true := by
  have h := htotal a a
  rw [Bool.or_self] at h
  simp [tied, h]

include htrans htotal

/-- What is tied keeps its order. -/
lemma filter_tied_mergeSort (k : α) (l : List α) :
    (l.mergeSort le).filter (tied le k) = l.filter (tied le k) := by
  induction l with
  | nil => simp
  | cons a l ih =>
    obtain ⟨before, after, hsort, hrest, hbefore⟩ := List.mergeSort_cons htrans htotal a l
    rw [hsort, List.filter_append]
    rw [hrest, List.filter_append] at ih
    cases htied : tied le k a with
    | false =>
      rw [List.filter_cons_of_neg (by simp [htied]), List.filter_cons_of_neg (by simp [htied]), ih]
    | true =>
      have hnone : before.filter (tied le k) = [] := by
        rw [List.filter_eq_nil_iff]
        intro b hb hkb
        rw [tied, Bool.and_eq_true] at htied hkb
        have hab := htrans a k b htied.2 hkb.1
        exact absurd hab (by simpa using hbefore b hb)
      rw [hnone, List.nil_append] at ih ⊢
      rw [List.filter_cons_of_pos htied, List.filter_cons_of_pos htied, ih]

omit htrans in
/-- What is in order is told by what is tied, in its order. -/
lemma eq_of_filter_tied {l l' : List α} (hl : l.Pairwise fun a b => le a b)
    (hl' : l'.Pairwise fun a b => le a b)
    (h : ∀ k, l.filter (tied le k) = l'.filter (tied le k)) : l = l' := by
  have hmem (k : α) : k ∈ l ↔ k ∈ l' := by
    have hself := tied_self htotal k
    constructor
    · intro hk
      have hfilter : k ∈ l.filter (tied le k) := List.mem_filter.mpr ⟨hk, hself⟩
      exact (List.mem_filter.mp (h k ▸ hfilter)).1
    · intro hk
      have hfilter : k ∈ l'.filter (tied le k) := List.mem_filter.mpr ⟨hk, hself⟩
      exact (List.mem_filter.mp ((h k).symm ▸ hfilter)).1
  induction l generalizing l' with
  | nil =>
    cases l' with
    | nil => rfl
    | cons b l' => simpa using (hmem b).mpr List.mem_cons_self
  | cons a l ih =>
    cases l' with
    | nil => simpa using (hmem a).mp List.mem_cons_self
    | cons b l' =>
      have hle {x y : α} {xs : List α} (hx : (x :: xs).Pairwise fun a b => le a b)
          (hy : y ∈ x :: xs) : le x y = true := by
        rcases List.mem_cons.mp hy with rfl | hy
        · simpa using htotal y y
        · exact List.rel_of_pairwise_cons hx hy
      have hba := hle hl' ((hmem a).mp List.mem_cons_self)
      have hab := hle hl ((hmem b).mpr List.mem_cons_self)
      have htied : tied le a b = true := by simp [tied, hab, hba]
      have hhead := h a
      rw [List.filter_cons_of_pos (tied_self htotal a), List.filter_cons_of_pos htied] at hhead
      obtain rfl := (List.cons.inj hhead).1
      have htail (k : α) : l.filter (tied le k) = l'.filter (tied le k) := by
        have hk := h k
        rw [List.filter_cons, List.filter_cons] at hk
        split at hk
        · exact (List.cons.inj hk).2
        · exact hk
      refine congrArg _ (ih hl.of_cons hl'.of_cons htail fun k => ?_)
      have hself := tied_self htotal k
      have hiff := congrArg (k ∈ ·) (htail k)
      simpa [hself] using hiff

/-- **Two lists are sorted alike** exactly when what is tied stands in one order in both. -/
theorem mergeSort_eq_iff {l l' : List α} :
    l.mergeSort le = l'.mergeSort le ↔ ∀ k, l.filter (tied le k) = l'.filter (tied le k) := by
  constructor
  · intro h k
    rw [← filter_tied_mergeSort htrans htotal k l, h, filter_tied_mergeSort htrans htotal k l']
  · intro h
    refine eq_of_filter_tied htotal (List.pairwise_mergeSort htrans htotal l)
      (List.pairwise_mergeSort htrans htotal l') fun k => ?_
    rw [filter_tied_mergeSort htrans htotal k l, h, filter_tied_mergeSort htrans htotal k l']

/-- **A list sorts to one result however it is listed** exactly when no two different members of
it are tied. The members are read through `f`. -/
theorem mergeSort_order_iff {β : Type*} (f : β → α) {l : List β} :
    (∀ l' : List β, l'.Perm l → (l'.map f).mergeSort le = (l.map f).mergeSort le) ↔
      ∀ a ∈ l.map f, ∀ b ∈ l.map f, tied le a b = true → a = b := by
  constructor
  · intro h a ha b hb htied
    obtain ⟨x, hx, rfl⟩ := List.mem_map.mp ha
    obtain ⟨y, hy, rfl⟩ := List.mem_map.mp hb
    obtain ⟨before, after, hl⟩ := List.append_of_mem hx
    obtain ⟨before', after', hl'⟩ := List.append_of_mem hy
    have hfront := h (x :: (before ++ after)) (hl ▸ List.perm_middle.symm)
    have hback := h (y :: (before' ++ after')) (hl' ▸ List.perm_middle.symm)
    have hfilter := (mergeSort_eq_iff htrans htotal).mp (hfront.trans hback.symm) (f x)
    rw [List.map_cons, List.map_cons, List.filter_cons_of_pos (tied_self htotal (f x)),
      List.filter_cons_of_pos htied] at hfilter
    exact (List.cons.inj hfilter).1
  · intro h l' hperm
    have hsorted := (List.mergeSort_perm (l'.map f) le).trans
      ((hperm.map f).trans (List.mergeSort_perm (l.map f) le).symm)
    refine hsorted.eq_of_pairwise ?_ (List.pairwise_mergeSort htrans htotal _)
      (List.pairwise_mergeSort htrans htotal _)
    intro a b ha hb hab hba
    have ha' := (hperm.map f).mem_iff.mp (List.mem_mergeSort.mp ha)
    exact h a ha' b (List.mem_mergeSort.mp hb) (by simp [tied, hab, hba])

end

/-! ### Orders of keys -/

section

variable {κ : Type*} (cmp : κ → κ → Ordering) (key : α → κ)

/-- The order of what a comparison makes of keys. -/
def keyLe (a b : α) : Bool := (cmp (key a) (key b)).isLE

variable {cmp key} [Std.TransCmp cmp]

lemma keyLe_trans (a b c : α) (hab : keyLe cmp key a b) (hbc : keyLe cmp key b c) :
    keyLe cmp key a c :=
  Std.TransCmp.isLE_trans hab hbc

lemma keyLe_total (a b : α) : (keyLe cmp key a b || keyLe cmp key b a) = true := by
  have hswap : cmp (key b) (key a) = (cmp (key a) (key b)).swap := Std.OrientedCmp.eq_swap
  rw [keyLe, keyLe, hswap]
  cases cmp (key a) (key b) <;> rfl

end

end Tnp.Lib
