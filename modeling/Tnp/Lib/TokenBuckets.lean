import Mathlib.Algebra.Order.Field.Rat
import Mathlib.Tactic.Linarith
import Mathlib.Tactic.Ring
import Tnp.Lib.OrderedMap

/-!
Token buckets, one for each key, in a table that may forget some of them.

A key without a bucket stands for one whose bucket is full. To forget a bucket can therefore only
fill it. Single answers of a table that forgets and of one that does not may still differ either
way, but what a key has been granted and what its bucket holds, taken together, is never less in
the table that forgets.
-/

namespace Tnp.Lib

/-- What a bucket held when it was last taken from. -/
structure Bucket where
  tokens : ℚ
  updatedAt : ℚ
  deriving DecidableEq

namespace Bucket

variable (capacity rate : ℚ)

/-- What a key may take at a time. -/
def level (bucket : Option Bucket) (now : ℚ) : ℚ :=
  bucket.elim capacity fun b => min capacity (b.tokens + max 0 (now - b.updatedAt) * rate)

/-- The bucket after a take, of which a level of one or more grants a token. -/
def spent (bucket : Option Bucket) (now : ℚ) : Bucket :=
  let tokens := level capacity rate bucket now
  ⟨if 1 ≤ tokens then tokens - 1 else tokens, now⟩

/-- A bucket that was last taken from by now. -/
def Fits (bucket : Option Bucket) (now : ℚ) : Prop :=
  ∀ b ∈ bucket, 0 ≤ b.tokens ∧ b.updatedAt ≤ now

variable {capacity rate} {bucket : Option Bucket} {now later : ℚ}

lemma Fits.none : Fits none now := by simp [Fits]

lemma Fits.mono (h : Fits bucket now) (hlater : now ≤ later) : Fits bucket later :=
  fun b hb => ⟨(h b hb).1, (h b hb).2.trans hlater⟩

lemma level_le : level capacity rate bucket now ≤ capacity := by
  cases bucket with
  | none => exact le_rfl
  | some b => exact min_le_left _ _

lemma level_nonneg (hcapacity : 0 ≤ capacity) (hrate : 0 ≤ rate) (h : Fits bucket now) :
    0 ≤ level capacity rate bucket now := by
  cases bucket with
  | none => exact hcapacity
  | some b =>
    have htokens := (h b rfl).1
    have hgain : 0 ≤ max 0 (now - b.updatedAt) * rate := mul_nonneg (le_max_left _ _) hrate
    exact le_min hcapacity (by linarith)

/-- From one time to a later one, what comes in is added up to the capacity. -/
lemma level_later (hrate : 0 ≤ rate) (h : Fits bucket now) (hlater : now ≤ later) :
    level capacity rate bucket later =
      min capacity (level capacity rate bucket now + (later - now) * rate) := by
  have hgain : 0 ≤ (later - now) * rate := mul_nonneg (sub_nonneg.mpr hlater) hrate
  cases bucket with
  | none => exact (min_eq_left (le_add_of_nonneg_right hgain)).symm
  | some b =>
    have hnow := (h b rfl).2
    simp only [level, Option.elim_some, max_eq_right (sub_nonneg.mpr hnow),
      max_eq_right (sub_nonneg.mpr (hnow.trans hlater))]
    have hsum : b.tokens + (now - b.updatedAt) * rate + (later - now) * rate =
        b.tokens + (later - b.updatedAt) * rate := by
      ring
    rw [← min_add_add_right, ← min_assoc, min_eq_left (le_add_of_nonneg_right hgain), hsum]

lemma fits_spent (hcapacity : 0 ≤ capacity) (hrate : 0 ≤ rate) (h : Fits bucket now) :
    Fits (some (spent capacity rate bucket now)) now := by
  intro b hb
  obtain rfl := Option.some.inj hb
  refine ⟨?_, le_rfl⟩
  dsimp only [spent]
  split
  · linarith
  · exact level_nonneg hcapacity hrate h

/-- A take leaves the level, less the token it grants. -/
lemma level_spent :
    level capacity rate (some (spent capacity rate bucket now)) now =
      level capacity rate bucket now -
        if 1 ≤ level capacity rate bucket now then 1 else 0 := by
  have hle : level capacity rate bucket now ≤ capacity := level_le
  rw [level, Option.elim_some]
  dsimp only [spent]
  rw [sub_self, max_self, zero_mul, add_zero]
  split
  · exact min_eq_right (by linarith)
  · rw [sub_zero, min_eq_right hle]

end Bucket

/-! ### Tables of buckets -/

variable {κ T : Type*} [DecidableEq κ]

/-- A take from the bucket of a key, and what it leaves in the table. -/
abbrev Take (κ T : Type*) := T → κ → ℚ → Bool × T

/-- A table in which a take spends from the bucket of its key, and of the other buckets forgets
some or none. -/
structure Spends (capacity rate : ℚ) (bucketOf : T → κ → Option Bucket) (take : Take κ T) :
    Prop where
  answer : ∀ t k now, (take t k now).1 = decide (1 ≤ Bucket.level capacity rate (bucketOf t k) now)
  own : ∀ t k now,
    bucketOf (take t k now).2 k = some (Bucket.spent capacity rate (bucketOf t k) now)
  other : ∀ t k now j, j ≠ k → bucketOf (take t k now).2 j = bucketOf t j ∨
    bucketOf (take t k now).2 j = none

/-- A table that forgets no bucket. -/
structure Remembers (capacity rate : ℚ) (bucketOf : T → κ → Option Bucket) (take : Take κ T) :
    Prop extends Spends capacity rate bucketOf take where
  kept : ∀ t k now j, j ≠ k → bucketOf (take t k now).2 j = bucketOf t j

/-- Takes one after the other: what each of them was answered. -/
def answers (take : Take κ T) : T → List (κ × ℚ) → List ((κ × ℚ) × Bool)
  | _, [] => []
  | t, r :: requests => (r, (take t r.1 r.2).1) :: answers take (take t r.1 r.2).2 requests

/-- And the table they leave. -/
def afterTakes (take : Take κ T) (t : T) (requests : List (κ × ℚ)) : T :=
  requests.foldl (fun t r => (take t r.1 r.2).2) t

/-- What a key has been granted. -/
def grantedTo (k : κ) (l : List ((κ × ℚ) × Bool)) : ℕ := l.countP fun a => a.1.1 = k ∧ a.2

/-- What a key has been granted in a window. -/
def grantedWithin (k : κ) (t₁ t₂ : ℚ) (l : List ((κ × ℚ) × Bool)) : ℕ :=
  l.countP fun a => a.1.1 = k ∧ a.2 ∧ t₁ ≤ a.1.2 ∧ a.1.2 ≤ t₂

/-- None of the takes makes the table forget the bucket of a key. -/
def NotForgotten {σ : Type*} (bucketOf : T → κ → Option Bucket) (take : Take σ T) (k : κ) :
    T → List (σ × ℚ) → Prop
  | _, [] => True
  | t, r :: requests =>
    (bucketOf t k ≠ none → bucketOf (take t r.1 r.2).2 k ≠ none) ∧
      NotForgotten bucketOf take k (take t r.1 r.2).2 requests

section

variable {capacity rate : ℚ} {bucketOf : T → κ → Option Bucket} {take : Take κ T} {t : T} {k j : κ}
  {now clock : ℚ}

lemma Spends.fits (h : Spends capacity rate bucketOf take) (hcapacity : 0 ≤ capacity)
    (hrate : 0 ≤ rate) (hfits : Bucket.Fits (bucketOf t j) clock) (hclock : clock ≤ now) :
    Bucket.Fits (bucketOf (take t k now).2 j) now := by
  have hnow := hfits.mono hclock
  by_cases hj : j = k
  · subst hj
    rw [h.own]
    exact Bucket.fits_spent hcapacity hrate hnow
  · rcases h.other t k now j hj with hsame | hnone
    · rwa [hsame]
    · rw [hnone]
      exact .none

/-- The token that an answer to a key took from its bucket. -/
def took (k : κ) (r : κ × ℚ) (granted : Bool) : ℕ := if r.1 = k ∧ granted then 1 else 0

lemma grantedTo_cons (r : κ × ℚ) (granted : Bool) (l : List ((κ × ℚ) × Bool)) :
    grantedTo k ((r, granted) :: l) = grantedTo k l + took k r granted := by
  simp [grantedTo, took, List.countP_cons]

/-- A take from another bucket takes no token from this one. -/
lemma took_of_ne {r : κ × ℚ} (h : k ≠ r.1) (granted : Bool) : took k r granted = 0 :=
  if_neg fun hk => h hk.1.symm

/-- After a take the level of a key whose bucket is kept is what it was, less the token taken. -/
lemma Spends.level_take_eq (h : Spends capacity rate bucketOf take) (r : κ × ℚ)
    (hkept : k ≠ r.1 → bucketOf (take t r.1 r.2).2 k = bucketOf t k) :
    Bucket.level capacity rate (bucketOf (take t r.1 r.2).2 k) r.2 =
      Bucket.level capacity rate (bucketOf t k) r.2 - took k r (take t r.1 r.2).1 := by
  by_cases hk : k = r.1
  · subst hk
    rw [h.own, Bucket.level_spent, h.answer]
    simp only [took, true_and, decide_eq_true_eq]
    split <;> simp
  · rw [hkept hk, took_of_ne hk, Nat.cast_zero, sub_zero]

/-- And where it is not kept, the level is no less. -/
lemma Spends.level_take (h : Spends capacity rate bucketOf take) (r : κ × ℚ) :
    Bucket.level capacity rate (bucketOf t k) r.2 - took k r (take t r.1 r.2).1 ≤
      Bucket.level capacity rate (bucketOf (take t r.1 r.2).2 k) r.2 := by
  by_cases hkept : k ≠ r.1 → bucketOf (take t r.1 r.2).2 k = bucketOf t k
  · exact (h.level_take_eq r hkept).ge
  · obtain ⟨hne, hdiff⟩ := Classical.not_imp.mp hkept
    rw [(h.other t r.1 r.2 k hne).resolve_left hdiff, took_of_ne hne, Nat.cast_zero, sub_zero]
    exact Bucket.level_le

/-- A token is taken from a level of one or more. -/
lemma Spends.took_eq (h : Spends capacity rate bucketOf take) (r : κ × ℚ) :
    took k r (take t r.1 r.2).1 =
      if r.1 = k ∧ 1 ≤ Bucket.level capacity rate (bucketOf t k) r.2 then 1 else 0 := by
  obtain ⟨j, now⟩ := r
  by_cases hj : j = k
  · subst hj
    simp only [took, h.answer, decide_eq_true_eq]
  · simp [took, hj]

end

/-! ### A table that forgets is never stricter -/

section

variable {U : Type*} {capacity rate : ℚ} {bucketOf : T → κ → Option Bucket} {take : Take κ T}
  {bucketOf' : U → κ → Option Bucket} {take' : Take κ U}

/-- From where a key is ahead by some grants, and by as much or more with its level counted in, it
stays ahead. -/
lemma Remembers.grantedTo_le (h' : Remembers capacity rate bucketOf' take')
    (h : Spends capacity rate bucketOf take) (hcapacity : 0 ≤ capacity) (hrate : 0 ≤ rate) (k : κ)
    {requests : List (κ × ℚ)} {t : T} {u : U} {clock : ℚ} (ahead : ℕ)
    (hclock : (clock :: requests.map Prod.snd).Pairwise (· ≤ ·))
    (ht : Bucket.Fits (bucketOf t k) clock) (hu : Bucket.Fits (bucketOf' u k) clock)
    (hlevel : Bucket.level capacity rate (bucketOf' u k) clock ≤
      ahead + Bucket.level capacity rate (bucketOf t k) clock) :
    grantedTo k (answers take' u requests) ≤ ahead + grantedTo k (answers take t requests) := by
  induction requests generalizing t u clock ahead with
  | nil => exact Nat.zero_le _
  | cons r requests ih =>
    rw [List.map_cons, List.pairwise_cons] at hclock
    obtain ⟨hfirst, hrest⟩ := hclock
    have hnow : clock ≤ r.2 := hfirst r.2 List.mem_cons_self
    -- what comes in keeps the key ahead: a bucket that stops filling is full
    have hrefill : Bucket.level capacity rate (bucketOf' u k) r.2 ≤
        ahead + Bucket.level capacity rate (bucketOf t k) r.2 := by
      rw [Bucket.level_later hrate ht hnow, Bucket.level_later hrate hu hnow,
        ← min_add_add_left]
      refine le_min ?_ ?_
      · exact (min_le_left _ _).trans (le_add_of_nonneg_left (Nat.cast_nonneg _))
      · exact (min_le_right _ _).trans (by linarith)
    have htook : took k r (take' u r.1 r.2).1 ≤ ahead + took k r (take t r.1 r.2).1 := by
      rw [h.took_eq, h'.took_eq]
      by_cases hahead : ahead = 0
      · subst hahead
        rw [Nat.cast_zero, zero_add] at hrefill
        split
        next hgrant => rw [if_pos ⟨hgrant.1, hgrant.2.trans hrefill⟩]
        · exact Nat.zero_le _
      · split <;> split <;> omega
    obtain ⟨next, hnext⟩ := Nat.exists_eq_add_of_le htook
    have hlater := h.level_take r (t := t) (k := k)
    have hexact := h'.level_take_eq r (t := u) (k := k) (h'.kept u r.1 r.2 k)
    have hcast : (ahead + took k r (take t r.1 r.2).1 : ℚ) =
        took k r (take' u r.1 r.2).1 + next := by
      exact_mod_cast hnext
    have hstep := ih next hrest (h.fits hcapacity hrate ht hnow)
      (h'.fits hcapacity hrate hu hnow) (by rw [hexact]; linarith)
    simp only [answers, grantedTo_cons]
    omega

/-- **Never stricter.** A table that forgets buckets grants every key at least what a table grants
that forgets none. -/
theorem Remembers.never_stricter (h' : Remembers capacity rate bucketOf' take')
    (h : Spends capacity rate bucketOf take) (hcapacity : 0 ≤ capacity) (hrate : 0 ≤ rate) (k : κ)
    {requests : List (κ × ℚ)} {t : T} {u : U}
    (hclock : (requests.map Prod.snd).Pairwise (· ≤ ·))
    (ht : bucketOf t k = none) (hu : bucketOf' u k = none) :
    grantedTo k (answers take' u requests) ≤ grantedTo k (answers take t requests) := by
  cases requests with
  | nil => exact Nat.zero_le _
  | cons r requests =>
    have hstart : (r.2 :: (r :: requests).map Prod.snd).Pairwise (· ≤ ·) := by
      refine List.pairwise_cons.mpr ⟨List.forall_mem_cons.mpr ⟨le_rfl, ?_⟩, hclock⟩
      exact (List.pairwise_cons.mp hclock).1
    have hle := h'.grantedTo_le h hcapacity hrate k 0 hstart
      (by rw [ht]; exact .none) (by rw [hu]; exact .none) (by rw [ht, hu]; simp)
    rwa [Nat.zero_add] at hle

end

/-! ### What a bucket grants over a window -/

section

variable {capacity rate : ℚ} {bucketOf : T → κ → Option Bucket} {take : Take κ T} {k : κ}

lemma grantedWithin_cons (t₁ t₂ : ℚ) (r : κ × ℚ) (granted : Bool) (l : List ((κ × ℚ) × Bool)) :
    grantedWithin k t₁ t₂ ((r, granted) :: l) =
      grantedWithin k t₁ t₂ l + if t₁ ≤ r.2 ∧ r.2 ≤ t₂ then took k r granted else 0 := by
  simp only [grantedWithin, took, List.countP_cons, decide_eq_true_eq]
  split <;> split <;> simp_all

omit [DecidableEq κ] in
/-- A key whose bucket is not forgotten keeps what its takes leave of it. -/
lemma Spends.kept_of_not_forgotten (h : Spends capacity rate bucketOf take) {t : T}
    {r : κ × ℚ} (hkeep : bucketOf t k ≠ none → bucketOf (take t r.1 r.2).2 k ≠ none) :
    k ≠ r.1 → bucketOf (take t r.1 r.2).2 k = bucketOf t k := by
  intro hne
  rcases h.other t r.1 r.2 k hne with hsame | hnone
  · exact hsame
  · by_contra hdiff
    rw [hnone] at hdiff
    exact hkeep (fun hnil => hdiff hnil.symm) hnone

/-- Nothing is granted in a window that is past. -/
lemma grantedWithin_eq_zero {t₁ t₂ : ℚ} {t : T} {requests : List (κ × ℚ)}
    (h : ∀ r ∈ requests, t₂ < r.2) : grantedWithin k t₁ t₂ (answers take t requests) = 0 := by
  induction requests generalizing t with
  | nil => rfl
  | cons r requests ih =>
    obtain ⟨hr, hrest⟩ := List.forall_mem_cons.mp h
    rw [answers, grantedWithin_cons, ih hrest, if_neg fun hin => not_lt.mpr hin.2 hr]

/-- From a time on, a bucket grants no more than its level then and what comes in. -/
lemma Spends.grantedWithin_le_level (h : Spends capacity rate bucketOf take)
    (hcapacity : 0 ≤ capacity) (hrate : 0 ≤ rate) {requests : List (κ × ℚ)} {t : T}
    {clock t₁ t₂ : ℚ} (hclock : (clock :: requests.map Prod.snd).Pairwise (· ≤ ·))
    (ht : Bucket.Fits (bucketOf t k) clock) (hkeep : NotForgotten bucketOf take k t requests)
    (hwindow : max clock t₁ ≤ t₂) :
    (grantedWithin k t₁ t₂ (answers take t requests) : ℚ) ≤
      Bucket.level capacity rate (bucketOf t k) (max clock t₁) +
        (t₂ - max clock t₁) * rate := by
  have hincome : 0 ≤ (t₂ - max clock t₁) * rate := mul_nonneg (sub_nonneg.mpr hwindow) hrate
  have hnonneg := Bucket.level_nonneg hcapacity hrate (ht.mono (le_max_left clock t₁))
  induction requests generalizing t clock with
  | nil =>
    have hnone : grantedWithin k t₁ t₂ (answers take t []) = 0 := rfl
    rw [hnone, Nat.cast_zero]
    linarith
  | cons r requests ih =>
    rw [List.map_cons, List.pairwise_cons] at hclock
    obtain ⟨hfirst, hrest⟩ := hclock
    have hnow : clock ≤ r.2 := hfirst r.2 List.mem_cons_self
    rcases lt_or_ge t₂ r.2 with hlate | hin
    · rw [grantedWithin_eq_zero, Nat.cast_zero]
      · linarith
      · have hmono := (List.pairwise_cons.mp hrest).1
        refine List.forall_mem_cons.mpr ⟨hlate, fun s hs => hlate.trans_le (hmono _ ?_)⟩
        exact List.mem_map_of_mem hs
    have hfits := h.fits (k := r.1) hcapacity hrate ht hnow
    have hexact := h.level_take_eq r (h.kept_of_not_forgotten hkeep.1)
    have hmax : max r.2 t₁ ≤ t₂ := max_le hin ((le_max_right _ _).trans hwindow)
    have hstep := ih hrest hfits hkeep.2 hmax (mul_nonneg (sub_nonneg.mpr hmax) hrate)
      (Bucket.level_nonneg hcapacity hrate (hfits.mono (le_max_left _ _)))
    rw [answers, grantedWithin_cons, Nat.cast_add]
    rcases lt_or_ge r.2 t₁ with hearly | hstarted
    · -- before the window only the level counts, and the take does not raise it
      rw [if_neg fun hw => not_lt.mpr hw.1 hearly, Nat.cast_zero, add_zero]
      rw [max_eq_right hearly.le] at hstep
      rw [max_eq_right (hnow.trans hearly.le)]
      have hlower : Bucket.level capacity rate (bucketOf (take t r.1 r.2).2 k) t₁ ≤
          Bucket.level capacity rate (bucketOf t k) t₁ := by
        rw [Bucket.level_later hrate hfits hearly.le,
          Bucket.level_later hrate (ht.mono hnow) hearly.le, hexact]
        refine min_le_min_left _ ?_
        have htook : (0 : ℚ) ≤ took k r (take t r.1 r.2).1 := Nat.cast_nonneg _
        linarith
      linarith
    · rw [if_pos ⟨hstarted, hin⟩]
      rw [max_eq_left hstarted, hexact] at hstep
      have hmaxle : max clock t₁ ≤ r.2 := max_le hnow hstarted
      have hlevel : Bucket.level capacity rate (bucketOf t k) r.2 ≤
          Bucket.level capacity rate (bucketOf t k) (max clock t₁) +
            (r.2 - max clock t₁) * rate := by
        rw [Bucket.level_later hrate (ht.mono (le_max_left clock t₁)) hmaxle]
        exact min_le_right _ _
      linarith

/-- **A window.** While its bucket is not forgotten, a key is granted no more in a window than a
full bucket and what comes in during it. -/
theorem Spends.grantedWithin_le (h : Spends capacity rate bucketOf take)
    (hcapacity : 0 ≤ capacity) (hrate : 0 ≤ rate) {requests : List (κ × ℚ)} {t : T}
    {clock t₁ t₂ : ℚ} (hclock : (clock :: requests.map Prod.snd).Pairwise (· ≤ ·))
    (ht : Bucket.Fits (bucketOf t k) clock) (hkeep : NotForgotten bucketOf take k t requests)
    (hwindow : t₁ ≤ t₂) :
    (grantedWithin k t₁ t₂ (answers take t requests) : ℚ) ≤ capacity + rate * (t₂ - t₁) := by
  have hincome : 0 ≤ rate * (t₂ - t₁) := mul_nonneg hrate (sub_nonneg.mpr hwindow)
  rcases lt_or_ge t₂ clock with hpast | hopen
  · rw [grantedWithin_eq_zero, Nat.cast_zero]
    · linarith
    · refine fun r hr => hpast.trans_le ((List.pairwise_cons.mp hclock).1 _ ?_)
      exact List.mem_map_of_mem hr
  · have hle := h.grantedWithin_le_level hcapacity hrate hclock ht hkeep (max_le hopen hwindow)
    have hlevel : Bucket.level capacity rate (bucketOf t k) (max clock t₁) ≤ capacity :=
      Bucket.level_le
    have hmax : (t₂ - max clock t₁) * rate ≤ (t₂ - t₁) * rate :=
      mul_le_mul_of_nonneg_right (sub_le_sub_left (le_max_right _ _) _) hrate
    linarith

end

end Tnp.Lib
