import Mathlib.Data.Set.Card
import Mathlib.Tactic.Linarith
import Tnp.Relay.Limits

/-!
What a relay lets through.

A bucket that is full holds nothing that a new bucket would not, so an address that has no entry
stands for one whose buckets are full. Read that way a tracker has an entry for every address, and
to sweep it changes nothing.
-/

namespace Tnp.Relay

open Tnp.Lib

/-! ### One bucket over a window -/

namespace TokenBucket

variable {b : TokenBucket} {now later : ℚ}

@[simp] lemma refill_capacity : (b.refill now).capacity = b.capacity := rfl
@[simp] lemma refill_refillPerSecond : (b.refill now).refillPerSecond = b.refillPerSecond := rfl
@[simp] lemma refill_last : (b.refill now).last = now := rfl

lemma refill_tokens (h : b.last ≤ now) :
    (b.refill now).tokens =
      min b.capacity (b.tokens + (now - b.last) / 1000 * b.refillPerSecond) := by
  simp only [refill, max_eq_right (sub_nonneg.mpr h)]

lemma refill_tokens_le : (b.refill now).tokens ≤ b.capacity := min_le_left _ _

lemma income_nonneg (hrate : 0 ≤ b.refillPerSecond) (h : now ≤ later) :
    0 ≤ (later - now) / 1000 * b.refillPerSecond :=
  mul_nonneg (div_nonneg (sub_nonneg.mpr h) (by norm_num)) hrate

/-- To refill on the way makes no difference. -/
lemma refill_refill (hrate : 0 ≤ b.refillPerSecond) (hlast : b.last ≤ now) (hlater : now ≤ later) :
    (b.refill now).refill later = b.refill later := by
  have hgain := income_nonneg hrate hlater
  have htokens : ((b.refill now).refill later).tokens = (b.refill later).tokens := by
    rw [refill_tokens hlater, refill_tokens hlast, refill_tokens (hlast.trans hlater)]
    simp only [refill_capacity, refill_refillPerSecond, refill_last]
    have hsum : b.tokens + (now - b.last) / 1000 * b.refillPerSecond +
        (later - now) / 1000 * b.refillPerSecond =
          b.tokens + (later - b.last) / 1000 * b.refillPerSecond := by
      ring
    rw [← hsum, ← min_add_add_right, ← min_assoc, min_eq_left (le_add_of_nonneg_right hgain)]
  exact congrArg (fun tokens => TokenBucket.mk b.capacity b.refillPerSecond tokens later) htokens

/-- At the instant of the last refill there is nothing to refill. -/
lemma refill_self (hlast : b.last = now) (htokens : b.tokens ≤ b.capacity) :
    b.refill now = b := by
  have hsame : (b.refill now).tokens = b.tokens := by
    rw [refill_tokens hlast.le, hlast, sub_self, zero_div, zero_mul, add_zero,
      min_eq_right htokens]
  rw [← hlast] at hsame ⊢
  exact congrArg (fun tokens => TokenBucket.mk b.capacity b.refillPerSecond tokens b.last) hsame

/-- A take at the instant of a refill is a take. -/
lemma take_refill (b : TokenBucket) (now : ℚ) : (b.refill now).take now = b.take now := by
  have hrefill : (b.refill now).refill now = b.refill now := refill_self rfl refill_tokens_le
  simp only [take, hrefill]

/-- Takes one after the other, and what each was given. -/
def takes : TokenBucket → List ℚ → List (ℚ × Bool) × TokenBucket
  | b, [] => ([], b)
  | b, now :: times =>
    let (taken, b) := b.take now
    let (answers, b) := b.takes times
    ((now, taken) :: answers, b)

/-- How many were granted in a window. -/
def granted (answers : List (ℚ × Bool)) (t₁ t₂ : ℚ) : ℕ :=
  answers.countP fun a => a.2 && t₁ ≤ a.1 && a.1 ≤ t₂

lemma takes_cons (b : TokenBucket) (now : ℚ) (times : List ℚ) :
    (b.takes (now :: times)).1 = (now, (b.take now).1) :: ((b.take now).2.takes times).1 := rfl

lemma takes_fst (b : TokenBucket) (times : List ℚ) : (b.takes times).1.map Prod.fst = times := by
  induction times generalizing b with
  | nil => rfl
  | cons now times ih => rw [takes_cons, List.map_cons, ih]

lemma granted_cons (t : ℚ) (taken : Bool) (answers : List (ℚ × Bool)) (t₁ t₂ : ℚ) :
    granted ((t, taken) :: answers) t₁ t₂ =
      granted answers t₁ t₂ + if taken && t₁ ≤ t && t ≤ t₂ then 1 else 0 := List.countP_cons

@[simp] lemma take_capacity : (b.take now).2.capacity = b.capacity := by
  simp only [take]
  split <;> rfl

@[simp] lemma take_refillPerSecond : (b.take now).2.refillPerSecond = b.refillPerSecond := by
  simp only [take]
  split <;> rfl

@[simp] lemma take_last : (b.take now).2.last = now := by
  simp only [take]
  split <;> rfl

/-- What one take does to the level. -/
lemma take_cases (b : TokenBucket) (now : ℚ) :
    ((b.take now).1 = false ∧ (b.take now).2.tokens = (b.refill now).tokens) ∨
      ((b.take now).1 = true ∧ 1 ≤ (b.refill now).tokens ∧
        (b.take now).2.tokens = (b.refill now).tokens - 1) := by
  simp only [take]
  split
  · exact .inl ⟨rfl, rfl⟩
  · next h => exact .inr ⟨rfl, not_lt.mp h, rfl⟩

lemma take_tokens_le (b : TokenBucket) (now : ℚ) :
    (b.take now).2.tokens ≤ (b.refill now).tokens := by
  rcases take_cases b now with ⟨_, h⟩ | ⟨_, _, h⟩ <;> linarith

/-- After a take there is nothing to refill. -/
lemma take_snd_refill (b : TokenBucket) (now : ℚ) :
    (b.take now).2.refill now = (b.take now).2 := by
  refine refill_self take_last ?_
  rw [take_capacity]
  exact (take_tokens_le b now).trans refill_tokens_le

lemma take_tokens_nonneg (h : 0 ≤ (b.refill now).tokens) : 0 ≤ (b.take now).2.tokens := by
  rcases take_cases b now with ⟨_, htokens⟩ | ⟨_, hone, htokens⟩ <;> linarith

/-- Nothing is granted in a window that is past. -/
lemma granted_eq_zero {b : TokenBucket} {times : List ℚ} {t₁ t₂ : ℚ}
    (h : ∀ t ∈ times, t₂ < t) : granted (b.takes times).1 t₁ t₂ = 0 := by
  refine List.countP_eq_zero.mpr fun a ha => ?_
  have hmem : a.1 ∈ times := by
    rw [← takes_fst b times]
    exact List.mem_map_of_mem ha
  have hlate := not_le.mpr (h a.1 hmem)
  simp [hlate]

/-- From any level on, no more is granted than the level and what comes in. -/
lemma granted_le_level {b : TokenBucket} {times : List ℚ} {t₁ t₂ : ℚ}
    (hrate : 0 ≤ b.refillPerSecond) (hcapacity : 0 ≤ b.capacity) (htokens : 0 ≤ b.tokens)
    (hlast : b.last ≤ t₂)
    (hclock : (b.last :: times).Pairwise (· ≤ ·)) :
    (granted (b.takes times).1 t₁ t₂ : ℚ) ≤
      b.tokens + (t₂ - b.last) / 1000 * b.refillPerSecond := by
  induction times generalizing b with
  | nil =>
    have hnone : granted (b.takes []).1 t₁ t₂ = 0 := rfl
    rw [hnone, Nat.cast_zero]
    exact add_nonneg htokens (income_nonneg hrate hlast)
  | cons now times ih =>
    obtain ⟨hfirst, hrest⟩ := List.pairwise_cons.mp hclock
    have hnow : b.last ≤ now := hfirst now List.mem_cons_self
    obtain ⟨hlater, _⟩ := List.pairwise_cons.mp hrest
    rcases lt_or_ge t₂ now with hlate | hin
    · rw [granted_eq_zero (List.forall_mem_cons.mpr
        ⟨hlate, fun t ht => hlate.trans_le (hlater t ht)⟩), Nat.cast_zero]
      exact add_nonneg htokens (income_nonneg hrate hlast)
    -- what came in until now, and what comes in from now on
    have hlevel : (b.refill now).tokens ≤ b.tokens + (now - b.last) / 1000 * b.refillPerSecond := by
      rw [refill_tokens hnow]
      exact min_le_right _ _
    have hsum : b.tokens + (now - b.last) / 1000 * b.refillPerSecond +
        (t₂ - now) / 1000 * b.refillPerSecond =
          b.tokens + (t₂ - b.last) / 1000 * b.refillPerSecond := by
      ring
    have hrefilled : 0 ≤ (b.refill now).tokens := by
      rw [refill_tokens hnow]
      exact le_min hcapacity (add_nonneg htokens (income_nonneg hrate hnow))
    have hstep := @ih (b.take now).2 (by simpa using hrate) (by simpa using hcapacity)
      (take_tokens_nonneg hrefilled) (by simpa using hin) (by simpa using hrest)
    simp only [take_refillPerSecond, take_last] at hstep
    rw [takes_cons, granted_cons, Nat.cast_add]
    rcases take_cases b now with ⟨htaken, hbucket⟩ | ⟨htaken, hone, hbucket⟩
    · simp only [htaken, Bool.false_and, Bool.false_eq_true, if_false, Nat.cast_zero]
      linarith
    · have hunit : ((if (b.take now).1 && t₁ ≤ now && now ≤ t₂ then 1 else 0 : ℕ) : ℚ) ≤ 1 := by
        split <;> norm_num
      linarith

/-- No more is granted in a window than the capacity and what comes in during it. -/
lemma granted_le {b : TokenBucket} {times : List ℚ} {t₁ t₂ : ℚ} (hrate : 0 ≤ b.refillPerSecond)
    (htokens : 0 ≤ b.tokens) (hcapacity : b.tokens ≤ b.capacity)
    (hclock : (b.last :: times).Pairwise (· ≤ ·)) (hwindow : t₁ ≤ t₂) :
    (granted (b.takes times).1 t₁ t₂ : ℚ) ≤
      b.capacity + b.refillPerSecond * ((t₂ - t₁) / 1000) := by
  have hbound := income_nonneg hrate hwindow
  induction times generalizing b with
  | nil =>
    have hnone : granted (b.takes []).1 t₁ t₂ = 0 := rfl
    rw [hnone, Nat.cast_zero]
    linarith
  | cons now times ih =>
    obtain ⟨hfirst, hrest⟩ := List.pairwise_cons.mp hclock
    have hnow : b.last ≤ now := hfirst now List.mem_cons_self
    have hrefilled : 0 ≤ (b.refill now).tokens := by
      rw [refill_tokens hnow]
      exact le_min (htokens.trans hcapacity) (add_nonneg htokens (income_nonneg hrate hnow))
    have hlevel : (b.refill now).tokens ≤ b.capacity := refill_tokens_le
    rcases lt_or_ge now t₁ with hearly | hin
    · -- before the window: only the level matters
      have hout : ((b.take now).1 && t₁ ≤ now && now ≤ t₂) = false := by
        simp [not_le.mpr hearly]
      rw [takes_cons, granted_cons, hout]
      have hstep := @ih (b.take now).2 (by simpa using hrate) (take_tokens_nonneg hrefilled)
        (by simpa using (take_tokens_le b now).trans hlevel) (by simpa using hrest)
        (by simpa using hbound)
      simpa using hstep
    · -- the first take of the window
      obtain ⟨hlater, _⟩ := List.pairwise_cons.mp hrest
      rcases lt_or_ge t₂ now with hlate | hstart
      · rw [granted_eq_zero (List.forall_mem_cons.mpr
          ⟨hlate, fun t ht => hlate.trans_le (hlater t ht)⟩), Nat.cast_zero]
        linarith
      · have hfrom : (b.refill now).takes (now :: times) = b.takes (now :: times) := by
          simp only [takes, take_refill]
        have hclock' : ((b.refill now).last :: now :: times).Pairwise (· ≤ ·) :=
          List.pairwise_cons.mpr ⟨List.forall_mem_cons.mpr ⟨le_rfl, hlater⟩, hrest⟩
        have hwithin : (granted ((b.refill now).takes (now :: times)).1 t₁ t₂ : ℚ) ≤
            (b.refill now).tokens + (t₂ - now) / 1000 * b.refillPerSecond :=
          granted_le_level hrate (htokens.trans hcapacity) hrefilled hstart hclock'
        have hspent := income_nonneg hrate hin
        rw [hfrom] at hwithin
        linarith

end TokenBucket

/-! ### A tracker with an entry for every address -/

def IpEntry.refill (e : IpEntry) (now : ℚ) : IpEntry :=
  { e with
    connect := e.connect.refill now
    create := e.create.refill now
    auth := e.auth.refill now }

/-- Nothing held and nothing to refill. -/
structure IpEntry.Idle (e : IpEntry) : Prop where
  connections : e.connections = 0
  connect : e.connect.capacity ≤ e.connect.tokens
  create : e.create.capacity ≤ e.create.tokens
  auth : e.auth.capacity ≤ e.auth.tokens

/-- Buckets refill. -/
structure RelayLimits.Refills (limits : RelayLimits) : Prop where
  connect : 0 ≤ limits.connectRefillPerSecondPerIp
  create : 0 ≤ limits.createRefillPerSecondPerIp
  auth : 0 ≤ limits.authRefillPerSecondPerIp

/-- A bucket of the limits, last refilled by now. -/
structure TokenBucket.Fits (b : TokenBucket) (capacity refillPerSecond now : ℚ) : Prop where
  capacity : b.capacity = capacity
  refillPerSecond : b.refillPerSecond = refillPerSecond
  last : b.last ≤ now

structure IpEntry.Fits (limits : RelayLimits) (e : IpEntry) (now : ℚ) : Prop where
  connect : e.connect.Fits limits.connectBurstPerIp limits.connectRefillPerSecondPerIp now
  create : e.create.Fits limits.createBurstPerIp limits.createRefillPerSecondPerIp now
  auth : e.auth.Fits limits.authBurstPerIp limits.authRefillPerSecondPerIp now

section Entries

variable {limits : RelayLimits} {now later : ℚ}

namespace TokenBucket.Fits

variable {b : TokenBucket} {capacity refillPerSecond : ℚ}

lemma refill (h : b.Fits capacity refillPerSecond now) :
    (b.refill later).Fits capacity refillPerSecond later :=
  ⟨h.capacity, h.refillPerSecond, le_rfl⟩

lemma take (h : b.Fits capacity refillPerSecond now) :
    (b.take later).2.Fits capacity refillPerSecond later :=
  ⟨by rw [take_capacity, h.capacity], by rw [take_refillPerSecond, h.refillPerSecond],
    take_last.le⟩

lemma mono (h : b.Fits capacity refillPerSecond now) (hlater : now ≤ later) :
    b.Fits capacity refillPerSecond later := ⟨h.capacity, h.refillPerSecond, h.last.trans hlater⟩

lemma refill_refill (h : b.Fits capacity refillPerSecond now) (hrate : 0 ≤ refillPerSecond)
    (hlater : now ≤ later) : (b.refill now).refill later = b.refill later :=
  TokenBucket.refill_refill (by rwa [h.refillPerSecond]) h.last hlater

lemma full (capacity refillPerSecond now : ℚ) :
    (TokenBucket.full capacity refillPerSecond now).Fits capacity refillPerSecond now :=
  ⟨rfl, rfl, le_rfl⟩

/-- A bucket that is full is a new one. -/
lemma refill_of_full (h : b.Fits capacity refillPerSecond now)
    (hfull : (b.refill now).capacity ≤ (b.refill now).tokens) :
    b.refill now = .full capacity refillPerSecond now := by
  have htokens : (b.refill now).tokens = capacity := by
    rw [← h.capacity]
    exact le_antisymm refill_tokens_le hfull
  rw [← h.capacity, ← h.refillPerSecond]
  rw [← h.capacity] at htokens
  exact congrArg (fun tokens => TokenBucket.mk b.capacity b.refillPerSecond tokens now) htokens

/-- And stays one. -/
lemma full_refill (hrate : 0 ≤ refillPerSecond) (hlater : now ≤ later) :
    (TokenBucket.full capacity refillPerSecond now).refill later =
      .full capacity refillPerSecond later := by
  refine (full capacity refillPerSecond now |>.mono hlater).refill_of_full ?_
  rw [refill_tokens hlater]
  exact le_min le_rfl (le_add_of_nonneg_right (income_nonneg hrate hlater))

end TokenBucket.Fits

namespace IpEntry

variable {e : IpEntry}

lemma Fits.mono (h : e.Fits limits now) (hlater : now ≤ later) : e.Fits limits later :=
  ⟨h.connect.mono hlater, h.create.mono hlater, h.auth.mono hlater⟩

lemma Fits.newEntry (limits : RelayLimits) (now : ℚ) :
    (IpTracker.newEntry limits now).Fits limits now :=
  ⟨.full _ _ _, .full _ _ _, .full _ _ _⟩

lemma newEntry_refill (hlimits : limits.Refills) (hlater : now ≤ later) :
    (IpTracker.newEntry limits now).refill later = IpTracker.newEntry limits later := by
  simp only [IpTracker.newEntry, refill, TokenBucket.Fits.full_refill hlimits.connect hlater,
    TokenBucket.Fits.full_refill hlimits.create hlater,
    TokenBucket.Fits.full_refill hlimits.auth hlater]

lemma newEntry_idle (limits : RelayLimits) (now : ℚ) : (IpTracker.newEntry limits now).Idle :=
  ⟨rfl, le_rfl, le_rfl, le_rfl⟩

lemma Fits.refill_refill (h : e.Fits limits now) (hlimits : limits.Refills)
    (hlater : now ≤ later) : (e.refill now).refill later = e.refill later := by
  simp only [IpEntry.refill, h.connect.refill_refill hlimits.connect hlater,
    h.create.refill_refill hlimits.create hlater, h.auth.refill_refill hlimits.auth hlater]

/-- An entry that is idle is a new one. -/
lemma Fits.refill_of_idle (h : e.Fits limits now) (hidle : (e.refill now).Idle) :
    e.refill now = IpTracker.newEntry limits now := by
  have hconnections : e.connections = 0 := hidle.connections
  simp only [IpEntry.refill, IpTracker.newEntry, hconnections,
    h.connect.refill_of_full hidle.connect, h.create.refill_of_full hidle.create,
    h.auth.refill_of_full hidle.auth]

/-- What `sweep` leaves of an entry it keeps: some of its buckets refilled. -/
structure Refilled (e e' : IpEntry) (now : ℚ) : Prop where
  connections : e'.connections = e.connections
  connect : e'.connect = e.connect ∨ e'.connect = e.connect.refill now
  create : e'.create = e.create ∨ e'.create = e.create.refill now
  auth : e'.auth = e.auth ∨ e'.auth = e.auth.refill now

lemma idle_spec (e : IpEntry) (now : ℚ) :
    ((e.idle now).1 = true ↔ (e.refill now).Idle) ∧ e.Refilled (e.idle now).2 now := by
  -- a bucket that is not full stops the rest
  have hstop {b : TokenBucket} (h : (!decide (b.capacity ≤ b.tokens)) = true) :
      ¬ b.capacity ≤ b.tokens := by
    simpa using h
  have hgo {b : TokenBucket} (h : ¬ (!decide (b.capacity ≤ b.tokens)) = true) :
      b.capacity ≤ b.tokens := by
    simpa using h
  unfold idle
  split
  · next hbusy =>
    exact ⟨⟨fun h => by simp at h, fun h => absurd h.connections hbusy⟩,
      ⟨rfl, .inl rfl, .inl rfl, .inl rfl⟩⟩
  next hfree =>
  dsimp only [TokenBucket.isFull]
  split
  · next hconnect =>
    exact ⟨⟨fun h => by simp at h, fun h => absurd h.connect (hstop hconnect)⟩,
      ⟨rfl, .inr rfl, .inl rfl, .inl rfl⟩⟩
  next hconnect =>
  split
  · next hcreate =>
    exact ⟨⟨fun h => by simp at h, fun h => absurd h.create (hstop hcreate)⟩,
      ⟨rfl, .inr rfl, .inr rfl, .inl rfl⟩⟩
  next hcreate =>
  refine ⟨⟨fun h => ?_, fun h => decide_eq_true h.auth⟩, ⟨rfl, .inr rfl, .inr rfl, .inr rfl⟩⟩
  exact ⟨not_not.mp hfree, hgo hconnect, hgo hcreate, of_decide_eq_true h⟩

lemma Refilled.fits {e' : IpEntry} (h : e.Refilled e' now) (hfits : e.Fits limits now) :
    e'.Fits limits now := by
  refine ⟨?_, ?_, ?_⟩
  · rcases h.connect with h | h <;> rw [h]
    exacts [hfits.connect, hfits.connect.refill]
  · rcases h.create with h | h <;> rw [h]
    exacts [hfits.create, hfits.create.refill]
  · rcases h.auth with h | h <;> rw [h]
    exacts [hfits.auth, hfits.auth.refill]

lemma Refilled.refill {e' : IpEntry} (h : e.Refilled e' now) (hfits : e.Fits limits now)
    (hlimits : limits.Refills) (hlater : now ≤ later) : e'.refill later = e.refill later := by
  have hconnect : e'.connect.refill later = e.connect.refill later := by
    rcases h.connect with h | h <;> rw [h]
    exact hfits.connect.refill_refill hlimits.connect hlater
  have hcreate : e'.create.refill later = e.create.refill later := by
    rcases h.create with h | h <;> rw [h]
    exact hfits.create.refill_refill hlimits.create hlater
  have hauth : e'.auth.refill later = e.auth.refill later := by
    rcases h.auth with h | h <;> rw [h]
    exact hfits.auth.refill_refill hlimits.auth hlater
  simp only [IpEntry.refill, h.connections, hconnect, hcreate, hauth]

end IpEntry

end Entries

namespace IpTracker

variable {limits : RelayLimits} {t : IpTracker} {ip j : String} {now later : ℚ}

/-- What an address has, where one that has no entry has a new one. -/
def view (limits : RelayLimits) (t : IpTracker) (now : ℚ) (ip : String) : IpEntry :=
  match t.entries.get ip with
  | some entry => entry.refill now
  | none => newEntry limits now

/-- The addresses an entry must be kept for. -/
def live (view : String → IpEntry) : Set String := {ip | ¬ (view ip).Idle}

/-- What the tracker keeps: buckets of the limits, no more entries than the table has room for. -/
structure Tracked (limits : RelayLimits) (t : IpTracker) (now : ℚ) : Prop where
  fits : ∀ ip entry, t.entries.get ip = some entry → entry.Fits limits now
  bounded : t.entries.size ≤ limits.maxTrackedIps

lemma Tracked.mono (h : Tracked limits t now) (hlater : now ≤ later) : Tracked limits t later :=
  ⟨fun ip entry hentry => (h.fits ip entry hentry).mono hlater, h.bounded⟩

lemma view_of_get {entry : IpEntry} (h : t.entries.get ip = some entry) :
    t.view limits now ip = entry.refill now := by
  simp only [view, h]

lemma view_of_absent (h : t.entries.get ip = none) :
    t.view limits now ip = newEntry limits now := by
  simp only [view, h]

lemma Tracked.view_later (h : Tracked limits t now) (hlimits : limits.Refills)
    (hlater : now ≤ later) : t.view limits later ip = (t.view limits now ip).refill later := by
  cases hentry : t.entries.get ip with
  | none =>
    rw [view_of_absent hentry, view_of_absent hentry, IpEntry.newEntry_refill hlimits hlater]
  | some entry =>
    rw [view_of_get hentry, view_of_get hentry,
      (h.fits ip entry hentry).refill_refill hlimits hlater]

/-! ### Sweeping -/

/-- A loop whose turns each replace one entry. -/
lemma get_foldl {f : IpTracker → String → IpTracker} {g : IpEntry → Option IpEntry}
    (hturn : ∀ t ip j, (f t ip).entries.get j =
      if j = ip then (t.entries.get ip).bind g else t.entries.get j)
    {keys : List String} (hkeys : keys.Nodup) :
    (keys.foldl f t).entries.get j =
      if j ∈ keys then (t.entries.get j).bind g else t.entries.get j := by
  induction keys generalizing t with
  | nil => simp
  | cons ip keys ih =>
    obtain ⟨hnew, hkeys⟩ := List.nodup_cons.mp hkeys
    rw [List.foldl_cons, ih hkeys, hturn]
    by_cases hj : j = ip
    · subst hj
      simp [hnew]
    · simp [hj]

lemma get_sweep (t : IpTracker) (now : ℚ) (j : String) :
    (t.sweep now).entries.get j =
      (t.entries.get j).bind fun entry =>
        if (entry.idle now).1 then none else some (entry.idle now).2 := by
  rw [sweep, get_foldl _ t.entries.nodup]
  · split
    · rfl
    next habsent =>
    have hnone : t.entries.get j = none := by
      refine Option.eq_none_iff_forall_not_mem.mpr fun entry hentry => habsent ?_
      exact List.mem_map.mpr ⟨(j, entry), OrderedMap.mem_entries_iff.mpr hentry, rfl⟩
    rw [hnone]
    rfl
  · intro t ip j
    cases hentry : t.entries.get ip with
    | none =>
      dsimp only [Option.bind_none]
      split
      · next h => rw [h, hentry]
      · rfl
    | some entry =>
      dsimp only [Option.bind_some]
      by_cases hj : j = ip
      · subst hj
        cases (entry.idle now).1 <;> simp
      · cases (entry.idle now).1 <;> simp [hj, OrderedMap.get_set_of_ne _ (Ne.symm hj),
          OrderedMap.get_delete_of_ne (Ne.symm hj)]

/-- What is swept away stood for a new entry, so every address has what it had. -/
lemma Tracked.view_sweep (h : Tracked limits t now) (hlimits : limits.Refills)
    (hlater : now ≤ later) : (t.sweep now).view limits later = t.view limits later := by
  funext ip
  cases hentry : t.entries.get ip with
  | none =>
    have habsent : (t.sweep now).entries.get ip = none := by
      rw [get_sweep, hentry]
      rfl
    rw [view_of_absent hentry, view_of_absent habsent]
  | some entry =>
    have hfits := h.fits ip entry hentry
    obtain ⟨hidle, hrefilled⟩ := entry.idle_spec now
    have hget := get_sweep t now ip
    rw [hentry, Option.bind_some] at hget
    rw [view_of_get hentry]
    split at hget
    · next hdropped =>
      rw [view_of_absent hget, ← hfits.refill_refill hlimits hlater,
        hfits.refill_of_idle (hidle.mp hdropped), IpEntry.newEntry_refill hlimits hlater]
    · rw [view_of_get hget, hrefilled.refill hfits hlimits hlater]

lemma keys_eq (m : OrderedMap String IpEntry) :
    {ip | (m.get ip).isSome} = ((m.entries.map Prod.fst).toFinset : Set String) := by
  ext ip
  simp only [Set.mem_ofPred_eq, List.coe_toFinset, List.mem_map, Option.isSome_iff_exists,
    ← OrderedMap.mem_entries_iff]
  constructor
  · rintro ⟨entry, hentry⟩
    exact ⟨(ip, entry), hentry, rfl⟩
  · rintro ⟨⟨_, entry⟩, hentry, rfl⟩
    exact ⟨entry, hentry⟩

lemma finite_keys (m : OrderedMap String IpEntry) : {ip | (m.get ip).isSome}.Finite := by
  rw [keys_eq]
  exact Finset.finite_toSet _

lemma size_eq (m : OrderedMap String IpEntry) : m.size = {ip | (m.get ip).isSome}.ncard := by
  rw [keys_eq, Set.ncard_coe_finset, List.toFinset_card_of_nodup m.nodup, List.length_map]
  rfl

/-- After a sweep only the addresses are left that an entry must be kept for. -/
lemma size_sweep (limits : RelayLimits) (t : IpTracker) (now : ℚ) :
    (t.sweep now).entries.size = (live (t.view limits now)).ncard := by
  rw [size_eq]
  congr 1
  ext ip
  cases hentry : t.entries.get ip with
  | none =>
    simp [live, get_sweep, hentry, view_of_absent hentry, IpEntry.newEntry_idle]
  | some entry =>
    have hidle := (entry.idle_spec now).1
    simp only [live, Set.mem_ofPred_eq, get_sweep, hentry, Option.bind_some, view_of_get hentry,
      ← hidle]
    split <;> simp_all

lemma Tracked.sweep (h : Tracked limits t now) : Tracked limits (t.sweep now) now := by
  refine ⟨fun ip entry hentry => ?_, ?_⟩
  · rw [get_sweep] at hentry
    obtain ⟨before, hbefore, hkept⟩ := Option.bind_eq_some_iff.mp hentry
    split at hkept
    · simp at hkept
    · obtain rfl := Option.some.inj hkept
      exact (before.idle_spec now).2.fits (h.fits ip before hbefore)
  · refine le_trans ?_ h.bounded
    rw [size_eq, size_eq]
    refine Set.ncard_le_ncard (fun ip hip => ?_) (finite_keys t.entries)
    rw [Set.mem_ofPred_eq, get_sweep] at hip
    exact Option.isSome_of_isSome_bind hip

/-! ### What each request does to what an address has -/

lemma view_set (t : IpTracker) (ip : String) (entry : IpEntry) :
    (IpTracker.mk (t.entries.set ip entry)).view limits now =
      Function.update (t.view limits now) ip (entry.refill now) := by
  funext j
  by_cases hj : j = ip
  · subst hj
    rw [Function.update_self]
    exact view_of_get (OrderedMap.get_set_self entry)
  · rw [Function.update_of_ne hj]
    simp only [view, OrderedMap.get_set_of_ne _ (Ne.symm hj)]

lemma Tracked.set (h : Tracked limits t now) {entry : IpEntry} (hentry : entry.Fits limits now)
    (hroom : (t.entries.set ip entry).size ≤ limits.maxTrackedIps) :
    Tracked limits ⟨t.entries.set ip entry⟩ now :=
  ⟨OrderedMap.forall_set h.fits hentry, hroom⟩

lemma live_subset (limits : RelayLimits) (t : IpTracker) (now : ℚ) :
    live (t.view limits now) ⊆ {ip | (t.entries.get ip).isSome} := by
  intro ip hlive
  by_contra habsent
  refine hlive ?_
  rw [view_of_absent (by simpa using habsent)]
  exact IpEntry.newEntry_idle limits now

lemma card_live_le (limits : RelayLimits) (t : IpTracker) (now : ℚ) :
    (live (t.view limits now)).ncard ≤ t.entries.size := by
  rw [size_eq]
  exact Set.ncard_le_ncard (live_subset limits t now) (finite_keys t.entries)

/-- An entry that need not be kept is room for another. -/
lemma card_live_lt {entry : IpEntry} (hentry : t.entries.get ip = some entry)
    (hidle : (t.view limits now ip).Idle) :
    (live (t.view limits now)).ncard < t.entries.size := by
  rw [size_eq]
  refine Set.ncard_lt_ncard ⟨live_subset limits t now, fun hall => ?_⟩ (finite_keys t.entries)
  exact hall (show (t.entries.get ip).isSome by rw [hentry]; rfl) hidle

/-- A new entry for an address that has none, where there is room. -/
lemma Tracked.set_new (h : Tracked limits t now) (hlimits : limits.Refills)
    (habsent : t.entries.get ip = none) (hroom : t.entries.size < limits.maxTrackedIps) :
    (IpTracker.mk (t.entries.set ip (newEntry limits now))).view limits now =
        t.view limits now ∧
      Tracked limits ⟨t.entries.set ip (newEntry limits now)⟩ now := by
  refine ⟨?_, h.set (IpEntry.Fits.newEntry limits now) ?_⟩
  · rw [view_set, IpEntry.newEntry_refill hlimits le_rfl, ← view_of_absent habsent,
      Function.update_eq_self]
  · exact (OrderedMap.size_set_le _).trans hroom

/-- The entry an address has, or is given: it is refused one where the table is full of entries
that must be kept, whatever else is in it. -/
lemma entryFor_spec (h : Tracked limits t now) (hlimits : limits.Refills) (ip : String) :
    (t.entryFor limits ip now).1.view limits now = t.view limits now ∧
    Tracked limits (t.entryFor limits ip now).1 now ∧
    (((t.view limits now ip).Idle ∧ limits.maxTrackedIps ≤ (live (t.view limits now)).ncard) ∧
        (t.entryFor limits ip now).2 = none ∨
      ¬ ((t.view limits now ip).Idle ∧
          limits.maxTrackedIps ≤ (live (t.view limits now)).ncard) ∧
        ∃ entry, (t.entryFor limits ip now).2 = some entry ∧
          (t.entryFor limits ip now).1.entries.get ip = some entry) := by
  cases hentry : t.entries.get ip with
  | some entry =>
    have hself : t.entryFor limits ip now = (t, some entry) := by
      simp only [entryFor, hentry]
    rw [hself]
    refine ⟨rfl, h, .inr ⟨fun hfull => ?_, entry, rfl, hentry⟩⟩
    have hroom := card_live_lt hentry hfull.1
    have hbounded := h.bounded
    omega
  | none =>
    have hidle : (t.view limits now ip).Idle := by
      rw [view_of_absent hentry]
      exact IpEntry.newEntry_idle limits now
    by_cases hfull : limits.maxTrackedIps ≤ t.entries.size
    · have habsent : (t.sweep now).entries.get ip = none := by
        rw [get_sweep, hentry]
        rfl
      have hview := h.view_sweep hlimits le_rfl
      have hsize := size_sweep limits t now
      by_cases hstill : limits.maxTrackedIps ≤ (t.sweep now).entries.size
      · have hself : t.entryFor limits ip now = (t.sweep now, none) := by
          simp only [entryFor, hentry, hfull, if_true, hstill]
        rw [hself]
        exact ⟨hview, h.sweep, .inl ⟨⟨hidle, by rwa [← hsize]⟩, rfl⟩⟩
      · have hself : t.entryFor limits ip now =
            (⟨(t.sweep now).entries.set ip (newEntry limits now)⟩,
              some (newEntry limits now)) := by
          simp only [entryFor, hentry, hfull, if_true, hstill, if_false]
        obtain ⟨hset, htracked⟩ := h.sweep.set_new hlimits habsent (not_le.mp hstill)
        rw [hself]
        refine ⟨hset.trans hview, htracked, .inr ⟨fun hno => hstill ?_, _, rfl, ?_⟩⟩
        · rw [hsize]
          exact hno.2
        · exact OrderedMap.get_set_self _
    · have hself : t.entryFor limits ip now =
          (⟨t.entries.set ip (newEntry limits now)⟩, some (newEntry limits now)) := by
        simp only [entryFor, hentry, hfull, if_false]
      obtain ⟨hset, htracked⟩ := h.set_new hlimits hentry (not_le.mp hfull)
      have hlive := card_live_le limits t now
      rw [hself]
      refine ⟨hset, htracked, .inr ⟨fun hno => hfull (hno.2.trans hlive), _, rfl, ?_⟩⟩
      exact OrderedMap.get_set_self _

lemma size_set_of_get (m : OrderedMap String IpEntry) {entry : IpEntry} (v : IpEntry)
    (h : m.get ip = some entry) : (m.set ip v).size = m.size := by
  have hcount := m.countP_set (fun _ => true) v (k := ip)
  simpa [h, OrderedMap.size] using hcount

/-- A request that changes the entry an address has, without a connection more or less. -/
lemma Tracked.update (h : Tracked limits t now) {entry : IpEntry}
    (hentry : t.entries.get ip = some entry) (changed : IpEntry)
    (hfits : changed.Fits limits now) {refilled : IpEntry}
    (hrefilled : changed.refill now = refilled) :
    (IpTracker.mk (t.entries.set ip changed)).view limits now =
        Function.update (t.view limits now) ip refilled ∧
      Tracked limits ⟨t.entries.set ip changed⟩ now := by
  refine ⟨by rw [view_set, hrefilled], h.set hfits ?_⟩
  rw [size_set_of_get t.entries changed hentry]
  exact h.bounded

open Classical in
/-- Admission by what addresses have. -/
noncomputable def admitView (limits : RelayLimits) (view : String → IpEntry) (ip : String)
    (now : ℚ) : Verdict × (String → IpEntry) :=
  if (view ip).Idle ∧ limits.maxTrackedIps ≤ (live view).ncard then (.tableFull, view)
  else if limits.maxConnectionsPerIp ≤ (view ip).connections then (.perIp, view)
  else
    let (taken, connect) := (view ip).connect.take now
    let entry := { view ip with connect }
    if !taken then (.rate, Function.update view ip entry)
    else (.ok, Function.update view ip { entry with connections := entry.connections + 1 })

lemma admitIp_spec (h : Tracked limits t now) (hlimits : limits.Refills) (ip : String) :
    (t.admitIp limits ip now).1 = (admitView limits (t.view limits now) ip now).1 ∧
    (t.admitIp limits ip now).2.view limits now =
      (admitView limits (t.view limits now) ip now).2 ∧
    Tracked limits (t.admitIp limits ip now).2 now := by
  obtain ⟨hview, htracked, hfull | hroom⟩ := entryFor_spec h hlimits ip
  · obtain ⟨hfull, hnone⟩ := hfull
    rcases hfor : t.entryFor limits ip now with ⟨t', entry⟩
    rw [hfor] at hview htracked hnone
    obtain rfl : entry = none := hnone
    simp only [admitIp, hfor, admitView, hfull, and_self, if_true]
    exact ⟨trivial, hview, htracked⟩
  · obtain ⟨hroom, entry, hsome, hentry⟩ := hroom
    rcases hfor : t.entryFor limits ip now with ⟨t', found⟩
    rw [hfor] at hview htracked hsome hentry
    obtain rfl : found = some entry := hsome
    dsimp only at hview htracked hentry
    have hself : entry.refill now = t.view limits now ip := by
      rw [← hview, view_of_get hentry]
    have hfits := htracked.fits ip entry hentry
    have hconnections : (t.view limits now ip).connections = entry.connections := by
      rw [← hself]
      rfl
    have htake : (t.view limits now ip).connect.take now = entry.connect.take now := by
      rw [← hself]
      exact TokenBucket.take_refill _ _
    have htaken : (entry.connect.take now).2.refill now = (entry.connect.take now).2 :=
      TokenBucket.take_snd_refill _ _
    have hspent (n : ℕ) :
        IpEntry.Fits limits ⟨n, (entry.connect.take now).2, entry.create, entry.auth⟩ now :=
      ⟨hfits.connect.take, hfits.create, hfits.auth⟩
    simp only [admitIp, hfor, admitView, hroom, if_false, hconnections, htake]
    split
    · exact ⟨rfl, hview, htracked⟩
    split
    · obtain ⟨hset, hkept⟩ := htracked.update hentry _ (hspent entry.connections) rfl
      refine ⟨rfl, ?_, hkept⟩
      rw [hset, hview, ← hself]
      simp only [IpEntry.refill, htaken]
    · obtain ⟨hset, hkept⟩ := htracked.update hentry _ (hspent (entry.connections + 1)) rfl
      refine ⟨rfl, ?_, hkept⟩
      rw [hset, hview, ← hself]
      simp only [IpEntry.refill, htaken]

/-- A connection less, where there was one. -/
lemma release_spec (h : Tracked limits t now) (ip : String) :
    (t.release ip).view limits now = Function.update (t.view limits now) ip
        { t.view limits now ip with
          connections := (t.view limits now ip).connections - 1 } ∧
      Tracked limits (t.release ip) now := by
  cases hentry : t.entries.get ip with
  | none =>
    have hself : t.release ip = t := by simp only [release, hentry]
    have hsame : { t.view limits now ip with
        connections := (t.view limits now ip).connections - 1 } = t.view limits now ip := by
      rw [view_of_absent hentry]
      rfl
    rw [hself, hsame, Function.update_eq_self]
    exact ⟨rfl, h⟩
  | some entry =>
    have hfits := h.fits ip entry hentry
    rw [view_of_get hentry]
    by_cases hopen : 0 < entry.connections
    · have hself : t.release ip =
          ⟨t.entries.set ip { entry with connections := entry.connections - 1 }⟩ := by
        simp only [release, hentry, hopen, if_true]
      rw [hself]
      exact h.update hentry { entry with connections := entry.connections - 1 }
        ⟨hfits.connect, hfits.create, hfits.auth⟩ rfl
    · have hself : t.release ip = t := by simp only [release, hentry, hopen, if_false]
      have hsame : { entry.refill now with connections := (entry.refill now).connections - 1 } =
          t.view limits now ip := by
        have hzero : entry.connections = 0 := by omega
        rw [view_of_get hentry]
        simp only [IpEntry.refill, hzero]
      rw [hself, hsame, Function.update_eq_self]
      exact ⟨rfl, h⟩

lemma get_of_connections (h : (t.view limits now ip).connections ≠ 0) :
    ∃ entry, t.entries.get ip = some entry := by
  cases hentry : t.entries.get ip with
  | none =>
    rw [view_of_absent hentry] at h
    exact absurd rfl h
  | some entry => exact ⟨entry, rfl⟩

/-- A take of the bucket for CIRCUIT_CREATE, of an address that has a connection. -/
lemma allowCreate_spec (h : Tracked limits t now)
    (hopen : (t.view limits now ip).connections ≠ 0) :
    (t.allowCreate ip now).1 = ((t.view limits now ip).create.take now).1 ∧
    (t.allowCreate ip now).2.view limits now = Function.update (t.view limits now) ip
        { t.view limits now ip with
          create := ((t.view limits now ip).create.take now).2 } ∧
      Tracked limits (t.allowCreate ip now).2 now := by
  obtain ⟨entry, hentry⟩ := get_of_connections hopen
  have hfits := h.fits ip entry hentry
  have htake : (entry.refill now).create.take now = entry.create.take now :=
    TokenBucket.take_refill _ _
  simp only [allowCreate, hentry, view_of_get hentry, htake, true_and]
  refine h.update hentry { entry with create := (entry.create.take now).2 }
    ⟨hfits.connect, hfits.create.take, hfits.auth⟩ ?_
  simp only [IpEntry.refill, TokenBucket.take_snd_refill]

/-- And of the bucket for AUTH. -/
lemma allowAuth_spec (h : Tracked limits t now)
    (hopen : (t.view limits now ip).connections ≠ 0) :
    (t.allowAuth ip now).1 = ((t.view limits now ip).auth.take now).1 ∧
    (t.allowAuth ip now).2.view limits now = Function.update (t.view limits now) ip
        { t.view limits now ip with
          auth := ((t.view limits now ip).auth.take now).2 } ∧
      Tracked limits (t.allowAuth ip now).2 now := by
  obtain ⟨entry, hentry⟩ := get_of_connections hopen
  have hfits := h.fits ip entry hentry
  have htake : (entry.refill now).auth.take now = entry.auth.take now :=
    TokenBucket.take_refill _ _
  simp only [allowAuth, hentry, view_of_get hentry, htake, true_and]
  refine h.update hentry { entry with auth := (entry.auth.take now).2 }
    ⟨hfits.connect, hfits.create, hfits.auth.take⟩ ?_
  simp only [IpEntry.refill, TokenBucket.take_snd_refill]

/-! ### What is counted of an address -/

/-- The connections counted of an address. -/
def connectionsOf (t : IpTracker) (ip : String) : ℕ :=
  match t.entries.get ip with
  | some entry => entry.connections
  | none => 0

lemma view_connections (limits : RelayLimits) (t : IpTracker) (now : ℚ) (ip : String) :
    (t.view limits now ip).connections = t.connectionsOf ip := by
  cases hentry : t.entries.get ip with
  | none => simp only [view, connectionsOf, hentry, newEntry]
  | some entry => simp only [view, connectionsOf, hentry, IpEntry.refill]

lemma connectionsOf_set (t : IpTracker) (ip j : String) (entry : IpEntry) :
    (IpTracker.mk (t.entries.set ip entry)).connectionsOf j =
      if ip = j then entry.connections else t.connectionsOf j := by
  by_cases hj : ip = j
  · simp [connectionsOf, hj]
  · simp [connectionsOf, OrderedMap.get_set, hj]

lemma connectionsOf_sweep (t : IpTracker) (now : ℚ) (ip : String) :
    (t.sweep now).connectionsOf ip = t.connectionsOf ip := by
  cases hentry : t.entries.get ip with
  | none => simp only [connectionsOf, get_sweep, hentry, Option.bind_none]
  | some entry =>
    obtain ⟨hidle, hrefilled⟩ := entry.idle_spec now
    simp only [connectionsOf, get_sweep, hentry, Option.bind_some]
    split
    · next hget =>
      split at hget
      · simp at hget
      · rw [← Option.some.inj hget, hrefilled.connections]
    · next hget =>
      split at hget
      · next hdropped => exact (hidle.mp hdropped).connections.symm
      · simp at hget

/-- To look for an entry leaves every count, and what is found has it. -/
lemma entryFor_connections (limits : RelayLimits) (t : IpTracker) (ip : String) (now : ℚ) :
    (∀ j, (t.entryFor limits ip now).1.connectionsOf j = t.connectionsOf j) ∧
      ∀ entry, (t.entryFor limits ip now).2 = some entry →
        entry.connections = t.connectionsOf ip := by
  cases hentry : t.entries.get ip with
  | some entry =>
    have hself : t.entryFor limits ip now = (t, some entry) := by simp only [entryFor, hentry]
    rw [hself]
    refine ⟨fun j => rfl, fun found hfound => ?_⟩
    rw [← Option.some.inj hfound, connectionsOf, hentry]
  | none =>
    have hzero : t.connectionsOf ip = 0 := by rw [connectionsOf, hentry]
    have hswept : ∀ j, (if limits.maxTrackedIps ≤ t.entries.size then t.sweep now
        else t).connectionsOf j = t.connectionsOf j := by
      intro j
      split
      · exact connectionsOf_sweep t now j
      · rfl
    simp only [entryFor, hentry]
    generalize (if limits.maxTrackedIps ≤ t.entries.size then t.sweep now else t) = t' at hswept ⊢
    split
    · exact ⟨hswept, fun entry h => by simp at h⟩
    · refine ⟨fun j => ?_, fun entry h => ?_⟩
      · rw [connectionsOf_set]
        split
        · next hj =>
          rw [← hj, hzero]
          rfl
        · exact hswept j
      · rw [← Option.some.inj h, hzero]
        rfl

lemma connectionsOf_admitIp (limits : RelayLimits) (t : IpTracker) (ip j : String) (now : ℚ) :
    (t.admitIp limits ip now).2.connectionsOf j =
      t.connectionsOf j + if (t.admitIp limits ip now).1 = .ok ∧ ip = j then 1 else 0 := by
  obtain ⟨hkept, hfound⟩ := entryFor_connections limits t ip now
  rcases hfor : t.entryFor limits ip now with ⟨t', entry⟩
  rw [hfor] at hkept hfound
  dsimp only at hkept hfound
  cases entry with
  | none => simp [admitIp, hfor, hkept]
  | some entry =>
    have hcount := hfound entry rfl
    simp only [admitIp, hfor]
    split
    · simp [hkept]
    split
    · simp only [connectionsOf_set, reduceCtorEq, false_and, if_false, add_zero]
      split
      · next hj => rw [← hj, hcount]
      · exact hkept j
    · simp only [connectionsOf_set, true_and]
      split
      · next hj => rw [← hj, hcount]
      · rw [hkept, add_zero]

lemma connectionsOf_release (t : IpTracker) (ip j : String) :
    (t.release ip).connectionsOf j =
      t.connectionsOf j - if ip = j then 1 else 0 := by
  cases hentry : t.entries.get ip with
  | none =>
    have hzero : t.connectionsOf ip = 0 := by rw [connectionsOf, hentry]
    simp only [release, hentry]
    split
    · next hj => rw [← hj, hzero]
    · rfl
  | some entry =>
    have hcount : t.connectionsOf ip = entry.connections := by rw [connectionsOf, hentry]
    simp only [release, hentry]
    split
    · rw [connectionsOf_set]
      split
      · next hj => rw [← hj, hcount]
      · rfl
    · next hclosed =>
      split
      · next hj =>
        rw [← hj, hcount]
        omega
      · rfl

lemma connectionsOf_allowCreate (t : IpTracker) (ip j : String) (now : ℚ) :
    (t.allowCreate ip now).2.connectionsOf j = t.connectionsOf j := by
  cases hentry : t.entries.get ip with
  | none => simp only [allowCreate, hentry]
  | some entry =>
    have hcount : t.connectionsOf ip = entry.connections := by rw [connectionsOf, hentry]
    simp only [allowCreate, hentry, connectionsOf_set]
    split
    · next hj => rw [← hj, hcount]
    · rfl

lemma connectionsOf_allowAuth (t : IpTracker) (ip j : String) (now : ℚ) :
    (t.allowAuth ip now).2.connectionsOf j = t.connectionsOf j := by
  cases hentry : t.entries.get ip with
  | none => simp only [allowAuth, hentry]
  | some entry =>
    have hcount : t.connectionsOf ip = entry.connections := by rw [connectionsOf, hentry]
    simp only [allowAuth, hentry, connectionsOf_set]
    split
    · next hj => rw [← hj, hcount]
    · rfl

end IpTracker

/-! ### Every run of requests -/

/-- An admission, until the connection it was for is closed. -/
structure Admission where
  ip : String
  released : Bool

/-- The tracker, and the connections on behalf of which it is asked. -/
structure Doors where
  ips : IpTracker := {}
  admissions : List Admission := []

namespace Doors

/-- What is asked of the tracker: an admission, or something for the `i`-th one. -/
inductive Request
  | admitIp (ip : String)
  | release (i : ℕ)
  | create (i : ℕ)
  | auth (i : ℕ)

inductive Event
  | request (r : Request)
  | sweep

inductive Answer
  | verdict (v : Verdict)
  | allowed (b : Bool)
  deriving DecidableEq

/-- The address of an admission that is not released. -/
def holder (s : Doors) (i : ℕ) : Option String :=
  match s.admissions[i]? with
  | some ⟨ip, false⟩ => some ip
  | _ => none

/-- A connection that is closed asks for nothing and is not released twice. -/
def ask (limits : RelayLimits) (s : Doors) (now : ℚ) : Request → Option Answer × Doors
  | .admitIp ip =>
    let (verdict, ips) := s.ips.admitIp limits ip now
    let admissions := if verdict = .ok then s.admissions ++ [⟨ip, false⟩] else s.admissions
    (some (.verdict verdict), { ips, admissions })
  | .release i =>
    match s.holder i with
    | none => (none, s)
    | some ip =>
      (none, { ips := s.ips.release ip, admissions := s.admissions.set i ⟨ip, true⟩ })
  | .create i =>
    match s.holder i with
    | none => (none, s)
    | some ip =>
      let (allowed, ips) := s.ips.allowCreate ip now
      (some (.allowed allowed), { s with ips })
  | .auth i =>
    match s.holder i with
    | none => (none, s)
    | some ip =>
      let (allowed, ips) := s.ips.allowAuth ip now
      (some (.allowed allowed), { s with ips })

/-- Events at their times, and what each request was answered. -/
def run (limits : RelayLimits) : Doors → List (ℚ × Event) → List (Option Answer) × Doors
  | s, [] => ([], s)
  | s, (now, .sweep) :: events => run limits { s with ips := s.ips.sweep now } events
  | s, (now, .request r) :: events =>
    let (answer, s) := s.ask limits now r
    let (answers, s) := run limits s events
    (answer :: answers, s)

def admitted (s : Doors) (ip : String) : ℕ := s.admissions.countP fun a => a.ip == ip
def released (s : Doors) (ip : String) : ℕ :=
  s.admissions.countP fun a => a.ip == ip && a.released

/-! ### The counts -/

/-- The admissions of an address that are not released. -/
def held (s : Doors) (ip : String) : ℕ :=
  s.admissions.countP fun a => a.ip == ip && !a.released

/-- The tracker counts them. -/
def Counted (s : Doors) : Prop := ∀ ip, s.ips.connectionsOf ip = s.held ip

variable {limits : RelayLimits} {s : Doors}

lemma held_add_released (s : Doors) (ip : String) : s.held ip + s.released ip = s.admitted ip := by
  unfold held released admitted
  induction s.admissions with
  | nil => rfl
  | cons a admissions ih =>
    simp only [List.countP_cons, ← ih]
    cases a.released <;> cases a.ip == ip <;> simp <;> omega

lemma admissions_of_holder {i : ℕ} {ip : String} (h : s.holder i = some ip) :
    s.admissions[i]? = some ⟨ip, false⟩ := by
  unfold holder at h
  split at h
  · next hi => rw [hi, Option.some.inj h]
  · simp at h

/-- An admission that is not released is counted. -/
lemma held_pos {i : ℕ} {ip : String} (h : s.holder i = some ip) : 0 < s.held ip := by
  refine List.countP_pos_iff.mpr ⟨⟨ip, false⟩, ?_, by simp⟩
  exact List.mem_of_getElem? (admissions_of_holder h)

lemma Counted.empty : Counted {} := fun _ => rfl

lemma Counted.ask (h : Counted s) (limits : RelayLimits) (now : ℚ) (r : Request) :
    Counted (s.ask limits now r).2 := by
  intro j
  cases r with
  | admitIp ip =>
    have hadmit := IpTracker.connectionsOf_admitIp limits s.ips ip j now
    simp only [Doors.ask, held, hadmit, h j]
    by_cases hok : (s.ips.admitIp limits ip now).1 = .ok
    · by_cases hj : ip = j
      · subst hj
        simp [hok]
      · simp [hok, hj]
    · simp [hok]
  | release i =>
    simp only [Doors.ask]
    cases hi : s.holder i with
    | none => exact h j
    | some ip =>
      have hmem := admissions_of_holder hi
      obtain ⟨hlt, hget⟩ := List.getElem?_eq_some_iff.mp hmem
      have hpos := held_pos hi
      simp only [IpTracker.connectionsOf_release, h j, held] at hpos ⊢
      rw [List.countP_set hlt, hget]
      by_cases hj : ip = j
      · simp [hj]
      · simp [hj]
  | create i =>
    simp only [Doors.ask]
    cases hi : s.holder i with
    | none => exact h j
    | some ip =>
      simp only [IpTracker.connectionsOf_allowCreate]
      exact h j
  | auth i =>
    simp only [Doors.ask]
    cases hi : s.holder i with
    | none => exact h j
    | some ip =>
      simp only [IpTracker.connectionsOf_allowAuth]
      exact h j

lemma Counted.sweep (h : Counted s) (now : ℚ) :
    Counted { s with ips := s.ips.sweep now } := fun j => by
  rw [IpTracker.connectionsOf_sweep]
  exact h j

/-- Whatever the clock does. -/
lemma Counted.run (h : Counted s) (events : List (ℚ × Event)) :
    Counted (s.run limits events).2 := by
  induction events generalizing s with
  | nil => exact h
  | cons x events ih =>
    obtain ⟨now, event⟩ := x
    cases event with
    | sweep => exact ih (h.sweep now)
    | request r => exact ih (h.ask limits now r)

/-! ### Sweeping is not seen -/

/-- Two runs of the same requests, one of which has been swept. -/
structure Alike (limits : RelayLimits) (s s' : Doors) (now : ℚ) : Prop where
  counted : Counted s
  tracked : s.ips.Tracked limits now
  tracked' : s'.ips.Tracked limits now
  view : s.ips.view limits now = s'.ips.view limits now
  admissions : s.admissions = s'.admissions

lemma Alike.later {s' : Doors} {now later : ℚ} (h : Alike limits s s' now)
    (hlimits : limits.Refills) (hlater : now ≤ later) : Alike limits s s' later where
  counted := h.counted
  tracked := h.tracked.mono hlater
  tracked' := h.tracked'.mono hlater
  view := by
    funext ip
    rw [h.tracked.view_later hlimits hlater, h.tracked'.view_later hlimits hlater, h.view]
  admissions := h.admissions

lemma Alike.sweep {s' : Doors} {now : ℚ} (h : Alike limits s s' now)
    (hlimits : limits.Refills) : Alike limits { s with ips := s.ips.sweep now } s' now where
  counted := h.counted.sweep now
  tracked := h.tracked.sweep
  tracked' := h.tracked'
  view := (h.tracked.view_sweep hlimits le_rfl).trans h.view
  admissions := h.admissions

lemma Alike.ask {s' : Doors} {now : ℚ} (h : Alike limits s s' now) (hlimits : limits.Refills)
    (r : Request) :
    (s.ask limits now r).1 = (s'.ask limits now r).1 ∧
      Alike limits (s.ask limits now r).2 (s'.ask limits now r).2 now := by
  have hcounted := h.counted.ask limits now r
  have hholder (i : ℕ) : s'.holder i = s.holder i := by simp only [holder, h.admissions]
  -- an address that holds an admission has a connection in both views
  have hopen {i : ℕ} {ip : String} (hi : s.holder i = some ip) :
      (s.ips.view limits now ip).connections ≠ 0 ∧
        (s'.ips.view limits now ip).connections ≠ 0 := by
    have hpos := held_pos hi
    rw [← h.view, IpTracker.view_connections, h.counted]
    omega
  cases r with
  | admitIp ip =>
    obtain ⟨hanswer, hview, htracked⟩ := IpTracker.admitIp_spec h.tracked hlimits ip
    obtain ⟨hanswer', hview', htracked'⟩ := IpTracker.admitIp_spec h.tracked' hlimits ip
    rw [← h.view] at hanswer' hview'
    have hsame := hanswer.trans hanswer'.symm
    refine ⟨by simp only [Doors.ask, hsame], hcounted, htracked, htracked', ?_, ?_⟩
    · exact hview.trans hview'.symm
    · simp only [Doors.ask, hsame, h.admissions]
  | release i =>
    simp only [Doors.ask, hholder] at hcounted ⊢
    cases hi : s.holder i with
    | none => exact ⟨rfl, h⟩
    | some ip =>
      obtain ⟨hview, htracked⟩ := IpTracker.release_spec h.tracked ip
      obtain ⟨hview', htracked'⟩ := IpTracker.release_spec h.tracked' ip
      rw [← h.view] at hview'
      rw [hi] at hcounted
      refine ⟨rfl, hcounted, htracked, htracked', hview.trans hview'.symm, ?_⟩
      simp only [h.admissions]
  | create i =>
    simp only [Doors.ask, hholder] at hcounted ⊢
    cases hi : s.holder i with
    | none => exact ⟨rfl, h⟩
    | some ip =>
      obtain ⟨hanswer, hview, htracked⟩ := IpTracker.allowCreate_spec h.tracked (hopen hi).1
      obtain ⟨hanswer', hview', htracked'⟩ := IpTracker.allowCreate_spec h.tracked' (hopen hi).2
      rw [← h.view] at hanswer' hview'
      rw [hi] at hcounted
      refine ⟨?_, hcounted, htracked, htracked', hview.trans hview'.symm, h.admissions⟩
      simp only [hanswer, hanswer']
  | auth i =>
    simp only [Doors.ask, hholder] at hcounted ⊢
    cases hi : s.holder i with
    | none => exact ⟨rfl, h⟩
    | some ip =>
      obtain ⟨hanswer, hview, htracked⟩ := IpTracker.allowAuth_spec h.tracked (hopen hi).1
      obtain ⟨hanswer', hview', htracked'⟩ := IpTracker.allowAuth_spec h.tracked' (hopen hi).2
      rw [← h.view] at hanswer' hview'
      rw [hi] at hcounted
      refine ⟨?_, hcounted, htracked, htracked', hview.trans hview'.symm, h.admissions⟩
      simp only [hanswer, hanswer']

/-- The requests of a run, without its sweeps. -/
def requests (events : List (ℚ × Event)) : List (ℚ × Event) :=
  events.filter fun x => match x.2 with
    | .request _ => true
    | .sweep => false

lemma Alike.run {s' : Doors} {now : ℚ} (h : Alike limits s s' now) (hlimits : limits.Refills)
    {events : List (ℚ × Event)} (hclock : (now :: events.map Prod.fst).Pairwise (· ≤ ·)) :
    (s.run limits events).1 = (s'.run limits (requests events)).1 := by
  induction events generalizing s s' now with
  | nil => rfl
  | cons x events ih =>
    obtain ⟨later, event⟩ := x
    obtain ⟨hnow, hclock⟩ := List.pairwise_cons.mp hclock
    have hlater := h.later hlimits (hnow later List.mem_cons_self)
    cases event with
    | sweep => exact ih (hlater.sweep hlimits) hclock
    | request r =>
      obtain ⟨hanswer, halike⟩ := hlater.ask hlimits r
      have hrest := ih halike hclock
      simp only [requests, List.filter_cons_of_pos, Doors.run, hanswer] at hrest ⊢
      rw [hrest]

lemma Alike.empty (limits : RelayLimits) (now : ℚ) : Alike limits {} {} now where
  counted := .empty
  tracked := ⟨fun _ _ h => by simp at h, Nat.zero_le _⟩
  tracked' := ⟨fun _ _ h => by simp at h, Nat.zero_le _⟩
  view := rfl
  admissions := rfl

lemma run_requests {limits : RelayLimits} (hlimits : limits.Refills) {events : List (ℚ × Event)}
    (hclock : (events.map Prod.fst).Pairwise (· ≤ ·)) :
    (run limits {} events).1 = (run limits {} (requests events)).1 := by
  cases events with
  | nil => rfl
  | cons x events =>
    refine (Alike.empty limits x.1).run hlimits ?_
    rw [List.map_cons] at hclock ⊢
    exact List.pairwise_cons.mpr
      ⟨List.forall_mem_cons.mpr ⟨le_rfl, (List.pairwise_cons.mp hclock).1⟩, hclock⟩

end Doors

/-- **Rate limiting is exact** for a clock that does not go back: a bucket grants no more in a
window than its capacity and what comes in during it; the connections counted of an address are
its admissions less its releases, and its entry stays while one is open; and a run is answered as
the run without its sweeps. -/
theorem rate_limiting_exact :
    (∀ (capacity refillPerSecond start : ℚ) (times : List ℚ) (t₁ t₂ : ℚ),
      0 ≤ capacity → 0 ≤ refillPerSecond → (start :: times).Pairwise (· ≤ ·) → t₁ ≤ t₂ →
      (TokenBucket.granted ((TokenBucket.full capacity refillPerSecond start).takes times).1
        t₁ t₂ : ℚ) ≤ capacity + refillPerSecond * ((t₂ - t₁) / 1000)) ∧
    (∀ (limits : RelayLimits) (events : List (ℚ × Doors.Event)) (ip : String),
      let s := (Doors.run limits {} events).2
      s.ips.connectionsOf ip + s.released ip = s.admitted ip ∧
        (s.released ip < s.admitted ip → ∃ entry, s.ips.entries.get ip = some entry)) ∧
    ∀ (limits : RelayLimits) (events : List (ℚ × Doors.Event)), limits.Refills →
      (events.map Prod.fst).Pairwise (· ≤ ·) →
      (Doors.run limits {} events).1 = (Doors.run limits {} (Doors.requests events)).1 := by
  refine ⟨fun capacity refillPerSecond start times t₁ t₂ hcapacity hrate hclock hwindow => ?_,
    fun limits events ip => ?_, fun limits events hlimits hclock => ?_⟩
  · exact TokenBucket.granted_le (b := .full capacity refillPerSecond start) hrate hcapacity le_rfl
      hclock hwindow
  · have hcounted : (Doors.run limits {} events).2.Counted := Doors.Counted.empty.run events
    have hsum := (Doors.run limits {} events).2.held_add_released ip
    refine ⟨by rw [hcounted, hsum], fun hopen => ?_⟩
    have hconnections :
        ((Doors.run limits {} events).2.ips.view limits 0 ip).connections ≠ 0 := by
      rw [IpTracker.view_connections, hcounted]
      omega
    exact IpTracker.get_of_connections hconnections
  · exact Doors.run_requests hlimits hclock

lemma default_refills : ({} : RelayLimits).Refills where
  connect := by norm_num
  create := by norm_num
  auth := by norm_num

/-- A bucket of two that refills one a second, and an address that comes back after a sweep. -/
theorem rate_limiting_exact_plain :
    (TokenBucket.granted ((TokenBucket.full 2 1 0).takes [0, 0, 500, 1000]).1 0 1000 : ℚ) ≤
        2 + 1 * ((1000 - 0) / 1000) ∧
      (Doors.run {} {} [(0, .request (.admitIp "10.0.0.1")), (5, .request (.release 0)),
          (60000, .sweep), (60001, .request (.admitIp "10.0.0.1"))]).1 =
        (Doors.run {} {} (Doors.requests [(0, .request (.admitIp "10.0.0.1")),
          (5, .request (.release 0)), (60000, .sweep),
          (60001, .request (.admitIp "10.0.0.1"))])).1 := by
  refine ⟨rate_limiting_exact.1 2 1 0 [0, 0, 500, 1000] 0 1000 (by norm_num) (by norm_num) ?_
    (by norm_num), rate_limiting_exact.2.2 {} _ default_refills ?_⟩
  · norm_num [List.pairwise_cons]
  · norm_num [List.pairwise_cons]

end Tnp.Relay
