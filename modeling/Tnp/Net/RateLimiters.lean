import Mathlib.Data.ENat.Basic
import Mathlib.Data.Rat.Floor
import Tnp.Lib.TokenBuckets
import Tnp.Net.AddressKeys

/-!
The limiters of the API and of the DNS proxy: a token bucket for each key, in a table of a bounded
size that forgets the key not seen for longest.
-/

namespace Tnp.Net

open Tnp.Lib

/-! ### The API's limiter -/

/-- What a limiter is made with. A table without a bound has an infinite `maxKeys`. -/
structure TokenBucketOptions where
  capacity : ℚ
  refillPerSecond : ℚ
  maxKeys : ℕ∞

/-- The options that the constructor accepts. -/
structure TokenBucketOptions.Valid (options : TokenBucketOptions) : Prop where
  capacity : 1 ≤ options.capacity
  refillPerSecond : 0 < options.refillPerSecond
  maxKeys : 1 ≤ options.maxKeys

inductive TakeResult
  | ok
  | refused (retryAfterSeconds : ℤ)
  deriving DecidableEq

/-- The entries left when the oldest are deleted for as long as there are too many. -/
def evict {κ ν : Type*} (tooMany : ℕ → Bool) : List (κ × ν) → List (κ × ν)
  | [] => []
  | e :: rest => if tooMany (rest.length + 1) then evict tooMany rest else e :: rest

lemma evict_suffix {κ ν : Type*} (tooMany : ℕ → Bool) (l : List (κ × ν)) :
    evict tooMany l <:+ l := by
  induction l with
  | nil => exact List.suffix_rfl
  | cons e rest ih =>
    unfold evict
    split
    · exact ih.trans (List.suffix_cons e rest)
    · exact List.suffix_rfl

/-- The buckets by key, the one not taken from for longest first. -/
abbrev Buckets := OrderedMap String Bucket

def Buckets.evict (buckets : Buckets) (tooMany : ℕ → Bool) : Buckets :=
  ⟨Net.evict tooMany buckets.entries,
    buckets.nodup.sublist ((evict_suffix tooMany buckets.entries).sublist.map Prod.fst)⟩

/-- Spend one token for a key, or say how long until one is available. -/
def TokenBucketOptions.take (options : TokenBucketOptions) (buckets : Buckets) (key : String)
    (now : ℚ) : TakeResult × Buckets :=
  let existing := buckets.get key
  let tokens :=
    match existing with
    | some existing =>
      let elapsedSeconds := max 0 (now - existing.updatedAt) / 1000
      min options.capacity (existing.tokens + elapsedSeconds * options.refillPerSecond)
    | none => options.capacity
  let buckets := if existing.isSome then buckets.delete key else buckets
  let allowed : Bool := 1 ≤ tokens
  let buckets : Buckets := buckets.set key ⟨if allowed then tokens - 1 else tokens, now⟩
  let buckets := buckets.evict fun size => options.maxKeys < size
  (if allowed then .ok else .refused (max 1 ⌈(1 - tokens) / options.refillPerSecond⌉), buckets)

/-! ### The proxy's limiter -/

structure RateLimitOptions where
  perSecond : ℚ
  burst : ℚ
  maxEntries : ℕ∞ := 50000

/-- The options that the constructor accepts, and a bound of one or more, which it does not ask
for. -/
structure RateLimitOptions.Valid (options : RateLimitOptions) : Prop where
  perSecond : 0 < options.perSecond
  burst : 1 ≤ options.burst
  maxEntries : 1 ≤ options.maxEntries

/-- Spend one token for a key. -/
def RateLimitOptions.allowKey (options : RateLimitOptions) (buckets : Buckets) (key : String)
    (now : ℚ) : Bool × Buckets :=
  let (bucket, buckets) : Bucket × Buckets :=
    match buckets.get key with
    | some existing =>
      let elapsed := max 0 (now - existing.updatedAt) / 1000
      (⟨min options.burst (existing.tokens + elapsed * options.perSecond), now⟩, buckets.delete key)
    | none => (⟨options.burst, now⟩, buckets.evict fun size => options.maxEntries ≤ size)
  let allowed : Bool := 1 ≤ bucket.tokens
  let bucket := if allowed then { bucket with tokens := bucket.tokens - 1 } else bucket
  (allowed, buckets.set key bucket)

/-- Spend one token for a source, which is limited under its key. -/
def RateLimitOptions.allow (options : RateLimitOptions) (buckets : Buckets) (source : String)
    (now : ℚ) : Bool × Buckets :=
  options.allowKey buckets (rateLimitKey source) now

/-! ### Eviction -/

section

variable {κ ν : Type*} {tooMany : ℕ → Bool}

/-- The last entry stays where one is not too many. -/
lemma evict_append (hone : tooMany 1 = false) (l : List (κ × ν)) (e : κ × ν) :
    ∃ front, evict tooMany (l ++ [e]) = front ++ [e] := by
  induction l with
  | nil => exact ⟨[], by simp [evict, hone]⟩
  | cons first l ih =>
    rw [List.cons_append]
    unfold evict
    split
    · exact ih
    · exact ⟨first :: l, rfl⟩

/-- What is left is not too many. -/
lemma length_evict (l : List (κ × ν)) :
    evict tooMany l = [] ∨ tooMany (evict tooMany l).length = false := by
  induction l with
  | nil => exact .inl rfl
  | cons e rest ih =>
    unfold evict
    split
    · exact ih
    next h => exact .inr (Bool.eq_false_iff.mpr h)

lemma evict_eq_self (h : ∀ n, tooMany n = false) (l : List (κ × ν)) : evict tooMany l = l := by
  cases l with
  | nil => rfl
  | cons e rest => simp [evict, h]

lemma setEntries_eq_append [DecidableEq κ] {k : κ} (v : ν) {l : List (κ × ν)}
    (h : k ∉ l.map Prod.fst) : OrderedMap.setEntries k v l = l ++ [(k, v)] := by
  induction l with
  | nil => rfl
  | cons e rest ih =>
    obtain ⟨k', v'⟩ := e
    rw [List.map_cons, List.mem_cons, not_or] at h
    rw [OrderedMap.setEntries, if_neg (Ne.symm h.1), ih h.2]
    rfl

end

namespace Buckets

variable {buckets : Buckets} {tooMany : ℕ → Bool} {k : String}

lemma entries_evict (buckets : Buckets) (tooMany : ℕ → Bool) :
    (buckets.evict tooMany).entries = Net.evict tooMany buckets.entries := rfl

/-- No bucket is evicted but as a whole. -/
lemma get_evict (buckets : Buckets) (tooMany : ℕ → Bool) (k : String) :
    (buckets.evict tooMany).get k = buckets.get k ∨ (buckets.evict tooMany).get k = none := by
  cases h : (buckets.evict tooMany).get k with
  | none => exact .inr rfl
  | some b =>
    have hmem := (evict_suffix tooMany buckets.entries).subset (OrderedMap.mem_entries_iff.mpr h)
    exact .inl (OrderedMap.mem_entries_iff.mp hmem).symm

/-- A bucket just set, that was not there, is not evicted. -/
lemma get_evict_set (hone : tooMany 1 = false) (hk : buckets.get k = none) (b : Bucket) :
    (Buckets.evict (buckets.set k b) tooMany).get k = some b := by
  have hnew : k ∉ buckets.entries.map Prod.fst := by
    intro hmem
    obtain ⟨⟨_, v⟩, he, rfl⟩ := List.mem_map.mp hmem
    rw [OrderedMap.mem_entries_iff.mp he] at hk
    simp at hk
  refine OrderedMap.mem_entries_iff.mp ?_
  have hentries : (buckets.set k b).entries = buckets.entries ++ [(k, b)] :=
    setEntries_eq_append b hnew
  obtain ⟨front, hfront⟩ := evict_append hone buckets.entries (k, b)
  rw [entries_evict, hentries, hfront]
  simp

lemma evict_eq (h : ∀ n, tooMany n = false) : buckets.evict tooMany = buckets := by
  obtain ⟨entries, hnodup⟩ := buckets
  simp only [Buckets.evict, evict_eq_self h]

lemma size_evict (buckets : Buckets) (tooMany : ℕ → Bool) :
    (buckets.evict tooMany).size = 0 ∨ tooMany (buckets.evict tooMany).size = false := by
  refine (length_evict buckets.entries).imp_left fun hnil => ?_
  rw [OrderedMap.size, entries_evict, hnil, List.length_nil]

end Buckets

/-! ### The limiters as tables of buckets -/

/-- The answer of the API's limiter, without the time to wait. -/
def TokenBucketOptions.granted (options : TokenBucketOptions) : Take String Buckets :=
  fun buckets key now => ((options.take buckets key now).1 = .ok, (options.take buckets key now).2)

/-- What a bucket holds, in tokens a second and milliseconds. -/
lemma level_eq (capacity perSecond : ℚ) (bucket : Option Bucket) (now : ℚ) :
    Bucket.level capacity (perSecond / 1000) bucket now =
      match bucket with
      | some existing =>
        min capacity (existing.tokens + max 0 (now - existing.updatedAt) / 1000 * perSecond)
      | none => capacity := by
  cases bucket with
  | none => rfl
  | some b =>
    simp only [Bucket.level, Option.elim_some]
    rw [mul_div_assoc', div_mul_eq_mul_div]

/-- What a take leaves, before anything is evicted. -/
def afterSet (capacity rate : ℚ) (buckets : Buckets) (key : String) (now : ℚ) : Buckets :=
  OrderedMap.set (if (buckets.get key).isSome then buckets.delete key else buckets) key
    (Bucket.spent capacity rate (buckets.get key) now)

lemma TokenBucketOptions.granted_eq (options : TokenBucketOptions) (buckets : Buckets)
    (key : String) (now : ℚ) :
    options.granted buckets key now =
      (decide (1 ≤ Bucket.level options.capacity (options.refillPerSecond / 1000)
        (buckets.get key) now),
        (afterSet options.capacity (options.refillPerSecond / 1000) buckets key now).evict
          fun size => options.maxKeys < size) := by
  simp only [granted, take, ← level_eq, afterSet, Bucket.spent, decide_eq_true_eq]
  refine Prod.ext ?_ rfl
  simp only [decide_eq_decide]
  split <;> simp_all

lemma get_afterSet (capacity rate : ℚ) (buckets : Buckets) (key j : String) (now : ℚ) :
    (afterSet capacity rate buckets key now).get j =
      if key = j then some (Bucket.spent capacity rate (buckets.get key) now)
      else buckets.get j := by
  rw [afterSet, OrderedMap.get_set]
  split
  · rfl
  next hne =>
    split
    · rw [OrderedMap.get_delete_of_ne hne]
    · rfl

lemma get_base (buckets : Buckets) (key : String) :
    OrderedMap.get (if (buckets.get key).isSome then buckets.delete key else buckets) key =
      none := by
  split
  · exact OrderedMap.get_delete_self
  next h => exact Option.not_isSome_iff_eq_none.mp h

namespace TokenBucketOptions

variable {options : TokenBucketOptions}

/-- The API's limiter spends from the bucket of its key. -/
lemma spends (h : options.Valid) :
    Spends options.capacity (options.refillPerSecond / 1000) OrderedMap.get options.granted where
  answer buckets key now := by rw [granted_eq]
  own buckets key now := by
    rw [granted_eq]
    refine Buckets.get_evict_set ?_ (get_base buckets key) _
    exact decide_eq_false (not_lt.mpr (by exact_mod_cast h.maxKeys))
  other buckets key now j hj := by
    rw [granted_eq]
    have hget := get_afterSet options.capacity (options.refillPerSecond / 1000) buckets key j now
    rw [if_neg (Ne.symm hj)] at hget
    rw [← hget]
    exact Buckets.get_evict _ _ j

/-- Without a bound it forgets none. -/
lemma remembers (h : options.Valid) :
    Remembers options.capacity (options.refillPerSecond / 1000) OrderedMap.get
      { options with maxKeys := ⊤ }.granted where
  toSpends := @spends { options with maxKeys := ⊤ } ⟨h.capacity, h.refillPerSecond, le_top⟩
  kept buckets key now j hj := by
    rw [granted_eq]
    have hget := get_afterSet options.capacity (options.refillPerSecond / 1000) buckets key j now
    rw [if_neg (Ne.symm hj)] at hget
    rw [← hget]
    exact congrArg (OrderedMap.get · j) (Buckets.evict_eq fun n => decide_eq_false (not_top_lt))

lemma size_granted_le (buckets : Buckets) (key : String) (now : ℚ) :
    ((options.granted buckets key now).2.size : ℕ∞) ≤ options.maxKeys := by
  rw [granted_eq]
  rcases Buckets.size_evict (afterSet options.capacity (options.refillPerSecond / 1000) buckets key
    now) (fun size => options.maxKeys < size) with hzero | hfits
  · dsimp only
    rw [hzero]
    exact zero_le
  · exact not_lt.mp (of_decide_eq_false hfits)

end TokenBucketOptions

namespace RateLimitOptions

variable {options : RateLimitOptions}

/-- The table that a bucket is set in, with room for it. -/
def room (options : RateLimitOptions) (buckets : Buckets) (key : String) : Buckets :=
  if (buckets.get key).isSome then buckets.delete key
  else buckets.evict fun size => options.maxEntries ≤ size

lemma allowKey_eq (options : RateLimitOptions) (buckets : Buckets) (key : String) (now : ℚ) :
    options.allowKey buckets key now =
      (decide (1 ≤ Bucket.level options.burst (options.perSecond / 1000) (buckets.get key) now),
        OrderedMap.set (options.room buckets key) key
          (Bucket.spent options.burst (options.perSecond / 1000) (buckets.get key) now)) := by
  unfold allowKey room Bucket.spent
  simp only [level_eq]
  cases buckets.get key with
  | none =>
    simp only [Option.isSome_none, Bool.false_eq_true, if_false, decide_eq_true_eq]
    split <;> rfl
  | some b =>
    simp only [Option.isSome_some, if_true, decide_eq_true_eq]
    split <;> rfl

lemma get_room_of_ne {buckets : Buckets} {key j : String} (hj : j ≠ key) :
    (options.room buckets key).get j = buckets.get j ∨ (options.room buckets key).get j = none := by
  unfold room
  split
  · exact .inl (OrderedMap.get_delete_of_ne (Ne.symm hj))
  · exact Buckets.get_evict _ _ j

/-- The proxy's limiter spends from the bucket of its key. -/
lemma spends (options : RateLimitOptions) :
    Spends options.burst (options.perSecond / 1000) OrderedMap.get options.allowKey where
  answer buckets key now := by rw [allowKey_eq]
  own buckets key now := by
    rw [allowKey_eq]
    exact OrderedMap.get_set_self _
  other buckets key now j hj := by
    rw [allowKey_eq]
    dsimp only
    rw [OrderedMap.get_set_of_ne _ (Ne.symm hj)]
    exact get_room_of_ne hj

/-- Without a bound it forgets none. -/
lemma remembers (options : RateLimitOptions) :
    Remembers options.burst (options.perSecond / 1000) OrderedMap.get
      { options with maxEntries := ⊤ }.allowKey where
  toSpends := spends { options with maxEntries := ⊤ }
  kept buckets key now j hj := by
    rw [allowKey_eq]
    dsimp only
    rw [OrderedMap.get_set_of_ne _ (Ne.symm hj), room]
    split
    · exact OrderedMap.get_delete_of_ne (Ne.symm hj)
    · refine congrArg (OrderedMap.get · j) (Buckets.evict_eq fun n => decide_eq_false ?_)
      simp

/-- The table that a bucket is set in is one short of the bound, if it was within it. -/
lemma size_allowKey_le (h : options.Valid) {buckets : Buckets} (key : String) (now : ℚ)
    (hsize : (buckets.size : ℕ∞) ≤ options.maxEntries) :
    ((options.allowKey buckets key now).2.size : ℕ∞) ≤ options.maxEntries := by
  rw [allowKey_eq]
  have hset : (OrderedMap.set (options.room buckets key) key (Bucket.spent options.burst
      (options.perSecond / 1000) (buckets.get key) now)).size ≤
        (options.room buckets key).size + 1 :=
    OrderedMap.size_set_le _
  refine (Nat.cast_le.mpr hset).trans ?_
  unfold room
  split
  next hsome =>
    have hcount := OrderedMap.countP_delete (m := buckets) (k := key) fun _ => true
    rw [List.countP_true] at hcount
    obtain ⟨b, hb⟩ := Option.isSome_iff_exists.mp hsome
    rw [hb] at hcount
    exact (Nat.cast_le.mpr hcount.le).trans hsize
  · rcases Buckets.size_evict buckets (fun size => options.maxEntries ≤ size) with hzero | hfits
    · rw [hzero]
      exact h.maxEntries
    · exact Order.add_one_le_of_lt (not_le.mp (of_decide_eq_false hfits))

end RateLimitOptions

/-! ### What a bound on memory does -/

/-- Answers under the keys of those who asked. -/
def keyed {σ : Type*} (keyOf : σ → String) (l : List ((σ × ℚ) × Bool)) :
    List ((String × ℚ) × Bool) :=
  l.map fun a => ((keyOf a.1.1, a.1.2), a.2)

/-- A limiter over a bounded table, against the same over an unbounded one: no key is granted less,
the bound is kept, and in a window in which its bucket is not evicted a key is granted no more than
its capacity and what comes in. -/
structure NeverStricter (capacity refillPerSecond : ℚ) (bound : ℕ∞) (keyOf : String → String)
    (take unbounded : Take String Buckets) (requests : List (String × ℚ)) : Prop where
  granted : ∀ key, grantedTo key (keyed keyOf (answers unbounded {} requests)) ≤
    grantedTo key (keyed keyOf (answers take {} requests))
  size : ((afterTakes take {} requests).size : ℕ∞) ≤ bound
  window : ∀ key t₁ t₂ before during, requests = before ++ during → t₁ ≤ t₂ →
    NotForgotten OrderedMap.get take key (afterTakes take {} before) during →
    (grantedWithin key t₁ t₂ (keyed keyOf (answers take (afterTakes take {} before) during)) : ℚ) ≤
      capacity + refillPerSecond * ((t₂ - t₁) / 1000)

/-- Requests under the keys of those who make them. -/
def requestsOf {σ : Type*} (keyOf : σ → String) (requests : List (σ × ℚ)) : List (String × ℚ) :=
  requests.map fun r => (keyOf r.1, r.2)

section

variable {σ : Type*} {keyOf : σ → String} {take : Take String Buckets}

lemma keyed_answers (requests : List (σ × ℚ)) (t : Buckets) :
    keyed keyOf (answers (fun t s now => take t (keyOf s) now) t requests) =
      answers take t (requestsOf keyOf requests) := by
  induction requests generalizing t with
  | nil => rfl
  | cons r requests ih => exact congrArg _ (ih _)

lemma afterTakes_keyed (requests : List (σ × ℚ)) (t : Buckets) :
    afterTakes (fun t s now => take t (keyOf s) now) t requests =
      afterTakes take t (requestsOf keyOf requests) := by
  rw [afterTakes, afterTakes, requestsOf, List.foldl_map]

lemma notForgotten_keyed {key : String} {requests : List (σ × ℚ)} {t : Buckets}
    (h : NotForgotten OrderedMap.get (fun t s now => take t (keyOf s) now) key t requests) :
    NotForgotten OrderedMap.get take key t (requestsOf keyOf requests) := by
  induction requests generalizing t with
  | nil => trivial
  | cons r requests ih => exact ⟨h.1, ih h.2⟩

lemma nodup_start {key : String} : OrderedMap.get ({} : Buckets) key = none := rfl

/-- Takes that keep a bound keep it over any run. -/
lemma size_afterTakes_le {bound : ℕ∞}
    (hsize : ∀ (t : Buckets) key now, (t.size : ℕ∞) ≤ bound →
      ((take t key now).2.size : ℕ∞) ≤ bound) (requests : List (String × ℚ)) {t : Buckets}
    (ht : (t.size : ℕ∞) ≤ bound) : ((afterTakes take t requests).size : ℕ∞) ≤ bound := by
  induction requests generalizing t with
  | nil => exact ht
  | cons r requests ih => exact ih (hsize t r.1 r.2 ht)

/-- The buckets of a run from an empty table were taken from by what comes next. -/
lemma fits_afterTakes {capacity rate : ℚ} (h : Spends capacity rate OrderedMap.get take)
    (hcapacity : 0 ≤ capacity) (hrate : 0 ≤ rate) (key : String) {requests : List (String × ℚ)}
    {now : ℚ} (hclock : (requests.map Prod.snd ++ [now]).Pairwise (· ≤ ·)) :
    Bucket.Fits (OrderedMap.get (afterTakes take {} requests) key) now := by
  induction requests using List.reverseRecOn generalizing now with
  | nil => exact .none
  | append_singleton requests r ih =>
    rw [List.map_append, List.map_singleton] at hclock
    obtain ⟨hbefore, -, hnow⟩ := List.pairwise_append.mp hclock
    have hlast : r.2 ≤ now := hnow r.2 (by simp) now (by simp)
    have hafter : afterTakes take {} (requests ++ [r]) =
        (take (afterTakes take {} requests) r.1 r.2).2 := by
      rw [afterTakes, List.foldl_append]
      rfl
    rw [hafter]
    exact (h.fits hcapacity hrate (ih hbefore) le_rfl).mono hlast

/-- **A bound on memory.** A limiter that spends from buckets and keeps its bound is never stricter
for the bound. -/
theorem NeverStricter.of_spends {keyOf : String → String} {unbounded : Take String Buckets}
    {capacity refillPerSecond : ℚ} {bound : ℕ∞}
    (h : Spends capacity (refillPerSecond / 1000) OrderedMap.get take)
    (h' : Remembers capacity (refillPerSecond / 1000) OrderedMap.get unbounded)
    (hcapacity : 0 ≤ capacity) (hrefill : 0 ≤ refillPerSecond)
    (hsize : ∀ (t : Buckets) key now, (t.size : ℕ∞) ≤ bound →
      ((take t key now).2.size : ℕ∞) ≤ bound)
    {requests : List (String × ℚ)} (hclock : (requests.map Prod.snd).Pairwise (· ≤ ·)) :
    NeverStricter capacity refillPerSecond bound keyOf (fun t s now => take t (keyOf s) now)
      (fun t s now => unbounded t (keyOf s) now) requests where
  granted key := by
    have hkeys : ((requestsOf keyOf requests).map Prod.snd).Pairwise (· ≤ ·) := by
      rwa [requestsOf, List.map_map]
    rw [keyed_answers, keyed_answers]
    exact h'.never_stricter h hcapacity (div_nonneg hrefill (by norm_num)) key hkeys rfl rfl
  size := by
    rw [afterTakes_keyed]
    exact size_afterTakes_le hsize _ (by simp [OrderedMap.size])
  window key t₁ t₂ before during hrun hwindow hkeep := by
    have hrate : 0 ≤ refillPerSecond / 1000 := div_nonneg hrefill (by norm_num)
    rw [keyed_answers, afterTakes_keyed]
    rw [afterTakes_keyed] at hkeep
    have hkept := notForgotten_keyed hkeep
    have hbound : (grantedWithin key t₁ t₂ (answers take
        (afterTakes take {} (requestsOf keyOf before)) (requestsOf keyOf during)) : ℚ) ≤
          capacity + refillPerSecond / 1000 * (t₂ - t₁) := by
      have htimes (l : List (String × ℚ)) :
          (requestsOf keyOf l).map Prod.snd = l.map Prod.snd := by
        rw [requestsOf, List.map_map]
        rfl
      subst hrun
      rw [List.map_append] at hclock
      cases during with
      | nil =>
        have hincome : 0 ≤ refillPerSecond / 1000 * (t₂ - t₁) :=
          mul_nonneg hrate (sub_nonneg.mpr hwindow)
        have hnone : grantedWithin key t₁ t₂ (answers take
            (afterTakes take {} (requestsOf keyOf before)) (requestsOf keyOf [])) = 0 := rfl
        rw [hnone, Nat.cast_zero]
        exact add_nonneg hcapacity hincome
      | cons r during =>
        obtain ⟨hbefore, hduring, hacross⟩ := List.pairwise_append.mp hclock
        have hstart : (r.2 :: (requestsOf keyOf (r :: during)).map Prod.snd).Pairwise (· ≤ ·) := by
          rw [htimes]
          refine List.pairwise_cons.mpr ⟨List.forall_mem_cons.mpr ⟨le_rfl, ?_⟩, hduring⟩
          exact (List.pairwise_cons.mp hduring).1
        have hfits : Bucket.Fits (OrderedMap.get (afterTakes take {} (requestsOf keyOf before)) key)
            r.2 := by
          refine fits_afterTakes h hcapacity hrate key ?_
          rw [htimes]
          refine List.pairwise_append.mpr ⟨hbefore, by simp, fun t ht u hu => ?_⟩
          obtain rfl := List.mem_singleton.mp hu
          exact hacross t ht r.2 (by simp)
        exact h.grantedWithin_le hcapacity hrate hstart hfits hkept hwindow
    refine hbound.trans_eq ?_
    ring

end

/-- **Never stricter.** Bounding the memory of a limiter never makes it stricter: the API's, under
any keys, and the DNS proxy's, under the keys of the sources. -/
theorem limiters_never_stricter {requests : List (String × ℚ)}
    (hclock : (requests.map Prod.snd).Pairwise (· ≤ ·)) :
    (∀ options : TokenBucketOptions, options.Valid →
      NeverStricter options.capacity options.refillPerSecond options.maxKeys id options.granted
        { options with maxKeys := ⊤ }.granted requests) ∧
    ∀ options : RateLimitOptions, options.Valid →
      NeverStricter options.burst options.perSecond options.maxEntries rateLimitKey options.allow
        { options with maxEntries := ⊤ }.allow requests := by
  refine ⟨fun options h => ?_, fun options h => ?_⟩
  · exact .of_spends (TokenBucketOptions.spends h) (TokenBucketOptions.remembers h)
      (zero_le_one.trans h.capacity) h.refillPerSecond.le
      (fun t key now _ => TokenBucketOptions.size_granted_le t key now) hclock
  · exact .of_spends (RateLimitOptions.spends options) (RateLimitOptions.remembers options)
      (zero_le_one.trans h.burst) h.perSecond.le
      (fun t key now ht => RateLimitOptions.size_allowKey_le h key now ht) hclock

/-- Two keys in a table for one: the first is granted a token that it would have to wait for. -/
theorem limiters_never_stricter_evicted :
    NeverStricter 1 1 1 id (TokenBucketOptions.granted ⟨1, 1, 1⟩)
      (TokenBucketOptions.granted ⟨1, 1, ⊤⟩) [("a", 0), ("b", 1), ("a", 2)] :=
  (limiters_never_stricter (by decide)).1 ⟨1, 1, 1⟩ ⟨le_rfl, by norm_num, le_rfl⟩

end Tnp.Net
