import Mathlib.Data.NNRat.Defs
import Mathlib.Data.Rat.Floor
import Tnp.Lib.Countdown
import Tnp.Lib.Recency
import Tnp.Lib.Run

/-!
The client's cache of answers.

What it holds counts down by the whole seconds that have passed, and never below one. Clocks are
milliseconds, and may stand between two of them.
-/

namespace Tnp.Client

open Tnp.Lib

def MIN_TTL_SECONDS : ℤ := 1
def MAX_TTL_SECONDS : ℤ := 86400
def MAX_NEGATIVE_TTL_SECONDS : ℤ := 3600
def DEFAULT_NEGATIVE_TTL_SECONDS : ℚ := 60

/-- A record, and what else it has that the cache does not read. -/
structure CachedRecord (α : Type*) where
  name : String
  type : String
  value : String
  ttl : ℚ
  rest : α

structure CacheEntry (α : Type*) where
  records : List (CachedRecord α)
  negative : Bool

structure StoredEntry (α : Type*) extends CacheEntry α where
  storedAt : ℚ
  expiresAt : ℚ

structure DnsCache (α : Type*) where
  maxEntries : ℕ := 10000
  entries : OrderedMap String (StoredEntry α) := {}

def clamp (value : ℚ) (lowest highest : ℤ) : ℤ := min (max ⌊value⌋ lowest) highest

variable {α : Type*} (toLowerCase toUpperCase : String → String)

def cacheKey (name type : String) : String := toLowerCase name ++ ":" ++ toUpperCase type

/-- A record of an entry, with its TTL reduced by the time it was held. -/
def StoredEntry.reduced (entry : StoredEntry α) (now : ℚ) (record : CachedRecord α) :
    CachedRecord α :=
  let elapsedSeconds := ⌊(now - entry.storedAt) / 1000⌋
  { record with ttl := max (MIN_TTL_SECONDS : ℚ) (record.ttl - elapsedSeconds) }

/-- What is served of an entry. -/
def StoredEntry.served (entry : StoredEntry α) (now : ℚ) : CacheEntry α :=
  { negative := entry.negative, records := entry.records.map (entry.reduced now) }

namespace DnsCache

variable (cache : DnsCache α)

def get (now : ℚ) (name type : String) : Option (CacheEntry α) × DnsCache α :=
  let key := cacheKey toLowerCase toUpperCase name type
  match cache.entries.get key with
  | none => (none, cache)
  | some entry =>
    if entry.expiresAt ≤ now then (none, { cache with entries := cache.entries.delete key })
    else (some (entry.served now), cache)

/-- The loop that drops what has expired, until there is room. -/
def dropExpired (maxEntries : ℕ) (now : ℚ) (entries : OrderedMap String (StoredEntry α)) :
    OrderedMap String (StoredEntry α) :=
  entries.entries.foldl (fun kept e =>
    if maxEntries < kept.size ∧ e.2.expiresAt ≤ now then kept.delete e.1 else kept) entries

def evictIfNeeded (now : ℚ) : DnsCache α :=
  { cache with
    entries := (dropExpired cache.maxEntries now cache.entries).latest cache.maxEntries }

/-- The clock is read once for the entry, and once more to evict. -/
def store (now later : ℚ) (key : String) (entry : CacheEntry α) (ttlSeconds : ℤ) : DnsCache α :=
  let stored := { entry with storedAt := now, expiresAt := now + ttlSeconds * 1000 }
  { cache with entries := (cache.entries.delete key).set key stored }.evictIfNeeded later

def set (now later : ℚ) (name type : String) (records : List (CachedRecord α)) : DnsCache α :=
  match records with
  | [] => cache
  | first :: rest =>
    let ttl := clamp ((rest.map (·.ttl)).foldl min first.ttl) MIN_TTL_SECONDS MAX_TTL_SECONDS
    cache.store now later (cacheKey toLowerCase toUpperCase name type) ⟨records, false⟩ ttl

def setNegative (now later : ℚ) (name type : String) (soaMinimum : Option ℚ) : DnsCache α :=
  let ttl := clamp (soaMinimum.getD DEFAULT_NEGATIVE_TTL_SECONDS) MIN_TTL_SECONDS
    MAX_NEGATIVE_TTL_SECONDS
  cache.store now later (cacheKey toLowerCase toUpperCase name type) ⟨[], true⟩ ttl

def setNoData (now later : ℚ) (name type : String) (soaMinimum : Option ℚ) : DnsCache α :=
  let ttl := clamp (soaMinimum.getD DEFAULT_NEGATIVE_TTL_SECONDS) MIN_TTL_SECONDS
    MAX_NEGATIVE_TTL_SECONDS
  cache.store now later (cacheKey toLowerCase toUpperCase name type) ⟨[], false⟩ ttl

def clear : DnsCache α := { cache with entries := {} }

end DnsCache

/-! ### Lives -/

section Lives

variable {toLowerCase toUpperCase : String → String} {cache : DnsCache α} {maxEntries : ℕ}
  {clock now later : ℚ} {name type key key' : String} {entry : StoredEntry α}

/-- What the cache keeps to. -/
structure DnsCache.Sound (maxEntries : ℕ) (clock : ℚ) (cache : DnsCache α) : Prop where
  bound : cache.maxEntries = maxEntries
  size_le : cache.entries.size ≤ maxEntries
  storedAt_le : ∀ key entry, cache.entries.get key = some entry → entry.storedAt ≤ clock
  expiresAt_le : ∀ key entry, cache.entries.get key = some entry →
    ∀ record ∈ entry.records, 1 ≤ record.ttl →
      entry.expiresAt ≤ entry.storedAt + 1000 * (⌊record.ttl⌋ : ℤ)

lemma get_of_get_dropExpired {entries : OrderedMap String (StoredEntry α)}
    (h : (DnsCache.dropExpired maxEntries now entries).get key = some entry) :
    entries.get key = some entry := by
  unfold DnsCache.dropExpired at h
  generalize entries.entries = l at h
  induction l using List.reverseRecOn with
  | nil => exact h
  | append_singleton l e ih =>
    rw [List.foldl_append, List.foldl_cons, List.foldl_nil] at h
    split at h
    · rw [OrderedMap.get_delete] at h
      split at h
      · simp at h
      · exact ih h
    · exact ih h

/-- Nothing goes while there is room. -/
lemma DnsCache.evictIfNeeded_of_size_le (h : cache.entries.size ≤ cache.maxEntries) :
    cache.evictIfNeeded now = cache := by
  have hdrop (l : List (String × StoredEntry α)) :
      l.foldl (fun kept e => if cache.maxEntries < kept.size ∧ e.2.expiresAt ≤ now then
        kept.delete e.1 else kept) cache.entries = cache.entries := by
    induction l with
    | nil => rfl
    | cons e l ih => rw [List.foldl_cons, if_neg fun hfull => hfull.1.not_ge h, ih]
  obtain ⟨maxEntries, entries⟩ := cache
  have hzero : entries.entries.length - maxEntries = 0 := Nat.sub_eq_zero_of_le h
  simp only [evictIfNeeded, dropExpired, hdrop, OrderedMap.latest, hzero, List.drop_zero]

lemma held_dnsGet
    (h : (cache.get toLowerCase toUpperCase now name type).2.entries.get key = some entry) :
    cache.entries.get key = some entry := by
  unfold DnsCache.get at h
  dsimp only at h
  split at h
  · exact h
  split at h
  · rw [OrderedMap.get_delete] at h
    split at h
    · simp at h
    · exact h
  · exact h

/-- After an entry is stored, there is it and what was there. -/
lemma held_store {put : CacheEntry α} {ttl : ℤ}
    (h : (cache.store now later key put ttl).entries.get key' = some entry) :
    cache.entries.get key' = some entry ∨
      key = key' ∧ entry = { put with storedAt := now, expiresAt := now + ttl * 1000 } := by
  have hget := get_of_get_dropExpired (OrderedMap.get_of_get_latest h)
  rw [OrderedMap.get_set, OrderedMap.get_delete] at hget
  by_cases hsame : key = key'
  · rw [if_pos hsame] at hget
    exact .inr ⟨hsame, (Option.some.inj hget).symm⟩
  · rw [if_neg hsame, if_neg hsame] at hget
    exact .inl hget

/-- A set lives no longer than any record of it that lives a second at least. -/
lemma clamp_le {least ttl : ℚ} (hleast : least ≤ ttl) (hone : 1 ≤ ttl) :
    clamp least MIN_TTL_SECONDS MAX_TTL_SECONDS ≤ ⌊ttl⌋ := by
  refine (min_le_left _ _).trans (max_le (Int.floor_mono hleast) ?_)
  exact Int.le_floor.mpr (by simpa [MIN_TTL_SECONDS] using hone)

/-- What is served lives for a second at least. -/
lemma StoredEntry.one_le_reduced (entry : StoredEntry α) (now : ℚ) (record : CachedRecord α) :
    1 ≤ (entry.reduced now record).ttl := by
  simp [reduced, MIN_TTL_SECONDS]

namespace DnsCache.Sound

lemma mono (h : cache.Sound maxEntries clock) (hnow : clock ≤ now) : cache.Sound maxEntries now :=
  ⟨h.bound, h.size_le, fun key entry hheld => (h.storedAt_le key entry hheld).trans hnow,
    h.expiresAt_le⟩

variable (toLowerCase toUpperCase) in
lemma get (h : cache.Sound maxEntries clock) (now : ℚ) (name type : String) :
    (cache.get toLowerCase toUpperCase now name type).2.Sound maxEntries clock := by
  obtain ⟨hbound, hsize⟩ :
      (cache.get toLowerCase toUpperCase now name type).2.maxEntries = maxEntries ∧
      (cache.get toLowerCase toUpperCase now name type).2.entries.size ≤ maxEntries := by
    unfold DnsCache.get
    dsimp only
    split
    · exact ⟨h.bound, h.size_le⟩
    split
    · exact ⟨h.bound, OrderedMap.size_delete_le.trans h.size_le⟩
    · exact ⟨h.bound, h.size_le⟩
  exact ⟨hbound, hsize, fun key entry hheld => h.storedAt_le key entry (held_dnsGet hheld),
    fun key entry hheld => h.expiresAt_le key entry (held_dnsGet hheld)⟩

lemma store (h : cache.Sound maxEntries now) (hlater : now ≤ later) (key : String)
    (put : CacheEntry α) {ttl : ℤ} (httl : ∀ record ∈ put.records, 1 ≤ record.ttl →
      ttl ≤ ⌊record.ttl⌋) : (cache.store now later key put ttl).Sound maxEntries later := by
  refine ⟨h.bound, h.bound ▸ OrderedMap.size_latest_le _ _, fun key' entry hheld => ?_,
    fun key' entry hheld => ?_⟩
  · rcases held_store hheld with hold | ⟨-, rfl⟩
    · exact (h.storedAt_le key' entry hold).trans hlater
    · exact hlater
  · rcases held_store hheld with hold | ⟨-, rfl⟩
    · exact h.expiresAt_le key' entry hold
    · intro record hmem hone
      have hle := Int.cast_le (R := ℚ).mpr (httl record hmem hone)
      dsimp only
      linarith

variable (toLowerCase toUpperCase) in
lemma set (h : cache.Sound maxEntries now) (hlater : now ≤ later) (name type : String)
    (records : List (CachedRecord α)) :
    (cache.set toLowerCase toUpperCase now later name type records).Sound maxEntries later := by
  cases records with
  | nil => exact h.mono hlater
  | cons first rest =>
    refine h.store hlater _ _ fun record hmem hone => clamp_le ?_ hone
    exact foldl_min_le first.ttl (rest.map (·.ttl)) record.ttl
      (List.mem_map_of_mem (f := (·.ttl)) hmem)

/-- What is left of a record of a live entry, where it lives a second at least. -/
lemma left_eq (hs : cache.Sound maxEntries clock) (hentry : cache.entries.get key = some entry)
    (hlive : now < entry.expiresAt) {record : CachedRecord α} (hmem : record ∈ entry.records)
    (hone : 1 ≤ record.ttl) :
    (entry.reduced now record).ttl = record.ttl - ⌊(now - entry.storedAt) / 1000⌋ := by
  have hexpires := hs.expiresAt_le key entry hentry record hmem hone
  have hlt : ⌊(now - entry.storedAt) / 1000⌋ < ⌊record.ttl⌋ := by
    rw [Int.floor_lt, div_lt_iff₀ (by norm_num)]
    linarith
  have hle : ((⌊(now - entry.storedAt) / 1000⌋ + 1 : ℤ) : ℚ) ≤ record.ttl :=
    (Int.cast_le.mpr (Int.add_one_le_iff.mpr hlt)).trans (Int.floor_le _)
  refine max_eq_right ?_
  push_cast at hle
  norm_num [MIN_TTL_SECONDS]
  linarith

/-- What is served of a live entry keeps to the lives of its records, or not. -/
lemma within_iff (hs : cache.Sound maxEntries clock) (hentry : cache.entries.get key = some entry)
    (hnow : clock ≤ now) (hlive : now < entry.expiresAt) {record : CachedRecord α}
    (hmem : record ∈ entry.records) :
    Within 1000 now (entry.reduced now record).ttl entry.storedAt record.ttl ↔
      1 ≤ record.ttl ∧ Int.fract ((now - entry.storedAt) / 1000) = 0 := by
  have hstored := (hs.storedAt_le key entry hentry).trans hnow
  by_cases hone : 1 ≤ record.ttl
  · rw [hs.left_eq hentry hlive hmem hone, within_floor_iff (by norm_num)]
    simp only [hone, true_and, sub_self]
    have hnonneg := Int.fract_nonneg ((now - entry.storedAt) / 1000)
    constructor
    · intro h
      linarith
    · intro h
      rw [h, mul_zero]
  · refine iff_of_false (fun h => ?_) fun h => hone h.1
    have hmin := entry.one_le_reduced now record
    rw [Within] at h
    linarith

end DnsCache.Sound

end Lives

/-! ### Runs -/

inductive DnsCacheCall (α : Type*)
  | get (name type : String)
  /-- The clock is read again to evict, so much later. -/
  | set (name type : String) (records : List (CachedRecord α)) (evictAfter : NNRat)
  | setNegative (name type : String) (soaMinimum : Option ℚ) (evictAfter : NNRat)
  | setNoData (name type : String) (soaMinimum : Option ℚ) (evictAfter : NNRat)
  | clear

/-- A call, and how long after the last one it comes. -/
structure DnsCacheEvent (α : Type*) where
  wait : NNRat
  call : DnsCacheCall α

/-- The cache and the clock, with everything that was put. -/
structure DnsCacheRun (α : Type*) where
  clock : ℚ
  cache : DnsCache α := {}
  puts : List (String × ℚ × List (CachedRecord α)) := []

namespace DnsCacheRun

def step (s : DnsCacheRun α) (e : DnsCacheEvent α) : DnsCacheRun α :=
  let now := s.clock + e.wait
  let key := cacheKey toLowerCase toUpperCase
  match e.call with
  | .get name type =>
    { s with clock := now, cache := (s.cache.get toLowerCase toUpperCase now name type).2 }
  | .set name type records evictAfter =>
    let later := now + evictAfter
    { clock := later
      cache := s.cache.set toLowerCase toUpperCase now later name type records
      puts := (key name type, now, records) :: s.puts }
  | .setNegative name type soaMinimum evictAfter =>
    let later := now + evictAfter
    { clock := later
      cache := s.cache.setNegative toLowerCase toUpperCase now later name type soaMinimum
      puts := (key name type, now, []) :: s.puts }
  | .setNoData name type soaMinimum evictAfter =>
    let later := now + evictAfter
    { clock := later
      cache := s.cache.setNoData toLowerCase toUpperCase now later name type soaMinimum
      puts := (key name type, now, []) :: s.puts }
  | .clear => { s with clock := now, cache := s.cache.clear }

/-- What is served of an entry ends when the entry's own records do. -/
def Kept (s : DnsCacheRun α) (e : DnsCacheEvent α) : Prop :=
  match e.call with
  | .get name type => ∀ entry served,
      s.cache.entries.get (cacheKey toLowerCase toUpperCase name type) = some entry →
      (s.cache.get toLowerCase toUpperCase (s.clock + e.wait) name type).1 = some served →
        List.Forall₂ (fun served stored : CachedRecord α => served.name = stored.name ∧
          served.type = stored.type ∧ served.value = stored.value ∧ served.rest = stored.rest ∧
          Within 1000 (s.clock + e.wait) served.ttl entry.storedAt stored.ttl)
        served.records entry.records
  | _ => True

/-- What is asked for was stored whole seconds ago, with lives of a second at least. -/
def Whole (s : DnsCacheRun α) (e : DnsCacheEvent α) : Prop :=
  match e.call with
  | .get name type => ∀ entry,
      s.cache.entries.get (cacheKey toLowerCase toUpperCase name type) = some entry →
      s.clock + e.wait < entry.expiresAt → ∀ record ∈ entry.records,
        1 ≤ record.ttl ∧ Int.fract ((s.clock + e.wait - entry.storedAt) / 1000) = 0
  | _ => True

/-- Every entry is one that was put, and the cache keeps to what it promises. -/
structure Sound (maxEntries : ℕ) (s : DnsCacheRun α) : Prop where
  cache : s.cache.Sound maxEntries s.clock
  put : ∀ key entry, s.cache.entries.get key = some entry →
    (key, entry.storedAt, entry.records) ∈ s.puts

variable {toLowerCase toUpperCase : String → String} {maxEntries : ℕ} {s : DnsCacheRun α}

lemma Sound.store (hs : s.Sound maxEntries) {now later : ℚ} (hnow : s.clock ≤ now)
    (hlater : now ≤ later) (key : String) (put : CacheEntry α) {ttl : ℤ}
    (httl : ∀ record ∈ put.records, 1 ≤ record.ttl → ttl ≤ ⌊record.ttl⌋) :
    Sound maxEntries ⟨later, s.cache.store now later key put ttl,
      (key, now, put.records) :: s.puts⟩ := by
  refine ⟨(hs.cache.mono hnow).store hlater key put httl, fun key' entry h => ?_⟩
  rcases held_store h with hold | ⟨rfl, rfl⟩
  · exact List.mem_cons_of_mem _ (hs.put key' entry hold)
  · exact List.mem_cons_self

lemma Sound.step (hs : s.Sound maxEntries) (e : DnsCacheEvent α) :
    (s.step toLowerCase toUpperCase e).Sound maxEntries := by
  have hnow : s.clock ≤ s.clock + e.wait := le_add_of_nonneg_right e.wait.coe_nonneg
  unfold DnsCacheRun.step
  cases e.call with
  | get name type =>
    exact ⟨(hs.cache.mono hnow).get toLowerCase toUpperCase _ _ _,
      fun key entry h => hs.put key entry (held_dnsGet h)⟩
  | set name type records evictAfter =>
    have hlater : s.clock + e.wait ≤ s.clock + e.wait + evictAfter :=
      le_add_of_nonneg_right evictAfter.coe_nonneg
    cases records with
    | nil =>
      exact ⟨hs.cache.mono (hnow.trans hlater),
        fun key entry h => List.mem_cons_of_mem _ (hs.put key entry h)⟩
    | cons first rest =>
      refine hs.store hnow hlater _ ⟨first :: rest, false⟩ fun record hmem hone => clamp_le ?_ hone
      exact foldl_min_le first.ttl (rest.map (·.ttl)) record.ttl
        (List.mem_map_of_mem (f := (·.ttl)) hmem)
  | setNegative name type soaMinimum evictAfter =>
    exact hs.store hnow (le_add_of_nonneg_right evictAfter.coe_nonneg) _ ⟨[], true⟩ (by simp)
  | setNoData name type soaMinimum evictAfter =>
    exact hs.store hnow (le_add_of_nonneg_right evictAfter.coe_nonneg) _ ⟨[], false⟩ (by simp)
  | clear =>
    refine ⟨⟨hs.cache.bound, Nat.zero_le _, ?_, ?_⟩, ?_⟩
    all_goals simp [DnsCache.clear, OrderedMap.get]

/-- A query is served what keeps to its lives where the condition says so. -/
lemma Sound.kept_iff (hs : s.Sound maxEntries) (e : DnsCacheEvent α) :
    s.Kept toLowerCase toUpperCase e ↔ s.Whole toLowerCase toUpperCase e := by
  unfold Kept Whole
  cases e.call with
  | get name type =>
    have hnow : s.clock ≤ s.clock + e.wait := le_add_of_nonneg_right e.wait.coe_nonneg
    refine forall_congr' fun entry => ?_
    constructor
    · intro h hentry hlive record hmem
      have hget : (s.cache.get toLowerCase toUpperCase (s.clock + e.wait) name type).1 =
          some (entry.served (s.clock + e.wait)) := by
        simp [DnsCache.get, hentry, not_le.mpr hlive]
      have hall := h _ hentry hget
      rw [StoredEntry.served, List.forall₂_map_left_iff, List.forall₂_same] at hall
      exact (hs.cache.within_iff hentry hnow hlive hmem).mp (hall record hmem).2.2.2.2
    · intro h served hentry hget
      simp only [DnsCache.get, hentry] at hget
      split at hget
      · simp at hget
      next hlive =>
      obtain rfl := Option.some.inj hget
      rw [not_le] at hlive
      rw [StoredEntry.served, List.forall₂_map_left_iff, List.forall₂_same]
      intro record hmem
      exact ⟨rfl, rfl, rfl, rfl,
        (hs.cache.within_iff hentry hnow hlive hmem).mpr (h hentry hlive record hmem)⟩
  | set _ _ _ _ | setNegative _ _ _ _ | setNoData _ _ _ _ | clear => exact Iff.rfl

end DnsCacheRun

end Tnp.Client
