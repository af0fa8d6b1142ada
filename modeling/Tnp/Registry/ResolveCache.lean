import Mathlib.Data.NNRat.Defs
import Mathlib.Data.Rat.Floor
import Tnp.Lib.Countdown
import Tnp.Lib.Recency
import Tnp.Lib.Run
import Tnp.Registry.Resolution

/-!
The registry's cache of answers.

What it holds counts down in whole seconds, rounded so that nothing lives longer than was asked.
Clocks are milliseconds, and may stand between two of them.
-/

namespace Tnp.Registry

open Tnp.Lib Tnp.Crypto

structure ResolveCacheOptions where
  maxEntries : ℕ
  maxTtlSeconds : ℤ
  negativeTtlSeconds : ℤ

structure ResolveCacheEntry where
  response : DnsResolveResponse
  storedAt : ℚ
  expiresAt : ℚ

structure ResolveCache where
  entries : OrderedMap String ResolveCacheEntry := {}

def MAX_NAME_LENGTH : ℕ := 253

/-- `CACHEABLE_TYPE_RE` -/
def isCacheableType (qtype : String) : Bool :=
  1 ≤ qtype.toList.length && qtype.toList.length ≤ 10 &&
    qtype.toList.all fun c => ('A' ≤ c && c ≤ 'Z') || c.isDigit

def ResolveCache.key (name qtype : String) : Option String :=
  if MAX_NAME_LENGTH < utf16Length name || !isCacheableType qtype then none
  else some (qtype ++ " " ++ name)

/-- What is served of an entry: its answers with what is left of their lives. -/
def ResolveCacheEntry.served (entry : ResolveCacheEntry) (now : ℚ) : DnsResolveResponse :=
  let elapsed := ⌈(now - entry.storedAt) / 1000⌉
  if elapsed ≤ 0 then entry.response
  else
    { entry.response with
      answers := entry.response.answers.map fun answer =>
        { answer with ttl := max 0 (answer.ttl - elapsed) } }

namespace ResolveCache

variable (options : ResolveCacheOptions) (cache : ResolveCache)

/-- What is served, and the cache without the entry where that has expired. -/
def get (now : ℚ) (name qtype : String) : Option DnsResolveResponse × ResolveCache :=
  match key name qtype with
  | none => (none, cache)
  | some key =>
    match cache.entries.get key with
    | none => (none, cache)
    | some entry =>
      if entry.expiresAt ≤ now then (none, ⟨cache.entries.delete key⟩)
      else (some (entry.served now), cache)

def ttlFor (response : DnsResolveResponse) : ℤ :=
  match response.rcode, response.answers.map (·.ttl) with
  | .NOERROR, ttl :: ttls => max 0 (min (ttls.foldl min ttl) options.maxTtlSeconds)
  | _, _ => min options.negativeTtlSeconds options.maxTtlSeconds

def set (now : ℚ) (name qtype : String) (response : DnsResolveResponse) (notAfter : Option ℚ) :
    ResolveCache :=
  match key name qtype with
  | none => cache
  | some key =>
    let ttl := ttlFor options response
    if ttl ≤ 0 then cache
    else
      let lapses : ℚ := now + ttl * 1000
      let expiresAt := notAfter.elim lapses (min lapses)
      if expiresAt ≤ now then cache
      else
        ⟨((cache.entries.delete key).set key ⟨response, now, expiresAt⟩).latest options.maxEntries⟩

end ResolveCache

/-- An overlay is only true while its node's heartbeat is fresh and its certificate not ended. -/
def overlayNotAfter (facts : NameFacts ServiceNodeFacts) (answer : DnsResolveResponse) : Option ℚ :=
  match facts, answer.overlay with
  | .native _ _ (some domain), some overlay =>
    domain.node.map fun node =>
      let stale : ℚ := node.lastSeen + SERVICE_NODE_STALE_AFTER_MS
      match overlay.kaCert.get "notAfter" with
      | .number notAfter => min stale (notAfter * 1000)
      | _ => stale
  | _, _ => none

/-- `GET /dns/resolve` for a name. The facts are read where nothing is cached. -/
def resolve (options : ResolveCacheOptions) (cache : ResolveCache) (now : ℚ)
    (facts : NameFacts ServiceNodeFacts) (parkingIp : String) (expiryEnforced : Bool)
    (fqdn qtype : String) : DnsResolveResponse × ResolveCache :=
  match cache.get now fqdn qtype with
  | (some cached, cache) => (cached, cache)
  | (none, cache) =>
    let answer := decideResolution facts qtype ⟨parkingIp, expiryEnforced, ⌊now⌋⟩
    (answer, cache.set options now fqdn qtype answer (overlayNotAfter facts answer))

/-! ### Lives -/

/-- No records come with an error. -/
def DnsResolveResponse.IsPlain (response : DnsResolveResponse) : Prop :=
  response.rcode = .NXDOMAIN → response.answers = []

/-- What resolution answers may be put. -/
lemma isPlain_decideResolution (facts : NameFacts ServiceNodeFacts) (qtype : String)
    (settings : ResolutionSettings) : (decideResolution facts qtype settings).IsPlain := by
  unfold DnsResolveResponse.IsPlain decideResolution
  cases facts with
  | notNative fqdn => simp
  | native fqdn tldCustom domain =>
    dsimp only
    split
    next => split <;> simp
    next served hserved =>
      split
      · simp
      split
      · split
        · simp
        · split <;> simp
      · simp

section Lives

variable {options : ResolveCacheOptions} {cache : ResolveCache} {clock now : ℚ}
  {name qtype : String} {response : DnsResolveResponse} {notAfter : Option ℚ}

/-- What the cache keeps to, whatever is put. -/
structure ResolveCache.Bounded (options : ResolveCacheOptions) (clock : ℚ) (cache : ResolveCache) :
    Prop where
  size_le : cache.entries.size ≤ options.maxEntries
  storedAt_le : ∀ key entry, cache.entries.get key = some entry → entry.storedAt ≤ clock

/-- What it keeps to where no records were put with an error. -/
structure ResolveCache.Sound (options : ResolveCacheOptions) (clock : ℚ) (cache : ResolveCache) :
    Prop extends cache.Bounded options clock where
  expiresAt_le : ∀ key entry, cache.entries.get key = some entry →
    ∀ answer ∈ entry.response.answers, entry.expiresAt ≤ entry.storedAt + 1000 * answer.ttl

/-- No answer that comes with no error outlives its entry. -/
lemma ttlFor_le {response : DnsResolveResponse} (hplain : response.IsPlain)
    (hpos : 0 < ResolveCache.ttlFor options response) :
    ∀ answer ∈ response.answers, ResolveCache.ttlFor options response ≤ answer.ttl := by
  intro answer hmem
  have hcode : response.rcode = .NOERROR := by
    cases hrcode : response.rcode with
    | NOERROR => rfl
    | NXDOMAIN => simp [hplain hrcode] at hmem
  unfold ResolveCache.ttlFor at hpos ⊢
  have httl : answer.ttl ∈ response.answers.map (·.ttl) := List.mem_map_of_mem hmem
  rw [hcode] at hpos ⊢
  cases hmap : response.answers.map (·.ttl) with
  | nil => simp [hmap] at httl
  | cons ttl ttls =>
    rw [hmap] at hpos httl
    dsimp only at hpos ⊢
    have hle := foldl_min_le ttl ttls _ httl
    omega

lemma held_get {key : String} {entry : ResolveCacheEntry}
    (h : (cache.get now name qtype).2.entries.get key = some entry) :
    cache.entries.get key = some entry := by
  unfold ResolveCache.get at h
  split at h
  · exact h
  split at h
  · exact h
  split at h
  · rw [OrderedMap.get_delete] at h
    split at h
    · simp at h
    · exact h
  · exact h

/-- After an answer is put, there is it and what was there. -/
lemma held_set {key : String} {entry : ResolveCacheEntry}
    (h : (cache.set options now name qtype response notAfter).entries.get key = some entry) :
    cache.entries.get key = some entry ∨
      ResolveCache.key name qtype = some key ∧ entry.response = response ∧
        entry.storedAt = now ∧ 0 < ResolveCache.ttlFor options response ∧
        entry.expiresAt ≤ now + 1000 * ResolveCache.ttlFor options response := by
  unfold ResolveCache.set at h
  split at h
  · exact .inl h
  next key' hkey =>
  dsimp only at h
  split at h
  · exact .inl h
  next hpos =>
  split at h
  · exact .inl h
  have hget := OrderedMap.get_of_get_latest h
  rw [OrderedMap.get_set, OrderedMap.get_delete] at hget
  by_cases hsame : key' = key
  · rw [if_pos hsame] at hget
    obtain rfl := Option.some.inj hget
    refine .inr ⟨hsame ▸ hkey, rfl, rfl, not_le.mp hpos, ?_⟩
    cases notAfter with
    | none => simp [mul_comm]
    | some t => exact (min_le_left _ _).trans (by simp [mul_comm])
  · rw [if_neg hsame, if_neg hsame] at hget
    exact .inl hget

namespace ResolveCache.Bounded

lemma mono (h : cache.Bounded options clock) (hnow : clock ≤ now) : cache.Bounded options now :=
  ⟨h.size_le, fun key entry hheld => (h.storedAt_le key entry hheld).trans hnow⟩

lemma get (h : cache.Bounded options clock) (now : ℚ) (name qtype : String) :
    (cache.get now name qtype).2.Bounded options clock := by
  refine ⟨?_, fun key entry hheld => h.storedAt_le key entry (held_get hheld)⟩
  unfold ResolveCache.get
  split
  · exact h.size_le
  split
  · exact h.size_le
  split
  · exact OrderedMap.size_delete_le.trans h.size_le
  · exact h.size_le

lemma set (h : cache.Bounded options now) (name qtype : String) (response : DnsResolveResponse)
    (notAfter : Option ℚ) :
    (cache.set options now name qtype response notAfter).Bounded options now := by
  refine ⟨?_, fun key entry hheld => ?_⟩
  · unfold ResolveCache.set
    split
    · exact h.size_le
    dsimp only
    split
    · exact h.size_le
    split
    · exact h.size_le
    · exact OrderedMap.size_latest_le _ _
  · rcases held_set hheld with hold | ⟨-, -, hstored, -, -⟩
    · exact h.storedAt_le key entry hold
    · exact hstored.le

end ResolveCache.Bounded

namespace ResolveCache.Sound

lemma mono (h : cache.Sound options clock) (hnow : clock ≤ now) : cache.Sound options now :=
  ⟨h.toBounded.mono hnow, h.expiresAt_le⟩

lemma get (h : cache.Sound options clock) (now : ℚ) (name qtype : String) :
    (cache.get now name qtype).2.Sound options clock :=
  ⟨h.toBounded.get now name qtype,
    fun key entry hheld => h.expiresAt_le key entry (held_get hheld)⟩

lemma set (h : cache.Sound options now) (hplain : response.IsPlain) (name qtype : String)
    (notAfter : Option ℚ) :
    (cache.set options now name qtype response notAfter).Sound options now := by
  refine ⟨h.toBounded.set name qtype response notAfter, fun key entry hheld => ?_⟩
  rcases held_set hheld with hold | ⟨-, rfl, rfl, hpos, hexpires⟩
  · exact h.expiresAt_le key entry hold
  · intro answer hmem
    have hle := Int.cast_le (R := ℚ).mpr (ttlFor_le hplain hpos answer hmem)
    linarith

end ResolveCache.Sound

/-- What is left of an answer when it is served. -/
def ResolveCacheEntry.left (entry : ResolveCacheEntry) (now : ℚ) (answer : DnsResolveAnswer) : ℤ :=
  max 0 (answer.ttl - ⌈(now - entry.storedAt) / 1000⌉)

/-- What was stored before is served with what is left of it. -/
lemma ResolveCacheEntry.served_answers_of_lt {entry : ResolveCacheEntry}
    (hstored : entry.storedAt < now) : (entry.served now).answers =
      entry.response.answers.map fun answer => { answer with ttl := entry.left now answer } := by
  have hpos : 0 < ⌈(now - entry.storedAt) / 1000⌉ :=
    Int.ceil_pos.mpr (div_pos (sub_pos.mpr hstored) (by norm_num))
  unfold served
  dsimp only
  rw [if_neg (not_le.mpr hpos)]
  rfl

/-- What was stored just now is served as it is. -/
lemma ResolveCacheEntry.served_self {entry : ResolveCacheEntry} :
    entry.served entry.storedAt = entry.response := by
  simp [served]

lemma ResolveCacheEntry.served_overlay {entry : ResolveCacheEntry} :
    (entry.served now).overlay = entry.response.overlay := by
  unfold served
  dsimp only
  split
  · rfl
  · rfl

/-- An entry that is live serves each of its answers with what is left of it. -/
lemma ResolveCacheEntry.served_answers {entry : ResolveCacheEntry} (hstored : entry.storedAt ≤ now)
    (hlive : ∀ answer ∈ entry.response.answers, now ≤ entry.storedAt + 1000 * answer.ttl) :
    (entry.served now).answers =
      entry.response.answers.map fun answer => { answer with ttl := entry.left now answer } := by
  rcases hstored.eq_or_lt with rfl | hlt
  · rw [served_self]
    refine (List.map_id _).symm.trans (List.map_congr_left fun answer hmem => ?_)
    have hlife : (0 : ℚ) ≤ answer.ttl := by linarith [hlive answer hmem]
    have hlife : 0 ≤ answer.ttl := by exact_mod_cast hlife
    simp [left, hlife]
  · exact served_answers_of_lt hlt

end Lives

/-! ### Runs -/

inductive ResolveCacheCall
  | get (name qtype : String)
  | set (name qtype : String) (response : DnsResolveResponse) (notAfter : Option ℚ)

/-- A call, and how long after the last one it comes. -/
structure ResolveCacheEvent where
  wait : NNRat
  call : ResolveCacheCall

/-- The cache and the clock, with every answer that was put. -/
structure ResolveCacheRun where
  clock : ℚ
  cache : ResolveCache := {}
  puts : List (Option String × ℚ × DnsResolveResponse) := []

namespace ResolveCacheRun

variable (options : ResolveCacheOptions)

def step (s : ResolveCacheRun) (e : ResolveCacheEvent) : ResolveCacheRun :=
  let now := s.clock + e.wait
  match e.call with
  | .get name qtype => { s with clock := now, cache := (s.cache.get now name qtype).2 }
  | .set name qtype response notAfter =>
    { clock := now
      cache := s.cache.set options now name qtype response notAfter
      puts := (ResolveCache.key name qtype, now, response) :: s.puts }

/-- What is served of an entry ends when the entry's own answers do. -/
def Kept (s : ResolveCacheRun) (e : ResolveCacheEvent) : Prop :=
  match e.call with
  | .get name qtype => ∀ entry response,
      (ResolveCache.key name qtype).bind s.cache.entries.get = some entry →
      (s.cache.get (s.clock + e.wait) name qtype).1 = some response →
        List.Forall₂ (fun served stored : DnsResolveAnswer => served.name = stored.name ∧
          served.type = stored.type ∧ served.value = stored.value ∧
          Within 1000 (s.clock + e.wait) (served.ttl : ℚ) entry.storedAt stored.ttl)
        response.answers entry.response.answers
  | .set _ _ _ _ => True

/-- What is served of an entry stored before has not ended. -/
def Lasting (s : ResolveCacheRun) (e : ResolveCacheEvent) : Prop :=
  match e.call with
  | .get name qtype => ∀ entry,
      (ResolveCache.key name qtype).bind s.cache.entries.get = some entry →
      entry.storedAt < s.clock + e.wait → s.clock + e.wait < entry.expiresAt →
        ∀ answer ∈ entry.response.answers, s.clock + e.wait ≤ entry.storedAt + 1000 * answer.ttl
  | .set _ _ _ _ => True

/-- What is put has no records with an error. -/
def PutsPlain (e : ResolveCacheEvent) : Prop :=
  match e.call with
  | .get _ _ => True
  | .set _ _ response _ => response.IsPlain

/-- Every entry is one that was put, and there are never more than there may be. -/
structure Bounded (s : ResolveCacheRun) : Prop where
  cache : s.cache.Bounded options s.clock
  put : ∀ key entry, s.cache.entries.get key = some entry →
    (some key, entry.storedAt, entry.response) ∈ s.puts

variable {options} {s : ResolveCacheRun} {e : ResolveCacheEvent}

lemma Bounded.step (hs : s.Bounded options) (e : ResolveCacheEvent) :
    (s.step options e).Bounded options := by
  have hwait : s.clock ≤ s.clock + e.wait := le_add_of_nonneg_right e.wait.coe_nonneg
  unfold ResolveCacheRun.step
  cases e.call with
  | get name qtype =>
    exact ⟨(hs.cache.mono hwait).get _ _ _, fun key entry h => hs.put key entry (held_get h)⟩
  | set name qtype response notAfter =>
    refine ⟨(hs.cache.mono hwait).set _ _ _ _, fun key entry h => ?_⟩
    rcases held_set h with hold | ⟨hkey, rfl, hstored, -, -⟩
    · exact List.mem_cons_of_mem _ (hs.put key entry hold)
    · simp [hkey, hstored]

/-- The cache counts down by the seconds that have begun, and no further than to zero. -/
lemma Bounded.kept_iff (hs : s.Bounded options) (e : ResolveCacheEvent) :
    s.Kept e ↔ s.Lasting e := by
  unfold Kept Lasting
  cases e.call with
  | set name qtype response notAfter => exact Iff.rfl
  | get name qtype =>
    refine forall_congr' fun entry => ?_
    constructor
    · intro h hentry hstored hlive answer hmem
      obtain ⟨key, hkey, hheld⟩ := Option.bind_eq_some_iff.mp hentry
      have hget : (s.cache.get (s.clock + e.wait) name qtype).1 =
          some (entry.served (s.clock + e.wait)) := by
        simp [ResolveCache.get, hkey, hheld, not_le.mpr hlive]
      have hall := h _ hentry hget
      rw [entry.served_answers_of_lt hstored, List.forall₂_map_left_iff, List.forall₂_same] at hall
      have hwithin := (hall answer hmem).2.2.2
      have hleft : (0 : ℚ) ≤ entry.left (s.clock + e.wait) answer :=
        Int.cast_nonneg (le_max_left _ _)
      rw [Within] at hwithin
      linarith
    · intro h response hentry hget
      obtain ⟨key, hkey, hheld⟩ := Option.bind_eq_some_iff.mp hentry
      simp only [ResolveCache.get, hkey, hheld] at hget
      split at hget
      · simp at hget
      next hlive =>
      obtain rfl := Option.some.inj hget
      have hstored : entry.storedAt ≤ s.clock + e.wait :=
        (hs.cache.storedAt_le key entry hheld).trans (le_add_of_nonneg_right e.wait.coe_nonneg)
      rcases hstored.eq_or_lt with heq | hlt
      · rw [← heq, entry.served_self, List.forall₂_same]
        exact fun answer _ => ⟨rfl, rfl, rfl, le_refl _⟩
      · rw [entry.served_answers_of_lt hlt, List.forall₂_map_left_iff, List.forall₂_same]
        intro answer hmem
        refine ⟨rfl, rfl, rfl, ?_⟩
        have hlast := h hentry hlt (not_le.mp hlive) answer hmem
        have hwithin := within_ceil (by norm_num : (0 : ℚ) < 1000) hlast
        simpa [ResolveCacheEntry.left] using hwithin

/-- Where no records are put with an error, nothing is served that has ended. -/
theorem allowed_lasting_of_plain {es : List ResolveCacheEvent} (hes : ∀ e ∈ es, PutsPlain e)
    (hs : s.cache.Sound options s.clock) : Run.Allowed (step options) Lasting s es := by
  have hkeeps : ∀ s e, PutsPlain e → s.cache.Sound options s.clock →
      (step options s e).cache.Sound options (step options s e).clock := by
    intro s e he hs
    have hwait : s.clock ≤ s.clock + e.wait := le_add_of_nonneg_right e.wait.coe_nonneg
    unfold ResolveCacheRun.step PutsPlain at *
    cases hcall : e.call with
    | get name qtype => exact (hs.mono hwait).get _ _ _
    | set name qtype response notAfter =>
      rw [hcall] at he
      exact (hs.mono hwait).set he _ _ _
  have hlasts : ∀ s e, PutsPlain e → s.cache.Sound options s.clock → Lasting s e := by
    intro s e _ hs
    unfold Lasting
    cases e.call with
    | set name qtype response notAfter => trivial
    | get name qtype =>
      intro entry hentry _ hlive answer hmem
      obtain ⟨key, -, hheld⟩ := Option.bind_eq_some_iff.mp hentry
      exact hlive.le.trans (hs.expiresAt_le key entry hheld answer hmem)
  exact Run.allowed_of_invariant hkeeps hlasts hs (Run.allowed_of_forall hes)

end ResolveCacheRun

end Tnp.Registry
