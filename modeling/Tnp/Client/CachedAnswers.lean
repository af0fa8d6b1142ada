import Tnp.Client.DnsCache
import Tnp.Registry.ResolveCache

/-!
Answers of the registry, through its own cache and the client's.

A client asks the registry for what it has not cached, and the registry reads the record where it
has not cached it either. Each record the client holds is traced back to that reading.
-/

namespace Tnp.Client.CachedAnswers

open Tnp.Lib Tnp.Namespace Tnp.SharedTypes Tnp.Registry

def OVERLAY_TTL_SECONDS : ℚ := 60
def MAX_OVERLAY_CACHE : ℕ := 1024

/-! ### The client's lookup -/

structure ResolveResponse (α : Type*) where
  answers : List (CachedRecord α)
  overlay : Option DnsResolveOverlay
  rcode : DnsResolveRcode

inductive NativeResult (α : Type*)
  | nxdomain
  | nodata
  | answers (records : List (CachedRecord α))

def NativeResult.records {α : Type*} : NativeResult α → List (CachedRecord α)
  | .answers records => records
  | _ => []

/-- What `DnsProxy` keeps of native names. -/
structure DnsProxy (α : Type*) where
  overlayEnabled : Bool
  cache : DnsCache α := {}
  overlayCache : OrderedMap String DnsResolveOverlay := {}

section Lookup

variable {α : Type*} (toLowerCase toUpperCase : String → String)

/-- The TTL of the answer that is sent for a record. -/
def answerTtl (record : CachedRecord α) : ℚ := if 0 < record.ttl then record.ttl else 3600

def resultOf (cached : CacheEntry α) : NativeResult α :=
  if cached.negative then .nxdomain
  else if cached.records.isEmpty then .nodata
  else .answers cached.records

def rememberOverlay (overlays : OrderedMap String DnsResolveOverlay) (clean : String)
    (overlay : DnsResolveOverlay) : OrderedMap String DnsResolveOverlay :=
  let others := overlays.delete clean
  let kept := if MAX_OVERLAY_CACHE ≤ others.size then others.latest (others.size - 1) else others
  kept.set clean overlay

/-- The query is answered with this machine, where the name is reached by the overlay. -/
def answersOverlay (proxy : DnsProxy α) (overlay : Option DnsResolveOverlay) (type : String) :
    Bool :=
  proxy.overlayEnabled && overlay.any (·.available) && (type = "A" || type = "ANY")

def withOverlay (proxy : DnsProxy α) (clean : String) (response : ResolveResponse α) : DnsProxy α :=
  match response.overlay.filter fun overlay => proxy.overlayEnabled && overlay.available with
  | some overlay => { proxy with overlayCache := rememberOverlay proxy.overlayCache clean overlay }
  | none => proxy

/-- What is made of the registry's answer. The record that is made up here is `own`. -/
def answerWith (proxy : DnsProxy α) (now later : ℚ) (clean type : String) (own : α)
    (response : ResolveResponse α) : NativeResult α × DnsProxy α :=
  let proxy := withOverlay proxy clean response
  if answersOverlay proxy response.overlay type then
    let synthetic : List (CachedRecord α) := [⟨clean, "A", "127.0.0.1", OVERLAY_TTL_SECONDS, own⟩]
    (.answers synthetic,
      { proxy with
        cache := proxy.cache.set toLowerCase toUpperCase now later clean type synthetic })
  else if response.answers.isEmpty then
    if response.rcode = .NOERROR then
      (.nodata,
        { proxy with
          cache := proxy.cache.setNoData toLowerCase toUpperCase now later clean type none })
    else
      (.nxdomain,
        { proxy with
          cache := proxy.cache.setNegative toLowerCase toUpperCase now later clean type none })
  else
    (.answers response.answers,
      { proxy with
        cache := proxy.cache.set toLowerCase toUpperCase now later clean type response.answers })

/-- `resolveTnp`. What answers for the registry is threaded through. -/
def resolveTnp {R : Type*} (proxy : DnsProxy α) (now later : ℚ) (own : α) (registry : R)
    (resolveWithOverlay : R → String → String → ResolveResponse α × R) (name type : String) :
    NativeResult α × DnsProxy α × R :=
  let clean := normalizeName toLowerCase name
  match proxy.cache.get toLowerCase toUpperCase now clean type with
  | (some cached, cache) => (resultOf cached, { proxy with cache }, registry)
  | (none, cache) =>
    let answered := resolveWithOverlay registry clean type
    let made := answerWith toLowerCase toUpperCase { proxy with cache } now later clean type own
      answered.1
    (made.1, made.2, answered.2)

end Lookup

/-! ### Both caches -/

/-- When the registry read a record, and the life it had. -/
structure Origin where
  readAt : ℚ
  life : ℤ

/-- What the registry reads of a name where it has not cached the answer. -/
structure Reading where
  facts : NameFacts ServiceNodeFacts
  parkingIp : String
  expiryEnforced : Bool

inductive ChainCall
  /-- Someone else asks the registry. -/
  | ask (fqdn qtype : String) (reading : Reading)
  | lookup (name type : String) (reading : Reading) (evictAfter : NNRat)

structure ChainEvent where
  wait : NNRat
  call : ChainCall

structure Chain where
  clock : ℚ
  registry : ResolveCache := {}
  proxy : DnsProxy (Option Origin)

section Chain

variable (options : ResolveCacheOptions) (toLowerCase toUpperCase : String → String)

def Reading.answer (reading : Reading) (now : ℚ) (qtype : String) : DnsResolveResponse :=
  decideResolution reading.facts qtype ⟨reading.parkingIp, reading.expiryEnforced, ⌊now⌋⟩

/-- The entry that an answer of the registry is served from. -/
def sourceOf (registry : ResolveCache) (now : ℚ) (fqdn qtype : String) (reading : Reading) :
    ResolveCacheEntry :=
  (((ResolveCache.key fqdn qtype).bind registry.entries.get).filter fun entry =>
    now < entry.expiresAt).getD ⟨reading.answer now qtype, now, now⟩

/-- The registry's answer, with the origin of every record in it. -/
def traced (registry : ResolveCache) (now : ℚ) (reading : Reading) (clean type : String) :
    ResolveResponse (Option Origin) × ResolveCache :=
  let fqdn := normalizeName toLowerCase clean
  let qtype := toUpperCase type
  let source := sourceOf registry now fqdn qtype reading
  let answered := resolve options registry now reading.facts reading.parkingIp
    reading.expiryEnforced fqdn qtype
  let answers := List.zipWith (fun (answer stored : DnsResolveAnswer) =>
    (⟨answer.name, answer.type, answer.value, answer.ttl, some ⟨source.storedAt, stored.ttl⟩⟩ :
      CachedRecord (Option Origin))) answered.1.answers source.response.answers
  (⟨answers, answered.1.overlay, answered.1.rcode⟩, answered.2)

namespace Chain

/-- What a lookup at this time gives, and leaves. -/
def lookup (s : Chain) (now later : ℚ) (name type : String) (reading : Reading) :
    NativeResult (Option Origin) × DnsProxy (Option Origin) × ResolveCache :=
  resolveTnp toLowerCase toUpperCase s.proxy now later none s.registry
    (fun registry clean type => traced options toLowerCase toUpperCase registry now reading clean
      type) name type

def step (s : Chain) (e : ChainEvent) : Chain :=
  let now := s.clock + e.wait
  match e.call with
  | .ask fqdn qtype reading =>
    { s with
      clock := now
      registry := (resolve options s.registry now reading.facts reading.parkingIp
        reading.expiryEnforced fqdn qtype).2 }
  | .lookup name type reading evictAfter =>
    let looked :=
      s.lookup options toLowerCase toUpperCase now (now + evictAfter) name type reading
    { clock := now + evictAfter, registry := looked.2.2, proxy := looked.2.1 }

/-- No answer to a lookup ends after the record that the registry read. -/
def Kept (s : Chain) (e : ChainEvent) : Prop :=
  let now := s.clock + e.wait
  match e.call with
  | .ask _ _ _ => True
  | .lookup name type reading evictAfter =>
    ∀ record ∈ (s.lookup options toLowerCase toUpperCase now (now + evictAfter) name type
        reading).1.records, ∀ origin, record.rest = some origin →
      Within 1000 now (answerTtl record) origin.readAt origin.life

/-- What the client holds has a second left, and gained no more since than the registry had
rounded off; what it asks for has a second left too. -/
def Timely (s : Chain) (e : ChainEvent) : Prop :=
  let now := s.clock + e.wait
  match e.call with
  | .ask _ _ _ => True
  | .lookup name type reading _ =>
    let clean := normalizeName toLowerCase name
    let source := sourceOf s.registry now (normalizeName toLowerCase clean) (toUpperCase type)
      reading
    match (s.proxy.cache.entries.get (cacheKey toLowerCase toUpperCase clean type)).filter
        fun entry => now < entry.expiresAt with
    | some entry => ∀ record ∈ entry.records, ∀ origin, record.rest = some origin →
        1 ≤ record.ttl ∧ 1000 * Int.fract ((now - entry.storedAt) / 1000) ≤
          (origin.readAt + 1000 * origin.life) - (entry.storedAt + 1000 * record.ttl)
    | none =>
      answersOverlay s.proxy source.response.overlay type = false →
        ∀ answer ∈ source.response.answers, ⌈(now - source.storedAt) / 1000⌉ < answer.ttl

end Chain

end Chain

/-! ### What the registry answers -/

section Registry

variable {options : ResolveCacheOptions} {toLowerCase toUpperCase : String → String}
  {registry : ResolveCache} {clock now later : ℚ} {fqdn qtype clean type : String}
  {reading : Reading}

lemma ttl_nonneg {answer : DnsResolveAnswer}
    (h : answer ∈ (reading.answer now qtype).answers) : 0 ≤ answer.ttl := by
  rcases answer_cases h with ⟨fqdn, domain, -, record, -, rfl⟩ | ⟨hparking, -⟩
  · exact Int.natCast_nonneg _
  · unfold parkingAnswers at hparking
    split at hparking
    · rw [List.mem_singleton.mp hparking]
      exact Int.le_of_lt (by decide : 0 < PARKING_TTL_SECONDS)
    · simp at hparking

lemma sourceOf_cases (registry : ResolveCache) (now : ℚ) (fqdn qtype : String)
    (reading : Reading) :
    (∃ key, ResolveCache.key fqdn qtype = some key ∧
      registry.entries.get key = some (sourceOf registry now fqdn qtype reading) ∧
      now < (sourceOf registry now fqdn qtype reading).expiresAt ∧
      (registry.get now fqdn qtype).1 =
        some ((sourceOf registry now fqdn qtype reading).served now)) ∨
    sourceOf registry now fqdn qtype reading = ⟨reading.answer now qtype, now, now⟩ ∧
      (registry.get now fqdn qtype).1 = none := by
  unfold sourceOf ResolveCache.get
  cases hkey : ResolveCache.key fqdn qtype with
  | none => exact .inr ⟨rfl, rfl⟩
  | some key =>
    cases hentry : registry.entries.get key with
    | none => simp [hentry]
    | some entry =>
      by_cases hlive : now < entry.expiresAt
      · left
        simp [hentry, Option.filter_some, hlive, not_le.mpr hlive]
      · right
        simp [hentry, Option.filter_some, hlive, not_lt.mp hlive]

/-- What is served comes from an entry whose records have not ended. -/
lemma source_spec (h : registry.Sound options clock) (hnow : clock ≤ now) (fqdn qtype : String)
    (reading : Reading) :
    (resolve options registry now reading.facts reading.parkingIp reading.expiryEnforced fqdn
        qtype).1 = (sourceOf registry now fqdn qtype reading).served now ∧
      (sourceOf registry now fqdn qtype reading).storedAt ≤ now ∧
      ∀ answer ∈ (sourceOf registry now fqdn qtype reading).response.answers,
        now ≤ (sourceOf registry now fqdn qtype reading).storedAt + 1000 * (answer.ttl : ℚ) := by
  rcases sourceOf_cases registry now fqdn qtype reading with
    ⟨key, -, hheld, hlive, hget⟩ | ⟨hfresh, hget⟩
  · refine ⟨?_, (h.storedAt_le key _ hheld).trans hnow, fun answer hmem => ?_⟩
    · unfold resolve
      rw [← Prod.mk.eta (p := registry.get now fqdn qtype), hget]
    · exact hlive.le.trans (h.expiresAt_le key _ hheld answer hmem)
  · rw [hfresh]
    refine ⟨?_, le_refl now, fun answer hmem => ?_⟩
    · unfold resolve
      rw [← Prod.mk.eta (p := registry.get now fqdn qtype), hget]
      simp [ResolveCacheEntry.served, Reading.answer]
    · have hnonneg : (0 : ℚ) ≤ answer.ttl := Int.cast_nonneg (ttl_nonneg hmem)
      dsimp only
      linarith

lemma sound_resolve (h : registry.Sound options clock) (hnow : clock ≤ now) (fqdn qtype : String)
    (reading : Reading) :
    (resolve options registry now reading.facts reading.parkingIp reading.expiryEnforced fqdn
      qtype).2.Sound options now := by
  have hget := (h.mono hnow).get now fqdn qtype
  unfold resolve
  split
  next cached cache heq =>
    rw [heq] at hget
    exact hget
  next cache heq =>
    rw [heq] at hget
    exact hget.set (isPlain_decideResolution _ _ _) _ _ _

/-- The record that an answer is traced as. -/
def tracedRecord (source : ResolveCacheEntry) (now : ℚ) (stored : DnsResolveAnswer) :
    CachedRecord (Option Origin) :=
  ⟨stored.name, stored.type, stored.value, source.left now stored,
    some ⟨source.storedAt, stored.ttl⟩⟩

lemma traced_answers (h : registry.Sound options clock) (hnow : clock ≤ now) :
    (traced options toLowerCase toUpperCase registry now reading clean type).1.answers =
      (sourceOf registry now (normalizeName toLowerCase clean) (toUpperCase type)
        reading).response.answers.map (tracedRecord (sourceOf registry now
          (normalizeName toLowerCase clean) (toUpperCase type) reading) now) := by
  obtain ⟨hserved, hstored, hlast⟩ := source_spec h hnow (normalizeName toLowerCase clean)
    (toUpperCase type) reading
  unfold traced
  dsimp only
  rw [hserved, ResolveCacheEntry.served_answers hstored hlast, List.zipWith_map_left,
    List.zipWith_self]
  rfl

lemma traced_overlay (h : registry.Sound options clock) (hnow : clock ≤ now) :
    (traced options toLowerCase toUpperCase registry now reading clean type).1.overlay =
      (sourceOf registry now (normalizeName toLowerCase clean) (toUpperCase type)
        reading).response.overlay := by
  obtain ⟨hserved, -, -⟩ := source_spec h hnow (normalizeName toLowerCase clean)
    (toUpperCase type) reading
  unfold traced
  dsimp only
  rw [hserved, ResolveCacheEntry.served_overlay]

/-- A record of which a whole second is not left ends before a second has passed. -/
lemma ends_of_left {source : ResolveCacheEntry} {stored : DnsResolveAnswer}
    (h : ¬ ⌈(now - source.storedAt) / 1000⌉ < stored.ttl) :
    source.left now stored = 0 ∧ source.storedAt + 1000 * (stored.ttl : ℚ) < now + 1000 := by
  rw [not_lt] at h
  refine ⟨max_eq_left (sub_nonpos.mpr h), ?_⟩
  have hceil := Int.ceil_lt_add_one ((now - source.storedAt) / 1000)
  have hle : (stored.ttl : ℚ) ≤ ⌈(now - source.storedAt) / 1000⌉ := Int.cast_le.mpr h
  have hlt : (stored.ttl : ℚ) - 1 < (now - source.storedAt) / 1000 := by linarith
  rw [lt_div_iff₀ (by norm_num)] at hlt
  linarith

lemma left_of_lt {source : ResolveCacheEntry} {stored : DnsResolveAnswer}
    (h : ⌈(now - source.storedAt) / 1000⌉ < stored.ttl) : 1 ≤ source.left now stored :=
  le_max_of_le_right (by omega)

/-- What is sent of an answer just obtained ends with the record, where a second of it is left. -/
lemma within_fresh_iff {source : ResolveCacheEntry} {stored : DnsResolveAnswer}
    (hlast : now ≤ source.storedAt + 1000 * (stored.ttl : ℚ)) :
    Within 1000 now (answerTtl (tracedRecord source now stored)) source.storedAt stored.ttl ↔
      ⌈(now - source.storedAt) / 1000⌉ < stored.ttl := by
  constructor
  · intro hwithin
    by_contra hnot
    obtain ⟨hleft, hends⟩ := ends_of_left hnot
    simp only [answerTtl, tracedRecord, hleft, Int.cast_zero, lt_self_iff_false, if_false,
      Within] at hwithin
    linarith
  · intro hlt
    have hleft : (1 : ℚ) ≤ source.left now stored := by exact_mod_cast left_of_lt hlt
    have hwithin := within_ceil (by norm_num : (0 : ℚ) < 1000) hlast
    rw [answerTtl, if_pos (by simp only [tracedRecord]; linarith)]
    simpa [tracedRecord, ResolveCacheEntry.left] using hwithin

end Registry

/-! ### What the client holds -/

section Client

variable {options : ResolveCacheOptions} {toLowerCase toUpperCase : String → String}
  {maxEntries : ℕ} {proxy : DnsProxy (Option Origin)} {s : Chain} {clock now later : ℚ}
  {clean type : String} {response : ResolveResponse (Option Origin)}

/-- Records with less than a second left end before one has passed. -/
def EndsSoon (storedAt : ℚ) (records : List (CachedRecord (Option Origin))) : Prop :=
  ∀ record ∈ records, ∀ origin, record.rest = some origin →
    1 ≤ record.ttl ∨ origin.readAt + 1000 * (origin.life : ℚ) < storedAt + 1000

structure Holds (maxEntries : ℕ) (clock : ℚ) (cache : DnsCache (Option Origin)) : Prop where
  sound : cache.Sound maxEntries clock
  negative : ∀ key entry, cache.entries.get key = some entry → entry.negative = true →
    entry.records = []
  ends : ∀ key entry, cache.entries.get key = some entry → EndsSoon entry.storedAt entry.records

lemma Holds.mono {cache : DnsCache (Option Origin)} (h : Holds maxEntries clock cache)
    (hnow : clock ≤ now) : Holds maxEntries now cache := ⟨h.sound.mono hnow, h.negative, h.ends⟩

lemma Holds.store {cache : DnsCache (Option Origin)} (h : Holds maxEntries now cache)
    (hlater : now ≤ later) (key : String) {put : CacheEntry (Option Origin)} {ttl : ℤ}
    (httl : ∀ record ∈ put.records, 1 ≤ record.ttl → ttl ≤ ⌊record.ttl⌋)
    (hnegative : put.negative = true → put.records = []) (hends : EndsSoon now put.records) :
    Holds maxEntries later (cache.store now later key put ttl) := by
  refine ⟨h.sound.store hlater key put httl, fun key' entry hheld => ?_, fun key' entry hheld => ?_⟩
  · rcases held_store hheld with hold | ⟨-, rfl⟩
    · exact h.negative key' entry hold
    · exact hnegative
  · rcases held_store hheld with hold | ⟨-, rfl⟩
    · exact h.ends key' entry hold
    · exact hends

variable (toLowerCase toUpperCase clean type) in
lemma Holds.set {cache : DnsCache (Option Origin)} (h : Holds maxEntries now cache)
    (hlater : now ≤ later) {records : List (CachedRecord (Option Origin))}
    (hends : EndsSoon now records) : Holds maxEntries later
      (cache.set toLowerCase toUpperCase now later clean type records) := by
  cases records with
  | nil => exact h.mono hlater
  | cons first rest =>
    refine h.store hlater _ (fun record hmem hone => clamp_le ?_ hone) (by simp) hends
    exact foldl_min_le first.ttl (rest.map (·.ttl)) record.ttl
      (List.mem_map_of_mem (f := (·.ttl)) hmem)

lemma cache_withOverlay : (withOverlay proxy clean response).cache = proxy.cache := by
  unfold withOverlay
  split
  · rfl
  · rfl

lemma answersOverlay_withOverlay :
    answersOverlay (withOverlay proxy clean response) response.overlay type =
      answersOverlay proxy response.overlay type := by
  unfold withOverlay answersOverlay
  split
  · rfl
  · rfl

lemma Holds.answerWith (h : Holds maxEntries now proxy.cache) (hlater : now ≤ later)
    (hends : EndsSoon now response.answers) : Holds maxEntries later
      (answerWith toLowerCase toUpperCase proxy now later clean type none response).2.cache := by
  unfold CachedAnswers.answerWith
  dsimp only
  rw [cache_withOverlay]
  split
  · have hown : EndsSoon now [(⟨clean, "A", "127.0.0.1", OVERLAY_TTL_SECONDS, none⟩ :
        CachedRecord (Option Origin))] := by
      intro record hmem origin horigin
      rw [List.mem_singleton.mp hmem] at horigin
      simp at horigin
    exact h.set toLowerCase toUpperCase clean type hlater hown
  split
  · split
    · exact h.store hlater _ (by simp) (by simp) (by simp [EndsSoon])
    · exact h.store hlater _ (by simp) (by simp) (by simp [EndsSoon])
  · exact h.set toLowerCase toUpperCase clean type hlater hends

/-- The records of what is made of the registry's answer. -/
lemma records_answerWith (own : Option Origin) :
    (answerWith toLowerCase toUpperCase proxy now later clean type own response).1.records =
      if answersOverlay proxy response.overlay type then
        [⟨clean, "A", "127.0.0.1", OVERLAY_TTL_SECONDS, own⟩]
      else response.answers := by
  unfold answerWith
  dsimp only
  rw [answersOverlay_withOverlay]
  split
  · rfl
  split
  next hempty =>
    rw [List.isEmpty_iff.mp hempty]
    split
    · rfl
    · rfl
  · rfl

/-- What the client is served of an entry that it holds. -/
lemma within_held_iff {cache : DnsCache (Option Origin)} (h : Holds maxEntries clock cache)
    {key : String} {entry : StoredEntry (Option Origin)}
    (hentry : cache.entries.get key = some entry) (hnow : clock ≤ now)
    (hlive : now < entry.expiresAt) {record : CachedRecord (Option Origin)}
    (hmem : record ∈ entry.records) {origin : Origin} (horigin : record.rest = some origin) :
    Within 1000 now (answerTtl (entry.reduced now record)) origin.readAt origin.life ↔
      1 ≤ record.ttl ∧ 1000 * Int.fract ((now - entry.storedAt) / 1000) ≤
        (origin.readAt + 1000 * origin.life) - (entry.storedAt + 1000 * record.ttl) := by
  have hmin := entry.one_le_reduced now record
  have hstored := (h.sound.storedAt_le key entry hentry).trans hnow
  rw [answerTtl, if_pos (by linarith)]
  by_cases hone : 1 ≤ record.ttl
  · rw [h.sound.left_eq hentry hlive hmem hone, within_floor_iff (by norm_num)]
    simp only [hone, true_and]
  · refine iff_of_false (fun hwithin => ?_) fun hcond => hone hcond.1
    have hends := (h.ends key entry hentry record hmem origin horigin).resolve_left hone
    rw [Within] at hwithin
    linarith

end Client

section Chain

variable {options : ResolveCacheOptions} {toLowerCase toUpperCase : String → String}
  {maxEntries : ℕ} {s : Chain}

structure Chain.Sound (options : ResolveCacheOptions) (maxEntries : ℕ) (s : Chain) : Prop where
  registry : s.registry.Sound options s.clock
  cache : Holds maxEntries s.clock s.proxy.cache

/-- The proxy after the look in its cache. -/
def Chain.looked (toLowerCase toUpperCase : String → String) (s : Chain) (now : ℚ)
    (name type : String) : DnsProxy (Option Origin) :=
  { s.proxy with
    cache := (s.proxy.cache.get toLowerCase toUpperCase now (normalizeName toLowerCase name)
      type).2 }

/-- What the registry answers a lookup. -/
def Chain.answered (options : ResolveCacheOptions) (toLowerCase toUpperCase : String → String)
    (s : Chain) (now : ℚ) (name type : String) (reading : Reading) :
    ResolveResponse (Option Origin) × ResolveCache :=
  traced options toLowerCase toUpperCase s.registry now reading (normalizeName toLowerCase name)
    type

lemma lookup_hit {now later : ℚ} {name type : String} {reading : Reading}
    {cached : CacheEntry (Option Origin)} (h : (s.proxy.cache.get toLowerCase toUpperCase now
      (normalizeName toLowerCase name) type).1 = some cached) :
    s.lookup options toLowerCase toUpperCase now later name type reading =
      (resultOf cached, s.looked toLowerCase toUpperCase now name type, s.registry) := by
  unfold Chain.lookup resolveTnp Chain.looked
  dsimp only
  rw [← Prod.mk.eta (p := s.proxy.cache.get toLowerCase toUpperCase now
    (normalizeName toLowerCase name) type), h]

lemma lookup_miss {now later : ℚ} {name type : String} {reading : Reading}
    (h : (s.proxy.cache.get toLowerCase toUpperCase now
      (normalizeName toLowerCase name) type).1 = none) :
    s.lookup options toLowerCase toUpperCase now later name type reading =
      ((answerWith toLowerCase toUpperCase (s.looked toLowerCase toUpperCase now name type) now
          later (normalizeName toLowerCase name) type none
          (s.answered options toLowerCase toUpperCase now name type reading).1).1,
        (answerWith toLowerCase toUpperCase (s.looked toLowerCase toUpperCase now name type) now
          later (normalizeName toLowerCase name) type none
          (s.answered options toLowerCase toUpperCase now name type reading).1).2,
        (s.answered options toLowerCase toUpperCase now name type reading).2) := by
  unfold Chain.lookup resolveTnp Chain.looked Chain.answered
  dsimp only
  rw [← Prod.mk.eta (p := s.proxy.cache.get toLowerCase toUpperCase now
    (normalizeName toLowerCase name) type), h]

attribute [local irreducible] sourceOf

lemma endsSoon_traced {registry : ResolveCache} {clock now : ℚ}
    (h : registry.Sound options clock) (hnow : clock ≤ now) (reading : Reading)
    (clean type : String) : EndsSoon now
      (traced options toLowerCase toUpperCase registry now reading clean type).1.answers := by
  rw [traced_answers h hnow]
  intro record hmem origin horigin
  obtain ⟨stored, -, rfl⟩ := List.mem_map.mp hmem
  obtain rfl := Option.some.inj horigin
  by_cases hlt : ⌈(now - (sourceOf registry now (normalizeName toLowerCase clean)
      (toUpperCase type) reading).storedAt) / 1000⌉ < stored.ttl
  · left
    have hleft := left_of_lt hlt
    simp only [tracedRecord]
    exact_mod_cast hleft
  · exact .inr (ends_of_left hlt).2

lemma Chain.Sound.looked (hs : s.Sound options maxEntries) {now : ℚ} (hnow : s.clock ≤ now)
    (name type : String) :
    Holds maxEntries now (s.looked toLowerCase toUpperCase now name type).cache := by
  have hheld := hs.cache.mono hnow
  exact ⟨hheld.sound.get toLowerCase toUpperCase _ _ _,
    fun key entry h => hheld.negative key entry (held_dnsGet h),
    fun key entry h => hheld.ends key entry (held_dnsGet h)⟩

attribute [local irreducible] resolve answerWith

lemma Chain.Sound.step (hs : s.Sound options maxEntries) (e : ChainEvent) :
    (s.step options toLowerCase toUpperCase e).Sound options maxEntries := by
  have hnow : s.clock ≤ s.clock + e.wait := le_add_of_nonneg_right e.wait.coe_nonneg
  unfold Chain.step
  cases e.call with
  | ask fqdn qtype reading =>
    exact ⟨sound_resolve hs.registry hnow fqdn qtype reading, hs.cache.mono hnow⟩
  | lookup name type reading evictAfter =>
    have hlater : s.clock + e.wait ≤ s.clock + e.wait + evictAfter :=
      le_add_of_nonneg_right evictAfter.coe_nonneg
    have hlooked : Holds maxEntries (s.clock + e.wait)
      (s.looked toLowerCase toUpperCase (s.clock + e.wait) name type).cache :=
        hs.looked hnow name type
    dsimp only
    cases hget : (s.proxy.cache.get toLowerCase toUpperCase (s.clock + e.wait)
        (normalizeName toLowerCase name) type).1 with
    | some cached =>
      rw [lookup_hit hget]
      exact ⟨hs.registry.mono (hnow.trans hlater), hlooked.mono hlater⟩
    | none =>
      rw [lookup_miss hget]
      have hends : EndsSoon (s.clock + e.wait) (s.answered options toLowerCase toUpperCase
          (s.clock + e.wait) name type reading).1.answers :=
        endsSoon_traced hs.registry hnow reading (normalizeName toLowerCase name) type
      have hregistry : (s.answered options toLowerCase toUpperCase (s.clock + e.wait) name type
          reading).2.Sound options (s.clock + e.wait) := sound_resolve hs.registry hnow _ _ reading
      have hcache : Holds maxEntries (s.clock + e.wait + evictAfter) (answerWith toLowerCase
          toUpperCase (s.looked toLowerCase toUpperCase (s.clock + e.wait) name type)
          (s.clock + e.wait) (s.clock + e.wait + evictAfter) (normalizeName toLowerCase name) type
          none (s.answered options toLowerCase toUpperCase (s.clock + e.wait) name type
            reading).1).2.cache := hlooked.answerWith hlater hends
      constructor
      · dsimp only
        exact hregistry.mono hlater
      · dsimp only
        exact hcache

/-- What is served of an entry that is held keeps to its records where the condition says so. -/
lemma Chain.Sound.hit_iff (hs : s.Sound options maxEntries) {now : ℚ} (hnow : s.clock ≤ now)
    {key : String} {entry : StoredEntry (Option Origin)}
    (hentry : s.proxy.cache.entries.get key = some entry) (hlive : now < entry.expiresAt) :
    (∀ record ∈ (resultOf (entry.served now)).records, ∀ origin, record.rest = some origin →
      Within 1000 now (answerTtl record) origin.readAt origin.life) ↔
    ∀ record ∈ entry.records, ∀ origin, record.rest = some origin →
      1 ≤ record.ttl ∧ 1000 * Int.fract ((now - entry.storedAt) / 1000) ≤
        (origin.readAt + 1000 * origin.life) - (entry.storedAt + 1000 * record.ttl) := by
  have hrecords : (resultOf (entry.served now)).records =
      entry.records.map (entry.reduced now) := by
    unfold resultOf
    split
    next hnegative =>
      rw [hs.cache.negative _ _ hentry hnegative]
      rfl
    split
    next hempty => exact (List.isEmpty_iff.mp hempty).symm
    · rfl
  rw [hrecords, List.forall_mem_map]
  refine forall₂_congr fun record hmem => forall₂_congr fun origin horigin => ?_
  exact within_held_iff hs.cache hentry hnow hlive hmem horigin

/-- What is made of an answer just obtained keeps to its records where the condition says so. -/
lemma Chain.Sound.miss_iff (hs : s.Sound options maxEntries) {now later : ℚ}
    (hnow : s.clock ≤ now) (name type : String) (reading : Reading) :
    (∀ record ∈ (answerWith toLowerCase toUpperCase (s.looked toLowerCase toUpperCase now name
        type) now later (normalizeName toLowerCase name) type none
        (s.answered options toLowerCase toUpperCase now name type reading).1).1.records,
      ∀ origin, record.rest = some origin →
        Within 1000 now (answerTtl record) origin.readAt origin.life) ↔
    (answersOverlay s.proxy (sourceOf s.registry now (normalizeName toLowerCase
          (normalizeName toLowerCase name)) (toUpperCase type) reading).response.overlay type =
        false →
      ∀ answer ∈ (sourceOf s.registry now (normalizeName toLowerCase
          (normalizeName toLowerCase name)) (toUpperCase type) reading).response.answers,
        ⌈(now - (sourceOf s.registry now (normalizeName toLowerCase
          (normalizeName toLowerCase name)) (toUpperCase type) reading).storedAt) / 1000⌉ <
            answer.ttl) := by
  have hoverlay : answersOverlay (s.looked toLowerCase toUpperCase now name type)
      (s.answered options toLowerCase toUpperCase now name type reading).1.overlay type =
    answersOverlay s.proxy (sourceOf s.registry now (normalizeName toLowerCase
      (normalizeName toLowerCase name)) (toUpperCase type) reading).response.overlay type := by
    rw [Chain.answered, traced_overlay hs.registry hnow]
    rfl
  rw [records_answerWith, hoverlay]
  split
  next htrue => simp [htrue]
  next hfalse =>
    rw [Bool.not_eq_true] at hfalse
    obtain ⟨-, -, hlast⟩ := source_spec hs.registry hnow
      (normalizeName toLowerCase (normalizeName toLowerCase name)) (toUpperCase type) reading
    rw [hfalse, Chain.answered, traced_answers hs.registry hnow, List.forall_mem_map]
    simp only [forall_const]
    constructor
    · intro h stored hmem
      have hrest : ∀ source, (tracedRecord source now stored).rest =
        some ⟨source.storedAt, stored.ttl⟩ := fun _ => rfl
      have hwithin := h stored hmem _ (hrest _)
      exact (within_fresh_iff (hlast stored hmem)).mp hwithin
    · intro h stored hmem origin horigin
      obtain rfl := Option.some.inj horigin
      exact (within_fresh_iff (hlast stored hmem)).mpr (h stored hmem)

/-- An answer keeps to the life of its record where the condition says so. -/
lemma Chain.Sound.kept_iff (hs : s.Sound options maxEntries) (e : ChainEvent) :
    s.Kept options toLowerCase toUpperCase e ↔ s.Timely toLowerCase toUpperCase e := by
  have hnow : s.clock ≤ s.clock + e.wait := le_add_of_nonneg_right e.wait.coe_nonneg
  unfold Chain.Kept Chain.Timely
  cases e.call with
  | ask fqdn qtype reading => exact Iff.rfl
  | lookup name type reading evictAfter =>
    dsimp only
    split
    next entry hheld =>
      obtain ⟨hentry, hlive⟩ := Option.filter_eq_some_iff.mp hheld
      have hlive := of_decide_eq_true hlive
      have hget : (s.proxy.cache.get toLowerCase toUpperCase (s.clock + e.wait)
          (normalizeName toLowerCase name) type).1 = some (entry.served (s.clock + e.wait)) := by
        simp [DnsCache.get, hentry, not_le.mpr hlive]
      rw [lookup_hit hget]
      exact hs.hit_iff hnow hentry hlive
    next hheld =>
      have hget : (s.proxy.cache.get toLowerCase toUpperCase (s.clock + e.wait)
          (normalizeName toLowerCase name) type).1 = none := by
        unfold DnsCache.get
        dsimp only
        split
        · rfl
        next entry hentry =>
        rw [if_pos]
        by_contra hlive
        simp [hentry, Option.filter_some, not_le.mp hlive] at hheld
      rw [lookup_miss hget]
      exact hs.miss_iff hnow name type reading

end Chain

/-! ### The promises -/

/-- A run of the client's cache, one of the registry's and one of both, each from empty caches. -/
structure Runs (α : Type*) where
  start : ℚ
  maxEntries : ℕ
  options : ResolveCacheOptions
  overlayEnabled : Bool
  toLowerCase : String → String
  toUpperCase : String → String
  client : List (DnsCacheEvent α)
  registry : List ResolveCacheEvent
  both : List ChainEvent

namespace Runs

variable {α : Type*} (r : Runs α)

def clientStart : DnsCacheRun α := { clock := r.start, cache := { maxEntries := r.maxEntries } }

def registryStart : ResolveCacheRun := { clock := r.start }

def bothStart : Chain :=
  { clock := r.start
    proxy := { overlayEnabled := r.overlayEnabled, cache := { maxEntries := r.maxEntries } } }

abbrev clientStep : DnsCacheRun α → DnsCacheEvent α → DnsCacheRun α :=
  fun s => s.step r.toLowerCase r.toUpperCase

abbrev registryStep : ResolveCacheRun → ResolveCacheEvent → ResolveCacheRun :=
  fun s => s.step r.options

abbrev bothStep : Chain → ChainEvent → Chain :=
  fun s => s.step r.options r.toLowerCase r.toUpperCase

/-- Nothing that is served outlives the life that it was stored with, nor through both caches the
one it was read with; what is held was put; and there is never more of it than there may be. -/
structure Promises : Prop where
  client : Run.Allowed r.clientStep (fun s => s.Kept r.toLowerCase r.toUpperCase) r.clientStart
    r.client
  clientPut : ∀ key entry,
    (Run.run r.clientStep r.clientStart r.client).cache.entries.get key = some entry →
      (key, entry.storedAt, entry.records) ∈ (Run.run r.clientStep r.clientStart r.client).puts
  clientSize : (Run.run r.clientStep r.clientStart r.client).cache.entries.size ≤ r.maxEntries
  registry : Run.Allowed r.registryStep ResolveCacheRun.Kept r.registryStart r.registry
  registryPut : ∀ key entry,
    (Run.run r.registryStep r.registryStart r.registry).cache.entries.get key = some entry →
      (some key, entry.storedAt, entry.response) ∈
        (Run.run r.registryStep r.registryStart r.registry).puts
  registrySize : (Run.run r.registryStep r.registryStart r.registry).cache.entries.size ≤
    r.options.maxEntries
  both : Run.Allowed r.bothStep (fun s => s.Kept r.options r.toLowerCase r.toUpperCase) r.bothStart
    r.both

lemma sound_clientStart : r.clientStart.Sound r.maxEntries := by
  refine ⟨⟨rfl, Nat.zero_le _, ?_, ?_⟩, ?_⟩
  all_goals simp [clientStart, OrderedMap.get]

lemma bounded_registryStart : r.registryStart.Bounded r.options := by
  refine ⟨⟨Nat.zero_le _, ?_⟩, ?_⟩
  all_goals simp [registryStart, OrderedMap.get]

lemma sound_bothStart : r.bothStart.Sound r.options r.maxEntries := by
  refine ⟨⟨⟨Nat.zero_le _, ?_⟩, ?_⟩, ⟨rfl, Nat.zero_le _, ?_, ?_⟩, ?_, ?_⟩
  all_goals simp [bothStart, OrderedMap.get]

/-- **TTLs**: over every run, the caches keep their promises exactly when the client is asked for
what it stored whole seconds ago, with a second left of every record, what the registry serves has
not ended, and what comes through both caches has gained no more in the client's than the
registry's had rounded off. -/
theorem promises_iff :
    r.Promises ↔
      Run.Allowed r.clientStep (fun s => s.Whole r.toLowerCase r.toUpperCase) r.clientStart
          r.client ∧
        Run.Allowed r.registryStep ResolveCacheRun.Lasting r.registryStart r.registry ∧
          Run.Allowed r.bothStep (fun s => s.Timely r.toLowerCase r.toUpperCase)
            r.bothStart r.both := by
  have hclient : Run.Allowed r.clientStep (fun s => s.Kept r.toLowerCase r.toUpperCase)
      r.clientStart r.client ↔
      Run.Allowed r.clientStep (fun s => s.Whole r.toLowerCase r.toUpperCase) r.clientStart
        r.client :=
    Run.allowed_congr (fun s e _ hs => hs.step e) (fun s e hs => hs.kept_iff e)
      r.sound_clientStart r.client
  have hregistry : Run.Allowed r.registryStep ResolveCacheRun.Kept r.registryStart r.registry ↔
      Run.Allowed r.registryStep ResolveCacheRun.Lasting r.registryStart r.registry :=
    Run.allowed_congr (fun s e _ hs => hs.step e) (fun s e hs => hs.kept_iff e)
      r.bounded_registryStart r.registry
  have hboth : Run.Allowed r.bothStep (fun s => s.Kept r.options r.toLowerCase r.toUpperCase)
      r.bothStart r.both ↔
      Run.Allowed r.bothStep (fun s => s.Timely r.toLowerCase r.toUpperCase)
        r.bothStart r.both :=
    Run.allowed_congr (fun s e _ hs => hs.step e) (fun s e hs => hs.kept_iff e)
      r.sound_bothStart r.both
  have hclientSound : (Run.run r.clientStep r.clientStart r.client).Sound r.maxEntries :=
    Run.invariant (fun s e hs => hs.step e) r.sound_clientStart r.client
  have hregistryBounded :
      (Run.run r.registryStep r.registryStart r.registry).Bounded r.options :=
    Run.invariant (fun s e hs => hs.step e) r.bounded_registryStart r.registry
  constructor
  · intro h
    exact ⟨hclient.mp h.client, hregistry.mp h.registry, hboth.mp h.both⟩
  · rintro ⟨hwhole, hlasting, htimely⟩
    exact {
      client := hclient.mpr hwhole
      clientPut := hclientSound.put
      clientSize := hclientSound.cache.size_le
      registry := hregistry.mpr hlasting
      registryPut := hregistryBounded.put
      registrySize := hregistryBounded.cache.size_le
      both := hboth.mpr htimely }

/-- The client is asked half a second after a record of 300 seconds was put. -/
def halfSecond : Runs Unit where
  start := 0
  maxEntries := 10000
  options := { maxEntries := 10000, maxTtlSeconds := 30, negativeTtlSeconds := 10 }
  overlayEnabled := false
  toLowerCase := id
  toUpperCase := id
  client := [⟨0, .set "example.tnp" "A" [⟨"example.tnp", "A", "192.0.2.1", 300, ()⟩] 0⟩,
    ⟨500, .get "example.tnp" "A"⟩]
  registry := []
  both := []

theorem not_promises_halfSecond : ¬ halfSecond.Promises := by
  intro h
  have hsound : (halfSecond.clientStep halfSecond.clientStart
      ⟨0, .set "example.tnp" "A" [⟨"example.tnp", "A", "192.0.2.1", 300, ()⟩] 0⟩).Sound 10000 :=
    halfSecond.sound_clientStart.step _
  have hwhole := (hsound.kept_iff _).mp h.client.2.1
  have hlive : (500 : ℚ) < clamp 300 MIN_TTL_SECONDS MAX_TTL_SECONDS * 1000 := by
    norm_num [clamp, MIN_TTL_SECONDS, MAX_TTL_SECONDS]
  have hfract : Int.fract (500 / 1000 : ℚ) ≠ 0 := by norm_num [Int.fract]
  simp [DnsCacheRun.Whole, DnsCacheRun.step, DnsCache.set, DnsCache.store, clientStart, halfSecond,
    DnsCache.evictIfNeeded_of_size_le, OrderedMap.set, OrderedMap.setEntries, OrderedMap.get,
    OrderedMap.delete, OrderedMap.size, cacheKey, hlive, hfract] at hwhole

end Runs

end Tnp.Client.CachedAnswers
