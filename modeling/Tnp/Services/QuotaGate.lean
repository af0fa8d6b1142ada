import Tnp.Lib.Run
import Tnp.Services.RateLimit

/-!
How many acquires the quota admits.

A row that is under a lock is changed by the transaction that has the lock and by no other, so
every commit raises the count that was checked. The rows count by the instant at which a
transaction began; what commits in a window is bounded only as far as it began there too.
-/

namespace Tnp.Services

open Tnp.Lib Tnp.Lib.Run

variable {σ : Setting}

/-! ### Capacity -/

lemma capacityFor_le {doubles : Doubles} {limit : ℕ} {priority : QuotaPriority} {reserve : ℚ}
    (hlimit : limit ≤ 2 ^ 53) (hreserve : 0 ≤ reserve) :
    capacityFor doubles limit priority reserve ≤ limit := by
  cases priority with
  | critical => exact le_refl _
  | interactive =>
    have hone : doubles.round (1 - reserve) ≤ 1 := by
      calc doubles.round (1 - reserve) ≤ doubles.round (1 : ℕ) :=
            doubles.mono (by push_cast; linarith)
        _ = (1 : ℕ) := doubles.exact 1 (by norm_num)
        _ = 1 := Nat.cast_one
    have hround : doubles.round (limit * doubles.round (1 - reserve)) ≤ limit := by
      calc doubles.round (limit * doubles.round (1 - reserve)) ≤ doubles.round limit :=
            doubles.mono (mul_le_of_le_one_right (Nat.cast_nonneg _) hone)
        _ = limit := doubles.exact limit hlimit
    have hfloor : ⌊doubles.round (limit * doubles.round (1 - reserve))⌋ ≤ ⌊(limit : ℚ)⌋ :=
      Int.floor_mono hround
    rwa [Int.floor_natCast] at hfloor

lemma QuotaLimits.limit_le (l : QuotaLimits) (w : Window) : l.limit w ≤ 2 ^ 53 := by
  obtain ⟨hm, hh, hd⟩ := l.isSafe
  cases w with
  | minute => exact hm
  | hour => exact hh
  | day => exact hd

lemma Acquire.capacity_le (a : Acquire) (w : Window) : a.capacity σ w ≤ a.limits.limit w :=
  capacityFor_le (a.limits.limit_le w) a.limits.isShare.1

/-! ### Rows and who has them -/

lemma makes_iff {a : Acquire} {k : Key} :
    a.makes σ k = true ↔ a.key σ k.window = k ∧ k.window ∈ a.inserted := by
  simp [Acquire.makes]

lemma locks_iff {a : Acquire} {k : Key} :
    a.locks σ k = true ↔ a.key σ k.window = k ∧ ∃ count, (k.window, count) ∈ a.read := by
  simp [Acquire.locks]

/-- What a transaction knows of the rows it has. -/
structure Fits (σ : Setting) (s : Gate) (a : Acquire) : Prop where
  limits : σ.limitsOf a.account = some a.limits
  own : ∀ w ∈ a.inserted, s.rows (a.key σ w) = none
  held : ∀ w count, (w, count) ∈ a.read → (w ∈ a.inserted ∧ count = 0) ∨
    ∃ row, s.rows (a.key σ w) = some row ∧ row.count = count
  todo : ∀ todo, a.phase = .locking todo → ∀ w, (w, none) ∈ todo → w ∈ a.inserted
  room : a.phase = .updated → a.admitted σ = true

lemma Fits.of_rows {s s' : Gate} {a : Acquire} (h : Fits σ s a)
    (hmakes : ∀ k, a.makes σ k = true → s'.rows k = s.rows k)
    (hlocks : ∀ k, a.locks σ k = true → s'.rows k = s.rows k) : Fits σ s' a where
  limits := h.limits
  own := fun w hw => (hmakes _ (makes_iff.mpr ⟨rfl, hw⟩)).trans (h.own w hw)
  held := fun w count hmem => by
    rw [hlocks _ (locks_iff.mpr ⟨rfl, count, hmem⟩)]
    exact h.held w count hmem
  todo := h.todo
  room := h.room

/-- Every transaction fits the rows, and no two have the same one. -/
structure Consistent (σ : Setting) (s : Gate) : Prop where
  fits : ∀ id a, s.acquires.get id = some a → Fits σ s a
  makes : ∀ id a k, s.acquires.get id = some a → a.makes σ k = true →
    ∀ j b, s.acquires.get j = some b → j ≠ id → b.makes σ k = false
  locks : ∀ id a k, s.acquires.get id = some a → a.locks σ k = true →
    ∀ j b, s.acquires.get j = some b → j ≠ id → b.locks σ k = false

lemma elsewhere_eq_false {s : Gate} {id : ℕ} {p : Acquire → Bool} :
    s.elsewhere id p = false ↔ ∀ j b, s.acquires.get j = some b → j ≠ id → p b = false := by
  unfold Gate.elsewhere
  rw [List.any_eq_false]
  constructor
  · intro h j b hget hj
    have hentry := h (j, b) (OrderedMap.mem_entries_iff.mpr hget)
    simpa [hj] using hentry
  · rintro h ⟨j, b⟩ hmem
    by_cases hj : j = id
    · simp [hj]
    · simp [h j b (OrderedMap.mem_entries_iff.mp hmem) hj]

namespace Consistent

variable {s : Gate} {id : ℕ} {a : Acquire}

/-- A transaction may go on to what fits the rows and is had by no other. -/
lemma set (h : Consistent σ s) (hfits : Fits σ s a)
    (hmakes : ∀ k, a.makes σ k = true → s.elsewhere id (fun b => b.makes σ k) = false)
    (hlocks : ∀ k, a.locks σ k = true → s.elsewhere id (fun b => b.locks σ k) = false) :
    Consistent σ { s with acquires := s.acquires.set id a } where
  fits := fun j b hget => by
    simp only [OrderedMap.get_set] at hget
    split at hget
    · cases hget
      exact hfits.of_rows (fun _ _ => rfl) fun _ _ => rfl
    · exact (h.fits j b hget).of_rows (fun _ _ => rfl) fun _ _ => rfl
  makes := fun i b k hi hb j c hj hne => by
    simp only [OrderedMap.get_set] at hi hj
    split_ifs at hi hj with h1 h2 h2
    · exact absurd (h2.symm.trans h1) hne
    · cases hi
      exact elsewhere_eq_false.mp (hmakes k hb) j c hj fun e => h2 e.symm
    · cases hj
      by_contra hc
      have hfalse := elsewhere_eq_false.mp (hmakes k (by simpa using hc)) i b hi fun e => h1 e.symm
      rw [hfalse] at hb
      cases hb
    · exact h.makes i b k hi hb j c hj hne
  locks := fun i b k hi hb j c hj hne => by
    simp only [OrderedMap.get_set] at hi hj
    split_ifs at hi hj with h1 h2 h2
    · exact absurd (h2.symm.trans h1) hne
    · cases hi
      exact elsewhere_eq_false.mp (hlocks k hb) j c hj fun e => h2 e.symm
    · cases hj
      by_contra hc
      have hfalse := elsewhere_eq_false.mp (hlocks k (by simpa using hc)) i b hi fun e => h1 e.symm
      rw [hfalse] at hb
      cases hb
    · exact h.locks i b k hi hb j c hj hne

lemma elsewhere_makes (h : Consistent σ s) (hget : s.acquires.get id = some a) {k : Key}
    (hk : a.makes σ k = true) : s.elsewhere id (fun b => b.makes σ k) = false :=
  elsewhere_eq_false.mpr (h.makes id a k hget hk)

lemma elsewhere_locks (h : Consistent σ s) (hget : s.acquires.get id = some a) {k : Key}
    (hk : a.locks σ k = true) : s.elsewhere id (fun b => b.locks σ k) = false :=
  elsewhere_eq_false.mpr (h.locks id a k hget hk)

/-- A row that one transaction has made is locked by no other. -/
lemma locks_of_makes (h : Consistent σ s) (hget : s.acquires.get id = some a) {k : Key}
    (hk : a.makes σ k = true) {j : ℕ} {b : Acquire} (hj : s.acquires.get j = some b)
    (hne : j ≠ id) : b.locks σ k = false := by
  by_contra hlocks
  obtain ⟨hkey, hmem⟩ := makes_iff.mp hk
  obtain ⟨hkey', count, hread⟩ := locks_iff.mp (by simpa using hlocks)
  have hnone := (h.fits id a hget).own _ hmem
  rcases (h.fits j b hj).held _ _ hread with ⟨hmade, _⟩ | ⟨row, hrow, _⟩
  · have hfalse := h.makes id a k hget hk j b hj hne
    rw [makes_iff.mpr ⟨hkey', hmade⟩] at hfalse
    cases hfalse
  · rw [hkey] at hnone
    rw [hkey', hnone] at hrow
    cases hrow

/-- Transactions that end, and rows that nobody has, may change. -/
lemma of_fewer {s' : Gate} (h : Consistent σ s)
    (hget : ∀ j b, s'.acquires.get j = some b → s.acquires.get j = some b)
    (hrows : ∀ j b k, s'.acquires.get j = some b →
      (b.makes σ k = true ∨ b.locks σ k = true) → s'.rows k = s.rows k) : Consistent σ s' where
  fits := fun j b hj => (h.fits j b (hget j b hj)).of_rows
    (fun k hk => hrows j b k hj (.inl hk)) fun k hk => hrows j b k hj (.inr hk)
  makes := fun i b k hi hb j c hj hne => h.makes i b k (hget i b hi) hb j c (hget j c hj) hne
  locks := fun i b k hi hb j c hj hne => h.locks i b k (hget i b hi) hb j c (hget j c hj) hne

end Consistent

/-! ### What a step keeps -/

section Step

variable {s : Gate} {id : ℕ} {a : Acquire}

/-- A step that leaves the rows a transaction has as they are. -/
lemma Consistent.proceed (h : Consistent σ s) (hget : s.acquires.get id = some a) {b : Acquire}
    (haccount : b.account = a.account) (hbegan : b.began = a.began)
    (hinserted : b.inserted = a.inserted) (hread : b.read = a.read) (hfits : Fits σ s b) :
    Consistent σ { s with acquires := s.acquires.set id b } := by
  have hkey : ∀ w, b.key σ w = a.key σ w := by
    intro w
    simp [Acquire.key, haccount, hbegan]
  refine h.set hfits (fun k hk => ?_) fun k hk => ?_
  · exact h.elsewhere_makes hget (by simpa [Acquire.makes, hkey, hinserted] using hk)
  · exact h.elsewhere_locks hget (by simpa [Acquire.locks, hkey, hread] using hk)

lemma consistent_insert (h : Consistent σ s) (hget : s.acquires.get id = some a) :
    Consistent σ (s.insert σ id a) := by
  have hfits := h.fits id a hget
  unfold Gate.insert
  split
  · next w todo hphase =>
    split_ifs with hrow helse
    · refine h.proceed hget rfl rfl rfl rfl ⟨hfits.limits, hfits.own, hfits.held, ?_, ?_⟩
      · intro todo' hphase'
        cases hphase'
      · intro hphase'
        cases hphase'
    · exact h
    · have hnone : s.rows (a.key σ w) = none := by simpa using hrow
      refine h.set ⟨hfits.limits, ?_, ?_, ?_, ?_⟩ ?_ ?_
      · exact List.forall_mem_cons.mpr ⟨hnone, hfits.own⟩
      · intro v count hmem
        rcases hfits.held v count hmem with ⟨hmade, hzero⟩ | hrow
        · exact .inl ⟨List.mem_cons_of_mem _ hmade, hzero⟩
        · exact .inr hrow
      · intro todo' hphase'
        cases hphase'
      · intro hphase'
        cases hphase'
      · intro k hk
        obtain ⟨hkey, hmem⟩ := makes_iff.mp hk
        rcases List.mem_cons.mp hmem with hw | hmem
        · have hk : k = a.key σ w := by rw [← hw]; exact hkey.symm
          rw [hk]
          simpa using helse
        · exact h.elsewhere_makes hget (makes_iff.mpr ⟨hkey, hmem⟩)
      · exact fun k hk => h.elsewhere_locks hget hk
  · exact h

lemma consistent_select (h : Consistent σ s) (hget : s.acquires.get id = some a) :
    Consistent σ (s.select σ id a) := by
  have hfits := h.fits id a hget
  unfold Gate.select
  split
  · refine h.proceed hget rfl rfl rfl rfl ⟨hfits.limits, hfits.own, hfits.held, ?_, ?_⟩
    · rintro todo hphase w hmem
      cases hphase
      obtain ⟨v, _, hv⟩ := List.mem_filterMap.mp hmem
      split at hv
      · next hmade =>
        cases hv
        simpa using hmade
      · obtain ⟨row, _, hrow⟩ := Option.map_eq_some_iff.mp hv
        cases hrow
    · intro hphase'
      cases hphase'
  · exact h

/-- A row is read once it is locked: an own one, or one that no other has under its lock. -/
lemma Consistent.read (h : Consistent σ s) (hget : s.acquires.get id = some a) {w : Window}
    {count : ℕ} {todo : List (Window × Option ℕ)}
    (hheld : (w ∈ a.inserted ∧ count = 0) ∨
      ∃ row, s.rows (a.key σ w) = some row ∧ row.count = count)
    (htodo : ∀ v, (v, none) ∈ todo → v ∈ a.inserted)
    (hfree : s.elsewhere id (fun b => b.locks σ (a.key σ w)) = false) :
    Consistent σ
      { s with
        acquires := s.acquires.set id
          { a with read := a.read ++ [(w, count)], phase := .locking todo } } := by
  have hfits := h.fits id a hget
  refine h.set ⟨hfits.limits, hfits.own, ?_, ?_, ?_⟩ ?_ ?_
  · intro v n hmem
    rcases List.mem_append.mp hmem with hmem | hmem
    · exact hfits.held v n hmem
    · cases List.mem_singleton.mp hmem
      exact hheld
  · rintro todo' hphase v hmem
    cases hphase
    exact htodo v hmem
  · intro hphase
    cases hphase
  · exact fun k hk => h.elsewhere_makes hget hk
  · intro k hk
    obtain ⟨hkey, n, hmem⟩ := locks_iff.mp hk
    rcases List.mem_append.mp hmem with hmem | hmem
    · exact h.elsewhere_locks hget (locks_iff.mpr ⟨hkey, n, hmem⟩)
    · have hw : k.window = w := (Prod.mk.inj (List.mem_singleton.mp hmem)).1
      have hk : k = a.key σ w := by rw [← hw]; exact hkey.symm
      rwa [hk]

lemma consistent_lock (h : Consistent σ s) (hget : s.acquires.get id = some a) :
    Consistent σ (s.lock σ id a) := by
  have hfits := h.fits id a hget
  unfold Gate.lock
  split
  · next w todo hphase =>
    have hmade : w ∈ a.inserted := hfits.todo _ hphase w List.mem_cons_self
    refine h.read hget (.inl ⟨hmade, rfl⟩)
      (fun v hv => hfits.todo _ hphase v (List.mem_cons_of_mem _ hv)) ?_
    exact elsewhere_eq_false.mpr fun j b hj hne =>
      h.locks_of_makes hget (makes_iff.mpr ⟨rfl, hmade⟩) hj hne
  · next w serial todo hphase =>
    have htodo : ∀ v, (v, none) ∈ todo → v ∈ a.inserted := fun v hv =>
      hfits.todo _ hphase v (List.mem_cons_of_mem _ hv)
    have hpass : Consistent σ
        { s with acquires := s.acquires.set id { a with phase := .locking todo } } := by
      refine h.proceed hget rfl rfl rfl rfl ⟨hfits.limits, hfits.own, hfits.held, ?_, ?_⟩
      · rintro todo' hphase v hv
        cases hphase
        exact htodo v hv
      · intro hphase
        cases hphase
    split
    · next row hrow =>
      split_ifs with hserial helse
      · exact hpass
      · exact h
      · exact h.read hget (.inr ⟨row, hrow, rfl⟩) htodo (by simpa using helse)
    · exact hpass
  · exact h

lemma Consistent.delete (h : Consistent σ s) :
    Consistent σ { s with acquires := s.acquires.delete id } := by
  refine h.of_fewer (fun j b hj => ?_) fun _ _ _ _ _ => rfl
  simp only [OrderedMap.get_delete] at hj
  split at hj
  · cases hj
  · exact hj

lemma consistent_check (h : Consistent σ s) (hget : s.acquires.get id = some a) :
    Consistent σ (s.check σ id a) := by
  have hfits := h.fits id a hget
  unfold Gate.check
  split
  · split_ifs with hroom
    · refine h.proceed hget rfl rfl rfl rfl ⟨hfits.limits, hfits.own, hfits.held, ?_, ?_⟩
      · intro todo hphase
        cases hphase
      · exact fun _ => hroom
    · exact h.delete
  · exact h

/-- What a commit changes is under the lock of the transaction. -/
lemma counted_of_not_locks {k : Key} (h : a.locks σ k = false) : s.counted σ a k = s.rows k := by
  simp [Gate.counted, h]

lemma consistent_commit (h : Consistent σ s) (hget : s.acquires.get id = some a) :
    Consistent σ (s.commit σ id a) := by
  unfold Gate.commit
  split
  · refine h.of_fewer (fun j b hj => ?_) fun j b k hj hk => counted_of_not_locks ?_
    · simp only [OrderedMap.get_delete] at hj
      split at hj
      · cases hj
      · exact hj
    · simp only [OrderedMap.get_delete] at hj
      split at hj
      · cases hj
      · next hne =>
        rcases hk with hk | hk
        · exact h.locks_of_makes hj hk hget hne
        · exact h.locks j b k hj hk id a hget hne
  · exact h

lemma consistent_step (h : Consistent σ s) (e : Event) : Consistent σ (step σ s e) := by
  have hlift : ∀ (f : ℕ → Acquire → Gate) id,
      (∀ a, s.acquires.get id = some a → Consistent σ (f id a)) →
      Consistent σ (((s.acquires.get id).map (f id)).getD s) := by
    intro f id hf
    cases hget : s.acquires.get id with
    | none => exact h
    | some a => exact hf a hget
  cases e with
  | tick t => exact h.of_fewer (fun _ _ hj => hj) fun _ _ _ _ _ => rfl
  | «begin» id account priority =>
    simp only [step]
    split
    · next limits hnone hlimits =>
      refine h.set ⟨hlimits, ?_, ?_, ?_, ?_⟩ ?_ ?_ <;> simp [Acquire.makes, Acquire.locks]
    · exact h
  | insert id => exact hlift _ id fun a => consistent_insert h
  | select id => exact hlift _ id fun a => consistent_select h
  | lock id => exact hlift _ id fun a => consistent_lock h
  | check id => exact hlift _ id fun a => consistent_check h
  | commit id => exact hlift _ id fun a => consistent_commit h
  | abort id => exact h.delete
  | prune began key =>
    simp only [step]
    split_ifs with hprune
    · refine h.of_fewer (fun _ _ hj => hj) fun j b k hj hk => ?_
      have hfree : b.locks σ key = false := by
        have hnot := hprune.2.2
        simp only [List.any_eq_true, not_exists, not_and] at hnot
        simpa using hnot (j, b) (OrderedMap.mem_entries_iff.mpr hj)
      dsimp only
      split_ifs with heq
      · subst heq
        rcases hk with hk | hk
        · obtain ⟨hkey, hmem⟩ := makes_iff.mp hk
          have hnone := (h.fits j b hj).own _ hmem
          rw [hkey] at hnone
          exact hnone.symm
        · rw [hfree] at hk
          cases hk
      · rfl
    · exact h

end Step

/-! ### Counts -/

/-- The count of a row, as it is committed. -/
def Gate.windowCount (s : Gate) (k : Key) : ℕ := ((s.rows k).map Row.count).getD 0

/-- A grant whose transaction began in the window of a key. -/
def Grant.beganIn (σ : Setting) (k : Key) (g : Grant) : Bool :=
  g.account = k.account && σ.dateTrunc k.window g.began = k.start

/-- A grant that committed in the window of a key. -/
def Grant.committedIn (σ : Setting) (k : Key) (g : Grant) : Bool :=
  g.account = k.account && σ.dateTrunc k.window g.committed = k.start

/-- A grant that began in the window of a key and committed while no pruning deletes its row. -/
def Grant.keptIn (σ : Setting) (k : Key) (g : Grant) : Bool :=
  g.beganIn σ k && g.committed ≤ k.start + RETENTION

/-- What the rows say of the grants, and what the limits do. -/
structure Sound (σ : Setting) (s : Gate) : Prop where
  consistent : Consistent σ s
  counted : ∀ k, s.clock ≤ k.start + RETENTION →
    s.grants.countP (Grant.beganIn σ k) ≤ s.windowCount k
  bounded : ∀ k limits, σ.limitsOf k.account = some limits →
    s.grants.countP (Grant.keptIn σ k) ≤ limits.limit k.window

lemma admitted_iff {a : Acquire} : a.admitted σ = true ↔
    ∀ w, ∃ count : ℕ, a.read.lookup w = some count ∧ (count : ℤ) < a.capacity σ w := by
  unfold Acquire.admitted
  rw [List.all_eq_true]
  constructor
  · intro h w
    have hw := h w (mem_windows w)
    rw [Option.any_eq_true] at hw
    obtain ⟨count, hcount, hlt⟩ := hw
    exact ⟨count, hcount, by simpa using hlt⟩
  · intro h w _
    obtain ⟨count, hcount, hlt⟩ := h w
    rw [hcount]
    simpa using hlt

lemma mem_of_lookup {l : List (Window × ℕ)} {w : Window} {count : ℕ}
    (h : l.lookup w = some count) : (w, count) ∈ l := by
  obtain ⟨before, after, rfl, _⟩ := List.lookup_eq_some_iff.mp h
  simp

variable {s : Gate} {id : ℕ} {a : Acquire}

/-- What a transaction has read is what the row has, until it commits. -/
lemma Fits.windowCount_eq (h : Fits σ s a) {w : Window} {count : ℕ} (hread : (w, count) ∈ a.read) :
    s.windowCount (a.key σ w) = count := by
  unfold Gate.windowCount
  rcases h.held w count hread with ⟨hmade, rfl⟩ | ⟨row, hrow, hcount⟩
  · rw [h.own w hmade]
    rfl
  · rw [hrow]
    exact hcount

/-- **A transaction that is about to commit finds room in each of its windows.** -/
lemma Fits.below (h : Fits σ s a) (hphase : a.phase = .updated) (w : Window) :
    (s.windowCount (a.key σ w) : ℤ) < a.capacity σ w := by
  obtain ⟨count, hcount, hlt⟩ := admitted_iff.mp (h.room hphase) w
  rwa [h.windowCount_eq (mem_of_lookup hcount)]

lemma beganIn_iff {k : Key} {t : ℤ} :
    Grant.beganIn σ k ⟨a.account, a.priority, a.began, t⟩ = true ↔ a.key σ k.window = k := by
  obtain ⟨account, window, start⟩ := k
  simp [Grant.beganIn, Acquire.key]

/-- A commit raises the count of each window by one. -/
lemma windowCount_commit (h : Fits σ s a) (hphase : a.phase = .updated) (k : Key) :
    (s.commit σ id a).windowCount k = s.windowCount k + if a.key σ k.window = k then 1 else 0 := by
  obtain ⟨count, hcount, _⟩ := admitted_iff.mp (h.room hphase) k.window
  have hmem := mem_of_lookup hcount
  have hrows : (s.commit σ id a).rows k = s.counted σ a k := by simp [Gate.commit, hphase]
  split_ifs with hkey
  · have hheld : s.windowCount k = count := by
      rw [← hkey]
      exact h.windowCount_eq hmem
    have hlocks : a.locks σ k = true := locks_iff.mpr ⟨hkey, count, hmem⟩
    rw [hheld]
    simp [Gate.windowCount, hrows, Gate.counted, hlocks, hcount]
  · have hlocks : a.locks σ k = false := by
      cases hl : a.locks σ k with
      | false => rfl
      | true => exact absurd (locks_iff.mp hl).1 hkey
    rw [Gate.windowCount, hrows, counted_of_not_locks hlocks]
    rfl

lemma sound_commit (h : Sound σ s) (hget : s.acquires.get id = some a) :
    Sound σ (s.commit σ id a) := by
  have hfits := h.consistent.fits id a hget
  by_cases hphase : a.phase = .updated
  · have hgrants : (s.commit σ id a).grants =
        ⟨a.account, a.priority, a.began, s.clock⟩ :: s.grants := by simp [Gate.commit, hphase]
    have hclock : (s.commit σ id a).clock = s.clock := by simp [Gate.commit, hphase]
    refine ⟨consistent_commit h.consistent hget, fun k hk => ?_, fun k limits hlimits => ?_⟩
    · rw [hclock] at hk
      rw [hgrants, List.countP_cons, windowCount_commit hfits hphase]
      have hbefore := h.counted k hk
      simp only [beganIn_iff]
      omega
    · rw [hgrants, List.countP_cons]
      by_cases hkept : Grant.keptIn σ k ⟨a.account, a.priority, a.began, s.clock⟩ = true
      · rw [if_pos hkept]
        simp only [Grant.keptIn, Bool.and_eq_true, beganIn_iff, decide_eq_true_eq] at hkept
        obtain ⟨hkey, hin⟩ := hkept
        have hsome : limits = a.limits := by
          have haccount : k.account = a.account := by rw [← hkey]; rfl
          rw [haccount, hfits.limits] at hlimits
          exact (Option.some.inj hlimits).symm
        have hfewer : s.grants.countP (Grant.keptIn σ k) ≤ s.grants.countP (Grant.beganIn σ k) :=
          List.countP_mono_left fun g _ hg => (Bool.and_eq_true_iff.mp hg).1
        have hbelow := hfits.below hphase k.window
        have hcapacity := a.capacity_le (σ := σ) k.window
        have hcounted := h.counted k hin
        rw [hkey] at hbelow
        rw [hsome]
        omega
      · rw [if_neg hkept]
        exact h.bounded k limits hlimits
  · have hsame : s.commit σ id a = s := by
      unfold Gate.commit
      split
      · next h' => exact absurd h' hphase
      · rfl
    rwa [hsame]

/-- What leaves the grants alone and lowers no count whose row is kept. -/
lemma Sound.of_frame {s' : Gate} (h : Sound σ s) (hconsistent : Consistent σ s')
    (hclock : s.clock ≤ s'.clock) (hgrants : s'.grants = s.grants)
    (hrows : ∀ k, s'.clock ≤ k.start + RETENTION → s'.windowCount k = s.windowCount k) :
    Sound σ s' where
  consistent := hconsistent
  counted := fun k hk => by
    rw [hgrants, hrows k hk]
    exact h.counted k (hclock.trans hk)
  bounded := fun k limits hlimits => by
    rw [hgrants]
    exact h.bounded k limits hlimits

/-- The statements before the commit change nothing that is committed. -/
def Private (s s' : Gate) : Prop := s'.clock = s.clock ∧ s'.rows = s.rows ∧ s'.grants = s.grants

lemma Private.refl (s : Gate) : Private s s := ⟨rfl, rfl, rfl⟩

lemma private_insert : Private s (s.insert σ id a) := by
  unfold Gate.insert
  split
  · split_ifs <;> exact ⟨rfl, rfl, rfl⟩
  · exact .refl s

lemma private_select : Private s (s.select σ id a) := by
  unfold Gate.select
  split
  · exact ⟨rfl, rfl, rfl⟩
  · exact .refl s

lemma private_lock : Private s (s.lock σ id a) := by
  unfold Gate.lock
  split
  · exact ⟨rfl, rfl, rfl⟩
  · split
    · split_ifs <;> exact ⟨rfl, rfl, rfl⟩
    · exact ⟨rfl, rfl, rfl⟩
  · exact .refl s

lemma private_check : Private s (s.check σ id a) := by
  unfold Gate.check
  split
  · split_ifs <;> exact ⟨rfl, rfl, rfl⟩
  · exact .refl s

/-- A commit and a pruning are the only steps that others see, but for the clock. -/
lemma step_cases (s : Gate) (e : Event) :
    (∃ t, e = .tick t) ∨ (∃ began k, e = .prune began k) ∨
      (∃ id a, e = .commit id ∧ s.acquires.get id = some a ∧ a.phase = .updated ∧
        step σ s e = s.commit σ id a) ∨ Private s (step σ s e) := by
  have hlift : ∀ (f : ℕ → Acquire → Gate) id, (∀ a, Private s (f id a)) →
      Private s (((s.acquires.get id).map (f id)).getD s) := by
    intro f id hf
    cases s.acquires.get id with
    | none => exact .refl s
    | some a => exact hf a
  cases e with
  | tick t => exact .inl ⟨t, rfl⟩
  | «begin» id account priority =>
    refine .inr (.inr (.inr ?_))
    simp only [step]
    split
    · exact ⟨rfl, rfl, rfl⟩
    · exact .refl s
  | insert id => exact .inr (.inr (.inr (hlift _ id fun a => private_insert)))
  | select id => exact .inr (.inr (.inr (hlift _ id fun a => private_select)))
  | lock id => exact .inr (.inr (.inr (hlift _ id fun a => private_lock)))
  | check id => exact .inr (.inr (.inr (hlift _ id fun a => private_check)))
  | commit id =>
    cases hget : s.acquires.get id with
    | none => exact .inr (.inr (.inr (by simp only [step, hget]; exact .refl s)))
    | some a =>
      by_cases hphase : a.phase = .updated
      · exact .inr (.inr (.inl ⟨id, a, rfl, hget, hphase, by simp [step, hget]⟩))
      · refine .inr (.inr (.inr ?_))
        simp only [step, hget, Option.map_some, Option.getD_some, Gate.commit]
        exact .refl s
  | abort id => exact .inr (.inr (.inr ⟨rfl, rfl, rfl⟩))
  | prune began k => exact .inr (.inl ⟨began, k, rfl⟩)

lemma sound_step (h : Sound σ s) (e : Event) : Sound σ (step σ s e) := by
  have hconsistent := consistent_step h.consistent e
  rcases step_cases (σ := σ) s e with
    ⟨t, rfl⟩ | ⟨began, k, rfl⟩ | ⟨id, a, rfl, hget, _, heq⟩ | hprivate
  · exact h.of_frame hconsistent (le_max_left _ _) rfl fun _ _ => rfl
  · by_cases hprune : began ≤ s.clock ∧ k.start + RETENTION < began ∧
        ¬ s.acquires.entries.any fun e => e.2.locks σ k
    · simp only [step, if_pos hprune] at hconsistent ⊢
      refine h.of_frame hconsistent (le_refl _) rfl fun j hj => ?_
      -- the row is too old to be counted on
      have hne : j ≠ k := by
        rintro rfl
        exact absurd hj (by dsimp only; omega)
      simp [Gate.windowCount, hne]
    · simp only [step, if_neg hprune]
      exact h
  · rw [heq]
    exact sound_commit h hget
  · obtain ⟨hclock, hrows, hgrants⟩ := hprivate
    exact h.of_frame hconsistent hclock.ge hgrants fun k _ => by rw [Gate.windowCount, hrows]; rfl

lemma sound_init : Sound σ {} where
  consistent := ⟨nofun, nofun, nofun⟩
  counted := fun _ _ => Nat.zero_le _
  bounded := fun _ _ _ => Nat.zero_le _

/-! ### Every run -/

/-- A commit finds less in each window than its priority may use. -/
def GrantsBelow (σ : Setting) (s : Gate) (e : Event) : Prop :=
  ∀ id a, e = .commit id → s.acquires.get id = some a → a.phase = .updated →
    ∀ w, (s.windowCount (a.key σ w) : ℤ) < a.capacity σ w

/-- Rows change only where an acquire is granted or a row is pruned. -/
def CountsGrants (σ : Setting) (s : Gate) (e : Event) : Prop :=
  (step σ s e).rows = s.rows ∨ (∃ began k, e = .prune began k) ∨
    ∃ id a, e = .commit id ∧ s.acquires.get id = some a ∧
      (step σ s e).grants = ⟨a.account, a.priority, a.began, s.clock⟩ :: s.grants

lemma countsGrants (s : Gate) (e : Event) : CountsGrants σ s e := by
  rcases step_cases (σ := σ) s e with ⟨t, rfl⟩ | hprune | ⟨id, a, rfl, hget, hphase, heq⟩ | hprivate
  · exact .inl rfl
  · exact .inr (.inl hprune)
  · refine .inr (.inr ⟨id, a, rfl, hget, ?_⟩)
    rw [heq]
    simp [Gate.commit, hphase]
  · exact .inl hprivate.2.1

/--
**The grants that began in a window, and committed before its row can be pruned, are at most its
limit; a grant finds each window below what its priority may use; and nothing but a grant changes a
count.** Where all grants commit in the window they began in, those that commit in one are at most
its limit too.
-/
theorem quota_of_begin (σ : Setting) (events : List Event) :
    (∀ k limits, σ.limitsOf k.account = some limits →
      (run (step σ) {} events).grants.countP (Grant.keptIn σ k) ≤ limits.limit k.window) ∧
    (∀ k limits, σ.limitsOf k.account = some limits →
      (∀ t, t ≤ σ.dateTrunc k.window t + RETENTION) →
      (∀ g ∈ (run (step σ) {} events).grants,
        σ.dateTrunc k.window g.began = σ.dateTrunc k.window g.committed) →
      (run (step σ) {} events).grants.countP (Grant.committedIn σ k) ≤ limits.limit k.window) ∧
    Allowed (step σ) (GrantsBelow σ) {} events ∧ Allowed (step σ) (CountsGrants σ) {} events := by
  have hsound : Sound σ (run (step σ) {} events) := Run.invariant (I := Sound σ)
    (fun _ e h => sound_step h e) sound_init events
  refine ⟨hsound.bounded, fun k limits hlimits hshort hprompt => ?_, ?_, ?_⟩
  · calc (run (step σ) {} events).grants.countP (Grant.committedIn σ k)
        ≤ (run (step σ) {} events).grants.countP (Grant.keptIn σ k) := by
          refine List.countP_mono_left fun g hg hcommitted => ?_
          simp only [Grant.committedIn, Grant.keptIn, Grant.beganIn, Bool.and_eq_true,
            decide_eq_true_eq] at hcommitted ⊢
          obtain ⟨haccount, hstart⟩ := hcommitted
          have hlast := hshort g.committed
          exact ⟨⟨haccount, (hprompt g hg).trans hstart⟩, by rwa [hstart] at hlast⟩
      _ ≤ limits.limit k.window := hsound.bounded k limits hlimits
  · have hany : Allowed (step σ) (fun _ _ => True) {} events :=
      allowed_of_always (fun _ _ => trivial) _ _
    refine Run.allowed_of_invariant (I := Sound σ) (fun s e _ h => sound_step h e) ?_ sound_init
      hany
    intro s e _ h id a _ hget hphase w
    exact (h.consistent.fits id a hget).below hphase w
  · exact allowed_of_always countsGrants _ _

/-! ### Grants that straddle -/

def oneCall : QuotaLimits := ⟨1, 10, 100, 1 / 5, FALLBACK_LIMITS.isShare, by norm_num⟩

/-- A setting in universal time, with one call a minute. -/
def oneAMinute : Setting where
  dateTrunc := fun w t => t - t % match w with
    | .minute => 60000000
    | .hour => 3600000000
    | .day => 86400000000
  doubles := ⟨fun q => q, monotone_id, fun _ _ => rfl⟩
  limitsOf := fun _ => some oneCall

/-- Every statement of a transaction up to its commit. -/
def statements (id : ℕ) : List Event :=
  [.insert id, .insert id, .insert id, .select id, .lock id, .lock id, .lock id, .check id]

/-- One begins a second before the minute ends and commits after it, and another follows. -/
def straddling : List Event :=
  [.tick 59000000, .begin 0 "a" .critical] ++ statements 0 ++ [.tick 60000000, .commit 0] ++
    [.begin 1 "a" .critical] ++ statements 1 ++ [.commit 1]

/-- Two begin in one minute; the second has its statements delayed until the row is pruned. -/
def outliving : List Event :=
  [.begin 0 "a" .critical, .begin 1 "a" .critical] ++ statements 0 ++ [.commit 0] ++
    [.tick 172800000001, .prune 172800000001 ⟨"a", .minute, 0⟩] ++ statements 1 ++ [.commit 1]

/-- Two grants commit in a minute that has one; and with a pruning between them two that began in
one do. -/
theorem quota_exceeded :
    (¬ ∀ events k limits, oneAMinute.limitsOf k.account = some limits →
      (run (step oneAMinute) {} events).grants.countP (Grant.committedIn oneAMinute k) ≤
        limits.limit k.window) ∧
    (¬ ∀ events k limits, oneAMinute.limitsOf k.account = some limits →
      (run (step oneAMinute) {} events).grants.countP (Grant.beganIn oneAMinute k) ≤
        limits.limit k.window) := by
  constructor
  · intro h
    exact absurd (h straddling ⟨"a", .minute, 60000000⟩ oneCall rfl) (by decide +kernel)
  · intro h
    exact absurd (h outliving ⟨"a", .minute, 0⟩ oneCall rfl) (by decide +kernel)

end Tnp.Services
