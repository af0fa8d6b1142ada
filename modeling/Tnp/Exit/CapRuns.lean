import Mathlib.Tactic.IntervalCases
import Tnp.Exit.TrafficCap

/-!
What the traffic cap keeps through failures and restarts.

The throttle is where it should be as long as the agent knows what the kernel holds, and no byte is
lost as long as the file can be read back.
-/

namespace Tnp.Exit.TrafficCap

open Tnp.Lib Tnp.Lib.Run Tnp.Crypto Tnp.Namespace

variable {κ : Type*} (d : Deps κ)

/-! ### The throttle -/

/-- The level of a tick that has persisted it. -/
def Phase.level : Phase → Option CapLevel
  | .saved level | .told level | .done level => some level
  | _ => none

def throttles (level : CapLevel) : Bool := level = .capped

/-- After a tick that completed, the table is in the kernel exactly when the bytes persisted have
reached the cap. -/
def TableRight (w : World κ) : Prop :=
  ∀ a level, w.agent = some a → a.phase = .done level → ∃ state, a.state = some state ∧
    w.file = some state.value ∧
      d.nft.hasCapTable w.kernel = decide (d.settings.capBytes ≤ state.bytes)

/-- Where a tick finds its level to be the one that `nft` last confirmed, no script that failed has
been applied since. -/
def Sure (w : World κ) : Event → Prop
  | .nft _ => ∀ a level, w.agent = some a → a.phase = .saved level →
      a.throttled = some (throttles level) → w.unsure = false
  | _ => True

/-- What an agent holds to be in the kernel is there, but for a script that failed. -/
structure Told (w : World κ) (a : Agent) : Prop where
  belief : ∀ b, a.throttled = some b → (∀ level, a.phase ≠ .told level) →
    d.nft.hasCapTable w.kernel = (b ^^ w.unsure)
  kept : ∀ level, a.phase.level = some level → ∃ state, a.state = some state ∧
    w.file = some state.value ∧ capLevel state d.settings = level
  told : ∀ level, a.phase = .told level → d.nft.hasCapTable w.kernel = throttles level
  done : ∀ level, a.phase = .done level → a.throttled = some (throttles level)

def AllTold (w : World κ) : Prop := ∀ a, w.agent = some a → Told d w a

section Table

variable {d} {w : World κ}

lemma throttles_capLevel (state : CapState) (settings : CapSettings) :
    throttles (capLevel state settings) = decide (settings.capBytes ≤ state.bytes) := by
  unfold throttles capLevel
  split_ifs with hcap hwarn <;> simp [hcap]

lemma hasCapTable_load {script : String} {throttle : Bool} (k : κ)
    (h : World.script d throttle = some script) :
    d.nft.hasCapTable (d.nft.load script k) = throttle := by
  cases throttle with
  | true => exact d.nft.load_throttle _ _ _ k h
  | false =>
    obtain rfl := Option.some.inj h
    exact d.nft.load_unthrottle k

/-- A phase that has neither persisted a level nor told the kernel keeps only the belief. -/
lemma Told.of_early {w' : World κ} {a b : Agent} (h : Told d w a)
    (hphase : ∀ level, a.phase ≠ .told level) (hearly : b.phase.level = none)
    (hthrottled : b.throttled = a.throttled) (hkernel : w'.kernel = w.kernel)
    (hunsure : w'.unsure = w.unsure) : Told d w' b where
  belief c hc _ := by
    rw [hkernel, hunsure]
    exact h.belief c (hthrottled ▸ hc) hphase
  kept level hlevel := by
    rw [hearly] at hlevel
    contradiction
  told level hlevel := by
    rw [hlevel] at hearly
    contradiction
  done level hlevel := by
    rw [hlevel] at hearly
    contradiction

lemma AllTold.of_none (h : w.agent = none) : AllTold d w :=
  fun _ ha => absurd (h.symm.trans ha) nofun

lemma AllTold.start (h : AllTold d w) : AllTold d w.start := by
  unfold World.start
  split
  · exact h
  · rintro a ha
    obtain rfl := Option.some.inj ha
    exact ⟨nofun, nofun, nofun, nofun⟩

lemma AllTold.tick (h : AllTold d w) (now : ℤ) (reading : CounterReading) :
    AllTold d (w.tick now reading) := by
  unfold World.tick
  split
  · next hagent =>
    split
    · rintro a ha
      obtain rfl := Option.some.inj ha
      exact (h _ hagent).of_early nofun rfl rfl rfl rfl
    · exact h
  · next hagent =>
    split
    · rintro a ha
      obtain rfl := Option.some.inj ha
      exact (h _ hagent).of_early nofun rfl rfl rfl rfl
    · exact h
  · exact h

lemma AllTold.warn (h : AllTold d w) : AllTold d (w.warn d) := by
  unfold World.warn
  split
  · next hagent =>
    split
    all_goals
      rintro a ha
      obtain rfl := Option.some.inj ha
      exact (h _ hagent).of_early nofun rfl rfl rfl rfl
  · exact h

lemma AllTold.save (h : AllTold d w) : AllTold d (w.save d) := by
  unfold World.save
  split
  · next hagent =>
    rintro a ha
    obtain rfl := Option.some.inj ha
    refine ⟨fun b hb _ => (h _ hagent).belief b hb nofun, fun level hlevel => ?_, nofun, nofun⟩
    obtain rfl := Option.some.inj hlevel
    exact ⟨_, rfl, rfl, rfl⟩
  · exact h

lemma AllTold.nft (h : AllTold d w) (outcome : NftOutcome) : AllTold d (w.nft d outcome) := by
  unfold World.nft
  split
  · next state throttled level hagent =>
    have hold := h _ hagent
    obtain ⟨persisted, hstate, hfile, hlevel⟩ := hold.kept level rfl
    split
    · next hsame =>
      rintro a ha
      obtain rfl := Option.some.inj ha
      refine ⟨fun b hb _ => hold.belief b hb nofun, fun l hl => ?_, nofun, fun l hl => ?_⟩
      · obtain rfl := Option.some.inj hl
        exact ⟨persisted, hstate, hfile, hlevel⟩
      · obtain rfl := Phase.done.inj hl
        exact hsame
    · next hother =>
      split
      · next script hscript =>
        rintro a ha
        obtain rfl := Option.some.inj ha
        refine ⟨fun b hb hne => absurd rfl (hne level), fun l hl => ?_, fun l hl => ?_, nofun⟩
        · obtain rfl := Option.some.inj hl
          exact ⟨persisted, hstate, hfile, hlevel⟩
        · obtain rfl := Phase.told.inj hl
          exact hasCapTable_load _ hscript
      · next script hscript =>
        rintro a ha
        obtain rfl := Option.some.inj ha
        refine ⟨fun b hb _ => ?_, nofun, nofun, nofun⟩
        -- The script was run because the belief was the other level.
        have hne : b ≠ (level = .capped : Bool) := fun he => hother (hb.trans (congrArg some he))
        rw [hasCapTable_load _ hscript, Bool.xor_true]
        exact (Bool.eq_not_of_ne hne.symm)
      · rintro a ha
        obtain rfl := Option.some.inj ha
        exact hold.of_early nofun rfl rfl rfl rfl
  · exact h

lemma AllTold.settle (h : AllTold d w) : AllTold d w.settle := by
  unfold World.settle
  split
  · next level hagent =>
    have hold := h _ hagent
    rintro a ha
    obtain rfl := Option.some.inj ha
    refine ⟨fun b hb _ => ?_, fun l hl => hold.kept l hl, nofun, fun l hl => ?_⟩
    · obtain rfl := Option.some.inj hb
      rw [Bool.xor_false]
      exact hold.told level rfl
    · obtain rfl := Phase.done.inj hl
      rfl
  · exact h

theorem AllTold.step (h : AllTold d w) (e : Event) : AllTold d (w.step d e) := by
  cases e with
  | start => exact h.start
  | tick now reading => exact h.tick now reading
  | warn => exact h.warn
  | save => exact h.save
  | nft outcome => exact h.nft outcome
  | settle => exact h.settle
  | stop =>
    unfold World.step World.stop
    dsimp only
    split
    · exact .of_none rfl
    · exact .of_none rfl
    · exact .of_none rfl
    · exact h
  | crash => exact .of_none rfl
  | reboot =>
    unfold World.step World.reboot
    dsimp only
    split
    · next hnone => exact .of_none hnone
    · exact h

/-- No tick has completed since a script that failed was applied. -/
def Clear (w : World κ) : Prop :=
  ∀ a level, w.agent = some a → a.phase = .done level → w.unsure = false

lemma tableRight_iff (h : AllTold d w) : TableRight d w ↔ Clear w := by
  have hdone {a : Agent} {level : CapLevel} (ha : w.agent = some a)
      (hphase : a.phase = .done level) :
      ∃ state, a.state = some state ∧ w.file = some state.value ∧
        d.nft.hasCapTable w.kernel =
          (decide (d.settings.capBytes ≤ state.bytes) ^^ w.unsure) := by
    have hold := h a ha
    obtain ⟨state, hstate, hfile, hlevel⟩ := hold.kept level (by rw [hphase]; rfl)
    refine ⟨state, hstate, hfile, ?_⟩
    rw [hold.belief _ (hold.done level hphase) (by simp [hphase]), ← hlevel, throttles_capLevel]
  constructor
  · intro hright a level ha hphase
    obtain ⟨state, hstate, -, htable⟩ := hright a level ha hphase
    obtain ⟨state', hstate', -, htable'⟩ := hdone ha hphase
    obtain rfl := Option.some.inj (hstate.symm.trans hstate')
    rw [htable] at htable'
    cases hunsure : w.unsure with
    | false => rfl
    | true =>
      rw [hunsure, Bool.xor_true] at htable'
      exact absurd htable'.symm (Bool.not_ne_self _)
  · intro hclear a level ha hphase
    obtain ⟨state, hstate, hfile, htable⟩ := hdone ha hphase
    rw [hclear a level ha hphase, Bool.xor_false] at htable
    exact ⟨state, hstate, hfile, htable⟩

lemma Clear.of_phase {w : World κ} (h : ∀ a level, w.agent = some a → a.phase ≠ .done level) :
    Clear w := fun a level ha hphase => absurd hphase (h a level ha)

lemma Clear.of_none {w : World κ} (h : w.agent = none) : Clear w :=
  .of_phase fun _ _ ha => absurd (h.symm.trans ha) nofun

/-- A tick completes where `nft` need not be run, or has just succeeded. -/
lemma clear_step (h : Clear w) (e : Event) : Clear (w.step d e) ↔ Sure w e := by
  have hopen {w' : World κ} {a : Agent} (ha : w'.agent = some a)
      (hphase : ∀ level, a.phase ≠ .done level) : Clear w' :=
    .of_phase fun b level hb => (Option.some.inj (ha.symm.trans hb)) ▸ hphase level
  cases e with
  | nft outcome =>
    unfold World.step World.nft
    dsimp only
    split
    · next state throttled level hagent =>
      split
      · next hsame =>
        constructor
        · intro hclear a l ha hphase _
          obtain rfl := Option.some.inj (hagent.symm.trans ha)
          exact hclear _ level rfl rfl
        · intro hsure a l ha hphase
          exact hsure _ level hagent rfl hsame
      · next hother =>
        have hsure : Sure w (.nft outcome) := by
          intro a l ha hphase hthrottled
          obtain rfl := Option.some.inj (hagent.symm.trans ha)
          obtain rfl := Phase.saved.inj hphase
          exact absurd hthrottled hother
        refine iff_of_true ?_ hsure
        split
        · exact hopen rfl nofun
        · exact hopen rfl nofun
        · exact hopen rfl nofun
    · next hphase =>
      refine iff_of_true h fun a l ha hsaved _ => ?_
      exact absurd ha fun hagent => by
        obtain ⟨state, throttled, phase⟩ := a
        dsimp only at hsaved
        subst hsaved
        exact hphase _ _ _ hagent
  | start =>
    refine iff_of_true ?_ trivial
    unfold World.step World.start
    dsimp only
    split
    · exact h
    · exact hopen rfl nofun
  | tick now reading =>
    refine iff_of_true ?_ trivial
    unfold World.step World.tick
    dsimp only
    split
    · split
      · exact hopen rfl nofun
      · exact h
    · split
      · exact hopen rfl nofun
      · exact h
    · exact h
  | warn =>
    refine iff_of_true ?_ trivial
    unfold World.step World.warn
    dsimp only
    split
    · split
      · exact hopen rfl nofun
      · exact hopen rfl nofun
    · exact h
  | save =>
    refine iff_of_true ?_ trivial
    unfold World.step World.save
    dsimp only
    split
    · exact hopen rfl nofun
    · exact h
  | settle =>
    refine iff_of_true ?_ trivial
    unfold World.step World.settle
    dsimp only
    split
    · exact fun _ _ _ _ => rfl
    · exact h
  | stop =>
    refine iff_of_true ?_ trivial
    unfold World.step World.stop
    dsimp only
    split
    · exact Clear.of_none rfl
    · exact Clear.of_none rfl
    · exact Clear.of_none rfl
    · exact h
  | crash => exact iff_of_true (Clear.of_none rfl) trivial
  | reboot =>
    refine iff_of_true ?_ trivial
    unfold World.step World.reboot
    dsimp only
    split
    · next hnone => exact Clear.of_none hnone
    · exact h

/-- **The table is right after every tick that completes if and only if the agent is never mistaken
about the kernel.** -/
theorem tableRight_run (h : AllTold d w) (hclear : Clear w) (es : List Event) :
    Allowed (World.step d) (fun w e => TableRight d (w.step d e)) w es ↔
      Allowed (World.step d) Sure w es := by
  refine allowed_congr (I := fun w => AllTold d w ∧ Clear w) (fun w e hright hw => ?_)
    (fun w e hw => ?_) ⟨h, hclear⟩ es
  · exact ⟨hw.1.step e, (tableRight_iff (hw.1.step e)).mp hright⟩
  · exact (tableRight_iff (hw.1.step e)).trans (clear_step hw.2 e)

end Table

/-! ### The bytes -/

/-- What a reading shows that was not counted yet: all of it after a reset. -/
def increaseTo (state : CapState) (reading : CounterReading) : ℕ :=
  if restarted state reading then reading.rx.val + reading.tx.val
  else (reading.rx.val - state.lastRx.val) + (reading.tx.val - state.lastTx.val)

def CapState.reading (state : CapState) : CounterReading :=
  ⟨state.lastRx, state.lastTx, state.bootId⟩

/-- The increases between consecutive persisted readings, the latest first, of which the later one
is of a month. -/
def attributed (month : String) : List CapState → ℕ
  | next :: state :: rest =>
    (if next.month = month then increaseTo state next.reading else 0) +
      attributed month (state :: rest)
  | _ => 0

/-- What was persisted, the latest first, before the run included. -/
def persisted (base : Option CapState) (w : World κ) : List CapState :=
  w.trail.map Prod.snd ++ base.toList

/-- The persisted bytes of a month are no fewer than the increases that are attributed to it. -/
def Counted (base : Option CapState) (w : World κ) : Prop :=
  ∀ state, (persisted base w).head? = some state →
    attributed state.month (persisted base w) ≤ state.bytes

/-- What a tick makes of its reading can be read back: the month's total is an integer that a double
holds, and the month and the boot are written as the file's reader expects them. -/
def Countable (w : World κ) : Event → Prop
  | .tick now reading => FourDigits now ∧ (units reading.bootId).length ≤ 64 ∧
      ∀ a state, w.agent = some a → a.state = some state →
        (if state.month = monthKey now then state.bytes else 0) + increaseTo state reading ≤
          MAX_SAFE_INTEGER
  | _ => True

section Months

/-- Two times are of one month if and only if their keys are the same. -/
lemma monthKey_inj {t u : ℤ} (ht : FourDigits t) (hu : FourDigits u) :
    monthKey t = monthKey u ↔ monthIndex (t / DAY_MS) = monthIndex (u / DAY_MS) := by
  have hdash (width n : ℕ) : '-' ∉ (padStart width n).toList := by
    rw [toList_padStart]
    intro hmem
    rcases List.mem_append.mp hmem with hmem | hmem
    · exact absurd (List.eq_of_mem_replicate hmem) (by decide)
    · exact absurd (Nat.isDigit_of_mem_toDigits (by omega) le_rfl hmem) (by decide)
  constructor
  · intro h
    have hlist := String.ofList_injective h
    rw [take_toISOString ht, take_toISOString hu] at hlist
    obtain ⟨hyear, -, hmonth⟩ :=
      (List.append_cons_inj_of_notMem (hdash _ _) (hdash _ _)).mp hlist
    obtain ⟨-, -, ht'⟩ := monthIndex_eq (t / DAY_MS)
    obtain ⟨-, -, hu'⟩ := monthIndex_eq (u / DAY_MS)
    obtain ⟨ht0, ht1⟩ := ht
    obtain ⟨hu0, hu1⟩ := hu
    have hy := padStart_injective (by omega) (by omega) (by omega) hyear
    have hm := padStart_injective (by omega) (by omega) (by omega) hmonth
    unfold monthIndex
    omega
  · intro h
    obtain ⟨hyear, hmonth⟩ := civilDate_eq_of_monthIndex h
    unfold monthKey
    rw [take_toISOString ht, take_toISOString hu, hyear, hmonth]

/-- A month is an interval of times. -/
lemma monthKey_between {t u v : ℤ} (ht : FourDigits t) (hu : FourDigits u) (hv : FourDigits v)
    (htu : t ≤ u) (huv : u ≤ v) (h : monthKey t = monthKey v) : monthKey u = monthKey v := by
  rw [monthKey_inj ht hv] at h
  rw [monthKey_inj hu hv]
  have hday : (0 : ℤ) < DAY_MS := by decide
  have hfirst := monthIndex_mono (Int.ediv_le_ediv hday htu)
  have hlast := monthIndex_mono (Int.ediv_le_ediv hday huv)
  omega

lemma isMonth_monthKey {t : ℤ} (ht : FourDigits t) : isMonth (monthKey t) = true := by
  obtain ⟨ht0, ht1⟩ := ht
  obtain ⟨-, hm0, hm1⟩ := monthIndex_eq (t / DAY_MS)
  obtain ⟨hlength, hdigits, -⟩ := padStart_spec 4
    (civilDate (t / DAY_MS)).1.toNat (by omega) (by omega)
  unfold isMonth monthKey
  rw [String.toList_ofList, take_toISOString ⟨ht0, ht1⟩]
  generalize (padStart 4 (civilDate (t / DAY_MS)).1.toNat).toList = year at hlength hdigits
  generalize (civilDate (t / DAY_MS)).2.1 = month at hm0 hm1
  have hmonth : ∃ m n, (padStart 2 month).toList = [m, n] ∧
      (m == '0' && '1' ≤ n && n ≤ '9' || m == '1' && '0' ≤ n && n ≤ '2') = true := by
    rw [toList_padStart]
    interval_cases month
    all_goals exact ⟨_, _, rfl, by decide⟩
  obtain ⟨m, n, hmonth, hrange⟩ := hmonth
  match year, hlength with
  | [a, b, c, e], _ =>
    rw [hmonth]
    simp only [List.cons_append, List.nil_append]
    rw [hrange, Bool.and_true]
    exact List.all_eq_true.mpr hdigits

end Months

/-! ### What is persisted -/

/-- The file's reader takes a state for what it is. -/
structure Readable (state : CapState) : Prop where
  month : isMonth state.month = true
  bytes_le : state.bytes ≤ MAX_SAFE_INTEGER
  bootId_le : (units state.bootId).length ≤ 64

lemma count_number {n : ℕ} (h : n ≤ MAX_SAFE_INTEGER) : count (.number n) = some ⟨n, h⟩ := by
  simp [count, safeUint, h]

lemma parseCapState_value {state : CapState} (h : Readable state) :
    parseCapState (some state.value) = some state := by
  simp [parseCapState, CapState.value, Value.field, List.lookup_cons, count_number h.bytes_le,
    count_number state.lastRx.property, count_number state.lastTx.property, h.month, h.bootId_le]

/-- What a tick at `now` makes of the state before it. -/
structure Advances (prev : Option CapState) (now : ℤ) (next : CapState) : Prop where
  time : FourDigits now
  month : next.month = monthKey now
  readable : Readable next
  bytes : ∀ state, prev = some state →
    next.bytes = (if state.month = next.month then state.bytes else 0) +
      increaseTo state next.reading
  warned : ∀ state, prev = some state → state.month = next.month → state.warned = true →
    next.warned = true

section Advance

attribute [local irreducible] monthKey restarted Binary64.add

variable (state : CapState) (reading : CounterReading) (now : ℤ)

lemma advanceCap_month (prev : Option CapState) :
    (advanceCap prev reading now).month = monthKey now := by
  cases prev <;> rfl

lemma advanceCap_reading (prev : Option CapState) :
    (advanceCap prev reading now).reading = reading := by
  cases prev <;> rfl

lemma advanceCap_warned : (advanceCap (some state) reading now).warned =
    if state.month = monthKey now then state.warned else false := rfl

variable {state reading now} in
lemma advanceCap_bytes
    (h : (if state.month = monthKey now then state.bytes else 0) + increaseTo state reading ≤
      MAX_SAFE_INTEGER) : (advanceCap (some state) reading now).bytes =
        (if state.month = monthKey now then state.bytes else 0) + increaseTo state reading := by
  have hmax : MAX_SAFE_INTEGER < 2 ^ 53 := by decide
  have hbytes : (advanceCap (some state) reading now).bytes =
      Binary64.add (if state.month = monthKey now then state.bytes else 0)
        (if restarted state reading then Binary64.add reading.rx.val reading.tx.val
        else Binary64.add (reading.rx.val - state.lastRx.val)
          (reading.tx.val - state.lastTx.val)) := rfl
  rw [hbytes]
  unfold increaseTo at h ⊢
  by_cases hrestarted : restarted state reading
  · rw [if_pos hrestarted] at h ⊢
    rw [if_pos hrestarted, Binary64.add_of_lt (m := reading.rx.val) (by omega),
      Binary64.add_of_lt (by omega)]
  · rw [if_neg hrestarted] at h ⊢
    rw [if_neg hrestarted, Binary64.add_of_lt (m := reading.rx.val - state.lastRx.val)
      (by omega), Binary64.add_of_lt (by omega)]

end Advance

lemma advances {prev : Option CapState} {now : ℤ} {reading : CounterReading}
    (htime : FourDigits now) (hboot : (units reading.bootId).length ≤ 64)
    (htotal : ∀ state, prev = some state →
      (if state.month = monthKey now then state.bytes else 0) + increaseTo state reading ≤
        MAX_SAFE_INTEGER) : Advances prev now (advanceCap prev reading now) := by
  have hmonth := advanceCap_month reading now prev
  have hbytes (state : CapState) (hprev : prev = some state) :
      (advanceCap prev reading now).bytes =
        (if state.month = monthKey now then state.bytes else 0) + increaseTo state reading := by
    rw [hprev]
    exact advanceCap_bytes (htotal state hprev)
  constructor
  case time => exact htime
  case month => exact hmonth
  case readable =>
    constructor
    case month => exact hmonth ▸ isMonth_monthKey htime
    case bytes_le =>
      cases hprev : prev with
      | none => exact Nat.zero_le _
      | some state =>
        rw [← hprev, hbytes state hprev]
        exact htotal state hprev
    case bootId_le =>
      have hreading : (advanceCap prev reading now).bootId = reading.bootId :=
        congrArg CounterReading.bootId (advanceCap_reading reading now prev)
      rw [hreading]
      exact hboot
  case bytes =>
    intro state hprev
    rw [hbytes state hprev, hmonth, advanceCap_reading]
  case warned =>
    intro state hprev hsame hwarned
    rw [hmonth] at hsame
    rw [hprev, advanceCap_warned, if_pos hsame, hwarned]

/-- The state that is being persisted. -/
def Phase.next : Phase → Option CapState
  | .read next | .logged next => some next
  | _ => none

/-- What is in the file, in memory, and remembered of a run. -/
structure Recorded (base : Option CapState) (w : World κ) : Prop where
  current : parseCapState w.file = (persisted base w).head?
  memory : ∀ a, w.agent = some a → a.state = (persisted base w).head?
  next : ∀ a next, w.agent = some a → a.phase.next = some next →
    Advances (persisted base w).head? w.clock next
  months : ∀ p ∈ w.trail, FourDigits p.1 ∧ p.2.month = monthKey p.1
  times : ∀ p ∈ w.trail, p.1 ≤ w.clock ∧ ∀ q, w.trail.head? = some q → p.1 ≤ q.1
  counted : Counted base w

section Record

variable {d} {base : Option CapState} {w w' : World κ}

lemma attributed_cons_zero {month : String} {states : List CapState}
    (h : ∀ state ∈ states, state.month ≠ month) (base : Option CapState) :
    attributed month (states ++ base.toList) = 0 := by
  induction states with
  | nil => cases base <;> rfl
  | cons next rest ih =>
    rw [List.forall_mem_cons] at h
    cases hrest : rest ++ base.toList with
    | nil => simp [hrest, attributed]
    | cons state rest' =>
      have hzero := ih h.2
      rw [hrest] at hzero
      simp [hrest, attributed, h.1, hzero]

/-- Nothing was attributed to a month that begins with a tick. -/
lemma attributed_of_new (h : Recorded base w) {now : ℤ} (hnow : w.clock ≤ now)
    (htime : FourDigits now)
    (hnew : ∀ state, (persisted base w).head? = some state → state.month ≠ monthKey now) :
    attributed (monthKey now) (persisted base w) = 0 := by
  refine attributed_cons_zero (fun state hstate hmonth => ?_) base
  obtain ⟨p, hp, rfl⟩ := List.mem_map.mp hstate
  cases htrail : w.trail with
  | nil => simp [htrail] at hp
  | cons last rest =>
    have hlast : last ∈ w.trail := htrail ▸ List.mem_cons_self
    obtain ⟨hlastTime, hlastMonth⟩ := h.months last hlast
    obtain ⟨hpTime, hpMonth⟩ := h.months p hp
    have hbetween := monthKey_between hpTime hlastTime htime
      ((h.times p hp).2 last (by rw [htrail]; rfl)) ((h.times last hlast).1.trans hnow)
      (hpMonth.symm.trans hmonth)
    exact hnew last.2 (by simp [persisted, htrail]) (hlastMonth.trans hbetween)

lemma Recorded.of_new (hagent : w.agent = none) (htrail : w.trail = []) :
    Recorded (parseCapState w.file) w := by
  have hnobody (a : Agent) : w.agent ≠ some a := by
    rw [hagent]
    exact nofun
  have hpersisted : persisted (parseCapState w.file) w = (parseCapState w.file).toList := by
    rw [persisted, htrail]
    rfl
  refine ⟨?_, fun a ha => absurd ha (hnobody a), fun a _ ha => absurd ha (hnobody a), ?_, ?_, ?_⟩
  · rw [hpersisted, Option.head?_toList]
  · simp [htrail]
  · simp [htrail]
  · unfold Counted
    rw [hpersisted]
    cases parseCapState w.file with
    | none => exact nofun
    | some state => exact fun _ _ => Nat.zero_le _

/-- What touches neither the file nor the trail keeps the record. -/
lemma Recorded.of_same (h : Recorded base w) (hfile : w'.file = w.file)
    (htrail : w'.trail = w.trail) (hclock : w.clock ≤ w'.clock)
    (hagent : ∀ a, w'.agent = some a → a.state = (persisted base w).head? ∧
      ∀ next, a.phase.next = some next → Advances (persisted base w).head? w'.clock next) :
    Recorded base w' := by
  have hpersisted : persisted base w' = persisted base w := by rw [persisted, htrail]; rfl
  refine ⟨?_, fun a ha => ?_, fun a next ha hnext => ?_, ?_, ?_, ?_⟩
  · rw [hfile, hpersisted]
    exact h.current
  · rw [hpersisted]
    exact (hagent a ha).1
  · rw [hpersisted]
    exact (hagent a ha).2 next hnext
  · rw [htrail]
    exact h.months
  · rw [htrail]
    exact fun p hp => ⟨(h.times p hp).1.trans hclock, (h.times p hp).2⟩
  · unfold Counted
    rw [hpersisted]
    exact h.counted

lemma Recorded.gone (h : Recorded base w) : Recorded base { w with agent := none } :=
  h.of_same rfl rfl le_rfl nofun

lemma Recorded.start (h : Recorded base w) : Recorded base w.start := by
  unfold World.start
  split
  · exact h
  · refine h.of_same rfl rfl le_rfl fun a ha => ?_
    obtain rfl := Option.some.inj ha
    exact ⟨h.current, nofun⟩

lemma Recorded.tick (h : Recorded base w) {now : ℤ} {reading : CounterReading}
    (hcountable : Countable w (.tick now reading)) : Recorded base (w.tick now reading) := by
  obtain ⟨htime, hboot, htotal⟩ := hcountable
  have hread {a : Agent} (ha : w.agent = some a) :
      Advances (persisted base w).head? now (advanceCap a.state reading now) := by
    rw [h.memory a ha]
    exact advances htime hboot fun state hstate =>
      htotal a state ha ((h.memory a ha).trans hstate)
  unfold World.tick
  split
  · next hagent =>
    have hstate := h.memory _ hagent
    split
    · next hclock =>
      refine h.of_same rfl rfl hclock fun a ha => ?_
      obtain rfl := Option.some.inj ha
      refine ⟨hstate, fun next hnext => ?_⟩
      obtain rfl := Option.some.inj hnext
      exact hread hagent
    · exact h
  · next hagent =>
    have hstate := h.memory _ hagent
    split
    · next hclock =>
      refine h.of_same rfl rfl hclock fun a ha => ?_
      obtain rfl := Option.some.inj ha
      refine ⟨hstate, fun next hnext => ?_⟩
      obtain rfl := Option.some.inj hnext
      exact hread hagent
    · exact h
  · exact h

lemma Recorded.warn (h : Recorded base w) : Recorded base (w.warn d) := by
  unfold World.warn
  split
  · next next hagent =>
    have hnext := h.next _ next hagent rfl
    have hstate := h.memory _ hagent
    split
    · refine h.of_same rfl rfl le_rfl fun a ha => ?_
      obtain rfl := Option.some.inj ha
      refine ⟨hstate, fun next' hnext' => ?_⟩
      obtain rfl := Option.some.inj hnext'
      exact ⟨hnext.time, hnext.month, ⟨hnext.readable.month, hnext.readable.bytes_le,
        hnext.readable.bootId_le⟩, hnext.bytes, fun _ _ _ _ => rfl⟩
    · refine h.of_same rfl rfl le_rfl fun a ha => ?_
      obtain rfl := Option.some.inj ha
      refine ⟨hstate, fun next' hnext' => ?_⟩
      obtain rfl := Option.some.inj hnext'
      exact hnext
  · exact h

lemma Recorded.save (h : Recorded base w) : Recorded base (w.save d) := by
  unfold World.save
  split
  · next throttled next hagent =>
    have hnext := h.next _ next hagent rfl
    have htimes : ∀ p ∈ (w.clock, next) :: w.trail, p.1 ≤ w.clock := by
      rw [List.forall_mem_cons]
      exact ⟨le_rfl, fun p hp => (h.times p hp).1⟩
    refine ⟨parseCapState_value hnext.readable, fun a ha => ?_, fun a next' ha hnext' => ?_, ?_,
      fun p hp => ⟨htimes p hp, fun q hq => ?_⟩, fun state hstate => ?_⟩
    · obtain rfl := Option.some.inj ha
      rfl
    · obtain rfl := Option.some.inj ha
      contradiction
    · rw [List.forall_mem_cons]
      exact ⟨⟨hnext.time, hnext.month⟩, h.months⟩
    · obtain rfl := Option.some.inj hq
      exact htimes p hp
    · obtain rfl := Option.some.inj hstate
      have hcons : persisted base { w with
          file := some next.value
          trail := (w.clock, next) :: w.trail
          agent := some ⟨some next, throttled, .saved (capLevel next d.settings)⟩ } =
          next :: persisted base w := rfl
      rw [hcons]
      cases hprev : persisted base w with
      | nil => exact Nat.zero_le _
      | cons prev rest =>
        have hhead : (persisted base w).head? = some prev := by rw [hprev]; rfl
        rw [attributed, if_pos rfl, hnext.bytes prev hhead, ← hprev, Nat.add_comm]
        refine Nat.add_le_add_right ?_ _
        split
        · next hsame => exact hsame ▸ h.counted prev hhead
        · next hother =>
          rw [hnext.month, attributed_of_new h le_rfl hnext.time]
          intro state hstate
          obtain rfl := Option.some.inj (hhead.symm.trans hstate)
          exact hnext.month ▸ hother
  · exact h

theorem Recorded.step (h : Recorded base w) {e : Event} (hcountable : Countable w e) :
    Recorded base (w.step d e) := by
  cases e with
  | start => exact h.start
  | tick now reading => exact h.tick hcountable
  | warn => exact h.warn
  | save => exact h.save
  | nft outcome =>
    unfold World.step World.nft
    dsimp only
    split
    · next state throttled level hagent =>
      have hstate := h.memory _ hagent
      split
      · refine h.of_same rfl rfl le_rfl fun a ha => ?_
        obtain rfl := Option.some.inj ha
        exact ⟨hstate, nofun⟩
      · split
        all_goals
          refine h.of_same rfl rfl le_rfl fun a ha => ?_
          obtain rfl := Option.some.inj ha
          exact ⟨hstate, nofun⟩
    · exact h
  | settle =>
    unfold World.step World.settle
    dsimp only
    split
    · next hagent =>
      have hstate := h.memory _ hagent
      refine h.of_same rfl rfl le_rfl fun a ha => ?_
      obtain rfl := Option.some.inj ha
      exact ⟨hstate, nofun⟩
    · exact h
  | stop =>
    unfold World.step World.stop
    dsimp only
    split
    · exact h.gone
    · exact h.gone
    · exact h.gone
    · exact h
  | crash => exact h.gone
  | reboot =>
    unfold World.step World.reboot
    dsimp only
    split
    · next hnone => exact h.of_same rfl rfl le_rfl fun a ha => absurd (hnone.symm.trans ha) nofun
    · exact h

end Record

/-! ### The warning -/

/-- The state being persisted, or the last that was, remembers the warning of its month. -/
structure Warned (w : World κ) : Prop where
  nodup : (w.warnings.map monthKey).Nodup
  times : ∀ t ∈ w.warnings, FourDigits t ∧ t ≤ w.clock
  next : ∀ a next, w.agent = some a → a.phase.next = some next →
    ∀ t ∈ w.warnings, monthKey t = next.month → next.warned = true
  last : (∀ a, w.agent = some a → a.phase.next = none) → ∀ t ∈ w.warnings,
    ∃ p, w.trail.head? = some p ∧ t ≤ p.1 ∧ (monthKey t = p.2.month → p.2.warned = true)

section Warning

variable {d} {base : Option CapState} {w w' : World κ}

lemma Warned.of_new (hagent : w.agent = none) (hwarnings : w.warnings = []) : Warned w where
  nodup := by simp [hwarnings]
  times := by simp [hwarnings]
  next a next ha := absurd (hagent.symm.trans ha) nofun
  last _ := by simp [hwarnings]

/-- Where nothing was being persisted, and nothing is. -/
lemma Warned.of_same (h : Warned w) (hwarnings : w'.warnings = w.warnings)
    (htrail : w'.trail = w.trail) (hclock : w'.clock = w.clock)
    (hbefore : ∀ a, w.agent = some a → a.phase.next = none)
    (hafter : ∀ a, w'.agent = some a → a.phase.next = none) : Warned w' where
  nodup := hwarnings ▸ h.nodup
  times := by
    rw [hwarnings, hclock]
    exact h.times
  next a next ha hnext := by
    rw [hafter a ha] at hnext
    contradiction
  last _ := by
    rw [hwarnings, htrail]
    exact h.last hbefore

/-- A month that has its warning is remembered by what the tick makes of the last state. -/
lemma Warned.read (h : Warned w) (hrecorded : Recorded base w) {now : ℤ} {next : CapState}
    (hnow : w.clock ≤ now) (hidle : ∀ a, w.agent = some a → a.phase.next = none)
    (hnext : Advances (persisted base w).head? now next) {t : ℤ} (ht : t ∈ w.warnings)
    (hmonth : monthKey t = next.month) : next.warned = true := by
  obtain ⟨p, hlast, hle, hwarned⟩ := h.last hidle t ht
  have hp : p ∈ w.trail := List.mem_of_mem_head? hlast
  obtain ⟨hpTime, hpMonth⟩ := hrecorded.months p hp
  have hbetween := monthKey_between (h.times t ht).1 hpTime hnext.time hle
    ((hrecorded.times p hp).1.trans hnow) (hmonth.trans hnext.month)
  have hsame : p.2.month = next.month := by rw [hpMonth, hbetween, hnext.month]
  have hhead : (persisted base w).head? = some p.2 := by
    unfold persisted
    rw [List.head?_append, List.head?_map, hlast]
    rfl
  exact hnext.warned p.2 hhead hsame (hwarned (hmonth.trans hsame.symm))

lemma Warned.gone (h : Warned w) (hidle : ∀ a, w.agent = some a → a.phase.next = none) :
    Warned { w with agent := none } :=
  h.of_same rfl rfl rfl hidle nofun

lemma Warned.tick (h : Warned w) (hrecorded : Recorded base w) {now : ℤ}
    {reading : CounterReading} (hcountable : Countable w (.tick now reading)) :
    Warned (w.tick now reading) := by
  have hafter := hrecorded.tick hcountable
  have hopen {a : Agent} {next : CapState} (hagent : w.agent = some a)
      (hphase : a.phase.next = none) (hclock : w.clock ≤ now)
      (hnext : Advances (persisted base w).head? now next) (throttled : Option Bool) :
      Warned { w with clock := now, agent := some ⟨a.state, throttled, .read next⟩ } := by
    have hidle : ∀ b, w.agent = some b → b.phase.next = none := fun b hb =>
      Option.some.inj (hagent.symm.trans hb) ▸ hphase
    refine ⟨h.nodup, fun t ht => ⟨(h.times t ht).1, (h.times t ht).2.trans hclock⟩,
      fun b next' hb hnext' t ht hmonth => ?_, fun hnone => ?_⟩
    · obtain rfl := Option.some.inj hb
      obtain rfl := Option.some.inj hnext'
      exact h.read hrecorded hclock hidle hnext ht hmonth
    · exact absurd (hnone _ rfl) nofun
  unfold World.tick at hafter ⊢
  split at hafter
  · next hagent =>
    split at hafter
    · next hclock =>
      rw [if_pos hclock]
      exact hopen hagent rfl hclock (hafter.next _ _ rfl rfl) _
    · next hclock =>
      rw [if_neg hclock]
      exact h
  · next hagent =>
    split at hafter
    · next hclock =>
      rw [if_pos hclock]
      exact hopen hagent rfl hclock (hafter.next _ _ rfl rfl) _
    · next hclock =>
      rw [if_neg hclock]
      exact h
  · exact h

lemma Warned.warn (h : Warned w) (hrecorded : Recorded base w) : Warned (w.warn d) := by
  unfold World.warn
  split
  · next next hagent =>
    have hnext := hrecorded.next _ next hagent rfl
    have hmonths := h.next _ next hagent rfl
    split
    · next hwarns =>
      refine ⟨?_, ?_, fun a next' ha hnext' t ht hmonth => ?_, fun hnone => ?_⟩
      · rw [List.map_cons, List.nodup_cons]
        refine ⟨fun hmem => ?_, h.nodup⟩
        obtain ⟨t, ht, hmonth⟩ := List.mem_map.mp hmem
        have hwarned := hmonths t ht (hmonth.trans hnext.month.symm)
        exact absurd (hwarned.symm.trans hwarns.2) nofun
      · rw [List.forall_mem_cons]
        exact ⟨⟨hnext.time, le_rfl⟩, h.times⟩
      · obtain rfl := Option.some.inj ha
        obtain rfl := Option.some.inj hnext'
        rfl
      · exact absurd (hnone _ rfl) nofun
    · refine ⟨h.nodup, h.times, fun a next' ha hnext' => ?_, fun hnone => ?_⟩
      · obtain rfl := Option.some.inj ha
        obtain rfl := Option.some.inj hnext'
        exact hmonths
      · exact absurd (hnone _ rfl) nofun
  · exact h

lemma Warned.save (h : Warned w) : Warned (w.save d) := by
  unfold World.save
  split
  · next next hagent =>
    have hmonths := h.next _ next hagent rfl
    refine ⟨h.nodup, h.times, fun a next' ha hnext' => ?_, fun _ t ht => ?_⟩
    · obtain rfl := Option.some.inj ha
      contradiction
    · exact ⟨_, rfl, (h.times t ht).2, hmonths t ht⟩
  · exact h

theorem Warned.step (h : Warned w) (hrecorded : Recorded base w) {e : Event}
    (hcountable : Countable w e) (hcrash : e ≠ .crash) : Warned (w.step d e) := by
  have hidle {a : Agent} (ha : w.agent = some a) (hphase : a.phase.next = none) :
      ∀ b, w.agent = some b → b.phase.next = none := fun b hb =>
    Option.some.inj (ha.symm.trans hb) ▸ hphase
  have hset {w' : World κ} {a : Agent} (ha : w'.agent = some a) (hphase : a.phase.next = none) :
      ∀ b, w'.agent = some b → b.phase.next = none := fun b hb =>
    Option.some.inj (ha.symm.trans hb) ▸ hphase
  cases e with
  | start =>
    unfold World.step World.start
    dsimp only
    split
    · exact h
    · next hnone =>
      exact h.of_same rfl rfl rfl (fun a ha => absurd (hnone.symm.trans ha) nofun) (hset rfl rfl)
  | tick now reading => exact h.tick hrecorded hcountable
  | warn => exact h.warn hrecorded
  | save => exact h.save
  | nft outcome =>
    unfold World.step World.nft
    dsimp only
    split
    · next hagent =>
      split
      · exact h.of_same rfl rfl rfl (hidle hagent rfl) (hset rfl rfl)
      · split
        all_goals exact h.of_same rfl rfl rfl (hidle hagent rfl) (hset rfl rfl)
    · exact h
  | settle =>
    unfold World.step World.settle
    dsimp only
    split
    · next hagent => exact h.of_same rfl rfl rfl (hidle hagent rfl) (hset rfl rfl)
    · exact h
  | stop =>
    unfold World.step World.stop
    dsimp only
    split
    · next hagent => exact h.gone (hidle hagent rfl)
    · next hagent => exact h.gone (hidle hagent rfl)
    · next hagent => exact h.gone (hidle hagent rfl)
    · exact h
  | crash => exact absurd rfl hcrash
  | reboot =>
    unfold World.step World.reboot
    dsimp only
    split
    · next hnone =>
      have hnobody : ∀ a, w.agent = some a → a.phase.next = none :=
        fun a ha => absurd (hnone.symm.trans ha) nofun
      exact h.of_same rfl rfl rfl hnobody hnobody
    · exact h

end Warning

/-! ### Every run -/

/-- **From any file and any kernel, the table is right after each tick that completes just where the
agent is never mistaken about the kernel; and as long as the months' totals can be read back, no
byte is lost, and without crashes no month has two warnings.** -/
theorem cap_of_run (clock : ℤ) (file : Option Value) (kernel : κ) (es : List Event) :
    let init : World κ := { clock, file, kernel }
    (Allowed (World.step d) (fun w e => TableRight d (w.step d e)) init es ↔
      Allowed (World.step d) Sure init es) ∧
    (Allowed (World.step d) Countable init es →
      Counted (parseCapState file) (run (World.step d) init es) ∧
        ((∀ e ∈ es, e ≠ .crash) →
          ((run (World.step d) init es).warnings.map monthKey).Nodup)) := by
  intro init
  have hrecorded : Recorded (parseCapState file) init := Recorded.of_new (w := init) rfl rfl
  refine ⟨tableRight_run (.of_none rfl) (.of_none rfl) es,
    fun hcountable => ⟨?_, fun hcrashes => ?_⟩⟩
  · exact (invariant_of_allowed (I := Recorded (parseCapState file))
      (fun w e he h => h.step he) hrecorded hcountable).counted
  · have hallowed := hcountable.and (allowed_of_forall hcrashes)
    have hboth : Recorded (parseCapState file) (run (World.step d) init es) ∧
        Warned (run (World.step d) init es) := by
      refine invariant_of_allowed
        (I := fun w => Recorded (parseCapState file) w ∧ Warned w)
        (fun w e he h => ⟨h.1.step he.1, h.2.step h.1 he.1 he.2⟩) ⟨hrecorded, ?_⟩ hallowed
      exact .of_new rfl rfl
    exact hboth.2.nodup

lemma mem_lines {parts : List String} {part : String} {c : Char} (hpart : part ∈ parts)
    (hc : c ∈ part.toList) : c ∈ (lines parts).toList := by
  unfold lines
  rw [String.toList_ofList]
  have hparts : part.toList ∈ parts.map String.toList := List.mem_map_of_mem hpart
  generalize parts.map String.toList = texts at hparts
  induction texts with
  | nil => contradiction
  | cons first rest ih =>
    cases rest with
    | nil =>
      rw [List.mem_singleton] at hparts
      subst hparts
      simpa using hc
    | cons second rest =>
      rw [List.intercalate_cons_cons]
      rcases List.mem_cons.mp hparts with hfirst | hmem
      · subst hfirst
        exact List.mem_append_left _ (List.mem_append_left _ hc)
      · exact List.mem_append_right _ (ih hmem)

/-- A kernel that is the last script it took. -/
def lastScript : Nft String where
  boot := ""
  load script _ := script
  hasCapTable script := script.toList.contains '\x7b'
  load_throttle wgInterface throttleMbit script k h := by
    unfold throttleRuleset at h
    split_ifs at h
    obtain rfl := Option.some.inj h
    rw [List.contains_iff_mem]
    have hbrace : '\x7b' ∈ "  counter throttled \x7b\x7d".toList := by
      rw [String.toList_ofList]
      decide
    exact mem_lines (by simp) hbrace
  load_unthrottle k := by decide +kernel
  boot_clear := by decide

/-- A cap of one gigabyte. -/
def oneGb : Deps String := ⟨⟨BYTES_PER_GB, 1⟩, "wg0", lastScript⟩

def counters (rx tx : SafeUint) : CounterReading := ⟨rx, tx, "boot"⟩

def FEBRUARY : ℤ := 31 * DAY_MS

/-- At the cap, `nft` is stopped when the kernel has taken the script; the month ends before the
next tick. -/
def leftBehind : List Event :=
  [.start, .tick 0 (counters ⟨0, Nat.zero_le _⟩ ⟨0, Nat.zero_le _⟩), .warn, .save, .nft .ok, .settle,
    .tick 0 (counters ⟨BYTES_PER_GB, by decide⟩ ⟨0, Nat.zero_le _⟩), .warn, .save, .nft .failedApplied,
    .tick FEBRUARY (counters ⟨BYTES_PER_GB, by decide⟩ ⟨0, Nat.zero_le _⟩), .warn, .save, .nft .ok]

/-- The month's total passes what the file's reader accepts, and the agent is restarted. -/
def forgotten : List Event :=
  let most := counters ⟨MAX_SAFE_INTEGER, le_rfl⟩ ⟨MAX_SAFE_INTEGER, le_rfl⟩
  [.start, .tick 0 (counters ⟨0, Nat.zero_le _⟩ ⟨0, Nat.zero_le _⟩), .warn, .save, .nft .ok, .settle,
    .tick 0 most, .warn, .save, .stop, .start, .tick 0 most, .warn, .save]

theorem cap_left_behind :
    ¬ Allowed (World.step oneGb) (fun w e => TableRight oneGb (w.step oneGb e))
        { clock := 0, file := none, kernel := "" } leftBehind ∧
      ¬ Counted none (run (World.step oneGb) { clock := 0, file := none, kernel := "" }
        forgotten) := by
  constructor
  · rw [tableRight_run (.of_none rfl) (.of_none rfl)]
    intro h
    have hlast : Allowed (World.step oneGb) Sure { clock := 0, file := none, kernel := "" }
        (leftBehind.dropLast ++ [.nft .ok]) := h
    exact absurd (hlast.last _ .ok rfl rfl rfl) nofun
  · intro h
    exact absurd (h _ rfl) (by decide +kernel)

end Tnp.Exit.TrafficCap
