import Tnp.Lib.OrderedMap
import Tnp.Lib.Run
import Tnp.Namespace.Policy
import Tnp.Namespace.Renewal

/-!
Renewing a native registration: a compare-and-set on the expiry that the call read.

The database keeps microseconds, and what is read of it are milliseconds.
-/

namespace Tnp.Registry.Renewals

open Tnp.Lib Tnp.Lib.Run Tnp.Namespace

/-- What a renewal reads of a row. The expiry is in microseconds. -/
structure Domain where
  oxyUserId : String
  tld : String
  expiresAt : Option ℤ
  deriving DecidableEq

/-- `date_trunc('milliseconds', …)`, which is also what a `Date` keeps. -/
def millis (expiresAt : ℤ) : ℤ := expiresAt / 1000

structure Params where
  oxyUserId : String
  now : ℤ

structure Refusal where
  status : ℕ
  code : String
  error : String
  expiryState : Option NativeExpiryState := none
  deriving DecidableEq

variable (toLowerCase : String → String)

/-- The select, and the checks of what it found. -/
def readDomain (row : Option Domain) (params : Params) : Except Refusal ℤ :=
  match row with
  | none => .error { status := 404, code := "not_found", error := "Domain not found" }
  | some row =>
    if row.oxyUserId ≠ params.oxyUserId then
      .error { status := 403, code := "forbidden", error := "You do not own this domain" }
    else if isReservedTld toLowerCase row.tld then
      .error
        { status := 409
          code := "not_native"
          error := "." ++ row.tld ++
            " is not a TNP-native TLD; this registration cannot be renewed" }
    else
      match row.expiresAt with
      | none =>
        .error { status := 409, code := "no_expiry", error := "This domain does not expire" }
      | some expiresAt =>
        let state := nativeExpiryState (some (millis expiresAt)) params.now
        if !isNativeRenewalAllowed state then
          .error
            { status := 409
              code := "not_renewable"
              error := "This domain can be renewed from 90 days before it expires"
              expiryState := some state }
        else .ok (millis expiresAt)

/-- The row that the update writes, where its predicate holds. -/
def updateDomain (row : Option Domain) (params : Params) (expiresAt : ℤ) : Option Domain :=
  match row with
  | none => none
  | some row =>
    if row.oxyUserId = params.oxyUserId ∧ row.expiresAt.map millis = some expiresAt then
      some { row with expiresAt := some (nextNativeExpiry (some expiresAt) params.now * 1000) }
    else none

def conflict : Refusal where
  status := 409
  code := "conflict"
  error := "This domain was changed while renewing; reload and try again"

/-! ### Calls on one name -/

abbrev CallId := ℕ

inductive Call
  | begun (params : Params)
  | read (params : Params) (expiresAt : ℤ)
  | ended (outcome : Except Refusal Domain)
  /-- It threw. -/
  | failed

/-- A renewal that succeeded: what it read, and the expiry before and after it. -/
structure Success where
  call : CallId
  now : ℤ
  read : ℤ
  before : Option ℤ
  after : Option ℤ

structure State where
  row : Option Domain
  calls : OrderedMap CallId Call := {}
  /-- The latest first. Remembered for the claims only. -/
  successes : List Success := []

inductive Event
  | begin (id : CallId) (params : Params)
  | read (id : CallId)
  | update (id : CallId)
  | fail (id : CallId)

namespace State

def update (s : State) (id : CallId) (params : Params) (expiresAt : ℤ) : State :=
  match updateDomain s.row params expiresAt with
  | none => { s with calls := s.calls.set id (.ended (.error conflict)) }
  | some renewed =>
    { row := some renewed
      calls := s.calls.set id (.ended (.ok renewed))
      successes :=
        ⟨id, params.now, expiresAt, s.row.bind Domain.expiresAt, renewed.expiresAt⟩ ::
          s.successes }

def step (s : State) : Event → State
  | .begin id params =>
    match s.calls.get id with
    | none => { s with calls := s.calls.set id (.begun params) }
    | some _ => s
  | .read id =>
    match s.calls.get id with
    | some (.begun params) =>
      match readDomain toLowerCase s.row params with
      | .error refusal => { s with calls := s.calls.set id (.ended (.error refusal)) }
      | .ok expiresAt => { s with calls := s.calls.set id (.read params expiresAt) }
    | _ => s
  | .update id =>
    match s.calls.get id with
    | some (.read params expiresAt) => s.update id params expiresAt
    | _ => s
  | .fail id =>
    match s.calls.get id with
    | some (.begun _) | some (.read _ _) => { s with calls := s.calls.set id .failed }
    | _ => s

end State

/-! ### What a renewal does -/

/-- A renewal was allowed by the expiry it read, and set a year after the later of it and its
clock. -/
structure Renewed (x : Success) (before after : ℤ) : Prop where
  read : x.read = millis before
  window : x.read - x.now ≤ NATIVE_RENEWAL_WINDOW_DAYS * DAY_MS
  after : after = addYear (max x.read x.now) * 1000

lemma window_of_readDomain {row : Option Domain} {params : Params} {expiresAt : ℤ}
    (h : readDomain toLowerCase row params = .ok expiresAt) :
    expiresAt - params.now ≤ NATIVE_RENEWAL_WINDOW_DAYS * DAY_MS := by
  unfold readDomain at h
  split at h
  · contradiction
  · split_ifs at h
    split at h
    · contradiction
    · dsimp only at h
      split_ifs at h with hallowed
      obtain rfl := Except.ok.inj h
      by_contra hlate
      refine hallowed ?_
      simp only [nativeExpiryState]
      rw [if_pos (by omega)]
      rfl

lemma updateDomain_eq_some {row : Option Domain} {params : Params} {expiresAt : ℤ}
    {renewed : Domain} (h : updateDomain row params expiresAt = some renewed) :
    ∃ old before, row = some old ∧ old.expiresAt = some before ∧ millis before = expiresAt ∧
      renewed = { old with expiresAt := some (addYear (max expiresAt params.now) * 1000) } := by
  unfold updateDomain at h
  split at h
  · contradiction
  · next old =>
    split_ifs at h with hmatch
    obtain ⟨before, hbefore, hmillis⟩ := Option.map_eq_some_iff.mp hmatch.2
    obtain rfl := Option.some.inj h
    rw [nextNativeExpiry_eq]
    exact ⟨old, before, rfl, hbefore, hmillis, rfl⟩

variable {x : Success} {before after : ℤ}

/-- **A renewal strictly increases the expiry.** -/
theorem Renewed.lt (h : Renewed x before after) :
    before < after ∧ millis before < millis after := by
  obtain ⟨hread, -, rfl⟩ := h
  have hyear := (lt_addYear (max x.read x.now)).1
  have hmax := le_max_left x.read x.now
  have hms : DAY_MS = 86400000 := rfl
  unfold millis at *
  omega

/-- No more than one term is banked. -/
lemma Renewed.bounded (h : Renewed x before after) :
    (millis after ≤ addYear (x.now + NATIVE_RENEWAL_WINDOW_DAYS * DAY_MS) ∨
      LeapDay x.read ∧
        millis after < addYear (x.now + NATIVE_RENEWAL_WINDOW_DAYS * DAY_MS) + DAY_MS) ∧
    millis after ≤ addYear x.now + (NATIVE_RENEWAL_WINDOW_DAYS + 1) * DAY_MS := by
  obtain ⟨-, hwindow, rfl⟩ := h
  have hmillis : millis (addYear (max x.read x.now) * 1000) = addYear (max x.read x.now) := by
    unfold millis
    omega
  rw [hmillis]
  have hbase := (lt_addYear (max x.read x.now)).2
  have hnow := (lt_addYear x.now).1
  have hlate := (lt_addYear (x.now + NATIVE_RENEWAL_WINDOW_DAYS * DAY_MS)).1
  have hms : DAY_MS = 86400000 := rfl
  have hdays : NATIVE_RENEWAL_WINDOW_DAYS = 90 := rfl
  rw [hdays] at hwindow hlate ⊢
  refine ⟨?_, ?_⟩
  · rcases le_total x.read x.now with hle | hle
    · rw [max_eq_right hle] at hbase ⊢
      omega
    · rw [max_eq_left hle]
      exact addYear_le (by omega)
  · rcases le_total x.read x.now with hle | hle
    · rw [max_eq_right hle] at hbase ⊢
      omega
    · rw [max_eq_left hle] at hbase ⊢
      omega

/-! ### Any interleaving -/

/-- What the successes say of the row and of each other. -/
structure Inv (s : State) : Prop where
  renewed : ∀ x ∈ s.successes, ∃ before after, x.before = some before ∧ x.after = some after ∧
    Renewed x before after
  reads : s.successes.Pairwise fun later earlier => earlier.read < later.read
  passed : ∀ x ∈ s.successes, ∀ expiresAt, s.row.bind Domain.expiresAt = some expiresAt →
    x.read < millis expiresAt
  last : ∀ x, s.successes.head? = some x → s.row.bind Domain.expiresAt = x.after
  window : ∀ id params expiresAt, s.calls.get id = some (.read params expiresAt) →
    expiresAt - params.now ≤ NATIVE_RENEWAL_WINDOW_DAYS * DAY_MS
  ended : ∀ id renewed, s.calls.get id = some (.ended (.ok renewed)) →
    ∃ x ∈ s.successes, x.call = id ∧ x.after = renewed.expiresAt

section Runs

variable {toLowerCase} {s : State}

/-- A call goes on, and the row stays. -/
lemma Inv.setCall (h : Inv s) {id : CallId} {call : Call}
    (hwindow : ∀ params expiresAt, call = .read params expiresAt →
      expiresAt - params.now ≤ NATIVE_RENEWAL_WINDOW_DAYS * DAY_MS)
    (hended : ∀ renewed, call ≠ .ended (.ok renewed)) :
    Inv { s with calls := s.calls.set id call } where
  renewed := h.renewed
  reads := h.reads
  passed := h.passed
  last := h.last
  window j params expiresAt hj := by
    rw [OrderedMap.get_set] at hj
    split at hj
    · exact hwindow params expiresAt (Option.some.inj hj)
    · exact h.window j params expiresAt hj
  ended j renewed hj := by
    rw [OrderedMap.get_set] at hj
    split at hj
    · exact absurd (Option.some.inj hj) (hended renewed)
    · exact h.ended j renewed hj

lemma Inv.update (h : Inv s) {id : CallId} {params : Params} {expiresAt : ℤ}
    (hcall : s.calls.get id = some (.read params expiresAt)) :
    Inv (s.update id params expiresAt) := by
  unfold State.update
  split
  · exact h.setCall (by simp) (by simp)
  · next renewed hupdate =>
    obtain ⟨old, before, hrow, hbefore, hmillis, rfl⟩ := updateDomain_eq_some hupdate
    have hfound : s.row.bind Domain.expiresAt = some before := by rw [hrow]; exact hbefore
    have hrenewed : Renewed ⟨id, params.now, expiresAt, s.row.bind Domain.expiresAt,
        some (addYear (max expiresAt params.now) * 1000)⟩ before
        (addYear (max expiresAt params.now) * 1000) :=
      ⟨hmillis.symm, h.window id params expiresAt hcall, rfl⟩
    have hlater := hrenewed.lt.2
    rw [hmillis] at hlater
    constructor
    case renewed =>
      rw [List.forall_mem_cons]
      exact ⟨⟨before, _, hfound, rfl, hrenewed⟩, h.renewed⟩
    case reads =>
      refine List.pairwise_cons.mpr ⟨fun x hx => ?_, h.reads⟩
      have hpassed := h.passed x hx before hfound
      rw [hmillis] at hpassed
      exact hpassed
    case passed =>
      intro x hx e he
      obtain rfl := Option.some.inj he
      rcases List.mem_cons.mp hx with rfl | hx
      · exact hlater
      · have hpassed := h.passed x hx before hfound
        rw [hmillis] at hpassed
        exact hpassed.trans hlater
    case last =>
      intro x hx
      obtain rfl := Option.some.inj hx
      rfl
    case window =>
      intro j params' expiresAt' hj
      rw [OrderedMap.get_set] at hj
      split at hj
      · simp at hj
      · exact h.window j params' expiresAt' hj
    case ended =>
      intro j renewed hj
      rw [OrderedMap.get_set] at hj
      split at hj
      · next hid =>
        obtain rfl := Except.ok.inj (Call.ended.inj (Option.some.inj hj))
        exact ⟨_, List.mem_cons_self, hid, rfl⟩
      · obtain ⟨x, hx, hcall', hafter⟩ := h.ended j renewed hj
        exact ⟨x, List.mem_cons_of_mem _ hx, hcall', hafter⟩

theorem Inv.step (h : Inv s) (e : Event) : Inv (s.step toLowerCase e) := by
  cases e with
  | begin id params =>
    unfold State.step
    dsimp only
    split
    · exact h.setCall nofun nofun
    · exact h
  | read id =>
    unfold State.step
    dsimp only
    split
    · split
      · exact h.setCall nofun nofun
      · next hread =>
        refine h.setCall (fun params' expiresAt' hcall => ?_) nofun
        obtain ⟨rfl, rfl⟩ := Call.read.inj hcall
        exact window_of_readDomain toLowerCase hread
    · exact h
  | update id =>
    unfold State.step
    dsimp only
    split
    · next hcall => exact h.update hcall
    · exact h
  | fail id =>
    unfold State.step
    dsimp only
    split
    · exact h.setCall nofun nofun
    · exact h.setCall nofun nofun
    · exact h

/-- Nothing but a call that succeeds changes the row, and it changes nothing but the expiry. -/
def OnlyRenewed (toLowerCase : String → String) (s : State) (e : Event) : Prop :=
  let s' := s.step toLowerCase e
  s'.row = s.row ∧ s'.successes = s.successes ∨
    ∃ x old before after, s'.successes = x :: s.successes ∧ s.row = some old ∧
      old.expiresAt = some before ∧ s'.row = some { old with expiresAt := some after } ∧
        s'.calls.get x.call = some (.ended (.ok { old with expiresAt := some after }))

lemma onlyRenewed_of_same {e : Event} (hrow : (s.step toLowerCase e).row = s.row)
    (hsuccesses : (s.step toLowerCase e).successes = s.successes) : OnlyRenewed toLowerCase s e :=
  .inl ⟨hrow, hsuccesses⟩

end Runs

/-- A registration, and one renewal of it. -/
def renewed (expiresAt now : ℤ) : State :=
  run (State.step asciiLower) { row := some ⟨"alice", "ox", some (expiresAt * 1000)⟩ }
    [.begin 0 ⟨"alice", now⟩, .read 0, .update 0]

end Tnp.Registry.Renewals
