import Tnp.Protocol.NonceDiscipline

/-!
Both ends of a session, and a relay between them that delivers what it likes.

The relay is not a party with a state: every record it hands over, and every header, is an
event of the run. What it cannot do is make up an entry of the encryption table.
-/

set_option linter.unusedSectionVars false

namespace Tnp.Protocol.SessionOrder

open Tnp.Lib Tnp.Lib.Aead Tnp.Lib.Run Tnp.Protocol.Session Tnp.Protocol.NonceDiscipline

inductive Side
  | client
  | server
  deriving DecidableEq

def Side.other : Side → Side
  | client => server
  | server => client

@[simp] lemma Side.other_other (s : Side) : s.other.other = s := by cases s <;> rfl

/-- A record and the header it was sealed, or opened, for. -/
abbrev Entry := RecordHeader × OpenedRecord

structure World (K : Type) where
  table : Table K
  cipher : Side → SessionCipher K
  /-- What the calls of `seal`, `updateKey` and `close` that returned were given. -/
  sent : Side → List Entry
  /-- What the calls of `open` that returned were given and returned. -/
  opened : Side → List Entry
  /-- Whether `open` or `transportEnded` has thrown a `SessionError`. -/
  threw : Side → Bool

inductive Event
  | send (s : Side) (content : OpenedRecord) (h : RecordHeader)
  | deliver (s : Side) (record : Bytes) (h : RecordHeader)
  | transportEnded (s : Side)

/-- No number in the header of the event goes beyond the 32 bits its flags are checked in. -/
def Event.Checked : Event → Prop
  | send _ _ h => h.flags < 2 ^ 32
  | deliver _ _ h => h.flags < 2 ^ 32
  | transportEnded _ => True

instance (e : Event) : Decidable e.Checked := by
  cases e <;> unfold Event.Checked <;> infer_instance

def Thrown.isSession : Thrown → Bool
  | .session _ => true
  | _ => false

variable {K : Type} [DecidableEq K] (P : Crypto K)

def step (w : World K) : Event → World K
  | .send s content h =>
    match (w.cipher s).send P w.table content h with
    | .error _ => w
    | .ok (_, table, cipher) =>
      { w with
        table
        cipher := Function.update w.cipher s cipher
        sent := Function.update w.sent s (w.sent s ++ [(h, content)]) }
  | .deliver s record h =>
    match (w.cipher s).openFrame P w.table record h with
    | (cipher, .ok content) =>
      { w with
        cipher := Function.update w.cipher s cipher
        opened := Function.update w.opened s (w.opened s ++ [(h, content)]) }
    | (cipher, .error e) =>
      { w with
        cipher := Function.update w.cipher s cipher
        threw := Function.update w.threw s (w.threw s || Thrown.isSession e) }
  | .transportEnded s =>
    match (w.cipher s).transportEnded P with
    | (cipher, .ok ()) => { w with cipher := Function.update w.cipher s cipher }
    | (cipher, .error e) =>
      { w with
        cipher := Function.update w.cipher s cipher
        threw := Function.update w.threw s (w.threw s || Thrown.isSession e) }

/-- Both ends as a handshake leaves them: what one sends under, the other receives under. -/
def start (limits : ResolvedLimits) (key : Side → K) (hash : K) : World K where
  table := []
  cipher s := established limits (key s) (key s.other) hash
  sent _ := []
  opened _ := []
  threw _ := false

/-- The (header, body) pairs of the data records of a log. -/
def dataOf (log : List Entry) : List (RecordHeader × Bytes) :=
  log.filterMap fun x =>
    match x.2 with
    | .data plaintext => some (x.1, plaintext)
    | _ => none

/-- What the two ends are promised. -/
structure Order (w : World K) : Prop where
  data : ∀ s, dataOf (w.opened s) <+: dataOf (w.sent s.other)
  /-- Nothing is opened after a close. -/
  last : ∀ s before x after, w.opened s = before ++ x :: after → x.2 = .close → after = []
  /-- After a `SessionError` every call throws. -/
  dead : ∀ s, w.threw s = true →
    (∀ record h, ∃ c e, (w.cipher s).openFrame P w.table record h = (c, .error e)) ∧
    ∀ content h, ∃ e, (w.cipher s).send P w.table content h = .error e

/-! ### The invariant -/

abbrev contents (log : List Entry) : List OpenedRecord := log.map Prod.snd

/-- A table entry is the encryption of a record sent, at that record's position. -/
def Recorded (key : Side → K) (sent : Side → List Entry) (e : Encryption K) : Prop :=
  ∃ s before x after ad, sent s = before ++ x :: after ∧ frameAssociatedData x.1 = .ok ad ∧
    e = ⟨P.rekey^[(position (contents before)).1] (key s), (position (contents before)).2, ad,
      x.2.inner⟩

structure Inv (key : Side → K) (w : World K) : Prop where
  table : ∀ e ∈ w.table, Recorded P key w.sent e
  checked : ∀ s, ∀ x ∈ w.sent s, x.1.flags < 2 ^ 32
  sender : ∀ s, (w.cipher s).failed = none → (w.cipher s).sentClose = false →
    (w.cipher s).sendKey = P.rekey^[(position (contents (w.sent s))).1] (key s) ∧
      (w.cipher s).sendCounter = (position (contents (w.sent s))).2
  receiver : ∀ s, (w.cipher s).failed = none → (w.cipher s).receivedClose = false →
    (w.cipher s).receiveKey =
        P.rekey^[(position (contents (w.opened s))).1] (key s.other) ∧
      (w.cipher s).receiveCounter = (position (contents (w.opened s))).2
  prefixed : ∀ s, w.opened s <+: w.sent s.other
  closed : ∀ s, (w.cipher s).receivedClose = false → ∀ x ∈ w.opened s, x.2 ≠ .close
  last : ∀ s before x after, w.opened s = before ++ x :: after → x.2 = .close → after = []
  threw : ∀ s, w.threw s = true → (w.cipher s).failed ≠ none

variable {P} {key : Side → K} {w : World K}

lemma Recorded.mono {sent sent' : Side → List Entry} {e : Encryption K}
    (h : Recorded P key sent e) (hsent : ∀ s, sent s <+: sent' s) : Recorded P key sent' e := by
  obtain ⟨s, before, x, after, ad, hs, had, rfl⟩ := h
  obtain ⟨more, hmore⟩ := hsent s
  exact ⟨s, before, x, after ++ more, ad, by rw [← hmore, hs]; simp, had, rfl⟩

/-- The two chains of keys, told apart by their side. -/
lemma fresh_key (hfresh : Fresh P.rekey (key .client) (key .server)) {s s' : Side} {i j : ℕ}
    (h : P.rekey^[i] (key s) = P.rekey^[j] (key s')) : s = s' ∧ i = j := by
  cases s <;> cases s'
  · exact ⟨rfl, hfresh.first i j h⟩
  · exact absurd h (hfresh.apart i j)
  · exact absurd h.symm (hfresh.apart j i)
  · exact ⟨rfl, hfresh.second i j h⟩

lemma inv_start (limits : ResolvedLimits) (key : Side → K) (hash : K) :
    Inv P key (start limits key hash) := by
  refine ⟨by simp [start], by simp [start], fun s _ _ => ⟨rfl, rfl⟩, fun s _ _ => ⟨rfl, rfl⟩,
    fun s => ?_, by simp [start], by simp [start], by simp [start]⟩
  exact List.nil_prefix

lemma inv_send (hw : Inv P key w) {s : Side} {content : OpenedRecord} {h : RecordHeader}
    (hflags : h.flags < 2 ^ 32) : Inv P key (step P w (.send s content h)) := by
  unfold step
  dsimp only
  rcases hsend : (w.cipher s).send P w.table content h with e | ⟨record, t', c'⟩
  · exact hw
  obtain ⟨hfailed, hopen, hfits, ad, had, -, rfl, rfl⟩ :=
    SessionCipher.send_eq_ok_iff.mp hsend
  obtain ⟨hkey, hcounter⟩ := hw.sender s hfailed hopen
  have hgrow : ∀ s', w.sent s' <+:
      Function.update w.sent s (w.sent s ++ [(h, content)]) s' := by
    intro s'
    rcases eq_or_ne s' s with rfl | hne
    · simp
    · simp [hne]
  refine ⟨?_, ?_, ?_, ?_, ?_, ?_, hw.last, ?_⟩
  · intro e he
    rcases List.mem_append.mp he with he | he
    · exact (hw.table e he).mono hgrow
    · obtain rfl := List.mem_singleton.mp he
      exact ⟨s, w.sent s, (h, content), [], ad, by simp, had, by rw [hkey, hcounter]⟩
  · intro s' x hx
    rcases eq_or_ne s' s with rfl | hne
    · simp only [Function.update_self, List.mem_append, List.mem_singleton] at hx
      rcases hx with hx | rfl
      · exact hw.checked _ x hx
      · exact hflags
    · simp only [Function.update_of_ne hne] at hx
      exact hw.checked _ x hx
  · intro s' hf' ho'
    rcases eq_or_ne s' s with rfl | hne
    · simp only [Function.update_self] at ho' ⊢
      simp only [contents, List.map_append, List.map_cons, List.map_nil, position_snoc]
      -- `advance` is what the call did to the key and the counter
      cases content with
      | data plaintext => simp [SessionCipher.afterSend, advance, hkey, hcounter]
      | close => simp [SessionCipher.afterSend] at ho'
      | keyUpdate =>
        simp [SessionCipher.afterSend, advance, hkey, Function.iterate_succ_apply']
    · simp only [Function.update_of_ne hne] at hf' ho' ⊢
      exact hw.sender s' hf' ho'
  · intro s' hf' ho'
    rcases eq_or_ne s' s with rfl | hne
    · simpa using hw.receiver s' hfailed (by simpa using ho')
    · simp only [Function.update_of_ne hne] at hf' ho' ⊢
      exact hw.receiver s' hf' ho'
  · exact fun s' => (hw.prefixed s').trans (hgrow s'.other)
  · intro s' ho'
    rcases eq_or_ne s' s with rfl | hne
    · exact hw.closed s' (by simpa using ho')
    · simp only [Function.update_of_ne hne] at ho'
      exact hw.closed s' ho'
  · intro s' hthrew
    rcases eq_or_ne s' s with rfl | hne
    · exact absurd hfailed (hw.threw s' hthrew)
    · simpa [hne] using hw.threw s' hthrew

/-- What was opened last is what the other end sealed next. -/
lemma opened_is_next (hfresh : Fresh P.rekey (key .client) (key .server)) (hw : Inv P key w)
    {s : Side} {h : RecordHeader} {content : OpenedRecord} (hflags : h.flags < 2 ^ 32)
    (hopens : SessionCipher.Opens P w.table (w.cipher s) h content) :
    w.opened s ++ [(h, content)] <+: w.sent s.other := by
  obtain ⟨hfailed, hclose, ad, had, hmem⟩ := hopens
  obtain ⟨hkey, hcounter⟩ := hw.receiver s hfailed hclose
  obtain ⟨s', before, x, after, ad', hsent, had', he⟩ := hw.table _ hmem
  simp only [Encryption.mk.injEq] at he
  obtain ⟨hkey', hcounter', rfl, hinner⟩ := he
  -- the key tells the direction and the epoch, the nonce the place in it
  obtain ⟨rfl, hepoch⟩ := fresh_key hfresh (hkey.symm.trans hkey')
  have hposition : position (contents (w.opened s)) = position (contents before) :=
    Prod.ext hepoch (hcounter.symm.trans hcounter')
  have hbefore : before <+: w.sent s.other := ⟨x :: after, hsent.symm⟩
  have hcontents : contents (w.opened s) = contents before :=
    prefix_eq_of_position_eq ((hw.prefixed s).map Prod.snd) (hbefore.map Prod.snd) hposition
  have hlength : (w.opened s).length = before.length := by
    simpa using congrArg List.length hcontents
  have hsame : w.opened s = before := by
    rw [List.prefix_iff_eq_take.mp (hw.prefixed s), hlength,
      ← List.prefix_iff_eq_take.mp hbefore]
  have hcontent : content = x.2 := OpenedRecord.inner_injective hinner
  have hx : x ∈ w.sent s.other := by rw [hsent]; simp
  have hheader : h = x.1 :=
    frameAssociatedData_injective hflags (hw.checked _ x hx) had had'
  exact ⟨after, by rw [hsame, hcontent, hheader, hsent]; simp⟩

/-- A call that only marks the cipher of one end as failed keeps the invariant. -/
lemma inv_failed (hw : Inv P key w) {s : Side} {c : SessionCipher K} (hc : c.failed ≠ none)
    (b : Bool) (hclose : c.receivedClose = false → (w.cipher s).receivedClose = false) :
    Inv P key { w with
      cipher := Function.update w.cipher s c
      threw := Function.update w.threw s b } := by
  refine ⟨hw.table, hw.checked, ?_, ?_, hw.prefixed, ?_, hw.last, ?_⟩
  · intro s' hf' ho'
    rcases eq_or_ne s' s with rfl | hne
    · exact absurd (by simpa using hf') hc
    · simp only [Function.update_of_ne hne] at hf' ho' ⊢
      exact hw.sender s' hf' ho'
  · intro s' hf' ho'
    rcases eq_or_ne s' s with rfl | hne
    · exact absurd (by simpa using hf') hc
    · simp only [Function.update_of_ne hne] at hf' ho' ⊢
      exact hw.receiver s' hf' ho'
  · intro s' ho'
    rcases eq_or_ne s' s with rfl | hne
    · exact hw.closed s' (hclose (by simpa using ho'))
    · simp only [Function.update_of_ne hne] at ho'
      exact hw.closed s' ho'
  · intro s' hthrew
    rcases eq_or_ne s' s with rfl | hne
    · simpa using hc
    · simp only [Function.update_of_ne hne] at hthrew ⊢
      exact hw.threw s' hthrew

lemma inv_deliver (hfresh : Fresh P.rekey (key .client) (key .server)) (hw : Inv P key w)
    {s : Side} {record : Bytes} {h : RecordHeader} (hflags : h.flags < 2 ^ 32) :
    Inv P key (step P w (.deliver s record h)) := by
  unfold step
  dsimp only
  rcases SessionCipher.openFrame_cases P w.table (w.cipher s) record h with
    ⟨content, heq, hopens⟩ | ⟨e, c', heq, hfailed, hclose⟩ | ⟨m, heq⟩
  · rw [heq]
    have hnext := opened_is_next hfresh hw hflags hopens
    obtain ⟨hkey, hcounter⟩ := hw.receiver s hopens.failed hopens.receivedClose
    have hclosed := hw.closed s hopens.receivedClose
    refine ⟨hw.table, hw.checked, ?_, ?_, ?_, ?_, ?_, ?_⟩
    · intro s' hf' ho'
      rcases eq_or_ne s' s with rfl | hne
      · simpa using hw.sender s' hopens.failed (by simpa using ho')
      · simp only [Function.update_of_ne hne] at hf' ho' ⊢
        exact hw.sender s' hf' ho'
    · intro s' hf' ho'
      rcases eq_or_ne s' s with rfl | hne
      · simp only [Function.update_self] at ho' ⊢
        simp only [contents, List.map_append, List.map_cons, List.map_nil, position_snoc]
        cases content with
        | data plaintext => simp [SessionCipher.afterOpen, advance, hkey, hcounter]
        | close => simp [SessionCipher.afterOpen] at ho'
        | keyUpdate =>
          simp [SessionCipher.afterOpen, advance, hkey, Function.iterate_succ_apply']
      · simp only [Function.update_of_ne hne] at hf' ho' ⊢
        exact hw.receiver s' hf' ho'
    · intro s'
      rcases eq_or_ne s' s with rfl | hne
      · simpa using hnext
      · simpa [hne] using hw.prefixed s'
    · intro s' ho' x hx
      rcases eq_or_ne s' s with rfl | hne
      · simp only [Function.update_self, List.mem_append, List.mem_singleton] at ho' hx
        rcases hx with hx | rfl
        · exact hclosed x hx
        · rintro rfl
          simp [SessionCipher.afterOpen] at ho'
      · simp only [Function.update_of_ne hne] at ho' hx
        exact hw.closed s' ho' x hx
    · intro s' before x after hlog hx
      rcases eq_or_ne s' s with rfl | hne
      · simp only [Function.update_self] at hlog
        rcases List.eq_nil_or_concat after with rfl | ⟨init, y, rfl⟩
        · rfl
        · -- an earlier close would have stopped this record
          rw [List.concat_eq_append, ← List.cons_append, ← List.append_assoc] at hlog
          have hold := List.append_inj_left' hlog rfl
          exact absurd hx (hclosed x (by rw [hold]; simp))
      · simp only [Function.update_of_ne hne] at hlog
        exact hw.last s' before x after hlog hx
    · intro s' hthrew
      rcases eq_or_ne s' s with rfl | hne
      · exact absurd hopens.failed (hw.threw s' hthrew)
      · simpa [hne] using hw.threw s' hthrew
  · rw [heq]
    exact inv_failed hw hfailed _ hclose
  · rw [heq]
    simpa [Thrown.isSession] using hw

lemma inv_transportEnded (hw : Inv P key w) (s : Side) :
    Inv P key (step P w (.transportEnded s)) := by
  unfold step
  dsimp only
  rcases SessionCipher.transportEnded_cases P (w.cipher s) with heq | ⟨e, c', heq, hfailed, hclose⟩
  · rw [heq]
    simpa using hw
  · rw [heq]
    exact inv_failed hw hfailed _ hclose

lemma inv_step (hfresh : Fresh P.rekey (key .client) (key .server)) (w : World K) (e : Event)
    (he : e.Checked) (hw : Inv P key w) : Inv P key (step P w e) := by
  cases e with
  | send s content h => exact inv_send hw he
  | deliver s record h => exact inv_deliver hfresh hw he
  | transportEnded s => exact inv_transportEnded hw s

/-- The promise, read off the invariant. -/
lemma Inv.order (hw : Inv P key w) : Order P w := by
  refine ⟨fun s => (hw.prefixed s).filterMap _, hw.last, fun s hthrew => ⟨?_, ?_⟩⟩
  · intro record h
    obtain ⟨e, he⟩ := SessionCipher.openFrame_of_failed (hw.threw s hthrew) record h
    exact ⟨_, _, he⟩
  · intro content h
    rcases hsend : (w.cipher s).send P w.table content h with e | x
    · exact ⟨e, rfl⟩
    · exact absurd hsend (SessionCipher.send_of_failed (hw.threw s hthrew) content h x)

/-- **Authenticity and order against a hostile relay**, in every run whose headers stay within
the 32 bits that the flags are checked in. -/
theorem session_order (hfresh : Fresh P.rekey (key .client) (key .server))
    (limits : ResolvedLimits) (hash : K) {events : List Event}
    (hchecked : Allowed (step P) (fun _ e => e.Checked) (start limits key hash) events) :
    Order P (run (step P) (start limits key hash) events) :=
  (invariant_of_allowed (inv_step hfresh) (inv_start limits key hash) hchecked).order

/-! ### A session to run -/

/-- Keys are a direction and an epoch, or wiped; the tag is sixteen zeros. -/
def sampleCrypto : Crypto (Option (Bool × ℕ)) where
  tagLength := 16
  bytes _ _ _ p := p ++ List.replicate 16 0
  injective _ _ _ _ _ h := List.append_cancel_right h
  length _ _ _ p := by simp
  tagLength_eq := rfl
  rekey := Option.map fun k => (k.1, k.2 + 1)
  wipe _ := none

def sampleKey : Side → Option (Bool × ℕ)
  | .client => some (false, 0)
  | .server => some (true, 0)

def sampleLimits : ResolvedLimits :=
  ⟨4, 2, by decide, by decide, by decide, by decide⟩

lemma sampleCrypto_rekey_iterate (i : ℕ) (b : Bool) (n : ℕ) :
    sampleCrypto.rekey^[i] (some (b, n)) = some (b, n + i) := by
  induction i generalizing n with
  | zero => rfl
  | succ i ih =>
    rw [Function.iterate_succ_apply, show sampleCrypto.rekey (some (b, n)) = some (b, n + 1) from
      rfl, ih]
    congr 2
    omega

lemma fresh_sampleKey :
    Fresh sampleCrypto.rekey (sampleKey .client) (sampleKey .server) := by
  refine ⟨?_, ?_, ?_⟩ <;> intro i j <;>
    simp [sampleKey, sampleCrypto_rekey_iterate]

/-- The header of a STREAM_DATA frame. -/
def dataHeader (flags streamId : ℤ) : RecordHeader := ⟨0x22, flags, streamId⟩

/-- A byte sealed and opened, then a close, cut short of its last byte. -/
def sampleEvents : List Event :=
  [.send .client (.data [7]) (dataHeader 0 1),
    .deliver .server (be 8 0 ++ [0, 7] ++ List.replicate 16 0) (dataHeader 0 1),
    .send .client .close (dataHeader 0 1),
    .deliver .server (be 8 1 ++ [1] ++ List.replicate 15 0) (dataHeader 0 1)]

theorem session_order_sample :
    Order sampleCrypto
      (run (step sampleCrypto) (start sampleLimits sampleKey none) sampleEvents) :=
  session_order fresh_sampleKey sampleLimits none (by decide)

/-- The client seals an empty record for flags 2³², and the server opens it for flags 0: the
associated data has room for 16 bits of the flags, and only 32 of them are checked. -/
def wideFlags : List Event :=
  [.send .client (.data []) (dataHeader (2 ^ 32) 1),
    .deliver .server (List.replicate 25 0) (dataHeader 0 1)]

theorem not_prefix_wideFlags :
    Fresh sampleCrypto.rekey (sampleKey .client) (sampleKey .server) ∧
    ¬ dataOf ((run (step sampleCrypto) (start sampleLimits sampleKey none) wideFlags).opened
        .server) <+:
      dataOf ((run (step sampleCrypto) (start sampleLimits sampleKey none) wideFlags).sent
        .client) :=
  ⟨fresh_sampleKey, by decide⟩

end Tnp.Protocol.SessionOrder
