import Tnp.Lib.Aead
import Tnp.Protocol.Constants

/-!
The session cipher: one key and one counter in each direction, and the three calls that
produce a record, the one that opens a record and the one that reports the end of the
transport.

Every call is given the table of the ideal encryption scheme and, where it encrypts, returns
it. A call that throws returns what it threw; `openRecord`, which may already have changed the
cipher when it throws, returns the cipher as well.
-/

set_option linter.unusedSectionVars false

namespace Tnp.Protocol.Session

open Tnp.Lib Tnp.Lib.Aead

/-- What a session does with key material: encrypt under it with a tag of 16 bytes, derive the
next key from it, overwrite it. -/
structure Crypto (K : Type) extends Scheme K where
  tagLength_eq : tagLength = 16
  rekey : K → K
  wipe : K → K

structure SessionError where
  message : String
  code : ErrorCode
  deriving DecidableEq

/-- What a call may throw: a `SessionError`, a `RekeyRequiredError` or a `RangeError`. -/
inductive Thrown
  | session (e : SessionError)
  | rekeyRequired
  | range (message : String)
  deriving DecidableEq

/-! ### Limits -/

/-- Limits that passed the checks of `resolveLimits`. -/
structure ResolvedLimits where
  maxRecordsPerKey : ℕ
  keyUpdateInterval : ℕ
  two_le : 2 ≤ maxRecordsPerKey
  le_max : maxRecordsPerKey ≤ MAX_RECORDS_PER_KEY
  one_le : 1 ≤ keyUpdateInterval
  le_ceiling : keyUpdateInterval ≤ min KEY_UPDATE_INTERVAL (maxRecordsPerKey - 1)
  deriving DecidableEq

/-- A limit given or left out; a number that is no integer is refused like a negative one. -/
structure SessionLimits where
  maxRecordsPerKey : Option ℤ := none
  keyUpdateInterval : Option ℤ := none

def resolveLimits (limits : SessionLimits) : Except Thrown ResolvedLimits :=
  let maxRecordsPerKey := limits.maxRecordsPerKey.getD MAX_RECORDS_PER_KEY
  if h : 2 ≤ maxRecordsPerKey ∧ maxRecordsPerKey ≤ MAX_RECORDS_PER_KEY then
    let intervalCeiling : ℕ := min KEY_UPDATE_INTERVAL (maxRecordsPerKey.toNat - 1)
    let keyUpdateInterval := limits.keyUpdateInterval.getD intervalCeiling
    if h' : 1 ≤ keyUpdateInterval ∧ keyUpdateInterval ≤ intervalCeiling then
      .ok ⟨maxRecordsPerKey.toNat, keyUpdateInterval.toNat, by omega, by omega, by omega,
        by omega⟩
    else .error (.range
      "keyUpdateInterval must be an integer in [1, min(KEY_UPDATE_INTERVAL, maxRecordsPerKey - 1)]")
  else .error (.range s!"maxRecordsPerKey must be an integer in [2, {MAX_RECORDS_PER_KEY}]")

/-- The limits where none are given. -/
def defaultLimits : ResolvedLimits where
  maxRecordsPerKey := MAX_RECORDS_PER_KEY
  keyUpdateInterval := KEY_UPDATE_INTERVAL
  two_le := by decide
  le_max := le_refl _
  one_le := by decide
  le_ceiling := by decide

/-! ### Records -/

/-- The frame fields a record is bound to. The numbers are those the caller passes, not yet
those of a frame: nothing but `frameAssociatedData` checks them. -/
structure RecordHeader where
  type : ℤ
  flags : ℤ
  streamId : ℤ
  deriving DecidableEq

/-- `flags & ~allowed`: the operators of JavaScript see the low 32 bits of a number only. -/
def strayFlags (flags : ℤ) (allowed : ℕ) : BitVec 32 :=
  BitVec.ofInt 32 flags &&& ~~~(BitVec.ofNat 32 allowed)

/-- version(1) type(1) flags(2) streamId(4). -/
def frameAssociatedData (h : RecordHeader) : Except Thrown Bytes :=
  match frameTypeOf h.type.toNat with
  | none => .error (.range s!"Unknown frame type: {h.type}")
  | some type =>
    if h.flags < 0 ∨ strayFlags h.flags (allowedFlags type) ≠ 0 then
      .error (.range s!"Invalid flags for this frame type: {h.flags}")
    else if h.streamId < 0 ∨ 0xffffffff < h.streamId then
      .error (.range s!"streamId out of range: {h.streamId}")
    else .ok (be 1 PROTOCOL_VERSION ++ be 1 type.value ++ be 2 h.flags.toNat ++
      be 4 h.streamId.toNat)

def RecordType.DATA : UInt8 := 0x00
def RecordType.CLOSE : UInt8 := 0x01
def RecordType.KEY_UPDATE : UInt8 := 0x02

inductive OpenedRecord
  | data (plaintext : Bytes)
  | close
  | keyUpdate
  deriving DecidableEq

/-- The plaintext of a record: its type, then its body. -/
def OpenedRecord.inner : OpenedRecord → Bytes
  | data plaintext => RecordType.DATA :: plaintext
  | close => [RecordType.CLOSE]
  | keyUpdate => [RecordType.KEY_UPDATE]

lemma OpenedRecord.inner_injective : Function.Injective OpenedRecord.inner := by
  intro r s h
  cases r <;> cases s <;>
    simp_all [inner, RecordType.DATA, RecordType.CLOSE, RecordType.KEY_UPDATE]

/-! ### The cipher -/

structure SessionCipher (K : Type) where
  sendKey : K
  receiveKey : K
  sendCounter : ℕ := 0
  receiveCounter : ℕ := 0
  sentClose : Bool := false
  receivedClose : Bool := false
  failed : Option SessionError := none
  hash : K
  limits : ResolvedLimits
  deriving DecidableEq

namespace SessionCipher

variable {K : Type} [DecidableEq K] (P : Crypto K) (t : Table K) (c : SessionCipher K)

def needsKeyUpdate : Bool := c.limits.keyUpdateInterval ≤ c.sendCounter

def peerClosed : Bool := c.receivedClose

def assertCanSend : Except Thrown Unit :=
  match c.failed with
  | some e => .error (.session e)
  | none =>
    if c.sentClose then
      .error (.session ⟨"session already closed for sending", .PROTOCOL_VIOLATION⟩)
    else if c.limits.maxRecordsPerKey ≤ c.sendCounter then .error .rekeyRequired
    else .ok ()

def sealRecord (type : UInt8) (body : Bytes) (h : RecordHeader) :
    Except Thrown (Bytes × Table K × SessionCipher K) := do
  let ad ← frameAssociatedData h
  let counter := c.sendCounter
  let (sealed, t') := encrypt P.toScheme t c.sendKey counter ad (type :: body)
  .ok (be 8 counter ++ sealed, t', { c with sendCounter := counter + 1 })

/-- `seal`. -/
def sealData (plaintext : Bytes) (h : RecordHeader) :
    Except Thrown (Bytes × Table K × SessionCipher K) := do
  if MAX_SEALED_PLAINTEXT < plaintext.length then
    .error (.range s!"plaintext of {plaintext.length} bytes exceeds MAX_SEALED_PLAINTEXT")
  c.assertCanSend
  -- the last counter value is kept for KEY_UPDATE and CLOSE
  if c.limits.maxRecordsPerKey - 1 ≤ c.sendCounter then .error .rekeyRequired
  c.sealRecord P t RecordType.DATA plaintext h

def close (h : RecordHeader) : Except Thrown (Bytes × Table K × SessionCipher K) := do
  c.assertCanSend
  let (record, t', c') ← c.sealRecord P t RecordType.CLOSE [] h
  .ok (record, t', { c' with sentClose := true, sendKey := P.wipe c'.sendKey })

def updateKey (h : RecordHeader) : Except Thrown (Bytes × Table K × SessionCipher K) := do
  c.assertCanSend
  let (record, t', c') ← c.sealRecord P t RecordType.KEY_UPDATE [] h
  .ok (record, t', { c' with sendKey := P.rekey c'.sendKey, sendCounter := 0 })

def poison (e : SessionError) : SessionCipher K :=
  match c.failed with
  | some _ => c
  | none =>
    { c with failed := some e, sendKey := P.wipe c.sendKey, receiveKey := P.wipe c.receiveKey }

/-- What `openRecord` does with a record that decrypted, the counter already moved on. -/
def acceptInner (inner : Bytes) : SessionCipher K × Except SessionError OpenedRecord :=
  if inner.head? = some RecordType.DATA then
    if c.limits.maxRecordsPerKey ≤ c.receiveCounter then
      (c, .error ⟨"data record in the reserved slot", .PROTOCOL_VIOLATION⟩)
    else (c, .ok (.data inner.tail))
  else if inner.length ≠ 1 then
    (c, .error ⟨"control record with a body", .PROTOCOL_VIOLATION⟩)
  else if inner.head? = some RecordType.CLOSE then
    ({ c with receivedClose := true, receiveKey := P.wipe c.receiveKey }, .ok .close)
  else if inner.head? = some RecordType.KEY_UPDATE then
    ({ c with receiveKey := P.rekey c.receiveKey, receiveCounter := 0 }, .ok .keyUpdate)
  else (c, .error ⟨"unknown record type", .PROTOCOL_VIOLATION⟩)

def openRecord (record ad : Bytes) : SessionCipher K × Except SessionError OpenedRecord :=
  if c.receivedClose then
    (c, .error ⟨"record after authenticated close", .PROTOCOL_VIOLATION⟩)
  else if record.length < SEALED_RECORD_OVERHEAD ∨ MAX_FRAME_PAYLOAD < record.length then
    (c, .error ⟨"sealed record has an impossible size", .PROTOCOL_VIOLATION⟩)
  else
    let counter := ofBe (record.take 8)
    if counter < c.receiveCounter then
      (c, .error ⟨"record counter already used", .REPLAY_DETECTED⟩)
    else if c.receiveCounter < counter then
      (c, .error ⟨"record out of order", .PROTOCOL_VIOLATION⟩)
    else if c.limits.maxRecordsPerKey ≤ c.receiveCounter then
      (c, .error ⟨"peer exceeded the record limit without a key update", .PROTOCOL_VIOLATION⟩)
    else
      match decrypt P.toScheme t c.receiveKey counter ad (record.drop 8) with
      | none => (c, .error ⟨"record failed authentication", .DECRYPT_FAILED⟩)
      | some inner =>
        acceptInner P { c with receiveCounter := c.receiveCounter + 1 } inner

/-- `open`. -/
def openFrame (record : Bytes) (h : RecordHeader) :
    SessionCipher K × Except Thrown OpenedRecord :=
  match c.failed with
  | some e => (c, .error (.session e))
  | none =>
    match frameAssociatedData h with
    | .error e => (c, .error e)
    | .ok ad =>
      match c.openRecord P t record ad with
      | (c', .ok r) => (c', .ok r)
      | (c', .error e) => (c'.poison P e, .error (.session e))

def transportEnded : SessionCipher K × Except Thrown Unit :=
  match c.failed with
  | some e => (c, .error (.session e))
  | none =>
    if c.receivedClose then (c, .ok ())
    else
      let e : SessionError := ⟨"stream ended without an authenticated close", .TRUNCATED⟩
      (c.poison P e, .error (.session e))

/-- The call that produces a record of the given kind. -/
def send : OpenedRecord → RecordHeader → Except Thrown (Bytes × Table K × SessionCipher K)
  | .data plaintext, h => c.sealData P t plaintext h
  | .close, h => c.close P t h
  | .keyUpdate, h => c.updateKey P t h

/-! ### What a call that returns did -/

/-- The room a record of this kind needs: data never takes the last slot of a key. -/
def Fits : OpenedRecord → Prop
  | .data plaintext =>
    plaintext.length ≤ MAX_SEALED_PLAINTEXT ∧ c.sendCounter < c.limits.maxRecordsPerKey - 1
  | _ => c.sendCounter < c.limits.maxRecordsPerKey

def afterSend : OpenedRecord → SessionCipher K
  | .data _ => { c with sendCounter := c.sendCounter + 1 }
  | .close =>
    { c with sendCounter := c.sendCounter + 1, sentClose := true, sendKey := P.wipe c.sendKey }
  | .keyUpdate => { c with sendKey := P.rekey c.sendKey, sendCounter := 0 }

def afterOpen : OpenedRecord → SessionCipher K
  | .data _ => { c with receiveCounter := c.receiveCounter + 1 }
  | .close =>
    { c with
      receiveCounter := c.receiveCounter + 1
      receivedClose := true
      receiveKey := P.wipe c.receiveKey }
  | .keyUpdate => { c with receiveKey := P.rekey c.receiveKey, receiveCounter := 0 }

/-- The bytes of the record with this content that `c` produces next. -/
def nextRecord (r : OpenedRecord) (ad : Bytes) : Bytes :=
  be 8 c.sendCounter ++ P.bytes c.sendKey c.sendCounter ad r.inner

variable {P t c}

@[simp] lemma afterSend_receiveKey (r : OpenedRecord) :
    (c.afterSend P r).receiveKey = c.receiveKey := by
  cases r <;> rfl

@[simp] lemma afterSend_receiveCounter (r : OpenedRecord) :
    (c.afterSend P r).receiveCounter = c.receiveCounter := by
  cases r <;> rfl

@[simp] lemma afterSend_receivedClose (r : OpenedRecord) :
    (c.afterSend P r).receivedClose = c.receivedClose := by
  cases r <;> rfl

@[simp] lemma afterSend_failed (r : OpenedRecord) : (c.afterSend P r).failed = c.failed := by
  cases r <;> rfl

@[simp] lemma afterSend_limits (r : OpenedRecord) : (c.afterSend P r).limits = c.limits := by
  cases r <;> rfl

@[simp] lemma afterOpen_sendKey (r : OpenedRecord) : (c.afterOpen P r).sendKey = c.sendKey := by
  cases r <;> rfl

@[simp] lemma afterOpen_sendCounter (r : OpenedRecord) :
    (c.afterOpen P r).sendCounter = c.sendCounter := by
  cases r <;> rfl

@[simp] lemma afterOpen_sentClose (r : OpenedRecord) :
    (c.afterOpen P r).sentClose = c.sentClose := by
  cases r <;> rfl

@[simp] lemma afterOpen_failed (r : OpenedRecord) : (c.afterOpen P r).failed = c.failed := by
  cases r <;> rfl

@[simp] lemma afterOpen_limits (r : OpenedRecord) : (c.afterOpen P r).limits = c.limits := by
  cases r <;> rfl

lemma assertCanSend_eq_ok_iff : c.assertCanSend = .ok () ↔
    c.failed = none ∧ c.sentClose = false ∧ c.sendCounter < c.limits.maxRecordsPerKey := by
  unfold assertCanSend
  cases hf : c.failed with
  | some e => simp
  | none =>
    cases hs : c.sentClose with
    | true => simp
    | false =>
      by_cases hn : c.limits.maxRecordsPerKey ≤ c.sendCounter
      · simp [hn]
      · simp [hn]; omega

lemma sealRecord_eq (type : UInt8) (body : Bytes) (h : RecordHeader) :
    c.sealRecord P t type body h = (frameAssociatedData h).map fun ad =>
      (be 8 c.sendCounter ++ P.bytes c.sendKey c.sendCounter ad (type :: body),
        t ++ [⟨c.sendKey, c.sendCounter, ad, type :: body⟩],
        { c with sendCounter := c.sendCounter + 1 }) := by
  unfold sealRecord
  cases frameAssociatedData h <;> rfl

/-- **A producing call returns exactly when** the cipher has not failed or been closed, there
is room for the record and the header is one of a frame; and what it then returns. -/
theorem send_eq_ok_iff {r : OpenedRecord} {h : RecordHeader} {record : Bytes} {t' : Table K}
    {c' : SessionCipher K} : c.send P t r h = .ok (record, t', c') ↔
      c.failed = none ∧ c.sentClose = false ∧ c.Fits r ∧
      ∃ ad, frameAssociatedData h = .ok ad ∧ record = c.nextRecord P r ad ∧
        t' = t ++ [⟨c.sendKey, c.sendCounter, ad, r.inner⟩] ∧ c' = c.afterSend P r := by
  have hassert := assertCanSend_eq_ok_iff (c := c)
  cases r with
  | data plaintext =>
    unfold send sealData
    by_cases hlen : MAX_SEALED_PLAINTEXT < plaintext.length
    · have : ¬ plaintext.length ≤ MAX_SEALED_PLAINTEXT := by omega
      simp [hlen, Fits, this, bind, Except.bind]
    have hle : plaintext.length ≤ MAX_SEALED_PLAINTEXT := by omega
    cases ha : c.assertCanSend with
    | error e =>
      rw [ha] at hassert
      simp only [hlen, if_false, bind, Except.bind, reduceCtorEq, false_iff]
      rintro ⟨hf, hs, hfit, -⟩
      exact absurd (hassert.mpr ⟨hf, hs, by have := hfit.2; omega⟩) (by simp)
    | ok u =>
      obtain ⟨hf, hs, hn⟩ := hassert.mp ha
      by_cases hslot : c.limits.maxRecordsPerKey - 1 ≤ c.sendCounter
      · have : ¬ c.sendCounter < c.limits.maxRecordsPerKey - 1 := by omega
        simp [hlen, hslot, Fits, this, bind, Except.bind]
      · have hlt : c.sendCounter < c.limits.maxRecordsPerKey - 1 := by omega
        simp only [hlen, hslot, if_false, bind, Except.bind, sealRecord_eq]
        cases frameAssociatedData h <;>
          simp [Except.map, hf, hs, Fits, hle, hlt, nextRecord, afterSend, OpenedRecord.inner,
            eq_comm]
  | close =>
    unfold send close
    cases ha : c.assertCanSend with
    | error e =>
      rw [ha] at hassert
      simp only [bind, Except.bind, reduceCtorEq, false_iff]
      rintro ⟨hf, hs, hfit, -⟩
      exact absurd (hassert.mpr ⟨hf, hs, hfit⟩) (by simp)
    | ok u =>
      obtain ⟨hf, hs, hn⟩ := hassert.mp ha
      simp only [bind, Except.bind, sealRecord_eq]
      cases frameAssociatedData h <;>
        simp [Except.map, hf, hs, Fits, hn, nextRecord, afterSend, OpenedRecord.inner, eq_comm]
  | keyUpdate =>
    unfold send updateKey
    cases ha : c.assertCanSend with
    | error e =>
      rw [ha] at hassert
      simp only [bind, Except.bind, reduceCtorEq, false_iff]
      rintro ⟨hf, hs, hfit, -⟩
      exact absurd (hassert.mpr ⟨hf, hs, hfit⟩) (by simp)
    | ok u =>
      obtain ⟨hf, hs, hn⟩ := hassert.mp ha
      simp only [bind, Except.bind, sealRecord_eq]
      cases frameAssociatedData h <;>
        simp [Except.map, hf, hs, Fits, hn, nextRecord, afterSend, OpenedRecord.inner, eq_comm]

lemma acceptInner_eq_ok {inner : Bytes} {r : OpenedRecord} {c' : SessionCipher K}
    (h : acceptInner P { c with receiveCounter := c.receiveCounter + 1 } inner = (c', .ok r)) :
    inner = r.inner ∧ c' = c.afterOpen P r := by
  unfold acceptInner at h
  split at h
  · next hd =>
    split at h
    · simp at h
    · obtain ⟨tl, rfl⟩ := List.head?_eq_some_iff.mp hd
      simp only [List.tail_cons, Prod.mk.injEq, Except.ok.injEq] at h
      obtain ⟨rfl, rfl⟩ := h
      exact ⟨rfl, rfl⟩
  split at h
  · simp at h
  next hlen =>
  obtain ⟨b, rfl⟩ := List.length_eq_one_iff.mp (not_not.mp hlen)
  split at h
  · next hb =>
    simp only [List.head?_cons, Option.some.injEq, Prod.mk.injEq, Except.ok.injEq] at hb h
    obtain ⟨rfl, rfl⟩ := h
    exact ⟨by rw [hb]; rfl, rfl⟩
  split at h
  · next hb =>
    simp only [List.head?_cons, Option.some.injEq, Prod.mk.injEq, Except.ok.injEq] at hb h
    obtain ⟨rfl, rfl⟩ := h
    exact ⟨by rw [hb]; rfl, rfl⟩
  · simp at h

/-- What `open` returned a record for: the exact next record, produced under the current key
for a frame with this header. -/
structure Opens (P : Crypto K) (t : Table K) (c : SessionCipher K) (h : RecordHeader)
    (r : OpenedRecord) : Prop where
  failed : c.failed = none
  receivedClose : c.receivedClose = false
  produced : ∃ ad, frameAssociatedData h = .ok ad ∧
    ⟨c.receiveKey, c.receiveCounter, ad, r.inner⟩ ∈ t

lemma acceptInner_eq_error {inner : Bytes} {e : SessionError} {c' : SessionCipher K}
    (h : acceptInner P c inner = (c', .error e)) : c' = c := by
  unfold acceptInner at h
  split_ifs at h <;> simp_all

/-- `openRecord` either refuses the record untouched, or goes on to what it decrypted. -/
lemma openRecord_cases (P : Crypto K) (t : Table K) (c : SessionCipher K) (record ad : Bytes) :
    (∃ e, c.openRecord P t record ad = (c, .error e)) ∨
    ∃ inner, c.receivedClose = false ∧ ⟨c.receiveKey, c.receiveCounter, ad, inner⟩ ∈ t ∧
      c.openRecord P t record ad =
        acceptInner P { c with receiveCounter := c.receiveCounter + 1 } inner := by
  unfold openRecord
  by_cases hclose : c.receivedClose = true
  · exact Or.inl ⟨_, by rw [if_pos hclose]⟩
  rw [if_neg hclose]
  by_cases hsize : record.length < SEALED_RECORD_OVERHEAD ∨ MAX_FRAME_PAYLOAD < record.length
  · exact Or.inl ⟨_, by rw [if_pos hsize]⟩
  rw [if_neg hsize]
  dsimp only
  by_cases hlow : ofBe (record.take 8) < c.receiveCounter
  · exact Or.inl ⟨_, by rw [if_pos hlow]⟩
  rw [if_neg hlow]
  by_cases hhigh : c.receiveCounter < ofBe (record.take 8)
  · exact Or.inl ⟨_, by rw [if_pos hhigh]⟩
  rw [if_neg hhigh]
  by_cases hmax : c.limits.maxRecordsPerKey ≤ c.receiveCounter
  · exact Or.inl ⟨_, by rw [if_pos hmax]⟩
  rw [if_neg hmax, show ofBe (record.take 8) = c.receiveCounter by omega]
  cases hdec : decrypt P.toScheme t c.receiveKey c.receiveCounter ad (record.drop 8) with
  | none => exact Or.inl ⟨_, rfl⟩
  | some inner =>
    exact Or.inr ⟨inner, by simpa using hclose, ((decrypt_eq_some_iff _).mp hdec).1, rfl⟩

@[simp] lemma poison_receivedClose (e : SessionError) :
    (c.poison P e).receivedClose = c.receivedClose := by
  unfold poison
  cases c.failed <;> rfl

lemma poison_failed (e : SessionError) : (c.poison P e).failed ≠ none := by
  unfold poison
  cases h : c.failed <;> simp [h]

/-- The three ways `open` can end. -/
lemma openFrame_cases (P : Crypto K) (t : Table K) (c : SessionCipher K) (record : Bytes)
    (h : RecordHeader) :
    (∃ r, c.openFrame P t record h = (c.afterOpen P r, .ok r) ∧ Opens P t c h r) ∨
    (∃ e c', c.openFrame P t record h = (c', .error (.session e)) ∧ c'.failed ≠ none ∧
      (c'.receivedClose = false → c.receivedClose = false)) ∨
    (∃ m, c.openFrame P t record h = (c, .error (.range m))) := by
  unfold openFrame
  cases hf : c.failed with
  | some e => exact Or.inr (Or.inl ⟨e, c, rfl, by simp [hf], id⟩)
  | none =>
    cases had : frameAssociatedData h with
    | error e =>
      obtain ⟨m, rfl⟩ : ∃ m, e = .range m := by
        unfold frameAssociatedData at had
        split at had
        · exact ⟨_, (Except.error.inj had).symm⟩
        split at had
        · exact ⟨_, (Except.error.inj had).symm⟩
        split at had
        · exact ⟨_, (Except.error.inj had).symm⟩
        · simp at had
      exact Or.inr (Or.inr ⟨m, rfl⟩)
    | ok ad =>
      rcases openRecord_cases P t c record ad with ⟨e, he⟩ | ⟨inner, hclose, hmem, hinner⟩
      · exact Or.inr (Or.inl ⟨e, c.poison P e, by simp [he], poison_failed e, by simp⟩)
      dsimp only
      rw [hinner]
      rcases haccept : acceptInner P { c with receiveCounter := c.receiveCounter + 1 } inner with
        ⟨c', e | r⟩
      · obtain rfl := acceptInner_eq_error haccept
        exact Or.inr (Or.inl ⟨e, _, rfl, poison_failed e, by simp⟩)
      · obtain ⟨rfl, rfl⟩ := acceptInner_eq_ok haccept
        exact Or.inl ⟨r, rfl, hf, hclose, ad, had, hmem⟩

/-- The converse: a receiver that stands where the record was produced opens it. -/
lemma openFrame_nextRecord {s : SessionCipher K} {r : OpenedRecord} {h : RecordHeader}
    {ad : Bytes} (hopens : Opens P t c h r)
    (had : frameAssociatedData h = .ok ad) (hkey : s.sendKey = c.receiveKey)
    (hcounter : s.sendCounter = c.receiveCounter) (hlimits : s.limits = c.limits)
    (hfits : s.Fits r) : c.openFrame P t (s.nextRecord P r ad) h = (c.afterOpen P r, .ok r) := by
  obtain ⟨hf, hclose, ad', had', hmem⟩ := hopens
  obtain rfl : ad' = ad := Except.ok.inj (had'.symm.trans had)
  have hmax := c.limits.le_max
  have htwo := c.limits.two_le
  have hlt : c.receiveCounter < c.limits.maxRecordsPerKey := by
    rw [← hcounter, ← hlimits]
    cases r with
    | data p => have := hfits.2; omega
    | close => exact hfits
    | keyUpdate => exact hfits
  have hinner : 1 ≤ r.inner.length ∧ r.inner.length ≤ 1 + MAX_SEALED_PLAINTEXT := by
    cases r with
    | data p => have := hfits.1; simp [OpenedRecord.inner]; omega
    | close => simp [OpenedRecord.inner]
    | keyUpdate => simp [OpenedRecord.inner]
  have hlength : (s.nextRecord P r ad').length = 8 + r.inner.length + 16 := by
    simp [nextRecord, P.length, P.tagLength_eq]; omega
  have htake : (s.nextRecord P r ad').take 8 = be 8 c.receiveCounter := by
    simp [nextRecord, hcounter]
  have hdrop : (s.nextRecord P r ad').drop 8 =
      P.bytes c.receiveKey c.receiveCounter ad' r.inner := by
    simp [nextRecord, hkey, hcounter]
  have hread : ofBe (be 8 c.receiveCounter) = c.receiveCounter := by
    exact ofBe_be_of_lt (lt_of_lt_of_le hlt (hmax.trans (by decide)))
  have hdec : decrypt P.toScheme t c.receiveKey c.receiveCounter ad'
      (P.bytes c.receiveKey c.receiveCounter ad' r.inner) = some r.inner :=
    (decrypt_eq_some_iff _).mpr ⟨hmem, rfl⟩
  have haccept : acceptInner P { c with receiveCounter := c.receiveCounter + 1 } r.inner =
      (c.afterOpen P r, .ok r) := by
    cases r with
    | data p =>
      have hslot : ¬ c.limits.maxRecordsPerKey ≤ c.receiveCounter + 1 := by
        have := hfits.2; rw [hcounter, hlimits] at this; omega
      simp [acceptInner, OpenedRecord.inner, afterOpen, hslot]
    | close =>
      simp [acceptInner, OpenedRecord.inner, afterOpen, RecordType.DATA, RecordType.CLOSE]
    | keyUpdate =>
      simp [acceptInner, OpenedRecord.inner, afterOpen, RecordType.DATA, RecordType.CLOSE,
        RecordType.KEY_UPDATE]
  have hsize : ¬ ((s.nextRecord P r ad').length < SEALED_RECORD_OVERHEAD ∨
      MAX_FRAME_PAYLOAD < (s.nextRecord P r ad').length) := by
    rw [hlength]
    unfold MAX_SEALED_PLAINTEXT at hinner
    unfold SEALED_RECORD_OVERHEAD MAX_FRAME_PAYLOAD at *
    omega
  have hrecord : c.openRecord P t (s.nextRecord P r ad') ad' = (c.afterOpen P r, .ok r) := by
    unfold openRecord
    rw [if_neg (by simp [hclose]), if_neg hsize, htake, hdrop, hread]
    dsimp only
    rw [if_neg (lt_irrefl _), if_neg (lt_irrefl _), if_neg (Nat.not_le.mpr hlt), hdec]
    exact haccept
  simp [openFrame, hf, had, hrecord]

lemma transportEnded_cases (P : Crypto K) (c : SessionCipher K) :
    c.transportEnded P = (c, .ok ()) ∨
    ∃ e c', c.transportEnded P = (c', .error (.session e)) ∧ c'.failed ≠ none ∧
      (c'.receivedClose = false → c.receivedClose = false) := by
  unfold transportEnded
  cases hf : c.failed with
  | some e => exact Or.inr ⟨e, c, rfl, by simp [hf], id⟩
  | none =>
    cases hr : c.receivedClose with
    | true => exact Or.inl rfl
    | false => exact Or.inr ⟨_, _, rfl, poison_failed _, fun _ => rfl⟩

/-- A failed cipher returns nothing any more. -/
lemma send_of_failed (hf : c.failed ≠ none) (r : OpenedRecord) (h : RecordHeader)
    (x : Bytes × Table K × SessionCipher K) : c.send P t r h ≠ .ok x := by
  obtain ⟨record, t', c'⟩ := x
  intro hx
  exact hf (send_eq_ok_iff.mp hx).1

lemma openFrame_of_failed (hf : c.failed ≠ none) (record : Bytes) (h : RecordHeader) :
    ∃ e, c.openFrame P t record h = (c, .error (.session e)) := by
  obtain ⟨e, he⟩ := Option.ne_none_iff_exists'.mp hf
  exact ⟨e, by simp [openFrame, he]⟩

end SessionCipher

/-! ### Associated data -/

lemma strayFlags_eq_zero {flags : ℤ} {allowed : ℕ} (h0 : 0 ≤ flags) (hlt : flags < 2 ^ 32)
    (h : strayFlags flags allowed = 0) : flags.toNat ≤ allowed % 2 ^ 32 := by
  have hsub : BitVec.ofInt 32 flags &&& BitVec.ofNat 32 allowed = BitVec.ofInt 32 flags := by
    have hor := BitVec.and_or_distrib_left (x := BitVec.ofInt 32 flags)
      (y := BitVec.ofNat 32 allowed) (z := ~~~(BitVec.ofNat 32 allowed))
    unfold strayFlags at h
    rw [h, BitVec.or_not_self, BitVec.and_allOnes] at hor
    exact (hor.trans BitVec.or_zero).symm
  have hle := congrArg BitVec.toNat hsub
  rw [BitVec.toNat_and] at hle
  have hand := Nat.and_le_right (n := (BitVec.ofInt 32 flags).toNat)
    (m := (BitVec.ofNat 32 allowed).toNat)
  rw [hle, BitVec.toNat_ofInt, BitVec.toNat_ofNat, Int.emod_eq_of_lt h0 (by omega)] at hand
  omega

/-- Two headers with the same associated data are the same, unless a flags value of 2³² or
more hides behind the 32 bits that are looked at. -/
lemma frameAssociatedData_injective {h h' : RecordHeader} {ad : Bytes}
    (hr : h.flags < 2 ^ 32) (hr' : h'.flags < 2 ^ 32)
    (had : frameAssociatedData h = .ok ad) (had' : frameAssociatedData h' = .ok ad) :
    h = h' := by
  have key : ∀ {g : RecordHeader}, g.flags < 2 ^ 32 → frameAssociatedData g = .ok ad →
      ∃ type : FrameType, g.type = type.value ∧ 0 ≤ g.flags ∧ g.flags ≤ 3 ∧ 0 ≤ g.streamId ∧
        g.streamId ≤ 0xffffffff ∧ ad = be 1 PROTOCOL_VERSION ++ be 1 type.value ++
          be 2 g.flags.toNat ++ be 4 g.streamId.toNat := by
    intro g hg hgad
    unfold frameAssociatedData at hgad
    split at hgad
    · simp at hgad
    next type htype =>
    split at hgad
    · simp at hgad
    next hflags =>
    split at hgad
    · simp at hgad
    next hstream =>
    push Not at hflags hstream
    have hstray := strayFlags_eq_zero hflags.1 hg hflags.2
    have hallowed := allowedFlags_le type
    rw [Nat.mod_eq_of_lt (show allowedFlags type < 2 ^ 32 by omega)] at hstray
    have hvalue := frameTypeOf_eq_some htype
    have hpos : 0 < type.value := by cases type <;> decide
    exact ⟨type, by omega, hflags.1, by omega, hstream.1, hstream.2,
      (Except.ok.inj hgad).symm⟩
  obtain ⟨type, ht, hf0, hf3, hs0, hs, rfl⟩ := key hr had
  obtain ⟨type', ht', hf0', hf3', hs0', hs', heq⟩ := key hr' had'
  simp only [List.append_assoc] at heq
  obtain ⟨-, heq⟩ := List.append_inj heq (by simp)
  obtain ⟨htype, heq⟩ := List.append_inj heq (by simp)
  obtain ⟨hflags, hstream⟩ := List.append_inj heq (by simp)
  have e1 := be_injective (by have := type.value_lt; omega)
    (by have := type'.value_lt; omega) htype
  have e2 := be_injective (by omega) (by omega) hflags
  have e3 := be_injective (by omega) (by omega) hstream
  obtain ⟨_, _, _⟩ := h
  obtain ⟨_, _, _⟩ := h'
  simp only [RecordHeader.mk.injEq] at *
  omega

end Tnp.Protocol.Session
