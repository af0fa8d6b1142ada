import Tnp.Protocol.Session

/-!
One end of a session with the keys left out: an in-order channel.

What it sends is a content, not its bytes, and what arrives is either the next content of the
peer or something the cipher refuses. The last section shows that a `SessionCipher` is one.
-/

set_option linter.unusedSectionVars false

namespace Tnp.Protocol.SessionChannel

open Tnp.Lib Tnp.Lib.Aead Tnp.Protocol.Session

structure Channel where
  limits : ResolvedLimits
  sendCounter : ℕ := 0
  sentClose : Bool := false
  receivedClose : Bool := false
  failed : Option SessionError := none
  deriving DecidableEq

namespace Channel

variable (c : Channel)

def needsKeyUpdate : Bool := c.limits.keyUpdateInterval ≤ c.sendCounter

def assertCanSend : Except Thrown Unit :=
  match c.failed with
  | some e => .error (.session e)
  | none =>
    if c.sentClose then
      .error (.session ⟨"session already closed for sending", .PROTOCOL_VIOLATION⟩)
    else if c.limits.maxRecordsPerKey ≤ c.sendCounter then .error .rekeyRequired
    else .ok ()

/-- `seal`, `close` and `updateKey`, for a header that is one of a frame. -/
def send : OpenedRecord → Except Thrown Channel
  | .data plaintext => do
    if MAX_SEALED_PLAINTEXT < plaintext.length then
      .error (.range s!"plaintext of {plaintext.length} bytes exceeds MAX_SEALED_PLAINTEXT")
    c.assertCanSend
    if c.limits.maxRecordsPerKey - 1 ≤ c.sendCounter then .error .rekeyRequired
    .ok { c with sendCounter := c.sendCounter + 1 }
  | .close => do
    c.assertCanSend
    .ok { c with sendCounter := c.sendCounter + 1, sentClose := true }
  | .keyUpdate => do
    c.assertCanSend
    .ok { c with sendCounter := 0 }

/-- `open`, of the peer's next content or of anything else. -/
def receive (arrived : Except SessionError OpenedRecord) :
    Channel × Except Thrown OpenedRecord :=
  match c.failed with
  | some e => (c, .error (.session e))
  | none =>
    if c.receivedClose then
      let e : SessionError := ⟨"record after authenticated close", .PROTOCOL_VIOLATION⟩
      ({ c with failed := some e }, .error (.session e))
    else
      match arrived with
      | .ok r => ({ c with receivedClose := r = .close }, .ok r)
      | .error e => ({ c with failed := some e }, .error (.session e))

variable {c}

lemma assertCanSend_eq_ok_iff : c.assertCanSend = .ok () ↔
    c.failed = none ∧ c.sentClose = false ∧ c.sendCounter < c.limits.maxRecordsPerKey := by
  unfold assertCanSend
  cases hf : c.failed with
  | some e => simp
  | none =>
    cases hs : c.sentClose with
    | true => simp
    | false =>
      by_cases hn : c.limits.maxRecordsPerKey ≤ c.sendCounter
      · simp [hn]
      · simp [hn]; omega

end Channel

/-! ### The cipher is a channel -/

variable {K : Type} [DecidableEq K] {P : Crypto K} {t : Table K} {c : SessionCipher K}

/-- The channel a cipher is, its keys forgotten. -/
def channelOf (c : SessionCipher K) : Channel :=
  ⟨c.limits, c.sendCounter, c.sentClose, c.receivedClose, c.failed⟩

@[simp] lemma assertCanSend_channelOf : (channelOf c).assertCanSend = c.assertCanSend := rfl

/-- **What a cipher sends, its channel sends**, and the two stay one. -/
theorem send_channelOf (P : Crypto K) (t : Table K) (c : SessionCipher K) {h : RecordHeader}
    {ad : Bytes} (had : frameAssociatedData h = .ok ad) (r : OpenedRecord) :
    (c.send P t r h).map (fun x => channelOf x.2.2) = (channelOf c).send r := by
  have hrecord : ∀ type body, c.sealRecord P t type body h =
      .ok (be 8 c.sendCounter ++ P.bytes c.sendKey c.sendCounter ad (type :: body),
        t ++ [⟨c.sendKey, c.sendCounter, ad, type :: body⟩],
        { c with sendCounter := c.sendCounter + 1 }) := by
    intro type body
    rw [SessionCipher.sealRecord_eq, had]
    rfl
  cases r with
  | data plaintext =>
    unfold SessionCipher.send SessionCipher.sealData Channel.send
    by_cases hlen : MAX_SEALED_PLAINTEXT < plaintext.length
    · simp [hlen, bind, Except.bind, Except.map]
    simp only [hlen, if_false, bind, Except.bind, assertCanSend_channelOf, hrecord]
    cases c.assertCanSend with
    | error e => rfl
    | ok u =>
      by_cases hslot : c.limits.maxRecordsPerKey - 1 ≤ c.sendCounter
      · simp [channelOf, hslot, Except.map]
      · simp [channelOf, hslot, Except.map]
  | close =>
    unfold SessionCipher.send SessionCipher.close Channel.send
    simp only [bind, Except.bind, assertCanSend_channelOf, hrecord]
    cases c.assertCanSend <;> rfl
  | keyUpdate =>
    unfold SessionCipher.send SessionCipher.updateKey Channel.send
    simp only [bind, Except.bind, assertCanSend_channelOf, hrecord]
    cases c.assertCanSend <;> rfl

/-- **What a cipher opens, its channel receives**: whatever the relay delivers, the cipher does
what its channel does with some arrival, and that arrival is a content only where the cipher
could open it. -/
theorem openFrame_channelOf (P : Crypto K) (t : Table K) (c : SessionCipher K) (record : Bytes)
    {h : RecordHeader} {ad : Bytes} (had : frameAssociatedData h = .ok ad) :
    ∃ arrived, (∀ r, arrived = .ok r → c.failed = none → c.receivedClose = false →
        SessionCipher.Opens P t c h r) ∧
      (channelOf (c.openFrame P t record h).1, (c.openFrame P t record h).2) =
        (channelOf c).receive arrived := by
  unfold SessionCipher.openFrame Channel.receive
  cases hf : c.failed with
  | some e => exact ⟨.error e, by simp, by simp [channelOf, hf]⟩
  | none =>
    rw [had]
    dsimp only
    by_cases hclose : c.receivedClose = true
    · refine ⟨.error ⟨"", .TRUNCATED⟩, by simp, ?_⟩
      simp [SessionCipher.openRecord, SessionCipher.poison, channelOf, hf, hclose]
    rcases SessionCipher.openRecord_cases P t c record ad with ⟨e, he⟩ | ⟨inner, -, hmem, hinner⟩
    · refine ⟨.error e, by simp, ?_⟩
      simp [he, SessionCipher.poison, channelOf, hf, hclose]
    rw [hinner]
    rcases haccept : SessionCipher.acceptInner P
        { c with receiveCounter := c.receiveCounter + 1 } inner with ⟨c', e | r⟩
    · obtain rfl := SessionCipher.acceptInner_eq_error haccept
      refine ⟨.error e, by simp, ?_⟩
      simp [SessionCipher.poison, channelOf, hf, hclose]
    · obtain ⟨rfl, rfl⟩ := SessionCipher.acceptInner_eq_ok haccept
      refine ⟨.ok r, ?_, ?_⟩
      · rintro _ ⟨⟩ - hopen
        exact ⟨hf, hopen, ad, had, hmem⟩
      · cases r <;> simp [SessionCipher.afterOpen, channelOf, hf, hclose]

end Tnp.Protocol.SessionChannel
