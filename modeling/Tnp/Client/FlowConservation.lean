import Mathlib.Algebra.Order.BigOperators.Group.List
import Tnp.Client.StreamIntegrity

/-!
Flow control between two circuits joined by an in-order channel.

Credit is never made or lost: what the sender may still send, what is on its way, what the
receiver holds and what it is granting back always add up to the initial window.
-/

namespace Tnp.Client.FlowConservation

open Tnp.Lib Tnp.Lib.Run Tnp.Protocol Tnp.Protocol.Session Tnp.Protocol.SessionChannel
open Tnp.Client.Circuit Tnp.Client.Circuit.SecureCircuit Tnp.Client.StreamIntegrity

/-! ### A circuit that nothing went wrong with -/

structure Healthy (c : SecureCircuit) : Prop where
  done : c.done = false
  sentFin : c.sentFin = false
  peerFin : c.peerFin = false
  sentClose : c.sentClose = false
  sends : c.link.sends = []
  failed : c.session.failed = none
  sessionClose : c.session.sentClose = false
  receivedClose : c.session.receivedClose = false
  room : c.session.sendCounter < c.session.limits.maxRecordsPerKey

variable {c : SecureCircuit}

lemma Healthy.assertCanSend (h : Healthy c) : c.session.assertCanSend = .ok () :=
  Channel.assertCanSend_eq_ok_iff.mpr ⟨h.failed, h.sessionClose, h.room⟩

lemma Healthy.sealKeyUpdate (h : Healthy c) :
    c.sealRecord .keyUpdate = ({ c with
      session := { c.session with sendCounter := 0 }
      records := c.records ++ [⟨.keyUpdate, true⟩] }, .ok true) := by
  have hsend : c.session.send .keyUpdate = .ok { c.session with sendCounter := 0 } := by
    simp [Channel.send, h.assertCanSend, Bind.bind, Except.bind]
  have hlink : ({ c.link with sends := [] } : Link) = c.link := by rw [← h.sends]
  simp [sealRecord, hsend, sendRecord, linkSend, h.sends, hlink]

lemma Healthy.sealMessage (h : Healthy c) {m : StreamMessage} {plaintext : Bytes}
    (hm : encodeStreamMessage m = .ok plaintext) (hlength : plaintext.length ≤ MAX_SEALED_PLAINTEXT)
    (hroom : c.session.sendCounter < c.session.limits.maxRecordsPerKey - 1) :
    c.sealMessage m = ({ c with
      session := { c.session with sendCounter := c.session.sendCounter + 1 }
      records := c.records ++ [⟨.data plaintext, true⟩] }, .ok true) := by
  have hsend : c.session.send (.data plaintext) =
      .ok { c.session with sendCounter := c.session.sendCounter + 1 } := by
    simp [Channel.send, h.assertCanSend, not_lt.mpr hlength, not_le.mpr hroom, Bind.bind,
      Except.bind]
  have hlink : ({ c.link with sends := [] } : Link) = c.link := by rw [← h.sends]
  simp [SecureCircuit.sealMessage, hm, sealRecord, hsend, sendRecord, linkSend, h.sends, hlink]

lemma Healthy.sealMessage_full (h : Healthy c) {m : StreamMessage} {plaintext : Bytes}
    (hm : encodeStreamMessage m = .ok plaintext) (hlength : plaintext.length ≤ MAX_SEALED_PLAINTEXT)
    (hroom : ¬ c.session.sendCounter < c.session.limits.maxRecordsPerKey - 1) :
    c.sealMessage m = (c, .error .rekeyRequired) := by
  have hsend : c.session.send (.data plaintext) = .error .rekeyRequired := by
    simp [Channel.send, h.assertCanSend, not_lt.mpr hlength, not_lt.mp hroom, Bind.bind,
      Except.bind]
  simp [SecureCircuit.sealMessage, hm, sealRecord, hsend]

lemma Healthy.records (h : Healthy c) {n : ℕ} (hn : n < c.session.limits.maxRecordsPerKey)
    (records : List Sealed) :
    Healthy { c with session := { c.session with sendCounter := n }, records } :=
  ⟨h.done, h.sentFin, h.peerFin, h.sentClose, h.sends, h.failed, h.sessionClose, h.receivedClose,
    hn⟩

/-- `c'` is `c` with more records, all of them taken by the connection. -/
structure Pushes (c c' : SecureCircuit) (added : List Sealed) : Prop where
  healthy : Healthy c'
  same : c' = { c with session := c'.session, records := c'.records }
  records : c'.records = c.records ++ added
  handed : ∀ x ∈ added, x.handed = true

/-- The records of a message: key updates, then the message. -/
def MessageRecords (plaintext : Bytes) (added : List Sealed) : Prop :=
  ∃ updates : List Sealed, (∀ x ∈ updates, x.content = .keyUpdate) ∧
    added = updates ++ [⟨.data plaintext, true⟩]

/-- With room under the key, a circuit that only added key updates to `c` adds the message. -/
lemma Healthy.sealMessage_pushes {d : SecureCircuit} (hd : Healthy d) (updates : List Sealed)
    (hsame : d = { c with session := d.session, records := c.records ++ updates })
    (hupdates : ∀ x ∈ updates, x = ⟨.keyUpdate, true⟩) {m : StreamMessage} {plaintext : Bytes}
    (hm : encodeStreamMessage m = .ok plaintext) (hlength : plaintext.length ≤ MAX_SEALED_PLAINTEXT)
    (hroom : d.session.sendCounter < d.session.limits.maxRecordsPerKey - 1) :
    ∃ c' added, d.sealMessage m = (c', .ok true) ∧ Pushes c c' added ∧
      MessageRecords plaintext added := by
  refine ⟨_, updates ++ [⟨.data plaintext, true⟩], hd.sealMessage hm hlength hroom,
    ⟨hd.records (by omega) _, ?_, ?_, ?_⟩, updates, fun x hx => by rw [hupdates x hx], rfl⟩
  · rw [hsame]
  · rw [hsame, List.append_assoc]
  · intro x hx
    rcases List.mem_append.mp hx with hx | hx
    · rw [hupdates x hx]
    · rw [List.mem_singleton.mp hx]

lemma Healthy.sealWithRekey_pushes {d : SecureCircuit} (hd : Healthy d) (updates : List Sealed)
    (hsame : d = { c with session := d.session, records := c.records ++ updates })
    (hupdates : ∀ x ∈ updates, x = ⟨.keyUpdate, true⟩) {m : StreamMessage} {plaintext : Bytes}
    (hm : encodeStreamMessage m = .ok plaintext)
    (hlength : plaintext.length ≤ MAX_SEALED_PLAINTEXT) :
    ∃ c' added, d.sealWithRekey m = (c', .ok true) ∧ Pushes c c' added ∧
      MessageRecords plaintext added := by
  have htwo := d.session.limits.two_le
  unfold SecureCircuit.sealWithRekey
  by_cases hroom : d.session.sendCounter < d.session.limits.maxRecordsPerKey - 1
  · obtain ⟨c', added, heq, hpushes⟩ :=
      hd.sealMessage_pushes updates hsame hupdates hm hlength hroom
    exact ⟨c', added, by rw [heq], hpushes⟩
  · have hd' := hd.records (show 0 < d.session.limits.maxRecordsPerKey by omega)
      (d.records ++ [⟨.keyUpdate, true⟩])
    rw [hd.sealMessage_full hm hlength hroom]
    dsimp only
    rw [hd.sealKeyUpdate]
    refine hd'.sealMessage_pushes (updates ++ [⟨.keyUpdate, true⟩]) ?_ ?_ hm hlength ?_
    · rw [hsame, List.append_assoc]
    · intro x hx
      rcases List.mem_append.mp hx with hx | hx
      · exact hupdates x hx
      · exact List.mem_singleton.mp hx
    · simp only
      omega

/-- **A healthy circuit sends every message**, with a key update before it where one is due. -/
theorem Healthy.sendMessage (h : Healthy c) {m : StreamMessage} {plaintext : Bytes}
    (hm : encodeStreamMessage m = .ok plaintext)
    (hlength : plaintext.length ≤ MAX_SEALED_PLAINTEXT) :
    ∃ c' added, c.sendMessage m = (true, c') ∧ Pushes c c' added ∧
      MessageRecords plaintext added := by
  have htwo := c.session.limits.two_le
  unfold SecureCircuit.sendMessage SecureCircuit.trySend
  rw [if_neg (by simp [h.done, h.sentClose])]
  cases c.session.needsKeyUpdate with
  | false =>
    obtain ⟨c', added, heq, hpushes⟩ :=
      h.sealWithRekey_pushes (c := c) [] (by simp) (by simp) hm hlength
    exact ⟨c', added, by simp [heq], hpushes⟩
  | true =>
    have hd := h.records (show 0 < c.session.limits.maxRecordsPerKey by omega)
      (c.records ++ [⟨.keyUpdate, true⟩])
    obtain ⟨c', added, heq, hpushes⟩ :=
      hd.sealWithRekey_pushes (c := c) [⟨.keyUpdate, true⟩] rfl (by simp) hm hlength
    exact ⟨c', added, by simp [h.sealKeyUpdate, heq], hpushes⟩

/-! ### What records carry -/

def messageCredit : StreamMessage → ℕ
  | .window credit => credit
  | _ => 0

/-- The credit a record grants. -/
def contentCredit : OpenedRecord → ℕ
  | .data plaintext =>
    match decodeStreamMessage plaintext with
    | .ok m => messageCredit m
    | .error _ => 0
  | _ => 0

def recordCredit (records : List Sealed) : ℕ := (records.map fun x => contentCredit x.content).sum

@[simp] lemma recordCredit_nil : recordCredit [] = 0 := rfl

@[simp] lemma recordCredit_append (l m : List Sealed) :
    recordCredit (l ++ m) = recordCredit l + recordCredit m := by
  simp [recordCredit]

@[simp] lemma recordCredit_cons (x : Sealed) (l : List Sealed) :
    recordCredit (x :: l) = contentCredit x.content + recordCredit l := by
  simp [recordCredit]

lemma recordData_cons (x : Sealed) (l : List Sealed) :
    recordData (x :: l) = contentData x.content ++ recordData l := by
  simp [recordData]

lemma contentCredit_le {l : List Sealed} {x : Sealed} (hx : x ∈ l) :
    contentCredit x.content ≤ recordCredit l :=
  List.single_le_sum (fun _ _ => Nat.zero_le _) _ (List.mem_map_of_mem hx)

lemma recordCredit_pos {l : List Sealed} (h : 0 < recordCredit l) :
    ∃ x ∈ l, ∃ plaintext credit, x.content = .data plaintext ∧
      decodeStreamMessage plaintext = .ok (.window credit) ∧ 0 < credit := by
  by_contra hnone
  have hzero : recordCredit l = 0 := by
    refine List.sum_eq_zero fun n hn => ?_
    obtain ⟨x, hx, rfl⟩ := List.mem_map.mp hn
    by_contra hne
    cases hcontent : x.content with
    | data plaintext =>
      cases hm : decodeStreamMessage plaintext with
      | error e => simp [hcontent, contentCredit, hm] at hne
      | ok m =>
        cases m with
        | window credit =>
          rw [hcontent, contentCredit, hm] at hne
          exact hnone ⟨x, hx, plaintext, credit, hcontent, hm, Nat.pos_of_ne_zero hne⟩
        | _ => simp [hcontent, contentCredit, hm, messageCredit] at hne
    | _ => simp [hcontent, contentCredit] at hne
  omega

/-- What a circuit seals once the stream is open and until it ends. -/
def Plain : OpenedRecord → Prop
  | .keyUpdate => True
  | .close => False
  | .data plaintext => (∃ data, decodeStreamMessage plaintext = .ok (.data data)) ∨
      ∃ credit, decodeStreamMessage plaintext = .ok (.window credit)

/-- The message that must come first at one end. -/
def Hello (r : Role) (content : OpenedRecord) : Prop :=
  ∃ plaintext, content = .data plaintext ∧
    match r with
    | .service => ∃ port, decodeStreamMessage plaintext = .ok (.opening port)
    | .client => decodeStreamMessage plaintext = .ok .opened

lemma Hello.quiet {r : Role} {content : OpenedRecord} (h : Hello r content) :
    contentData content = [] ∧ contentCredit content = 0 := by
  obtain ⟨plaintext, rfl, h⟩ := h
  cases r with
  | client => simp [contentData, contentCredit, messageData, messageCredit, show _ = _ from h]
  | service =>
    obtain ⟨port, h⟩ := h
    simp [contentData, contentCredit, messageData, messageCredit, h]

lemma MessageRecords.carry {m : StreamMessage} {plaintext : Bytes} {added : List Sealed}
    (hm : encodeStreamMessage m = .ok plaintext) (h : MessageRecords plaintext added) :
    recordData added = messageData m ∧ recordCredit added = messageCredit m := by
  obtain ⟨updates, hupdates, rfl⟩ := h
  have hnone : recordData updates = [] := recordData_eq_nil fun x hx => by rw [hupdates x hx]; rfl
  have hzero : recordCredit updates = 0 := by
    refine List.sum_eq_zero fun n hn => ?_
    obtain ⟨x, hx, rfl⟩ := List.mem_map.mp hn
    rw [hupdates x hx]
    rfl
  refine ⟨?_, ?_⟩
  · rw [recordData_append, hnone, recordData_singleton, contentData_encode hm, List.nil_append]
  · simp [hzero, contentCredit, decodeStreamMessage_encodeStreamMessage hm]

lemma MessageRecords.plain {plaintext : Bytes} {added : List Sealed}
    (h : MessageRecords plaintext added) (hplain : Plain (.data plaintext)) :
    ∀ x ∈ added, Plain x.content := by
  obtain ⟨updates, hupdates, rfl⟩ := h
  intro x hx
  rcases List.mem_append.mp hx with hx | hx
  · rw [hupdates x hx]
    trivial
  · rw [List.mem_singleton.mp hx]
    exact hplain

/-! ### What a call of the owner does -/

/-- `c'` is the healthy `c` after it sealed `added`: of its window it used what it sent, and of
what it received it granted what it sent. -/
structure Turn (c c' : SecureCircuit) (added : List Sealed) : Prop where
  healthy : Healthy c'
  role : c'.role = c.role
  started : c'.started = c.started
  opened : c'.opened = c.opened
  data : dataIn c'.log = dataIn c.log
  initial : c'.sendWindow.initial = c.sendWindow.initial
  records : c'.records = c.records ++ added
  handed : ∀ x ∈ added, x.handed = true
  used : c'.sendWindow.available + (recordData added).length = c.sendWindow.available
  granted : c'.receivedUngranted + recordCredit added = c.receivedUngranted

/-- A turn that only sealed what an open stream carries. -/
structure PlainTurn (c c' : SecureCircuit) (added : List Sealed) : Prop extends
    Turn c c' added where
  sentOpened : c'.sentOpened = c.sentOpened
  plain : ∀ x ∈ added, Plain x.content

variable {c' c'' : SecureCircuit} {added added' : List Sealed}

lemma Turn.trans (h : Turn c c' added) (h' : Turn c' c'' added') :
    Turn c c'' (added ++ added') where
  healthy := h'.healthy
  role := h'.role.trans h.role
  started := h'.started.trans h.started
  opened := h'.opened.trans h.opened
  data := h'.data.trans h.data
  initial := h'.initial.trans h.initial
  records := by rw [h'.records, h.records, List.append_assoc]
  handed x hx := (List.mem_append.mp hx).elim (h.handed x) (h'.handed x)
  used := by
    have := h.used
    have := h'.used
    simp only [recordData_append, List.length_append]
    omega
  granted := by
    have := h.granted
    have := h'.granted
    simp only [recordCredit_append]
    omega

lemma PlainTurn.trans (h : PlainTurn c c' added) (h' : PlainTurn c' c'' added') :
    PlainTurn c c'' (added ++ added') :=
  ⟨h.toTurn.trans h'.toTurn, h'.sentOpened.trans h.sentOpened,
    fun x hx => (List.mem_append.mp hx).elim (h.plain x) (h'.plain x)⟩

lemma Healthy.plainTurn (h : Healthy c) : PlainTurn c c [] :=
  ⟨⟨h, rfl, rfl, rfl, rfl, rfl, by simp, by simp, by simp, by simp⟩, rfl, by simp⟩

lemma Healthy.congested (h : Healthy c) (congested : List Bool) :
    PlainTurn c { c with link := { sends := [], congested } } [] := by
  refine ⟨⟨?_, rfl, rfl, rfl, rfl, rfl, by simp, by simp, by simp, by simp⟩, rfl, by simp⟩
  exact ⟨h.done, h.sentFin, h.peerFin, h.sentClose, rfl, h.failed, h.sessionClose,
    h.receivedClose, h.room⟩

lemma Healthy.delivery (h : Healthy c) {delivery : Delivery}
    (hdata : dataIn { c with delivery }.log = dataIn c.log) :
    PlainTurn c { c with delivery } [] := by
  refine ⟨⟨?_, rfl, rfl, rfl, hdata, rfl, by simp, by simp, by simp, by simp⟩, rfl, by simp⟩
  exact ⟨h.done, h.sentFin, h.peerFin, h.sentClose, h.sends, h.failed, h.sessionClose,
    h.receivedClose, h.room⟩

lemma Healthy.notifyWritable (h : Healthy c) : PlainTurn c c.notifyWritable [] := by
  unfold SecureCircuit.notifyWritable
  cases hd : c.delivery with
  | held backlog => exact h.plainTurn
  | bound calls => exact h.delivery (by simp [SecureCircuit.log, hd])

lemma Healthy.bind (h : Healthy c) : PlainTurn c c.bind [] := by
  have hbound : PlainTurn c { c with delivery := .bound c.log } [] := h.delivery rfl
  unfold SecureCircuit.bind
  dsimp only
  rw [if_neg (by simp [h.done])]
  exact hbound.trans hbound.healthy.notifyWritable

lemma Healthy.poke (h : Healthy c) : PlainTurn c c.poke [] := by
  unfold SecureCircuit.poke
  rw [if_neg (by simp [h.done])]
  exact h.notifyWritable

/-- There is never more room than the window has left. -/
lemma Healthy.writable (h : Healthy c) :
    PlainTurn c c.writable.2 [] ∧
      c.writable.1 ≤ min c.writable.2.sendWindow.available MAX_STREAM_DATA := by
  have hlink : PlainTurn c c.linkCongested.2 [] := by
    have := h.congested c.link.congested.tail
    rwa [show ({ sends := [], congested := c.link.congested.tail } : Link) =
      { c.link with congested := c.link.congested.tail } by rw [← h.sends]] at this
  unfold SecureCircuit.writable
  rw [if_neg (by simp [h.done, h.sentFin])]
  dsimp only
  split_ifs
  · exact ⟨hlink, Nat.zero_le _⟩
  · exact ⟨hlink, Nat.zero_le _⟩
  · exact ⟨hlink, le_rfl⟩

/-- A pushed message is a turn, if what it carries was taken off the window and off what was
received. -/
lemma Pushes.turn {d : SecureCircuit} (h : Pushes d c' added) {m : StreamMessage}
    {plaintext : Bytes} (hm : encodeStreamMessage m = .ok plaintext)
    (hadded : MessageRecords plaintext added)
    (hd : d = { c with sendWindow := d.sendWindow, receivedUngranted := d.receivedUngranted
                       consumedUngranted := d.consumedUngranted, sentOpened := d.sentOpened })
    (hinitial : d.sendWindow.initial = c.sendWindow.initial)
    (hused : d.sendWindow.available + (messageData m).length = c.sendWindow.available)
    (hgranted : d.receivedUngranted + messageCredit m = c.receivedUngranted) :
    Turn c c' added := by
  obtain ⟨hdata, hcredit⟩ := hadded.carry hm
  have hsame := h.same
  rw [hd] at hsame
  refine ⟨h.healthy, ?_, ?_, ?_, ?_, ?_, ?_, h.handed, ?_, ?_⟩
  · rw [hsame]
  · rw [hsame]
  · rw [hsame]
  · rw [hsame]
    rfl
  · rw [hsame]
    exact hinitial
  · rw [h.records, hd]
  · rw [hdata, ← hused, hsame]
  · rw [hcredit, ← hgranted, hsame]

/-- Counters that the owner's calls set before they send leave a circuit healthy. -/
lemma Healthy.counters (h : Healthy c) (sendWindow : FlowWindow) (received consumed : ℕ)
    (sentOpened : Bool) :
    Healthy { c with sendWindow, receivedUngranted := received, consumedUngranted := consumed
                     sentOpened } :=
  ⟨h.done, h.sentFin, h.peerFin, h.sentClose, h.sends, h.failed, h.sessionClose,
    h.receivedClose, h.room⟩

lemma encode_window {credit : ℕ} (hpos : 0 < credit) (hle : credit ≤ MAX_WINDOW_CREDIT) :
    encodeStreamMessage (.window credit) = .ok (StreamMessageType.WINDOW :: be 4 credit) := by
  simp only [encodeStreamMessage]
  rw [if_neg (by unfold MAX_WINDOW_CREDIT at hle; omega)]

/-- What is received and consumed stays as it is. -/
def SameAccount (c c' : SecureCircuit) : Prop :=
  c'.receivedUngranted = c.receivedUngranted ∧ c'.consumedUngranted = c.consumedUngranted

/-- **Every byte that `write` takes leaves the window and is on its way.** -/
lemma Healthy.writeLoop (h : Healthy c) (fuel : ℕ) (data : Bytes) :
    ∃ added, PlainTurn c (SecureCircuit.writeLoop fuel c data).1 added ∧
      SameAccount c (SecureCircuit.writeLoop fuel c data).1 := by
  induction fuel generalizing c data with
  | zero => exact ⟨[], h.plainTurn, rfl, rfl⟩
  | succ fuel ih =>
    obtain ⟨hroom, hle⟩ := h.writable
    have hconsumed : SameAccount c c.writable.2 := by
      unfold SecureCircuit.writable SecureCircuit.linkCongested
      split_ifs
      · exact ⟨rfl, rfl⟩
      · dsimp only
        split_ifs <;> exact ⟨rfl, rfl⟩
    rw [SecureCircuit.writeLoop]
    split
    · exact ⟨[], h.plainTurn, rfl, rfl⟩
    next hdata =>
    rcases hw : c.writable with ⟨room, d⟩
    rw [hw] at hroom hle hconsumed
    dsimp only at hroom hle hconsumed ⊢
    split
    · exact ⟨[], hroom, hconsumed⟩
    next hne =>
    split
    swap
    · exact ⟨[], hroom, hconsumed⟩
    cases hconsume : d.sendWindow.consume ⟨min room data.length, by assumption⟩ with
    | none => exact ⟨[], hroom, hconsumed⟩
    | some sendWindow =>
      dsimp only
      obtain ⟨hinitial, hused⟩ := FlowWindow.consume_eq_some hconsume
      have hlength : (data.take (min room data.length)).length = min room data.length := by simp
      have hm : encodeStreamMessage (.data (data.take (min room data.length))) = .ok _ :=
        encode_data (by omega) (by omega)
      obtain ⟨d', added, heq, hpushes, hadded⟩ := (hroom.healthy.counters sendWindow
        d.receivedUngranted d.consumedUngranted d.sentOpened).sendMessage hm (by
          unfold MAX_STREAM_DATA at hle
          simp only [List.length_cons, MAX_SEALED_PLAINTEXT] at *
          omega)
      have hturn : PlainTurn d d' added := by
        refine ⟨hpushes.turn hm hadded rfl hinitial ?_ rfl, ?_, hadded.plain ?_⟩
        · simpa [messageData, hlength] using hused
        · rw [hpushes.same]
        · exact Or.inl ⟨_, decodeStreamMessage_encodeStreamMessage hm⟩
      rw [heq]
      dsimp only
      obtain ⟨added', hrest, hconsumed'⟩ := ih hturn.healthy (data.drop (min room data.length))
      refine ⟨_, (hroom.trans hturn).trans hrest, ?_⟩
      rw [SameAccount, hconsumed'.1, hconsumed'.2, hpushes.same]
      exact hconsumed

lemma Healthy.write (h : Healthy c) (data : Bytes) :
    ∃ added, PlainTurn c (c.write data).1 added ∧ SameAccount c (c.write data).1 :=
  h.writeLoop _ data

/-- **Every byte granted was received and is on its way back**, and below the threshold nothing
consumed is forgotten. -/
lemma Healthy.consumed (h : Healthy c) (n : ℕ) (hle : c.receivedUngranted ≤ MAX_WINDOW_CREDIT) :
    ∃ added, PlainTurn c (c.consumed n) added ∧
      (c.consumed n).consumedUngranted < GRANT_THRESHOLD ∧
      (c.consumedUngranted + n ≤ c.receivedUngranted →
        (c.consumed n).consumedUngranted + recordCredit added = c.consumedUngranted + n) := by
  have hthreshold : 0 < GRANT_THRESHOLD := by decide
  have hset : ∀ consumed, PlainTurn c { c with consumedUngranted := consumed } [] := fun consumed =>
    ⟨⟨h.counters c.sendWindow c.receivedUngranted consumed c.sentOpened, rfl, rfl, rfl, rfl, rfl,
      by simp, by simp, by simp, by simp⟩, rfl, by simp⟩
  unfold SecureCircuit.consumed
  rw [if_neg (by simp [h.done, h.peerFin, h.sentClose])]
  dsimp only
  split
  swap
  · next hfew => exact ⟨[], hset _, by simpa using hfew, by simp⟩
  split
  · next hmany hzero =>
    exact ⟨[], hset _, hthreshold, fun hhonest => by simp only [recordCredit_nil]; omega⟩
  next hmany hpos =>
  have hm := encode_window (Nat.pos_of_ne_zero hpos) (by omega)
  obtain ⟨d, added, heq, hpushes, hadded⟩ := (h.counters c.sendWindow
    (c.receivedUngranted - min (c.consumedUngranted + n) c.receivedUngranted) 0
    c.sentOpened).sendMessage hm (by rw [List.length_cons, length_be]; decide)
  obtain ⟨-, hcredit⟩ := hadded.carry hm
  have hconsumed : d.consumedUngranted = 0 := by rw [hpushes.same]
  have hturn : PlainTurn c d added := by
    refine ⟨hpushes.turn hm hadded rfl rfl rfl ?_, ?_, hadded.plain ?_⟩
    · simp only [messageCredit]
      omega
    · rw [hpushes.same]
    · exact Or.inr ⟨_, decodeStreamMessage_encodeStreamMessage hm⟩
  rw [heq]
  refine ⟨added, hturn, by rw [hconsumed]; exact hthreshold, fun hhonest => ?_⟩
  rw [hconsumed, hcredit]
  simp only [messageCredit]
  omega

/-- The message that opens the stream at the other end, behind key updates, is all that
`openPort` and `accept` send. -/
lemma Healthy.hello (h : Healthy c) {m : StreamMessage} {plaintext : Bytes}
    (hm : encodeStreamMessage m = .ok plaintext)
    (hlength : plaintext.length ≤ MAX_SEALED_PLAINTEXT) (hdata : messageData m = [])
    (hcredit : messageCredit m = 0) (sentOpened : Bool) :
    ∃ c' added, { c with sentOpened }.sendMessage m = (true, c') ∧ Turn c c' added ∧
      MessageRecords plaintext added ∧ c'.sentOpened = sentOpened ∧ SameAccount c c' := by
  obtain ⟨c', added, heq, hpushes, hadded⟩ := (h.counters c.sendWindow c.receivedUngranted
    c.consumedUngranted sentOpened).sendMessage hm hlength
  refine ⟨c', added, heq, hpushes.turn hm hadded rfl rfl ?_ ?_, hadded, ?_, ?_⟩
  · simp [hdata]
  · simp [hcredit]
  · rw [hpushes.same]
  · rw [hpushes.same]
    exact ⟨rfl, rfl⟩

/-! ### What a delivery does -/

/-- `c'` is the healthy `c` after it opened a record: it gained the credit the record grants,
and it holds the data the record carries. -/
structure Takes (c c' : SecureCircuit) (r : OpenedRecord) : Prop where
  healthy : Healthy c'
  role : c'.role = c.role
  sentOpened : c'.sentOpened = c.sentOpened
  opened : c'.opened = c.opened + 1
  records : c'.records = c.records
  initial : c'.sendWindow.initial = c.sendWindow.initial
  consumed : c'.consumedUngranted = c.consumedUngranted
  window : c'.sendWindow.available = c.sendWindow.available + contentCredit r
  received : c'.receivedUngranted = c.receivedUngranted + (contentData r).length
  data : dataIn c'.log = dataIn c.log ++ contentData r
  started : c'.started = (c.started || decide (r ≠ .keyUpdate))

lemma Healthy.receives (h : Healthy c) (started : Bool) :
    Healthy { c with opened := c.opened + 1, started } :=
  ⟨h.done, h.sentFin, h.peerFin, h.sentClose, h.sends, h.failed, h.sessionClose,
    h.receivedClose, h.room⟩

lemma Healthy.receive_eq (h : Healthy c) {r : OpenedRecord} (hr : r ≠ .close) :
    c.receive { payload := .ok r } = { c with opened := c.opened + 1 }.handleRecord r := by
  have hsession : c.session.receive (.ok r) = (c.session, .ok r) := by
    unfold Channel.receive
    rw [h.failed]
    dsimp only
    rw [if_neg (by simp [h.receivedClose]), decide_eq_false hr, ← h.receivedClose, ← h.failed]
  unfold SecureCircuit.receive
  rw [if_neg (by simp [h.done]), if_neg (by simp), if_neg (by simp), hsession]

lemma Takes.notifyWritable {r : OpenedRecord} (h : Takes c c' r) :
    Takes c c'.notifyWritable r := by
  have hsame : c'.notifyWritable = { c' with delivery := c'.notifyWritable.delivery } := by
    unfold SecureCircuit.notifyWritable
    split <;> rfl
  have hturn := h.healthy.notifyWritable
  refine ⟨hturn.healthy, hturn.role.trans h.role, hturn.sentOpened.trans h.sentOpened,
    hturn.opened.trans h.opened, ?_, hturn.initial.trans h.initial, ?_, ?_, ?_,
    hturn.data.trans h.data, ?_⟩
  · rw [hsame]
    exact h.records
  · rw [hsame]
    exact h.consumed
  · rw [hsame]
    exact h.window
  · rw [hsame]
    exact h.received
  · rw [hsame]
    exact h.started

lemma Healthy.takes_keyUpdate (h : Healthy c) :
    Takes c (c.receive { payload := .ok .keyUpdate }) .keyUpdate := by
  rw [h.receive_eq (by simp)]
  exact ⟨h.receives c.started, rfl, rfl, rfl, rfl, rfl, rfl, rfl, rfl,
    (List.append_nil _).symm, by simp [SecureCircuit.handleRecord]⟩

/-- With the stream open, data that fits the window is held and credit is added unclamped. -/
lemma Healthy.takes_plain (h : Healthy c) {r : OpenedRecord} (hr : Plain r)
    (hstarted : c.started = true) (hinitial : c.sendWindow.initial = STREAM_WINDOW_INITIAL)
    (hroom : c.receivedUngranted + (contentData r).length ≤ STREAM_WINDOW_INITIAL)
    (hclip : c.sendWindow.available + contentCredit r ≤ STREAM_WINDOW_INITIAL) :
    Takes c (c.receive { payload := .ok r }) r := by
  cases r with
  | keyUpdate => exact h.takes_keyUpdate
  | close => exact hr.elim
  | data plaintext =>
    rw [h.receive_eq (by simp)]
    rcases hr with ⟨data, hm⟩ | ⟨credit, hm⟩
    · have hdata : contentData (.data plaintext) = data := by simp [contentData, hm, messageData]
      have hcredit : contentCredit (.data plaintext) = 0 := by
        simp [contentCredit, hm, messageCredit]
      rw [hdata] at hroom
      simp only [SecureCircuit.handleRecord, hm, SecureCircuit.handleMessage,
        SecureCircuit.handleData, hstarted, h.peerFin, Bool.not_true, Bool.or_false,
        Bool.false_eq_true, if_false, not_lt.mpr hroom]
      exact ⟨⟨h.done, h.sentFin, rfl, h.sentClose, h.sends, h.failed, h.sessionClose,
        h.receivedClose, h.room⟩, rfl, rfl, rfl, rfl, rfl, rfl, by rw [hcredit]; rfl,
        by rw [hdata]; rfl, by rw [log_emit, dataIn_append, dataIn_onData, hdata]; rfl,
        by rw [hstarted]; rfl⟩
    · have hdata : contentData (.data plaintext) = [] := by simp [contentData, hm, messageData]
      have hcredit : contentCredit (.data plaintext) = credit := by
        simp [contentCredit, hm, messageCredit]
      rw [hcredit] at hclip
      have hle : credit ≤ MAX_WINDOW_CREDIT := by
        have : STREAM_WINDOW_INITIAL ≤ MAX_WINDOW_CREDIT := stream_window_le
        omega
      have hgrant : (c.sendWindow.grant ⟨credit, hle⟩).available = _ :=
        FlowWindow.grant_available (by rw [hinitial]; exact hclip)
      simp only [SecureCircuit.handleRecord, hm, SecureCircuit.handleMessage,
        SecureCircuit.handleWindow, hstarted, Bool.not_true, Bool.false_and, Bool.false_eq_true,
        if_false, hle, dif_pos]
      refine Takes.notifyWritable ⟨⟨h.done, h.sentFin, h.peerFin, h.sentClose, h.sends, h.failed,
        h.sessionClose, h.receivedClose, h.room⟩, rfl, rfl, rfl, rfl,
        FlowWindow.grant_initial _, rfl, by rw [hcredit]; exact hgrant, by rw [hdata]; rfl, ?_,
        by simp⟩
      rw [hdata, List.append_nil]
      rfl

lemma Healthy.takes_hello (h : Healthy c) {r : OpenedRecord} (hr : Hello c.role r)
    (hstarted : c.started = false) : Takes c (c.receive { payload := .ok r }) r := by
  obtain ⟨hdata, hcredit⟩ := hr.quiet
  obtain ⟨plaintext, rfl, hm⟩ := hr
  rw [h.receive_eq (by simp)]
  have htakes : ∀ hooks, Takes c { c with opened := c.opened + 1, started := true, hooks }
      (.data plaintext) := fun hooks => by
    refine ⟨⟨h.done, h.sentFin, h.peerFin, h.sentClose, h.sends, h.failed, h.sessionClose,
      h.receivedClose, h.room⟩, rfl, rfl, rfl, rfl, rfl, rfl, by rw [hcredit]; rfl,
      by rw [hdata]; rfl, ?_, by simp⟩
    rw [hdata, List.append_nil]
    rfl
  cases hrole : c.role with
  | service =>
    rw [hrole] at hm
    obtain ⟨port, hm⟩ := hm
    simp only [SecureCircuit.handleRecord, hm, SecureCircuit.handleMessage, hstarted,
      ne_eq, not_true, decide_false, Bool.not_false, Bool.not_true, Bool.or_false,
      Bool.false_eq_true, if_false]
    exact hrole ▸ htakes _
  | client =>
    rw [hrole] at hm
    simp only [SecureCircuit.handleRecord, hm, SecureCircuit.handleMessage, hstarted,
      ne_eq, not_true, decide_false, Bool.not_false, Bool.not_true, Bool.or_false,
      Bool.false_eq_true, if_false]
    exact hrole ▸ (htakes _).notifyWritable

/-! ### The pair -/

/-- A port that can be asked for. -/
abbrev Port := {port : ℕ // 1 ≤ port ∧ port ≤ 0xffff}

structure Flow where
  world : World
  /-- The bytes each owner said it consumed. -/
  eaten : Role → ℕ
  /-- Whether an owner never said it consumed more than it was given. -/
  honest : Role → Bool

inductive Move
  | accept
  | deliver (side : Role)
  | write (side : Role) (data : Bytes) (congested : List Bool)
  | consume (side : Role) (n : ℕ)
  | bind (side : Role)
  | poke (side : Role)

/-- A service is in the hands of its owner once it was accepted. -/
def owned (c : SecureCircuit) : Bool := c.role = .client || c.sentOpened

namespace Flow

variable (f : Flow)

def circuit (s : Role) : SecureCircuit := f.world.circuit s

/-- The records that end `s` sealed and the other end has not opened. -/
def inFlight (s : Role) : List Sealed := (f.circuit s).records.drop (f.circuit s.other).opened

/-- The bytes that came in at end `s`. -/
def received (s : Role) : ℕ := (dataIn (f.circuit s).log).length

def after (x : Step) : Flow := { f with world := step f.world x }

def move : Move → Flow
  | .accept => f.after ⟨.service, {}, .accept⟩
  | .deliver side => f.after ⟨side, {}, .deliver⟩
  | .write side data congested =>
    if owned (f.circuit side) then f.after ⟨side, { congested }, .write data⟩ else f
  | .consume side n =>
    if owned (f.circuit side) then
      { world := step f.world ⟨side, {}, .consumed n⟩
        eaten := Function.update f.eaten side (f.eaten side + n)
        honest := Function.update f.honest side
          (f.honest side && decide (f.eaten side + n ≤ f.received side)) }
    else f
  | .bind side => if owned (f.circuit side) then f.after ⟨side, {}, .bind⟩ else f
  | .poke side => if owned (f.circuit side) then f.after ⟨side, {}, .poke⟩ else f

/-- The client has asked for a port, and nothing else has happened. -/
def start (limits : Role → ResolvedLimits) (port : Port) : Flow where
  world := step (StreamIntegrity.start limits) ⟨.client, {}, .openPort port⟩
  eaten _ := 0
  honest _ := true

end Flow

/-- **What flow control keeps**, in either direction. -/
structure Conserved (f : Flow) : Prop where
  total : ∀ s, (f.circuit s).sendWindow.remaining + (recordData (f.inFlight s)).length +
    (f.circuit s.other).receivedUngranted + recordCredit (f.inFlight s.other) =
      STREAM_WINDOW_INITIAL
  /-- No circuit ended, so none for a violation. -/
  going : ∀ s, (f.circuit s).done = false
  /-- The credit on its way is granted in full. -/
  unclipped : ∀ s, ∀ x ∈ f.inFlight s.other, ∃ h : contentCredit x.content ≤ MAX_WINDOW_CREDIT,
    ((f.circuit s).sendWindow.grant ⟨_, h⟩).remaining =
      (f.circuit s).sendWindow.remaining + contentCredit x.content
  outstanding : ∀ s, (recordData (f.inFlight s)).length + (f.circuit s.other).receivedUngranted ≤
    STREAM_WINDOW_INITIAL
  /-- A sender with no window has credit on its way once all it sent has been consumed. -/
  progress : ∀ s, f.honest s.other = true → (f.circuit s).sendWindow.remaining = 0 →
    recordData (f.inFlight s) = [] → f.eaten s.other = f.received s.other →
    ∃ x ∈ f.inFlight s.other, ∃ plaintext credit, x.content = .data plaintext ∧
      decodeStreamMessage plaintext = .ok (.window credit) ∧ 0 < credit

/-! ### The invariant -/

/-- What is on its way from `c` to `peer`: nothing before the stream is open, and the message
that opens it before all else. -/
inductive Ahead (c peer : SecureCircuit) : Prop
  | silent (unowned : owned c = false) (none : c.records = []) (unstarted : peer.started = false)
  | hello (isOwned : owned c = true) (unstarted : peer.started = false) (updates : List Sealed)
      (x : Sealed) (rest : List Sealed)
      (split : c.records.drop peer.opened = updates ++ x :: rest)
      (isUpdate : ∀ y ∈ updates, y.content = .keyUpdate) (isHello : Hello peer.role x.content)
      (plain : ∀ y ∈ rest, Plain y.content)
  | plain (isOwned : owned c = true) (isStarted : peer.started = true)
      (plain : ∀ y ∈ c.records.drop peer.opened, Plain y.content)

/-- The direction from `c` to `peer`. -/
structure Joined (c peer : SecureCircuit) : Prop where
  le : peer.opened ≤ c.records.length
  handed : ∀ x ∈ c.records, x.handed = true
  total : c.sendWindow.available + (recordData (c.records.drop peer.opened)).length +
    peer.receivedUngranted + recordCredit (peer.records.drop c.opened) = STREAM_WINDOW_INITIAL
  ahead : Ahead c peer

variable {peer peer' : SecureCircuit}

/-- The sender's owner has a turn. -/
lemma Joined.sends (h : Joined c peer) (ht : PlainTurn c c' added)
    (ho : added ≠ [] → owned c = true) : Joined c' peer := by
  have ho' : owned c' = owned c := by rw [owned, ht.role, ht.sentOpened, owned]
  have hdrop : c'.records.drop peer.opened = c.records.drop peer.opened ++ added := by
    rw [ht.records, List.drop_append_of_le_length h.le]
  refine ⟨?_, ?_, ?_, ?_⟩
  · rw [ht.records, List.length_append]
    exact h.le.trans (Nat.le_add_right _ _)
  · rw [ht.records]
    exact fun x hx => (List.mem_append.mp hx).elim (h.handed x) (ht.handed x)
  · have hused := ht.used
    have htotal := h.total
    rw [hdrop, recordData_append, List.length_append, ht.opened]
    omega
  · cases h.ahead with
    | silent hno hnone hstarted =>
      have hquiet : added = [] := by
        by_contra hne
        simp [ho hne] at hno
      exact .silent (ho'.trans hno) (by rw [ht.records, hnone, hquiet, List.nil_append]) hstarted
    | hello hown hstarted updates x rest hsplit hupdates hx hrest =>
      refine .hello (ho'.trans hown) hstarted updates x (rest ++ added) ?_ hupdates hx ?_
      · rw [hdrop, hsplit, List.append_assoc, List.cons_append]
      · exact fun y hy => (List.mem_append.mp hy).elim (hrest y) (ht.plain y)
    | plain hown hstarted hplain =>
      refine .plain (ho'.trans hown) hstarted ?_
      rw [hdrop]
      exact fun y hy => (List.mem_append.mp hy).elim (hplain y) (ht.plain y)

/-- The receiver's owner has a turn: what it grants is on its way back. -/
lemma Joined.grants (h : Joined c peer) (hle : c.opened ≤ peer.records.length)
    (ht : Turn peer peer' added) : Joined c peer' := by
  refine ⟨by rw [ht.opened]; exact h.le, h.handed, ?_, ?_⟩
  · have hgranted := ht.granted
    have htotal := h.total
    rw [ht.opened, ht.records, List.drop_append_of_le_length hle, recordCredit_append]
    omega
  · cases h.ahead with
    | silent hno hnone hstarted => exact .silent hno hnone (ht.started.trans hstarted)
    | hello hown hstarted updates x rest hsplit hupdates hx hrest =>
      exact .hello hown (ht.started.trans hstarted) updates x rest (by rw [ht.opened, hsplit])
        hupdates (by rwa [ht.role]) hrest
    | plain hown hstarted hplain =>
      exact .plain hown (ht.started.trans hstarted) (by rwa [ht.opened])

/-- The message that opens the stream at `peer` goes ahead of all else. -/
lemma Joined.opens (h : Joined c peer) (ht : Turn c c' added) (hno : owned c = false)
    (ho : owned c' = true) {plaintext : Bytes} (hadded : MessageRecords plaintext added)
    (hhello : Hello peer.role (.data plaintext)) (hquiet : recordData added = []) :
    Joined c' peer := by
  obtain ⟨updates, hupdates, hsplit⟩ := hadded
  cases h.ahead with
  | hello hown => simp [hno] at hown
  | plain hown => simp [hno] at hown
  | silent _ hnone hstarted =>
    have hopened : peer.opened = 0 := by simpa [hnone] using h.le
    have hrecords : c'.records = added := by rw [ht.records, hnone, List.nil_append]
    refine ⟨by rw [hopened]; exact Nat.zero_le _, ?_, ?_, ?_⟩
    · rw [hrecords]
      exact ht.handed
    · have hused := ht.used
      have htotal := h.total
      rw [hquiet, List.length_nil] at hused
      rw [hnone, List.drop_nil, recordData_nil, List.length_nil] at htotal
      rw [hopened, List.drop_zero, hrecords, hquiet, List.length_nil, ht.opened]
      omega
    · refine .hello ho hstarted updates ⟨.data plaintext, true⟩ [] ?_ hupdates hhello (by simp)
      rw [hopened, List.drop_zero, hrecords, hsplit]

lemma drop_next {l : List Sealed} {n : ℕ} {x : Sealed} (h : l[n]? = some x) :
    l.drop n = x :: l.drop (n + 1) := by
  obtain ⟨hlt, rfl⟩ := List.getElem?_eq_some_iff.mp h
  exact List.drop_eq_getElem_cons hlt

/-- The receiver opens the next record: its data is now held. -/
lemma Joined.delivers (h : Joined c peer) {x : Sealed} (hx : c.records[peer.opened]? = some x)
    (ht : Takes peer peer' x.content) : Joined c peer' := by
  have hdrop := drop_next hx
  have hlt : peer.opened < c.records.length := (List.getElem?_eq_some_iff.mp hx).1
  refine ⟨by rw [ht.opened]; omega, h.handed, ?_, ?_⟩
  · have hreceived := ht.received
    have htotal := h.total
    rw [hdrop, recordData_cons, List.length_append] at htotal
    rw [ht.opened, ht.records]
    omega
  · cases h.ahead with
    | silent _ hnone => simp [hnone] at hx
    | plain hown hstarted hplain =>
      rw [hdrop] at hplain
      refine .plain hown ?_ (by rw [ht.opened]; exact fun y hy => hplain y (.tail _ hy))
      rw [ht.started, hstarted, Bool.true_or]
    | hello hown hstarted updates y rest hsplit hupdates hy hrest =>
      rw [hdrop] at hsplit
      cases updates with
      | nil =>
        -- it is the message that opens the stream
        obtain ⟨rfl, hrest'⟩ := List.cons.inj hsplit
        refine .plain hown ?_ (by rw [ht.opened, hrest']; exact hrest)
        obtain ⟨plaintext, hdata, -⟩ := hy
        simp [ht.started, hdata]
      | cons u updates =>
        obtain ⟨rfl, hrest'⟩ := List.cons.inj hsplit
        have hupdate := hupdates x List.mem_cons_self
        exact .hello hown (by simp [ht.started, hstarted, hupdate]) updates y rest
          (by rw [ht.opened]; exact hrest') (fun z hz => hupdates z (.tail _ hz))
          (by rwa [ht.role]) hrest

/-- The sender opens the next record: the credit it grants is added to its window. -/
lemma Joined.credited (h : Joined c peer) {x : Sealed} (hx : peer.records[c.opened]? = some x)
    (ht : Takes c c' x.content) : Joined c' peer := by
  have ho : owned c' = owned c := by rw [owned, ht.role, ht.sentOpened, owned]
  refine ⟨by rw [ht.records]; exact h.le, by rw [ht.records]; exact h.handed, ?_, ?_⟩
  · have hwindow := ht.window
    have htotal := h.total
    rw [drop_next hx, recordCredit_cons] at htotal
    rw [ht.records, ht.opened]
    omega
  · cases h.ahead with
    | silent hno hnone hstarted => exact .silent (ho.trans hno) (ht.records.trans hnone) hstarted
    | hello hown hstarted updates y rest hsplit hupdates hy hrest =>
      exact .hello (ho.trans hown) hstarted updates y rest (by rw [ht.records, hsplit]) hupdates
        hy hrest
    | plain hown hstarted hplain =>
      exact .plain (ho.trans hown) hstarted (by rwa [ht.records])

/-- What one end keeps to itself. -/
structure Own (r : Role) (eaten : ℕ) (honest : Bool) (c : SecureCircuit) : Prop where
  healthy : Healthy c
  role : c.role = r
  initial : c.sendWindow.initial = STREAM_WINDOW_INITIAL
  few : c.consumedUngranted < GRANT_THRESHOLD
  /-- What came in was granted, or is still held; what was consumed was granted, or will be. -/
  account : honest = true →
    (dataIn c.log).length + c.consumedUngranted = eaten + c.receivedUngranted
  le : honest = true → eaten ≤ (dataIn c.log).length

structure Inv (f : Flow) : Prop where
  own : ∀ s, Own s (f.eaten s) (f.honest s) (f.circuit s)
  joined : ∀ s, Joined (f.circuit s) (f.circuit s.other)

variable {r : Role} {eaten : ℕ} {honest : Bool}

lemma Own.turn (h : Own r eaten honest c) (ht : Turn c c' added) (hsame : SameAccount c c') :
    Own r eaten honest c' := by
  refine ⟨ht.healthy, ht.role.trans h.role, ht.initial.trans h.initial, hsame.2 ▸ h.few,
    fun hh => ?_, by rw [ht.data]; exact h.le⟩
  rw [ht.data, hsame.1, hsame.2, h.account hh]

lemma Own.takes (h : Own r eaten honest c) {content : OpenedRecord} (ht : Takes c c' content) :
    Own r eaten honest c' := by
  refine ⟨ht.healthy, ht.role.trans h.role, ht.initial.trans h.initial, ht.consumed ▸ h.few,
    fun hh => ?_, fun hh => ?_⟩
  · have := h.account hh
    rw [ht.data, ht.consumed, ht.received, List.length_append]
    omega
  · rw [ht.data, List.length_append]
    exact (h.le hh).trans (Nat.le_add_right _ _)

lemma Own.consumed (h : Own r eaten honest c) (n : ℕ)
    (hle : c.receivedUngranted ≤ MAX_WINDOW_CREDIT) : ∃ added, PlainTurn c (c.consumed n) added ∧
      Own r (eaten + n) (honest && decide (eaten + n ≤ (dataIn c.log).length)) (c.consumed n) := by
  obtain ⟨added, ht, hfew, hkept⟩ := h.healthy.consumed n hle
  have hgranted := ht.granted
  refine ⟨added, ht, ht.healthy, ht.role.trans h.role, ht.initial.trans h.initial, hfew,
    fun hh => ?_, fun hh => ?_⟩
  · obtain ⟨hh, hroom⟩ : honest = true ∧ eaten + n ≤ (dataIn c.log).length := by simpa using hh
    have := h.account hh
    have := hkept (by omega)
    rw [ht.data]
    omega
  · rw [ht.data]
    exact (by simpa using hh : honest = true ∧ eaten + n ≤ (dataIn c.log).length).2

/-- One end changes: its own invariant, and both directions. -/
lemma inv_put {f f' : Flow} (hf : Inv f) (s : Role)
    (hcircuit : ∀ t, t ≠ s → f'.circuit t = f.circuit t)
    (heaten : ∀ t, t ≠ s → f'.eaten t = f.eaten t ∧ f'.honest t = f.honest t)
    (hown : Own s (f'.eaten s) (f'.honest s) (f'.circuit s))
    (hsends : Joined (f'.circuit s) (f.circuit s.other))
    (hreceives : Joined (f.circuit s.other) (f'.circuit s)) : Inv f' := by
  have hother : f'.circuit s.other = f.circuit s.other := hcircuit _ s.other_ne
  refine ⟨fun t => ?_, fun t => ?_⟩
  · rcases eq_or_ne t s with rfl | hne
    · exact hown
    · rw [hcircuit t hne, (heaten t hne).1, (heaten t hne).2]
      exact hf.own t
  · rcases eq_or_ne t s with rfl | hne
    · rwa [hother]
    · obtain rfl : t = s.other := by cases t <;> cases s <;> simp_all [Role.other]
      rwa [hother, Role.other_other]

lemma circuit_after_ne (f : Flow) (x : Step) {t : Role} (hne : t ≠ x.side) :
    (f.after x).circuit t = f.circuit t := by
  obtain ⟨c', gain, reset, hstep, -⟩ := step_cases f.world x
  simp [Flow.circuit, Flow.after, hstep, hne]

/-- The owner of one end has a turn. -/
lemma inv_turn {f f' : Flow} (hf : Inv f) (s : Role)
    (hcircuit : ∀ t, t ≠ s → f'.circuit t = f.circuit t)
    (heaten : ∀ t, t ≠ s → f'.eaten t = f.eaten t ∧ f'.honest t = f.honest t)
    (hown : Own s (f'.eaten s) (f'.honest s) (f'.circuit s))
    (ht : PlainTurn (f.circuit s) (f'.circuit s) added)
    (ho : added ≠ [] → owned (f.circuit s) = true) : Inv f' := by
  have hback := hf.joined s.other
  rw [Role.other_other] at hback
  exact inv_put hf s hcircuit heaten hown ((hf.joined s).sends ht ho)
    (hback.grants (hf.joined s).le ht.toTurn)

/-- A turn that grants nothing, whatever the connection answers during it. -/
lemma inv_after {f : Flow} (hf : Inv f) (x : Step)
    (ho : added ≠ [] → owned (f.circuit x.side) = true)
    (ht : PlainTurn (f.circuit x.side) ((f.after x).circuit x.side) added)
    (hsame : SameAccount (f.circuit x.side) ((f.after x).circuit x.side)) : Inv (f.after x) :=
  inv_turn hf x.side (fun _ hne => circuit_after_ne f x hne) (fun _ _ => ⟨rfl, rfl⟩)
    ((hf.own x.side).turn ht.toTurn hsame) ht ho

lemma inv_write {f : Flow} (hf : Inv f) (s : Role) (data : Bytes) (congested : List Bool)
    (ho : owned (f.circuit s) = true) : Inv (f.after ⟨s, { congested }, .write data⟩) := by
  have hlink := (hf.own s).healthy.congested congested
  obtain ⟨added, ht, hsame⟩ := hlink.healthy.write data
  have hcircuit : (f.after ⟨s, { congested }, .write data⟩).circuit s =
      ({ f.circuit s with link := { congested } }.write data).1 := by
    simp [Flow.after, Flow.circuit, step]
  rw [← hcircuit] at ht hsame
  exact inv_after hf ⟨s, { congested }, .write data⟩ (fun _ => ho) (hlink.trans ht) hsame

lemma inv_bind {f : Flow} (hf : Inv f) (s : Role) (ho : owned (f.circuit s) = true) :
    Inv (f.after ⟨s, {}, .bind⟩) := by
  have hlink := (hf.own s).healthy.congested []
  have ht := hlink.healthy.bind
  have hcircuit : (f.after ⟨s, {}, .bind⟩).circuit s = { f.circuit s with link := {} }.bind := by
    simp [Flow.after, Flow.circuit, step]
  have hsame : SameAccount (f.circuit s) ((f.after ⟨s, {}, .bind⟩).circuit s) := by
    rw [hcircuit, SecureCircuit.bind, SecureCircuit.notifyWritable]
    dsimp only
    split <;> exact ⟨rfl, rfl⟩
  rw [← hcircuit] at ht
  exact inv_after hf ⟨s, {}, .bind⟩ (fun _ => ho) (hlink.trans ht) hsame

lemma inv_poke {f : Flow} (hf : Inv f) (s : Role) (ho : owned (f.circuit s) = true) :
    Inv (f.after ⟨s, {}, .poke⟩) := by
  have hlink := (hf.own s).healthy.congested []
  have ht := hlink.healthy.poke
  have hcircuit : (f.after ⟨s, {}, .poke⟩).circuit s = { f.circuit s with link := {} }.poke := by
    simp [Flow.after, Flow.circuit, step]
  have hsame : SameAccount (f.circuit s) ((f.after ⟨s, {}, .poke⟩).circuit s) := by
    rw [hcircuit, SecureCircuit.poke, SecureCircuit.notifyWritable]
    split
    · exact ⟨rfl, rfl⟩
    · dsimp only
      split <;> exact ⟨rfl, rfl⟩
  rw [← hcircuit] at ht
  exact inv_after hf ⟨s, {}, .poke⟩ (fun _ => ho) (hlink.trans ht) hsame

lemma inv_consume {f : Flow} (hf : Inv f) (s : Role) (n : ℕ) (ho : owned (f.circuit s) = true) :
    Inv (f.move (.consume s n)) := by
  have hlink := (hf.own s).healthy.congested []
  have hown : Own s (f.eaten s) (f.honest s) { f.circuit s with link := {} } :=
    (hf.own s).turn hlink.toTurn ⟨rfl, rfl⟩
  have htotal := (hf.joined s.other).total
  rw [Role.other_other] at htotal
  obtain ⟨added, ht, hown'⟩ := hown.consumed n (by
    have : STREAM_WINDOW_INITIAL ≤ MAX_WINDOW_CREDIT := by decide
    simp only
    omega)
  have hmove : f.move (.consume s n) =
      ⟨step f.world ⟨s, {}, .consumed n⟩, Function.update f.eaten s (f.eaten s + n),
        Function.update f.honest s (f.honest s && decide (f.eaten s + n ≤ f.received s))⟩ :=
    if_pos ho
  have hcircuit : (f.move (.consume s n)).circuit s =
      { f.circuit s with link := {} }.consumed n := by
    rw [hmove]
    simp [Flow.circuit, step]
  rw [← hcircuit] at ht hown'
  refine inv_turn hf s (fun t hne => ?_) (fun t hne => ?_) ?_ (hlink.trans ht) (fun _ => ho)
  · rw [hmove]
    exact circuit_after_ne f ⟨s, {}, .consumed n⟩ hne
  · rw [hmove]
    exact ⟨Function.update_of_ne hne _ _, Function.update_of_ne hne _ _⟩
  · rw [hmove] at hown' ⊢
    simp only [Function.update_self]
    exact hown'

lemma inv_accept {f : Flow} (hf : Inv f) : Inv (f.after ⟨.service, {}, .accept⟩) := by
  have hown := hf.own .service
  have hlink := hown.healthy.congested []
  have hback : Joined (f.circuit .client) (f.circuit .service) := hf.joined .client
  by_cases hbound : (f.circuit .service).isBound = true
  · have hsame : f.after ⟨.service, {}, .accept⟩ = f := by
      have : isBound { f.world.circuit .service with link := {} } = true := hbound
      simp [Flow.after, step, this]
    rwa [hsame]
  have hcircuit : (f.after ⟨.service, {}, .accept⟩).circuit .service =
      { f.circuit .service with link := {} }.accept := by
    have : ¬ isBound { f.world.circuit .service with link := {} } = true := hbound
    simp [Flow.after, Flow.circuit, step, this]
  by_cases hopened : (f.circuit .service).sentOpened = true
  · -- it was accepted before
    have hnone : { f.circuit .service with link := {} }.accept =
        { f.circuit .service with link := {} } := by
      rw [SecureCircuit.accept, if_pos (by simp [hopened])]
    refine inv_after hf ⟨.service, {}, .accept⟩ (fun h => absurd rfl h) ?_ ?_
    all_goals rw [hcircuit, hnone]
    · exact hlink
    · exact ⟨rfl, rfl⟩
  obtain ⟨c', added, heq, ht, hadded, hsent, hsame⟩ := hlink.healthy.hello (m := .opened) rfl
    (by decide) rfl rfl true
  have hnotify := ht.healthy.notifyWritable
  have haccept : { f.circuit .service with link := {} }.accept = c'.notifyWritable := by
    rw [SecureCircuit.accept, if_neg (by simp [hown.role, hopened])]
    exact congrArg (fun x => x.2.notifyWritable) heq
  have hturn := (hlink.toTurn.trans ht).trans hnotify.toTurn
  rw [List.nil_append, List.append_nil, ← haccept, ← hcircuit] at hturn
  have hsame' : SameAccount (f.circuit .service)
      ((f.after ⟨.service, {}, .accept⟩).circuit .service) := by
    rw [hcircuit, haccept, SecureCircuit.notifyWritable]
    split <;> exact hsame
  have hno : owned (f.circuit .service) = false := by simp [owned, hown.role, hopened]
  have hyes : owned ((f.after ⟨.service, {}, .accept⟩).circuit .service) = true := by
    rw [hcircuit, haccept, owned, hnotify.sentOpened, hsent, Bool.or_true]
  refine inv_put hf .service (fun _ hne => circuit_after_ne f ⟨.service, {}, .accept⟩ hne)
    (fun _ _ => ⟨rfl, rfl⟩) (hown.turn hturn hsame') ?_ (hback.grants (hf.joined .service).le hturn)
  refine (hf.joined .service).opens hturn hno hyes hadded ⟨_, rfl, ?_⟩
    (hadded.carry (m := .opened) rfl).1
  rw [show (f.circuit Role.service.other).role = .client from (hf.own .client).role]
  rfl

/-- Whatever is on its way, the other end can take it. -/
lemma Ahead.takes (h : Ahead c peer) (hown : Healthy peer) {x : Sealed}
    (hx : c.records[peer.opened]? = some x)
    (hinitial : peer.sendWindow.initial = STREAM_WINDOW_INITIAL)
    (hroom : peer.receivedUngranted + (contentData x.content).length ≤ STREAM_WINDOW_INITIAL)
    (hclip : peer.sendWindow.available + contentCredit x.content ≤ STREAM_WINDOW_INITIAL) :
    Takes peer (peer.receive { payload := .ok x.content }) x.content := by
  have hdrop := drop_next hx
  cases h with
  | silent _ hnone => simp [hnone] at hx
  | plain _ hstarted hplain =>
    exact hown.takes_plain (hplain x (by rw [hdrop]; exact List.mem_cons_self)) hstarted hinitial
      hroom hclip
  | hello _ hstarted updates y rest hsplit hupdates hy hrest =>
    rw [hdrop] at hsplit
    cases updates with
    | nil =>
      obtain ⟨rfl, -⟩ := List.cons.inj hsplit
      exact hown.takes_hello hy hstarted
    | cons u updates =>
      obtain ⟨rfl, -⟩ := List.cons.inj hsplit
      rw [hupdates x List.mem_cons_self]
      exact hown.takes_keyUpdate

lemma inv_deliver {f : Flow} (hf : Inv f) (s : Role) : Inv (f.after ⟨s, {}, .deliver⟩) := by
  have hown := hf.own s
  have hlink := hown.healthy.congested []
  have hback := hf.joined s.other
  rw [Role.other_other] at hback
  have hcircuit : (f.after ⟨s, {}, .deliver⟩).circuit s =
      deliver { f.circuit s with link := {} } (f.circuit s.other) := by
    simp [Flow.after, Flow.circuit, step]
  cases hx : (f.circuit s.other).records[(f.circuit s).opened]? with
  | none =>
    have hnone : deliver { f.circuit s with link := {} } (f.circuit s.other) =
        { f.circuit s with link := {} } := by
      simp [deliver, hx]
    refine inv_after hf ⟨s, {}, .deliver⟩ (fun h => absurd rfl h) ?_ ?_
    all_goals rw [hcircuit, hnone]
    · exact hlink
    · exact ⟨rfl, rfl⟩
  | some x =>
    have hhanded := hback.handed x (List.mem_of_getElem? hx)
    have htake : deliver { f.circuit s with link := {} } (f.circuit s.other) =
        { f.circuit s with link := {} }.receive { payload := .ok x.content } := by
      obtain ⟨content, handed⟩ := x
      obtain rfl : handed = true := hhanded
      simp [deliver, hx]
    have hroom := hback.total
    have hclip := (hf.joined s).total
    rw [drop_next hx, recordData_cons, List.length_append] at hroom
    rw [drop_next hx, recordCredit_cons] at hclip
    have hforth := (hf.joined s).sends hlink (fun h => absurd rfl h)
    have hback' := hback.grants (hf.joined s).le hlink.toTurn
    have ht := hback'.ahead.takes hlink.healthy hx hown.initial (by simp only; omega)
      (by simp only; omega)
    rw [← htake, ← hcircuit] at ht
    exact inv_put hf s (fun _ hne => circuit_after_ne f ⟨s, {}, .deliver⟩ hne)
      (fun _ _ => ⟨rfl, rfl⟩) ((hown.turn hlink.toTurn ⟨rfl, rfl⟩).takes ht)
      (hforth.credited hx ht) (hback'.delivers hx ht)

lemma inv_move (f : Flow) (m : Move) (hf : Inv f) : Inv (f.move m) := by
  cases m with
  | accept => exact inv_accept hf
  | deliver side => exact inv_deliver hf side
  | write side data congested =>
    change Inv (if owned (f.circuit side) then _ else f)
    split
    · next ho => exact inv_write hf side data congested ho
    · exact hf
  | consume side n =>
    by_cases ho : owned (f.circuit side) = true
    · exact inv_consume hf side n ho
    · rwa [show f.move (.consume side n) = f from if_neg ho]
  | bind side =>
    change Inv (if owned (f.circuit side) then _ else f)
    split
    · next ho => exact inv_bind hf side ho
    · exact hf
  | poke side =>
    change Inv (if owned (f.circuit side) then _ else f)
    split
    · next ho => exact inv_poke hf side ho
    · exact hf

lemma healthy_fresh (r : Role) (limits : ResolvedLimits) :
    Healthy { role := r, session := { limits } } :=
  ⟨rfl, rfl, rfl, rfl, rfl, rfl, rfl, rfl, by have := limits.two_le; simp only; omega⟩

lemma inv_start (limits : Role → ResolvedLimits) (port : Port) :
    Inv (Flow.start limits port) := by
  obtain ⟨port, hport⟩ := port
  have hm : encodeStreamMessage (.opening port) = .ok (StreamMessageType.OPEN :: be 2 port) := by
    simp only [encodeStreamMessage]
    rw [if_neg (by omega)]
  obtain ⟨c', added, heq, ht, hadded, -, hsame⟩ :=
    (healthy_fresh .client (limits .client)).hello hm (by simp; decide) rfl rfl false
  have hclient : (Flow.start limits ⟨port, hport⟩).circuit .client = c' := by
    have : (Flow.start limits ⟨port, hport⟩).circuit .client =
        (SecureCircuit.sendMessage { role := .client, session := { limits := limits .client } }
          (.opening port)).2 := rfl
    rw [this]
    exact congrArg Prod.snd heq
  have hservice : (Flow.start limits ⟨port, hport⟩).circuit .service =
      { role := .service, session := { limits := limits .service } } := rfl
  obtain ⟨hdata, hcredit⟩ := hadded.carry hm
  have hused := ht.used
  have hopened : c'.opened = 0 := ht.opened
  have hrecords : c'.records = added := ht.records
  have hreceived : c'.receivedUngranted = 0 := hsame.1
  rw [hdata] at hused
  have hown : ∀ s, Own s 0 true { role := s, session := { limits := limits s } } := fun s =>
    ⟨healthy_fresh s _, rfl, rfl, (by decide : 0 < GRANT_THRESHOLD), fun _ => rfl, fun _ => le_rfl⟩
  refine ⟨fun s => ?_, fun s => ?_⟩
  · cases s with
    | service => exact hservice ▸ hown .service
    | client =>
      rw [hclient]
      exact (hown .client).turn ht hsame
  · cases s with
    | service =>
      change Joined ((Flow.start limits ⟨port, hport⟩).circuit .service)
        ((Flow.start limits ⟨port, hport⟩).circuit .client)
      rw [hclient, hservice]
      refine ⟨by rw [hopened]; exact le_rfl, by simp, ?_,
        .silent rfl rfl ht.started⟩
      change STREAM_WINDOW_INITIAL + (recordData (List.drop c'.opened [])).length +
        c'.receivedUngranted + recordCredit c'.records = STREAM_WINDOW_INITIAL
      rw [List.drop_nil, hreceived, hrecords, hcredit]
      rfl
    | client =>
      change Joined ((Flow.start limits ⟨port, hport⟩).circuit .client)
        ((Flow.start limits ⟨port, hport⟩).circuit .service)
      rw [hclient, hservice]
      obtain ⟨updates, hupdates, hsplit⟩ := hadded
      refine ⟨Nat.zero_le _, hrecords ▸ ht.handed, ?_, ?_⟩
      · rw [hrecords, List.drop_zero, hdata, List.drop_nil]
        exact hused
      · refine .hello (by rw [owned, ht.role]; rfl) rfl updates
          ⟨.data (StreamMessageType.OPEN :: be 2 port), true⟩ [] ?_ hupdates
          ⟨_, rfl, port, decodeStreamMessage_encodeStreamMessage hm⟩ (by simp)
        rw [hrecords, hsplit]
        rfl

/-! ### Conservation -/

lemma Inv.conserved {f : Flow} (hf : Inv f) : Conserved f := by
  have htotal : ∀ s, (f.circuit s).sendWindow.remaining + (recordData (f.inFlight s)).length +
      (f.circuit s.other).receivedUngranted + recordCredit (f.inFlight s.other) =
        STREAM_WINDOW_INITIAL := fun s => by
    rw [Flow.inFlight, Flow.inFlight, Role.other_other]
    exact (hf.joined s).total
  refine ⟨htotal, fun s => (hf.own s).healthy.done, fun s => ?_, fun s => ?_,
    fun s hhonest hwindow hnone hall => ?_⟩
  · intro x hx
    have hle := contentCredit_le hx
    have hmax : STREAM_WINDOW_INITIAL ≤ MAX_WINDOW_CREDIT := by decide
    have := htotal s
    refine ⟨by omega, FlowWindow.grant_available ?_⟩
    rw [(hf.own s).initial]
    have hremaining : (f.circuit s).sendWindow.remaining = (f.circuit s).sendWindow.available := rfl
    simp only
    omega
  · have := htotal s
    omega
  · -- what is held was consumed, and less than the threshold of it is not yet granted
    have hheld := (hf.own s.other).account hhonest
    have hfew := (hf.own s.other).few
    have hall' : f.eaten s.other = (dataIn (f.circuit s.other).log).length := hall
    refine recordCredit_pos ?_
    have := htotal s
    rw [hwindow, hnone, List.length_nil] at this
    have hlt : GRANT_THRESHOLD < STREAM_WINDOW_INITIAL := by decide
    omega

/-- **Flow control conserves credit**: it holds in every state that the calls of the two owners
and the deliveries reach, in any order. -/
theorem flow_conservation (limits : Role → ResolvedLimits) (port : Port) (moves : List Move) :
    Conserved (run Flow.move (Flow.start limits port) moves) :=
  (invariant inv_move (inv_start limits port) moves).conserved

end Tnp.Client.FlowConservation
