import Tnp.Client.Circuit

/-!
What a call of a circuit makes the circuit call back, and when a `write` ends it.

Only `onWritable` lets the callee call the circuit again, and it is the last thing that a call does.
-/

namespace Tnp.Client.CircuitCalls

open Tnp.Lib Tnp.Protocol Tnp.Protocol.Session Tnp.Protocol.SessionChannel
open Tnp.Client.Circuit Tnp.Client.Circuit.SecureCircuit

variable {c c' c'' : SecureCircuit}

/-! ### A session that seals -/

/-- Until the circuit is done, or has sealed its CLOSE, its session seals what it is given. -/
def Live (c : SecureCircuit) : Prop :=
  c.done = false → c.session.failed = none ∧
    (c.sentClose = false →
      c.session.sentClose = false ∧ c.session.sendCounter ≤ c.session.limits.keyUpdateInterval)

/-- The key update that `sendMessage` sends first where one is due. -/
def updateDue (c : SecureCircuit) : SecureCircuit :=
  if c.session.needsKeyUpdate then
    ({ c with session := { c.session with sendCounter := 0 } }.sendRecord .keyUpdate).2
  else c

/-- One record more under the key. -/
def counted (c : SecureCircuit) : SecureCircuit :=
  { c with session := { c.session with sendCounter := c.session.sendCounter + 1 } }

lemma sendRecord_session (c : SecureCircuit) (r : OpenedRecord) :
    (c.sendRecord r).2.session = c.session := by
  unfold sendRecord linkSend
  dsimp only
  cases c.link.sends.headD true with
  | true => rfl
  | false => exact finish_session _ _ _ _

lemma updateDue_room (h : Live c) (hd : c.done = false) (hs : c.sentClose = false) :
    (updateDue c).session.failed = none ∧ (updateDue c).session.sentClose = false ∧
      (updateDue c).session.sendCounter < (updateDue c).session.limits.keyUpdateInterval ∧
      (updateDue c).session.limits = c.session.limits := by
  obtain ⟨hfailed, hsealable⟩ := h hd
  obtain ⟨hclose, hcounter⟩ := hsealable hs
  unfold updateDue Channel.needsKeyUpdate
  have hone := c.session.limits.one_le
  split
  · simp only [sendRecord_session]
    exact ⟨hfailed, hclose, by omega, trivial⟩
  · next hdue =>
    simp only [decide_eq_true_eq, not_le] at hdue
    exact ⟨hfailed, hclose, hdue, rfl⟩

/-- The update goes through. -/
lemma updateDue_eq (h : Live c) (hd : c.done = false) (hs : c.sentClose = false) :
    ∃ ok, (if c.session.needsKeyUpdate then c.sealRecord .keyUpdate else (c, .ok true)) =
      (updateDue c, .ok ok) := by
  unfold updateDue
  split
  · obtain ⟨hf, hsealable⟩ := h hd
    obtain ⟨hc, hn⟩ := hsealable hs
    have hceiling := c.session.limits.le_ceiling
    have htwo := c.session.limits.two_le
    have hcan := Channel.assertCanSend_eq_ok_iff.mpr
      ⟨hf, hc, show c.session.sendCounter < _ by omega⟩
    refine ⟨({ c with session := { c.session with sendCounter := 0 } }.sendRecord .keyUpdate).1, ?_⟩
    simp [sealRecord, Channel.send, hcan, Bind.bind, Except.bind]
  · exact ⟨true, rfl⟩

/-- **A live circuit seals its message**, after the key update that is due, and neither throws. -/
theorem Live.sendMessage_eq (h : Live c) (hd : c.done = false) (hs : c.sentClose = false)
    {m : StreamMessage} {plaintext : Bytes} (hm : encodeStreamMessage m = .ok plaintext) :
    c.sendMessage m = (counted (updateDue c)).sendRecord (.data plaintext) := by
  obtain ⟨hfailed, hclose, hcounter, -⟩ := updateDue_room h hd hs
  have hceiling := (updateDue c).session.limits.le_ceiling
  have hroom : (updateDue c).session.sendCounter <
      (updateDue c).session.limits.maxRecordsPerKey - 1 := by omega
  have hseal : (updateDue c).session.send (.data plaintext) =
      .ok (counted (updateDue c)).session := by
    have hcan := Channel.assertCanSend_eq_ok_iff.mpr
      ⟨hfailed, hclose, show (updateDue c).session.sendCounter < _ by omega⟩
    simp [Channel.send, hcan, not_lt.mpr (encode_length hm), not_le.mpr hroom, counted, Bind.bind,
      Except.bind]
  have hmessage : (updateDue c).sealWithRekey m =
      (((counted (updateDue c)).sendRecord (.data plaintext)).2,
        .ok ((counted (updateDue c)).sendRecord (.data plaintext)).1) := by
    simp only [sealWithRekey, sealMessage, hm, sealRecord, hseal]
    rfl
  obtain ⟨ok, hupdate⟩ := updateDue_eq h hd hs
  unfold sendMessage trySend
  rw [if_neg (by simp [hd, hs]), hupdate]
  dsimp only
  rw [hmessage]

/-- A message that does not encode ends the circuit. -/
lemma Live.sendMessage_error (h : Live c) (hd : c.done = false) (hs : c.sentClose = false)
    {m : StreamMessage} {e : RangeError} (hm : encodeStreamMessage m = .error e) :
    (c.sendMessage m).2.done = true := by
  obtain ⟨ok, hupdate⟩ := updateDue_eq h hd hs
  unfold sendMessage trySend
  rw [if_neg (by simp [hd, hs]), hupdate]
  simp only [sealWithRekey, sealMessage, hm]
  exact finish_done _ _ _ _

lemma Live.sendMessage (h : Live c) (m : StreamMessage) : Live (c.sendMessage m).2 := by
  intro hlive
  obtain ⟨hd, -⟩ := (sendMessage_spec c m).1.alive hlive
  cases hs : c.sentClose with
  | true =>
    have hsame : (c.sendMessage m).2 = c := by
      unfold SecureCircuit.sendMessage
      rw [if_pos (by simp [hs])]
    rw [hsame]
    exact h hd
  | false =>
    cases hm : encodeStreamMessage m with
    | error e =>
      rw [h.sendMessage_error hd hs hm] at hlive
      exact absurd hlive (by decide)
    | ok plaintext =>
      obtain ⟨hfailed, hclose, hcounter, -⟩ := updateDue_room h hd hs
      rw [h.sendMessage_eq hd hs hm, sendRecord_session]
      exact ⟨hfailed, fun _ => ⟨hclose, hcounter⟩⟩

lemma Live.sendSessionClose (h : Live c) : Live c.sendSessionClose := by
  intro hlive
  obtain ⟨hd, -⟩ := (sendSessionClose_spec c).1.alive hlive
  unfold SecureCircuit.sendSessionClose at hlive ⊢
  split
  · exact h hd
  refine ⟨?_, fun hs => absurd hs (by simp)⟩
  obtain ⟨hfailed, -⟩ := h hd
  unfold sealRecord
  cases hsend : c.session.send .close with
  | error e => exact hfailed
  | ok session =>
    simp only [sendRecord_session]
    simp only [Channel.send, Bind.bind, Except.bind] at hsend
    split at hsend
    · simp at hsend
    · obtain rfl := Except.ok.inj hsend
      exact hfailed

/-! ### What a call makes the circuit call -/

/-- `c'` is `c` after calls that did not ask for more data: what was called since tells whether the
circuit closed, and a live circuit stays live. -/
structure Quiet (c c' : SecureCircuit) : Prop where
  bound : c'.isBound = c.isBound
  calls : ∃ new, c'.log = c.log ++ new ∧ .onWritable ∉ new ∧
    (c'.done = true ↔ c.done = true ∨ ∃ e, .onClose e ∈ new)
  live : Live c → Live c'

/-- A call that may end by asking for more data. -/
def Speaks (c c' : SecureCircuit) : Prop :=
  Quiet c c' ∨ ∃ d, Quiet c d ∧ c' = d.notifyWritable

namespace Quiet

lemma refl (c : SecureCircuit) : Quiet c c := ⟨rfl, ⟨[], by simp, by simp, by simp⟩, id⟩

lemma trans (h : Quiet c c') (h' : Quiet c' c'') : Quiet c c'' := by
  obtain ⟨new, hlog, hquiet, hdone⟩ := h.calls
  obtain ⟨new', hlog', hquiet', hdone'⟩ := h'.calls
  refine ⟨h'.bound.trans h.bound,
    ⟨new ++ new', by rw [hlog', hlog, List.append_assoc], ?_, ?_⟩, fun hl => h'.live (h.live hl)⟩
  · simp [hquiet, hquiet']
  · rw [hdone', hdone, or_assoc, ← exists_or]
    simp only [List.mem_append]

/-- A change of what no call reads back. -/
lemma of_eq (hbound : c'.isBound = c.isBound) (hlog : c'.log = c.log) (hdone : c'.done = c.done)
    (hlive : Live c → Live c') : Quiet c c' :=
  ⟨hbound, ⟨[], by simp [hlog], by simp, by simp [hdone]⟩, hlive⟩

lemma finish (c : SecureCircuit) (error : Option SessionError) (notify force : Bool) :
    Quiet c (c.finish error notify force) := by
  by_cases hd : c.done = true
  · rw [finish_of_done hd]
    exact refl c
  · obtain ⟨hdone, hlog, hbound, -⟩ := finish_spec (by simpa using hd) error notify force
    exact ⟨hbound, ⟨[.onClose error], hlog, by simp, by simp [hdone]⟩,
      fun _ hlive => by simp [hdone] at hlive⟩

/-- Calls that only send. -/
lemma of_sends (h : Sends c c') (hlive : Live c → Live c') : Quiet c c' := by
  obtain ⟨hdone, hlog⟩ | ⟨hd, hd', e, hlog⟩ := h.ended
  · exact of_eq h.bound hlog hdone hlive
  · exact ⟨h.bound, ⟨[.onClose (some e)], hlog, by simp, by simp [hd']⟩, hlive⟩

lemma sendMessage (c : SecureCircuit) (m : StreamMessage) : Quiet c (c.sendMessage m).2 :=
  of_sends (sendMessage_spec c m).1 fun h => h.sendMessage m

lemma sendSessionClose (c : SecureCircuit) : Quiet c c.sendSessionClose :=
  of_sends (sendSessionClose_spec c).1 Live.sendSessionClose

lemma maybeComplete (c : SecureCircuit) : Quiet c c.maybeComplete := by
  unfold SecureCircuit.maybeComplete
  split
  · exact finish c _ _ _
  · exact refl c

lemma maybeClose (c : SecureCircuit) : Quiet c c.maybeClose := by
  unfold SecureCircuit.maybeClose
  split
  · exact (sendSessionClose c).trans (maybeComplete _)
  · exact refl c

lemma writable (c : SecureCircuit) : Quiet c c.writable.2 := by
  have hlink : Quiet c c.linkCongested.2 := of_eq rfl rfl rfl id
  unfold SecureCircuit.writable
  split
  · exact refl c
  dsimp only
  split
  · exact hlink
  · split <;> exact hlink

lemma writeLoop (fuel : ℕ) (c : SecureCircuit) (data : Bytes) :
    Quiet c (SecureCircuit.writeLoop fuel c data).1 := by
  induction fuel generalizing c data with
  | zero => exact refl c
  | succ fuel ih =>
    have hroom := writable c
    unfold SecureCircuit.writeLoop
    split
    · exact refl c
    dsimp only
    split
    · exact hroom
    split
    swap
    · exact hroom
    split
    · exact hroom
    next sendWindow _ =>
    have hconsume : Quiet c { c.writable.2 with sendWindow } :=
      hroom.trans (of_eq rfl rfl rfl id)
    have hmessage := sendMessage { c.writable.2 with sendWindow }
      (.data (data.take (min c.writable.1 data.length)))
    split
    · next heq =>
      rw [heq] at hmessage
      exact hconsume.trans hmessage
    · next heq =>
      rw [heq] at hmessage
      exact (hconsume.trans hmessage).trans (ih _ _)

lemma write (c : SecureCircuit) (data : Bytes) : Quiet c (c.write data).1 := writeLoop _ c data

lemma consumed (c : SecureCircuit) (n : ℕ) : Quiet c (c.consumed n) := by
  unfold SecureCircuit.consumed
  split
  · exact refl c
  dsimp only
  split
  · split
    · exact of_eq rfl rfl rfl id
    · have hcounted (n : ℕ) :
          Quiet c { c with consumedUngranted := 0, receivedUngranted := n } :=
        of_eq rfl rfl rfl id
      exact (hcounted _).trans (sendMessage _ _)
  · exact of_eq rfl rfl rfl id

lemma endWriting (c : SecureCircuit) : Quiet c c.endWriting := by
  unfold SecureCircuit.endWriting
  split
  · exact refl c
  · have hfin : Quiet c { c with sentFin := true } := of_eq rfl rfl rfl id
    exact (hfin.trans (sendMessage _ _)).trans (maybeClose _)

lemma reset (c : SecureCircuit) (code : ℕ) : Quiet c (c.reset code) := by
  unfold SecureCircuit.reset
  split
  · exact refl c
  · exact ((sendMessage c _).trans (sendSessionClose _)).trans (finish _ _ _ _)

lemma abort (c : SecureCircuit) : Quiet c c.abort := by
  unfold SecureCircuit.abort
  split
  · exact refl c
  · exact finish c _ _ _

lemma openPort (c : SecureCircuit) (port : ℕ) : Quiet c (c.openPort port) := by
  unfold SecureCircuit.openPort
  split
  · exact refl c
  · exact sendMessage c _

lemma remoteDestroyed (c : SecureCircuit) : Quiet c c.remoteDestroyed := by
  unfold SecureCircuit.remoteDestroyed
  split
  · exact refl c
  · split <;> exact finish c _ _ _

/-- A call of `onData` or of `onEnd`. -/
lemma emit (c : SecureCircuit) {e : Event} (hwritable : e ≠ .onWritable)
    (hclose : ∀ error, e ≠ .onClose error) : Quiet c (c.emit e) := by
  refine ⟨isBound_emit e, ⟨[e], log_emit e, by simpa using hwritable.symm, ?_⟩, id⟩
  have hdone : (c.emit e).done = c.done := rfl
  simp [hdone, fun error => (hclose error).symm]

end Quiet

namespace Speaks

lemma of_quiet (h : Quiet c c') : Speaks c c' := .inl h

lemma notifyWritable (h : Quiet c c') : Speaks c c'.notifyWritable := .inr ⟨c', h, rfl⟩

lemma poke (c : SecureCircuit) : Speaks c c.poke := by
  unfold SecureCircuit.poke
  split
  · exact of_quiet (.refl c)
  · exact notifyWritable (.refl c)

lemma accept (c : SecureCircuit) : Speaks c c.accept := by
  unfold SecureCircuit.accept
  split
  · exact of_quiet (.refl c)
  · have hopened : Quiet c { c with sentOpened := true } := .of_eq rfl rfl rfl id
    exact notifyWritable (hopened.trans (.sendMessage _ _))

lemma handleMessage (c : SecureCircuit) (m : StreamMessage) : Speaks c (c.handleMessage m) := by
  have hstarted : Quiet c { c with started := true } := .of_eq rfl rfl rfl id
  cases m with
  | opening port =>
    simp only [SecureCircuit.handleMessage]
    split
    · exact of_quiet (hstarted.trans (.finish _ _ _ _))
    · exact of_quiet (.of_eq rfl rfl rfl id)
  | opened =>
    simp only [SecureCircuit.handleMessage]
    split
    · exact of_quiet (hstarted.trans (.finish _ _ _ _))
    · refine notifyWritable (.of_eq rfl rfl rfl id)
  | reset code => exact of_quiet (hstarted.trans (.finish _ _ _ _))
  | window credit =>
    simp only [SecureCircuit.handleMessage, handleWindow]
    split
    · exact of_quiet (hstarted.trans (.finish _ _ _ _))
    split
    · exact notifyWritable (.of_eq rfl rfl rfl id)
    · exact of_quiet hstarted
  | data data =>
    simp only [SecureCircuit.handleMessage, handleData]
    split
    · exact of_quiet (hstarted.trans (.finish _ _ _ _))
    split
    · exact of_quiet (hstarted.trans (.finish _ _ _ _))
    · have hreceived : Quiet c { c with
          started := true, receivedUngranted := c.receivedUngranted + data.length } :=
        .of_eq rfl rfl rfl id
      exact of_quiet (hreceived.trans (.emit _ (by simp) (by simp)))
  | fin =>
    simp only [SecureCircuit.handleMessage, handleFin]
    split
    · exact of_quiet (hstarted.trans (.finish _ _ _ _))
    · have hfin : Quiet c { c with started := true, peerFin := true } := .of_eq rfl rfl rfl id
      exact of_quiet ((hfin.trans (.emit _ (by simp) (by simp))).trans (.maybeClose _))

/-- What comes after a change that no call reads back. -/
lemma after {d : SecureCircuit} (hd : Quiet c d) (h : Speaks d c') : Speaks c c' := by
  obtain h | ⟨e, he, rfl⟩ := h
  · exact .inl (hd.trans h)
  · exact .inr ⟨e, hd.trans he, rfl⟩

lemma receive (c : SecureCircuit) (a : Arrival) : Speaks c (c.receive a) := by
  unfold SecureCircuit.receive
  split
  · exact of_quiet (.refl c)
  next hlive =>
  split
  · exact of_quiet (.remoteDestroyed c)
  split
  · exact of_quiet (.finish c _ _ _)
  split
  · -- the session failed, and the circuit ends with it
    next session err heq =>
    refine of_quiet ?_
    obtain ⟨hdone, hlog, hbound, -⟩ := finish_spec (c := { c with session }) (by simpa using hlive)
      (some (toSessionError err "record refused")) true true
    exact ⟨hbound, ⟨_, hlog, by simp, by simp [fail, hdone]⟩,
      fun _ hd => by simp [fail, hdone] at hd⟩
  · next session r heq =>
    have hsession : session.failed = none ∧ session.sentClose = c.session.sentClose ∧
        session.sendCounter = c.session.sendCounter ∧ session.limits = c.session.limits := by
      unfold Channel.receive at heq
      split at heq
      · simp at heq
      next hfailed =>
      split at heq
      · simp at heq
      split at heq
      · obtain ⟨rfl, -⟩ := Prod.mk.inj heq
        exact ⟨hfailed, rfl, rfl, rfl⟩
      · simp at heq
    obtain ⟨hfailed, hclose, hcounter, hlimits⟩ := hsession
    have hopened : Quiet c { c with session := session, opened := c.opened + 1 } := by
      refine .of_eq rfl rfl rfl fun h hd => ⟨hfailed, fun hs => ?_⟩
      simp only [hclose, hcounter, hlimits]
      exact (h hd).2 hs
    refine after hopened ?_
    unfold handleRecord
    split
    · exact of_quiet (.refl _)
    · dsimp only
      have hclosed (d : SecureCircuit) : Quiet d { d with peerClose := true } :=
        .of_eq rfl rfl rfl id
      split
      · exact of_quiet ((hclosed _).trans (.finish _ _ _ _))
      · exact of_quiet ((hclosed _).trans (.maybeComplete _))
    · split
      · exact of_quiet (.finish _ _ _ _)
      · exact handleMessage _ _

end Speaks

/-! ### When a write ends the circuit -/

/-- The circuit, with these answers to its next calls of `link.send`. -/
def withSends (c : SecureCircuit) (sends : List Bool) : SecureCircuit :=
  { c with link := { c.link with sends } }

/-- How many frames a write hands to a link that takes every one. -/
def frames (c : SecureCircuit) (data : Bytes) : ℕ :=
  ((withSends c []).write data).1.records.length - c.records.length

/-- The link takes every frame of the write. -/
def Takes (c : SecureCircuit) (data : Bytes) : Prop :=
  ∀ taken ∈ c.link.sends.take (frames c data), taken = true

instance (c : SecureCircuit) (data : Bytes) : Decidable (Takes c data) :=
  inferInstanceAs (Decidable (∀ taken ∈ c.link.sends.take (frames c data), taken = true))

/-- How a call on the circuit compares with the call where the link takes everything: `k` frames
are handed on; where the link takes them, the call is the same, and otherwise the circuit ends. -/
structure Paced (c : SecureCircuit) (k : ℕ) (full d : SecureCircuit) : Prop where
  done : full.done = c.done
  sends : full.link.sends = []
  records : full.records.length = c.records.length + k
  taken : (∀ taken ∈ c.link.sends.take k, taken = true) → d = withSends full (c.link.sends.drop k)
  refused : (¬ ∀ taken ∈ c.link.sends.take k, taken = true) → d.done = true

@[simp] lemma withSends_withSends (c : SecureCircuit) (l l' : List Bool) :
    withSends (withSends c l) l' = withSends c l' := rfl

lemma withSends_self (h : c.link.sends = []) : withSends c [] = c := by
  rw [← h]
  rfl

lemma Paced.refl (c : SecureCircuit) : Paced c 0 (withSends c []) c :=
  ⟨rfl, rfl, rfl, fun _ => rfl, fun h => absurd (by simp) h⟩

/-- What is compared depends on the link, the records and the end alone. -/
lemma Paced.congr {k : ℕ} {full d : SecureCircuit} (h : Paced c k full d) (hlink : c'.link = c.link)
    (hrecords : c'.records = c.records) (hdone : c'.done = c.done) : Paced c' k full d := by
  refine ⟨h.done.trans hdone.symm, h.sends, hrecords ▸ h.records, ?_, ?_⟩
  · rw [hlink]
    exact h.taken
  · rw [hlink]
    exact h.refused

lemma take_one_all {l : List Bool} :
    (∀ taken ∈ l.take 1, taken = true) ↔ l.headD true = true := by
  cases l <;> simp

lemma take_add_all {l : List Bool} {k n : ℕ} : (∀ taken ∈ l.take (k + n), taken = true) ↔
    (∀ taken ∈ l.take k, taken = true) ∧ ∀ taken ∈ (l.drop k).take n, taken = true := by
  rw [List.take_add]
  simp only [List.mem_append, or_imp, forall_and]

/-- One call after another. -/
lemma Paced.trans {k n : ℕ} {full d f : SecureCircuit} {g : SecureCircuit → SecureCircuit}
    (h : Paced c k full d)
    (h' : Paced (withSends full (c.link.sends.drop k)) n f
      (g (withSends full (c.link.sends.drop k))))
    (hstop : d.done = true → (g d).done = true) : Paced c (k + n) f (g d) := by
  refine ⟨h'.done.trans h.done, h'.sends, ?_, fun htaken => ?_, fun hrefused => ?_⟩
  · have hfirst : (withSends full (c.link.sends.drop k)).records = full.records := rfl
    rw [h'.records, hfirst, h.records, Nat.add_assoc]
  · obtain ⟨hfirst, hsecond⟩ := take_add_all.mp htaken
    rw [h.taken hfirst, h'.taken hsecond]
    simp [withSends]
  · by_cases hfirst : ∀ taken ∈ c.link.sends.take k, taken = true
    · rw [h.taken hfirst]
      exact h'.refused fun hsecond => hrefused (take_add_all.mpr ⟨hfirst, hsecond⟩)
    · exact hstop (h.refused hfirst)

/-- A record that the link took. -/
def pushed (c : SecureCircuit) (r : OpenedRecord) : SecureCircuit :=
  { withSends c c.link.sends.tail with records := c.records ++ [⟨r, true⟩] }

lemma sendRecord_taken {c : SecureCircuit} (h : c.link.sends.headD true = true)
    (r : OpenedRecord) : c.sendRecord r = (true, pushed c r) := by
  unfold sendRecord linkSend
  simp only [h]
  rfl

lemma sendRecord_paced (c : SecureCircuit) (r : OpenedRecord) :
    Paced c 1 (pushed (withSends c []) r) (c.sendRecord r).2 := by
  refine ⟨rfl, rfl, by simp [pushed, withSends], fun htaken => ?_, fun hrefused => ?_⟩
  · rw [sendRecord_taken (take_one_all.mp htaken)]
    simp [pushed, withSends]
  · rw [take_one_all, Bool.not_eq_true] at hrefused
    unfold sendRecord linkSend
    simp only [hrefused]
    exact finish_done _ _ _ _

lemma updateDue_paced (c : SecureCircuit) : ∃ k,
    Paced c k (updateDue (withSends c [])) (updateDue c) := by
  cases hdue : c.session.needsKeyUpdate with
  | false =>
    refine ⟨0, ?_⟩
    have hsame : updateDue c = c := by simp [updateDue, hdue]
    have hsameFull : updateDue (withSends c []) = withSends c [] := by
      simp [updateDue, withSends, hdue]
    rw [hsame, hsameFull]
    exact .refl c
  | true =>
    refine ⟨1, ?_⟩
    have hfull : (withSends c []).session.needsKeyUpdate = true := hdue
    unfold updateDue
    rw [if_pos hdue, if_pos hfull, sendRecord_taken rfl]
    exact (sendRecord_paced { c with session := { c.session with sendCounter := 0 } }
      .keyUpdate).congr rfl rfl rfl

/-- A message is one frame, or two where a key update is due. -/
lemma Live.sendMessage_paced (h : Live c) (hd : c.done = false) (hs : c.sentClose = false)
    {m : StreamMessage} {plaintext : Bytes} (hm : encodeStreamMessage m = .ok plaintext) :
    ∃ k full, (withSends c []).sendMessage m = (true, full) ∧
      Paced c k full (c.sendMessage m).2 ∧
      ((∀ taken ∈ c.link.sends.take k, taken = true) → (c.sendMessage m).1 = true) := by
  have hfull := Live.sendMessage_eq (c := withSends c []) h hd hs hm
  have heq := h.sendMessage_eq hd hs hm
  obtain ⟨k, hupdate⟩ := updateDue_paced c
  have hsends : (counted (updateDue (withSends c []))).link.sends = [] := hupdate.sends
  rw [sendRecord_taken (by simp [hsends])] at hfull
  have hpaced := hupdate.trans (n := 1) (f := pushed (counted (updateDue (withSends c [])))
      (.data plaintext))
    (g := fun d => ((counted d).sendRecord (.data plaintext)).2)
    (by
      have hrecord := sendRecord_paced
        (counted (withSends (updateDue (withSends c [])) (c.link.sends.drop k))) (.data plaintext)
      have hclear : withSends (counted (updateDue (withSends c []))) [] =
          counted (updateDue (withSends c [])) := withSends_self hsends
      change Paced _ 1 (pushed (withSends (counted (updateDue (withSends c []))) []) _) _ at hrecord
      rw [hclear] at hrecord
      exact hrecord.congr rfl rfl rfl)
    (fun hdone => by
      by_contra hlive
      have hbefore := ((sendRecord_spec (counted (updateDue c)) (.data plaintext)).1.alive
        (by simpa using hlive)).1
      exact absurd (hdone.symm.trans hbefore) (by decide))
  refine ⟨_, _, hfull, by rw [heq]; exact hpaced, fun htaken => ?_⟩
  obtain ⟨hfirst, hsecond⟩ := take_add_all.mp htaken
  rw [heq, hupdate.taken hfirst]
  rw [sendRecord_taken (by simpa [counted, withSends] using take_one_all.mp hsecond)]

lemma writable_withSends (c : SecureCircuit) :
    (withSends c []).writable = (c.writable.1, withSends c.writable.2 []) := by
  have hshut : ((withSends c []).done || (withSends c []).sentFin) = (c.done || c.sentFin) := rfl
  have hmute : (decide ((withSends c []).linkCongested.2.role = .service) &&
      !(withSends c []).linkCongested.2.sentOpened) =
        (decide (c.linkCongested.2.role = .service) && !c.linkCongested.2.sentOpened) := rfl
  have hfull : (withSends c []).linkCongested.1 = c.linkCongested.1 := rfl
  unfold writable
  rw [hshut]
  by_cases hs : (c.done || c.sentFin) = true
  · rw [if_pos hs, if_pos hs]
  rw [if_neg hs, if_neg hs]
  dsimp only
  rw [hmute, hfull]
  by_cases hc : c.linkCongested.1 = true
  · rw [if_pos hc, if_pos hc]
    rfl
  rw [if_neg hc, if_neg hc]
  by_cases hm : (decide (c.linkCongested.2.role = .service) && !c.linkCongested.2.sentOpened) = true
  · rw [if_pos hm, if_pos hm]
    rfl
  · rw [if_neg hm, if_neg hm]
    rfl

lemma writable_cases (c : SecureCircuit) : c.writable.1 ≤ MAX_STREAM_DATA ∧
    (c.writable.2 = c ∨ c.writable.2 = c.linkCongested.2) := by
  unfold writable
  split
  · exact ⟨Nat.zero_le _, .inl rfl⟩
  dsimp only
  split
  · exact ⟨Nat.zero_le _, .inr rfl⟩
  split
  · exact ⟨Nat.zero_le _, .inr rfl⟩
  · exact ⟨min_le_right _ _, .inr rfl⟩

/-- What asking for room leaves alone. -/
lemma writable_same (c : SecureCircuit) : c.writable.2.link.sends = c.link.sends ∧
    c.writable.2 = { c with link := c.writable.2.link } := by
  obtain h | h := (writable_cases c).2 <;> rw [h] <;> exact ⟨rfl, rfl⟩

/-- **A write is the same over any link that takes its frames**, and ends the circuit over one that
does not. -/
theorem Live.writeLoop_paced (h : Live c) (hd : c.done = false) (fuel : ℕ) (data : Bytes) : ∃ k,
    Paced c k (SecureCircuit.writeLoop fuel (withSends c []) data).1
      (SecureCircuit.writeLoop fuel c data).1 := by
  induction fuel generalizing c data with
  | zero => exact ⟨0, .refl c⟩
  | succ fuel ih =>
    obtain ⟨hsends, hsame⟩ := writable_same c
    have hfull := writable_withSends c
    have hlive := (Quiet.writable c).live h
    rcases hw : c.writable with ⟨room, c₁⟩
    rw [hw] at hsends hsame hfull hlive
    simp only at hsends hsame hfull hlive
    have hd₁ : c₁.done = false := by rw [hsame]; exact hd
    have hfrom {k : ℕ} {full d : SecureCircuit} (hp : Paced c₁ k full d) : Paced c k full d :=
      ⟨hp.done.trans (by rw [hsame]), hp.sends, by rw [hp.records, hsame],
        hsends ▸ hp.taken, hsends ▸ hp.refused⟩
    unfold SecureCircuit.writeLoop
    rw [hw, hfull]
    split
    · exact ⟨0, .refl c⟩
    dsimp only
    split
    · exact ⟨0, hfrom (.refl c₁)⟩
    next hroom =>
    split
    swap
    · exact ⟨0, hfrom (.refl c₁)⟩
    next hle =>
    have hwindow : (withSends c₁ []).sendWindow = c₁.sendWindow := rfl
    rw [hwindow]
    cases hconsume : c₁.sendWindow.consume ⟨min room data.length, hle⟩ with
    | none => exact ⟨0, hfrom (.refl c₁)⟩
    | some sendWindow =>
      dsimp only
      by_cases hs : c₁.sentClose = true
      · have hsend : ({ c₁ with sendWindow } : SecureCircuit).sendMessage
            (.data (data.take (min room data.length))) = (false, { c₁ with sendWindow }) := by
          unfold SecureCircuit.sendMessage
          rw [if_pos (by simp [hs])]
        have hsendFull : ({ withSends c₁ [] with sendWindow } : SecureCircuit).sendMessage
            (.data (data.take (min room data.length))) =
              (false, { withSends c₁ [] with sendWindow }) := by
          unfold SecureCircuit.sendMessage
          rw [if_pos (by simp [hs, withSends])]
        rw [hsend, hsendFull]
        exact ⟨0, hfrom ((Paced.refl { c₁ with sendWindow }).congr rfl rfl rfl)⟩
      · have hlength : (data.take (min room data.length)).length = min room data.length := by simp
        have hroomle : room ≤ MAX_STREAM_DATA := by
          have hmax := (writable_cases c).1
          rwa [hw] at hmax
        have hm : encodeStreamMessage (.data (data.take (min room data.length))) = .ok _ :=
          encode_data (by omega) (by omega)
        obtain ⟨k, full, hfullSend, hpaced, htaken⟩ :=
          Live.sendMessage_paced (c := { c₁ with sendWindow }) hlive hd₁ (by simpa using hs) hm
        have hfullLive : Live full := by
          have hsent := Live.sendMessage (c := withSends { c₁ with sendWindow } []) hlive
            (.data (data.take (min room data.length)))
          rwa [hfullSend] at hsent
        have hwith : ({ withSends c₁ [] with sendWindow } : SecureCircuit) =
            withSends { c₁ with sendWindow } [] := rfl
        rw [hwith, hfullSend]
        dsimp only
        -- what is sent after, over the answers that are left
        obtain ⟨n, hrest⟩ := ih (c := withSends full (c₁.link.sends.drop k)) hfullLive
          (hpaced.done.trans hd₁) (data.drop (min room data.length))
        rw [withSends_withSends, withSends_self hpaced.sends] at hrest
        have hstop (d : SecureCircuit) (hdone : d.done = true) :
            (SecureCircuit.writeLoop fuel d (data.drop (min room data.length))).1.done = true := by
          obtain ⟨new, -, -, hiff⟩ :=
            (Quiet.writeLoop fuel d (data.drop (min room data.length))).calls
          exact hiff.mpr (.inl hdone)
        have hall := Paced.trans
          (g := fun d => (SecureCircuit.writeLoop fuel d (data.drop (min room data.length))).1)
          hpaced hrest (hstop _)
        rcases hres : ({ c₁ with sendWindow } : SecureCircuit).sendMessage
          (.data (data.take (min room data.length))) with ⟨ok, d⟩
        rw [hres] at hpaced htaken hall
        cases ok with
        | true => exact ⟨k + n, hfrom (hall.congr rfl rfl rfl)⟩
        | false =>
          -- the link refused the message, and what would come after is not sent
          refine ⟨k + n, hfrom (Paced.congr (c := { c₁ with sendWindow })
            ⟨hall.done, hall.sends, hall.records, fun hfirst => ?_, fun hfirst => ?_⟩ rfl rfl rfl)⟩
          · exact absurd (htaken (take_add_all.mp hfirst).1) (by simp)
          · exact hpaced.refused fun hfirst => absurd (htaken hfirst) (by simp)

/-- **A write ends the circuit exactly where the link refuses one of its frames.** -/
theorem Live.write_done_iff (h : Live c) (hd : c.done = false) (data : Bytes) :
    (c.write data).1.done = false ↔ Takes c data := by
  obtain ⟨k, hpaced⟩ := h.writeLoop_paced hd data.length data
  have hframes : frames c data = k := by
    change (SecureCircuit.writeLoop data.length (withSends c []) data).1.records.length -
      c.records.length = k
    rw [hpaced.records]
    omega
  unfold Takes
  rw [hframes]
  constructor
  · intro hlive
    by_contra hrefused
    exact absurd ((hpaced.refused hrefused).symm.trans hlive) (by decide)
  · intro htaken
    have hdone := hpaced.done.trans hd
    change (SecureCircuit.writeLoop data.length c data).1.done = false
    rw [hpaced.taken htaken]
    exact hdone

end Tnp.Client.CircuitCalls
