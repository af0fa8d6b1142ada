import Tnp.Client.Circuit
import Tnp.Lib.Run

/-!
Two circuits and a relay between them that may stop, cut or garble what it likes.

The relay can only hand on the peer's next record; anything else it delivers makes `open`
throw. What is promised is about the calls each end makes to its owner: the data is a prefix of
what the other end took, an end is an end, and a cut is never reported as one.
-/

namespace Tnp.Client.StreamIntegrity

open Tnp.Lib Tnp.Lib.Run Tnp.Protocol Tnp.Protocol.Session Tnp.Protocol.SessionChannel
open Tnp.Client.Circuit Tnp.Client.Circuit.SecureCircuit

/-! ### Data in logs and records -/

/-- The bytes that were passed to `onData`. -/
def dataIn (log : List Event) : Bytes :=
  log.flatMap fun e =>
    match e with
    | .onData data => data
    | _ => []

@[simp] lemma dataIn_nil : dataIn [] = [] := rfl

@[simp] lemma dataIn_append (l m : List Event) : dataIn (l ++ m) = dataIn l ++ dataIn m := by
  simp [dataIn]

@[simp] lemma dataIn_onData (d : Bytes) : dataIn [.onData d] = d := by simp [dataIn]
@[simp] lemma dataIn_onEnd : dataIn [.onEnd] = [] := rfl
@[simp] lemma dataIn_onWritable : dataIn [.onWritable] = [] := rfl
@[simp] lemma dataIn_onClose (e : Option SessionError) : dataIn [.onClose e] = [] := rfl

def messageData : StreamMessage → Bytes
  | .data data => data
  | _ => []

/-- The application bytes a record carries. -/
def contentData : OpenedRecord → Bytes
  | .data plaintext =>
    match decodeStreamMessage plaintext with
    | .ok m => messageData m
    | .error _ => []
  | _ => []

def recordData (records : List Sealed) : Bytes := records.flatMap fun x => contentData x.content

@[simp] lemma recordData_nil : recordData [] = [] := rfl

@[simp] lemma recordData_append (l m : List Sealed) :
    recordData (l ++ m) = recordData l ++ recordData m := by
  simp [recordData]

@[simp] lemma recordData_singleton (x : Sealed) : recordData [x] = contentData x.content := by
  simp [recordData]

lemma recordData_eq_nil {l : List Sealed} (h : ∀ x ∈ l, contentData x.content = []) :
    recordData l = [] := by
  simpa [recordData] using h

lemma recordData_filter_eq_nil {l : List Sealed} (p : Sealed → Bool) (h : recordData l = []) :
    recordData (l.filter p) = [] := by
  simp only [recordData, List.flatMap_eq_nil_iff] at h ⊢
  exact fun x hx => h x (List.mem_of_mem_filter hx)

lemma contentData_encode {m : StreamMessage} {plaintext : Bytes}
    (h : encodeStreamMessage m = .ok plaintext) :
    contentData (.data plaintext) = messageData m := by
  simp [contentData, decodeStreamMessage_encodeStreamMessage h]

/-- The record of a FIN. -/
def IsFin (r : OpenedRecord) : Prop := r = .data [StreamMessageType.FIN]

lemma isFin_encode {m : StreamMessage} {plaintext : Bytes}
    (h : encodeStreamMessage m = .ok plaintext) (hfin : IsFin (.data plaintext)) : m = .fin := by
  have hdec := decodeStreamMessage_encodeStreamMessage h
  obtain rfl : plaintext = [StreamMessageType.FIN] := by simpa [IsFin] using hfin
  exact (Except.ok.inj hdec).symm

lemma isFin_of_decode {plaintext : Bytes} (h : decodeStreamMessage plaintext = .ok .fin) :
    IsFin (.data plaintext) := by
  cases plaintext with
  | nil => simp [decodeStreamMessage] at h
  | cons type body =>
    change decodeBody type body = .ok .fin at h
    unfold decodeBody at h
    split_ifs at h with h1 h2 h3 h4 h5 h6 h7 h8 h9 h10 h11 h12 <;> simp_all [IsFin]

/-! ### What each end keeps -/

/-- The log of one end: data, then at most one end, then at most one close, and a clean close
only after the peer's FIN or a local reset. -/
structure Shape (wasReset : Bool) (c : SecureCircuit) : Prop where
  live : c.done = false → ∀ e, .onClose e ∉ c.log
  closed : c.done = true → ∃ l e, c.log = l ++ [.onClose e] ∧ (∀ e', .onClose e' ∉ l) ∧
    (e = none → c.peerFin = true ∨ wasReset = true)
  ended : c.log.count .onEnd = if c.peerFin then 1 else 0
  afterEnd : ∀ a b, c.log = a ++ .onEnd :: b → dataIn b = []

/-- The records of one end carry what `write` took, and no data after a FIN. -/
structure Sender (accepted : Bytes) (c : SecureCircuit) : Prop where
  accepted : recordData (c.records.filter (·.handed)) = accepted
  fin : ∀ a x b, c.records = a ++ x :: b → IsFin x.content →
    recordData b = [] ∧ c.sentFin = true

/-- `c'` is `c` after calls that pass no data and no end on, and that took `gain` to send. -/
structure Keeps (wasReset : Bool) (c c' : SecureCircuit) (gain : Bytes) : Prop where
  shape : Shape wasReset c → Shape wasReset c'
  sender : ∀ accepted, Sender accepted c → Sender (accepted ++ gain) c'
  records : c.records <+: c'.records
  log : c.log <+: c'.log
  opened : c'.opened = c.opened
  data : dataIn c'.log = dataIn c.log
  peerFin : c'.peerFin = c.peerFin
  alive : c'.done = false → c.done = false

variable {wasReset : Bool} {c c' c'' : SecureCircuit}

lemma Keeps.trans {g g' : Bytes} (h : Keeps wasReset c c' g) (h' : Keeps wasReset c' c'' g') :
    Keeps wasReset c c'' (g ++ g') :=
  ⟨fun hs => h'.shape (h.shape hs), fun a ha => by
      rw [← List.append_assoc]; exact h'.sender _ (h.sender a ha),
    h.records.trans h'.records, h.log.trans h'.log, h'.opened.trans h.opened,
    h'.data.trans h.data, h'.peerFin.trans h.peerFin, fun hd => h.alive (h'.alive hd)⟩

lemma Shape.congr (h : Shape wasReset c) (hlog : c'.log = c.log) (hdone : c'.done = c.done)
    (hfin : c'.peerFin = c.peerFin) : Shape wasReset c' :=
  ⟨by rw [hdone, hlog]; exact h.live, by rw [hdone, hlog, hfin]; exact h.closed,
    by rw [hlog, hfin]; exact h.ended, by rw [hlog]; exact h.afterEnd⟩

lemma Sender.congr {accepted : Bytes} (h : Sender accepted c) (hrecords : c'.records = c.records)
    (hfin : c.sentFin = true → c'.sentFin = true) : Sender accepted c' :=
  ⟨by rw [hrecords]; exact h.accepted, fun a x b hab hx => by
    rw [hrecords] at hab
    exact ⟨(h.fin a x b hab hx).1, hfin (h.fin a x b hab hx).2⟩⟩

/-- Fields that neither the log nor the records depend on may change. -/
lemma keeps_of_eq (hlog : c'.log = c.log) (hdone : c'.done = c.done)
    (hpeer : c'.peerFin = c.peerFin) (hrecords : c'.records = c.records)
    (hopened : c'.opened = c.opened) (hsent : c.sentFin = true → c'.sentFin = true) :
    Keeps wasReset c c' [] :=
  ⟨fun hs => hs.congr hlog hdone hpeer, fun a ha => by
      rw [List.append_nil]; exact ha.congr hrecords hsent,
    hrecords ▸ List.prefix_rfl, hlog ▸ List.prefix_rfl, hopened, by rw [hlog], hpeer,
    fun hd => hdone ▸ hd⟩

/-- The log grows at its end: nothing but data has to stay before an end. -/
lemma afterEnd_append {l : List Event} {e : Event}
    (h : ∀ a b, l = a ++ .onEnd :: b → dataIn b = []) (he : dataIn [e] = [] ∨ .onEnd ∉ l) :
    ∀ a b, l ++ [e] = a ++ .onEnd :: b → dataIn b = [] := by
  intro a b hab
  rcases List.eq_nil_or_concat b with rfl | ⟨b', y, rfl⟩
  · rfl
  · rw [List.concat_eq_append, ← List.cons_append, ← List.append_assoc] at hab
    obtain ⟨hl, hy⟩ := List.append_inj' hab rfl
    obtain rfl : e = y := by simpa using hy
    rcases he with he | he
    · rw [List.concat_eq_append, dataIn_append, h a b' hl, he, List.nil_append]
    · exact absurd (by rw [hl]; simp) he

lemma Shape.append_close (h : Shape wasReset c) (hd : c.done = false) {e : Option SessionError}
    (he : e = none → c.peerFin = true ∨ wasReset = true) (hlog : c'.log = c.log ++ [.onClose e])
    (hdone : c'.done = true) (hfin : c'.peerFin = c.peerFin) : Shape wasReset c' := by
  refine ⟨fun hd' => by simp [hdone] at hd', fun _ => ⟨c.log, e, hlog, h.live hd, hfin ▸ he⟩,
    ?_, ?_⟩
  · rw [hlog, hfin, List.count_append, h.ended]
    simp
  · rw [hlog]
    exact afterEnd_append h.afterEnd (Or.inl rfl)

lemma Shape.append_live (h : Shape wasReset c) (hd : c.done = false) {e : Event}
    (hclose : ∀ e', e ≠ .onClose e') (hend : e ≠ .onEnd)
    (hdata : dataIn [e] = [] ∨ c.peerFin = false) (hlog : c'.log = c.log ++ [e])
    (hdone : c'.done = false) (hfin : c'.peerFin = c.peerFin) : Shape wasReset c' := by
  refine ⟨fun _ e' => ?_, fun hd' => by simp [hdone] at hd', ?_, ?_⟩
  · rw [hlog]
    simpa [h.live hd e'] using (hclose e').symm
  · rw [hlog, hfin, List.count_append, h.ended]
    simp [hend]
  · rw [hlog]
    refine afterEnd_append h.afterEnd (hdata.imp_right fun hf => ?_)
    rw [← List.count_eq_zero, h.ended, hf]
    rfl

lemma Shape.append_end (h : Shape wasReset c) (hd : c.done = false) (hp : c.peerFin = false)
    (hlog : c'.log = c.log ++ [.onEnd]) (hdone : c'.done = false) (hfin : c'.peerFin = true) :
    Shape wasReset c' := by
  refine ⟨fun _ e' => ?_, fun hd' => by simp [hdone] at hd', ?_, ?_⟩
  · rw [hlog]
    simpa using h.live hd e'
  · rw [hlog, hfin, List.count_append, h.ended, hp]
    simp
  · rw [hlog]
    exact afterEnd_append h.afterEnd (Or.inl rfl)

/-- More records: nothing with data once a FIN was sent. -/
lemma Sender.append {accepted : Bytes} (h : Sender accepted c) {added : List Sealed}
    (hrecords : c'.records = c.records ++ added)
    (hsent : c.sentFin = true → c'.sentFin = true ∧ recordData added = [])
    (hnew : ∀ a x b, added = a ++ x :: b → IsFin x.content →
      recordData b = [] ∧ c'.sentFin = true) :
    Sender (accepted ++ recordData (added.filter (·.handed))) c' := by
  refine ⟨by rw [hrecords, List.filter_append, recordData_append, h.accepted], ?_⟩
  intro a x b hab hx
  rw [hrecords] at hab
  rcases List.append_eq_append_iff.mp hab with ⟨l, rfl, hl⟩ | ⟨l, hl, hb⟩
  · exact hnew l x b hl hx
  · cases l with
    | nil => exact hnew [] x b (by simpa using hb.symm) hx
    | cons y l =>
      rw [List.cons_append] at hb
      obtain ⟨rfl, rfl⟩ := List.cons.inj hb
      obtain ⟨hdata, hfin⟩ := h.fin a x l hl hx
      exact ⟨by rw [recordData_append, hdata, (hsent hfin).2, List.nil_append], (hsent hfin).1⟩

/-! ### The sending calls -/

lemma keeps_of_sends (h : Sends c c') {gain : Bytes}
    (hsender : ∀ accepted, Sender accepted c → Sender (accepted ++ gain) c') :
    Keeps wasReset c c' gain := by
  refine ⟨fun hs => ?_, hsender, h.records, ?_, h.opened, ?_, h.peerFin,
    fun hd => (h.alive hd).1⟩
  · rcases h.ended with ⟨hd, hl⟩ | ⟨hd, hd', e, hl⟩
    · exact hs.congr hl hd h.peerFin
    · exact hs.append_close hd (by simp) hl hd' h.peerFin
  · rcases h.ended with ⟨-, hl⟩ | ⟨-, -, e, hl⟩
    · exact hl ▸ List.prefix_rfl
    · rw [hl]
      exact List.prefix_append _ _
  · rcases h.ended with ⟨-, hl⟩ | ⟨-, -, e, hl⟩
    · rw [hl]
    · rw [hl, dataIn_append, dataIn_onClose, List.append_nil]

lemma keeps_sendMessage (c : SecureCircuit) {m : StreamMessage}
    (hdata : messageData m ≠ [] → c.sentFin = false) (hfin : m = .fin → c.sentFin = true) :
    Keeps wasReset c (c.sendMessage m).2 (if (c.sendMessage m).1 then messageData m else []) := by
  obtain ⟨hsends, hadds⟩ := sendMessage_spec c m
  refine keeps_of_sends hsends fun accepted ha => ?_
  have hupdates : ∀ {updates : List Sealed}, (∀ x ∈ updates, x.content = .keyUpdate) →
      recordData updates = [] := fun hu => recordData_eq_nil fun x hx => by rw [hu x hx]; rfl
  rcases hadds with ⟨plaintext, hm, updates, hu, hrecords⟩ | ⟨hno, updates, hu, hrecords⟩
  · rw [List.append_assoc] at hrecords
    have hdataEq := contentData_encode hm
    have hhanded : recordData ((updates ++
        [(⟨.data plaintext, (c.sendMessage m).1⟩ : Sealed)]).filter (·.handed)) =
          if (c.sendMessage m).1 then messageData m else [] := by
      rw [List.filter_append, recordData_append,
        recordData_filter_eq_nil _ (hupdates hu), List.nil_append]
      cases (c.sendMessage m).1 <;> simp [hdataEq]
    rw [← hhanded]
    refine ha.append hrecords (fun hs => ⟨hsends.sentFin.trans hs, ?_⟩) ?_
    · rw [recordData_append, hupdates hu, recordData_singleton, hdataEq, List.nil_append]
      by_contra hne
      simp [hdata hne] at hs
    · intro a x b hab hx
      -- key updates are no FIN, so `x` is the message and nothing follows it
      rcases List.eq_nil_or_concat b with rfl | ⟨b', y, rfl⟩
      · rw [List.append_singleton_inj] at hab
        obtain ⟨-, rfl⟩ := hab
        exact ⟨rfl, hsends.sentFin.trans (hfin (isFin_encode hm hx))⟩
      · rw [List.concat_eq_append, ← List.cons_append, ← List.append_assoc] at hab
        obtain ⟨hl, -⟩ := List.append_inj' hab rfl
        rw [IsFin, hu x (by rw [hl]; simp)] at hx
        simp at hx
  · rw [List.append_nil] at hrecords
    have hnone := ha.append hrecords (fun hs => ⟨hsends.sentFin.trans hs, hupdates hu⟩) (by
      intro a x b hab hx
      rw [IsFin, hu x (by rw [hab]; simp)] at hx
      simp at hx)
    rw [recordData_filter_eq_nil _ (hupdates hu)] at hnone
    simpa [hno] using hnone

lemma keeps_sendMessage_quiet (c : SecureCircuit) {m : StreamMessage} (hdata : messageData m = [])
    (hfin : m = .fin → c.sentFin = true) : Keeps wasReset c (c.sendMessage m).2 [] := by
  simpa [hdata] using keeps_sendMessage c (m := m) (fun h => absurd hdata h) hfin

lemma keeps_finish (c : SecureCircuit) {error : Option SessionError} (notify force : Bool)
    (he : error = none → c.peerFin = true ∨ wasReset = true) :
    Keeps wasReset c (c.finish error notify force) [] := by
  by_cases hd : c.done = true
  · rw [finish_of_done hd]
    exact keeps_of_eq rfl rfl rfl rfl rfl id
  · have hd' : c.done = false := by simpa using hd
    obtain ⟨hdone, hlog, -, hrecords, hsame⟩ := finish_spec hd' error notify force
    have hpeer : (c.finish error notify force).peerFin = c.peerFin := by rw [hsame]
    refine ⟨fun hs => hs.append_close hd' he hlog hdone hpeer, fun a ha => ?_,
      hrecords ▸ List.prefix_rfl, by rw [hlog]; exact List.prefix_append _ _, by rw [hsame], ?_,
      hpeer, fun h => by simp [hdone] at h⟩
    · rw [List.append_nil]
      exact ha.congr hrecords (by rw [hsame]; exact id)
    · rw [hlog, dataIn_append, dataIn_onClose, List.append_nil]

lemma keeps_fail (c : SecureCircuit) (e : SessionError) : Keeps wasReset c (c.fail e) [] :=
  keeps_finish c true true (by simp)

lemma keeps_sendSessionClose (c : SecureCircuit) : Keeps wasReset c c.sendSessionClose [] := by
  obtain ⟨hsends, added, hclose, hrecords⟩ := sendSessionClose_spec c
  refine keeps_of_sends hsends fun accepted ha => ?_
  have hnone : recordData added = [] := recordData_eq_nil fun x hx => by rw [hclose x hx]; rfl
  have happend := ha.append hrecords (fun hs => ⟨hsends.sentFin.trans hs, hnone⟩) (by
    intro a x b hab hx
    rw [IsFin, hclose x (by rw [hab]; simp)] at hx
    simp at hx)
  rwa [recordData_filter_eq_nil _ hnone] at happend

lemma keeps_maybeComplete (c : SecureCircuit) (hp : c.peerFin = true) :
    Keeps wasReset c c.maybeComplete [] := by
  unfold SecureCircuit.maybeComplete
  split
  · exact keeps_finish c true false fun _ => Or.inl hp
  · exact keeps_of_eq rfl rfl rfl rfl rfl id

lemma keeps_maybeClose (c : SecureCircuit) : Keeps wasReset c c.maybeClose [] := by
  unfold SecureCircuit.maybeClose
  split
  · next h =>
    have hp : c.peerFin = true := by simp_all
    have hclose : Keeps wasReset c c.sendSessionClose [] := keeps_sendSessionClose c
    exact hclose.trans (keeps_maybeComplete _ (hclose.peerFin.trans hp))
  · exact keeps_of_eq rfl rfl rfl rfl rfl id

lemma keeps_notifyWritable (c : SecureCircuit) (hd : c.done = false) :
    Keeps wasReset c c.notifyWritable [] := by
  rw [notifyWritable_eq]
  split
  · refine ⟨fun hs => hs.append_live hd (by simp) (by simp) (Or.inl rfl) (log_emit _) hd rfl,
      fun a ha => ?_, List.prefix_rfl, by rw [log_emit]; exact List.prefix_append _ _, rfl, ?_,
      rfl, id⟩
    · rw [List.append_nil]
      exact ha.congr rfl id
    · rw [log_emit, dataIn_append, dataIn_onWritable, List.append_nil]
  · exact keeps_of_eq rfl rfl rfl rfl rfl id

/-- Asking for room only reads the connection. -/
lemma keeps_writable (c : SecureCircuit) : Keeps wasReset c c.writable.2 [] := by
  unfold SecureCircuit.writable SecureCircuit.linkCongested
  split_ifs <;> dsimp only
  · exact keeps_of_eq rfl rfl rfl rfl rfl id
  · split_ifs <;> exact keeps_of_eq rfl rfl rfl rfl rfl id

/-- There is room only before the own FIN. -/
lemma sentFin_of_writable {c : SecureCircuit} (h : c.writable.1 ≠ 0) :
    c.writable.2.sentFin = false := by
  unfold SecureCircuit.writable SecureCircuit.linkCongested at *
  by_cases hfin : c.sentFin = true
  · simp [hfin] at h
  · have hfin' : c.sentFin = false := by simpa using hfin
    split_ifs <;> dsimp only
    · exact hfin'
    · split_ifs <;> exact hfin'

/-- What the loop took of the data is what it gained to send. -/
lemma keeps_writeLoop (fuel : ℕ) (c : SecureCircuit) (data : Bytes) :
    Keeps wasReset c (SecureCircuit.writeLoop fuel c data).1
      (data.take (SecureCircuit.writeLoop fuel c data).2) := by
  induction fuel generalizing c data with
  | zero => simpa [SecureCircuit.writeLoop] using keeps_of_eq rfl rfl rfl rfl rfl id
  | succ fuel ih =>
    have hstay : Keeps wasReset c c (data.take 0) := by
      simpa using keeps_of_eq rfl rfl rfl rfl rfl id
    have hroom : Keeps wasReset c c.writable.2 [] := keeps_writable c
    have hstop : Keeps wasReset c c.writable.2 (data.take 0) := by simpa using hroom
    rw [SecureCircuit.writeLoop]
    split
    · exact hstay
    rcases hw : c.writable with ⟨room, d⟩
    have hfin := sentFin_of_writable (c := c)
    rw [hw] at hroom hstop hfin
    dsimp only at hroom hstop hfin ⊢
    split
    · exact hstop
    next hne =>
    split
    swap
    · exact hstop
    cases hconsume : d.sendWindow.consume ⟨min room data.length, by assumption⟩ with
    | none => exact hstop
    | some sendWindow =>
      dsimp only
      have hwindow : Keeps wasReset d { d with sendWindow } [] :=
        keeps_of_eq rfl rfl rfl rfl rfl id
      have hsend : Keeps wasReset { d with sendWindow } _ _ :=
        keeps_sendMessage { d with sendWindow } (m := .data (data.take (min room data.length)))
          (fun _ => hfin hne) (by simp)
      rcases hres : SecureCircuit.sendMessage { d with sendWindow }
        (.data (data.take (min room data.length))) with ⟨ok, d'⟩
      rw [hres] at hsend
      cases ok with
      | false => simpa using (hroom.trans hwindow).trans hsend
      | true =>
        have hrest := ih d' (data.drop (min room data.length))
        have hall := ((hroom.trans hwindow).trans hsend).trans hrest
        simpa [messageData, List.take_add] using hall

lemma Shape.reset (h : Shape wasReset c) : Shape true c :=
  ⟨h.live, fun hd => by
    obtain ⟨l, e, hlog, hl, -⟩ := h.closed hd
    exact ⟨l, e, hlog, hl, fun _ => Or.inr rfl⟩, h.ended, h.afterEnd⟩

lemma keeps_openPort (c : SecureCircuit) (port : ℕ) : Keeps wasReset c (c.openPort port) [] := by
  unfold SecureCircuit.openPort
  split
  · exact keeps_of_eq rfl rfl rfl rfl rfl id
  · exact keeps_sendMessage_quiet c rfl (by simp)

/-- The service node accepts before it binds. -/
lemma keeps_accept (c : SecureCircuit) (hb : c.isBound = false) :
    Keeps wasReset c c.accept [] := by
  unfold SecureCircuit.accept
  split
  · exact keeps_of_eq rfl rfl rfl rfl rfl id
  · have hbound := (sendMessage_spec { c with sentOpened := true } .opened).1.bound
    have hb' : isBound { c with sentOpened := true } = false := hb
    rw [notifyWritable_eq, hbound, hb', if_neg Bool.false_ne_true]
    have hopened : Keeps wasReset c { c with sentOpened := true } [] :=
      keeps_of_eq rfl rfl rfl rfl rfl id
    exact hopened.trans (keeps_sendMessage_quiet _ rfl (by simp))

lemma keeps_write (c : SecureCircuit) (data : Bytes) :
    Keeps wasReset c (c.write data).1 (data.take (c.write data).2) :=
  keeps_writeLoop _ c data

lemma keeps_consumed (c : SecureCircuit) (n : ℕ) : Keeps wasReset c (c.consumed n) [] := by
  unfold SecureCircuit.consumed
  split
  · exact keeps_of_eq rfl rfl rfl rfl rfl id
  dsimp only
  split
  swap
  · exact keeps_of_eq rfl rfl rfl rfl rfl id
  split
  · exact keeps_of_eq rfl rfl rfl rfl rfl id
  · have hgrant : ∀ received, Keeps wasReset c
        { c with consumedUngranted := 0, receivedUngranted := received } [] :=
      fun received => keeps_of_eq rfl rfl rfl rfl rfl id
    exact (hgrant _).trans (keeps_sendMessage_quiet _ rfl (by simp))

lemma keeps_endWriting (c : SecureCircuit) : Keeps wasReset c c.endWriting [] := by
  unfold SecureCircuit.endWriting
  split
  · exact keeps_of_eq rfl rfl rfl rfl rfl id
  · have hfin : Keeps wasReset c { c with sentFin := true } [] :=
      keeps_of_eq rfl rfl rfl rfl rfl fun _ => rfl
    exact (hfin.trans (keeps_sendMessage_quiet _ rfl fun _ => rfl)).trans (keeps_maybeClose _)

lemma keeps_reset (c : SecureCircuit) (code : ℕ) : Keeps true c (c.reset code) [] := by
  unfold SecureCircuit.reset
  split
  · exact keeps_of_eq rfl rfl rfl rfl rfl id
  · exact ((keeps_sendMessage_quiet c rfl (by simp)).trans (keeps_sendSessionClose _)).trans
      (keeps_finish _ true true fun _ => Or.inr rfl)

lemma keeps_abort (c : SecureCircuit) : Keeps wasReset c c.abort [] := by
  unfold SecureCircuit.abort
  split
  · exact keeps_of_eq rfl rfl rfl rfl rfl id
  · exact keeps_finish c true false (by simp)

lemma keeps_bind (c : SecureCircuit) : Keeps wasReset c c.bind [] := by
  have hbound : Keeps wasReset c { c with delivery := .bound c.log } [] :=
    keeps_of_eq rfl rfl rfl rfl rfl id
  unfold SecureCircuit.bind
  dsimp only
  split
  · exact hbound
  · next hd => exact hbound.trans (keeps_notifyWritable _ (by simpa using hd))

lemma keeps_poke (c : SecureCircuit) : Keeps wasReset c c.poke [] := by
  unfold SecureCircuit.poke
  split
  · exact keeps_of_eq rfl rfl rfl rfl rfl id
  · next hd => exact keeps_notifyWritable c (by simpa using hd)

lemma keeps_remoteDestroyed (c : SecureCircuit) : Keeps wasReset c c.remoteDestroyed [] := by
  unfold SecureCircuit.remoteDestroyed
  split
  · exact keeps_of_eq rfl rfl rfl rfl rfl id
  split
  · next hp => exact keeps_finish c false false fun _ => Or.inl hp
  · exact keeps_finish c false false (by simp)

/-! ### What arrives -/

/-- `c'` is `c` after it handled a record that `open` returned: its data was passed on, unless
the circuit ended at it; its end was passed on, if it was one. -/
structure Handles (wasReset : Bool) (c c' : SecureCircuit) (r : OpenedRecord) : Prop where
  shape : Shape wasReset c → Shape wasReset c'
  sender : ∀ accepted, Sender accepted c → Sender accepted c'
  records : c.records <+: c'.records
  log : c.log <+: c'.log
  opened : c'.opened = c.opened
  data : dataIn c'.log = dataIn c.log ++ contentData r ∨
    dataIn c'.log = dataIn c.log ∧ c'.done = true
  fin : c'.peerFin = c.peerFin ∨ IsFin r ∧ c'.peerFin = true ∧ dataIn c'.log = dataIn c.log

lemma Keeps.handles (h : Keeps wasReset c c' []) {r : OpenedRecord}
    (hr : contentData r = [] ∨ c'.done = true) : Handles wasReset c c' r := by
  refine ⟨h.shape, fun a ha => by simpa using h.sender a ha, h.records, h.log, h.opened, ?_,
    Or.inl h.peerFin⟩
  rcases hr with hr | hd
  · exact Or.inl (by rw [hr, List.append_nil, h.data])
  · exact Or.inr ⟨h.data, hd⟩

lemma handles_fail (c : SecureCircuit) (e : SessionError) (r : OpenedRecord) :
    Handles wasReset c (c.fail e) r :=
  (keeps_fail c e).handles (Or.inr (finish_done c _ _ _))

lemma handles_data (hd : c.done = false) (first : Bool) {data : Bytes} {r : OpenedRecord}
    (hr : contentData r = data) : Handles wasReset c (c.handleData first data) r := by
  unfold SecureCircuit.handleData
  split
  · exact handles_fail c _ r
  next hfirst =>
  have hp : c.peerFin = false := by simp_all
  split
  · exact handles_fail c _ r
  refine ⟨fun hs => hs.append_live hd (by simp) (by simp) (Or.inr hp) (log_emit _) hd rfl,
    fun a ha => ha.congr rfl id, List.prefix_rfl, ?_, rfl, Or.inl ?_, Or.inl rfl⟩
  · rw [log_emit]
    exact List.prefix_append _ _
  · rw [log_emit, dataIn_append, dataIn_onData, hr]
    rfl

lemma handles_fin (hd : c.done = false) (first : Bool) {r : OpenedRecord} (hr : IsFin r) :
    Handles wasReset c (c.handleFin first) r := by
  have hnone : contentData r = [] := by
    rw [hr]
    rfl
  unfold SecureCircuit.handleFin
  split
  · exact handles_fail c _ r
  next hfirst =>
  have hp : c.peerFin = false := by simp_all
  have hclose : Keeps wasReset _ _ [] := keeps_maybeClose ({ c with peerFin := true }.emit .onEnd)
  have hdata : dataIn ({ c with peerFin := true }.emit .onEnd).log = dataIn c.log := by
    rw [log_emit, dataIn_append, dataIn_onEnd, List.append_nil]
    rfl
  refine ⟨fun hs => hclose.shape (hs.append_end hd hp (log_emit _) hd rfl),
    fun a ha => ?_, hclose.records, ?_, hclose.opened, Or.inl ?_,
    Or.inr ⟨hr, hclose.peerFin, hclose.data.trans hdata⟩⟩
  rotate_left
  · refine List.IsPrefix.trans ?_ hclose.log
    rw [log_emit]
    exact List.prefix_append _ _
  rotate_left
  · simpa using hclose.sender a (ha.congr rfl id)
  · rw [hnone, List.append_nil, hclose.data, hdata]

lemma handles_message (hd : c.done = false) {plaintext : Bytes} {m : StreamMessage}
    (hm : decodeStreamMessage plaintext = .ok m) :
    Handles wasReset c (c.handleMessage m) (.data plaintext) := by
  have hdata : contentData (.data plaintext) = messageData m := by simp [contentData, hm]
  have hstart : Keeps wasReset c { c with started := true } [] :=
    keeps_of_eq rfl rfl rfl rfl rfl id
  have hkeep : ∀ {c' : SecureCircuit}, messageData m = [] →
      Keeps wasReset { c with started := true } c' [] →
      Handles wasReset c c' (.data plaintext) :=
    fun hnone h => (hstart.trans h).handles (Or.inl (hdata.trans hnone))
  cases m with
  | opening port =>
    unfold SecureCircuit.handleMessage
    dsimp only
    split
    · exact hkeep rfl (keeps_fail _ _)
    · exact hkeep rfl (keeps_of_eq rfl rfl rfl rfl rfl id)
  | opened =>
    unfold SecureCircuit.handleMessage
    dsimp only
    split
    · exact hkeep rfl (keeps_fail _ _)
    · have hhook : Keeps wasReset { c with started := true }
          { c with started := true, hooks := c.hooks ++ [.onOpened] } [] :=
        keeps_of_eq rfl rfl rfl rfl rfl id
      exact hkeep rfl (hhook.trans (keeps_notifyWritable _ (by exact hd)))
  | reset code => exact hkeep rfl (keeps_finish _ true false (by simp))
  | window credit =>
    unfold SecureCircuit.handleMessage SecureCircuit.handleWindow
    dsimp only
    split
    · exact hkeep rfl (keeps_fail _ _)
    split
    · next hcredit =>
      have hgrant : Keeps wasReset { c with started := true }
          { c with started := true, sendWindow := c.sendWindow.grant ⟨credit, hcredit⟩ } [] :=
        keeps_of_eq rfl rfl rfl rfl rfl id
      exact hkeep rfl (hgrant.trans (keeps_notifyWritable _ (by exact hd)))
    · exact hkeep rfl (keeps_of_eq rfl rfl rfl rfl rfl id)
  | data data =>
    obtain ⟨hs, ha, hr, hl, ho, hdt, hf⟩ : Handles wasReset { c with started := true } _ _ :=
      handles_data (c := { c with started := true }) hd (!c.started) hdata
    exact ⟨fun h => hs (hstart.shape h), fun a h => ha a (by simpa using hstart.sender a h), hr,
      hl, ho, hdt, hf⟩
  | fin =>
    obtain ⟨hs, ha, hr, hl, ho, hdt, hf⟩ : Handles wasReset { c with started := true } _ _ :=
      handles_fin (c := { c with started := true }) hd (!c.started) (isFin_of_decode hm)
    exact ⟨fun h => hs (hstart.shape h), fun a h => ha a (by simpa using hstart.sender a h), hr,
      hl, ho, hdt, hf⟩

/-- Whatever record `open` returned, it is handled as its data and its end require. -/
lemma handles_record (hd : c.done = false) (r : OpenedRecord) :
    Handles wasReset c (c.handleRecord r) r := by
  unfold SecureCircuit.handleRecord
  cases r with
  | keyUpdate => exact (keeps_of_eq rfl rfl rfl rfl rfl id).handles (Or.inl rfl)
  | close =>
    have hclose : Keeps wasReset c { c with peerClose := true } [] :=
      keeps_of_eq rfl rfl rfl rfl rfl id
    dsimp only
    split
    · exact (hclose.trans (keeps_fail _ _)).handles (Or.inl rfl)
    · next hp =>
      exact (hclose.trans (keeps_maybeComplete _ (by simpa using hp))).handles (Or.inl rfl)
  | data plaintext =>
    dsimp only
    cases hm : decodeStreamMessage plaintext with
    | error e => exact handles_fail c _ _
    | ok m => exact handles_message hd hm

/-- A frame `open` refuses, or one that is not even a data frame, passes nothing on. -/
lemma keeps_garbled (c : SecureCircuit) (a : Arrival) (error : SessionError) :
    Keeps wasReset c (c.receive { a with payload := .error error }) [] := by
  unfold SecureCircuit.receive
  split
  · exact keeps_of_eq rfl rfl rfl rfl rfl id
  split
  · exact keeps_remoteDestroyed c
  split
  · exact keeps_fail c _
  have hsession : ∀ session, Keeps wasReset c { c with session } [] :=
    fun session => keeps_of_eq rfl rfl rfl rfl rfl id
  rcases hr : c.session.receive (.error error) with ⟨session, e | r⟩
  · exact (hsession session).trans (keeps_fail _ _)
  · exfalso
    unfold Channel.receive at hr
    split at hr
    · simp at hr
    split at hr <;> simp at hr

/-- What `receive` does with the peer's next record. -/
lemma receive_next (c : SecureCircuit) (r : OpenedRecord) :
    Keeps wasReset c (c.receive { payload := .ok r }) [] ∨
    ∃ session, c.done = false ∧ c.receive { payload := .ok r } =
      { c with session, opened := c.opened + 1 }.handleRecord r := by
  unfold SecureCircuit.receive
  by_cases hd : c.done = true
  · rw [if_pos hd]
    exact Or.inl (keeps_of_eq rfl rfl rfl rfl rfl id)
  rw [if_neg hd, if_neg (by simp), if_neg (by simp)]
  rcases hr : c.session.receive (.ok r) with ⟨session, e | r'⟩
  · have hsession : Keeps wasReset c { c with session } [] :=
      keeps_of_eq rfl rfl rfl rfl rfl id
    exact Or.inl (hsession.trans (keeps_fail _ _))
  · obtain rfl : r' = r := by
      unfold Channel.receive at hr
      split at hr
      · simp at hr
      split at hr
      · simp at hr
      · simp only [Prod.mk.injEq, Except.ok.injEq] at hr
        exact hr.2.symm
    exact Or.inr ⟨session, by simpa using hd, rfl⟩

/-! ### The two ends -/

structure World where
  circuit : Role → SecureCircuit
  /-- The bytes `write` has taken. -/
  accepted : Role → Bytes
  /-- Whether `reset` was called. -/
  wasReset : Role → Bool

inductive Call
  | openPort (port : ℕ)
  | accept
  | write (data : Bytes)
  | consumed (n : ℕ)
  | endWriting
  | reset (code : ℕ)
  | abort
  | bind
  | poke
  | deliver
  | garbled (a : Arrival) (error : SessionError)
  | remoteDestroyed

/-- A call at one end, and what the connection answers during it. -/
structure Step where
  side : Role
  link : Link
  call : Call

/-- The peer's next record arrives, if it was sealed and its frame was taken. -/
def deliver (c peer : SecureCircuit) : SecureCircuit :=
  match peer.records[c.opened]? with
  | some ⟨content, true⟩ => c.receive { payload := .ok content }
  | _ => c

def step (w : World) (s : Step) : World :=
  let c := { w.circuit s.side with link := s.link }
  let put (c' : SecureCircuit) : World := { w with circuit := Function.update w.circuit s.side c' }
  match s.call with
  | .openPort port => put (c.openPort port)
  | .accept => if c.isBound then w else put c.accept -- the service node binds after it
  | .write data =>
    let (c', taken) := c.write data
    { put c' with
      accepted := Function.update w.accepted s.side (w.accepted s.side ++ data.take taken) }
  | .consumed n => put (c.consumed n)
  | .endWriting => put c.endWriting
  | .reset code =>
    { put (c.reset code) with wasReset := Function.update w.wasReset s.side true }
  | .abort => put c.abort
  | .bind => put c.bind
  | .poke => put c.poke
  | .deliver => put (deliver c (w.circuit s.side.other))
  | .garbled a error => put (c.receive { a with payload := .error error })
  | .remoteDestroyed => put c.remoteDestroyed

def start (limits : Role → ResolvedLimits) : World where
  circuit r := { role := r, session := { limits := limits r } }
  accepted _ := []
  wasReset _ := false

/-- The calls made of `onData`, `onEnd`, `onWritable` and `onClose`. -/
def passed (c : SecureCircuit) : List Event := if c.isBound then c.log else []

/-- What one end has passed on is what it opened of the peer's records. -/
structure Follows (c peer : SecureCircuit) : Prop where
  le : c.opened ≤ peer.records.length
  handed : ∀ x ∈ peer.records.take c.opened, x.handed = true
  data : dataIn c.log <+: recordData (peer.records.take c.opened)
  live : c.done = false → dataIn c.log = recordData (peer.records.take c.opened)
  fin : c.peerFin = true → dataIn c.log = recordData (peer.records.take c.opened) ∧
    ∃ x ∈ peer.records.take c.opened, IsFin x.content

structure Inv (w : World) : Prop where
  shape : ∀ s, Shape (w.wasReset s) (w.circuit s)
  sender : ∀ s, Sender (w.accepted s) (w.circuit s)
  follows : ∀ s, Follows (w.circuit s) (w.circuit s.other)

lemma Follows.peer {c peer peer' : SecureCircuit} (h : Follows c peer)
    (hrecords : peer.records <+: peer'.records) : Follows c peer' := by
  obtain ⟨more, hmore⟩ := hrecords
  have htake : peer'.records.take c.opened = peer.records.take c.opened := by
    rw [← hmore, List.take_append_of_le_length h.le]
  refine ⟨?_, ?_, ?_, ?_, ?_⟩
  · rw [← hmore, List.length_append]
    exact h.le.trans (Nat.le_add_right _ _)
  all_goals rw [htake]
  · exact h.handed
  · exact h.data
  · exact h.live
  · exact h.fin

lemma Keeps.follows {c c' peer : SecureCircuit} {gain : Bytes} (hk : Keeps wasReset c c' gain)
    (h : Follows c peer) : Follows c' peer := by
  refine ⟨?_, ?_, ?_, ?_, ?_⟩
  · rw [hk.opened]
    exact h.le
  all_goals rw [hk.opened]
  · exact h.handed
  · rw [hk.data]
    exact h.data
  · rw [hk.data]
    exact fun hd => h.live (hk.alive hd)
  · rw [hk.data, hk.peerFin]
    exact h.fin

/-- Once a FIN was opened, no record behind it carries data. -/
lemma no_data_after_fin {peer : SecureCircuit} {accepted : Bytes} (hpeer : Sender accepted peer)
    {n : ℕ} {x : Sealed} (hx : x ∈ peer.records.take n) (hfin : IsFin x.content) :
    recordData (peer.records.drop n) = [] := by
  obtain ⟨a, b, hab⟩ := List.append_of_mem hx
  have hsplit : peer.records = a ++ x :: (b ++ peer.records.drop n) := by
    rw [← List.cons_append, ← List.append_assoc, ← hab, List.take_append_drop]
  have hnone := (hpeer.fin _ _ _ hsplit hfin).1
  rw [recordData_append] at hnone
  exact (List.append_eq_nil_iff.mp hnone).2

/-- The next record arrives: one more of the peer's records is passed on, or the circuit ends. -/
lemma Handles.follows {c c₁ c' peer : SecureCircuit} {accepted : Bytes} (x : Sealed)
    (hh : Handles wasReset c₁ c' x.content) (hpeer : Sender accepted peer) (hd : c.done = false)
    (h : Follows c peer) (hnext : peer.records[c.opened]? = some x) (hhanded : x.handed = true)
    (hsame : c₁.log = c.log ∧ c₁.peerFin = c.peerFin) (hopened : c₁.opened = c.opened + 1) :
    Follows c' peer := by
  have hlt : c.opened < peer.records.length := (List.getElem?_eq_some_iff.mp hnext).1
  have htake : peer.records.take (c.opened + 1) = peer.records.take c.opened ++ [x] := by
    rw [List.take_add_one, hnext]
    rfl
  have hlive := h.live hd
  have hdata := hh.data
  have hfin := hh.fin
  rw [hsame.1] at hdata hfin
  rw [hsame.2] at hfin
  have hnew : recordData (peer.records.take (c.opened + 1)) =
      dataIn c.log ++ contentData x.content := by
    rw [htake, recordData_append, recordData_singleton, hlive]
  -- a FIN that was passed on before leaves this record no data to carry
  have hquiet : c.peerFin = true → contentData x.content = [] := by
    intro hp
    obtain ⟨-, y, hy, hyfin⟩ := h.fin hp
    have hnone := no_data_after_fin hpeer hy hyfin
    rw [List.drop_eq_getElem_cons hlt] at hnone
    have hx : peer.records[c.opened] = x := (List.getElem?_eq_some_iff.mp hnext).2
    rw [hx] at hnone
    simp only [recordData, List.flatMap_cons, List.append_eq_nil_iff] at hnone
    exact hnone.1
  refine ⟨by rw [hh.opened, hopened]; omega, ?_, ?_, ?_, ?_⟩
  all_goals rw [hh.opened, hopened]
  · intro y hy
    rw [htake, List.mem_append, List.mem_singleton] at hy
    rcases hy with hy | rfl
    · exact h.handed y hy
    · exact hhanded
  · rw [hnew]
    rcases hdata with hdata | ⟨hdata, -⟩
    · exact hdata ▸ List.prefix_rfl
    · rw [hdata]
      exact List.prefix_append _ _
  · intro hd'
    rcases hdata with hdata | ⟨-, hdone⟩
    · rw [hnew, hdata]
    · simp [hdone] at hd'
  · intro hp
    rw [hnew, htake]
    rcases hfin with hfin | ⟨hx, -, hfin⟩
    · obtain ⟨-, y, hy, hyfin⟩ := h.fin (hfin ▸ hp)
      refine ⟨?_, y, by simp [hy], hyfin⟩
      rcases hdata with hdata | ⟨hdata, -⟩
      · exact hdata
      · rw [hdata, hquiet (hfin ▸ hp), List.append_nil]
    · refine ⟨?_, x, by simp, hx⟩
      rw [hfin, hx]
      exact (List.append_nil _).symm

/-- One end moves on: its own invariants, and that the other end still follows its records. -/
lemma inv_put {w : World} (hw : Inv w) {s : Role} {c' : SecureCircuit} {accepted : Bytes}
    {reset : Bool} (hshape : Shape reset c') (hsender : Sender accepted c')
    (hfollows : Follows c' (w.circuit s.other)) (hrecords : (w.circuit s).records <+: c'.records) :
    Inv ⟨Function.update w.circuit s c', Function.update w.accepted s accepted,
      Function.update w.wasReset s reset⟩ := by
  refine ⟨fun r => ?_, fun r => ?_, fun r => ?_⟩
  · rcases eq_or_ne r s with rfl | hne
    · simpa using hshape
    · simpa [hne] using hw.shape r
  · rcases eq_or_ne r s with rfl | hne
    · simpa using hsender
    · simpa [hne] using hw.sender r
  · rcases eq_or_ne r s with rfl | hne
    · simpa [Role.other_ne] using hfollows
    · obtain rfl : r.other = s := by cases r <;> cases s <;> simp_all [Role.other]
      simpa [hne] using (hw.follows r).peer (by simpa using hrecords)

/-- The peer's next record arrives at `c`, which becomes `c'`. -/
def Delivers (wasReset : Bool) (c c' peer : SecureCircuit) : Prop :=
  ∃ session content, c.done = false ∧ peer.records[c.opened]? = some ⟨content, true⟩ ∧
    Handles wasReset { c with session, opened := c.opened + 1 } c' content

lemma deliver_cases (wasReset : Bool) (c peer : SecureCircuit) :
    Keeps wasReset c (deliver c peer) [] ∨ Delivers wasReset c (deliver c peer) peer := by
  unfold deliver
  split
  swap
  · exact Or.inl (keeps_of_eq rfl rfl rfl rfl rfl id)
  next content hnext =>
  rcases receive_next c content with hk | ⟨session, hd, heq⟩
  · exact Or.inl hk
  · rw [heq]
    exact Or.inr ⟨session, content, hd, hnext,
      handles_record (c := { c with session, opened := c.opened + 1 }) hd content⟩

/-- **What one step does**: one end keeps what it passed on and gains bytes to send, or the
peer's next record arrives at it. -/
theorem step_cases (w : World) (x : Step) : ∃ c' gain reset,
    step w x = ⟨Function.update w.circuit x.side c',
      Function.update w.accepted x.side (w.accepted x.side ++ gain),
      Function.update w.wasReset x.side reset⟩ ∧
    (w.wasReset x.side = true → reset = true) ∧
    (Keeps reset { w.circuit x.side with link := x.link } c' gain ∨
      gain = [] ∧ reset = w.wasReset x.side ∧
        Delivers reset { w.circuit x.side with link := x.link } c' (w.circuit x.side.other)) := by
  have hsame : ∀ c', Keeps (w.wasReset x.side) { w.circuit x.side with link := x.link } c' [] →
      ∃ c'' gain reset, { w with circuit := Function.update w.circuit x.side c' } =
        (⟨Function.update w.circuit x.side c'',
          Function.update w.accepted x.side (w.accepted x.side ++ gain),
          Function.update w.wasReset x.side reset⟩ : World) ∧
        (w.wasReset x.side = true → reset = true) ∧
        (Keeps reset { w.circuit x.side with link := x.link } c'' gain ∨
          gain = [] ∧ reset = w.wasReset x.side ∧
            Delivers reset { w.circuit x.side with link := x.link } c''
              (w.circuit x.side.other)) :=
    fun c' hk => ⟨c', [], w.wasReset x.side, by simp, id, Or.inl hk⟩
  unfold step
  dsimp only
  cases x.call with
  | openPort port => exact hsame _ (keeps_openPort _ port)
  | accept =>
    dsimp only
    split
    · exact ⟨w.circuit x.side, [], w.wasReset x.side, by simp, id,
        Or.inl (keeps_of_eq rfl rfl rfl rfl rfl id)⟩
    · next hb => exact hsame _ (keeps_accept _ (by simpa using hb))
  | write data => exact ⟨_, _, w.wasReset x.side, by simp, id, Or.inl (keeps_write _ data)⟩
  | consumed n => exact hsame _ (keeps_consumed _ n)
  | endWriting => exact hsame _ (keeps_endWriting _)
  | reset code => exact ⟨_, [], true, by simp, fun _ => rfl, Or.inl (keeps_reset _ code)⟩
  | abort => exact hsame _ (keeps_abort _)
  | bind => exact hsame _ (keeps_bind _)
  | poke => exact hsame _ (keeps_poke _)
  | deliver =>
    rcases deliver_cases (w.wasReset x.side) { w.circuit x.side with link := x.link }
      (w.circuit x.side.other) with hk | hd
    · exact hsame _ hk
    · exact ⟨_, [], w.wasReset x.side, by simp, id, Or.inr ⟨rfl, rfl, hd⟩⟩
  | garbled a error => exact hsame _ (keeps_garbled _ a error)
  | remoteDestroyed => exact hsame _ (keeps_remoteDestroyed _)

lemma inv_step (w : World) (x : Step) (hw : Inv w) : Inv (step w x) := by
  obtain ⟨c', gain, reset, hstep, hreset, hcase⟩ := step_cases w x
  rw [hstep]
  have hlink : Keeps reset (w.circuit x.side) { w.circuit x.side with link := x.link } [] :=
    keeps_of_eq rfl rfl rfl rfl rfl id
  have hshape : Shape reset (w.circuit x.side) := by
    cases hr : w.wasReset x.side with
    | true => exact hreset hr ▸ hr ▸ hw.shape x.side
    | false =>
      cases reset with
      | true => exact (hw.shape x.side).reset
      | false => exact hr ▸ hw.shape x.side
  rcases hcase with hk | ⟨rfl, rfl, session, content, hd, hnext, hh⟩
  · have hall := hlink.trans hk
    exact inv_put hw (hall.shape hshape) (by simpa using hall.sender _ (hw.sender x.side))
      (hall.follows (hw.follows x.side)) hall.records
  · rw [List.append_nil]
    exact inv_put hw (hh.shape ((hw.shape x.side).congr rfl rfl rfl))
      (hh.sender _ ((hw.sender x.side).congr rfl id))
      (Handles.follows ⟨content, true⟩ hh (hw.sender x.side.other) hd
        (hlink.follows (hw.follows x.side)) hnext rfl ⟨rfl, rfl⟩ rfl) hh.records

lemma inv_start (limits : Role → ResolvedLimits) : Inv (start limits) := by
  refine ⟨fun s => ⟨?_, ?_, ?_, ?_⟩, fun s => ⟨rfl, ?_⟩, fun s => ⟨le_rfl, ?_, ?_, ?_, ?_⟩⟩ <;>
    simp [start, SecureCircuit.log]

/-! ### The promise -/

/-- A chunk that arrives before `bind` is passed on by it, and a cut right after is no end. -/
example :
    let limits : ResolvedLimits := ⟨4, 2, by decide, by decide, by decide, by decide⟩
    let w := run step (start fun _ => limits)
      [⟨.client, {}, .openPort 80⟩, ⟨.service, {}, .deliver⟩, ⟨.service, {}, .accept⟩,
        ⟨.client, {}, .deliver⟩, ⟨.client, {}, .bind⟩, ⟨.client, {}, .write [1, 2, 3]⟩,
        ⟨.client, {}, .endWriting⟩, ⟨.service, {}, .deliver⟩, ⟨.service, {}, .bind⟩,
        ⟨.service, {}, .remoteDestroyed⟩]
    passed (w.circuit .service) = [.onData [1, 2, 3], .onWritable,
      .onClose (some ⟨"circuit ended before the peer finished", .TRUNCATED⟩)] := by
  decide

end Tnp.Client.StreamIntegrity
