import Tnp.Protocol.FlowControl
import Tnp.Protocol.SessionChannel
import Tnp.Protocol.StreamMessage

/-!
One end of an end-to-end circuit: the stream messages inside the session, flow control and the
ways to close.

The session is the channel it is to its user, and the connection to the relay is the answers it
gives to `send` and `congested`. A call is one step: the callbacks it makes are recorded, in
order, where `bind` or the backlog would have them.
-/

namespace Tnp.Client.Circuit

open Tnp.Lib Tnp.Protocol Tnp.Protocol.Session Tnp.Protocol.SessionChannel

def GRANT_THRESHOLD : ℕ := STREAM_WINDOW_INITIAL / 4

inductive Role
  | client
  | service
  deriving DecidableEq

def Role.other : Role → Role
  | client => service
  | service => client

@[simp] lemma Role.other_other (r : Role) : r.other.other = r := by cases r <;> rfl

lemma Role.other_ne (s : Role) : s.other ≠ s := by cases s <;> decide

/-- A call of `SecureCircuitEvents`. -/
inductive Event
  | onData (data : Bytes)
  | onEnd
  | onWritable
  | onClose (error : Option SessionError)
  deriving DecidableEq

/-- A call of `SecureCircuitHooks`. -/
inductive Hook
  | onOpen (port : ℕ)
  | onOpened
  | onDone (error : Option SessionError)
  deriving DecidableEq

/-- `events` and `backlog`: what is held until `bind`, or the calls made since. -/
inductive Delivery
  | held (backlog : List Event)
  | bound (calls : List Event)
  deriving DecidableEq

/-- What the connection answers to the next calls of `send` and of `congested`; past the end of
the lists it takes everything. -/
structure Link where
  sends : List Bool := []
  congested : List Bool := []

/-- A record that was sealed, and whether the connection took its frame. -/
structure Sealed where
  content : OpenedRecord
  handed : Bool
  deriving DecidableEq

structure SecureCircuit where
  role : Role
  session : Channel
  link : Link := {}
  sendWindow : FlowWindow := .full STREAM_WINDOW_INITIAL stream_window_pos stream_window_le
  receivedUngranted : ℕ := 0
  consumedUngranted : ℕ := 0
  started : Bool := false
  sentOpened : Bool := false
  sentFin : Bool := false
  peerFin : Bool := false
  sentClose : Bool := false
  peerClose : Bool := false
  done : Bool := false
  delivery : Delivery := .held []
  hooks : List Hook := []
  /-- The records sealed so far. -/
  records : List Sealed := []
  /-- The CIRCUIT_DESTROY frames sent so far. -/
  destroys : ℕ := 0
  /-- How many records of the peer `open` has returned. -/
  opened : ℕ := 0

/-- What arrives in a frame: the peer's next record, or anything else with the error `open`
throws for it. -/
structure Arrival where
  type : FrameType := .STREAM_DATA
  flags : ℕ := 0
  streamId : ℕ := E2E_STREAM_ID
  payload : Except SessionError OpenedRecord

namespace SecureCircuit

variable (c : SecureCircuit)

/-- Everything that was passed on or is held to be. -/
def log : List Event :=
  match c.delivery with
  | .held backlog => backlog
  | .bound calls => calls

def isBound : Bool :=
  match c.delivery with
  | .held _ => false
  | .bound _ => true

/-- Call the bound events, or push to the backlog. -/
def emit (e : Event) : SecureCircuit :=
  { c with
    delivery := match c.delivery with
      | .held backlog => .held (backlog ++ [e])
      | .bound calls => .bound (calls ++ [e]) }

/-- `events?.onWritable()`. -/
def notifyWritable : SecureCircuit :=
  match c.delivery with
  | .held _ => c
  | .bound calls => { c with delivery := .bound (calls ++ [.onWritable]) }

/-- `link.send`. -/
def linkSend : Bool × SecureCircuit :=
  (c.link.sends.headD true, { c with link := { c.link with sends := c.link.sends.tail } })

/-- `link.congested`. -/
def linkCongested : Bool × SecureCircuit :=
  (c.link.congested.headD false,
    { c with link := { c.link with congested := c.link.congested.tail } })

def finish (error : Option SessionError) (notifyRelay : Bool) (force : Bool := false) :
    SecureCircuit :=
  if c.done then c
  else
    let c := { c with done := true }
    let c := if notifyRelay && (c.role = .client || force) then
        { c.linkSend.2 with destroys := c.destroys + 1 }
      else c
    let c := c.emit (.onClose error)
    { c with hooks := c.hooks ++ [.onDone error] }

def fail (error : SessionError) : SecureCircuit := c.finish (some error) true true

def violation : SecureCircuit :=
  c.fail ⟨"stream message out of order", .PROTOCOL_VIOLATION⟩

def sendRecord (r : OpenedRecord) : Bool × SecureCircuit :=
  let (ok, c) := c.linkSend
  let c := { c with records := c.records ++ [⟨r, ok⟩] }
  if ok then (true, c)
  else (false, c.finish (some ⟨"connection to the relay lost", .TRUNCATED⟩) false)

/-- Seal a record and send it; what the session throws is thrown. -/
def sealRecord (r : OpenedRecord) : SecureCircuit × Except Thrown Bool :=
  match c.session.send r with
  | .error e => (c, .error e)
  | .ok session =>
    let (ok, c) := { c with session }.sendRecord r
    (c, .ok ok)

/-- `session.seal(encodeStreamMessage(message))`, sent. -/
def sealMessage (m : StreamMessage) : SecureCircuit × Except Thrown Bool :=
  match encodeStreamMessage m with
  | .error e => (c, .error (.range e.message))
  | .ok plaintext => c.sealRecord (.data plaintext)

/-- The inner `try` of `sendMessage`: where the session asks for a new key, the message is
sealed again under it. -/
def sealWithRekey (m : StreamMessage) : SecureCircuit × Except Thrown Bool :=
  match c.sealMessage m with
  | (c, .error .rekeyRequired) =>
    match c.sealRecord .keyUpdate with
    | (c, .error e) => (c, .error e)
    | (c, .ok _) => c.sealMessage m
  | result => result

/-- The outer `try` of `sendMessage`. -/
def trySend (m : StreamMessage) : SecureCircuit × Except Thrown Bool :=
  match if c.session.needsKeyUpdate then c.sealRecord .keyUpdate else (c, .ok true) with
  | (c, .error e) => (c, .error e)
  | (c, .ok _) => c.sealWithRekey m

/-- The error a circuit ends with when `err` was thrown. -/
def toSessionError (err : Thrown) (message : String) : SessionError :=
  match err with
  | .session e => e
  | _ => ⟨message, .PROTOCOL_VIOLATION⟩

def sendMessage (m : StreamMessage) : Bool × SecureCircuit :=
  if c.done || c.sentClose then (false, c)
  else
    match c.trySend m with
    | (c, .ok ok) => (ok, c)
    | (c, .error err) => (false, c.fail (toSessionError err "send failed"))

def sendSessionClose : SecureCircuit :=
  if c.sentClose || c.done then c
  else { (c.sealRecord .close).1 with sentClose := true }

def maybeComplete : SecureCircuit :=
  if c.sentClose && c.peerClose then c.finish none true else c

def maybeClose : SecureCircuit :=
  if c.sentFin && c.peerFin && !c.sentClose then c.sendSessionClose.maybeComplete else c

/-! ### The calls of the owner -/

def bind : SecureCircuit :=
  let c := { c with delivery := .bound c.log }
  if c.done then c else c.notifyWritable

def poke : SecureCircuit := if c.done then c else c.notifyWritable

def writable : ℕ × SecureCircuit :=
  if c.done || c.sentFin then (0, c)
  else
    let (congested, c) := c.linkCongested
    if congested then (0, c)
    else if c.role = .service && !c.sentOpened then (0, c)
    else (min c.sendWindow.remaining MAX_STREAM_DATA, c)

/-- `open`: only the client opens, any other call of it throws. -/
def openPort (port : ℕ) : SecureCircuit :=
  if c.role ≠ .client then c else (c.sendMessage (.opening port)).2

def accept : SecureCircuit :=
  if c.role ≠ .service || c.sentOpened then c
  else ({ c with sentOpened := true }.sendMessage .opened).2.notifyWritable

/-- The loop of `write`: the bytes still to write, and how many were taken. Each round takes a
byte, so their number is fuel enough. -/
def writeLoop : ℕ → SecureCircuit → Bytes → SecureCircuit × ℕ
  | 0, c, _ => (c, 0)
  | fuel + 1, c, data =>
    if data.length = 0 then (c, 0)
    else
      let (room, c) := c.writable
      if room = 0 then (c, 0)
      else
        let n := min room data.length
        if h : n ≤ MAX_WINDOW_CREDIT then
          match c.sendWindow.consume ⟨n, h⟩ with
          | none => (c, 0)
          | some sendWindow =>
            match { c with sendWindow }.sendMessage (.data (data.take n)) with
            | (false, c) => (c, 0)
            | (true, c) =>
              let (c, taken) := writeLoop fuel c (data.drop n)
              (c, n + taken)
        else (c, 0)

def write (data : Bytes) : SecureCircuit × ℕ := writeLoop data.length c data

def consumed (n : ℕ) : SecureCircuit :=
  if c.done || c.peerFin || c.sentClose then c
  else
    let c := { c with consumedUngranted := c.consumedUngranted + n }
    if GRANT_THRESHOLD ≤ c.consumedUngranted then
      let credit := min c.consumedUngranted c.receivedUngranted
      let c := { c with consumedUngranted := 0 }
      if credit = 0 then c
      else
        ({ c with receivedUngranted := c.receivedUngranted - credit }.sendMessage
          (.window credit)).2
    else c

/-- `end`. -/
def endWriting : SecureCircuit :=
  if c.done || c.sentFin then c
  else ({ c with sentFin := true }.sendMessage .fin).2.maybeClose

def reset (code : ℕ) : SecureCircuit :=
  if c.done then c
  else (c.sendMessage (.reset code)).2.sendSessionClose.finish none true true

def abort : SecureCircuit :=
  if c.done then c else c.finish (some ⟨"circuit aborted locally", .TRUNCATED⟩) true

/-! ### What arrives -/

def remoteDestroyed : SecureCircuit :=
  if c.done then c
  else if c.peerFin then c.finish none false
  else c.finish (some ⟨"circuit ended before the peer finished", .TRUNCATED⟩) false

def handleData (first : Bool) (data : Bytes) : SecureCircuit :=
  if first || c.peerFin then c.violation
  else if STREAM_WINDOW_INITIAL < c.receivedUngranted + data.length then
    c.fail ⟨"peer exceeded its flow-control window", .FLOW_CONTROL⟩
  else { c with receivedUngranted := c.receivedUngranted + data.length }.emit (.onData data)

def handleFin (first : Bool) : SecureCircuit :=
  if first || c.peerFin then c.violation
  else ({ c with peerFin := true }.emit .onEnd).maybeClose

def handleWindow (first : Bool) (credit : ℕ) : SecureCircuit :=
  if first && c.role = .service then c.violation
  else if h : credit ≤ MAX_WINDOW_CREDIT then
    { c with sendWindow := c.sendWindow.grant ⟨credit, h⟩ }.notifyWritable
  else c

def handleMessage (m : StreamMessage) : SecureCircuit :=
  let first := !c.started
  let c := { c with started := true }
  match m with
  | .opening port =>
    if c.role ≠ .service || !first then c.violation
    else { c with hooks := c.hooks ++ [.onOpen port] }
  | .opened =>
    if c.role ≠ .client || !first then c.violation
    else notifyWritable { c with hooks := c.hooks ++ [.onOpened] }
  | .reset code => c.finish (some ⟨"peer reset the stream", .ofValue code⟩) true
  | .window credit => c.handleWindow first credit
  | .data data => c.handleData first data
  | .fin => c.handleFin first

/-- A record that `open` returned. -/
def handleRecord (r : OpenedRecord) : SecureCircuit :=
  match r with
  | .keyUpdate => c
  | .close =>
    let c := { c with peerClose := true }
    if !c.peerFin then c.fail ⟨"peer closed without finishing its data", .TRUNCATED⟩
    else c.maybeComplete
  | .data plaintext =>
    match decodeStreamMessage plaintext with
    | .error e => c.fail ⟨"malformed stream message", e.code⟩
    | .ok m => c.handleMessage m

/-- `receive`. -/
def receive (a : Arrival) : SecureCircuit :=
  if c.done then c
  else if a.type = .CIRCUIT_DESTROY then c.remoteDestroyed
  else if a.type ≠ .STREAM_DATA || a.streamId ≠ E2E_STREAM_ID || a.flags ≠ 0 then
    c.fail ⟨"unexpected frame on an open circuit", .PROTOCOL_VIOLATION⟩
  else
    match c.session.receive a.payload with
    | (session, .error err) => { c with session }.fail (toSessionError err "record refused")
    | (session, .ok r) => { c with session, opened := c.opened + 1 }.handleRecord r

/-! ### What sending may change -/

variable {c}

@[simp] lemma log_emit (e : Event) : (c.emit e).log = c.log ++ [e] := by
  unfold emit log
  cases c.delivery <;> rfl

@[simp] lemma isBound_emit (e : Event) : (c.emit e).isBound = c.isBound := by
  unfold emit isBound
  cases c.delivery <;> rfl

lemma notifyWritable_eq : c.notifyWritable = if c.isBound then c.emit .onWritable else c := by
  unfold notifyWritable emit isBound
  cases c.delivery <;> rfl

/-- `c'` is `c` after calls that only send: what was received is untouched, records are added
at the end, and the circuit may have ended with an error. -/
structure Sends (c c' : SecureCircuit) : Prop where
  same : c' = { c with
    session := c'.session, link := c'.link, delivery := c'.delivery, hooks := c'.hooks
    records := c'.records, destroys := c'.destroys, sentClose := c'.sentClose, done := c'.done }
  bound : c'.isBound = c.isBound
  records : c.records <+: c'.records
  ended : c'.done = c.done ∧ c'.log = c.log ∨
    c.done = false ∧ c'.done = true ∧ ∃ e, c'.log = c.log ++ [.onClose (some e)]

namespace Sends

variable {c c' c'' : SecureCircuit}

lemma rfl : Sends c c := ⟨Eq.refl _, Eq.refl _, List.prefix_rfl, Or.inl ⟨Eq.refl _, Eq.refl _⟩⟩

lemma trans (h : Sends c c') (h' : Sends c' c'') : Sends c c'' := by
  refine ⟨?_, h'.bound.trans h.bound, h.records.trans h'.records, ?_⟩
  · have e := h.same
    have e' := h'.same
    rw [e] at e'
    exact e'
  · rcases h.ended with ⟨hd, hl⟩ | ⟨hd, hd', e, hl⟩
    · rcases h'.ended with ⟨hd₂, hl₂⟩ | ⟨hd₂, hd₂', e, hl₂⟩
      · exact Or.inl ⟨hd₂.trans hd, hl₂.trans hl⟩
      · exact Or.inr ⟨hd ▸ hd₂, hd₂', e, by rw [hl₂, hl]⟩
    · rcases h'.ended with ⟨hd₂, hl₂⟩ | ⟨hd₂, -⟩
      · exact Or.inr ⟨hd, hd₂.trans hd', e, by rw [hl₂, hl]⟩
      · exact absurd hd' (by simp [hd₂])

lemma peerFin (h : Sends c c') : c'.peerFin = c.peerFin := by rw [h.same]
lemma sentFin (h : Sends c c') : c'.sentFin = c.sentFin := by rw [h.same]
lemma opened (h : Sends c c') : c'.opened = c.opened := by rw [h.same]
lemma role (h : Sends c c') : c'.role = c.role := by rw [h.same]

/-- A circuit that is still going was going before, and nothing was passed on. -/
lemma alive (h : Sends c c') (hd : c'.done = false) : c.done = false ∧ c'.log = c.log := by
  rcases h.ended with ⟨hd', hl⟩ | ⟨-, hd', -⟩
  · exact ⟨hd' ▸ hd, hl⟩
  · simp [hd] at hd'

end Sends

lemma finish_of_done (hd : c.done = true) (error : Option SessionError) (notify force : Bool) :
    c.finish error notify force = c := by
  simp [finish, hd]

/-- Finishing closes the log, and changes nothing of what was received or sealed. -/
lemma finish_spec (hd : c.done = false) (error : Option SessionError) (notify force : Bool) :
    (c.finish error notify force).done = true ∧
    (c.finish error notify force).log = c.log ++ [.onClose error] ∧
    (c.finish error notify force).isBound = c.isBound ∧
    (c.finish error notify force).records = c.records ∧
    c.finish error notify force = { c with
      link := (c.finish error notify force).link
      delivery := (c.finish error notify force).delivery
      hooks := (c.finish error notify force).hooks
      destroys := (c.finish error notify force).destroys
      done := true } := by
  unfold finish
  rw [if_neg (by simp [hd])]
  dsimp only
  split
  · refine ⟨rfl, ?_, ?_, rfl, rfl⟩
    · exact log_emit _
    · exact isBound_emit _
  · refine ⟨rfl, ?_, ?_, rfl, rfl⟩
    · exact log_emit _
    · exact isBound_emit _

lemma finish_done (c : SecureCircuit) (error : Option SessionError) (notify force : Bool) :
    (c.finish error notify force).done = true := by
  by_cases hd : c.done = true
  · rwa [finish_of_done hd]
  · exact (finish_spec (by simpa using hd) error notify force).1

lemma finish_session (c : SecureCircuit) (error : Option SessionError) (notify force : Bool) :
    (c.finish error notify force).session = c.session := by
  by_cases hd : c.done = true
  · rw [finish_of_done hd]
  · obtain ⟨-, -, -, -, hsame⟩ := finish_spec (by simpa using hd) error notify force
    rw [hsame]

lemma sends_finish (e : SessionError) (notify force : Bool) :
    Sends c (c.finish (some e) notify force) := by
  by_cases hd : c.done = true
  · rw [finish_of_done hd]
    exact Sends.rfl
  · have hd' : c.done = false := by simpa using hd
    obtain ⟨hdone, hlog, hbound, hrecords, hsame⟩ := finish_spec hd' (some e) notify force
    refine ⟨?_, hbound, hrecords ▸ List.prefix_rfl, Or.inr ⟨hd', hdone, e, hlog⟩⟩
    rw [hsame]

/-- `c'` has the records of `c`, then some key updates, then `tail`. -/
def Adds (c c' : SecureCircuit) (tail : List Sealed) : Prop :=
  ∃ updates : List Sealed, (∀ x ∈ updates, x.content = .keyUpdate) ∧
    c'.records = c.records ++ updates ++ tail

lemma finish_records (error : Option SessionError) (notify force : Bool) :
    (c.finish error notify force).records = c.records := by
  by_cases hd : c.done = true
  · rw [finish_of_done hd]
  · exact (finish_spec (by simpa using hd) error notify force).2.2.2.1

lemma sendRecord_spec (c : SecureCircuit) (r : OpenedRecord) :
    Sends c (c.sendRecord r).2 ∧
      (c.sendRecord r).2.records = c.records ++ [⟨r, (c.sendRecord r).1⟩] := by
  have hadd : ∀ link ok, Sends c { c with link, records := c.records ++ [⟨r, ok⟩] } :=
    fun link ok => ⟨rfl, rfl, List.prefix_append _ _, Or.inl ⟨rfl, rfl⟩⟩
  unfold sendRecord linkSend
  dsimp only
  cases c.link.sends.headD true with
  | true => exact ⟨hadd _ _, rfl⟩
  | false => exact ⟨(hadd _ _).trans (sends_finish _ _ _), finish_records _ _ _⟩

lemma sealRecord_spec (c : SecureCircuit) (r : OpenedRecord) :
    (∃ ok, (c.sealRecord r).2 = .ok ok ∧ Sends c (c.sealRecord r).1 ∧
      (c.sealRecord r).1.records = c.records ++ [⟨r, ok⟩]) ∨
    ∃ e, c.sealRecord r = (c, .error e) := by
  unfold sealRecord
  cases c.session.send r with
  | error e => exact Or.inr ⟨e, rfl⟩
  | ok session =>
    obtain ⟨hsends, hrecords⟩ := sendRecord_spec { c with session } r
    have hsession : Sends c { c with session } :=
      ⟨rfl, rfl, List.prefix_rfl, Or.inl ⟨rfl, rfl⟩⟩
    exact Or.inl ⟨_, rfl, hsession.trans hsends, hrecords⟩

lemma sealMessage_spec (c : SecureCircuit) (m : StreamMessage) :
    (∃ ok plaintext, (c.sealMessage m).2 = .ok ok ∧ encodeStreamMessage m = .ok plaintext ∧
      Sends c (c.sealMessage m).1 ∧
      (c.sealMessage m).1.records = c.records ++ [⟨.data plaintext, ok⟩]) ∨
    ∃ e, c.sealMessage m = (c, .error e) := by
  unfold sealMessage
  cases hm : encodeStreamMessage m with
  | error e => exact Or.inr ⟨_, rfl⟩
  | ok plaintext =>
    rcases sealRecord_spec c (.data plaintext) with ⟨ok, hok, hsends, hrecords⟩ | ⟨e, he⟩
    · exact Or.inl ⟨ok, plaintext, hok, rfl, hsends, hrecords⟩
    · exact Or.inr ⟨e, he⟩

/-- A key update, if one was due or asked for, changes nothing but what it adds. -/
lemma updated_spec (c : SecureCircuit) (due : Bool) :
    Sends c (if due then c.sealRecord .keyUpdate else (c, .ok true)).1 ∧
      Adds c (if due then c.sealRecord .keyUpdate else (c, .ok true)).1 [] := by
  cases due with
  | false => exact ⟨Sends.rfl, [], by simp, by simp⟩
  | true =>
    simp only [if_true]
    rcases sealRecord_spec c .keyUpdate with ⟨ok, -, hsends, hrecords⟩ | ⟨e, he⟩
    · exact ⟨hsends, [⟨.keyUpdate, ok⟩], by simp, by simp [hrecords]⟩
    · rw [he]
      exact ⟨Sends.rfl, [], by simp, by simp⟩

/-- What a call adds that seals a message and returns or throws `result`. -/
def AddsMessage (c c' : SecureCircuit) (m : StreamMessage) (result : Except Thrown Bool) : Prop :=
  (∃ ok plaintext, result = .ok ok ∧ encodeStreamMessage m = .ok plaintext ∧
    Adds c c' [⟨.data plaintext, ok⟩]) ∨
  ∃ e, result = .error e ∧ Adds c c' []

lemma Adds.trans {c d c' : SecureCircuit} {tail : List Sealed} (h : Adds c d [])
    (h' : Adds d c' tail) : Adds c c' tail := by
  obtain ⟨updates, hu, hr⟩ := h
  obtain ⟨updates', hu', hr'⟩ := h'
  refine ⟨updates ++ updates', fun x hx => ?_, by rw [hr', hr]; simp⟩
  rcases List.mem_append.mp hx with hx | hx
  · exact hu x hx
  · exact hu' x hx

lemma AddsMessage.after {c d c' : SecureCircuit} {m : StreamMessage}
    {result : Except Thrown Bool} (h : Adds c d []) (h' : AddsMessage d c' m result) :
    AddsMessage c c' m result := by
  rcases h' with ⟨ok, plaintext, hok, hm, hadds⟩ | ⟨e, he, hadds⟩
  · exact Or.inl ⟨ok, plaintext, hok, hm, h.trans hadds⟩
  · exact Or.inr ⟨e, he, h.trans hadds⟩

lemma sealMessage_adds (c : SecureCircuit) (m : StreamMessage) :
    Sends c (c.sealMessage m).1 ∧ AddsMessage c (c.sealMessage m).1 m (c.sealMessage m).2 := by
  rcases sealMessage_spec c m with ⟨ok, plaintext, hok, hm, hsends, hrecords⟩ | ⟨e, he⟩
  · exact ⟨hsends, Or.inl ⟨ok, plaintext, hok, hm, [], by simp, by simpa using hrecords⟩⟩
  · rw [he]
    exact ⟨Sends.rfl, Or.inr ⟨e, rfl, [], by simp, by simp⟩⟩

lemma sealWithRekey_adds (c : SecureCircuit) (m : StreamMessage) :
    Sends c (c.sealWithRekey m).1 ∧
      AddsMessage c (c.sealWithRekey m).1 m (c.sealWithRekey m).2 := by
  have hfirst := sealMessage_adds c m
  unfold sealWithRekey
  rcases sealMessage_spec c m with ⟨ok, plaintext, hok, -⟩ | ⟨e, he⟩
  · rcases hres : c.sealMessage m with ⟨d, r⟩
    rw [hres] at hok hfirst
    obtain rfl : r = .ok ok := hok
    exact hfirst
  · rw [he] at hfirst ⊢
    cases e with
    | session e => exact hfirst
    | range e => exact hfirst
    | rekeyRequired =>
      -- the update makes room, and the message is sealed again
      obtain ⟨hsends, hadds⟩ := updated_spec c true
      simp only [if_true] at hsends hadds
      dsimp only
      rcases hres : c.sealRecord .keyUpdate with ⟨d, e | ok⟩
      · rw [hres] at hsends hadds
        exact ⟨hsends, Or.inr ⟨e, rfl, hadds⟩⟩
      · rw [hres] at hsends hadds
        obtain ⟨hd, hdadds⟩ := sealMessage_adds d m
        exact ⟨hsends.trans hd, hdadds.after hadds⟩

lemma trySend_adds (c : SecureCircuit) (m : StreamMessage) :
    Sends c (c.trySend m).1 ∧ AddsMessage c (c.trySend m).1 m (c.trySend m).2 := by
  obtain ⟨hsends, hadds⟩ := updated_spec c c.session.needsKeyUpdate
  unfold trySend
  rcases hres : (if c.session.needsKeyUpdate then c.sealRecord .keyUpdate else (c, .ok true)) with
    ⟨d, e | ok⟩
  · rw [hres] at hsends hadds
    exact ⟨hsends, Or.inr ⟨e, rfl, hadds⟩⟩
  · rw [hres] at hsends hadds
    obtain ⟨hd, hdadds⟩ := sealWithRekey_adds d m
    exact ⟨hsends.trans hd, hdadds.after hadds⟩

/-- **What `sendMessage` does**: it adds the message behind some key updates and says whether
the connection took it, or adds none and says no. -/
theorem sendMessage_spec (c : SecureCircuit) (m : StreamMessage) :
    Sends c (c.sendMessage m).2 ∧
      ((∃ plaintext, encodeStreamMessage m = .ok plaintext ∧
          Adds c (c.sendMessage m).2 [⟨.data plaintext, (c.sendMessage m).1⟩]) ∨
        (c.sendMessage m).1 = false ∧ Adds c (c.sendMessage m).2 []) := by
  unfold sendMessage
  split
  · exact ⟨Sends.rfl, Or.inr ⟨rfl, [], by simp, by simp⟩⟩
  obtain ⟨hsends, ⟨ok, plaintext, hok, hm, hadds⟩ | ⟨e, he, updates, hupdates, hrecords⟩⟩ :=
    trySend_adds c m
  · rcases hres : c.trySend m with ⟨d, r⟩
    rw [hres] at hok hsends hadds
    obtain rfl : r = .ok ok := hok
    exact ⟨hsends, Or.inl ⟨plaintext, hm, hadds⟩⟩
  · rcases hres : c.trySend m with ⟨d, r⟩
    rw [hres] at he hsends hrecords
    obtain rfl : r = .error e := he
    refine ⟨hsends.trans (sends_finish _ _ _), Or.inr ⟨rfl, updates, hupdates, ?_⟩⟩
    rw [← hrecords]
    exact finish_records _ _ _

lemma sendSessionClose_spec (c : SecureCircuit) :
    Sends c c.sendSessionClose ∧ ∃ added : List Sealed, (∀ x ∈ added, x.content = .close) ∧
      c.sendSessionClose.records = c.records ++ added := by
  unfold sendSessionClose
  split
  · exact ⟨Sends.rfl, [], by simp, by simp⟩
  have hclose : ∀ d : SecureCircuit, Sends d { d with sentClose := true } := fun d =>
    ⟨rfl, rfl, List.prefix_rfl, Or.inl ⟨rfl, rfl⟩⟩
  rcases sealRecord_spec c .close with ⟨ok, -, hsends, hrecords⟩ | ⟨e, he⟩
  · exact ⟨hsends.trans (hclose _), [⟨.close, ok⟩], by simp, hrecords⟩
  · rw [he]
    exact ⟨hclose c, [], by simp, by simp⟩

end SecureCircuit

end Tnp.Client.Circuit
