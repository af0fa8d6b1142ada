import Tnp.Client.CircuitCalls
import Tnp.Client.StreamIntegrity
import Tnp.Lib.Run

/-!
A local socket joined to a circuit.

What the pipe holds of the socket's data is written whenever the circuit asks for more. A link that
fails while the circuit writes closes the circuit, and its `onClose` forgets what was held while the
flush that holds it is still running.
-/

namespace Tnp.Client.PipeSocket

open Tnp.Lib Tnp.Lib.Run Tnp.Protocol Tnp.Protocol.Session Tnp.Protocol.SessionChannel
open Tnp.Client.Circuit Tnp.Client.CircuitCalls
open Tnp.Client.StreamIntegrity (passed)

/-- A call that the pipe makes of the socket or of the circuit, with what a reader of the log
asks about the moment of the call. -/
inductive Action
  | write (data : Bytes)
  | endSocket
  | pause
  | resume (held : Option Bytes)
  | destroy
  | endCircuit (closed : Bool) (held : Option Bytes) (accepted read : Bytes)
  | resetCircuit (code : ℕ)
  deriving DecidableEq

/-- The variables of `pipeSocket`, its socket and its circuit, and what was read and accepted. -/
structure Pipe where
  circuit : SecureCircuit
  abortCode : ℕ
  /-- `pipeSocket` returned, so the socket's handlers are there. -/
  registered : Bool := false
  held : Option Bytes := none
  socketEnded : Bool := false
  peerEnded : Bool := false
  finished : Bool := false
  /-- What `isPaused` and `destroyed` say of the socket. -/
  paused : Bool
  destroyed : Bool := false
  /-- A handler threw a `TypeError`. -/
  threw : Bool := false
  read : Bytes := []
  accepted : Bytes := []
  trace : List Action := []

namespace Pipe

variable (p : Pipe)

def act (a : Action) : Pipe := { p with trace := p.trace ++ [a] }

/-! ### The handlers of the circuit's calls -/

def onData (data : Bytes) : Pipe := if p.destroyed then p else p.act (.write data)

def onEnd : Pipe :=
  let p := { p with peerEnded := true }
  if p.destroyed then p else p.act .endSocket

def onClose (error : Option SessionError) : Pipe :=
  let p := { p with finished := true, held := none }
  match error with
  | some _ => { p with destroyed := true }.act .destroy
  | none => if p.destroyed then p else p.act .endSocket

def handle (flush : Pipe → Pipe) (p : Pipe) : Event → Pipe
  | .onData data => p.onData data
  | .onEnd => p.onEnd
  | .onWritable => flush p
  | .onClose error => p.onClose error

/-- A call of the circuit. What it makes the circuit call runs inside it: of the handlers only
`flush` calls the circuit again, and that one is called last. -/
def call (flush : Pipe → Pipe) (f : SecureCircuit → SecureCircuit) : Pipe :=
  let circuit := f p.circuit
  ((passed circuit).drop (passed p.circuit).length).foldl (handle flush) { p with circuit }

def endCircuit (flush : Pipe → Pipe) : Pipe :=
  (p.act (.endCircuit p.circuit.done p.held p.accepted p.read)).call flush (·.endWriting)

/-- The end of `flush`, once nothing is held. -/
def settle (flush : Pipe → Pipe) : Pipe :=
  if p.socketEnded then p.endCircuit flush
  else if p.paused then { p with paused := false }.act (.resume p.held)
  else p

/-- `flush`, down to this depth of flushes inside flushes. A round of its loop that does not return
leaves nothing held, so there is but one; `held.length` of what `onClose` cleared throws. -/
def flushAt : ℕ → Pipe → Pipe
  | 0, p => p
  | depth + 1, p =>
    if p.finished then p
    else
      match p.held with
      | none => p.settle (flushAt depth)
      | some data =>
        let n := (p.circuit.write data).2
        let p := p.call (flushAt depth) fun c => (c.write data).1
        let p := { p with accepted := p.accepted ++ data.take n }
        match p.held with
        | none => { p with threw := true }
        | some held =>
          if n = held.length then { p with held := none }.settle (flushAt depth)
          else { p with held := some (held.drop n), paused := true }.act .pause

/-- No call of a flush makes the circuit ask for more, so no flush runs inside one. -/
def flush : Pipe := flushAt 1 p

/-! ### pipeSocket and the handlers of the socket -/

/-- `pipeSocket`, with the bytes already read from the socket. -/
def pipeSocket (early : Option Bytes) : Pipe :=
  let early := early.filter (0 < ·.length)
  let p := { p with held := early, read := early.getD [] }.call flush (·.bind)
  if p.threw then p else { p with registered := true }.flush

/-- A chunk is read, and held behind what is. -/
def hold (chunk : Bytes) : Pipe :=
  { p with read := p.read ++ chunk, held := some (p.held.getD [] ++ chunk) }

def onSocketData (chunk : Bytes) : Pipe :=
  if !p.registered then p
  else if p.finished then { p with read := p.read ++ chunk }
  else (p.hold chunk).flush

def onSocketEnd : Pipe :=
  if !p.registered then p
  else
    let p := { p with socketEnded := true }
    if p.held.isNone then p.endCircuit flush else p

def onSocketClose (hadError : Bool) : Pipe :=
  if !p.registered || p.circuit.done then p
  else if hadError || !p.socketEnded || !p.peerEnded then
    (p.act (.resetCircuit p.abortCode)).call flush (·.reset p.abortCode)
  else p

end Pipe

/-- What happens at a pipe: an event of its socket, a frame for its circuit, or a call of the owner
of the circuit. -/
inductive Happening
  | pipeSocket (early : Option Bytes)
  | data (chunk : Bytes)
  | socketEnd
  | socketError
  | socketClose (hadError : Bool)
  | flushed (n : ℕ)
  | receive (a : Arrival)
  | poke
  | remoteDestroyed
  | openPort (port : ℕ)
  | accept
  | reset (code : ℕ)
  | abort

/-- What happens, with what the connection answers meanwhile and whether the socket is destroyed by
then. -/
structure Turn where
  link : Link
  destroyed : Bool
  happening : Happening

/-- The state a turn finds: the link and the socket are what the turn says. -/
def Pipe.meet (p : Pipe) (t : Turn) : Pipe :=
  { p with circuit := { p.circuit with link := t.link }, destroyed := p.destroyed || t.destroyed }

def Pipe.step (p : Pipe) (t : Turn) : Pipe :=
  let p := p.meet t
  match t.happening with
  | .pipeSocket early => if p.circuit.isBound then p else p.pipeSocket early
  | .data chunk => p.onSocketData chunk
  | .socketEnd => p.onSocketEnd
  | .socketError => p
  | .socketClose hadError => p.onSocketClose hadError
  | .flushed n => p.call Pipe.flush (·.consumed n)
  | .receive a => p.call Pipe.flush (·.receive a)
  | .poke => p.call Pipe.flush (·.poke)
  | .remoteDestroyed => p.call Pipe.flush (·.remoteDestroyed)
  | .openPort port => p.call Pipe.flush (·.openPort port)
  | .accept => p.call Pipe.flush (·.accept)
  | .reset code => p.call Pipe.flush (·.reset code)
  | .abort => p.call Pipe.flush (·.abort)

/-! ### What is promised -/

/-- Reading resumes only once nothing is held, and the circuit is ended only once every byte read
was accepted; on a circuit that is closed the call does nothing. -/
def Action.Fine : Action → Prop
  | .resume held => held = none
  | .endCircuit closed held accepted read => closed = false → held = none ∧ accepted = read
  | _ => True

/-- **What is promised of the pipe**: no handler threw, the calls made were in order, and until the
circuit closes nothing is lost. -/
structure Sound (p : Pipe) : Prop where
  threw : p.threw = false
  fine : ∀ a ∈ p.trace, a.Fine
  bytes : p.circuit.isBound = true → p.circuit.done = false →
    p.accepted ++ p.held.getD [] = p.read

/-! ### The condition -/

namespace Pipe

/-- The circuit asks for more in this call. -/
def Asks (p : Pipe) (f : SecureCircuit → SecureCircuit) : Prop :=
  .onWritable ∈ (passed (f p.circuit)).drop (passed p.circuit).length

instance (p : Pipe) (f : SecureCircuit → SecureCircuit) : Decidable (p.Asks f) :=
  inferInstanceAs (Decidable (_ ∈ _))

/-- The states in which a call of the circuit has a flush run. -/
def askedIn (p : Pipe) (f : SecureCircuit → SecureCircuit) : List Pipe :=
  if p.Asks f then [p.call id f] else []

/-- The pipe as `pipeSocket` finds it when it binds the circuit. -/
def opening (p : Pipe) (early : Option Bytes) : Pipe :=
  { p with
    held := early.filter (0 < ·.length), read := (early.filter (0 < ·.length)).getD [] }

/-- The states in which a flush of the turn begins. -/
def flushes (p : Pipe) (t : Turn) : List Pipe :=
  let p := p.meet t
  match t.happening with
  | .pipeSocket early =>
    if p.circuit.isBound then []
    else [(p.opening early).call id (·.bind), (p.opening early).call flush (·.bind)]
  | .data chunk => if p.registered then [p.hold chunk] else []
  | .receive a => p.askedIn (·.receive a)
  | .poke => p.askedIn (·.poke)
  | .accept => p.askedIn (·.accept)
  | _ => []

/-- The link takes every frame of what a flush writes here. -/
def LinkTakes (p : Pipe) : Prop :=
  p.finished = false → ∀ data ∈ p.held, Takes p.circuit data

/-- **The link takes every frame that the flushes of the turn write.** -/
def LinkHolds (p : Pipe) (t : Turn) : Prop := ∀ q ∈ p.flushes t, q.LinkTakes

end Pipe

/-! ### What the handlers keep -/

section Handlers

variable {p q : Pipe}

/-- What every state of a bound pipe keeps. -/
structure Inv (p : Pipe) : Prop where
  bound : p.circuit.isBound = true
  live : Live p.circuit
  finished : p.finished = p.circuit.done
  held : p.finished = true → p.held = none
  bytes : p.circuit.done = false → p.accepted ++ p.held.getD [] = p.read
  fine : ∀ a ∈ p.trace, a.Fine

/-- `q` is `p` after handlers of which one closed the pipe, or none. -/
structure Handled (p q : Pipe) (closed : Bool) : Prop where
  same : q = { p with
    held := q.held, peerEnded := q.peerEnded, finished := q.finished, destroyed := q.destroyed
    trace := q.trace }
  finished : q.finished = (p.finished || closed)
  held : q.held = if closed then none else p.held
  fine : (∀ a ∈ p.trace, a.Fine) → ∀ a ∈ q.trace, a.Fine

lemma Handled.refl (p : Pipe) : Handled p p false := ⟨rfl, by simp, rfl, id⟩

lemma Handled.trans {r : Pipe} {closed closed' : Bool} (h : Handled p q closed)
    (h' : Handled q r closed') : Handled p r (closed || closed') := by
  refine ⟨?_, ?_, ?_, fun hp => h'.fine (h.fine hp)⟩
  · have heq := h'.same
    rw [h.same] at heq
    exact heq
  · rw [h'.finished, h.finished, Bool.or_assoc]
  · rw [h'.held, h.held]
    cases closed <;> cases closed' <;> rfl

lemma fine_append {l : List Action} {a : Action} (ha : a.Fine) (h : ∀ b ∈ l, b.Fine) :
    ∀ b ∈ l ++ [a], b.Fine := by
  intro b hb
  rcases List.mem_append.mp hb with hb | hb
  · exact h b hb
  · rwa [List.mem_singleton.mp hb]

def isClose : Event → Bool
  | .onClose _ => true
  | _ => false

lemma any_isClose {calls : List Event} :
    calls.any isClose = true ↔ ∃ e, .onClose e ∈ calls := by
  rw [List.any_eq_true]
  constructor
  · rintro ⟨e, he, hclose⟩
    cases e with
    | onClose error => exact ⟨error, he⟩
    | _ => simp [isClose] at hclose
  · rintro ⟨error, he⟩
    exact ⟨_, he, rfl⟩

/-- One handler that is not a flush. -/
lemma handle_quiet (g : Pipe → Pipe) (p : Pipe) {e : Event} (h : e ≠ .onWritable) :
    Handled p (p.handle g e) (isClose e) := by
  cases e with
  | onData data =>
    simp only [Pipe.handle, Pipe.onData, isClose]
    split
    · exact .refl p
    · exact ⟨rfl, by simp [Pipe.act], rfl, fine_append trivial⟩
  | onEnd =>
    simp only [Pipe.handle, Pipe.onEnd, isClose]
    split
    · exact ⟨rfl, by simp, rfl, id⟩
    · exact ⟨rfl, by simp [Pipe.act], rfl, fine_append trivial⟩
  | onWritable => exact absurd rfl h
  | onClose error =>
    cases error with
    | some error => exact ⟨rfl, by simp [Pipe.handle, Pipe.onClose, Pipe.act, isClose], rfl,
        fine_append trivial⟩
    | none =>
      simp only [Pipe.handle, Pipe.onClose, isClose]
      split
      · exact ⟨rfl, by simp, rfl, id⟩
      · exact ⟨rfl, by simp [Pipe.act], rfl, fine_append trivial⟩

/-- Handlers that are not flushes, one after another. -/
lemma foldl_quiet (g : Pipe → Pipe) (p : Pipe) {calls : List Event}
    (h : .onWritable ∉ calls) : Handled p (calls.foldl (Pipe.handle g) p) (calls.any isClose) := by
  induction calls generalizing p with
  | nil => exact .refl p
  | cons e calls ih =>
    simp only [List.mem_cons, not_or] at h
    exact (handle_quiet g p (Ne.symm h.1)).trans (ih _ h.2)

/-- Which flush they would run makes no difference to them. -/
lemma foldl_congr (g g' : Pipe → Pipe) (p : Pipe) {calls : List Event}
    (h : .onWritable ∉ calls) :
    calls.foldl (Pipe.handle g) p = calls.foldl (Pipe.handle g') p := by
  induction calls generalizing p with
  | nil => rfl
  | cons e calls ih =>
    simp only [List.mem_cons, not_or] at h
    have hhead : p.handle g e = p.handle g' e := by
      cases e with
      | onWritable => exact absurd rfl h.1
      | _ => rfl
    rw [List.foldl_cons, List.foldl_cons, hhead]
    exact ih _ h.2

end Handlers

/-! ### A call of the circuit -/

section Call

variable {p : Pipe} {f : SecureCircuit → SecureCircuit}

lemma passed_bound {c : SecureCircuit} (h : c.isBound = true) : passed c = c.log := by
  simp [passed, h]

/-- What a call of the circuit calls: quiet handlers, and then perhaps a flush. -/
lemma calls_of_speaks (hbound : p.circuit.isBound = true)
    (h : Speaks p.circuit (f p.circuit)) : (f p.circuit).isBound = true ∧
      (Live p.circuit → Live (f p.circuit)) ∧ ∃ quiet asked : List Event,
        (passed (f p.circuit)).drop (passed p.circuit).length = quiet ++ asked ∧
        .onWritable ∉ quiet ∧ (asked = [] ∨ asked = [.onWritable]) ∧
        ((f p.circuit).done = true ↔ p.circuit.done = true ∨ quiet.any isClose = true) := by
  obtain hq | ⟨d, hq, hd⟩ := h
  · obtain ⟨new, hlog, hquiet, hdone⟩ := hq.calls
    have hb := hq.bound.trans hbound
    refine ⟨hb, hq.live, new, [], ?_, hquiet, .inl rfl, by rw [any_isClose]; exact hdone⟩
    rw [passed_bound hb, passed_bound hbound, hlog]
    simp
  · obtain ⟨new, hlog, hquiet, hdone⟩ := hq.calls
    have hb := hq.bound.trans hbound
    have heq : d.notifyWritable = d.emit .onWritable := by
      rw [SecureCircuit.notifyWritable_eq, if_pos hb]
    rw [heq] at hd
    have hb' : (f p.circuit).isBound = true := by rw [hd, SecureCircuit.isBound_emit, hb]
    refine ⟨hb', fun hl => by rw [hd]; exact hq.live hl, new, [.onWritable], ?_, hquiet, .inr rfl,
      by rw [any_isClose, hd]; exact hdone⟩
    rw [passed_bound hb', passed_bound hbound, hd, SecureCircuit.log_emit, hlog,
      List.append_assoc]
    simp

/-- What a call keeps of a pipe that is not a flush of it. -/
structure Kept (p q : Pipe) : Prop where
  threw : q.threw = p.threw
  registered : q.registered = p.registered
  socketEnded : q.socketEnded = p.socketEnded
  paused : q.paused = p.paused
  read : q.read = p.read
  accepted : q.accepted = p.accepted
  held : q.finished = false → q.held = p.held

/-- **A call of the circuit runs its handlers**, and then a flush where the circuit asks. -/
theorem Inv.call (h : Inv p) (hs : Speaks p.circuit (f p.circuit)) (g : Pipe → Pipe) :
    Inv (p.call id f) ∧ Kept p (p.call id f) ∧ (p.call id f).circuit = f p.circuit ∧
      p.call g f = if p.Asks f then g (p.call id f) else p.call id f := by
  obtain ⟨hbound, hlive, quiet, asked, hcalls, hquiet, hasked, hdone⟩ := calls_of_speaks h.bound hs
  have hhandled := foldl_quiet g { p with circuit := f p.circuit } hquiet
  have hcongr := foldl_congr g id { p with circuit := f p.circuit } hquiet
  have hid : p.call id f =
      quiet.foldl (Pipe.handle g) { p with circuit := f p.circuit } := by
    rw [Pipe.call, hcalls, List.foldl_append, hcongr]
    obtain rfl | rfl := hasked <;> rfl
  rw [hid]
  set q := quiet.foldl (Pipe.handle g) { p with circuit := f p.circuit } with hq
  have hcircuit : q.circuit = f p.circuit := by rw [hhandled.same]
  have hfinished : q.finished = q.circuit.done := by
    rw [hhandled.finished, hcircuit, Bool.eq_iff_iff, hdone, Bool.or_eq_true]
    simp only [h.finished]
  refine ⟨⟨?_, ?_, hfinished, fun hend => ?_, fun hgoes => ?_, hhandled.fine h.fine⟩, ?_, hcircuit,
    ?_⟩
  · rw [hcircuit]
    exact hbound
  · rw [hcircuit]
    exact hlive h.live
  · rw [hhandled.finished, Bool.or_eq_true] at hend
    rw [hhandled.held]
    split
    · rfl
    · next hopen => exact h.held (hend.resolve_right hopen)
  · rw [← hfinished, hhandled.finished, Bool.or_eq_false_iff] at hgoes
    have hbytes := h.bytes (h.finished ▸ hgoes.1)
    rw [hhandled.held, if_neg (by simp [hgoes.2]), hhandled.same]
    exact hbytes
  · refine ⟨?_, ?_, ?_, ?_, ?_, ?_, fun hgoes => ?_⟩
    · rw [hhandled.same]
    · rw [hhandled.same]
    · rw [hhandled.same]
    · rw [hhandled.same]
    · rw [hhandled.same]
    · rw [hhandled.same]
    · rw [hhandled.finished, Bool.or_eq_false_iff] at hgoes
      rw [hhandled.held, if_neg (by simp [hgoes.2])]
  · have hall : p.call g f = asked.foldl (Pipe.handle g) q := by
      rw [Pipe.call, hcalls, List.foldl_append]
    have hasks : p.Asks f ↔ .onWritable ∈ asked := by
      rw [Pipe.Asks, hcalls, List.mem_append, or_iff_right hquiet]
    rw [hall]
    obtain rfl | rfl := hasked
    · rw [if_neg (by simp [hasks])]
      rfl
    · rw [if_pos (by simp [hasks])]
      rfl

/-- A call that does not let the circuit ask runs no flush. -/
lemma Inv.call_quiet (h : Inv p) (hq : Quiet p.circuit (f p.circuit)) (g : Pipe → Pipe) :
    p.call g f = p.call id f := by
  have hs : Speaks p.circuit (f p.circuit) := .of_quiet hq
  have hcall := (h.call hs g).2.2.2
  rw [hcall, if_neg ?_]
  obtain ⟨new, hlog, hquiet, -⟩ := hq.calls
  unfold Pipe.Asks
  rw [passed_bound (hq.bound.trans h.bound), passed_bound h.bound, hlog]
  simpa using hquiet

end Call

/-! ### A flush -/

section Flush

variable {p : Pipe}

lemma Inv.act (h : Inv p) {a : Action} (ha : a.Fine) : Inv (p.act a) :=
  ⟨h.bound, h.live, h.finished, h.held, h.bytes, fine_append ha h.fine⟩

lemma Inv.setPaused (h : Inv p) (paused : Bool) : Inv { p with paused } :=
  ⟨h.bound, h.live, h.finished, h.held, h.bytes, h.fine⟩

lemma Inv.endCircuit (h : Inv p) (hheld : p.held = none) (g : Pipe → Pipe) :
    Inv (p.endCircuit g) ∧ (p.endCircuit g).threw = p.threw ∧
      p.endCircuit g = p.endCircuit id := by
  have hfine : (Action.endCircuit p.circuit.done p.held p.accepted p.read).Fine := by
    intro hgoes
    have hbytes := h.bytes hgoes
    rw [hheld] at hbytes ⊢
    exact ⟨rfl, by simpa using hbytes⟩
  have hp := h.act hfine
  have hquiet := Quiet.endWriting
    (p.act (.endCircuit p.circuit.done p.held p.accepted p.read)).circuit
  obtain ⟨hinv, hkept, -⟩ := hp.call (.of_quiet hquiet) g
  have hcall := hp.call_quiet hquiet g
  unfold Pipe.endCircuit
  rw [hcall]
  exact ⟨hinv, hkept.threw, rfl⟩

lemma Inv.settle (h : Inv p) (hheld : p.held = none) (g : Pipe → Pipe) :
    Inv (p.settle g) ∧ (p.settle g).threw = p.threw ∧ p.settle g = p.settle id := by
  unfold Pipe.settle
  split
  · exact h.endCircuit hheld g
  split
  · exact ⟨(h.setPaused false).act hheld, rfl, rfl⟩
  · exact ⟨h, rfl, rfl⟩

/-- A write that the link took leaves its rest held, in order. -/
lemma Inv.accept (h : Inv p) {data : Bytes} (hheld : p.held = some data) (n : ℕ) :
    Inv { p with accepted := p.accepted ++ data.take n, held := some (data.drop n) } := by
  refine ⟨h.bound, h.live, h.finished, fun hend => ?_, fun hgoes => ?_, h.fine⟩
  · exact absurd (h.held hend) (by simp [hheld])
  · rw [← h.bytes hgoes, hheld]
    simp

/-- A write that took everything leaves nothing held. -/
lemma Inv.acceptAll (h : Inv p) {data : Bytes} (hheld : p.held = some data) {n : ℕ}
    (hall : n = data.length) :
    Inv { p with accepted := p.accepted ++ data.take n, held := none } := by
  refine ⟨h.bound, h.live, h.finished, fun _ => rfl, fun hgoes => ?_, h.fine⟩
  rw [← h.bytes hgoes, hheld, hall]
  simp

/-- What a flush does with what is held. -/
lemma Inv.flushAt_eq (h : Inv p) (hopen : p.finished = false) {data : Bytes}
    (hheld : p.held = some data) (depth : ℕ) :
    p.flushAt (depth + 1) =
      let n := (p.circuit.write data).2
      let q := p.call id fun c => (c.write data).1
      if q.finished then { q with accepted := p.accepted ++ data.take n, threw := true }
      else if n = data.length then
        { q with accepted := p.accepted ++ data.take n, held := none }.settle id
      else
        { q with
          accepted := p.accepted ++ data.take n, held := some (data.drop n)
          paused := true }.act .pause := by
  have hwrite : Quiet p.circuit ((fun c => (c.write data).1) p.circuit) := Quiet.write _ data
  obtain ⟨hq, hkept, -⟩ := h.call (f := fun c => (c.write data).1) (.of_quiet hwrite) id
  have hcall := h.call_quiet (f := fun c => (c.write data).1) hwrite (Pipe.flushAt depth)
  unfold Pipe.flushAt
  rw [if_neg (by simp [hopen]), hheld]
  dsimp only
  rw [hcall]
  by_cases hend : (p.call id fun c => (c.write data).1).finished = true
  · rw [if_pos hend, hq.held hend, hkept.accepted]
  · have hkeeps := (hkept.held (by simpa using hend)).trans hheld
    rw [if_neg hend, hkeeps, hkept.accepted]
    dsimp only
    split
    · next hall =>
      have hnone := hq.acceptAll hkeeps hall
      rw [hkept.accepted] at hnone
      exact (hnone.settle rfl (Pipe.flushAt depth)).2.2
    · rfl

/-- **A flush keeps the pipe, and throws exactly where the link refuses a frame that it writes.** -/
theorem Inv.flushAt (h : Inv p) (depth : ℕ) :
    Inv (p.flushAt (depth + 1)) ∧
      ((p.flushAt (depth + 1)).threw = true ↔ p.threw = true ∨ ¬ p.LinkTakes) := by
  cases hopen : p.finished with
  | true =>
    have hsame : p.flushAt (depth + 1) = p := by
      unfold Pipe.flushAt
      rw [if_pos hopen]
    have htakes : p.LinkTakes := fun hno => absurd (hopen.symm.trans hno) (by decide)
    rw [hsame]
    exact ⟨h, by simp [htakes]⟩
  | false =>
  cases hheld : p.held with
  | none =>
    have hsame : p.flushAt (depth + 1) = p.settle (Pipe.flushAt depth) := by
      rw [Pipe.flushAt, if_neg (by simp [hopen]), hheld]
    have htakes : p.LinkTakes := fun _ data hdata => absurd hdata (by simp [hheld])
    obtain ⟨hinv, hthrew, -⟩ := h.settle hheld (Pipe.flushAt depth)
    rw [hsame, hthrew]
    exact ⟨hinv, by simp [htakes]⟩
  | some data =>
    have hwrite : Quiet p.circuit ((fun c => (c.write data).1) p.circuit) := Quiet.write _ data
    obtain ⟨hq, hkept, hcircuit, -⟩ := h.call (f := fun c => (c.write data).1) (.of_quiet hwrite) id
    have hdone : p.circuit.done = false := h.finished ▸ hopen
    have htakes : p.LinkTakes ↔ (p.call id fun c => (c.write data).1).finished = false := by
      rw [hq.finished, hcircuit, h.live.write_done_iff hdone data]
      simp [Pipe.LinkTakes, hopen, hheld]
    rw [h.flushAt_eq hopen hheld depth, htakes]
    dsimp only
    by_cases hend : (p.call id fun c => (c.write data).1).finished = true
    · rw [if_pos hend]
      refine ⟨⟨hq.bound, hq.live, hq.finished, hq.held, fun hgoes => ?_, hq.fine⟩, by simp [hend]⟩
      exact absurd (hend.symm.trans (hq.finished.trans hgoes)) (by decide)
    · have hgoes : (p.call id fun c => (c.write data).1).finished = false := by simpa using hend
      have hkeeps := (hkept.held hgoes).trans hheld
      rw [if_neg hend, or_iff_left fun hrefused => hrefused hgoes]
      split
      · next hall =>
        have hnone := hq.acceptAll hkeeps hall
        rw [hkept.accepted] at hnone
        obtain ⟨hinv, hthrew, -⟩ := hnone.settle rfl id
        rw [hthrew]
        exact ⟨hinv, by rw [hkept.threw]⟩
      · have hrest := hq.accept hkeeps (p.circuit.write data).2
        rw [hkept.accepted] at hrest
        refine ⟨(hrest.setPaused true).act (a := .pause) trivial, ?_⟩
        simp only [Pipe.act, hkept.threw]

/-- No flush runs inside another, so the depth makes no difference. -/
theorem Inv.flushAt_depth (h : Inv p) (depth : ℕ) : p.flushAt (depth + 1) = p.flush := by
  cases hopen : p.finished with
  | true =>
    unfold Pipe.flush Pipe.flushAt
    rw [if_pos hopen, if_pos hopen]
  | false =>
    cases hheld : p.held with
    | none =>
      unfold Pipe.flush Pipe.flushAt
      rw [if_neg (by simp [hopen]), if_neg (by simp [hopen]), hheld]
      exact ((h.settle hheld _).2.2).trans (h.settle hheld _).2.2.symm
    | some data =>
      exact (h.flushAt_eq hopen hheld depth).trans (h.flushAt_eq hopen hheld 0).symm

end Flush

/-! ### A turn -/

section Step

variable {p : Pipe} {f : SecureCircuit → SecureCircuit}

lemma Inv.flush (h : Inv p) :
    Inv p.flush ∧ (p.flush.threw = true ↔ p.threw = true ∨ ¬ p.LinkTakes) := h.flushAt 0

lemma Inv.meet (h : Inv p) (t : Turn) : Inv (p.meet t) :=
  ⟨h.bound, h.live, h.finished, h.held, h.bytes, h.fine⟩

lemma Inv.hold (h : Inv p) (hopen : p.finished = false) (chunk : Bytes) : Inv (p.hold chunk) := by
  refine ⟨h.bound, h.live, h.finished, fun hend => ?_, fun hgoes => ?_, h.fine⟩
  · exact absurd (hopen.symm.trans hend) (by decide)
  · simp only [Pipe.hold, Option.getD_some]
    rw [← List.append_assoc, h.bytes hgoes]

/-- A call of the owner. -/
lemma Inv.callFlush (h : Inv p) (hs : Speaks p.circuit (f p.circuit)) :
    Inv (p.call Pipe.flush f) ∧ ((p.call Pipe.flush f).threw = true ↔
      p.threw = true ∨ ¬ ∀ q ∈ p.askedIn f, q.LinkTakes) := by
  obtain ⟨hinv, hkept, -, hcall⟩ := h.call hs Pipe.flush
  rw [hcall, Pipe.askedIn]
  split
  · obtain ⟨hflush, hthrew⟩ := hinv.flush
    rw [hthrew, hkept.threw]
    exact ⟨hflush, by simp⟩
  · rw [hkept.threw]
    exact ⟨hinv, by simp⟩

/-- A call that does not let the circuit ask. -/
lemma Inv.callQuiet (h : Inv p) (hq : Quiet p.circuit (f p.circuit)) :
    Inv (p.call Pipe.flush f) ∧ (p.call Pipe.flush f).threw = p.threw := by
  obtain ⟨hinv, hkept, -⟩ := h.call (.of_quiet hq) Pipe.flush
  rw [h.call_quiet hq]
  exact ⟨hinv, hkept.threw⟩

/-- **What a turn does to a bound pipe.** -/
theorem Inv.step (h : Inv p) (t : Turn) :
    Inv (p.step t) ∧ ((p.step t).threw = true ↔ p.threw = true ∨ ¬ p.LinkHolds t) := by
  have hmet := h.meet t
  have hthrew : (p.meet t).threw = p.threw := rfl
  have hquiet (f : SecureCircuit → SecureCircuit)
      (hq : Quiet (p.meet t).circuit (f (p.meet t).circuit)) :
      Inv ((p.meet t).call Pipe.flush f) ∧
        (((p.meet t).call Pipe.flush f).threw = true ↔ p.threw = true ∨ ¬ ∀ q ∈ ([] : List Pipe),
          q.LinkTakes) := by
    obtain ⟨hinv, heq⟩ := hmet.callQuiet hq
    rw [heq]
    exact ⟨hinv, by simp [hthrew]⟩
  unfold Pipe.step Pipe.LinkHolds Pipe.flushes
  cases t.happening with
  | pipeSocket early =>
    have hbound : (p.meet t).circuit.isBound = true := h.bound
    simp only [hbound, if_true]
    exact ⟨hmet, by simp [hthrew]⟩
  | data chunk =>
    dsimp only [Pipe.onSocketData]
    by_cases hreg : (p.meet t).registered = true
    swap
    · rw [if_pos (by simpa using hreg), if_neg hreg]
      exact ⟨hmet, by simp [hthrew]⟩
    rw [if_neg (by simpa using hreg), if_pos hreg, List.forall_mem_singleton]
    by_cases hend : (p.meet t).finished = true
    · have hdone := hmet.finished.symm.trans hend
      have htakes : ((p.meet t).hold chunk).LinkTakes :=
        fun hopen => absurd (hend.symm.trans hopen) (by decide)
      rw [if_pos hend]
      refine ⟨⟨hmet.bound, hmet.live, hmet.finished, hmet.held, fun hgoes => ?_, hmet.fine⟩, ?_⟩
      · exact absurd (hdone.symm.trans hgoes) (by decide)
      · simp only [htakes, not_true_eq_false, or_false]
        exact Iff.rfl
    · rw [if_neg hend]
      exact (hmet.hold (by simpa using hend) chunk).flush
  | socketEnd =>
    dsimp only [Pipe.onSocketEnd]
    split
    · exact ⟨hmet, by simp [hthrew]⟩
    have hended : Inv { p.meet t with socketEnded := true } :=
      ⟨hmet.bound, hmet.live, hmet.finished, hmet.held, hmet.bytes, hmet.fine⟩
    split
    · next hnone =>
      obtain ⟨hinv, heq, -⟩ := hended.endCircuit (by simpa using hnone) Pipe.flush
      rw [heq]
      exact ⟨hinv, by simp [hthrew]⟩
    · exact ⟨hended, by simp [hthrew]⟩
  | socketError => exact ⟨hmet, by simp [hthrew]⟩
  | socketClose hadError =>
    dsimp only [Pipe.onSocketClose]
    split
    · exact ⟨hmet, by simp [hthrew]⟩
    split
    · obtain ⟨hinv, heq⟩ := (hmet.act (a := .resetCircuit (p.meet t).abortCode) trivial).callQuiet
        (f := (·.reset (p.meet t).abortCode)) (Quiet.reset _ _)
      rw [heq]
      exact ⟨hinv, by simp [hthrew, Pipe.act]⟩
    · exact ⟨hmet, by simp [hthrew]⟩
  | flushed n => exact hquiet (·.consumed n) (Quiet.consumed _ n)
  | receive a => exact hmet.callFlush (f := (·.receive a)) (Speaks.receive _ a)
  | poke => exact hmet.callFlush (f := (·.poke)) (Speaks.poke _)
  | remoteDestroyed => exact hquiet (·.remoteDestroyed) (Quiet.remoteDestroyed _)
  | openPort port => exact hquiet (·.openPort port) (Quiet.openPort _ port)
  | accept => exact hmet.callFlush (f := (·.accept)) (Speaks.accept _)
  | reset code => exact hquiet (·.reset code) (Quiet.reset _ code)
  | abort => exact hquiet (·.abort) (Quiet.abort _)

end Step

/-! ### Before `pipeSocket` -/

section Waiting

variable {p : Pipe} {f : SecureCircuit → SecureCircuit}

/-- Before `pipeSocket`: what the circuit would call is in its backlog. -/
structure Waiting (p : Pipe) : Prop where
  unbound : p.circuit.isBound = false
  live : Live p.circuit
  quiet : .onWritable ∉ p.circuit.log
  done : p.circuit.done = true ↔ ∃ e, .onClose e ∈ p.circuit.log
  registered : p.registered = false
  finished : p.finished = false
  accepted : p.accepted = []
  fine : ∀ a ∈ p.trace, a.Fine

lemma Waiting.meet (h : Waiting p) (t : Turn) : Waiting (p.meet t) :=
  ⟨h.unbound, h.live, h.quiet, h.done, h.registered, h.finished, h.accepted, h.fine⟩

/-- A call of the owner reaches no handler yet. -/
lemma Waiting.call (h : Waiting p) (hs : Speaks p.circuit (f p.circuit)) (g : Pipe → Pipe) :
    Waiting (p.call g f) ∧ (p.call g f).threw = p.threw ∧ p.askedIn f = [] := by
  have hquiet : Quiet p.circuit (f p.circuit) := by
    obtain hq | ⟨d, hq, hd⟩ := hs
    · exact hq
    · have hb := hq.bound.trans h.unbound
      rwa [hd, SecureCircuit.notifyWritable_eq, if_neg (by simp [hb])]
  have hb := hquiet.bound.trans h.unbound
  have hnone : (passed (f p.circuit)).drop (passed p.circuit).length = [] := by
    simp [passed, hb]
  have hcall : p.call g f = { p with circuit := f p.circuit } := by
    rw [Pipe.call, hnone]
    rfl
  obtain ⟨new, hlog, hnew, hdone⟩ := hquiet.calls
  rw [hcall]
  refine ⟨⟨hb, hquiet.live h.live, ?_, ?_, h.registered, h.finished, h.accepted, h.fine⟩, rfl,
    by simp [Pipe.askedIn, Pipe.Asks, hnone]⟩
  · rw [hlog]
    simp [h.quiet, hnew]
  · rw [hdone, h.done, hlog, ← exists_or]
    simp only [List.mem_append]

/-- `bind` calls what was held back, and asks for more where the circuit goes on. -/
lemma bind_spec (c : SecureCircuit) : c.bind.isBound = true ∧ c.bind.done = c.done ∧
    (Live c → Live c.bind) ∧
    passed c.bind = c.log ++ if c.done then [] else [.onWritable] := by
  unfold SecureCircuit.bind
  by_cases hd : c.done = true
  · rw [if_pos hd, if_pos hd]
    exact ⟨rfl, rfl, id, by simp [passed, SecureCircuit.isBound, SecureCircuit.log]⟩
  · rw [if_neg hd, if_neg hd]
    exact ⟨rfl, rfl, id, rfl⟩

/-- What `bind` replays leaves a bound pipe, and a flush ends it where the circuit is open. -/
lemma Waiting.bind (h : Waiting p) (hheld : p.held.getD [] = p.read) (g : Pipe → Pipe) :
    Inv (p.call id (·.bind)) ∧ (p.call id (·.bind)).threw = p.threw ∧
      ((p.call id (·.bind)).finished = true → p.call g (·.bind) = p.call id (·.bind)) ∧
      ((p.call id (·.bind)).finished = false →
        p.call g (·.bind) = g (p.call id (·.bind))) := by
  have hclosed : p.circuit.log.any isClose = p.circuit.done := by
    rw [Bool.eq_iff_iff, any_isClose, h.done]
  have hbefore : passed p.circuit = [] := by simp [passed, h.unbound]
  have hhandled := foldl_quiet id { p with circuit := p.circuit.bind } h.quiet
  have hcongr := foldl_congr g id { p with circuit := p.circuit.bind } h.quiet
  set q := p.circuit.log.foldl (Pipe.handle id) { p with circuit := p.circuit.bind } with hq
  have hcircuit : q.circuit = p.circuit.bind := by rw [hhandled.same]
  have hend : q.finished = p.circuit.done := by
    rw [hhandled.finished, hclosed]
    simp [h.finished]
  obtain ⟨hb, hdone, hlive, hpassed⟩ := bind_spec p.circuit
  have hall (g' : Pipe → Pipe) : p.call g' (·.bind) =
      (if p.circuit.done then [] else [.onWritable]).foldl (Pipe.handle g')
        (p.circuit.log.foldl (Pipe.handle g') { p with circuit := p.circuit.bind }) := by
    rw [Pipe.call, hbefore, hpassed]
    simp only [List.length_nil, List.drop_zero]
    rw [List.foldl_append]
  have hid : p.call id (·.bind) = q := by
    rw [hall, ← hq]
    split <;> rfl
  rw [hid]
  refine ⟨⟨hcircuit ▸ hb, hcircuit ▸ hlive h.live, by rw [hend, hcircuit, hdone], fun hfin => ?_,
    fun hgoes => ?_, hhandled.fine h.fine⟩, by rw [hhandled.same], fun hfin => ?_, fun hgoes => ?_⟩
  · rw [hhandled.held, hclosed, ← hend, if_pos hfin]
  · rw [hcircuit, hdone] at hgoes
    rw [hhandled.held, hclosed, if_neg (by simp [hgoes]), hhandled.same]
    simpa [h.accepted] using hheld
  · rw [hall, hcongr, ← hend, if_pos hfin]
    rfl
  · rw [hall, hcongr, ← hend, if_neg (by simp [hgoes])]
    rfl

/-- `pipeSocket` binds the circuit and flushes, once in `bind` and once at its end. -/
lemma Waiting.pipeSocket (h : Waiting p) (early : Option Bytes) :
    Inv (p.pipeSocket early) ∧ ((p.pipeSocket early).threw = true ↔ p.threw = true ∨
      ¬ (((p.opening early).call id (·.bind)).LinkTakes ∧
        ((p.opening early).call Pipe.flush (·.bind)).LinkTakes)) := by
  have hopening : Waiting (p.opening early) :=
    ⟨h.unbound, h.live, h.quiet, h.done, h.registered, h.finished, h.accepted, h.fine⟩
  obtain ⟨hinv, hsame, hend, hopen⟩ := hopening.bind rfl Pipe.flush
  have hfirst : Inv ((p.opening early).call Pipe.flush (·.bind)) ∧
      (((p.opening early).call Pipe.flush (·.bind)).threw = true ↔
        p.threw = true ∨ ¬ ((p.opening early).call id (·.bind)).LinkTakes) := by
    cases hfin : ((p.opening early).call id (·.bind)).finished with
    | true =>
      have htakes : ((p.opening early).call id (·.bind)).LinkTakes :=
        fun hno => absurd (hfin.symm.trans hno) (by decide)
      have hthrew : (p.opening early).threw = p.threw := rfl
      rw [hend hfin, hsame, hthrew]
      exact ⟨hinv, by simp [htakes]⟩
    | false =>
      obtain ⟨hflush, hthrew⟩ := hinv.flush
      rw [hopen hfin, hthrew, hsame]
      exact ⟨hflush, Iff.rfl⟩
  obtain ⟨hbound, hthrew⟩ := hfirst
  have heq : p.pipeSocket early =
      if ((p.opening early).call Pipe.flush (·.bind)).threw then
        (p.opening early).call Pipe.flush (·.bind)
      else { (p.opening early).call Pipe.flush (·.bind) with registered := true }.flush := rfl
  rw [heq]
  split
  · next hcrash =>
    refine ⟨hbound, hthrew.trans ?_⟩
    have hor := hthrew.mp hcrash
    constructor
    · exact fun h => h.imp id fun hno hboth => hno hboth.1
    · exact fun _ => hor
  · next hcalm =>
    have hregistered : Inv { (p.opening early).call Pipe.flush (·.bind) with registered := true } :=
      ⟨hbound.bound, hbound.live, hbound.finished, hbound.held, hbound.bytes, hbound.fine⟩
    obtain ⟨hflush, hlast⟩ := hregistered.flush
    refine ⟨hflush, hlast.trans ?_⟩
    rw [hthrew, not_or, not_not] at hcalm
    constructor
    · rintro (hcrash | hno)
      · exact absurd (hthrew.mp hcrash) (by simp [hcalm])
      · exact .inr fun hboth => hno hboth.2
    · rintro (hcrash | hno)
      · exact absurd hcrash hcalm.1
      · exact .inr fun htakes => hno ⟨hcalm.2, htakes⟩

/-- **What a turn does before `pipeSocket`, and what that does.** -/
theorem Waiting.step (h : Waiting p) (t : Turn) : (Waiting (p.step t) ∨ Inv (p.step t)) ∧
    ((p.step t).threw = true ↔ p.threw = true ∨ ¬ p.LinkHolds t) := by
  have hmet := h.meet t
  have hthrew : (p.meet t).threw = p.threw := rfl
  have hcall (f : SecureCircuit → SecureCircuit)
      (hs : Speaks (p.meet t).circuit (f (p.meet t).circuit)) {asked : List Pipe}
      (hasked : asked = [] ∨ asked = (p.meet t).askedIn f) :
      (Waiting ((p.meet t).call Pipe.flush f) ∨ Inv ((p.meet t).call Pipe.flush f)) ∧
        (((p.meet t).call Pipe.flush f).threw = true ↔ p.threw = true ∨ ¬ ∀ q ∈ asked,
          q.LinkTakes) := by
    obtain ⟨hwaits, heq, hnone⟩ := hmet.call hs Pipe.flush
    have hnil : asked = [] := hasked.elim id fun he => he.trans hnone
    rw [heq, hnil]
    exact ⟨.inl hwaits, by simp [hthrew]⟩
  unfold Pipe.step Pipe.LinkHolds Pipe.flushes
  cases t.happening with
  | pipeSocket early =>
    dsimp only
    rw [if_neg (by simp [hmet.unbound]), if_neg (by simp [hmet.unbound])]
    obtain ⟨hinv, hiff⟩ := hmet.pipeSocket early
    refine ⟨.inr hinv, hiff.trans ?_⟩
    rw [List.forall_mem_cons, List.forall_mem_singleton]
    exact Iff.rfl
  | data chunk =>
    dsimp only [Pipe.onSocketData]
    rw [if_pos (by simp [hmet.registered]), if_neg (by simp [hmet.registered])]
    exact ⟨.inl hmet, by simp [hthrew]⟩
  | socketEnd =>
    dsimp only [Pipe.onSocketEnd]
    rw [if_pos (by simp [hmet.registered])]
    exact ⟨.inl hmet, by simp [hthrew]⟩
  | socketError => exact ⟨.inl hmet, by simp [hthrew]⟩
  | socketClose hadError =>
    dsimp only [Pipe.onSocketClose]
    rw [if_pos (by simp [hmet.registered])]
    exact ⟨.inl hmet, by simp [hthrew]⟩
  | flushed n => exact hcall (·.consumed n) (.of_quiet (Quiet.consumed _ n)) (.inl rfl)
  | receive a => exact hcall (·.receive a) (Speaks.receive _ a) (.inr rfl)
  | poke => exact hcall (·.poke) (Speaks.poke _) (.inr rfl)
  | remoteDestroyed =>
    exact hcall (·.remoteDestroyed) (.of_quiet (Quiet.remoteDestroyed _)) (.inl rfl)
  | openPort port => exact hcall (·.openPort port) (.of_quiet (Quiet.openPort _ port)) (.inl rfl)
  | accept => exact hcall (·.accept) (Speaks.accept _) (.inr rfl)
  | reset code => exact hcall (·.reset code) (.of_quiet (Quiet.reset _ code)) (.inl rfl)
  | abort => exact hcall (·.abort) (.of_quiet (Quiet.abort _)) (.inl rfl)

end Waiting

/-! ### Runs -/

/-- A pipe to be, at a circuit that was just made. -/
def start (role : Role) (limits : ResolvedLimits) (abortCode : ℕ) (paused : Bool) : Pipe where
  circuit := { role, session := { limits } }
  abortCode
  paused

/-- Either side of `pipeSocket`, with nothing thrown. -/
def Calm (p : Pipe) : Prop := (Waiting p ∨ Inv p) ∧ p.threw = false

lemma calm_start (role : Role) (limits : ResolvedLimits) (abortCode : ℕ) (paused : Bool) :
    Calm (start role limits abortCode paused) := by
  refine ⟨.inl ⟨rfl, fun _ => ⟨rfl, fun _ => ⟨rfl, Nat.zero_le _⟩⟩, ?_, ?_, rfl, rfl, rfl, ?_⟩, rfl⟩
  · simp [start, SecureCircuit.log]
  · simp [start, SecureCircuit.log]
  · simp [start]

lemma Calm.step {p : Pipe} (h : Calm p) (t : Turn) : (Waiting (p.step t) ∨ Inv (p.step t)) ∧
    ((p.step t).threw = true ↔ ¬ p.LinkHolds t) := by
  obtain ⟨hwaits | hinv, hthrew⟩ := h
  · obtain ⟨hstep, hiff⟩ := hwaits.step t
    exact ⟨hstep, by simpa [hthrew] using hiff⟩
  · obtain ⟨hstep, hiff⟩ := hinv.step t
    exact ⟨.inr hstep, by simpa [hthrew] using hiff⟩

/-- A turn keeps what is promised exactly where the link holds in it. -/
lemma Calm.sound_iff {p : Pipe} (h : Calm p) (t : Turn) : Sound (p.step t) ↔ p.LinkHolds t := by
  obtain ⟨hstep, hiff⟩ := h.step t
  constructor
  · intro hsound
    by_contra hno
    exact absurd (hsound.threw.symm.trans (hiff.mpr hno)) (by decide)
  · intro hholds
    have hcalm : (p.step t).threw = false := by
      rw [← Bool.not_eq_true, hiff, not_not]
      exact hholds
    obtain hwaits | hinv := hstep
    · refine ⟨hcalm, hwaits.fine, fun hbound => ?_⟩
      exact absurd (hwaits.unbound.symm.trans hbound) (by decide)
    · exact ⟨hcalm, hinv.fine, fun _ => hinv.bytes⟩

/-- **The pipe moves bytes without loss and without a crash exactly where the link takes every frame
that a flush writes**: in every run of the socket, the circuit and its owner. -/
theorem pipe_socket (role : Role) (limits : ResolvedLimits) (abortCode : ℕ) (paused : Bool)
    (turns : List Turn) :
    Allowed Pipe.step (fun p t => Sound (p.step t)) (start role limits abortCode paused) turns ↔
      Allowed Pipe.step Pipe.LinkHolds (start role limits abortCode paused) turns := by
  refine allowed_congr (I := Calm) (fun p t hsound h => ?_) (fun p t h => h.sound_iff t)
    (calm_start role limits abortCode paused) turns
  exact ⟨(h.step t).1, hsound.threw⟩

/-! ### A link that fails -/

/-- A socket is piped to an open circuit, and its first byte finds the relay gone. -/
def linkLost : List Turn :=
  [⟨{}, false, .receive { payload := .ok (.data [2]) }⟩, ⟨{}, false, .pipeSocket none⟩,
    ⟨{ sends := [false] }, false, .data [7]⟩]

/-- The flush that finds the link gone throws. -/
theorem linkLost_throws :
    ¬ ∀ (role : Role) (limits : ResolvedLimits) (abortCode : ℕ) (paused : Bool)
      (turns : List Turn),
      Allowed Pipe.step (fun p t => Sound (p.step t)) (start role limits abortCode paused)
        turns := by
  intro h
  have hsound := (h .client defaultLimits 0 false linkLost).2.2.1
  have hthrew : (run Pipe.step (start .client defaultLimits 0 false) linkLost).threw = true := by
    decide
  exact absurd (hthrew.symm.trans hsound.threw) (by decide)

end Tnp.Client.PipeSocket
