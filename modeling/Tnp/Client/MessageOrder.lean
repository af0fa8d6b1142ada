import Tnp.Client.Circuit
import Tnp.Lib.Fallible
import Tnp.Lib.Run

/-!
In what order one end of a circuit acts on the messages of its peer.

The first message is the peer's hello: `OPEN` for the service, `OPENED` for the client. What the
specification lets follow is stated on the messages heard so far. The end itself keeps but one
flag of them, and the client also sets it for a first `WINDOW`: then it acts on what only a hello
should let it act on.
-/

namespace Tnp.Client.MessageOrder

open Tnp.Lib Tnp.Lib.Run Tnp.Protocol Tnp.Protocol.Session Tnp.Protocol.SessionChannel
open Tnp.Client.Circuit Tnp.Client.Circuit.SecureCircuit

/-! ### The specification -/

/-- The message that an end must hear first. -/
def isHello : Role → StreamMessage → Bool
  | .client, .opened => true
  | .service, .opening _ => true
  | _, _ => false

def isReset : StreamMessage → Bool
  | .reset _ => true
  | _ => false

/-- The message may be heard after these: the hello first and once, data and the end of it between
the hello and the end, credit after the hello, an abort at any time, and nothing after one. -/
def mayFollow (r : Role) (heard : List StreamMessage) (m : StreamMessage) : Bool :=
  !heard.any isReset &&
    match m with
    | .opening _ | .opened => isHello r m && heard.isEmpty
    | .data _ | .fin => heard.any (isHello r) && !heard.contains .fin
    | .window _ => heard.any (isHello r)
    | .reset _ => true

/-- What acting on a message changes. -/
def ActedOn (c c' : SecureCircuit) : StreamMessage → Prop
  | .opening port => c'.hooks = c.hooks ++ [.onOpen port]
  | .opened => c'.hooks = c.hooks ++ [.onOpened]
  | .data data => c'.log = c.log ++ [.onData data]
  | .fin => c.log ++ [.onEnd] <+: c'.log
  | .window credit => ∃ h : credit ≤ MAX_WINDOW_CREDIT,
      c'.sendWindow = c.sendWindow.grant ⟨credit, h⟩
  | .reset code => c'.done = true ∧
      c'.log = c.log ++ [.onClose (some ⟨"peer reset the stream", .ofValue code⟩)]

/-- The circuit ends with the error, and nothing else happens. -/
def EndsWith (c c' : SecureCircuit) (error : SessionError) : Prop :=
  c'.done = true ∧ c'.log = c.log ++ [.onClose (some error)] ∧
    c'.hooks = c.hooks ++ [.onDone (some error)] ∧ c'.sendWindow = c.sendWindow

def outOfOrder : SessionError := ⟨"stream message out of order", .PROTOCOL_VIOLATION⟩

def overWindow : SessionError := ⟨"peer exceeded its flow-control window", .FLOW_CONTROL⟩

/-- Data beyond the window the peer was granted. -/
def Exceeds (c : SecureCircuit) : StreamMessage → Prop
  | .data data => STREAM_WINDOW_INITIAL < c.receivedUngranted + data.length
  | _ => False

/-! ### One end, and what it hears -/

/-- One end, and the messages it opened so far. -/
structure Listener where
  circuit : SecureCircuit
  heard : List StreamMessage := []

inductive Call
  | openPort (port : ℕ)
  | accept
  | write (data : Bytes)
  | consumed (n : ℕ)
  | endWriting
  | reset (code : ℕ)
  | abort
  | bind
  | poke
  | remoteDestroyed

/-- A frame arrives, or the owner calls, with what the connection answers meanwhile. -/
inductive Turn
  | receive (link : Link) (a : Arrival)
  | call (link : Link) (call : Call)

/-- The stream message that a frame brings a circuit, with the session after it. -/
def opens (c : SecureCircuit) (a : Arrival) : Option (Channel × StreamMessage) :=
  if c.done || a.type ≠ .STREAM_DATA || a.streamId ≠ E2E_STREAM_ID || a.flags ≠ 0 then none
  else
    match c.session.receive a.payload with
    | (session, .ok (.data plaintext)) =>
      (decodeStreamMessage plaintext).toOption.map fun m => (session, m)
    | _ => none

def doCall (c : SecureCircuit) : Call → SecureCircuit
  | .openPort port => c.openPort port
  | .accept => c.accept
  | .write data => (c.write data).1
  | .consumed n => c.consumed n
  | .endWriting => c.endWriting
  | .reset code => c.reset code
  | .abort => c.abort
  | .bind => c.bind
  | .poke => c.poke
  | .remoteDestroyed => c.remoteDestroyed

def Listener.step (l : Listener) : Turn → Listener
  | .receive link a =>
    let c := { l.circuit with link := link }
    { circuit := c.receive a
      heard := l.heard ++ ((opens c a).map Prod.snd).toList }
  | .call link call => { l with circuit := doCall { l.circuit with link := link } call }

/-- **What is promised of a turn**: a message that may follow is acted on, unless it exceeds the
window; any other ends the circuit as out of order. -/
def InOrder (l : Listener) : Turn → Prop
  | .receive link a =>
    let c := { l.circuit with link := link }
    ∀ o ∈ opens c a,
      if mayFollow c.role l.heard o.2 then
        ActedOn c (c.receive a) o.2 ∨ Exceeds c o.2 ∧ EndsWith c (c.receive a) overWindow
      else EndsWith c (c.receive a) outOfOrder
  | .call _ _ => True

/-- A client does not hear a `WINDOW` first. -/
def NoWindowFirst (l : Listener) : Turn → Prop
  | .receive link a =>
    ∀ o ∈ opens { l.circuit with link := link } a,
      l.circuit.role = .client → l.heard = [] → ∀ credit, o.2 ≠ .window credit
  | .call _ _ => True

/-! ### What a call leaves -/

/-- Nothing was heard meanwhile. -/
structure Deaf (c c' : SecureCircuit) : Prop where
  role : c'.role = c.role
  started : c'.started = c.started
  peerFin : c'.peerFin = c.peerFin
  alive : c'.done = false → c.done = false

namespace Deaf

variable {c c' c'' : SecureCircuit}

lemma refl (c : SecureCircuit) : Deaf c c := ⟨rfl, rfl, rfl, id⟩

lemma trans (h : Deaf c c') (h' : Deaf c' c'') : Deaf c c'' where
  role := h'.role.trans h.role
  started := h'.started.trans h.started
  peerFin := h'.peerFin.trans h.peerFin
  alive hd := h.alive (h'.alive hd)

/-- A change that nothing was heard in comes before. -/
lemma after {d : SecureCircuit} (h : Deaf d c') (hc : Deaf c d) : Deaf c c' := hc.trans h

lemma of_sends (h : Sends c c') : Deaf c c' where
  role := h.role
  started := by rw [h.same]
  peerFin := h.peerFin
  alive hd := (h.alive hd).1

lemma finish (c : SecureCircuit) (error : Option SessionError) (notify force : Bool) :
    Deaf c (c.finish error notify force) := by
  by_cases hd : c.done = true
  · rw [finish_of_done hd]
    exact refl _
  · obtain ⟨hdone, -, -, -, hsame⟩ := finish_spec (by simpa using hd) error notify force
    refine ⟨?_, ?_, ?_, fun hlive => by simp [hdone] at hlive⟩ <;> rw [hsame]

lemma sendMessage (c : SecureCircuit) (m : StreamMessage) : Deaf c (c.sendMessage m).2 :=
  of_sends (sendMessage_spec c m).1

lemma sendSessionClose (c : SecureCircuit) : Deaf c c.sendSessionClose :=
  of_sends (sendSessionClose_spec c).1

lemma notifyWritable (c : SecureCircuit) : Deaf c c.notifyWritable := by
  unfold SecureCircuit.notifyWritable
  split
  · exact refl c
  · exact ⟨rfl, rfl, rfl, id⟩

lemma maybeComplete (c : SecureCircuit) : Deaf c c.maybeComplete := by
  unfold SecureCircuit.maybeComplete
  split
  · exact finish c _ _ _
  · exact refl _

lemma maybeClose (c : SecureCircuit) : Deaf c c.maybeClose := by
  unfold SecureCircuit.maybeClose
  split
  · exact (sendSessionClose c).trans (maybeComplete _)
  · exact refl _

lemma writable (c : SecureCircuit) : Deaf c c.writable.2 := by
  unfold SecureCircuit.writable
  split
  · exact refl _
  · have hlink : Deaf c c.linkCongested.2 := ⟨rfl, rfl, rfl, id⟩
    dsimp only
    split
    · exact hlink
    · split <;> exact hlink

lemma writeLoop (fuel : ℕ) (c : SecureCircuit) (data : Bytes) :
    Deaf c (SecureCircuit.writeLoop fuel c data).1 := by
  induction fuel generalizing c data with
  | zero => exact refl _
  | succ fuel ih =>
    have hroom := writable c
    unfold SecureCircuit.writeLoop
    split
    · exact refl _
    dsimp only
    split
    · exact hroom
    split
    swap
    · exact hroom
    split
    · exact hroom
    next sendWindow _ =>
    have hsend : Deaf c ({ c.writable.2 with sendWindow } : SecureCircuit) :=
      hroom.trans ⟨rfl, rfl, rfl, id⟩
    have hmessage := sendMessage { c.writable.2 with sendWindow }
      (.data (data.take (min c.writable.1 data.length)))
    split
    · next heq =>
      rw [heq] at hmessage
      exact hsend.trans hmessage
    · next heq =>
      rw [heq] at hmessage
      exact (hsend.trans hmessage).trans (ih _ _)

lemma consumed (c : SecureCircuit) (n : ℕ) : Deaf c (c.consumed n) := by
  unfold SecureCircuit.consumed
  split
  · exact refl c
  dsimp only
  split
  · split
    · exact ⟨rfl, rfl, rfl, id⟩
    · exact after (sendMessage _ _) ⟨rfl, rfl, rfl, id⟩
  · exact ⟨rfl, rfl, rfl, id⟩

lemma doCall (c : SecureCircuit) (call : Call) : Deaf c (MessageOrder.doCall c call) := by
  cases call with
  | openPort port =>
    simp only [MessageOrder.doCall, openPort]
    split
    · exact refl c
    · exact sendMessage c _
  | accept =>
    simp only [MessageOrder.doCall, accept]
    split
    · exact refl c
    · exact after (notifyWritable _) (after (sendMessage _ _) ⟨rfl, rfl, rfl, id⟩)
  | write data => exact writeLoop _ c data
  | consumed n => exact consumed c n
  | endWriting =>
    simp only [MessageOrder.doCall, endWriting]
    split
    · exact refl c
    · exact after (maybeClose _) (after (sendMessage _ _) ⟨rfl, rfl, rfl, id⟩)
  | reset code =>
    simp only [MessageOrder.doCall, SecureCircuit.reset]
    split
    · exact refl c
    · exact ((sendMessage c _).trans (sendSessionClose _)).trans (finish _ _ _ _)
  | abort =>
    simp only [MessageOrder.doCall, abort]
    split
    · exact refl c
    · exact finish c _ _ _
  | bind =>
    have hbound : Deaf c { c with delivery := .bound c.log } := ⟨rfl, rfl, rfl, id⟩
    simp only [MessageOrder.doCall, SecureCircuit.bind]
    split
    · exact hbound
    · exact hbound.trans (notifyWritable _)
  | poke =>
    simp only [MessageOrder.doCall, poke]
    split
    · exact refl c
    · exact notifyWritable c
  | remoteDestroyed =>
    simp only [MessageOrder.doCall, remoteDestroyed]
    split
    · exact refl c
    · split <;> exact finish c _ _ _

/-- A frame that brings no message. -/
lemma receive {c : SecureCircuit} {a : Arrival} (h : opens c a = none) : Deaf c (c.receive a) := by
  unfold SecureCircuit.receive
  split
  · exact refl c
  next hlive =>
  split
  · unfold remoteDestroyed
    split
    · exact refl c
    · split <;> exact finish c _ _ _
  split
  · exact finish c _ _ _
  next hframe =>
  have hfirst : ¬ (c.done || a.type ≠ .STREAM_DATA || a.streamId ≠ E2E_STREAM_ID ||
      a.flags ≠ 0) = true := by
    simpa [hlive] using hframe
  unfold opens at h
  rw [if_neg hfirst] at h
  split
  · next session err _ =>
    have hsession : Deaf c { c with session } := ⟨rfl, rfl, rfl, id⟩
    exact hsession.trans (finish _ _ _ _)
  · next session r hreceive =>
    rw [hreceive] at h
    have hopened : Deaf c { c with session := session, opened := c.opened + 1 } :=
      ⟨rfl, rfl, rfl, id⟩
    cases r with
    | keyUpdate => exact hopened
    | close =>
      refine hopened.trans ?_
      simp only [handleRecord]
      split
      · exact after (finish _ _ _ _) ⟨rfl, rfl, rfl, id⟩
      · exact after (maybeComplete _) ⟨rfl, rfl, rfl, id⟩
    | data plaintext =>
      refine hopened.trans ?_
      simp only [handleRecord]
      cases hm : decodeStreamMessage plaintext with
      | error e => exact finish _ _ _ _
      | ok m => simp [hm, Except.toOption] at h

end Deaf

/-- A frame that brings a message hands it on. -/
lemma receive_eq {c : SecureCircuit} {a : Arrival} {session : Channel} {m : StreamMessage}
    (h : opens c a = some (session, m)) : c.done = false ∧
      (∃ plaintext, decodeStreamMessage plaintext = .ok m) ∧
      c.receive a = { c with session := session, opened := c.opened + 1 }.handleMessage m := by
  unfold opens at h
  split at h
  · simp at h
  next hfirst =>
  simp only [Bool.or_eq_true, not_or, Bool.not_eq_true, decide_eq_true_eq, not_not] at hfirst
  obtain ⟨⟨⟨hlive, htype⟩, hstream⟩, hflags⟩ := hfirst
  split at h
  · next session' plaintext hreceive =>
    obtain ⟨m', hm, hsame⟩ := Option.map_eq_some_iff.mp h
    obtain ⟨rfl, rfl⟩ := Prod.mk.inj hsame
    have hdecode := toOption_eq_some.mp hm
    refine ⟨hlive, ⟨plaintext, hdecode⟩, ?_⟩
    unfold SecureCircuit.receive
    rw [if_neg (by simp [hlive]), if_neg (by simp [htype]), if_neg (by simp [htype, hstream,
      hflags]), hreceive]
    simp only [handleRecord, hdecode]
  · simp at h

/-! ### One message -/

section Message

variable {c : SecureCircuit} {heard : List StreamMessage} {m : StreamMessage}

/-- What a circuit that still listens keeps of what it heard. -/
structure Heard (c : SecureCircuit) (heard : List StreamMessage) : Prop where
  started : c.started = !heard.isEmpty
  peerFin : c.peerFin = heard.contains .fin
  noReset : heard.any isReset = false
  hello : heard ≠ [] → heard.any (isHello c.role) = true

lemma fail_endsWith (hd : c.done = false) (error : SessionError) :
    EndsWith c (c.fail error) error := by
  obtain ⟨hdone, hlog, -, -, hsame⟩ := finish_spec hd (some error) true true
  refine ⟨hdone, hlog, ?_, ?_⟩
  · simp [fail, finish, hd, linkSend, emit]
  · change (c.finish (some error) true true).sendWindow = c.sendWindow
    rw [hsame]

lemma credit_le {plaintext : Bytes} {credit : ℕ}
    (h : decodeStreamMessage plaintext = .ok (.window credit)) : credit ≤ MAX_WINDOW_CREDIT := by
  cases plaintext with
  | nil => simp [decodeStreamMessage] at h
  | cons type body =>
    change decodeBody type body = .ok (.window credit) at h
    unfold decodeBody at h
    split_ifs at h with h1 h2 h3 h4 h5 h6 h7 h8 h9 h10 h11 h12 <;> simp at h
    subst h
    have hlt := ofBe_lt body
    rw [not_not.mp h11] at hlt
    unfold MAX_WINDOW_CREDIT
    omega

lemma Sends.log_prefix {c c' : SecureCircuit} (h : Sends c c') : c.log <+: c'.log := by
  obtain ⟨-, hlog⟩ | ⟨-, -, _, hlog⟩ := h.ended
  · exact hlog ▸ List.prefix_rfl
  · rw [hlog]
    exact List.prefix_append _ _

lemma log_finish (c : SecureCircuit) (error : Option SessionError) (notify force : Bool) :
    c.log <+: (c.finish error notify force).log := by
  by_cases hd : c.done = true
  · exact (finish_of_done hd error notify force).symm ▸ List.prefix_rfl
  · rw [(finish_spec (by simpa using hd) error notify force).2.1]
    exact List.prefix_append _ _

lemma log_maybeClose (c : SecureCircuit) : c.log <+: c.maybeClose.log := by
  unfold maybeClose
  split
  · refine (Sends.log_prefix (sendSessionClose_spec c).1).trans ?_
    unfold maybeComplete
    split
    · exact log_finish _ _ _ _
    · exact List.prefix_rfl
  · exact List.prefix_rfl

lemma notifyWritable_hooks (c : SecureCircuit) : c.notifyWritable.hooks = c.hooks := by
  unfold notifyWritable
  split <;> rfl

lemma notifyWritable_sendWindow (c : SecureCircuit) :
    c.notifyWritable.sendWindow = c.sendWindow := by
  unfold notifyWritable
  split <;> rfl

/-- **A message is acted on where it may follow what was heard**, unless a client hears a `WINDOW`
first. -/
theorem handleMessage_spec (h : Heard c heard) (hd : c.done = false)
    (hdecoded : ∃ plaintext, decodeStreamMessage plaintext = .ok m)
    (hfirst : c.role = .client → heard = [] → ∀ credit, m ≠ .window credit) :
    if mayFollow c.role heard m then
      ActedOn c (c.handleMessage m) m ∨ Exceeds c m ∧ EndsWith c (c.handleMessage m) overWindow
    else EndsWith c (c.handleMessage m) outOfOrder := by
  have hstarted : ({ c with started := true } : SecureCircuit).done = false := hd
  have hviolation : EndsWith c ({ c with started := true } : SecureCircuit).violation outOfOrder :=
    fail_endsWith hstarted outOfOrder
  cases m with
  | opening port =>
    cases hrole : c.role with
    | client => simpa [mayFollow, isHello, handleMessage, hrole] using hviolation
    | service =>
      cases heard with
      | nil => simp [mayFollow, isHello, handleMessage, hrole, h.started, ActedOn]
      | cons first rest =>
        simpa [mayFollow, isHello, handleMessage, hrole, h.started] using hviolation
  | opened =>
    cases hrole : c.role with
    | service => simpa [mayFollow, isHello, handleMessage, hrole] using hviolation
    | client =>
      cases heard with
      | nil =>
        have hacted : c.handleMessage .opened = notifyWritable
            { c with started := true, hooks := c.hooks ++ [.onOpened] } := by
          simp only [handleMessage]
          rw [if_neg (by simp [h.started, hrole])]
        rw [if_pos (by rfl), hacted]
        exact .inl (notifyWritable_hooks _)
      | cons first rest =>
        simpa [mayFollow, isHello, handleMessage, hrole, h.started] using hviolation
  | reset code =>
    have hmay : mayFollow c.role heard (.reset code) = true := by simp [mayFollow, h.noReset]
    obtain ⟨hdone, hlog, -⟩ := finish_spec hstarted
      (some ⟨"peer reset the stream", .ofValue code⟩) true false
    rw [if_pos hmay]
    exact .inl ⟨hdone, hlog⟩
  | window credit =>
    obtain ⟨plaintext, hplaintext⟩ := hdecoded
    have hle := credit_le hplaintext
    cases heard with
    | nil =>
      cases hrole : c.role with
      | client => exact absurd rfl (hfirst hrole rfl credit)
      | service =>
        simpa [mayFollow, handleMessage, handleWindow, hrole, h.started] using hviolation
    | cons first rest =>
      have hmay : mayFollow c.role (first :: rest) (.window credit) = true := by
        simp only [mayFollow, h.noReset, h.hello (List.cons_ne_nil _ _), Bool.not_false,
          Bool.and_self]
      rw [if_pos hmay]
      refine .inl ⟨hle, ?_⟩
      simp [handleMessage, handleWindow, h.started, hle, notifyWritable_sendWindow]
  | data data =>
    cases heard with
    | nil => simpa [mayFollow, handleMessage, handleData, h.started] using hviolation
    | cons first rest =>
      have hmay : mayFollow c.role (first :: rest) (.data data) = !c.peerFin := by
        simp only [mayFollow, h.noReset, h.hello (List.cons_ne_nil _ _), Bool.not_false,
          Bool.true_and, h.peerFin]
      cases hfin : c.peerFin with
      | true =>
        rw [hmay, hfin]
        simpa [handleMessage, handleData, h.started, hfin] using hviolation
      | false =>
        rw [hmay, hfin]
        by_cases hover : STREAM_WINDOW_INITIAL < c.receivedUngranted + data.length
        · have hended := fail_endsWith hstarted overWindow
          have hfailed : c.handleMessage (.data data) =
              ({ c with started := true } : SecureCircuit).fail overWindow := by
            simp only [handleMessage, handleData]
            rw [if_neg (by simp [h.started, hfin]), if_pos hover]
            rfl
          rw [hfailed]
          exact .inr ⟨hover, hended⟩
        · refine .inl ?_
          simp only [ActedOn, handleMessage, handleData, h.started, hfin, hover, List.isEmpty_cons,
            Bool.not_false, Bool.not_true, Bool.or_self, Bool.false_eq_true, if_false]
          exact log_emit _
  | fin =>
    cases heard with
    | nil => simpa [mayFollow, handleMessage, handleFin, h.started] using hviolation
    | cons first rest =>
      have hmay : mayFollow c.role (first :: rest) .fin = !c.peerFin := by
        simp only [mayFollow, h.noReset, h.hello (List.cons_ne_nil _ _), Bool.not_false,
          Bool.true_and, h.peerFin]
      cases hfin : c.peerFin with
      | true =>
        rw [hmay, hfin]
        simpa [handleMessage, handleFin, h.started, hfin] using hviolation
      | false =>
        rw [hmay, hfin]
        refine .inl ?_
        simp only [ActedOn, handleMessage, handleFin, h.started, hfin, List.isEmpty_cons,
          Bool.not_false, Bool.not_true, Bool.or_self, Bool.false_eq_true, if_false]
        refine List.IsPrefix.trans ?_ (log_maybeClose _)
        rw [log_emit]
        exact List.prefix_rfl

/-- What is kept of a message that did not end the circuit. -/
lemma handleMessage_keeps (hlive : (c.handleMessage m).done = false) :
    (c.handleMessage m).role = c.role ∧ (c.handleMessage m).started = true ∧
      (c.handleMessage m).peerFin = (c.peerFin || decide (m = .fin)) := by
  have hended (error : Option SessionError) (notify force : Bool) (d : SecureCircuit) :
      (d.finish error notify force).done ≠ false := by simp [finish_done]
  have hdeaf (d d' : SecureCircuit) (h : Deaf d d') (hrole : d.role = c.role)
      (hstarted : d.started = true) :
      d'.role = c.role ∧ d'.started = true ∧ d'.peerFin = d.peerFin :=
    ⟨h.role.trans hrole, h.started.trans hstarted, h.peerFin⟩
  cases m with
  | opening port =>
    simp only [handleMessage] at hlive ⊢
    split at hlive
    · exact absurd hlive (hended _ _ _ _)
    · next hok =>
      rw [if_neg hok]
      simp
  | opened =>
    simp only [handleMessage] at hlive ⊢
    split at hlive
    · exact absurd hlive (hended _ _ _ _)
    · next hok =>
      rw [if_neg hok]
      simpa using hdeaf _ _ (.notifyWritable { c with started := true, hooks := _ }) rfl rfl
  | reset code => exact absurd hlive (hended _ _ _ _)
  | window credit =>
    simp only [handleMessage, handleWindow] at hlive ⊢
    split at hlive
    · exact absurd hlive (hended _ _ _ _)
    next hok =>
    rw [if_neg hok]
    split
    · simpa using hdeaf _ _ (.notifyWritable { c with started := true, sendWindow := _ }) rfl rfl
    · simp
  | data data =>
    simp only [handleMessage, handleData] at hlive ⊢
    split at hlive
    · exact absurd hlive (hended _ _ _ _)
    next hok =>
    rw [if_neg hok]
    split at hlive
    · exact absurd hlive (hended _ _ _ _)
    next hfits =>
    rw [if_neg hfits]
    simp [emit]
  | fin =>
    simp only [handleMessage, handleFin] at hlive ⊢
    split at hlive
    · exact absurd hlive (hended _ _ _ _)
    next hok =>
    rw [if_neg hok]
    simpa [emit] using hdeaf _ _ (.maybeClose (emit { c with started := true, peerFin := true }
      .onEnd)) rfl rfl

/-- After a message that was acted on, a circuit that still listens keeps what it heard. -/
lemma Heard.handleMessage (h : Heard c heard) (hmay : mayFollow c.role heard m = true)
    (hlive : (c.handleMessage m).done = false) : Heard (c.handleMessage m) (heard ++ [m]) := by
  obtain ⟨hrole, hstarted, hfin⟩ := handleMessage_keeps hlive
  have hnoReset : isReset m = false := by
    cases m with
    | reset code => simp [SecureCircuit.handleMessage, finish_done] at hlive
    | _ => rfl
  refine ⟨by simp [hstarted], ?_, ?_, fun _ => ?_⟩
  · rw [hfin, h.peerFin, List.contains_append]
    congr 1
    cases m <;> rfl
  · rw [List.any_append, h.noReset]
    simpa using hnoReset
  · rw [hrole, List.any_append, List.any_cons, List.any_nil, Bool.or_false]
    cases heard with
    | cons first rest => rw [h.hello (List.cons_ne_nil _ _), Bool.true_or]
    | nil =>
      rw [List.any_nil, Bool.false_or]
      cases m <;> simp_all [mayFollow, isReset]

end Message

/-! ### Runs -/

/-- An end that is not done keeps what it heard. -/
def Listening (l : Listener) : Prop := l.circuit.done = false → Heard l.circuit l.heard

lemma Heard.frame {c c' : SecureCircuit} {heard : List StreamMessage} (h : Heard c heard)
    (hdeaf : Deaf c c') : Heard c' heard :=
  ⟨hdeaf.started.trans h.started, hdeaf.peerFin.trans h.peerFin, h.noReset,
    fun hne => hdeaf.role.symm ▸ h.hello hne⟩

lemma Listening.step {l : Listener} {t : Turn} (hin : InOrder l t) (h : Listening l) :
    Listening (l.step t) := by
  intro hlive
  cases t with
  | call link call =>
    have hdeaf := Deaf.doCall { l.circuit with link := link } call
    have hheard := h (hdeaf.alive hlive)
    exact Heard.frame (c := { l.circuit with link := link })
      ⟨hheard.started, hheard.peerFin, hheard.noReset, hheard.hello⟩ hdeaf
  | receive link a =>
    simp only [Listener.step] at hlive ⊢
    cases hopens : opens { l.circuit with link := link } a with
    | none =>
      have hdeaf := Deaf.receive hopens
      have hheard := h (hdeaf.alive hlive)
      simpa using Heard.frame (c := { l.circuit with link := link })
        ⟨hheard.started, hheard.peerFin, hheard.noReset, hheard.hello⟩ hdeaf
    | some o =>
      obtain ⟨session, m⟩ := o
      obtain ⟨hd, -, heq⟩ := receive_eq hopens
      have hheard := h hd
      have hmay : mayFollow l.circuit.role l.heard m = true := by
        by_contra hnot
        have hended := hin (session, m) hopens
        rw [if_neg hnot] at hended
        simp [hended.1] at hlive
      rw [heq] at hlive ⊢
      exact Heard.handleMessage ⟨hheard.started, hheard.peerFin, hheard.noReset, hheard.hello⟩
        hmay hlive

/-- A `WINDOW` does not end a client. -/
lemma handleMessage_window_done {c : SecureCircuit} (hd : c.done = false)
    (hrole : c.role = .client) (credit : ℕ) :
    (c.handleMessage (.window credit)).done = false := by
  have hkeeps (d : SecureCircuit) (h : d.done = false) : d.notifyWritable.done = false := by
    unfold notifyWritable
    split <;> exact h
  simp only [handleMessage, handleWindow, hrole]
  rw [if_neg (by simp)]
  split
  · exact hkeeps _ hd
  · exact hd

/-- A turn is in order where a client does not hear a `WINDOW` first. -/
lemma inOrder_iff {l : Listener} {t : Turn} (h : Listening l) :
    InOrder l t ↔ NoWindowFirst l t := by
  cases t with
  | call link call => exact Iff.rfl
  | receive link a =>
    constructor
    · rintro hin ⟨session, m⟩ hopens hrole hheard credit rfl
      obtain ⟨hd, -, heq⟩ := receive_eq hopens
      have hended := hin _ hopens
      rw [hheard, if_neg (by simp [mayFollow])] at hended
      have hlive := handleMessage_window_done
        (c := { l.circuit with link := link, session := session, opened := l.circuit.opened + 1 })
        hd hrole credit
      have hdone := hended.1
      rw [heq] at hdone
      exact Bool.false_ne_true (hlive.symm.trans hdone)
    · rintro hfirst ⟨session, m⟩ hopens
      obtain ⟨hd, hdecoded, heq⟩ := receive_eq hopens
      have hheard := h hd
      simp only [heq]
      exact handleMessage_spec
        (c := { l.circuit with link := link, session := session, opened := l.circuit.opened + 1 })
        ⟨hheard.started, hheard.peerFin, hheard.noReset, hheard.hello⟩ hd hdecoded
        fun hrole hnil credit => hfirst _ hopens hrole hnil credit

/-- A turn of an end that goes on does not change whose end it is. -/
lemma step_role {l : Listener} {t : Turn} (hlive : (l.step t).circuit.done = false) :
    l.circuit.done = false ∧ (l.step t).circuit.role = l.circuit.role := by
  cases t with
  | call link call =>
    have hdeaf := Deaf.doCall { l.circuit with link := link } call
    exact ⟨hdeaf.alive hlive, hdeaf.role⟩
  | receive link a =>
    simp only [Listener.step] at hlive ⊢
    cases hopens : opens { l.circuit with link := link } a with
    | none =>
      have hdeaf := Deaf.receive hopens
      exact ⟨hdeaf.alive hlive, hdeaf.role⟩
    | some o =>
      obtain ⟨hd, -, heq⟩ := receive_eq hopens
      rw [heq] at hlive ⊢
      exact ⟨hd, (handleMessage_keeps hlive).1⟩

/-- An end that heard and sent nothing yet. -/
def fresh (r : Role) (session : Channel) : Listener where
  circuit := { role := r, session }

lemma fresh_listening (r : Role) (session : Channel) : Listening (fresh r session) :=
  fun _ => ⟨rfl, rfl, rfl, fun hne => absurd rfl hne⟩

/-- A service hears no message out of order without ending on it. -/
lemma service_inOrder (session : Channel) (turns : List Turn) :
    Allowed Listener.step InOrder (fresh .service session) turns := by
  let serving (l : Listener) : Prop :=
    Listening l ∧ (l.circuit.done = false → l.circuit.role = .service)
  have hin (l : Listener) (t : Turn) (h : serving l) : InOrder l t := by
    refine (inOrder_iff h.1).mpr ?_
    cases t with
    | call link call => trivial
    | receive link a =>
      intro o hopens hclient
      have hservice := h.2 (receive_eq hopens).1
      exact absurd (hclient.symm.trans hservice) (by decide)
  have hstep (l : Listener) (t : Turn) (h : serving l) : serving (l.step t) := by
    refine ⟨h.1.step (hin l t h), fun hlive => ?_⟩
    obtain ⟨hd, hrole⟩ := step_role hlive
    exact hrole.trans (h.2 hd)
  exact allowed_of_invariant (fun l t _ h => hstep l t h) (fun l t _ h => hin l t h)
    ⟨fresh_listening .service session, fun _ => rfl⟩
    (allowed_of_always (P := fun _ _ => True) (fun _ _ => trivial) _ turns)

/-- **Each end acts on its peer's messages in their order alone**, and ends on any other as out of
order: in every run of a client exactly where it does not hear a `WINDOW` first, in every run of a
service without condition. -/
theorem message_order (r : Role) (session : Channel) (turns : List Turn) :
    (Allowed Listener.step InOrder (fresh r session) turns ↔
      Allowed Listener.step NoWindowFirst (fresh r session) turns) ∧
    (r = .service → Allowed Listener.step InOrder (fresh r session) turns) := by
  refine ⟨allowed_congr (fun _ _ hin h => Listening.step hin h)
    (fun _ _ h => inOrder_iff h) (fresh_listening r session) turns, ?_⟩
  rintro rfl
  exact service_inOrder session turns

/-! ### A client that hears a WINDOW first -/

/-- A credit of one byte, before any `OPENED`. -/
def windowFirst : List Turn :=
  [.receive {} { payload := .ok (.data [5, 0, 0, 0, 1]) }]

/-- A client acts on credit before `OPENED`. -/
theorem windowFirst_acted_on :
    ¬ ∀ (r : Role) (session : Channel) (turns : List Turn),
      Allowed Listener.step InOrder (fresh r session) turns := by
  intro h
  have hin := (h .client { limits := defaultLimits } windowFirst).1
  have hopens : opens (fresh .client { limits := defaultLimits }).circuit
      { payload := .ok (.data [5, 0, 0, 0, 1]) } =
        some ({ limits := defaultLimits }, .window 1) := by
    decide
  have hended := hin _ hopens
  rw [if_neg (by decide)] at hended
  exact absurd hended.1 (by decide)

end Tnp.Client.MessageOrder
