import Tnp.Client.VerifyOverlay
import Tnp.Lib.Run
import Tnp.Namespace.Policy
import Tnp.Protocol.Constants

/-!
The handshake of the SOCKS proxy.

What has come of the greeting and the request is read from the start again with every chunk. So
what the proxy does of a stream is read off the stream, however it was cut.
-/

namespace Tnp.Client.Socks

open Tnp.Lib Tnp.Namespace Tnp.Protocol
open Tnp.Client.VerifyOverlay (OverlayRefusal)

def SOCKS_VERSION : UInt8 := 0x05
def CMD_CONNECT : UInt8 := 0x01
def ATYP_IPV4 : UInt8 := 0x01
def ATYP_DOMAIN : UInt8 := 0x03
def ATYP_IPV6 : UInt8 := 0x04
def METHOD_NO_AUTH : UInt8 := 0x00
def METHOD_NONE_ACCEPTABLE : UInt8 := 0xff
def REP_SUCCESS : UInt8 := 0x00
def REP_GENERAL_FAILURE : UInt8 := 0x01
def REP_NOT_ALLOWED : UInt8 := 0x02
def REP_HOST_UNREACHABLE : UInt8 := 0x04
def REP_COMMAND_NOT_SUPPORTED : UInt8 := 0x07
def REP_ADDRESS_TYPE_NOT_SUPPORTED : UInt8 := 0x08

def MAX_HANDSHAKE_BYTES : ℕ := 1024

/-! ### Parsing -/

inductive ParsedGreeting
  | incomplete
  | badVersion
  | ok (noAuthOffered : Bool) (consumed : ℕ)

inductive ParsedRequest
  | incomplete
  | connect (domain : String) (port consumed : ℕ)
  | reject (rep : UInt8)

def parseGreeting : Bytes → ParsedGreeting
  | [] => .incomplete
  | version :: rest =>
    if version ≠ SOCKS_VERSION then .badVersion
    else
      match rest with
      | [] => .incomplete
      | nMethods :: rest =>
        if rest.length < nMethods.toNat then .incomplete
        else .ok ((rest.take nMethods.toNat).contains METHOD_NO_AUTH) (2 + nMethods.toNat)

/-- Bytes as the characters of the same numbers. -/
def latin1 (bytes : Bytes) : String := String.ofList (bytes.map fun b => Char.ofNat b.toNat)

def parseRequest : Bytes → ParsedRequest
  | version :: cmd :: _ :: atyp :: rest =>
    if version ≠ SOCKS_VERSION then .reject REP_GENERAL_FAILURE
    else if cmd ≠ CMD_CONNECT then .reject REP_COMMAND_NOT_SUPPORTED
    else if atyp = ATYP_IPV4 ∨ atyp = ATYP_IPV6 then .reject REP_NOT_ALLOWED
    else if atyp ≠ ATYP_DOMAIN then .reject REP_ADDRESS_TYPE_NOT_SUPPORTED
    else
      match rest with
      | [] => .incomplete
      | domainLen :: rest =>
        if rest.length < domainLen.toNat + 2 then .incomplete
        else
          .connect (latin1 (rest.take domainLen.toNat))
            (ofBe ((rest.drop domainLen.toNat).take 2)) (5 + domainLen.toNat + 2)
  | _ => .incomplete

/-! ### Connecting -/

def isAlphanumericAnyCase (c : Char) : Bool := isAlphanumeric c || ('A' ≤ c && c ≤ 'Z')

def isHostLabel (cs : List Char) : Bool :=
  cs.length ≤ 63 && cs.head?.any isAlphanumericAnyCase && cs.getLast?.any isAlphanumericAnyCase &&
    cs.all fun c => isAlphanumericAnyCase c || c == '-'

/-- `HOSTNAME_RE`: two labels at least, the last of which may begin and end with a hyphen. -/
def isHostname (domain : String) : Bool :=
  let cs := domain.toList
  let cs := if cs.getLast? = some '.' then cs.dropLast else cs
  let labels := cs.splitOn '.'
  cs.length ≤ 253 && 2 ≤ labels.length && labels.dropLast.all isHostLabel &&
    labels.getLast?.any fun last => 1 ≤ last.length && last.length ≤ 63 &&
      last.all fun c => isAlphanumericAnyCase c || c == '-'

/-- Why there is no circuit. -/
inductive OpenFailure
  | overlay (reason : OverlayRefusal)
  | tunnel (code : Option ℕ)
  | other

/-- How `openStream` ended, and whether the socket was gone by then. -/
structure Opened where
  failure : Option OpenFailure
  destroyed : Bool

structure Surroundings where
  classify : String → NamespaceType
  openStream : String → ℕ → Opened

/-- What the proxy does with a socket, and asks of the tunnels. -/
inductive Action
  | write (data : Bytes)
  | endWith (data : Bytes)
  | endSocket
  | destroy
  | pause
  | openStream (domain : String) (port : ℕ)
  | abort
  | pipeSocket (early : Bytes)
  deriving DecidableEq

/-- The action, with the rest of the stream after what it passes on. -/
def Action.withRest (rest : Bytes) : Action → Action
  | .pipeSocket early => .pipeSocket (early ++ rest)
  | action => action

def reply (rep : UInt8) : Bytes := [SOCKS_VERSION, rep, 0x00, ATYP_IPV4, 0, 0, 0, 0, 0, 0]

def refuse (rep : UInt8) : List Action := [.write (reply rep), .endSocket]

def OpenFailure.rep : OpenFailure → UInt8
  | .overlay .noOverlay | .overlay .notNative => REP_HOST_UNREACHABLE
  | .overlay _ => REP_NOT_ALLOWED
  | .tunnel (some code) =>
    if code = ErrorCode.CIRCUIT_REJECTED.value ∨ code = ErrorCode.TARGET_UNREACHABLE.value ∨
        code = ErrorCode.TARGET_REFUSED.value then
      REP_HOST_UNREACHABLE
    else REP_GENERAL_FAILURE
  | .tunnel none | .other => REP_GENERAL_FAILURE

variable (env : Surroundings)

def handleConnect (domain : String) (port : ℕ) (early : Bytes) : List Action :=
  if !isHostname domain || env.classify domain ≠ .tnpNative then refuse REP_NOT_ALLOWED
  else
    .openStream domain port ::
      match env.openStream domain port with
      | ⟨none, true⟩ => [.abort]
      | ⟨none, false⟩ => [.write (reply REP_SUCCESS), .pipeSocket early]
      | ⟨some _, true⟩ => []
      | ⟨some failure, false⟩ => refuse failure.rep

/-! ### A connection -/

inductive HandshakeState
  | greeting
  | request
  | done
  deriving DecidableEq, Repr

/-- The variables of `handleConnection`, with what was done so far. -/
structure Connection where
  state : HandshakeState := .greeting
  buffer : Bytes := []
  /-- The socket is paused, and this has come since. The pipe has it after the early data. -/
  paused : Bool := false
  held : Bytes := []
  actions : List Action := []
  deriving DecidableEq

namespace Connection

def act (c : Connection) (actions : List Action) : Connection :=
  { c with actions := c.actions ++ actions }

def finishHandshake (c : Connection) : Connection := { c with state := .done }

def stillIncomplete (c : Connection) : Connection :=
  if c.buffer.length ≤ MAX_HANDSHAKE_BYTES then c else c.finishHandshake.act [.destroy]

/-- The second half of `onData`. -/
def onRequest (c : Connection) : Connection :=
  match parseRequest c.buffer with
  | .incomplete => c.stillIncomplete
  | .reject rep => c.finishHandshake.act (refuse rep)
  | .connect domain port consumed =>
    { c.finishHandshake with paused := true, buffer := [] }.act
      (.pause :: handleConnect env domain port (c.buffer.drop consumed))

def onGreeting (c : Connection) : Connection :=
  match parseGreeting c.buffer with
  | .incomplete => c.stillIncomplete
  | .badVersion => c.finishHandshake.act [.destroy]
  | .ok false _ => c.finishHandshake.act [.endWith [SOCKS_VERSION, METHOD_NONE_ACCEPTABLE]]
  | .ok true consumed =>
    ({ c with buffer := c.buffer.drop consumed, state := .request }.act
      [.write [SOCKS_VERSION, METHOD_NO_AUTH]]).onRequest env

def onData (c : Connection) (chunk : Bytes) : Connection :=
  let buffered := { c with buffer := c.buffer ++ chunk }
  match c.state with
  | .done => c
  | .greeting => buffered.onGreeting env
  | .request => buffered.onRequest env

/-- A chunk arrives: at `onData`, or where the socket is paused it waits. -/
def arrive (c : Connection) (chunk : Bytes) : Connection :=
  if c.paused then { c with held := c.held ++ chunk } else c.onData env chunk

/-- What was done, with what has come since where the pipe passes it on. -/
def completed (c : Connection) : List Action := c.actions.map (Action.withRest c.held)

/-- The early data that was passed on. -/
def early (c : Connection) : List Bytes :=
  c.actions.filterMap fun action =>
    match action with
    | .pipeSocket early => some early
    | _ => none

end Connection

def connection (chunks : List Bytes) : Connection :=
  Run.run (Connection.arrive env) {} chunks

/-! ### What a stream asks for -/

/-- What there is to do of a stream, and what of it is still to be read. -/
inductive Outcome
  | greeting (buffer : Bytes)
  | request (buffer : Bytes)
  | badVersion
  | noneAcceptable
  | reject (rep : UInt8)
  | connect (domain : String) (port : ℕ) (payload : Bytes)

def requestOf (buffer : Bytes) : Outcome :=
  match parseRequest buffer with
  | .incomplete => .request buffer
  | .reject rep => .reject rep
  | .connect domain port consumed => .connect domain port (buffer.drop consumed)

def outcomeOf (stream : Bytes) : Outcome :=
  match parseGreeting stream with
  | .incomplete => .greeting stream
  | .badVersion => .badVersion
  | .ok false _ => .noneAcceptable
  | .ok true consumed => requestOf (stream.drop consumed)

def Outcome.more (chunk : Bytes) : Outcome → Outcome
  | .greeting buffer => outcomeOf (buffer ++ chunk)
  | .request buffer => requestOf (buffer ++ chunk)
  | .badVersion => .badVersion
  | .noneAcceptable => .noneAcceptable
  | .reject rep => .reject rep
  | .connect domain port payload => .connect domain port (payload ++ chunk)

def Outcome.actions : Outcome → List Action
  | .greeting _ => []
  | .request _ => [.write [SOCKS_VERSION, METHOD_NO_AUTH]]
  | .badVersion => [.destroy]
  | .noneAcceptable => [.endWith [SOCKS_VERSION, METHOD_NONE_ACCEPTABLE]]
  | .reject rep => .write [SOCKS_VERSION, METHOD_NO_AUTH] :: refuse rep
  | .connect domain port payload =>
    .write [SOCKS_VERSION, METHOD_NO_AUTH] :: .pause :: handleConnect env domain port payload

section Parsers

variable {buffer chunk : Bytes}

/-- A greeting that is incomplete is shorter than the longest one. -/
lemma length_lt_of_parseGreeting (h : parseGreeting buffer = .incomplete) :
    buffer.length < 257 := by
  unfold parseGreeting at h
  split at h
  · simp
  split at h
  · simp at h
  split at h
  · simp
  next nMethods rest =>
  split at h
  next hshort =>
    have hsmall := nMethods.toNat_lt
    simp only [List.length_cons]
    omega
  · simp at h

/-- A request that is incomplete is shorter than the longest one. -/
lemma length_lt_of_parseRequest (h : parseRequest buffer = .incomplete) :
    buffer.length < 262 := by
  unfold parseRequest at h
  split at h
  next version cmd reserved atyp rest =>
    split at h
    · simp at h
    split at h
    · simp at h
    split at h
    · simp at h
    split at h
    · simp at h
    split at h
    · simp
    next domainLen rest =>
    split at h
    next hshort =>
      have hsmall := domainLen.toNat_lt
      simp only [List.length_cons]
      omega
    · simp at h
  next hshort =>
    match buffer with
    | [] | [_] | [_, _] | [_, _, _] => simp
    | version :: cmd :: reserved :: atyp :: rest => exact absurd rfl (hshort _ _ _ _ _)

/-- A greeting that was read is read again of a longer stream, and lies within the first. -/
lemma parseGreeting_append (h : parseGreeting buffer ≠ .incomplete) (chunk : Bytes) :
    parseGreeting (buffer ++ chunk) = parseGreeting buffer ∧
      ∀ offered consumed, parseGreeting buffer = .ok offered consumed →
        consumed ≤ buffer.length := by
  match buffer with
  | [] => exact absurd rfl h
  | version :: rest =>
    by_cases hversion : version ≠ SOCKS_VERSION
    · simp [parseGreeting, hversion]
    match rest with
    | [] => simp [parseGreeting, hversion] at h
    | nMethods :: methods =>
      by_cases hshort : methods.length < nMethods.toNat
      · simp [parseGreeting, hversion, hshort] at h
      rw [not_lt] at hshort
      have hlonger : ¬ (methods ++ chunk).length < nMethods.toNat := by
        rw [List.length_append]
        omega
      simp only [List.cons_append, parseGreeting, if_neg hversion, if_neg hlonger,
        if_neg (not_lt.mpr hshort), List.take_append_of_le_length hshort, true_and]
      rintro offered consumed hok
      obtain ⟨-, rfl⟩ := ParsedGreeting.ok.inj hok
      simp only [List.length_cons]
      omega

/-- So is a request. -/
lemma parseRequest_append (h : parseRequest buffer ≠ .incomplete) (chunk : Bytes) :
    parseRequest (buffer ++ chunk) = parseRequest buffer ∧
      ∀ domain port consumed, parseRequest buffer = .connect domain port consumed →
        consumed ≤ buffer.length := by
  match buffer with
  | [] | [_] | [_, _] | [_, _, _] => exact absurd rfl h
  | version :: cmd :: reserved :: atyp :: rest =>
    by_cases hversion : version ≠ SOCKS_VERSION
    · simp [parseRequest, hversion]
    by_cases hcmd : cmd ≠ CMD_CONNECT
    · simp [parseRequest, hversion, hcmd]
    by_cases haddress : atyp = ATYP_IPV4 ∨ atyp = ATYP_IPV6
    · simp [parseRequest, hversion, hcmd, haddress]
    by_cases hdomain : atyp ≠ ATYP_DOMAIN
    · simp [parseRequest, hversion, hcmd, haddress, hdomain]
    match rest with
    | [] => simp [parseRequest, hversion, hcmd, haddress, hdomain] at h
    | domainLen :: rest =>
      by_cases hshort : rest.length < domainLen.toNat + 2
      · simp [parseRequest, hversion, hcmd, haddress, hdomain, hshort] at h
      rw [not_lt] at hshort
      have hlonger : ¬ (rest ++ chunk).length < domainLen.toNat + 2 := by
        rw [List.length_append]
        omega
      have hport : 2 ≤ (rest.drop domainLen.toNat).length := by
        rw [List.length_drop]
        omega
      simp only [List.cons_append, parseRequest, if_neg hversion, if_neg hcmd, if_neg haddress,
        if_neg hdomain, if_neg hlonger, if_neg (not_lt.mpr hshort),
        List.take_append_of_le_length (by omega : domainLen.toNat ≤ rest.length),
        List.drop_append_of_le_length (by omega : domainLen.toNat ≤ rest.length),
        List.take_append_of_le_length hport, true_and]
      rintro domain port consumed hconnect
      obtain ⟨-, -, rfl⟩ := ParsedRequest.connect.inj hconnect
      simp only [List.length_cons]
      omega

lemma requestOf_append (buffer chunk : Bytes) :
    requestOf (buffer ++ chunk) = (requestOf buffer).more chunk := by
  cases hparsed : parseRequest buffer with
  | incomplete =>
    have hrequest : requestOf buffer = .request buffer := by rw [requestOf, hparsed]
    rw [hrequest]
    rfl
  | reject rep =>
    have hdone : parseRequest buffer ≠ .incomplete := by simp [hparsed]
    have happend := (parseRequest_append hdone chunk).1
    simp only [requestOf, happend, hparsed, Outcome.more]
  | connect domain port consumed =>
    have hdone : parseRequest buffer ≠ .incomplete := by simp [hparsed]
    obtain ⟨happend, hconsumed⟩ := parseRequest_append hdone chunk
    simp only [requestOf, happend, hparsed, Outcome.more,
      List.drop_append_of_le_length (hconsumed _ _ _ hparsed)]

/-- What a longer stream asks for follows from what the first part asks for. -/
lemma outcomeOf_append (stream chunk : Bytes) :
    outcomeOf (stream ++ chunk) = (outcomeOf stream).more chunk := by
  cases hparsed : parseGreeting stream with
  | incomplete =>
    have houtcome : outcomeOf stream = .greeting stream := by rw [outcomeOf, hparsed]
    rw [houtcome]
    rfl
  | badVersion =>
    have hdone : parseGreeting stream ≠ .incomplete := by simp [hparsed]
    have happend := (parseGreeting_append hdone chunk).1
    simp only [outcomeOf, happend, hparsed, Outcome.more]
  | ok offered consumed =>
    have hdone : parseGreeting stream ≠ .incomplete := by simp [hparsed]
    obtain ⟨happend, hconsumed⟩ := parseGreeting_append hdone chunk
    cases offered with
    | false => simp only [outcomeOf, happend, hparsed, Outcome.more]
    | true =>
      simp only [outcomeOf, happend, hparsed,
        List.drop_append_of_le_length (hconsumed _ _ hparsed), requestOf_append]

end Parsers

/-! ### Chunks -/

section Chunks

variable {env : Surroundings} {c : Connection} {outcome : Outcome} {buffer chunk : Bytes}

/-- The connection stands where the stream so far leads. -/
def Connection.Stands (env : Surroundings) (c : Connection) : Outcome → Prop
  | .greeting buffer => c.state = .greeting ∧ c.paused = false ∧ c.held = [] ∧ c.buffer = buffer ∧
      parseGreeting buffer = .incomplete ∧ c.actions = []
  | .request buffer => c.state = .request ∧ c.paused = false ∧ c.held = [] ∧ c.buffer = buffer ∧
      parseRequest buffer = .incomplete ∧ c.actions = (Outcome.request buffer).actions env
  | .connect domain port payload => c.state = .done ∧ c.paused = true ∧ c.buffer = [] ∧
      ∃ early, payload = early ++ c.held ∧
        c.actions = (Outcome.connect domain port early).actions env
  | outcome => c.state = .done ∧ c.paused = false ∧ c.held = [] ∧ c.actions = outcome.actions env

lemma withRest_nil (action : Action) : action.withRest [] = action := by
  cases action with
  | pipeSocket early => simp [Action.withRest]
  | _ => rfl

/-- The rest of the stream goes after the early data, wherever the proxy connects. -/
lemma map_withRest_handleConnect (domain : String) (port : ℕ) (early rest : Bytes) :
    (handleConnect env domain port early).map (Action.withRest rest) =
      handleConnect env domain port (early ++ rest) := by
  unfold handleConnect
  split
  · rfl
  · rw [List.map_cons]
    obtain ⟨failure, destroyed⟩ := env.openStream domain port
    cases failure with
    | none =>
      cases destroyed with
      | false => rfl
      | true => rfl
    | some failure =>
      cases destroyed with
      | false => rfl
      | true => rfl

/-- What was done is what the stream asks for. -/
lemma Connection.Stands.completed (h : c.Stands env outcome) :
    c.completed = outcome.actions env := by
  have hplain (hheld : c.held = []) : c.completed = c.actions := by
    rw [Connection.completed, hheld]
    exact (List.map_congr_left fun action _ => withRest_nil action).trans (List.map_id _)
  cases outcome with
  | greeting buffer => exact (hplain h.2.2.1).trans h.2.2.2.2.2
  | request buffer => exact (hplain h.2.2.1).trans h.2.2.2.2.2
  | badVersion => exact (hplain h.2.2.1).trans h.2.2.2
  | noneAcceptable => exact (hplain h.2.2.1).trans h.2.2.2
  | reject rep => exact (hplain h.2.2.1).trans h.2.2.2
  | connect domain port payload =>
    obtain ⟨-, -, -, early, rfl, hactions⟩ := h
    rw [Connection.completed, hactions, Outcome.actions, Outcome.actions, List.map_cons,
      List.map_cons, map_withRest_handleConnect]
    rfl

/-- Nothing that is incomplete is too long. -/
lemma stillIncomplete_eq (h : c.buffer.length < 262) : c.stillIncomplete = c := by
  unfold Connection.stillIncomplete
  rw [if_pos]
  unfold MAX_HANDSHAKE_BYTES
  omega

lemma stands_onRequest (hpaused : c.paused = false) (hheld : c.held = [])
    (hstate : c.state = .request) (hactions : c.actions = (Outcome.request c.buffer).actions env) :
    (c.onRequest env).Stands env (requestOf c.buffer) := by
  unfold Connection.onRequest requestOf
  cases hparsed : parseRequest c.buffer with
  | incomplete =>
    rw [stillIncomplete_eq (length_lt_of_parseRequest hparsed)]
    exact ⟨hstate, hpaused, hheld, rfl, hparsed, hactions⟩
  | reject rep =>
    refine ⟨rfl, hpaused, hheld, ?_⟩
    simp [Connection.act, Connection.finishHandshake, hactions, Outcome.actions]
  | connect domain port consumed =>
    refine ⟨rfl, rfl, rfl, c.buffer.drop consumed, ?_, ?_⟩
    · simp [Connection.act, Connection.finishHandshake, hheld]
    · simp [Connection.act, Connection.finishHandshake, hactions, Outcome.actions]

lemma stands_onGreeting (hpaused : c.paused = false) (hheld : c.held = [])
    (hstate : c.state = .greeting) (hactions : c.actions = []) :
    (c.onGreeting env).Stands env (outcomeOf c.buffer) := by
  unfold Connection.onGreeting outcomeOf
  cases hparsed : parseGreeting c.buffer with
  | incomplete =>
    have hshort := length_lt_of_parseGreeting hparsed
    rw [stillIncomplete_eq (by omega)]
    exact ⟨hstate, hpaused, hheld, rfl, hparsed, hactions⟩
  | badVersion =>
    refine ⟨rfl, hpaused, hheld, ?_⟩
    simp [Connection.act, Connection.finishHandshake, hactions, Outcome.actions]
  | ok offered consumed =>
    cases offered with
    | false =>
      refine ⟨rfl, hpaused, hheld, ?_⟩
      simp [Connection.act, Connection.finishHandshake, hactions, Outcome.actions]
    | true => exact stands_onRequest hpaused hheld rfl (by simp [Connection.act, hactions]; rfl)

/-- A chunk more, and the connection stands where the longer stream leads. -/
lemma Connection.Stands.arrive (h : c.Stands env outcome) (chunk : Bytes) :
    (c.arrive env chunk).Stands env (outcome.more chunk) := by
  cases outcome with
  | greeting buffer =>
    obtain ⟨hstate, hpaused, hheld, rfl, -, hactions⟩ := h
    simp only [Connection.arrive, hpaused, Connection.onData, hstate]
    exact stands_onGreeting rfl hheld rfl hactions
  | request buffer =>
    obtain ⟨hstate, hpaused, hheld, rfl, -, hactions⟩ := h
    simp only [Connection.arrive, hpaused, Connection.onData, hstate]
    exact stands_onRequest rfl hheld rfl hactions
  | connect domain port payload =>
    obtain ⟨hstate, hpaused, hbuffer, early, rfl, hactions⟩ := h
    simp only [Connection.arrive, hpaused, if_true]
    exact ⟨hstate, rfl, hbuffer, early, by simp, hactions⟩
  | badVersion | noneAcceptable | reject rep =>
    obtain ⟨hstate, hpaused, hheld, hactions⟩ := h
    simp only [Connection.arrive, hpaused, Connection.onData, hstate]
    exact ⟨hstate, hpaused, hheld, hactions⟩

/-- However the stream was cut, the connection stands where it leads. -/
theorem stands_connection (env : Surroundings) (chunks : List Bytes) :
    (connection env chunks).Stands env (outcomeOf chunks.flatten) := by
  induction chunks using List.reverseRecOn with
  | nil => exact ⟨rfl, rfl, rfl, rfl, rfl, rfl⟩
  | append_singleton chunks chunk ih =>
    rw [List.flatten_append, List.flatten_singleton, outcomeOf_append, connection, Run.run_append]
    exact ih.arrive chunk

/-- While the handshake is under way, what is buffered is one message that is incomplete. -/
def Connection.Buffers (c : Connection) : Prop :=
  match c.state with
  | .greeting => parseGreeting c.buffer = .incomplete ∧ c.buffer.length < 257
  | .request => parseRequest c.buffer = .incomplete ∧ c.buffer.length < 262
  | .done => c.paused = true → c.buffer = []

lemma Connection.Stands.buffers (h : c.Stands env outcome) : c.Buffers := by
  unfold Connection.Buffers
  cases outcome with
  | greeting buffer =>
    obtain ⟨hstate, -, -, rfl, hparsed, -⟩ := h
    rw [hstate]
    exact ⟨hparsed, length_lt_of_parseGreeting hparsed⟩
  | request buffer =>
    obtain ⟨hstate, -, -, rfl, hparsed, -⟩ := h
    rw [hstate]
    exact ⟨hparsed, length_lt_of_parseRequest hparsed⟩
  | connect domain port payload =>
    rw [h.1]
    exact fun _ => h.2.2.1
  | badVersion | noneAcceptable | reject rep =>
    rw [h.1]
    simp [h.2.1]

/-- Two connections that stand in one place, before the handshake is done, are the same. -/
lemma Connection.Stands.eq_of_underway {c' : Connection} (h : c.Stands env outcome)
    (h' : c'.Stands env outcome) (hstate : c.state ≠ .done) : c = c' := by
  obtain ⟨state, buffer, paused, held, actions⟩ := c
  obtain ⟨state', buffer', paused', held', actions'⟩ := c'
  cases outcome with
  | greeting buffered | request buffered =>
    obtain ⟨hstate, hpaused, hheld, hbuffer, -, hactions⟩ := h
    obtain ⟨hstate', hpaused', hheld', hbuffer', -, hactions'⟩ := h'
    rw [Connection.mk.injEq]
    exact ⟨hstate.trans hstate'.symm, hbuffer.trans hbuffer'.symm, hpaused.trans hpaused'.symm,
      hheld.trans hheld'.symm, hactions.trans hactions'.symm⟩
  | connect domain port payload | badVersion | noneAcceptable | reject rep =>
    exact absurd h.1 hstate

lemma held_onRequest : (c.onRequest env).held = c.held := by
  unfold Connection.onRequest
  split
  · unfold Connection.stillIncomplete
    split
    · rfl
    · rfl
  · rfl
  · rfl

lemma held_onData : (c.onData env chunk).held = c.held := by
  unfold Connection.onData
  dsimp only
  split
  · rfl
  · unfold Connection.onGreeting
    split
    · unfold Connection.stillIncomplete
      split
      · rfl
      · rfl
    · rfl
    · rfl
    · exact held_onRequest
  · exact held_onRequest

/-- **The handshake does not depend on how the stream was cut.** What is done of it is the same,
with the rest of the stream after the early data; and while it is under way, so is the connection,
which holds one message that is incomplete. -/
theorem handshake_of_chunks (env : Surroundings) (chunks : List Bytes) :
    (connection env chunks).completed = (connection env [chunks.flatten]).actions ∧
      ((connection env chunks).state ≠ .done →
        connection env chunks = connection env [chunks.flatten]) ∧
      (connection env chunks).Buffers := by
  have hchunks := stands_connection env chunks
  have hwhole := stands_connection env [chunks.flatten]
  rw [List.flatten_singleton] at hwhole
  have hheld : (connection env [chunks.flatten]).held = [] :=
    @held_onData env {} chunks.flatten
  refine ⟨?_, hchunks.eq_of_underway hwhole, hchunks.buffers⟩
  rw [hchunks.completed, ← hwhole.completed, Connection.completed, hheld]
  exact (List.map_congr_left fun action _ => withRest_nil action).trans (List.map_id _)

/-- A request for `a.ox` behind its greeting, with a byte of data in the same chunk or the next. -/
theorem early_of_two_chunks : ¬ ∀ (env : Surroundings) (chunks : List Bytes),
    (connection env chunks).early = (connection env [chunks.flatten]).early := by
  intro h
  have hcut := h ⟨fun _ => .tnpNative, fun _ _ => ⟨none, false⟩⟩
    [[5, 1, 0, 5, 1, 0, 3, 4, 0x61, 0x2e, 0x6f, 0x78, 0, 80], [7]]
  revert hcut
  decide

end Chunks

end Tnp.Client.Socks
