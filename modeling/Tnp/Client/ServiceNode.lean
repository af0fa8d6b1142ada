import Mathlib.Logic.Function.Basic
import Tnp.Client.RelayIdentity
import Tnp.Lib.Run
import Tnp.Protocol.ErrorFrame
import Tnp.SharedTypes.Relays

/-!
The connection of a service node to its relay.

A socket that is closed calls `onRelayClosed` before `close` returns, and its frames are dropped
from then on. So there is one socket at most, and every way out of it leads to a timer or to a
reason to have none. The circuits are not modelled: nothing that they do touches the connection.
-/

namespace Tnp.Client

open Tnp.Lib Tnp.Crypto Tnp.Crypto.Grants Tnp.Crypto.RelayDirectory Tnp.Protocol Tnp.SharedTypes
open Tnp.Client.RelayIdentity

def RECONNECT_MIN_MS : ℕ := 2000
def RECONNECT_MAX_MS : ℕ := 60000
def RECONNECT_CONFLICT_MS : ℕ := 5 * 60000

@[ext]
structure RelayCandidate where
  endpoint : String
  relayKey : Option PublicKey
  deriving DecidableEq

/-- `normalizeCandidates`. `none` is a throw. -/
def normalizeCandidates (parseUrl : UrlParser) (relays : List RelayCandidate) :
    Option (List RelayCandidate) :=
  relays.mapM fun relay =>
    (normalizeRelayEndpoint parseUrl relay.endpoint).map fun endpoint => ⟨endpoint, relay.relayKey⟩

def sameCandidate (a b : RelayCandidate) : Bool :=
  a.endpoint == b.endpoint && a.relayKey == b.relayKey

inductive ServiceNodeState
  | connecting
  | authenticating
  | serving
  | stopped
  deriving DecidableEq, Repr

/-- A `FrameSocket`, and whether its WebSocket is open. One that was not opened yet is closed. -/
structure FrameSocket where
  closed : Bool := true
  isOpen : Bool := false

/-- What was done and heard on a connection, for the properties only. -/
inductive ServiceNode.Entry
  | opened (socket : ℕ) (relay : RelayCandidate) (nonce : Nonce)
  | received (socket : ℕ) (frame : Frame)
  | auth (socket : ℕ) (relay : RelayCandidate) (challenge : Bytes)

structure ServiceNode where
  relays : List RelayCandidate
  relayIndex : ℕ := 0
  socket : Option ℕ := none
  state : ServiceNodeState := .connecting
  identity : Option RelayIdentityCheck := none
  relayVerified : Bool := false
  challenge : Option Bytes := none
  authSent : Bool := false
  servedOnConnection : Bool := false
  conflict : Bool := false
  paused : Bool := false
  stopped : Bool := false
  reconnectDelay : ℕ := RECONNECT_MIN_MS
  nextDelayOverride : Option ℕ := none
  /-- The delay of the timer that is set, without its jitter. -/
  reconnectTimer : Option ℕ := none
  /-- The relay that heartbeats name, while their timer is set. -/
  heartbeatTimer : Option RelayCandidate := none
  sockets : ℕ → FrameSocket := fun _ => {}
  nextSocket : ℕ := 0
  /-- Newest first. -/
  log : List ServiceNode.Entry := []

/-- What is drawn and what happens when a socket is opened. -/
structure Opening where
  nonce : Nonce
  throws : Bool

/-- The constructor. `none` is a throw. -/
def ServiceNode.construct (parseUrl : UrlParser) (relays : List RelayCandidate) :
    Option ServiceNode :=
  if relays.isEmpty then none
  else (normalizeCandidates parseUrl relays).map fun relays => { relays }

namespace ServiceNode

variable (verifier : Verifier) (parseUrl : UrlParser) (s : ServiceNode)

def scheduleReconnect : ServiceNode :=
  if s.stopped || s.paused then s
  else
    { s with
      state := .connecting
      reconnectTimer := some (s.nextDelayOverride.getD s.reconnectDelay)
      nextDelayOverride := none
      reconnectDelay := min (s.reconnectDelay * 2) RECONNECT_MAX_MS }

/-- Fail over, unless the relay served on this connection, or serves the name to another. -/
def failOver : ServiceNode :=
  if !s.servedOnConnection && !s.conflict && 1 < s.relays.length then
    let relayIndex := (s.relayIndex + 1) % s.relays.length
    { s with
      relayIndex
      nextDelayOverride := if relayIndex ≠ 0 then
          some (s.nextDelayOverride.getD (RECONNECT_MIN_MS / 4))
        else s.nextDelayOverride }
  else s

def onRelayClosed (socket : ℕ) : ServiceNode :=
  if s.socket ≠ some socket then s
  else
    { s with
      socket := none
      state := if s.stopped then s.state else .connecting
      heartbeatTimer := none }.failOver.scheduleReconnect

/-- `FrameSocket.markClosed` -/
def markClosed (socket : ℕ) : ServiceNode :=
  if (s.sockets socket).closed then s
  else
    { s with sockets := Function.update s.sockets socket ⟨true, false⟩ }.onRelayClosed socket

/-- `this.socket?.close()` -/
def closeSocket : ServiceNode := s.socket.elim s s.markClosed

def connect (opening : Opening) : ServiceNode :=
  let s := { s with reconnectTimer := none }
  if s.stopped || s.paused then s
  else
    match s.relays[s.relayIndex]? with
    | none => s
    | some relay =>
      let s := { s with
        state := .connecting
        identity := relay.relayKey.map fun key => ⟨opening.nonce, relay.endpoint, key⟩
        relayVerified := relay.relayKey.isNone
        challenge := none
        authSent := false
        servedOnConnection := false
        conflict := false }
      if opening.throws then s.scheduleReconnect
      else
        { s with
          socket := some s.nextSocket
          state := .authenticating
          sockets := Function.update s.sockets s.nextSocket ⟨false, false⟩
          nextSocket := s.nextSocket + 1
          log := .opened s.nextSocket relay opening.nonce :: s.log }

/-! ### Frames -/

def relayRefused : ServiceNode := s.closeSocket

/-- The statement that is signed names the endpoint of the relay the node is attached to. -/
def maybeAuthenticate : ServiceNode :=
  match s.challenge with
  | none => s
  | some challenge =>
    if !s.relayVerified || s.authSent then s
    else
      match s.socket, s.relays[s.relayIndex]? with
      | some socket, some relay =>
        if (s.sockets socket).isOpen then
          { s with authSent := true, log := .auth socket relay challenge :: s.log }
        else { s with authSent := true }
      | _, _ => { s with authSent := true }

def storeChallenge (frame : Frame) : ServiceNode :=
  if s.challenge.isSome then s
  else
    match decodeServiceHello frame.payload with
    | .error _ => s.relayRefused
    | .ok challenge => { s with challenge := some challenge }.maybeAuthenticate

def verifyRelay (frame : Frame) : ServiceNode :=
  match s.identity.elim (.ok ()) fun identity => identity.verify verifier frame with
  | .error _ => s.relayRefused
  | .ok _ => { s with relayVerified := true }.maybeAuthenticate

def onAuthFrame (frame : Frame) : ServiceNode :=
  if frame.type = .HELLO ∧ frame.circuitId = 0 then s.storeChallenge frame
  else if frame.type = .AUTH_OK ∧ s.authSent then
    { s with
      state := .serving
      servedOnConnection := true
      reconnectDelay := RECONNECT_MIN_MS
      heartbeatTimer := s.relays[s.relayIndex]? }
  else s

/-- An error. Only an answer to AUTH can say that another node serves the name. -/
def onErrorFrame (frame : Frame) : ServiceNode :=
  let code := match ErrorFrame.decodeError frame.payload with
    | .ok error => error.code.toNat
    | .error _ => 0
  if code = ErrorCode.ALREADY_REGISTERED.value ∧ s.authSent ∧ s.state ≠ .serving then
    { s with nextDelayOverride := some RECONNECT_CONFLICT_MS, conflict := true }
  else s

def onFrame (frame : Frame) : ServiceNode :=
  if frame.type = .PING ∧ frame.circuitId = 0 then s
  else if s.state = .authenticating ∧ !s.relayVerified then
    if frame.type = .HELLO ∧ frame.circuitId = 0 then s.storeChallenge frame
    else if frame.type = .HELLO_ACK ∧ s.identity.isSome then s.verifyRelay verifier frame
    else s.relayRefused
  else if frame.type = .ERROR then s.onErrorFrame frame
  else if s.state = .authenticating then s.onAuthFrame frame
  else s

/-- A message of a socket. `none` is one that is not binary. -/
def onMessage (socket : ℕ) (data : Option Bytes) : ServiceNode :=
  if (s.sockets socket).closed then s
  else
    match data with
    | none => s.markClosed socket
    | some data =>
      if MAX_FRAME_SIZE < data.length then s.markClosed socket
      else
        match decodeFrame data with
        | .error _ => s.markClosed socket
        | .ok frame => { s with log := .received socket frame :: s.log }.onFrame verifier frame

/-! ### The directory, and the end -/

/-- `refreshRelays` once the relays were selected again. `none` is a throw. -/
def refreshRelays (selected : Option (List RelayCandidate)) (opening : Opening) : ServiceNode :=
  let next := (selected.bind (normalizeCandidates parseUrl)).getD []
  if s.stopped then s
  else if next.isEmpty then { s with paused := true }.closeSocket
  else
    match s.relays[s.relayIndex]? with
    | none => s
    | some current =>
      match next.findIdx? (sameCandidate · current) with
      | some stillListed =>
        let resumed := { s with relays := next, paused := false, relayIndex := stillListed }
        if s.paused && s.socket.isNone && s.reconnectTimer.isNone then resumed.connect opening
        else resumed
      | none =>
        let left := { s with
          relays := next
          paused := false
          relayIndex := 0
          nextDelayOverride := some (RECONNECT_MIN_MS / 4) }
        if s.socket.isSome then { left with servedOnConnection := true }.closeSocket
        else if s.reconnectTimer.isNone then left.connect opening
        else left

def stop : ServiceNode :=
  { s with
    stopped := true
    state := .stopped
    reconnectTimer := none
    heartbeatTimer := none }.closeSocket

/-! ### Runs -/

inductive Event
  /-- The WebSocket is open; the identity challenge is sent. -/
  | opened (socket : ℕ)
  | message (socket : ℕ) (data : Option Bytes)
  /-- A close or an error. -/
  | closed (socket : ℕ)
  | openTimeout (socket : ℕ)
  | handshakeTimeout (socket : ℕ)
  | reconnect (opening : Opening)
  | refreshed (selected : Option (List RelayCandidate)) (opening : Opening)
  | stop

def step (s : ServiceNode) : Event → ServiceNode
  | .opened socket =>
    if (s.sockets socket).closed then s
    else { s with sockets := Function.update s.sockets socket ⟨false, true⟩ }
  | .message socket data => s.onMessage verifier socket data
  | .closed socket => s.markClosed socket
  | .openTimeout socket => if (s.sockets socket).isOpen then s else s.markClosed socket
  | .handshakeTimeout socket =>
    if s.socket = some socket ∧ s.servedOnConnection = false then s.markClosed socket else s
  | .reconnect opening => s.reconnectTimer.elim s fun _ => s.connect opening
  | .refreshed selected opening => s.refreshRelays parseUrl selected opening
  | .stop => s.stop

/-! ### What every step keeps -/

section Invariant

variable {verifier : Verifier} {parseUrl : UrlParser} {s : ServiceNode} {opening : Opening}
  {log : List Entry} {socket : ℕ} {relay : RelayCandidate} {nonce : Nonce}

/-- The relay of the connection proved the key that is listed for it, where one is. -/
def Proved (verifier : Verifier) (log : List Entry) (socket : ℕ) (relay : RelayCandidate)
    (nonce : Nonce) : Prop :=
  ∀ key, relay.relayKey = some key → ∃ frame, .received socket frame ∈ log ∧
    (⟨nonce, relay.endpoint, key⟩ : RelayIdentityCheck).verify verifier frame = .ok ()

/-- Before every AUTH the relay of its connection proved its key. -/
def AuthProved (verifier : Verifier) (log : List Entry) : Prop :=
  ∀ later socket relay challenge earlier,
    log = later ++ .auth socket relay challenge :: earlier →
      ∃ nonce, .opened socket relay nonce ∈ earlier ∧ Proved verifier earlier socket relay nonce

lemma Proved.cons (h : Proved verifier log socket relay nonce) (entry : Entry) :
    Proved verifier (entry :: log) socket relay nonce := by
  intro key hkey
  obtain ⟨frame, hreceived, hproof⟩ := h key hkey
  exact ⟨frame, List.mem_cons_of_mem _ hreceived, hproof⟩

lemma authProved_cons {entry : Entry} (h : AuthProved verifier log)
    (hentry : ∀ socket relay challenge, entry = .auth socket relay challenge →
      ∃ nonce, .opened socket relay nonce ∈ log ∧ Proved verifier log socket relay nonce) :
    AuthProved verifier (entry :: log) := by
  intro later socket relay challenge earlier hlog
  cases later with
  | nil =>
    obtain ⟨rfl, rfl⟩ := List.cons.inj hlog
    exact hentry socket relay challenge rfl
  | cons first later => exact h later socket relay challenge earlier (List.cons.inj hlog).2

/-- What holds also while a socket is being closed. -/
structure Base (verifier : Verifier) (s : ServiceNode) : Prop where
  index_lt : s.relayIndex < s.relays.length
  others : ∀ socket, (s.sockets socket).closed = false → s.socket = some socket
  auths : AuthProved verifier s.log

/-- The connection to a relay: live, known by whom it was opened to, and proved where it says so. -/
structure Connected (verifier : Verifier) (s : ServiceNode) (socket : ℕ) : Prop where
  live : (s.sockets socket).closed = false
  noTimer : s.reconnectTimer = none
  running : s.stopped = false
  listed : s.paused = false
  opened : ∃ relay nonce, s.relays[s.relayIndex]? = some relay ∧
    .opened socket relay nonce ∈ s.log ∧
    s.identity = relay.relayKey.map (⟨nonce, relay.endpoint, ·⟩) ∧
    (s.relayVerified = true → Proved verifier s.log socket relay nonce)

structure Inv (verifier : Verifier) (s : ServiceNode) : Prop extends Base verifier s where
  connected : ∀ socket, s.socket = some socket → Connected verifier s socket
  wayOn : s.stopped = false → s.paused = false → s.socket.isSome ∨ s.reconnectTimer.isSome

/-- Without a socket a timer is set, or there is a reason to have none. -/
lemma Base.scheduleReconnect (h : Base verifier s) (hnone : s.socket = none) :
    Inv verifier s.scheduleReconnect := by
  unfold ServiceNode.scheduleReconnect
  split
  next hidle =>
    refine ⟨h, by simp [hnone], fun hrunning hlisted => ?_⟩
    simp [hrunning, hlisted] at hidle
  next => exact ⟨⟨h.index_lt, h.others, h.auths⟩, by simp [hnone], fun _ _ => .inr rfl⟩

lemma Base.failOver (h : Base verifier s) : Base verifier s.failOver := by
  unfold ServiceNode.failOver
  split
  · exact ⟨Nat.mod_lt _ (Nat.zero_lt_of_lt h.index_lt), h.others, h.auths⟩
  · exact h

lemma socket_failOver : s.failOver.socket = s.socket := by
  unfold ServiceNode.failOver
  split
  · rfl
  · rfl

/-- Closing the one socket leads to a timer, or to a reason to have none. -/
lemma Base.markClosed (h : Base verifier s) (hsocket : s.socket = some socket)
    (hlive : (s.sockets socket).closed = false) : Inv verifier (s.markClosed socket) := by
  unfold ServiceNode.markClosed ServiceNode.onRelayClosed
  rw [if_neg (by simp [hlive]), if_neg (by simp [hsocket])]
  refine Base.scheduleReconnect (Base.failOver ⟨h.index_lt, fun other hother => ?_, h.auths⟩) ?_
  · dsimp only at hother
    by_cases hsame : other = socket
    · subst hsame
      simp at hother
    · rw [Function.update_of_ne hsame] at hother
      have heq := hsocket.symm.trans (h.others other hother)
      exact absurd (Option.some.inj heq).symm hsame
  · rw [socket_failOver]

lemma Inv.markClosed (h : Inv verifier s) (socket : ℕ) : Inv verifier (s.markClosed socket) := by
  cases hclosed : (s.sockets socket).closed with
  | true =>
    unfold ServiceNode.markClosed
    rwa [if_pos hclosed]
  | false => exact h.toBase.markClosed (h.others socket hclosed) hclosed

lemma Inv.closeSocket (h : Inv verifier s) : Inv verifier s.closeSocket := by
  unfold ServiceNode.closeSocket
  cases s.socket with
  | none => exact h
  | some socket => exact h.markClosed socket

/-- Closing the socket while it is left for good. -/
lemma Base.closeSocket (h : Base verifier s)
    (hlive : ∀ socket, s.socket = some socket → (s.sockets socket).closed = false)
    (hidle : s.socket = none → s.stopped = true ∨ s.paused = true) :
    Inv verifier s.closeSocket := by
  unfold ServiceNode.closeSocket
  cases hsocket : s.socket with
  | none =>
    refine ⟨h, by simp [hsocket], fun (hrunning : s.stopped = false) hlisted => ?_⟩
    rcases hidle hsocket with hstopped | hpaused
    · simp [hrunning] at hstopped
    · exact absurd hlisted (by simp [hpaused])
  | some socket => exact h.markClosed hsocket (hlive socket hsocket)

/-- A connection is opened only where there is none. -/
lemma Base.connect (h : Base verifier s) (hnone : s.socket = none) (opening : Opening) :
    Inv verifier (s.connect opening) := by
  unfold ServiceNode.connect
  dsimp only
  split
  next hidle =>
    refine ⟨⟨h.index_lt, h.others, h.auths⟩, by simp [hnone], fun hrunning hlisted => ?_⟩
    simp_all
  next hbusy =>
  rw [Bool.or_eq_true, not_or, Bool.not_eq_true, Bool.not_eq_true] at hbusy
  split
  next hrelay => exact absurd (List.getElem?_eq_none_iff.mp hrelay) (not_le.mpr h.index_lt)
  next relay hrelay =>
  split
  · exact Base.scheduleReconnect ⟨h.index_lt, h.others, h.auths⟩ hnone
  · have hclosed (socket : ℕ) : (s.sockets socket).closed = true := by
      by_contra hlive
      have hsocket := h.others socket (Bool.not_eq_true _ ▸ hlive)
      simp [hnone] at hsocket
    refine ⟨⟨h.index_lt, fun other hother => ?_, ?_⟩, ?_, ?_⟩
    · dsimp only at hother ⊢
      by_cases hsame : other = s.nextSocket
      · rw [hsame]
      · rw [Function.update_of_ne hsame, hclosed] at hother
        simp at hother
    · exact authProved_cons h.auths (by simp)
    · intro socket hsocket
      obtain rfl := Option.some.inj hsocket
      refine ⟨by simp, rfl, hbusy.1, hbusy.2, relay, opening.nonce, hrelay, by simp, rfl, ?_⟩
      intro hverified key hkey
      simp [hkey] at hverified
    · exact fun _ _ => .inl rfl

/-- What the invariant reads. -/
def connection (s : ServiceNode) :=
  (s.relays, s.relayIndex, s.socket, s.stopped, s.paused, s.reconnectTimer, s.sockets, s.identity,
    s.relayVerified, s.log)

lemma Inv.congr {s' : ServiceNode} (h : Inv verifier s) (hsame : s'.connection = s.connection) :
    Inv verifier s' := by
  obtain ⟨hrelays, hindex, hsocket, hstopped, hpaused, htimer, hsockets, hidentity, hverified,
    hlog⟩ : s'.relays = s.relays ∧ s'.relayIndex = s.relayIndex ∧ s'.socket = s.socket ∧
      s'.stopped = s.stopped ∧ s'.paused = s.paused ∧ s'.reconnectTimer = s.reconnectTimer ∧
      s'.sockets = s.sockets ∧ s'.identity = s.identity ∧ s'.relayVerified = s.relayVerified ∧
      s'.log = s.log := by simpa [connection] using hsame
  refine ⟨⟨?_, ?_, ?_⟩, fun socket hcurrent => ?_, ?_⟩
  · rw [hindex, hrelays]
    exact h.index_lt
  · rw [hsockets, hsocket]
    exact h.others
  · rw [hlog]
    exact h.auths
  · obtain ⟨hlive, hnoTimer, hrunning, hlisted, hopened⟩ := h.connected socket (hsocket ▸ hcurrent)
    refine ⟨hsockets ▸ hlive, htimer ▸ hnoTimer, hstopped ▸ hrunning, hpaused ▸ hlisted, ?_⟩
    rw [hrelays, hindex, hlog, hidentity, hverified]
    exact hopened
  · rw [hstopped, hpaused, hsocket, htimer]
    exact h.wayOn

lemma Inv.cons_log (h : Inv verifier s) {entry : Entry}
    (hentry : ∀ socket relay challenge, entry = .auth socket relay challenge →
      ∃ nonce, .opened socket relay nonce ∈ s.log ∧ Proved verifier s.log socket relay nonce) :
    Inv verifier { s with log := entry :: s.log } := by
  refine ⟨⟨h.index_lt, h.others, authProved_cons h.auths hentry⟩, fun socket hsocket => ?_, h.wayOn⟩
  obtain ⟨hlive, hnoTimer, hrunning, hlisted, relay, nonce, hrelay, hopened, hidentity, hproved⟩ :=
    h.connected socket hsocket
  exact ⟨hlive, hnoTimer, hrunning, hlisted, relay, nonce, hrelay,
    List.mem_cons_of_mem _ hopened, hidentity, fun hverified => (hproved hverified).cons entry⟩

/-- AUTH is sent on the connection, to the relay it was opened to. -/
lemma Inv.maybeAuthenticate (h : Inv verifier s) : Inv verifier s.maybeAuthenticate := by
  unfold ServiceNode.maybeAuthenticate
  split
  · exact h
  next challenge hchallenge =>
  split
  · exact h
  next hready =>
  rw [Bool.or_eq_true, not_or, Bool.not_eq_true', Bool.not_eq_false] at hready
  split
  next socket relay hsocket hrelay =>
    split
    · have hsent : Inv verifier { s with log := .auth socket relay challenge :: s.log } := by
        refine h.cons_log fun socket' relay' challenge' hsame => ?_
        obtain ⟨rfl, rfl, rfl⟩ := Entry.auth.inj hsame
        obtain ⟨relay', nonce, hrelay', hopened, -, hproved⟩ := (h.connected socket hsocket).opened
        obtain rfl := Option.some.inj (hrelay.symm.trans hrelay')
        exact ⟨nonce, hopened, hproved hready.1⟩
      exact hsent.congr rfl
    · exact h.congr rfl
  · exact h.congr rfl

lemma Inv.storeChallenge (h : Inv verifier s) (frame : Frame) :
    Inv verifier (s.storeChallenge frame) := by
  unfold ServiceNode.storeChallenge
  split
  · exact h
  split
  · exact h.closeSocket
  · exact Inv.maybeAuthenticate (h.congr rfl)

lemma Inv.onErrorFrame (h : Inv verifier s) (frame : Frame) :
    Inv verifier (s.onErrorFrame frame) := by
  unfold ServiceNode.onErrorFrame
  extract_lets code
  split
  · exact h.congr rfl
  · exact h

/-- The frame that verifies was received on the connection. -/
lemma Inv.verifyRelay (h : Inv verifier s) {frame : Frame}
    (hreceived : ∀ socket, s.socket = some socket → .received socket frame ∈ s.log)
    (hidentity : s.identity.isSome) : Inv verifier (s.verifyRelay verifier frame) := by
  unfold ServiceNode.verifyRelay
  split
  · exact h.closeSocket
  next hproof =>
  obtain ⟨identity, hidentity⟩ := Option.isSome_iff_exists.mp hidentity
  rw [hidentity, Option.elim_some] at hproof
  refine Inv.maybeAuthenticate ⟨⟨h.index_lt, h.others, h.auths⟩, fun socket hsocket => ?_, h.wayOn⟩
  obtain ⟨hlive, hnoTimer, hrunning, hlisted, relay, nonce, hrelay, hopened, hopenedTo, -⟩ :=
    h.connected socket hsocket
  refine ⟨hlive, hnoTimer, hrunning, hlisted, relay, nonce, hrelay, hopened, hopenedTo, ?_⟩
  intro _ key hkey
  rw [hidentity, hkey, Option.map_some] at hopenedTo
  obtain rfl := Option.some.inj hopenedTo
  exact ⟨frame, hreceived socket hsocket, hproof⟩

lemma Inv.onFrame (h : Inv verifier s) {frame : Frame}
    (hreceived : ∀ socket, s.socket = some socket → .received socket frame ∈ s.log) :
    Inv verifier (s.onFrame verifier frame) := by
  unfold ServiceNode.onFrame
  split
  · exact h
  split
  · split
    · exact h.storeChallenge frame
    split
    next hack => exact h.verifyRelay hreceived hack.2
    next => exact h.closeSocket
  split
  · exact h.onErrorFrame frame
  split
  · unfold ServiceNode.onAuthFrame
    split
    · exact h.storeChallenge frame
    split
    · exact h.congr rfl
    · exact h
  · exact h

/-- A socket that still has messages is the one of the connection. -/
lemma Inv.onMessage (h : Inv verifier s) (socket : ℕ) (data : Option Bytes) :
    Inv verifier (s.onMessage verifier socket data) := by
  unfold ServiceNode.onMessage
  split
  · exact h
  next hlive =>
  split
  · exact h.markClosed socket
  split
  · exact h.markClosed socket
  split
  · exact h.markClosed socket
  next frame hframe =>
    refine (h.cons_log (by simp)).onFrame fun current hcurrent => ?_
    have hsocket := h.others socket (by simpa using hlive)
    obtain rfl := Option.some.inj (hsocket.symm.trans hcurrent)
    exact List.mem_cons_self

lemma sameCandidate_iff {a b : RelayCandidate} : sameCandidate a b = true ↔ a = b := by
  obtain ⟨endpoint, relayKey⟩ := a
  simp [sameCandidate, RelayCandidate.ext_iff]

/-- After the directory was read again: on the relay still, or on the way to the first. -/
lemma Inv.refreshRelays (h : Inv verifier s) (selected : Option (List RelayCandidate))
    (opening : Opening) : Inv verifier (s.refreshRelays parseUrl selected opening) := by
  have hlive (socket : ℕ) (hsocket : s.socket = some socket) :
      (s.sockets socket).closed = false := (h.connected socket hsocket).live
  unfold ServiceNode.refreshRelays
  dsimp only
  generalize (selected.bind (normalizeCandidates parseUrl)).getD [] = next
  split
  · exact h
  split
  · exact Base.closeSocket ⟨h.index_lt, h.others, h.auths⟩ hlive fun _ => .inr rfl
  next hnonempty =>
  have hpos : 0 < next.length := List.length_pos_iff.mpr (by simpa using hnonempty)
  split
  · exact h
  next current hcurrent =>
  split
  next stillListed hlisted =>
    obtain ⟨hlt, hsame, -⟩ := List.findIdx?_eq_some_iff_getElem.mp hlisted
    rw [sameCandidate_iff] at hsame
    have hbase : Base verifier { s with
        relays := next
        paused := false
        relayIndex := stillListed } := ⟨hlt, h.others, h.auths⟩
    split
    next hresumes =>
      rw [Bool.and_eq_true, Bool.and_eq_true, Option.isNone_iff_eq_none] at hresumes
      exact hbase.connect hresumes.1.2 opening
    next hstays =>
      refine ⟨hbase, fun socket hsocket => ?_, fun hrunning _ => ?_⟩
      · obtain ⟨hlive, hnoTimer, hrunning, -, relay, nonce, hrelay, hopened⟩ :=
          h.connected socket hsocket
        obtain rfl := Option.some.inj (hcurrent.symm.trans hrelay)
        refine ⟨hlive, hnoTimer, hrunning, rfl, current, nonce, ?_, hopened⟩
        dsimp only
        rw [List.getElem?_eq_getElem hlt, hsame]
      · by_contra hstuck
        rw [not_or, Bool.not_eq_true, Bool.not_eq_true, Option.isSome_eq_false_iff,
          Option.isSome_eq_false_iff] at hstuck
        cases hpaused : s.paused with
        | true => exact hstays (by simp [hpaused, hstuck.1, hstuck.2])
        | false =>
          have hway := h.wayOn hrunning hpaused
          simp_all
  next hleft =>
    have hbase : Base verifier { s with
        relays := next
        paused := false
        relayIndex := 0
        nextDelayOverride := some (RECONNECT_MIN_MS / 4) } := ⟨hpos, h.others, h.auths⟩
    split
    next hsome =>
      refine Base.closeSocket ⟨hpos, h.others, h.auths⟩ hlive fun hnone => ?_
      simp [show s.socket = none from hnone] at hsome
    next hnone =>
    rw [Bool.not_eq_true, Option.isSome_eq_false_iff, Option.isNone_iff_eq_none] at hnone
    split
    · exact hbase.connect hnone opening
    next htimer =>
      refine ⟨hbase, ?_, fun _ _ => .inr ?_⟩
      · intro socket hsocket
        simp [hnone] at hsocket
      · simpa [Option.isNone_iff_eq_none, Option.isSome_iff_ne_none] using htimer

lemma Inv.stop (h : Inv verifier s) : Inv verifier s.stop := by
  unfold ServiceNode.stop
  exact Base.closeSocket ⟨h.index_lt, h.others, h.auths⟩
    (fun socket hsocket => (h.connected socket hsocket).live) fun _ => .inl rfl

/-- Every event keeps the invariant. -/
lemma Inv.step (h : Inv verifier s) (e : Event) : Inv verifier (s.step verifier parseUrl e) := by
  unfold ServiceNode.step
  cases e with
  | opened socket =>
    dsimp only
    split
    · exact h
    next hlive =>
      rw [Bool.not_eq_true] at hlive
      refine ⟨⟨h.index_lt, fun other hother => ?_, h.auths⟩, fun other hcurrent => ?_, h.wayOn⟩
      · dsimp only at hother
        by_cases hsame : other = socket
        · exact hsame ▸ h.others socket hlive
        · rw [Function.update_of_ne hsame] at hother
          exact h.others other hother
      · obtain ⟨hliveOther, hnoTimer, hrunning, hlisted, hopened⟩ := h.connected other hcurrent
        refine ⟨?_, hnoTimer, hrunning, hlisted, hopened⟩
        dsimp only
        by_cases hsame : other = socket
        · rw [hsame, Function.update_self]
        · rw [Function.update_of_ne hsame]
          exact hliveOther
  | message socket data => exact h.onMessage socket data
  | closed socket => exact h.markClosed socket
  | openTimeout socket =>
    dsimp only
    split
    · exact h
    · exact h.markClosed socket
  | handshakeTimeout socket =>
    dsimp only
    split
    · exact h.markClosed socket
    · exact h
  | reconnect opening =>
    dsimp only
    cases htimer : s.reconnectTimer with
    | none => exact h
    | some delay =>
      refine h.toBase.connect ?_ opening
      by_contra hsome
      obtain ⟨socket, hsocket⟩ := Option.ne_none_iff_exists'.mp hsome
      simp [(h.connected socket hsocket).noTimer] at htimer
  | refreshed selected opening => exact h.refreshRelays selected opening
  | stop => exact h.stop

/-- There is a relay at the start, and no connection yet. -/
lemma base_construct {relays : List RelayCandidate} (h : construct parseUrl relays = some s) :
    Base verifier s ∧ s.socket = none ∧ Base verifier s.stop ∧ s.stop.socket = none := by
  unfold construct at h
  split at h
  · simp at h
  next hnonempty =>
  obtain ⟨normalized, hnormalized, rfl⟩ := Option.map_eq_some_iff.mp h
  have hpos : 0 < normalized.length := by
    cases relays with
    | nil => simp at hnonempty
    | cons relay relays =>
      unfold normalizeCandidates at hnormalized
      rw [List.mapM_cons, Option.bind_eq_bind, Option.bind_eq_some_iff] at hnormalized
      obtain ⟨first, -, hrest⟩ := hnormalized
      obtain ⟨rest, -, hpure⟩ := Option.bind_eq_some_iff.mp hrest
      obtain rfl := Option.some.inj hpure
      exact Nat.zero_lt_succ _
  have hauths : AuthProved verifier [] := by
    intro later socket relay challenge earlier hlog
    simp at hlog
  exact ⟨⟨hpos, by simp, hauths⟩, rfl, ⟨hpos, by simp [ServiceNode.stop, closeSocket], hauths⟩, rfl⟩

/-- The end of `start`. The node may have been stopped while it published. -/
def start (node : ServiceNode) (stopped : Bool) (opening : Opening) : ServiceNode :=
  (if stopped then node.stop else node).connect opening

lemma Inv.start {relays : List RelayCandidate} (h : construct parseUrl relays = some s)
    (stopped : Bool) (opening : Opening) : Inv verifier (s.start stopped opening) := by
  obtain ⟨hbase, hnone, hbaseStop, hnoneStop⟩ := base_construct h
  unfold ServiceNode.start
  cases stopped with
  | false => exact hbase.connect hnone opening
  | true => exact hbaseStop.connect hnoneStop opening

end Invariant

/-- **A service node is never stuck.** In every state that it reaches and in which it is neither
stopped nor paused, a socket is live or a timer is set to reconnect; the index is in range of the
relays; and AUTH goes only to the relay a connection was opened to, after the proof of its key. -/
theorem never_stuck (verifier : Verifier) (parseUrl : UrlParser) {relays : List RelayCandidate}
    {node : ServiceNode} (h : construct parseUrl relays = some node) (stopped : Bool)
    (opening : Opening) (events : List Event) :
    let s := Run.run (step verifier parseUrl) (node.start stopped opening) events
    (s.stopped = false → s.paused = false →
      (∃ socket, s.socket = some socket ∧ (s.sockets socket).closed = false) ∨
        s.reconnectTimer.isSome) ∧
    s.relayIndex < s.relays.length ∧ AuthProved verifier s.log := by
  have hinv : Inv verifier (Run.run (step verifier parseUrl) (node.start stopped opening) events) :=
    Run.invariant (fun s e hs => hs.step e) (Inv.start h stopped opening) events
  refine ⟨fun hrunning hlisted => ?_, hinv.index_lt, hinv.auths⟩
  refine (hinv.wayOn hrunning hlisted).imp_left fun hsocket => ?_
  obtain ⟨socket, hsocket⟩ := Option.isSome_iff_exists.mp hsocket
  exact ⟨socket, hsocket, (hinv.connected socket hsocket).live⟩

/-- One relay, whose socket closes again. -/
theorem never_stuck_one_relay :
    let url : Url := { protocol := "wss:", host := "relay.example", hostname := "relay.example" }
    let node : ServiceNode := { relays := [⟨url.endpoint, none⟩] }
    let s := Run.run (step (fun _ _ _ => false) fun _ => some url)
      (node.start false ⟨⟨List.replicate 32 0, rfl⟩, false⟩) [.closed 0]
    (s.stopped = false → s.paused = false →
      (∃ socket, s.socket = some socket ∧ (s.sockets socket).closed = false) ∨
        s.reconnectTimer.isSome) ∧
    s.relayIndex < s.relays.length ∧ AuthProved (fun _ _ _ => false) s.log := by
  intro url node
  have hconstruct : construct (fun _ => some url) [⟨"wss://relay.example", none⟩] = some node := by
    simp [construct, normalizeCandidates, normalizeRelayEndpoint, RELAY_ENDPOINT_PROTOCOLS, url,
      node]
  exact never_stuck _ _ hconstruct false _ [.closed 0]

end ServiceNode

end Tnp.Client
