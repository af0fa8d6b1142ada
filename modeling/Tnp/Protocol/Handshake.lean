import Mathlib.Algebra.Order.Field.Rat
import Tnp.Crypto.KeyAgreement
import Tnp.Protocol.Noise
import Tnp.Protocol.Session

/-!
The handshake of a session, at the client and at the service node.

Both ends mix the role and the exact name into their state before any message, so that a message
sent for one name cannot be read under another.
-/

namespace Tnp.Protocol.Handshake

open Tnp.Lib Tnp.Crypto Tnp.Crypto.KeyAgreement Tnp.Protocol.Session Tnp.Protocol.Noise

def SESSION_CONTEXT : String := "tnp-session-v1"

/-- The byte of the protocol's major version. -/
def versionByte : {bytes : Bytes // bytes.length = 1} := ⟨be 1 PROTOCOL_VERSION, length_be 1 _⟩

def sessionPrologue (role : KeyAgreementRole) (name : String) : Bytes :=
  ({} : CanonicalWriter)
    |>.string SESSION_CONTEXT
    |>.fixed versionByte
    |>.string role.text
    |>.string name
    |>.finish

/-- What the catch of a handshake throws instead. -/
def toSessionError (error : NoiseError) (fallback : String) : SessionError :=
  match error.kind with
  | .dh => ⟨"handshake refused: " ++ error.message, .PROTOCOL_VIOLATION⟩
  | .state => ⟨error.message, .PROTOCOL_VIOLATION⟩
  | .decrypt => ⟨fallback, .AUTH_FAILED⟩

def isSafeInteger (x : ℚ) : Bool := x.isInt && x.num.natAbs ≤ MAX_SAFE_INTEGER

variable {S : Type*} {M : Type} (P : Suite S M)

/-- The bytes of a message. -/
def messageLength (message : Message M) : ℕ := DHLEN + P.length message.payload

/-! ### The client -/

/-- A key-agreement key, and whether it is an object that verification returned. -/
structure ServerKey (M : Type) where
  publicKey : M
  role : KeyAgreementRole
  scope : String
  notAfter : SafeUint
  verified : Bool

structure ClientHandshakeOptions (M : Type) where
  serverKey : ServerKey M
  name : String
  now : ℚ
  limits : SessionLimits := {}

inductive HandshakeState
  | new
  | started
  | done
  deriving DecidableEq

structure ClientHandshake (S : Type*) (M : Type) where
  noise : NkInitiator S M
  limits : ResolvedLimits
  state : HandshakeState := .new

def ClientHandshake.new (options : ClientHandshakeOptions M) (ephemeral : KeyPair S M) :
    Except Thrown (ClientHandshake S M) :=
  if !options.serverKey.verified then
    .error (.session ⟨"server key was not produced by verification", .AUTH_FAILED⟩)
  else if options.name ≠ options.serverKey.scope then
    .error (.session ⟨"server key is certified for another name", .AUTH_FAILED⟩)
  else if !isSafeInteger options.now || options.serverKey.notAfter.val ≤ options.now then
    .error (.session ⟨"server key certificate has expired", .AUTH_EXPIRED⟩)
  else
    (resolveLimits options.limits).map fun limits =>
      { noise := .new P (P.bytes (sessionPrologue options.serverKey.role options.name))
          options.serverKey.publicKey ephemeral
        limits }

namespace ClientHandshake

variable (c : ClientHandshake S M)

/-- What `start` throws: an error of its own, or that of the handshake core as it is. -/
inductive StartError
  | session (error : SessionError)
  | noise (error : NoiseError)
  deriving DecidableEq

def start : Except StartError (Message M) × ClientHandshake S M :=
  if c.state ≠ .new then
    (.error (.session ⟨"handshake already started", .PROTOCOL_VIOLATION⟩), c)
  else
    let written := c.noise.writeMessage1 P (empty P)
    (written.1.mapError .noise, { c with state := .started, noise := written.2 })

def finish (message2 : Message M) :
    Except SessionError (SessionCipher M) × ClientHandshake S M :=
  if c.state ≠ .started then
    (.error ⟨"handshake not awaiting message 2", .PROTOCOL_VIOLATION⟩, c)
  else if messageLength P message2 ≠ HANDSHAKE_MESSAGE_SIZE then
    (.error ⟨"handshake message 2 has the wrong size", .PROTOCOL_VIOLATION⟩,
      { c with state := .done })
  else
    let read := c.noise.readMessage2 P message2
    let c : ClientHandshake S M := { c with state := .done, noise := read.2 }
    match read.1 with
    | .error error =>
      (.error (toSessionError error
        "key confirmation failed: the responder does not hold the certified key"), c)
    | .ok (_, split) =>
      (.ok { sendKey := split.sendKey, receiveKey := split.receiveKey, hash := split.handshakeHash,
             limits := c.limits }, c)

end ClientHandshake

/-! ### The service node -/

structure ServerHandshakeOptions (S : Type*) (M : Type) where
  staticKey : KeyPair S M
  name : String
  role : Option KeyAgreementRole := none
  limits : SessionLimits := {}

structure ServerHandshake (S : Type*) (M : Type) where
  noise : NkResponder S M
  limits : ResolvedLimits
  used : Bool := false

/-- What the constructor throws: that a public key cannot be used, or what it finds itself. -/
inductive RefusedKey
  | keyAgreement (message : String)
  | thrown (error : Thrown)

def ServerHandshake.new [DecidableEq M] (options : ServerHandshakeOptions S M)
    (ephemeral : KeyPair S M) : Except RefusedKey (ServerHandshake S M) :=
  let derived : KeyPair S M :=
    ⟨P.publicKey options.staticKey.secretKey, options.staticKey.secretKey⟩
  if derived.publicKey ≠ options.staticKey.publicKey then
    .error (.thrown (.range "staticKey.publicKey does not match staticKey.secretKey"))
  else
    match P.assertValid derived.publicKey with
    | .error message => .error (.keyAgreement message)
    | .ok () =>
      ((resolveLimits options.limits).mapError .thrown).map fun limits =>
        { noise := .new P
            (P.bytes (sessionPrologue (options.role.getD .SERVICE_NODE) options.name)) derived
            ephemeral
          limits }

namespace ServerHandshake

variable (s : ServerHandshake S M)

def respond (message1 : Message M) :
    Except SessionError (Message M × SessionCipher M) × ServerHandshake S M :=
  if s.used then (.error ⟨"handshake already used", .PROTOCOL_VIOLATION⟩, s)
  else if messageLength P message1 ≠ HANDSHAKE_MESSAGE_SIZE then
    (.error ⟨"handshake message 1 has the wrong size", .PROTOCOL_VIOLATION⟩,
      { s with used := true })
  else
    let fallback := "handshake refused: not encrypted to this key, name, role or version"
    let read := s.noise.readMessage1 P message1
    match read.1 with
    | .error error =>
      (.error (toSessionError error fallback), { s with used := true, noise := read.2 })
    | .ok _ =>
      let written := read.2.writeMessage2 P (empty P)
      let s : ServerHandshake S M := { s with used := true, noise := written.2 }
      match written.1 with
      | .error error => (.error (toSessionError error fallback), s)
      | .ok (message, split) =>
        (.ok (message, { sendKey := split.sendKey, receiveKey := split.receiveKey,
                         hash := split.handshakeHash, limits := s.limits }), s)

end ServerHandshake

/-! ### An exchange that nobody disturbs -/

/-- What the ends rely on of their primitives: a shared secret is the same at both, and what was
sealed opens and is longer by a tag. -/
structure Lawful : Prop where
  x25519_ok : ∀ x y, ∃ shared, P.x25519 x (P.publicKey y) = .ok shared
  x25519_comm : ∀ x y, P.x25519 x (P.publicKey y) = P.x25519 y (P.publicKey x)
  aeadOpen_aeadSeal : ∀ k n ad plaintext,
    P.aeadOpen k n ad (P.aeadSeal k n ad plaintext) = some plaintext
  length_aeadSeal : ∀ k n ad plaintext,
    P.length (P.aeadSeal k n ad plaintext) = P.length plaintext + 16
  length_empty : P.length (empty P) = 0

variable {P}

lemma Lawful.decryptAndHash (h : Lawful P) (ss : SymmetricState M) (shared : M) :
    (ss.mixKey P shared).decryptAndHash P
        ((ss.mixKey P shared).encryptAndHash P (empty P)).1 =
      (.ok (empty P), ((ss.mixKey P shared).encryptAndHash P (empty P)).2) := by
  simp only [SymmetricState.mixKey, SymmetricState.encryptAndHash, SymmetricState.decryptAndHash,
    h.aeadOpen_aeadSeal]

lemma Lawful.messageLength (h : Lawful P) (e : M) (ss : SymmetricState M) (shared : M) :
    messageLength P ⟨e, ((ss.mixKey P shared).encryptAndHash P (empty P)).1⟩ =
      HANDSHAKE_MESSAGE_SIZE := by
  simp only [Handshake.messageLength, SymmetricState.mixKey, SymmetricState.encryptAndHash,
    h.length_aeadSeal, h.length_empty]
  rfl

lemma ClientHandshake.new_eq_ok {options : ClientHandshakeOptions M} {ephemeral : KeyPair S M}
    {client : ClientHandshake S M} (h : ClientHandshake.new P options ephemeral = .ok client) :
    options.name = options.serverKey.scope ∧ ∃ limits, client =
      { noise := .new P (P.bytes (sessionPrologue options.serverKey.role options.name))
          options.serverKey.publicKey ephemeral
        limits } := by
  unfold ClientHandshake.new at h
  split at h
  · cases h
  split at h
  · cases h
  next hname =>
  split at h
  · cases h
  cases hlimits : resolveLimits options.limits with
  | error error =>
    rw [hlimits] at h
    cases h
  | ok limits =>
    rw [hlimits] at h
    exact ⟨not_not.mp hname, limits, (Except.ok.inj h).symm⟩

lemma ServerHandshake.new_eq_ok [DecidableEq M] {options : ServerHandshakeOptions S M}
    {ephemeral : KeyPair S M} {server : ServerHandshake S M}
    (h : ServerHandshake.new P options ephemeral = .ok server) :
    P.publicKey options.staticKey.secretKey = options.staticKey.publicKey ∧ ∃ limits, server =
      { noise := .new P
          (P.bytes (sessionPrologue (options.role.getD .SERVICE_NODE) options.name))
          ⟨P.publicKey options.staticKey.secretKey, options.staticKey.secretKey⟩ ephemeral
        limits } := by
  unfold ServerHandshake.new at h
  dsimp only at h
  split at h
  · cases h
  next hpublic =>
  split at h
  · cases h
  cases hlimits : resolveLimits options.limits with
  | error error =>
    rw [hlimits] at h
    cases h
  | ok limits =>
    rw [hlimits] at h
    exact ⟨not_not.mp hpublic, limits, (Except.ok.inj h).symm⟩

/-- The state after a message is sealed under a key that is mixed in before. -/
def sealedWith (P : Suite S M) (ss : SymmetricState M) (e shared : M) : M × SymmetricState M :=
  ((ss.mixHash P e).mixKey P shared).encryptAndHash P (empty P)

lemma respond_sealedWith (h : Lawful P) (ss : SymmetricState M) (limits : ResolvedLimits)
    {x y z : S} {es ee : M} (hes : P.x25519 z (P.publicKey x) = .ok es)
    (hee : P.x25519 y (P.publicKey x) = .ok ee) :
    let w₁ := sealedWith P ss (P.publicKey x) es
    let w₂ := sealedWith P w₁.2 (P.publicKey y) ee
    (({ noise := { ss, s := ⟨P.publicKey z, z⟩, e := ⟨P.publicKey y, y⟩ }, limits } :
        ServerHandshake S M).respond P ⟨P.publicKey x, w₁.1⟩).1 =
      .ok (⟨P.publicKey y, w₂.1⟩,
        { sendKey := (P.hkdf2 w₂.2.ck (empty P)).2
          receiveKey := (P.hkdf2 w₂.2.ck (empty P)).1
          hash := w₂.2.h
          limits }) := by
  simp [ServerHandshake.respond, NkResponder.readMessage1, NkResponder.writeMessage2, sealedWith,
    dh, hes, hee, h.messageLength, h.decryptAndHash, Except.mapError, SymmetricState.split]

lemma finish_sealedWith (h : Lawful P) (ss : SymmetricState M) (limits : ResolvedLimits) (rs : M)
    {x y : S} {ee : M} (hee : P.x25519 x (P.publicKey y) = .ok ee) :
    let w := sealedWith P ss (P.publicKey y) ee
    (({ noise := { ss, rs, e := ⟨P.publicKey x, x⟩, step := .read2 }, limits, state := .started } :
        ClientHandshake S M).finish P ⟨P.publicKey y, w.1⟩).1 =
      .ok
        { sendKey := (P.hkdf2 w.2.ck (empty P)).1
          receiveKey := (P.hkdf2 w.2.ck (empty P)).2
          hash := w.2.h
          limits } := by
  simp [ClientHandshake.finish, NkInitiator.readMessage2, sealedWith, dh, hee, h.messageLength,
    h.decryptAndHash, Except.mapError, SymmetricState.split]

/-- **Ends that agree on the key, the role and the name complete an exchange**, with the keys of one
for those of the other. -/
theorem exchange_completes [DecidableEq M] (h : Lawful P) {options : ClientHandshakeOptions M}
    {serverOptions : ServerHandshakeOptions S M} {x y : S} {client : ClientHandshake S M}
    {server : ServerHandshake S M}
    (hclient : ClientHandshake.new P options ⟨P.publicKey x, x⟩ = .ok client)
    (hserver : ServerHandshake.new P serverOptions ⟨P.publicKey y, y⟩ = .ok server)
    (hkey : options.serverKey.publicKey = serverOptions.staticKey.publicKey)
    (hrole : options.serverKey.role = serverOptions.role.getD .SERVICE_NODE)
    (hname : options.name = serverOptions.name) :
    ∃ message1 message2 c s, (client.start P).1 = .ok message1 ∧
      (server.respond P message1).1 = .ok (message2, s) ∧
      ((client.start P).2.finish P message2).1 = .ok c ∧
      c.sendKey = s.receiveKey ∧ c.receiveKey = s.sendKey ∧ c.hash = s.hash := by
  obtain ⟨-, limits, rfl⟩ := ClientHandshake.new_eq_ok hclient
  obtain ⟨hpublic, limits', rfl⟩ := ServerHandshake.new_eq_ok hserver
  rw [hkey, hrole, hname, ← hpublic]
  generalize serverOptions.staticKey.secretKey = z
  generalize P.bytes _ = prologue
  obtain ⟨es, hes⟩ := h.x25519_ok x z
  obtain ⟨ee, hee⟩ := h.x25519_ok x y
  have hstart : (({ noise := .new P prologue (P.publicKey z) ⟨P.publicKey x, x⟩, limits } :
      ClientHandshake S M).start P) = (.ok ⟨P.publicKey x, (sealedWith P
        (NkInitiator.new P prologue (P.publicKey z) ⟨P.publicKey x, x⟩).ss (P.publicKey x) es).1⟩,
      { noise :=
          { ss := (sealedWith P (NkInitiator.new P prologue (P.publicKey z)
              ⟨P.publicKey x, x⟩).ss (P.publicKey x) es).2
            rs := P.publicKey z
            e := ⟨P.publicKey x, x⟩
            step := .read2 }
        limits
        state := .started }) := by
    simp [ClientHandshake.start, NkInitiator.writeMessage1, NkInitiator.new, sealedWith, dh, hes,
      Except.mapError]
  rw [hstart]
  refine ⟨_, _, _, _, rfl, respond_sealedWith h _ _ ((h.x25519_comm z x).trans hes)
    ((h.x25519_comm y x).trans hee), finish_sealedWith h _ _ _ hee, rfl, rfl, rfl⟩

end Tnp.Protocol.Handshake
