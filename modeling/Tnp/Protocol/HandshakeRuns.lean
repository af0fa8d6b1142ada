import Tnp.Protocol.HandshakeTerms

/-!
Handshakes between any number of clients and service nodes, with an attacker on the network.

A scalar that an honest party draws is named by its place among those drawn, and that place is also
the name of the run it was drawn for. The attacker sees every message, delivers what it can compute
of what it has seen, and chooses what is run and when.
-/

namespace Tnp.Protocol.Handshake

open Tnp.Lib Tnp.Lib.Symbolic Tnp.Crypto.KeyAgreement Tnp.Protocol.Session Tnp.Protocol.Noise

/-! ### The runs -/

/-- A run of a client: the message it sent, and the one it finished with. -/
structure ClientRun where
  key : ServerKey Term
  handshake : ClientHandshake Scalar Term
  message1 : Option (Message Term) := none
  session : Option (Message Term × SessionCipher Term) := none

/-- A run of a service node: the message it heard, the one it answered with and its session. -/
structure ServerRun where
  static : ℕ
  name : String
  role : KeyAgreementRole
  handshake : ServerHandshake Scalar Term
  answered : Option (Message Term × Message Term × SessionCipher Term) := none

/-- What an honest scalar was drawn for. -/
inductive Party
  | static
  | client (run : ClientRun)
  | server (run : ServerRun)

/-- The ciphertext of the message that a run has sent. -/
def Party.sent : Party → Option Term
  | static => none
  | client run => run.message1.map Message.payload
  | server run => run.answered.map fun a => a.2.1.payload

def Party.session : Party → Option (SessionCipher Term)
  | static => none
  | client run => run.session.map Prod.snd
  | server run => run.answered.map fun a => a.2.2

structure World where
  parties : List Party := []
  seen : List Term := []

inductive Event
  | keygen
  | connect (options : ClientHandshakeOptions Term)
  | start (n : ℕ)
  | finish (n : ℕ) (message2 : Message Term)
  | serve (static : ℕ) (name : String) (role : Option KeyAgreementRole) (limits : SessionLimits)
  | respond (n : ℕ) (message1 : Message Term)

namespace World

variable (w : World)

def join (p : Party) : World := { w with parties := w.parties ++ [p] }

def update (n : ℕ) (p : Party) : World := { w with parties := w.parties.set n p }

def see (ts : List Term) : World := { w with seen := ts ++ w.seen }

def start (n : ℕ) (run : ClientRun) : World :=
  let started := run.handshake.start symbolic
  match started.1 with
  | .error _ => w.update n (.client { run with handshake := started.2 })
  | .ok message =>
    (w.update n (.client { run with handshake := started.2, message1 := some message })).see
      [message.e, message.payload]

def finish (n : ℕ) (run : ClientRun) (message2 : Message Term) : World :=
  let finished := run.handshake.finish symbolic message2
  match finished.1 with
  | .error _ => w.update n (.client { run with handshake := finished.2 })
  | .ok cipher =>
    w.update n (.client { run with handshake := finished.2, session := some (message2, cipher) })

def respond (n : ℕ) (run : ServerRun) (message1 : Message Term) : World :=
  let responded := run.handshake.respond symbolic message1
  match responded.1 with
  | .error _ => w.update n (.server { run with handshake := responded.2 })
  | .ok (message, cipher) =>
    (w.update n (.server { run with
      handshake := responded.2, answered := some (message1, message, cipher) })).see
      [message.e, message.payload]

/-- What is asked of a run that is not there, or refused, changes nothing. -/
def step (event : Event) : World :=
  match event with
  | .keygen => (w.join .static).see [.publicKey (.honest w.parties.length)]
  | .connect options =>
    match ClientHandshake.new symbolic options (pair w.parties.length) with
    | .error _ => w
    | .ok handshake => w.join (.client { key := options.serverKey, handshake })
  | .start n => match w.parties[n]? with
    | some (.client run) => w.start n run
    | _ => w
  | .finish n message2 => match w.parties[n]? with
    | some (.client run) => w.finish n run message2
    | _ => w
  | .serve static name role limits => match w.parties[static]? with
    | some .static =>
      match ServerHandshake.new symbolic ⟨pair static, name, role, limits⟩
          (pair w.parties.length) with
      | .error _ => w
      | .ok handshake =>
        w.join (.server { static, name, role := role.getD .SERVICE_NODE, handshake })
    | _ => w
  | .respond n message1 => match w.parties[n]? with
    | some (.server run) => w.respond n run message1
    | _ => w

/-- The ciphertext was sent by an honest run. -/
def Sent (t : Term) : Prop := ∃ p ∈ w.parties, p.sent = some t

/-- What is delivered was computed by the attacker. -/
def Allowed : Event → Prop
  | .finish _ message => Derives w.seen message.e ∧ Derives w.seen message.payload
  | .respond _ message => Derives w.seen message.e ∧ Derives w.seen message.payload
  | _ => True

end World

inductive Reachable : World → Prop
  | initial : Reachable {}
  | step {w} (h : Reachable w) {event : Event} (hallowed : w.Allowed event) :
    Reachable (w.step event)

end Tnp.Protocol.Handshake
