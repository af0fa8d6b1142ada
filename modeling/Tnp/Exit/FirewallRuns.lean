import Tnp.Exit.Firewall

/-!
What the packet filter does to a sequence of packets.

The kernel says of each packet whether it belongs to a flow that is tracked; a flow is tracked from
the first of its packets that is accepted. The table of flows is empty when the filter is loaded.
-/

namespace Tnp.Exit.Firewall

open Tnp.Lib Tnp.Net Tnp.SharedTypes

/-! ### Packets -/

/-- What tells the flows between two addresses apart. -/
inductive Ports
  | tcp (source destination : ℕ)
  | udp (source destination : ℕ)
  | echo (id : ℕ)
  | other (protocol : ℕ)
  deriving DecidableEq

def Ports.reverse : Ports → Ports
  | .tcp s d => .tcp d s
  | .udp s d => .udp d s
  | ports => ports

structure Flow where
  family : Family
  source : ℕ
  destination : ℕ
  ports : Ports
  deriving DecidableEq

def Flow.reverse (f : Flow) : Flow := ⟨f.family, f.destination, f.source, f.ports.reverse⟩

/-- A message about an error carries the head of the packet it is about. -/
inductive Carried
  | tcp (source destination : ℕ)
  | udp (source destination : ℕ)
  | icmp (icmpType : String) (id : ℕ)
  | error (icmpType : String) (about : Flow)
  | other (protocol : ℕ)
  deriving DecidableEq

/-- A message about an error is of no flow of its own. -/
def Carried.ports : Carried → Option Ports
  | .tcp s d => some (.tcp s d)
  | .udp s d => some (.udp s d)
  | .icmp _ id => some (.echo id)
  | .error _ _ => none
  | .other protocol => some (.other protocol)

/-- A packet as a hook sees it: before the source is rewritten, and after that was undone. -/
structure Packet where
  iif : String
  oif : String := ""
  family : Family
  source : ℕ
  destination : ℕ
  carried : Carried
  source_lt : source < 2 ^ family.bits
  destination_lt : destination < 2 ^ family.bits

namespace Packet

variable (p : Packet)

def flow : Option Flow :=
  p.carried.ports.map fun ports => ⟨p.family, p.source, p.destination, ports⟩

def sport (transport : Transport) : Option ℕ :=
  match transport, p.carried with
  | .tcp, .tcp s _ => some s
  | .udp, .udp s _ => some s
  | _, _ => none

def dport (transport : Transport) : Option ℕ :=
  match transport, p.carried with
  | .tcp, .tcp _ d => some d
  | .udp, .udp _ d => some d
  | _, _ => none

def isTransport : Bool :=
  match p.carried with
  | .tcp _ _ => true
  | .udp _ _ => true
  | _ => false

def icmpType : Option String :=
  match p.carried with
  | .icmp icmpType _ => some icmpType
  | .error icmpType _ => some icmpType
  | _ => none

/-- The packet is of the flow of the other, in either direction. -/
def BelongsTo (first : Packet) : Prop :=
  ∃ f, first.flow = some f ∧ (p.flow = some f ∨ p.flow = some f.reverse)

/-- The packet tells the sender of a packet of the flow of the other of an error. -/
def ErrorAbout (first : Packet) : Prop :=
  ∃ f icmpType about, first.flow = some f ∧ (about = f ∨ about = f.reverse) ∧
    p.carried = .error icmpType about ∧ p.family = f.family ∧ p.destination = about.source

end Packet

/-! ### Rules -/

/-- Whether a source is over its rate, and the messages of ICMP within theirs. -/
structure Rates where
  exceeded : String → Bool
  withinLimit : Bool

def Expr.holds (sets : List NamedSet) (rates : Rates) (state : CtState) (p : Packet) : Expr → Bool
  | .iifLo => p.iif = "lo"
  | .iifname name => p.iif = name
  | .iifnameNe name => p.iif ≠ name
  | .oifname name => p.oif = name
  | .oifnameNe name => p.oif ≠ name
  | .ctState states => states.contains state
  | .saddr family network => p.family = family && family.covers network p.source
  | .saddrNe family network => p.family = family && !family.covers network p.source
  | .daddr family address => p.family = family && family.covers address p.destination
  | .daddrSet family set => p.family = family &&
      sets.any fun s => s.name = set && s.elements.any fun e => s.family.covers e p.destination
  | .nfproto family => p.family = family
  | .l4proto => p.isTransport
  | .thDport port => p.dport .tcp = some port || p.dport .udp = some port
  | .sport transport port => p.sport transport = some port
  | .dport transport port => (p.dport transport).any fun (d : ℕ) => (d : ℚ) = port
  | .dports transport ports => (p.dport transport).any fun d => ports.contains d
  | .icmpType types => p.family = .v4 && p.icmpType.any types.contains
  | .icmpv6Type types => p.family = .v6 && p.icmpType.any types.contains
  | .limitRate => rates.withinLimit
  | .overRate set _ => rates.exceeded set
  | .clampMss => true
  | .counter _ => true

section chain

variable (sets : List NamedSet) (rates : Rates) (state : CtState) (p : Packet)

def Rule.decides (r : Rule) : Option Verdict :=
  if r.exprs.all (Expr.holds sets rates state p) then r.verdict else none

/-- The first rule with a verdict that a packet matches decides, and the policy drops the rest. -/
def chain (rules : List Rule) : Verdict :=
  (rules.findSome? (Rule.decides sets rates state p)).getD .drop

end chain

inductive Hook
  | input
  | forward
  deriving DecidableEq

def Ruleset.rules (r : Ruleset) : Hook → List Rule
  | .input => r.input
  | .forward => r.forward

/-! ### Runs -/

/-- A packet that was accepted, or that the host sent itself. -/
structure Passed where
  hook : Option Hook
  state : CtState
  packet : Packet

/-- The flows that are tracked, each by its first packet, and all that has passed. -/
structure World where
  table : List Passed := []
  passed : List Passed := []

inductive Event
  | packet (hook : Hook) (state : CtState) (rates : Rates) (p : Packet)
  | output (state : CtState) (p : Packet)
  | expire (i : ℕ)

namespace World

variable (w : World)

/-- A packet goes through; the first of a flow is tracked. -/
def pass (x : Passed) : World where
  table := if x.state = .new then x :: w.table else w.table
  passed := x :: w.passed

def step (r : Ruleset) : Event → World
  | .packet hook state rates p =>
    if chain r.sets rates state p (r.rules hook) = .accept then w.pass ⟨some hook, state, p⟩ else w
  | .output state p => w.pass ⟨none, state, p⟩
  | .expire i => { w with table := w.table.eraseIdx i }

/-- What the kernel says of a packet. -/
def Tracks (state : CtState) (p : Packet) : Prop :=
  match state with
  | .established => ∃ x ∈ w.table, p.BelongsTo x.packet
  | .related => ∃ x ∈ w.table, p.ErrorAbout x.packet
  | _ => True

/-- What is addressed to the host comes to its input, and no packet from one of its own addresses
is let in; the rest is forwarded. -/
def Allowed (isLocal : Family → ℕ → Bool) : Event → Prop
  | .packet .input state _ p => isLocal p.family p.destination = true ∧ w.Tracks state p
  | .packet .forward state _ p => isLocal p.family p.source = false ∧
      isLocal p.family p.destination = false ∧ w.Tracks state p
  | .output state p => isLocal p.family p.source = true ∧ w.Tracks state p
  | .expire _ => True

end World

/-- The worlds that are reached from the loading of the filter. -/
inductive Reachable (isLocal : Family → ℕ → Bool) (r : Ruleset) : World → Prop
  | initial : Reachable isLocal r {}
  | step {w} (h : Reachable isLocal r w) {event : Event} (hallowed : w.Allowed isLocal event) :
    Reachable isLocal r (w.step r event)

end Tnp.Exit.Firewall
