import Tnp.Exit.PeerPlan

/-!
The exit agent, one answer at a time.

A tick waits for the API, for `wg` and for `conntrack`, one after the other, and the process may
be restarted at each of these moments. The peers are the kernel's and survive it; when the agent
last synced is in its memory and does not. What it logs is left out.
-/

namespace Tnp.Exit

open Tnp.Lib Tnp.SharedTypes

/-! ### Connection tracking -/

/-- `HOST_V4`. -/
def hostV4 (ip : String) : Option String :=
  match ip.toList.splitOn '/' with
  | [address, ['3', '2']] =>
    let parts := address.splitOn '.'
    if parts.length == 4 && parts.all fun part =>
        !part.isEmpty && part.length ≤ 3 && part.all Char.isDigit then
      some (String.ofList address)
    else none
  | _ => none

/-- `HOST_V6`. -/
def hostV6 (ip : String) : Option String :=
  match ip.toList.splitOn '/' with
  | [address, ['1', '2', '8']] =>
    if !address.isEmpty && address.all fun c => isHexDigit c || c == ':' then
      some (String.ofList address)
    else none
  | _ => none

/-- The arguments that delete the flows of a host address. -/
def conntrackArgs (ip : String) : Option (List String) :=
  match hostV4 ip with
  | some address => some ["-D", "-f", "ipv4", "-s", address]
  | none =>
    match hostV6 ip with
    | some address => some ["-D", "-f", "ipv6", "-s", address]
    | none => none

/-- One command for each host address of a removed peer. -/
def conntrackCommands (actual : ActualPeers) (changes : List PeerChange) : List (List String) :=
  changes.flatMap fun change =>
    match change with
    | .set _ _ => []
    | .remove key => ((actual.get key).getD []).filterMap conntrackArgs

/-! ### State -/

/-- What the agent is configured with, which refuses any other name. -/
structure AgentOptions where
  iface : String
  maxStaleMs : ℕ
  iface_valid : matchesIface iface = true

/-- Ten minutes without a sync is too long. -/
def sampleOptions : AgentOptions := ⟨"wg0", 600000, by decide⟩

/-- What one process remembers. -/
structure Agent where
  startedAt : ℤ
  lastSuccessAt : Option ℤ := none
  lastPeers : Option ℕ := none
  failures : ℕ := 0
  flushed : Bool := false
  deriving DecidableEq

/-- What `apply` has in hand, and the commands it has still to run. -/
structure Work where
  actual : ActualPeers
  changes : List PeerChange
  wg : List (List String)
  conntrack : List (List String)
  deriving DecidableEq

/-- What a tick waits for. -/
inductive Phase
  | idle
  | fetching
  | showing (parsed : ParsedExitPeers)
  | applying (work : Work) (peers : ℕ)
  | flushShowing (stopNow : Bool)
  | flushing (work : Work) (stopNow : Bool)
  deriving DecidableEq

/-- What `wg` has still to be asked. -/
def Phase.wg : Phase → List (List String)
  | .applying work _ | .flushing work _ => work.wg
  | _ => []

/-- How things stood when a tick ended. -/
structure TickEnd where
  now : ℤ
  stopNow : Bool
  lastSync : Option ℤ
  peers : List String
  deriving DecidableEq, Repr

/-- The agent and the kernel. The last four fields are what an observer keeps: the addresses that
were taken from a peer and whose entries were not deleted since, when any process last synced,
what was owed whenever a sync completed, and how each tick ended. -/
structure World where
  agent : Agent
  phase : Phase := .idle
  kernel : Kernel := {}
  owed : List String := []
  lastSync : Option ℤ := none
  owedAtSync : List (List String) := []
  ends : List TickEnd := []
  deriving DecidableEq

/-- The first process, before any peer is configured. -/
def World.initial (startedAt : ℤ) : World := { agent := { startedAt } }

/-- What `fetchPeers` comes to. -/
inductive Fetch
  | body (value : Crypto.Value)
  | stopServing
  | failed

/-- A command that fails may have carried out a part of what it was asked. -/
inductive Outcome
  | done
  | failed (carried : ℕ)
  deriving DecidableEq

/-- A restart leaves carried out a part of the command that was running. -/
inductive Event
  | tick
  | fetched (result : Fetch) (now : ℤ)
  | shown (output : Except String String) (now : ℤ)
  | ran (outcome : Outcome) (now : ℤ)
  | restarted (carried : ℕ) (now : ℤ)

/-! ### Commands -/

/-- What a key held and holds no more. -/
def taken (before after : Kernel) : List String :=
  before.entries.flatMap fun e => e.2.filter fun ip => !(after.get e.1).any fun held => ip ∈ held

namespace World

def change (w : World) (c : PeerChange) : World :=
  let kernel := Holdings.apply w.kernel c.toChange
  { w with kernel, owed := w.owed ++ taken w.kernel kernel }

def carry (w : World) (changes : List PeerChange) : World := changes.foldl change w

/-- The entries of the address are gone. -/
def deleteFlows (w : World) (args : List String) : World :=
  { w with owed := w.owed.filter fun ip => conntrackArgs ip ≠ some args }

/-- The next command, and the work that is left where it did not fail. -/
def runNext (w : World) (work : Work) (outcome : Outcome) : World × Option Work :=
  match work.wg, work.conntrack, outcome with
  | args :: wg, _, .done => (w.carry (changesOf args), some { work with wg })
  | args :: _, _, .failed carried => (w.carry ((changesOf args).take carried), none)
  | [], args :: conntrack, .done => (w.deleteFlows args, some { work with conntrack })
  | [], _ :: _, .failed _ => (w, none)
  | [], [], _ => (w, some work)

/-- What a restart leaves of the command that was running. -/
def interrupted (w : World) (carried : ℕ) : World :=
  w.carry ((changesOf (w.phase.wg.headD [])).take carried)

/-! ### Ticks -/

def endTick (w : World) (stopNow : Bool) (now : ℤ) : World :=
  { w with
    phase := .idle
    ends := ⟨now, stopNow, w.lastSync, w.kernel.entries.map Prod.fst⟩ :: w.ends }

/-- `syncOnce` returned. -/
def synced (w : World) (peers : ℕ) (now : ℤ) : World :=
  endTick { w with
    agent := { w.agent with
      lastSuccessAt := some now, lastPeers := some peers, failures := 0, flushed := false }
    lastSync := some now
    owedAtSync := w.owed :: w.owedAtSync } false now

/-- `syncOnce` threw. -/
def caught (o : AgentOptions) (w : World) (stopNow : Bool) (now : ℤ) : World :=
  let since := w.agent.lastSuccessAt.getD w.agent.startedAt
  let failed := { w with agent := { w.agent with failures := w.agent.failures + 1 } }
  if stopNow ∨ o.maxStaleMs < now - since then { failed with phase := .flushShowing stopNow }
  else failed.endTick false now

/-- `flushPeers` returned. -/
def flushed (w : World) (stopNow : Bool) (now : ℤ) : World :=
  endTick { w with agent := { w.agent with flushed := true, lastPeers := some 0 } } stopNow now

def continueSync (w : World) (work : Work) (peers : ℕ) (now : ℤ) : World :=
  if work.wg = [] ∧ work.conntrack = [] then w.synced peers now
  else { w with phase := .applying work peers }

def continueFlush (w : World) (work : Work) (stopNow : Bool) (now : ℤ) : World :=
  if work.wg = [] ∧ work.conntrack = [] then w.flushed stopNow now
  else { w with phase := .flushing work stopNow }

end World

/-- The commands that turn the peers of an output into the desired ones. -/
def workFor (o : AgentOptions) (desired : List ExitPeer) (output : Except String String) :
    Except String Work := do
  let text ← output
  let actual ← parseWgAllowedIps text
  let changes := planPeerChanges desired actual
  let wg ← wgSetCommands o.iface changes
  .ok ⟨actual, changes, wg, conntrackCommands actual changes⟩

variable (nacl : Crypto.KeyAgreement.Nacl) (o : AgentOptions)

def step (w : World) (e : Event) : World :=
  match w.phase, e with
  | .idle, .tick => { w with phase := .fetching }
  | .fetching, .fetched .stopServing now => w.caught o true now
  | .fetching, .fetched .failed now => w.caught o false now
  | .fetching, .fetched (.body value) now =>
    match parseExitPeersResponse nacl value with
    | .error _ => w.caught o false now
    | .ok parsed => { w with phase := .showing parsed }
  | .showing parsed, .shown output now =>
    match workFor o parsed.peers output with
    | .error _ => w.caught o false now
    | .ok work => w.continueSync work parsed.peers.length now
  | .applying work peers, .ran outcome now =>
    match w.runNext work outcome with
    | (w, some work) => w.continueSync work peers now
    | (w, none) => w.caught o false now
  | .flushShowing stopNow, .shown output now =>
    match workFor o [] output with
    | .error _ => w.endTick stopNow now
    | .ok work => w.continueFlush work stopNow now
  | .flushing work stopNow, .ran outcome now =>
    match w.runNext work outcome with
    | (w, some work) => w.continueFlush work stopNow now
    | (w, none) => w.endTick stopNow now
  | _, .restarted carried now =>
    { w.interrupted carried with agent := { startedAt := now }, phase := .idle }
  | _, _ => w

/-! ### What the commands are -/

variable {nacl o}

/-- The work is the plan for the peers that there are. -/
structure Planned (o : AgentOptions) (desired : List ExitPeer) (kernel : Kernel) (work : Work) :
    Prop where
  shows : Shows kernel work.actual
  wellFormed : WellFormed work.actual
  changes : work.changes = planPeerChanges desired work.actual
  wg : work.wg.flatMap changesOf = work.changes
  writable : ∀ args ∈ work.wg, ∀ c ∈ changesOf args, c.Writable
  conntrack : work.conntrack = conntrackCommands work.actual work.changes

/-- From what `wg` prints of the peers, the agent plans for these peers. -/
lemma workFor_listing {desired : List ExitPeer} {kernel : Kernel}
    {listing : List (String × List String)} (hdesired : Listed nacl desired)
    (hkernel : kernel.Printable) (hlist : Lists listing kernel) :
    ∃ work, workFor o desired (.ok (showAllowedIps listing)) = .ok work ∧
      Planned o desired kernel work := by
  obtain ⟨actual, hparse, hshows⟩ := parse_showAllowedIps hkernel hlist
  have hactual := wellFormed_of_parse hparse
  have hwritable : ∀ c ∈ planPeerChanges desired actual, c.Writable := fun c hc =>
    plan_writable hdesired hactual hc
  have hwg := wgSetCommands_eq_ok o.iface_valid hwritable
  have hread := changesOf_commands o.iface hwritable
  refine ⟨_, bind_eq_ok.mpr ⟨_, rfl, bind_eq_ok.mpr ⟨_, hparse, bind_eq_ok.mpr ⟨_, hwg, rfl⟩⟩⟩,
    hshows, hactual, rfl, hread, ?_, rfl⟩
  intro args hargs c hc
  exact hwritable c (hread ▸ List.mem_flatMap.mpr ⟨args, hargs, hc⟩)

/-! ### What commands change -/

namespace World

variable {w : World}

/-- Carrying out changes touches the peers and what is owed, and nothing else. -/
lemma carry_eq (changes : List PeerChange) : w.carry changes =
    { w with kernel := w.kernel.carryOut changes, owed := (w.carry changes).owed } := by
  induction changes generalizing w with
  | nil => rfl
  | cons c changes ih => exact (ih (w := w.change c)).trans rfl

@[simp] lemma carry_kernel (changes : List PeerChange) :
    (w.carry changes).kernel = w.kernel.carryOut changes := by rw [carry_eq]

@[simp] lemma carry_phase (changes : List PeerChange) : (w.carry changes).phase = w.phase := by
  rw [carry_eq]

@[simp] lemma carry_agent (changes : List PeerChange) : (w.carry changes).agent = w.agent := by
  rw [carry_eq]

@[simp] lemma carry_lastSync (changes : List PeerChange) :
    (w.carry changes).lastSync = w.lastSync := by rw [carry_eq]

@[simp] lemma carry_owedAtSync (changes : List PeerChange) :
    (w.carry changes).owedAtSync = w.owedAtSync := by rw [carry_eq]

@[simp] lemma carry_ends (changes : List PeerChange) : (w.carry changes).ends = w.ends := by
  rw [carry_eq]

end World

/-- Changes that can be written leave peers that can be printed. -/
lemma Kernel.Printable.carryOut {kernel : Kernel} {changes : List PeerChange}
    (hkernel : kernel.Printable) (hchanges : ∀ c ∈ changes, c.Writable) :
    (kernel.carryOut changes).Printable := by
  induction changes generalizing kernel with
  | nil => exact hkernel
  | cons c changes ih =>
    obtain ⟨hc, hrest⟩ := List.forall_mem_cons.mp hchanges
    refine ih ?_ hrest
    cases c with
    | remove key =>
      exact ⟨OrderedMap.forall_delete (P := fun key _ => matchesKey key = true) hkernel.keys,
        OrderedMap.forall_delete (P := fun _ held => ∀ ip ∈ held, matchesPrefix ip = true)
          hkernel.prefixes⟩
    | set key ips =>
      obtain ⟨hkey, -, hips⟩ := hc
      constructor
      · intro k held hget
        rw [PeerChange.toChange, Holdings.get_assign] at hget
        split at hget
        · next heq => exact heq ▸ hkey
        · obtain ⟨before, hbefore, -⟩ := Option.map_eq_some_iff.mp hget
          exact hkernel.keys k before hbefore
      · intro k held hget ip hip
        rw [PeerChange.toChange, Holdings.get_assign] at hget
        split at hget
        · exact hips ip (Option.some.inj hget ▸ hip)
        · obtain ⟨before, hbefore, rfl⟩ := Option.map_eq_some_iff.mp hget
          exact hkernel.prefixes k before hbefore ip (List.mem_filter.mp hip).1

end Tnp.Exit
