import Tnp.Client.RelayLink
import Tnp.Lib.Run

/-!
The links of a client to its relays: who opens them, who is waiting for one, and who closes them.

An event is what runs without an await in between: the next piece of an `openStream` or of a
recheck, a callback of a socket, a timer. What comes before `linkFor`, the service's record and the
directory, only settles which relay is asked for.
-/

namespace Tnp.Client.Tunnel

open Tnp.Lib Tnp.Lib.Run Tnp.Crypto Tnp.Crypto.Grants Tnp.Crypto.RelayDirectory Tnp.Protocol
  Tnp.Client.RelayIdentity

abbrev LinkId := ℕ

abbrev TaskId := ℕ

/-- Where an `openStream` stands. -/
inductive TaskPhase
  /-- About to look for a link. -/
  | looking
  /-- Waits for a connection that another task makes. -/
  | waiting (link : LinkId)
  /-- Waits for the connection that it makes. -/
  | connecting (link : LinkId)
  /-- `linkFor` has returned this link. -/
  | offered (link : LinkId)
  deriving DecidableEq

structure OpenTask where
  endpoint : String
  relayKey : PublicKey
  tries : ℕ := 0
  phase : TaskPhase := .looking
  deriving DecidableEq

structure TunnelManager where
  maxLinks : ℕ := 8
  links : OrderedMap Slot (List LinkId) := ⟨[], List.nodup_nil⟩
  connecting : OrderedMap Slot LinkId := ⟨[], List.nodup_nil⟩
  /-- Every link there has been. -/
  table : OrderedMap LinkId RelayLink := ⟨[], List.nodup_nil⟩
  nextLink : LinkId := 0
  tasks : OrderedMap TaskId OpenTask := ⟨[], List.nodup_nil⟩
  nextTask : TaskId := 0
  /-- What each recheck under way has yet to look at, as it was when it began. -/
  rechecks : OrderedMap TaskId (List (Slot × List LinkId)) := ⟨[], List.nodup_nil⟩
  nextRecheck : TaskId := 0

/-- What an `openStream` needs beside the state to go on: the nonce of a new connection, the
identifier drawn until one is free, and how the attempt goes. -/
structure Answer where
  nonce : Nonce
  id : UInt64
  attempt : Attempt

inductive Event
  | openStream (endpoint : String) (relayKey : PublicKey)
  | resume (t : TaskId) (answer : Answer)
  /-- The socket is open, and the challenge sent. -/
  | ready (l : LinkId)
  /-- `connect` is over. -/
  | settle (l : LinkId)
  | frame (l : LinkId) (frame : Frame) (confirms ends : Bool)
  | identityTimeout (l : LinkId)
  | lost (l : LinkId)
  | handshakeTimeout (l : LinkId) (id : UInt64)
  /-- An open circuit ends by a call of its owner. -/
  | circuitDone (l : LinkId) (id : UInt64)
  | idle (l : LinkId)
  | recheckLinks
  /-- The directory answers a recheck. -/
  | directory (i : TaskId) (entry : Option PublicKey)
  | shutdown

/-- The link is open, and `connect` succeeded. -/
def RelayLink.Finished (link : RelayLink) : Prop :=
  link.closed = false ∧ link.connection = .settled true

/-- Nothing is pending on a link that is closed. -/
def RelayLink.Quiet (link : RelayLink) : Prop := link.closed = true → link.pending = 0

/-- The link that an event is of. -/
def Event.link : Event → Option LinkId
  | .ready l | .settle l | .frame l .. | .identityTimeout l | .lost l | .handshakeTimeout l _
  | .circuitDone l _ | .idle l => some l
  | _ => none

namespace TunnelManager

variable (m : TunnelManager)

def setLink (l : LinkId) (link : RelayLink) : TunnelManager :=
  { m with table := m.table.set l link }

/-- The callback of a link that is gone. -/
def onGone (l : LinkId) (slot : Slot) : TunnelManager :=
  match m.links.get slot with
  | none => m
  | some list =>
    let rest := list.filter (· ≠ l)
    { m with links := if rest = [] then m.links.delete slot else m.links.set slot rest }

/-- The socket of a link closes. -/
def tearDown (l : LinkId) (link : RelayLink) : TunnelManager :=
  if link.closed then m.setLink l link else (m.setLink l link.teardown).onGone l link.slot

/-- `close` of the link in this state. -/
def closeAs (l : LinkId) (link : RelayLink) : TunnelManager :=
  if link.closed then m.setLink l link.close else (m.setLink l link.close).onGone l link.slot

def closeLink (l : LinkId) : TunnelManager :=
  match m.table.get l with
  | none => m
  | some link => m.closeAs l link

def closeAll (ls : List LinkId) : TunnelManager := ls.foldl closeLink m

def setTask (t : TaskId) (task : OpenTask) : TunnelManager :=
  { m with tasks := m.tasks.set t task }

def endTask (t : TaskId) : TunnelManager := { m with tasks := m.tasks.delete t }

def ready' (l : LinkId) : Bool := (m.table.get l).any RelayLink.hasCapacity

/-- One turn of the loop of `linkFor`. -/
def linkFor (t : TaskId) (task : OpenTask) (nonce : Nonce) : TunnelManager :=
  let slot := slotOf task.endpoint task.relayKey
  let links := (m.links.get slot).getD []
  match links.find? m.ready' with
  | some l => m.setTask t { task with phase := .offered l }
  | none =>
    match m.connecting.get slot with
    | some l => m.setTask t { task with phase := .waiting l }
    | none =>
      if m.maxLinks ≤ links.length then m.endTask t
      else
        { (m.setLink m.nextLink
            { slot, identity := ⟨nonce, task.endpoint, task.relayKey⟩ }).setTask t
            { task with phase := .connecting m.nextLink } with
          nextLink := m.nextLink + 1
          connecting := m.connecting.set slot m.nextLink }

def connectionOf (l : LinkId) : Option Connection := (m.table.get l).map RelayLink.connection

def resume (t : TaskId) (task : OpenTask) (answer : Answer) : TunnelManager :=
  match task.phase with
  | .looking => m.linkFor t task answer.nonce
  | .waiting l =>
    match m.connectionOf l with
    | some (.settled _) => m.linkFor t task answer.nonce
    | _ => m
  | .connecting l =>
    let m' := { m with
      connecting := m.connecting.delete (slotOf task.endpoint task.relayKey) }
    match m.connectionOf l with
    | some (.settled true) => m'.setTask t { task with phase := .offered l }
    | some (.settled false) => m'.endTask t
    | _ => m
  | .offered l =>
    match m.table.get l with
    | none => m
    | some link =>
      if link.hasCapacity then
        if answer.id = 0 ∨ link.circuits.has answer.id then m
        else (m.setLink l (link.openCircuit answer.id answer.attempt)).endTask t
      else if m.maxLinks < task.tries then m.endTask t
      else m.linkFor t { task with tries := task.tries + 1 } answer.nonce

/-- The end of `connect`, kept or failed. -/
def settle (l : LinkId) (link : RelayLink) : TunnelManager :=
  let failed := (m.closeAs l link).setLink l { link.close with connection := .settled false }
  match link.connection, link.proven with
  | .proving, some true =>
    { m.setLink l { link with connection := .settled true } with
      links := m.links.set link.slot ((m.links.get link.slot).getD [] ++ [l]) }
  | .proving, some false => failed
  | .dialing, _ => if link.closed then failed else m
  | _, _ => m

/-- The relay is listed with the key that the links of the slot were proven against. -/
def listed (slot : Slot) (entry : Option PublicKey) : Bool :=
  entry.any fun key => toHex key.val = slot.keyHex

/-- A recheck goes on with what it saw when it began. -/
def recheck (i : TaskId) (entry : Option PublicKey) : TunnelManager :=
  match m.rechecks.get i with
  | some ((slot, stale) :: rest) =>
    let m' := { m with rechecks := m.rechecks.set i rest }
    if listed slot entry then m'
    else
      let closed := m'.closeAll stale
      { closed with links := closed.links.delete slot }
  | _ => m

def shutdown : TunnelManager :=
  { m.closeAll m.links.values.flatten with links := ⟨[], List.nodup_nil⟩ }

variable (verifier : Verifier)

/-- An event of one link. -/
def linkStep (l : LinkId) (link : RelayLink) : Event → TunnelManager
  | .ready _ =>
    if link.connection = .dialing ∧ ¬ link.closed then
      m.setLink l { link with connection := .proving }
    else m
  | .settle _ => m.settle l link
  | .frame _ frame confirms ends =>
    if link.closed then m
    else
      let (link', failed) := link.dispatch verifier frame confirms ends
      if failed then m.tearDown l link' else m.setLink l link'
  | .identityTimeout _ =>
    if link.connection = .proving ∧ link.proven = none ∧ ¬ link.closed then
      m.tearDown l link.identityFailed
    else m
  | .lost _ => m.tearDown l link
  | .handshakeTimeout _ id =>
    if link.circuits.get id = some .creating then m.setLink l (link.forget id) else m
  | .circuitDone _ id =>
    if link.circuits.get id = some .opened then m.setLink l (link.onDone id) else m
  | .idle _ =>
    if link.idleTimer = .running then
      let link := { link with idleTimer := .unset }
      if link.circuits.size = 0 then m.closeAs l link else m.setLink l link
    else m
  | _ => m

def step (e : Event) : TunnelManager :=
  match e with
  | .openStream endpoint relayKey =>
    { m.setTask m.nextTask { endpoint, relayKey } with nextTask := m.nextTask + 1 }
  | .resume t answer =>
    match m.tasks.get t with
    | some task => m.resume t task answer
    | none => m
  | .recheckLinks =>
    { m with
      rechecks := m.rechecks.set m.nextRecheck m.links.entries
      nextRecheck := m.nextRecheck + 1 }
  | .directory i entry => m.recheck i entry
  | .shutdown => m.shutdown
  | e =>
    match e.link.bind fun l => (m.table.get l).map (l, ·) with
    | some (l, link) => m.linkStep verifier l link e
    | none => m

/-! ### What is claimed -/

/-- What holds of every link there has been. -/
def AllLinks (P : RelayLink → Prop) : Prop := ∀ l link, m.table.get l = some link → P link

/-- The count of circuits pending is that of those being created. -/
def Counted : Prop := m.AllLinks fun link => link.pending = link.creating

/-- Counts stay within their limits, and no circuit is asked for before the relay has proven the
key by which the link is listed. -/
def Bounded : Prop := m.AllLinks fun link =>
  link.pending ≤ MAX_PENDING_OPENS ∧ link.circuits.size ≤ MAX_CIRCUITS_PER_CONNECTION ∧
    (link.created = true → link.verified = true ∧
      link.slot = slotOf link.identity.endpoint link.identity.expectedKey ∧
      ∃ frame, link.identity.verify verifier frame = .ok ())

def Listed (l : LinkId) (slot : Slot) : Prop := ∃ list, m.links.get slot = some list ∧ l ∈ list

/-- Every open link that finished connecting is in the table of links. -/
def Tabled : Prop :=
  ∀ l link, m.table.get l = some link → link.Finished → m.Listed l link.slot

/-- After this event, the links in the table are all there are: what a shutdown closes is every
open link, and what a recheck closes is every open link of a slot that is no longer listed. -/
def Accounted (e : Event) : Prop :=
  (m.step verifier e).Tabled ∧
    (e = .shutdown → (m.step verifier e).AllLinks fun link => ¬ link.Finished) ∧
    ∀ i entry slot stale rest, e = .directory i entry →
      m.rechecks.get i = some ((slot, stale) :: rest) → listed slot entry = false →
      (m.step verifier e).AllLinks fun link => link.slot = slot → ¬ link.Finished

/-- Every open link that has no circuit, and was offered one, waits to be closed. -/
def Idles : Prop := m.AllLinks RelayLink.Idles

/-! ### The conditions -/

/-- The links that an event closes while they may carry circuits. -/
def closes : Event → List LinkId
  | .lost l => [l]
  | .directory i entry =>
    match m.rechecks.get i with
    | some ((slot, stale) :: _) => if listed slot entry then [] else stale
    | _ => []
  | .shutdown => m.links.values.flatten
  | _ => []

/-- No open link is closed while a circuit is being created on it. -/
def ClosesSettled (e : Event) : Prop :=
  ∀ l ∈ m.closes e, ∀ link, m.table.get l = some link → link.closed = false → link.creating = 0

/-- No slot is dropped with an open link in it that came after the recheck began. -/
def DropsKnown (e : Event) : Prop :=
  ∀ i entry slot stale rest, e = .directory i entry →
    m.rechecks.get i = some ((slot, stale) :: rest) → listed slot entry = false →
    ∀ l link, m.Listed l slot → l ∉ stale → m.table.get l = some link → link.closed = true

/-- The only circuit of a link is not lost to a key that is not confirmed, and the handshake of the
first circuit of a link is not refused. -/
def LeavesIdle (e : Event) : Prop :=
  (∀ l link frame confirms ends, e = .frame l frame confirms ends → m.table.get l = some link →
    link.closed = false → ¬ link.LosesLast frame confirms) ∧
  ∀ t task answer l link, e = .resume t answer → m.tasks.get t = some task →
    task.phase = .offered l → m.table.get l = some link → link.hasCapacity = true →
    answer.id ≠ 0 → answer.attempt = .refused → 0 < link.circuits.size

/-! ### What is kept -/

/-- What every event keeps. -/
structure Inv : Prop where
  sound : m.AllLinks (RelayLink.Sound · verifier)
  fresh : ∀ l link, m.table.get l = some link → l < m.nextLink
  filed : ∀ l slot, m.Listed l slot → ∃ link, m.table.get l = some link ∧ link.slot = slot ∧
    link.connection = .settled true

variable {m verifier} {l : LinkId} {link link' : RelayLink} {P : RelayLink → Prop}

lemma AllLinks.setLink (h : m.AllLinks P) (hlink : P link) : (m.setLink l link).AllLinks P := by
  intro j row hrow
  by_cases hj : l = j
  · subst hj
    obtain rfl := Option.some.inj ((OrderedMap.get_set_self _).symm.trans hrow)
    exact hlink
  · exact h j row ((OrderedMap.get_set_of_ne _ hj).symm.trans hrow)

@[simp] lemma table_onGone (slot : Slot) : (m.onGone l slot).table = m.table := by
  unfold onGone
  split <;> rfl

@[simp] lemma nextLink_onGone (slot : Slot) : (m.onGone l slot).nextLink = m.nextLink := by
  unfold onGone
  split <;> rfl

/-- The callback of a link takes that link out of its slot, and no other. -/
lemma listed_onGone {j : LinkId} {slot s : Slot} :
    (m.onGone l slot).Listed j s ↔ m.Listed j s ∧ (s = slot → j ≠ l) := by
  unfold onGone Listed
  cases hlist : m.links.get slot with
  | none =>
    constructor
    · rintro ⟨list, hget, hj⟩
      refine ⟨⟨list, hget, hj⟩, ?_⟩
      rintro rfl
      simp [hlist] at hget
    · exact fun h => h.1
  | some list =>
    dsimp only
    by_cases hs : slot = s
    · subst hs
      split
      · next hempty =>
        constructor
        · rintro ⟨list', hget, -⟩
          simp at hget
        · rintro ⟨⟨list', hget, hj⟩, hne⟩
          obtain rfl := Option.some.inj (hlist.symm.trans hget)
          have hmem : j ∈ list.filter (· ≠ l) := List.mem_filter.mpr ⟨hj, by simpa using hne rfl⟩
          rw [hempty] at hmem
          contradiction
      · simp [hlist]
    · have hother {links : OrderedMap Slot (List LinkId)}
          (h : links = m.links.delete slot ∨ links = m.links.set slot (list.filter (· ≠ l))) :
          links.get s = m.links.get s := by
        rcases h with rfl | rfl
        · exact OrderedMap.get_delete_of_ne hs
        · exact OrderedMap.get_set_of_ne _ hs
      have hget : (if list.filter (· ≠ l) = [] then m.links.delete slot
          else m.links.set slot (list.filter (· ≠ l))).get s = m.links.get s := by
        refine hother ?_
        split
        · exact .inl rfl
        · exact .inr rfl
      rw [hget]
      exact ⟨fun h => ⟨h, fun e => absurd e.symm hs⟩, fun h => h.1⟩

/-- The links of a manager whose table is another's, and that lists no more. -/
lemma Inv.of_table (h : Inv m verifier) {m' : TunnelManager} (htable : m'.table = m.table)
    (hnext : m'.nextLink = m.nextLink) (hlisted : ∀ j s, m'.Listed j s → m.Listed j s) :
    Inv m' verifier := by
  refine ⟨?_, ?_, fun j s hj => ?_⟩
  · rw [AllLinks, htable]
    exact h.sound
  · rw [htable, hnext]
    exact h.fresh
  · rw [htable]
    exact h.filed j s (hlisted j s hj)

lemma Inv.onGone (h : Inv m verifier) (slot : Slot) : Inv (m.onGone l slot) verifier :=
  h.of_table (table_onGone slot) (nextLink_onGone slot) fun _ _ hj => (listed_onGone.mp hj).1

/-- A link changed in its place. -/
lemma Inv.setLink (h : Inv m verifier) (hget : m.table.get l = some link)
    (hsound : link'.Sound verifier) (hslot : link'.slot = link.slot)
    (hconn : link.connection = .settled true → link'.connection = .settled true) :
    Inv (m.setLink l link') verifier := by
  refine ⟨AllLinks.setLink h.sound hsound, fun j row hrow => ?_, fun j s hj => ?_⟩
  · by_cases hj : l = j
    · subst hj
      exact h.fresh l link hget
    · exact h.fresh j row ((OrderedMap.get_set_of_ne _ hj).symm.trans hrow)
  · obtain ⟨row, hrow, hs, hsettled⟩ := h.filed j s hj
    by_cases hlj : l = j
    · subst hlj
      obtain rfl := Option.some.inj (hget.symm.trans hrow)
      exact ⟨link', OrderedMap.get_set_self _, hslot.trans hs, hconn hsettled⟩
    · exact ⟨row, (OrderedMap.get_set_of_ne _ hlj).trans hrow, hs, hsettled⟩

lemma Tabled.setLink (h : m.Tabled) (hget : m.table.get l = some link)
    (hslot : link'.slot = link.slot) (hfinished : link'.Finished → link.Finished) :
    (m.setLink l link').Tabled := by
  intro j row hrow hrow'
  by_cases hj : l = j
  · subst hj
    obtain rfl := Option.some.inj ((OrderedMap.get_set_self _).symm.trans hrow)
    rw [hslot]
    exact h l link hget (hfinished hrow')
  · exact h j row ((OrderedMap.get_set_of_ne _ hj).symm.trans hrow) hrow'

lemma not_finished_of_closed (h : link.closed = true) : ¬ link.Finished := fun hf => by
  rw [hf.1] at h
  contradiction

lemma Tabled.onGone (h : m.Tabled) (hget : m.table.get l = some link)
    (hclosed : link.closed = true) (slot : Slot) : (m.onGone l slot).Tabled := by
  intro j row hrow hrow'
  rw [table_onGone] at hrow
  refine listed_onGone.mpr ⟨h j row hrow hrow', ?_⟩
  rintro - rfl
  obtain rfl := Option.some.inj (hget.symm.trans hrow)
  exact not_finished_of_closed hclosed hrow'

/-! ### Closing -/

/-- A link closed in its place, and taken out of its slot if it was open. -/
lemma Inv.gone (h : Inv m verifier) (hget : m.table.get l = some link)
    (hsound : link'.Sound verifier) (hslot : link'.slot = link.slot)
    (hconn : link'.connection = link.connection) (slot : Slot) :
    Inv ((m.setLink l link').onGone l slot) verifier :=
  (h.setLink hget hsound hslot fun hsettled => hconn.trans hsettled).onGone slot

lemma Tabled.gone (h : m.Tabled) (hget : m.table.get l = some link)
    (hslot : link'.slot = link.slot) (hclosed : link'.closed = true) (slot : Slot) :
    ((m.setLink l link').onGone l slot).Tabled := by
  refine Tabled.onGone (h.setLink hget hslot fun hf => ?_) (OrderedMap.get_set_self _) hclosed slot
  exact absurd hf (not_finished_of_closed hclosed)

lemma table_closeAs (m : TunnelManager) (l : LinkId) (link : RelayLink) :
    (m.closeAs l link).table = m.table.set l link.close := by
  unfold closeAs
  split
  · rfl
  · rw [table_onGone]
    rfl

lemma AllLinks.of_table {m' : TunnelManager} (h : m.AllLinks P) (htable : m'.table = m.table) :
    m'.AllLinks P := by
  rw [AllLinks, htable]
  exact h

lemma AllLinks.closeAs (h : m.AllLinks P) (hlink : P link.close) :
    (m.closeAs l link).AllLinks P := by
  have hset : (m.setLink l link.close).AllLinks P := h.setLink hlink
  exact hset.of_table (table_closeAs m l link)

variable {link₀ : RelayLink}

lemma Inv.closeAs (h : Inv m verifier) (hget : m.table.get l = some link₀)
    (hsound : link.Sound verifier) (hslot : link.slot = link₀.slot)
    (hconn : link.connection = link₀.connection) : Inv (m.closeAs l link) verifier := by
  have hended := link.ended_close
  have hslot' := hended.slot.trans hslot
  have hconn' := hended.connection.trans hconn
  unfold TunnelManager.closeAs
  split
  · exact h.setLink hget hsound.close hslot' fun hsettled => hconn'.trans hsettled
  · exact h.gone hget hsound.close hslot' hconn' link.slot

lemma Tabled.closeAs (h : m.Tabled) (hget : m.table.get l = some link₀)
    (hslot : link.slot = link₀.slot) : (m.closeAs l link).Tabled := by
  have hended := link.ended_close
  have hslot' := hended.slot.trans hslot
  unfold TunnelManager.closeAs
  split
  · exact h.setLink hget hslot' fun hf => absurd hf (not_finished_of_closed hended.closed)
  · exact h.gone hget hslot' hended.closed link.slot

/-- What holds of links, and goes on holding of those that are closed, holds after some are. -/
lemma AllLinks.closeAll (h : m.AllLinks P) (hclose : ∀ link, P link → P link.close)
    (ls : List LinkId) : (m.closeAll ls).AllLinks P := by
  induction ls generalizing m with
  | nil => exact h
  | cons l ls ih =>
    refine ih ?_
    unfold closeLink
    split
    · exact h
    · next link hget => exact h.closeAs (hclose link (h l link hget))

lemma Inv.closeLink (h : Inv m verifier) (l : LinkId) : Inv (m.closeLink l) verifier := by
  unfold TunnelManager.closeLink
  split
  · exact h
  · next link hget => exact h.closeAs hget (h.sound l link hget) rfl rfl

lemma Tabled.closeLink (h : m.Tabled) (l : LinkId) : (m.closeLink l).Tabled := by
  unfold TunnelManager.closeLink
  split
  · exact h
  · next link hget => exact h.closeAs hget rfl

lemma Inv.closeAll (h : Inv m verifier) (ls : List LinkId) : Inv (m.closeAll ls) verifier := by
  induction ls generalizing m with
  | nil => exact h
  | cons l ls ih => exact ih (h.closeLink l)

lemma Tabled.closeAll (h : m.Tabled) (ls : List LinkId) : (m.closeAll ls).Tabled := by
  induction ls generalizing m with
  | nil => exact h
  | cons l ls ih => exact ih (h.closeLink l)

/-- A link after some are closed: as it was, or ended if it was among them. -/
lemma get_closeLink {j : LinkId} {row : RelayLink} (hget : m.table.get j = some row) :
    (m.closeLink l).table.get j = some (if l = j then row.close else row) := by
  unfold closeLink
  split
  · next hnone =>
    have hne : l ≠ j := by
      rintro rfl
      rw [hnone] at hget
      contradiction
    rw [if_neg hne, hget]
  · next link hl =>
    rw [table_closeAs, OrderedMap.get_set]
    split
    · next hj =>
      subst hj
      obtain rfl := Option.some.inj (hl.symm.trans hget)
      rfl
    · exact hget

/-- What becomes of a link that may be closed. -/
def EndedOr (link link' : RelayLink) : Prop := link' = link ∨ link.Ended link'

lemma EndedOr.trans {link'' : RelayLink} (h : EndedOr link link') (h' : EndedOr link' link'') :
    EndedOr link link'' := by
  rcases h with rfl | h
  · exact h'
  · rcases h' with rfl | h'
    · exact .inr h
    · exact .inr ⟨h'.slot.trans h.slot, h'.connection.trans h.connection,
        h'.pending.trans h.pending, h'.closed⟩

lemma get_closeAll {j : LinkId} {row : RelayLink} (ls : List LinkId)
    (hget : m.table.get j = some row) :
    ∃ row', (m.closeAll ls).table.get j = some row' ∧ EndedOr row row' ∧
      (j ∉ ls → row' = row) ∧ (j ∈ ls → row'.closed = true) := by
  induction ls generalizing m row with
  | nil => exact ⟨row, hget, .inl rfl, fun _ => rfl, fun h => absurd h (by simp)⟩
  | cons l ls ih =>
    obtain ⟨row', hrow', hended, hout, hin⟩ := ih (get_closeLink hget)
    refine ⟨row', hrow', ?_, fun hj => ?_, fun hj => ?_⟩
    · refine EndedOr.trans ?_ hended
      split
      · exact .inr row.ended_close
      · exact .inl rfl
    · rw [List.mem_cons, not_or] at hj
      rw [hout hj.2, if_neg fun e => hj.1 e.symm]
    · rcases List.mem_cons.mp hj with rfl | hj
      · rw [if_pos rfl] at hended
        rcases hended with rfl | hended
        · exact row.ended_close.closed
        · exact hended.closed
      · exact hin hj

/-! ### One event -/

/-- What an event keeps, under the condition of each part. -/
structure Kept (m m' : TunnelManager) (verifier : Verifier) (settles known idle : Prop) :
    Prop where
  inv : Inv m' verifier
  quiet : settles → m.AllLinks RelayLink.Quiet → m'.AllLinks RelayLink.Quiet
  tabled : known → m.Tabled → m'.Tabled
  idles : idle → m.Idles → m'.Idles

variable {settles known idle : Prop}

lemma kept_same (h : Inv m verifier) {m' : TunnelManager} (htable : m'.table = m.table)
    (hnext : m'.nextLink = m.nextLink) (hlinks : m'.links = m.links) :
    Kept m m' verifier settles known idle := by
  refine ⟨h.of_table htable hnext fun j s hj => ?_, fun _ hq => hq.of_table htable,
    fun _ ht => ?_, fun _ hi => AllLinks.of_table hi htable⟩
  · rwa [Listed, hlinks] at hj
  · intro j row hrow hfinished
    rw [htable] at hrow
    obtain ⟨list, hget, hj⟩ := ht j row hrow hfinished
    exact ⟨list, by rw [hlinks, hget], hj⟩

/-- A link changed in its place, open or closed as it was. -/
lemma kept_setLink (h : Inv m verifier) (hget : m.table.get l = some link)
    (hsound : link'.Sound verifier) (hsteady : link.Steady link')
    (hquiet : settles → link.Quiet → link'.Quiet) (hidles : idle → link.Idles → link'.Idles) :
    Kept m (m.setLink l link') verifier settles known idle := by
  refine ⟨h.setLink hget hsound hsteady.slot fun hs => hsteady.connection.trans hs,
    fun hs hq => hq.setLink (hquiet hs (hq l link hget)), fun _ ht => ?_,
    fun hi hm => AllLinks.setLink hm (hidles hi (hm l link hget))⟩
  refine ht.setLink hget hsteady.slot fun hf => ?_
  exact ⟨hsteady.closed ▸ hf.1, hsteady.connection ▸ hf.2⟩

/-- A link closed in its place, and taken out of its slot. -/
lemma kept_gone (h : Inv m verifier) (hget : m.table.get l = some link)
    (hsound : link'.Sound verifier) (hended : link.Ended link')
    (hquiet : settles → link.Quiet → link.pending = 0) (slot : Slot) :
    Kept m ((m.setLink l link').onGone l slot) verifier settles known idle := by
  refine ⟨h.gone hget hsound hended.slot hended.connection slot, fun hs hq => ?_, fun _ ht => ?_,
    fun _ hi => ?_⟩
  · refine AllLinks.of_table (hq.setLink (l := l) fun _ => ?_) (table_onGone slot)
    exact hended.pending.trans (hquiet hs (hq l link hget))
  · exact ht.gone hget hended.slot hended.closed slot
  · refine AllLinks.of_table (AllLinks.setLink hi ?_) (table_onGone slot)
    exact RelayLink.idles_of_closed hended.closed

/-- A link whose circuits change, or its timer, while it is open. -/
lemma kept_open (h : Inv m verifier) (hget : m.table.get l = some link)
    (hopen : link.closed = false) (hsound : link'.Sound verifier) (hsteady : link.Steady link')
    (hidles : idle → link.Idles → link'.Idles) :
    Kept m (m.setLink l link') verifier settles known idle := by
  refine kept_setLink h hget hsound hsteady (fun _ _ hclosed => ?_) hidles
  rw [hsteady.closed, hopen] at hclosed
  contradiction

/-- The socket of a link closes, with nothing pending on it. -/
lemma kept_tearDown (h : Inv m verifier) (hget : m.table.get l = some link)
    (hopen : link'.closed = false) (hsound : link'.teardown.Sound verifier)
    (hsteady : link.Steady link') (hsame : link'.pending = link.pending)
    (hpending : settles → link.pending = 0) :
    Kept m (m.tearDown l link') verifier settles known idle := by
  rw [tearDown, if_neg (by simp [hopen])]
  refine kept_gone h hget hsound ⟨hsteady.slot, hsteady.connection, hsame, rfl⟩
    (fun hs _ => hpending hs) link'.slot

lemma pending_of_empty (h : link.Sound verifier) (hopen : link.closed = false)
    (hempty : link.circuits.size = 0) : link.pending = 0 := by
  rw [h.counted hopen, RelayLink.creating_of_empty hempty]
  rfl

/-- An end of `connect` that is not kept comes after the link has closed. -/
lemma closed_of_broken (h : link.Sound verifier) (hproven : link.proven = some false) :
    link.closed = true := by
  by_contra hopen
  have hopen := Bool.eq_false_iff.mpr hopen
  cases hverified : link.verified with
  | false => simp [h.waiting hopen hverified] at hproven
  | true => simp [h.told hverified] at hproven

lemma kept_broken (h : Inv m verifier) (hget : m.table.get l = some link)
    (hclosed : link.closed = true) (hconn : link.connection ≠ .settled true) :
    Kept m ((m.closeAs l link).setLink l { link.close with connection := .settled false })
      verifier settles known idle := by
  have hsound := h.sound l link hget
  have hended := link.ended_close
  have hinv := h.closeAs hget hsound rfl rfl
  have hget' : (m.closeAs l link).table.get l = some link.close := by
    rw [table_closeAs, OrderedMap.get_set_self]
  refine ⟨hinv.setLink hget' (hsound.close.connected _) rfl fun hsettled => ?_,
    fun _ hq => ?_, fun _ ht => ?_, fun _ hi => ?_⟩
  · exact absurd (hended.connection.symm.trans hsettled) hconn
  · have hpending : link.close.pending = 0 := hended.pending.trans (hq l link hget hclosed)
    exact (hq.closeAs fun _ => hpending).setLink fun _ => hpending
  · refine (ht.closeAs hget rfl).setLink hget' rfl fun hf => ?_
    exact absurd hf.2 (by simp)
  · have hidles : link.close.Idles := RelayLink.idles_of_closed hended.closed
    exact (AllLinks.closeAs hi hidles).setLink (RelayLink.idles_of_closed hended.closed)

lemma kept_finished (h : Inv m verifier) (hget : m.table.get l = some link)
    (hconn : link.connection ≠ .settled true) :
    Kept m
      { m.setLink l { link with connection := .settled true } with
        links := m.links.set link.slot ((m.links.get link.slot).getD [] ++ [l]) }
      verifier settles known idle := by
  have hsound := h.sound l link hget
  have hlisted {j : LinkId} {s : Slot} (hj : m.Listed j s) :
      ∃ list, (m.links.set link.slot ((m.links.get link.slot).getD [] ++ [l])).get s =
        some list ∧ j ∈ list := by
    obtain ⟨list, hlist, hmem⟩ := hj
    by_cases hs : link.slot = s
    · subst hs
      refine ⟨_, OrderedMap.get_set_self _, ?_⟩
      rw [hlist]
      exact List.mem_append_left _ hmem
    · exact ⟨list, by rw [OrderedMap.get_set_of_ne _ hs, hlist], hmem⟩
  refine ⟨⟨AllLinks.setLink h.sound (hsound.connected _), ?_, ?_⟩, fun _ hq => ?_, fun _ ht => ?_,
    fun _ hi => ?_⟩
  · intro j row hrow
    by_cases hj : l = j
    · subst hj
      exact h.fresh l link hget
    · exact h.fresh j row ((OrderedMap.get_set_of_ne _ hj).symm.trans hrow)
  · rintro j s ⟨list, hlist, hmem⟩
    by_cases hlj : l = j
    · subst hlj
      refine ⟨_, OrderedMap.get_set_self _, ?_, rfl⟩
      by_cases hs : link.slot = s
      · exact hs
      · rw [OrderedMap.get_set_of_ne _ hs] at hlist
        obtain ⟨row, hrow, -, hsettled⟩ := h.filed l s ⟨list, hlist, hmem⟩
        obtain rfl := Option.some.inj (hget.symm.trans hrow)
        exact absurd hsettled hconn
    · have hold : m.Listed j s := by
        by_cases hs : link.slot = s
        · subst hs
          obtain rfl := Option.some.inj ((OrderedMap.get_set_self _).symm.trans hlist)
          rcases List.mem_append.mp hmem with hmem | hmem
          · cases hlinks : m.links.get link.slot with
            | none => simp [hlinks] at hmem
            | some list => exact ⟨list, hlinks, by simpa [hlinks] using hmem⟩
          · exact absurd (List.mem_singleton.mp hmem).symm hlj
        · exact ⟨list, (OrderedMap.get_set_of_ne _ hs).symm.trans hlist, hmem⟩
      obtain ⟨row, hrow, hrest⟩ := h.filed j s hold
      exact ⟨row, (OrderedMap.get_set_of_ne _ hlj).trans hrow, hrest⟩
  · exact AllLinks.setLink hq fun hclosed => hq l link hget hclosed
  · intro j row hrow hfinished
    by_cases hlj : l = j
    · subst hlj
      obtain rfl := Option.some.inj ((OrderedMap.get_set_self _).symm.trans hrow)
      exact ⟨_, OrderedMap.get_set_self _, List.mem_append_right _ (List.mem_singleton_self l)⟩
    · have hrow' := (OrderedMap.get_set_of_ne _ hlj).symm.trans hrow
      exact hlisted (ht j row hrow' hfinished)
  · exact AllLinks.setLink hi fun hopen hv hempty ho => hi l link hget hopen hv hempty ho

lemma kept_settle (h : Inv m verifier) (hget : m.table.get l = some link) :
    Kept m (m.settle l link) verifier settles known idle := by
  have hsound := h.sound l link hget
  unfold settle
  dsimp only
  split
  · next hconn hproven => exact kept_finished h hget (by simp [hconn])
  · next hconn hproven =>
    exact kept_broken h hget (closed_of_broken hsound hproven) (by simp [hconn])
  · next hconn =>
    split
    · next hclosed => exact kept_broken h hget hclosed (by simp [hconn])
    · exact kept_same h rfl rfl rfl
  · exact kept_same h rfl rfl rfl

lemma kept_frame (h : Inv m verifier) (hget : m.table.get l = some link)
    (hopen : link.closed = false) {frame : Frame} {confirms ends : Bool}
    {out : RelayLink × Bool} (hd : RelayLink.Dispatched verifier link frame confirms ends out)
    (hlast : idle → ¬ link.LosesLast frame confirms) :
    Kept m (if out.2 then m.tearDown l out.1 else m.setLink l out.1) verifier settles known
      idle := by
  have hsound := h.sound l link hget
  split
  · next hfailed =>
    cases hd with
    | failed hv =>
      refine kept_tearDown h hget hopen (hsound.identityFailed_teardown hv) ⟨rfl, rfl, rfl⟩ rfl
        fun _ => pending_of_empty hsound hopen (hsound.unverified hv)
    | _ => simp at hfailed
  · next hok =>
    have hout := hsound.dispatched hopen hd (by simpa using hok)
    exact kept_open h hget hopen hout hd.steady fun hi hidles =>
      hsound.idles_dispatched hidles hd (hlast hi)

lemma kept_linkStep (h : Inv m verifier) (hget : m.table.get l = some link) {e : Event}
    (hl : e.link = some l) :
    Kept m (m.linkStep verifier l link e) verifier (m.ClosesSettled e) known (m.LeavesIdle e) := by
  have hsound := h.sound l link hget
  cases e with
  | ready j =>
    unfold linkStep
    dsimp only
    split
    · next hdial =>
      refine ⟨h.setLink hget (hsound.connected _) rfl fun hs => ?_, fun _ hq => ?_, fun _ ht => ?_,
        fun _ hi => ?_⟩
      · rw [hdial.1] at hs
        simp at hs
      · exact AllLinks.setLink hq fun hclosed => hq l link hget hclosed
      · exact ht.setLink hget rfl fun hf => absurd hf.2 (by simp)
      · exact AllLinks.setLink hi fun ho hv hempty hoff => hi l link hget ho hv hempty hoff
    · exact kept_same h rfl rfl rfl
  | settle j => exact kept_settle h hget
  | frame j frame confirms ends =>
    obtain rfl := Option.some.inj hl
    unfold linkStep
    dsimp only
    split
    · exact kept_same h rfl rfl rfl
    · next hclosed =>
      have hopen : link.closed = false := by simpa using hclosed
      exact kept_frame h hget hopen (RelayLink.dispatched link frame confirms ends)
        fun hi => hi.1 j link frame confirms ends rfl hget hopen
  | identityTimeout j =>
    unfold linkStep
    dsimp only
    split
    · next hguard =>
      obtain ⟨-, hproven, hclosed⟩ := hguard
      have hopen : link.closed = false := by simpa using hclosed
      have hv : link.verified = false := by
        by_contra hverified
        have htold := hsound.told (by simpa using hverified)
        simp [hproven] at htold
      exact kept_tearDown h hget hopen (hsound.identityFailed_teardown hv) ⟨rfl, rfl, rfl⟩ rfl
        fun _ => pending_of_empty hsound hopen (hsound.unverified hv)
    · exact kept_same h rfl rfl rfl
  | lost j =>
    obtain rfl := Option.some.inj hl
    cases hclosed : link.closed with
    | false =>
      refine kept_tearDown h hget hclosed hsound.teardown ⟨rfl, rfl, rfl⟩ rfl fun hs => ?_
      rw [hsound.counted hclosed, hs j (List.mem_singleton_self j) link hget hclosed]
      rfl
    | true =>
      have hstep : m.linkStep verifier j link (.lost j) = m.setLink j link := by
        simp [linkStep, tearDown, hclosed]
      rw [hstep]
      exact kept_setLink h hget hsound ⟨rfl, rfl, rfl⟩ (fun _ hq => hq) fun _ hi => hi
  | handshakeTimeout j id =>
    unfold linkStep
    dsimp only
    split
    · next hcreating =>
      exact kept_open h hget (hsound.open_of_get hcreating) hsound.forget
        (RelayLink.steady_forget link id) fun _ _ => hsound.idles_forget
    · exact kept_same h rfl rfl rfl
  | circuitDone j id =>
    unfold linkStep
    dsimp only
    split
    · next hopened =>
      have hne : link.circuits.get id ≠ some .creating := by simp [hopened]
      exact kept_open h hget (hsound.open_of_get hopened) (hsound.onDone hne)
        (RelayLink.steady_onDone link id) fun _ _ => hsound.idles_onDone hne
    · exact kept_same h rfl rfl rfl
  | idle j =>
    unfold linkStep
    dsimp only
    split
    · split
      · next hempty =>
        have hunset := hsound.unset
        have hended := RelayLink.ended_close { link with idleTimer := .unset }
        unfold closeAs
        split
        · next hclosed =>
          have hclose : ({ link with idleTimer := .unset } : RelayLink).close.Idles :=
            RelayLink.idles_of_closed hended.closed
          exact kept_setLink h hget hunset.close
            ⟨hended.slot, hended.connection, hended.closed.trans hclosed.symm⟩
            (fun _ hq _ => hended.pending.trans (hq hclosed)) fun _ _ => hclose
        · next hclosed =>
          have hopen : link.closed = false := by simpa using hclosed
          exact kept_gone h hget hunset.close
            ⟨hended.slot, hended.connection, hended.pending, hended.closed⟩
            (fun _ _ => pending_of_empty hsound hopen hempty) _
      · next hbusy =>
        exact kept_setLink h hget hsound.unset ⟨rfl, rfl, rfl⟩ (fun _ hq => hq)
          fun _ _ _ _ hempty _ => absurd hempty hbusy
    · exact kept_same h rfl rfl rfl
  | _ => simp [Event.link] at hl

lemma kept_newLink (h : Inv m verifier) (t : TaskId) (task : OpenTask) (nonce : Nonce) :
    Kept m
      { (m.setLink m.nextLink
          { slot := slotOf task.endpoint task.relayKey
            identity := ⟨nonce, task.endpoint, task.relayKey⟩ }).setTask t
          { task with phase := .connecting m.nextLink } with
        nextLink := m.nextLink + 1
        connecting := m.connecting.set (slotOf task.endpoint task.relayKey) m.nextLink }
      verifier settles known idle := by
  have hsound := @RelayLink.sound_new verifier ⟨nonce, task.endpoint, task.relayKey⟩
  have hother {j : LinkId} {row : RelayLink} (hrow : m.table.get j = some row) :
      m.nextLink ≠ j := (h.fresh j row hrow).ne'
  refine ⟨⟨AllLinks.setLink h.sound hsound, ?_, ?_⟩, fun _ hq => ?_, fun _ ht => ?_,
    fun _ hi => ?_⟩
  · intro j row hrow
    by_cases hj : m.nextLink = j
    · exact hj ▸ Nat.lt_succ_self _
    · have hold := (OrderedMap.get_set_of_ne _ hj).symm.trans hrow
      exact (h.fresh j row hold).trans (Nat.lt_succ_self _)
  · intro j s hj
    obtain ⟨row, hrow, hrest⟩ := h.filed j s hj
    exact ⟨row, (OrderedMap.get_set_of_ne _ (hother hrow)).trans hrow, hrest⟩
  · exact AllLinks.setLink hq fun hclosed => by simp at hclosed
  · intro j row hrow hfinished
    by_cases hj : m.nextLink = j
    · subst hj
      obtain rfl := Option.some.inj ((OrderedMap.get_set_self _).symm.trans hrow)
      exact absurd hfinished.2 (by simp)
    · exact ht j row ((OrderedMap.get_set_of_ne _ hj).symm.trans hrow) hfinished
  · exact AllLinks.setLink hi fun _ hverified => by simp at hverified

lemma kept_linkFor (h : Inv m verifier) (t : TaskId) (task : OpenTask) (nonce : Nonce) :
    Kept m (m.linkFor t task nonce) verifier settles known idle := by
  unfold linkFor
  dsimp only
  split
  · exact kept_same h rfl rfl rfl
  · split
    · exact kept_same h rfl rfl rfl
    · split
      · exact kept_same h rfl rfl rfl
      · exact kept_newLink h t task nonce

lemma kept_resume (h : Inv m verifier) {t : TaskId} {task : OpenTask} {answer : Answer}
    (htask : m.tasks.get t = some task) :
    Kept m (m.resume t task answer) verifier settles known (m.LeavesIdle (.resume t answer)) := by
  unfold resume
  split
  · exact kept_linkFor h t task answer.nonce
  · split
    · exact kept_linkFor h t task answer.nonce
    · exact kept_same h rfl rfl rfl
  · dsimp only
    split
    · exact kept_same h rfl rfl rfl
    · exact kept_same h rfl rfl rfl
    · exact kept_same h rfl rfl rfl
  · next l hphase =>
    split
    · exact kept_same h rfl rfl rfl
    · next link hget =>
      split
      · next hcap =>
        split
        · exact kept_same h rfl rfl rfl
        · next hfree =>
          rw [not_or, Bool.not_eq_true, OrderedMap.has, Option.isSome_eq_false_iff,
            Option.isNone_iff_eq_none] at hfree
          obtain ⟨hid, hfresh⟩ := hfree
          have hsound := h.sound l link hget
          obtain ⟨-, hopen, -, -⟩ := RelayLink.hasCapacity_iff.mp hcap
          have hkept : Kept m (m.setLink l (link.openCircuit answer.id answer.attempt)) verifier
              settles known (m.LeavesIdle (.resume t answer)) := by
            refine kept_open h hget hopen (hsound.openCircuit hcap hid hfresh)
              (RelayLink.steady_openCircuit hcap hid hfresh) fun hi _ => ?_
            exact (hsound.idles_openCircuit_iff hcap hid hfresh).mpr
              (hi.2 t task answer l link rfl htask hphase hget hcap hid)
          exact ⟨hkept.inv.of_table rfl rfl fun _ _ hj => hj, hkept.quiet, hkept.tabled,
            hkept.idles⟩
      · split
        · exact kept_same h rfl rfl rfl
        · exact kept_linkFor h t _ answer.nonce

lemma get_closeLink_none {j : LinkId} (hnone : m.table.get j = none) :
    (m.closeLink l).table.get j = none := by
  unfold closeLink
  split
  · exact hnone
  · next link hl =>
    have hne : l ≠ j := by
      rintro rfl
      rw [hl] at hnone
      contradiction
    rw [table_closeAs, OrderedMap.get_set_of_ne _ hne, hnone]

/-- Every link after some are closed was there before. -/
lemma get_of_closeAll {j : LinkId} {row' : RelayLink} (ls : List LinkId)
    (hget : (m.closeAll ls).table.get j = some row') :
    ∃ row, m.table.get j = some row ∧ EndedOr row row' ∧ (j ∉ ls → row' = row) ∧
      (j ∈ ls → row'.closed = true) := by
  cases hrow : m.table.get j with
  | none =>
    have hnone : (m.closeAll ls).table.get j = none := by
      induction ls generalizing m with
      | nil => exact hrow
      | cons l ls ih => exact ih hget (get_closeLink_none hrow)
    rw [hnone] at hget
    contradiction
  | some row =>
    obtain ⟨row₁, hrow₁, hrest⟩ := get_closeAll ls hrow
    obtain rfl := Option.some.inj (hrow₁.symm.trans hget)
    exact ⟨row, rfl, hrest⟩

/-- Links closed with no circuit being created on them have nothing pending. -/
lemma quiet_closeAll (h : Inv m verifier) {ls : List LinkId} (hq : m.AllLinks RelayLink.Quiet)
    (hls : ∀ l ∈ ls, ∀ link, m.table.get l = some link → link.closed = false →
      link.creating = 0) : (m.closeAll ls).AllLinks RelayLink.Quiet := by
  intro j row' hrow' hclosed
  obtain ⟨row, hrow, hended, hout, -⟩ := get_of_closeAll ls hrow'
  by_cases hj : j ∈ ls
  · have hpending : row'.pending = row.pending := by
      rcases hended with rfl | hended
      · rfl
      · exact hended.pending
    rw [hpending]
    cases hopen : row.closed with
    | true => exact hq j row hrow hopen
    | false =>
      rw [(h.sound j row hrow).counted hopen, hls j hj row hrow hopen]
      rfl
  · obtain rfl := hout hj
    exact hq j row' hrow hclosed

lemma kept_shutdown (h : Inv m verifier) :
    Kept m m.shutdown verifier (m.ClosesSettled .shutdown) known idle := by
  have hnone (j : LinkId) (s : Slot) : ¬ m.shutdown.Listed j s := by
    rintro ⟨list, hget, -⟩
    simp [shutdown] at hget
  refine ⟨(h.closeAll _).of_table rfl rfl fun j s hj => absurd hj (hnone j s), fun hs hq => ?_,
    fun _ ht => ?_, fun _ hi => ?_⟩
  · exact (quiet_closeAll h hq hs).of_table rfl
  · intro j row' hrow' hfinished
    obtain ⟨row, hrow, hended, -, hin⟩ := get_of_closeAll m.links.values.flatten hrow'
    rcases hended with rfl | hended
    · obtain ⟨list, hlist, hj⟩ := ht j row' hrow hfinished
      have hmem : j ∈ m.links.values.flatten :=
        List.mem_flatten.mpr ⟨list, OrderedMap.mem_values_iff.mpr ⟨_, hlist⟩, hj⟩
      exact absurd hfinished (not_finished_of_closed (hin hmem))
    · exact absurd hfinished (not_finished_of_closed hended.closed)
  · have hclosed := AllLinks.closeAll hi
      (fun link _ => RelayLink.idles_of_closed link.ended_close.closed) m.links.values.flatten
    exact hclosed.of_table rfl

lemma kept_recheck (h : Inv m verifier) (i : TaskId) (entry : Option PublicKey) :
    Kept m (m.recheck i entry) verifier (m.ClosesSettled (.directory i entry))
      (m.DropsKnown (.directory i entry)) idle := by
  unfold recheck
  split
  · next slot stale rest hrest =>
    dsimp only
    split
    · exact kept_same h rfl rfl rfl
    · next hunlisted =>
      have hunlisted' : listed slot entry = false := by simpa using hunlisted
      have hcloses : m.closes (.directory i entry) = stale := by
        simp [closes, hrest, hunlisted']
      have hinv : Inv { m with rechecks := m.rechecks.set i rest } verifier :=
        h.of_table rfl rfl fun _ _ hj => hj
      refine ⟨(hinv.closeAll stale).of_table rfl rfl fun j s hj => ?_, fun hs hq => ?_,
        fun hk ht => ?_, fun _ hi => ?_⟩
      · obtain ⟨list, hlist, hmem⟩ := hj
        rw [OrderedMap.get_delete] at hlist
        split at hlist
        · contradiction
        · exact ⟨list, hlist, hmem⟩
      · have hstale : ∀ l ∈ stale, ∀ link, m.table.get l = some link → link.closed = false →
            link.creating = 0 := fun l hl => hs l (hcloses.symm ▸ hl)
        have hquiet := quiet_closeAll hinv hq hstale
        exact hquiet.of_table rfl
      · intro j row' hrow' hfinished
        have htabled : ({ m with rechecks := m.rechecks.set i rest } : TunnelManager).Tabled := ht
        obtain ⟨list, hlist, hmem⟩ := htabled.closeAll stale j row' hrow' hfinished
        obtain ⟨row, hrow, hended, -, hin⟩ := get_of_closeAll stale hrow'
        rcases hended with rfl | hended
        · have hnew : j ∉ stale := fun hj => not_finished_of_closed (hin hj) hfinished
          have hslot : slot ≠ row'.slot := by
            intro hslot
            have hlisted := ht j row' hrow hfinished
            have hclosed := hk i entry slot stale rest rfl hrest hunlisted' j row'
              (hslot ▸ hlisted) hnew hrow
            exact not_finished_of_closed hclosed hfinished
          exact ⟨list, by rw [OrderedMap.get_delete_of_ne hslot, hlist], hmem⟩
        · exact absurd hfinished (not_finished_of_closed hended.closed)
      · have hm : ({ m with rechecks := m.rechecks.set i rest } : TunnelManager).AllLinks
            RelayLink.Idles := hi
        have hclosed := hm.closeAll
          (fun link _ => RelayLink.idles_of_closed link.ended_close.closed) stale
        exact hclosed.of_table rfl
  · exact kept_same h rfl rfl rfl

lemma kept (h : Inv m verifier) (e : Event) :
    Kept m (m.step verifier e) verifier (m.ClosesSettled e) (m.DropsKnown e) (m.LeavesIdle e) := by
  have hlink (l : LinkId) (hl : e.link = some l)
      (hstep : m.step verifier e = match (m.table.get l).map (l, ·) with
        | some (l, link) => m.linkStep verifier l link e
        | none => m) :
      Kept m (m.step verifier e) verifier (m.ClosesSettled e) (m.DropsKnown e)
        (m.LeavesIdle e) := by
    rw [hstep]
    cases hget : m.table.get l with
    | none => exact kept_same h rfl rfl rfl
    | some link => exact kept_linkStep h hget hl
  cases e with
  | openStream endpoint relayKey => exact kept_same h rfl rfl rfl
  | resume t answer =>
    unfold step
    dsimp only
    split
    · next task htask => exact kept_resume h htask
    · exact kept_same h rfl rfl rfl
  | recheckLinks => exact kept_same h rfl rfl rfl
  | directory i entry => exact kept_recheck h i entry
  | shutdown => exact kept_shutdown h
  | ready l => exact hlink l rfl rfl
  | settle l => exact hlink l rfl rfl
  | frame l frame confirms ends => exact hlink l rfl rfl
  | identityTimeout l => exact hlink l rfl rfl
  | lost l => exact hlink l rfl rfl
  | handshakeTimeout l id => exact hlink l rfl rfl
  | circuitDone l id => exact hlink l rfl rfl
  | idle l => exact hlink l rfl rfl

/-! ### The conditions are needed -/

lemma counted_iff (h : Inv m verifier) : m.Counted ↔ m.AllLinks RelayLink.Quiet := by
  constructor
  · intro hcounted l link hget hclosed
    rw [hcounted l link hget, RelayLink.creating_of_empty ((h.sound l link hget).drained hclosed)]
    rfl
  · intro hquiet l link hget
    have hsound := h.sound l link hget
    cases hclosed : link.closed with
    | false => exact hsound.counted hclosed
    | true =>
      rw [hquiet l link hget hclosed, RelayLink.creating_of_empty (hsound.drained hclosed)]
      rfl

/-- What an event closes is closed after it, with as much pending as before. -/
lemma get_of_closes {e : Event} (hl : l ∈ m.closes e) (hget : m.table.get l = some link)
    (hopen : link.closed = false) :
    ∃ link', (m.step verifier e).table.get l = some link' ∧ link'.closed = true ∧
      link'.pending = link.pending := by
  have hclosed {m' : TunnelManager} (ls : List LinkId) (hget' : m'.table.get l = some link)
      (hls : l ∈ ls) : ∃ link', (m'.closeAll ls).table.get l = some link' ∧
        link'.closed = true ∧ link'.pending = link.pending := by
    obtain ⟨link', hlink', hended, -, hin⟩ := get_closeAll ls hget'
    refine ⟨link', hlink', hin hls, ?_⟩
    rcases hended with rfl | hended
    · rfl
    · exact hended.pending
  cases e with
  | lost j =>
    obtain rfl := List.mem_singleton.mp hl
    refine ⟨link.teardown, ?_, rfl, rfl⟩
    simp [step, Event.link, hget, linkStep, tearDown, hopen, setLink]
  | directory i entry =>
    simp only [closes] at hl
    split at hl
    · next slot stale rest hrest =>
      split at hl
      · simp at hl
      · next hunlisted =>
        obtain ⟨link', hlink', hrest'⟩ :=
          @hclosed { m with rechecks := m.rechecks.set i rest } stale hget hl
        refine ⟨link', ?_, hrest'⟩
        simpa [step, recheck, hrest, hunlisted] using hlink'
    · simp at hl
  | shutdown => exact hclosed _ hget hl
  | _ => simp [closes] at hl

lemma closesSettled_of_counted (h : Inv m verifier) {e : Event}
    (hcounted : (m.step verifier e).Counted) : m.ClosesSettled e := by
  intro l hl link hget hopen
  obtain ⟨link', hget', hclosed, hpending⟩ := @get_of_closes m verifier l link e hl hget hopen
  have hquiet := (counted_iff (kept h e).inv).mp hcounted l link' hget' hclosed
  have hcount := (h.sound l link hget).counted hopen
  omega

lemma dropsKnown_of_tabled (h : Inv m verifier) {e : Event}
    (htabled : (m.step verifier e).Tabled) : m.DropsKnown e := by
  rintro i entry slot stale rest rfl hrest hunlisted l link hlisted hnew hget
  by_contra hclosed
  obtain ⟨row, hrow, hslot, hsettled⟩ := h.filed l slot hlisted
  obtain rfl := Option.some.inj (hget.symm.trans hrow)
  have hstep : m.step verifier (.directory i entry) = m.recheck i entry := rfl
  rw [hstep, recheck, hrest] at htabled
  simp only [hunlisted, Bool.false_eq_true, if_false] at htabled
  have hget' : ({ m with rechecks := m.rechecks.set i rest } : TunnelManager).table.get l =
      some link := hget
  obtain ⟨row', hrow', -, hout, -⟩ := get_closeAll stale hget'
  obtain rfl := hout hnew
  obtain ⟨list, hlist, -⟩ := htabled l row' hrow' ⟨by simpa using hclosed, hsettled⟩
  rw [hslot] at hlist
  simp at hlist

lemma leavesIdle_of_idles (h : Inv m verifier) {e : Event}
    (hidles : (m.step verifier e).Idles) : m.LeavesIdle e := by
  constructor
  · rintro l link frame confirms ends rfl hget hopen hlast
    have hsound := h.sound l link hget
    refine @RelayLink.Sound.not_idles_dispatch _ _ frame confirms ends hsound hopen hlast
      (hidles l _ ?_)
    obtain ⟨rfl, hverified, hid, htype, hcreating, -⟩ := hlast
    have hok : (link.dispatch verifier frame false ends).2 = false := by
      simp [RelayLink.dispatch, hverified, hid, htype, hcreating]
    simp [step, Event.link, hget, linkStep, hopen, hok, setLink]
  · rintro t task answer l link rfl htask hphase hget hcap hid hrefused
    have hsound := h.sound l link hget
    by_contra hempty
    have hfresh : link.circuits.get answer.id = none := by
      rw [OrderedMap.get, RelayLink.entries_of_empty (Nat.eq_zero_of_not_pos hempty)]
      rfl
    have hget' : (m.step verifier (.resume t answer)).table.get l =
        some (link.openCircuit answer.id answer.attempt) := by
      simp [step, htask, resume, hphase, hget, hcap, hid, OrderedMap.has, hfresh, setLink, endTask]
    exact hempty ((hsound.idles_openCircuit_iff hcap hid hfresh).mp (hidles l _ hget') hrefused)

/-! ### Runs -/

lemma bounded_of_inv (h : Inv m verifier) : m.Bounded verifier := by
  intro l link hget
  have hsound := h.sound l link hget
  refine ⟨hsound.pending_le, hsound.size_le, fun hcreated => ?_⟩
  have hverified := hsound.offered (hsound.created hcreated)
  exact ⟨hverified, hsound.keyed, hsound.proof hverified⟩

/-- A link that is not in the table is not an open one that finished connecting. -/
lemma accounted_iff {e : Event} :
    m.Accounted verifier e ↔ (m.step verifier e).Tabled := by
  refine ⟨fun h => h.1, fun h => ⟨h, ?_, ?_⟩⟩
  · rintro rfl l link hget hfinished
    obtain ⟨list, hlist, -⟩ := h l link hget hfinished
    simp [step, shutdown] at hlist
  · rintro i entry slot stale rest rfl hrest hunlisted l link hget rfl hfinished
    obtain ⟨list, hlist, -⟩ := h l link hget hfinished
    simp [step, recheck, hrest, hunlisted] at hlist

/-- A client that has opened nothing yet. -/
def start (maxLinks : ℕ) : TunnelManager := { maxLinks }

lemma inv_start (maxLinks : ℕ) : Inv (start maxLinks) verifier where
  sound _ _ h := by simp [start] at h
  fresh _ _ h := by simp [start] at h
  filed _ _ h := by
    obtain ⟨list, hlist, -⟩ := h
    simp [start] at hlist

/-- **The links of a client are accounted for**, in any order of what can happen. Counts stay in
their bounds and circuits are asked for after the proof. The count of those pending is right as
long as no link closes while a circuit is being created on it; the table has every open link as
long as no recheck drops a slot with a link that came after it began; and links that carry nothing
wait to be closed as long as the only circuit of one is not lost to a key that is not confirmed,
and its first handshake not refused. -/
theorem links_accounted_iff (verifier : Verifier) (maxLinks : ℕ) (es : List Event) :
    Allowed (step · verifier) (fun m e => (m.step verifier e).Bounded verifier)
        (start maxLinks) es ∧
      (Allowed (step · verifier) (fun m e => (m.step verifier e).Counted) (start maxLinks) es ↔
        Allowed (step · verifier) ClosesSettled (start maxLinks) es) ∧
      (Allowed (step · verifier) (fun m e => m.Accounted verifier e) (start maxLinks) es ↔
        Allowed (step · verifier) DropsKnown (start maxLinks) es) ∧
      (Allowed (step · verifier) (fun m e => (m.step verifier e).Idles) (start maxLinks) es ↔
        Allowed (step · verifier) LeavesIdle (start maxLinks) es) := by
  have hinv := @inv_start verifier maxLinks
  refine ⟨?_, ?_, ?_, ?_⟩
  · have hall : Allowed (step · verifier) (fun _ _ => True) (start maxLinks) es :=
      allowed_of_always (fun _ _ => trivial) _ es
    exact allowed_of_invariant (I := fun m => Inv m verifier)
      (fun m e _ h => (kept h e).inv) (fun m e _ h => bounded_of_inv (kept h e).inv) hinv hall
  · refine allowed_congr (I := fun m => Inv m verifier ∧ m.Counted)
      (fun m e hc h => ⟨(kept h.1 e).inv, hc⟩) (fun m e h => ?_) ⟨hinv, ?_⟩ es
    · refine ⟨closesSettled_of_counted h.1, fun hs => ?_⟩
      have hkept := kept h.1 e
      exact (counted_iff hkept.inv).mpr (hkept.quiet hs ((counted_iff h.1).mp h.2))
    · exact fun _ _ h => by simp [start] at h
  · refine allowed_congr (I := fun m => Inv m verifier ∧ m.Tabled)
      (fun m e hc h => ⟨(kept h.1 e).inv, hc.1⟩) (fun m e h => ?_) ⟨hinv, ?_⟩ es
    · rw [accounted_iff]
      exact ⟨dropsKnown_of_tabled h.1, fun hk => (kept h.1 e).tabled hk h.2⟩
    · exact fun _ _ h => by simp [start] at h
  · refine allowed_congr (I := fun m => Inv m verifier ∧ m.Idles)
      (fun m e hc h => ⟨(kept h.1 e).inv, hc⟩) (fun m e h => ?_) ⟨hinv, ?_⟩ es
    · exact ⟨leavesIdle_of_idles h.1, fun hl => (kept h.1 e).idles hl h.2⟩
    · exact fun _ _ h => by simp [start] at h

/-- A circuit is being created on a link whose relay has proven its key. -/
def circuitAsked : List Event :=
  let key : PublicKey := ⟨List.replicate 32 0, length_zeros⟩
  let answer : Answer := ⟨⟨List.replicate 32 0, length_zeros⟩, 1, .sent⟩
  [.openStream "wss://relay.example" key, .resume 0 answer, .ready 0,
    .frame 0 { type := .HELLO_ACK, payload := List.replicate 96 0 } true false, .settle 0,
    .resume 0 answer, .resume 0 answer]

/-- While a recheck waits for the directory, the link it saw goes, and another comes. -/
def linkReplaced : List Event :=
  let key : PublicKey := ⟨List.replicate 32 0, length_zeros⟩
  let answer : Answer := ⟨⟨List.replicate 32 0, length_zeros⟩, 1, .sent⟩
  [.recheckLinks, .lost 0, .openStream "wss://relay.example" key, .resume 1 answer, .ready 1,
    .frame 1 { type := .HELLO_ACK, payload := List.replicate 96 0 } true false, .settle 1]

/-- A link that closes keeps its count, a recheck drops a link that it has not closed, and a link
that lost its only circuit to a key that was not confirmed stays open. -/
theorem not_links_accounted :
    ¬ Allowed (step · fun _ _ _ => true) (fun m e => (m.step (fun _ _ _ => true) e).Counted)
        (start 8) (circuitAsked ++ [.lost 0]) ∧
      ¬ Allowed (step · fun _ _ _ => true) (fun m e => m.Accounted (fun _ _ _ => true) e)
        (start 8) ((circuitAsked ++ linkReplaced) ++ [.directory 0 none]) ∧
      ¬ Allowed (step · fun _ _ _ => true) (fun m e => (m.step (fun _ _ _ => true) e).Idles)
        (start 8) (circuitAsked ++
          [.frame 0 { type := .CIRCUIT_CREATED, circuitId := 1 } false false]) := by
  refine ⟨fun h => ?_, fun h => ?_, fun h => ?_⟩
  · have hcounted := h.last
    have hlink : ((run (step · fun _ _ _ => true) (start 8)
        (circuitAsked ++ [.lost 0])).table.get 0).map
        (fun link => decide (link.pending = link.creating)) = some false := by decide
    rw [run_append, run_cons, run_nil] at hlink
    obtain ⟨link, hget, hpending⟩ := Option.map_eq_some_iff.mp hlink
    exact of_decide_eq_false hpending (hcounted 0 link hget)
  · have htabled := h.last.1
    have hlink : ((run (step · fun _ _ _ => true) (start 8)
        ((circuitAsked ++ linkReplaced) ++ [.directory 0 none])).table.get 1).map
        (fun link => (link.closed, link.connection)) = some (false, .settled true) := by
      decide
    have hlinks : (run (step · fun _ _ _ => true) (start 8)
        ((circuitAsked ++ linkReplaced) ++ [.directory 0 none])).links.entries = [] := by
      decide
    rw [run_append, run_cons, run_nil] at hlink hlinks
    obtain ⟨link, hget, hfinished⟩ := Option.map_eq_some_iff.mp hlink
    simp only [Prod.mk.injEq] at hfinished
    obtain ⟨list, hlist, -⟩ := htabled 1 link hget hfinished
    have hmem := OrderedMap.mem_entries_iff.mpr hlist
    rw [hlinks] at hmem
    exact List.not_mem_nil hmem
  · have hidles := h.last
    have hlink : ((run (step · fun _ _ _ => true) (start 8) (circuitAsked ++
        [.frame 0 { type := .CIRCUIT_CREATED, circuitId := 1 } false false])).table.get 0).map
        (fun link => (link.closed, link.verified, link.circuits.size, link.offered,
          link.idleTimer)) = some (false, true, 0, true, .unset) := by decide
    rw [run_append, run_cons, run_nil] at hlink
    obtain ⟨link, hget, hrow⟩ := Option.map_eq_some_iff.mp hlink
    simp only [Prod.mk.injEq] at hrow
    obtain ⟨hopen, hverified, hempty, hoffered, htimer⟩ := hrow
    have hrunning := hidles 0 link hget hopen hverified hempty hoffered
    rw [htimer] at hrunning
    contradiction

end TunnelManager

end Tnp.Client.Tunnel
