import Tnp.Client.RelayIdentity
import Tnp.Lib.OrderedMap

/-!
One connection of a client to a relay, and the circuits on it.

A call is one step. What the socket, the handshakes and the open circuits answer is the
environment's; what is remembered beside the connection, that a circuit was `offered` to it and
that a `CIRCUIT_CREATE` was sent, is read by no step.
-/

namespace Tnp.Client.Tunnel

open Tnp.Lib Tnp.Crypto Tnp.Crypto.Grants Tnp.Protocol Tnp.Client.RelayIdentity

def MAX_CIRCUITS_PER_CONNECTION : ℕ := 64
def MAX_PENDING_OPENS : ℕ := 32

/-- The text by which links are keyed: the endpoint and the key proven for it. -/
structure Slot where
  endpoint : String
  keyHex : String
  deriving DecidableEq

def slotOf (endpoint : String) (relayKey : PublicKey) : Slot := ⟨endpoint, toHex relayKey.val⟩

inductive CircuitState
  | creating
  | opened
  deriving DecidableEq

inductive IdleTimer
  | unset
  | running
  /-- `clearTimeout` was called, and the variable left as it was. -/
  | cleared
  deriving DecidableEq

/-- How far `connect` has come. -/
inductive Connection
  | dialing
  | proving
  | settled (ok : Bool)
  deriving DecidableEq

structure RelayLink where
  slot : Slot
  identity : RelayIdentityCheck
  circuits : OrderedMap UInt64 CircuitState := ⟨[], List.nodup_nil⟩
  pending : ℤ := 0
  verified : Bool := false
  /-- Whether the promise that waits for the proof was kept; `onVerified` is set before. -/
  proven : Option Bool := none
  connection : Connection := .dialing
  closed : Bool := false
  idleTimer : IdleTimer := .unset
  offered : Bool := false
  created : Bool := false
  deriving DecidableEq

/-- How `openCircuit` goes: the handshake is refused, its first message or the frame cannot be
made, or the frame is sent or not. -/
inductive Attempt
  | refused
  | unmade
  | sent
  | unsent
  deriving DecidableEq

namespace RelayLink

variable (link : RelayLink)

def atCapacity : Bool := MAX_CIRCUITS_PER_CONNECTION ≤ link.circuits.size

def hasCapacity : Bool :=
  link.verified && !link.closed && !link.atCapacity && link.pending < MAX_PENDING_OPENS

def idleCheck : RelayLink :=
  if link.closed ∨ 0 < link.circuits.size ∨ link.idleTimer ≠ .unset then link
  else { link with idleTimer := .running }

/-- An open circuit is over. -/
def onDone (id : UInt64) : RelayLink :=
  idleCheck { link with circuits := link.circuits.delete id }

def forget (id : UInt64) : RelayLink :=
  idleCheck { link with
    circuits := link.circuits.delete id
    pending := if link.circuits.get id = some .creating then link.pending - 1 else link.pending }

/-- `CircuitTable.add` refuses an identifier that is reserved or taken, and a full table. -/
def openCircuit (id : UInt64) (attempt : Attempt) : RelayLink :=
  let link := { link with idleTimer := .unset, offered := true }
  if attempt = .refused then link
  else if id = 0 ∨ link.circuits.has id ∨ link.atCapacity then link
  else
    let link := { link with
      circuits := link.circuits.set id .creating
      pending := link.pending + 1 }
    match attempt with
    | .sent => { link with created := true }
    | .unsent => link.forget id
    | _ => link

/-- The relay is told nothing and the socket closes. -/
def identityFailed : RelayLink := { link with proven := link.proven.or (some false) }

/-- A frame of the relay, and whether it ends the link. `confirms` is the answer of the handshake
to the node's message, and `ends` tells that an open circuit is over once it has read the frame. -/
def dispatch (verifier : Verifier) (frame : Frame) (confirms ends : Bool) : RelayLink × Bool :=
  if link.verified then
    if frame.circuitId = 0 then (link, false)
    else
      match link.circuits.get frame.circuitId with
      | none => (link, false)
      | some .opened => (if ends then link.onDone frame.circuitId else link, false)
      | some .creating =>
        if frame.type = .CIRCUIT_DESTROY then (link.forget frame.circuitId, false)
        else if frame.type ≠ .CIRCUIT_CREATED then (link, false)
        else
          let link := { link with pending := link.pending - 1 }
          if confirms then
            ({ link with
              circuits := (link.circuits.delete frame.circuitId).set frame.circuitId .opened },
              false)
          else ({ link with circuits := link.circuits.delete frame.circuitId }, false)
  else if frame.type = .PING ∧ frame.circuitId = 0 then (link, false)
  else
    match link.identity.verify verifier frame with
    | .error _ => (link.identityFailed, true)
    | .ok () => ({ link with verified := true, proven := link.proven.or (some true) }, false)

/-- The circuits are drained, and each is told. -/
def teardown : RelayLink :=
  { link with
    closed := true
    proven := link.proven.or (some false)
    circuits := ⟨[], List.nodup_nil⟩ }

/-- What `close` does before the socket is closed: the open circuits are aborted in turn. -/
def abortAll : RelayLink :=
  let open' := link.circuits.entries.filter (·.2 = .opened)
  open'.foldl (fun link e => link.onDone e.1)
    { link with idleTimer := if link.idleTimer = .running then .cleared else link.idleTimer }

/-- `close`, and what `teardown` does where it was not closed before. -/
def close : RelayLink :=
  let link := link.abortAll
  if link.closed then link else link.teardown

/-! ### What is kept -/

/-- The circuits that are being created. -/
def creating : ℕ := link.circuits.entries.countP (·.2 = .creating)

/-- What holds of a link at any time. -/
structure Sound (verifier : Verifier) : Prop where
  keyed : link.slot = slotOf link.identity.endpoint link.identity.expectedKey
  pending_le : link.pending ≤ MAX_PENDING_OPENS
  size_le : link.circuits.size ≤ MAX_CIRCUITS_PER_CONNECTION
  proof : link.verified = true → ∃ frame, link.identity.verify verifier frame = .ok ()
  told : link.verified = true → link.proven = some true
  waiting : link.closed = false → link.verified = false → link.proven = none
  offered : link.offered = true → link.verified = true
  created : link.created = true → link.offered = true
  unverified : link.verified = false → link.circuits.size = 0
  drained : link.closed = true → link.circuits.size = 0
  counted : link.closed = false → link.pending = link.creating
  carried : 0 < link.circuits.size → link.offered = true
  busy : 0 < link.circuits.size → link.idleTimer ≠ .running
  timer : link.closed = false → link.idleTimer ≠ .cleared

/-- An open link that has no circuit, and was offered one, waits to be closed. -/
def Idles : Prop :=
  link.closed = false → link.verified = true → link.circuits.size = 0 → link.offered = true →
    link.idleTimer = .running

variable {link} {verifier : Verifier} {id : UInt64}

lemma size_eq_countP (m : OrderedMap UInt64 CircuitState) :
    m.size = m.entries.countP fun _ => true := by
  simp [OrderedMap.size]

lemma creating_le_size : link.creating ≤ link.circuits.size := List.countP_le_length

lemma creating_of_empty (h : link.circuits.size = 0) : link.creating = 0 :=
  Nat.le_zero.mp (h ▸ creating_le_size)

/-- A circuit taken out, and out of those pending if it was one. -/
def without (link : RelayLink) (id : UInt64) : RelayLink :=
  { link with
    circuits := link.circuits.delete id
    pending := if link.circuits.get id = some .creating then link.pending - 1 else link.pending }

lemma creating_without (link : RelayLink) (id : UInt64) :
    (link.without id).creating + (if link.circuits.get id = some .creating then 1 else 0) =
      link.creating := by
  have hcount := @OrderedMap.countP_delete _ _ _ link.circuits id
    fun e => decide (e.2 = CircuitState.creating)
  refine Eq.trans (congrArg _ ?_) hcount
  cases hget : link.circuits.get id with
  | none => simp
  | some state => cases state <;> simp

lemma pending_without (link : RelayLink) (id : UInt64) :
    (link.without id).pending =
      link.pending - if link.circuits.get id = some .creating then 1 else 0 := by
  unfold RelayLink.without
  dsimp only
  split <;> simp

lemma Sound.without (h : link.Sound verifier) : (link.without id).Sound verifier := by
  have hsize : (link.without id).circuits.size ≤ link.circuits.size := OrderedMap.size_delete_le
  constructor
  · exact h.keyed
  · have hle := h.pending_le
    rw [pending_without]
    split <;> omega
  · exact hsize.trans h.size_le
  · exact h.proof
  · exact h.told
  · exact h.waiting
  · exact h.offered
  · exact h.created
  · exact fun hv => Nat.le_zero.mp (hsize.trans (h.unverified hv).le)
  · exact fun hc => Nat.le_zero.mp (hsize.trans (h.drained hc).le)
  · intro hc
    have hcounted := h.counted hc
    have hcreating := creating_without link id
    rw [pending_without]
    by_cases hget : link.circuits.get id = some .creating
    · rw [if_pos hget] at hcreating ⊢
      omega
    · rw [if_neg hget] at hcreating ⊢
      omega
  · exact fun hs => h.carried (hs.trans_le hsize)
  · exact fun hs => h.busy (hs.trans_le hsize)
  · exact h.timer

lemma Sound.idleCheck (h : link.Sound verifier) : link.idleCheck.Sound verifier := by
  unfold RelayLink.idleCheck
  split
  · exact h
  · next hidle =>
    have hempty : ¬ 0 < link.circuits.size := fun hs => hidle (.inr (.inl hs))
    exact ⟨h.keyed, h.pending_le, h.size_le, h.proof, h.told, h.waiting, h.offered, h.created,
      h.unverified, h.drained, h.counted, h.carried, fun hs => absurd hs hempty, fun _ => by simp⟩

/-- After a check, a link that waits for nothing else has its timer running. -/
lemma Sound.idles_idleCheck (h : link.Sound verifier) : link.idleCheck.Idles := by
  unfold RelayLink.idleCheck
  split
  · next hbusy =>
    intro hclosed _ hsize _
    obtain hc | hs | ht := hbusy
    · rw [hclosed] at hc
      contradiction
    · omega
    · cases htimer : link.idleTimer with
      | unset => exact absurd htimer ht
      | running => rfl
      | cleared => exact absurd htimer (h.timer hclosed)
  · exact fun _ _ _ _ => rfl

lemma forget_eq : link.forget id = (link.without id).idleCheck := rfl

lemma onDone_eq (h : link.circuits.get id ≠ some .creating) :
    link.onDone id = (link.without id).idleCheck := by
  rw [onDone, RelayLink.without, if_neg h]

/-! ### Each call -/

lemma Sound.forget (h : link.Sound verifier) : (link.forget id).Sound verifier :=
  h.without.idleCheck

lemma Sound.idles_forget (h : link.Sound verifier) : (link.forget id).Idles :=
  h.without.idles_idleCheck

lemma Sound.onDone (h : link.Sound verifier) (hget : link.circuits.get id ≠ some .creating) :
    (link.onDone id).Sound verifier :=
  onDone_eq hget ▸ h.without.idleCheck

lemma Sound.idles_onDone (h : link.Sound verifier) (hget : link.circuits.get id ≠ some .creating) :
    (link.onDone id).Idles :=
  onDone_eq hget ▸ h.without.idles_idleCheck

lemma hasCapacity_iff : link.hasCapacity = true ↔
    link.verified = true ∧ link.closed = false ∧
      link.circuits.size < MAX_CIRCUITS_PER_CONNECTION ∧ link.pending < MAX_PENDING_OPENS := by
  simp [hasCapacity, atCapacity, and_assoc]

/-- A circuit that is entered: one more, and one more pending. -/
def entered (link : RelayLink) (id : UInt64) : RelayLink :=
  { link with
    idleTimer := .unset
    offered := true
    circuits := link.circuits.set id .creating
    pending := link.pending + 1 }

lemma Sound.entered (h : link.Sound verifier) (hcap : link.hasCapacity = true)
    (hfresh : link.circuits.get id = none) : (link.entered id).Sound verifier := by
  obtain ⟨hverified, hopen, hsize, hpending⟩ := hasCapacity_iff.mp hcap
  have hset : (link.entered id).circuits.size ≤ link.circuits.size + 1 := OrderedMap.size_set_le _
  have hcount := @OrderedMap.countP_set _ _ _ link.circuits id
    (fun e => decide (e.2 = CircuitState.creating)) .creating
  simp only [hfresh, Option.any_none, Bool.toNat_false, decide_true, Bool.toNat_true] at hcount
  have hcreating : (link.entered id).creating = link.creating + 1 := hcount
  constructor
  · exact h.keyed
  · exact Int.add_one_le_iff.mpr hpending
  · exact hset.trans hsize
  · exact h.proof
  · exact h.told
  · exact h.waiting
  · exact fun _ => hverified
  · exact fun _ => rfl
  · exact fun hv => absurd (hverified.symm.trans hv) (by simp)
  · exact fun hc => absurd (hopen.symm.trans hc) (by simp)
  · intro hc
    rw [hcreating, Nat.cast_add, Nat.cast_one, ← h.counted hc]
    rfl
  · exact fun _ => rfl
  · exact fun _ => by simp [RelayLink.entered]
  · exact fun _ => by simp [RelayLink.entered]

lemma size_entered (link : RelayLink) (id : UInt64) : 0 < (link.entered id).circuits.size := by
  have hself : (link.entered id).circuits.get id = some .creating := OrderedMap.get_set_self _
  exact List.length_pos_of_mem (OrderedMap.mem_entries_iff.mpr hself)

/-- `openCircuit` where the link has capacity and the identifier is free. -/
lemma openCircuit_eq {attempt : Attempt} (hcap : link.hasCapacity = true) (hid : id ≠ 0)
    (hfresh : link.circuits.get id = none) :
    link.openCircuit id attempt = match attempt with
      | .refused => { link with idleTimer := .unset, offered := true }
      | .unmade => link.entered id
      | .sent => { link.entered id with created := true }
      | .unsent => (link.entered id).forget id := by
  obtain ⟨-, -, hsize, -⟩ := hasCapacity_iff.mp hcap
  have hadd : ¬ (id = 0 ∨ link.circuits.has id = true ∨
      ({ link with idleTimer := .unset, offered := true } : RelayLink).atCapacity = true) := by
    simp [hid, OrderedMap.has, hfresh, atCapacity, hsize]
  unfold openCircuit
  cases attempt with
  | refused => rfl
  | unmade => simp only [reduceCtorEq, if_false, if_neg hadd, RelayLink.entered]
  | sent => simp only [reduceCtorEq, if_false, if_neg hadd, RelayLink.entered]
  | unsent => simp only [reduceCtorEq, if_false, if_neg hadd, RelayLink.entered]

/-- The timer of the link is stopped, and no circuit entered. -/
def disarmed (link : RelayLink) : RelayLink := { link with idleTimer := .unset, offered := true }

lemma Sound.disarmed (h : link.Sound verifier) (hcap : link.hasCapacity = true) :
    link.disarmed.Sound verifier := by
  obtain ⟨hverified, -, -, -⟩ := hasCapacity_iff.mp hcap
  exact ⟨h.keyed, h.pending_le, h.size_le, h.proof, h.told, h.waiting, fun _ => hverified,
    fun _ => rfl, h.unverified, h.drained, h.counted, fun _ => rfl,
    fun _ => by simp [RelayLink.disarmed], fun _ => by simp [RelayLink.disarmed]⟩

lemma Sound.sent (h : (link.entered id).Sound verifier) :
    ({ link.entered id with created := true } : RelayLink).Sound verifier :=
  ⟨h.keyed, h.pending_le, h.size_le, h.proof, h.told, h.waiting, h.offered, fun _ => rfl,
    h.unverified, h.drained, h.counted, h.carried, h.busy, h.timer⟩

lemma Sound.openCircuit {attempt : Attempt} (h : link.Sound verifier)
    (hcap : link.hasCapacity = true) (hid : id ≠ 0) (hfresh : link.circuits.get id = none) :
    (link.openCircuit id attempt).Sound verifier := by
  rw [openCircuit_eq hcap hid hfresh]
  cases attempt with
  | refused => exact h.disarmed hcap
  | unmade => exact h.entered hcap hfresh
  | sent => exact (h.entered hcap hfresh).sent
  | unsent => exact (h.entered hcap hfresh).forget

/-- An attempt leaves the link waiting, unless the handshake of its first circuit is refused. -/
lemma Sound.idles_openCircuit_iff {attempt : Attempt} (h : link.Sound verifier)
    (hcap : link.hasCapacity = true) (hid : id ≠ 0) (hfresh : link.circuits.get id = none) :
    (link.openCircuit id attempt).Idles ↔ (attempt = .refused → 0 < link.circuits.size) := by
  rw [openCircuit_eq hcap hid hfresh]
  have hsize := size_entered link id
  cases attempt with
  | refused =>
    obtain ⟨hverified, hopen, -, -⟩ := hasCapacity_iff.mp hcap
    constructor
    · intro hidles _
      by_contra hnot
      have hrunning := hidles hopen hverified (Nat.eq_zero_of_not_pos hnot) rfl
      simp at hrunning
    · exact fun hbusy _ _ hempty _ => absurd (hbusy rfl) (Nat.not_lt.mpr hempty.le)
  | unmade =>
    refine iff_of_true (fun _ _ hempty _ => ?_) (by simp)
    exact absurd hempty hsize.ne'
  | sent =>
    refine iff_of_true (fun _ _ hempty _ => ?_) (by simp)
    exact absurd hempty hsize.ne'
  | unsent => exact iff_of_true (h.entered hcap hfresh).idles_forget (by simp)

/-- A circuit whose handshake is confirmed. -/
def confirmed (link : RelayLink) (id : UInt64) : RelayLink :=
  { link with
    pending := link.pending - 1
    circuits := (link.circuits.delete id).set id .opened }

lemma size_without (hget : link.circuits.get id = some .creating) :
    (link.without id).circuits.size + 1 = link.circuits.size := by
  have hcount := @OrderedMap.countP_delete _ _ _ link.circuits id fun _ => true
  simpa [hget, RelayLink.without, OrderedMap.size] using hcount

lemma Sound.confirmed (h : link.Sound verifier) (hget : link.circuits.get id = some .creating) :
    (link.confirmed id).Sound verifier := by
  have hsize : (link.confirmed id).circuits.size ≤ (link.without id).circuits.size + 1 :=
    OrderedMap.size_set_le _
  rw [size_without hget] at hsize
  have hwithout : (link.without id).Sound verifier := h.without
  have hpending : (link.confirmed id).pending = (link.without id).pending := by
    rw [pending_without, if_pos hget]
    rfl
  have hcreating : (link.confirmed id).creating = (link.without id).creating := by
    have hcount := @OrderedMap.countP_set _ _ _ (link.circuits.delete id) id
      (fun e => decide (e.2 = CircuitState.creating)) .opened
    simp only [OrderedMap.get_delete_self, Option.any_none, Bool.toNat_false, Nat.add_zero,
      reduceCtorEq, decide_false] at hcount
    exact hcount
  have hpos : 0 < link.circuits.size := by
    rw [← size_without hget]
    exact Nat.succ_pos _
  constructor
  · exact h.keyed
  · exact hpending ▸ hwithout.pending_le
  · exact hsize.trans h.size_le
  · exact h.proof
  · exact h.told
  · exact h.waiting
  · exact h.offered
  · exact h.created
  · exact fun hv => Nat.le_zero.mp (hsize.trans (h.unverified hv).le)
  · exact fun hc => Nat.le_zero.mp (hsize.trans (h.drained hc).le)
  · exact fun hc => by rw [hpending, hcreating]; exact hwithout.counted hc
  · exact fun _ => h.carried hpos
  · exact fun _ => h.busy hpos
  · exact h.timer

/-- A proof that is accepted. -/
lemma Sound.proved (h : link.Sound verifier) {frame : Frame}
    (hproof : link.identity.verify verifier frame = .ok ()) (hopen : link.closed = false)
    (hv : link.verified = false) :
    ({ link with verified := true, proven := link.proven.or (some true) } : RelayLink).Sound
      verifier := by
  have hempty := h.unverified hv
  refine ⟨h.keyed, h.pending_le, h.size_le, fun _ => ⟨frame, hproof⟩, fun _ => ?_,
    fun _ hfalse => by simp at hfalse, fun _ => rfl, h.created, fun hfalse => by simp at hfalse,
    h.drained, h.counted, h.carried, h.busy, h.timer⟩
  rw [h.waiting hopen hv]
  rfl

/-- What a frame of the relay can do to a link. -/
inductive Dispatched (verifier : Verifier) (link : RelayLink) (frame : Frame)
    (confirms ends : Bool) : RelayLink × Bool → Prop
  | same : Dispatched verifier link frame confirms ends (link, false)
  | done (hget : link.circuits.get frame.circuitId = some .opened) :
      Dispatched verifier link frame confirms ends (link.onDone frame.circuitId, false)
  | destroyed (hget : link.circuits.get frame.circuitId = some .creating) :
      Dispatched verifier link frame confirms ends (link.forget frame.circuitId, false)
  | confirmed (hget : link.circuits.get frame.circuitId = some .creating) :
      Dispatched verifier link frame confirms ends (link.confirmed frame.circuitId, false)
  | unconfirmed (hget : link.circuits.get frame.circuitId = some .creating)
      (hverified : link.verified = true) (hid : frame.circuitId ≠ 0)
      (htype : frame.type = .CIRCUIT_CREATED) (hconfirms : confirms = false) :
      Dispatched verifier link frame confirms ends (link.without frame.circuitId, false)
  | proved (hproof : link.identity.verify verifier frame = .ok ()) (hv : link.verified = false) :
      Dispatched verifier link frame confirms ends
        ({ link with verified := true, proven := link.proven.or (some true) }, false)
  | failed (hv : link.verified = false) :
      Dispatched verifier link frame confirms ends (link.identityFailed, true)

lemma dispatched (link : RelayLink) (frame : Frame) (confirms ends : Bool) :
    Dispatched verifier link frame confirms ends (link.dispatch verifier frame confirms ends) := by
  unfold dispatch
  by_cases hverified : link.verified = true
  · rw [if_pos hverified]
    by_cases hid : frame.circuitId = 0
    · rw [if_pos hid]
      exact .same
    · rw [if_neg hid]
      split
      · exact .same
      · next hget =>
        cases ends with
        | false => exact .same
        | true => exact .done hget
      · next hget =>
        split
        · exact .destroyed hget
        · split
          · exact .same
          · next htype =>
            cases confirms with
            | true => exact .confirmed hget
            | false =>
              have hwithout : link.without frame.circuitId =
                  { link with
                    pending := link.pending - 1
                    circuits := link.circuits.delete frame.circuitId } := by
                rw [RelayLink.without, if_pos hget]
              have hstep : Dispatched verifier link frame false ends _ :=
                .unconfirmed hget hverified hid (not_not.mp htype) rfl
              rw [hwithout] at hstep
              exact hstep
  · have hunverified := Bool.eq_false_iff.mpr hverified
    rw [if_neg hverified]
    split
    · exact .same
    · split
      · exact .failed hunverified
      · next hproof => exact .proved hproof hunverified

section

variable {frame : Frame} {confirms ends : Bool} {out : RelayLink × Bool}

lemma Sound.dispatched (h : link.Sound verifier) (hopen : link.closed = false)
    (hd : Dispatched verifier link frame confirms ends out) (hok : out.2 = false) :
    out.1.Sound verifier := by
  cases hd with
  | same => exact h
  | done hget => exact h.onDone (by simp [hget])
  | destroyed hget => exact h.forget
  | confirmed hget => exact h.confirmed hget
  | unconfirmed hget hverified hid htype hconfirms => exact h.without
  | proved hproof hv => exact h.proved hproof hopen hv
  | failed hv => simp at hok

/-- A frame by which the node fails to confirm its key on the only circuit of the link. -/
def LosesLast (link : RelayLink) (frame : Frame) (confirms : Bool) : Prop :=
  confirms = false ∧ link.verified = true ∧ frame.circuitId ≠ 0 ∧
    frame.type = .CIRCUIT_CREATED ∧ link.circuits.get frame.circuitId = some .creating ∧
    link.circuits.size = 1

lemma Sound.idles_dispatched (h : link.Sound verifier) (hidles : link.Idles)
    (hd : Dispatched verifier link frame confirms ends out)
    (hlast : ¬ link.LosesLast frame confirms) : out.1.Idles := by
  cases hd with
  | same => exact hidles
  | done hget => exact h.idles_onDone (by simp [hget])
  | destroyed hget => exact h.idles_forget
  | confirmed hget =>
    intro _ _ hempty _
    have hself : (link.confirmed frame.circuitId).circuits.get frame.circuitId = some .opened :=
      OrderedMap.get_set_self _
    have hpos := List.length_pos_of_mem (OrderedMap.mem_entries_iff.mpr hself)
    exact absurd hempty hpos.ne'
  | unconfirmed hget hverified hid htype hconfirms =>
    intro _ _ hempty _
    have hsize := size_without hget
    rw [show (link.without frame.circuitId).circuits.size = 0 from hempty] at hsize
    exact absurd ⟨hconfirms, hverified, hid, htype, hget, hsize.symm⟩ hlast
  | proved hproof hv =>
    intro _ _ _ hoffered
    have hverified := h.offered hoffered
    rw [hv] at hverified
    contradiction
  | failed hv => exact hidles

/-- The only circuit of an open link, once it is lost so, leaves no timer behind. -/
lemma Sound.not_idles_dispatch (h : link.Sound verifier) (hopen : link.closed = false)
    (hlast : link.LosesLast frame confirms) :
    ¬ (link.dispatch verifier frame confirms ends).1.Idles := by
  obtain ⟨rfl, hverified, hid, htype, hget, hone⟩ := hlast
  have hdispatch : link.dispatch verifier frame false ends =
      (link.without frame.circuitId, false) := by
    simp [dispatch, hverified, hid, hget, htype, RelayLink.without]
  rw [hdispatch]
  intro hidles
  have hempty : (link.without frame.circuitId).circuits.size = 0 :=
    Nat.succ.inj ((size_without hget).trans hone)
  have hpos : 0 < link.circuits.size := hone ▸ Nat.one_pos
  exact h.busy hpos (hidles hopen hverified hempty (h.carried hpos))

end

/-! ### The end of a link -/

/-- Aborting touches the circuits and the timer. -/
lemma abortAll_frame (link : RelayLink) :
    ∃ circuits idleTimer, link.abortAll = { link with circuits, idleTimer } := by
  unfold abortAll
  dsimp only
  generalize link.circuits.entries.filter _ = opened
  have hfold (l : RelayLink) (hl : ∃ circuits idleTimer, l = { link with circuits, idleTimer }) :
      ∃ circuits idleTimer, opened.foldl (fun link e => link.onDone e.1) l =
        { link with circuits, idleTimer } := by
    induction opened generalizing l with
    | nil => exact hl
    | cons e opened ih =>
      obtain ⟨circuits, idleTimer, rfl⟩ := hl
      refine ih _ ?_
      dsimp only [onDone, idleCheck]
      split
      · exact ⟨_, _, rfl⟩
      · exact ⟨_, _, rfl⟩
  exact hfold _ ⟨_, _, rfl⟩

lemma Sound.teardown_with (h : link.Sound verifier) (circuits : OrderedMap UInt64 CircuitState)
    (idleTimer : IdleTimer) :
    (RelayLink.teardown { link with circuits, idleTimer }).Sound verifier where
  keyed := h.keyed
  pending_le := h.pending_le
  size_le := Nat.zero_le _
  proof := h.proof
  told hv := by simp [teardown, h.told hv]
  waiting hc := by simp [teardown] at hc
  offered := h.offered
  created := h.created
  unverified _ := rfl
  drained _ := rfl
  counted hc := by simp [teardown] at hc
  carried hs := absurd hs (lt_irrefl 0)
  busy hs := absurd hs (lt_irrefl 0)
  timer hc := by simp [teardown] at hc

/-- The link of a relay that does not prove its key ends. -/
lemma Sound.identityFailed_teardown (h : link.Sound verifier) (hv : link.verified = false) :
    link.identityFailed.teardown.Sound verifier where
  keyed := h.keyed
  pending_le := h.pending_le
  size_le := Nat.zero_le _
  proof := h.proof
  told hv' := by simp [RelayLink.teardown, RelayLink.identityFailed, hv] at hv'
  waiting hc := by simp [RelayLink.teardown] at hc
  offered := h.offered
  created := h.created
  unverified _ := rfl
  drained _ := rfl
  counted hc := by simp [RelayLink.teardown] at hc
  carried hs := absurd hs (lt_irrefl 0)
  busy hs := absurd hs (lt_irrefl 0)
  timer hc := by simp [RelayLink.teardown] at hc

lemma Sound.teardown (h : link.Sound verifier) : link.teardown.Sound verifier :=
  h.teardown_with link.circuits link.idleTimer

lemma entries_of_empty {m : OrderedMap UInt64 CircuitState} (h : m.size = 0) : m.entries = [] :=
  List.length_eq_zero_iff.mp h

lemma abortAll_of_empty (h : link.circuits.size = 0) :
    ∃ idleTimer, link.abortAll = { link with idleTimer } := by
  refine ⟨if link.idleTimer = .running then .cleared else link.idleTimer, ?_⟩
  unfold abortAll
  rw [entries_of_empty h]
  rfl

lemma Sound.timer_of_closed (h : link.Sound verifier) (hclosed : link.closed = true)
    (idleTimer : IdleTimer) : ({ link with idleTimer } : RelayLink).Sound verifier where
  keyed := h.keyed
  pending_le := h.pending_le
  size_le := h.size_le
  proof := h.proof
  told := h.told
  waiting := h.waiting
  offered := h.offered
  created := h.created
  unverified := h.unverified
  drained := h.drained
  counted := h.counted
  carried := h.carried
  busy hs := absurd (h.drained hclosed) (Nat.ne_of_gt hs)
  timer hc := by simp [hclosed] at hc

/-- What `close` leaves as it was. -/
structure Ended (link link' : RelayLink) : Prop where
  slot : link'.slot = link.slot
  connection : link'.connection = link.connection
  pending : link'.pending = link.pending
  closed : link'.closed = true

lemma ended_teardown (link : RelayLink) : link.Ended link.teardown := ⟨rfl, rfl, rfl, rfl⟩

lemma ended_close (link : RelayLink) : link.Ended link.close := by
  obtain ⟨circuits, idleTimer, habort⟩ := abortAll_frame link
  unfold close
  rw [habort]
  dsimp only
  split
  · next hclosed => exact ⟨rfl, rfl, rfl, hclosed⟩
  · exact ⟨rfl, rfl, rfl, rfl⟩

lemma Sound.close (h : link.Sound verifier) : link.close.Sound verifier := by
  unfold RelayLink.close
  dsimp only
  split
  · next hclosed =>
    obtain ⟨circuits, idleTimer, habort⟩ := abortAll_frame link
    have hwas : link.closed = true := by
      rw [habort] at hclosed
      exact hclosed
    obtain ⟨idleTimer, habort⟩ := abortAll_of_empty (h.drained hwas)
    rw [habort]
    exact h.timer_of_closed hwas idleTimer
  · obtain ⟨circuits, idleTimer, habort⟩ := abortAll_frame link
    rw [habort]
    exact h.teardown_with circuits idleTimer

lemma idles_of_closed (h : link.closed = true) : link.Idles := fun hopen => by
  rw [h] at hopen
  contradiction

/-- The timer goes off. -/
lemma Sound.unset (h : link.Sound verifier) :
    ({ link with idleTimer := .unset } : RelayLink).Sound verifier :=
  ⟨h.keyed, h.pending_le, h.size_le, h.proof, h.told, h.waiting, h.offered, h.created,
    h.unverified, h.drained, h.counted, h.carried, fun _ => by simp, fun _ => by simp⟩

lemma Sound.connected (h : link.Sound verifier) (connection : Connection) :
    ({ link with connection } : RelayLink).Sound verifier :=
  ⟨h.keyed, h.pending_le, h.size_le, h.proof, h.told, h.waiting, h.offered, h.created,
    h.unverified, h.drained, h.counted, h.carried, h.busy, h.timer⟩

/-- A link that was just made. -/
lemma sound_new (identity : RelayIdentityCheck) :
    (RelayLink.mk (slotOf identity.endpoint identity.expectedKey) identity ⟨[], List.nodup_nil⟩ 0 false
      none .dialing false .unset false false).Sound verifier where
  keyed := rfl
  pending_le := Int.natCast_nonneg _
  size_le := Nat.zero_le _
  proof h := by simp at h
  told h := by simp at h
  waiting _ _ := rfl
  offered h := by simp at h
  created h := by simp at h
  unverified _ := rfl
  drained _ := rfl
  counted _ := rfl
  carried h := absurd h (lt_irrefl 0)
  busy h := absurd h (lt_irrefl 0)
  timer _ := by simp

/-- What most calls leave as it was. -/
structure Steady (link link' : RelayLink) : Prop where
  slot : link'.slot = link.slot
  connection : link'.connection = link.connection
  closed : link'.closed = link.closed

lemma steady_idleCheck (link : RelayLink) : link.Steady link.idleCheck := by
  unfold idleCheck
  split
  · exact ⟨rfl, rfl, rfl⟩
  · exact ⟨rfl, rfl, rfl⟩

lemma Steady.trans {link'' : RelayLink} {link' : RelayLink} (h : link.Steady link')
    (h' : link'.Steady link'') : link.Steady link'' :=
  ⟨h'.slot.trans h.slot, h'.connection.trans h.connection, h'.closed.trans h.closed⟩

lemma steady_forget (link : RelayLink) (id : UInt64) : link.Steady (link.forget id) :=
  have hwithout : link.Steady (link.without id) := ⟨rfl, rfl, rfl⟩
  hwithout.trans (steady_idleCheck _)

lemma steady_onDone (link : RelayLink) (id : UInt64) : link.Steady (link.onDone id) :=
  have hdelete : link.Steady { link with circuits := link.circuits.delete id } := ⟨rfl, rfl, rfl⟩
  hdelete.trans (steady_idleCheck _)

lemma steady_openCircuit {attempt : Attempt} (hcap : link.hasCapacity = true) (hid : id ≠ 0)
    (hfresh : link.circuits.get id = none) : link.Steady (link.openCircuit id attempt) := by
  rw [openCircuit_eq hcap hid hfresh]
  have hentered : link.Steady (link.entered id) := ⟨rfl, rfl, rfl⟩
  cases attempt with
  | refused => exact ⟨rfl, rfl, rfl⟩
  | unmade => exact hentered
  | sent => exact ⟨rfl, rfl, rfl⟩
  | unsent => exact hentered.trans (steady_forget _ id)

lemma Dispatched.steady {frame : Frame} {confirms ends : Bool} {out : RelayLink × Bool}
    (h : Dispatched verifier link frame confirms ends out) : link.Steady out.1 := by
  cases h with
  | done hget => exact steady_onDone link _
  | destroyed hget => exact steady_forget link _
  | _ => exact ⟨rfl, rfl, rfl⟩

/-- A link that carries a circuit is open. -/
lemma Sound.open_of_get (h : link.Sound verifier) {state : CircuitState}
    (hget : link.circuits.get id = some state) : link.closed = false := by
  by_contra hclosed
  have hempty := entries_of_empty (h.drained (by simpa using hclosed))
  have hmem := OrderedMap.mem_entries_iff.mpr hget
  rw [hempty] at hmem
  contradiction

end RelayLink

end Tnp.Client.Tunnel
