import Tnp.Lib.Run
import Tnp.Protocol.Session

/-!
Nonce discipline of a session's sending half, and of the receiving half that follows it.

The key epoch is the number of key updates that went before. Each record has a position, its
epoch and its counter, and positions only move forward.
-/

set_option linter.unusedSectionVars false

namespace Tnp.Protocol.NonceDiscipline

open Tnp.Lib Tnp.Lib.Aead Tnp.Lib.Run Tnp.Protocol.Session

/-! ### Positions -/

/-- The position after a record. -/
def advance : ℕ × ℕ → OpenedRecord → ℕ × ℕ
  | (epoch, _), .keyUpdate => (epoch + 1, 0)
  | (epoch, counter), _ => (epoch, counter + 1)

def Before (p q : ℕ × ℕ) : Prop := p.1 < q.1 ∨ p.1 = q.1 ∧ p.2 < q.2

lemma before_advance (p : ℕ × ℕ) (r : OpenedRecord) : Before p (advance p r) := by
  obtain ⟨epoch, counter⟩ := p
  cases r <;> simp [Before, advance]

lemma Before.trans {p q r : ℕ × ℕ} (h : Before p q) (h' : Before q r) : Before p r := by
  unfold Before at *
  omega

lemma Before.ne {p q : ℕ × ℕ} (h : Before p q) : p ≠ q := by
  rintro rfl
  unfold Before at h
  omega

/-- The position of the record that follows `log`. -/
def position (log : List OpenedRecord) : ℕ × ℕ := log.foldl advance (0, 0)

@[simp] lemma position_nil : position [] = (0, 0) := rfl

@[simp] lemma position_snoc (log : List OpenedRecord) (r : OpenedRecord) :
    position (log ++ [r]) = advance (position log) r := by
  simp [position, List.foldl_append]

lemma before_position_append (log : List OpenedRecord) {more : List OpenedRecord}
    (h : more ≠ []) : Before (position log) (position (log ++ more)) := by
  induction more using List.reverseRecOn with
  | nil => exact absurd rfl h
  | append_singleton more r ih =>
    rw [← List.append_assoc, position_snoc]
    rcases eq_or_ne more [] with rfl | hne
    · simpa using before_advance (position log) r
    · exact (ih hne).trans (before_advance _ r)

/-- Along one log, a position tells how much of it went before. -/
lemma prefix_eq_of_position_eq {log a b : List OpenedRecord} (ha : a <+: log) (hb : b <+: log)
    (h : position a = position b) : a = b := by
  rcases List.prefix_or_prefix_of_prefix ha hb with ⟨more, rfl⟩ | ⟨more, rfl⟩
  · rcases eq_or_ne more [] with rfl | hne
    · simp
    · exact absurd h (before_position_append a hne).ne
  · rcases eq_or_ne more [] with rfl | hne
    · simp
    · exact absurd h.symm (before_position_append b hne).ne

/-! ### The sender -/

/-- A record a sender produced, and where. -/
structure Produced where
  header : RecordHeader
  content : OpenedRecord
  record : Bytes
  epoch : ℕ
  nonce : ℕ

structure Sender (K : Type) where
  table : Table K
  cipher : SessionCipher K
  epoch : ℕ := 0
  produced : List Produced := []

variable {K : Type} [DecidableEq K] (P : Crypto K)

/-- A cipher as a handshake returns it. -/
def established (limits : ResolvedLimits) (sendKey receiveKey hash : K) : SessionCipher K :=
  { sendKey, receiveKey, hash, limits }

/-- One call of `seal`, `updateKey` or `close`. -/
def Sender.call (w : Sender K) (x : OpenedRecord × RecordHeader) : Sender K :=
  match w.cipher.send P w.table x.1 x.2 with
  | .error _ => w
  | .ok (record, table, cipher) =>
    { table, cipher
      epoch := if x.1 = .keyUpdate then w.epoch + 1 else w.epoch
      produced := w.produced ++ [⟨x.2, x.1, record, w.epoch, w.cipher.sendCounter⟩] }

/-! ### The receiver -/

structure Receiver (K : Type) where
  cipher : SessionCipher K
  epoch : ℕ := 0
  results : List (Except Thrown OpenedRecord) := []

/-- One call of `open`. -/
def Receiver.take (t : Table K) (w : Receiver K) (x : RecordHeader × Bytes) : Receiver K :=
  let (cipher, result) := w.cipher.openFrame P t x.2 x.1
  { cipher
    epoch := if result = .ok .keyUpdate then w.epoch + 1 else w.epoch
    results := w.results ++ [result] }

/-! ### The discipline -/

/-- What holds of a sender after any calls, when it started with the key `k`. -/
structure Discipline (k : K) (limits : ResolvedLimits) (w : Sender K) : Prop where
  /-- The encryptions are those of the produced records, under the key of their epoch. -/
  encryptions : (w.table.map fun e => (e.key, e.nonce)) =
    w.produced.map fun p => (P.rekey^[p.epoch] k, p.nonce)
  nodup : (w.produced.map fun p => (p.epoch, p.nonce)).Nodup
  bound : ∀ p ∈ w.produced, p.nonce < limits.maxRecordsPerKey ∧ p.nonce < 2 ^ 32 ∧
    p.nonce ≠ 2 ^ 64 - 1
  reserved : ∀ p ∈ w.produced, ∀ plaintext, p.content = .data plaintext →
    p.nonce ≠ limits.maxRecordsPerKey - 1
  /-- When `seal` asks for a new key, the slot for it is free. -/
  escape : ∀ plaintext h, w.cipher.sealData P w.table plaintext h = .error .rekeyRequired →
    ∀ h' ad, frameAssociatedData h' = .ok ad →
      (∃ x, w.cipher.updateKey P w.table h' = .ok x) ∧ ∃ x, w.cipher.close P w.table h' = .ok x
  /-- A receiver with the same key and limits opens everything, and ends where the sender
  stands. -/
  followed : ∀ sendKey hash t, (∀ e ∈ w.table, e ∈ t) →
    let r := run (Receiver.take P t) { cipher := established limits sendKey k hash }
      (w.produced.map fun p => (p.header, p.record))
    r.results = w.produced.map (fun p => .ok p.content) ∧ r.epoch = w.epoch ∧
      r.cipher.receiveCounter = w.cipher.sendCounter

/-- The invariant: the sender stands after everything it produced, and so does the receiver
that took it. -/
structure Inv (k : K) (limits : ResolvedLimits) (w : Sender K) : Prop where
  failed : w.cipher.failed = none
  limits_eq : w.cipher.limits = limits
  open_key : w.cipher.sentClose = false → w.cipher.sendKey = P.rekey^[w.epoch] k
  open_counter : w.cipher.sentClose = false → w.cipher.sendCounter < limits.maxRecordsPerKey
  encryptions : (w.table.map fun e => (e.key, e.nonce)) =
    w.produced.map fun p => (P.rekey^[p.epoch] k, p.nonce)
  before : ∀ p ∈ w.produced, Before (p.epoch, p.nonce) (w.epoch, w.cipher.sendCounter)
  nodup : (w.produced.map fun p => (p.epoch, p.nonce)).Nodup
  bound : ∀ p ∈ w.produced, p.nonce < limits.maxRecordsPerKey
  reserved : ∀ p ∈ w.produced, ∀ plaintext, p.content = .data plaintext →
    p.nonce < limits.maxRecordsPerKey - 1
  followed : ∀ sendKey hash t, (∀ e ∈ w.table, e ∈ t) →
    let r := run (Receiver.take P t) { cipher := established limits sendKey k hash }
      (w.produced.map fun p => (p.header, p.record))
    r.results = w.produced.map (fun p => .ok p.content) ∧ r.epoch = w.epoch ∧
      r.cipher.receiveCounter = w.cipher.sendCounter ∧
      r.cipher.receiveKey = w.cipher.sendKey ∧ r.cipher.receivedClose = w.cipher.sentClose ∧
      r.cipher.failed = none ∧ r.cipher.limits = limits

variable {P}

lemma afterSend_position (c : SessionCipher K) (epoch : ℕ) (r : OpenedRecord) :
    (if r = .keyUpdate then epoch + 1 else epoch, (c.afterSend P r).sendCounter) =
      advance (epoch, c.sendCounter) r := by
  cases r <;> simp [advance, SessionCipher.afterSend]

lemma fits_lt {c : SessionCipher K} {r : OpenedRecord} (h : c.Fits r) :
    c.sendCounter < c.limits.maxRecordsPerKey := by
  cases r with
  | data plaintext => have := h.2; omega
  | close => exact h
  | keyUpdate => exact h

/-- A sender that is still open keeps a free slot after the call. -/
lemma afterSend_lt {c : SessionCipher K} {r : OpenedRecord} (h : c.Fits r)
    (hopen : (c.afterSend P r).sentClose = false) :
    (c.afterSend P r).sendCounter < c.limits.maxRecordsPerKey := by
  have htwo := c.limits.two_le
  cases r with
  | data plaintext => have := h.2; simp only [SessionCipher.afterSend]; omega
  | close => simp [SessionCipher.afterSend] at hopen
  | keyUpdate => simp only [SessionCipher.afterSend]; omega

/-- A receiver in step with the sender opens the record the sender made, and stays in step. -/
lemma take_nextRecord {t : Table K} {w : Receiver K} {c : SessionCipher K} {r : OpenedRecord}
    {h : RecordHeader} {ad : Bytes} (had : frameAssociatedData h = .ok ad)
    (hmem : ⟨c.sendKey, c.sendCounter, ad, r.inner⟩ ∈ t) (hfits : c.Fits r)
    (hclose : w.cipher.receivedClose = false) (hfailed : w.cipher.failed = none)
    (hkey : w.cipher.receiveKey = c.sendKey) (hcounter : w.cipher.receiveCounter = c.sendCounter)
    (hlimits : w.cipher.limits = c.limits) :
    Receiver.take P t w (h, c.nextRecord P r ad) =
      { cipher := w.cipher.afterOpen P r
        epoch := if r = .keyUpdate then w.epoch + 1 else w.epoch
        results := w.results ++ [.ok r] } := by
  have hopens : SessionCipher.Opens P t w.cipher h r :=
    ⟨hfailed, hclose, ad, had, by rw [hkey, hcounter]; exact hmem⟩
  have hopen := SessionCipher.openFrame_nextRecord hopens had hkey.symm hcounter.symm
    hlimits.symm hfits
  simp [Receiver.take, hopen]

/-- One call keeps the invariant. -/
lemma inv_call {k : K} {limits : ResolvedLimits} {w : Sender K} (hw : Inv P k limits w)
    (x : OpenedRecord × RecordHeader) : Inv P k limits (w.call P x) := by
  obtain ⟨r, h⟩ := x
  unfold Sender.call
  rcases hsend : w.cipher.send P w.table r h with e | ⟨record, t', c'⟩
  · exact hw
  obtain ⟨hfailed, hopen, hfits, ad, had, rfl, rfl, rfl⟩ :=
    SessionCipher.send_eq_ok_iff.mp hsend
  have hlimits := hw.limits_eq
  have hkey := hw.open_key hopen
  have hpos := afterSend_position (P := P) w.cipher w.epoch r
  have hforward : Before (w.epoch, w.cipher.sendCounter)
      (if r = .keyUpdate then w.epoch + 1 else w.epoch,
        (w.cipher.afterSend P r).sendCounter) := by
    rw [hpos]
    exact before_advance _ r
  refine ⟨?_, ?_, ?_, ?_, ?_, ?_, ?_, ?_, ?_, ?_⟩
  · simpa using hfailed
  · simpa using hlimits
  · intro hstill
    cases r with
    | data plaintext => simpa [SessionCipher.afterSend] using hkey
    | close => simp [SessionCipher.afterSend] at hstill
    | keyUpdate => simp [SessionCipher.afterSend, hkey, Function.iterate_succ_apply']
  · intro hstill
    rw [← hlimits]
    exact afterSend_lt hfits hstill
  · simp [hw.encryptions, hkey]
  · intro p hp
    rcases List.mem_append.mp hp with hp | hp
    · exact (hw.before p hp).trans hforward
    · obtain rfl := List.mem_singleton.mp hp
      exact hforward
  · rw [List.map_append, List.nodup_append]
    refine ⟨hw.nodup, by simp, ?_⟩
    intro a ha b hb
    obtain ⟨p, hp, rfl⟩ := List.mem_map.mp ha
    obtain rfl : b = (w.epoch, w.cipher.sendCounter) := by simpa using hb
    exact (hw.before p hp).ne
  · intro p hp
    rcases List.mem_append.mp hp with hp | hp
    · exact hw.bound p hp
    · obtain rfl := List.mem_singleton.mp hp
      rw [← hlimits]
      exact fits_lt hfits
  · intro p hp plaintext hdata
    rcases List.mem_append.mp hp with hp | hp
    · exact hw.reserved p hp plaintext hdata
    · obtain rfl := List.mem_singleton.mp hp
      obtain rfl : r = .data plaintext := hdata
      rw [← hlimits]
      exact hfits.2
  · intro sendKey hash t ht
    have hmem : ⟨w.cipher.sendKey, w.cipher.sendCounter, ad, r.inner⟩ ∈ t := ht _ (by simp)
    obtain ⟨hresults, hepoch, hcounter, hrkey, hclose, hrfailed, hrlimits⟩ :=
      hw.followed sendKey hash t fun e he => ht e (by simp [he])
    simp only [List.map_append, List.map_cons, List.map_nil, run_append, run_cons, run_nil]
    rw [take_nextRecord had hmem hfits (hclose.trans hopen) hrfailed hrkey hcounter
      (hrlimits.trans hlimits.symm), hresults, hepoch]
    refine ⟨rfl, rfl, ?_, ?_, ?_, ?_, ?_⟩
    · cases r <;> simp [SessionCipher.afterOpen, SessionCipher.afterSend, hcounter]
    · cases r <;> simp [SessionCipher.afterOpen, SessionCipher.afterSend, hrkey]
    · cases r <;> simp [SessionCipher.afterOpen, SessionCipher.afterSend, hclose]
    · simpa using hrfailed
    · simpa using hrlimits

lemma inv_start (limits : ResolvedLimits) (k receiveKey hash : K) :
    Inv P k limits { table := [], cipher := established limits k receiveKey hash } := by
  have htwo := limits.two_le
  refine ⟨rfl, rfl, fun _ => rfl, fun _ => ?_, rfl, by simp, by simp, by simp, by simp, ?_⟩
  · change 0 < _
    omega
  · intro sendKey hash t ht
    simp [established]

/-- When `seal` throws for lack of room, it is the reserved slot that is left. -/
lemma room_of_rekeyRequired {k : K} {limits : ResolvedLimits} {w : Sender K}
    (hw : Inv P k limits w) {plaintext : Bytes} {h : RecordHeader}
    (hseal : w.cipher.sealData P w.table plaintext h = .error .rekeyRequired) :
    w.cipher.sentClose = false ∧ w.cipher.sendCounter < w.cipher.limits.maxRecordsPerKey := by
  by_cases hopen : w.cipher.sentClose = false
  · exact ⟨hopen, hw.limits_eq ▸ hw.open_counter hopen⟩
  · have hclosed : w.cipher.assertCanSend =
        .error (.session ⟨"session already closed for sending", .PROTOCOL_VIOLATION⟩) := by
      simp [SessionCipher.assertCanSend, hw.failed, hopen]
    unfold SessionCipher.sealData at hseal
    by_cases hlen : MAX_SEALED_PLAINTEXT < plaintext.length
    · simp [hlen, bind, Except.bind] at hseal
    · simp [hlen, hclosed, bind, Except.bind] at hseal

/-- **Nonce discipline**: after any sequence of calls, no two encryptions shared an epoch and
a nonce, the nonces kept below the limit with the last slot never taken by data, and a
receiver with the same limits follows. -/
theorem nonce_discipline (limits : ResolvedLimits) (k receiveKey hash : K)
    (calls : List (OpenedRecord × RecordHeader)) :
    Discipline P k limits (run (Sender.call P)
      { table := [], cipher := established limits k receiveKey hash } calls) := by
  have hw := invariant (I := Inv P k limits) (fun _ x hw => inv_call hw x)
    (inv_start limits k receiveKey hash) calls
  have hmax := limits.le_max
  have htwo := limits.two_le
  refine ⟨hw.encryptions, hw.nodup, ?_, ?_, ?_, ?_⟩
  · intro p hp
    have hlt := hw.bound p hp
    unfold MAX_RECORDS_PER_KEY at hmax
    omega
  · intro p hp plaintext hdata
    have hlt := hw.reserved p hp plaintext hdata
    omega
  · intro plaintext h hseal h' ad had
    obtain ⟨hopen, hroom⟩ := room_of_rekeyRequired hw hseal
    exact ⟨⟨_, (SessionCipher.send_eq_ok_iff (r := .keyUpdate)).mpr
        ⟨hw.failed, hopen, hroom, ad, had, rfl, rfl, rfl⟩⟩,
      ⟨_, (SessionCipher.send_eq_ok_iff (r := .close)).mpr
        ⟨hw.failed, hopen, hroom, ad, had, rfl, rfl, rfl⟩⟩⟩
  · intro sendKey hash t ht
    obtain ⟨hresults, hepoch, hcounter, -⟩ := hw.followed sendKey hash t ht
    exact ⟨hresults, hepoch, hcounter⟩

end Tnp.Protocol.NonceDiscipline
