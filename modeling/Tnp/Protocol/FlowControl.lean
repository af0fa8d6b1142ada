import Tnp.Protocol.Constants

/-!
Credit-based flow control: one direction of one window.
-/

namespace Tnp.Protocol

def MAX_WINDOW_CREDIT : ℕ := 0xffffffff

lemma stream_window_pos : 0 < STREAM_WINDOW_INITIAL := by decide

lemma stream_window_le : STREAM_WINDOW_INITIAL ≤ MAX_WINDOW_CREDIT := by decide

/-- What `assertCredit` lets through; any other number makes the call throw. -/
abbrev Credit := {bytes : ℕ // bytes ≤ MAX_WINDOW_CREDIT}

structure FlowWindow where
  initial : ℕ
  available : ℕ
  pos : 0 < initial
  le_max : initial ≤ MAX_WINDOW_CREDIT
  le_initial : available ≤ initial
  deriving DecidableEq

namespace FlowWindow

/-- A window at its start. -/
def full (initial : ℕ) (pos : 0 < initial) (le_max : initial ≤ MAX_WINDOW_CREDIT) : FlowWindow :=
  ⟨initial, initial, pos, le_max, le_rfl⟩

variable (w : FlowWindow)

def remaining : ℕ := w.available

/-- `consume`: the window after it, or nothing when it cannot cover the bytes. -/
def consume (bytes : Credit) : Option FlowWindow :=
  if w.available < bytes.val then none
  else
    some { w with
      available := w.available - bytes.val
      le_initial := le_trans (Nat.sub_le _ _) w.le_initial }

/-- `grant`, clamped to the initial window. -/
def grant (bytes : Credit) : FlowWindow :=
  if h : w.initial - w.available ≤ bytes.val then
    { w with available := w.initial, le_initial := le_rfl }
  else { w with available := w.available + bytes.val, le_initial := by omega }

variable {w}

lemma consume_eq_some {bytes : Credit} {w' : FlowWindow} (h : w.consume bytes = some w') :
    w'.initial = w.initial ∧ w'.available + bytes.val = w.available := by
  unfold consume at h
  split at h
  · simp at h
  · obtain rfl := Option.some.inj h
    exact ⟨rfl, by simp only; omega⟩

@[simp] lemma grant_initial (bytes : Credit) : (w.grant bytes).initial = w.initial := by
  unfold grant
  split <;> rfl

/-- A grant of no more than was used is not clamped. -/
lemma grant_available {bytes : Credit} (h : w.available + bytes.val ≤ w.initial) :
    (w.grant bytes).available = w.available + bytes.val := by
  unfold grant
  split
  · simp only; omega
  · rfl

end FlowWindow

end Tnp.Protocol
