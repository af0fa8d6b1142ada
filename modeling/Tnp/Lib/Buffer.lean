import Tnp.Lib.Bytes

/-!
Reads and writes at an offset of a byte string, as a `Buffer` does them. There is no result where
one passes the end.
-/

namespace Tnp.Lib

def readUInt16BE (buf : Bytes) (offset : ℕ) : Option ℕ :=
  if offset + 2 ≤ buf.length then some (ofBe ((buf.drop offset).take 2)) else none

def writeUInt16BE (buf : Bytes) (value offset : ℕ) : Option Bytes :=
  if offset + 2 ≤ buf.length then some (buf.take offset ++ be 2 value ++ buf.drop (offset + 2))
  else none

variable {buf : Bytes} {offset value : ℕ}

lemma readUInt16BE_eq_some {n : ℕ} :
    readUInt16BE buf offset = some n ↔
      n < 65536 ∧ buf.drop offset = be 2 n ++ buf.drop (offset + 2) := by
  unfold readUInt16BE
  constructor
  · intro h
    split at h
    next hle =>
      obtain rfl := Option.some.inj h
      have hlength : ((buf.drop offset).take 2).length = 2 := by
        rw [List.length_take, List.length_drop]
        omega
      have hlt := ofBe_lt ((buf.drop offset).take 2)
      have hspelled := be_ofBe ((buf.drop offset).take 2)
      rw [hlength] at hlt hspelled
      exact ⟨hlt, by rw [hspelled, ← List.drop_drop, List.take_append_drop]⟩
    · simp at h
  · rintro ⟨hlt, hdrop⟩
    have hlength := congrArg List.length hdrop
    rw [List.length_append, length_be, List.length_drop] at hlength
    rw [if_pos (by omega), hdrop, List.take_left' (length_be 2 n), ofBe_be_of_lt hlt]

lemma readUInt16BE_of_le (buf : Bytes) (offset : ℕ) (h : offset + 2 ≤ buf.length) :
    ∃ n, readUInt16BE buf offset = some n := by
  unfold readUInt16BE
  rw [if_pos h]
  exact ⟨_, rfl⟩

/-- What is written over two bytes. -/
lemma writeUInt16BE_append (before old after : Bytes) (value : ℕ) (hold : old.length = 2) :
    writeUInt16BE (before ++ (old ++ after)) value before.length =
      some (before ++ (be 2 value ++ after)) := by
  unfold writeUInt16BE
  rw [if_pos (by simp [hold]), List.take_left, ← hold, ← List.drop_drop, List.drop_left,
    List.drop_left, List.append_assoc]

end Tnp.Lib
