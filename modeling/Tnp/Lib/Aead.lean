import Mathlib.Data.List.Pairwise
import Mathlib.Logic.Function.Iterate
import Tnp.Lib.Bytes

/-!
An ideal authenticated encryption scheme.

The scheme is an ideal functionality: it keeps a table of everything that was encrypted, and
a ciphertext opens under a key, a nonce and associated data only if the table says it was
produced under exactly these. The bytes of a ciphertext stay those of a real scheme: they
determine the plaintext, and are longer than it by the length of the tag.
-/

set_option linter.unusedSectionVars false

namespace Tnp.Lib.Aead

/-- One encryption: what went in. -/
structure Encryption (K : Type) where
  key : K
  nonce : ℕ
  ad : Bytes
  plaintext : Bytes
  deriving DecidableEq

/-- Everything encrypted so far. -/
abbrev Table (K : Type) := List (Encryption K)

/-- A scheme: the bytes it produces, with the two facts every such scheme has. -/
structure Scheme (K : Type) where
  tagLength : ℕ
  bytes : K → ℕ → Bytes → Bytes → Bytes
  injective : ∀ k n ad, Function.Injective (bytes k n ad)
  length : ∀ k n ad p, (bytes k n ad p).length = p.length + tagLength

variable {K : Type} [DecidableEq K] (A : Scheme K)

/-- Encrypt, and enter the encryption in the table. -/
def encrypt (t : Table K) (k : K) (n : ℕ) (ad p : Bytes) : Bytes × Table K :=
  (A.bytes k n ad p, t ++ [⟨k, n, ad, p⟩])

/-- The plaintext of the table's encryption with this key, nonce, associated data and
ciphertext, if there is one. -/
def decrypt (t : Table K) (k : K) (n : ℕ) (ad c : Bytes) : Option Bytes :=
  (t.find? fun e =>
    e.key = k ∧ e.nonce = n ∧ e.ad = ad ∧ A.bytes k n ad e.plaintext = c).map
    Encryption.plaintext

/-- **A ciphertext opens exactly when it was produced**, and to what it was produced from. -/
theorem decrypt_eq_some_iff {t : Table K} {k : K} {n : ℕ} {ad c p : Bytes} :
    decrypt A t k n ad c = some p ↔ ⟨k, n, ad, p⟩ ∈ t ∧ c = A.bytes k n ad p := by
  constructor
  · intro h
    obtain ⟨⟨k', n', ad', p'⟩, hfind, rfl⟩ := Option.map_eq_some_iff.mp h
    have hpred := List.find?_some hfind
    simp only [decide_eq_true_eq] at hpred
    obtain ⟨rfl, rfl, rfl, rfl⟩ := hpred
    exact ⟨List.mem_of_find?_eq_some hfind, rfl⟩
  · rintro ⟨hmem, rfl⟩
    have hsome : (t.find? fun e => decide (e.key = k ∧ e.nonce = n ∧ e.ad = ad ∧
        A.bytes k n ad e.plaintext = A.bytes k n ad p)).isSome := by
      rw [List.find?_isSome]
      exact ⟨_, hmem, by simp⟩
    obtain ⟨e, he⟩ := Option.isSome_iff_exists.mp hsome
    have hpred := List.find?_some he
    simp only [decide_eq_true_eq] at hpred
    rw [decrypt, he, Option.map_some, A.injective k n ad hpred.2.2.2]

/-- Every key derived from either of two is used in one place only: none of the keys that
repeated `rekey` makes from `k₁` or from `k₂` is another of them. -/
structure Fresh (rekey : K → K) (k₁ k₂ : K) : Prop where
  first : ∀ i j, rekey^[i] k₁ = rekey^[j] k₁ → i = j
  second : ∀ i j, rekey^[i] k₂ = rekey^[j] k₂ → i = j
  apart : ∀ i j, rekey^[i] k₁ ≠ rekey^[j] k₂

lemma Fresh.symm {rekey : K → K} {k₁ k₂ : K} (h : Fresh rekey k₁ k₂) : Fresh rekey k₂ k₁ :=
  ⟨h.second, h.first, fun i j e => h.apart j i e.symm⟩

/-! ### Encryptions apart -/

/-- What came out of an encryption. -/
def cipher (e : Encryption K) : Bytes := A.bytes e.key e.nonce e.ad e.plaintext

/-- Neither the nonce nor what came out is shared. -/
def Differ (e f : Encryption K) : Prop := e.nonce ≠ f.nonce ∧ cipher A e ≠ cipher A f

instance : Std.Symm (Differ A) := ⟨fun _ _ h => ⟨h.1.symm, h.2.symm⟩⟩

/-- No two encryptions share a nonce, and none came out as another did. -/
def Apart (t : Table K) : Prop := t.Pairwise (Differ A)

lemma Apart.eq {t : Table K} (h : Apart A t) {e f : Encryption K} (he : e ∈ t) (hf : f ∈ t)
    (hshared : e.nonce = f.nonce ∨ cipher A e = cipher A f) : e = f := by
  by_contra hne
  have hdiffer := List.Pairwise.forall h he hf hne
  exact hshared.elim hdiffer.1 hdiffer.2

end Tnp.Lib.Aead
