import Mathlib.Data.Multiset.Count
import Tnp.Lib.Bytes

/-!
Symbolic cryptography: what is computed is a term, and only equal computations give equal terms.

Powers of the base point are sets of exponents, in which a scalar may occur more than once, so that
exponentiation commutes. An attacker computes what its terms allow, opens what it has the key of,
and has scalars of its own.
-/

namespace Tnp.Lib.Symbolic

/-- A secret scalar, of an honest party or of the attacker. -/
inductive Scalar
  | honest (n : ℕ)
  | attacker (n : ℕ)
  deriving DecidableEq

def Scalar.isHonest : Scalar → Bool
  | honest _ => true
  | attacker _ => false

@[simp] lemma Scalar.isHonest_honest (n : ℕ) : (honest n).isHonest = true := rfl

@[simp] lemma Scalar.isHonest_attacker (n : ℕ) : (attacker n).isHonest = false := rfl

/-- `first` and `second` are the halves of what is derived from a chaining key and its input. -/
inductive Term
  | bytes (b : Bytes)
  | point (exponents : Multiset Scalar)
  | hash (a b : Term)
  | first (ck ikm : Term)
  | second (ck ikm : Term)
  | sealed (key : Term) (nonce : ℕ) (ad plaintext : Term)

namespace Term

/-- Whether two terms are equal; the order of the exponents of a point does not matter. -/
def same : Term → Term → Bool
  | bytes a, bytes b => a = b
  | point s, point t => s = t
  | hash a b, hash c d => same a c && same b d
  | first a b, first c d => same a c && same b d
  | second a b, second c d => same a c && same b d
  | sealed k n a p, sealed k' n' a' p' => same k k' && decide (n = n') && same a a' && same p p'
  | _, _ => false

lemma same_iff {a b : Term} : same a b = true ↔ a = b := by
  induction a generalizing b with
  | bytes => cases b <;> simp [same]
  | point => cases b <;> simp [same]
  | hash _ _ iha ihb => cases b <;> simp [same, iha, ihb]
  | first _ _ iha ihb => cases b <;> simp [same, iha, ihb]
  | second _ _ iha ihb => cases b <;> simp [same, iha, ihb]
  | sealed _ _ _ _ ihk iha ihp => cases b <;> simp [same, ihk, iha, ihp, and_assoc]

instance : DecidableEq Term := fun _ _ => decidable_of_iff _ same_iff

def publicKey (x : Scalar) : Term := .point {x}

lemma publicKey_injective : Function.Injective publicKey := fun x y h => by
  simpa [publicKey] using h

/-- How many bytes a term stands for. -/
def length : Term → ℕ
  | bytes b => b.length
  | sealed _ _ _ plaintext => plaintext.length + 16
  | _ => 32

/-- No more than one scalar of a point is honest, and no key with an unsafe part seals anything but
what honest parties have sent. -/
def Safe (sent : Term → Prop) : Term → Prop
  | bytes _ => True
  | point s => s.countP (·.isHonest) ≤ 1
  | hash _ _ => True
  | first c i => c.Safe sent ∧ i.Safe sent
  | second c i => c.Safe sent ∧ i.Safe sent
  | sealed k n a p => p.Safe sent ∧ (k.Safe sent ∨ sent (.sealed k n a p))

variable {sent sent' : Term → Prop} {t : Term}

lemma Safe.mono (h : t.Safe sent) (hsent : ∀ t, sent t → sent' t) : t.Safe sent' := by
  induction t with
  | bytes b => trivial
  | point s => exact h
  | hash a b => trivial
  | first c i ihc ihi => exact ⟨ihc h.1, ihi h.2⟩
  | second c i ihc ihi => exact ⟨ihc h.1, ihi h.2⟩
  | sealed k n a p ihk _ ihp => exact ⟨ihp h.1, h.2.imp ihk (hsent _)⟩

lemma safe_publicKey (x : Scalar) : (publicKey x).Safe sent := by
  simpa [publicKey, Safe] using Multiset.countP_le_card _ {x}

/-- What two honest scalars share is not safe. -/
lemma not_safe_shared (m n : ℕ) : ¬ (point {.honest m, .honest n}).Safe sent := by
  rw [Safe, Multiset.insert_eq_cons, Multiset.countP_cons_of_pos _ (by simp),
    ← Multiset.cons_zero, Multiset.countP_cons_of_pos _ (by simp), Multiset.countP_zero]
  decide

end Term

/-- What an attacker can compute from what it has seen. -/
inductive Derives (seen : List Term) : Term → Prop
  | seen {t} : t ∈ seen → Derives seen t
  | bytes (b) : Derives seen (.bytes b)
  | base : Derives seen (.point 0)
  | power (n) {s} : Derives seen (.point s) → Derives seen (.point (.attacker n ::ₘ s))
  | hash {a b} : Derives seen a → Derives seen b → Derives seen (.hash a b)
  | first {c i} : Derives seen c → Derives seen i → Derives seen (.first c i)
  | second {c i} : Derives seen c → Derives seen i → Derives seen (.second c i)
  | seals {k a p} (n) : Derives seen k → Derives seen a → Derives seen p →
      Derives seen (.sealed k n a p)
  | opens {k n a p} : Derives seen k → Derives seen (.sealed k n a p) → Derives seen p

variable {sent : Term → Prop} {seen : List Term} {t : Term}

/-- **Secrecy.** From what is safe, only what is safe is computed. -/
theorem Derives.safe (hseen : ∀ t ∈ seen, t.Safe sent) (h : Derives seen t) : t.Safe sent := by
  induction h with
  | seen hmem => exact hseen _ hmem
  | bytes b => trivial
  | base => exact Nat.zero_le 1
  | @power n s _ ih =>
    have hcount : (Scalar.attacker n ::ₘ s).countP (·.isHonest) = s.countP (·.isHonest) :=
      Multiset.countP_cons_of_neg _ (by simp)
    exact hcount.trans_le ih
  | hash _ _ _ _ => trivial
  | first _ _ ihc ihi => exact ⟨ihc, ihi⟩
  | second _ _ ihc ihi => exact ⟨ihc, ihi⟩
  | seals n _ _ _ ihk _ ihp => exact ⟨ihp, .inl ihk⟩
  | opens _ _ _ ih => exact ih.1

end Tnp.Lib.Symbolic
