import Mathlib.Data.List.Infix
import Mathlib.Tactic.Lemma

/-!
Grant scopes: when a name is canonical, and when one scope is inside another.
-/

namespace Tnp.Crypto

def MAX_NAME_LENGTH : ℕ := 253

def isAlphanumeric (c : Char) : Bool := ('a' ≤ c && c ≤ 'z') || ('0' ≤ c && c ≤ '9')

/-- `LABEL`: alphanumeric at both ends, hyphens allowed between, 1 to 63 characters. -/
def isLabel (label : List Char) : Bool :=
  label.length ≤ 63 && label.head?.any isAlphanumeric && label.getLast?.any isAlphanumeric &&
    label.all fun c => isAlphanumeric c || c == '-'

def isValidScope (value : String) : Bool :=
  let cs := value.toList
  cs.length != 0 && decide (cs.length ≤ MAX_NAME_LENGTH) && (cs.splitOn '.').all isLabel

/-- Whether `inner` is `outer` or a name under it. -/
def scopeCovers (outer inner : String) : Bool :=
  isValidScope outer && isValidScope inner &&
    (inner == outer || decide ('.' :: outer.toList <:+ inner.toList))

lemma scopeCovers_iff {outer inner : String} : scopeCovers outer inner = true ↔
    isValidScope outer = true ∧ isValidScope inner = true ∧
      (inner = outer ∨ '.' :: outer.toList <:+ inner.toList) := by
  simp [scopeCovers, and_assoc]

lemma scopeCovers_refl {s : String} (h : isValidScope s = true) : scopeCovers s s = true :=
  scopeCovers_iff.mpr ⟨h, h, Or.inl rfl⟩

/-- A name under a name under a third is under the third: the label boundary is kept. -/
lemma scopeCovers_trans {a b c : String} (hab : scopeCovers a b = true)
    (hbc : scopeCovers b c = true) : scopeCovers a c = true := by
  obtain ⟨ha, hb, hab⟩ := scopeCovers_iff.mp hab
  obtain ⟨-, hc, hbc⟩ := scopeCovers_iff.mp hbc
  refine scopeCovers_iff.mpr ⟨ha, hc, ?_⟩
  rcases hbc with rfl | hbc
  · exact hab
  · rcases hab with rfl | hab
    · exact Or.inr hbc
    · exact Or.inr (hab.trans ((List.suffix_cons '.' b.toList).trans hbc))

end Tnp.Crypto
