import Tnp.Net.AddressKeys

/-!
Address literals and prefixes as packet filters read them.
-/

namespace Tnp.Net

open Tnp.Lib Tnp.Lib.Ipv6

inductive Family
  | v4
  | v6
  deriving DecidableEq, Repr

def Family.keyword : Family → String
  | .v4 => "ip"
  | .v6 => "ip6"

def Family.bits : Family → ℕ
  | .v4 => 32
  | .v6 => 128

/-- The address that a literal denotes. -/
def Family.read (family : Family) (literal : List Char) : Option ℕ :=
  match family with
  | .v4 => readQuad literal
  | .v6 => (Ipv6Form.parse literal).map Ipv6Form.number

/-- A literal, or a prefix, covers an address. -/
def Family.covers (family : Family) (dst : String) (n : ℕ) : Bool :=
  let literal := dst.toList.takeWhile (· ≠ '/')
  let length := dst.toList.dropWhile (· ≠ '/')
  let host := if length = [] then 0 else family.bits - Nat.ofDigitChars 10 length.tail 0
  (family.read literal).any fun a => a >>> host == n >>> host

/-- A literal, or two with a hyphen between them, has an address in its range. -/
def Family.spans (family : Family) (range : String) (n : ℕ) : Bool :=
  let lo := range.toList.takeWhile (· ≠ '-')
  let rest := range.toList.dropWhile (· ≠ '-')
  let hi := if rest = [] then lo else rest.tail
  (family.read lo).any fun a => (family.read hi).any fun b => a ≤ n && n ≤ b

lemma isAddressChar_of_read {family : Family} {literal : List Char} {n : ℕ}
    (h : family.read literal = some n) : ∀ c ∈ literal, isHex c = true ∨ c = '.' ∨ c = ':' := by
  intro c hc
  cases family with
  | v4 =>
    obtain ⟨-, rfl⟩ := readQuad_eq_some.mp h
    rcases isDigit_quadText hc with hdigit | hdot
    · exact .inl (by rw [isHex, hdigit, Bool.true_or, Bool.true_or])
    · exact .inr (.inl hdot)
  | v6 =>
    obtain ⟨f, hparse, -⟩ := Option.map_eq_some_iff.mp h
    obtain ⟨hf, rfl⟩ := Ipv6Form.parse_eq_some.mp hparse
    exact isAddressChar_text hf hc

lemma notMem_of_read {family : Family} {literal : List Char} {n : ℕ}
    (h : family.read literal = some n) : '/' ∉ literal ∧ '-' ∉ literal := by
  constructor <;> intro hmem <;>
    rcases isAddressChar_of_read h _ hmem with hc | hc | hc <;> revert hc <;> decide

/-- A literal covers the address that it denotes. -/
lemma covers_literal {family : Family} {dst : String} {a n : ℕ}
    (h : family.read dst.toList = some a) : family.covers dst n = true ↔ n = a := by
  have hslash : ∀ c ∈ dst.toList, (decide (c ≠ '/')) = true := fun c hc =>
    decide_eq_true fun heq => (notMem_of_read h).1 (heq ▸ hc)
  unfold Family.covers
  dsimp only
  rw [List.takeWhile_eq_self_iff.mpr hslash, List.dropWhile_eq_nil_iff.mpr hslash, h]
  simp only [if_true, Option.any_some, Nat.shiftRight_zero, beq_iff_eq]
  exact eq_comm

/-- A prefix covers the addresses that begin like its own. -/
lemma covers_slash {family : Family} {literal : List Char} {a length n : ℕ}
    (h : family.read literal = some a) :
    family.covers (String.ofList (literal ++ '/' :: Nat.toDigits 10 length)) n = true ↔
      a >>> (family.bits - length) = n >>> (family.bits - length) := by
  have hslash : ∀ c ∈ literal, (decide (c ≠ '/')) = true := fun c hc =>
    decide_eq_true fun heq => (notMem_of_read h).1 (heq ▸ hc)
  unfold Family.covers
  dsimp only
  rw [String.toList_ofList, List.takeWhile_append_of_pos hslash,
    List.dropWhile_append_of_pos hslash, List.takeWhile_cons_of_neg (by simp),
    List.dropWhile_cons_of_neg (by simp), List.append_nil, h, if_neg (List.cons_ne_nil _ _),
    List.tail_cons, Nat.ofDigitChars_ten_toDigits, Option.any_some, beq_iff_eq]

/-! ### Numbers and their texts -/

lemma or_shift {k b : ℕ} (a : ℕ) (hb : b < 2 ^ k) : (a <<< k) ||| b = 2 ^ k * a + b := by
  rw [← Nat.shiftLeft_add_eq_or_of_lt hb, Nat.shiftLeft_eq, Nat.mul_comm]

lemma foldl_or {k : ℕ} {values : List ℕ} (h : ∀ n ∈ values, n < 2 ^ k) (a : ℕ) :
    values.foldl (fun acc n => (acc <<< k) ||| n) a =
      values.foldl (fun acc n => 2 ^ k * acc + n) a := by
  induction values generalizing a with
  | nil => rfl
  | cons n values ih =>
    obtain ⟨hn, hrest⟩ := List.forall_mem_cons.mp h
    rw [List.foldl_cons, List.foldl_cons, or_shift a hn, ih hrest]

/-- The octets of a text, shifted together. -/
lemma foldl_octets {v : ℕ} (h : v < 4294967296) : ((quadText v).splitOn '.').foldl
    (fun acc octet => (acc <<< 8) ||| Nat.ofDigitChars 10 octet 0) 0 = v := by
  have hlt : ∀ n ∈ [v / 16777216, v / 65536 % 256, v / 256 % 256, v % 256], n < 2 ^ 8 := by
    simp only [List.forall_mem_cons, List.not_mem_nil, IsEmpty.forall_iff, implies_true, and_true]
    omega
  have hfold := foldl_or hlt 0
  simp only [List.foldl_cons, List.foldl_nil] at hfold
  rw [splitOn_quadText]
  simp only [List.foldl_cons, List.foldl_nil, Nat.ofDigitChars_ten_toDigits]
  rw [hfold]
  omega

lemma octets_eq {n : ℕ} (h : n < 4294967296) : ['.'].intercalate ([24, 16, 8, 0].map fun shift =>
    Nat.toDigits 10 ((n >>> shift) &&& 0xff)) = quadText n := by
  have hmask (m : ℕ) : m &&& 0xff = m % 256 := Nat.and_two_pow_sub_one_eq_mod m 8
  have hfirst : n / 16777216 % 256 = n / 16777216 := Nat.mod_eq_of_lt (by omega)
  simp only [quadText, List.map_cons, List.map_nil, hmask, Nat.shiftRight_eq_div_pow,
    Nat.reducePow, hfirst, Nat.div_one]

end Tnp.Net
