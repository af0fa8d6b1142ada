import Mathlib.Data.List.GetD
import Mathlib.Tactic.Lemma
import Tnp.Lib.Bytes

/-!
UTF-8 as a list of bytes: the encoder, the decoder that replaces what it cannot read, and where a
text may be cut.

The decoder is the one browsers use. It keeps the bounds of the next byte, and reads the byte that
ends a broken sequence again.
-/

namespace Tnp.Lib.Utf8

/-- The bytes of a text. -/
def encode (cs : List Char) : Bytes := cs.flatMap String.utf8EncodeChar

@[simp] lemma encode_nil : encode [] = [] := rfl

@[simp] lemma encode_cons (c : Char) (cs : List Char) :
    encode (c :: cs) = String.utf8EncodeChar c ++ encode cs := rfl

@[simp] lemma encode_append (cs ds : List Char) : encode (cs ++ ds) = encode cs ++ encode ds :=
  List.flatMap_append

/-! ### Decoding -/

/-- What a sequence still waits for. -/
structure Pending where
  needed : ℕ
  lower : ℕ := 0x80
  upper : ℕ := 0xBF
  point : ℕ
  deriving DecidableEq, Repr

def replacement : Char := '\uFFFD'

/-- The first byte of a sequence. -/
def enter (b : UInt8) : List Char × Option Pending :=
  let n := b.toNat
  if n ≤ 0x7F then ([Char.ofNat n], none)
  else if 0xC2 ≤ n ∧ n ≤ 0xDF then ([], some { needed := 1, point := n - 0xC0 })
  else if 0xE0 ≤ n ∧ n ≤ 0xEF then
    ([], some {
      needed := 2
      lower := if n = 0xE0 then 0xA0 else 0x80
      upper := if n = 0xED then 0x9F else 0xBF
      point := n - 0xE0 })
  else if 0xF0 ≤ n ∧ n ≤ 0xF4 then
    ([], some {
      needed := 3
      lower := if n = 0xF0 then 0x90 else 0x80
      upper := if n = 0xF4 then 0x8F else 0xBF
      point := n - 0xF0 })
  else ([replacement], none)

/-- Another byte of a sequence, or the first of the next. -/
def advance (p : Pending) (b : UInt8) : List Char × Option Pending :=
  if p.lower ≤ b.toNat ∧ b.toNat ≤ p.upper then
    let point := p.point * 64 + (b.toNat - 0x80)
    if p.needed = 1 then ([Char.ofNat point], none)
    else ([], some { needed := p.needed - 1, point })
  else (replacement :: (enter b).1, (enter b).2)

def decodeFrom : Option Pending → Bytes → List Char
  | none, [] => []
  | some _, [] => [replacement]
  | none, b :: rest => (enter b).1 ++ decodeFrom (enter b).2 rest
  | some p, b :: rest => (advance p b).1 ++ decodeFrom (advance p b).2 rest

/-- The text that bytes spell, with a replacement for every sequence that is none. -/
def decode (bytes : Bytes) : List Char := decodeFrom none bytes

lemma toNat_ofNat {n : ℕ} (h : n < 256) : (UInt8.ofNat n).toNat = n := by
  rw [UInt8.toNat_ofNat', Nat.mod_eq_of_lt h]

lemma not_surrogate (c : Char) : c.toNat < 0xD800 ∨ 0xDFFF < c.toNat ∧ c.toNat < 0x110000 :=
  c.valid

lemma decodeFrom_lead {b : UInt8} {cs : List Char} {p : Option Pending} (h : enter b = (cs, p))
    (rest : Bytes) : decodeFrom none (b :: rest) = cs ++ decodeFrom p rest := by
  rw [decodeFrom, h]

lemma enter_one {n : ℕ} (h : n ≤ 0x7F) : enter (UInt8.ofNat n) = ([Char.ofNat n], none) := by
  simp only [enter, toNat_ofNat (show n < 256 by omega), if_pos h]

lemma enter_two {x : ℕ} (hlower : 2 ≤ x) (hupper : x < 32) :
    enter (UInt8.ofNat (x + 0xc0)) = ([], some { needed := 1, point := x }) := by
  simp only [enter, toNat_ofNat (show x + 0xc0 < 256 by omega), Nat.add_sub_cancel]
  rw [if_neg (by omega), if_pos (by omega)]

lemma enter_three {x : ℕ} (h : x < 16) : enter (UInt8.ofNat (x + 0xe0)) =
    ([], some {
      needed := 2
      lower := if x = 0 then 0xA0 else 0x80
      upper := if x = 13 then 0x9F else 0xBF
      point := x }) := by
  simp only [enter, toNat_ofNat (show x + 0xe0 < 256 by omega), Nat.add_sub_cancel]
  rw [if_neg (by omega), if_neg (by omega), if_pos (by omega)]
  congr 3 <;> simp

lemma enter_four {x : ℕ} (h : x ≤ 4) : enter (UInt8.ofNat (x + 0xf0)) =
    ([], some {
      needed := 3
      lower := if x = 0 then 0x90 else 0x80
      upper := if x = 4 then 0x8F else 0xBF
      point := x }) := by
  simp only [enter, toNat_ofNat (show x + 0xf0 < 256 by omega), Nat.add_sub_cancel]
  rw [if_neg (by omega), if_neg (by omega), if_neg (by omega), if_pos (by omega)]
  congr 3 <;> simp

variable {lower upper point x : ℕ}

/-- The last byte of a sequence. -/
lemma decodeFrom_last (hlower : lower ≤ x + 0x80) (hupper : x + 0x80 ≤ upper) (hx : x < 64)
    (rest : Bytes) : decodeFrom (some ⟨1, lower, upper, point⟩) (UInt8.ofNat (x + 0x80) :: rest) =
      Char.ofNat (point * 64 + x) :: decodeFrom none rest := by
  rw [decodeFrom, advance, toNat_ofNat (show x + 0x80 < 256 by omega), if_pos ⟨hlower, hupper⟩]
  rw [if_pos rfl, Nat.add_sub_cancel]
  rfl

/-- A byte that is neither the first nor the last. -/
lemma decodeFrom_more (needed : ℕ) (hlower : lower ≤ x + 0x80) (hupper : x + 0x80 ≤ upper)
    (hx : x < 64) (rest : Bytes) :
    decodeFrom (some ⟨needed + 2, lower, upper, point⟩) (UInt8.ofNat (x + 0x80) :: rest) =
      decodeFrom (some { needed := needed + 1, point := point * 64 + x }) rest := by
  rw [decodeFrom, advance, toNat_ofNat (show x + 0x80 < 256 by omega), if_pos ⟨hlower, hupper⟩]
  rw [if_neg (by simp), Nat.add_sub_cancel]
  rfl

/-- One character is read back. -/
lemma decode_utf8EncodeChar (c : Char) (rest : Bytes) :
    decode (String.utf8EncodeChar c ++ rest) = c :: decode rest := by
  have hvalid := not_surrogate c
  have hread (v : ℕ) (hv : v = c.toNat) (tail : List Char) :
      Char.ofNat v :: tail = c :: tail := by rw [hv, Char.ofNat_toNat c]
  unfold decode String.utf8EncodeChar
  simp only [show c.val.toNat = c.toNat from rfl]
  generalize c.toNat = v at hvalid hread
  split
  next hone =>
    exact (decodeFrom_lead (enter_one hone) rest).trans (hread v rfl _)
  next hone =>
  split
  next htwo =>
    have hlead := enter_two (x := v / 64 % 32) (by omega) (by omega)
    refine (decodeFrom_lead hlead _).trans ?_
    exact (decodeFrom_last (by omega) (by omega) (by omega) rest).trans (hread _ (by omega) _)
  next htwo =>
  split
  next hthree =>
    have hlead := enter_three (x := v / 4096 % 16) (by omega)
    refine (decodeFrom_lead hlead _).trans ?_
    refine (decodeFrom_more 0 (by split <;> omega) (by split <;> omega) (by omega) _).trans ?_
    exact (decodeFrom_last (by omega) (by omega) (by omega) rest).trans (hread _ (by omega) _)
  next hthree =>
    have hlead := enter_four (x := v / 262144 % 8) (by omega)
    refine (decodeFrom_lead hlead _).trans ?_
    refine (decodeFrom_more 1 (by split <;> omega) (by split <;> omega) (by omega) _).trans ?_
    refine (decodeFrom_more 0 (by omega) (by omega) (by omega) _).trans ?_
    exact (decodeFrom_last (by omega) (by omega) (by omega) rest).trans (hread _ (by omega) _)

lemma decode_encode_append (cs : List Char) (rest : Bytes) :
    decode (encode cs ++ rest) = cs ++ decode rest := by
  induction cs with
  | nil => rfl
  | cons c cs ih => rw [encode_cons, List.append_assoc, decode_utf8EncodeChar, ih, List.cons_append]

/-- **What is encoded decodes to itself.** -/
theorem decode_encode (cs : List Char) : decode (encode cs) = cs := by
  simpa [decode, decodeFrom] using decode_encode_append cs []

lemma encode_injective : Function.Injective encode := by
  intro cs ds h
  rw [← decode_encode cs, h, decode_encode]

/-! ### The byte order mark -/

def byteOrderMark : Char := '\uFEFF'

/-- A text without a mark before it. -/
def withoutMark (cs : List Char) : List Char :=
  if cs.head? = some byteOrderMark then cs.tail else cs

lemma withoutMark_eq_self_iff {cs : List Char} :
    withoutMark cs = cs ↔ cs.head? ≠ some byteOrderMark := by
  unfold withoutMark
  split
  next hmark =>
    refine iff_of_false (fun h => ?_) (fun h => h hmark)
    cases cs with
    | nil => simp at hmark
    | cons c cs => simpa using congrArg List.length h
  next hmark => exact iff_of_true rfl hmark

/-- The bytes of a text begin with those of a character exactly where the text does with it. -/
lemma utf8EncodeChar_prefix_iff {c : Char} {cs : List Char} (hcs : cs ≠ []) (rest : Bytes) :
    String.utf8EncodeChar c <+: encode cs ++ rest ↔ cs.head? = some c := by
  obtain ⟨d, ds, rfl⟩ := List.exists_cons_of_ne_nil hcs
  constructor
  · rintro ⟨tail, h⟩
    have hdecoded := congrArg decode h
    rw [decode_utf8EncodeChar, decode_encode_append, List.cons_append] at hdecoded
    rw [(List.cons.inj hdecoded).1]
    rfl
  · intro h
    obtain rfl := Option.some.inj h
    rw [encode_cons, List.append_assoc]
    exact List.prefix_append _ _

/-! ### Cutting -/

/-- A byte that is not the first of its sequence. -/
def isContinuation (b : UInt8) : Bool := b &&& 0xc0 == 0x80

/-- The end of the last whole sequence within `end'` bytes. -/
def backUp (encoded : Bytes) : ℕ → ℕ
  | 0 => 0
  | n + 1 => if isContinuation (encoded.getD (n + 1) 0) then backUp encoded n else n + 1

/-- At most so many bytes of a text, cut where a character ends. -/
def truncate (cs : List Char) (maxBytes : ℕ) : Bytes :=
  let encoded := encode cs
  if encoded.length ≤ maxBytes then encoded else encoded.take (backUp encoded maxBytes)

/-- The longest beginning of a text with so many bytes. -/
structure LongestPrefix (cs : List Char) (maxBytes : ℕ) (p : List Char) : Prop where
  isPrefix : p <+: cs
  fits : (encode p).length ≤ maxBytes
  longest : ∀ q, q <+: cs → (encode q).length ≤ maxBytes → q <+: p

lemma LongestPrefix.unique {cs p q : List Char} {maxBytes : ℕ} (hp : LongestPrefix cs maxBytes p)
    (hq : LongestPrefix cs maxBytes q) : p = q :=
  (hq.longest p hp.isPrefix hp.fits).eq_of_length_le
    (hp.longest q hq.isPrefix hq.fits).length_le

lemma LongestPrefix.self {cs : List Char} {maxBytes : ℕ} (h : (encode cs).length ≤ maxBytes) :
    LongestPrefix cs maxBytes cs :=
  ⟨List.prefix_rfl, h, fun _ hq _ => hq⟩

/-- A beginning that the next character would not fit after. -/
lemma LongestPrefix.of_next {p rest : List Char} {c : Char} {maxBytes : ℕ}
    (hfits : (encode p).length ≤ maxBytes)
    (hnext : maxBytes < (encode p).length + (String.utf8EncodeChar c).length) :
    LongestPrefix (p ++ c :: rest) maxBytes p := by
  refine ⟨List.prefix_append _ _, hfits, fun q hq hqfits => ?_⟩
  rcases List.prefix_or_prefix_of_prefix hq (List.prefix_append p (c :: rest)) with h | h
  · exact h
  obtain ⟨tail, rfl⟩ := h
  rw [List.prefix_append_right_inj] at hq
  cases tail with
  | nil => simp
  | cons d tail =>
    obtain ⟨rfl, -⟩ := List.cons_prefix_cons.mp hq
    simp only [encode_append, encode_cons, List.length_append] at hqfits
    omega

/-- Every text has a longest beginning, and where more is left the next character does not fit. -/
lemma exists_longestPrefix (cs : List Char) (maxBytes : ℕ) :
    (encode cs).length ≤ maxBytes ∨ ∃ p c rest, cs = p ++ c :: rest ∧
      (encode p).length ≤ maxBytes ∧
      maxBytes < (encode p).length + (String.utf8EncodeChar c).length := by
  induction cs generalizing maxBytes with
  | nil => simp
  | cons c cs ih =>
    by_cases hc : (String.utf8EncodeChar c).length ≤ maxBytes
    · rcases ih (maxBytes - (String.utf8EncodeChar c).length) with h | ⟨p, d, rest, rfl, hp, hd⟩
      · left
        rw [encode_cons, List.length_append]
        omega
      · right
        refine ⟨c :: p, d, rest, rfl, ?_, ?_⟩
        · rw [encode_cons, List.length_append]
          omega
        · rw [encode_cons, List.length_append]
          omega
    · exact .inr ⟨[], c, cs, rfl, by simp, by simpa using hc⟩

lemma isContinuation_ofNat {n : ℕ} (h : n < 256) :
    isContinuation (UInt8.ofNat n) = decide (128 ≤ n ∧ n < 192) := by
  have hall : ∀ n : Fin 256,
      isContinuation (UInt8.ofNat n) = decide (128 ≤ n.val ∧ n.val < 192) := by decide +kernel
  exact hall ⟨n, h⟩

/-- Of the bytes of one character all but the first are continuations. -/
lemma isContinuation_utf8EncodeChar (c : Char) {i : ℕ}
    (hi : i < (String.utf8EncodeChar c).length) :
    isContinuation ((String.utf8EncodeChar c).getD i 0) = decide (i ≠ 0) := by
  have hlt := not_surrogate c
  have htail (n : ℕ) : isContinuation (UInt8.ofNat (n % 64 + 128)) = true := by
    rw [isContinuation_ofNat (by omega)]
    exact decide_eq_true (by omega)
  have hlead (n : ℕ) (h : n < 256) (hn : n < 128 ∨ 192 ≤ n) :
      isContinuation (UInt8.ofNat n) = false := by
    rw [isContinuation_ofNat h]
    exact decide_eq_false (by omega)
  unfold String.utf8EncodeChar at hi ⊢
  simp only [show c.val.toNat = c.toNat from rfl] at hi ⊢
  generalize c.toNat = v at hlt hi
  split at hi
  next hone =>
    obtain rfl : i = 0 := by simpa using hi
    simpa [hone] using hlead v (by omega) (by omega)
  next hone =>
  split at hi
  next htwo =>
    rw [if_neg hone, if_pos htwo]
    match i, hi with
    | 0, _ => exact hlead _ (by omega) (by omega)
    | 1, _ => exact htail _
  next htwo =>
  split at hi
  next hthree =>
    rw [if_neg hone, if_neg htwo, if_pos hthree]
    match i, hi with
    | 0, _ => exact hlead _ (by omega) (by omega)
    | 1, _ => exact htail _
    | 2, _ => exact htail _
  next hthree =>
    rw [if_neg hone, if_neg htwo, if_neg hthree]
    match i, hi with
    | 0, _ => exact hlead _ (by omega) (by omega)
    | 1, _ => exact htail _
    | 2, _ => exact htail _
    | 3, _ => exact htail _

/-- From inside a character, back to where it begins. -/
lemma backUp_append (front : Bytes) (c : Char) (back : Bytes) {k : ℕ}
    (hk : k < (String.utf8EncodeChar c).length) :
    backUp (front ++ (String.utf8EncodeChar c ++ back)) (front.length + k) = front.length := by
  have hbyte (i : ℕ) (hi : i < (String.utf8EncodeChar c).length) :
      (front ++ (String.utf8EncodeChar c ++ back)).getD (front.length + i) 0 =
        (String.utf8EncodeChar c).getD i 0 := by
    rw [List.getD_append_right _ _ _ _ (by omega), Nat.add_sub_cancel_left,
      List.getD_append _ _ _ _ hi]
  induction k with
  | zero =>
    have hzero := isContinuation_utf8EncodeChar c hk
    rw [← hbyte 0 hk] at hzero
    rw [Nat.add_zero] at hzero ⊢
    cases hfront : front.length with
    | zero => rfl
    | succ n =>
      rw [hfront] at hzero
      rw [backUp, hzero]
      rfl
  | succ k ih =>
    have hcontinued := isContinuation_utf8EncodeChar c hk
    rw [← hbyte (k + 1) hk] at hcontinued
    rw [← Nat.add_assoc] at hcontinued ⊢
    rw [backUp, hcontinued]
    exact ih (by omega)

/-- **A cut text is the longest beginning that fits.** -/
theorem truncate_eq (cs : List Char) (maxBytes : ℕ) :
    ∃ p, LongestPrefix cs maxBytes p ∧ truncate cs maxBytes = encode p := by
  unfold truncate
  dsimp only
  rcases exists_longestPrefix cs maxBytes with hfits | ⟨p, c, rest, rfl, hp, hnext⟩
  · exact ⟨cs, .self hfits, if_pos hfits⟩
  · refine ⟨p, .of_next hp hnext, ?_⟩
    have hlong : ¬ (encode (p ++ c :: rest)).length ≤ maxBytes := by
      rw [encode_append, encode_cons, List.length_append, List.length_append]
      omega
    have hback := backUp_append (encode p) c (encode rest) (k := maxBytes - (encode p).length)
      (by omega)
    rw [Nat.add_sub_cancel' hp] at hback
    rw [if_neg hlong, encode_append, encode_cons, hback, List.take_left]

end Tnp.Lib.Utf8
