import Mathlib.Data.Rat.Defs
import Tnp.Lib.Bytes

/-!
Strict encodings for everything that is signed or compared.

A public key is 32 bytes and a number that may be signed is a non-negative safe integer: both
are subtypes here, so what is parsed once is never checked again.
-/

namespace Tnp.Crypto

open Tnp.Lib

def PUBLIC_KEY_LENGTH : ℕ := 32
def SIGNATURE_LENGTH : ℕ := 64
def MAX_SAFE_INTEGER : ℕ := 2 ^ 53 - 1

lemma one_le_max_safe_integer : 1 ≤ MAX_SAFE_INTEGER := by decide

structure EncodingError where
  message : String
  deriving DecidableEq, Repr

/-- A JavaScript value from outside. A number that is not finite fails the same checks as a
fraction does. -/
inductive Value
  | undefined
  | null
  | bool (b : Bool)
  | number (x : ℚ)
  | string (s : String)
  | array (items : List Value)
  | object (fields : List (String × Value))

/-- `object[name]`. -/
def Value.field (fields : List (String × Value)) (name : String) : Value :=
  (fields.lookup name).getD .undefined

/-- The same of any value: what is not an object has no fields. -/
def Value.get (v : Value) (name : String) : Value :=
  match v with
  | .object fields => Value.field fields name
  | _ => .undefined

/-! ### Base64 -/

def ALPHABET : List Char :=
  "ABCDEFGHIJKLMNOPQRSTUVWXYZabcdefghijklmnopqrstuvwxyz0123456789+/".toList

def encodeDigit (n : ℕ) : Char := ALPHABET.getD (n % 64) 'A'

def encodeGroups : Bytes → List Char
  | a :: b :: c :: rest =>
    let n := a.toNat * 2 ^ 16 + b.toNat * 2 ^ 8 + c.toNat
    encodeDigit (n / 2 ^ 18) :: encodeDigit (n / 2 ^ 12) :: encodeDigit (n / 2 ^ 6) ::
      encodeDigit n :: encodeGroups rest
  | [a, b] =>
    let n := a.toNat * 2 ^ 16 + b.toNat * 2 ^ 8
    [encodeDigit (n / 2 ^ 18), encodeDigit (n / 2 ^ 12), encodeDigit (n / 2 ^ 6), '=']
  | [a] =>
    let n := a.toNat * 2 ^ 16
    [encodeDigit (n / 2 ^ 18), encodeDigit (n / 2 ^ 12), '=', '=']
  | [] => []

def encodeBase64 (bytes : Bytes) : String := String.ofList (encodeGroups bytes)

/-- `DECODE`, where it is not −1. -/
def decodeDigit (c : Char) : Option ℕ := ALPHABET.idxOf? c

/-- The value of the character at place `j` of a group, where the last `padding` places of the
last group may be padding. -/
def decodeChar (padding : ℕ) (last : Bool) (j : ℕ) (c : Char) : Except EncodingError ℕ :=
  if c = '=' ∧ last = true ∧ 4 - padding ≤ j then .ok 0
  else
    match decodeDigit c with
    | some d => .ok d
    | none => .error ⟨"non-canonical base64 character"⟩

def decodeGroups (padding : ℕ) : List Char → Except EncodingError Bytes
  | a :: b :: c :: d :: rest => do
    let x ← decodeChar padding rest.isEmpty 0 a
    let y ← decodeChar padding rest.isEmpty 1 b
    let z ← decodeChar padding rest.isEmpty 2 c
    let w ← decodeChar padding rest.isEmpty 3 d
    let n := x * 2 ^ 18 + y * 2 ^ 12 + z * 2 ^ 6 + w
    let out ← decodeGroups padding rest
    .ok (UInt8.ofNat (n / 2 ^ 16) :: UInt8.ofNat (n / 2 ^ 8) :: UInt8.ofNat n :: out)
  | _ => .ok []

def base64Padding (cs : List Char) : ℕ :=
  if "==".toList <:+ cs then 2 else if "=".toList <:+ cs then 1 else 0

def decodeBase64Strict (value : Value) (expectedLength : Option ℕ) :
    Except EncodingError Bytes :=
  match value with
  | .string s =>
    let cs := s.toList
    if cs.length % 4 ≠ 0 then .error ⟨"base64 length is not a multiple of 4"⟩
    else
      match decodeGroups (base64Padding cs) cs with
      | .error e => .error e
      | .ok groups =>
        let out := groups.take (cs.length / 4 * 3 - base64Padding cs)
        if encodeBase64 out ≠ s then .error ⟨"non-canonical base64"⟩
        else
          match expectedLength with
          | some n =>
            if out.length ≠ n then .error ⟨s!"expected {n} bytes, got {out.length}"⟩
            else .ok out
          | none => .ok out
  | _ => .error ⟨"expected a base64 string"⟩

lemma decodeBase64Strict_length {value : Value} {n : ℕ} {out : Bytes}
    (h : decodeBase64Strict value (some n) = .ok out) : out.length = n := by
  unfold decodeBase64Strict at h
  cases value with
  | string s =>
    dsimp only at h
    split at h
    · simp at h
    split at h
    · simp at h
    split at h
    · simp at h
    split at h
    · simp at h
    · next hlen =>
      obtain rfl := Except.ok.inj h
      exact not_not.mp hlen
  | _ => simp at h

/-- What decodes is the one spelling of its bytes. -/
lemma encodeBase64_of_decode {s : String} {n : Option ℕ} {out : Bytes}
    (h : decodeBase64Strict (.string s) n = .ok out) : encodeBase64 out = s := by
  unfold decodeBase64Strict at h
  dsimp only at h
  split at h
  · simp at h
  split at h
  · simp at h
  split at h
  · simp at h
  next hcanonical =>
  have hs := not_not.mp hcanonical
  cases n with
  | none => exact Except.ok.inj h ▸ hs
  | some n =>
    dsimp only at h
    split at h
    · simp at h
    · exact Except.ok.inj h ▸ hs

lemma decodeDigit_encodeDigit (n : ℕ) : decodeDigit (encodeDigit n) = some (n % 64) := by
  have key : ∀ i : Fin 64, decodeDigit (encodeDigit i.val) = some i.val := by decide +kernel
  have hmod : encodeDigit n = encodeDigit (n % 64) := by simp [encodeDigit]
  rw [hmod]
  exact key ⟨n % 64, Nat.mod_lt n (by omega)⟩

lemma encodeDigit_ne (n : ℕ) : encodeDigit n ≠ '=' := by
  intro h
  have hdecode := decodeDigit_encodeDigit n
  rw [h] at hdecode
  have hnone : decodeDigit '=' = none := by decide
  simp [hnone] at hdecode

lemma decodeChar_encodeDigit (padding : ℕ) (last : Bool) (j n : ℕ) :
    decodeChar padding last j (encodeDigit n) = .ok (n % 64) := by
  simp [decodeChar, encodeDigit_ne, decodeDigit_encodeDigit]

lemma decodeChar_pad {padding j : ℕ} (h : 4 - padding ≤ j) :
    decodeChar padding true j '=' = .ok 0 := by
  simp [decodeChar, h]

/-- How many bytes the last group lacks. -/
def lacking (bytes : Bytes) : ℕ := (3 - bytes.length % 3) % 3

lemma lacking_cons (a b c : UInt8) (rest : Bytes) :
    lacking (a :: b :: c :: rest) = lacking rest := by
  simp only [lacking, List.length_cons]
  omega

lemma digits_join (n : ℕ) (h : n < 2 ^ 24) :
    n / 2 ^ 18 % 64 * 2 ^ 18 + n / 2 ^ 12 % 64 * 2 ^ 12 + n / 2 ^ 6 % 64 * 2 ^ 6 + n % 64 = n := by
  omega

lemma ofNat_eq {n : ℕ} {b : UInt8} (h : n % 256 = b.toNat) : UInt8.ofNat n = b :=
  UInt8.toNat_inj.mp (by simpa using h)

/-- A group of four characters is read as the number whose digits they are. -/
lemma decodeGroups_group {p n : ℕ} {a b c d : Char} {r : List Char} {o : Bytes}
    (hn : n < 2 ^ 24) (ha : decodeChar p r.isEmpty 0 a = .ok (n / 2 ^ 18 % 64))
    (hb : decodeChar p r.isEmpty 1 b = .ok (n / 2 ^ 12 % 64))
    (hc : decodeChar p r.isEmpty 2 c = .ok (n / 2 ^ 6 % 64))
    (hd : decodeChar p r.isEmpty 3 d = .ok (n % 64))
    (hrest : decodeGroups p r = .ok o) :
    decodeGroups p (a :: b :: c :: d :: r) =
      .ok (UInt8.ofNat (n / 2 ^ 16) :: UInt8.ofNat (n / 2 ^ 8) :: UInt8.ofNat n :: o) := by
  rw [decodeGroups, ha, hb, hc, hd, hrest]
  simp only [bind, Except.bind, digits_join n hn]

/-- The groups decode to the bytes, and as many zeros as the last group lacks. -/
lemma decodeGroups_encodeGroups (bytes : Bytes) :
    decodeGroups (lacking bytes) (encodeGroups bytes) =
      .ok (bytes ++ List.replicate (lacking bytes) 0) := by
  induction bytes using encodeGroups.induct with
  | case1 a b c rest ih =>
    have ha := a.toNat_lt
    have hb := b.toNat_lt
    have hc := c.toNat_lt
    have hgroup := decodeGroups_group (n := a.toNat * 2 ^ 16 + b.toNat * 2 ^ 8 + c.toNat)
      (by omega) (decodeChar_encodeDigit _ _ _ _) (decodeChar_encodeDigit _ _ _ _)
      (decodeChar_encodeDigit _ _ _ _) (decodeChar_encodeDigit _ _ _ _) ih
    rw [ofNat_eq (b := a) (by omega), ofNat_eq (b := b) (by omega),
      ofNat_eq (b := c) (by omega)] at hgroup
    rw [lacking_cons]
    exact hgroup
  | case2 a b =>
    have ha := a.toNat_lt
    have hb := b.toNat_lt
    have hlack : lacking [a, b] = 1 := rfl
    have hlast : (a.toNat * 2 ^ 16 + b.toNat * 2 ^ 8) % 64 = 0 := by omega
    have hgroup := decodeGroups_group (p := 1) (r := []) (o := [])
      (n := a.toNat * 2 ^ 16 + b.toNat * 2 ^ 8) (by omega) (decodeChar_encodeDigit _ _ _ _)
      (decodeChar_encodeDigit _ _ _ _) (decodeChar_encodeDigit _ _ _ _)
      (hlast ▸ decodeChar_pad (by omega)) rfl
    rw [ofNat_eq (b := a) (by omega), ofNat_eq (b := b) (by omega),
      ofNat_eq (b := 0) (by rw [UInt8.toNat_zero]; omega)] at hgroup
    rw [hlack]
    exact hgroup
  | case3 a =>
    have ha := a.toNat_lt
    have hlack : lacking [a] = 2 := rfl
    have hlow : a.toNat * 2 ^ 16 / 2 ^ 6 % 64 = 0 := by omega
    have hlast : a.toNat * 2 ^ 16 % 64 = 0 := by omega
    have hgroup := decodeGroups_group (p := 2) (r := []) (o := [])
      (n := a.toNat * 2 ^ 16) (by omega) (decodeChar_encodeDigit _ _ _ _)
      (decodeChar_encodeDigit _ _ _ _) (hlow ▸ decodeChar_pad (by omega))
      (hlast ▸ decodeChar_pad (by omega)) rfl
    rw [ofNat_eq (b := a) (by omega), ofNat_eq (b := 0) (by rw [UInt8.toNat_zero]; omega),
      ofNat_eq (b := 0) (by rw [UInt8.toNat_zero]; omega)] at hgroup
    rw [hlack]
    exact hgroup
  | case4 => rfl

lemma length_encodeGroups (bytes : Bytes) :
    (encodeGroups bytes).length = (bytes.length + 2) / 3 * 4 := by
  induction bytes using encodeGroups.induct with
  | case1 a b c rest ih =>
    simp only [encodeGroups, List.length_cons, ih]
    omega
  | case2 a b => simp [encodeGroups]
  | case3 a => simp [encodeGroups]
  | case4 => rfl

/-- Whether there is padding is seen at the end of the last group. -/
lemma isSuffix_append {cs front back : List Char} (h : cs.length ≤ back.length) :
    cs <:+ front ++ back ↔ cs <:+ back :=
  ⟨fun hcs => List.suffix_of_suffix_length_le hcs (List.suffix_append front back) h,
    fun hcs => hcs.trans (List.suffix_append front back)⟩

lemma base64Padding_append {front back : List Char} (h : 2 ≤ back.length) :
    base64Padding (front ++ back) = base64Padding back := by
  have htwo : "==".toList <:+ front ++ back ↔ "==".toList <:+ back := isSuffix_append h
  have hone : "=".toList <:+ front ++ back ↔ "=".toList <:+ back :=
    isSuffix_append ((Nat.le_succ 1).trans h)
  simp only [base64Padding, htwo, hone]

/-- As many places at the end are padding as the last group lacks bytes. -/
lemma base64Padding_encodeGroups (bytes : Bytes) :
    base64Padding (encodeGroups bytes) = lacking bytes := by
  have hne (n : ℕ) : '=' ≠ encodeDigit n := (encodeDigit_ne n).symm
  induction bytes using encodeGroups.induct with
  | case1 a b c rest ih =>
    rw [lacking_cons]
    cases hrest : encodeGroups rest with
    | nil =>
      have hnil : rest = [] := by
        have hlength := length_encodeGroups rest
        rw [hrest, List.length_nil] at hlength
        exact List.length_eq_zero_iff.mp (by omega)
      subst hnil
      simp [base64Padding, encodeGroups, lacking, List.suffix_cons_iff, hne]
    | cons d groups =>
      have hlength := length_encodeGroups rest
      rw [hrest, List.length_cons] at hlength
      rw [← ih]
      have hlong : 2 ≤ (encodeGroups rest).length := by
        rw [hrest, List.length_cons]
        omega
      have happend (w x y z : Char) (groups : List Char) :
          w :: x :: y :: z :: groups = [w, x, y, z] ++ groups := rfl
      rw [encodeGroups, happend]
      exact base64Padding_append hlong
  | case2 a b => simp [base64Padding, encodeGroups, lacking, List.suffix_cons_iff, hne]
  | case3 a => simp [base64Padding, encodeGroups, lacking, List.suffix_cons_iff]
  | case4 => decide

/-- Every text of bytes decodes to them. -/
lemma decodeBase64Strict_encodeBase64 {bytes : Bytes} {n : ℕ} (h : bytes.length = n) :
    decodeBase64Strict (.string (encodeBase64 bytes)) (some n) = .ok bytes := by
  have hlength := length_encodeGroups bytes
  have htake : (encodeGroups bytes).length / 4 * 3 - lacking bytes = bytes.length := by
    simp only [lacking]
    omega
  have hout : (bytes ++ List.replicate (lacking bytes) 0).take
      ((encodeGroups bytes).length / 4 * 3 - lacking bytes) = bytes := by
    rw [htake, List.take_left]
  have hfour : (encodeGroups bytes).length % 4 = 0 := by omega
  simp [decodeBase64Strict, encodeBase64, hfour, base64Padding_encodeGroups,
    decodeGroups_encodeGroups, hout, h]

/-! ### Hexadecimal -/

def hexDigit (n : ℕ) : Char := "0123456789abcdef".toList.getD n '0'

def toHex (bytes : Bytes) : String :=
  String.ofList (bytes.flatMap fun b => [hexDigit (b.toNat / 16), hexDigit (b.toNat % 16)])

lemma hexDigit_injective {m n : ℕ} (hm : m < 16) (hn : n < 16) (h : hexDigit m = hexDigit n) :
    m = n := by
  have key : ∀ i j : Fin 16, hexDigit i = hexDigit j → i = j := by decide
  exact congrArg Fin.val (key ⟨m, hm⟩ ⟨n, hn⟩ h)

/-- Comparing keys as hexadecimal text compares the keys. -/
lemma toHex_injective : Function.Injective toHex := by
  intro bs cs h
  have hlist := String.ofList_injective h
  clear h
  induction bs generalizing cs with
  | nil => cases cs <;> simp_all
  | cons b bs ih =>
    cases cs with
    | nil => simp at hlist
    | cons c cs =>
      simp only [List.flatMap_cons, List.cons_append, List.nil_append, List.cons.injEq] at hlist
      obtain ⟨hhigh, hlow, hrest⟩ := hlist
      have hb : b.toNat < 256 := b.toNat_lt
      have hc : c.toNat < 256 := c.toNat_lt
      have e1 := hexDigit_injective (by omega) (by omega) hhigh
      have e2 := hexDigit_injective (by omega) (by omega) hlow
      have hbyte : b = c := UInt8.toNat_inj.mp (by omega)
      rw [hbyte, ih hrest]

/-! ### Keys and numbers -/

abbrev PublicKey := {bytes : Bytes // bytes.length = PUBLIC_KEY_LENGTH}

/-- A key as a caller gives it: base64 text, or bytes. -/
inductive KeyInput
  | text (s : String)
  | raw (bytes : Bytes)

def parsePublicKey : KeyInput → Except EncodingError PublicKey
  | .raw bytes =>
    if h : bytes.length = PUBLIC_KEY_LENGTH then .ok ⟨bytes, h⟩
    else .error ⟨s!"public key must be {PUBLIC_KEY_LENGTH} bytes, got {bytes.length}"⟩
  | .text s =>
    match h : decodeBase64Strict (.string s) (some PUBLIC_KEY_LENGTH) with
    | .ok bytes => .ok ⟨bytes, decodeBase64Strict_length h⟩
    | .error e => .error e

lemma encodeBase64_of_parse {s : String} {key : PublicKey}
    (h : parsePublicKey (.text s) = .ok key) : encodeBase64 key.val = s := by
  simp only [parsePublicKey] at h
  split at h
  · next bytes hbytes =>
    obtain rfl := Except.ok.inj h
    exact encodeBase64_of_decode hbytes
  · simp at h

abbrev SafeUint := {n : ℕ // n ≤ MAX_SAFE_INTEGER}

lemma SafeUint.one_le {m : SafeUint} (h : ¬m.val < 1) : 1 ≤ m.val := Nat.not_lt.mp h

lemma SafeUint.le_of_not_lt {m n : SafeUint} (h : ¬n.val < m.val) : m.val ≤ n.val :=
  Nat.not_lt.mp h

lemma SafeUint.lt_of_not_le {m n : SafeUint} (h : ¬n.val ≤ m.val) : m.val < n.val :=
  Nat.not_le.mp h

/-- `Number.isSafeInteger` of a number that is not negative. -/
def safeUint (x : ℚ) : Option SafeUint :=
  if h : x.num.toNat ≤ MAX_SAFE_INTEGER then
    if x.den = 1 ∧ 0 ≤ x.num then some ⟨x.num.toNat, h⟩ else none
  else none

def assertUint (value : Value) (label : String) : Except EncodingError SafeUint :=
  match value with
  | .number x =>
    match safeUint x with
    | some n => .ok n
    | none => .error ⟨label ++ " must be a non-negative safe integer"⟩
  | _ => .error ⟨label ++ " must be a non-negative safe integer"⟩

lemma safeUint_eq_some {x : ℚ} {n : SafeUint} (h : safeUint x = some n) : (n.val : ℚ) = x := by
  unfold safeUint at h
  split at h
  · split at h
    · next hint =>
      obtain rfl := Option.some.inj h
      have hnum : ((x.num.toNat : ℤ) : ℚ) = x := by
        rw [Int.toNat_of_nonneg hint.2]
        exact Rat.den_eq_one_iff x |>.mp hint.1
      exact_mod_cast hnum
    · simp at h
  · simp at h

lemma assertUint_eq_ok {value : Value} {label : String} {n : SafeUint}
    (h : assertUint value label = .ok n) : value = .number n.val := by
  unfold assertUint at h
  split at h
  · split at h
    · next m hm =>
      obtain rfl := Except.ok.inj h
      rw [safeUint_eq_some hm]
    · simp at h
  · simp at h

/-! ### Canonical bytes -/

/-- `length` of a string: characters outside the first plane count twice. -/
def utf16Length (s : String) : ℕ :=
  (s.toList.map fun c => if c.toNat < 0x10000 then 1 else 2).sum

def utf8 (s : String) : Bytes := s.toUTF8.data.toList

/-- What has been written so far. -/
structure CanonicalWriter where
  parts : Bytes := []

namespace CanonicalWriter

variable (w : CanonicalWriter)

def bytesPrefixed (bytes : Bytes) : CanonicalWriter := ⟨w.parts ++ be 4 bytes.length ++ bytes⟩

def string (value : String) : CanonicalWriter := w.bytesPrefixed (utf8 value)

/-- `fixed`, of a value whose length was checked when it was parsed. -/
def fixed {n : ℕ} (bytes : {bytes : Bytes // bytes.length = n}) : CanonicalWriter :=
  ⟨w.parts ++ bytes.val⟩

def uint (value : SafeUint) : CanonicalWriter := ⟨w.parts ++ be 8 value.val⟩

def finish : Bytes := w.parts

end CanonicalWriter

end Tnp.Crypto
