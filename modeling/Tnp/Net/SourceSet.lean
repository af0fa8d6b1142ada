import Mathlib.Data.Int.Bitwise
import Mathlib.Tactic.Ring
import Tnp.Lib.Fallible
import Tnp.Namespace.Policy
import Tnp.Net.AddressKeys

/-!
Lists of addresses and CIDR prefixes, and whether a source is in one.

Numbers are read as the runtime reads them, of any text that is not an address with a zone
identifier too. A source written as `::ffff:` and a quad is looked up as its IPv4 address; in any
other form a mapped address is an IPv6 address among the prefixes.
-/

namespace Tnp.Net

open Tnp.Lib Tnp.Lib.Ipv6 Tnp.Namespace

/-! ### Numbers -/

/-- The number nearest to an integer, of two equally near the even one. -/
def roundNumber (n : ℕ) : ℕ :=
  let excess := n.log2 - 52
  let kept := n >>> excess
  let lost := n % 2 ^ excess
  let nearest :=
    if 2 * lost < 2 ^ excess ∨ 2 * lost = 2 ^ excess ∧ kept % 2 = 0 then kept else kept + 1
  nearest <<< excess

/-- `BigInt(Number.parseInt(digits, 16))`, of digits without white space before them. -/
def parseHex (digits : List Char) : Except String ℤ :=
  let unsigned := if digits.head? = some '-' ∨ digits.head? = some '+' then digits.tail else digits
  let bare :=
    if unsigned.take 2 = ['0', 'x'] ∨ unsigned.take 2 = ['0', 'X'] then unsigned.drop 2
    else unsigned
  let read := bare.takeWhile isHex
  let n := roundNumber (groupValue read)
  if read = [] then
    .error "The number NaN cannot be converted to a BigInt because it is not an integer"
  else if 2 ^ 1024 ≤ n then
    .error "The number Infinity cannot be converted to a BigInt because it is not an integer"
  else .ok (if digits.head? = some '-' then -n else n)

/-- An address as an integer: 32 bits for IPv4, 128 for IPv6. -/
structure AddressValue where
  v6 : Bool
  value : ℤ
  deriving DecidableEq

def ipv4Value (address : String) : Option ℤ :=
  if isIPv4 address then
    some ((address.toList.splitOn '.').foldl
      (fun acc octet => Int.lor (acc <<< (8 : ℕ)) (Nat.ofDigitChars 10 octet 0)) 0)
  else none

/-- A text up to its last colon, and the dotted quad behind that. -/
def dottedTail (cs : List Char) : Option (List Char × List Char) :=
  let front := cs.rdropWhile (· ≠ ':')
  let rest := cs.rtakeWhile (· ≠ ':')
  let numbers := rest.splitOn '.'
  if front ≠ [] ∧ numbers.length = 4 ∧
      numbers.all fun number => 1 ≤ number.length && number.all Char.isDigit then some (front, rest)
  else none

/-- The integer of eight groups, and the last 32 bits of it replaced where there was a quad. -/
def groupsNumber (text : List Char) (tail : Option ℤ) : Except String (Option AddressValue) :=
  let groups := expandIPv6 text
  if groups.length ≠ 8 then .ok none
  else do
    let numbers ← groups.mapM parseHex
    let value := numbers.foldl (fun acc n => Int.lor (acc <<< (16 : ℕ)) n) 0
    match tail with
    | none => .ok (some ⟨true, value⟩)
    | some tail => .ok (some ⟨true, Int.lor (Int.land value (Int.lnot 0xffffffff)) tail⟩)

def addressValue (address : String) : Except String (Option AddressValue) :=
  match ipv4Value address with
  | some value => .ok (some ⟨false, value⟩)
  | none =>
    if !isIPv6 address then .ok none
    else
      let text := address.toList.map Char.toLower
      match dottedTail text with
      | none => groupsNumber text none
      | some (front, quad) =>
        -- what is behind the last colon is an IPv4 address or none at all
        match ipv4Value (String.ofList quad) with
        | none => .ok none
        | some tail => groupsNumber (front ++ "0:0".toList) (some tail)

/-! ### Lists of sources -/

/-- How many bits there are in the addresses of a family. -/
def widthOf (v6 : Bool) : ℕ := if v6 then 128 else 32

structure Prefix where
  v6 : Bool
  network : ℤ
  bits : ℕ
  deriving DecidableEq

inductive SourceListResult
  | ok (prefixes : List Prefix)
  | invalid (entries : List String)
  deriving DecidableEq

/-- A number from 0 to 999 without leading zeros. -/
def matchesLength (cs : List Char) : Bool :=
  cs == ['0'] || (cs.head?.any (fun c => '1' ≤ c && c ≤ '9') && cs.all Char.isDigit &&
    cs.length ≤ 3)

/-- The length that an entry states, or all bits where it states none. -/
def prefixLength (entry : List Char) (width : ℕ) : Option ℕ :=
  if '/' ∈ entry then
    let lengthText := (entry.dropWhile (· ≠ '/')).tail
    let bits := Nat.ofDigitChars 10 lengthText 0
    if !matchesLength lengthText ∨ width < bits then none else some bits
  else some width

/-- The prefix of an entry, or nothing where the entry is invalid. -/
def prefixOf (entry : String) : Except String (Option Prefix) := do
  let addressText := entry.toList.takeWhile (· ≠ '/')
  match ← addressValue (String.ofList addressText) with
  | none => .ok none
  | some address =>
    if '%' ∈ addressText then .ok none
    else
      let width := widthOf address.v6
      match prefixLength entry.toList width with
      | none => .ok none
      | some bits =>
        let hostMask := (1 : ℤ) <<< (width - bits) - 1
        if Int.land address.value hostMask ≠ 0 then .ok none
        else .ok (some ⟨address.v6, address.value, bits⟩)

/-- The entries of a list, between commas and white space. -/
def entriesOf (value : String) : List String :=
  ((value.toList.splitOnP fun c => isSpace c || c == ',').filter (· ≠ [])).map String.ofList

/-- A list of addresses and prefixes, of which any invalid entry fails the whole list. -/
def parseSourceList (value : Option String) : Except String SourceListResult := do
  let entries := entriesOf (value.getD "")
  let parsed ← entries.mapM fun entry => return (entry, ← prefixOf entry)
  let invalid := (parsed.filter (·.2.isNone)).map Prod.fst
  if invalid ≠ [] then return .invalid invalid else return .ok (parsed.filterMap Prod.snd)

/-- Addresses and prefixes that a source can be tested against. -/
structure SourceSet where
  prefixes : List Prefix

def SourceSet.new (entries : List String) : Except String SourceSet := do
  match ← parseSourceList (some (",".intercalate entries)) with
  | .ok prefixes => .ok ⟨prefixes⟩
  | .invalid invalid => .error ("invalid source entries: " ++ ", ".intercalate invalid)

/-- Whether an address falls in the set. -/
def SourceSet.has (set : SourceSet) (address : String) : Except String Bool :=
  if set.prefixes = [] then .ok false
  else do
    let mapped := (mappedQuad (1 ≤ ·) address).map String.ofList
    match ← addressValue (mapped.getD address) with
    | none => .ok false
    | some value =>
      let width := widthOf value.v6
      .ok (set.prefixes.any fun p =>
        p.v6 == value.v6 && value.value >>> (width - p.bits) == p.network >>> (width - p.bits))

/-! ### The integer of an address -/

section

variable {f : Ipv6Form} {v : ℕ}

/-- To shift and to put into what has become free is to count on. -/
lemma lor_shift {k b : ℕ} (a : ℕ) (hb : b < 2 ^ k) :
    Int.lor ((a : ℤ) <<< k) b = ((2 ^ k * a + b : ℕ) : ℤ) := by
  have hor : Int.lor ((a : ℤ) <<< k) b = ((a <<< k ||| b : ℕ) : ℤ) := rfl
  rw [hor, ← Nat.shiftLeft_add_eq_or_of_lt hb, Nat.shiftLeft_eq, Nat.mul_comm]

/-- Numbers of `k` bits are put together to one. -/
lemma foldl_lor {k : ℕ} {values : List ℕ} (h : ∀ n ∈ values, n < 2 ^ k) (a : ℕ) :
    (values.map Int.ofNat).foldl (fun acc n => Int.lor (acc <<< k) n) (a : ℤ) =
      ((values.foldl (fun acc n => 2 ^ k * acc + n) a : ℕ) : ℤ) := by
  induction values generalizing a with
  | nil => rfl
  | cons n values ih =>
    obtain ⟨hn, hrest⟩ := List.forall_mem_cons.mp h
    have hstep : Int.lor ((a : ℤ) <<< k) (Int.ofNat n) = ((2 ^ k * a + n : ℕ) : ℤ) :=
      lor_shift a hn
    rw [List.map_cons, List.foldl_cons, List.foldl_cons, hstep, ih hrest]

lemma ipv4Value_quad {s : String} (h : readQuad s.toList = some v) :
    ipv4Value s = some (v : ℤ) := by
  obtain ⟨hv, htext⟩ := readQuad_eq_some.mp h
  have hfour : isIPv4 s = true := by rw [isIPv4, h]; rfl
  have hlt : ∀ n ∈ [v / 16777216, v / 65536 % 256, v / 256 % 256, v % 256], n < 2 ^ 8 := by
    simp only [List.forall_mem_cons, List.not_mem_nil, IsEmpty.forall_iff, implies_true, and_true]
    omega
  have hfold := foldl_lor hlt 0
  rw [Nat.cast_zero] at hfold
  rw [ipv4Value, if_pos hfour, ← htext, splitOn_quadText]
  simp only [List.foldl_cons, List.foldl_nil, List.map_cons, List.map_nil, Int.ofNat_eq_natCast,
    Nat.ofDigitChars_ten_toDigits] at hfold ⊢
  rw [hfold]
  congr 2
  omega

lemma ipv4Value_none {s : String} (h : readQuad s.toList = none) : ipv4Value s = none := by
  have hfour : isIPv4 s = false := by rw [isIPv4, h]; rfl
  rw [ipv4Value, hfour]
  rfl

lemma roundNumber_of_lt {n : ℕ} (h : n < 2 ^ 53) : roundNumber n = n := by
  have hexcess : n.log2 - 52 = 0 := by
    by_cases hzero : n = 0
    · subst hzero
      decide
    · have hlog := (Nat.log2_lt hzero).mpr h
      omega
  unfold roundNumber
  rw [hexcess]
  simp [Nat.mod_one]

/-- A padded group is read as its value. -/
lemma parseHex_group {group : List Char} (h : IsGroup group) :
    parseHex ((group.map Char.toLower).leftpad 4 '0') = .ok (groupValue group : ℤ) := by
  have hall : ∀ c ∈ (group.map Char.toLower).leftpad 4 '0', isHex c = true := by
    intro c hc
    rcases List.mem_append.mp hc with hc | hc
    · rw [List.eq_of_mem_replicate hc]
      rfl
    · exact h.lower.isHex c hc
  have hvalue : groupValue ((group.map Char.toLower).leftpad 4 '0') = groupValue group := by
    rw [List.leftpad, groupValue_zeros, groupValue_lower h.isHex]
  have hne : (group.map Char.toLower).leftpad 4 '0' ≠ [] := by
    intro hnil
    exact h.lower.ne_nil (List.append_eq_nil_iff.mp hnil).2
  generalize (group.map Char.toLower).leftpad 4 '0' = digits at hall hvalue hne
  have hhead {c : Char} (hc : isHex c = false) : digits.head? ≠ some c := by
    intro hmem
    have hhex := hall c (List.mem_of_mem_head? hmem)
    rw [hc] at hhex
    exact Bool.false_ne_true hhex
  have hsecond {c : Char} (hc : isHex c = false) : digits.take 2 ≠ ['0', c] := by
    intro htake
    have hmem : c ∈ digits := List.mem_of_mem_take (i := 2) (by simp [htake])
    have hhex := hall c hmem
    rw [hc] at hhex
    exact Bool.false_ne_true hhex
  have hlt := h.lt
  unfold parseHex
  dsimp only
  rw [if_neg (not_or.mpr ⟨hhead (by decide), hhead (by decide)⟩),
    if_neg (not_or.mpr ⟨hsecond (by decide), hsecond (by decide)⟩),
    List.takeWhile_eq_self_iff.mpr hall, if_neg hne, hvalue, roundNumber_of_lt (by omega),
    if_neg (by norm_num; omega), if_neg (hhead (by decide))]

/-- Without a quad the groups that the text is expanded to are those of the address. -/
lemma codeGroups_values (h : f.Valid) (hquad : f.quad = none) :
    (∀ group ∈ codeGroups f, IsGroup group) ∧ (codeGroups f).map groupValue = f.values := by
  have hzero : groupValue ['0'] = 0 := by decide
  have hlast : f.last = [] := by rw [Ipv6Form.last, hquad]; rfl
  cases htail : f.tail with
  | none =>
    have hwidth := h.full htail
    simp only [Ipv6Form.width, htail, Option.getD_none, List.length_nil, hquad,
      Option.toList_none, Nat.mul_zero, Nat.add_zero] at hwidth
    have hcode : codeGroups f = f.head := by
      unfold codeGroups
      rw [htail]
      dsimp only
      rw [hlast, List.append_nil]
    rw [hcode]
    refine ⟨h.head, ?_⟩
    simp [Ipv6Form.values, Ipv6Form.width, htail, hquad, hwidth]
  | some tail =>
    have hgroups := h.tail
    rw [htail, Option.getD_some] at hgroups
    have hcode : codeGroups f =
        f.head ++ List.replicate (8 - f.head.length - tail.length) ['0'] ++ tail := by
      unfold codeGroups
      rw [htail]
      dsimp only
      rw [hlast, List.append_nil]
    rw [hcode]
    refine ⟨fun group hgroup => ?_, ?_⟩
    · rcases List.mem_append.mp hgroup with hgroup | hgroup
      · rcases List.mem_append.mp hgroup with hgroup | hgroup
        · exact h.head group hgroup
        · obtain rfl := List.eq_of_mem_replicate hgroup
          exact isGroup_zero
      · exact hgroups group hgroup
    · simp [Ipv6Form.values, Ipv6Form.width, htail, hquad, hzero, Nat.sub_add_eq]

/-- The groups of a text without a quad, read as numbers. -/
lemma groupsNumber_text (h : f.Valid) (hquad : f.quad = none) (tail : Option ℤ) :
    groupsNumber f.text tail = .ok (some ⟨true, tail.elim (f.number : ℤ) fun tail =>
      Int.lor (Int.land (f.number : ℤ) (Int.lnot 0xffffffff)) tail⟩) := by
  obtain ⟨hgroups, hvalues⟩ := codeGroups_values h hquad
  have hlength : (codeGroups f).length = 8 := by
    rw [← List.length_map groupValue, hvalues, h.length_values]
  have hread : ((codeGroups f).map fun part =>
      (part.map Char.toLower).leftpad 4 '0').mapM parseHex = .ok (f.values.map Int.ofNat) := by
    rw [List.mapM_map, ← hvalues, List.map_map]
    exact mapM_eq_ok fun group hgroup => parseHex_group (hgroups group hgroup)
  have hfold : (f.values.map Int.ofNat).foldl (fun acc n => Int.lor (acc <<< (16 : ℕ)) n) 0 =
      (f.number : ℤ) :=
    foldl_lor (fun n hn => h.lt_of_mem_values hn) 0
  unfold groupsNumber
  dsimp only
  rw [expandIPv6_text h, List.length_map, if_neg (by simp [hlength]), hread]
  cases tail with
  | none =>
    simp only [bind, Except.bind, hfold, Option.elim_none]
  | some tail =>
    simp only [bind, Except.bind, hfold, Option.elim_some]

/-- A text is cut behind its last colon. -/
lemma cut_at_last_colon (front : List Char) {quad : List Char} (h : ':' ∉ quad) :
    (front ++ ':' :: quad).rdropWhile (· ≠ ':') = front ++ [':'] ∧
      (front ++ ':' :: quad).rtakeWhile (· ≠ ':') = quad := by
  have hall : ∀ c ∈ quad.reverse, decide (c ≠ ':') = true :=
    fun c hc => decide_eq_true fun heq => h (heq ▸ List.mem_reverse.mp hc)
  have hreverse : (front ++ ':' :: quad).reverse = quad.reverse ++ ':' :: front.reverse := by simp
  constructor
  · rw [List.rdropWhile, hreverse, List.dropWhile_append_of_pos hall,
      List.dropWhile_cons_of_neg (by simp)]
    simp
  · rw [List.rtakeWhile, hreverse, List.takeWhile_append_of_pos hall,
      List.takeWhile_cons_of_neg (by simp)]
    simp

/-- Without a quad there is no dot. -/
lemma dottedTail_none (h : f.Valid) (hquad : f.quad = none) : dottedTail f.text = none := by
  have hdot : '.' ∉ f.text := by
    have hlast : f.last = [] := by rw [Ipv6Form.last, hquad]; rfl
    have hfree {groups : List (List Char)} (hgroups : ∀ group ∈ groups, IsGroup group) :
        '.' ∉ [':'].intercalate groups := by
      intro hmem
      rcases mem_intercalate hmem with heq | ⟨group, hgroup, hc⟩
      · exact absurd heq (by decide)
      · exact (hgroups group hgroup).notMem_dot hc
    unfold Ipv6Form.text
    split
    · rw [hlast, List.append_nil]
      exact hfree h.head
    next tail htail =>
      have hgroups := h.tail
      rw [htail, Option.getD_some] at hgroups
      rw [hlast, List.append_nil]
      simp [hfree h.head, hfree hgroups]
  have hone : (f.text.rtakeWhile (· ≠ ':')).splitOn '.' = [f.text.rtakeWhile (· ≠ ':')] :=
    List.splitOn_eq_singleton fun hmem => hdot ((List.rtakeWhile_suffix _ _).subset hmem)
  unfold dottedTail
  dsimp only
  rw [hone, if_neg]
  rintro ⟨-, hlength, -⟩
  simp at hlength

/-- A quad is behind the last colon, and in its place two groups fit. -/
lemma exists_front (h : f.Valid) (hquad : f.quad = some v) :
    ∃ (front : List Char) (g : Ipv6Form), f.text = front ++ ':' :: quadText v ∧
      g.text = front ++ ':' :: "0:0".toList ∧ g.Valid ∧ g.quad = none ∧
      ∃ high, f.values = high ++ [v / 65536, v % 65536] ∧ g.values = high ++ [0, 0] := by
  have hzero : groupValue ['0'] = 0 := by decide
  have hgroup : IsGroup ['0'] := isGroup_zero
  have hlast : f.last = [quadText v] := by rw [Ipv6Form.last, hquad]; rfl
  have hpair : "0:0".toList = [':'].intercalate [['0'], ['0']] := by decide
  have hall {groups : List (List Char)} (hgroups : ∀ group ∈ groups, IsGroup group) :
      ∀ group ∈ groups ++ [['0'], ['0']], IsGroup group := by
    intro group hmem
    rcases List.mem_append.mp hmem with hmem | hmem
    · exact hgroups group hmem
    · simp only [List.mem_cons, List.not_mem_nil, or_false, or_self] at hmem
      exact hmem ▸ hgroup
  cases htail : f.tail with
  | none =>
    have hwidth := h.full htail
    simp only [Ipv6Form.width, htail, Option.getD_none, List.length_nil, hquad,
      Option.toList_some, List.length_singleton] at hwidth
    have hne : f.head ≠ [] := by
      intro hnil
      simp [hnil] at hwidth
    refine ⟨[':'].intercalate f.head, ⟨f.head ++ [['0'], ['0']], none, none⟩, ?_, ?_,
      ⟨hall h.head, by simp, by simp, fun _ => ?_, by simp⟩, rfl, f.head.map groupValue, ?_, ?_⟩
    · rw [Ipv6Form.text, htail, hlast]
      dsimp only
      rw [intercalate_append hne (by simp), List.intercalate_singleton]
      simp
    · rw [Ipv6Form.text, Ipv6Form.last, hpair]
      dsimp only [Option.map_none, Option.toList_none]
      rw [List.append_nil, intercalate_append hne (by simp)]
      simp
    · simp only [Ipv6Form.width, List.length_append, List.length_cons, List.length_nil,
        Option.getD_none, Option.toList_none]
      omega
    · simp [Ipv6Form.values, Ipv6Form.width, htail, hquad]
      omega
    · simp [Ipv6Form.values, Ipv6Form.width, hzero]
      omega
  | some tail =>
    have hwidth := h.short (by simp [htail])
    simp only [Ipv6Form.width, htail, Option.getD_some, hquad, Option.toList_some,
      List.length_singleton] at hwidth
    have hgroups := h.tail
    rw [htail, Option.getD_some] at hgroups
    -- the last colon is the second of the `::` or the one behind the groups
    obtain ⟨front, hfront⟩ : ∃ front : List Char, ∀ parts : List (List Char), parts ≠ [] →
        [':'].intercalate f.head ++ ':' :: ':' :: [':'].intercalate (tail ++ parts) =
          front ++ ':' :: [':'].intercalate parts := by
      by_cases hnil : tail = []
      · exact ⟨[':'].intercalate f.head ++ [':'], fun parts _ => by simp [hnil]⟩
      · refine ⟨[':'].intercalate f.head ++ ':' :: ':' :: [':'].intercalate tail,
          fun parts hparts => ?_⟩
        rw [intercalate_append hnil hparts]
        simp
    refine ⟨front, ⟨f.head, some (tail ++ [['0'], ['0']]), none⟩, ?_, ?_,
      ⟨h.head, hall hgroups, by simp, by simp, fun _ => ?_⟩, rfl,
      f.head.map groupValue ++ List.replicate (8 - f.width) 0 ++ tail.map groupValue, ?_, ?_⟩
    · rw [Ipv6Form.text, htail, hlast]
      dsimp only
      rw [hfront _ (by simp), List.intercalate_singleton]
    · rw [Ipv6Form.text, Ipv6Form.last, hpair]
      dsimp only [Option.map_none, Option.toList_none]
      rw [List.append_nil, hfront _ (by simp)]
    · simp only [Ipv6Form.width, List.length_append, List.length_cons, List.length_nil,
        Option.getD_some, Option.toList_none]
      omega
    · simp [Ipv6Form.values, htail, hquad]
    · have hsame : (⟨f.head, some (tail ++ [['0'], ['0']]), none⟩ : Ipv6Form).width = f.width := by
        simp [Ipv6Form.width, htail, hquad]
        omega
      rw [Ipv6Form.values, hsame]
      simp [hzero]

def foldGroups (groups : List ℕ) : ℕ := groups.foldl (fun n group => 65536 * n + group) 0

/-- The last 32 bits are put where there are none. -/
lemma replace_low (hv : v < 4294967296) (n : ℕ) :
    Int.lor (Int.land ((2 ^ 32 * n : ℕ) : ℤ) (Int.lnot 0xffffffff)) v =
      ((2 ^ 32 * n + v : ℕ) : ℤ) := by
  have hclear : Nat.ldiff (2 ^ 32 * n) 4294967295 = 2 ^ 32 * n := by
    have hmask : 4294967295 = 2 ^ 32 - 1 := by norm_num
    rw [hmask, Nat.mul_comm, ← Nat.shiftLeft_eq]
    refine Nat.eq_of_testBit_eq fun i => ?_
    rw [Nat.testBit_ldiff, Nat.testBit_shiftLeft, Nat.testBit_two_pow_sub_one]
    by_cases hi : i < 32
    · simp [hi, Nat.not_le.mpr hi]
    · simp [hi]
  have hland : Int.land ((2 ^ 32 * n : ℕ) : ℤ) (Int.lnot 0xffffffff) =
      ((Nat.ldiff (2 ^ 32 * n) 4294967295 : ℕ) : ℤ) := rfl
  have hor : Int.lor ((2 ^ 32 * n : ℕ) : ℤ) v = ((2 ^ 32 * n ||| v : ℕ) : ℤ) := rfl
  rw [hland, hclear, hor, Nat.mul_comm, ← Nat.shiftLeft_eq,
    Nat.shiftLeft_add_eq_or_of_lt (by omega)]

/-- **The integer of an address.** A text of an IPv6 address is read as the address it denotes. -/
theorem addressValue_text {s : String} (h : f.Valid) (hs : f.text = s.toList) :
    addressValue s = .ok (some ⟨true, f.number⟩) := by
  have hnone : ipv4Value s = none := ipv4Value_none (hs ▸ readQuad_text h)
  have hlower := h.lower
  have hnumber : f.lower.number = f.number := by
    rw [Ipv6Form.number, h.values_lower, Ipv6Form.number]
  unfold addressValue
  rw [hnone]
  simp only [isIPv6_text h hs, Bool.not_true, Bool.false_eq_true, if_false]
  rw [← hs, ← Ipv6Form.text_lower]
  cases hquad : f.lower.quad with
  | none =>
    rw [dottedTail_none hlower hquad]
    dsimp only
    rw [groupsNumber_text hlower hquad, Option.elim_none, hnumber]
  | some v =>
    have hv := hlower.quad v hquad
    obtain ⟨front, g, htext, hgtext, hg, hgquad, high, hvalues, hgvalues⟩ :=
      exists_front hlower hquad
    obtain ⟨hfront, hrest⟩ := cut_at_last_colon front (colon_notMem_quadText v)
    have hdotted : dottedTail f.lower.text = some (front ++ [':'], quadText v) := by
      unfold dottedTail
      dsimp only
      rw [htext, hfront, hrest, splitOn_quadText, if_pos]
      refine ⟨by simp, rfl, ?_⟩
      have hdigits {n : ℕ} (hn : n < 256) : (decide (1 ≤ (Nat.toDigits 10 n).length) &&
          (Nat.toDigits 10 n).all Char.isDigit) = true :=
        digits_number (fun n hpos _ => decide_eq_true hpos) hn
      simp only [List.all_cons, List.all_nil, Bool.and_true]
      rw [hdigits (n := v / 16777216) (by omega), hdigits (n := v / 65536 % 256) (by omega),
        hdigits (n := v / 256 % 256) (by omega), hdigits (n := v % 256) (by omega)]
      rfl
    have hread : ipv4Value (String.ofList (quadText v)) = some (v : ℤ) :=
      ipv4Value_quad (readQuad_eq_some.mpr ⟨hv, String.toList_ofList.symm⟩)
    rw [hdotted]
    dsimp only
    rw [hread]
    dsimp only
    rw [List.append_assoc, List.singleton_append, ← hgtext, groupsNumber_text hg hgquad,
      Option.elim_some]
    have hsplit : g.number = 2 ^ 32 * foldGroups high ∧
        f.lower.number = 2 ^ 32 * foldGroups high + v := by
      rw [Ipv6Form.number, hgvalues, Ipv6Form.number, hvalues, List.foldl_append, List.foldl_append]
      simp only [List.foldl_cons, List.foldl_nil, foldGroups]
      omega
    rw [hsplit.1, replace_low hv, ← hsplit.2, hnumber]

/-! ### What a list covers -/

/-- An address, of which a mapped one is its IPv4 address. -/
inductive Address
  | ipv4 (value : ℕ)
  | ipv6 (value : ℕ)
  deriving DecidableEq

def addressOf (s : String) : Option Address :=
  match readQuad s.toList with
  | some v => some (.ipv4 v)
  | none => (Ipv6Form.parse s.toList).map fun f =>
    match networkOfValues f.values with
    | .ipv4 v => .ipv4 v
    | .ipv6 _ => .ipv6 f.number

/-- The addresses of a prefix. -/
def Prefix.Covers (p : Prefix) : Address → Prop
  | .ipv4 v => p.v6 = false ∧ p.network ≤ v ∧ (v : ℤ) < p.network + 2 ^ (32 - p.bits)
  | .ipv6 n => p.v6 = true ∧ p.network ≤ n ∧ (n : ℤ) < p.network + 2 ^ (128 - p.bits)

/-- A prefix without bits behind its length. -/
def Prefix.Sound (p : Prefix) : Prop :=
  ∃ n : ℕ, p.network = n ∧ 2 ^ (widthOf p.v6 - p.bits) ∣ n

lemma addressValue_natural {s : String} (hzone : '%' ∉ s.toList) {a : AddressValue}
    (h : addressValue s = .ok (some a)) : ∃ n : ℕ, a.value = n := by
  cases hread : readQuad s.toList with
  | some v =>
    rw [addressValue, ipv4Value_quad hread] at h
    obtain rfl := Option.some.inj (Except.ok.inj h)
    exact ⟨v, rfl⟩
  | none =>
    by_cases hsix : ∃ n, networkOf s = some n
    · obtain ⟨n, hn⟩ := hsix
      rw [networkOf, hread] at hn
      obtain ⟨f, hf, -⟩ := Option.map_eq_some_iff.mp hn
      obtain ⟨hvalid, hs⟩ := Ipv6Form.parse_eq_some.mp hf
      rw [addressValue_text hvalid hs] at h
      obtain rfl := Option.some.inj (Except.ok.inj h)
      exact ⟨f.number, rfl⟩
    · have hip : isIP s = 0 := not_not.mp (mt (isIP_iff hzone).mp hsix)
      have hno : isIPv6 s = false := by
        unfold isIP at hip
        split at hip
        · simp at hip
        split at hip
        · simp at hip
        next hsix => exact Bool.eq_false_iff.mpr hsix
      rw [addressValue, ipv4Value_none hread] at h
      simp [hno] at h

lemma land_mask (n k : ℕ) :
    Int.land (n : ℤ) ((1 : ℤ) <<< k - 1) = ((n % 2 ^ k : ℕ) : ℤ) := by
  have hpow : 1 ≤ 2 ^ k := Nat.one_le_two_pow
  have hmask : (1 : ℤ) <<< k - 1 = ((2 ^ k - 1 : ℕ) : ℤ) := by
    rw [Int.shiftLeft_eq, Nat.cast_sub hpow]
    simp
  have hland : Int.land (n : ℤ) ((2 ^ k - 1 : ℕ) : ℤ) = ((n &&& 2 ^ k - 1 : ℕ) : ℤ) := rfl
  rw [hmask, hland, Nat.and_two_pow_sub_one_eq_mod]

/-- What the list has of an entry is sound. -/
lemma prefixOf_sound {entry : String} {p : Prefix} (h : prefixOf entry = .ok (some p)) :
    p.Sound := by
  unfold prefixOf at h
  rw [bind_eq_ok] at h
  obtain ⟨address, haddress, h⟩ := h
  split at h
  · simp at h
  next a =>
    dsimp only at h
    by_cases hzone : '%' ∈ entry.toList.takeWhile (· ≠ '/')
    · rw [if_pos hzone] at h
      simp at h
    rw [if_neg hzone] at h
    split at h
    · simp at h
    next bits =>
      split at h
      · simp at h
      next hmask =>
        obtain rfl := Option.some.inj (Except.ok.inj h)
        have hfree : '%' ∉ (String.ofList (entry.toList.takeWhile (· ≠ '/'))).toList := by
          rwa [String.toList_ofList]
        obtain ⟨n, hn⟩ := addressValue_natural hfree haddress
        refine ⟨n, hn, ?_⟩
        rw [hn, land_mask, not_not] at hmask
        exact Nat.dvd_of_mod_eq_zero (by exact_mod_cast hmask)

lemma exists_of_forall₂ {α β : Type*} {R : α → β → Prop} {l : List α} {m : List β}
    (h : List.Forall₂ R l m) {b : β} (hb : b ∈ m) : ∃ a ∈ l, R a b := by
  induction h with
  | nil => simp at hb
  | cons hr _ ih =>
    rcases List.mem_cons.mp hb with rfl | hb
    · exact ⟨_, List.mem_cons_self, hr⟩
    · obtain ⟨a, ha, hab⟩ := ih hb
      exact ⟨a, List.mem_cons_of_mem _ ha, hab⟩

/-- And so is every prefix of a list. -/
lemma parseSourceList_sound {value : Option String} {prefixes : List Prefix}
    (h : parseSourceList value = .ok (.ok prefixes)) : ∀ p ∈ prefixes, p.Sound := by
  unfold parseSourceList at h
  simp only [bind_eq_ok] at h
  obtain ⟨parsed, hparsed, h⟩ := h
  split at h
  · simp [pure, Except.pure] at h
  · obtain rfl := SourceListResult.ok.inj (Except.ok.inj h)
    intro p hp
    obtain ⟨⟨entry, found⟩, hmem, rfl⟩ := List.mem_filterMap.mp hp
    rw [mapM_eq_ok_iff] at hparsed
    obtain ⟨e, -, he⟩ := exists_of_forall₂ hparsed hmem
    rw [bind_eq_ok] at he
    obtain ⟨q, hq, heq⟩ := he
    obtain ⟨rfl, rfl⟩ := Prod.mk.inj (Except.ok.inj heq)
    exact prefixOf_sound hq

/-- The bits in front agree where the address is in the range. -/
lemma shift_eq_iff {k n : ℕ} (hdvd : 2 ^ k ∣ n) (x : ℕ) :
    (x : ℤ) >>> k = (n : ℤ) >>> k ↔ (n : ℤ) ≤ x ∧ (x : ℤ) < n + 2 ^ k := by
  have hx : (x : ℤ) >>> k = ((x >>> k : ℕ) : ℤ) := rfl
  have hn : (n : ℤ) >>> k = ((n >>> k : ℕ) : ℤ) := rfl
  have hpos : 0 < 2 ^ k := Nat.two_pow_pos k
  obtain ⟨m, rfl⟩ := hdvd
  have hiff : x / 2 ^ k = m ↔ 2 ^ k * m ≤ x ∧ x < 2 ^ k * m + 2 ^ k := by
    rw [Nat.div_eq_iff hpos, Nat.mul_comm]
    omega
  rw [hx, hn, Nat.cast_inj, Nat.shiftRight_eq_div_pow, Nat.shiftRight_eq_div_pow,
    Nat.mul_div_cancel_left m hpos, hiff]
  norm_cast

/-- The integer that a prefix is asked for is an address that it covers. -/
def valueOf : AddressValue → Address → Prop
  | ⟨false, x⟩, .ipv4 v => x = v
  | ⟨true, x⟩, .ipv6 n => x = n
  | _, _ => False

lemma any_iff {prefixes : List Prefix} (hsound : ∀ p ∈ prefixes, p.Sound) {value : AddressValue}
    {x : Address} (hx : valueOf value x) :
    (prefixes.any fun p => p.v6 == value.v6 &&
      value.value >>> (widthOf value.v6 - p.bits) == p.network >>> (widthOf value.v6 - p.bits)) =
        true ↔ ∃ p ∈ prefixes, p.Covers x := by
  rw [List.any_eq_true]
  refine exists_congr fun p => and_congr_right fun hp => ?_
  obtain ⟨n, hn, hdvd⟩ := hsound p hp
  rw [Bool.and_eq_true, beq_iff_eq, beq_iff_eq]
  match value, x, hx with
  | ⟨false, _⟩, .ipv4 v, rfl =>
    simp only [Prefix.Covers]
    refine and_congr_right fun hv6 => ?_
    rw [hv6] at hdvd
    rw [hn]
    exact shift_eq_iff hdvd v
  | ⟨true, _⟩, .ipv6 m, rfl =>
    simp only [Prefix.Covers]
    refine and_congr_right fun hv6 => ?_
    rw [hv6] at hdvd
    rw [hn]
    exact shift_eq_iff hdvd m

/-- What an address is looked up as. -/
inductive LookedUpAs : String → Address → Prop
  | quad {s : String} {v : ℕ} : readQuad s.toList = some v → LookedUpAs s (.ipv4 v)
  | dotted {s : String} {f : Ipv6Form} {v : ℕ} :
      f.Valid → f.text = s.toList → Dotted f v → LookedUpAs s (.ipv4 v)
  | form {s : String} {f : Ipv6Form} :
      f.Valid → f.text = s.toList → (∀ v, ¬ Dotted f v) → LookedUpAs s (.ipv6 f.number)

/-- A source is in the set where the address it is looked up as is covered. -/
lemma SourceSet.has_iff {prefixes : List Prefix} (hsound : ∀ p ∈ prefixes, p.Sound) {s : String}
    {x : Address} (hx : LookedUpAs s x) :
    SourceSet.has ⟨prefixes⟩ s = .ok true ↔ ∃ p ∈ prefixes, p.Covers x := by
  obtain ⟨value, hvalue, hof⟩ : ∃ value : AddressValue,
      addressValue (((mappedQuad (1 ≤ ·) s).map String.ofList).getD s) = .ok (some value) ∧
        valueOf value x := by
    have hdigits (n : ℕ) (hpos : 1 ≤ n) (_ : n ≤ 3) : decide (1 ≤ n) = true := decide_eq_true hpos
    cases hx with
    | @quad v h =>
      refine ⟨⟨false, v⟩, ?_, rfl⟩
      rw [mappedQuad_quad h, Option.map_none, Option.getD_none, addressValue, ipv4Value_quad h]
    | @dotted f v h hs hv =>
      refine ⟨⟨false, v⟩, ?_, rfl⟩
      have hread : readQuad (String.ofList (quadText v)).toList = some v :=
        readQuad_eq_some.mpr ⟨h.quad v hv.2.1, String.toList_ofList.symm⟩
      rw [mappedQuad_dotted hdigits h hs hv, Option.map_some, Option.getD_some, addressValue,
        ipv4Value_quad hread]
    | @form f h hs hnot =>
      refine ⟨⟨true, f.number⟩, ?_, rfl⟩
      rw [mappedQuad_form h hs hnot, Option.map_none, Option.getD_none, addressValue_text h hs]
  unfold has
  dsimp only
  by_cases hnil : prefixes = []
  · subst hnil
    simp
  · rw [if_neg hnil, hvalue, ← any_iff hsound hof]
    simp [bind, Except.bind]

/-- An IPv4-mapped address that is not written as `::ffff:` and a quad. -/
def MappedOtherwise (s : String) (v n : ℕ) : Prop :=
  ∃ f, Ipv6Form.parse s.toList = some f ∧ networkOfValues f.values = .ipv4 v ∧ ¬ Dotted f v ∧
    f.number = n

/-- **Membership.** An address is found in a list exactly where the list covers it, unless it is a
mapped address in another form, and the list covers it as one of IPv4 and of IPv6 and not as the
other. -/
theorem SourceSet.has_exact {value : Option String} {prefixes : List Prefix}
    (h : parseSourceList value = .ok (.ok prefixes)) {s : String} {x : Address}
    (hx : addressOf s = some x) :
    (SourceSet.has ⟨prefixes⟩ s = .ok true ↔ ∃ p ∈ prefixes, p.Covers x) ↔
      ∀ v n, MappedOtherwise s v n →
        ((∃ p ∈ prefixes, p.Covers (.ipv4 v)) ↔ ∃ p ∈ prefixes, p.Covers (.ipv6 n)) := by
  have hsound := parseSourceList_sound h
  unfold addressOf at hx
  split at hx
  next v hv =>
    obtain rfl := Option.some.inj hx
    refine iff_of_true (has_iff hsound (.quad hv)) ?_
    rintro w n ⟨f, hf, -⟩
    obtain ⟨hvalid, htext⟩ := Ipv6Form.parse_eq_some.mp hf
    exact absurd (htext ▸ hvalid.colon_mem_text) (colon_notMem_of_readQuad hv)
  · obtain ⟨f, hf, rfl⟩ := Option.map_eq_some_iff.mp hx
    obtain ⟨hvalid, hs⟩ := Ipv6Form.parse_eq_some.mp hf
    by_cases hdotted : ∃ v, Dotted f v
    · obtain ⟨v, hv⟩ := hdotted
      rw [networkOfValues_dotted hvalid hv]
      refine iff_of_true (has_iff hsound (.dotted hvalid hs hv)) ?_
      rintro w n ⟨e, he, hnetwork, hnot, -⟩
      obtain rfl : f = e := Option.some.inj (hf.symm.trans he)
      rw [networkOfValues_dotted hvalid hv] at hnetwork
      exact absurd (Network.ipv4.inj hnetwork ▸ hv) hnot
    · have hlook := has_iff hsound (.form hvalid hs (not_exists.mp hdotted))
      rw [hlook]
      rcases networkOfValues_cases f.values with ⟨v, hv⟩ | hsix
      · rw [hv]
        constructor
        · rintro hiff w n ⟨e, he, hnetwork, -, rfl⟩
          obtain rfl : f = e := Option.some.inj (hf.symm.trans he)
          rw [hv] at hnetwork
          obtain rfl := Network.ipv4.inj hnetwork
          exact hiff.symm
        · intro hall
          exact (hall v f.number ⟨f, hf, hv, fun hd => hdotted ⟨v, hd⟩, rfl⟩).symm
      · rw [hsix]
        refine iff_of_true Iff.rfl ?_
        rintro w n ⟨e, he, hnetwork, -⟩
        obtain rfl : f = e := Option.some.inj (hf.symm.trans he)
        rw [hsix] at hnetwork
        simp at hnetwork

end

/-- **Networks.** The keys of an address tell its network apart exactly where it is plainly written,
and it is found in a list as the address it is, unless it is a mapped address in another form. -/
theorem addressKey_exact {a : String} (hzone : '%' ∉ a.toList) (hip : isIP a ≠ 0) :
    (Plain a ↔ ∀ b, '%' ∉ b.toList → isIP b ≠ 0 → Plain b →
      (addressKey a = addressKey b ↔ networkOf a = networkOf b)) ∧
    (Plain a ↔ ∀ b, '%' ∉ b.toList → isIP b ≠ 0 → Plain b →
      (rateLimitKey a = rateLimitKey b ↔ networkOf a = networkOf b)) ∧
    ∀ value prefixes, parseSourceList value = .ok (.ok prefixes) →
      ((SourceSet.has ⟨prefixes⟩ a = .ok true ↔
          ∃ x, addressOf a = some x ∧ ∃ p ∈ prefixes, p.Covers x) ↔
        ∀ v n, MappedOtherwise a v n →
          ((∃ p ∈ prefixes, p.Covers (.ipv4 v)) ↔ ∃ p ∈ prefixes, p.Covers (.ipv6 n))) := by
  obtain ⟨n, hn⟩ := (isIP_iff hzone).mp hip
  have hkey {key : String → String} {write : ℕ → List Char} (hwrite : Writes write)
      (hcut : ∀ s n, KeyedAs s n → key s = keyText write n) :
      Plain a ↔ ∀ b, '%' ∉ b.toList → isIP b ≠ 0 → Plain b →
        (key a = key b ↔ networkOf a = networkOf b) := by
    rw [key_exact hwrite hcut hn]
    constructor
    · intro hall b hb hipb hplain
      obtain ⟨m, hm⟩ := (isIP_iff hb).mp hipb
      rw [hall b m hm hplain, hn, hm, Option.some.injEq]
    · intro hall b m hm hplain
      have hb := percent_notMem hm
      rw [hall b hb ((isIP_iff hb).mpr ⟨m, hm⟩) hplain, hn, hm, Option.some.injEq]
  refine ⟨hkey writes_toDigits fun s n => addressKey_eq,
    hkey writes_padded fun s n => rateLimitKey_eq, fun value prefixes hparse => ?_⟩
  obtain ⟨x, hx⟩ : ∃ x, addressOf a = some x := by
    unfold networkOf at hn
    unfold addressOf
    cases hread : readQuad a.toList with
    | some v => exact ⟨_, rfl⟩
    | none =>
      rw [hread] at hn
      obtain ⟨f, hf, -⟩ := Option.map_eq_some_iff.mp hn
      rw [hf]
      exact ⟨_, rfl⟩
  rw [← SourceSet.has_exact hparse hx, hx]
  simp

theorem addressKey_exact_loopback : Plain "::1" ↔ ∀ b, '%' ∉ b.toList → isIP b ≠ 0 → Plain b →
    (addressKey "::1" = addressKey b ↔ networkOf "::1" = networkOf b) :=
  (@addressKey_exact "::1" (by decide) (by decide)).1

/-- Two mapped addresses in hexadecimal share a key, one address with a quad shares its key with
another network, and a mapped address in hexadecimal is not found in the list of its network. -/
theorem addressKey_shared :
    (addressKey "::ffff:c000:201" = addressKey "::ffff:c000:202" ∧
      rateLimitKey "::ffff:c000:201" = rateLimitKey "::ffff:c000:202" ∧
      networkOf "::ffff:c000:201" = some (.ipv4 3221225985) ∧
      networkOf "::ffff:c000:202" = some (.ipv4 3221225986)) ∧
    (addressKey "1::3:4:5:192.0.2.1" = addressKey "1::1" ∧
      rateLimitKey "1::3:4:5:192.0.2.1" = rateLimitKey "1::1" ∧
      networkOf "1::3:4:5:192.0.2.1" = some (.ipv6 [1, 0, 0, 3]) ∧
      networkOf "1::1" = some (.ipv6 [1, 0, 0, 0])) ∧
    parseSourceList (some "192.0.2.0/24") = .ok (.ok [⟨false, 3221225984, 24⟩]) ∧
      SourceSet.has ⟨[⟨false, 3221225984, 24⟩]⟩ "::ffff:c000:201" = .ok false := by
  refine ⟨⟨?_, ?_, ?_, ?_⟩, ⟨?_, ?_, ?_, ?_⟩, ?_, ?_⟩ <;> decide +kernel

end Tnp.Net
