import Mathlib.Data.List.DropRight
import Tnp.Lib.Ipv6Text
import Tnp.SharedTypes.Vpn

/-!
The keys under which clients and sources are limited: an IPv4 address, or the /64 of an IPv6 one.

Both keys are cut out of the text. A text is plain where the cut finds the network the text means.
It does not for an IPv4-mapped address that is not written as `::ffff:` and a quad, and not for one
that has a `::` and a quad, with more between them than the last two groups of zero or more: the
quad fills two groups, and is counted as one.
-/

namespace Tnp.Net

open Tnp.Lib Tnp.Lib.Ipv6
open Tnp.SharedTypes (head_toDigits)

/-! ### Addresses as the runtime knows them -/

def isIPv4 (s : String) : Bool := (readQuad s.toList).isSome

/-- Letters, digits, and what else a zone identifier may have. -/
def isZoneChar (c : Char) : Bool := c.isAlphanum || c == '-' || c == '.' || c == ':'

def isIPv6 (s : String) : Bool :=
  let zone := s.toList.dropWhile (· ≠ '%')
  (Ipv6Form.parse (s.toList.takeWhile (· ≠ '%'))).isSome &&
    (zone.isEmpty || (!zone.tail.isEmpty && zone.tail.all isZoneChar))

def isIP (s : String) : ℕ := if isIPv4 s then 4 else if isIPv6 s then 6 else 0

/-! ### The keys -/

/-- The dotted quad behind `::ffff:`, with as many digits in each number as `digits` allows. -/
def mappedQuad (digits : ℕ → Bool) (address : String) : Option (List Char) :=
  let rest := address.toList.drop 7
  let numbers := rest.splitOn '.'
  if (address.toList.take 7).map Char.toLower = "::ffff:".toList ∧ numbers.length = 4 ∧
      numbers.all fun number => digits number.length && number.all Char.isDigit then some rest
  else none

def unmapIpv4 (address : String) : String :=
  ((mappedQuad (fun n => 1 ≤ n && n ≤ 3) address).map String.ofList).getD address

/-- The first two parts of a text split at `::`, of which the second may be missing. -/
def splitDoubleColon (cs : List Char) : List Char × List Char :=
  match cutPair ':' cs with
  | none => (cs, [])
  | some (head, after) => (head, ((cutPair ':' after).map Prod.fst).getD after)

/-- A group without the zeros it begins with, except for a last one. -/
def stripZeros (group : List Char) : List Char :=
  let rest := group.dropWhile (· = '0')
  if rest = [] then group.drop (group.length - 1) else rest

/-- The /64 an IPv6 address belongs to, as a stable key. -/
def ipv6Prefix64 (address : String) : String :=
  let (head, tail) := splitDoubleColon (address.toList.map Char.toLower)
  let left := partsOf ':' head
  let right := partsOf ':' tail
  let groups :=
    if (cutPair ':' address.toList).isSome then
      left ++ List.replicate (8 - left.length - right.length) ['0'] ++ right
    else left
  String.ofList ([':'].intercalate ((groups.take 4).map stripZeros)) ++ "::/64"

/-- The rate-limit key for an address: itself for IPv4, its /64 for IPv6. -/
def addressKey (address : String) : String :=
  let unmapped := unmapIpv4 address
  if isIP unmapped = 6 then ipv6Prefix64 unmapped else unmapped

def expandIPv6 (cs : List Char) : List (List Char) :=
  let (head, tail) := splitDoubleColon cs
  let left := partsOf ':' head
  let right := partsOf ':' tail
  let missing := if (cutPair ':' cs).isSome then 8 - left.length - right.length else 0
  (left ++ List.replicate missing ['0'] ++ right).map fun part =>
    (part.map Char.toLower).leftpad 4 '0'

/-- The unit a source is limited as: an IPv4 address, or an IPv6 /64. -/
def rateLimitKey (address : String) : String :=
  match mappedQuad (1 ≤ ·) address with
  | some quad => String.ofList quad
  | none =>
    if !isIPv6 address then address
    else String.ofList ([':'].intercalate ((expandIPv6 address.toList).take 4)) ++ "::/64"

/-! ### What an address means -/

/-- What is limited as one: an IPv4 address, or the first four groups of an IPv6 address. -/
inductive Network
  | ipv4 (address : ℕ)
  | ipv6 (groups : List ℕ)
  deriving DecidableEq

/-- A mapped address counts as its IPv4 address. -/
def networkOfValues : List ℕ → Network
  | [0, 0, 0, 0, 0, 65535, high, low] => .ipv4 (high * 65536 + low)
  | values => .ipv6 (values.take 4)

/-- The network of an address without a zone identifier. -/
def networkOf (s : String) : Option Network :=
  match readQuad s.toList with
  | some v => some (.ipv4 v)
  | none => (Ipv6Form.parse s.toList).map fun f => networkOfValues f.values

/-- A text is written as `::ffff:` and a quad. -/
def Dotted (f : Ipv6Form) (v : ℕ) : Prop :=
  f.head = [] ∧ f.quad = some v ∧
    ∃ group, f.tail = some [group] ∧ group.map Char.toLower = ['f', 'f', 'f', 'f']

/-- The cut finds what the text means: a mapped address is written as `::ffff:` and a quad, and
where there is a quad, the groups before it and behind a `::` are zero except for the last two. -/
structure PlainForm (f : Ipv6Form) : Prop where
  mapped : ∀ v, networkOfValues f.values = .ipv4 v → Dotted f v
  unshifted : f.quad ≠ none →
    ∀ group ∈ (f.tail.getD []).take ((f.tail.getD []).length - 2), groupValue group = 0

def Plain (s : String) : Prop := ∀ f, Ipv6Form.parse s.toList = some f → PlainForm f

/-! ### What the cut finds -/

section

variable {f : Ipv6Form} {v : ℕ}

lemma colon_notMem_of_readQuad {cs : List Char} (h : readQuad cs = some v) : ':' ∉ cs :=
  (readQuad_eq_some.mp h).2 ▸ colon_notMem_quadText v

lemma readQuad_text (h : f.Valid) : readQuad f.text = none := by
  cases hread : readQuad f.text with
  | none => rfl
  | some v => exact absurd h.colon_mem_text (colon_notMem_of_readQuad hread)

lemma isAddressChar_text (h : f.Valid) {c : Char} (hc : c ∈ f.text) :
    isHex c = true ∨ c = '.' ∨ c = ':' := by
  have hlast {parts : List (List Char)} (hgroups : ∀ group ∈ parts, IsGroup group)
      (hmem : c ∈ [':'].intercalate (parts ++ f.last)) : isHex c = true ∨ c = '.' ∨ c = ':' := by
    rcases mem_intercalate hmem with rfl | ⟨part, hpart, hcp⟩
    · exact .inr (.inr rfl)
    rcases List.mem_append.mp hpart with hpart | hpart
    · exact .inl ((hgroups part hpart).isHex c hcp)
    · obtain ⟨w, -, rfl⟩ : ∃ w, w ∈ f.quad.toList ∧ quadText w = part := by
        simpa [Ipv6Form.last] using hpart
      rcases isDigit_quadText hcp with hdigit | rfl
      · exact .inl (by simp [isHex, hdigit])
      · exact .inr (.inl rfl)
  unfold Ipv6Form.text at hc
  split at hc
  · exact hlast h.head hc
  next tail htail =>
    simp only [List.mem_append, List.mem_cons] at hc
    rcases hc with hc | rfl | rfl | hc
    · rcases mem_intercalate hc with rfl | ⟨part, hpart, hcp⟩
      · exact .inr (.inr rfl)
      · exact .inl ((h.head part hpart).isHex c hcp)
    · exact .inr (.inr rfl)
    · exact .inr (.inr rfl)
    · exact hlast (by simpa [htail] using h.tail) hc

lemma isIPv6_text {s : String} (h : f.Valid) (hs : f.text = s.toList) : isIPv6 s = true := by
  have hchars : ∀ c ∈ s.toList, (decide (c ≠ '%')) = true := by
    intro c hc
    refine decide_eq_true ?_
    rintro rfl
    rcases isAddressChar_text h (hs ▸ hc) with hhex | heq | heq
    · exact absurd hhex (by decide)
    · exact absurd heq (by decide)
    · exact absurd heq (by decide)
  have hparse : Ipv6Form.parse s.toList = some f := Ipv6Form.parse_eq_some.mpr ⟨h, hs⟩
  simp only [isIPv6, List.takeWhile_eq_self_iff.mpr hchars, List.dropWhile_eq_nil_iff.mpr hchars,
    hparse]
  rfl

/-- The parts that the cut has before and behind a `::`. -/
lemma splitDoubleColon_text (h : f.Valid) :
    splitDoubleColon f.text =
      f.tail.elim (f.text, []) fun tail =>
        ([':'].intercalate f.head, [':'].intercalate (tail ++ f.last)) := by
  unfold splitDoubleColon
  rw [h.cut_text]
  cases htail : f.tail with
  | none => rfl
  | some tail =>
    have hgroups := h.tail
    rw [htail, Option.getD_some] at hgroups
    simp [(h.parted_append hgroups).cutPair_none]

/-- The groups that the keys are made of, a quad among them as one. -/
def codeGroups (f : Ipv6Form) : List (List Char) :=
  match f.tail with
  | none => f.head ++ f.last
  | some tail =>
    f.head ++ List.replicate (8 - f.head.length - (tail ++ f.last).length) ['0'] ++
      (tail ++ f.last)

lemma ipv6Prefix64_text {s : String} (h : f.Valid) (hs : f.text = s.toList) :
    ipv6Prefix64 s =
      String.ofList ([':'].intercalate (((codeGroups f.lower).take 4).map stripZeros)) ++
        "::/64" := by
  have hlower := h.lower
  have hcut := hlower.cut_text
  have hcutSome : (cutPair ':' s.toList).isSome = f.tail.isSome := by
    rw [← hs, h.cut_text, Option.isSome_map]
  have hsplit := splitDoubleColon_text hlower
  rw [Ipv6Form.text_lower, hs] at hsplit
  simp only [ipv6Prefix64, hsplit, hcutSome, codeGroups]
  cases htail : f.tail with
  | none =>
    have hnone : f.lower.tail = none := by simp [Ipv6Form.lower, htail]
    have htext : s.toList.map Char.toLower = [':'].intercalate (f.lower.head ++ f.lower.last) := by
      rw [← hs, ← Ipv6Form.text_lower, Ipv6Form.text, hnone]
    simp only [hnone, Option.elim_none, htext,
      (hlower.parted_append hlower.head).partsOf_intercalate]
    rfl
  | some tail =>
    obtain ⟨low, hlow⟩ : ∃ low, f.lower.tail = some low := by simp [Ipv6Form.lower, htail]
    have hgroups := hlower.tail
    rw [hlow, Option.getD_some] at hgroups
    simp only [hlow, Option.elim_some, Option.isSome_some, if_true,
      (Ipv6Form.parted_groups hlower.head).partsOf_intercalate,
      (hlower.parted_append hgroups).partsOf_intercalate]

lemma expandIPv6_text (h : f.Valid) :
    expandIPv6 f.text =
      (codeGroups f).map fun part => (part.map Char.toLower).leftpad 4 '0' := by
  have hcut : (cutPair ':' f.text).isSome = f.tail.isSome := by
    rw [h.cut_text, Option.isSome_map]
  simp only [expandIPv6, splitDoubleColon_text h, hcut, codeGroups]
  cases htail : f.tail with
  | none =>
    have htext : f.text = [':'].intercalate (f.head ++ f.last) := by rw [Ipv6Form.text, htail]
    simp only [Option.elim_none, htext, (h.parted_append h.head).partsOf_intercalate]
    simp [partsOf]
  | some tail =>
    have hgroups := h.tail
    rw [htail, Option.getD_some] at hgroups
    simp only [Option.elim_some, Option.isSome_some, if_true,
      (Ipv6Form.parted_groups h.head).partsOf_intercalate,
      (h.parted_append hgroups).partsOf_intercalate]

lemma codeGroups_lower (f : Ipv6Form) :
    codeGroups f.lower = (codeGroups f).map (List.map Char.toLower) := by
  have hzero : ['0'].map Char.toLower = ['0'] := by decide
  obtain ⟨head, tail, quad⟩ := f
  cases tail with
  | none =>
    have hlast := Ipv6Form.last_lower ⟨head, none, quad⟩
    simp only [codeGroups, List.map_append, ← hlast]
    rfl
  | some tail =>
    have hlast := Ipv6Form.last_lower ⟨head, some tail, quad⟩
    have hlength := congrArg List.length hlast
    rw [List.length_map] at hlength
    simp only [codeGroups, List.map_append, List.map_replicate, hzero, ← hlast, List.length_append,
      ← hlength]
    simp [Ipv6Form.lower]

/-- The first four groups of a key are groups. -/
lemma isGroup_codeGroups (h : f.Valid) : ∀ group ∈ (codeGroups f).take 4, IsGroup group := by
  have hlast : f.last.length = f.quad.toList.length := by
    unfold Ipv6Form.last
    cases f.quad <;> rfl
  have hone : f.quad.toList.length ≤ 1 := by cases f.quad <;> simp
  unfold codeGroups
  split
  next htail =>
    have hwidth := h.full htail
    rw [Ipv6Form.width, htail, Option.getD_none, List.length_nil, Nat.add_zero] at hwidth
    rw [List.take_append_of_le_length (by omega)]
    exact fun group hgroup => h.head group (List.mem_of_mem_take hgroup)
  next tail htail =>
    have hwidth := h.short (by simp [htail])
    rw [Ipv6Form.width, htail, Option.getD_some] at hwidth
    have hgroups := h.tail
    rw [htail, Option.getD_some] at hgroups
    rw [← List.append_assoc, List.take_append_of_le_length]
    · intro group hgroup
      rcases List.mem_append.mp (List.mem_of_mem_take hgroup) with hgroup | hgroup
      · rcases List.mem_append.mp hgroup with hgroup | hgroup
        · exact h.head group hgroup
        · obtain rfl := List.eq_of_mem_replicate hgroup
          exact isGroup_zero
      · exact hgroups group hgroup
    · simp only [List.length_append, List.length_replicate]
      omega

/-- The numbers of the first four groups of a key. -/
def keyValues (f : Ipv6Form) : List ℕ := ((codeGroups f).take 4).map groupValue

lemma length_keyValues (h : f.Valid) : (keyValues f).length = 4 := by
  have hlast : f.last.length = f.quad.toList.length := by
    unfold Ipv6Form.last
    cases f.quad <;> rfl
  have hone : f.quad.toList.length ≤ 1 := by cases f.quad <;> simp
  have hlength : 4 ≤ (codeGroups f).length := by
    unfold codeGroups
    split
    next htail =>
      have hwidth := h.full htail
      rw [Ipv6Form.width, htail, Option.getD_none, List.length_nil, Nat.add_zero] at hwidth
      rw [List.length_append]
      omega
    · simp only [List.length_append, List.length_replicate]
      omega
  rw [keyValues, List.length_map, List.length_take]
  omega

/-- A zero put before a list shows in its front unless that is zeros. -/
lemma take_cons_zero {k : ℕ} {l : List ℕ} (h : k ≤ l.length) :
    (0 :: l).take k = l.take k ↔ ∀ n ∈ l.take k, n = 0 := by
  induction l generalizing k with
  | nil =>
    obtain rfl := Nat.le_zero.mp h
    simp
  | cons n l ih =>
    cases k with
    | zero => simp
    | succ k =>
      rw [List.take_succ_cons, List.take_succ_cons, List.forall_mem_cons, List.cons.injEq,
        eq_comm (a := 0)]
      refine and_congr_right fun hn => ?_
      subst hn
      exact ih (Nat.le_of_succ_le_succ h)

/-- Four groups of a list that is short of the front, whichever is behind them. -/
lemma take_four {front back rest : List ℕ} {t : ℕ} (hfront : front.length = 6 - t) (ht : t ≤ 5)
    (hback : t ≤ back.length) :
    (front ++ back ++ rest).take 4 = front.take 4 ++ back.take (t - 2) := by
  rw [List.append_assoc, List.take_append, hfront, List.take_append_of_le_length (by omega)]
  congr 2
  omega

/-- The key has the first four groups of the address, unless a quad shifts them. -/
lemma keyValues_eq_iff (h : f.Valid) :
    keyValues f = f.values.take 4 ↔ (f.quad ≠ none →
      ∀ group ∈ (f.tail.getD []).take ((f.tail.getD []).length - 2), groupValue group = 0) := by
  have hzero : groupValue ['0'] = 0 := by decide
  rw [keyValues, List.map_take]
  unfold codeGroups Ipv6Form.values
  cases htail : f.tail with
  | none =>
    have hwidth := h.full htail
    have hone : f.quad.toList.length ≤ 1 := by cases f.quad <;> simp
    have hhead : 4 ≤ (f.head.map groupValue).length := by
      rw [Ipv6Form.width, htail, Option.getD_none, List.length_nil, Nat.add_zero] at hwidth
      rw [List.length_map]
      omega
    simp only [List.map_append, List.append_assoc, List.take_append_of_le_length hhead,
      Option.getD_none, List.take_nil, List.not_mem_nil, IsEmpty.forall_iff, implies_true]
  | some tail =>
    have hwidth := h.short (by simp [htail])
    rw [Ipv6Form.width, htail, Option.getD_some] at hwidth
    simp only [Option.getD_some, Ipv6Form.width, htail, Ipv6Form.last, List.map_append,
      List.map_replicate, hzero]
    cases hquad : f.quad with
    | none => simp [Nat.sub_add_eq]
    | some v =>
      rw [hquad, Option.toList_some, List.length_singleton] at hwidth
      simp only [Option.map_some, Option.toList_some, List.length_append, List.length_singleton,
        List.map_singleton, List.flatMap_singleton]
      -- the place that the quad does not fill is a group of zeros before the others
      have hplace : List.replicate (8 - f.head.length - (tail.length + 1)) 0 =
          List.replicate (8 - (f.head.length + tail.length + 2 * 1)) 0 ++ [0] := by
        rw [← List.replicate_succ']
        congr 1
        omega
      have hfront : (f.head.map groupValue ++
          List.replicate (8 - (f.head.length + tail.length + 2 * 1)) 0).length =
            6 - tail.length := by
        rw [List.length_append, List.length_map, List.length_replicate]
        omega
      have hcode : f.head.map groupValue ++
          List.replicate (8 - f.head.length - (tail.length + 1)) 0 ++
            (tail.map groupValue ++ [groupValue (quadText v)]) =
            f.head.map groupValue ++
              List.replicate (8 - (f.head.length + tail.length + 2 * 1)) 0 ++
                (0 :: tail.map groupValue) ++ [groupValue (quadText v)] := by
        rw [hplace]
        simp
      have hlong : tail.length ≤ (0 :: tail.map groupValue).length := by simp
      have hexact : tail.length ≤ (tail.map groupValue).length := by simp
      rw [hcode, take_four hfront (by omega) hlong, take_four hfront (by omega) hexact,
        List.append_cancel_left_eq, take_cons_zero (by simp), ← List.map_take, List.forall_mem_map]
      exact ⟨fun hzeros _ => hzeros, fun hzeros => hzeros (by simp)⟩

/-! ### The text of a key -/

/-- A key as text, where the groups are written in some way. -/
def keyText (write : ℕ → List Char) : Network → String
  | .ipv4 v => String.ofList (quadText v)
  | .ipv6 groups => String.ofList ([':'].intercalate (groups.map write)) ++ "::/64"

/-- A way to write groups that tells them apart. -/
structure Writes (write : ℕ → List Char) : Prop where
  colon : ∀ n, ':' ∉ write n
  value : ∀ n, groupValue (write n) = n

/-- Four groups, or 32 bits. -/
def Network.Sized : Network → Prop
  | .ipv4 v => v < 4294967296
  | .ipv6 groups => groups.length = 4

lemma Writes.keyText_inj {write : ℕ → List Char} (h : Writes write) {m n : Network}
    (hm : m.Sized) (hn : n.Sized) (heq : keyText write m = keyText write n) : m = n := by
  have hcolon (groups : List ℕ) (w : ℕ) :
      keyText write (.ipv6 groups) ≠ keyText write (.ipv4 w) := by
    intro hkey
    have hmem : ':' ∈ (keyText write (.ipv4 w)).toList := by
      rw [← hkey]
      simp [keyText]
    rw [keyText, String.toList_ofList] at hmem
    exact colon_notMem_quadText w hmem
  cases m with
  | ipv4 v =>
    cases n with
    | ipv4 w =>
      have htext : quadText v = quadText w := by
        simpa [keyText] using congrArg String.toList heq
      have hread := readQuad_eq_some.mpr ⟨hm, htext⟩
      rw [readQuad_eq_some.mpr ⟨hn, rfl⟩] at hread
      rw [Option.some.inj hread]
    | ipv6 groups => exact absurd heq.symm (hcolon groups v)
  | ipv6 groups =>
    cases n with
    | ipv4 w => exact absurd heq (hcolon groups w)
    | ipv6 others =>
      have hfree (l : List ℕ) : ∀ part ∈ l.map write, ':' ∉ part := by
        intro part hpart
        obtain ⟨n, -, rfl⟩ := List.mem_map.mp hpart
        exact h.colon n
      have hne {l : List ℕ} (hl : l.length = 4) : l.map write ≠ [] :=
        List.ne_nil_of_length_pos (by rw [List.length_map, hl]; decide)
      have htext : [':'].intercalate (groups.map write) = [':'].intercalate (others.map write) := by
        simpa [keyText] using congrArg String.toList heq
      have hparts := intercalate_inj (hfree groups) (hfree others) (hne hm) (hne hn) htext
      have hback (l : List ℕ) : (l.map write).map groupValue = l := by
        rw [List.map_map]
        exact (List.map_congr_left fun n _ => h.value n).trans (List.map_id l)
      rw [← hback groups, hparts, hback others]

lemma writes_toDigits : Writes (Nat.toDigits 16) :=
  ⟨fun n hmem => (isHex_spec ((digits_spec n).1 _ hmem).1).1 rfl, fun n => (digits_spec n).2⟩

lemma groupValue_zeros (k : ℕ) (group : List Char) :
    groupValue (List.replicate k '0' ++ group) = groupValue group := by
  induction k with
  | zero => rfl
  | succ k ih => exact ih

lemma writes_padded : Writes fun n => (Nat.toDigits 16 n).leftpad 4 '0' := by
  refine ⟨fun n hmem => ?_, fun n => ?_⟩
  · rcases List.mem_append.mp hmem with hmem | hmem
    · exact absurd (List.eq_of_mem_replicate hmem) (by decide)
    · exact writes_toDigits.colon n hmem
  · rw [List.leftpad, groupValue_zeros, writes_toDigits.value]

/-- A group without its zeros is its number written out. -/
lemma stripZeros_lower {group : List Char} (h : IsGroup group) :
    stripZeros (group.map Char.toLower) = Nat.toDigits 16 (groupValue group) := by
  obtain ⟨n, hn⟩ := lower_eq h.ne_nil h.isHex
  have hzeros : ∀ c ∈ List.replicate n '0', decide (c = '0') = true :=
    fun c hc => decide_eq_true (List.eq_of_mem_replicate hc)
  rw [hn, stripZeros, List.dropWhile_append_of_pos hzeros]
  by_cases hzero : groupValue group = 0
  · rw [hzero]
    simp
  · have hhead := head_toDigits (Nat.pos_of_ne_zero hzero)
    obtain ⟨c, rest, hdigits⟩ :=
      List.exists_cons_of_ne_nil (Nat.toDigits_ne_nil (n := groupValue group) (b := 16))
    rw [hdigits, List.head?_cons] at hhead
    have hdrop : (c :: rest).dropWhile (· = '0') = c :: rest :=
      List.dropWhile_cons_of_neg fun h => hhead (congrArg some (of_decide_eq_true h))
    simp only [hdigits, hdrop]
    exact if_neg (List.cons_ne_nil _ _)

/-- And padded to four digits it is that, padded. -/
lemma leftpad_lower {group : List Char} (h : IsGroup group) :
    (group.map Char.toLower).leftpad 4 '0' =
      (Nat.toDigits 16 (groupValue group)).leftpad 4 '0' := by
  obtain ⟨n, hn⟩ := lower_eq h.ne_nil h.isHex
  have hlength : n + (Nat.toDigits 16 (groupValue group)).length ≤ 4 := by
    have hle := h.length_le
    rw [← List.length_map Char.toLower, hn, List.length_append, List.length_replicate] at hle
    exact hle
  rw [hn, List.leftpad, List.leftpad, List.length_append, List.length_replicate,
    ← List.append_assoc, List.replicate_append_replicate]
  congr 2
  omega

/-! ### The keys of an address -/

/-- The network that the keys are cut for. -/
inductive KeyedAs : String → Network → Prop
  | quad {s : String} {v : ℕ} : readQuad s.toList = some v → KeyedAs s (.ipv4 v)
  | dotted {s : String} {f : Ipv6Form} {v : ℕ} :
      f.Valid → f.text = s.toList → Dotted f v → KeyedAs s (.ipv4 v)
  | form {s : String} {f : Ipv6Form} :
      f.Valid → f.text = s.toList → (∀ v, ¬ Dotted f v) → KeyedAs s (.ipv6 (keyValues f))

/-- What the keys have of a number in a quad. -/
lemma digits_number {digits : ℕ → Bool} (hdigits : ∀ n, 1 ≤ n → n ≤ 3 → digits n = true) {n : ℕ}
    (hn : n < 256) :
    (digits (Nat.toDigits 10 n).length && (Nat.toDigits 10 n).all Char.isDigit) = true := by
  have hpos : 1 ≤ (Nat.toDigits 10 n).length := Nat.length_toDigits_pos
  have hle : (Nat.toDigits 10 n).length ≤ 3 :=
    (Nat.length_toDigits_le_iff (by decide) (by decide)).mpr (by omega)
  rw [hdigits _ hpos hle, Bool.true_and, List.all_eq_true]
  exact fun c hc => Nat.isDigit_of_mem_toDigits (by decide) (by decide) hc

/-- A quad behind `::ffff:` is found. -/
lemma mappedQuad_dotted {digits : ℕ → Bool} (hdigits : ∀ n, 1 ≤ n → n ≤ 3 → digits n = true)
    {s : String} (h : f.Valid) (hs : f.text = s.toList) (hv : Dotted f v) :
    mappedQuad digits s = some (quadText v) := by
  obtain ⟨hhead, hquad, group, htail, hlower⟩ := hv
  have hlt := h.quad v hquad
  obtain ⟨a, b, c, d, rfl⟩ : ∃ a b c d, group = [a, b, c, d] := by
    have hlength := congrArg List.length hlower
    rw [List.length_map] at hlength
    exact List.length_eq_four.mp hlength
  have htext : s.toList = [':', ':', a, b, c, d, ':'] ++ quadText v := by
    rw [← hs, Ipv6Form.text, htail, hhead, Ipv6Form.last, hquad]
    simp [List.intercalate_cons_cons]
  have htake : s.toList.take 7 = [':', ':', a, b, c, d, ':'] := by rw [htext]; rfl
  have hdrop : s.toList.drop 7 = quadText v := by rw [htext]; rfl
  simp only [List.map_cons, List.map_nil, List.cons.injEq, and_true] at hlower
  obtain ⟨ha, hb, hc, hd⟩ := hlower
  have hfront : (s.toList.take 7).map Char.toLower = "::ffff:".toList := by
    rw [htake]
    simp only [List.map_cons, List.map_nil, ha, hb, hc, hd]
    decide
  unfold mappedQuad
  simp only [hdrop, splitOn_quadText]
  refine if_pos ⟨hfront, rfl, ?_⟩
  simp only [List.all_cons, List.all_nil, Bool.and_true]
  rw [digits_number hdigits (n := v / 16777216) (by omega),
    digits_number hdigits (n := v / 65536 % 256) (by omega),
    digits_number hdigits (n := v / 256 % 256) (by omega),
    digits_number hdigits (n := v % 256) (by omega)]
  rfl

lemma eq_colon_of_lower {c : Char} (h : c.toLower = ':') : c = ':' := by
  have key : ∀ i : Fin 128, (Char.ofNat i).toLower = ':' → Char.ofNat i = ':' := by
    decide
  by_cases hlt : c.toNat < 128
  · have hc := key ⟨c.toNat, hlt⟩
    rw [Char.ofNat_toNat] at hc
    exact hc h
  · unfold Char.toLower at h
    split at h
    next hupper => exact absurd (Nat.lt_of_le_of_lt hupper.2 (by decide)) hlt
    · exact h

lemma mappedQuad_eq_some {digits : ℕ → Bool} {s : String} {quad : List Char}
    (h : mappedQuad digits s = some quad) :
    ∃ a b c d, s.toList = [':', ':', a, b, c, d, ':'] ++ quad ∧
      [a, b, c, d].map Char.toLower = ['f', 'f', 'f', 'f'] ∧ '.' ∈ quad ∧ ':' ∉ quad := by
  unfold mappedQuad at h
  dsimp only at h
  split at h
  next hmatch =>
    obtain rfl := Option.some.inj h
    obtain ⟨hfront, hlength, hall⟩ := hmatch
    have hdot : '.' ∈ s.toList.drop 7 := mem_iff_length_splitOn.mpr (by rw [hlength]; decide)
    have hcolon : ':' ∉ s.toList.drop 7 := by
      intro hmem
      rcases @mem_splitOn _ _ _ '.' _ hmem with heq | ⟨part, hpart, hc⟩
      · exact absurd heq (by decide)
      · have hdigits := List.all_eq_true.mp hall part hpart
        rw [Bool.and_eq_true, List.all_eq_true] at hdigits
        exact absurd (hdigits.2 ':' hc) (by decide)
    have hseven : (s.toList.take 7).map Char.toLower = [':', ':', 'f', 'f', 'f', 'f', ':'] :=
      hfront.trans (by decide)
    obtain ⟨x, l, htake, hx, h⟩ := List.map_eq_cons_iff.mp hseven
    obtain ⟨y, l, rfl, hy, h⟩ := List.map_eq_cons_iff.mp h
    obtain ⟨a, l, rfl, ha, h⟩ := List.map_eq_cons_iff.mp h
    obtain ⟨b, l, rfl, hb, h⟩ := List.map_eq_cons_iff.mp h
    obtain ⟨c, l, rfl, hc, h⟩ := List.map_eq_cons_iff.mp h
    obtain ⟨d, l, rfl, hd, h⟩ := List.map_eq_cons_iff.mp h
    obtain ⟨z, l, rfl, hz, h⟩ := List.map_eq_cons_iff.mp h
    obtain rfl := List.map_eq_nil_iff.mp h
    obtain rfl := eq_colon_of_lower hx
    obtain rfl := eq_colon_of_lower hy
    obtain rfl := eq_colon_of_lower hz
    refine ⟨a, b, c, d, ?_, by simp [ha, hb, hc, hd], hdot, hcolon⟩
    rw [← htake, List.take_append_drop]
  · simp at h

/-- Only a quad behind `::ffff:` is found. -/
lemma dotted_of_mappedQuad {digits : ℕ → Bool} {s : String} {quad : List Char} (h : f.Valid)
    (hs : f.text = s.toList) (hquad : mappedQuad digits s = some quad) : ∃ v, Dotted f v := by
  obtain ⟨a, b, c, d, htext, hlower, hdot, hcolon⟩ := mappedQuad_eq_some hquad
  have hcut := h.cut_text
  rw [hs, htext, List.cons_append, List.cons_append, cutPair, if_pos ⟨rfl, rfl⟩] at hcut
  obtain ⟨tail, htail, hparts⟩ := Option.map_eq_some_iff.mp hcut.symm
  obtain ⟨hhead, hrest⟩ := Prod.mk.inj hparts
  have hnil : f.head = [] := by
    rw [← (Ipv6Form.parted_groups h.head).partsOf_intercalate, hhead]
    rfl
  have hgroups := h.tail
  rw [htail, Option.getD_some] at hgroups
  have hfree : ':' ∉ [a, b, c, d] := by
    intro hmem
    have hcolon : ':'.toLower ∈ [a, b, c, d].map Char.toLower := List.mem_map_of_mem hmem
    rw [hlower] at hcolon
    exact absurd hcolon (by decide)
  -- behind the `::` stand the four letters and the quad
  have hlast : tail ++ f.last = [[a, b, c, d], quad] := by
    rw [← (h.parted_append hgroups).partsOf_intercalate, hrest, partsOf, if_neg (by simp)]
    have hparts : ∀ part ∈ [[a, b, c, d], quad], ':' ∉ part :=
      List.forall_mem_cons.mpr ⟨hfree, List.forall_mem_singleton.mpr hcolon⟩
    rw [← List.splitOn_intercalate ':' hparts (by simp)]
    simp [List.intercalate_cons_cons]
  cases hq : f.quad with
  | none =>
    rw [Ipv6Form.last, hq, Option.map_none, Option.toList_none, List.append_nil] at hlast
    exact absurd hdot (hgroups quad (by simp [hlast])).notMem_dot
  | some v =>
    rw [Ipv6Form.last, hq, Option.map_some, Option.toList_some] at hlast
    obtain rfl : tail = [[a, b, c, d]] := by
      have hfront := congrArg List.dropLast hlast
      rwa [List.dropLast_concat] at hfront
    exact ⟨v, hnil, hq, _, htail, hlower⟩

lemma mappedQuad_form {digits : ℕ → Bool} {s : String} (h : f.Valid) (hs : f.text = s.toList)
    (hnot : ∀ v, ¬ Dotted f v) : mappedQuad digits s = none := by
  cases hquad : mappedQuad digits s with
  | none => rfl
  | some quad =>
    obtain ⟨v, hv⟩ := dotted_of_mappedQuad h hs hquad
    exact absurd hv (hnot v)

/-- A quad has no `::ffff:` before it. -/
lemma mappedQuad_quad {digits : ℕ → Bool} {s : String} (h : readQuad s.toList = some v) :
    mappedQuad digits s = none := by
  cases hquad : mappedQuad digits s with
  | none => rfl
  | some quad =>
    obtain ⟨a, b, c, d, htext, -⟩ := mappedQuad_eq_some hquad
    exact absurd (by simp [htext]) (colon_notMem_of_readQuad h)

lemma isIPv6_quad {s : String} (h : readQuad s.toList = some v) : isIPv6 s = false := by
  have hnone : Ipv6Form.parse (s.toList.takeWhile (· ≠ '%')) = none := by
    cases hparse : Ipv6Form.parse (s.toList.takeWhile (· ≠ '%')) with
    | none => rfl
    | some f =>
      obtain ⟨hf, htext⟩ := Ipv6Form.parse_eq_some.mp hparse
      have hcolon := htext ▸ hf.colon_mem_text
      exact absurd (List.takeWhile_subset _ hcolon) (colon_notMem_of_readQuad h)
  unfold isIPv6
  rw [hnone]
  rfl

lemma isIP_quad {s : String} (h : readQuad s.toList = some v) : isIP s = 4 := by
  simp [isIP, isIPv4, h]

lemma isIP_text {s : String} (h : f.Valid) (hs : f.text = s.toList) : isIP s = 6 := by
  have hfour : isIPv4 s = false := by rw [isIPv4, ← hs, readQuad_text h]; rfl
  simp [isIP, hfour, isIPv6_text h hs]

/-- The API's key writes the groups without leading zeros. -/
lemma addressKey_eq {s : String} {n : Network} (h : KeyedAs s n) :
    addressKey s = keyText (Nat.toDigits 16) n := by
  have hdigits (n : ℕ) (hpos : 1 ≤ n) (hle : n ≤ 3) :
      (decide (1 ≤ n) && decide (n ≤ 3)) = true := by
    simp [hpos, hle]
  cases h with
  | quad h =>
    have hquad := readQuad_eq_some.mp h
    have hsame : unmapIpv4 s = s := by rw [unmapIpv4, mappedQuad_quad h]; rfl
    simp only [addressKey, hsame, isIP_quad h]
    rw [if_neg (by decide), keyText, hquad.2, String.ofList_toList]
  | @dotted f v h hs hv =>
    have hunmapped : unmapIpv4 s = String.ofList (quadText v) := by
      rw [unmapIpv4, mappedQuad_dotted hdigits h hs hv]
      rfl
    have hread : readQuad (String.ofList (quadText v)).toList = some v :=
      readQuad_eq_some.mpr ⟨h.quad v hv.2.1, String.toList_ofList.symm⟩
    simp only [addressKey, hunmapped, isIP_quad hread]
    rw [if_neg (by decide), keyText]
  | form h hs hnot =>
    have hnone : mappedQuad (fun n => decide (1 ≤ n) && decide (n ≤ 3)) s = none :=
      mappedQuad_form h hs hnot
    have hsame : unmapIpv4 s = s := by rw [unmapIpv4, hnone]; rfl
    simp only [addressKey, hsame, isIP_text h hs, if_true]
    rw [ipv6Prefix64_text h hs, codeGroups_lower, ← List.map_take, List.map_map, keyText, keyValues,
      List.map_map]
    congr 3
    exact List.map_congr_left fun group hgroup =>
      stripZeros_lower (isGroup_codeGroups h group hgroup)

/-- The proxy's key pads the groups to four digits. -/
lemma rateLimitKey_eq {s : String} {n : Network} (h : KeyedAs s n) :
    rateLimitKey s = keyText (fun n => (Nat.toDigits 16 n).leftpad 4 '0') n := by
  unfold rateLimitKey
  cases h with
  | quad h =>
    have hquad := readQuad_eq_some.mp h
    rw [mappedQuad_quad h]
    simp only [isIPv6_quad h, Bool.not_false, if_true]
    rw [keyText, hquad.2, String.ofList_toList]
  | dotted h hs hv =>
    rw [mappedQuad_dotted (fun n hpos _ => decide_eq_true hpos) h hs hv]
    rfl
  | form h hs hnot =>
    rw [mappedQuad_form h hs hnot]
    simp only [isIPv6_text h hs, Bool.not_true, Bool.false_eq_true, if_false]
    rw [← hs, expandIPv6_text h, ← List.map_take, keyText, keyValues, List.map_map]
    congr 3
    exact List.map_congr_left fun group hgroup =>
      leftpad_lower (isGroup_codeGroups h group hgroup)

/-! ### Plain texts -/

/-- What the keys are cut for is a network. -/
lemma KeyedAs.sized {s : String} {n : Network} (h : KeyedAs s n) : n.Sized := by
  cases h with
  | quad h => exact (readQuad_eq_some.mp h).1
  | dotted h hs hv => exact h.quad _ hv.2.1
  | form h hs hnot => exact length_keyValues h

/-- An address, with what it means and what its keys are cut for. -/
lemma exists_keyedAs {s : String} {n : Network} (h : networkOf s = some n) : ∃ m, KeyedAs s m := by
  unfold networkOf at h
  split at h
  next v hv => exact ⟨_, .quad hv⟩
  · obtain ⟨f, hf, -⟩ := Option.map_eq_some_iff.mp h
    obtain ⟨hvalid, hs⟩ := Ipv6Form.parse_eq_some.mp hf
    by_cases hdotted : ∃ v, Dotted f v
    · obtain ⟨v, hv⟩ := hdotted
      exact ⟨_, .dotted hvalid hs hv⟩
    · exact ⟨_, .form hvalid hs (not_exists.mp hdotted)⟩

lemma networkOfValues_dotted (h : f.Valid) (hv : Dotted f v) :
    networkOfValues f.values = .ipv4 v := by
  obtain ⟨hhead, hquad, group, htail, hlower⟩ := hv
  have hgroup : groupValue group = 65535 := by
    have hhex := (h.tail group (by simp [htail])).isHex
    rw [← groupValue_lower hhex, hlower]
    decide
  have hvalues : f.values = [0, 0, 0, 0, 0, 65535, v / 65536, v % 65536] := by
    simp [Ipv6Form.values, Ipv6Form.width, hhead, htail, hquad, hgroup]
  rw [hvalues, networkOfValues]
  exact congrArg Network.ipv4 (by omega)

lemma networkOfValues_cases (values : List ℕ) :
    (∃ v, networkOfValues values = .ipv4 v) ∨ networkOfValues values = .ipv6 (values.take 4) := by
  unfold networkOfValues
  split
  · exact .inl ⟨_, rfl⟩
  · exact .inr rfl

/-- **Plain texts.** The keys of an address are cut for its network exactly where it is plain. -/
theorem plain_iff {s : String} {n m : Network} (hn : networkOf s = some n) (hm : KeyedAs s m) :
    Plain s ↔ m = n := by
  unfold networkOf at hn
  cases hm with
  | quad h =>
    rw [h] at hn
    refine iff_of_true (fun f hf => ?_) (Option.some.inj hn)
    obtain ⟨hvalid, htext⟩ := Ipv6Form.parse_eq_some.mp hf
    exact absurd (htext ▸ hvalid.colon_mem_text) (colon_notMem_of_readQuad h)
  | @dotted f v h hs hv =>
    have hparse : Ipv6Form.parse s.toList = some f := Ipv6Form.parse_eq_some.mpr ⟨h, hs⟩
    rw [← hs, readQuad_text h, hs, hparse, Option.map_some, networkOfValues_dotted h hv] at hn
    refine iff_of_true (fun e he => ?_) (Option.some.inj hn)
    obtain rfl : f = e := Option.some.inj (hparse.symm.trans he)
    refine ⟨fun w hw => ?_, fun _ => ?_⟩
    · rw [networkOfValues_dotted h hv] at hw
      exact Network.ipv4.inj hw ▸ hv
    · obtain ⟨-, -, group, htail, -⟩ := hv
      simp [htail]
  | @form f h hs hnot =>
    have hparse : Ipv6Form.parse s.toList = some f := Ipv6Form.parse_eq_some.mpr ⟨h, hs⟩
    rw [← hs, readQuad_text h, hs, hparse, Option.map_some] at hn
    have hplain : Plain s ↔ PlainForm f := by
      refine ⟨fun hall => hall f hparse, fun hf e he => ?_⟩
      exact Option.some.inj (hparse.symm.trans he) ▸ hf
    rw [hplain]
    obtain rfl := Option.some.inj hn
    constructor
    · intro hf
      rcases networkOfValues_cases f.values with ⟨v, hv⟩ | hsix
      · exact absurd (hf.mapped v hv) (hnot v)
      · rw [hsix, (keyValues_eq_iff h).mpr hf.unshifted]
    · intro heq
      rcases networkOfValues_cases f.values with ⟨v, hv⟩ | hsix
      · rw [hv] at heq
        simp at heq
      · rw [hsix] at heq
        refine ⟨fun v hv => ?_, (keyValues_eq_iff h).mp (Network.ipv6.inj heq)⟩
        rw [hsix] at hv
        simp at hv

lemma networkOfValues_eq_ipv4 {values : List ℕ} (h : networkOfValues values = .ipv4 v) :
    ∃ high low, values = [0, 0, 0, 0, 0, 65535, high, low] ∧ v = high * 65536 + low := by
  unfold networkOfValues at h
  split at h
  next high low => exact ⟨high, low, rfl, (Network.ipv4.inj h).symm⟩
  · simp at h

/-- Every network has a plain text. -/
lemma exists_plain {s : String} {n : Network} (hn : networkOf s = some n) :
    ∃ t, networkOf t = some n ∧ Plain t := by
  have hquad {w : ℕ} (hw : w < 4294967296) :
      ∃ t, networkOf t = some (.ipv4 w) ∧ Plain t := by
    have hread : readQuad (String.ofList (quadText w)).toList = some w :=
      readQuad_eq_some.mpr ⟨hw, String.toList_ofList.symm⟩
    have hnetwork : networkOf (String.ofList (quadText w)) = some (.ipv4 w) := by
      rw [networkOf, hread]
    exact ⟨_, hnetwork, (plain_iff hnetwork (.quad hread)).mpr rfl⟩
  unfold networkOf at hn
  split at hn
  next v hv =>
    obtain rfl := Option.some.inj hn
    exact hquad (readQuad_eq_some.mp hv).1
  · obtain ⟨f, hf, rfl⟩ := Option.map_eq_some_iff.mp hn
    obtain ⟨hvalid, -⟩ := Ipv6Form.parse_eq_some.mp hf
    rcases networkOfValues_cases f.values with ⟨v, hv⟩ | hsix
    · obtain ⟨high, low, hvalues, rfl⟩ := networkOfValues_eq_ipv4 hv
      have hhigh : high < 65536 := hvalid.lt_of_mem_values (by simp [hvalues])
      have hlow : low < 65536 := hvalid.lt_of_mem_values (by simp [hvalues])
      rw [hv]
      exact hquad (by omega)
    · -- the eight groups in full
      obtain ⟨e, he, hvalues, htail, hnone⟩ := Ipv6Form.exists_full hvalid.length_values
        fun n hn => hvalid.lt_of_mem_values hn
      have hnot (w : ℕ) : ¬ Dotted e w := fun ⟨_, hq, _⟩ => by simp [hnone] at hq
      have htext : e.text = (String.ofList e.text).toList := String.toList_ofList.symm
      have hnetwork : networkOf (String.ofList e.text) = some (.ipv6 (f.values.take 4)) := by
        rw [networkOf, ← htext, readQuad_text he, Ipv6Form.parse_eq_some.mpr ⟨he, rfl⟩,
          Option.map_some, hvalues, hsix]
      have hkey : keyValues e = f.values.take 4 := by
        rw [(keyValues_eq_iff he).mpr fun hq => absurd hnone hq, hvalues]
      rw [hsix]
      refine ⟨_, hnetwork, (plain_iff hnetwork (.form he htext hnot)).mpr ?_⟩
      rw [hkey]

/-- A key cut for a network and written so that networks are told apart finds the network of a text
exactly where the text is plain. -/
lemma key_exact {key : String → String} {write : ℕ → List Char} (hwrite : Writes write)
    (hkey : ∀ s n, KeyedAs s n → key s = keyText write n) {a : String} {n : Network}
    (ha : networkOf a = some n) :
    Plain a ↔ ∀ b m, networkOf b = some m → Plain b → (key a = key b ↔ n = m) := by
  obtain ⟨i, hi⟩ := exists_keyedAs ha
  have hiff {b : String} {m : Network} (hb : networkOf b = some m) (hplain : Plain b) :
      key a = key b ↔ i = m := by
    obtain ⟨j, hj⟩ := exists_keyedAs hb
    obtain rfl := (plain_iff hb hj).mp hplain
    rw [hkey a i hi, hkey b j hj]
    exact ⟨hwrite.keyText_inj hi.sized hj.sized, fun h => h ▸ rfl⟩
  constructor
  · intro hplain b m hb hother
    rw [hiff hb hother, (plain_iff ha hi).mp hplain]
  · intro hall
    obtain ⟨b, hb, hother⟩ := exists_plain ha
    exact (plain_iff ha hi).mpr ((hiff hb hother).mp ((hall b n hb hother).mpr rfl))

/-- The addresses the runtime accepts, zone identifiers apart. -/
lemma isIP_iff {s : String} (hzone : '%' ∉ s.toList) : isIP s ≠ 0 ↔ ∃ n, networkOf s = some n := by
  have hchars : ∀ c ∈ s.toList, (decide (c ≠ '%')) = true :=
    fun c hc => decide_eq_true fun h => hzone (h ▸ hc)
  have htake : s.toList.takeWhile (fun c => decide (c ≠ '%')) = s.toList :=
    List.takeWhile_eq_self_iff.mpr hchars
  have hdrop : s.toList.dropWhile (fun c => decide (c ≠ '%')) = [] :=
    List.dropWhile_eq_nil_iff.mpr hchars
  unfold isIP isIPv4 isIPv6 networkOf
  dsimp only
  rw [htake, hdrop]
  cases readQuad s.toList with
  | some v => simp
  | none =>
    cases Ipv6Form.parse s.toList with
    | none => simp
    | some f => simp

/-- No address without a zone identifier has the sign of one. -/
lemma percent_notMem {s : String} {n : Network} (h : networkOf s = some n) : '%' ∉ s.toList := by
  intro hmem
  unfold networkOf at h
  split at h
  next v hv =>
    rcases isDigit_quadText ((readQuad_eq_some.mp hv).2 ▸ hmem) with hdigit | heq
    · exact absurd hdigit (by decide)
    · exact absurd heq (by decide)
  · obtain ⟨f, hf, -⟩ := Option.map_eq_some_iff.mp h
    obtain ⟨hvalid, hs⟩ := Ipv6Form.parse_eq_some.mp hf
    rcases isAddressChar_text hvalid (hs ▸ hmem) with hhex | heq | heq
    · exact absurd hhex (by decide)
    · exact absurd heq (by decide)
    · exact absurd heq (by decide)

end

end Tnp.Net
