import Tnp.Lib.Ipv6Text
import Tnp.SharedTypes.DnsRules

/-!
Which texts the record checks take for IPv6 addresses.

The groups before and after a `::` are counted as one list, and the last of that list may be a
dotted quad. Where nothing follows the `::` the last is the one before it, so a quad passes there
that is not the end of an address.
-/

namespace Tnp.SharedTypes.DnsRecords

open Tnp.Lib Tnp.Lib.Ipv6 Tnp.Crypto Tnp.Namespace Tnp.SharedTypes.DnsRules

/-! ### The parts of the check -/

lemma cutDoubleColon_eq (cs : List Char) : cutDoubleColon cs = cutPair ':' cs := by
  induction cs using cutDoubleColon.induct with
  | case1 rest => simp [cutDoubleColon, cutPair]
  | case2 c rest hne ih =>
    rw [cutDoubleColon_cons hne, ih]
    cases rest with
    | nil => rfl
    | cons b rest =>
      rw [cutPair, if_neg]
      rintro ⟨rfl, rfl⟩
      exact hne rest rfl rfl
  | case3 => rfl

lemma isHexadecimal_eq : isHexadecimal = isHex := rfl

/-- A part without leading zeros is its number written out. -/
lemma isIpv4Part_iff {part : List Char} :
    isIpv4Part part = true ↔ ∃ n < 256, part = Nat.toDigits 10 n := by
  constructor
  · intro h
    have hle := isIpv4Part_le h
    refine ⟨Nat.ofDigitChars 10 part 0, Nat.lt_succ_of_le hle, ?_⟩
    refine isIpv4Part_injective h (isIpv4Part_toDigits (Nat.lt_succ_of_le hle)).1 ?_
    rw [Nat.ofDigitChars_ten_toDigits]
  · rintro ⟨n, hn, rfl⟩
    exact (isIpv4Part_toDigits hn).1

/-- A strict dotted quad is 32 bits written as one. -/
lemma isValidIpv4_iff {s : String} :
    isValidIpv4 s = true ↔ ∃ v < 4294967296, s.toList = quadText v := by
  constructor
  · intro h
    simp only [isValidIpv4, Bool.and_eq_true, beq_iff_eq, List.all_eq_true] at h
    obtain ⟨hlength, hall⟩ := h
    obtain ⟨a, b, c, d, hsplit⟩ := List.length_eq_four.mp hlength
    rw [hsplit] at hall
    obtain ⟨i, hi, rfl⟩ := isIpv4Part_iff.mp (hall a (by simp))
    obtain ⟨j, hj, rfl⟩ := isIpv4Part_iff.mp (hall b (by simp))
    obtain ⟨k, hk, rfl⟩ := isIpv4Part_iff.mp (hall c (by simp))
    obtain ⟨l, hl, rfl⟩ := isIpv4Part_iff.mp (hall d (by simp))
    refine ⟨((i * 256 + j) * 256 + k) * 256 + l, by omega, ?_⟩
    have hjoin : ['.'].intercalate (s.toList.splitOn '.') = s.toList :=
      List.intercalate_splitOn '.'
    rw [← hjoin, hsplit, quadText]
    congr <;> omega
  · rintro ⟨v, hv, hs⟩
    have hsplit := splitOn_quadText v
    rw [← hs] at hsplit
    simp only [isValidIpv4, hsplit, List.length_cons, List.length_nil, beq_self_eq_true,
      Bool.true_and, List.all_cons, List.all_nil, Bool.and_true, Bool.and_eq_true]
    exact ⟨isIpv4Part_iff.mpr ⟨_, by omega, rfl⟩, isIpv4Part_iff.mpr ⟨_, by omega, rfl⟩,
      isIpv4Part_iff.mpr ⟨_, by omega, rfl⟩, isIpv4Part_iff.mpr ⟨_, by omega, rfl⟩⟩

lemma groupsOf_eq_some_iff {part : List Char} {groups : List (List Char)} :
    groupsOf part = some groups ↔ Parted ':' groups ∧ [':'].intercalate groups = part := by
  constructor
  · intro h
    unfold groupsOf at h
    split at h
    next hnil =>
      obtain rfl := Option.some.inj h
      exact ⟨⟨by simp, by simp⟩, hnil.symm⟩
    dsimp only at h
    split at h
    · simp at h
    next hempty =>
      obtain rfl := Option.some.inj h
      refine ⟨⟨fun group hgroup hnil => ?_, fun group hgroup => notMem_of_mem_splitOn hgroup⟩,
        List.intercalate_splitOn ':'⟩
      exact hempty (List.contains_iff_mem.mpr (hnil ▸ hgroup))
  · rintro ⟨hparted, rfl⟩
    have hparts := hparted.partsOf_intercalate
    rw [partsOf] at hparts
    unfold groupsOf
    split
    next hnil =>
      rw [if_pos hnil] at hparts
      rw [hparts]
    next hne =>
      rw [if_neg hne] at hparts
      have hfull : groups.contains [] = false := by
        rw [Bool.eq_false_iff, Ne, List.contains_iff_mem]
        exact fun hmem => hparted.ne_nil [] hmem rfl
      dsimp only
      rw [hparts, hfull]
      rfl

/-- Groups of one to four digits, and a quad at the end or none. -/
lemma groupsWidth_eq_some {groups : List (List Char)} {n : ℕ} :
    groupsWidth groups = some n ↔ ∃ front quad, (∀ group ∈ front, IsGroup group) ∧
      (∀ v ∈ quad, v < 4294967296) ∧ groups = front ++ (Option.map quadText quad).toList ∧
      n = front.length + 2 * quad.toList.length := by
  induction groups generalizing n with
  | nil =>
    rw [groupsWidth, Option.some.injEq]
    constructor
    · rintro rfl
      exact ⟨[], none, by simp, by simp, rfl, rfl⟩
    · rintro ⟨front, quad, -, -, hnil, rfl⟩
      obtain ⟨rfl, hquad⟩ := List.append_eq_nil_iff.mp hnil.symm
      cases quad with
      | none => rfl
      | some v => simp at hquad
  | cons group groups ih =>
    rw [groupsWidth]
    by_cases hlast : groups = [] ∧ '.' ∈ group
    · obtain ⟨rfl, hdot⟩ := hlast
      rw [if_pos ⟨rfl, hdot⟩]
      constructor
      · intro h
        split at h
        next hquad =>
          obtain ⟨v, hv, htext⟩ := isValidIpv4_iff.mp hquad
          rw [String.toList_ofList] at htext
          obtain rfl := Option.some.inj h
          exact ⟨[], some v, by simp, by simpa using hv, by simp [htext], rfl⟩
        · simp at h
      · rintro ⟨front, quad, hfront, hquad, hgroups, rfl⟩
        cases quad with
        | none =>
          rw [Option.map_none, Option.toList_none, List.append_nil] at hgroups
          exact absurd hdot (hfront group (hgroups ▸ List.mem_cons_self)).notMem_dot
        | some v =>
          obtain ⟨hnil, htext⟩ : [] = front ∧ group = quadText v := by
            rw [← List.nil_append [group]] at hgroups
            obtain ⟨hnil, htext⟩ := List.append_inj' hgroups rfl
            exact ⟨hnil, by simpa using htext⟩
          subst hnil
          have hvalid : isValidIpv4 (String.ofList group) = true :=
            isValidIpv4_iff.mpr ⟨v, hquad v rfl, by rw [String.toList_ofList, htext]⟩
          rw [if_pos hvalid]
          rfl
    · rw [if_neg hlast]
      constructor
      · intro h
        split at h
        next hgroup =>
          obtain ⟨m, hm, rfl⟩ := Option.map_eq_some_iff.mp h
          obtain ⟨front, quad, hfront, hquad, rfl, rfl⟩ := ih.mp hm
          have hfirst : IsGroup group :=
            ⟨List.ne_nil_of_length_pos hgroup.1, hgroup.2.1, List.all_eq_true.mp hgroup.2.2⟩
          refine ⟨group :: front, quad, List.forall_mem_cons.mpr ⟨hfirst, hfront⟩, hquad, rfl, ?_⟩
          rw [List.length_cons]
          omega
        · simp at h
      · rintro ⟨front, quad, hfront, hquad, hgroups, rfl⟩
        cases front with
        | nil =>
          cases quad with
          | none => simp at hgroups
          | some v =>
            obtain ⟨rfl, rfl⟩ := List.cons.inj hgroups
            exact absurd ⟨rfl, dot_mem_quadText v⟩ hlast
        | cons first front =>
          obtain ⟨rfl, rfl⟩ := List.cons.inj hgroups
          obtain ⟨hfirst, hrest⟩ := List.forall_mem_cons.mp hfront
          rw [if_pos ⟨List.length_pos_iff.mpr hfirst.ne_nil, hfirst.length_le,
            List.all_eq_true.mpr hfirst.isHex⟩, ih.mpr ⟨front, quad, hrest, hquad, rfl, rfl⟩,
            Option.map_some, List.length_cons]
          exact congrArg some (by omega)

/-! ### What the check accepts -/

/-- A text of parts is no longer than the parts with a separator after each. -/
lemma length_intercalate_le (parts : List (List Char)) :
    ([':'].intercalate parts).length ≤ (parts.map fun part => part.length + 1).sum - 1 := by
  induction parts with
  | nil => simp
  | cons part parts ih =>
    by_cases hnil : parts = []
    · subst hnil
      simp
    · have hpos : 1 ≤ (parts.map fun part => part.length + 1).sum := by
        obtain ⟨next, rest, rfl⟩ := List.exists_cons_of_ne_nil hnil
        simp only [List.map_cons, List.sum_cons]
        omega
      rw [List.intercalate_cons_of_ne_nil hnil]
      simp only [List.length_append, List.length_singleton, List.map_cons, List.sum_cons]
      omega

lemma length_quadText_le {v : ℕ} (hv : v < 4294967296) : (quadText v).length ≤ 15 := by
  have hpart {n : ℕ} (hn : n < 256) : (Nat.toDigits 10 n).length ≤ 3 :=
    (Nat.length_toDigits_le_iff (by decide) (by decide)).mpr (by omega)
  have h1 := hpart (n := v / 16777216) (by omega)
  have h2 := hpart (n := v / 65536 % 256) (by omega)
  have h3 := hpart (n := v / 256 % 256) (by omega)
  have h4 := hpart (n := v % 256) (by omega)
  simp only [quadText, List.intercalate_cons_cons, List.intercalate_singleton, List.length_append,
    List.length_singleton]
  omega

lemma sum_groups_le {groups : List (List Char)} (h : ∀ group ∈ groups, IsGroup group) :
    (groups.map fun part => part.length + 1).sum ≤ 5 * groups.length := by
  induction groups with
  | nil => simp
  | cons group groups ih =>
    obtain ⟨hgroup, hrest⟩ := List.forall_mem_cons.mp h
    have hlength := hgroup.length_le
    have hsum := ih hrest
    simp only [List.map_cons, List.sum_cons, List.length_cons]
    omega

lemma sum_quad_le {quad : Option ℕ} (h : ∀ v ∈ quad, v < 4294967296) :
    ((quad.map quadText).toList.map fun part => part.length + 1).sum ≤ 16 * quad.toList.length := by
  cases quad with
  | none => simp
  | some v =>
    have hlength := length_quadText_le (h v rfl)
    simp only [Option.map_some, Option.toList_some, List.map_cons, List.map_nil, List.sum_cons,
      List.sum_nil, List.length_singleton]
    omega

/-- Groups and a quad or none, joined. -/
lemma length_parts_le {groups : List (List Char)} {quad : Option ℕ}
    (h : ∀ group ∈ groups, IsGroup group) (hquad : ∀ v ∈ quad, v < 4294967296) :
    ([':'].intercalate (groups ++ (quad.map quadText).toList)).length ≤
      5 * groups.length + 16 * quad.toList.length - 1 := by
  have hjoin := length_intercalate_le (groups ++ (quad.map quadText).toList)
  have hsum := sum_groups_le h
  have hlast := sum_quad_le hquad
  rw [List.map_append, List.sum_append] at hjoin
  omega

/-- The parts around a `::`, whichever of them the quad is on. -/
structure Around (cs : List Char) (before after front : List (List Char)) (quad : Option ℕ) :
    Prop where
  parted_before : Parted ':' before
  parted_after : Parted ':' after
  groups : before ++ after = front ++ (quad.map quadText).toList
  isGroup : ∀ group ∈ front, IsGroup group
  quad_lt : ∀ v ∈ quad, v < 4294967296
  width : front.length + 2 * quad.toList.length ≤ 7
  text : cs = [':'].intercalate before ++ ':' :: ':' :: [':'].intercalate after

/-- A text accepted is eight groups in full, or fewer around a `::`. -/
lemma accepted_cases {s : String} (h : isValidIpv6 s = true) :
    (∃ f : Ipv6Form, f.Valid ∧ f.text = s.toList) ∨
      ∃ before after front quad, Around s.toList before after front quad := by
  rcases isValidIpv6_cases h with ⟨-, groups, hgroups, hwidth⟩ |
    ⟨front, back, before, after, width, hcut, -, hbefore, hafter, hwidth, hle⟩
  · obtain ⟨groups, quad, hvalid, hquad, rfl, hn⟩ := groupsWidth_eq_some.mp hwidth
    obtain ⟨-, htext⟩ := groupsOf_eq_some_iff.mp hgroups
    refine .inl ⟨⟨groups, none, quad⟩, ⟨hvalid, by simp, hquad, fun _ => ?_, by simp⟩, htext⟩
    simp only [Ipv6Form.width, Option.getD_none, List.length_nil]
    omega
  · obtain ⟨groups, quad, hvalid, hquad, hsplit, rfl⟩ := groupsWidth_eq_some.mp hwidth
    obtain ⟨hb, htextb⟩ := groupsOf_eq_some_iff.mp hbefore
    obtain ⟨ha, htexta⟩ := groupsOf_eq_some_iff.mp hafter
    refine .inr ⟨before, after, groups, quad, hb, ha, hsplit, hvalid, hquad, hle, ?_⟩
    rw [htextb, htexta]
    exact cutDoubleColon_eq_some hcut

lemma ascii_of_groups {front : List (List Char)} {quad : Option ℕ}
    (hfront : ∀ group ∈ front, IsGroup group) {part : List Char}
    (hpart : part ∈ front ++ (quad.map quadText).toList) {c : Char} (hc : c ∈ part) :
    isAddressChar c = true := by
  rcases List.mem_append.mp hpart with hpart | hpart
  · have hhex : isHexadecimal c = true := (hfront part hpart).isHex c hc
    simp [isAddressChar, hhex]
  · cases quad with
    | none => simp at hpart
    | some v =>
      rw [Option.map_some, Option.toList_some, List.mem_singleton] at hpart
      exact (isDigit_spec (isDigit_quadText (hpart ▸ hc))).1

/-- A text of addresses' characters is as long as it has characters. -/
lemma isValidIpv6_of_bounds {s : String} (hchars : ∀ c ∈ s.toList, isAddressChar c = true)
    (hpos : s.toList ≠ []) (hle : s.toList.length ≤ 45) :
    ¬ (utf16Length s = 0 ∨ 45 < utf16Length s) := by
  rw [utf16Length_of_ascii fun c hc => ascii_of_isAddressChar (hchars c hc)]
  have := List.length_pos_iff.mpr hpos
  omega

lemma length_before_after (before after : List (List Char)) :
    ([':'].intercalate before ++ ':' :: ':' :: [':'].intercalate after).length ≤
      ((before ++ after).map fun part => part.length + 1).sum + 2 := by
  have hb := length_intercalate_le before
  have ha := length_intercalate_le after
  simp only [List.length_append, List.length_cons, List.map_append, List.sum_append]
  omega

/-- Whatever stands around a `::` is accepted. -/
lemma Around.isValidIpv6 {s : String} {before after front : List (List Char)} {quad : Option ℕ}
    (h : Around s.toList before after front quad) : DnsRecords.isValidIpv6 s = true := by
  have hchars : ∀ c ∈ s.toList, isAddressChar c = true := by
    intro c hc
    have hpart {parts : List (List Char)} (hsub : ∀ part ∈ parts, part ∈ before ++ after)
        (hmem : c ∈ [':'].intercalate parts) : isAddressChar c = true := by
      rcases mem_intercalate hmem with rfl | ⟨part, hp, hcp⟩
      · rfl
      · exact ascii_of_groups h.isGroup (h.groups ▸ hsub part hp) hcp
    rw [h.text] at hc
    simp only [List.mem_append, List.mem_cons] at hc
    rcases hc with hc | rfl | rfl | hc
    · exact hpart (fun part hp => List.mem_append_left _ hp) hc
    · rfl
    · rfl
    · exact hpart (fun part hp => List.mem_append_right _ hp) hc
  have hlength : s.toList.length ≤ 45 := by
    have hle := length_before_after before after
    have hsum := sum_groups_le h.isGroup
    have hlast := sum_quad_le h.quad_lt
    have hone : quad.toList.length ≤ 1 := by cases quad <;> simp
    have hwidth := h.width
    rw [h.groups, List.map_append, List.sum_append, ← h.text] at hle
    omega
  have hne : s.toList ≠ [] := by
    rw [h.text]
    simp
  have hsecond : cutDoubleColon (':' :: [':'].intercalate after) = none := by
    rw [cutDoubleColon_eq]
    exact h.parted_after.cutPair_sep
  have hgroups : groupsWidth (before ++ after) = some (front.length + 2 * quad.toList.length) :=
    groupsWidth_eq_some.mpr ⟨front, quad, h.isGroup, h.quad_lt, h.groups, rfl⟩
  have hcut : cutDoubleColon s.toList =
      some ([':'].intercalate before, [':'].intercalate after) := by
    rw [cutDoubleColon_eq, h.text, h.parted_before.cutPair_some]
  unfold DnsRecords.isValidIpv6
  rw [if_neg (isValidIpv6_of_bounds hchars hne hlength), hcut]
  dsimp only
  rw [hsecond, groupsOf_eq_some_iff.mpr ⟨h.parted_before, rfl⟩,
    groupsOf_eq_some_iff.mpr ⟨h.parted_after, rfl⟩]
  simpa [hgroups] using h.width

/-- Where the quad, if there is one, is behind the `::`, the text is one of an address. -/
lemma Around.form {cs : List Char} {before after front : List (List Char)} {quad : Option ℕ}
    (h : Around cs before after front quad) (hend : quad = none ∨ after ≠ []) :
    ∃ f : Ipv6Form, f.Valid ∧ f.text = cs := by
  have hgroups := h.groups
  have hwidth := h.width
  cases quad with
  | none =>
    rw [Option.map_none, Option.toList_none, List.append_nil] at hgroups
    have hall := h.isGroup
    rw [← hgroups] at hall
    refine ⟨⟨before, some after, none⟩, ⟨fun g hg => hall g (List.mem_append_left _ hg),
      fun g hg => hall g (List.mem_append_right _ hg), by simp, by simp, fun _ => ?_⟩, ?_⟩
    · rw [← hgroups, List.length_append] at hwidth
      simpa [Ipv6Form.width] using hwidth
    · simp only [Ipv6Form.text, Ipv6Form.last, Option.map_none, Option.toList_none, List.append_nil]
      exact h.text.symm
  | some v =>
    have hafter : after ≠ [] := hend.resolve_left (by simp)
    obtain ⟨tail, last, rfl⟩ := (List.eq_nil_or_concat' after).resolve_left hafter
    rw [Option.map_some, Option.toList_some, ← List.append_assoc] at hgroups
    obtain ⟨rfl, hlast⟩ := List.append_inj' hgroups rfl
    obtain rfl := List.singleton_inj.mp hlast
    refine ⟨⟨before, some tail, some v⟩, ⟨fun g hg => h.isGroup g (List.mem_append_left _ hg),
      fun g hg => h.isGroup g (List.mem_append_right _ hg), h.quad_lt, by simp, fun _ => ?_⟩, ?_⟩
    · rw [List.length_append] at hwidth
      simpa [Ipv6Form.width] using hwidth
    · exact h.text.symm

/-- A text of an address is accepted. -/
lemma isValidIpv6_of_form {s : String} {f : Ipv6Form} (hf : f.Valid) (htext : f.text = s.toList) :
    isValidIpv6 s = true := by
  cases htail : f.tail with
  | none =>
    have hwidth := hf.full htail
    have hcut := hf.cut_text
    have hparted := hf.parted_append hf.head
    have hjoin : [':'].intercalate (f.head ++ f.last) = s.toList := by
      rw [← htext, Ipv6Form.text, htail]
    rw [htext, htail, Option.map_none] at hcut
    have hchars : ∀ c ∈ s.toList, isAddressChar c = true := by
      intro c hc
      rw [← hjoin] at hc
      rcases mem_intercalate hc with rfl | ⟨part, hpart, hmem⟩
      · rfl
      · exact ascii_of_groups hf.head hpart hmem
    simp only [Ipv6Form.width, htail, Option.getD_none, List.length_nil, Nat.add_zero] at hwidth
    have hone : f.quad.toList.length ≤ 1 := by cases f.quad <;> simp
    have hlength : s.toList.length ≤ 45 := by
      have hle := length_parts_le hf.head hf.quad
      rw [← hjoin, Ipv6Form.last]
      omega
    have hne : s.toList ≠ [] := by
      intro hnil
      have hparts := hparted.partsOf_intercalate
      rw [hjoin, hnil, partsOf, if_pos rfl] at hparts
      obtain ⟨hhead, -⟩ := List.append_eq_nil_iff.mp hparts.symm
      rw [hhead, List.length_nil] at hwidth
      omega
    have hgroups : groupsWidth (f.head ++ f.last) = some 8 :=
      groupsWidth_eq_some.mpr ⟨f.head, f.quad, hf.head, hf.quad, rfl, hwidth.symm⟩
    unfold isValidIpv6
    rw [if_neg (isValidIpv6_of_bounds hchars hne hlength), cutDoubleColon_eq, hcut]
    dsimp only
    rw [groupsOf_eq_some_iff.mpr ⟨hparted, hjoin⟩]
    simp [hgroups]
  | some tail =>
    have haround : Around s.toList f.head (tail ++ f.last) (f.head ++ tail) f.quad := by
      have hgroup : ∀ group ∈ tail, IsGroup group := by
        have h := hf.tail
        rwa [htail] at h
      refine ⟨Ipv6Form.parted_groups hf.head, hf.parted_append hgroup,
        (List.append_assoc _ _ _).symm, fun g hg => ?_, hf.quad, ?_, ?_⟩
      · exact (List.mem_append.mp hg).elim (hf.head g) (hgroup g)
      · have hshort := hf.short (by simp [htail])
        rw [Ipv6Form.width, htail, Option.getD_some] at hshort
        rwa [List.length_append]
      · rw [← htext, Ipv6Form.text, htail]
    exact haround.isValidIpv6

/-- Groups that end in a dotted quad, and a `::` with nothing behind it. -/
def QuadBeforeColons (cs : List Char) : Prop :=
  ∃ front v, (∀ group ∈ front, IsGroup group) ∧ v < 4294967296 ∧ front.length ≤ 5 ∧
    cs = [':'].intercalate (front ++ [quadText v]) ++ [':', ':']

lemma QuadBeforeColons.around {cs : List Char} (h : QuadBeforeColons cs) :
    ∃ front v, Around cs (front ++ [quadText v]) [] front (some v) := by
  obtain ⟨front, v, hfront, hv, hlength, rfl⟩ := h
  refine ⟨front, v, ?_, ⟨by simp, by simp⟩, List.append_nil _, hfront, by simpa using hv, ?_, rfl⟩
  · refine ⟨fun part hpart => ?_, fun part hpart => ?_⟩ <;>
      rcases List.mem_append.mp hpart with hpart | hpart
    · exact (hfront part hpart).ne_nil
    · exact List.mem_singleton.mp hpart ▸ List.ne_nil_of_mem (dot_mem_quadText v)
    · exact (hfront part hpart).notMem_colon
    · exact List.mem_singleton.mp hpart ▸ colon_notMem_quadText v
  · simp only [Option.toList_some, List.length_singleton]
    omega

/-- Such a text spells no address. -/
lemma QuadBeforeColons.not_form {cs : List Char} (h : QuadBeforeColons cs) {f : Ipv6Form}
    (hf : f.Valid) : f.text ≠ cs := by
  intro htext
  obtain ⟨front, v, haround⟩ := h.around
  have hcut := hf.cut_text
  rw [htext, haround.text, haround.parted_before.cutPair_some] at hcut
  obtain ⟨tail, -, hparts⟩ := Option.map_eq_some_iff.mp hcut.symm
  have hhead : f.head = front ++ [quadText v] := by
    rw [← (Ipv6Form.parted_groups hf.head).partsOf_intercalate, (Prod.mk.inj hparts).1,
      haround.parted_before.partsOf_intercalate]
  exact (hf.head (quadText v) (by simp [hhead])).notMem_dot (dot_mem_quadText v)

/-- **What is accepted.** The texts of addresses, and those with a quad before a final `::`. -/
theorem isValidIpv6_iff {s : String} :
    isValidIpv6 s = true ↔
      (∃ f : Ipv6Form, f.Valid ∧ f.text = s.toList) ∨ QuadBeforeColons s.toList := by
  constructor
  · intro h
    rcases accepted_cases h with hform | ⟨before, after, front, quad, haround⟩
    · exact .inl hform
    by_cases hend : quad = none ∨ after ≠ []
    · exact .inl (haround.form hend)
    · obtain ⟨hquad, hafter⟩ := not_or.mp hend
      obtain ⟨v, rfl⟩ := Option.ne_none_iff_exists'.mp hquad
      obtain rfl := not_not.mp hafter
      have hgroups := haround.groups
      rw [List.append_nil, Option.map_some, Option.toList_some] at hgroups
      have hwidth := haround.width
      simp only [Option.toList_some, List.length_singleton] at hwidth
      refine .inr ⟨front, v, haround.isGroup, haround.quad_lt v rfl, by omega, ?_⟩
      rw [haround.text, hgroups]
      rfl
  · rintro (⟨f, hf, htext⟩ | hquad)
    · exact isValidIpv6_of_form hf htext
    · obtain ⟨front, v, haround⟩ := hquad.around
      exact haround.isValidIpv6

/-! ### What is stored -/

/-- An AAAA value stored passes the check again. -/
lemma isValidIpv6_of_create {toLowerCase toUpperCase : String → String}
    (hlower : LowersAscii toLowerCase) {body : Value} {record : DnsRecordInput}
    (h : parseCreateDnsRecordRequest toLowerCase toUpperCase body = .ok record)
    (htype : record.type = .AAAA) : isValidIpv6 record.value = true := by
  unfold parseCreateDnsRecordRequest at h
  split at h
  · simp [fail] at h
  simp only [bind_eq_ok] at h
  obtain ⟨type, -, name, -, raw, -, priority, -, ttl, -, value, hvalue, hrecord⟩ := h
  obtain rfl := Except.ok.inj hrecord
  obtain rfl : type = .AAAA := htype
  unfold parseValue at hvalue
  dsimp only at hvalue ⊢
  split at hvalue
  next hvalid =>
    obtain rfl := Except.ok.inj hvalue
    rw [hlower _ fun c hc => ascii_of_isAddressChar (mem_of_isValidIpv6 hvalid hc)]
    exact isValidIpv6_asciiLower hvalid
  · simp [fail] at hvalue

/-- **IPv6 text.** The check takes a text for an address exactly where it spells one, and an AAAA
value stored denotes exactly one address, unless a dotted quad stands before a final `::`. -/
theorem isValidIpv6_exact {toLowerCase toUpperCase : String → String}
    (hlower : LowersAscii toLowerCase) :
    (∀ s : String, (isValidIpv6 s = true ↔ ∃ f : Ipv6Form, f.Valid ∧ f.text = s.toList) ↔
      ¬ QuadBeforeColons s.toList) ∧
    ∀ (body : Value) (record : DnsRecordInput),
      parseCreateDnsRecordRequest toLowerCase toUpperCase body = .ok record →
      record.type = .AAAA →
      ((∃! n : BitVec 128, Ipv6Form.Denotes record.value.toList n.toNat) ↔
        ¬ QuadBeforeColons record.value.toList) := by
  have hexact (s : String) : (isValidIpv6 s = true ↔ ∃ f : Ipv6Form, f.Valid ∧ f.text = s.toList) ↔
      ¬ QuadBeforeColons s.toList := by
    rw [isValidIpv6_iff]
    constructor
    · intro h hquad
      obtain ⟨f, hf, htext⟩ := h.mp (.inr hquad)
      exact hquad.not_form hf htext
    · exact fun h => or_iff_left h
  refine ⟨hexact, fun body record hparse htype => ?_⟩
  have hvalid := isValidIpv6_of_create hlower hparse htype
  constructor
  · rintro ⟨n, ⟨f, hf, htext, -⟩, -⟩ hquad
    exact hquad.not_form hf htext
  · intro hquad
    obtain ⟨f, hf, htext⟩ := ((hexact record.value).mpr hquad).mp hvalid
    rw [← htext]
    exact hf.denotes

theorem isValidIpv6_exact_loopback :
    ∃! n : BitVec 128, Ipv6Form.Denotes "::1".toList n.toNat := by
  have hparse : Ipv6Form.parse "::1".toList = some ⟨[], some [['1']], none⟩ := by decide
  obtain ⟨hvalid, htext⟩ := Ipv6Form.parse_eq_some.mp hparse
  refine ((@isValidIpv6_exact asciiLower id fun _ _ => rfl).2
    (.object [("type", .string "AAAA"), ("name", .string "@"), ("value", .string "::1")])
    ⟨.AAAA, "@", "::1", 3600⟩ (by decide) rfl).mpr ?_
  exact fun hquad => hquad.not_form hvalid htext

/-- A dotted quad before a final `::` is taken for an address, and an AAAA record of it stored. -/
theorem isValidIpv6_quadBeforeColons :
    isValidIpv6 "1.2.3.4::" = true ∧
      (¬ ∃ f : Ipv6Form, f.Valid ∧ f.text = "1.2.3.4::".toList) ∧
      parseCreateDnsRecordRequest asciiLower id (.object [("type", .string "AAAA"),
        ("name", .string "@"), ("value", .string "1.2.3.4::")]) =
          .ok ⟨.AAAA, "@", "1.2.3.4::", 3600⟩ ∧
      ¬ ∃ n : BitVec 128, Ipv6Form.Denotes "1.2.3.4::".toList n.toNat := by
  have hquad : QuadBeforeColons "1.2.3.4::".toList :=
    ⟨[], 16909060, by simp, by decide, by decide, by decide⟩
  have hnot : ¬ ∃ f : Ipv6Form, f.Valid ∧ f.text = "1.2.3.4::".toList :=
    fun ⟨_, hf, htext⟩ => hquad.not_form hf htext
  exact ⟨by decide, hnot, by decide,
    fun ⟨_, f, hf, htext, _⟩ => hnot ⟨f, hf, htext⟩⟩

end Tnp.SharedTypes.DnsRecords
