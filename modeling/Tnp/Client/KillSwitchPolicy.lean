import Tnp.Client.KillSwitch

/-!
The rules of every platform enforce one policy.

Windows has no exceptions to a block, so that what it blocks is written as the ranges between the
addresses that may pass. They are in order, apart, and hold every other address.
-/

namespace Tnp.Client.KillSwitch

open Tnp.Lib Tnp.Lib.Ipv6 Tnp.Net

/-! ### Numbers and their texts -/

lemma ipv4ToBigInt_quadText {v : ℕ} (h : v < 4294967296) : ipv4ToBigInt (quadText v) = v :=
  foldl_octets h

lemma bigIntToIpv4_eq {n : ℕ} (h : n < 4294967296) : bigIntToIpv4 n = quadText n := octets_eq h

/-- The parts of a text, and a quad at the end of them as two groups. -/
lemma groups_intercalate {front : List (List Char)} {f : Ipv6Form} (hf : f.Valid)
    (hfront : ∀ group ∈ front, IsGroup group) :
    groups ([':'].intercalate (front ++ f.last)) =
      front.map groupValue ++ f.quad.toList.flatMap fun v => [v / 65536, v % 65536] := by
  have hparts := (hf.parted_append hfront).partsOf_intercalate
  generalize [':'].intercalate (front ++ f.last) = part at hparts
  have hgroup : ∀ g ∈ front, (if '.' ∈ g then
      [ipv4ToBigInt g / 0x10000, ipv4ToBigInt g &&& 0xffff]
      else [groupValue (g.takeWhile isHex)]) = [groupValue g] := by
    intro g hg
    rw [if_neg (hfront g hg).notMem_dot, List.takeWhile_eq_self_iff.mpr (hfront g hg).isHex]
  have hread : groups part = (partsOf ':' part).flatMap fun g => if '.' ∈ g then
      [ipv4ToBigInt g / 0x10000, ipv4ToBigInt g &&& 0xffff]
      else [groupValue (g.takeWhile isHex)] := by
    unfold groups partsOf
    split <;> rfl
  rw [hread, hparts, List.flatMap_append]
  congr 1
  · rw [List.map_eq_flatMap]
    exact List.flatMap_congr fun g hg => hgroup g hg
  · unfold Ipv6Form.last
    cases hquad : f.quad with
    | none => rfl
    | some v =>
      have hmask : v &&& 0xffff = v % 65536 := Nat.and_two_pow_sub_one_eq_mod v 16
      simp only [Option.map_some, Option.toList_some, List.flatMap_cons, List.flatMap_nil,
        List.append_nil, if_pos (dot_mem_quadText v), ipv4ToBigInt_quadText (hf.quad v hquad),
        hmask]

/-- Any spelling of an IPv6 address is read as the address. -/
lemma ipv6ToBigInt_text {f : Ipv6Form} (hf : f.Valid) : ipv6ToBigInt f.text = f.number := by
  have hvalues : allGroups f.text = f.values := by
    unfold allGroups
    rw [hf.cut_text]
    cases htail : f.tail with
    | none =>
      have htext : f.text = [':'].intercalate (f.head ++ f.last) := by
        rw [Ipv6Form.text, htail]
      have hwidth := hf.full htail
      simp only [Option.map_none, htext, groups_intercalate hf hf.head, Ipv6Form.values, htail,
        hwidth, Nat.sub_self, List.replicate_zero, List.append_nil, Option.getD_none, List.map_nil]
    | some tail =>
      have hgroups : ∀ group ∈ tail, IsGroup group := fun g hg =>
        hf.tail g (by rw [htail]; exact hg)
      have hnone := (hf.parted_append hgroups).cutPair_none
      have hheads : groups ([':'].intercalate f.head) = f.head.map groupValue := by
        have hempty : (⟨[], some [], none⟩ : Ipv6Form).Valid := by decide
        have hread := @groups_intercalate f.head _ hempty hf.head
        simpa [Ipv6Form.last] using hread
      have hlength : (f.quad.toList.flatMap fun v => [v / 65536, v % 65536]).length =
          2 * f.quad.toList.length := by
        cases f.quad <;> rfl
      simp only [Option.map_some, hnone, Option.map_none, Option.getD_none, hheads,
        groups_intercalate hf hgroups, Ipv6Form.values, htail, Option.getD_some, Ipv6Form.width,
        List.length_append, List.length_map, hlength, List.append_assoc]
      congr 3
      omega
  have hlt : ∀ n ∈ f.values, n < 2 ^ 16 := fun n hn => hf.lt_of_mem_values hn
  rw [ipv6ToBigInt, hvalues, foldl_or hlt 0]
  rfl

/-- Eight groups, written in full. -/
def groupsOf (n : ℕ) : List ℕ :=
  [7, 6, 5, 4, 3, 2, 1, 0].map fun i => (n >>> (i * 16)) &&& 0xffff

lemma groupsOf_spec {n : ℕ} (h : n < 2 ^ 128) : (∀ g ∈ groupsOf n, g < 65536) ∧
    (groupsOf n).foldl (fun acc g => 65536 * acc + g) 0 = n := by
  have hmask (m : ℕ) : m &&& 0xffff = m % 65536 := Nat.and_two_pow_sub_one_eq_mod m 16
  simp only [groupsOf, List.map_cons, List.map_nil, hmask, Nat.shiftRight_eq_div_pow,
    List.foldl_cons, List.foldl_nil, List.forall_mem_cons]
  norm_num
  omega

lemma read_bigIntToIpv6 {n : ℕ} (h : n < 2 ^ 128) :
    ((Ipv6Form.parse (bigIntToIpv6 n)).map Ipv6Form.number) = some n := by
  obtain ⟨hlt, hfold⟩ := groupsOf_spec h
  let f : Ipv6Form := ⟨(groupsOf n).map (Nat.toDigits 16), none, none⟩
  have hf : f.Valid := by
    refine ⟨fun group hgroup => ?_, by simp [f], by simp [f], fun _ => rfl, by simp [f]⟩
    obtain ⟨g, hg, rfl⟩ := List.mem_map.mp hgroup
    exact isGroup_toDigits (hlt g hg)
  have htext : f.text = bigIntToIpv6 n := by
    simp only [f, Ipv6Form.text, Ipv6Form.last, Option.map_none, Option.toList_none,
      List.append_nil, bigIntToIpv6, groupsOf, List.map_map]
    rfl
  have hvalues : f.values = groupsOf n := by
    have hback : ((groupsOf n).map (Nat.toDigits 16)).map groupValue = groupsOf n := by
      rw [List.map_map]
      exact (List.map_congr_left fun g _ => (digits_spec g).2).trans (List.map_id _)
    have hwidth : f.width = 8 := rfl
    simp only [Ipv6Form.values, hwidth]
    simpa [f] using hback
  rw [Ipv6Form.parse_eq_some.mpr ⟨hf, htext⟩, Option.map_some, Ipv6Form.number, hvalues, hfold]

/-! ### The complement -/

/-- The loop finds the gaps. -/
lemma complement_eq (excluded : List (ℕ × ℕ)) (max : ℕ) :
    complement excluded max = gaps excluded max := by
  have hloop (l : List (ℕ × ℕ)) (found : Found) :
      (if (l.foldl Found.add found).next ≤ max then
        (l.foldl Found.add found).gaps ++ [((l.foldl Found.add found).next, max)]
      else (l.foldl Found.add found).gaps) = found.gaps ++ gapsFrom max found.next l := by
    induction l generalizing found with
    | nil =>
      by_cases hle : found.next ≤ max
      · simp [gapsFrom, hle]
      · simp [gapsFrom, hle]
    | cons r l ih =>
      obtain ⟨lo, hi⟩ := r
      rw [List.foldl_cons, ih, gapsFrom, ← List.append_assoc]
      congr 1
      simp only [Found.add]
      split <;> simp
  exact (hloop _ {}).trans (List.nil_append _)

/-! ### What a packet may reach -/

/-- The destination is loopback, or in the allow list. -/
def KillSwitchAllow.Permits (allow : KillSwitchAllow) (p : Packet) : Prop :=
  match p.family with
  | .v4 => p.destination / 2 ^ 24 = 127 ∨
    ∃ a ∈ allow.v4, Family.v4.read a.toList = some p.destination
  | .v6 => p.destination = 1 ∨ ∃ a ∈ allow.v6, Family.v6.read a.toList = some p.destination

/-- Plain DNS to where it may not go. -/
def KillSwitchAllow.Blocks (allow : KillSwitchAllow) (p : Packet) : Prop :=
  p.protocol.isSome ∧ p.port = 53 ∧ ¬ allow.Permits p

/-- Literals of either family, in any spelling. -/
structure KillSwitchAllow.Valid (allow : KillSwitchAllow) : Prop where
  v4 : ∀ a ∈ allow.v4, (Family.v4.read a.toList).isSome
  v6 : ∀ a ∈ allow.v6, (Family.v6.read a.toList).isSome

def KillSwitchAllow.of (allow : KillSwitchAllow) : Family → List String
  | .v4 => allow.v4
  | .v6 => allow.v6

/-- What covers loopback. -/
structure CoversLoopback (family : Family) (dst : String) : Prop where
  iff : ∀ n < 2 ^ family.bits, family.covers dst n = true ↔
    match family with
    | .v4 => n / 2 ^ 24 = 127
    | .v6 => n = 1

lemma permits_iff {allow : KillSwitchAllow} (hvalid : allow.Valid) {p : Packet} {loopback : String}
    (hloopback : CoversLoopback p.family loopback) (hp : p.destination < 2 ^ p.family.bits) :
    allow.Permits p ↔
      ∃ dst ∈ loopback :: allow.of p.family, p.family.covers dst p.destination = true := by
  have hliteral {family : Family} {dst : String} (hdst : (family.read dst.toList).isSome) :
      family.covers dst p.destination = true ↔ family.read dst.toList = some p.destination := by
    obtain ⟨a, ha⟩ := Option.isSome_iff_exists.mp hdst
    rw [covers_literal ha, ha, Option.some.injEq, eq_comm]
  have hloop := hloopback.iff _ hp
  unfold KillSwitchAllow.Permits
  obtain ⟨family, protocol, destination, port⟩ := p
  cases family with
  | v4 =>
    simp only [List.exists_mem_cons_iff, KillSwitchAllow.of, hloop]
    refine or_congr Iff.rfl (exists_congr fun a => and_congr_right fun ha => ?_)
    exact (hliteral (hvalid.v4 a ha)).symm
  | v6 =>
    simp only [List.exists_mem_cons_iff, KillSwitchAllow.of, hloop]
    refine or_congr Iff.rfl (exists_congr fun a => and_congr_right fun ha => ?_)
    exact (hliteral (hvalid.v6 a ha)).symm

/-! ### First match -/

/-- Exceptions before blocks: what drops is no exception. -/
lemma firstMatch_eq_drop {α : Type*} {verdict : α → Packet → Option Verdict}
    {exceptions blocks : List α} {p : Packet}
    (hexceptions : ∀ r ∈ exceptions, verdict r p ≠ some .drop)
    (hblocks : ∀ r ∈ blocks, verdict r p ≠ some .pass) :
    firstMatch verdict (exceptions ++ blocks) p = .drop ↔
      (∀ r ∈ exceptions, verdict r p = none) ∧ ∃ r ∈ blocks, verdict r p = some .drop := by
  unfold firstMatch
  induction exceptions with
  | nil =>
    simp only [List.nil_append, List.not_mem_nil, IsEmpty.forall_iff, implies_true, true_and]
    cases hfind : blocks.findSome? (verdict · p) with
    | none =>
      have hnone := List.findSome?_eq_none_iff.mp hfind
      constructor
      · intro h
        cases h
      · rintro ⟨r, hr, hdrop⟩
        rw [hnone r hr] at hdrop
        cases hdrop
    | some v =>
      obtain ⟨r, hr, hv⟩ := List.exists_of_findSome?_eq_some hfind
      cases v with
      | pass => exact absurd hv (hblocks r hr)
      | drop => exact ⟨fun _ => ⟨r, hr, hv⟩, fun _ => rfl⟩
  | cons r rest ih =>
    obtain ⟨hr, hrest⟩ := List.forall_mem_cons.mp hexceptions
    rw [List.cons_append, List.findSome?_cons, List.forall_mem_cons]
    cases hv : verdict r p with
    | none => simpa using ih hrest
    | some v =>
      cases v with
      | pass => simp
      | drop => exact absurd hv hr

/-! ### The rules -/

section Rules

variable {allow : KillSwitchAllow} {p : Packet}

/-- Whether the packet is plain DNS. -/
def Packet.IsDns (p : Packet) : Prop := p.protocol.isSome ∧ p.port = 53

lemma coversLoopback_v4 : CoversLoopback .v4 "127.0.0.0/8" where
  iff n _ := by
    have hread : Family.v4.read ("127.0.0.0/8".toList.takeWhile (· ≠ '/')) = some 2130706432 := by
      decide
    have hlength : Nat.ofDigitChars 10 ("127.0.0.0/8".toList.dropWhile (· ≠ '/')).tail 0 = 8 := by
      decide
    have hne : "127.0.0.0/8".toList.dropWhile (· ≠ '/') ≠ [] := by decide
    unfold Family.covers
    dsimp only
    rw [hread, if_neg hne, hlength]
    simp only [Option.any_some, Family.bits, Nat.reduceSub, Nat.shiftRight_eq_div_pow, beq_iff_eq]
    omega

lemma coversLoopback_v6 : CoversLoopback .v6 "::1" where
  iff n _ := covers_literal (show Family.v6.read "::1".toList = some 1 by decide)

lemma coversLoopback_v6_prefix : CoversLoopback .v6 "::1/128" where
  iff n _ := by
    have hread : Family.v6.read ("::1/128".toList.takeWhile (· ≠ '/')) = some 1 := by decide
    have hlength : Nat.ofDigitChars 10 ("::1/128".toList.dropWhile (· ≠ '/')).tail 0 = 128 := by
      decide
    have hne : "::1/128".toList.dropWhile (· ≠ '/') ≠ [] := by decide
    unfold Family.covers
    dsimp only
    rw [hread, if_neg hne, hlength]
    simp only [Option.any_some, Family.bits, Nat.sub_self, Nat.shiftRight_zero, beq_iff_eq]
    exact eq_comm

/-- The loopback of each family, as most of the tools have it. -/
def loopbackOf : Family → String
  | .v4 => "127.0.0.0/8"
  | .v6 => "::1"

lemma coversLoopback (family : Family) : CoversLoopback family (loopbackOf family) := by
  cases family with
  | v4 => exact coversLoopback_v4
  | v6 => exact coversLoopback_v6

/-- A rule set blocks what it should where its exceptions are the destinations that are permitted,
and what is no exception is blocked where it is plain DNS. -/
lemma eq_drop_iff_blocks {verdict : Verdict} {loopback : String} (hvalid : allow.Valid)
    (hp : p.destination < 2 ^ p.family.bits) (hloopback : CoversLoopback p.family loopback)
    (h : verdict = .drop ↔ p.IsDns ∧
      ∀ dst ∈ loopback :: allow.of p.family, ¬ p.family.covers dst p.destination = true) :
    verdict = .drop ↔ allow.Blocks p := by
  rw [h, KillSwitchAllow.Blocks, permits_iff hvalid hloopback hp, Packet.IsDns, and_assoc]
  simp only [not_exists, not_and]

/-- The destinations that both families' rules let through. -/
def exceptions (allow : KillSwitchAllow) : List (Family × String) :=
  [(.v4, "127.0.0.0/8"), (.v6, "::1")] ++ allow.v4.map (.v4, ·) ++ allow.v6.map (.v6, ·)

lemma exceptions_iff : (∀ e ∈ exceptions allow,
      ¬ (p.family = e.1 ∧ e.1.covers e.2 p.destination = true)) ↔
    ∀ dst ∈ loopbackOf p.family :: allow.of p.family,
      ¬ p.family.covers dst p.destination = true := by
  obtain ⟨family, protocol, destination, port⟩ := p
  cases family <;>
    simp [exceptions, loopbackOf, KillSwitchAllow.of, or_imp, forall_and]

/-- The two rules for an exception. -/
def nftAccepts (e : Family × String) : List NftRule := [.accept e.1 e.2 .udp, .accept e.1 e.2 .tcp]

lemma nftRules_eq : nftRules allow =
    (exceptions allow).flatMap nftAccepts ++ [.drop .udp, .drop .tcp] := by
  simp [nftRules, exceptions, nftAccepts, List.flatMap_map]

lemma nftAccepts_iff {e : Family × String} : (∀ r ∈ nftAccepts e, r.verdict p = none) ↔
    (p.IsDns → ¬ (p.family = e.1 ∧ e.1.covers e.2 p.destination = true)) := by
  obtain ⟨family, protocol, destination, port⟩ := p
  cases protocol with
  | none => simp [nftAccepts, NftRule.verdict, Packet.IsDns]
  | some protocol => cases protocol <;> simp [nftAccepts, NftRule.verdict, Packet.IsDns] <;> tauto

lemma nft_blocks (hvalid : allow.Valid) (hp : p.destination < 2 ^ p.family.bits) :
    nftVerdict allow p = .drop ↔ allow.Blocks p := by
  refine eq_drop_iff_blocks hvalid hp (coversLoopback p.family) ?_
  have hdrop : (∃ r ∈ [NftRule.drop .udp, .drop .tcp], r.verdict p = some .drop) ↔ p.IsDns := by
    obtain ⟨family, protocol, destination, port⟩ := p
    cases protocol with
    | none => simp [NftRule.verdict, Packet.IsDns]
    | some protocol => cases protocol <;> simp [NftRule.verdict, Packet.IsDns]
  rw [nftVerdict, nftRules_eq, firstMatch_eq_drop, hdrop, and_comm, ← exceptions_iff]
  · refine and_congr_right fun hdns => ?_
    simp only [List.mem_flatMap, forall_exists_index, and_imp]
    constructor
    · exact fun h e he => nftAccepts_iff.mp (fun r hr => h r e he hr) hdns
    · exact fun h r e he hr => nftAccepts_iff.mpr (fun _ => h e he) r hr
  · intro r hr
    obtain ⟨e, -, hr⟩ := List.mem_flatMap.mp hr
    simp only [nftAccepts, List.mem_cons, List.not_mem_nil, or_false] at hr
    rcases hr with rfl | rfl <;> simp [NftRule.verdict]
  · intro r hr
    simp only [List.mem_cons, List.not_mem_nil, or_false] at hr
    rcases hr with rfl | rfl <;> simp [NftRule.verdict]

def pfPass (e : Family × String) : PfRule := .pass (e.1 = .v6) e.2

lemma pfAnchor_eq : pfAnchor allow = (exceptions allow).map pfPass ++ [.block] := by
  simp only [pfAnchor, exceptions, List.map_append, List.map_map]
  rfl

lemma pfPass_iff {e : Family × String} : (pfPass e).verdict p = none ↔
    (p.IsDns → ¬ (p.family = e.1 ∧ e.1.covers e.2 p.destination = true)) := by
  obtain ⟨family, dst⟩ := e
  cases family <;> simp [pfPass, PfRule.verdict, Packet.IsDns] <;> tauto

lemma pf_blocks (hvalid : allow.Valid) (hp : p.destination < 2 ^ p.family.bits) :
    pfVerdict allow p = .drop ↔ allow.Blocks p := by
  refine eq_drop_iff_blocks hvalid hp (coversLoopback p.family) ?_
  have hdrop : (∃ r ∈ [PfRule.block], r.verdict p = some .drop) ↔ p.IsDns := by
    simp [PfRule.verdict, Packet.IsDns]
  rw [pfVerdict, pfAnchor_eq, firstMatch_eq_drop, hdrop, and_comm, ← exceptions_iff]
  · refine and_congr_right fun hdns => ?_
    rw [List.forall_mem_map]
    exact forall₂_congr fun e _ => by rw [pfPass_iff, forall_prop_of_true hdns]
  · rw [List.forall_mem_map]
    intro e _
    simp [pfPass, PfRule.verdict]
  · simp [PfRule.verdict]

/-- One tool's chain, for the packets of its family. -/
lemma chain_blocks {family : Family} {loopback : String} {allowed : List String} :
    firstMatch (IptRule.verdict family) (iptablesChain loopback allowed) p = .drop ↔
      p.IsDns ∧ ∀ dst ∈ loopback :: allowed, ¬ family.covers dst p.destination = true := by
  have hdrop : (∃ r ∈ [Protocol.udp, .tcp].map fun protocol => (⟨none, protocol, .DROP⟩ : IptRule),
      r.verdict family p = some .drop) ↔ p.IsDns := by
    obtain ⟨_, protocol, destination, port⟩ := p
    cases protocol with
    | none => simp [IptRule.verdict, Packet.IsDns]
    | some protocol => cases protocol <;> simp [IptRule.verdict, Packet.IsDns]
  have hreturns (dst : String) : (∀ r ∈ [Protocol.udp, .tcp].map fun protocol =>
        (⟨some dst, protocol, .RETURN⟩ : IptRule), r.verdict family p = none) ↔
      (p.IsDns → ¬ family.covers dst p.destination = true) := by
    obtain ⟨_, protocol, destination, port⟩ := p
    cases protocol with
    | none => simp [IptRule.verdict, Packet.IsDns]
    | some protocol => cases protocol <;> simp [IptRule.verdict, Packet.IsDns]
  rw [iptablesChain, firstMatch_eq_drop, hdrop, and_comm]
  · refine and_congr_right fun hdns => ?_
    constructor
    · intro h dst hdst
      exact (hreturns dst).mp (fun r hr => h r (List.mem_flatMap.mpr ⟨dst, hdst, hr⟩)) hdns
    · intro h r hr
      obtain ⟨dst, hdst, hr⟩ := List.mem_flatMap.mp hr
      exact (hreturns dst).mpr (fun _ => h dst hdst) r hr
  · intro r hr
    obtain ⟨dst, -, hr⟩ := List.mem_flatMap.mp hr
    obtain ⟨protocol, -, rfl⟩ := List.mem_map.mp hr
    simp [IptRule.verdict]
  · intro r hr
    obtain ⟨protocol, -, rfl⟩ := List.mem_map.mp hr
    simp [IptRule.verdict]

lemma iptables_blocks (hvalid : allow.Valid) (hp : p.destination < 2 ^ p.family.bits) :
    iptablesVerdict allow p = .drop ↔ allow.Blocks p := by
  unfold iptablesVerdict
  split
  · next hfamily =>
    refine eq_drop_iff_blocks hvalid hp (hfamily ▸ coversLoopback_v4) ?_
    rw [hfamily]
    exact chain_blocks
  · next hfamily =>
    refine eq_drop_iff_blocks hvalid hp (hfamily ▸ coversLoopback_v6_prefix) ?_
    rw [hfamily]
    exact chain_blocks

/-! ### The ranges -/

/-- A range of addresses in the syntax of `netsh` is read as it was written. -/
lemma spans_rangeText {family : Family} {address : ℕ → List Char} {g : ℕ × ℕ} {n : ℕ}
    (hread : ∀ a ∈ [g.1, g.2], family.read (address a) = some a) :
    family.spans (rangeText address g) n = true ↔ InRange g n := by
  obtain ⟨lo, hi⟩ := g
  simp only [List.forall_mem_cons] at hread
  obtain ⟨hlo, hhi, -⟩ := hread
  have hhyphen : ∀ c ∈ address lo, (decide (c ≠ '-')) = true := fun c hc =>
    decide_eq_true fun heq => (notMem_of_read hlo).2 (heq ▸ hc)
  unfold Family.spans rangeText
  dsimp only
  split
  · next heq =>
    subst heq
    rw [String.toList_ofList, List.takeWhile_eq_self_iff.mpr hhyphen,
      List.dropWhile_eq_nil_iff.mpr hhyphen, if_pos rfl, hlo]
    simp [InRange]
  · rw [String.toList_ofList, List.takeWhile_append_of_pos hhyphen,
      List.dropWhile_append_of_pos hhyphen]
    simp [hlo, hhi, InRange]

/-- The ranges hold what no excluded range holds. -/
lemma ranges_spans {family : Family} {address : ℕ → List Char} {max : ℕ}
    {excluded : List (ℕ × ℕ)} (hproper : ∀ r ∈ excluded, r.1 ≤ r.2 ∧ r.2 ≤ max)
    (hread : ∀ a ≤ max, family.read (address a) = some a) {n : ℕ} (hn : n ≤ max) :
    (∃ range ∈ (complement excluded max).map (rangeText address), family.spans range n = true) ↔
      ∀ r ∈ excluded, ¬ InRange r n := by
  obtain ⟨-, hbound, hmem⟩ := gaps_spec hproper
  have hspans : ∀ g ∈ gaps excluded max,
      (family.spans (rangeText address g) n = true ↔ InRange g n) := by
    intro g hg
    obtain ⟨hle, hmax⟩ := hbound g hg
    refine spans_rangeText ?_
    simp only [List.forall_mem_cons, List.not_mem_nil, IsEmpty.forall_iff, implies_true, and_true]
    exact ⟨hread _ (hle.trans hmax), hread _ hmax⟩
  rw [complement_eq, ← hmem n hn]
  constructor
  · rintro ⟨range, hrange, hspan⟩
    obtain ⟨g, hg, rfl⟩ := List.mem_map.mp hrange
    exact ⟨g, hg, (hspans g hg).mp hspan⟩
  · rintro ⟨g, hg, hin⟩
    exact ⟨_, List.mem_map_of_mem hg, (hspans g hg).mpr hin⟩

lemma inRange_single {a n : ℕ} : InRange (a, a) n ↔ n = a := by
  unfold InRange
  omega

lemma ipv4BlockRanges_spans {allowed : List String}
    (hvalid : ∀ a ∈ allowed, (Family.v4.read a.toList).isSome) {n : ℕ} (hn : n < 2 ^ 32) :
    (∃ range ∈ ipv4BlockRanges allowed, Family.v4.spans range n = true) ↔
      ¬ (n / 2 ^ 24 = 127 ∨ ∃ a ∈ allowed, Family.v4.read a.toList = some n) := by
  have hvalue : ∀ a ∈ allowed, ∃ v, Family.v4.read a.toList = some v ∧
      ipv4ToBigInt a.toList = v ∧ v ≤ 4294967295 := by
    intro a ha
    obtain ⟨v, hv⟩ := Option.isSome_iff_exists.mp (hvalid a ha)
    obtain ⟨hlt, htext⟩ := readQuad_eq_some.mp hv
    exact ⟨v, hv, by rw [← htext, ipv4ToBigInt_quadText hlt], by omega⟩
  have hread : ∀ a ≤ 4294967295, Family.v4.read (bigIntToIpv4 a) = some a := fun a ha =>
    readQuad_eq_some.mpr ⟨by omega, (bigIntToIpv4_eq (by omega)).symm⟩
  have hlo : ipv4ToBigInt "127.0.0.0".toList = 2130706432 := by decide
  have hhi : ipv4ToBigInt "127.255.255.255".toList = 2147483647 := by decide
  unfold ipv4BlockRanges
  dsimp only
  rw [hlo, hhi]
  refine (ranges_spans ?_ hread (by omega)).trans ?_
  · rw [List.forall_mem_cons, List.forall_mem_map]
    refine ⟨⟨by decide, by decide⟩, fun a ha => ⟨Nat.le_refl _, ?_⟩⟩
    obtain ⟨v, -, hv, hle⟩ := hvalue a ha
    exact hv.le.trans hle
  · rw [List.forall_mem_cons, List.forall_mem_map, not_or, not_exists]
    refine and_congr ?_ (forall_congr' fun a => ?_)
    · unfold InRange
      dsimp only
      omega
    · rw [not_and]
      refine forall_congr' fun ha => not_congr ?_
      obtain ⟨v, hv, hvalue, -⟩ := hvalue a ha
      rw [inRange_single, hv, hvalue, Option.some.injEq, eq_comm]

lemma ipv6BlockRanges_spans {allowed : List String}
    (hvalid : ∀ a ∈ allowed, (Family.v6.read a.toList).isSome) {n : ℕ} (hn : n < 2 ^ 128) :
    (∃ range ∈ ipv6BlockRanges allowed, Family.v6.spans range n = true) ↔
      ¬ (n = 1 ∨ ∃ a ∈ allowed, Family.v6.read a.toList = some n) := by
  have hmax : 1 <<< 128 - 1 = 2 ^ 128 - 1 := by decide
  have hvalue : ∀ a ∈ allowed, ∃ v, Family.v6.read a.toList = some v ∧
      ipv6ToBigInt a.toList = v ∧ v ≤ 2 ^ 128 - 1 := by
    intro a ha
    obtain ⟨v, hv⟩ := Option.isSome_iff_exists.mp (hvalid a ha)
    obtain ⟨f, hparse, rfl⟩ := Option.map_eq_some_iff.mp hv
    obtain ⟨hf, htext⟩ := Ipv6Form.parse_eq_some.mp hparse
    exact ⟨_, hv, by rw [← htext, ipv6ToBigInt_text hf], Nat.le_sub_one_of_lt hf.number_lt⟩
  have hread : ∀ a ≤ 2 ^ 128 - 1, Family.v6.read (bigIntToIpv6 a) = some a := fun a ha =>
    read_bigIntToIpv6 (by omega)
  unfold ipv6BlockRanges
  dsimp only
  rw [hmax]
  refine (ranges_spans ?_ hread (by omega)).trans ?_
  · rw [List.forall_mem_cons, List.forall_mem_map]
    refine ⟨⟨Nat.le_refl 1, by decide⟩, fun a ha => ⟨Nat.le_refl _, ?_⟩⟩
    obtain ⟨v, -, hv, hle⟩ := hvalue a ha
    exact hv.le.trans hle
  · rw [List.forall_mem_cons, List.forall_mem_map, not_or, not_exists]
    refine and_congr (not_congr inRange_single) (forall_congr' fun a => ?_)
    rw [not_and]
    refine forall_congr' fun ha => not_congr ?_
    obtain ⟨v, hv, hvalue, -⟩ := hvalue a ha
    rw [inRange_single, hv, hvalue, Option.some.injEq, eq_comm]

/-- What a rule of Windows is for. -/
lemma remote_spans (hvalid : allow.Valid) {rule : NetshRule} (hfamily : p.family = rule.family)
    (hp : p.destination < 2 ^ p.family.bits) :
    (∃ range ∈ rule.remote allow, rule.family.spans range p.destination = true) ↔
      ¬ allow.Permits p := by
  obtain ⟨name, protocol, family⟩ := rule
  obtain ⟨_, _, destination, port⟩ := p
  dsimp only at hfamily hp ⊢
  subst hfamily
  rename_i family _
  cases family with
  | v4 => exact ipv4BlockRanges_spans hvalid.v4 hp
  | v6 => exact ipv6BlockRanges_spans hvalid.v6 hp

lemma netsh_blocks (hvalid : allow.Valid) (hp : p.destination < 2 ^ p.family.bits) :
    netshVerdict allow p = .drop ↔ allow.Blocks p := by
  have hverdict : netshVerdict allow p = .drop ↔ ∃ rule ∈ NETSH_RULES, p.family = rule.family ∧
      p.protocol = some rule.protocol ∧ p.port = 53 ∧
        ∃ range ∈ rule.remote allow, rule.family.spans range p.destination = true := by
    unfold netshVerdict
    split
    · next hany =>
      refine ⟨fun _ => ?_, fun _ => rfl⟩
      simpa only [List.any_eq_true, Bool.and_eq_true, decide_eq_true_eq, and_assoc] using hany
    · next hany =>
      refine ⟨fun h => by contradiction, fun h => absurd ?_ hany⟩
      simpa only [List.any_eq_true, Bool.and_eq_true, decide_eq_true_eq, and_assoc] using h
  rw [hverdict]
  constructor
  · rintro ⟨rule, -, hfamily, hprotocol, hport, hrange⟩
    exact ⟨by rw [hprotocol]; rfl, hport, (remote_spans hvalid hfamily hp).mp hrange⟩
  · rintro ⟨hprotocol, hport, hdenied⟩
    obtain ⟨protocol, hprotocol⟩ := Option.isSome_iff_exists.mp hprotocol
    obtain ⟨rule, hrule, hfamily, hsame⟩ : ∃ rule ∈ NETSH_RULES, p.family = rule.family ∧
        protocol = rule.protocol := by
      cases p.family <;> cases protocol <;> simp [NETSH_RULES]
    exact ⟨rule, hrule, hfamily, hprotocol.trans (congrArg some hsame), hport,
      (remote_spans hvalid hfamily hp).mpr hdenied⟩

end Rules

/-- The allow list of a resolver's address holds the address. -/
lemma valid_killSwitchAllow {publicDnsIp : String} {allow : KillSwitchAllow}
    (h : killSwitchAllow publicDnsIp = .ok allow) : allow.Valid := by
  unfold killSwitchAllow at h
  split at h
  · cases h
    exact ⟨by simp, by simp⟩
  · split at h
    · contradiction
    · next hliteral =>
      have hliteral : isIpLiteral publicDnsIp = true := by simpa using hliteral
      simp only [isIpLiteral, Bool.and_eq_true, Bool.not_eq_true', decide_eq_true_eq] at hliteral
      obtain ⟨⟨-, hzone⟩, hip⟩ := hliteral
      have hnozone : ∀ c ∈ publicDnsIp.toList, (decide (c ≠ '%')) = true := by
        intro c hc
        refine decide_eq_true ?_
        rintro rfl
        rw [List.contains_iff_mem.mpr hc] at hzone
        contradiction
      have hboth : isIPv4 publicDnsIp = true ∨ isIPv6 publicDnsIp = true := by
        by_contra hneither
        rw [not_or] at hneither
        exact hip (by rw [isIP, if_neg hneither.1, if_neg hneither.2])
      split at h
      · next hcolon =>
        cases h
        refine ⟨by simp, fun a ha => ?_⟩
        rw [List.mem_singleton.mp ha, Family.read, Option.isSome_map]
        rcases hboth with h4 | h6
        · -- a dotted quad has no colon
          obtain ⟨v, hv⟩ := Option.isSome_iff_exists.mp h4
          have htext := (readQuad_eq_some.mp hv).2
          rcases isDigit_quadText (htext ▸ hcolon) with hdigit | hdot
          · exact absurd hdigit (by decide)
          · exact absurd hdot (by decide)
        · rw [isIPv6, Bool.and_eq_true, List.takeWhile_eq_self_iff.mpr hnozone] at h6
          exact h6.1
      · next hcolon =>
        cases h
        refine ⟨fun a ha => ?_, by simp⟩
        rw [List.mem_singleton.mp ha]
        rcases hboth with h4 | h6
        · exact h4
        · rw [isIPv6, Bool.and_eq_true, List.takeWhile_eq_self_iff.mpr hnozone] at h6
          obtain ⟨f, hparse⟩ := Option.isSome_iff_exists.mp h6.1
          obtain ⟨hf, htext⟩ := Ipv6Form.parse_eq_some.mp hparse
          exact absurd (htext ▸ hf.colon_mem_text) hcolon

/-- **One policy.** The rules of `nft`, of `iptables` and `ip6tables`, of pf and of Windows drop the
same packets: plain DNS to what is neither loopback nor the resolver. -/
theorem backends_agree {publicDnsIp : String} {allow : KillSwitchAllow}
    (h : killSwitchAllow publicDnsIp = .ok allow) {p : Packet}
    (hp : p.destination < 2 ^ p.family.bits) :
    (nftVerdict allow p = .drop ↔ allow.Blocks p) ∧
      (iptablesVerdict allow p = .drop ↔ allow.Blocks p) ∧
        (pfVerdict allow p = .drop ↔ allow.Blocks p) ∧
          (netshVerdict allow p = .drop ↔ allow.Blocks p) := by
  have hvalid := valid_killSwitchAllow h
  exact ⟨nft_blocks hvalid hp, iptables_blocks hvalid hp, pf_blocks hvalid hp,
    netsh_blocks hvalid hp⟩

/-- A query to a resolver that is not that of TNP. -/
theorem backends_agree_v6 :
    (nftVerdict { v6 := ["2001:DB8::1"] } ⟨.v6, some .tcp, 2, 53⟩ = .drop ↔
      KillSwitchAllow.Blocks { v6 := ["2001:DB8::1"] } ⟨.v6, some .tcp, 2, 53⟩) :=
  (@backends_agree "2001:DB8::1" { v6 := ["2001:DB8::1"] } (by decide)
    ⟨.v6, some .tcp, 2, 53⟩ (by decide)).1

end Tnp.Client.KillSwitch
