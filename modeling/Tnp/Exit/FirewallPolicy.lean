import Tnp.Exit.FirewallRuns

/-!
What the packet filter lets through, over every sequence of packets.

A packet of a tracked flow is accepted before the rules that refuse destinations are reached. That
is safe because no flow is tracked but from a packet that passed those rules.
-/

namespace Tnp.Exit.Firewall

open Tnp.Lib Tnp.Lib.Ipv6 Tnp.Net Tnp.SharedTypes
open Tnp.SharedTypes.DnsRecords (isValidIpv4_iff)

/-! ### Networks as they are written -/

lemma splitPrefix_eq_some {value address : String} {length : List Char}
    (h : splitPrefix value = some (address, length)) :
    value.toList.takeWhile (· ≠ '/') = address.toList ∧
      value.toList.dropWhile (· ≠ '/') = '/' :: length := by
  unfold splitPrefix at h
  split at h
  · cases h
  · next c rest hdrop =>
    obtain ⟨rfl, rfl⟩ := Prod.mk.inj (Option.some.inj h)
    refine ⟨String.toList_ofList.symm, ?_⟩
    have hc := List.head?_dropWhile_not (fun c => decide (c ≠ '/')) value.toList
    rw [hdrop] at hc
    rw [hdrop, of_not_not (of_decide_eq_false hc)]

lemma covers_of_splitPrefix {family : Family} {value address : String} {length : List Char}
    (h : splitPrefix value = some (address, length)) (n : ℕ) :
    family.covers value n = (family.read address.toList).any fun a =>
      a >>> (family.bits - Nat.ofDigitChars 10 length 0) ==
        n >>> (family.bits - Nat.ofDigitChars 10 length 0) := by
  obtain ⟨htake, hdrop⟩ := splitPrefix_eq_some h
  unfold Family.covers
  dsimp only
  rw [htake, hdrop, if_neg (List.cons_ne_nil _ _), List.tail_cons]

lemma isCidr_eq_true {value : String} (h : isCidr value = true) :
    ∃ address length, splitPrefix value = some (address, length) ∧
      isPrefixLength length = true := by
  unfold isCidr at h
  split at h
  · cases h
  · next address length hsplit =>
    exact ⟨address, length, hsplit, (Bool.and_eq_true_iff.mp h).1⟩

lemma isDigit_of_isPrefixLength {length : List Char} (h : isPrefixLength length = true) :
    ∀ c ∈ length, c.isDigit = true := by
  intro c hc
  rcases Bool.or_eq_true_iff.mp h with hzero | hdigits
  · rw [of_decide_eq_true hzero, List.mem_singleton] at hc
    rw [hc]
    rfl
  · simp only [Bool.and_eq_true, List.all_eq_true] at hdigits
    exact hdigits.1.2 c hc

/-- A network written for IPv6 covers no IPv4 address. -/
lemma not_covers_of_isIpv6Cidr {network : String} (hcidr : isCidr network = true)
    (h : isIpv6Cidr network = true) (n : ℕ) : Family.v4.covers network n = false := by
  obtain ⟨address, length, hsplit, hlength⟩ := isCidr_eq_true hcidr
  obtain ⟨htake, hdrop⟩ := splitPrefix_eq_some hsplit
  rw [covers_of_splitPrefix hsplit]
  cases hread : Family.v4.read address.toList with
  | none => rfl
  | some a =>
    have hcolon := List.contains_iff_mem.mp h
    rw [← List.takeWhile_append_dropWhile (p := fun c => decide (c ≠ '/')) (l := network.toList),
      htake, hdrop, List.mem_append, List.mem_cons] at hcolon
    rcases hcolon with hquad | hslash | hdigit
    · exact absurd hquad (colon_notMem_of_readQuad hread)
    · exact absurd hslash (by decide)
    · exact absurd (isDigit_of_isPrefixLength hlength _ hdigit) (by decide)

lemma shiftRight_mask {v n length : ℕ} (hn : n < 2 ^ 32)
    (h : v >>> (32 - length) = n >>> (32 - length)) :
    (if length = 0 then 0 else (v >>> (32 - length)) <<< (32 - length)) >>> (32 - length) =
      n >>> (32 - length) := by
  split
  · next hzero =>
    rw [hzero, Nat.sub_zero, Nat.zero_shiftRight, Nat.shiftRight_eq_div_pow, Nat.div_eq_of_lt hn]
  · rw [Nat.shiftLeft_shiftRight, h]

lemma mask_lt {v length : ℕ} (hv : v < 4294967296) :
    (if length = 0 then 0 else (v >>> (32 - length)) <<< (32 - length)) < 4294967296 := by
  split
  · omega
  · rw [Nat.shiftRight_eq_div_pow, Nat.shiftLeft_eq]
    exact (Nat.div_mul_le_self _ _).trans_lt hv

lemma read_quadText {v : ℕ} (hv : v < 4294967296) : Family.v4.read (quadText v) = some v :=
  readQuad_eq_some.mpr ⟨hv, rfl⟩

/-- The network of an IPv4 address covers what the address with its prefix covers. -/
lemma covers_networkOf {address network : String} {n : ℕ} (h : networkOf address = some network)
    (hn : n < 2 ^ 32) (hcovers : Family.v4.covers address n = true) :
    isIpv6Cidr network = false ∧ Family.v4.covers network n = true := by
  unfold networkOf at h
  split at h
  · cases h
  split at h
  · cases h
  next literal text hsplit =>
  rw [covers_of_splitPrefix hsplit] at hcovers
  obtain ⟨v, hread, hv⟩ := (Option.any_eq_true _ _).mp hcovers
  obtain ⟨hlt, htext⟩ := readQuad_eq_some.mp hread
  dsimp only at h
  rw [if_pos (isValidIpv4_iff.mpr ⟨v, hlt, htext.symm⟩), ← htext, foldl_octets hlt,
    octets_eq (mask_lt hlt)] at h
  obtain rfl := Option.some.inj h
  constructor
  · refine Bool.eq_false_iff.mpr fun hcolon => ?_
    rw [isIpv6Cidr, List.contains_iff_mem, String.toList_ofList, List.mem_append,
      List.mem_cons] at hcolon
    rcases hcolon with hquad | hslash | hdigit
    · exact absurd hquad (colon_notMem_quadText _)
    · exact absurd hslash (by decide)
    · have hcolon : Char.isDigit ':' = true :=
        Nat.isDigit_of_mem_toDigits (by omega) (by omega) hdigit
      exact absurd hcolon (by decide)
  · rw [covers_slash (read_quadText (mask_lt hlt))]
    exact shiftRight_mask hn (beq_iff_eq.mp hv)

/-! ### Chains -/

section chain

variable {sets : List NamedSet} {rates : Rates} {state : CtState} {p : Packet} {rules : List Rule}

lemma chain_cons (r : Rule) : chain sets rates state p (r :: rules) =
    (r.decides sets rates state p).getD (chain sets rates state p rules) := by
  unfold chain
  rw [List.findSome?_cons]
  cases r.decides sets rates state p <;> rfl

/-- Past a rule that does not accept, a packet that is accepted did not match. -/
lemma chain_refused {exprs : List Expr} {v : Verdict} (hv : v ≠ .accept)
    (h : chain sets rates state p (⟨exprs, some v⟩ :: rules) = .accept) :
    exprs.all (Expr.holds sets rates state p) = false ∧
      chain sets rates state p rules = .accept := by
  rw [chain_cons, Rule.decides] at h
  split at h
  · exact absurd h hv
  · next hholds => exact ⟨Bool.eq_false_iff.mpr hholds, h⟩

lemma chain_accepts {exprs : List Expr}
    (h : chain sets rates state p (⟨exprs, some .accept⟩ :: rules) = .accept) :
    exprs.all (Expr.holds sets rates state p) = true ∨
      chain sets rates state p rules = .accept := by
  rw [chain_cons, Rule.decides] at h
  split at h
  · next hholds => exact .inl hholds
  · exact .inr h

lemma chain_silent {exprs : List Expr} :
    chain sets rates state p (⟨exprs, none⟩ :: rules) = chain sets rates state p rules := by
  rw [chain_cons, Rule.decides, ite_self, Option.getD_none]

/-- Rules that only drop are passed by what is accepted. -/
lemma chain_drops {drops : List Rule} (hdrops : ∀ r ∈ drops, r.verdict = some .drop)
    (h : chain sets rates state p (drops ++ rules) = .accept) :
    chain sets rates state p rules = .accept := by
  induction drops with
  | nil => exact h
  | cons r drops ih =>
    obtain ⟨⟨exprs, verdict⟩, rfl, hrest⟩ : ∃ r', r' = r ∧ r'.verdict = some .drop :=
      ⟨r, rfl, hdrops r List.mem_cons_self⟩
    obtain rfl : verdict = some .drop := hrest
    exact ih (fun r hr => hdrops r (List.mem_cons_of_mem _ hr)) (chain_refused (by simp) h).2

/-- Of rules that only accept, one matches or none counts. -/
lemma chain_accepts_append {accepts : List Rule}
    (haccepts : ∀ r ∈ accepts, r.verdict = some .accept)
    (h : chain sets rates state p (accepts ++ rules) = .accept) :
    (∃ r ∈ accepts, r.exprs.all (Expr.holds sets rates state p) = true) ∨
      chain sets rates state p rules = .accept := by
  induction accepts with
  | nil => exact .inr h
  | cons r accepts ih =>
    obtain ⟨⟨exprs, verdict⟩, rfl, hrest⟩ : ∃ r', r' = r ∧ r'.verdict = some .accept :=
      ⟨r, rfl, haccepts r List.mem_cons_self⟩
    obtain rfl : verdict = some .accept := hrest
    rcases chain_accepts h with hholds | hlater
    · exact .inl ⟨_, List.mem_cons_self, hholds⟩
    · rcases ih (fun r hr => haccepts r (List.mem_cons_of_mem _ hr)) hlater with
        ⟨r, hr, hholds⟩ | hrules
      · exact .inl ⟨r, List.mem_cons_of_mem _ hr, hholds⟩
      · exact .inr hrules

end chain

/-! ### What a packet of no tracked flow has to be -/

/-- What the forward chain accepts of new packets. -/
structure Admitted (o : ExitFirewallOptions) (p : Packet) : Prop where
  iif : p.iif = o.wgInterface
  oif : p.oif = o.uplinkInterface
  family : p.family = .v4
  source : Family.v4.covers VPN_TUNNEL_IPV4_CIDR p.source = true
  destination : ∀ network ∈ BLOCKED_IPV4 ++ o.operatorCidrs ++ o.uplinkAddresses,
    Family.v4.covers network p.destination = false
  tcp : ∀ port ∈ BLOCKED_TCP_PORTS, p.dport .tcp ≠ some port
  udp : ∀ port ∈ BLOCKED_UDP_PORTS, p.dport .udp ≠ some port

/-- A peer's packet for the exit's own resolver. -/
structure AsksDns (o : ExitFirewallOptions) (p : Packet) : Prop where
  iif : p.iif = o.wgInterface
  family : p.family = .v4
  source : Family.v4.covers VPN_TUNNEL_IPV4_CIDR p.source = true
  destination : ∃ address, o.localDnsAddress = some address ∧
    Family.v4.covers address p.destination = true
  port : p.dport .tcp = some 53 ∨ p.dport .udp = some 53

/-- What the input chain accepts of new packets. -/
inductive Served (o : ExitFirewallOptions) (p : Packet) : Prop
  | loopback (iif : p.iif = "lo")
  | dns (h : AsksDns o p)
  | wireguard (iif : p.iif = o.uplinkInterface) (port : ℕ) (dport : p.dport .udp = some port)
    (listen : port = o.listenPort)
  | ssh (iif : p.iif = o.uplinkInterface) (dport : p.dport .tcp = some 22)
    (source : ∃ cidr ∈ o.adminSshCidrs, p.family = familyOf cidr ∧
      p.family.covers cidr p.source = true)
  | dhcp (iif : p.iif = o.uplinkInterface) (ports : p.sport .udp = some 67 ∧
      p.dport .udp = some 68 ∨ p.sport .udp = some 547 ∧ p.dport .udp = some 546)
  | icmp (h : ∃ icmpType ∈ icmpTypes p.family, p.icmpType = some icmpType)

section options

variable {o : ExitFirewallOptions} {r : Ruleset} {rates : Rates} {state : CtState} {p : Packet}

lemma exitRuleset_eq_ok (h : exitRuleset o = .ok r) :
    o.check = none ∧ r = ⟨o.sets, o.inputRules, o.forwardRules⟩ := by
  unfold exitRuleset at h
  split at h
  · cases h
  · next hcheck => exact ⟨hcheck, (Except.ok.inj h).symm⟩

/-- What is known of options that are accepted. -/
structure Checked (o : ExitFirewallOptions) : Prop where
  interfaces : o.wgInterface ≠ o.uplinkInterface
  operatorCidrs : ∀ cidr ∈ o.operatorCidrs, isCidr cidr = true
  uplinkAddresses : ∀ address ∈ o.uplinkAddresses, ∃ network, networkOf address = some network

lemma passes {c : Prop} [Decidable c] {problem : String} {rest : Option String}
    (h : (if c then some problem else rest) = none) : ¬c ∧ rest = none := by
  split at h
  · cases h
  · next hc => exact ⟨hc, h⟩

lemma checked (h : o.check = none) : Checked o := by
  obtain ⟨-, h⟩ := passes h
  obtain ⟨-, h⟩ := passes h
  obtain ⟨hne, h⟩ := passes h
  obtain ⟨-, h⟩ := passes h
  obtain ⟨hoperator, h⟩ := passes h
  obtain ⟨-, h⟩ := passes h
  obtain ⟨huplink, -⟩ := passes h
  refine ⟨hne, fun cidr hcidr => ?_, fun address haddress => ?_⟩
  · simp only [List.any_eq_true, not_exists, not_and, Bool.not_eq_true', Bool.not_eq_false]
      at hoperator
    exact hoperator cidr hcidr
  · simp only [List.any_eq_true, not_exists, not_and, Option.isNone_iff_eq_none] at huplink
    exact Option.ne_none_iff_exists'.mp (huplink address haddress)

/-- What the set of blocked networks leaves out, no network that is to be blocked covers. -/
lemma notBlocked (ho : Checked o) {n : ℕ} (hn : n < 2 ^ 32)
    (h : ∀ network ∈ BLOCKED_IPV4 ++ o.operator.filter (!isIpv6Cidr ·),
      Family.v4.covers network n = false) :
    ∀ network ∈ BLOCKED_IPV4 ++ o.operatorCidrs ++ o.uplinkAddresses,
      Family.v4.covers network n = false := by
  have hlisted {network : String} (hmem : network ∈ o.operator)
      (hv4 : isIpv6Cidr network = false) : Family.v4.covers network n = false :=
    h network (List.mem_append_right _ (List.mem_filter.mpr ⟨hmem, by rw [hv4]; rfl⟩))
  intro network hnetwork
  rw [List.append_assoc, List.mem_append, List.mem_append] at hnetwork
  rcases hnetwork with hblocked | hoperator | huplink
  · exact h network (List.mem_append_left _ hblocked)
  · cases hv6 : isIpv6Cidr network with
    | true => exact not_covers_of_isIpv6Cidr (ho.operatorCidrs network hoperator) hv6 n
    | false => exact hlisted (List.mem_append_left _ hoperator) hv6
  · obtain ⟨masked, hmasked⟩ := ho.uplinkAddresses network huplink
    refine Bool.eq_false_iff.mpr fun hcovers => ?_
    obtain ⟨hv4, hcovered⟩ := covers_networkOf hmasked hn hcovers
    have hmem : masked ∈ o.operator :=
      List.mem_append_right _ (List.mem_filterMap.mpr ⟨network, huplink, hmasked⟩)
    rw [hlisted hmem hv4] at hcovered
    cases hcovered

lemma dnsLimit_drops : ∀ r ∈ o.dnsLimit, r.verdict = some .drop := by
  intro r hr
  unfold ExitFirewallOptions.dnsLimit at hr
  split at hr
  · cases hr
  · rw [List.mem_singleton.mp hr]

lemma localDnsLimit_drops : ∀ r ∈ o.localDnsLimit, r.verdict = some .drop := by
  intro r hr
  obtain ⟨address, -, rfl⟩ := List.mem_map.mp hr
  rfl

lemma localDnsAccept_accepts : ∀ r ∈ o.localDnsAccept, r.verdict = some .accept := by
  intro r hr
  obtain ⟨address, -, rfl⟩ := List.mem_map.mp hr
  rfl

/-- The rule that accepts packets of tracked flows. -/
lemma tracked_of_holds {sets : List NamedSet} (h : ([.ctState [.established, .related]] :
    List Expr).all (Expr.holds sets rates state p) = true) :
    state = .established ∨ state = .related := by
  simpa only [List.all_cons, List.all_nil, Bool.and_true, Expr.holds, List.contains_iff_mem,
    List.mem_cons, List.not_mem_nil, or_false] using h

/-- A rule for one port, which the options may not give as a natural number. -/
lemma dport_of_any {transport : Transport} {port : ℚ}
    (h : (p.dport transport).any (fun (d : ℕ) => (d : ℚ) = port) = true) :
    ∃ d : ℕ, p.dport transport = some d ∧ (d : ℚ) = port := by
  obtain ⟨d, hdport, hd⟩ := (Option.any_eq_true _ _).mp h
  exact ⟨d, hdport, of_decide_eq_true hd⟩

lemma dport_ne {transport : Transport} {ports : List ℕ} {port : ℕ}
    (h : (p.dport transport).any (fun d => ports.contains d) = false) (hport : port ∈ ports) :
    p.dport transport ≠ some port := by
  intro hdport
  rw [hdport, Option.any_some] at h
  exact absurd (List.contains_iff_mem.mpr hport) (Bool.eq_false_iff.mp h)

/-- **What the forward chain accepts is of a tracked flow, or about one, or is admitted.** -/
theorem admitted_of_accept (ho : Checked o)
    (h : chain o.sets rates state p o.forwardRules = .accept) :
    state = .established ∨ state = .related ∨ Admitted o p := by
  rw [ExitFirewallOptions.forwardRules, List.append_assoc, List.cons_append, List.cons_append,
    List.nil_append, chain_silent] at h
  have h := chain_drops dnsLimit_drops (chain_refused (by simp) h).2
  rcases chain_accepts h with hstate | h
  · exact (tracked_of_holds hstate).imp_right .inl
  obtain ⟨hiif, h⟩ := chain_refused (by simp) h
  obtain ⟨hsource, h⟩ := chain_refused (by simp) h
  obtain ⟨hoif, h⟩ := chain_refused (by simp) h
  obtain ⟨-, h⟩ := chain_refused (by simp) h
  obtain ⟨hfamily, h⟩ := chain_refused (by simp) h
  obtain ⟨hblocked, h⟩ := chain_refused (by simp) h
  obtain ⟨htcp, h⟩ := chain_refused (by simp) h
  obtain ⟨hudp, -⟩ := chain_refused (by simp) h
  simp only [List.all_cons, List.all_nil, Bool.and_true, Expr.holds, decide_eq_false_iff_not,
    not_not, Bool.and_eq_false_imp, decide_eq_true_eq, Bool.not_eq_false', List.any_eq_false]
    at hiif hsource hoif hfamily hblocked htcp hudp
  have hv4 : p.family = .v4 := by
    cases hp : p.family with
    | v4 => rfl
    | v6 => exact absurd hp hfamily
  have hdestination : p.destination < 2 ^ 32 := by
    have hlt := p.destination_lt
    rwa [hv4] at hlt
  refine .inr (.inr ⟨hiif, hoif, hv4, hsource hv4, notBlocked ho hdestination ?_,
    fun port hport => dport_ne htcp hport, fun port hport => dport_ne hudp hport⟩)
  intro network hnetwork
  refine Bool.eq_false_iff.mpr fun hcovers => ?_
  have hset := hblocked hv4 ⟨"blocked_v4", .v4, _⟩ List.mem_cons_self
  exact hset (Bool.and_eq_true_iff.mpr ⟨rfl, List.any_eq_true.mpr ⟨network, hnetwork, hcovers⟩⟩)

lemma asksDns_of_holds (h : ∃ r ∈ o.localDnsAccept,
    r.exprs.all (Expr.holds o.sets rates state p) = true) : AsksDns o p := by
  obtain ⟨r, hr, hholds⟩ := h
  obtain ⟨address, haddress, rfl⟩ := List.mem_map.mp hr
  simp only [List.all_cons, List.all_nil, Bool.and_true, Expr.holds, Bool.and_eq_true,
    Bool.or_eq_true, decide_eq_true_eq] at hholds
  obtain ⟨hiif, ⟨hfamily, hsource⟩, ⟨-, hdestination⟩, -, hport⟩ := hholds
  exact ⟨hiif, hfamily, hsource, ⟨address, Option.mem_toList.mp haddress, hdestination⟩, hport⟩

lemma ssh_accepts : ∀ r ∈ o.adminSshCidrs.map (fun cidr => (⟨[.iifname o.uplinkInterface,
    .saddr (familyOf cidr) cidr, .dport .tcp 22], some .accept⟩ : Rule)),
    r.verdict = some .accept := by
  intro r hr
  obtain ⟨cidr, -, rfl⟩ := List.mem_map.mp hr
  rfl

lemma ssh_of_holds (h : ∃ r ∈ o.adminSshCidrs.map (fun cidr => (⟨[.iifname o.uplinkInterface,
      .saddr (familyOf cidr) cidr, .dport .tcp 22], some .accept⟩ : Rule)),
    r.exprs.all (Expr.holds o.sets rates state p) = true) : Served o p := by
  obtain ⟨r, hr, hholds⟩ := h
  obtain ⟨cidr, hcidr, rfl⟩ := List.mem_map.mp hr
  simp only [List.all_cons, List.all_nil, Bool.and_true, Expr.holds, Bool.and_eq_true,
    decide_eq_true_eq] at hholds
  obtain ⟨hiif, ⟨hfamily, hsource⟩, hport⟩ := hholds
  obtain ⟨port, hdport, hport⟩ := dport_of_any hport
  obtain rfl : port = 22 := by exact_mod_cast hport
  exact .ssh hiif hdport ⟨cidr, hcidr, hfamily, hfamily ▸ hsource⟩

lemma dhcp_of_holds {s d : ℕ} (h : ([.iifname o.uplinkInterface, .sport .udp s, .dport .udp d] :
    List Expr).all (Expr.holds o.sets rates state p) = true) :
    p.iif = o.uplinkInterface ∧ p.sport .udp = some s ∧ p.dport .udp = some d := by
  simp only [List.all_cons, List.all_nil, Bool.and_true, Expr.holds, Bool.and_eq_true,
    decide_eq_true_eq] at h
  obtain ⟨hiif, hsport, hport⟩ := h
  obtain ⟨port, hdport, hport⟩ := dport_of_any hport
  obtain rfl : port = d := by exact_mod_cast hport
  exact ⟨hiif, hsport, hdport⟩

lemma icmpType_of_any {family : Family} (hfamily : p.family = family)
    (h : p.icmpType.any (icmpTypes family).contains = true) :
    ∃ icmpType ∈ icmpTypes p.family, p.icmpType = some icmpType := by
  obtain ⟨icmpType, htype, hmem⟩ := (Option.any_eq_true _ _).mp h
  exact ⟨icmpType, hfamily ▸ List.contains_iff_mem.mp hmem, htype⟩

/-- **What the input chain accepts is of a tracked flow, or about one, or is served.** -/
theorem served_of_accept (h : chain o.sets rates state p o.inputRules = .accept) :
    state = .established ∨ state = .related ∨ Served o p := by
  simp only [ExitFirewallOptions.inputRules, List.append_assoc, List.cons_append,
    List.nil_append] at h
  rcases chain_accepts h with hlo | h
  · simp only [List.all_cons, List.all_nil, Bool.and_true, Expr.holds, decide_eq_true_eq] at hlo
    exact .inr (.inr (.loopback hlo))
  have h := chain_drops localDnsLimit_drops (chain_refused (by simp) h).2
  rcases chain_accepts h with hstate | h
  · exact (tracked_of_holds hstate).imp_right .inl
  refine .inr (.inr ?_)
  rcases chain_accepts_append localDnsAccept_accepts h with hdns | h
  · exact .dns (asksDns_of_holds hdns)
  rcases chain_accepts h with hwireguard | h
  · simp only [List.all_cons, List.all_nil, Bool.and_true, Expr.holds, Bool.and_eq_true,
      decide_eq_true_eq] at hwireguard
    obtain ⟨port, hdport, hport⟩ := dport_of_any hwireguard.2
    exact .wireguard hwireguard.1 port hdport hport
  rcases chain_accepts_append ssh_accepts h with hssh | h
  · exact ssh_of_holds hssh
  rcases chain_accepts h with hdhcp | h
  · obtain ⟨hiif, hports⟩ := dhcp_of_holds hdhcp
    exact .dhcp hiif (.inl hports)
  rcases chain_accepts h with hdhcp | h
  · obtain ⟨hiif, hports⟩ := dhcp_of_holds hdhcp
    exact .dhcp hiif (.inr hports)
  rcases chain_accepts h with hicmp | h
  · simp only [List.all_cons, List.all_nil, Bool.and_true, Expr.holds, Bool.and_eq_true,
      decide_eq_true_eq] at hicmp
    obtain ⟨hfamily, ⟨-, htype⟩, -⟩ := hicmp
    exact .icmp (icmpType_of_any hfamily htype)
  rcases chain_accepts h with hicmp | h
  · simp only [List.all_cons, List.all_nil, Bool.and_true, Expr.holds, Bool.and_eq_true,
      decide_eq_true_eq] at hicmp
    obtain ⟨hfamily, -, htype⟩ := hicmp
    exact .icmp (icmpType_of_any hfamily htype)
  · cases h

end options

end Tnp.Exit.Firewall
