import Tnp.Exit.FirewallPolicy

/-!
Where packets may come from and go to, whatever was sent before them.

The table of tracked flows is filled from three sides: what peers send through the exit, what is
sent to the exit, and what the exit sends itself. A packet that is forwarded has neither end at the
exit, so a flow that lets it pass was itself forwarded.
-/

namespace Tnp.Exit.Firewall

open Tnp.Lib Tnp.Lib.Ipv6 Tnp.Net

/-! ### Flows -/

lemma flow_eq_some {p : Packet} {f : Flow} (h : p.flow = some f) :
    p.family = f.family ∧ p.source = f.source ∧ p.destination = f.destination := by
  obtain ⟨ports, -, rfl⟩ := Option.map_eq_some_iff.mp h
  exact ⟨rfl, rfl, rfl⟩

/-- A packet of a flow goes between its ends. -/
lemma ends_of_belongsTo {p first : Packet} (h : p.BelongsTo first) : p.family = first.family ∧
    (p.source = first.source ∧ p.destination = first.destination ∨
      p.source = first.destination ∧ p.destination = first.source) := by
  obtain ⟨f, hfirst, hflow⟩ := h
  obtain ⟨hfamily, hsource, hdestination⟩ := flow_eq_some hfirst
  rcases hflow with hforth | hback
  · obtain ⟨hfamily', hsource', hdestination'⟩ := flow_eq_some hforth
    exact ⟨hfamily'.trans hfamily.symm, .inl ⟨hsource'.trans hsource.symm,
      hdestination'.trans hdestination.symm⟩⟩
  · obtain ⟨hfamily', hsource', hdestination'⟩ := flow_eq_some hback
    exact ⟨hfamily'.trans hfamily.symm, .inr ⟨hsource'.trans hdestination.symm,
      hdestination'.trans hsource.symm⟩⟩

/-! ### What the table holds -/

section

variable (o : ExitFirewallOptions) (isLocal : Family → ℕ → Bool)

/-- The packet passed the rules for packets of no tracked flow. -/
def Passed.Vetted (x : Passed) : Prop :=
  match x.hook with
  | none => True
  | some .input => Served o x.packet
  | some .forward => Admitted o x.packet

/-- The packet has its ends where the hook says. -/
def Passed.Placed (x : Passed) : Prop :=
  match x.hook with
  | none => isLocal x.packet.family x.packet.source = true
  | some .input => isLocal x.packet.family x.packet.destination = true
  | some .forward => isLocal x.packet.family x.packet.source = false ∧
      isLocal x.packet.family x.packet.destination = false

/-- A packet that a flow is tracked from. -/
structure Passed.Opens (x : Passed) : Prop where
  isNew : x.state = .new
  vetted : x.Vetted o
  placed : x.Placed isLocal

/-- What let a packet pass, among what had passed before it. -/
def Justified (earlier : List Passed) (x : Passed) : Prop :=
  x.Vetted o ∨ ∃ first ∈ earlier, first.Opens o isLocal ∧
    (x.packet.BelongsTo first.packet ∨ x.packet.ErrorAbout first.packet)

/-- Every tracked flow was opened, and everything that passed was justified. -/
structure World.Sound (w : World) : Prop where
  table : ∀ x ∈ w.table, x ∈ w.passed ∧ x.Opens o isLocal
  passed : ∀ x earlier, x :: earlier <:+ w.passed →
    x.Placed isLocal ∧ Justified o isLocal earlier x

end

variable {o : ExitFirewallOptions} {isLocal : Family → ℕ → Bool} {r : Ruleset} {w : World}

lemma World.Sound.justified (h : w.Sound o isLocal) {state : CtState} {p : Packet}
    (htracks : w.Tracks state p) (hstate : state = .established ∨ state = .related)
    {hook : Option Hook} : Justified o isLocal w.passed ⟨hook, state, p⟩ := by
  rcases hstate with rfl | rfl
  · obtain ⟨first, hfirst, hbelongs⟩ := htracks
    exact .inr ⟨first, (h.table first hfirst).1, (h.table first hfirst).2, .inl hbelongs⟩
  · obtain ⟨first, hfirst, habout⟩ := htracks
    exact .inr ⟨first, (h.table first hfirst).1, (h.table first hfirst).2, .inr habout⟩

/-- A justified packet passes; if it is new, it opens its flow. -/
lemma World.Sound.pass (h : w.Sound o isLocal) {x : Passed} (hplaced : x.Placed isLocal)
    (hvetted : x.state = .new → x.Vetted o) (hjustified : Justified o isLocal w.passed x) :
    (w.pass x).Sound o isLocal where
  table := by
    intro y hy
    have hold (hy : y ∈ w.table) : y ∈ x :: w.passed ∧ y.Opens o isLocal :=
      ⟨List.mem_cons_of_mem _ (h.table y hy).1, (h.table y hy).2⟩
    unfold World.pass at hy
    dsimp only at hy
    split at hy
    · next hnew =>
      rcases List.mem_cons.mp hy with rfl | hy
      · exact ⟨List.mem_cons_self, hnew, hvetted hnew, hplaced⟩
      · exact hold hy
    · exact hold hy
  passed := by
    intro y earlier hy
    rcases List.suffix_cons_iff.mp hy with heq | hy
    · obtain ⟨rfl, rfl⟩ := List.cons.inj heq
      exact ⟨hplaced, hjustified⟩
    · exact h.passed y earlier hy

/-- **A packet that a hook accepts is of a tracked flow, or about one, or is vetted.** -/
theorem vetted_of_accept (hr : exitRuleset o = .ok r) {hook : Hook} {rates : Rates}
    {state : CtState} {p : Packet} (h : chain r.sets rates state p (r.rules hook) = .accept) :
    state = .established ∨ state = .related ∨ Passed.Vetted o ⟨some hook, state, p⟩ := by
  obtain ⟨hcheck, rfl⟩ := exitRuleset_eq_ok hr
  cases hook with
  | input => exact served_of_accept h
  | forward => exact admitted_of_accept (checked hcheck) h

/-- **What may happen keeps the worlds sound.** -/
theorem World.Sound.step (hr : exitRuleset o = .ok r) (h : w.Sound o isLocal) {event : Event}
    (hallowed : w.Allowed isLocal event) : (w.step r event).Sound o isLocal := by
  cases event with
  | packet hook state rates p =>
    by_cases haccept : chain r.sets rates state p (r.rules hook) = .accept
    · rw [World.step, if_pos haccept]
      have hplaced : Passed.Placed isLocal ⟨some hook, state, p⟩ ∧ w.Tracks state p := by
        cases hook with
        | input => exact hallowed
        | forward => exact ⟨⟨hallowed.1, hallowed.2.1⟩, hallowed.2.2⟩
      rcases vetted_of_accept hr haccept with hstate | hstate | hvetted
      · exact h.pass hplaced.1 (fun hnew => absurd (hstate.symm.trans hnew) (by simp))
          (h.justified hplaced.2 (.inl hstate))
      · exact h.pass hplaced.1 (fun hnew => absurd (hstate.symm.trans hnew) (by simp))
          (h.justified hplaced.2 (.inr hstate))
      · exact h.pass hplaced.1 (fun _ => hvetted) (.inl hvetted)
    · rw [World.step, if_neg haccept]
      exact h
  | output state p => exact h.pass hallowed.1 (fun _ => trivial) (.inl trivial)
  | expire i => exact ⟨fun x hx => h.table x (List.mem_of_mem_eraseIdx hx), h.passed⟩

lemma sound_of_reachable (hr : exitRuleset o = .ok r) (h : Reachable isLocal r w) :
    w.Sound o isLocal := by
  induction h with
  | initial =>
    refine ⟨fun x hx => absurd hx List.not_mem_nil, fun x earlier hx => ?_⟩
    exact absurd (List.suffix_nil.mp hx) (List.cons_ne_nil _ _)
  | step _ hallowed ih => exact ih.step hr hallowed

/-! ### What is forwarded, and what the host takes -/

lemma asksDns_of_served (hcheck : o.check = none) (hlo : o.wgInterface ≠ "lo") {p : Packet}
    (hiif : p.iif = o.wgInterface) (htransport : p.isTransport = true) (h : Served o p) :
    AsksDns o p := by
  have huplink : ¬p.iif = o.uplinkInterface := hiif ▸ (checked hcheck).interfaces
  rcases h with hloopback | hdns | ⟨hup⟩ | ⟨hup⟩ | ⟨hup⟩ | ⟨icmpType, -, htype⟩
  · exact absurd (hiif.symm.trans hloopback) hlo
  · exact hdns
  · exact absurd hup huplink
  · exact absurd hup huplink
  · exact absurd hup huplink
  · cases hcarried : p.carried <;>
      simp [Packet.isTransport, Packet.icmpType, hcarried] at htransport htype

lemma served_of_belongsTo {x first : Passed} (hx : x.hook = some .input)
    (hplaced : x.Placed isLocal) (hopens : first.Opens o isLocal)
    (h : x.packet.BelongsTo first.packet) :
    first.hook = none ∨ first.hook = some .input ∧ Served o first.packet := by
  obtain ⟨hfamily, hends⟩ := ends_of_belongsTo h
  simp only [Passed.Placed, hx] at hplaced
  have hfirst := hopens.placed
  have hvetted := hopens.vetted
  unfold Passed.Placed at hfirst
  unfold Passed.Vetted at hvetted
  split at hfirst
  · next hnone => exact .inl hnone
  · next hinput =>
    rw [hinput] at hvetted
    exact .inr ⟨hinput, hvetted⟩
  · rw [hfamily] at hplaced
    rcases hends with ⟨-, hd⟩ | ⟨-, hd⟩ <;> rw [hd] at hplaced <;> simp [hplaced] at hfirst

section exchange

def peerOptions : ExitFirewallOptions where
  wgInterface := "wg0"
  uplinkInterface := "ens5"
  operatorCidrs := ["10.0.0.0/16"]
  uplinkAddresses := ["172.26.5.10/20"]
  dnsServers := []
  localDnsAddress := some "10.77.0.1"

def peerRuleset : Ruleset :=
  ⟨peerOptions.sets, peerOptions.inputRules, peerOptions.forwardRules⟩

def exitAddress (family : Family) (n : ℕ) : Bool := family = .v4 && n = 172818433

def idle : Rates := ⟨fun _ => false, true⟩

/-- A peer's packet to a web server. -/
def request : Packet where
  iif := "wg0"
  oif := "ens5"
  family := .v4
  source := 172818690
  destination := 1572395042
  carried := .tcp 40000 443
  source_lt := by decide
  destination_lt := by decide

def reply : Packet where
  iif := "ens5"
  oif := "wg0"
  family := .v4
  source := 1572395042
  destination := 172818690
  carried := .tcp 443 40000
  source_lt := by decide
  destination_lt := by decide

/-- A peer's packet to the exit's resolver. -/
def question : Packet where
  iif := "wg0"
  family := .v4
  source := 172818690
  destination := 172818433
  carried := .udp 40000 53
  source_lt := by decide
  destination_lt := by decide

lemma exitRuleset_peerOptions : exitRuleset peerOptions = .ok peerRuleset := by
  have hcheck : peerOptions.check = none := by decide +kernel
  rw [exitRuleset, hcheck, peerRuleset]

lemma reachable_packet (h : Reachable exitAddress peerRuleset w) {hook : Hook} {state : CtState}
    {p : Packet} (hallowed : w.Allowed exitAddress (.packet hook state idle p))
    (haccept : chain peerRuleset.sets idle state p (peerRuleset.rules hook) = .accept) :
    Reachable exitAddress peerRuleset (w.pass ⟨some hook, state, p⟩) := by
  have hstep := h.step hallowed
  rwa [World.step, if_pos haccept] at hstep

end exchange

/-- **A peer reaches nothing on the exit but its resolver**: whatever the options that are accepted
and whatever is sent in whatever order, every packet that the host takes is one of those it serves,
or is of a flow that the host or such a packet opened, or is a message about an error of a flow that
was opened; and what a peer sends over TCP or UDP without such a flow asks the exit's resolver. -/
theorem input_contained (hr : exitRuleset o = .ok r) (hlo : o.wgInterface ≠ "lo")
    (h : Reachable isLocal r w) {x : Passed} {earlier : List Passed}
    (hx : x :: earlier <:+ w.passed) (hinput : x.hook = some .input) :
    (Served o x.packet ∨ (∃ first ∈ earlier, first.state = .new ∧ (first.hook = none ∨
        first.hook = some .input ∧ Served o first.packet) ∧ x.packet.BelongsTo first.packet) ∨
      ∃ first ∈ earlier, first.state = .new ∧ x.packet.ErrorAbout first.packet) ∧
    (x.packet.iif = o.wgInterface → x.packet.isTransport = true → AsksDns o x.packet ∨
      ∃ first ∈ earlier, first.state = .new ∧ (first.hook = none ∨
        first.hook = some .input ∧ Served o first.packet) ∧ x.packet.BelongsTo first.packet) := by
  obtain ⟨hplaced, hjustified⟩ := (sound_of_reachable hr h).passed x earlier hx
  rcases hjustified with hvetted | ⟨first, hfirst, hopens, hbelongs | habout⟩
  · have hserved : Served o x.packet := by
      unfold Passed.Vetted at hvetted
      rwa [hinput] at hvetted
    exact ⟨.inl hserved, fun hiif htransport =>
      .inl (asksDns_of_served (exitRuleset_eq_ok hr).1 hlo hiif htransport hserved)⟩
  · have hopened := served_of_belongsTo hinput hplaced hopens hbelongs
    have hfound : ∃ first ∈ earlier, first.state = .new ∧ (first.hook = none ∨
        first.hook = some .input ∧ Served o first.packet) ∧ x.packet.BelongsTo first.packet :=
      ⟨first, hfirst, hopens.isNew, hopened, hbelongs⟩
    exact ⟨.inr (.inl hfound), fun _ _ => .inr hfound⟩
  · refine ⟨.inr (.inr ⟨first, hfirst, hopens.isNew, habout⟩), fun _ htransport => ?_⟩
    obtain ⟨-, icmpType, about, -, -, hcarries, -⟩ := habout
    rw [Packet.isTransport, hcarries] at htransport
    cases htransport

theorem input_contained_question : AsksDns peerOptions question := by
  have hquestion : Reachable exitAddress peerRuleset
      (({} : World).pass ⟨some .input, .new, question⟩) :=
    reachable_packet .initial ⟨rfl, trivial⟩ (by decide +kernel)
  rcases (input_contained exitRuleset_peerOptions (by decide) hquestion List.suffix_rfl rfl).2
    rfl rfl with hasks | ⟨first, hfirst, -⟩
  · exact hasks
  · cases hfirst

end Tnp.Exit.Firewall
