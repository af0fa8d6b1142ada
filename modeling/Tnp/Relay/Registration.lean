import Tnp.Relay.Accounting

/-!
The names the relay serves: who holds one has proved it, whatever changed while the proof waited
for the registry, and keeps it until it is gone itself.
-/

namespace Tnp.Relay.RelayCore

open Relation Tnp.Lib Tnp.Lib.Run Tnp.Protocol Tnp.Crypto Tnp.Crypto.Grants

variable {o : RelayCoreOptions} {reach : Reach} {e : Env} {s s' : RelayCore} {c d : ConnId}
  {name : String}

/-! ### What a closed connection leaves behind -/

/-- A chain for `name` was verified that ends in the key, and the key signed for this relay. -/
structure Certified (o : RelayCoreOptions) (name nodeKeyHex : String) : Prop where
  certified : ∃ (chain : List Value) (signature : String) (challenge : Challenge)
    (domainKey : PublicKey) (now : ℚ) (verified : VerifiedChain),
    verifyChain o.verify chain (serviceOptions domainKey now name) = .ok (.ok verified) ∧
    verifyServiceAuth o.verify ⟨name, o.endpoint, challenge, verified.subject⟩ signature = true ∧
    nodeKeyHex = toHex verified.subject.val

/-- A live connection that is ready to serve `name`. -/
structure Entitled (o : RelayCoreOptions) (conn : Connection) (name : String) : Prop where
  closed : conn.closed = false
  kind : conn.kind = .service
  state : conn.state = some .ready
  name_eq : conn.name = some name
  key : ∃ nodeKeyHex, conn.nodeKeyHex = some nodeKeyHex ∧ Certified o name nodeKeyHex

lemma Entitled.congr {conn conn' : Connection} (h : Entitled o conn name)
    (hclosed : conn'.closed = conn.closed) (hkind : conn'.kind = conn.kind)
    (hstanding : conn'.standing = conn.standing) : Entitled o conn' name where
  closed := hclosed.trans h.closed
  kind := hkind.trans h.kind
  state := (congrArg Standing.state hstanding).trans h.state
  name_eq := (congrArg Standing.name hstanding).trans h.name_eq
  key := by
    obtain ⟨key, hkey, hcertified⟩ := h.key
    exact ⟨key, (congrArg Standing.nodeKeyHex hstanding).trans hkey, hcertified⟩

/-- Nothing happens but to `c` itself: no circuit, no table and no name changes, and no other
connection is told anything. -/
structure Unmoved (c : ConnId) (s s' : RelayCore) : Prop where
  out : ∃ new, s'.out = s.out ++ new ∧ ∀ y ∈ new,
    (∃ f, y = .send c f) ∨ ∃ code reason, y = .close c code reason
  circuit : s'.circuit = s.circuit
  tables : ∀ d id, (s'.conn d).circuits.get id = (s.conn d).circuits.get id
  services : s'.services = s.services
  counts : s'.circuitCount = s.circuitCount ∧ s'.ipService = s.ipService
  others : ∀ d ≠ c, (s'.conn d).account = (s.conn d).account ∧
    (s'.conn d).standing = (s.conn d).standing ∧ (s'.conn d).closed = (s.conn d).closed

def silentReach (c : ConnId) : Reach where
  closes d := d = c
  adds _ := False
  auths d := d = c
  touches _ := False
  tells y := (∃ f, y = .send c f) ∨ ∃ code reason, y = .close c code reason

lemma detach_eq_of_unnamed (hname : ∀ n, s.services.get n ≠ some c) :
    (s.detach c).services = s.services := by
  unfold detach
  dsimp only
  split
  · rw [if_neg fun h => hname _ h.2.2]
    rfl
  · rfl

lemma onTransportClosed_of_empty (hclosed : (s.conn c).closed = false)
    (hempty : ∀ id, (s.conn c).circuits.get id = none) : s.onTransportClosed c = s.detach c := by
  have hnone : (s.conn c).circuits.drain.1 = [] := by
    refine List.eq_nil_iff_forall_not_mem.mpr fun r hr => ?_
    obtain ⟨id, hget⟩ := OrderedMap.mem_values_iff.mp hr
    rw [show (s.conn c).circuits.circuits.get id = none from hempty id] at hget
    simp at hget
  rw [onTransportClosed, hclosed, if_neg Bool.false_ne_true, hnone, List.foldl_nil]

lemma Unmoved.effect {t : RelayCore} (hempty : ∀ id, (s.conn c).circuits.get id = none)
    (hname : ∀ n, s.services.get n ≠ some c) (h : Unmoved c s s')
    (he : Effect o (silentReach c) s' t) : Unmoved c s t := by
  cases he with
  | quiet hq =>
    refine ⟨hq.out ▸ h.out, hq.circuit.trans h.circuit, fun d id => ?_,
      hq.services.trans h.services, ⟨hq.circuitCount.trans h.counts.1,
        hq.ipService.trans h.counts.2⟩, fun d hd => ?_⟩
    · rw [show (t.conn d).circuits = _ from congrArg Account.circuits (hq.account d)]
      exact h.tables d id
    · obtain ⟨haccount, hstanding, hclosed⟩ := h.others d hd
      exact ⟨(hq.account d).trans haccount, (hq.standing d).trans hstanding,
        (hq.closed d).trans hclosed⟩
  | say hy =>
    obtain ⟨new, hout, hnew⟩ := h.out
    refine ⟨⟨new ++ [_], by rw [hout, List.append_assoc], fun y hy' => ?_⟩, h.circuit, h.tables,
      h.services, h.counts, h.others⟩
    rcases List.mem_append.mp hy' with hy' | hy'
    · exact hnew y hy'
    · exact List.mem_singleton.mp hy' ▸ hy
  | touch hr | opens hr | remove hr => exact hr.elim
  | add hc => exact hc.elim
  | @verifies d auth hd hclosed hkind hstate =>
    obtain rfl : d = c := hd
    refine ⟨h.out, h.circuit, fun x id => ?_, h.services, h.counts, fun x hx => ?_⟩
    · rw [← h.tables, conn_startVerification]
      split
      · next hx => rw [hx]
      · rfl
    · rw [conn_startVerification, if_neg hx]
      exact h.others x hx
  | @close d hd hclosed =>
    obtain rfl : d = c := hd
    have hempty' : ∀ id, (s'.conn d).circuits.get id = none := fun id =>
      (h.tables d id).trans (hempty id)
    have hname' : ∀ n, s'.services.get n ≠ some d := fun n => h.services ▸ hname n
    rw [onTransportClosed_of_empty hclosed hempty']
    refine ⟨h.out, h.circuit, fun x id => ?_, (detach_eq_of_unnamed hname').trans h.services,
      h.counts, fun x hx => ?_⟩
    · rw [conn_detach]
      split
      · next hx =>
        subst hx
        exact (hempty id).symm
      · exact h.tables x id
    · rw [conn_detach, if_neg hx]
      exact h.others x hx

end Tnp.Relay.RelayCore
