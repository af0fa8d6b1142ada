import Tnp.Exit.WireGuard

/-!
The plan turns the peers an interface has into the peers it must have.

What is removed and what is set are different keys, and no two peers that are set share an
address. So no change undoes another, and the commands may be cut anywhere.
-/

namespace Tnp.Exit

open Tnp.Lib Tnp.SharedTypes

/-- The peer has exactly its addresses. -/
def Right (kernel : Kernel) (peer : ExitPeer) : Prop :=
  ∃ held, kernel.get peer.publicKey = some held ∧ held.Perm (allowedIpsFor peer)

/-- The peers of the interface are those that it must have, each with exactly its addresses. -/
structure Matches (kernel : Kernel) (desired : List ExitPeer) : Prop where
  present : ∀ peer ∈ desired, Right kernel peer
  only : ∀ key held, kernel.get key = some held → ∃ peer ∈ desired, peer.publicKey = key

/-- Whom the answer gives an address to. -/
def Desires (desired : List ExitPeer) (key ip : String) : Prop :=
  ∃ peer ∈ desired, peer.publicKey = key ∧ ip ∈ allowedIpsFor peer

variable {nacl : Crypto.KeyAgreement.Nacl} {desired : List ExitPeer} {actual : ActualPeers}

/-! ### What is in the plan -/

lemma wantedPeers_has (h : Listed nacl desired) {key : String} :
    (wantedPeers desired).has key = true ↔ ∃ peer ∈ desired, peer.publicKey = key := by
  rw [OrderedMap.has, Option.isSome_iff_exists]
  constructor
  · rintro ⟨ips, hips⟩
    obtain ⟨peer, hpeer, hkey, -⟩ := (wantedPeers_get h).mp hips
    exact ⟨peer, hpeer, hkey⟩
  · rintro ⟨peer, hpeer, hkey⟩
    exact ⟨_, (wantedPeers_get h).mpr ⟨peer, hpeer, hkey, rfl⟩⟩

lemma mem_plan_remove (h : Listed nacl desired) {key : String} :
    .remove key ∈ planPeerChanges desired actual ↔
      (∃ ips, actual.get key = some ips) ∧ ¬ ∃ peer ∈ desired, peer.publicKey = key := by
  have hkeys : key ∈ sortTexts (actual.entries.map Prod.fst) ↔
      ∃ ips, actual.get key = some ips := by
    rw [(perm_sortTexts _).mem_iff, List.mem_map]
    constructor
    · rintro ⟨⟨k, ips⟩, he, rfl⟩
      exact ⟨ips, OrderedMap.mem_entries_iff.mp he⟩
    · rintro ⟨ips, hips⟩
      exact ⟨(key, ips), OrderedMap.mem_entries_iff.mpr hips, rfl⟩
  have hset (e : String × List String) : setChange actual e ≠ some (.remove key) := by
    unfold setChange
    split
    · simp
    · split <;> simp
  simp only [planPeerChanges, List.mem_append, List.mem_map, List.mem_filter, List.mem_filterMap,
    PeerChange.remove.injEq, exists_eq_right, hset, and_false, exists_false, or_false, hkeys,
    Bool.not_eq_true', ← wantedPeers_has h, Bool.not_eq_true]

lemma setChange_eq_some {e : String × List String} {c : PeerChange}
    (h : setChange actual e = some c) : c = .set e.1 e.2 ∧ actual.get e.1 ≠ some e.2 := by
  unfold setChange at h
  split at h
  · next hnone => exact ⟨(Option.some.inj h).symm, by simp [hnone]⟩
  · next current hsome =>
    split at h
    · next hne =>
      refine ⟨(Option.some.inj h).symm, fun heq => hne ?_⟩
      rw [Option.some.inj (hsome.symm.trans heq)]
    · simp at h

lemma mem_plan_set (h : Listed nacl desired) {key : String} {ips : List String}
    (hmem : .set key ips ∈ planPeerChanges desired actual) :
    (∃ peer ∈ desired, peer.publicKey = key ∧ allowedIpsFor peer = ips) ∧
      actual.get key ≠ some ips := by
  simp only [planPeerChanges, List.mem_append, List.mem_map, reduceCtorEq, and_false, exists_false,
    false_or, List.mem_filterMap, List.mem_insertionSort] at hmem
  obtain ⟨e, he, hchange⟩ := hmem
  obtain ⟨heq, hne⟩ := setChange_eq_some hchange
  obtain ⟨rfl, rfl⟩ := PeerChange.set.inj heq
  exact ⟨(wantedPeers_get h).mp (OrderedMap.mem_entries_iff.mp he), hne⟩

/-- A peer that is not set has its addresses already. -/
lemma get_of_not_set (h : Listed nacl desired) (hactual : WellFormed actual) {peer : ExitPeer}
    (hpeer : peer ∈ desired)
    (hnot : .set peer.publicKey (allowedIpsFor peer) ∉ planPeerChanges desired actual) :
    actual.get peer.publicKey = some (allowedIpsFor peer) := by
  have hentry : (peer.publicKey, allowedIpsFor peer) ∈ (wantedPeers desired).entries :=
    OrderedMap.mem_entries_iff.mpr ((wantedPeers_get h).mpr ⟨peer, hpeer, rfl, rfl⟩)
  have hchange : setChange actual (peer.publicKey, allowedIpsFor peer) = none := by
    by_contra hne
    obtain ⟨c, hc⟩ := Option.ne_none_iff_exists'.mp hne
    obtain ⟨rfl, -⟩ := setChange_eq_some hc
    refine hnot (List.mem_append_right _ (List.mem_filterMap.mpr ⟨_, ?_, hc⟩))
    exact (List.mem_insertionSort _).mpr hentry
  unfold setChange at hchange
  split at hchange
  · simp at hchange
  · next current hsome =>
    split at hchange
    · simp at hchange
    · next hjoin =>
      rw [hsome, joinIps_injective (hactual.prefixes _ _ hsome)
        (fun ip hip => matchesPrefix_of_mem (h.valid peer hpeer) hip) (allowedIpsFor_ne_nil peer)
        (not_not.mp hjoin)]

lemma plan_writable (h : Listed nacl desired) (hactual : WellFormed actual) {c : PeerChange}
    (hc : c ∈ planPeerChanges desired actual) : c.Writable := by
  cases c with
  | remove key =>
    obtain ⟨⟨ips, hips⟩, -⟩ := (mem_plan_remove h).mp hc
    exact hactual.keys key ips hips
  | set key ips =>
    obtain ⟨⟨peer, hpeer, rfl, rfl⟩, -⟩ := mem_plan_set h hc
    exact ⟨matchesKey_of_valid (h.valid peer hpeer).publicKey, allowedIpsFor_ne_nil peer,
      fun ip hip => matchesPrefix_of_mem (h.valid peer hpeer) hip⟩

/-! ### No change undoes another -/

lemma keys_filterMap_setChange (entries : List (String × List String)) :
    ((entries.filterMap (setChange actual)).map PeerChange.publicKey).Sublist
      (entries.map Prod.fst) := by
  induction entries with
  | nil => exact List.Sublist.slnil
  | cons e rest ih =>
    rw [List.filterMap_cons, List.map_cons]
    cases hchange : setChange actual e with
    | none => exact ih.cons _
    | some c =>
      obtain ⟨rfl, -⟩ := setChange_eq_some hchange
      exact ih.cons_cons _

lemma keys_plan (desired : List ExitPeer) (actual : ActualPeers) :
    ((planPeerChanges desired actual).map PeerChange.publicKey).Nodup := by
  have hremoved : ((sortTexts (actual.entries.map Prod.fst)).filter fun key =>
      !(wantedPeers desired).has key).Nodup :=
    ((perm_sortTexts _).nodup_iff.mpr actual.nodup).filter _
  have hset : (((wantedPeers desired).entries.insertionSort fun a b => a.1 ≤ b.1).map
      Prod.fst).Nodup :=
    ((List.perm_insertionSort _ _).map _).nodup_iff.mpr (wantedPeers desired).nodup
  rw [planPeerChanges, List.map_append, List.map_map, List.nodup_append]
  refine ⟨by simpa [Function.comp_def, PeerChange.publicKey] using hremoved,
    hset.sublist (keys_filterMap_setChange _), ?_⟩
  intro key hkey key' hkey' heq
  subst heq
  obtain ⟨k, hk, rfl⟩ := List.mem_map.mp hkey
  have hnot := (List.mem_filter.mp hk).2
  obtain ⟨e, he, heq⟩ := List.mem_map.mp ((keys_filterMap_setChange _).subset hkey')
  have hhas : (wantedPeers desired).has e.1 = true := by
    have hentry := OrderedMap.mem_entries_iff.mp ((List.mem_insertionSort _).mp he)
    simp [OrderedMap.has, hentry]
  have hk' : e.1 = k := heq
  simp [← hk', hhas] at hnot

lemma key_toChange (c : PeerChange) : c.toChange.key = c.publicKey := by
  cases c <;> rfl

/-- What a change of the plan gives, the answer gives to the same key. -/
lemma desires_of_mem_items (h : Listed nacl desired) {c : PeerChange}
    (hc : c ∈ planPeerChanges desired actual) {ip : String} (hip : ip ∈ c.toChange.items) :
    Desires desired c.publicKey ip := by
  cases c with
  | remove key => simp [PeerChange.toChange, Holdings.Change.items] at hip
  | set key ips =>
    obtain ⟨⟨peer, hpeer, rfl, rfl⟩, -⟩ := mem_plan_set h hc
    exact ⟨peer, hpeer, rfl, hip⟩

/-- The answer gives an address to one key. -/
lemma key_eq_of_desires (h : Listed nacl desired) {key key' ip : String}
    (hkey : Desires desired key ip) (hkey' : Desires desired key' ip) : key = key' := by
  obtain ⟨peer, hpeer, rfl, hip⟩ := hkey
  obtain ⟨peer', hpeer', rfl, hip'⟩ := hkey'
  rw [eq_of_mem_allowedIpsFor h hpeer hpeer' hip hip']

lemma plan_separate (h : Listed nacl desired) :
    Holdings.Separate ((planPeerChanges desired actual).map PeerChange.toChange) := by
  have hkeys := keys_plan desired actual
  refine ⟨by simpa [Function.comp_def, key_toChange] using hkeys, ?_⟩
  rw [List.pairwise_map]
  refine (List.pairwise_map.mp hkeys).imp_of_mem ?_
  intro c d hc hd hne ip hip hip'
  exact hne (key_eq_of_desires h (desires_of_mem_items h hc hip) (desires_of_mem_items h hd hip'))

/-! ### What the plan leaves -/

variable {kernel : Kernel}

lemma get_actual_of_right (hkernel : Shows kernel actual) {peer : ExitPeer}
    (hright : Right kernel peer) : actual.get peer.publicKey = some (allowedIpsFor peer) := by
  obtain ⟨held, hget, hperm⟩ := hright
  rw [hkernel, hget, Option.map_some, sortTexts_eq_of_perm hperm]
  exact congrArg some (sortTexts_idempotent _)

lemma right_of_get_actual (hkernel : Shows kernel actual) {peer : ExitPeer}
    (hget : actual.get peer.publicKey = some (allowedIpsFor peer)) : Right kernel peer := by
  rw [hkernel] at hget
  obtain ⟨held, hheld, hsorted⟩ := Option.map_eq_some_iff.mp hget
  exact ⟨held, hheld, hsorted ▸ (perm_sortTexts held).symm⟩

/-- A peer that is right is in no change, and no change takes an address from it. -/
lemma plan_spares (h : Listed nacl desired) (hkernel : Shows kernel actual) {peer : ExitPeer}
    (hpeer : peer ∈ desired) (hright : Right kernel peer) {c : PeerChange}
    (hc : c ∈ planPeerChanges desired actual) :
    c.publicKey ≠ peer.publicKey ∧
      ∀ ip ∈ c.toChange.items, ¬ kernel.Holds peer.publicKey ip := by
  have hne : c.publicKey ≠ peer.publicKey := by
    intro heq
    cases c with
    | remove key => exact ((mem_plan_remove h).mp hc).2 ⟨peer, hpeer, heq.symm⟩
    | set key ips =>
      obtain ⟨⟨p, hp, hkey, rfl⟩, hnot⟩ := mem_plan_set h hc
      obtain rfl := List.inj_on_of_nodup_map h.keys hp hpeer (hkey.trans heq)
      exact hnot (hkey ▸ get_actual_of_right hkernel hright)
  refine ⟨hne, ?_⟩
  rintro ip hip ⟨held, hget, hmem⟩
  obtain ⟨held', hget', hperm⟩ := hright
  obtain rfl := Option.some.inj (hget.symm.trans hget')
  exact hne (key_eq_of_desires h (desires_of_mem_items h hc hip)
    ⟨peer, hpeer, rfl, hperm.mem_iff.mp hmem⟩)

lemma carryOut_spares (h : Listed nacl desired) (hkernel : Shows kernel actual) {peer : ExitPeer}
    (hpeer : peer ∈ desired) (hright : Right kernel peer) (n : ℕ) :
    (kernel.carryOut ((planPeerChanges desired actual).take n)).get peer.publicKey =
      kernel.get peer.publicKey := by
  refine Holdings.get_run_of_disjoint ?_
  intro c hc
  obtain ⟨d, hd, rfl⟩ := List.mem_map.mp hc
  rw [key_toChange]
  exact plan_spares h hkernel hpeer hright (List.mem_of_mem_take hd)

/-- **The plan leaves exactly the peers that the interface must have.** -/
theorem carryOut_matches (h : Listed nacl desired) (hactual : WellFormed actual)
    (hkernel : Shows kernel actual) :
    Matches (kernel.carryOut (planPeerChanges desired actual)) desired := by
  constructor
  · intro peer hpeer
    by_cases hset : .set peer.publicKey (allowedIpsFor peer) ∈ planPeerChanges desired actual
    · exact ⟨_, Holdings.get_run_assign (plan_separate h) (List.mem_map_of_mem hset),
        List.Perm.refl _⟩
    · have hright := right_of_get_actual hkernel (get_of_not_set h hactual hpeer hset)
      have hspared := carryOut_spares h hkernel hpeer hright (planPeerChanges desired actual).length
      rw [List.take_length] at hspared
      obtain ⟨held, hget, hperm⟩ := hright
      exact ⟨held, hspared.trans hget, hperm⟩
  · intro key held hget
    by_contra hunwanted
    cases hbefore : kernel.get key with
    | none =>
      have hsame : (kernel.carryOut (planPeerChanges desired actual)).get key = kernel.get key := by
        refine Holdings.get_run_of_disjoint fun c hc => ?_
        obtain ⟨d, hd, rfl⟩ := List.mem_map.mp hc
        refine ⟨?_, ?_⟩
        · rintro rfl
          rw [key_toChange] at hbefore hunwanted
          cases d with
          | remove k =>
            obtain ⟨⟨ips, hips⟩, -⟩ := (mem_plan_remove h).mp hd
            rw [hkernel] at hips
            simp [PeerChange.publicKey] at hbefore
            simp [hbefore] at hips
          | set k ips =>
            obtain ⟨⟨p, hp, hk, -⟩, -⟩ := mem_plan_set h hd
            exact hunwanted ⟨p, hp, hk⟩
        · rintro ip - ⟨held', hheld', -⟩
          simp [hbefore] at hheld'
      rw [hsame, hbefore] at hget
      cases hget
    | some before =>
      have hremove : .remove key ∈ planPeerChanges desired actual :=
        (mem_plan_remove h).mpr ⟨⟨_, by rw [hkernel, hbefore]; rfl⟩, hunwanted⟩
      have hgone : (kernel.carryOut (planPeerChanges desired actual)).get key = none :=
        Holdings.get_run_release (plan_separate h) (List.mem_map_of_mem hremove)
      rw [hgone] at hget
      cases hget

/-- No address is at a key that neither had it nor must have it, wherever the plan is cut. -/
lemma holds_carryOut (h : Listed nacl desired) {n : ℕ} {key ip : String}
    (hholds : (kernel.carryOut ((planPeerChanges desired actual).take n)).Holds key ip) :
    kernel.Holds key ip ∨ Desires desired key ip := by
  rcases Holdings.holds_run hholds with hbefore | ⟨c, hc, hkey, hip⟩
  · exact .inl hbefore
  · obtain ⟨d, hd, rfl⟩ := List.mem_map.mp hc
    rw [key_toChange] at hkey
    exact .inr (hkey ▸ desires_of_mem_items h (List.mem_of_mem_take hd) hip)

/-- An interface that is right needs no change. -/
lemma plan_of_matches (h : Listed nacl desired) (hmatches : Matches kernel desired)
    (hkernel : Shows kernel actual) : planPeerChanges desired actual = [] := by
  refine List.eq_nil_iff_forall_not_mem.mpr fun c hc => ?_
  cases c with
  | remove key =>
    obtain ⟨⟨ips, hips⟩, hunwanted⟩ := (mem_plan_remove h).mp hc
    rw [hkernel] at hips
    obtain ⟨held, hheld, -⟩ := Option.map_eq_some_iff.mp hips
    exact hunwanted (hmatches.only key held hheld)
  | set key ips =>
    obtain ⟨⟨peer, hpeer, rfl, rfl⟩, hnot⟩ := mem_plan_set h hc
    exact hnot (get_actual_of_right hkernel (hmatches.present peer hpeer))

/-- **The plan refines the desired peers.** Its commands leave exactly the peers of the answer,
touch no peer that is right, and give no address to a third key on the way. What they leave needs
no further command. -/
theorem plan_refines {body : Crypto.Value} {parsed : ParsedExitPeers} {output iface : String}
    (hbody : parseExitPeersResponse nacl body = .ok parsed)
    (houtput : parseWgAllowedIps output = .ok actual) (hkernel : Shows kernel actual)
    (hiface : matchesIface iface = true) :
    ∃ commands, wgSetCommands iface (planPeerChanges parsed.peers actual) = .ok commands ∧
      Matches (kernel.runAll commands) parsed.peers ∧
      (∀ peer ∈ parsed.peers, Right kernel peer →
        (∀ c ∈ commands.flatMap changesOf, c.publicKey ≠ peer.publicKey) ∧
        ∀ n, (kernel.carryOut ((commands.flatMap changesOf).take n)).get peer.publicKey =
          kernel.get peer.publicKey) ∧
      (∀ n key ip, (kernel.carryOut ((commands.flatMap changesOf).take n)).Holds key ip →
        kernel.Holds key ip ∨ Desires parsed.peers key ip) ∧
      ∀ output' actual', parseWgAllowedIps output' = .ok actual' →
        Shows (kernel.runAll commands) actual' → planPeerChanges parsed.peers actual' = [] := by
  have hlisted := parseExitPeersResponse_listed hbody
  have hactual := wellFormed_of_parse houtput
  have hwritable : ∀ c ∈ planPeerChanges parsed.peers actual, c.Writable := fun c hc =>
    plan_writable hlisted hactual hc
  refine ⟨_, wgSetCommands_eq_ok hiface hwritable, ?_⟩
  rw [Kernel.runAll_eq, changesOf_commands iface hwritable]
  have hmatches := carryOut_matches hlisted hactual hkernel
  refine ⟨hmatches, ?_, ?_, ?_⟩
  · intro peer hpeer hright
    exact ⟨fun c hc => (plan_spares hlisted hkernel hpeer hright hc).1,
      carryOut_spares hlisted hkernel hpeer hright⟩
  · intro n key ip hholds
    exact holds_carryOut hlisted hholds
  · intro output' actual' _ hkernel'
    exact plan_of_matches hlisted hmatches hkernel'

/-! ### Two devices that change places -/

/-- A curve on which the keys below are of large order. -/
def sampleNacl : Crypto.KeyAgreement.Nacl :=
  ⟨fun _ _ _ => true, fun _ key => key, fun _ => ⟨List.replicate 32 1, length_ones⟩⟩

def laptopKey : String := "AQEBAQEBAQEBAQEBAQEBAQEBAQEBAQEBAQEBAQEBAQE="
def phoneKey : String := "AgICAgICAgICAgICAgICAgICAgICAgICAgICAgICAgI="

def entryOf (peer : ExitPeer) : Crypto.Value :=
  .object [("publicKey", .string peer.publicKey), ("ipv4", .string peer.ipv4),
    ("ipv6", .string peer.ipv6)]

def laptop : ExitPeer := ⟨laptopKey, "10.77.0.2", "fd85:d596:af02::a4d:2"⟩
def phone : ExitPeer := ⟨phoneKey, "10.77.0.3", "fd85:d596:af02::a4d:3"⟩

def swappedBody : Crypto.Value := .object [("peers", .array [entryOf laptop, entryOf phone])]

/-- Each has the other's addresses. -/
def swappedOutput : String :=
  showAllowedIps [(laptopKey, allowedIpsFor phone), (phoneKey, allowedIpsFor laptop)]

def swappedKernel : Kernel :=
  ⟨[(laptopKey, allowedIpsFor phone), (phoneKey, allowedIpsFor laptop)], by decide⟩

lemma shows_swapped : Shows swappedKernel swappedKernel := by
  intro key
  cases hget : swappedKernel.get key with
  | none => rfl
  | some held =>
    obtain ⟨-, rfl⟩ | ⟨-, rfl⟩ : (key = laptopKey ∧ held = allowedIpsFor phone) ∨
        (key = phoneKey ∧ held = allowedIpsFor laptop) := by
      simpa [swappedKernel] using OrderedMap.mem_entries_iff.mpr hget
    · exact congrArg some (sortTexts_idempotent _).symm
    · exact congrArg some (sortTexts_idempotent _).symm

theorem plan_refines_swapped : ∃ commands,
    wgSetCommands "wg0" (planPeerChanges [laptop, phone] swappedKernel) = .ok commands ∧
      Matches (swappedKernel.runAll commands) [laptop, phone] := by
  have hbody : parseExitPeersResponse sampleNacl swappedBody = .ok ⟨[laptop, phone], 0⟩ := by
    decide
  have houtput : parseWgAllowedIps swappedOutput = .ok swappedKernel := by decide +kernel
  have hiface : matchesIface "wg0" = true := by decide
  obtain ⟨commands, hcommands, hmatches, -⟩ := plan_refines hbody houtput shows_swapped hiface
  exact ⟨commands, hcommands, hmatches⟩

end Tnp.Exit
