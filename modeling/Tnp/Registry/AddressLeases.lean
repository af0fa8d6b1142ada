import Tnp.Registry.VpnDevices

/-!
What the transactions keep of the devices and their addresses.

The lock makes each transaction one step. Its clock, however, was read before it waited: an address
is let go the hold time after the delete began, which may be sooner than the hold time after it was
committed.
-/

namespace Tnp.Registry.VpnDevices

open Tnp.Lib Tnp.Lib.Run Tnp.Crypto Tnp.SharedTypes

variable {options : CreateVpnDeviceOptions} {db db' : Database} {row : Row} {draws : List ℕ}
  {n now id : ℕ} {result : CreateVpnDeviceResult} {oxyUserId : String}

/-! ### What a transaction does to the tables -/

/-- The device that a create adds. -/
structure Added (db : Database) (draws : List ℕ) (row : Row) (db' : Database) : Prop where
  drawn : ∃ index ∈ draws, VPN_MIN_HOST_INDEX ≤ index ∧ index ≤ VPN_MAX_HOST_INDEX ∧
    row.address = vpnIpv4ForIndex index
  free : db.vpnAddressQuarantine.get row.address = none
  clash : ∀ d ∈ db.vpnDevices, d.publicKey ≠ row.publicKey ∧ d.address ≠ row.address
  after : db' = { db with vpnDevices := db.vpnDevices ++ [row] }

lemma ended_eq_some {draws : List ℕ} {outcome e : Ended} :
    ended draws outcome = some e ↔ draws = [] ∧ e = outcome := by
  unfold ended
  split <;> simp_all [eq_comm]

lemma insertDevice_eq_some (h : db.insertDevice row = some db') :
    (∀ d ∈ db.vpnDevices, d.publicKey ≠ row.publicKey ∧ d.address ≠ row.address) ∧
      db' = { db with vpnDevices := db.vpnDevices ++ [row] } := by
  unfold Database.insertDevice at h
  split at h
  · simp at h
  · next hnone =>
    simp only [List.any_eq_true, decide_eq_true_eq, not_exists, not_and, not_or] at hnone
    exact ⟨hnone, (Option.some.inj h).symm⟩

lemma eq_of_map_eq_ok {device : Except String VpnDevice} {f : VpnDevice → CreateVpnDeviceResult}
    {after : Database} (h : device.map (fun d => (f d, after)) = .ok (result, db')) :
    db' = after := by
  cases device with
  | error e => simp [Except.map] at h
  | ok d => exact (Prod.mk.inj (Except.ok.inj h)).2.symm

/-- The draws change nothing, or add one device. -/
lemma attempts_cases (h : attempts db row n draws = some (.ok (result, db'))) :
    db' = db ∨ ∃ address, Added db draws { row with address := address } db' := by
  induction n generalizing row draws with
  | zero =>
    obtain ⟨-, hdone⟩ := ended_eq_some.mp h
    exact .inl (Prod.mk.inj (Except.ok.inj hdone)).2
  | succ n ih =>
    cases draws with
    | nil => simp [attempts] at h
    | cons index draws =>
      unfold attempts at h
      split at h
      · simp [ended_eq_some] at h
      next hrange =>
      dsimp only at h
      split at h
      · -- the address is in quarantine
        obtain hsame | ⟨address, ⟨j, hj, hindex⟩, hfree, hclash, hafter⟩ := ih h
        · exact .inl hsame
        · exact .inr ⟨address, ⟨j, List.mem_cons_of_mem _ hj, hindex⟩, hfree, hclash, hafter⟩
      next hquarantine =>
      split at h
      · next hinsert =>
        obtain ⟨-, hdevice⟩ := ended_eq_some.mp h
        obtain ⟨hclash, rfl⟩ := insertDevice_eq_some hinsert
        have hdrawn : VPN_MIN_HOST_INDEX ≤ index ∧ index ≤ VPN_MAX_HOST_INDEX := by omega
        refine .inr ⟨vpnIpv4ForIndex index, ⟨index, List.mem_cons_self, hdrawn.1, hdrawn.2, rfl⟩,
          ?_, hclash, eq_of_map_eq_ok hdevice.symm⟩
        simpa [OrderedMap.has] using hquarantine
      · split at h
        · obtain ⟨-, hdone⟩ := ended_eq_some.mp h
          exact .inl (Prod.mk.inj (Except.ok.inj hdone)).2
        · obtain hsame | ⟨address, ⟨j, hj, hindex⟩, hfree, hclash, hafter⟩ := ih h
          · exact .inl hsame
          · exact .inr ⟨address, ⟨j, List.mem_cons_of_mem _ hj, hindex⟩, hfree, hclash, hafter⟩

/-- A create purges the quarantine, and adds at most one device, below the limit. -/
lemma createVpnDevice_cases {request : CreateVpnDeviceRequest}
    (h : createVpnDevice db now id oxyUserId request options draws = some (.ok (result, db'))) :
    db' = db.purge now options.hold ∨
      (db.devicesOf oxyUserId).length < options.maxDevices ∧
        ∃ row, row.id = id ∧ row.oxyUserId = oxyUserId ∧ row.publicKey = request.publicKey ∧
          Added (db.purge now options.hold) draws row db' := by
  unfold createVpnDevice at h
  dsimp only at h
  split at h
  · obtain ⟨-, hdone⟩ := ended_eq_some.mp h
    exact .inl (Prod.mk.inj (Except.ok.inj hdone)).2
  · next hlimit =>
    rcases attempts_cases h with hsame | ⟨address, hadded⟩
    · exact .inl hsame
    · exact .inr ⟨Nat.lt_of_not_le hlimit, _, rfl, rfl, rfl, hadded⟩

/-! ### Leases -/

/-- Keys and addresses are told apart and in range, no account is past the limit, no device has an
address in quarantine, and none has one that was freed less than the hold time ago. -/
structure Leases (options : CreateVpnDeviceOptions) (s : State) : Prop where
  publicKeys : (s.db.vpnDevices.map Row.publicKey).Nodup
  ipv4 : (s.db.vpnDevices.map Row.address).Nodup
  ipv6 : (s.db.vpnDevices.map fun d => vpnIpv6ForIpv4 d.address).Nodup
  inRange : ∀ d ∈ s.db.vpnDevices, isVpnDeviceIpv4 (.string d.address) = true ∧
    ∃ ipv6, vpnIpv6ForIpv4 d.address = .ok ipv6 ∧ isVpnDeviceIpv6 (.string ipv6) = true
  limit : ∀ oxyUserId, (s.db.devicesOf oxyUserId).length ≤ options.maxDevices
  quarantine : ∀ d ∈ s.db.vpnDevices, s.db.vpnAddressQuarantine.get d.address = none
  held : ∀ release ∈ s.released, s.now < release.committedAt + options.hold →
    ∀ d ∈ s.db.vpnDevices, d.address ≠ release.address

/-- The address is in quarantine still, or was freed, if ever, at least the hold time ago: no delete
of it was committed so late after it began that its row is let go too soon. -/
def mayDraw (options : CreateVpnDeviceOptions) (s : State) (began : ℕ) (address : String) : Bool :=
  (s.db.purge began options.hold).vpnAddressQuarantine.has address ||
    s.released.all fun release =>
      release.address ≠ address ∨ release.committedAt + options.hold ≤ s.now

/-- A create with a new key draws nothing that was let go too soon. -/
def settled (options : CreateVpnDeviceOptions) (s : State) : Event → Bool
  | .commit tx _ draws =>
    match s.transactions.get tx with
    | some ⟨began, .create _ request⟩ =>
      s.holder ≠ some tx || s.db.keyInUse request.publicKey ||
        draws.all fun index => mayDraw options s began (vpnIpv4ForIndex index)
    | _ => true
  | _ => true

/-- What the tables keep, the primary key among it. -/
structure Sound (options : CreateVpnDeviceOptions) (s : State) : Prop where
  ids : (s.db.vpnDevices.map Row.id).Nodup
  publicKeys : (s.db.vpnDevices.map Row.publicKey).Nodup
  ipv4 : (s.db.vpnDevices.map Row.address).Nodup
  inRange : ∀ d ∈ s.db.vpnDevices, ∃ index, vpnIndexOfIpv4 (.string d.address) = some index
  limit : ∀ oxyUserId, (s.db.devicesOf oxyUserId).length ≤ options.maxDevices
  quarantine : ∀ d ∈ s.db.vpnDevices, s.db.vpnAddressQuarantine.get d.address = none
  held : ∀ release ∈ s.released, s.now < release.committedAt + options.hold →
    ∀ d ∈ s.db.vpnDevices, d.address ≠ release.address

variable {s : State}

lemma Sound.leases (h : Sound options s) : Leases options s where
  publicKeys := h.publicKeys
  ipv4 := h.ipv4
  ipv6 := by
    refine List.Nodup.map_on ?_ (List.Nodup.of_map _ h.ipv4)
    intro a ha b hb hsame
    obtain ⟨i, hi⟩ := h.inRange a ha
    have hok : vpnIpv6ForIpv4 a.address =
        .ok (VPN_IPV6_PREFIX ++ String.ofList (Nat.toDigits 16 i)) := by
      simp [vpnIpv6ForIpv4, hi]
    have haddress := vpnIpv6ForIpv4_injective hok (hsame ▸ hok)
    exact List.inj_on_of_nodup_map h.ipv4 ha hb haddress
  inRange d hd := by
    obtain ⟨index, hindex⟩ := h.inRange d hd
    have hok : vpnIpv6ForIpv4 d.address =
        .ok (VPN_IPV6_PREFIX ++ String.ofList (Nat.toDigits 16 index)) := by
      simp [vpnIpv6ForIpv4, hindex]
    exact ⟨by simp [isVpnDeviceIpv4, hindex], _, hok, isVpnDeviceIpv6_of_eq_ok hok⟩
  limit := h.limit
  quarantine := h.quarantine
  held := h.held

/-! ### One step -/

namespace Sound

lemma ended (h : Sound options s) (tx : TxId) : Sound options (s.done tx) :=
  ⟨h.ids, h.publicKeys, h.ipv4, h.inRange, h.limit, h.quarantine, h.held⟩

lemma get_purge_eq_none {address : String} {hold : ℕ}
    (h : db.vpnAddressQuarantine.get address = none) :
    (db.purge now hold).vpnAddressQuarantine.get address = none := by
  cases hget : (db.purge now hold).vpnAddressQuarantine.get address with
  | none => rfl
  | some releasedAt => cases h.symm.trans (OrderedMap.get_filter.mp hget).1

lemma purge (h : Sound options s) (now hold : ℕ) :
    Sound options { s with db := s.db.purge now hold } :=
  ⟨h.ids, h.publicKeys, h.ipv4, h.inRange, h.limit,
    fun d hd => get_purge_eq_none (h.quarantine d hd), h.held⟩

/-- A device with an address that was not freed of late. -/
lemma insert (h : Sound options s) (hadded : Added s.db draws row db')
    (hfresh : s.fresh row.id = true)
    (hlimit : (s.db.devicesOf row.oxyUserId).length < options.maxDevices)
    (hold : ∀ release ∈ s.released, release.address = row.address →
      release.committedAt + options.hold ≤ s.now) : Sound options { s with db := db' } := by
  obtain ⟨⟨index, -, hmin, hmax, haddress⟩, hfree, hclash, rfl⟩ := hadded
  simp only [State.fresh, List.all_eq_true, decide_eq_true_eq] at hfresh
  refine ⟨?_, ?_, ?_, ?_, ?_, ?_, ?_⟩
  · simpa [List.nodup_append] using ⟨h.ids, hfresh⟩
  · simpa [List.nodup_append] using ⟨h.publicKeys, fun d hd => (hclash d hd).1⟩
  · simpa [List.nodup_append] using ⟨h.ipv4, fun d hd => (hclash d hd).2⟩
  · intro d hd
    rcases List.mem_append.mp hd with hd | hd
    · exact h.inRange d hd
    · obtain rfl := List.mem_singleton.mp hd
      exact ⟨index, haddress ▸ vpnIndexOfIpv4_vpnIpv4ForIndex hmin hmax⟩
  · intro oxyUserId
    have hbefore := h.limit oxyUserId
    simp only [Database.devicesOf, List.filter_append, List.length_append] at hlimit hbefore ⊢
    by_cases hown : row.oxyUserId = oxyUserId
    · subst hown
      simpa [Nat.succ_le_iff] using hlimit
    · simpa [hown] using hbefore
  · intro d hd
    rcases List.mem_append.mp hd with hd | hd
    · exact h.quarantine d hd
    · exact List.mem_singleton.mp hd ▸ hfree
  · intro release hrelease hnow d hd
    rcases List.mem_append.mp hd with hd | hd
    · exact h.held release hrelease hnow d hd
    · obtain rfl := List.mem_singleton.mp hd
      intro hsame
      exact absurd hnow (Nat.not_lt.mpr (hold release hrelease hsame.symm))

/-- The address of a deleted device is no other's. -/
lemma delete (h : Sound options s) (began id : ℕ) (oxyUserId : String) :
    Sound options { s with
      db := (deleteVpnDevice s.db began oxyUserId id).2
      released := ((ownDevice s.db oxyUserId id).map fun d => Release.mk d.address s.now).toList ++
        s.released } := by
  unfold deleteVpnDevice
  cases hown : ownDevice s.db oxyUserId id with
  | none => exact h
  | some deleted =>
    have hmem := List.mem_of_find?_eq_some hown
    have hkey : deleted.id = id ∧ deleted.oxyUserId = oxyUserId := by
      simpa using List.find?_some hown
    set rest := s.db.vpnDevices.filter fun d => ¬ (d.id = id ∧ d.oxyUserId = oxyUserId) with hrest
    have hsub : rest.Sublist s.db.vpnDevices := List.filter_sublist
    have hother : ∀ d ∈ rest, d.address ≠ deleted.address := by
      intro d hd hsame
      obtain ⟨hd, hnot⟩ := List.mem_filter.mp hd
      obtain rfl := List.inj_on_of_nodup_map h.ipv4 hd hmem hsame
      simp [hkey] at hnot
    refine ⟨h.ids.sublist (hsub.map _), h.publicKeys.sublist (hsub.map _),
      h.ipv4.sublist (hsub.map _), fun d hd => h.inRange d (hsub.subset hd), fun user => ?_,
      fun d hd => ?_, ?_⟩
    · exact (hsub.filter _).length_le.trans (h.limit user)
    · exact (OrderedMap.get_set_of_ne _ (hother d hd).symm).trans
        (h.quarantine d (hsub.subset hd))
    · intro release hrelease hnow d hd
      rcases List.mem_append.mp hrelease with hnew | hold
      · have heq : release = ⟨deleted.address, s.now⟩ := by simpa using hnew
        exact heq ▸ hother d hd
      · exact h.held release hold hnow d (hsub.subset hd)

theorem step {e : Event} (h : Sound options s) (hsettled : settled options s e = true) :
    Sound options (s.step options e) := by
  cases e with
  | tick micros =>
    refine ⟨h.ids, h.publicKeys, h.ipv4, h.inRange, h.limit, h.quarantine, ?_⟩
    exact fun release hrelease hnow =>
      h.held release hrelease (Nat.lt_of_le_of_lt (Nat.le_add_right _ _) hnow)
  | start tx call =>
    simp only [State.step]
    split
    · exact h
    · exact ⟨h.ids, h.publicKeys, h.ipv4, h.inRange, h.limit, h.quarantine, h.held⟩
  | grant tx =>
    simp only [State.step]
    split
    · exact ⟨h.ids, h.publicKeys, h.ipv4, h.inRange, h.limit, h.quarantine, h.held⟩
    · exact h
  | commit tx id draws =>
    simp only [State.step]
    split
    · next t ht =>
      split
      · next hholder =>
        unfold State.commit
        split
        · next oxyUserId request hcall =>
          split
          · next hfresh =>
            split
            · next result db' hcreate =>
              refine Sound.ended (s := { s with db := db' }) ?_ tx
              obtain rfl | ⟨hlimit, row, rfl, rfl, hkey, hadded⟩ := createVpnDevice_cases hcreate
              · exact h.purge _ _
              · obtain ⟨index, hindex, -, -, haddress⟩ := hadded.drawn
                have hfree := hadded.free
                refine (h.purge t.began options.hold).insert hadded hfresh hlimit ?_
                have hnew : s.db.keyInUse request.publicKey = false := by
                  simp only [Database.keyInUse, List.any_eq_false, ← hkey, decide_eq_true_eq]
                  exact fun d hd => (hadded.clash d hd).1
                obtain ⟨began, call⟩ := t
                obtain rfl : call = _ := hcall
                simp only [settled, ht, hholder, hnew, ne_eq, not_true_eq_false, decide_false,
                  Bool.false_or, List.all_eq_true] at hsettled
                have hdraw := hsettled index hindex
                rw [← haddress] at hdraw
                simpa [mayDraw, OrderedMap.has, hfree, ← imp_iff_not_or] using hdraw
            · exact h.ended tx
            · exact h
          · exact h
        · exact (h.delete t.began _ _).ended tx
      · exact h
    · exact h
  | rollback tx => exact h.ended tx

lemma init : Sound options {} where
  ids := by simp
  publicKeys := by simp
  ipv4 := by simp
  inRange := by simp
  limit := by simp [Database.devicesOf]
  quarantine := by simp
  held := by simp

end Sound

end Tnp.Registry.VpnDevices
