import Tnp.Exit.Agent

/-!
Which addresses are taken from a peer without their flows being cut.

The deletions of a tick are those of the peers it removes, and come after all the changes. An
address that a peer loses by being set is not among them, and neither is one that was taken in a
tick that did not come to its end.
-/

namespace Tnp.Exit

open Tnp.Lib Tnp.SharedTypes

def Phase.work : Phase → Option Work
  | .applying work _ | .flushing work _ => some work
  | _ => none

/-- Where `wg` prints the peers, it prints those there are. Any command may fail. -/
def Truthful (w : World) (e : Event) : Prop :=
  ∀ text now, e = .shown (.ok text) now →
    ∃ listing, Lists listing w.kernel ∧ text = showAllowedIps listing

/-- The answer moves no address away from a configured peer that it keeps. -/
def KeepsAddresses (desired : List ExitPeer) (kernel : Kernel) : Prop :=
  ∀ peer ∈ desired, ∀ held, kernel.get peer.publicKey = some held → held ⊆ allowedIpsFor peer

/-- Every peer with an address that the tick removes is still configured. -/
def Spares (work : Work) (kernel : Kernel) : Prop :=
  ∀ key ips, .remove key ∈ work.changes → work.actual.get key = some ips → ips ≠ [] →
    kernel.get key ≠ none

/-- The answer moves no address of a peer that it keeps, and the commands are not cut short after
the first of the removals. -/
def Careful (w : World) (e : Event) : Prop :=
  match e with
  | .shown (.ok _) _ => ∀ parsed, w.phase = .showing parsed → KeepsAddresses parsed.peers w.kernel
  | .ran (.failed carried) _ | .restarted carried _ =>
    ∀ work, w.phase.work = some work → Spares work (w.interrupted carried).kernel
  | _ => True

variable {nacl : Crypto.KeyAgreement.Nacl} {o : AgentOptions} {w : World} {e : Event}

/-! ### The command that is running -/

lemma wg_of_work {work : Work} (h : w.phase.work = some work) : w.phase.wg = work.wg := by
  cases hphase : w.phase <;> simp_all [Phase.work, Phase.wg]

lemma wg_of_idle (h : w.phase.work = none) : w.phase.wg = [] := by
  cases hphase : w.phase <;> simp_all [Phase.work, Phase.wg]

lemma interrupted_of_nil (h : w.phase.wg = []) (n : ℕ) : w.interrupted n = w := by
  simp [World.interrupted, h, changesOf, World.carry]

lemma interrupted_of_cons {args : List String} {wg : List (List String)}
    (h : w.phase.wg = args :: wg) (n : ℕ) :
    w.interrupted n = w.carry ((changesOf args).take n) := by
  simp [World.interrupted, h]

/-! ### What a change takes -/

lemma mem_taken {before after : Kernel} {ip : String} :
    ip ∈ taken before after ↔ ∃ key, before.Holds key ip ∧ ¬ after.Holds key ip := by
  have hafter (key : String) : (after.get key).any (fun held => ip ∈ held) = true ↔
      after.Holds key ip := by
    simp [Holdings.Holds, Option.any_eq_true_iff_get]
    cases after.get key <;> simp
  simp only [taken, List.mem_flatMap, List.mem_filter, Bool.not_eq_true', ← Bool.not_eq_true,
    hafter]
  constructor
  · rintro ⟨⟨key, held⟩, he, hip, hnot⟩
    exact ⟨key, ⟨held, OrderedMap.mem_entries_iff.mp he, hip⟩, hnot⟩
  · rintro ⟨key, ⟨held, hget, hip⟩, hnot⟩
    exact ⟨(key, held), OrderedMap.mem_entries_iff.mpr hget, hip, hnot⟩

/-- Removals come before whatever is set. -/
lemma remove_mem_of_set {desired : List ExitPeer} {actual : ActualPeers}
    {before after : List PeerChange} {key k : String} {ips : List String}
    (hplan : planPeerChanges desired actual = before ++ .set k ips :: after)
    (hremove : .remove key ∈ planPeerChanges desired actual) : .remove key ∈ before := by
  unfold planPeerChanges at hplan hremove
  dsimp only at hplan hremove
  set removals := ((sortTexts (actual.entries.map Prod.fst)).filter fun key =>
    !(wantedPeers desired).has key).map PeerChange.remove with hremovals
  set sets := ((wantedPeers desired).entries.insertionSort fun a b => a.1 ≤ b.1).filterMap
    (setChange actual) with hsets
  have hin : .remove key ∈ removals := by
    rcases List.mem_append.mp hremove with hin | hin
    · exact hin
    · obtain ⟨e, -, he⟩ := List.mem_filterMap.mp (hsets ▸ hin)
      exact absurd (setChange_eq_some he).1 nofun
  rcases List.append_eq_append_iff.mp hplan with ⟨more, rfl, -⟩ | ⟨more, heq, hrest⟩
  · exact List.mem_append_left _ hin
  · cases more with
    | nil => rwa [heq, List.append_nil] at hin
    | cons c more =>
      obtain ⟨rfl, -⟩ := List.cons.inj hrest
      have hset : PeerChange.set k ips ∈ removals := heq ▸ by simp
      obtain ⟨_, -, hbad⟩ := List.mem_map.mp hset
      exact absurd hbad nofun

/-! ### A plan under way -/

/-- The plan for an answer that moves no address of a peer it keeps, made from what there was. -/
structure Steady (nacl : Crypto.KeyAgreement.Nacl) (desired : List ExitPeer) (start : Kernel)
    (actual : ActualPeers) : Prop where
  listed : Listed nacl desired
  shows : Shows start actual
  keeps : KeepsAddresses desired start

variable {desired : List ExitPeer} {start : Kernel} {actual : ActualPeers}

/-- A peer that was removed holds nothing. -/
lemma get_removed (hlisted : Listed nacl desired) {carried rest : List PeerChange} {key : String}
    (hplan : planPeerChanges desired actual = carried ++ rest) (hkey : .remove key ∈ carried) :
    (start.carryOut carried).get key = none := by
  have htake : carried = (planPeerChanges desired actual).take carried.length := by
    rw [hplan, List.take_left]
  have hwhole : Holdings.Separate ((planPeerChanges desired actual).map PeerChange.toChange) :=
    plan_separate hlisted
  have hseparate := hwhole.take carried.length
  rw [← List.map_take, ← htake] at hseparate
  exact Holdings.get_run_release hseparate (List.mem_map_of_mem hkey)

/-- **Only removals take addresses**, where the answer moves none of a peer it keeps. -/
lemma taken_change (h : Steady nacl desired start actual) {carried rest : List PeerChange}
    {c : PeerChange} (hplan : planPeerChanges desired actual = carried ++ c :: rest) {ip : String}
    (hip : ip ∈ taken (start.carryOut carried)
      (Holdings.apply (start.carryOut carried) c.toChange)) :
    ∃ key, c = .remove key ∧ start.Holds key ip := by
  obtain ⟨key, hbefore, hafter⟩ := mem_taken.mp hip
  have hc : c ∈ planPeerChanges desired actual := hplan ▸ by simp
  have horigin : start.Holds key ip ∨ Desires desired key ip := by
    have htake : carried = (planPeerChanges desired actual).take carried.length := by
      rw [hplan, List.take_left]
    rw [htake] at hbefore
    exact holds_carryOut h.listed hbefore
  obtain ⟨held, hget, hmem⟩ := hbefore
  cases c with
  | remove k =>
    by_cases hk : k = key
    · subst hk
      refine ⟨k, rfl, horigin.resolve_right ?_⟩
      rintro ⟨peer, hpeer, hkey, -⟩
      exact ((mem_plan_remove h.listed).mp hc).2 ⟨peer, hpeer, hkey⟩
    · refine absurd ⟨held, ?_, hmem⟩ hafter
      exact Holdings.get_release.trans ((if_neg hk).trans hget)
  | set k ips =>
    exfalso
    obtain ⟨⟨peer, hpeer, hkey, rfl⟩, -⟩ := mem_plan_set h.listed hc
    by_cases hk : k = key
    · subst hk
      have hnot : ip ∉ allowedIpsFor peer := fun hin =>
        hafter ⟨_, Holdings.get_assign.trans (if_pos rfl), hin⟩
      rcases horigin with ⟨held', hget', hmem'⟩ | ⟨peer', hpeer', hkey', hin⟩
      · exact hnot (h.keeps peer hpeer held' (hkey ▸ hget') hmem')
      · obtain rfl := List.inj_on_of_nodup_map h.listed.keys hpeer' hpeer (hkey'.trans hkey.symm)
        exact hnot hin
    · have hin : ip ∈ allowedIpsFor peer := by
        by_contra hnot
        have hkept : ip ∈ held.filter (· ∉ allowedIpsFor peer) :=
          List.mem_filter.mpr ⟨hmem, by simpa⟩
        refine hafter ⟨_, ?_, hkept⟩
        rw [PeerChange.toChange, Holdings.get_assign, if_neg hk, hget]
        rfl
      have hother : ¬ Desires desired key ip := fun hdesires =>
        hk (key_eq_of_desires h.listed ⟨peer, hpeer, hkey, hin⟩ hdesires)
      obtain ⟨held', hget', hmem'⟩ := horigin.resolve_right hother
      have hunwanted : ¬ ∃ p ∈ desired, p.publicKey = key := by
        rintro ⟨p, hp, rfl⟩
        exact hother ⟨p, hp, rfl, h.keeps p hp held' hget' hmem'⟩
      have hremove : .remove key ∈ planPeerChanges desired actual :=
        (mem_plan_remove h.listed).mpr ⟨⟨_, by rw [h.shows, hget']; rfl⟩, hunwanted⟩
      have hgone : (start.carryOut carried).get key = none :=
        get_removed h.listed hplan (remove_mem_of_set hplan hremove)
      simp [hgone] at hget

/-- What is owed was held by a peer that was removed. -/
structure Carried (start : Kernel) (carried : List PeerChange) (w : World) : Prop where
  kernel : w.kernel = start.carryOut carried
  owed : ∀ ip ∈ w.owed, ∃ key, .remove key ∈ carried ∧ start.Holds key ip

lemma Carried.carry (h : Steady nacl desired start actual) {carried more : List PeerChange}
    (rest : List PeerChange) (hcarried : Carried start carried w)
    (hplan : planPeerChanges desired actual = carried ++ (more ++ rest)) :
    Carried start (carried ++ more) (w.carry more) := by
  induction more generalizing carried w with
  | nil => rwa [List.append_nil]
  | cons c more ih =>
    have hstep : Carried start (carried ++ [c]) (w.change c) := by
      refine ⟨?_, ?_⟩
      · rw [Kernel.carryOut_append, ← hcarried.kernel]
        rfl
      · intro ip hip
        rcases List.mem_append.mp hip with hip | hip
        · obtain ⟨key, hkey, hholds⟩ := hcarried.owed ip hip
          exact ⟨key, List.mem_append_left _ hkey, hholds⟩
        · rw [hcarried.kernel] at hip
          obtain ⟨key, rfl, hholds⟩ := taken_change h hplan hip
          exact ⟨key, by simp, hholds⟩
    have hrest := ih hstep (by simpa using hplan)
    rwa [List.append_assoc, List.singleton_append] at hrest

/-- Work that is under way: what was carried out, what is still to be asked of `wg`, and a command
still to come for whatever is owed. -/
structure Underway (nacl : Crypto.KeyAgreement.Nacl) (work : Work) (w : World)
    (desired : List ExitPeer) (start : Kernel) (carried : List PeerChange) : Prop where
  steady : Steady nacl desired start work.actual
  progress : Carried start carried w
  changes : work.changes = planPeerChanges desired work.actual
  plan : work.changes = carried ++ work.wg.flatMap changesOf
  due : ∀ ip ∈ w.owed, ∃ args ∈ work.conntrack, conntrackArgs ip = some args
  full : work.wg ≠ [] → work.conntrack = conntrackCommands work.actual work.changes
  hosts : ∀ key ip, start.Holds key ip → (conntrackArgs ip).isSome = true

variable {work : Work} {carried : List PeerChange}

/-- The deletions of a tick are those of the peers it removes. -/
lemma mem_conntrackCommands {changes : List PeerChange} {key ip : String} {ips args : List String}
    (hkey : .remove key ∈ changes) (hget : actual.get key = some ips) (hip : ip ∈ ips)
    (hargs : conntrackArgs ip = some args) : args ∈ conntrackCommands actual changes := by
  refine List.mem_flatMap.mpr ⟨_, hkey, ?_⟩
  simp only [hget, Option.getD_some]
  exact List.mem_filterMap.mpr ⟨ip, hip, hargs⟩

/-- The plan, cut in the middle of the next command. -/
lemma Underway.plan_take (h : Underway nacl work w desired start carried) {args : List String}
    {wg : List (List String)} (hwg : work.wg = args :: wg) (n : ℕ) :
    work.changes = (carried ++ (changesOf args).take n) ++
      ((changesOf args).drop n ++ wg.flatMap changesOf) := by
  rw [h.plan, hwg, List.flatMap_cons, List.append_assoc, ← List.append_assoc (List.take _ _),
    List.take_append_drop]

/-- Whatever part of the next command was carried out, what is owed was held by a removed peer. -/
lemma Underway.carry_take (h : Underway nacl work w desired start carried) {args : List String}
    {wg : List (List String)} (hwg : work.wg = args :: wg) (n : ℕ) :
    Carried start (carried ++ (changesOf args).take n) (w.carry ((changesOf args).take n)) := by
  refine h.progress.carry h.steady ((changesOf args).drop n ++ wg.flatMap changesOf) ?_
  rw [← h.changes, h.plan_take hwg n, List.append_assoc]

/-- A command of `wg` that is done leaves the deletions to come. -/
lemma Underway.carry (h : Underway nacl work w desired start carried) {args : List String}
    {wg : List (List String)} (hwg : work.wg = args :: wg) :
    Underway nacl { work with wg } (w.carry (changesOf args)) desired start
      (carried ++ changesOf args) := by
  have hcarried := h.carry_take hwg (changesOf args).length
  rw [List.take_length] at hcarried
  have hfull := h.full (by simp [hwg])
  refine ⟨h.steady, hcarried, h.changes, ?_, ?_, fun _ => hfull, h.hosts⟩
  · rw [h.plan, hwg, List.flatMap_cons, List.append_assoc]
  · intro ip hip
    obtain ⟨key, hkey, held, hget, hmem⟩ := hcarried.owed ip hip
    obtain ⟨args', hargs'⟩ := Option.isSome_iff_exists.mp (h.hosts key ip ⟨held, hget, hmem⟩)
    have hremove : .remove key ∈ work.changes := by
      rw [h.plan, hwg, List.flatMap_cons, ← List.append_assoc]
      exact List.mem_append_left _ hkey
    have hactual : work.actual.get key = some (sortTexts held) := by
      rw [h.steady.shows, hget, Option.map_some]
    refine ⟨args', hfull ▸ mem_conntrackCommands hremove hactual ?_ hargs', hargs'⟩
    exact (perm_sortTexts held).mem_iff.mpr hmem

lemma Underway.deleteFlows (h : Underway nacl work w desired start carried) {args : List String}
    {conntrack : List (List String)} (hwg : work.wg = [])
    (hct : work.conntrack = args :: conntrack) :
    Underway nacl { work with conntrack } (w.deleteFlows args) desired start carried := by
  have howed : ∀ ip ∈ (w.deleteFlows args).owed, ip ∈ w.owed ∧ conntrackArgs ip ≠ some args := by
    intro ip hip
    obtain ⟨hmem, hnot⟩ := List.mem_filter.mp hip
    exact ⟨hmem, of_decide_eq_true hnot⟩
  refine ⟨h.steady, ⟨h.progress.kernel, fun ip hip => h.progress.owed ip (howed ip hip).1⟩,
    h.changes, h.plan, ?_, fun hne => absurd hwg hne, h.hosts⟩
  intro ip hip
  obtain ⟨hmem, hnot⟩ := howed ip hip
  obtain ⟨args', hargs', heq⟩ := h.due ip hmem
  rw [hct] at hargs'
  rcases List.mem_cons.mp hargs' with rfl | hargs'
  · exact absurd heq hnot
  · exact ⟨args', hargs', heq⟩

/-- Work that is done owes nothing. -/
lemma Underway.paid (h : Underway nacl work w desired start carried)
    (hct : work.conntrack = []) : w.owed = [] := by
  refine List.eq_nil_iff_forall_not_mem.mpr fun ip hip => ?_
  obtain ⟨args, hargs, -⟩ := h.due ip hip
  simp [hct] at hargs

/-- What is cut short before the first removal owes nothing. -/
lemma owed_of_spares (h : Underway nacl work w desired start carried) {w' : World}
    {done : List PeerChange} (rest : List PeerChange) (hdone : Carried start done w')
    (hplan : work.changes = done ++ rest) (hspares : Spares work w'.kernel) : w'.owed = [] := by
  refine List.eq_nil_iff_forall_not_mem.mpr fun ip hip => ?_
  obtain ⟨key, hkey, held, hget, hmem⟩ := hdone.owed ip hip
  have hactual : work.actual.get key = some (sortTexts held) := by
    rw [h.steady.shows, hget, Option.map_some]
  refine hspares key _ (hplan ▸ List.mem_append_left _ hkey) hactual ?_ ?_
  · exact List.ne_nil_of_mem ((perm_sortTexts held).mem_iff.mpr hmem)
  · rw [hdone.kernel]
    exact get_removed h.steady.listed (h.changes ▸ hplan) hkey

/-- The same of the command that was running. -/
lemma Underway.interrupted (h : Underway nacl work w desired start carried)
    (hwork : w.phase.work = some work) (n : ℕ) (hspares : Spares work (w.interrupted n).kernel) :
    (w.interrupted n).owed = [] := by
  have hwg := wg_of_work hwork
  cases hhead : work.wg with
  | nil =>
    rw [interrupted_of_nil (hwg.trans hhead)] at hspares ⊢
    exact owed_of_spares h _ h.progress h.plan hspares
  | cons args wg =>
    rw [interrupted_of_cons (hwg.trans hhead)] at hspares ⊢
    exact owed_of_spares h _ (h.carry_take hhead n) (h.plan_take hhead n) hspares

/-! ### Host addresses -/

lemma isIpv4Part_digits {part : List Char} (h : isIpv4Part part = true) :
    (!part.isEmpty && part.length ≤ 3 && part.all Char.isDigit) = true := by
  have hdigits : part.all Char.isDigit = true := by
    simp only [isIpv4Part, Bool.and_eq_true, Bool.or_eq_true, beq_iff_eq] at h
    obtain ⟨rfl | ⟨⟨-, hall⟩, -⟩, -⟩ := h
    · rfl
    · exact hall
  rcases isIpv4Part_cases h with ⟨a, rfl, -⟩ | ⟨a, b, rfl, -⟩ | ⟨a, b, c, rfl, -⟩ <;>
    simpa using hdigits

/-- The flows of an accepted address can be deleted. -/
lemma conntrackArgs_of_mem {peer : ExitPeer} (h : peer.Valid nacl) {ip : String}
    (hip : ip ∈ allowedIpsFor peer) : (conntrackArgs ip).isSome = true := by
  have hslash (cs : List Char) (hcs : ∀ c ∈ cs, isAddressChar c = true) : '/' ∉ cs := fun hmem =>
    absurd (hcs '/' hmem) (by decide)
  rcases mem_allowedIpsFor.mp hip with rfl | rfl
  · obtain ⟨index, hindex, -⟩ := vpnIpv6ForIpv4_eq_ok h.ipv6
    obtain ⟨a, b, c, d, hparts, ha, hb, hc, hd, -⟩ := vpnIndexOfIpv4_eq_some hindex
    have hsplit : (peer.ipv4 ++ "/32").toList.splitOn '/' = [peer.ipv4.toList, ['3', '2']] := by
      rw [String.toList_append]
      exact List.splitOn_append_cons_self_of_not_mem (hslash _ (isAddressChar_ipv4 h)) _
    have hhost : hostV4 (peer.ipv4 ++ "/32") = some (String.ofList peer.ipv4.toList) := by
      rw [hostV4, hsplit]
      simp only [hparts, List.length_cons, List.length_nil, List.all_cons, List.all_nil,
        isIpv4Part_digits ha, isIpv4Part_digits hb, isIpv4Part_digits hc, isIpv4Part_digits hd]
      rfl
    simp [conntrackArgs, hhost]
  · obtain ⟨index, -, hipv6⟩ := vpnIpv6ForIpv4_eq_ok h.ipv6
    have hsplit : (peer.ipv6 ++ "/128").toList.splitOn '/' =
        [peer.ipv6.toList, ['1', '2', '8']] := by
      rw [String.toList_append]
      exact List.splitOn_append_cons_self_of_not_mem (hslash _ (isAddressChar_ipv6 h)) _
    have hchars : peer.ipv6.toList.all (fun c => isHexDigit c || c == ':') = true := by
      rw [hipv6, String.toList_append, String.toList_ofList, List.all_append, Bool.and_eq_true]
      refine ⟨by decide, List.all_eq_true.mpr fun c hc => ?_⟩
      simp [isHexDigit_of_mem hc]
    have hne : peer.ipv6.toList.isEmpty = false := by
      simpa using ipv6_ne_empty h
    have hhost : hostV6 (peer.ipv6 ++ "/128") = some (String.ofList peer.ipv6.toList) := by
      rw [hostV6, hsplit]
      simp only [hne, hchars]
      rfl
    unfold conntrackArgs
    cases hostV4 (peer.ipv6 ++ "/128") with
    | none => simp [hhost]
    | some address => rfl

def Hosts (kernel : Kernel) : Prop :=
  ∀ key ip, kernel.Holds key ip → (conntrackArgs ip).isSome = true

lemma Underway.hosts_of_carried (h : Underway nacl work w desired start carried) {w' : World}
    {done : List PeerChange} (rest : List PeerChange) (hdone : Carried start done w')
    (hplan : work.changes = done ++ rest) : Hosts w'.kernel := by
  intro key ip hholds
  have htake : done = (planPeerChanges desired work.actual).take done.length := by
    rw [← h.changes, hplan, List.take_left]
  rw [hdone.kernel, htake] at hholds
  rcases holds_carryOut h.steady.listed hholds with hstart | ⟨peer, hpeer, -, hip⟩
  · exact h.hosts key ip hstart
  · exact conntrackArgs_of_mem (h.steady.listed.valid peer hpeer) hip

/-! ### Between two answers -/

/-- What holds whatever the tick waits for. -/
structure Base (w : World) : Prop where
  printable : w.kernel.Printable
  hosts : Hosts w.kernel
  past : ∀ owed ∈ w.owedAtSync, owed = []

variable (nacl) in
/-- Nothing is owed but what the work under way is about to pay. -/
structure Owing (w : World) : Prop where
  base : Base w
  listed : ∀ parsed, w.phase = .showing parsed → Listed nacl parsed.peers
  writable : ∀ args ∈ w.phase.wg, ∀ c ∈ changesOf args, c.Writable
  paid : w.phase.work = none → w.owed = []
  underway : ∀ work, w.phase.work = some work →
    ∃ desired start carried, Underway nacl work w desired start carried

lemma Owing.idle (h : Base w) (howed : w.owed = []) (hphase : w.phase = .idle) : Owing nacl w :=
  ⟨h, by simp [hphase], by simp [hphase, Phase.wg], fun _ => howed, by simp [hphase, Phase.work]⟩

lemma Owing.caught (h : Base w) (howed : w.owed = []) (stopNow : Bool) (now : ℤ) :
    Owing nacl (w.caught o stopNow now) := by
  unfold World.caught
  dsimp only
  split
  · exact ⟨⟨h.printable, h.hosts, h.past⟩, by simp, by simp [Phase.wg], fun _ => howed,
      by simp [Phase.work]⟩
  · exact Owing.idle ⟨h.printable, h.hosts, h.past⟩ howed rfl

lemma Owing.endTick (h : Base w) (howed : w.owed = []) (stopNow : Bool) (now : ℤ) :
    Owing nacl (w.endTick stopNow now) :=
  Owing.idle ⟨h.printable, h.hosts, h.past⟩ howed rfl

lemma Owing.continueSync (h : Base w)
    (hwritable : ∀ args ∈ work.wg, ∀ c ∈ changesOf args, c.Writable)
    (hunderway : Underway nacl work w desired start carried) (peers : ℕ) (now : ℤ) :
    Owing nacl (w.continueSync work peers now) := by
  unfold World.continueSync
  split
  · next hdone =>
    have howed := hunderway.paid hdone.2
    refine Owing.idle ⟨h.printable, h.hosts, ?_⟩ howed rfl
    exact List.forall_mem_cons.mpr ⟨howed, h.past⟩
  · refine ⟨⟨h.printable, h.hosts, h.past⟩, by simp, hwritable, by simp [Phase.work], ?_⟩
    rintro work' hwork'
    obtain rfl := Option.some.inj hwork'
    exact ⟨desired, start, carried, hunderway.steady,
      ⟨hunderway.progress.kernel, hunderway.progress.owed⟩, hunderway.changes, hunderway.plan,
      hunderway.due, hunderway.full, hunderway.hosts⟩

lemma Owing.continueFlush (h : Base w)
    (hwritable : ∀ args ∈ work.wg, ∀ c ∈ changesOf args, c.Writable)
    (hunderway : Underway nacl work w desired start carried) (stopNow : Bool) (now : ℤ) :
    Owing nacl (w.continueFlush work stopNow now) := by
  unfold World.continueFlush
  split
  · next hdone =>
    exact Owing.idle ⟨h.printable, h.hosts, h.past⟩ (hunderway.paid hdone.2) rfl
  · refine ⟨⟨h.printable, h.hosts, h.past⟩, by simp, hwritable, by simp [Phase.work], ?_⟩
    rintro work' hwork'
    obtain rfl := Option.some.inj hwork'
    exact ⟨desired, start, carried, hunderway.steady,
      ⟨hunderway.progress.kernel, hunderway.progress.owed⟩, hunderway.changes, hunderway.plan,
      hunderway.due, hunderway.full, hunderway.hosts⟩

/-- A new plan is under way, and owes nothing yet. -/
lemma underway_of_planned (h : Base w) (howed : w.owed = []) (hlisted : Listed nacl desired)
    (hplanned : Planned o desired w.kernel work) (hkeeps : KeepsAddresses desired w.kernel) :
    Underway nacl work w desired w.kernel [] := by
  refine ⟨⟨hlisted, hplanned.shows, hkeeps⟩, ⟨rfl, by simp [howed]⟩, hplanned.changes,
    hplanned.wg.symm, by simp [howed], fun _ => hplanned.conntrack, h.hosts⟩

lemma Base.interrupted (h : Owing nacl w) (n : ℕ) : Base (w.interrupted n) := by
  have hpast : ∀ owed ∈ (w.interrupted n).owedAtSync, owed = [] := by
    rw [World.interrupted, World.carry_owedAtSync]
    exact h.base.past
  have hprintable : (w.interrupted n).kernel.Printable := by
    rw [World.interrupted, World.carry_kernel]
    refine h.base.printable.carryOut fun c hc => ?_
    have hwritable := h.writable
    cases hwg : w.phase.wg with
    | nil => simp [hwg, changesOf] at hc
    | cons args rest =>
      rw [hwg] at hwritable hc
      exact hwritable args List.mem_cons_self c (List.mem_of_mem_take hc)
  refine ⟨hprintable, ?_, hpast⟩
  cases hwork : w.phase.work with
  | none =>
    rw [interrupted_of_nil (wg_of_idle hwork)]
    exact h.base.hosts
  | some work =>
    obtain ⟨desired, start, carried, hunderway⟩ := h.underway work hwork
    have hwg := wg_of_work hwork
    cases hhead : work.wg with
    | nil =>
      rw [interrupted_of_nil (hwg.trans hhead)]
      exact h.base.hosts
    | cons args wg =>
      rw [interrupted_of_cons (hwg.trans hhead)]
      exact hunderway.hosts_of_carried _ (hunderway.carry_take hhead n)
        (hunderway.plan_take hhead n)

lemma owed_interrupted (h : Owing nacl w) (n : ℕ)
    (hspares : ∀ work, w.phase.work = some work → Spares work (w.interrupted n).kernel) :
    (w.interrupted n).owed = [] := by
  cases hwork : w.phase.work with
  | none =>
    rw [interrupted_of_nil (wg_of_idle hwork)]
    exact h.paid hwork
  | some work =>
    obtain ⟨desired, start, carried, hunderway⟩ := h.underway work hwork
    exact hunderway.interrupted hwork n (hspares work hwork)

/-- What the next command leaves: work that is still under way, or nothing owed. -/
lemma runNext_cases (h : Owing nacl w) (hwork : w.phase.work = some work) (outcome : Outcome)
    (hcareful : ∀ n, outcome = .failed n → Spares work (w.interrupted n).kernel) :
    (∃ w' work', w.runNext work outcome = (w', some work') ∧ Base w' ∧
      (∀ args ∈ work'.wg, ∀ c ∈ changesOf args, c.Writable) ∧
      ∃ desired start carried, Underway nacl work' w' desired start carried) ∨
    ∃ w', w.runNext work outcome = (w', none) ∧ Base w' ∧ w'.owed = [] := by
  obtain ⟨desired, start, carried, hunderway⟩ := h.underway work hwork
  have hwg := wg_of_work hwork
  have hwritable := h.writable
  rw [hwg] at hwritable
  have hspares (n : ℕ) (hn : outcome = .failed n) : (w.interrupted n).owed = [] :=
    hunderway.interrupted hwork n (hcareful n hn)
  have hbase (n : ℕ) := Base.interrupted h n
  obtain ⟨actual, changes, wg, conntrack⟩ := work
  match wg, conntrack, outcome with
  | args :: wg, conntrack, .done =>
    refine .inl ⟨_, _, rfl, ?_, fun args' hargs' => hwritable args' (List.mem_cons_of_mem _ hargs'),
      _, _, _, hunderway.carry rfl⟩
    have hall := hbase (changesOf args).length
    rwa [interrupted_of_cons hwg, List.take_length] at hall
  | args :: wg, conntrack, .failed n =>
    have hpart := interrupted_of_cons hwg n
    exact .inr ⟨_, rfl, hpart ▸ hbase n, hpart ▸ hspares n rfl⟩
  | [], args :: conntrack, .done =>
    exact .inl ⟨_, _, rfl, ⟨h.base.printable, h.base.hosts, h.base.past⟩, hwritable, _, _, _,
      hunderway.deleteFlows rfl rfl⟩
  | [], args :: conntrack, .failed n =>
    exact .inr ⟨_, rfl, h.base, interrupted_of_nil hwg n ▸ hspares n rfl⟩
  | [], [], outcome =>
    exact .inl ⟨_, _, rfl, h.base, hwritable, _, _, _, hunderway⟩

/-- **Whatever comes next, nothing stays owed that the work under way does not pay.** -/
lemma owing_step (h : Owing nacl w) (htrue : Truthful w e) (hcareful : Careful w e) :
    Owing nacl (step nacl o w e) := by
  cases e with
  | restarted n now =>
    have hrestart : step nacl o w (.restarted n now) =
        { w.interrupted n with agent := { startedAt := now }, phase := .idle } := by
      unfold step
      cases hphase : w.phase <;> simp
    have hbase := Base.interrupted h n
    rw [hrestart]
    exact Owing.idle ⟨hbase.printable, hbase.hosts, hbase.past⟩ (owed_interrupted h n hcareful) rfl
  | tick =>
    cases hphase : w.phase with
    | idle =>
      simp only [step, hphase]
      exact ⟨⟨h.base.printable, h.base.hosts, h.base.past⟩, by simp, by simp [Phase.wg],
        fun _ => h.paid (by simp [hphase, Phase.work]), by simp [Phase.work]⟩
    | _ => simpa only [step, hphase] using h
  | fetched result now =>
    cases hphase : w.phase with
    | fetching =>
      have howed := h.paid (by simp [hphase, Phase.work])
      cases result with
      | stopServing =>
        simp only [step, hphase]
        exact Owing.caught h.base howed true now
      | failed =>
        simp only [step, hphase]
        exact Owing.caught h.base howed false now
      | body value =>
        cases hparse : parseExitPeersResponse nacl value with
        | error error =>
          simp only [step, hphase, hparse]
          exact Owing.caught h.base howed false now
        | ok parsed =>
          simp only [step, hphase, hparse]
          refine ⟨⟨h.base.printable, h.base.hosts, h.base.past⟩, ?_, by simp [Phase.wg],
            fun _ => howed, by simp [Phase.work]⟩
          intro parsed' hphase'
          obtain rfl := Phase.showing.inj hphase'
          exact parseExitPeersResponse_listed hparse
    | _ => simpa only [step, hphase] using h
  | shown output now =>
    cases hphase : w.phase with
    | showing parsed =>
      have howed := h.paid (by simp [hphase, Phase.work])
      cases hwork : workFor o parsed.peers output with
      | error error =>
        simp only [step, hphase, hwork]
        exact Owing.caught h.base howed false now
      | ok work =>
        cases output with
        | error error => simp [workFor, bind, Except.bind] at hwork
        | ok text =>
          obtain ⟨listing, hlist, rfl⟩ := htrue text now rfl
          obtain ⟨work', hwork', hplanned⟩ :=
            workFor_listing (o := o) (h.listed parsed hphase) h.base.printable hlist
          obtain rfl := Except.ok.inj (hwork.symm.trans hwork')
          simp only [step, hphase, hwork]
          exact Owing.continueSync h.base hplanned.writable
            (underway_of_planned h.base howed (h.listed parsed hphase) hplanned
              (hcareful parsed hphase)) _ _
    | flushShowing stopNow =>
      have howed := h.paid (by simp [hphase, Phase.work])
      cases hwork : workFor o [] output with
      | error error =>
        simp only [step, hphase, hwork]
        exact Owing.endTick h.base howed stopNow now
      | ok work =>
        cases output with
        | error error => simp [workFor, bind, Except.bind] at hwork
        | ok text =>
          have hnone : Listed nacl [] := Listed.nil
          obtain ⟨listing, hlist, rfl⟩ := htrue text now rfl
          obtain ⟨work', hwork', hplanned⟩ :=
            workFor_listing (o := o) hnone h.base.printable hlist
          obtain rfl := Except.ok.inj (hwork.symm.trans hwork')
          simp only [step, hphase, hwork]
          exact Owing.continueFlush h.base hplanned.writable
            (underway_of_planned h.base howed hnone hplanned (by simp [KeepsAddresses])) _ _
    | _ => simpa only [step, hphase] using h
  | ran outcome now =>
    cases hphase : w.phase with
    | applying work peers =>
      have hwork : w.phase.work = some work := by rw [hphase]; rfl
      rcases runNext_cases h hwork outcome (fun n hn => by subst hn; exact hcareful work hwork) with
        ⟨w', work', hrun, hbase, hwritable, _, _, _, hunderway⟩ | ⟨w', hrun, hbase, howed⟩
      · simp only [step, hphase, hrun]
        exact Owing.continueSync hbase hwritable hunderway peers now
      · simp only [step, hphase, hrun]
        exact Owing.caught hbase howed false now
    | flushing work stopNow =>
      have hwork : w.phase.work = some work := by rw [hphase]; rfl
      rcases runNext_cases h hwork outcome (fun n hn => by subst hn; exact hcareful work hwork) with
        ⟨w', work', hrun, hbase, hwritable, _, _, _, hunderway⟩ | ⟨w', hrun, hbase, howed⟩
      · simp only [step, hphase, hrun]
        exact Owing.continueFlush hbase hwritable hunderway stopNow now
      · simp only [step, hphase, hrun]
        exact Owing.endTick hbase howed stopNow now
    | _ => simpa only [step, hphase] using h

/-- **The flows of every address that was taken are cut before a sync completes**, in every run
whose answers move no address of a peer that they keep, and in which no command fails and no
process ends between the first removal of a tick and its last deletion. -/
theorem flows_cut {startedAt : ℤ} {es : List Event}
    (hes : Run.Allowed (step nacl o) (fun w e => Truthful w e ∧ Careful w e)
      (.initial startedAt) es) :
    ∀ owed ∈ (Run.run (step nacl o) (.initial startedAt) es).owedAtSync, owed = [] := by
  have hinitial : Owing nacl (.initial startedAt) := by
    refine Owing.idle ⟨⟨by simp [World.initial], by simp [World.initial]⟩, ?_,
      by simp [World.initial]⟩ rfl rfl
    rintro key ip ⟨held, hget, -⟩
    simp [World.initial] at hget
  exact (Run.invariant_of_allowed (fun w e he h => owing_step h he.1 he.2) hinitial hes).base.past

/-! ### A deletion that fails -/

def listOf (peers : List ExitPeer) : Event :=
  .fetched (.body (.object [("peers", .array (peers.map entryOf))])) 0

/-- What `wg` prints once the laptop is configured. -/
def laptopShown : Event := .shown (.ok (showAllowedIps [(laptopKey, allowedIpsFor laptop)])) 0

/-- A peer is synced, and removed with its flows. -/
def revoked : List Event :=
  [.tick, listOf [laptop], .shown (.ok "") 0, .ran .done 0, .tick, listOf [], laptopShown,
    .ran .done 0, .ran .done 0, .ran .done 0]

/-- The same, where the first deletion fails, and the next tick finds nothing to change. -/
def uncut : List Event :=
  [.tick, listOf [laptop], .shown (.ok "") 0, .ran .done 0, .tick, listOf [], laptopShown,
    .ran .done 0, .ran (.failed 0) 0, .tick, listOf [], .shown (.ok "") 0]

lemma truthful_entries {text : String} (h : text = showAllowedIps w.kernel.entries) (now : ℤ) :
    Truthful w (.shown (.ok text) now) := by
  rintro text' now' heq
  obtain rfl := Except.ok.inj (Event.shown.inj heq).1
  refine ⟨w.kernel.entries, ⟨w.kernel.nodup, ?_, ?_⟩, h⟩
  · intro key ips hmem
    exact ⟨ips, OrderedMap.mem_entries_iff.mp hmem, List.Perm.refl _⟩
  · intro key held hget
    exact ⟨held, OrderedMap.mem_entries_iff.mpr hget, List.Perm.refl _⟩

lemma careful_showing (parsed : ParsedExitPeers) (hphase : w.phase = .showing parsed)
    (hkeeps : KeepsAddresses parsed.peers w.kernel) (text : String) (now : ℤ) :
    Careful w (.shown (.ok text) now) := by
  intro parsed' hphase'
  obtain rfl := Phase.showing.inj (hphase.symm.trans hphase')
  exact hkeeps

lemma keepsAddresses_of_empty (h : w.kernel = {}) (peers : List ExitPeer) :
    KeepsAddresses peers w.kernel := by
  intro peer _ held hget
  simp [h] at hget

lemma allowed_revoked : Run.Allowed (step sampleNacl sampleOptions)
    (fun w e => Truthful w e ∧ Careful w e) (.initial 0) revoked :=
  ⟨⟨nofun, trivial⟩, ⟨nofun, trivial⟩,
    ⟨truthful_entries (by decide) 0,
      careful_showing ⟨[laptop], 0⟩ (by decide)
        (keepsAddresses_of_empty (by decide) _) _ 0⟩,
    ⟨nofun, trivial⟩, ⟨nofun, trivial⟩, ⟨nofun, trivial⟩,
    ⟨truthful_entries (by decide) 0,
      careful_showing ⟨[], 0⟩ (by decide) (by simp [KeepsAddresses]) _ 0⟩,
    ⟨nofun, trivial⟩, ⟨nofun, trivial⟩, ⟨nofun, trivial⟩, trivial⟩

theorem flows_cut_revoked :
    (Run.run (step sampleNacl sampleOptions) (.initial 0) revoked).owedAtSync.all List.isEmpty =
      true :=
  List.all_eq_true.mpr fun owed howed => by simp [flows_cut allowed_revoked owed howed]

lemma truthful_uncut :
    Run.Allowed (step sampleNacl sampleOptions) Truthful (.initial 0) uncut :=
  ⟨nofun, nofun, truthful_entries (by decide) 0, nofun, nofun, nofun,
    truthful_entries (by decide) 0, nofun, nofun, nofun, nofun,
    truthful_entries (by decide) 0, trivial⟩

/-- **A sync completes while flows of a removed peer go on.** -/
theorem uncut_owes :
    ¬ ∀ (nacl : Crypto.KeyAgreement.Nacl) (o : AgentOptions) (startedAt : ℤ) (es : List Event),
      Run.Allowed (step nacl o) Truthful (.initial startedAt) es →
      ∀ owed ∈ (Run.run (step nacl o) (.initial startedAt) es).owedAtSync, owed = [] := by
  intro h
  have howed : ["10.77.0.2/32", "fd85:d596:af02::a4d:2/128"] ∈
      (Run.run (step sampleNacl sampleOptions) (.initial 0) uncut).owedAtSync := by
    decide
  exact absurd (h sampleNacl sampleOptions 0 uncut truthful_uncut _ howed) (by decide)

end Tnp.Exit
