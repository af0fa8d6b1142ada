import Tnp.Client.RoutingRecords

/-!
Planted records: what is kept of any value, against what the value's own owner can record.
-/

namespace Tnp.Client.DnsRouting

open Tnp.Lib Tnp.Lib.Act Tnp.Crypto Tnp.Namespace Tnp.Net

/-! ### What the owner can record -/

section Owners

variable (numberText : ℚ → String) (platform : Platform)

/-- Some run of an owner's own routing returns the record: rules have a routing of their own. -/
def RecordedBy (owner : RoutingOwner) (made : RoutingState) : Prop :=
  ∃ (σ : Type) (deps : Deps σ) (s s' : σ), deps.platform = platform ∧
    if owner = .rules then
      ∃ target rules, applyRuleRouting numberText deps target rules s = (.ok made, s')
    else
      ∃ options, options.owner = owner ∧
        applyNativeRouting numberText deps options s = (.ok made, s')

/-- A record names only what its own owner can record. -/
structure OwnersOnly (state : RoutingState) : Prop where
  files : ∀ path ∈ state.files, ∃ made, RecordedBy numberText platform state.owner made ∧
    path ∈ made.files
  backups : ∀ e ∈ state.backups, ∃ made, RecordedBy numberText platform state.owner made ∧
    e ∈ made.backups
  down : ∀ cmd ∈ state.down, ∃ made, RecordedBy numberText platform state.owner made ∧
    cmd ∈ made.down

/-- A machine on which everything succeeds, and every file is there or none is. -/
def machine (present : Bool) (content version : String) : Deps Unit where
  platform
  run _ := pure version
  existsSync _ := pure present
  read _ := pure content
  write _ _ := pure ()
  remove _ := pure ()
  powershell := ""

variable {numberText platform} {present : Bool} {content version : String}

lemma runAll_machine (cmds : List String) :
    runAll (machine platform present content version) cmds () = (.ok (), ()) := by
  induction cmds with
  | nil => rfl
  | cons cmd cmds ih => exact ih

lemma removeLegacyMac_machine (tlds : List String) :
    removeLegacyMacResolverFiles (machine platform present content version) tlds () =
      (.ok (), ()) := by
  induction tlds with
  | nil => rfl
  | cons tld tlds ih =>
    cases present with
    | false => exact ih
    | true =>
      unfold removeLegacyMacResolverFiles
      simp only [machine, attempt, Bind.bind, Pure.pure]
      generalize pointsAtLoopback content = loopback
      cases loopback <;> exact ih

lemma recordedBy_rules {made : RoutingState} {rules : List RuleRoute} {target : RoutingTarget}
    (h : applyRuleRouting numberText (machine platform present content version) target rules () =
      (.ok made, ())) : RecordedBy numberText platform .rules made :=
  ⟨Unit, machine platform present content version, (), (), rfl, target, rules, h⟩

lemma recordedBy_native {made : RoutingState} {options : ApplyOptions}
    (howner : options.owner ≠ .rules)
    (h : applyNativeRouting numberText (machine platform present content version) options () =
      (.ok made, ())) : RecordedBy numberText platform options.owner made := by
  refine ⟨Unit, machine platform present content version, (), (), rfl, ?_⟩
  rw [if_neg howner]
  exact ⟨options, rfl, h⟩

/-- Labels that may be routed are, by what the platform has. -/
lemma applyNativeRouting_of_routable {σ : Type} {deps : Deps σ} (options : ApplyOptions)
    (h : ∀ tld ∈ options.tlds, isRoutable tld = true) :
    applyNativeRouting numberText deps options =
      let state := newState options.owner options.target options.tlds
      match deps.platform with
      | .darwin => do
        removeLegacyMacResolverFiles deps LEGACY_MAC_RESOLVER_TLDS
        let content := macResolverFile numberText options.target
        let state ← writeResolverFiles deps content options.tlds state
        return { state with mechanism := .macosResolver }
      | .win32 => addNrptRules deps (options.tlds.map ("." ++ ·)) options.target state
      | .linux | .other => applyResolved numberText deps options state := by
  have hnone : options.tlds.find? (!isRoutable ·) = none := by simpa using h
  unfold applyNativeRouting
  dsimp only
  split
  · next tld hsome => exact absurd (hnone.symm.trans hsome) nofun
  · rfl

lemma routable_routed : ∀ tld ∈ ROUTED_TLDS, isRoutable tld = true := by
  have hox : isRoutable "ox" = true := by decide +kernel
  exact fun tld htld => List.mem_singleton.mp htld ▸ hox

def someTarget : RoutingTarget := ⟨"127.0.0.1", 53⟩

lemma normalizeRuleRoutes_singleton (route : RuleRoute) :
    normalizeRuleRoutes [route] = [⟨route.name, route.subtree⟩] := rfl

lemma ruleRouteError_someName : ruleRouteError "a.b" = none := by decide

/-- The file of a rule's name is recorded where there was none. -/
lemma rules_darwin {name : String} (h : ruleRouteError name = none) :
    ∃ made, RecordedBy numberText .darwin .rules made ∧ resolverPath name ∈ made.files := by
  have happly : applyRuleRouting numberText (machine .darwin false "" "") someTarget
      [⟨name, false⟩] () =
        (.ok { newState .rules someTarget [] with
          mechanism := .macosResolver
          files := [resolverPath name]
          written := [(resolverPath name, macResolverFile numberText someTarget)]
          routes := some [⟨name, false⟩] }, ()) := by
    unfold applyRuleRouting
    rw [normalizeRuleRoutes_singleton]
    dsimp only
    rw [List.findSome?_cons, h]
    rfl
  exact ⟨_, recordedBy_rules happly, List.mem_singleton_self _⟩

/-- What is in a file of a label is recorded where it is not what is written. -/
lemma native_darwin {owner : RoutingOwner} (howner : owner ≠ .rules) {content : String}
    {target : RoutingTarget} (hcontent : content ≠ macResolverFile numberText target) :
    ∃ made, RecordedBy numberText .darwin owner made ∧ resolverPath "ox" ∈ made.files ∧
      (resolverPath "ox", content) ∈ made.backups := by
  have hforeign : (content != macResolverFile numberText target) = true := by simpa using hcontent
  have happly : applyNativeRouting numberText (machine .darwin true content "")
      ⟨target, owner, false, ROUTED_TLDS⟩ () =
        (.ok { newState owner target ROUTED_TLDS with
          mechanism := .macosResolver
          files := [resolverPath "ox"]
          backups := [(resolverPath "ox", content)]
          written := [(resolverPath "ox", macResolverFile numberText target)] }, ()) := by
    rw [applyNativeRouting_of_routable ⟨target, owner, false, ROUTED_TLDS⟩ routable_routed]
    change (removeLegacyMacResolverFiles (machine .darwin true content "") _ >>= _) () = _
    rw [bind_of_ok (removeLegacyMac_machine _)]
    simp only [writeResolverFiles, foreignContent, ROUTED_TLDS, BUILTIN_NATIVE_TLDS, machine,
      Bind.bind, Pure.pure, hforeign, if_true]
    rfl
  exact ⟨_, recordedBy_native howner happly, List.mem_singleton_self _, List.mem_singleton_self _⟩

lemma foreignContent_machine (path : String) (isForeign : String → Bool) :
    foreignContent (machine platform true content version) path isForeign () =
      (.ok (if isForeign content then some content else none), ()) := rfl

lemma resolvedMechanism_machine : resolvedMechanism (machine platform true content version) () =
    (.ok (if DNS_DELEGATE_MIN_SYSTEMD ≤ (parseSystemdVersion version).getD 0 then .dnsDelegate
      else .resolvedLink), ()) := rfl

lemma attempt_run_machine (cmd : String) :
    ((machine platform present content version).run cmd).attempt () = (.ok (some version), ()) :=
  rfl

lemma removeLegacyResolvedDropin_machine :
    removeLegacyResolvedDropin (machine platform present content version) () = (.ok (), ()) := by
  cases present <;> rfl

variable (numberText) in
/-- What is in the delegate's file is recorded where an earlier version did not write it. -/
lemma native_delegate {owner : RoutingOwner} (howner : owner ≠ .rules) (content : String)
    (hcontent : writtenByTnp content = false) :
    ∃ made, RecordedBy numberText .linux owner made ∧ (ownerNames owner).delegate ∈ made.files ∧
      ((ownerNames owner).delegate, content) ∈ made.backups := by
  have happly : applyNativeRouting numberText (machine .linux true content "systemd 258")
      ⟨someTarget, owner, false, ROUTED_TLDS⟩ () =
        (.ok { newState owner someTarget ROUTED_TLDS with
          mechanism := .dnsDelegate
          files := [(ownerNames owner).delegate]
          backups := [((ownerNames owner).delegate, content)]
          written := [((ownerNames owner).delegate,
            dnsDelegateFile numberText someTarget ROUTED_TLDS)] }, ()) := by
    rw [applyNativeRouting_of_routable ⟨someTarget, owner, false, ROUTED_TLDS⟩ routable_routed]
    change applyResolved numberText (machine .linux true content "systemd 258") _ _ () = _
    unfold applyResolved
    rw [bind_of_ok removeLegacyResolvedDropin_machine,
      bind_of_ok (attempt_run_machine _), bind_of_ok resolvedMechanism_machine, if_pos (by decide)]
    dsimp only
    rw [bind_of_ok (foreignContent_machine _ _), hcontent]
    rfl
  exact ⟨_, recordedBy_native howner happly, List.mem_singleton_self _, List.mem_singleton_self _⟩

variable (numberText) in
/-- The commands that undo a link are recorded where systemd knows no delegates. -/
lemma native_link {owner : RoutingOwner} (howner : owner ≠ .rules) :
    ∃ made, RecordedBy numberText .linux owner made ∧ made.down = linkDown owner := by
  have happly : applyNativeRouting numberText (machine .linux true "" "")
      ⟨someTarget, owner, false, ROUTED_TLDS⟩ () =
        (.ok { newState owner someTarget ROUTED_TLDS with
          mechanism := .resolvedLink
          down := linkDown owner }, ()) := by
    rw [applyNativeRouting_of_routable ⟨someTarget, owner, false, ROUTED_TLDS⟩ routable_routed]
    change applyResolved numberText (machine .linux true "" "") _ _ () = _
    unfold applyResolved
    rw [bind_of_ok removeLegacyResolvedDropin_machine, bind_of_ok (attempt_run_machine _),
      bind_of_ok resolvedMechanism_machine, if_neg (by decide)]
    dsimp only
    unfold setUpLink
    rw [if_neg (by decide), bind_of_ok (runAll_machine _)]
    rfl
  exact ⟨_, recordedBy_native howner happly, rfl⟩

lemma rules_delegate : ∃ made, RecordedBy numberText .linux .rules made ∧
    (ownerNames .rules).delegate ∈ made.files := by
  have happly : applyRuleRouting numberText (machine .linux true "# Written by TNP" "systemd 258")
      someTarget [⟨"a.b", false⟩] () =
        (.ok { newState .rules someTarget [] with
          mechanism := .dnsDelegate
          files := [(ownerNames .rules).delegate]
          written := [((ownerNames .rules).delegate,
            rulesDelegateFile numberText someTarget [⟨"a.b", false⟩])]
          routes := some [⟨"a.b", false⟩] }, ()) := by
    unfold applyRuleRouting
    rw [normalizeRuleRoutes_singleton]
    dsimp only
    rw [List.findSome?_cons, ruleRouteError_someName]
    change applyRulesResolved numberText
      (machine .linux true "# Written by TNP" "systemd 258") _ _ _ () = _
    unfold applyRulesResolved
    rw [bind_of_ok resolvedMechanism_machine, if_pos (by decide)]
    dsimp only
    rw [bind_of_ok (foreignContent_machine _ _), if_neg (by decide)]
    rfl
  exact ⟨_, recordedBy_rules happly, List.mem_singleton_self _⟩

variable (numberText) in
lemma rules_link : ∃ made, RecordedBy numberText .linux .rules made ∧
    made.down = linkDown .rules := by
  have happly : applyRuleRouting numberText (machine .linux true "" "") someTarget
      [⟨"a.b", false⟩] () =
        (.ok { newState .rules someTarget [] with
          mechanism := .resolvedLink
          down := linkDown .rules
          routes := some [⟨"a.b", false⟩] }, ()) := by
    unfold applyRuleRouting
    rw [normalizeRuleRoutes_singleton]
    dsimp only
    rw [List.findSome?_cons, ruleRouteError_someName]
    change applyRulesResolved numberText (machine .linux true "" "") _ _ _ () = _
    unfold applyRulesResolved
    rw [bind_of_ok resolvedMechanism_machine, if_neg (by decide)]
    dsimp only
    unfold setUpLink
    rw [bind_of_ok (runAll_machine _)]
    rfl
  exact ⟨_, recordedBy_rules happly, rfl⟩

end Owners

/-! ### Every value -/

/-- What is listed was checked as the routing itself checks it. -/
structure Honest (platform : Platform) (legacy : Bool) (raw : List (String × Value))
    (owner : RoutingOwner) : Prop where
  files : platform = .darwin → owner = .rules → ∀ path ∈ strings (Value.field raw "files"),
    ∀ name, resolverName path = some name → isRuleName name = true → ruleRouteError name = none
  backups : legacy = false → ∀ e ∈ entries (Value.field raw "backups"),
    e.1 ∈ strings (Value.field raw "files") → routingFileAllowed owner e.1 platform = true →
      owner ≠ .rules ∧ (platform = .linux → writtenByTnp e.2 = false)

/-- A record that some run of the routing returns on the platform. -/
def Returned (numberText : ℚ → String) (platform : Platform) (made : RoutingState) : Prop :=
  ∃ (σ : Type) (deps : Deps σ) (s s' : σ), deps.platform = platform ∧
    ((∃ options, applyNativeRouting numberText deps options s = (.ok made, s')) ∨
      ∃ target rules, applyRuleRouting numberText deps target rules s = (.ok made, s'))

section Sound

variable {numberText : ℚ → String} {platform : Platform} {legacy : Bool} {state : RoutingState}
  {owner : RoutingOwner}

lemma RecordedBy.native {made : RoutingState} (h : RecordedBy numberText platform owner made)
    (howner : owner ≠ .rules) : ∃ options, NativeMade platform options made := by
  obtain ⟨σ, deps, s, s', rfl, happly⟩ := h
  rw [if_neg howner] at happly
  obtain ⟨options, -, happly⟩ := happly
  exact ⟨options, returns_applyNativeRouting numberText deps options s made s' happly⟩

lemma RecordedBy.rules {made : RoutingState} (h : RecordedBy numberText platform .rules made) :
    ∃ target, RulesMade platform target made := by
  obtain ⟨σ, deps, s, s', rfl, happly⟩ := h
  rw [if_pos rfl] at happly
  obtain ⟨target, rules, happly⟩ := happly
  exact ⟨target, returns_applyRuleRouting numberText deps target rules s made s' happly⟩

/-- No content is what is written for every target. -/
lemma exists_ne_macResolverFile (numberText : ℚ → String) (content : String) :
    ∃ target, content ≠ macResolverFile numberText target := by
  by_contra hall
  rw [not_exists] at hall
  have hlength (address : String) : (macResolverFile numberText ⟨address, 53⟩).length =
      "nameserver ".length + address.length + "\nport ".length + (numberText 53).length +
        "\n".length := by
    unfold macResolverFile
    rw [String.length_append, String.length_append, String.length_append, String.length_append]
  have hshort := hlength "127.0.0.1"
  have hlong := hlength "127.0.0.10"
  rw [← not_not.mp (hall ⟨"127.0.0.1", 53⟩)] at hshort
  rw [← not_not.mp (hall ⟨"127.0.0.10", 53⟩), hshort] at hlong
  have haddress : "127.0.0.1".length ≠ "127.0.0.10".length := by decide
  omega

/-- A file that the record's reader takes is one that the owner writes, where its name passes. -/
lemma recordedBy_file {path : String} (hallowed : routingFileAllowed owner path platform = true)
    (hname : platform = .darwin → owner = .rules → ∀ name, resolverName path = some name →
      isRuleName name = true → ruleRouteError name = none) :
    ∃ made, RecordedBy numberText platform owner made ∧ path ∈ made.files := by
  cases platform with
  | darwin =>
    unfold routingFileAllowed at hallowed
    dsimp only at hallowed
    split at hallowed
    · contradiction
    · next name hfound =>
      obtain rfl := (resolverName_eq_some.mp hfound).1
      split at hallowed
      · next howner =>
        subst howner
        exact rules_darwin (hname rfl rfl name hfound hallowed)
      · next howner =>
        obtain rfl := List.mem_singleton.mp (List.contains_iff_mem.mp hallowed)
        obtain ⟨target, htarget⟩ := exists_ne_macResolverFile numberText ""
        obtain ⟨made, hmade, hfile, -⟩ := native_darwin howner htarget
        exact ⟨made, hmade, hfile⟩
  | linux =>
    obtain rfl := eq_of_beq hallowed
    by_cases howner : owner = .rules
    · subst howner
      exact rules_delegate
    · obtain ⟨made, hmade, hfile, -⟩ := native_delegate numberText howner "" (by decide)
      exact ⟨made, hmade, hfile⟩
  | win32 => contradiction
  | other => contradiction

/-- A backup that is kept is one that the owner makes, where it is for native names and no earlier
version wrote it. -/
lemma recordedBy_backup {e : String × String}
    (hallowed : routingFileAllowed owner e.1 platform = true) (howner : owner ≠ .rules)
    (hforeign : platform = .linux → writtenByTnp e.2 = false) :
    ∃ made, RecordedBy numberText platform owner made ∧ e ∈ made.backups := by
  obtain ⟨path, content⟩ := e
  dsimp only at hallowed hforeign
  cases platform with
  | darwin =>
    unfold routingFileAllowed at hallowed
    dsimp only at hallowed
    split at hallowed
    · contradiction
    · next name hfound =>
      rw [if_neg howner] at hallowed
      obtain rfl := (resolverName_eq_some.mp hfound).1
      obtain rfl := List.mem_singleton.mp (List.contains_iff_mem.mp hallowed)
      obtain ⟨target, htarget⟩ := exists_ne_macResolverFile numberText content
      obtain ⟨made, hmade, -, hbackup⟩ := native_darwin howner htarget
      exact ⟨made, hmade, hbackup⟩
  | linux =>
    obtain rfl := eq_of_beq hallowed
    obtain ⟨made, hmade, -, hbackup⟩ := native_delegate numberText howner content
      (hforeign rfl)
    exact ⟨made, hmade, hbackup⟩
  | win32 => contradiction
  | other => contradiction

lemma recordedBy_down {cmd : String} (hallowed : downCommandAllowed owner cmd platform = true) :
    ∃ made, RecordedBy numberText platform owner made ∧ cmd ∈ made.down := by
  unfold downCommandAllowed at hallowed
  rw [Bool.and_eq_true, List.contains_iff_mem] at hallowed
  obtain ⟨hplatform, hcmd⟩ := hallowed
  obtain rfl := eq_of_beq hplatform
  by_cases howner : owner = .rules
  · subst howner
    obtain ⟨made, hmade, hdown⟩ := rules_link numberText
    exact ⟨made, hmade, hdown ▸ hcmd⟩
  · obtain ⟨made, hmade, hdown⟩ := native_link numberText howner
    exact ⟨made, hmade, hdown ▸ hcmd⟩

/-- What is kept is the owner's own if and only if the listed names were checked, and no backup is
kept that the owner's routing does not make. -/
lemma ownersOnly_iff (value : Value) :
    (∀ state, sanitizeRoutingState value platform legacy = some state →
      OwnersOnly numberText platform state) ↔
    ∀ raw owner, routingRecord value = some (raw, owner) → Honest platform legacy raw owner := by
  constructor
  · intro hsound raw owner hrecord
    have hstate := hsound _ (Option.map_eq_some_iff.mpr ⟨(raw, owner), hrecord, rfl⟩)
    constructor
    case files =>
      rintro rfl rfl path hpath name hname hrule
      have hallowed : routingFileAllowed .rules path .darwin = true := by
        simp [routingFileAllowed, hname, hrule]
      obtain ⟨made, hmade, hfile⟩ := hstate.files path (List.mem_filter.mpr ⟨hpath, hallowed⟩)
      obtain ⟨target, hrules⟩ := hmade.rules
      obtain ⟨name', rfl, herror⟩ := hrules.files rfl path hfile
      obtain rfl := resolverPath_injective (resolverName_eq_some.mp hname).1
      exact herror
    case backups =>
      rintro rfl e he hpath hallowed
      obtain ⟨made, hmade, hbackup⟩ := hstate.backups e (List.mem_filter.mpr ⟨he,
        List.contains_iff_mem.mpr (List.mem_filter.mpr ⟨hpath, hallowed⟩)⟩)
      dsimp only at hmade
      by_cases howner : owner = .rules
      · subst howner
        obtain ⟨target, hrules⟩ := hmade.rules
        rw [hrules.noBackups] at hbackup
        contradiction
      · refine ⟨howner, fun hlinux => ?_⟩
        obtain ⟨options, hnative⟩ := hmade.native howner
        exact hnative.foreign hlinux e hbackup
  · intro hhonest state hstate
    obtain ⟨⟨raw, owner⟩, hrecord, rfl⟩ := Option.map_eq_some_iff.mp hstate
    obtain ⟨hfiles, hbackups⟩ := hhonest raw owner hrecord
    constructor
    case files =>
      intro path hpath
      obtain ⟨hpath, hallowed⟩ := List.mem_filter.mp hpath
      exact recordedBy_file hallowed fun hdarwin hrules => hfiles hdarwin hrules path hpath
    case backups =>
      intro e he
      dsimp only at he
      split at he
      · contradiction
      · next hlegacy =>
        obtain ⟨he, hkept⟩ := List.mem_filter.mp he
        obtain ⟨hpath, hallowed⟩ := List.mem_filter.mp (List.contains_iff_mem.mp hkept)
        obtain ⟨howner, hforeign⟩ :=
          hbackups (Bool.eq_false_iff.mpr hlegacy) e he hpath hallowed
        exact recordedBy_backup hallowed howner hforeign
    case down => exact fun cmd hcmd => recordedBy_down (List.mem_filter.mp hcmd).2

lemma Returned.clean_iff (h : Returned numberText platform state) :
    Clean platform false state ↔ Undoable platform state := by
  obtain ⟨σ, deps, s, s', rfl, ⟨options, happly⟩ | ⟨target, rules, happly⟩⟩ := h
  · exact (returns_applyNativeRouting numberText deps options s state s' happly).clean_iff
  · exact (returns_applyRuleRouting numberText deps target rules s state s' happly).clean_iff

end Sound

/-- **What is kept of any value is the owner's own if and only if the names that it lists were
checked; keeping is idempotent; and a record that the routing returns is kept as it is if and only
if everything in it can be undone.** -/
theorem sanitizeRoutingState_iff (numberText : ℚ → String) (value : Value) (platform : Platform)
    (legacy : Bool) :
    ((∀ state, sanitizeRoutingState value platform legacy = some state →
        OwnersOnly numberText platform state) ↔
      ∀ raw owner, routingRecord value = some (raw, owner) → Honest platform legacy raw owner) ∧
    (∀ state, sanitizeRoutingState value platform legacy = some state →
      sanitizeRoutingState state.value platform legacy = some state) ∧
    (∀ state, Returned numberText platform state →
      (sanitizeRoutingState state.value platform false = some state ↔ Undoable platform state)) :=
  ⟨ownersOnly_iff value, fun _ h => sanitize_value_eq_self.mpr (clean_of_sanitize h),
    fun _ h => sanitize_value_eq_self.trans h.clean_iff⟩

/-- A stored record of rules that lists the resolver file of a name under a native label. -/
def plantedRecord : Value :=
  .object [("version", .number 1), ("owner", .string "rules"),
    ("files", .array [.string "/etc/resolver/foo.ox"])]

def integerText (x : ℚ) : String := toString x.num

theorem planted_kept :
    ¬ ∀ state, sanitizeRoutingState plantedRecord .darwin false = some state →
      OwnersOnly integerText .darwin state := by
  rw [ownersOnly_iff]
  intro h
  have hhonest := h _ .rules rfl
  have hname : resolverName "/etc/resolver/foo.ox" = some "foo.ox" := by decide
  have herror := hhonest.files rfl rfl "/etc/resolver/foo.ox" (List.mem_singleton_self _) _ hname
    (by decide)
  exact absurd herror (by decide)

end Tnp.Client.DnsRouting
