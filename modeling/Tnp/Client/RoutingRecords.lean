import Tnp.Client.DnsRouting
import Tnp.Lib.Separated

/-!
What is kept of a stored routing record, against what the routing itself can record.
-/

namespace Tnp.Client.DnsRouting

open Tnp.Lib Tnp.Lib.Act Tnp.Crypto Tnp.Namespace Tnp.Net

/-! ### What is kept of a record that was written -/

def RoutingTarget.Valid (target : RoutingTarget) : Prop :=
  isIP target.address ≠ 0 ∧ target.port.den = 1 ∧ 0 < target.port ∧ target.port < 65536

instance (target : RoutingTarget) : Decidable target.Valid :=
  inferInstanceAs (Decidable (_ ∧ _ ∧ _ ∧ _))

/-- Everything in the record passes. -/
structure Clean (platform : Platform) (legacy : Bool) (state : RoutingState) : Prop where
  target : ∀ target, state.target = some target →
    target.Valid ∧ (legacy = true → isLoopback target.address = true)
  files : ∀ path ∈ state.files, routingFileAllowed state.owner path platform = true
  backups : ∀ e ∈ state.backups, e.1 ∈ state.files
  unsafeBackups : legacy = true → state.backups = []
  written : ∀ e ∈ state.written, e.1 ∈ state.files
  down : ∀ cmd ∈ state.down, downCommandAllowed state.owner cmd platform = true

section Reading

variable {platform : Platform} {legacy : Bool} {state : RoutingState}

lemma readOwner_text (owner : RoutingOwner) : readOwner (.string owner.text) = some owner := by
  cases owner <;> rfl

lemma readMechanism_text (mechanism : RoutingMechanism) :
    readMechanism (.string mechanism.text) = mechanism := by
  cases mechanism <;> rfl

lemma readTarget_value (target : RoutingTarget) :
    readTarget target.value = if target.Valid then some target else none := by
  rfl

lemma filterMap_map_of_inverse {α β : Type*} {f : β → Option α} {g : α → β}
    (h : ∀ a, f (g a) = some a) (l : List α) : (l.map g).filterMap f = l := by
  rw [List.filterMap_map, show f ∘ g = some from funext h, List.filterMap_some]

lemma strings_map (list : List String) : strings (.array (list.map .string)) = list :=
  filterMap_map_of_inverse (f := text) (g := .string) (fun _ => rfl) list

lemma entries_recordValue (record : Record) : entries (recordValue record) = record := by
  unfold entries recordValue
  exact filterMap_map_of_inverse (f := fun e => (text e.2).map fun content => (e.1, content))
    (g := fun e => (e.1, .string e.2)) (fun _ => rfl) record

lemma readRoutes_map (routes : List RuleRoute) :
    readRoutes (.array (routes.map RuleRoute.value)) = some routes :=
  congrArg some (filterMap_map_of_inverse (f := readRoute) (g := RuleRoute.value) (fun _ => rfl)
    routes)

lemma valid_of_readTarget {t : Value} {target : RoutingTarget} (h : readTarget t = some target) :
    target.Valid := by
  unfold readTarget at h
  split at h
  · split at h
    · next hvalid =>
      obtain rfl := Option.some.inj h
      exact hvalid
    · contradiction
  · contradiction

/-- What is kept of a record that was written. -/
def RoutingState.reduce (state : RoutingState) (platform : Platform) (legacy : Bool) :
    RoutingState :=
  let files := state.files.filter (routingFileAllowed state.owner · platform)
  let target := state.target.filter fun target => target.Valid
  { state with
    target := if legacy then target.filter (isLoopback ·.address) else target
    files
    backups := if legacy then [] else keep files state.backups
    written := keep files state.written
    down := state.down.filter (downCommandAllowed state.owner · platform) }

lemma sanitize_value (state : RoutingState) (platform : Platform) (legacy : Bool) :
    sanitizeRoutingState state.value platform legacy = some (state.reduce platform legacy) := by
  have hfields : Value.field state.fields "version" = .number 1 ∧
      Value.field state.fields "owner" = .string state.owner.text ∧
      Value.field state.fields "mechanism" = .string state.mechanism.text ∧
      Value.field state.fields "target" = (state.target.map RoutingTarget.value).getD .null ∧
      Value.field state.fields "tlds" = .array (state.tlds.map .string) ∧
      Value.field state.fields "files" = .array (state.files.map .string) ∧
      Value.field state.fields "backups" = recordValue state.backups ∧
      Value.field state.fields "written" = recordValue state.written ∧
      Value.field state.fields "down" = .array (state.down.map .string) := by
    simp [Value.field, RoutingState.fields, List.lookup_cons]
  obtain ⟨hversion, howner, hmechanism, htarget, htlds, hfiles, hbackups, hwritten, hdown⟩ :=
    hfields
  have hrecord : routingRecord state.value = some (state.fields, state.owner) := by
    simp only [routingRecord, RoutingState.value, howner, hversion, readOwner_text, if_true]
  have hread : readTarget ((state.target.map RoutingTarget.value).getD .null) =
      state.target.filter fun target => target.Valid := by
    cases state.target with
    | none => rfl
    | some target =>
      rw [Option.map_some, Option.getD_some, readTarget_value, Option.filter_some]
      simp
  have hsnapshot : text (Value.field state.fields "adapterSnapshot") = state.adapterSnapshot := by
    cases hs : state.adapterSnapshot <;> cases hr : state.routes <;>
      simp [Value.field, RoutingState.fields, List.lookup_cons, hs, hr, text]
  have hroutes : readRoutes (Value.field state.fields "routes") = state.routes := by
    have hfield : Value.field state.fields "routes" =
        (state.routes.map fun rs => Value.array (rs.map RuleRoute.value)).getD .undefined := by
      cases hs : state.adapterSnapshot <;> cases hr : state.routes <;>
        simp [Value.field, RoutingState.fields, List.lookup_cons, hs, hr]
    rw [hfield]
    cases state.routes with
    | none => rfl
    | some routes => exact readRoutes_map routes
  unfold sanitizeRoutingState
  rw [hrecord, Option.map_some]
  simp only [hmechanism, htarget, htlds, hfiles, hbackups, hwritten, hdown, hread, hsnapshot,
    hroutes, readMechanism_text, strings_map, entries_recordValue, RoutingState.reduce]

/-- What is kept passes. -/
theorem clean_of_sanitize {value : Value}
    (h : sanitizeRoutingState value platform legacy = some state) :
    Clean platform legacy state := by
  obtain ⟨⟨raw, owner⟩, -, rfl⟩ := Option.map_eq_some_iff.mp h
  have hkeep (files : List String) (record : Record) : ∀ e ∈ keep files record, e.1 ∈ files :=
    fun e he => List.contains_iff_mem.mp (List.mem_filter.mp he).2
  constructor
  case target =>
    intro target htarget
    dsimp only at htarget
    split at htarget
    · obtain ⟨hread, hloopback⟩ := Option.filter_eq_some_iff.mp htarget
      exact ⟨valid_of_readTarget hread, fun _ => hloopback⟩
    · next hlegacy => exact ⟨valid_of_readTarget htarget, fun h => absurd h hlegacy⟩
  case files => exact fun path hpath => (List.mem_filter.mp hpath).2
  case backups =>
    intro e he
    dsimp only at he
    split at he
    · contradiction
    · exact hkeep _ _ e he
  case unsafeBackups => exact fun hlegacy => if_pos hlegacy
  case written => exact fun e he => hkeep _ _ e he
  case down => exact fun cmd hcmd => (List.mem_filter.mp hcmd).2

lemma reduce_of_clean (h : Clean platform legacy state) : state.reduce platform legacy = state := by
  have hfiles : state.files.filter (routingFileAllowed state.owner · platform) = state.files :=
    List.filter_eq_self.mpr h.files
  have hdown : state.down.filter (downCommandAllowed state.owner · platform) = state.down :=
    List.filter_eq_self.mpr h.down
  have hkeep {record : Record} (hrecord : ∀ e ∈ record, e.1 ∈ state.files) :
      keep state.files record = record :=
    List.filter_eq_self.mpr fun e he => List.contains_iff_mem.mpr (hrecord e he)
  have hbackups : (if legacy then [] else keep state.files state.backups) = state.backups := by
    split
    · next hlegacy => exact (h.unsafeBackups hlegacy).symm
    · exact hkeep h.backups
  have htarget : (if legacy then
      (state.target.filter fun target => target.Valid).filter (isLoopback ·.address)
      else state.target.filter fun target => target.Valid) = state.target := by
    cases htarget : state.target with
    | none => simp
    | some target =>
      obtain ⟨hvalid, hloopback⟩ := h.target target htarget
      have hfilter : (some target).filter (fun target => target.Valid) = some target := by
        simp [Option.filter_some, hvalid]
      split
      · next hlegacy => rw [hfilter, Option.filter_some, if_pos (hloopback hlegacy)]
      · exact hfilter
  unfold RoutingState.reduce
  simp only [hfiles, hdown, htarget, hbackups, hkeep h.written]

/-- A record that was written is kept as it is if and only if everything in it passes. -/
theorem sanitize_value_eq_self : sanitizeRoutingState state.value platform legacy = some state ↔
    Clean platform legacy state :=
  ⟨clean_of_sanitize, fun h => (sanitize_value state platform legacy).trans
    (congrArg some (reduce_of_clean h))⟩

end Reading

/-! ### What is recorded -/

/-- What holds of every record that the routing makes. -/
structure Made (platform : Platform) (made : RoutingState) : Prop where
  backups : ∀ e ∈ made.backups, e.1 ∈ made.files
  written : ∀ e ∈ made.written, e.1 ∈ made.files
  down : ∀ cmd ∈ made.down, cmd ∈ linkDown made.owner
  /-- Only systemd-resolved has commands to undo. -/
  noDown : platform = .darwin ∨ platform = .win32 → made.down = []
  delegate : platform = .linux ∨ platform = .other →
    ∀ path ∈ made.files, path = (ownerNames made.owner).delegate
  foreign : platform = .linux → ∀ e ∈ made.backups, writtenByTnp e.2 = false
  noFiles : platform = .win32 → made.files = []

section Applied

variable {σ : Type} (numberText : ℚ → String) (deps : Deps σ)

lemma made_newState (platform : Platform) (owner : RoutingOwner) (target : RoutingTarget)
    (tlds : List String) (routes : Option (List RuleRoute)) :
    Made platform { newState owner target tlds with routes } :=
  ⟨nofun, nofun, nofun, fun _ => rfl, nofun, nofun, fun _ => rfl⟩

lemma returns_foreignContent (path : String) (isForeign : String → Bool) :
    Returns (foreignContent deps path isForeign) fun existing =>
      ∀ content, existing = some content → isForeign content = true := by
  unfold foreignContent
  refine .seq fun present => ?_
  split
  · refine .seq fun existing => .pure ?_
    split
    · next hforeign =>
      rintro content hcontent
      exact Option.some.inj hcontent ▸ hforeign
    · exact nofun
  · exact .pure nofun

lemma returns_writeDelegate (content : String) (state : RoutingState) :
    Returns (writeDelegate deps content state) fun made => made =
      { state with
        files := [(ownerNames state.owner).delegate]
        written := [((ownerNames state.owner).delegate, content)]
        mechanism := .dnsDelegate } :=
  .seq fun _ => .seq fun _ => .pure rfl

lemma returns_setUpLink (link : LinkCommands) (state : RoutingState) :
    Returns (setUpLink deps link state) fun made =>
      made = { state with mechanism := .resolvedLink, down := link.down } :=
  .seq fun _ => .pure rfl

lemma returns_addNrptRules (nameSpaces : List String) (target : RoutingTarget)
    (state : RoutingState) :
    Returns (addNrptRules deps nameSpaces target state) fun made =>
      made = { state with mechanism := .windowsNrpt } := by
  unfold addNrptRules
  split
  · exact .error
  · exact .seq fun _ => .pure rfl

/-- What writing resolver files makes of a record. -/
structure Extends (state made : RoutingState) : Prop where
  same : made = { state with
    files := made.files
    backups := made.backups
    written := made.written
    routes := made.routes }
  files : ∀ path ∈ state.files, path ∈ made.files
  backups : ∀ e ∈ made.backups, e ∈ state.backups ∨ e.1 ∈ made.files
  written : ∀ e ∈ made.written, e ∈ state.written ∨ e.1 ∈ made.files

lemma Extends.refl (state : RoutingState) : Extends state state :=
  ⟨rfl, fun _ h => h, fun _ h => .inl h, fun _ h => .inl h⟩

lemma Extends.trans {a b c : RoutingState} (hab : Extends a b) (hbc : Extends b c) :
    Extends a c where
  same := by
    rw [hbc.same, hab.same]
  files path hpath := hbc.files path (hab.files path hpath)
  backups e he := (hbc.backups e he).elim
    (fun hb => (hab.backups e hb).imp_right (hbc.files e.1)) .inr
  written e he := (hbc.written e he).elim
    (fun hb => (hab.written e hb).imp_right (hbc.files e.1)) .inr

/-- One file is written, and what was there before is kept. -/
lemma extends_write (state : RoutingState) (path content : String) (existing : Option String)
    (routes : Option (List RuleRoute)) :
    Extends state { state with
      backups :=
        match existing with
        | some existing => OrderedMap.setEntries path existing state.backups
        | none => state.backups
      files := state.files ++ [path]
      written := OrderedMap.setEntries path content state.written
      routes } where
  same := rfl
  files _ hpath := List.mem_append_left _ hpath
  backups e he := by
    cases existing with
    | none => exact .inl he
    | some existing =>
      rcases OrderedMap.mem_setEntries he with rfl | hold
      · exact .inr (List.mem_append_right _ List.mem_cons_self)
      · exact .inl hold
  written e he := by
    rcases OrderedMap.mem_setEntries he with rfl | hold
    · exact .inr (List.mem_append_right _ List.mem_cons_self)
    · exact .inl hold

lemma returns_writeResolverFiles (content : String) (tlds : List String) (state : RoutingState) :
    Returns (writeResolverFiles deps content tlds state) fun made =>
      Extends state made ∧ made.files = state.files ++ tlds.map resolverPath := by
  induction tlds generalizing state with
  | nil => exact .pure ⟨.refl state, by simp⟩
  | cons tld tlds ih =>
    unfold writeResolverFiles
    refine .seq fun existing => .seq fun _ => ?_
    refine (ih _).mono fun made ⟨hextends, hfiles⟩ => ⟨?_, ?_⟩
    · exact (extends_write state _ content existing state.routes).trans hextends
    · rw [hfiles]
      simp

lemma returns_writeRuleFiles (content : String) (routes : List RuleRoute) (state : RoutingState) :
    Returns (writeRuleFiles deps content routes state) fun made =>
      Extends state made ∧ made.backups = state.backups ∧
        ∀ path ∈ made.files,
          path ∈ state.files ∨ ∃ route ∈ routes, path = resolverPath route.name := by
  induction routes generalizing state with
  | nil => exact .pure ⟨.refl state, rfl, fun _ h => .inl h⟩
  | cons route routes ih =>
    unfold writeRuleFiles
    refine .seq fun present => ?_
    split
    · refine (ih state).mono fun made ⟨hextends, hbackups, hfiles⟩ => ⟨hextends, hbackups, ?_⟩
      exact fun path hpath => (hfiles path hpath).imp_right
        fun ⟨r, hr, heq⟩ => ⟨r, List.mem_cons_of_mem _ hr, heq⟩
    · refine .seq fun _ => (ih _).mono fun made ⟨hextends, hbackups, hfiles⟩ =>
        ⟨(extends_write state _ content none _).trans hextends, hbackups, fun path hpath => ?_⟩
      rcases hfiles path hpath with hold | ⟨r, hr, heq⟩
      · rcases List.mem_append.mp hold with hold | hnew
        · exact .inl hold
        · exact .inr ⟨route, List.mem_cons_self, List.mem_singleton.mp hnew⟩
      · exact .inr ⟨r, List.mem_cons_of_mem _ hr, heq⟩

/-- Records of resolver files. -/
lemma Extends.made {state made : RoutingState} (h : Extends state made)
    (hbackups : state.backups = []) (hwritten : state.written = []) (hdown : state.down = [])
    (mechanism : RoutingMechanism) :
    Made .darwin { made with mechanism } where
  backups e he := (h.backups e he).resolve_left (by simp [hbackups])
  written e he := (h.written e he).resolve_left (by simp [hwritten])
  down := by
    rw [h.same]
    simp [hdown]
  noDown _ := by
    rw [h.same]
    exact hdown
  delegate := by simp
  foreign := nofun
  noFiles := nofun

/-- What `applyNativeRouting` returns. -/
structure NativeMade (platform : Platform) (options : ApplyOptions) (made : RoutingState) : Prop
    extends Made platform made where
  owner : made.owner = options.owner
  target : made.target = some options.target
  tlds : made.tlds = options.tlds
  routable : ∀ tld ∈ options.tlds, isRoutable tld = true
  files : platform = .darwin → made.files = options.tlds.map resolverPath

/-- What `applyRuleRouting` returns. -/
structure RulesMade (platform : Platform) (target : RoutingTarget) (made : RoutingState) : Prop
    extends Made platform made where
  owner : made.owner = .rules
  target : made.target = some target
  tlds : made.tlds = []
  noBackups : made.backups = []
  files : platform = .darwin → ∀ path ∈ made.files, ∃ name, path = resolverPath name ∧
    ruleRouteError name = none

/-- A record without files, with an owner's commands or none. -/
lemma made_resolved {platform : Platform} (h : platform = .linux ∨ platform = .other)
    {state : RoutingState} (hfiles : state.files = []) (hbackups : state.backups = [])
    (hwritten : state.written = []) (hdown : ∀ cmd ∈ state.down, cmd ∈ linkDown state.owner) :
    Made platform state where
  backups := by simp [hbackups]
  written := by simp [hwritten]
  down := hdown
  noDown := by rcases h with rfl | rfl <;> simp
  delegate := by simp [hfiles]
  foreign := by simp [hbackups]
  noFiles := by rcases h with rfl | rfl <;> simp

/-- A record of a delegate. -/
lemma made_delegate {platform : Platform} (h : platform = .linux ∨ platform = .other)
    {owner : RoutingOwner} {target : RoutingTarget} {tlds : List String}
    {routes : Option (List RuleRoute)} (existing : Option String)
    (hforeign : ∀ content, existing = some content → (!writtenByTnp content) = true)
    (content : String) :
    Made platform { newState owner target tlds with
      backups := existing.toList.map ((ownerNames owner).delegate, ·)
      routes
      files := [(ownerNames owner).delegate]
      written := [((ownerNames owner).delegate, content)]
      mechanism := .dnsDelegate } where
  backups e he := by
    obtain ⟨existing, -, rfl⟩ := List.mem_map.mp he
    exact List.mem_cons_self
  written e he := by
    obtain rfl := List.mem_singleton.mp he
    exact List.mem_cons_self
  down := nofun
  noDown _ := rfl
  delegate _ _ hpath := List.mem_singleton.mp hpath
  foreign _ e he := by
    obtain ⟨content, hcontent, rfl⟩ := List.mem_map.mp he
    simpa using hforeign content (Option.mem_toList.mp hcontent)
  noFiles := by rcases h with rfl | rfl <;> simp

lemma made_nrpt (owner : RoutingOwner) (target : RoutingTarget) (tlds : List String)
    (routes : Option (List RuleRoute)) :
    Made .win32 { newState owner target tlds with routes, mechanism := .windowsNrpt } :=
  ⟨nofun, nofun, nofun, fun _ => rfl, by simp, nofun, fun _ => rfl⟩

lemma returns_applyResolved (options : ApplyOptions) {platform : Platform}
    (h : platform = .linux ∨ platform = .other)
    (hroutable : ∀ tld ∈ options.tlds, isRoutable tld = true) :
    Returns (applyResolved numberText deps options
      (newState options.owner options.target options.tlds)) (NativeMade platform options) := by
  have hdarwin : platform ≠ .darwin := by rcases h with rfl | rfl <;> simp
  have hnative {made : RoutingState} (hmade : Made platform made)
      (howner : made.owner = options.owner) (htarget : made.target = some options.target)
      (htlds : made.tlds = options.tlds) : NativeMade platform options made :=
    ⟨hmade, howner, htarget, htlds, hroutable, fun hd => absurd hd hdarwin⟩
  unfold applyResolved
  refine .seq fun _ => .seq fun _ => .seq fun mechanism => ?_
  split
  · refine .bind (returns_foreignContent deps _ _) fun existing hforeign => ?_
    refine (returns_writeDelegate deps _ _).mono fun made hmade => ?_
    rw [hmade]
    exact hnative (made_delegate h existing hforeign _) rfl rfl rfl
  · split
    · exact .pure (hnative (made_resolved h rfl rfl rfl nofun) rfl rfl rfl)
    · refine (returns_setUpLink deps _ _).mono fun made hmade => ?_
      rw [hmade]
      exact hnative (made_resolved h rfl rfl rfl fun cmd hcmd => hcmd) rfl rfl rfl
  · exact .pure (hnative (made_resolved h rfl rfl rfl nofun) rfl rfl rfl)

theorem returns_applyNativeRouting (options : ApplyOptions) :
    Returns (applyNativeRouting numberText deps options) (NativeMade deps.platform options) := by
  unfold applyNativeRouting
  dsimp only
  split
  · exact .error
  · next hnone =>
    have hroutable : ∀ tld ∈ options.tlds, isRoutable tld = true := by simpa using hnone
    split
    · next hplatform =>
      rw [hplatform]
      refine .seq fun _ => .bind (returns_writeResolverFiles deps _ _ _)
        fun made ⟨hextends, hfiles⟩ => .pure ?_
      refine ⟨hextends.made rfl rfl rfl _, ?_, ?_, ?_, hroutable, fun _ => hfiles⟩
      all_goals
        rw [hextends.same]
        rfl
    · next hplatform =>
      rw [hplatform]
      refine (returns_addNrptRules deps _ _ _).mono fun made hmade => ?_
      rw [hmade]
      exact ⟨made_nrpt _ _ _ none, rfl, rfl, rfl, hroutable, nofun⟩
    · next hplatform =>
      exact returns_applyResolved numberText deps options (.inl hplatform) hroutable
    · next hplatform =>
      exact returns_applyResolved numberText deps options (.inr hplatform) hroutable

lemma returns_applyRulesResolved (target : RoutingTarget) (routes : List RuleRoute)
    {platform : Platform} (h : platform = .linux ∨ platform = .other) :
    Returns (applyRulesResolved numberText deps target routes
      { newState .rules target [] with routes := some [] }) (RulesMade platform target) := by
  have hdarwin : platform ≠ .darwin := by rcases h with rfl | rfl <;> simp
  have hrules {made : RoutingState} (hmade : Made platform made) (howner : made.owner = .rules)
      (htarget : made.target = some target) (htlds : made.tlds = [])
      (hbackups : made.backups = []) : RulesMade platform target made :=
    ⟨hmade, howner, htarget, htlds, hbackups, fun hd => absurd hd hdarwin⟩
  unfold applyRulesResolved
  refine .seq fun mechanism => ?_
  split
  · refine .seq fun existing => ?_
    split
    · exact .pure (hrules (made_resolved h rfl rfl rfl nofun) rfl rfl rfl rfl)
    · refine (returns_writeDelegate deps _ _).mono fun made hmade => ?_
      rw [hmade]
      exact hrules (made_delegate h none nofun _) rfl rfl rfl rfl
  · refine (returns_setUpLink deps _ _).mono fun made hmade => ?_
    rw [hmade]
    exact hrules (made_resolved h rfl rfl rfl fun cmd hcmd => hcmd) rfl rfl rfl rfl
  · exact .pure (hrules (made_resolved h rfl rfl rfl nofun) rfl rfl rfl rfl)

theorem returns_applyRuleRouting (target : RoutingTarget) (rules : List RuleRoute) :
    Returns (applyRuleRouting numberText deps target rules) (RulesMade deps.platform target) := by
  unfold applyRuleRouting
  dsimp only
  have hempty : RulesMade deps.platform target
      { newState .rules target [] with routes := some [] } :=
    ⟨made_newState _ _ _ _ _, rfl, rfl, rfl, rfl, nofun⟩
  split
  · exact .error
  · next hnone =>
    have hnames : ∀ route ∈ normalizeRuleRoutes rules, ruleRouteError route.name = none := by
      simpa using hnone
    split
    · exact .pure hempty
    · split
      · next hplatform =>
        rw [hplatform]
        refine .bind (returns_writeRuleFiles deps _ _ _)
          fun made ⟨hextends, hbackups, hfiles⟩ => .pure ?_
        refine ⟨hextends.made rfl rfl rfl _, ?_, ?_, ?_, hbackups, fun _ path hpath => ?_⟩
        · rw [hextends.same]
          rfl
        · rw [hextends.same]
          rfl
        · rw [hextends.same]
          rfl
        · obtain ⟨route, hroute, heq⟩ := (hfiles path hpath).resolve_left nofun
          exact ⟨route.name, heq, hnames route hroute⟩
      · next hplatform =>
        split
        · exact .pure hempty
        · rw [hplatform]
          refine (returns_addNrptRules deps _ _ _).mono fun made hmade => ?_
          rw [hmade]
          exact ⟨made_nrpt _ _ _ _, rfl, rfl, rfl, rfl, nofun⟩
      · next hplatform => exact returns_applyRulesResolved numberText deps _ _ (.inl hplatform)
      · next hplatform => exact returns_applyRulesResolved numberText deps _ _ (.inr hplatform)

end Applied

/-! ### Paths and names -/

section Names

variable {name path : String}

lemma resolverPath_injective {a b : String} (h : resolverPath a = resolverPath b) : a = b := by
  have hlist := congrArg String.toList h
  unfold resolverPath at hlist
  rw [String.toList_append, String.toList_append] at hlist
  exact String.toList_injective (List.append_cancel_left hlist)

lemma resolverName_eq_some : resolverName path = some name ↔ path = resolverPath name ∧
    1 ≤ name.toList.length ∧ name.toList.length ≤ 253 ∧
      ∀ c ∈ name.toList, (Namespace.isAlphanumeric c || c == '.' || c == '-') = true := by
  unfold resolverName resolverPath
  generalize hdirectory : "/etc/resolver/" = directory
  dsimp only
  constructor
  · intro h
    split at h
    · next hfits =>
      obtain rfl := Option.some.inj h
      simp only [Bool.and_eq_true, decide_eq_true_eq, List.isPrefixOf_iff_prefix,
        List.all_eq_true] at hfits
      obtain ⟨⟨⟨⟨rest, hrest⟩, hpos⟩, hle⟩, hchars⟩ := hfits
      rw [← hrest, List.drop_left] at hpos hle hchars ⊢
      rw [String.toList_ofList]
      refine ⟨?_, hpos, hle, hchars⟩
      apply String.toList_injective
      rw [String.toList_append, String.toList_ofList, hrest]
    · contradiction
  · rintro ⟨rfl, hpos, hle, hchars⟩
    rw [String.toList_append, List.drop_left, if_pos, String.ofList_toList]
    simp only [Bool.and_eq_true, decide_eq_true_eq, List.isPrefixOf_iff_prefix, List.all_eq_true]
    exact ⟨⟨⟨List.prefix_append _ _, hpos⟩, hle⟩, hchars⟩

lemma mem_of_isRuleName (h : isRuleName name = true) : 1 ≤ name.toList.length ∧
    name.toList.length ≤ 253 ∧
      ∀ c ∈ name.toList, (Namespace.isAlphanumeric c || c == '.' || c == '-') = true := by
  simp only [isRuleName, labels, Bool.and_eq_true, decide_eq_true_eq, List.length_map,
    List.all_eq_true, List.forall_mem_map] at h
  obtain ⟨⟨hle, hlabels⟩, hall⟩ := h
  refine ⟨?_, hle, fun c hc => ?_⟩
  · have hdot : '.' ∈ name.toList := mem_iff_length_splitOn.mpr (by omega)
    exact List.length_pos_of_mem hdot
  · have hsplit : c = '.' ∨ ∃ label ∈ name.toList.splitOn '.', c ∈ label := mem_splitOn hc
    rcases hsplit with rfl | ⟨label, hlabel, hmem⟩
    · rfl
    · have hlabelChars := (hall label hlabel).2
      rw [matchesLabel, String.toList_ofList, Bool.and_eq_true, List.all_eq_true] at hlabelChars
      rcases Bool.or_eq_true_iff.mp (hlabelChars.2 c hmem) with halnum | hhyphen
      · simp [halnum]
      · simp [hhyphen]

/-- A label alone is no name of a rule. -/
lemma isRuleName_of_isRoutable (h : isRoutable name = true) : isRuleName name = false := by
  have hdot : '.' ∉ name.toList := by
    intro hmem
    simp only [isRoutable, Bool.and_eq_true, List.all_eq_true] at h
    exact absurd (h.1.2 '.' hmem) (by decide)
  rw [mem_iff_length_splitOn] at hdot
  have hlabels : ¬ 2 ≤ (labels name).length := by
    rw [labels, List.length_map]
    omega
  simp [isRuleName, hlabels]

/-- Of the labels that may be routed, the record's reader takes the file of TNP's own only. -/
lemma routingFileAllowed_darwin {owner : RoutingOwner} (h : isRoutable name = true) :
    routingFileAllowed owner (resolverPath name) .darwin = true ↔
      owner ≠ .rules ∧ name ∈ ROUTED_TLDS := by
  unfold routingFileAllowed
  dsimp only
  constructor
  · intro hallowed
    split at hallowed
    · contradiction
    · next found hfound =>
      obtain rfl := resolverPath_injective (resolverName_eq_some.mp hfound).1
      split at hallowed
      · rw [isRuleName_of_isRoutable h] at hallowed
        contradiction
      · next howner => exact ⟨howner, List.contains_iff_mem.mp hallowed⟩
  · rintro ⟨howner, hmem⟩
    obtain rfl := List.mem_singleton.mp hmem
    have hname : resolverName (resolverPath "ox") = some "ox" :=
      resolverName_eq_some.mpr ⟨rfl, by decide, by decide, List.all_eq_true.mp (by decide)⟩
    rw [hname]
    simp [howner, ROUTED_TLDS, BUILTIN_NATIVE_TLDS]

lemma routingFileAllowed_rule (h : ruleRouteError name = none) :
    routingFileAllowed .rules (resolverPath name) .darwin = true := by
  have hrule : isRuleName name = true := by
    unfold ruleRouteError at h
    split at h
    · contradiction
    · next hname =>
      have hboth : isRuleName name = true ∧ isNumeric name = false := by simpa using hname
      exact hboth.1
  have hname : resolverName (resolverPath name) = some name :=
    resolverName_eq_some.mpr ⟨rfl, mem_of_isRuleName hrule⟩
  simp [routingFileAllowed, hname, hrule]

end Names

/-! ### Records that are taken back whole -/

/-- Everything that was recorded can be undone from the record. -/
structure Undoable (platform : Platform) (state : RoutingState) : Prop where
  target : ∃ target, state.target = some target ∧ target.Valid
  tlds : platform = .darwin → ∀ tld ∈ state.tlds, state.owner ≠ .rules ∧ tld ∈ ROUTED_TLDS
  other : platform = .other → state.files = [] ∧ state.down = []

section Whole

variable {platform : Platform} {made : RoutingState}

/-- But for files on macOS, only the target and the platform decide. -/
lemma Made.clean_iff (h : Made platform made) {target : RoutingTarget}
    (htarget : made.target = some target)
    (hfiles : platform = .darwin →
      ((∀ path ∈ made.files, routingFileAllowed made.owner path .darwin = true) ↔
        ∀ tld ∈ made.tlds, made.owner ≠ .rules ∧ tld ∈ ROUTED_TLDS)) :
    Clean platform false made ↔ Undoable platform made := by
  constructor
  · intro hclean
    refine ⟨⟨target, htarget, (hclean.target target htarget).1⟩, ?_, ?_⟩
    · rintro rfl
      exact (hfiles rfl).mp hclean.files
    · rintro rfl
      exact ⟨List.eq_nil_iff_forall_not_mem.mpr fun path hpath =>
          absurd (hclean.files path hpath) nofun,
        List.eq_nil_iff_forall_not_mem.mpr fun cmd hcmd => absurd (hclean.down cmd hcmd) nofun⟩
  · intro hundo
    refine ⟨fun t ht => ⟨?_, nofun⟩, ?_, h.backups, nofun, h.written, ?_⟩
    · obtain ⟨target', htarget', hvalid⟩ := hundo.target
      exact Option.some.inj (htarget'.symm.trans ht) ▸ hvalid
    · cases platform with
      | darwin => exact (hfiles rfl).mpr (hundo.tlds rfl)
      | win32 => simp [h.noFiles rfl]
      | linux =>
        intro path hpath
        rw [h.delegate (.inl rfl) path hpath]
        exact beq_self_eq_true _
      | other => simp [(hundo.other rfl).1]
    · cases platform with
      | darwin => simp [h.noDown (.inl rfl)]
      | win32 => simp [h.noDown (.inr rfl)]
      | linux =>
        intro cmd hcmd
        exact List.contains_iff_mem.mpr (h.down cmd hcmd)
      | other => simp [(hundo.other rfl).2]

lemma NativeMade.clean_iff {options : ApplyOptions} (h : NativeMade platform options made) :
    Clean platform false made ↔ Undoable platform made := by
  refine h.toMade.clean_iff h.target fun hdarwin => ?_
  rw [h.files hdarwin, h.tlds, List.forall_mem_map]
  exact forall₂_congr fun tld htld => routingFileAllowed_darwin (h.routable tld htld)

lemma RulesMade.clean_iff {target : RoutingTarget} (h : RulesMade platform target made) :
    Clean platform false made ↔ Undoable platform made := by
  refine h.toMade.clean_iff h.target fun hdarwin => ?_
  rw [h.tlds, h.owner]
  refine iff_of_true (fun path hpath => ?_) nofun
  obtain ⟨name, rfl, hname⟩ := h.files hdarwin path hpath
  exact routingFileAllowed_rule hname

end Whole

end Tnp.Client.DnsRouting
