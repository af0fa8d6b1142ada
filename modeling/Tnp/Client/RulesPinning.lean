import Tnp.Client.RulesStore
import Tnp.Crypto.EnvelopeBinding

/-!
Which rule sets a device goes on to accept, and which redirects it applies.
-/

namespace Tnp.Client.RulesStore

open Tnp.Lib Tnp.Lib.Run Tnp.Crypto Tnp.Crypto.DnsRules Tnp.Protocol Tnp.SharedTypes
  Tnp.SharedTypes.DnsRules

/-! ### Rules and targets -/

/-- A description tells the target. -/
lemma describeDnsRuleTarget_injective : Function.Injective describeDnsRuleTarget := by
  intro s t h
  have htext := congrArg String.toList h
  simp only [describeDnsRuleTarget, String.toList_append] at htext
  cases s <;> cases t <;>
    simp_all [DnsRuleTarget.kind, DnsRuleTarget.value, String.toList_inj]

variable {rt : Runtime} {isNative : String → Bool}

section

variable {parseUrl : UrlParser} {toLowerCase : String → String} {name : String}
  {target : DnsRuleTarget}

lemma isNative_of_parseRedirect {record : Record} {source : String}
    (h : parseRedirect parseUrl toLowerCase isNative record source = .ok (.redirect name target)) :
    isNative name = false := by
  unfold parseRedirect at h
  obtain ⟨hnative, h⟩ := check_eq_ok.mp h
  obtain ⟨-, h⟩ := check_eq_ok.mp h
  split at h
  · simp [SharedTypes.DnsRules.fail] at h
  obtain ⟨-, h⟩ := check_eq_ok.mp h
  obtain ⟨rfl, -⟩ := DnsRule.redirect.inj (Except.ok.inj h)
  simpa using hnative

/-- A redirect of a native name is not let through. -/
lemma isNative_of_parseDnsRule {input : Value}
    (h : parseDnsRule parseUrl toLowerCase isNative input = .ok (.redirect name target)) :
    isNative name = false := by
  unfold parseDnsRule at h
  split at h
  · simp [SharedTypes.DnsRules.fail] at h
  obtain ⟨-, h⟩ := check_eq_ok.mp h
  split at h
  · simp [SharedTypes.DnsRules.fail] at h
  split at h
  · simp at h
  · exact isNative_of_parseRedirect h

/-- What is left out of a set leaves no rule, and what is kept was parsed. -/
lemma parsed_of_add {parsed : ParsedDnsRules} {entry : Value × ℕ} {rule : DnsRule}
    (h : rule ∈ (parsed.add parseUrl toLowerCase isNative entry).rules) :
    rule ∈ parsed.rules ∨ parseDnsRule parseUrl toLowerCase isNative entry.1 = .ok rule := by
  unfold ParsedDnsRules.add at h
  split at h
  · exact .inl h
  next added hadded =>
  split at h
  · exact .inl h
  rcases List.mem_append.mp h with hold | hnew
  · exact .inl hold
  · obtain rfl := List.mem_singleton.mp hnew
    exact .inr hadded

lemma parsed_of_foldl {entries : List (Value × ℕ)} {parsed : ParsedDnsRules} {rule : DnsRule}
    (h : rule ∈ (entries.foldl (ParsedDnsRules.add parseUrl toLowerCase isNative) parsed).rules) :
    rule ∈ parsed.rules ∨
      ∃ input, parseDnsRule parseUrl toLowerCase isNative input = .ok rule := by
  induction entries generalizing parsed with
  | nil => exact .inl h
  | cons entry entries ih =>
    rcases ih h with hadd | hlater
    · rcases parsed_of_add hadd with hold | hparsed
      · exact .inl hold
      · exact .inr ⟨_, hparsed⟩
    · exact .inr hlater

lemma isNative_of_parseDnsRuleSet {input : Value} {decrypted : Decrypted}
    (h : parseDnsRuleSet parseUrl toLowerCase isNative input = .ok decrypted)
    (hmem : DnsRule.redirect name target ∈ decrypted.1) : isNative name = false := by
  unfold parseDnsRuleSet at h
  split at h
  · obtain ⟨-, h⟩ := check_eq_ok.mp h
    obtain rfl := Except.ok.inj h
    rcases parsed_of_foldl hmem with hnone | ⟨entry, hparsed⟩
    · simp at hnone
    · exact isNative_of_parseDnsRule hparsed
  · simp at h

end

/-! ### What is decrypted -/

variable {record : DnsRulesRecord} {decrypted : Decrypted} {rulesKey : Bytes}

lemma decryptRules_eq_ok {minVersion : ℕ}
    (h : decryptRules rt rulesKey record minVersion isNative = .ok decrypted) :
    minVersion ≤ record.version.val.val ∧ ∀ name target,
      DnsRule.redirect name target ∈ decrypted.1 → isNative name = false := by
  unfold decryptRules at h
  split at h
  · simp at h
  next body hopen =>
  split at h
  · simp [refuse] at h
  split at h
  · simp [refuse] at h
  next hparsed =>
  obtain rfl := Except.ok.inj h
  obtain ⟨-, c, hfields, hmin, -⟩ := openRulesEnvelope_eq_ok_iff.mp hopen
  have hversion : (record.version.val.val : ℚ) = c.version.val.val :=
    record.version_eq.symm.trans hfields.version
  refine ⟨?_, fun name target => isNative_of_parseDnsRuleSet hparsed⟩
  rw [Nat.cast_inj.mp hversion]
  exact hmin

lemma rulesCiphertextDigest_eq_ok {envelope : RulesEnvelope} {digest : String} :
    rulesCiphertextDigest rt envelope = .ok digest ↔
      ∃ bytes, envelope.ciphertext = encodeBase64 bytes ∧ digest = toHex (rt.sha256 bytes) := by
  unfold rulesCiphertextDigest
  constructor
  · intro h
    split at h
    · simp at h
    next bytes hbytes => exact ⟨bytes, decodeField_none_iff.mp hbytes, (Except.ok.inj h).symm⟩
  · rintro ⟨bytes, hbytes, rfl⟩
    rw [decodeField_none_iff.mpr hbytes]

/-- Ciphertexts of one digest are one. -/
lemma ciphertext_of_digest (hsha : Function.Injective rt.sha256) {e f : RulesEnvelope}
    {digest : String} (he : rulesCiphertextDigest rt e = .ok digest)
    (hf : rulesCiphertextDigest rt f = .ok digest) : e.ciphertext = f.ciphertext := by
  obtain ⟨b, hb, hdigest⟩ := rulesCiphertextDigest_eq_ok.mp he
  obtain ⟨b', hb', hdigest'⟩ := rulesCiphertextDigest_eq_ok.mp hf
  rw [hb, hb', hsha (toHex_injective (hdigest.symm.trans hdigest'))]

/-! ### What applies -/

variable {approvals : OrderedMap String String} {name : String} {target : DnsRuleTarget}

lemma mem_active_iff : DnsRule.redirect name target ∈ (viewOf record decrypted approvals).active ↔
    DnsRule.redirect name target ∈ decrypted.1 ∧
      approvals.get name = some (describeDnsRuleTarget target) := by
  simp [viewOf, applies]

lemma mem_of_redirectOf {rules : List DnsRule}
    (h : (OrderedMap.ofList (rules.filterMap redirectOf)).get name = some target) :
    DnsRule.redirect name target ∈ rules := by
  obtain ⟨rule, hrule, heq⟩ := List.mem_filterMap.mp (OrderedMap.mem_of_get_ofList h)
  cases rule with
  | block _ _ => simp [redirectOf] at heq
  | redirect _ _ =>
    obtain ⟨rfl, rfl⟩ := Prod.mk.inj (Option.some.inj heq)
    exact hrule

/-- What survives is still in the set. -/
lemma mem_of_survives {rules : List DnsRule}
    (h : survives rules name (describeDnsRuleTarget target) = true) :
    DnsRule.redirect name target ∈ rules := by
  obtain ⟨target', hget, heq⟩ := (Option.any_eq_true _ _).mp h
  rw [decide_eq_true_eq] at heq
  obtain rfl := describeDnsRuleTarget_injective heq
  exact mem_of_redirectOf hget

/-! ### What a pull accepts -/

variable {files : Files} {options : PullOptions} {minVersion : ℕ}

/-- What was opened was decrypted, and is no older than asked for unless the key is another. -/
structure Opens (rt : Runtime) (options : PullOptions) (minVersion : ℕ) (opened : Opened) :
    Prop where
  native : ∀ name target, DnsRule.redirect name target ∈ opened.decrypted.1 →
    options.isNative name = false
  version : opened.reset = false → minVersion ≤ options.record.version.val.val

lemma opens_openAsked {stored : Option StoredKey} {opened : Opened}
    (h : openAsked rt stored options minVersion = .ok opened) :
    Opens rt options minVersion opened := by
  unfold openAsked at h
  split at h
  · split at h <;> simp [refuse] at h
  split at h
  · simp at h
  dsimp only at h
  split at h
  · simp [refuse] at h
  split at h
  · simp at h
  next decrypted hdecrypt =>
  obtain rfl := Except.ok.inj h
  obtain ⟨hmin, hnative⟩ := decryptRules_eq_ok hdecrypt
  refine ⟨hnative, fun hreset => ?_⟩
  dsimp only at hreset
  rwa [hreset, if_neg Bool.false_ne_true] at hmin

lemma opens_openStored {stored : StoredKey} {opened : Opened}
    (h : openStored rt stored options minVersion = .ok (some opened)) :
    Opens rt options minVersion opened := by
  unfold openStored at h
  split at h
  · split at h <;> simp at h
  next decrypted hdecrypt =>
  obtain ⟨-, hnative⟩ := decryptRules_eq_ok hdecrypt
  obtain ⟨hmin, h⟩ := check_eq_ok.mp h
  obtain rfl := Option.some.inj (Except.ok.inj h)
  exact ⟨hnative, fun _ => not_lt.mp hmin⟩

lemma opens_openPulled {stored : Option StoredKey} {opened : Opened}
    (h : openPulled rt stored options minVersion = .ok opened) :
    Opens rt options minVersion opened := by
  unfold openPulled at h
  split at h
  · exact opens_openAsked h
  split at h
  · exact opens_openAsked h
  split at h
  · simp at h
  · next hstored =>
    obtain rfl := Except.ok.inj h
    exact opens_openStored hstored
  · exact opens_openAsked h

/-- What is accepted is of the account of the stored key; and where the key is not replaced, it is
no older than the record of that account, and the same if it is as old. -/
structure Accepts (rt : Runtime) (files : Files) (options : PullOptions) (a : Acceptance) :
    Prop where
  key_eq : ∀ key, files.key = some key → key.userId = options.record.userId
  key : a.key.userId = options.record.userId
  record : a.record = options.record
  state_user : a.state.userId = options.record.userId
  state_version : a.state.highestVersion = options.record.version.val.val
  state_digest : rulesCiphertextDigest rt options.record.envelope = .ok a.state.ciphertextDigest
  view : a.view = viewOf options.record a.decrypted a.state.approvals
  native : ∀ name target, DnsRule.redirect name target ∈ a.decrypted.1 →
    options.isNative name = false
  approvals : ∀ name text, a.state.approvals.get name = some text →
    survives a.decrypted.1 name text = true ∧
      ∃ state, files.state = some state ∧ state.approvals.get name = some text
  newest : a.reset = false → ∀ state, files.state = some state →
    state.userId = options.record.userId →
      state.highestVersion ≤ options.record.version.val.val ∧
        (state.highestVersion = options.record.version.val.val →
          state.ciphertextDigest = a.state.ciphertextDigest)

lemma accepts {a : Acceptance} (h : acceptPulledRules rt files options = .ok a) :
    Accepts rt files options a := by
  unfold acceptPulledRules at h
  obtain ⟨haccount, h⟩ := check_eq_ok.mp h
  dsimp only at h
  split at h
  · simp at h
  next opened hopened =>
  split at h
  · simp at h
  next digest hdigest =>
  obtain ⟨hfork, h⟩ := check_eq_ok.mp h
  obtain rfl := Except.ok.inj h
  have hopens := opens_openPulled hopened
  constructor
  · intro key hkey
    simpa [hkey] using haccount
  · rfl
  · rfl
  · rfl
  · rfl
  · exact hdigest
  · rfl
  · exact hopens.native
  · intro name text hget
    dsimp only [accept] at hget
    rw [OrderedMap.get_filter] at hget
    obtain ⟨hprevious, hsurvives⟩ := hget
    refine ⟨hsurvives, ?_⟩
    split at hprevious
    · simp at hprevious
    · cases hstate : files.state with
      | none => simp [hstate] at hprevious
      | some state =>
        rw [hstate] at hprevious
        exact ⟨state, rfl, hprevious⟩
  · intro hreset state hstate huser
    have hrecord : recordOf files options.record = some state := by
      simp [recordOf, hstate, huser]
    have hversion := hopens.version hreset
    rw [hrecord] at hversion hfork
    refine ⟨hversion, fun heq => ?_⟩
    have hreset' : opened.reset = false := hreset
    simp only [hreset', Bool.not_false, Bool.true_and, Option.any_some, decide_eq_true_eq,
      not_and, not_not] at hfork
    exact (hfork heq.symm).symm

/-! ### What an approval writes -/

lemma approveNames_eq_ok {pending : OrderedMap String DnsRuleTarget}
    {approvals approvals' : OrderedMap String String} {names : List String} {text : String}
    (h : approveNames pending approvals names = .ok approvals')
    (hget : approvals'.get name = some text) :
    approvals.get name = some text ∨ name ∈ names ∧ ∃ target, pending.get name = some target ∧
      text = describeDnsRuleTarget target := by
  induction names generalizing approvals with
  | nil =>
    obtain rfl := Except.ok.inj h
    exact .inl hget
  | cons first names ih =>
    unfold approveNames at h
    split at h
    · simp [refuse] at h
    next target htarget =>
    rcases ih h with hset | ⟨hmem, hpending⟩
    · rw [OrderedMap.get_set] at hset
      split at hset
      · next hname =>
        subst hname
        exact .inr ⟨List.mem_cons_self, target, htarget, (Option.some.inj hset).symm⟩
      · exact .inl hset
    · exact .inr ⟨List.mem_cons_of_mem _ hmem, hpending⟩

lemma mem_granted {view : RulesView} {names : List String} (hname : name ∈ names)
    (htarget : (pendingOf view).get name = some target) :
    (name, target) ∈ Device.granted view names :=
  List.mem_filterMap.mpr ⟨name, hname, by rw [htarget]; rfl⟩

/-- Every approval that is written was there before, or was asked for. -/
lemma approveRedirects_eq_ok {names : List String} {view : RulesView} {state : StoredState}
    (h : approveRedirects rt files names isNative = .ok (view, state)) :
    ∃ old, files.state = some old ∧ state = { old with approvals := state.approvals } ∧
      ∀ name text, state.approvals.get name = some text →
        old.approvals.get name = some text ∨
          ∃ target, text = describeDnsRuleTarget target ∧
            (name, target) ∈ Device.granted view names := by
  unfold approveRedirects at h
  split at h
  · simp at h
  split at h
  next view' old hold hview =>
    split at h
    · simp at h
    next approvals happrove =>
    obtain ⟨rfl, rfl⟩ := Prod.mk.inj (Except.ok.inj h)
    refine ⟨old, hold, rfl, fun name text hget => ?_⟩
    rcases approveNames_eq_ok happrove hget with hbefore | ⟨hname, target, htarget, rfl⟩
    · exact .inl hbefore
    · exact .inr ⟨target, rfl, mem_granted hname htarget⟩
  · simp [refuse] at h

lemma revokeRedirect_eq_ok {state : StoredState} (h : revokeRedirect files name = .ok state) :
    ∃ old, files.state = some old ∧
      state = { old with approvals := old.approvals.delete name } := by
  unfold revokeRedirect at h
  split at h
  · simp [refuse] at h
  next old hold =>
  obtain ⟨-, h⟩ := check_eq_ok.mp h
  exact ⟨old, hold, (Except.ok.inj h).symm⟩

/-- What is written after an approval or its withdrawal. -/
inductive Rewrites (files : Files) (state : StoredState) (isNative : String → Bool)
    (fails : Option File) : Outcome × Files → Prop
  | unwritten (hfails : fails = some .state) : Rewrites files state isNative fails (.failed, files)
  | stopped (hfails : fails ≠ some .state) :
      Rewrites files state isNative fails (.failed, { files with state := some state })
  | done (hfails : fails ≠ some .state) (view : RulesView)
      (active : ∀ name target, DnsRule.redirect name target ∈ view.active →
        isNative name = false ∧
          state.approvals.get name = some (describeDnsRuleTarget target)) :
      Rewrites files state isNative fails
        (.done view, { files with state := some state, active := some (activeOf view) })

lemma rewrites (files : Files) (state : StoredState) (isNative : String → Bool)
    (fails : Option File) :
    Rewrites files state isNative fails (files.rewrite rt state isNative fails) := by
  unfold Files.rewrite
  by_cases hfails : fails = some .state
  · rw [if_pos hfails]
    exact .unwritten hfails
  rw [if_neg hfails]
  dsimp only
  split
  · next view hview =>
    split
    · exact .stopped hfails
    · refine .done hfails view fun name target hmem => ?_
      unfold currentRulesView at hview
      split at hview
      · next stored record state' hkey henvelope hstate =>
        obtain rfl := Option.some.inj hstate
        split at hview
        · simp at hview
        next decrypted hdecrypt =>
        obtain rfl := Option.some.inj (Except.ok.inj hview)
        obtain ⟨hrule, hget⟩ := mem_active_iff.mp hmem
        exact ⟨(decryptRules_eq_ok hdecrypt).2 name target hrule, hget⟩
      · simp at hview
  · exact .stopped hfails

/-! ### What is kept -/

variable {d : Device} {a : Acceptance} {fails : Option File}

namespace Device

/-- What every call keeps, also one that is cut off. -/
structure Inv (rt : Runtime) (d : Device) : Prop where
  keyed : ∀ state, d.files.state = some state →
    ∃ key, d.files.key = some key ∧ key.userId = state.userId
  accepted : ∀ entry ∈ d.accepted, ∃ state, d.files.state = some state ∧
    entry.1 ≤ state.highestVersion ∧ (entry.1 = state.highestVersion →
      ∃ bytes, entry.2 = encodeBase64 bytes ∧ state.ciphertextDigest = toHex (rt.sha256 bytes))
  approved : ∀ state, d.files.state = some state → Within state.approvals d.approved
  active : ∀ active, d.files.active = some active → ∀ name target,
    DnsRule.redirect name target ∈ active.rules →
      (name, target) ∈ d.approved ∧ d.native name = false

/-- What a call keeps that is not cut off between the envelope and the state. -/
structure Held (rt : Runtime) (d : Device) : Prop where
  envelope : ∀ record, d.files.envelope = some record → ∃ state, d.files.state = some state ∧
    state.highestVersion = record.version.val.val ∧
    rulesCiphertextDigest rt record.envelope = .ok state.ciphertextDigest
  standing : ∀ state, d.files.state = some state → Within state.approvals d.standing

lemma Within.mono {approvals : OrderedMap String String} {l m : List (String × DnsRuleTarget)}
    (h : Within approvals l) (hsub : ∀ e ∈ l, e ∈ m) : Within approvals m := by
  intro name text hget
  obtain ⟨target, htext, hmem⟩ := h name text hget
  exact ⟨target, htext, hsub _ hmem⟩

/-- What applies is approved. -/
lemma Within.mem {l : List (String × DnsRuleTarget)} (h : Within approvals l)
    (hget : approvals.get name = some (describeDnsRuleTarget target)) : (name, target) ∈ l := by
  obtain ⟨target', htext, hmem⟩ := h _ _ hget
  obtain rfl := describeDnsRuleTarget_injective htext
  exact hmem

end Device

open Device

/-! ### A pull -/

section Pull

variable (ha : Accepts rt d.files options a) (hreset : a.reset = false)
include ha

lemma Accepts.within {l : List (String × DnsRuleTarget)}
    (h : ∀ state, d.files.state = some state → Within state.approvals l) :
    Within a.state.approvals l := by
  intro name text hget
  obtain ⟨-, state, hstate, hold⟩ := ha.approvals name text hget
  exact h state hstate name text hold

/-- What is approved after a pull stood before it, and the rule set holds it. -/
lemma Accepts.within_filter {l : List (String × DnsRuleTarget)}
    (h : ∀ state, d.files.state = some state → Within state.approvals l) :
    Within a.state.approvals
      (l.filter fun e => (DnsRule.redirect e.1 e.2) ∈ a.decrypted.1) := by
  intro name text hget
  obtain ⟨target, rfl, hmem⟩ := ha.within h name text hget
  have hsurvives := (ha.approvals name _ hget).1
  exact ⟨target, rfl, List.mem_filter.mpr ⟨hmem, by simpa using mem_of_survives hsurvives⟩⟩

lemma Accepts.active {l : List (String × DnsRuleTarget)} (h : Within a.state.approvals l)
    {name : String} {target : DnsRuleTarget}
    (hmem : DnsRule.redirect name target ∈ a.view.active) :
    (name, target) ∈ l ∧ options.isNative name = false := by
  rw [ha.view] at hmem
  obtain ⟨hrule, hget⟩ := mem_active_iff.mp hmem
  exact ⟨h.mem hget, ha.native name target hrule⟩

include hreset

/-- Nothing newer was accepted before, and nothing else under the same version. -/
lemma Accepts.accepted (h : Inv rt d) {entry : ℕ × String} (hentry : entry ∈ d.accepted) :
    entry.1 ≤ a.state.highestVersion ∧ (entry.1 = a.state.highestVersion →
      ∃ bytes, entry.2 = encodeBase64 bytes ∧
        a.state.ciphertextDigest = toHex (rt.sha256 bytes)) := by
  obtain ⟨state, hstate, hle, hsame⟩ := h.accepted entry hentry
  obtain ⟨key, hkey, huser⟩ := h.keyed state hstate
  obtain ⟨hnewest, hdigest⟩ := ha.newest hreset state hstate
    (huser.symm.trans (ha.key_eq key hkey))
  rw [ha.state_version]
  refine ⟨hle.trans hnewest, fun heq => ?_⟩
  have hversion := Nat.le_antisymm hnewest (heq ▸ hle)
  obtain ⟨bytes, hbytes, hhash⟩ := hsame (heq.trans hversion.symm)
  exact ⟨bytes, hbytes, (hdigest hversion).symm.trans hhash⟩

lemma Accepts.accepted_append (h : Inv rt d) {entry : ℕ × String}
    (hentry : entry ∈ d.accepted ++
      [(options.record.version.val.val, options.record.envelope.ciphertext)]) :
    entry.1 ≤ a.state.highestVersion ∧ (entry.1 = a.state.highestVersion →
      ∃ bytes, entry.2 = encodeBase64 bytes ∧
        a.state.ciphertextDigest = toHex (rt.sha256 bytes)) := by
  rcases List.mem_append.mp hentry with hold | hnew
  · exact ha.accepted hreset h hold
  · obtain rfl := List.mem_singleton.mp hnew
    rw [ha.state_version]
    exact ⟨le_rfl, fun _ => rulesCiphertextDigest_eq_ok.mp ha.state_digest⟩

/-- The versions that are kept: what is held is no newer, and the same if it is as old. -/
lemma Accepts.held (hinv : Inv rt d) (h : Held rt d) (hsha : Function.Injective rt.sha256)
    {record : DnsRulesRecord} (hrecord : d.files.envelope = some record) :
    record.version.val.val ≤ options.record.version.val.val ∧
      (record.version.val.val = options.record.version.val.val →
        record.envelope.ciphertext = options.record.envelope.ciphertext) := by
  obtain ⟨state, hstate, hversion, hdigest⟩ := h.envelope record hrecord
  obtain ⟨key, hkey, huser⟩ := hinv.keyed state hstate
  obtain ⟨hnewest, hsame⟩ := ha.newest hreset state hstate (huser.symm.trans (ha.key_eq key hkey))
  rw [hversion] at hnewest hsame
  refine ⟨hnewest, fun heq => ciphertext_of_digest hsha hdigest ?_⟩
  rw [hsame heq]
  exact ha.state_digest

end Pull

namespace Device

lemma step_pull (h : acceptPulledRules rt d.files options = .ok a) :
    d.step rt (.pull options fails) =
      { files := a.write d.files fails
        approved := d.approved
        standing :=
          if fails = some .key ∨ fails = some .envelope then d.standing
          else d.standing.filter fun e => (DnsRule.redirect e.1 e.2) ∈ a.decrypted.1
        accepted :=
          if fails.isSome then d.accepted
          else d.accepted ++
            [(options.record.version.val.val, options.record.envelope.ciphertext)]
        native := if fails.isSome then d.native else options.isNative } := by
  cases fails <;> simp [step, note, onPull, Files.step, h, nativeOf, lastNative]

lemma Inv.pull (h : Inv rt d) (haccept : acceptPulledRules rt d.files options = .ok a)
    (hreset : a.reset = false) : Inv rt (d.step rt (.pull options fails)) := by
  have ha := accepts haccept
  have hwithin := ha.within h.approved
  rw [step_pull haccept]
  have hkeyed (state : StoredState) (hstate : d.files.state = some state) :
      a.key.userId = state.userId := by
    obtain ⟨key, hkey, huser⟩ := h.keyed state hstate
    exact ha.key.trans ((ha.key_eq key hkey).symm.trans huser)
  cases fails with
  | some file =>
    cases file with
    | key => exact ⟨h.keyed, h.accepted, h.approved, h.active⟩
    | envelope =>
      exact ⟨fun state hstate => ⟨a.key, rfl, hkeyed state hstate⟩, h.accepted, h.approved,
        h.active⟩
    | state =>
      exact ⟨fun state hstate => ⟨a.key, rfl, hkeyed state hstate⟩, h.accepted, h.approved,
        h.active⟩
    | active =>
      refine ⟨?_, fun entry hentry => ⟨a.state, rfl, ha.accepted hreset h hentry⟩, ?_, h.active⟩
      · rintro state hstate
        obtain rfl := Option.some.inj hstate
        exact ⟨a.key, rfl, ha.key.trans ha.state_user.symm⟩
      · rintro state hstate
        obtain rfl := Option.some.inj hstate
        exact hwithin
  | none =>
    refine ⟨?_, fun entry hentry => ⟨a.state, rfl, ha.accepted_append hreset h hentry⟩, ?_, ?_⟩
    · rintro state hstate
      obtain rfl := Option.some.inj hstate
      exact ⟨a.key, rfl, ha.key.trans ha.state_user.symm⟩
    · rintro state hstate
      obtain rfl := Option.some.inj hstate
      exact hwithin
    · rintro active hactive name target hmem
      obtain rfl := Option.some.inj hactive
      exact ha.active hwithin hmem

lemma Held.pull (h : Held rt d) (haccept : acceptPulledRules rt d.files options = .ok a)
    (hfails : fails ≠ some .state) : Held rt (d.step rt (.pull options fails)) := by
  have ha := accepts haccept
  have hwithin := ha.within_filter h.standing
  have hnew : ∃ state, some a.state = some state ∧
      state.highestVersion = options.record.version.val.val ∧
      rulesCiphertextDigest rt options.record.envelope = .ok state.ciphertextDigest :=
    ⟨a.state, rfl, ha.state_version, ha.state_digest⟩
  rw [step_pull haccept]
  cases fails with
  | some file =>
    cases file with
    | key => exact ⟨h.envelope, h.standing⟩
    | envelope => exact ⟨h.envelope, h.standing⟩
    | state => contradiction
    | active =>
      constructor
      · intro record hrecord
        obtain rfl := Option.some.inj hrecord
        rw [ha.record]
        exact hnew
      · intro state hstate
        obtain rfl := Option.some.inj hstate
        exact hwithin
  | none =>
    constructor
    · intro record hrecord
      obtain rfl := Option.some.inj hrecord
      rw [ha.record]
      exact hnew
    · intro state hstate
      obtain rfl := Option.some.inj hstate
      exact hwithin

/-! ### An approval and its withdrawal -/

section Rewrite

variable {old state : StoredState} {out : Outcome × Files}
  (hold : d.files.state = some old) (hstate : state = { old with approvals := state.approvals })
  (hout : Rewrites d.files state isNative fails out)
  {approved standing : List (String × DnsRuleTarget)}
include hold hstate hout

lemma Inv.rewrite (h : Inv rt d) (hsub : ∀ e ∈ d.approved, e ∈ approved)
    (hwithin : fails ≠ some .state → Within state.approvals approved) :
    Inv rt { d with
      files := out.2
      approved
      standing
      native := d.lastNative isNative out.1 } := by
  have hkeyed (state' : StoredState) (heq : some state = some state') :
      ∃ key, d.files.key = some key ∧ key.userId = state'.userId := by
    obtain rfl := Option.some.inj heq
    rw [hstate]
    exact h.keyed old hold
  have haccepted : ∀ entry ∈ d.accepted, ∃ state', some state = some state' ∧
      entry.1 ≤ state'.highestVersion ∧ (entry.1 = state'.highestVersion →
        ∃ bytes, entry.2 = encodeBase64 bytes ∧
          state'.ciphertextDigest = toHex (rt.sha256 bytes)) := by
    intro entry hentry
    obtain ⟨old', hold', hentry⟩ := h.accepted entry hentry
    obtain rfl := Option.some.inj (hold.symm.trans hold')
    refine ⟨state, rfl, ?_⟩
    rw [hstate]
    exact hentry
  have hactive (active : ActiveRules) (hactive : d.files.active = some active) (name : String)
      (target : DnsRuleTarget) (hmem : DnsRule.redirect name target ∈ active.rules) :
      (name, target) ∈ approved ∧ d.native name = false := by
    obtain ⟨happroved, hnative⟩ := h.active active hactive name target hmem
    exact ⟨hsub _ happroved, hnative⟩
  cases hout with
  | unwritten hfails =>
    exact ⟨h.keyed, h.accepted, fun state' hstate' => (h.approved state' hstate').mono hsub,
      hactive⟩
  | stopped hfails =>
    refine ⟨hkeyed, haccepted, fun state' hstate' => ?_, hactive⟩
    obtain rfl := Option.some.inj hstate'
    exact hwithin hfails
  | done hfails view hview =>
    refine ⟨hkeyed, haccepted, fun state' hstate' => ?_, fun active hactive name target hmem => ?_⟩
    · obtain rfl := Option.some.inj hstate'
      exact hwithin hfails
    · obtain rfl := Option.some.inj hactive
      obtain ⟨hnative, hget⟩ := hview name target hmem
      exact ⟨(hwithin hfails).mem hget, hnative⟩

lemma Held.rewrite (h : Held rt d) (hsame : fails = some .state → standing = d.standing)
    (hwithin : fails ≠ some .state → Within state.approvals standing) :
    Held rt { d with
      files := out.2
      approved
      standing
      native := d.lastNative isNative out.1 } := by
  have henvelope (record : DnsRulesRecord) (hrecord : d.files.envelope = some record) :
      ∃ state', some state = some state' ∧ state'.highestVersion = record.version.val.val ∧
        rulesCiphertextDigest rt record.envelope = .ok state'.ciphertextDigest := by
    obtain ⟨old', hold', hrecord⟩ := h.envelope record hrecord
    obtain rfl := Option.some.inj (hold.symm.trans hold')
    refine ⟨state, rfl, ?_⟩
    rw [hstate]
    exact hrecord
  have hstanding (hfails : fails ≠ some .state) (state' : StoredState)
      (heq : some state = some state') : Within state'.approvals standing := by
    obtain rfl := Option.some.inj heq
    exact hwithin hfails
  cases hout with
  | unwritten hfails =>
    obtain rfl := hsame hfails
    exact ⟨h.envelope, h.standing⟩
  | stopped hfails => exact ⟨henvelope, hstanding hfails⟩
  | done hfails view hview => exact ⟨henvelope, hstanding hfails⟩

end Rewrite

lemma step_approve {names : List String} {view : RulesView} {state : StoredState}
    (h : approveRedirects rt d.files names isNative = .ok (view, state)) :
    d.step rt (.approve names isNative fails) =
      { d with
        files := (d.files.rewrite rt state isNative fails).2
        approved :=
          if fails = some .state then d.approved else d.approved ++ granted view names
        standing :=
          if fails = some .state then d.standing else d.standing ++ granted view names
        native := d.lastNative isNative (d.files.rewrite rt state isNative fails).1 } := by
  by_cases hfails : fails = some .state
  · simp [step, note, onApprove, Files.step, h, hfails, nativeOf]
  · simp [step, note, onApprove, Files.step, h, hfails, nativeOf]

lemma step_revoke {name : String} {state : StoredState}
    (h : revokeRedirect d.files name = .ok state) :
    d.step rt (.revoke name isNative fails) =
      { d with
        files := (d.files.rewrite rt state isNative fails).2
        standing :=
          if fails = some .state then d.standing else d.standing.filter fun e => e.1 ≠ name
        native := d.lastNative isNative (d.files.rewrite rt state isNative fails).1 } := by
  by_cases hfails : fails = some .state
  · simp [step, note, onRevoke, Files.step, h, hfails, nativeOf]
  · simp [step, note, onRevoke, Files.step, h, hfails, nativeOf]

/-- What was asked for is among what is approved then. -/
lemma within_granted {names : List String} {view : RulesView} {state old : StoredState}
    {l : List (String × DnsRuleTarget)} (h : Within old.approvals l)
    (happrovals : ∀ name text, state.approvals.get name = some text →
      old.approvals.get name = some text ∨
        ∃ target, text = describeDnsRuleTarget target ∧ (name, target) ∈ granted view names) :
    Within state.approvals (l ++ granted view names) := by
  intro name text hget
  rcases happrovals name text hget with hbefore | ⟨target, htext, hmem⟩
  · obtain ⟨target, htext, hmem⟩ := h name text hbefore
    exact ⟨target, htext, List.mem_append_left _ hmem⟩
  · exact ⟨target, htext, List.mem_append_right _ hmem⟩

lemma within_delete {old : StoredState} {l : List (String × DnsRuleTarget)} {name : String}
    (h : Within old.approvals l) :
    Within (old.approvals.delete name) (l.filter fun e => e.1 ≠ name) := by
  intro other text hget
  rw [OrderedMap.get_delete] at hget
  split at hget
  · contradiction
  next hne =>
  obtain ⟨target, htext, hmem⟩ := h other text hget
  exact ⟨target, htext, List.mem_filter.mpr ⟨hmem, by simpa using fun h => hne h.symm⟩⟩

/-! ### Every call -/

/-- What a call does: nothing where it is refused, and otherwise what its inputs allow. -/
inductive Call (rt : Runtime) (d : Device) : Event → Prop
  | refused (e : Event) (hsame : d.step rt e = d)
      (hout : ∃ failure, (d.files.step rt e).1 = .refused failure) : Call rt d e
  | pulled (options : PullOptions) (fails : Option File) (a : Acceptance)
      (haccept : acceptPulledRules rt d.files options = .ok a) : Call rt d (.pull options fails)
  | approved (names : List String) (isNative : String → Bool) (fails : Option File)
      (view : RulesView) (state : StoredState)
      (happrove : approveRedirects rt d.files names isNative = .ok (view, state)) :
      Call rt d (.approve names isNative fails)
  | revoked (name : String) (isNative : String → Bool) (fails : Option File) (state : StoredState)
      (hrevoke : revokeRedirect d.files name = .ok state) : Call rt d (.revoke name isNative fails)

lemma call (rt : Runtime) (d : Device) (e : Event) : Call rt d e := by
  cases e with
  | pull options fails =>
    cases haccept : acceptPulledRules rt d.files options with
    | error failure =>
      refine .refused _ ?_ ⟨failure, by simp [Files.step, haccept]⟩
      simp [step, note, onPull, Files.step, haccept, lastNative]
    | ok a => exact .pulled options fails a haccept
  | approve names isNative fails =>
    cases happrove : approveRedirects rt d.files names isNative with
    | error failure =>
      refine .refused _ ?_ ⟨failure, by simp [Files.step, happrove]⟩
      simp [step, note, onApprove, Files.step, happrove, lastNative]
    | ok written => exact .approved names isNative fails _ _ happrove
  | revoke name isNative fails =>
    cases hrevoke : revokeRedirect d.files name with
    | error failure =>
      refine .refused _ ?_ ⟨failure, by simp [Files.step, hrevoke]⟩
      simp [step, note, onRevoke, Files.step, hrevoke, lastNative]
    | ok state => exact .revoked name isNative fails _ hrevoke

lemma inv_step {e : Event} (h : Inv rt d) (hreset : d.NoReset rt e) : Inv rt (d.step rt e) := by
  cases call rt d e with
  | refused _ hsame hout => rwa [hsame]
  | pulled options fails a haccept => exact h.pull haccept (hreset options fails a rfl haccept)
  | approved names isNative fails view state happrove =>
    obtain ⟨old, hold, hstate, happrovals⟩ := approveRedirects_eq_ok happrove
    have hsub : ∀ e ∈ d.approved, e ∈ (if fails = some .state then d.approved
        else d.approved ++ granted view names) := by
      intro e he
      split
      · exact he
      · exact List.mem_append_left _ he
    rw [step_approve happrove]
    refine h.rewrite hold hstate (rewrites _ _ _ _) hsub fun hfails => ?_
    rw [if_neg hfails]
    exact within_granted (h.approved old hold) happrovals
  | revoked name isNative fails state hrevoke =>
    obtain ⟨old, hold, hstate⟩ := revokeRedirect_eq_ok hrevoke
    rw [step_revoke hrevoke]
    refine h.rewrite hold (by rw [hstate]) (rewrites _ _ _ _) (fun e he => he) fun _ => ?_
    rw [hstate]
    have hdeleted := @within_delete old d.approved name (h.approved old hold)
    exact hdeleted.mono fun e he => List.mem_of_mem_filter he

lemma held_step {e : Event} (h : Held rt d) (hbroken : d.Unbroken rt e) :
    Held rt (d.step rt e) := by
  cases call rt d e with
  | refused _ hsame hout => rwa [hsame]
  | pulled options fails a haccept => exact h.pull haccept (hbroken options fails a rfl haccept)
  | approved names isNative fails view state happrove =>
    obtain ⟨old, hold, hstate, happrovals⟩ := approveRedirects_eq_ok happrove
    rw [step_approve happrove]
    refine h.rewrite hold hstate (rewrites _ _ _ _) (fun hfails => if_pos hfails) fun hfails => ?_
    rw [if_neg hfails]
    exact within_granted (h.standing old hold) happrovals
  | revoked name isNative fails state hrevoke =>
    obtain ⟨old, hold, hstate⟩ := revokeRedirect_eq_ok hrevoke
    rw [step_revoke hrevoke]
    refine h.rewrite hold (by rw [hstate]) (rewrites _ _ _ _) (fun hfails => if_pos hfails)
      fun hfails => ?_
    rw [if_neg hfails, hstate]
    exact within_delete (h.standing old hold)

/-- A rewrite that returns: the state is the one to write, and what applies is approved in it. -/
lemma rewrite_done {state : StoredState} {view : RulesView}
    (h : (d.files.rewrite rt state isNative fails).1 = .done view) :
    (d.files.rewrite rt state isNative fails).2.state = some state ∧
      ∀ name target, DnsRule.redirect name target ∈ view.active →
        state.approvals.get name = some (describeDnsRuleTarget target) := by
  have hout := @rewrites rt d.files state isNative fails
  generalize d.files.rewrite rt state isNative fails = out at hout h ⊢
  cases hout with
  | unwritten hfails => simp at h
  | stopped hfails => simp at h
  | done hfails view' hview =>
    obtain rfl := Outcome.done.inj h
    exact ⟨rfl, fun name target hmem => (hview name target hmem).2⟩

/-- After a call that returns, what applies is approved. -/
lemma approved_of_done {e : Event} {view : RulesView}
    (h : (d.files.step rt e).1 = .done view) :
    ∃ state, (d.step rt e).files.state = some state ∧
      ∀ name target, DnsRule.redirect name target ∈ view.active →
        state.approvals.get name = some (describeDnsRuleTarget target) := by
  cases call rt d e with
  | refused _ hsame hout =>
    obtain ⟨failure, hout⟩ := hout
    rw [hout] at h
    contradiction
  | pulled options fails a haccept =>
    simp only [Files.step, haccept] at h
    split at h
    · contradiction
    next hfails =>
      obtain rfl := Outcome.done.inj h
      obtain rfl : fails = none := by simpa using hfails
      rw [step_pull haccept]
      refine ⟨a.state, rfl, fun name target hmem => ?_⟩
      rw [(accepts haccept).view] at hmem
      exact (mem_active_iff.mp hmem).2
  | approved names isNative fails view' state happrove =>
    simp only [Files.step, happrove] at h
    rw [step_approve happrove]
    exact ⟨state, rewrite_done h⟩
  | revoked name isNative fails state hrevoke =>
    simp only [Files.step, hrevoke] at h
    rw [step_revoke hrevoke]
    exact ⟨state, rewrite_done h⟩

lemma accepted_of_done {view : RulesView}
    (h : (d.files.step rt (.pull options fails)).1 = .done view) :
    ∃ a, acceptPulledRules rt d.files options = .ok a := by
  cases haccept : acceptPulledRules rt d.files options with
  | error failure => simp [Files.step, haccept] at h
  | ok a => exact ⟨a, rfl⟩

lemma kept (hsha : Function.Injective rt.sha256) {e : Event} (h : Inv rt d)
    (hreset : d.NoReset rt e) : d.Kept rt e where
  refused := by
    rintro options fails failure rfl hout
    cases haccept : acceptPulledRules rt d.files options with
    | error failure' => simp [step, Files.step, haccept]
    | ok a =>
      simp only [Files.step, haccept] at hout
      split at hout <;> contradiction
  newest := by
    rintro options fails view rfl hout entry hentry
    obtain ⟨a, haccept⟩ := accepted_of_done hout
    have ha := accepts haccept
    obtain ⟨hle, hsame⟩ := ha.accepted (hreset options fails a rfl haccept) h hentry
    rw [ha.state_version] at hle hsame
    refine ⟨hle, fun heq => ?_⟩
    obtain ⟨bytes, hbytes, hdigest⟩ := hsame heq
    obtain ⟨bytes', hbytes', hdigest'⟩ := rulesCiphertextDigest_eq_ok.mp ha.state_digest
    rw [hbytes, hbytes', hsha (toHex_injective (hdigest.symm.trans hdigest'))]
  approved := (inv_step h hreset).active

lemma pinned (hsha : Function.Injective rt.sha256) {e : Event} (hinv : Inv rt d) (h : Held rt d)
    (hreset : d.NoReset rt e) (hbroken : d.Unbroken rt e) : d.Pinned rt e where
  held := by
    rintro options fails view record rfl hout hrecord
    obtain ⟨a, haccept⟩ := accepted_of_done hout
    exact (accepts haccept).held (hreset options fails a rfl haccept) hinv h hsha hrecord
  gone := (held_step h hbroken).standing
  active := by
    intro view hout name target hmem
    obtain ⟨state, hstate, happroved⟩ := approved_of_done hout
    exact ((held_step h hbroken).standing state hstate).mem (happroved name target hmem)

lemma inv_start : Inv rt {} where
  keyed _ h := by simp at h
  accepted _ h := by simp at h
  approved _ h := by simp at h
  active _ h := by simp at h

def withRedirect : String :=
  "\x7b\"rules\":[\x7b\"type\":\"redirect\",\"name\":\"example.com\",\"target\":" ++
    "\x7b\"kind\":\"ipv4\",\"value\":\"192.0.2.1\"\x7d\x7d]\x7d"

def withoutRedirect : String := "\x7b\"rules\":[]\x7d"

def parseSample (text : String) : Option Value :=
  if text = withRedirect then
    some (.object [("rules", .array [.object [("type", .string "redirect"),
      ("name", .string "example.com"),
      ("target", .object [("kind", .string "ipv4"), ("value", .string "192.0.2.1")])]])])
  else if text = withoutRedirect then some (.object [("rules", .array [])])
  else none

def sampleUser : JsString := units "alice"

def sampleKey : Bytes := List.replicate 32 2

def samplePlain (version : In VERSIONS) (text : String) : Bytes :=
  framed sampleUser version.val (utf8 text) ++
    List.replicate (4096 - (framed sampleUser version.val (utf8 text)).length) 0

def sampleFields (version : In VERSIONS) (text : String) : Checked where
  kdfParams := ⟨⟨⟨65536, by decide⟩, by decide⟩, ⟨⟨3, by decide⟩, by decide⟩,
    ⟨⟨1, one_le_max_safe_integer⟩, by decide⟩⟩
  version
  salt := List.replicate 16 1
  wrappedKey := List.replicate 24 3 ++ (sampleKey ++ List.replicate 16 0)
  nonce := List.replicate 24 4
  ciphertext := samplePlain version text ++ List.replicate 16 0

def sampleRecord (version : In VERSIONS) (text : String) : DnsRulesRecord where
  envelope := {
    v := RULES_ENVELOPE_VERSION.val
    kdfParams := DEFAULT_RULES_KDF
    salt := encodeBase64 (sampleFields version text).salt
    wrappedKey := encodeBase64 (sampleFields version text).wrappedKey
    nonce := encodeBase64 (sampleFields version text).nonce
    ciphertext := encodeBase64 (sampleFields version text).ciphertext
    version := version.val.val }
  userId := sampleUser
  version
  version_eq := rfl

def first : In VERSIONS := ⟨⟨1, one_le_max_safe_integer⟩, by decide⟩
def second : In VERSIONS := ⟨⟨2, by decide⟩, by decide⟩
def third : In VERSIONS := ⟨⟨3, by decide⟩, by decide⟩

def sampleSeal (version : In VERSIONS) (text : String) : Aead.Encryption Bytes :=
  sealEntry samplePrimitives sampleKey sampleUser (sampleFields version text)
    (samplePlain version text)

/-- A rules key under the passphrase, and three versions of a set under it. -/
def sampleRuntime : Runtime where
  C := samplePrimitives
  table := [wrapEntry [0x70] sampleUser (sampleFields first withRedirect) sampleKey,
    sampleSeal first withRedirect, sampleSeal second withoutRedirect, sampleSeal third withRedirect]
  sha256 := id
  parseJson := parseSample
  parseUrl _ := some { protocol := "http:", host := "example.com", hostname := "example.com" }
  toLowerCase := id

/-- A pull of one version, by somebody who knows the passphrase. -/
def samplePull (version : In VERSIONS) (text : String) : PullOptions where
  record := sampleRecord version text
  isNative _ := false
  askPassphrase := some [0x70]

section Sample

variable {version : In VERSIONS} {text : String}

end Sample

/-- The device once the set is pulled, its redirect is approved, and the redirect is gone. -/
def pulled : Device := step sampleRuntime {} (.pull (samplePull first withRedirect) none)

end Device

end Tnp.Client.RulesStore
