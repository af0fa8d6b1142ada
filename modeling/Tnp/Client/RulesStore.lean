import Tnp.Client.ActiveRulesFile
import Tnp.Crypto.EnvelopeSpec
import Tnp.Lib.Run

/-!
The device side of synced DNS rules: the rules key, the rollback record with the approvals of this
device, the last envelope, and the rules in force.

Each of the four is a file of its own, written in turn, so that a call may stop between two of
them. What the user has said, and what was accepted so far, is remembered beside the files and read
by no call.
-/

namespace Tnp.Client.RulesStore

open Tnp.Lib Tnp.Lib.Run Tnp.Crypto Tnp.Crypto.DnsRules Tnp.Protocol Tnp.SharedTypes
  Tnp.SharedTypes.DnsRules

/-- What the code takes from its packages and from the platform. -/
structure Runtime where
  C : Primitives
  table : Aead.Table Bytes
  sha256 : Bytes → Bytes
  parseJson : String → Option Value
  parseUrl : UrlParser
  toLowerCase : String → String

/-- A record that the parser of the server's answers let through. -/
structure DnsRulesRecord where
  envelope : RulesEnvelope
  userId : JsString
  version : In VERSIONS
  version_eq : envelope.version = version.val.val

structure StoredKey where
  userId : JsString
  rulesKey : Bytes

structure StoredState where
  userId : JsString
  highestVersion : ℕ
  ciphertextDigest : String
  approvals : OrderedMap String String

/-- What `formatActiveRulesFile` is given. -/
structure ActiveRules where
  version : ℕ
  pending : ℕ
  rules : List DnsRule

/-- The files of the device. -/
structure Files where
  key : Option StoredKey := none
  envelope : Option DnsRulesRecord := none
  state : Option StoredState := none
  active : Option ActiveRules := none

inductive RulesStoreErrorCode
  | noKey
  | otherAccount
  | needsPassphrase
  | wrongPassphrase
  | tampered
  | rollback
  | fork
  | malformed
  | nothingPulled
  deriving DecidableEq

inductive Failure
  | envelope (thrown : Thrown)
  | store (code : RulesStoreErrorCode) (message : String)
  deriving DecidableEq

def refuse {α : Type} (code : RulesStoreErrorCode) (message : String) : Except Failure α :=
  .error (.store code message)

structure RulesView where
  version : ℕ
  userId : JsString
  active : List DnsRule
  pending : List DnsRule
  rejected : List RejectedDnsRule

/-- Rules that were decrypted and parsed. -/
abbrev Decrypted := List DnsRule × List RejectedDnsRule

def describeDnsRuleTarget (target : DnsRuleTarget) : String := target.kind ++ " " ++ target.value

/-- A block applies, and a redirect whose target is the approved one. -/
def applies (approvals : OrderedMap String String) : DnsRule → Bool
  | .block _ _ => true
  | .redirect name target => approvals.get name = some (describeDnsRuleTarget target)

def viewOf (record : DnsRulesRecord) (decrypted : Decrypted)
    (approvals : OrderedMap String String) : RulesView where
  version := record.version.val.val
  userId := record.userId
  active := decrypted.1.filter (applies approvals)
  pending := decrypted.1.filter fun rule => !applies approvals rule
  rejected := decrypted.2

def translate : Failure → Failure
  | .envelope (.rulesEnvelope .rollback message) => .store .rollback message
  | .envelope (.rulesEnvelope .wrongPassphrase _) => .store .wrongPassphrase "wrong sync passphrase"
  | .envelope (.rulesEnvelope .tampered message) => .store .tampered message
  | .envelope (.rulesEnvelope _ message) => .store .malformed message
  | failure => failure

def isTampered : Failure → Bool
  | .envelope (.rulesEnvelope .tampered _) => true
  | _ => false

variable (rt : Runtime)

def decryptRules (rulesKey : Bytes) (record : DnsRulesRecord) (minVersion : ℕ)
    (isNative : String → Bool) : Except Failure Decrypted :=
  match openRulesEnvelope rt.C rt.table rulesKey record.userId record.envelope minVersion with
  | .error thrown => .error (.envelope thrown)
  | .ok body =>
    match (decodeText body).bind rt.parseJson with
    | none => refuse .malformed "the decrypted rule set is not JSON"
    | some json =>
      match parseDnsRuleSet rt.parseUrl rt.toLowerCase isNative json with
      | .error e => refuse .malformed ("the decrypted rule set is invalid: " ++ e)
      | .ok decrypted => .ok decrypted

def rulesCiphertextDigest (envelope : RulesEnvelope) : Except Failure String :=
  match decodeField envelope.ciphertext "ciphertext" none with
  | .error thrown => .error (.envelope thrown)
  | .ok ciphertext => .ok (toHex (rt.sha256 ciphertext))

/-! ### A pull -/

structure PullOptions where
  record : DnsRulesRecord
  isNative : String → Bool
  /-- What is answered to `askPassphrase`, where somebody can be asked. -/
  askPassphrase : Option JsString := none
  forcePassphrase : Bool := false

/-- What a pull opened, and with which key. -/
structure Opened where
  rulesKey : Bytes
  decrypted : Decrypted
  reset : Bool

/-- With the stored key; nothing where that key does not open the set. -/
def openStored (stored : StoredKey) (options : PullOptions) (minVersion : ℕ) :
    Except Failure (Option Opened) :=
  match decryptRules rt stored.rulesKey options.record 0 options.isNative with
  | .error failure => if isTampered failure then .ok none else .error (translate failure)
  | .ok decrypted =>
    if options.record.version.val.val < minVersion then
      refuse .rollback (s!"the server offered rule set version {
        options.record.version.val.val}, older than version {minVersion}" ++
        " already accepted; refusing it")
    else .ok (some ⟨stored.rulesKey, decrypted, false⟩)

def openAsked (stored : Option StoredKey) (options : PullOptions) (minVersion : ℕ) :
    Except Failure Opened :=
  match options.askPassphrase with
  | none =>
    if stored.isSome then
      refuse .needsPassphrase ("the stored key no longer opens your rule set (it was altered, " ++
        "or re-created with a new passphrase); rerun with your sync passphrase")
    else
      refuse .noKey ("this device has no rules key yet; run \x60tnp rules pull\x60 with your " ++
        "sync passphrase")
  | some passphrase =>
    match unlockRulesKey rt.C rt.table passphrase options.record.userId options.record.envelope with
    | .error thrown => .error (translate (.envelope thrown))
    | .ok unlocked =>
      let reset := stored.any fun stored => unlocked ≠ stored.rulesKey
      if stored.isSome && !reset && !options.forcePassphrase then
        refuse .tampered "the rule set on the server does not decrypt: it was altered"
      else
        match decryptRules rt unlocked options.record (if reset then 0 else minVersion)
            options.isNative with
        | .error failure => .error (translate failure)
        | .ok decrypted => .ok ⟨unlocked, decrypted, reset⟩

def openPulled (stored : Option StoredKey) (options : PullOptions) (minVersion : ℕ) :
    Except Failure Opened :=
  match stored with
  | none => openAsked rt stored options minVersion
  | some key =>
    if options.forcePassphrase then openAsked rt stored options minVersion
    else
      match openStored rt key options minVersion with
      | .error failure => .error failure
      | .ok (some opened) => .ok opened
      | .ok none => openAsked rt stored options minVersion

/-- The rollback record, where it is of the account of the record. -/
def recordOf (files : Files) (record : DnsRulesRecord) : Option StoredState :=
  files.state.filter fun state => state.userId = record.userId

def redirectOf : DnsRule → Option (String × DnsRuleTarget)
  | .block _ _ => none
  | .redirect name target => some (name, target)

/-- Whether an approval survives: its redirect still exists, with the same target. -/
def survives (rules : List DnsRule) (name text : String) : Bool :=
  ((OrderedMap.ofList (rules.filterMap redirectOf)).get name).any fun target =>
    describeDnsRuleTarget target = text

/-- A pull that is accepted: what it writes, and what it returns. -/
structure Acceptance where
  key : StoredKey
  record : DnsRulesRecord
  state : StoredState
  decrypted : Decrypted
  view : RulesView
  reset : Bool
  droppedApprovals : List String

def accept (state : Option StoredState) (options : PullOptions) (opened : Opened)
    (digest : String) : Acceptance :=
  let previous := if opened.reset then ⟨[], List.nodup_nil⟩ else
    (state.map StoredState.approvals).getD ⟨[], List.nodup_nil⟩
  let approvals := previous.filter (survives opened.decrypted.1)
  { key := ⟨options.record.userId, opened.rulesKey⟩
    record := options.record
    state := ⟨options.record.userId, options.record.version.val.val, digest, approvals⟩
    decrypted := opened.decrypted
    view := viewOf options.record opened.decrypted approvals
    reset := opened.reset
    droppedApprovals := (previous.entries.filter fun e => !survives opened.decrypted.1 e.1 e.2).map
      Prod.fst }

def acceptPulledRules (files : Files) (options : PullOptions) : Except Failure Acceptance :=
  if files.key.any fun stored => stored.userId ≠ options.record.userId then
    refuse .otherAccount
      "the stored rules key belongs to another Oxy account; run \x60tnp rules forget\x60 first"
  else
    let minVersion := ((recordOf files options.record).map StoredState.highestVersion).getD 0
    match openPulled rt files.key options minVersion with
    | .error failure => .error failure
    | .ok opened =>
      match rulesCiphertextDigest rt options.record.envelope with
      | .error failure => .error failure
      | .ok digest =>
        if !opened.reset && (recordOf files options.record).any fun state =>
            options.record.version.val.val = state.highestVersion ∧ digest ≠ state.ciphertextDigest
        then
          refuse .fork s!"the server offered a different rule set under version {
            options.record.version.val.val}, which this device already accepted; refusing it"
        else .ok (accept files.state options opened digest)

/-! ### Approvals -/

def currentRulesView (files : Files) (isNative : String → Bool) :
    Except Failure (Option RulesView) :=
  match files.key, files.envelope, files.state with
  | some stored, some record, some state =>
    match decryptRules rt stored.rulesKey record 0 isNative with
    | .error failure => .error (translate failure)
    | .ok decrypted => .ok (some (viewOf record decrypted state.approvals))
  | _, _, _ => .ok none

/-- The names are approved in turn; one that is not pending ends it. -/
def approveNames (pending : OrderedMap String DnsRuleTarget) :
    OrderedMap String String → List String → Except Failure (OrderedMap String String)
  | approvals, [] => .ok approvals
  | approvals, name :: names =>
    match pending.get name with
    | none => refuse .malformed (name ++ " is not a pending redirect")
    | some target => approveNames pending (approvals.set name (describeDnsRuleTarget target)) names

def pendingOf (view : RulesView) : OrderedMap String DnsRuleTarget :=
  OrderedMap.ofList (view.pending.filterMap redirectOf)

/-- What `approveRedirects` writes, and the view that the names were taken from. -/
def approveRedirects (files : Files) (names : List String) (isNative : String → Bool) :
    Except Failure (RulesView × StoredState) :=
  match currentRulesView rt files isNative with
  | .error failure => .error failure
  | .ok view =>
    match view, files.state with
    | some view, some state =>
      match approveNames (pendingOf view) state.approvals names with
      | .error failure => .error failure
      | .ok approvals => .ok (view, { state with approvals })
    | _, _ => refuse .nothingPulled "no rule set pulled yet; run \x60tnp rules pull\x60"

/-- The names that `in` finds in every object. -/
def INHERITED : List String :=
  ["constructor", "hasOwnProperty", "isPrototypeOf", "propertyIsEnumerable", "toLocaleString",
    "toString", "valueOf", "__defineGetter__", "__defineSetter__", "__lookupGetter__",
    "__lookupSetter__", "__proto__"]

/-- What `revokeRedirect` writes. -/
def revokeRedirect (files : Files) (name : String) : Except Failure StoredState :=
  match files.state with
  | none => refuse .nothingPulled "no rule set pulled yet; run \x60tnp rules pull\x60"
  | some state =>
    if !(state.approvals.has name || INHERITED.contains name) then
      refuse .malformed (name ++ " is not an approved redirect")
    else .ok { state with approvals := state.approvals.delete name }

/-! ### Steps -/

/-- The files, in the order in which a pull writes them. -/
inductive File
  | key
  | envelope
  | state
  | active
  deriving DecidableEq

inductive Event
  | pull (options : PullOptions) (fails : Option File)
  | approve (names : List String) (isNative : String → Bool) (fails : Option File)
  | revoke (name : String) (isNative : String → Bool) (fails : Option File)

inductive Outcome
  /-- Thrown before anything is written. -/
  | refused (failure : Failure)
  /-- Thrown once something may have been written. -/
  | failed
  | done (view : RulesView)

def activeOf (view : RulesView) : ActiveRules := ⟨view.version, view.pending.length, view.active⟩

/-- The files after a pull, up to the write that fails. -/
def Acceptance.write (acceptance : Acceptance) (files : Files) : Option File → Files
  | some .key => files
  | some .envelope => { files with key := some acceptance.key }
  | some .state =>
    { files with key := some acceptance.key, envelope := some acceptance.record }
  | some .active =>
    { files with
      key := some acceptance.key
      envelope := some acceptance.record
      state := some acceptance.state }
  | none =>
    { key := some acceptance.key
      envelope := some acceptance.record
      state := some acceptance.state
      active := some (activeOf acceptance.view) }

/-- The state is written, and the active file from what the files are then. -/
def Files.rewrite (files : Files) (state : StoredState) (isNative : String → Bool)
    (fails : Option File) : Outcome × Files :=
  if fails = some .state then (.failed, files)
  else
    let files := { files with state := some state }
    match currentRulesView rt files isNative with
    | .ok (some view) =>
      if fails = some .active then (.failed, files)
      else (.done view, { files with active := some (activeOf view) })
    | _ => (.failed, files)

def Files.step (files : Files) : Event → Outcome × Files
  | .pull options fails =>
    match acceptPulledRules rt files options with
    | .error failure => (.refused failure, files)
    | .ok acceptance =>
      (if fails.isSome then .failed else .done acceptance.view, acceptance.write files fails)
  | .approve names isNative fails =>
    match approveRedirects rt files names isNative with
    | .error failure => (.refused failure, files)
    | .ok (_, state) => files.rewrite rt state isNative fails
  | .revoke name isNative fails =>
    match revokeRedirect files name with
    | .error failure => (.refused failure, files)
    | .ok state => files.rewrite rt state isNative fails

/-- The device, with what the user has approved on it, which of that stands, the versions and
ciphertexts of the pulls that returned, and which names were native when the active file was last
written. -/
structure Device where
  files : Files := {}
  approved : List (String × DnsRuleTarget) := []
  standing : List (String × DnsRuleTarget) := []
  accepted : List (ℕ × String) := []
  native : String → Bool := fun _ => false

namespace Device

variable (d : Device)

/-- The redirects that were pending under these names. -/
def granted (view : RulesView) (names : List String) : List (String × DnsRuleTarget) :=
  names.filterMap fun name => ((pendingOf view).get name).map (name, ·)

/-- A new rule set withdraws every approval of a redirect that it does not hold. -/
def onPull (options : PullOptions) (fails : Option File) : Device :=
  match acceptPulledRules rt d.files options with
  | .error _ => d
  | .ok acceptance =>
    { d with
      standing :=
        if fails = some .key ∨ fails = some .envelope then d.standing
        else d.standing.filter fun e => (.redirect e.1 e.2) ∈ acceptance.decrypted.1
      accepted :=
        if fails.isSome then d.accepted
        else d.accepted ++ [(options.record.version.val.val, options.record.envelope.ciphertext)] }

def onApprove (names : List String) (isNative : String → Bool) (fails : Option File) : Device :=
  match approveRedirects rt d.files names isNative with
  | .error _ => d
  | .ok (view, _) =>
    if fails = some .state then d
    else
      { d with
        approved := d.approved ++ granted view names
        standing := d.standing ++ granted view names }

def onRevoke (name : String) (fails : Option File) : Device :=
  match revokeRedirect d.files name with
  | .error _ => d
  | .ok _ =>
    if fails = some .state then d
    else { d with standing := d.standing.filter fun e => e.1 ≠ name }

/-- What is remembered of a call. -/
def note : Event → Device
  | .pull options fails => d.onPull rt options fails
  | .approve names isNative fails => d.onApprove rt names isNative fails
  | .revoke name _ fails => d.onRevoke name fails

def nativeOf : Event → String → Bool
  | .pull options _ => options.isNative
  | .approve _ isNative _ => isNative
  | .revoke _ isNative _ => isNative

/-- A call that returns has written the active file. -/
def lastNative (isNative : String → Bool) : Outcome → String → Bool
  | .done _ => isNative
  | _ => d.native

def step (e : Event) : Device :=
  { d.note rt e with
    files := (d.files.step rt e).2
    native := d.lastNative (nativeOf e) (d.files.step rt e).1 }

/-! ### What is claimed -/

/-- No key is replaced by another one that the passphrase gives. -/
def NoReset (e : Event) : Prop :=
  ∀ options fails acceptance, e = .pull options fails →
    acceptPulledRules rt d.files options = .ok acceptance → acceptance.reset = false

/-- No pull is cut off between the envelope and the state. -/
def Unbroken (e : Event) : Prop :=
  ∀ options fails acceptance, e = .pull options fails →
    acceptPulledRules rt d.files options = .ok acceptance → fails ≠ some .state

/-- Every approval is of one of these redirects, with its target. -/
def Within (approvals : OrderedMap String String) (redirects : List (String × DnsRuleTarget)) :
    Prop :=
  ∀ name text, approvals.get name = some text →
    ∃ target, text = describeDnsRuleTarget target ∧ (name, target) ∈ redirects

/-- What holds of any call, however the calls before it were cut off. -/
structure Kept (e : Event) : Prop where
  refused : ∀ options fails failure, e = .pull options fails →
    (d.files.step rt e).1 = .refused failure → (d.step rt e).files = d.files
  newest : ∀ options fails view, e = .pull options fails → (d.files.step rt e).1 = .done view →
    ∀ entry ∈ d.accepted, entry.1 ≤ options.record.version.val.val ∧
      (entry.1 = options.record.version.val.val →
        entry.2 = options.record.envelope.ciphertext)
  approved : ∀ active, (d.step rt e).files.active = some active → ∀ name target,
    DnsRule.redirect name target ∈ active.rules →
      (name, target) ∈ (d.step rt e).approved ∧ (d.step rt e).native name = false

/-- The envelope that is held is the newest, the approvals are those that stand, and so are the
redirects of a file that was just written. -/
structure Pinned (e : Event) : Prop where
  held : ∀ options fails view record, e = .pull options fails →
    (d.files.step rt e).1 = .done view → d.files.envelope = some record →
    record.version.val.val ≤ options.record.version.val.val ∧
      (record.version.val.val = options.record.version.val.val →
        record.envelope.ciphertext = options.record.envelope.ciphertext)
  gone : ∀ state, (d.step rt e).files.state = some state →
    Within state.approvals (d.step rt e).standing
  active : ∀ view, (d.files.step rt e).1 = .done view → ∀ name target,
    DnsRule.redirect name target ∈ view.active → (name, target) ∈ (d.step rt e).standing

end Device

end Tnp.Client.RulesStore
