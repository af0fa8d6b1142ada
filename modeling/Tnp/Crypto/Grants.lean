import Mathlib.Data.List.Sort
import Tnp.Crypto.Encoding
import Tnp.Crypto.Scope

/-!
Grants, and the walk along a chain of them.

A chain is leaf first: each grant authorizes the issuer of the one before it. The check of an
Ed25519 signature is a parameter.
-/

namespace Tnp.Crypto.Grants

open Tnp.Lib

inductive GrantPurpose
  | DELEGATE
  | SERVICE_NODE
  | DOMAIN_RECORDS
  | RELAY
  | CLIENT
  deriving DecidableEq, Repr

namespace GrantPurpose

def text : GrantPurpose → String
  | DELEGATE => "delegate"
  | SERVICE_NODE => "service-node"
  | DOMAIN_RECORDS => "domain-records"
  | RELAY => "relay"
  | CLIENT => "client"

def all : List GrantPurpose := [DELEGATE, SERVICE_NODE, DOMAIN_RECORDS, RELAY, CLIENT]

def ofText (s : String) : Option GrantPurpose := all.find? (·.text = s)

end GrantPurpose

def SCOPED_PURPOSES : List GrantPurpose := [.SERVICE_NODE, .DOMAIN_RECORDS, .RELAY]

inductive VerifyFailure
  | badSignature
  | notYetValid
  | expired
  | revoked
  | purposeNotGranted
  | scopeMismatch
  | scopeRequired
  | windowNotNested
  | chainBroken
  | chainTooLong
  | untrustedRoot
  | rolledBack
  | malformed
  deriving DecidableEq, Repr

def VerifyFailure.text : VerifyFailure → String
  | badSignature => "bad-signature"
  | notYetValid => "not-yet-valid"
  | expired => "expired"
  | revoked => "revoked"
  | purposeNotGranted => "purpose-not-granted"
  | scopeMismatch => "scope-mismatch"
  | scopeRequired => "scope-required"
  | windowNotNested => "window-not-nested"
  | chainBroken => "chain-broken"
  | chainTooLong => "chain-too-long"
  | untrustedRoot => "untrusted-root"
  | rolledBack => "rolled-back"
  | malformed => "malformed"

def MAX_CHAIN_DEPTH : ℕ := 4

def GRANT_CONTEXT : String := "tnp-grant-v2"

def GRANT_FIELDS : List String :=
  ["issuer", "subject", "purposes", "notBefore", "notAfter", "serial", "scope", "signature"]

/-! ### Parsing -/

/-- A grant after strict parsing. -/
structure ParsedGrant where
  issuer : PublicKey
  subject : PublicKey
  purposes : List GrantPurpose
  notBefore : SafeUint
  notAfter : SafeUint
  serial : SafeUint
  scope : Option String
  not_self_issued : issuer ≠ subject
  purposes_ne_nil : purposes ≠ []
  purposes_nodup : purposes.Nodup
  window : notBefore.val < notAfter.val
  scope_valid : ∀ s, scope = some s → isValidScope s = true
  scope_given : scope = none → .DELEGATE ∉ purposes → ∀ p ∈ purposes, p ∉ SCOPED_PURPOSES
  deriving DecidableEq

namespace ParsedGrant

variable (g : ParsedGrant)

def issuerHex : String := toHex g.issuer.val
def subjectHex : String := toHex g.subject.val

/-- The key of `knownSerials`. -/
def serialKey : String := g.issuerHex ++ "|" ++ g.subjectHex

end ParsedGrant

/-- The purposes of a grant, after those already read. -/
def parsePurposes (seen : List GrantPurpose) : List Value → Except EncodingError (List GrantPurpose)
  | [] => .ok seen
  | .string s :: rest =>
    match GrantPurpose.ofText s with
    | none => .error ⟨"grant has an unknown purpose"⟩
    | some p =>
      if p ∈ seen then .error ⟨"grant lists a purpose twice"⟩
      else parsePurposes (seen ++ [p]) rest
  | _ :: _ => .error ⟨"grant has an unknown purpose"⟩

lemma parsePurposes_spec {vs : List Value} {seen ps : List GrantPurpose} (hseen : seen.Nodup)
    (h : parsePurposes seen vs = .ok ps) : ps.Nodup ∧ ps.length = seen.length + vs.length := by
  induction vs generalizing seen with
  | nil => exact Except.ok.inj h ▸ ⟨hseen, rfl⟩
  | cons v vs ih =>
    cases v with
    | string s =>
      unfold parsePurposes at h
      split at h
      · simp at h
      next p hp =>
      split at h
      · simp at h
      next hnew =>
      have hadd : (seen ++ [p]).Nodup := by
        rw [List.nodup_append]
        refine ⟨hseen, by simp, ?_⟩
        rintro a ha b hb rfl
        exact hnew (List.mem_singleton.mp hb ▸ ha)
      obtain ⟨hnodup, hlength⟩ := ih hadd h
      refine ⟨hnodup, ?_⟩
      simp only [List.length_append, List.length_cons, List.length_nil] at *
      omega
    | _ => simp [parsePurposes] at h

/-- `scope`, when it is there. -/
def parseScope (v : Value) : Except EncodingError {s : Option String // ∀ t, s = some t →
    isValidScope t = true} :=
  match v with
  | .undefined => .ok ⟨none, by simp⟩
  | .string s =>
    if h : isValidScope s = true then .ok ⟨some s, by simp [h]⟩
    else .error ⟨"scope is not a canonical name"⟩
  | _ => .error ⟨"scope is not a canonical name"⟩

def keyField (v : Value) : Except EncodingError PublicKey :=
  match v with
  | .string s => parsePublicKey (.text s)
  | _ => .error ⟨"issuer and subject must be base64 strings"⟩

def isText : Value → Bool
  | .string _ => true
  | _ => false

def parseUnsigned (grant : Value) (allowSignature : Bool) : Except EncodingError ParsedGrant :=
  match grant with
  | .object fields => do
    if fields.any fun f => !(GRANT_FIELDS.contains f.1) || (f.1 == "signature" && !allowSignature)
    then .error ⟨"grant has an unexpected field"⟩
    let g := Value.field fields
    if !isText (g "issuer") || !isText (g "subject") then
      .error ⟨"issuer and subject must be base64 strings"⟩
    let issuer ← keyField (g "issuer")
    let subject ← keyField (g "subject")
    if hself : issuer = subject then .error ⟨"grant is self-issued"⟩
    else
      match g "purposes" with
      | .array (item :: items) =>
        match hpurposes : parsePurposes [] (item :: items) with
        | .error e => .error e
        | .ok purposes => do
          let notBefore ← assertUint (g "notBefore") "notBefore"
          let notAfter ← assertUint (g "notAfter") "notAfter"
          let serial ← assertUint (g "serial") "serial"
          if hwindow : notAfter.val ≤ notBefore.val then
            .error ⟨"validity window is empty or inverted"⟩
          else do
            let scope ← parseScope (g "scope")
            if hscope : scope.val = none ∧ .DELEGATE ∉ purposes ∧
                ∃ p ∈ purposes, p ∈ SCOPED_PURPOSES then
              .error ⟨"a non-delegating grant with a scoped purpose requires a scope"⟩
            else
              .ok {
                issuer, subject, purposes, notBefore, notAfter, serial
                scope := scope.val
                not_self_issued := hself
                purposes_ne_nil := by
                  have := (parsePurposes_spec List.nodup_nil hpurposes).2
                  rintro rfl
                  simp at this
                purposes_nodup := (parsePurposes_spec List.nodup_nil hpurposes).1
                window := by omega
                scope_valid := scope.property
                scope_given := fun hs hd p hp hm => hscope ⟨hs, hd, p, hp, hm⟩ }
      | _ => .error ⟨"grant has no purposes"⟩
  | _ => .error ⟨"grant must be an object"⟩

/-- What is signed. -/
def encodeParsed (g : ParsedGrant) : Bytes :=
  let purposes := (g.purposes.map GrantPurpose.text).insertionSort (· ≤ ·)
  ({} : CanonicalWriter)
    |>.string GRANT_CONTEXT
    |>.fixed g.issuer
    |>.fixed g.subject
    |>.string (",".intercalate purposes)
    |>.uint g.notBefore
    |>.uint g.notAfter
    |>.uint g.serial
    |>.string (g.scope.getD "")
    |>.finish

/-! ### Verifying -/

structure VerifiedChain where
  purposes : List GrantPurpose
  subject : PublicKey
  scope : Option String
  notBefore : SafeUint
  notAfter : SafeUint
  serials : List (String × SafeUint)
  deriving DecidableEq

structure Failure where
  reason : VerifyFailure
  detail : String
  deriving DecidableEq, Repr

abbrev VerifyResult := Except Failure VerifiedChain

structure VerifyOptions where
  trustedRoots : List KeyInput
  now : ℚ
  revoked : List KeyInput := []
  knownSerials : String → Option ℚ := fun _ => none
  requirePurpose : GrantPurpose
  requireScope : Option String := none

/-- The caller's lists and clock, once checked. -/
structure Context where
  roots : List PublicKey
  now : SafeUint
  revoked : List PublicKey
  knownSerials : String → Option ℚ

/-- `nacl.sign.detached.verify`: of a message, a signature and a public key. -/
abbrev Verifier := Bytes → Bytes → Bytes → Bool

abbrev Link := ParsedGrant × Bytes

def parseLink (grant : Value) : Except EncodingError Link := do
  let parsed ← parseUnsigned grant true
  let signature ← match grant with
    | .object fields => decodeBase64Strict (Value.field fields "signature") (some SIGNATURE_LENGTH)
    | _ => .error ⟨"expected a base64 string"⟩
  .ok (parsed, signature)

def parseLinks : ℕ → List Value → Except Failure (List Link)
  | _, [] => .ok []
  | i, grant :: rest =>
    match parseLink grant with
    | .error e => .error ⟨.malformed, s!"grant {i}: {e.message}"⟩
    | .ok link => do
      let links ← parseLinks (i + 1) rest
      .ok (link :: links)

variable (verify : Verifier) (c : Context)

/-- What is checked of grant `i` by itself. -/
def checkGrant (i : ℕ) (link : Link) : Except Failure Unit :=
  let grant := link.1
  if (c.revoked.map fun k => toHex k.val).contains grant.subjectHex then
    .error ⟨.revoked, s!"grant {i} subject is revoked"⟩
  else if (c.revoked.map fun k => toHex k.val).contains grant.issuerHex then
    .error ⟨.revoked, s!"grant {i} issuer is revoked"⟩
  else if c.now.val < grant.notBefore.val then
    .error ⟨.notYetValid, s!"grant {i} is not valid yet"⟩
  else if grant.notAfter.val ≤ c.now.val then .error ⟨.expired, s!"grant {i} expired"⟩
  else if let some seen := (c.knownSerials grant.serialKey).filter fun seen =>
      (grant.serial.val : ℚ) < seen then
    .error ⟨.rolledBack,
      s!"grant {i} serial {grant.serial.val} is below the highest seen ({seen})"⟩
  else if !verify (encodeParsed grant) link.2 grant.issuer.val then
    .error ⟨.badSignature, s!"grant {i} signature does not verify"⟩
  else .ok ()

/-- What is checked between grant `i` and the grant below it. -/
def checkNarrows (i : ℕ) (child grant : ParsedGrant) : Except Failure Unit :=
  if grant.subject ≠ child.issuer then
    .error ⟨.chainBroken, s!"grant {i} does not authorize the issuer of grant {i - 1}"⟩
  else if !grant.purposes.contains .DELEGATE then
    .error ⟨.purposeNotGranted, s!"grant {i} authorizes a key that signs other grants, but " ++
      "does not carry the delegate purpose"⟩
  else
    match child.purposes.find? fun p => !grant.purposes.contains p with
    | some p =>
      .error ⟨.purposeNotGranted, s!"grant {i - 1} claims {p.text}, which its issuer lacks"⟩
    | none =>
      if grant.scope.any fun outer => !child.scope.any fun inner => scopeCovers outer inner then
        .error ⟨.scopeMismatch, s!"grant {i - 1} is not within its issuer's scope"⟩
      else if child.notBefore.val < grant.notBefore.val ∨ grant.notAfter.val < child.notAfter.val
      then
        .error ⟨.windowNotNested, s!"grant {i - 1} outlives or predates its issuer's grant"⟩
      else .ok ()

/-- The walk from grant `i` on, above `child`. -/
def checkLinks : ℕ → Option ParsedGrant → List Link → Except Failure Unit
  | _, _, [] => .ok ()
  | i, child, link :: rest => do
    checkGrant verify c i link
    match child with
    | none => pure ()
    | some child => checkNarrows i child link.1
    checkLinks (i + 1) (some link.1) rest

/-- `verifyChainCore`, after the caller's lists and clock were checked. -/
def verifyLinks (requirePurpose : GrantPurpose) (chain : List Value) : VerifyResult := do
  if chain.isEmpty then .error ⟨.malformed, "empty chain"⟩
  if MAX_CHAIN_DEPTH < chain.length then
    .error ⟨.chainTooLong,
      s!"chain of {chain.length} exceeds MAX_CHAIN_DEPTH ({MAX_CHAIN_DEPTH})"⟩
  let links ← parseLinks 0 chain
  checkLinks verify c 0 none links
  match links.head?, links.getLast? with
  | some (leaf, _), some (root, _) =>
    if ¬ (leaf.subjectHex :: links.map fun l => l.1.issuerHex).Nodup then
      .error ⟨.malformed, "a key repeats in the chain"⟩
    else if !(c.roots.map fun k => toHex k.val).contains root.issuerHex then
      .error ⟨.untrustedRoot, "chain does not terminate at a trusted root"⟩
    else if !leaf.purposes.contains requirePurpose then
      .error ⟨.purposeNotGranted, s!"leaf does not carry the {requirePurpose.text} purpose"⟩
    else
      .ok {
        purposes := leaf.purposes
        subject := leaf.subject
        scope := leaf.scope
        notBefore := leaf.notBefore
        notAfter := leaf.notAfter
        serials := links.map fun l => (l.1.serialKey, l.1.serial) }
  | _, _ => .error ⟨.malformed, "empty chain"⟩

def context (options : VerifyOptions) : Except EncodingError Context :=
  match safeUint options.now with
  | none => .error ⟨"now must be a non-negative integer number of seconds"⟩
  | some now => do
    let roots ← options.trustedRoots.mapM parsePublicKey
    let revoked ← options.revoked.mapM parsePublicKey
    .ok ⟨roots, now, revoked, options.knownSerials⟩

def verifyChainCore (chain : List Value) (options : VerifyOptions) :
    Except EncodingError VerifyResult := do
  let c ← context options
  .ok (verifyLinks verify c options.requirePurpose chain)

def verifyChain (chain : List Value) (options : VerifyOptions) :
    Except EncodingError VerifyResult :=
  if (options.requireScope.isSome || SCOPED_PURPOSES.contains options.requirePurpose) &&
      !options.requireScope.any isValidScope then
    .ok (.error ⟨.scopeRequired,
      s!"verifying {options.requirePurpose.text} requires a canonical requireScope"⟩)
  else
    match verifyChainCore verify chain options with
    | .error e => .error e
    | .ok (.error f) => .ok (.error f)
    | .ok (.ok result) =>
      if options.requireScope.isSome && decide (result.scope ≠ options.requireScope) then
        .ok (.error ⟨.scopeMismatch, "leaf is not scoped to the requested name"⟩)
      else .ok (.ok result)

end Tnp.Crypto.Grants
