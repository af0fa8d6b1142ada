import Tnp.Registry.Records
import Tnp.SharedTypes.ServiceNodes

/-!
What the registry answers for a name, and whether it serves the parking page for it.

Both are functions of the facts that were loaded, a clock and two settings. DNS asks for the one and
the web for the other, and they agree.
-/

namespace Tnp.Registry

open Tnp.Lib Tnp.Crypto Tnp.Namespace Tnp.SharedTypes

def PARKING_TTL_SECONDS : ℤ := 300
def SERVICE_NODE_STALE_AFTER_MS : ℤ := 90000

/-- A row of `service_nodes`, as resolution reads it. -/
structure ServiceNodeFacts where
  publicKey : String
  connectedRelay : String
  status : ServiceNodeStatus
  lastSeen : ℤ
  chain : List Value
  kaCert : Option Value
  relayBinding : Option Value

structure ResolutionSettings where
  /-- Empty when unset. -/
  parkingIp : String
  expiryEnforced : Bool
  now : ℤ

structure DnsResolveAnswer where
  name : String
  type : String
  value : String
  ttl : ℤ
  deriving DecidableEq

inductive DnsResolveRcode
  | NOERROR
  | NXDOMAIN
  deriving DecidableEq, Repr

structure DnsResolveResponse where
  name : String
  type : String
  answers : List DnsResolveAnswer
  overlay : Option DnsResolveOverlay := none
  rcode : DnsResolveRcode

def isServiceNodeOnline (node : Option ServiceNodeFacts) (now : ℤ) : Bool :=
  node.any fun node =>
    node.status = .online && decide (now - node.lastSeen ≤ SERVICE_NODE_STALE_AFTER_MS)

/-- The certificate is one that has ended. -/
def hasEnded (kaCert : Value) (now : ℤ) : Bool :=
  match kaCert.get "notAfter" with
  | .number notAfter => decide (notAfter ≤ (now / 1000 : ℤ))
  | _ => false

/-- The block for an online node, where a client could use it. -/
def overlayFor (domain : Domain) (node : ServiceNodeFacts) (now : ℤ) : Option DnsResolveOverlay :=
  match domain.domainKey.filter (· ≠ ""), node.kaCert with
  | some domainKey, some kaCert =>
    if node.chain.isEmpty || hasEnded kaCert now then none
    else
      some {
        relay := node.connectedRelay
        available := true
        domainKey
        rotations := domain.domainKeyRotations
        chain := node.chain
        kaCert
        relayBinding := node.relayBinding.filter fun binding =>
          textField binding "endpoint" = some node.connectedRelay
        keyReset :=
          match domain.domainKeyResetFrom.filter (· ≠ ""), domain.domainKeyResetAt with
          | some previousKeyFingerprint, some resetAt =>
            some ⟨previousKeyFingerprint, toISOString resetAt⟩
          | _, _ => none }
  | _, _ => none

/-- The name is registered, and withheld because it expired and that is enforced. -/
def isHeld (expiresAt : Option ℤ) (settings : ResolutionSettings) : Bool :=
  settings.expiryEnforced && !isNativeNameServed (nativeExpiryState expiresAt settings.now)

def RecordFacts.answer (fqdn : String) (record : RecordFacts) : DnsResolveAnswer :=
  ⟨fqdn, record.type.text, record.value, record.ttl⟩

/-- The address that is synthesized, for the types that ask for one. -/
def parkingAnswers (fqdn qtype : String) (settings : ResolutionSettings) : List DnsResolveAnswer :=
  if settings.parkingIp ≠ "" ∧ (qtype = "A" ∨ qtype = "ANY") then
    [⟨fqdn, "A", settings.parkingIp, PARKING_TTL_SECONDS⟩]
  else []

/-- The records that answer a query. A name with a CNAME answers any other type with that. -/
def matching (records : List RecordFacts) (qtype : String) : List RecordFacts :=
  let ofType := if qtype = "ANY" then records else records.filter fun r => r.type.text = qtype
  if ofType.isEmpty && qtype ≠ "CNAME" then records.filter fun r => r.type.text = "CNAME"
  else ofType

def decideResolution (facts : NameFacts ServiceNodeFacts) (qtype : String)
    (settings : ResolutionSettings) : DnsResolveResponse :=
  match facts with
  | .notNative fqdn => { name := fqdn, type := qtype, answers := [], rcode := .NXDOMAIN }
  | .native fqdn tldCustom domain =>
    let nxdomain : DnsResolveResponse :=
      { name := fqdn, type := qtype, answers := [], rcode := .NXDOMAIN }
    let noerror (answers : List DnsResolveAnswer) (overlay : Option DnsResolveOverlay) :
        DnsResolveResponse := { name := fqdn, type := qtype, answers, overlay, rcode := .NOERROR }
    let parking := parkingAnswers fqdn qtype settings
    match domain.filter fun domain => !isHeld domain.row.expiresAt settings with
    | none =>
      if !tldCustom || settings.parkingIp = "" then nxdomain else noerror parking none
    | some domain =>
      let nodeOnline := isServiceNodeOnline domain.node settings.now
      let overlay :=
        if nodeOnline then domain.node.bind fun node => overlayFor domain.row node settings.now
        else none
      let records := matching domain.records qtype
      if !records.isEmpty then noerror (records.map (·.answer fqdn)) overlay
      else if domain.records.isEmpty && !nodeOnline then
        if settings.parkingIp ≠ "" then noerror parking none
        else if domain.label = "@" || domain.hasDescendants then noerror [] none
        else nxdomain
      else noerror [] overlay

inductive ParkingPage
  | available
  | registered
  | held
  deriving DecidableEq, Repr

def decideParkingPage (facts : NameFacts ServiceNodeFacts) (settings : ResolutionSettings) :
    Option ParkingPage :=
  match facts with
  | .notNative _ => none
  | .native _ tldCustom none => if tldCustom then some .available else none
  | .native _ _ (some domain) =>
    if isHeld domain.row.expiresAt settings then some .held
    else if isServiceNodeOnline domain.node settings.now then none
    else some .registered

/-! ### Agreement -/

def NameFacts.fqdn : NameFacts ServiceNodeFacts → String
  | .notNative fqdn => fqdn
  | .native fqdn _ _ => fqdn

/-- The name is registered and not held, with these facts. -/
def Serves (facts : NameFacts ServiceNodeFacts) (settings : ResolutionSettings) (fqdn : String)
    (domain : DomainFacts ServiceNodeFacts) : Prop :=
  ∃ tldCustom, facts = .native fqdn tldCustom (some domain) ∧
    isHeld domain.row.expiresAt settings = false

/-- The answer is a record of a name that is served. -/
def IsStored (facts : NameFacts ServiceNodeFacts) (settings : ResolutionSettings)
    (answer : DnsResolveAnswer) : Prop :=
  ∃ fqdn domain, Serves facts settings fqdn domain ∧
    ∃ record ∈ domain.records, answer = record.answer fqdn

lemma mem_of_mem_matching {records : List RecordFacts} {qtype : String} {record : RecordFacts}
    (h : record ∈ matching records qtype) : record ∈ records := by
  unfold matching at h
  dsimp only at h
  split at h
  · split at h
    · exact List.mem_of_mem_filter h
    · exact h
  · split at h
    · exact List.mem_of_mem_filter h
    · exact List.mem_of_mem_filter h

/-- A name of which there is nothing: no name of ours, or nothing where its label is. -/
def IsMissing (facts : NameFacts ServiceNodeFacts) (settings : ResolutionSettings) : Prop :=
  match facts with
  | .notNative _ => True
  | .native _ tldCustom domain =>
    match domain.filter fun domain => !isHeld domain.row.expiresAt settings with
    | none => tldCustom = false ∨ settings.parkingIp = ""
    | some domain =>
      domain.records = [] ∧ isServiceNodeOnline domain.node settings.now = false ∧
        settings.parkingIp = "" ∧ domain.label ≠ "@" ∧ domain.hasDescendants = false

variable {facts : NameFacts ServiceNodeFacts} {settings : ResolutionSettings} {qtype : String}

lemma filter_held {domain : Option (DomainFacts ServiceNodeFacts)}
    {served : DomainFacts ServiceNodeFacts}
    (h : (domain.filter fun domain => !isHeld domain.row.expiresAt settings) = some served) :
    domain = some served ∧ isHeld served.row.expiresAt settings = false := by
  obtain ⟨hdomain, hheld⟩ := Option.filter_eq_some_iff.mp h
  exact ⟨hdomain, by simpa using hheld⟩

/-- Whether there is such a name does not depend on the type that is asked for. -/
lemma rcode_eq_nxdomain_iff :
    (decideResolution facts qtype settings).rcode = .NXDOMAIN ↔ IsMissing facts settings := by
  unfold decideResolution IsMissing
  cases facts with
  | notNative fqdn => simp
  | native fqdn tldCustom domain =>
    dsimp only
    split
    next => split <;> simp_all
    next served hserved =>
      split
      next hmatching =>
        have hne : served.records ≠ [] := by
          intro hnil
          obtain ⟨record, hmem⟩ := List.exists_mem_of_ne_nil _ (by simpa using hmatching)
          simpa [hnil] using mem_of_mem_matching hmem
        simp [hne]
      next =>
      split
      next hquiet =>
        obtain ⟨hnil, hoffline⟩ : served.records = [] ∧
            isServiceNodeOnline served.node settings.now = false := by simpa using hquiet
        split
        next hparking => simp [hparking]
        next hparking =>
          rw [not_not] at hparking
          split
          next hexists =>
            rw [Bool.or_eq_true, decide_eq_true_eq] at hexists
            rcases hexists with hlabel | hbelow
            · simp [hlabel]
            · simp [hbelow]
          next hexists => simp_all
      next hquiet =>
        simp only [reduceCtorEq, false_iff]
        rintro ⟨hnil, hoffline, -⟩
        simp [hnil, hoffline] at hquiet

/-- What answers comes from the records of a name that is served, or was synthesized. -/
lemma answer_cases {answer : DnsResolveAnswer}
    (h : answer ∈ (decideResolution facts qtype settings).answers) :
    IsStored facts settings answer ∨
      answer ∈ parkingAnswers facts.fqdn qtype settings ∧
        (decideParkingPage facts settings).isSome := by
  unfold decideResolution at h
  cases facts with
  | notNative fqdn => simp at h
  | native fqdn tldCustom domain =>
    dsimp only at h
    split at h
    next hnone =>
      split at h
      · simp at h
      · next hset =>
        refine .inr ⟨h, ?_⟩
        have hcustom : tldCustom = true := by simp at hset; exact hset.1
        unfold decideParkingPage
        cases domain with
        | none => simp [hcustom]
        | some domain =>
          have hheld : isHeld domain.row.expiresAt settings = true := by simpa using hnone
          simp [hheld]
    next served hserved =>
      obtain ⟨rfl, hheld⟩ := filter_held hserved
      split at h
      next hmatching =>
        obtain ⟨record, hmem, rfl⟩ := List.mem_map.mp h
        exact .inl ⟨fqdn, served, ⟨tldCustom, rfl, hheld⟩, record, mem_of_mem_matching hmem, rfl⟩
      next hmatching =>
      split at h
      next hquiet =>
        split at h
        next hparking =>
          refine .inr ⟨h, ?_⟩
          have hoffline : isServiceNodeOnline served.node settings.now = false := by
            simp at hquiet
            exact hquiet.2
          simp [decideParkingPage, hheld, hoffline]
        next => split at h <;> simp at h
      next => simp at h

/-- The block is only that of a node that is online, of a name that is served. -/
lemma online_of_overlay (h : (decideResolution facts qtype settings).overlay.isSome) :
    ∃ fqdn domain, Serves facts settings fqdn domain ∧
      isServiceNodeOnline domain.node settings.now = true := by
  unfold decideResolution at h
  cases facts with
  | notNative fqdn => simp at h
  | native fqdn tldCustom domain =>
    dsimp only at h
    split at h
    next => split at h <;> simp at h
    next served hserved =>
      obtain ⟨rfl, hheld⟩ := filter_held hserved
      refine ⟨fqdn, served, ⟨tldCustom, rfl, hheld⟩, ?_⟩
      by_contra hoffline
      rw [Bool.not_eq_true] at hoffline
      rw [hoffline] at h
      simp only [Bool.false_eq_true, if_false] at h
      split at h
      · simp at h
      split at h
      · split at h
        · simp at h
        · split at h <;> simp at h
      · simp at h

/-- **Resolution agrees with itself and with the parking page.** -/
theorem resolution_consistent (facts : NameFacts ServiceNodeFacts)
    (settings : ResolutionSettings) :
    (∀ qtype qtype', (decideResolution facts qtype settings).rcode = .NXDOMAIN ↔
      (decideResolution facts qtype' settings).rcode = .NXDOMAIN) ∧
    (∀ qtype fqdn domain, Serves facts settings fqdn domain →
      isServiceNodeOnline domain.node settings.now = true ∨ domain.records ≠ [] →
        (decideResolution facts qtype settings).rcode ≠ .NXDOMAIN) ∧
    (∀ qtype, (decideResolution facts qtype settings).overlay.isSome →
      ∃ fqdn domain, Serves facts settings fqdn domain ∧
        isServiceNodeOnline domain.node settings.now = true) ∧
    ∀ qtype, ∀ answer ∈ (decideResolution facts qtype settings).answers,
      ¬ IsStored facts settings answer →
        answer = ⟨facts.fqdn, "A", settings.parkingIp, PARKING_TTL_SECONDS⟩ ∧
          (decideParkingPage facts settings).isSome := by
  refine ⟨fun qtype qtype' => ?_, ?_, fun qtype => online_of_overlay, ?_⟩
  · rw [rcode_eq_nxdomain_iff, rcode_eq_nxdomain_iff]
  · rintro qtype fqdn domain ⟨tldCustom, rfl, hheld⟩ hthere hmissing
    have hnothing := rcode_eq_nxdomain_iff.mp hmissing
    simp only [IsMissing, Option.filter_some, hheld, Bool.not_false, if_true] at hnothing
    obtain ⟨hnil, hoffline, -⟩ := hnothing
    rcases hthere with honline | hne
    · exact absurd honline (by rw [hoffline]; exact Bool.false_ne_true)
    · exact hne hnil
  · intro qtype answer hmem hstored
    obtain ⟨hparking, hpage⟩ := (answer_cases hmem).resolve_left hstored
    refine ⟨?_, hpage⟩
    unfold parkingAnswers at hparking
    split at hparking
    · exact List.mem_singleton.mp hparking
    · simp at hparking

end Tnp.Registry
