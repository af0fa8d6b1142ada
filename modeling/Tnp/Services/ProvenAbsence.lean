import Tnp.Services.NamecheapClient

/-!
When a failed call shows that the provider applied nothing.

Every exit behind the request is an unknown outcome but one: an answer that reports errors. Its
errors are read under one spelling of one element, and a number that names an inherited property
is taken for a known one; a number that is so overlooked is not seen to contradict the refusal.
-/

namespace Tnp.Services

open Tnp.Crypto Tnp.Lib Tnp.Namespace
open Tnp.Operations (ProviderErrorCode)

/-! ### What an answer reports -/

section Answer

variable (rt : XmlRuntime)

def itemsAt (node : XmlNode) (key : JsString) : List XmlNode :=
  ((node.lookup key).map itemsOf).getD []

/-- The keys of the elements with a name, in any spelling. -/
def spellings (node : XmlNode) (name : JsString) : List JsString :=
  (node.map Prod.fst).filter fun key =>
    rt.lower key = rt.lower name && !ATTR_PREFIX.isPrefixOf key

/-- Every element with a name. -/
def elements (node : XmlNode) (name : JsString) : List XmlNode :=
  (spellings rt node name).flatMap (itemsAt node)

/-- The elements under another spelling than the one that is read. -/
def otherElements (node : XmlNode) (name : JsString) : List XmlNode :=
  ((spellings rt node name).filter fun key => findKey rt node name ≠ some key).flatMap
    (itemsAt node)

/-- Every error of an answer. -/
def errorsOf (apiResponse : XmlNode) : List XmlNode :=
  (elements rt apiResponse (units "Errors")).flatMap fun node => elements rt node (units "Error")

/-- The errors that are not read. -/
def unreadErrors (apiResponse : XmlNode) : List XmlNode :=
  ((children rt apiResponse (units "Errors")).tail ++
      otherElements rt apiResponse (units "Errors")).flatMap
    (fun node => elements rt node (units "Error")) ++
  (child rt apiResponse (units "Errors")).toList.flatMap
    fun node => otherElements rt node (units "Error")

/-- A number that belongs to a refusal. -/
def RefusalNumber (number : JsString) : Prop :=
  beginsWith "12" number = true ∨ number ∈ MUTATION_REFUSALS

/-- A number after which nothing is known: of the provider's side, or in no table. -/
def OutcomeUnknown (number : JsString) : Prop :=
  beginsWith "345" number = true ∧ number ∉ MUTATION_REFUSALS ∨
    number ∉ OBJECT_PROTOTYPE ∧ ERROR_NUMBERS.entries.lookup number = none ∧
      beginsWith "12" number = false

/-- An error whose own code is a refusal. -/
def RefusesAlone (entry : XmlNode) : Prop :=
  numberOf rt entry ∉ OBJECT_PROTOTYPE ∧
    documentedCode (numberOf rt entry) (descriptionOf rt entry) true ∈ REFUSALS

/--
The errors that are read tell of a refusal, and one is overlooked: a later one whose number is an
inherited name, or one that is not read and belongs to no refusal.
-/
def Overlooks (apiResponse : XmlNode) : Prop :=
  ∃ first later, readErrors rt apiResponse = first :: later ∧ RefusesAlone rt first ∧
    (∀ entry ∈ later, ¬ OutcomeUnknown (numberOf rt entry)) ∧
    ((∃ entry ∈ later, numberOf rt entry ∈ OBJECT_PROTOTYPE) ∨
      ∃ entry ∈ unreadErrors rt apiResponse, ¬ RefusalNumber (numberOf rt entry))

variable {rt} {node : XmlNode} {name : JsString}

lemma lower_of_findKey {key : JsString} (h : findKey rt node name = some key) :
    key ∈ node.map Prod.fst ∧ rt.lower key = rt.lower name := by
  unfold findKey at h
  split at h
  · next hsome =>
    cases h
    obtain ⟨value, hvalue⟩ := Option.isSome_iff_exists.mp hsome
    exact ⟨List.mem_map.mpr ⟨_, ObjectLiteral.mem_of_lookup hvalue, rfl⟩, rfl⟩
  · exact ⟨List.mem_of_find?_eq_some h, by simpa using List.find?_some h⟩

/-- What is read, and what is not, is together every element with the name. -/
lemma mem_elements_iff {x : XmlNode} :
    x ∈ elements rt node name ↔ x ∈ children rt node name ∨ x ∈ otherElements rt node name := by
  have hread : x ∈ children rt node name ↔ ∃ key, findKey rt node name = some key ∧
      ATTR_PREFIX.isPrefixOf key = false ∧ x ∈ itemsAt node key := by
    unfold children
    cases hkey : findKey rt node name with
    | none => simp
    | some key => by_cases hattr : ATTR_PREFIX.isPrefixOf key = true <;> simp [hattr, itemsAt]
  rw [hread]
  constructor
  · intro h
    obtain ⟨key, hkey, hx⟩ := List.mem_flatMap.mp h
    by_cases hfind : findKey rt node name = some key
    · have hattr : ATTR_PREFIX.isPrefixOf key = false := by
        simpa using (Bool.and_eq_true_iff.mp (List.mem_filter.mp hkey).2).2
      exact .inl ⟨key, hfind, hattr, hx⟩
    · exact .inr (List.mem_flatMap.mpr ⟨key, List.mem_filter.mpr ⟨hkey, by simpa using hfind⟩, hx⟩)
  · rintro (⟨key, hfind, hattr, hx⟩ | h)
    · obtain ⟨hmem, hlower⟩ := lower_of_findKey hfind
      exact List.mem_flatMap.mpr ⟨key, List.mem_filter.mpr ⟨hmem, by simp [hlower, hattr]⟩, hx⟩
    · obtain ⟨key, hkey, hx⟩ := List.mem_flatMap.mp h
      exact List.mem_flatMap.mpr ⟨key, (List.mem_filter.mp hkey).1, hx⟩

/-- Every error is read or is not. -/
lemma mem_errorsOf_iff {apiResponse entry : XmlNode} : entry ∈ errorsOf rt apiResponse ↔
    entry ∈ readErrors rt apiResponse ∨ entry ∈ unreadErrors rt apiResponse := by
  have hchild : ∀ x, x ∈ children rt apiResponse (units "Errors") ↔
      child rt apiResponse (units "Errors") = some x ∨
        x ∈ (children rt apiResponse (units "Errors")).tail := by
    intro x
    unfold child
    cases children rt apiResponse (units "Errors") with
    | nil => simp
    | cons first more => simp [eq_comm]
  unfold errorsOf unreadErrors readErrors
  simp only [List.mem_flatMap, List.mem_append, Option.mem_toList]
  constructor
  · rintro ⟨node, hnode, hentry⟩
    rcases mem_elements_iff.mp hnode with hread | hother
    · rcases (hchild node).mp hread with hfirst | hmore
      · rcases mem_elements_iff.mp hentry with h | h
        · left
          rw [hfirst]
          exact h
        · exact .inr (.inr ⟨node, hfirst, h⟩)
      · exact .inr (.inl ⟨node, .inl hmore, hentry⟩)
    · exact .inr (.inl ⟨node, .inr hother, hentry⟩)
  · rintro (h | ⟨node, hnode, hentry⟩ | ⟨node, hnode, hentry⟩)
    · split at h
      · next node hfirst =>
        exact ⟨node, mem_elements_iff.mpr (.inl ((hchild node).mpr (.inl hfirst))),
          mem_elements_iff.mpr (.inl h)⟩
      · cases h
    · rcases hnode with hmore | hother
      · exact ⟨node, mem_elements_iff.mpr (.inl ((hchild node).mpr (.inr hmore))), hentry⟩
      · exact ⟨node, mem_elements_iff.mpr (.inr hother), hentry⟩
    · exact ⟨node, mem_elements_iff.mpr (.inl ((hchild node).mpr (.inl hnode))),
        mem_elements_iff.mpr (.inr hentry)⟩

end Answer

/-! ### Numbers -/

lemma errorNumbers_known : ∀ e ∈ ERROR_NUMBERS.entries,
    (beginsWith "12" e.1 = true ∨ beginsWith "345" e.1 = true) ∧ e.2 ≠ .unknownOutcome := by
  decide

lemma refinedCode_ne_unknown {number description : JsString} {code : ProviderErrorCode}
    (h : code ≠ .unknownOutcome) : refinedCode number code description ≠ .unknownOutcome := by
  unfold refinedCode
  split_ifs
  · decide
  · decide
  · exact h

/-- The numbers with an unknown outcome are those that are classified so. -/
lemma classify_unknown_iff {number description : JsString} :
    (classifyErrorNumber number description true).code = .own .unknownOutcome ↔
      OutcomeUnknown number := by
  unfold OutcomeUnknown
  by_cases hproto : number ∈ OBJECT_PROTOTYPE
  · have hside : beginsWith "345" number = false := by
      cases hb : beginsWith "345" number with
      | false => rfl
      | true =>
        have hmore : beginsWith "12345" number = true := beginsWith_mono (by decide) hb
        exact absurd hmore (by rw [(prototype_names number hproto).2.2]; decide)
    rw [classify_inherited hproto]
    simp [hproto, hside]
  · rw [classify_of_not_inherited hproto]
    unfold documentedCode
    cases hlookup : ERROR_NUMBERS.entries.lookup number with
    | none =>
      by_cases hside : beginsWith "345" number = true ∧ number ∉ MUTATION_REFUSALS
      · simp [hside]
      · by_cases hb : beginsWith "12" number = true
        · simp_all
        · simp [hproto, hb]
    | some code =>
      have hknown := (errorNumbers_known _ (ObjectLiteral.mem_of_lookup hlookup)).2
      have hrefined : refinedCode number code description ≠ .unknownOutcome :=
        refinedCode_ne_unknown hknown
      by_cases hside : beginsWith "345" number = true ∧ number ∉ MUTATION_REFUSALS
      · simp [hside]
      · simp_all

/-- A number that leaves nothing unknown belongs to a refusal, unless it is an inherited name. -/
lemma refusal_of_not_unknown {number : JsString} (h : ¬ OutcomeUnknown number)
    (hproto : number ∉ OBJECT_PROTOTYPE) : RefusalNumber number := by
  unfold OutcomeUnknown at h
  unfold RefusalNumber
  push Not at h
  obtain ⟨hside, htable⟩ := h
  by_cases hb : beginsWith "12" number = true
  · exact .inl hb
  · right
    cases hlookup : ERROR_NUMBERS.entries.lookup number with
    | none => exact absurd (htable hproto hlookup) (by simpa using hb)
    | some code =>
      rcases (errorNumbers_known _ (ObjectLiteral.mem_of_lookup hlookup)).1 with h12 | h345
      · exact absurd h12 hb
      · exact hside h345

lemma not_refusal_of_inherited {number : JsString} (h : number ∈ OBJECT_PROTOTYPE) :
    ¬ RefusalNumber number := by
  have hplain : ∀ name ∈ OBJECT_PROTOTYPE, beginsWith "12" name = false ∧
      name ∉ MUTATION_REFUSALS := by decide
  obtain ⟨hb, hmem⟩ := hplain number h
  simp [RefusalNumber, hb, hmem]

/-! ### Errors and their messages -/

/-- A secret that redaction can look for in its encoded form. -/
def Redactable (secrets : List JsString) : Prop :=
  ∀ secret ∈ secrets, 4 ≤ secret.length → (encodeURIComponent secret).isSome = true

lemma redact_isSome (text : JsString) (secrets : List JsString) :
    (redact text secrets).isSome = true ↔ Redactable secrets := by
  unfold Redactable
  induction secrets generalizing text with
  | nil => simp [redact]
  | cons secret secrets ih =>
    rw [List.forall_mem_cons, redact]
    by_cases hshort : secret.length < 4
    · rw [if_pos hshort, ih]
      simp [show ¬ 4 ≤ secret.length by omega]
    · rw [if_neg hshort]
      cases hencoded : encodeURIComponent secret with
      | none => simp [show 4 ≤ secret.length by omega]
      | some encoded =>
        simp only [Option.bind_eq_bind, Option.bind_some, Option.isSome_some]
        rw [ih]
        simp

namespace Failure

variable {fail : Failure}

lemma error_provider {code : CodeValue} {detail : JsString} {options : ErrorOptions}
    {err : ProviderError} (h : fail.error code detail options = .provider err) :
    err.code = code ∧ err.submitted = options.submitted := by
  unfold error at h
  split at h
  · cases h
    exact ⟨rfl, rfl⟩
  · cases h
    exact ⟨rfl, rfl⟩
  · cases h

/-- Without a cause, only a secret that cannot be encoded keeps the error from being made. -/
lemma error_isProvider {code : CodeValue} {detail : JsString} {options : ErrorOptions}
    (hcause : options.cause = none) (hsecrets : Redactable fail.secrets) :
    ∃ err, fail.error code detail options = .provider err := by
  unfold error
  rw [hcause]
  cases hmessage : redact (units "namecheap " ++ units fail.command.text ++ units ": " ++ detail)
      fail.secrets with
  | some message => exact ⟨_, rfl⟩
  | none =>
    have hsome := (redact_isSome (units "namecheap " ++ units fail.command.text ++ units ": " ++
      detail) fail.secrets).mpr hsecrets
    rw [hmessage] at hsome
    cases hsome

lemma redactable_of_provider {code : CodeValue} {detail : JsString} {options : ErrorOptions}
    {err : ProviderError} (h : fail.error code detail options = .provider err) :
    Redactable fail.secrets := by
  unfold error at h
  split at h
  · next message hmessage _ => exact (redact_isSome _ _).mp (by rw [hmessage]; rfl)
  · next message _ hmessage _ => exact (redact_isSome _ _).mp (by rw [hmessage]; rfl)
  · cases h

lemma proven_iff {code : CodeValue} {detail : JsString} {options : ErrorOptions}
    {err : ProviderError} (h : fail.error code detail options = .provider err)
    (hsent : options.submitted = true) : provesNothingApplied err = true ↔
      ∃ refusal ∈ REFUSALS, code = .own refusal := by
  obtain ⟨rfl, hsubmitted⟩ := error_provider h
  unfold provesNothingApplied
  rw [hsubmitted, hsent]
  cases hcode : err.code with
  | own code => cases code <;> simp [REFUSALS]
  | inherited name => simp

/-- Behind the request of a command that changes something, nothing is proven. -/
lemma afterSend_not_proven (hm : fail.mutating = true) {code : ProviderErrorCode}
    {detail : JsString} {retryAfter : Option ℕ} {cause : Option Rejection} {err : ProviderError}
    (h : fail.afterSend code detail retryAfter cause = .provider err) :
    provesNothingApplied err = false := by
  obtain ⟨hcode, _⟩ := error_provider h
  rw [if_pos hm] at hcode
  simp [provesNothingApplied, hcode]

lemma transport_proven (hm : fail.mutating = true) {rejection : Rejection} {timedOut : Bool}
    {err : ProviderError} (h : fail.transport rejection timedOut = .provider err)
    (hproven : provesNothingApplied err = true) :
    ∃ code ∈ PRE_SEND_ERROR_CODES, rejection.code = some code := by
  unfold transport at h
  split at h
  · rw [afterSend_not_proven hm h] at hproven
    cases hproven
  · split at h
    · next code hcode =>
      split at h
      · next hmem => exact ⟨code, by simpa using hmem, hcode⟩
      · rw [afterSend_not_proven hm h] at hproven
        cases hproven
    · rw [afterSend_not_proven hm h] at hproven
      cases hproven

end Failure

section ApiError

variable {rt : XmlRuntime} {fail : Failure} {apiResponse : XmlNode}

/-- The first error is the one that is told, when no error leaves the outcome unknown. -/
lemma apiError_of_known (hm : fail.mutating = true) {first : XmlNode} {later : List XmlNode}
    (hread : readErrors rt apiResponse = first :: later)
    (hknown : ∀ entry ∈ first :: later, ¬ OutcomeUnknown (numberOf rt entry)) :
    ∃ detail options, options.submitted = true ∧ options.cause = none ∧
      fail.apiError rt apiResponse = fail.error
        (classifyErrorNumber (numberOf rt first) (descriptionOf rt first) true).code detail
        options := by
  unfold Failure.apiError
  rw [hread, hm]
  have hfind : ((first :: later).map fun entry =>
      (classifyErrorNumber (numberOf rt entry) (descriptionOf rt entry) true,
        descriptionOf rt entry)).find? (fun c => c.1.code = .own .unknownOutcome) = none := by
    rw [List.find?_eq_none]
    intro c hc
    obtain ⟨entry, hentry, rfl⟩ := List.mem_map.mp hc
    simpa using fun h => hknown entry hentry (classify_unknown_iff.mp h)
  rw [List.map_cons] at hfind ⊢
  simp only [hfind, Option.getD_none]
  exact ⟨_, _, rfl, rfl, rfl⟩

/-- One unknown outcome among several errors makes the whole call unknown. -/
lemma apiError_of_unknown (hm : fail.mutating = true) {entry : XmlNode}
    (hentry : entry ∈ readErrors rt apiResponse) (hunknown : OutcomeUnknown (numberOf rt entry))
    {err : ProviderError} (h : fail.apiError rt apiResponse = .provider err) :
    provesNothingApplied err = false := by
  unfold Failure.apiError at h
  rw [hm] at h
  obtain ⟨c, hfind⟩ : ∃ c, ((readErrors rt apiResponse).map fun entry =>
      (classifyErrorNumber (numberOf rt entry) (descriptionOf rt entry) true,
        descriptionOf rt entry)).find? (fun c => c.1.code = .own .unknownOutcome) = some c := by
    refine Option.isSome_iff_exists.mp (List.find?_isSome.mpr ⟨_, List.mem_map_of_mem hentry, ?_⟩)
    simpa using classify_unknown_iff.mpr hunknown
  have hc := List.find?_some hfind
  simp only [decide_eq_true_eq] at hc
  cases hread : readErrors rt apiResponse with
  | nil =>
    rw [hread] at hentry
    cases hentry
  | cons first later =>
    rw [hread, List.map_cons] at h hfind
    simp only [hfind, Option.getD_some] at h
    obtain ⟨hcode, _⟩ := Failure.error_provider h
    simp [provesNothingApplied, hcode, hc]

lemma refusesAlone_iff {entry : XmlNode} : RefusesAlone rt entry ↔
    ∃ refusal ∈ REFUSALS,
      (classifyErrorNumber (numberOf rt entry) (descriptionOf rt entry) true).code =
        .own refusal := by
  unfold RefusesAlone
  by_cases hproto : numberOf rt entry ∈ OBJECT_PROTOTYPE
  · rw [classify_inherited hproto]
    simp [hproto]
  · rw [classify_of_not_inherited hproto]
    simp [hproto]

lemma RefusesAlone.known {entry : XmlNode} (h : RefusesAlone rt entry) :
    ¬ OutcomeUnknown (numberOf rt entry) := by
  intro hunknown
  obtain ⟨refusal, hmem, hcode⟩ := refusesAlone_iff.mp h
  rw [classify_unknown_iff.mpr hunknown] at hcode
  cases hcode
  exact absurd hmem (by decide)

/-- When the errors of an answer are taken for a refusal. -/
lemma apiError_proven_iff (hm : fail.mutating = true) :
    (∃ err, fail.apiError rt apiResponse = .provider err ∧ provesNothingApplied err = true) ↔
      Redactable fail.secrets ∧ ∃ first later, readErrors rt apiResponse = first :: later ∧
        RefusesAlone rt first ∧ ∀ entry ∈ later, ¬ OutcomeUnknown (numberOf rt entry) := by
  constructor
  · rintro ⟨err, herr, hproven⟩
    have hknown : ∀ entry ∈ readErrors rt apiResponse, ¬ OutcomeUnknown (numberOf rt entry) := by
      intro entry hentry hunknown
      rw [apiError_of_unknown hm hentry hunknown herr] at hproven
      cases hproven
    cases hread : readErrors rt apiResponse with
    | nil =>
      unfold Failure.apiError at herr
      rw [hread] at herr
      rw [Failure.afterSend_not_proven hm herr] at hproven
      cases hproven
    | cons first later =>
      rw [hread] at hknown
      obtain ⟨detail, options, hsent, _, heq⟩ := apiError_of_known hm hread hknown
      rw [heq] at herr
      exact ⟨Failure.redactable_of_provider herr, first, later, rfl,
        refusesAlone_iff.mpr ((Failure.proven_iff herr hsent).mp hproven),
        fun entry hentry => hknown entry (List.mem_cons_of_mem _ hentry)⟩
  · rintro ⟨hsecrets, first, later, hread, hfirst, hlater⟩
    have hknown : ∀ entry ∈ first :: later, ¬ OutcomeUnknown (numberOf rt entry) :=
      List.forall_mem_cons.mpr ⟨hfirst.known, hlater⟩
    obtain ⟨detail, options, hsent, hcause, heq⟩ := apiError_of_known hm hread hknown
    obtain ⟨err, herr⟩ : ∃ err, fail.error (classifyErrorNumber (numberOf rt first)
        (descriptionOf rt first) true).code detail options = .provider err :=
      Failure.error_isProvider hcause hsecrets
    exact ⟨err, heq.trans herr, (Failure.proven_iff herr hsent).mpr (refusesAlone_iff.mp hfirst)⟩

end ApiError

/-! ### The whole call -/

section Call

variable (client : NamecheapClient) (command : NamecheapCommand)
  (params : List (JsString × JsString)) (sensitive : List JsString) (world : Exchange)

/-- The request was never written. -/
def NeverWritten : Prop :=
  world.aborted = true ∨ (world.quota (COMMANDS command).priority).isSome = true ∨
    world.beforeSubmit.isSome = true ∨
    ∃ rejection, world.fetch (client.form command params) = .error rejection ∧
      ∃ code ∈ PRE_SEND_ERROR_CODES, rejection.code = some code

/-- The answer to the request, where one came that can be read. -/
def NamecheapClient.answer : Option XmlNode := do
  guard (!world.aborted && (world.quota (COMMANDS command).priority).isNone &&
    world.beforeSubmit.isNone)
  let response ← (world.fetch (client.form command params)).toOption
  guard (200 ≤ response.status && response.status ≤ 299)
  let raw ← (readCapped client.decoder MAX_RESPONSE_BYTES response).toOption
  let doc ← (parseXml client.xml raw).toOption
  child client.xml doc (units "ApiResponse")

/-- The answer reports errors. -/
def ReportsErrors (apiResponse : XmlNode) : Prop :=
  client.answer command params world = some apiResponse ∧
    ∃ status, attr client.xml apiResponse (units "Status") = some status ∧
      client.xml.upper status = units "ERROR"

/-- The answer has at least one error, and every one belongs to a refusal. -/
def Refused : Prop :=
  ∃ apiResponse, ReportsErrors client command params world apiResponse ∧
    errorsOf client.xml apiResponse ≠ [] ∧
    ∀ entry ∈ errorsOf client.xml apiResponse, RefusalNumber (numberOf client.xml entry)

variable {client command params sensitive world}

lemma toOption_eq_some {ε α : Type} {x : Except ε α} {a : α} :
    x.toOption = some a ↔ x = .ok a := by
  cases x <;> simp [Except.toOption]

lemma answer_eq_some {apiResponse : XmlNode} :
    client.answer command params world = some apiResponse ↔
      (world.aborted = false ∧ world.quota (COMMANDS command).priority = none ∧
        world.beforeSubmit = none) ∧ ∃ response,
        world.fetch (client.form command params) = .ok response ∧
        (200 ≤ response.status ∧ response.status ≤ 299) ∧ ∃ raw,
        readCapped client.decoder MAX_RESPONSE_BYTES response = .ok raw ∧ ∃ doc,
        parseXml client.xml raw = .ok doc ∧
        child client.xml doc (units "ApiResponse") = some apiResponse := by
  unfold NamecheapClient.answer
  simp [Option.bind_eq_bind, Option.bind_eq_some_iff, toOption_eq_some, and_assoc]

/-- An answer that reports errors is what the call fails with. -/
lemma call_of_reportsErrors {apiResponse : XmlNode}
    (h : ReportsErrors client command params world apiResponse) :
    client.call command params sensitive world =
      .error ((client.failure command sensitive).apiError client.xml apiResponse) := by
  obtain ⟨hanswer, status, hstatus, hupper⟩ := h
  obtain ⟨⟨haborted, hquota, hsubmit⟩, response, hfetch, ⟨hlow, hhigh⟩, raw, hraw, doc, hdoc,
    hchild⟩ := answer_eq_some.mp hanswer
  have hnot : ¬ (response.status < 200 ∨ response.status > 299) := by omega
  have hlimited : response.status ≠ 429 := by omega
  simp [NamecheapClient.call, haborted, hquota, hsubmit, hfetch, receive, hlimited, hnot, hraw,
    hdoc, interpret, hchild, hstatus, hupper]

lemma interpret_proven {rt : XmlRuntime} {fail : Failure} (hm : fail.mutating = true)
    {doc : XmlNode} {err : ProviderError} (h : interpret rt fail doc = .error (.provider err))
    (hproven : provesNothingApplied err = true) :
    ∃ apiResponse status, child rt doc (units "ApiResponse") = some apiResponse ∧
      attr rt apiResponse (units "Status") = some status ∧ rt.upper status = units "ERROR" ∧
      fail.apiError rt apiResponse = .provider err := by
  have hsent : ∀ {code detail}, fail.afterSend code detail none none ≠ .provider err := by
    intro code detail herr
    rw [Failure.afterSend_not_proven hm herr] at hproven
    cases hproven
  unfold interpret at h
  split at h
  · exact absurd (Except.error.inj h) hsent
  · next apiResponse hchild =>
    split at h
    · exact absurd (Except.error.inj h) hsent
    · next status hstatus =>
      split_ifs at h with hupper hok
      · exact ⟨apiResponse, status, hchild, hstatus, hupper, Except.error.inj h⟩
      · exact absurd (Except.error.inj h) hsent
      · split at h
        · exact absurd (Except.error.inj h) hsent
        · cases h

lemma receive_proven {rt : XmlRuntime} {decoder : TextDecoder} {fail : Failure}
    (hm : fail.mutating = true) {timedOut : Bool} {response : Response} {err : ProviderError}
    (h : receive rt decoder fail timedOut response = .error (.provider err))
    (hproven : provesNothingApplied err = true) :
    (200 ≤ response.status ∧ response.status ≤ 299) ∧ ∃ raw,
      readCapped decoder MAX_RESPONSE_BYTES response = .ok raw ∧ ∃ doc,
      parseXml rt raw = .ok doc ∧ interpret rt fail doc = .error (.provider err) := by
  have hsent : ∀ {code detail retryAfter cause},
      fail.afterSend code detail retryAfter cause ≠ .provider err := by
    intro code detail retryAfter cause herr
    rw [Failure.afterSend_not_proven hm herr] at hproven
    cases hproven
  unfold receive at h
  split at h
  · exact absurd (Except.error.inj h) hsent
  · split at h
    · exact absurd (Except.error.inj h) hsent
    · next hrange =>
      refine ⟨by omega, ?_⟩
      split at h
      · exact absurd (Except.error.inj h) hsent
      · exact absurd (Except.error.inj h) hsent
      · next raw hraw =>
        refine ⟨raw, hraw, ?_⟩
        split at h
        · exact absurd (Except.error.inj h) hsent
        · next doc hdoc => exact ⟨doc, hdoc, h⟩

/-- Every other exit is before the request or proves nothing. -/
lemma call_proven (hm : (COMMANDS command).mutating = true) {err : ProviderError}
    (h : client.call command params sensitive world = .error (.provider err))
    (hproven : provesNothingApplied err = true) :
    NeverWritten client command params world ∨
      ∃ apiResponse, ReportsErrors client command params world apiResponse ∧
        (client.failure command sensitive).apiError client.xml apiResponse = .provider err := by
  unfold NamecheapClient.call at h
  simp only [hm, if_true] at h
  split_ifs at h with haborted
  · exact .inl (.inl haborted)
  · split at h
    · next refused hquota => exact .inl (.inr (.inl (by simp [hquota])))
    · next hquota =>
      split at h
      · next thrown hsubmit => exact .inl (.inr (.inr (.inl (by simp [hsubmit]))))
      · next hsubmit =>
        split at h
        · next rejection hfetch =>
          obtain ⟨code, hmem, hcode⟩ := Failure.transport_proven hm (Except.error.inj h) hproven
          exact .inl (.inr (.inr (.inr ⟨rejection, hfetch, code, hmem, hcode⟩)))
        · next response hfetch =>
          obtain ⟨hrange, raw, hraw, doc, hdoc, hinterpret⟩ := receive_proven hm h hproven
          obtain ⟨apiResponse, status, hchild, hstatus, hupper, herr⟩ :=
            interpret_proven hm hinterpret hproven
          have hanswer : client.answer command params world = some apiResponse :=
            answer_eq_some.mpr ⟨⟨by simpa using haborted, hquota, hsubmit⟩, response, hfetch,
              hrange, raw, hraw, doc, hdoc, hchild⟩
          exact .inr ⟨apiResponse, ⟨hanswer, status, hstatus, hupper⟩, herr⟩

lemma written_of_reportsErrors {apiResponse : XmlNode}
    (h : ReportsErrors client command params world apiResponse) :
    ¬ NeverWritten client command params world := by
  obtain ⟨⟨haborted, hquota, hsubmit⟩, response, hfetch, _⟩ := answer_eq_some.mp h.1
  rintro (h | h | h | ⟨rejection, h, _⟩)
  · rw [haborted] at h
    cases h
  · rw [hquota] at h
    cases h
  · rw [hsubmit] at h
    cases h
  · rw [hfetch] at h
    cases h

/-- An error that is overlooked belongs to the answer, and to no refusal. -/
lemma Overlooks.error {rt : XmlRuntime} {apiResponse : XmlNode} (h : Overlooks rt apiResponse) :
    ∃ entry ∈ errorsOf rt apiResponse, ¬ RefusalNumber (numberOf rt entry) := by
  obtain ⟨first, later, hread, _, _, ⟨entry, hentry, hproto⟩ | ⟨entry, hentry, hrefusal⟩⟩ := h
  · refine ⟨entry, mem_errorsOf_iff.mpr (.inl ?_), not_refusal_of_inherited hproto⟩
    rw [hread]
    exact List.mem_cons_of_mem _ hentry
  · exact ⟨entry, mem_errorsOf_iff.mpr (.inr hentry), hrefusal⟩

/-- Where none is overlooked, errors that are taken for a refusal are one. -/
lemma refusal_of_not_overlooks {rt : XmlRuntime} {apiResponse : XmlNode}
    (hnot : ¬ Overlooks rt apiResponse) {first : XmlNode} {later : List XmlNode}
    (hread : readErrors rt apiResponse = first :: later) (hfirst : RefusesAlone rt first)
    (hlater : ∀ entry ∈ later, ¬ OutcomeUnknown (numberOf rt entry)) :
    ∀ entry ∈ errorsOf rt apiResponse, RefusalNumber (numberOf rt entry) := by
  intro entry hentry
  rcases mem_errorsOf_iff.mp hentry with hentry | hentry
  · rw [hread, List.mem_cons] at hentry
    rcases hentry with rfl | hentry
    · exact refusal_of_not_unknown hfirst.known hfirst.1
    · refine refusal_of_not_unknown (hlater entry hentry) fun hproto => hnot ?_
      exact ⟨first, later, hread, hfirst, hlater, .inl ⟨entry, hentry, hproto⟩⟩
  · by_contra hrefusal
    exact hnot ⟨first, later, hread, hfirst, hlater, .inr ⟨entry, hentry, hrefusal⟩⟩

/-- An error that is overlooked makes a call look refused that was not. -/
lemma not_refused_of_overlooks (hm : (COMMANDS command).mutating = true)
    (hsecrets : Redactable (client.apiKey :: sensitive)) {apiResponse : XmlNode}
    (hreports : ReportsErrors client command params world apiResponse)
    (hoverlooks : Overlooks client.xml apiResponse) :
    ∃ err, client.call command params sensitive world = .error (.provider err) ∧
      provesNothingApplied err = true ∧ ¬ NeverWritten client command params world ∧
      ¬ Refused client command params world := by
  have hfail : (client.failure command sensitive).mutating = true := hm
  obtain ⟨first, later, hread, hfirst, hlater, _⟩ := id hoverlooks
  obtain ⟨err, herr, hproven⟩ :=
    (apiError_proven_iff hfail).mpr ⟨hsecrets, first, later, hread, hfirst, hlater⟩
  refine ⟨err, by rw [call_of_reportsErrors hreports, herr], hproven,
    written_of_reportsErrors hreports, ?_⟩
  rintro ⟨other, hother, _, hrefusal⟩
  obtain rfl := Option.some.inj (hreports.1.symm.trans hother.1)
  obtain ⟨entry, hentry, hnot⟩ := hoverlooks.error
  exact hnot (hrefusal entry hentry)

/--
**A failed call of a command that changes something shows that nothing was applied only if its
request was never written or was refused by every error of the answer, unless an error of an answer
that reads as a refusal is overlooked.**
-/
theorem call_proves_absence_exact (client : NamecheapClient) (command : NamecheapCommand)
    (params : List (JsString × JsString)) (sensitive : List JsString) (world : Exchange)
    (hm : (COMMANDS command).mutating = true) :
    (∀ err, client.call command params sensitive world = .error (.provider err) →
        provesNothingApplied err = true →
        NeverWritten client command params world ∨ Refused client command params world) ↔
      ¬ (Redactable (client.apiKey :: sensitive) ∧
        ∃ apiResponse, ReportsErrors client command params world apiResponse ∧
          Overlooks client.xml apiResponse) := by
  have hfail : (client.failure command sensitive).mutating = true := hm
  constructor
  · rintro hclaim ⟨hsecrets, apiResponse, hreports, hoverlooks⟩
    obtain ⟨err, hcall, hproven, hwritten, hrefused⟩ :=
      not_refused_of_overlooks hm hsecrets hreports hoverlooks
    exact (hclaim err hcall hproven).elim hwritten hrefused
  · intro hnot err hcall hproven
    rcases call_proven hm hcall hproven with hnever | ⟨apiResponse, hreports, herr⟩
    · exact .inl hnever
    · obtain ⟨hsecrets, first, later, hread, hfirst, hlater⟩ :=
        (apiError_proven_iff hfail).mp ⟨err, herr, hproven⟩
      have hclear : ¬ Overlooks client.xml apiResponse :=
        fun h => hnot ⟨hsecrets, apiResponse, hreports, h⟩
      refine .inr ⟨apiResponse, hreports, ?_, refusal_of_not_overlooks hclear hread hfirst hlater⟩
      have hmem : first ∈ errorsOf client.xml apiResponse :=
        mem_errorsOf_iff.mpr (.inl (by rw [hread]; exact List.mem_cons_self))
      exact List.ne_nil_of_mem hmem

/-- A response the adapter cannot interpret proves nothing either. -/
theorem shapeError_not_proven (hm : (COMMANDS command).mutating = true) {detail : JsString}
    {err : ProviderError} (h : client.shapeError command sensitive detail = .provider err) :
    provesNothingApplied err = false := by
  have hfail : (client.failure command sensitive).mutating = true := hm
  exact Failure.afterSend_not_proven hfail h

end Call

/-! ### An answer with an inherited name among its numbers -/

/-- An error with a number and nothing else. -/
def errorNumbered (number : String) : XmlNode := [(units "@_Number", .text (units number))]

def errorResponse (numbers : List String) : XmlNode :=
  [(units "@_Status", .text (units "ERROR")),
    (units "Errors", .node [(units "Error", .list (numbers.map fun n => .node (errorNumbered n)))])]

def errorBody (numbers : List String) : String :=
  "<ApiResponse Status=\"ERROR\"><Errors>" ++
    String.join (numbers.map fun number => "<Error Number=\"" ++ number ++ "\" />") ++
    "</Errors></ApiResponse>"

/-- A client whose parser knows the document with these numbers. -/
def knowing (numbers : List String) : NamecheapClient where
  apiUser := units "tnp"
  userName := units "tnp"
  clientIp := units "192.0.2.1"
  apiKey := units "secret"
  xml :=
    { nativeCode := bunCode
      validate := fun _ => true
      parse := fun body =>
        if body = units (errorBody numbers) then
          some (.node [(units "ApiResponse", .node (errorResponse numbers))])
        else none
      lower := List.map asciiLowerUnit
      upper := List.map fun u => if isLetterUnit u && 97 ≤ u then u - 32 else u }
  decoder :=
    { State := Unit
      initial := ()
      push := fun _ value => .ok ((), value.map UInt8.toUInt16)
      flush := fun _ => .ok [] }

/-- The registrar answers with these numbers. -/
def answering (numbers : List String) : Exchange where
  aborted := false
  quota := fun _ => none
  beforeSubmit := none
  fetch := fun _ => .ok ⟨200, none, none, some [.bytes (textEncode (units (errorBody numbers)))]⟩
  timedOut := false

lemma child_single {rt : XmlRuntime} {key : JsString} (hattr : ATTR_PREFIX.isPrefixOf key = false)
    (node : XmlNode) : child rt [(key, .node node)] key = some node := by
  simp [child, children, findKey, hattr, itemsOf, itemNode]

lemma readErrors_errorResponse {rt : XmlRuntime} (numbers : List String) :
    readErrors rt (errorResponse numbers) = numbers.map errorNumbered := by
  have hne : (units "Errors" == units "@_Status") = false := by decide
  have hErrors : ATTR_PREFIX.isPrefixOf (units "Errors") = false := by decide
  have hError : ATTR_PREFIX.isPrefixOf (units "Error") = false := by decide
  have hchild : child rt (errorResponse numbers) (units "Errors") =
      some [(units "Error", .list (numbers.map fun n => .node (errorNumbered n)))] := by
    simp [child, children, findKey, errorResponse, List.lookup_cons, hne, hErrors, itemsOf, itemNode]
  rw [readErrors, hchild]
  simp [children, findKey, hError, itemsOf, itemNode, Function.comp_def]

lemma numberOf_errorNumbered {rt : XmlRuntime} (number : String) :
    numberOf rt (errorNumbered number) = decodeXmlText rt.nativeCode (units number) := by
  have hkey : ATTR_PREFIX ++ units "Number" = units "@_Number" := by decide
  simp [numberOf, attr, hkey, findKey, errorNumbered]

lemma attr_status {rt : XmlRuntime} (numbers : List String) :
    attr rt (errorResponse numbers) (units "Status") =
      some (decodeXmlText rt.nativeCode (units "ERROR")) := by
  have hkey : ATTR_PREFIX ++ units "Status" = units "@_Status" := by decide
  simp [attr, hkey, findKey, errorResponse]

lemma parseXml_errorBody {numbers : List String} (h : testIgnoreCase "<!doctype"
      (units (errorBody numbers)) = false)
    (h' : testIgnoreCase "<!entity" (units (errorBody numbers)) = false) :
    parseXml (knowing numbers).xml (units (errorBody numbers)) =
      .ok [(units "ApiResponse", .node (errorResponse numbers))] := by
  simp [parseXml, h, h', knowing]

/-- Two numbers that refuse the request are read as a refusal. -/
theorem call_proves_absence_refused :
    (COMMANDS .domainsCreate).mutating = true ∧
      ((∀ err, (knowing ["2015182", "1011150"]).call .domainsCreate [] []
          (answering ["2015182", "1011150"]) = .error (.provider err) →
          provesNothingApplied err = true →
          NeverWritten (knowing ["2015182", "1011150"]) .domainsCreate []
              (answering ["2015182", "1011150"]) ∨
            Refused (knowing ["2015182", "1011150"]) .domainsCreate []
              (answering ["2015182", "1011150"])) ↔
        ¬ (Redactable [units "secret"] ∧
          ∃ apiResponse, ReportsErrors (knowing ["2015182", "1011150"]) .domainsCreate []
              (answering ["2015182", "1011150"]) apiResponse ∧
            Overlooks (knowing ["2015182", "1011150"]).xml apiResponse)) :=
  ⟨by decide, call_proves_absence_exact _ _ _ _ _ (by decide)⟩

/-- A refusal and an error that no table knows are taken for a refusal. -/
theorem call_proves_absence_overlooked :
    ¬ ∀ err, (knowing ["2015182", "constructor"]).call .domainsCreate [] []
        (answering ["2015182", "constructor"]) = .error (.provider err) →
        provesNothingApplied err = true →
        NeverWritten (knowing ["2015182", "constructor"]) .domainsCreate []
            (answering ["2015182", "constructor"]) ∨
          Refused (knowing ["2015182", "constructor"]) .domainsCreate []
            (answering ["2015182", "constructor"]) := by
  have hApi : ATTR_PREFIX.isPrefixOf (units "ApiResponse") = false := by decide
  have hbody : (textEncode (units (errorBody ["2015182", "constructor"]))).map UInt8.toUInt16 =
      units (errorBody ["2015182", "constructor"]) := by decide +kernel
  have hshort : (textEncode (units (errorBody ["2015182", "constructor"]))).length ≤
      MAX_RESPONSE_BYTES := by decide +kernel
  have hreports : ReportsErrors (knowing ["2015182", "constructor"]) .domainsCreate []
      (answering ["2015182", "constructor"]) (errorResponse ["2015182", "constructor"]) := by
    refine ⟨answer_eq_some.mpr ⟨⟨rfl, rfl, rfl⟩, _, rfl, ⟨by decide, by decide⟩, _, ?_, _,
      parseXml_errorBody (by decide +kernel) (by decide +kernel), child_single hApi _⟩, _,
      attr_status _, by decide⟩
    simp [readCapped, readChunks, knowing, hbody, hshort]
  have hsecrets : Redactable [(knowing ["2015182", "constructor"]).apiKey] := by
    unfold Redactable
    decide
  have hoverlooks : Overlooks (knowing ["2015182", "constructor"]).xml
      (errorResponse ["2015182", "constructor"]) := by
    refine ⟨_, _, readErrors_errorResponse _, ?_, ?_, .inl ⟨_, List.mem_cons_self, ?_⟩⟩
    · unfold RefusesAlone
      rw [numberOf_errorNumbered]
      decide
    · intro entry hentry
      obtain rfl : entry = errorNumbered "constructor" := by simpa using hentry
      rw [numberOf_errorNumbered]
      unfold OutcomeUnknown
      decide
    · rw [numberOf_errorNumbered]
      decide
  obtain ⟨err, hcall, hproven, hwritten, hrefused⟩ :=
    not_refused_of_overlooks rfl hsecrets hreports hoverlooks
  exact fun hclaim => (hclaim err hcall hproven).elim hwritten hrefused

end Tnp.Services
