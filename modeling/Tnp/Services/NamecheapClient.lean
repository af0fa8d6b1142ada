import Tnp.Lib.Bytes
import Tnp.Lib.OrderedMap
import Tnp.Services.TableLookups

/-!
One call to the registrar, through every way in which it can end.

A command that changes something and fails after its request may have been written has an unknown
outcome. Only a failure before that, or an answer that refuses the request, shows that nothing was
applied and lets a purchase be sent again.
-/

namespace Tnp.Services

open Tnp.Crypto Tnp.Lib Tnp.Namespace
open Tnp.Operations (ProviderErrorCode)

/-! ### Commands -/

inductive NamecheapCommand
  | domainsCheck | domainsGetTldList | usersGetPricing | usersGetBalances | domainsCreate
  | domainsRenew | domainsGetInfo | domainsGetList | domainsGetContacts | domainsSetContacts
  | domainsGetRegistrarLock | domainsSetRegistrarLock | dnsGetHosts | dnsSetHosts
  | transferCreate | transferGetStatus
  deriving DecidableEq

def NamecheapCommand.text : NamecheapCommand → String
  | domainsCheck => "namecheap.domains.check"
  | domainsGetTldList => "namecheap.domains.getTldList"
  | usersGetPricing => "namecheap.users.getPricing"
  | usersGetBalances => "namecheap.users.getBalances"
  | domainsCreate => "namecheap.domains.create"
  | domainsRenew => "namecheap.domains.renew"
  | domainsGetInfo => "namecheap.domains.getInfo"
  | domainsGetList => "namecheap.domains.getList"
  | domainsGetContacts => "namecheap.domains.getContacts"
  | domainsSetContacts => "namecheap.domains.setContacts"
  | domainsGetRegistrarLock => "namecheap.domains.getRegistrarLock"
  | domainsSetRegistrarLock => "namecheap.domains.setRegistrarLock"
  | dnsGetHosts => "namecheap.domains.dns.getHosts"
  | dnsSetHosts => "namecheap.domains.dns.setHosts"
  | transferCreate => "namecheap.domains.transfer.create"
  | transferGetStatus => "namecheap.domains.transfer.getStatus"

inductive QuotaPriority
  | interactive | critical
  deriving DecidableEq

structure CommandSpec where
  mutating : Bool
  priority : QuotaPriority

def COMMANDS : NamecheapCommand → CommandSpec
  | .domainsCheck => ⟨false, .interactive⟩
  | .domainsGetTldList => ⟨false, .interactive⟩
  | .usersGetPricing => ⟨false, .interactive⟩
  | .usersGetBalances => ⟨false, .critical⟩
  | .domainsCreate => ⟨true, .critical⟩
  | .domainsRenew => ⟨true, .critical⟩
  | .domainsGetInfo => ⟨false, .critical⟩
  | .domainsGetList => ⟨false, .critical⟩
  | .domainsGetContacts => ⟨false, .critical⟩
  | .domainsSetContacts => ⟨true, .critical⟩
  | .domainsGetRegistrarLock => ⟨false, .critical⟩
  | .domainsSetRegistrarLock => ⟨true, .critical⟩
  | .dnsGetHosts => ⟨false, .critical⟩
  | .dnsSetHosts => ⟨true, .critical⟩
  | .transferCreate => ⟨true, .critical⟩
  | .transferGetStatus => ⟨false, .critical⟩

/-- Codes of `fetch` that can only happen before a request is written. -/
def PRE_SEND_ERROR_CODES : List JsString :=
  ["ConnectionRefused", "ECONNREFUSED", "FailedToOpenSocket", "ENOTFOUND", "EAI_AGAIN",
    "EAI_NONAME", "CERT_HAS_EXPIRED", "CERT_NOT_YET_VALID", "DEPTH_ZERO_SELF_SIGNED_CERT",
    "SELF_SIGNED_CERT_IN_CHAIN", "UNABLE_TO_GET_ISSUER_CERT_LOCALLY",
    "UNABLE_TO_VERIFY_LEAF_SIGNATURE", "ERR_TLS_CERT_ALTNAME_INVALID"].map units

def MAX_RESPONSE_BYTES : ℕ := 1024 * 1024

/-! ### Redaction -/

/-- What `encodeURIComponent` leaves as it is. -/
def isUnreserved (b : UInt8) : Bool :=
  (48 ≤ b && b ≤ 57) || (65 ≤ b && b ≤ 90) || (97 ≤ b && b ≤ 122) ||
    [45, 95, 46, 33, 126, 42, 39, 40, 41].contains b

def hexUnit (n : ℕ) : UInt16 := if n < 10 then UInt16.ofNat (48 + n) else UInt16.ofNat (55 + n)

/-- `encodeURIComponent`, which throws at a lone surrogate. -/
def encodeURIComponent (s : JsString) : Option JsString :=
  if units (toWellFormed s) = s then
    some ((textEncode s).flatMap fun b =>
      if isUnreserved b then [b.toUInt16] else [37, hexUnit (b.toNat / 16), hexUnit (b.toNat % 16)])
  else none

/-- `text.split(secret).join('[REDACTED]')`. -/
def redactOne (secret : JsString) : JsString → JsString :=
  replaceAll fun s =>
    if secret.isPrefixOf s then some (secret.length, units "[REDACTED]") else none

def redact (text : JsString) : List JsString → Option JsString
  | [] => some text
  | secret :: secrets =>
    if secret.length < 4 then redact text secrets
    else do
      let out := redactOne secret text
      let encoded ← encodeURIComponent secret
      redact (if encoded ≠ secret then redactOne encoded out else out) secrets

/-! ### Failures -/

/-- What a promise was rejected with: the name and message of an `Error`, or else those that
`safeCause` takes in their place. -/
structure Rejection where
  isProviderError : Bool := false
  name : JsString
  message : JsString
  code : Option JsString := none

/-- What a call throws. -/
inductive Thrown where
  | provider (err : ProviderError)
  | other (err : Rejection)

structure Failure where
  command : NamecheapCommand
  mutating : Bool
  secrets : List JsString

structure ErrorOptions where
  submitted : Bool
  providerCode : Option JsString := none
  retryAfterMs : Option ℕ := none
  cause : Option Rejection := none

/-- The error of `encodeURIComponent`. -/
def uriError : Rejection := { name := units "URIError", message := units "URI malformed" }

namespace Failure

variable (fail : Failure)

def safeCause (cause : Rejection) : Option SafeCause :=
  if cause.isProviderError then some ⟨cause.name, cause.message⟩
  else (redact cause.message fail.secrets).map fun message => ⟨cause.name, message⟩

def error (code : CodeValue) (detail : JsString) (options : ErrorOptions) : Thrown :=
  match redact (units "namecheap " ++ units fail.command.text ++ units ": " ++ detail) fail.secrets,
      options.cause.map fail.safeCause with
  | some message, none =>
    .provider
      { code, message, safeMessage := defaultMessage code, providerCode := options.providerCode,
        submitted := options.submitted, retryAfterMs := options.retryAfterMs }
  | some message, some (some cause) =>
    .provider
      { code, message, safeMessage := defaultMessage code, providerCode := options.providerCode,
        submitted := options.submitted, retryAfterMs := options.retryAfterMs, cause := some cause }
  | _, _ => .other uriError

/-- A failure after the request may have been written. -/
def afterSend (code : ProviderErrorCode) (detail : JsString) (retryAfter : Option ℕ)
    (cause : Option Rejection) : Thrown :=
  fail.error (.own (if fail.mutating then .unknownOutcome else code)) detail
    { submitted := true, retryAfterMs := if fail.mutating then none else retryAfter, cause }

def transport (err : Rejection) (timedOut : Bool) : Thrown :=
  if timedOut then fail.afterSend .providerUnavailable (units "timed out") none (some err)
  else
    match err.code with
    | some code =>
      if PRE_SEND_ERROR_CODES.contains code then
        fail.error (.own .providerUnavailable) (units "request not sent (" ++ code ++ units ")")
          { submitted := false, cause := some err }
      else
        let told := if code = [] then [] else units " (" ++ code ++ units ")"
        fail.afterSend .providerUnavailable (units "transport failure" ++ told) none (some err)
    | none => fail.afterSend .providerUnavailable (units "transport failure") none (some err)

end Failure

/-- The number of an error, and what is said about it. -/
def numberOf (rt : XmlRuntime) (entry : XmlNode) : JsString :=
  (attr rt entry (units "Number")).getD []

def descriptionOf (rt : XmlRuntime) (entry : XmlNode) : JsString := (text rt entry).getD []

/-- The errors that are read: those of the first `Errors` element, under one spelling. -/
def readErrors (rt : XmlRuntime) (apiResponse : XmlNode) : List XmlNode :=
  match child rt apiResponse (units "Errors") with
  | some errorsNode => children rt errorsNode (units "Error")
  | none => []

def Failure.apiError (fail : Failure) (rt : XmlRuntime) (apiResponse : XmlNode) : Thrown :=
  let classified := (readErrors rt apiResponse).map fun entry =>
    (classifyErrorNumber (numberOf rt entry) (descriptionOf rt entry) fail.mutating,
      descriptionOf rt entry)
  match classified with
  | [] =>
    fail.afterSend .providerUnavailable (units "Status=ERROR without an error number") none none
  | first :: _ =>
    let chosen := (classified.find? fun c => c.1.code = .own .unknownOutcome).getD first
    let description := chosen.2.take 200
    fail.error chosen.1.code (units "error " ++ chosen.1.number ++ units ": " ++ description)
      { submitted := true, providerCode := some chosen.1.number }

/-! ### The body of an answer -/

/-- What a read of the body gives. -/
inductive Chunk where
  | bytes (value : Bytes)
  | failed (err : Rejection)

structure Response where
  status : ℕ
  retryAfter : Option JsString
  contentLength : Option JsString
  body : Option (List Chunk)

/-- `TextDecoder` as a machine that is fed chunks. -/
structure TextDecoder where
  State : Type
  initial : State
  push : State → Bytes → Except Rejection (State × JsString)
  flush : State → Except Rejection JsString

inductive BodyFailure where
  | tooLarge
  | failed (err : Rejection)

def allDigits (s : JsString) : Bool := !s.isEmpty && s.all isDigitUnit

def retryAfterMs (header : Option JsString) : Option ℕ :=
  match header with
  | some value =>
    if allDigits (trimUnits value) then some (parseDigits 10 (trimUnits value) * 1000) else none
  | none => none

section Reading

variable (decoder : TextDecoder) (limit : ℕ)

def readChunks : decoder.State → ℕ → JsString → List Chunk → Except BodyFailure JsString
  | state, _, out, [] =>
    match decoder.flush state with
    | .ok last => .ok (out ++ last)
    | .error err => .error (.failed err)
  | _, _, _, .failed err :: _ => .error (.failed err)
  | state, received, out, .bytes value :: rest =>
    if received + value.length > limit then .error .tooLarge
    else
      match decoder.push state value with
      | .ok (state, more) => readChunks state (received + value.length) (out ++ more) rest
      | .error err => .error (.failed err)

def readCapped (response : Response) : Except BodyFailure JsString :=
  let tooLong := fun declared => allDigits declared && parseDigits 10 declared > limit
  if response.contentLength.any tooLong then .error .tooLarge
  else
    match response.body with
    | none => .ok []
    | some chunks => readChunks decoder limit decoder.initial 0 [] chunks

end Reading

/-! ### The call -/

/-- How the world behaves in one call. -/
structure Exchange where
  aborted : Bool
  quota : QuotaPriority → Option Thrown
  beforeSubmit : Option Thrown
  fetch : List (JsString × JsString) → Except Rejection Response
  timedOut : Bool

structure NamecheapClient where
  apiUser : JsString
  userName : JsString
  clientIp : JsString
  apiKey : JsString
  xml : XmlRuntime
  decoder : TextDecoder

structure CommandResult where
  response : XmlNode
  mutating : Bool

variable (client : NamecheapClient) (command : NamecheapCommand)
  (params : List (JsString × JsString)) (sensitive : List JsString)

/-- The form of the request. -/
def NamecheapClient.form : List (JsString × JsString) :=
  let fixed := [(units "ApiUser", client.apiUser), (units "ApiKey", client.apiKey),
    (units "UserName", client.userName), (units "ClientIp", client.clientIp),
    (units "Command", units command.text)]
  (OrderedMap.ofList (fixed ++ params)).entries

def NamecheapClient.failure : Failure :=
  ⟨command, (COMMANDS command).mutating, client.apiKey :: sensitive⟩

/-- What is made of a document. -/
def interpret (rt : XmlRuntime) (fail : Failure) (doc : XmlNode) : Except Thrown CommandResult :=
  let noStatus := units "response has no ApiResponse status"
  match child rt doc (units "ApiResponse") with
  | none => .error (fail.afterSend .providerUnavailable noStatus none none)
  | some apiResponse =>
    match attr rt apiResponse (units "Status") with
    | none => .error (fail.afterSend .providerUnavailable noStatus none none)
    | some status =>
      if rt.upper status = units "ERROR" then .error (fail.apiError rt apiResponse)
      else if rt.upper status ≠ units "OK" then
        .error (fail.afterSend .providerUnavailable
          (units "response status is neither OK nor ERROR") none none)
      else
        match child rt apiResponse (units "CommandResponse") with
        | none =>
          .error (fail.afterSend .providerUnavailable (units "response has no CommandResponse") none
            none)
        | some commandResponse => .ok ⟨commandResponse, fail.mutating⟩

/-- What is made of a response. -/
def receive (rt : XmlRuntime) (decoder : TextDecoder) (fail : Failure) (timedOut : Bool)
    (response : Response) : Except Thrown CommandResult :=
  if response.status = 429 then
    .error (fail.afterSend .rateLimited (units "HTTP 429") (retryAfterMs response.retryAfter) none)
  else if response.status < 200 ∨ response.status > 299 then
    .error (fail.afterSend .providerUnavailable
      (units ("HTTP " ++ toString response.status)) none none)
  else
    match readCapped decoder MAX_RESPONSE_BYTES response with
    | .error .tooLarge =>
      .error (fail.afterSend .providerUnavailable (units "response exceeds size cap") none none)
    | .error (.failed err) =>
      .error (fail.afterSend .providerUnavailable
        (units (if timedOut then "timed out reading response" else "response body failed")) none
        (some err))
    | .ok raw =>
      match parseXml rt raw with
      | .error reason =>
        .error (fail.afterSend .providerUnavailable
          (units ("response rejected (" ++ reason.text ++ ")")) none none)
      | .ok doc => interpret rt fail doc

def NamecheapClient.call (world : Exchange) : Except Thrown CommandResult :=
  let spec := COMMANDS command
  let fail := client.failure command sensitive
  if world.aborted then
    .error (fail.error (.own .providerUnavailable)
      (units "cancelled before the request was sent") { submitted := false })
  else
    match world.quota spec.priority with
    | some refused => .error refused
    | none =>
      match if spec.mutating then world.beforeSubmit else none with
      | some err => .error err
      | none =>
        match world.fetch (client.form command params) with
        | .error err => .error (fail.transport err world.timedOut)
        | .ok response => receive client.xml client.decoder fail world.timedOut response

/-- A response that an adapter cannot interpret. -/
def NamecheapClient.shapeError (detail : JsString) : Thrown :=
  (client.failure command sensitive).afterSend .providerUnavailable
    (units "unexpected response shape: " ++ detail) none none

end Tnp.Services
