import Tnp.Operations.Engine
import Tnp.Services.Xml

/-!
The error numbers of the registrar, and the taxonomy they are brought to.

A number is looked up and never guessed from its description. On a command that changes something,
a number of the provider's own side leaves the outcome unknown, unless it is listed as a refusal.
-/

namespace Tnp.Services

open Tnp.Crypto Tnp.Lib Tnp.Namespace
open Tnp.Operations (ProviderErrorCode)

/-! ### The error -/

/-- What stands where the taxonomy has a code: one of its codes, or what a lookup inherited. -/
abbrev CodeValue := Property JsString ProviderErrorCode

def DEFAULT_MESSAGES : ProviderErrorCode → String
  | .validation => "The request was rejected as invalid."
  | .notAvailable => "That is not available."
  | .unsupported => "This provider does not support that operation."
  | .credentials => "The provider account is not configured correctly."
  | .rateLimited => "The provider is temporarily limiting requests. Try again shortly."
  | .insufficientFunds => "The operation cannot be completed right now."
  | .conflict => "Something changed at the provider. Review before trying again."
  | .notFound => "The provider has no record of that resource."
  | .permanent => "The provider refused the operation."
  | .providerUnavailable => "The provider is temporarily unavailable."
  | .unknownOutcome => "The provider did not confirm the result. It is being checked."

/-- An error kept behind another. -/
structure SafeCause where
  name : JsString
  message : JsString
  deriving DecidableEq

structure ProviderError where
  code : CodeValue
  message : JsString
  safeMessage : Option String
  providerCode : Option JsString := none
  submitted : Bool := false
  retryAfterMs : Option ℕ := none
  cause : Option SafeCause := none
  deriving DecidableEq

/-- The message for a customer. A value that is no code has none. -/
def defaultMessage : CodeValue → Option String
  | .own code => some (DEFAULT_MESSAGES code)
  | .inherited _ => none

def REFUSALS : List ProviderErrorCode :=
  [.validation, .notAvailable, .unsupported, .credentials, .insufficientFunds, .rateLimited,
    .conflict, .permanent]

def provesNothingApplied (err : ProviderError) : Bool :=
  if err.code = .own .unknownOutcome then false
  else if !err.submitted then true
  else (REFUSALS.map Property.own).contains err.code

/-! ### Error numbers -/

def ERROR_NUMBERS : ObjectLiteral JsString ProviderErrorCode :=
  literal [("1010101", .credentials), ("1010102", .credentials), ("1011102", .credentials),
    ("1010104", .permanent), ("1010105", .credentials), ("1011105", .credentials),
    ("1030408", .credentials), ("1050900", .providerUnavailable), ("1011150", .credentials),
    ("1017150", .credentials), ("1017105", .credentials), ("1017101", .credentials),
    ("1017410", .permanent), ("1017411", .rateLimited), ("1019103", .credentials),
    ("1016103", .credentials), ("1017103", .credentials), ("2011166", .credentials),
    ("2033409", .credentials), ("2005", .validation), ("2010323", .validation),
    ("2010324", .validation), ("2010325", .validation), ("2010326", .validation),
    ("2010327", .validation), ("2011168", .validation), ("2011169", .validation),
    ("2011170", .validation), ("2011280", .validation), ("2011298", .validation),
    ("2011322", .validation), ("2011323", .providerUnavailable), ("2015167", .validation),
    ("2015170", .validation), ("2015182", .validation), ("2015267", .validation),
    ("2015278", .validation), ("2015610", .validation), ("2033407", .validation),
    ("2033270", .validation), ("2511623", .validation), ("3013288", .validation),
    ("4013288", .validation), ("2030280", .unsupported), ("2030166", .unsupported),
    ("2030288", .unsupported), ("3011288", .unsupported), ("2515610", .conflict),
    ("2515623", .conflict), ("3019166", .notAvailable), ("4019166", .notAvailable),
    ("2019166", .notFound), ("2016166", .notFound), ("3016166", .notFound),
    ("3019510", .notFound), ("4011103", .notFound), ("4019329", .notFound),
    ("2020166", .permanent), ("2528166", .permanent), ("4023271", .permanent),
    ("4023166", .permanent), ("4024167", .permanent), ("4026312", .permanent),
    ("4022337", .permanent), ("5026900", .permanent), ("3011511", .providerUnavailable),
    ("3028166", .providerUnavailable), ("3031166", .providerUnavailable),
    ("3031510", .providerUnavailable), ("3031900", .providerUnavailable),
    ("3050900", .providerUnavailable), ("4019337", .providerUnavailable),
    ("4022288", .providerUnavailable), ("4022312", .providerUnavailable),
    ("4022323", .providerUnavailable), ("4023330", .providerUnavailable),
    ("5019169", .providerUnavailable), ("5050169", .providerUnavailable),
    ("5050900", .providerUnavailable)]

/-- Numbers of the provider's side that prove all the same that nothing was changed. -/
def MUTATION_REFUSALS : List JsString :=
  ["3019166", "4019166", "3013288", "4013288", "3016166", "3019510", "3011288", "4011103"].map units

structure ClassifiedError where
  code : CodeValue
  number : JsString
  deriving DecidableEq

/-- `/user\s*name/i`. -/
def namesUser (description : JsString) : Bool :=
  description.tails.any fun t =>
    (units "user").isPrefixOf (t.map asciiLowerUnit) &&
      (units "name").isPrefixOf
        (((t.drop 4).dropWhile fun u => isSpace (unitChar u)).map asciiLowerUnit)

def refineByDescription (number : JsString) (code : CodeValue) (description : JsString) :
    CodeValue :=
  if number = units "2528166" && (testIgnoreCase "insufficient" description ||
      testIgnoreCase "balance" description || testIgnoreCase "funds" description) then
    .own .insufficientFunds
  else if number = units "4011103" && namesUser description then .own .credentials
  else code

/-- `/^[..]/` for a class of digits. -/
def beginsWith (digits : String) (number : JsString) : Bool :=
  match number with
  | u :: _ => (units digits).contains u
  | [] => false

def classifyErrorNumber (number description : JsString) (mutating : Bool) : ClassifiedError :=
  let known := ERROR_NUMBERS.get number
  let base :=
    match known with
    | none => .own .permanent
    | some code => refineByDescription number code description
  let providerSide := beginsWith "345" number && !MUTATION_REFUSALS.contains number
  let unrecognised := known.isNone && !beginsWith "12" number
  if mutating && (providerSide || unrecognised) then ⟨.own .unknownOutcome, number⟩
  else ⟨base, number⟩

end Tnp.Services
