import Tnp.Crypto.Utf16
import Tnp.Lib.ObjectLiteral
import Tnp.Lib.Replace
import Tnp.Namespace.Policy

/-!
Reading the XML of a provider's answer.

The parser behind it resolves no entities. The five predefined ones and the numeric references
are decoded here, in one pass. Elements and attributes are found by their name whatever its case,
but one spelling is read at a time: the exact one if the node has it, else the first that differs
in case alone.
-/

namespace Tnp.Services

open Tnp.Crypto Tnp.Lib Tnp.Namespace

/-- The names that every object finds in its prototype. -/
def OBJECT_PROTOTYPE : List JsString :=
  ["constructor", "__defineGetter__", "__defineSetter__", "hasOwnProperty", "__lookupGetter__",
    "__lookupSetter__", "isPrototypeOf", "propertyIsEnumerable", "toString", "valueOf",
    "__proto__", "toLocaleString"].map units

/-- An object literal keyed by text. -/
def literal {α : Type} (entries : List (String × α)) : ObjectLiteral JsString α :=
  ⟨entries.map fun e => (units e.1, e.2), OBJECT_PROTOTYPE⟩

def isDigitUnit (u : UInt16) : Bool := 48 ≤ u && u ≤ 57
def isHexUnit (u : UInt16) : Bool :=
  isDigitUnit u || (65 ≤ u && u ≤ 70) || (97 ≤ u && u ≤ 102)
def isLetterUnit (u : UInt16) : Bool := (65 ≤ u && u ≤ 90) || (97 ≤ u && u ≤ 122)

def asciiLowerUnit (u : UInt16) : UInt16 := if 65 ≤ u && u ≤ 90 then u + 32 else u

/-- A regular expression of plain lower-case letters, with the flag `i`. -/
def testIgnoreCase (pattern : String) (s : JsString) : Bool :=
  s.tails.any fun t => (units pattern).isPrefixOf (t.map asciiLowerUnit)

/-- `String.prototype.trim`. -/
def trimUnits (s : JsString) : JsString :=
  (s.dropWhile fun u => isSpace (unitChar u)).rdropWhile fun u => isSpace (unitChar u)

/-! ### References in text -/

def PREDEFINED : ObjectLiteral JsString JsString :=
  literal [("lt", units "<"), ("gt", units ">"), ("amp", units "&"), ("quot", units "\""),
    ("apos", units "'")]

/-- One or more units of a class, and a semicolon behind them. -/
def runOf (p : UInt16 → Bool) (s : JsString) : Option JsString :=
  match s.takeWhile p, s.dropWhile p with
  | u :: run, 59 :: _ => some (u :: run)
  | _, _ => none

/--
What `&(#x[0-9a-fA-F]+|#[0-9]+|[a-zA-Z]+);` captures at the front of a text. No two of its
alternatives begin alike, so the first unit or two decide which can match.
-/
def matchReference : JsString → Option JsString
  | 38 :: 35 :: 120 :: rest => (runOf isHexUnit rest).map (35 :: 120 :: ·)
  | 38 :: 35 :: rest => (runOf isDigitUnit rest).map (35 :: ·)
  | 38 :: rest => runOf isLetterUnit rest
  | _ => none

def unitDigit (u : UInt16) : ℕ :=
  if isDigitUnit u then u.toNat - 48 else if u < 97 then u.toNat - 55 else u.toNat - 87

/-- `Number.parseInt` of digits. A number beyond the code points stays beyond them as a double. -/
def parseDigits (radix : ℕ) (s : JsString) : ℕ := s.foldl (fun n u => n * radix + unitDigit u) 0

/-- `String.fromCodePoint`. -/
def fromCodePoint (n : ℕ) : JsString :=
  if n < 0x10000 then [UInt16.ofNat n]
  else
    let n := n - 0x10000
    [UInt16.ofNat (0xD800 + n / 0x400), UInt16.ofNat (0xDC00 + n % 0x400)]

def codePointOrLiteral (codePoint : ℕ) (whole : JsString) : JsString :=
  if codePoint > 0x10ffff then whole else fromCodePoint codePoint

section Runtime

variable (nativeCode : JsString → JsString)

/-- The text of an inherited method: what follows its first word is up to the runtime. -/
def functionText (name : JsString) : JsString := units "function" ++ nativeCode name

/-- What `replace` puts in the place of a reference. -/
def replacement (ref whole : JsString) : JsString :=
  if (units "#x").isPrefixOf ref || (units "#X").isPrefixOf ref then
    codePointOrLiteral (parseDigits 16 (ref.drop 2)) whole
  else if (units "#").isPrefixOf ref then codePointOrLiteral (parseDigits 10 (ref.drop 1)) whole
  else
    match PREDEFINED.get ref with
    | some (.own value) => value
    | some (.inherited name) => functionText nativeCode name
    | none => whole

/-- A reference with its ampersand and semicolon. -/
def spelled (ref : JsString) : JsString := 38 :: (ref ++ [59])

def decodeMatch (s : JsString) : Option (ℕ × JsString) :=
  (matchReference s).map fun ref =>
    ((spelled ref).length, replacement nativeCode ref (spelled ref))

def decodeXmlText (value : JsString) : JsString := replaceAll (decodeMatch nativeCode) value

end Runtime

/-! ### The tree -/

inductive XmlValue where
  | text (value : JsString)
  | node (entries : List (JsString × XmlValue))
  | list (values : List XmlValue)

abbrev XmlNode := List (JsString × XmlValue)

def ATTR_PREFIX : JsString := units "@_"
def TEXT_KEY : JsString := units "#text"

inductive XmlRejected where
  | doctype | malformed | shape
  deriving DecidableEq

def XmlRejected.text : XmlRejected → String
  | doctype => "doctype"
  | malformed => "malformed"
  | shape => "shape"

/-- The parser and the validator that stand behind `parseXml`, and the case mappings. -/
structure XmlRuntime where
  nativeCode : JsString → JsString
  validate : JsString → Bool
  parse : JsString → Option XmlValue
  lower : JsString → JsString
  upper : JsString → JsString

variable (rt : XmlRuntime)

/-- A document as a tree. A parser that throws is taken for a malformed document. -/
def parseXml (body : JsString) : Except XmlRejected XmlNode :=
  if testIgnoreCase "<!doctype" body || testIgnoreCase "<!entity" body then .error .doctype
  else if !rt.validate body then .error .malformed
  else
    match rt.parse body with
    | some (.node entries) => .ok entries
    | _ => .error .malformed

def findKey (node : XmlNode) (name : JsString) : Option JsString :=
  if (node.lookup name).isSome then some name
  else (node.map Prod.fst).find? fun key => rt.lower key = rt.lower name

def textNode (text : JsString) : XmlNode := if text = [] then [] else [(TEXT_KEY, .text text)]

/-- One item of an element that appears once or more. -/
def itemNode : XmlValue → XmlNode
  | .node entries => entries
  | .text value => textNode value
  | .list _ => []

def itemsOf : XmlValue → List XmlNode
  | .list values => values.map itemNode
  | value => [itemNode value]

def children (node : XmlNode) (name : JsString) : List XmlNode :=
  match findKey rt node name with
  | some key =>
    if ATTR_PREFIX.isPrefixOf key then [] else ((node.lookup key).map itemsOf).getD []
  | none => []

def child (node : XmlNode) (name : JsString) : Option XmlNode := (children rt node name).head?

def attr (node : XmlNode) (name : JsString) : Option JsString :=
  match (findKey rt node (ATTR_PREFIX ++ name)).bind fun key => node.lookup key with
  | some (.text value) => some (decodeXmlText rt.nativeCode value)
  | _ => none

def text (node : XmlNode) : Option JsString :=
  match node.lookup TEXT_KEY with
  | some (.text (u :: value)) => some (decodeXmlText rt.nativeCode (u :: value))
  | _ => none

end Tnp.Services
