import Mathlib.Data.List.Sort
import Tnp.Lib.OrderedMap
import Tnp.Protocol.CircuitCreate
import Tnp.SharedTypes.DnsRules

/-!
The file of active rules: written by one process, one rule a line in words, and read by another that
refuses the whole file for one line it does not know.
-/

namespace Tnp.Client.ActiveRules

open Tnp.Lib Tnp.Namespace Tnp.Crypto Tnp.SharedTypes Tnp.SharedTypes.DnsRules

/-- Largest file that is read. -/
def MAX_RULES_FILE_BYTES : ℕ := 1024 * 1024

structure PersonalRuleSnapshot where
  version : ℕ := 0
  pending : ℕ := 0
  blocks : OrderedMap String Bool := {}
  redirects : OrderedMap String DnsRuleTarget := {}

/-! ### Writing -/

def isBlock : DnsRule → Bool
  | .block _ _ => true
  | .redirect _ _ => false

def ruleLine : DnsRule → String
  | .block name subdomains => (if subdomains then "block-subdomains" else "block") ++ " " ++ name
  | .redirect name target => "redirect " ++ name ++ " " ++ target.kind ++ " " ++ target.value

/-- What stands before the rules, for whoever opens the file. -/
def HEADER : List String :=
  ["# TNP personal DNS rules active on this device (docs/architecture/naming.md §3).",
    "# Written by \x60tnp rules pull\x60 / \x60tnp rules approve\x60; edits are overwritten.",
    "# Applied only to lookups answered by this device's TNP resolver.",
    "# block: NXDOMAIN for the name. block-subdomains: also every name under it.",
    "# redirect: this exact name answers with the target, replacing its public meaning."]

/-- The rules sorted by name, the blocks before the redirects. Names are ASCII, so that the order
of their characters is that of their units. -/
def ordered (rules : List DnsRule) : List DnsRule :=
  let sorted := rules.mergeSort fun a b => decide (a.name ≤ b.name)
  sorted.filter isBlock ++ sorted.filter fun rule => !isBlock rule

def fileLines (version pending : ℕ) (rules : List DnsRule) : List String :=
  HEADER ++ ["version " ++ toString version, "pending " ++ toString pending] ++
    (ordered rules).map ruleLine

def formatActiveRulesFile (version pending : ℕ) (rules : List DnsRule) : String :=
  String.ofList (['\n'].intercalate ((fileLines version pending rules).map String.toList) ++ ['\n'])

/-! ### Reading -/

/-- `line.split(/\s+/)`, of a line that was trimmed and is not empty. -/
def words (line : String) : List String :=
  ((line.toList.splitOnP isSpace).filter (· ≠ [])).map String.ofList

/-- `/^\d{1,15}$/` -/
def isCount (word : String) : Bool :=
  1 ≤ word.toList.length && word.toList.length ≤ 15 && word.toList.all Char.isDigit

variable (parseUrl : UrlParser) (toLowerCase : String → String)

/-- A name that is written in its one form. -/
def nameOf (raw : String) : Option String :=
  match normalizeRuleName parseUrl toLowerCase raw with
  | .ok name => if name = raw then some name else none
  | .error _ => none

def PersonalRuleSnapshot.covers (snapshot : PersonalRuleSnapshot) (name : String) : Bool :=
  snapshot.blocks.has name || snapshot.redirects.has name

/-- The words of one line; `none` where the line is not one that this client writes. -/
def parseWords (snapshot : PersonalRuleSnapshot) : List String → Option PersonalRuleSnapshot
  | [kind, word] =>
    if kind = "version" ∨ kind = "pending" then
      if !isCount word then none
      else
        let count := Nat.ofDigitChars 10 word.toList 0
        if kind = "version" then some { snapshot with version := count }
        else some { snapshot with pending := count }
    else if kind = "block" ∨ kind = "block-subdomains" then
      match nameOf parseUrl toLowerCase word with
      | some name =>
        if snapshot.covers name then none
        else some { snapshot with blocks := snapshot.blocks.set name (kind = "block-subdomains") }
      | none => none
    else none
  | [kind, rawName, targetKind, value] =>
    if kind = "redirect" then
      match nameOf parseUrl toLowerCase rawName,
        parseDnsRuleTargetInput parseUrl toLowerCase value with
      | some name, some target =>
        if target.kind ≠ targetKind ∨ target.value ≠ value ∨ target = .name name ∨
            snapshot.covers name then none
        else some { snapshot with redirects := snapshot.redirects.set name target }
      | _, _ => none
    else none
  | _ => none

/-- One line. Empty lines and comments are passed over. -/
def parseLine (snapshot : PersonalRuleSnapshot) (raw : String) : Option PersonalRuleSnapshot :=
  let line := trim raw
  if line = "" ∨ line.toList.head? = some '#' then some snapshot
  else parseWords parseUrl toLowerCase snapshot (words line)

def parseLines (snapshot : PersonalRuleSnapshot) :
    ℕ → List String → Except String PersonalRuleSnapshot
  | _, [] => .ok snapshot
  | i, line :: rest =>
    match parseLine parseUrl toLowerCase snapshot line with
    | none => .error s!"line {i + 1} is not a rule this client wrote"
    | some snapshot => parseLines snapshot (i + 1) rest

def parseActiveRulesFile (text : String) : Except String PersonalRuleSnapshot :=
  parseLines parseUrl toLowerCase {} 0 ((text.toList.splitOn '\n').map String.ofList)

structure FileStat where
  isSymbolicLink : Bool
  isFile : Bool
  uid : ℕ
  mode : ℕ
  size : ℕ

/-- `PersonalRulesFile.load`: the rules, or the warning. Reading the file may fail with a code. -/
def load (path platform : String) (euid : Option ℕ) (st : FileStat)
    (readFile : Except String String) : Except String PersonalRuleSnapshot :=
  if st.isSymbolicLink || !st.isFile then
    .error (path ++ " is not a regular file; applying no rules")
  else if platform ≠ "win32" ∧ st.uid ≠ 0 ∧ some st.uid ≠ euid then
    .error s!"{path} is owned by uid {st.uid}, not root; applying no rules"
  else if platform ≠ "win32" ∧ st.mode &&& 0o022 ≠ 0 then
    .error (path ++ " is writable by group or others; applying no rules")
  else if MAX_RULES_FILE_BYTES < st.size then
    .error s!"{path} is larger than {MAX_RULES_FILE_BYTES} bytes; applying no rules"
  else
    match readFile with
    | .error code => .error s!"could not read {path} ({code}); applying no rules"
    | .ok text =>
      match parseActiveRulesFile parseUrl toLowerCase text with
      | .error e => .error (path ++ ": " ++ e ++ "; applying no rules")
      | .ok snapshot => .ok snapshot

end Tnp.Client.ActiveRules
