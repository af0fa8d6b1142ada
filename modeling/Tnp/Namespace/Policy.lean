import Mathlib.Data.List.DropRight
import Mathlib.Tactic.Lemma
import Tnp.Crypto.Encoding
import Tnp.Namespace.IanaRootZone

/-!
Which authority owns a name: the registry, or public DNS.

The classification is a function of the name and of the table of native labels alone. Lower
case is a parameter: it is the one the runtime has.
-/

namespace Tnp.Namespace

inductive NamespaceType
  | tnpNative
  | publicDns
  deriving DecidableEq, Repr

def SPECIAL_USE_TLDS : List String :=
  ["alt", "example", "internal", "invalid", "local", "localhost", "onion", "test"]

def PRIVATE_USE_TLDS : List String :=
  ["corp", "home", "intranet", "lan", "localdomain", "mail", "private", "workgroup"]

/-- Every label TNP refuses to serve. -/
def RESERVED_TLDS : List String := IANA_ROOT_ZONE_TLDS ++ SPECIAL_USE_TLDS ++ PRIVATE_USE_TLDS

/-- The labels this code ships with. -/
def BUILTIN_NATIVE_TLDS : List String := ["ox"]

/-- What `trim` takes off either end. -/
def isSpace (c : Char) : Bool :=
  [0x09, 0x0a, 0x0b, 0x0c, 0x0d, 0x20, 0xa0, 0x1680, 0x2028, 0x2029, 0x202f, 0x205f, 0x3000,
    0xfeff].contains c.toNat || (0x2000 ≤ c.toNat && c.toNat ≤ 0x200a)

def trim (s : String) : String := String.ofList ((s.toList.dropWhile isSpace).rdropWhile isSpace)

lemma trim_of_ends {s : String} (hhead : ∀ c, s.toList.head? = some c → isSpace c = false)
    (hlast : ∀ c, s.toList.getLast? = some c → isSpace c = false) : trim s = s := by
  have hdrop : s.toList.dropWhile isSpace = s.toList := by
    rw [List.dropWhile_eq_self_iff]
    intro hpos
    rw [hhead _ (List.head?_eq_getElem? ▸ List.getElem?_eq_getElem hpos)]
    exact Bool.false_ne_true
  have hrdrop : s.toList.rdropWhile isSpace = s.toList := by
    rw [List.rdropWhile_eq_self_iff]
    intro hne
    rw [hlast _ (List.getLast?_eq_getLast_of_ne_nil hne)]
    exact Bool.false_ne_true
  rw [trim, hdrop, hrdrop, String.ofList_toList]

lemma trim_eq_self {s : String} (h : ∀ c ∈ s.toList, isSpace c = false) : trim s = s :=
  trim_of_ends (fun c hc => h c (List.mem_of_head? hc)) fun c hc => h c (List.mem_of_getLast? hc)

lemma isInfix_trim (s : String) : (trim s).toList <:+: s.toList := by
  rw [trim, String.toList_ofList]
  exact (List.rdropWhile_prefix _ _).isInfix.trans (List.dropWhile_suffix _).isInfix

lemma trim_trim (s : String) : trim (trim s) = trim s := by
  have hfront : (trim s).toList.dropWhile isSpace = (trim s).toList := by
    rw [trim, String.toList_ofList, List.dropWhile_eq_self_iff]
    intro hpos
    have hne : s.toList.dropWhile isSpace ≠ [] := by
      intro hnil
      rw [hnil] at hpos
      simp at hpos
    have hhead := List.head_dropWhile_not isSpace hne
    rw [(List.rdropWhile_prefix isSpace _).getElem hpos, ← List.head_eq_getElem hne, hhead]
    exact Bool.false_ne_true
  rw [trim, hfront, trim, String.toList_ofList, List.rdropWhile_idempotent]

lemma isSpace_of_visible {c : Char} (h : 0x21 ≤ c.toNat ∧ c.toNat ≤ 0x7e) : isSpace c = false := by
  simp [isSpace]
  omega

variable (toLowerCase : String → String)

/-- Lower case, no blanks around it, no trailing root dot. -/
def normalizeName (name : String) : String :=
  let cs := (toLowerCase (trim name)).toList
  String.ofList (if cs.getLast? = some '.' then cs.dropLast else cs)

def isReservedTld (tld : String) : Bool := RESERVED_TLDS.contains (normalizeName toLowerCase tld)

/-- The last label of a name. Empty when there is no dot. -/
def tldOf (name : String) : String :=
  let cs := (normalizeName toLowerCase name).toList
  if '.' ∈ cs then String.ofList (cs.rtakeWhile (· ≠ '.')) else ""

/-- The reserved check runs before the table is read, so that a table holding a reserved label
still shadows no public name. -/
def classifyName (name : String) (nativeTlds : List String) : NamespaceType :=
  let tld := tldOf toLowerCase name
  if tld = "" then .publicDns
  else if isReservedTld toLowerCase tld then .publicDns
  else if nativeTlds.any fun candidate => normalizeName toLowerCase candidate == tld then
    .tnpNative
  else .publicDns

/-! ### What may be registered -/

/-- Longest legal label. -/
def MAX_LABEL_LENGTH : ℕ := 63

def isAlphanumeric (c : Char) : Bool := ('a' ≤ c && c ≤ 'z') || ('0' ≤ c && c ≤ '9')

/-- `LABEL_RE`: alphanumeric with interior hyphens. -/
def matchesLabel (label : String) : Bool :=
  let cs := label.toList
  cs.head?.any isAlphanumeric && cs.getLast?.any isAlphanumeric &&
    cs.all fun c => isAlphanumeric c || c == '-'

inductive TldRejectionReason
  | reserved
  | syntactic
  deriving DecidableEq, Repr

/-- Why a label may not be a native one. -/
structure TldRejection where
  reason : TldRejectionReason
  detail : String
  deriving DecidableEq, Repr

def validateNativeTld (input : String) : Except TldRejection String :=
  let tld := normalizeName toLowerCase input
  if tld = "" then .error ⟨.syntactic, "TLD is empty"⟩
  else if '.' ∈ tld.toList then .error ⟨.syntactic, "TLD must be a single label"⟩
  else if MAX_LABEL_LENGTH < Crypto.utf16Length tld then
    .error ⟨.syntactic, s!"TLD must be at most {MAX_LABEL_LENGTH} characters"⟩
  else if !matchesLabel tld then
    .error ⟨.syntactic, "TLD may contain only letters, digits and interior hyphens"⟩
  else if "xn--".toList <+: tld.toList then
    .error ⟨.syntactic, "TLD may not use the IDN prefix xn--"⟩
  else if isReservedTld toLowerCase tld then
    .error ⟨.reserved, s!".{tld} is delegated by the public DNS root or reserved by the IETF. " ++
      "TNP does not serve names it does not own."⟩
  else .ok tld

/-- Whether the label before the last may be registered under a native one. -/
def validateNativeLabel (input : String) : Except String String :=
  let label := toLowerCase (trim input)
  if label = "" then .error "Name is empty"
  else if MAX_LABEL_LENGTH < Crypto.utf16Length label || !matchesLabel label then
    .error ("Domain name must be 1-63 characters, alphanumeric and hyphens only, cannot start " ++
      "or end with a hyphen")
  else .ok label

/-- Lower case of ASCII text. -/
def asciiLower (s : String) : String := String.ofList (s.toList.map Char.toLower)

end Tnp.Namespace
