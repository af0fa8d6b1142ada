import Tnp.Lib.Separated
import Tnp.SharedTypes.DnsRecords
import Tnp.SharedTypes.Relays

/-!
The rules of a user for names of their own devices, and the parser of a decrypted set of them.

Names are put in one form by the host parser of the runtime's URLs, which is a parameter here as
lower case is.
-/

namespace Tnp.SharedTypes.DnsRules

open Tnp.Lib Tnp.Namespace Tnp.Crypto
open Tnp.SharedTypes.DnsRecords (isValidIpv6)

def MAX_DNS_RULES : ℕ := 2000

inductive DnsRuleTarget
  | ipv4 (value : String)
  | ipv6 (value : String)
  | name (value : String)
  deriving DecidableEq, Repr

def DnsRuleTarget.kind : DnsRuleTarget → String
  | .ipv4 _ => "ipv4"
  | .ipv6 _ => "ipv6"
  | .name _ => "name"

def DnsRuleTarget.value : DnsRuleTarget → String
  | .ipv4 value => value
  | .ipv6 value => value
  | .name value => value

inductive DnsRule
  | block (name : String) (subdomains : Bool)
  | redirect (name : String) (target : DnsRuleTarget)
  deriving DecidableEq, Repr

def DnsRule.name : DnsRule → String
  | .block name _ => name
  | .redirect name _ => name

inductive DnsRuleField
  | body
  | type
  | name
  | target
  deriving DecidableEq, Repr

inductive DnsRuleErrorCode
  | bodyInvalid
  | tooMany
  | typeInvalid
  | nameRequired
  | nameInvalid
  | nameSingleLabel
  | nameIp
  | targetRequired
  | targetInvalid
  | targetSelf
  | redirectNative
  | duplicate
  deriving DecidableEq, Repr

structure DnsRuleParseError where
  field : DnsRuleField
  code : DnsRuleErrorCode
  error : String
  deriving DecidableEq, Repr

abbrev DnsRuleParseResult := Except DnsRuleParseError

def fail {α : Type} (field : DnsRuleField) (code : DnsRuleErrorCode) (error : String) :
    DnsRuleParseResult α := .error ⟨field, code, error⟩

/-! ### Names -/

/-- `LDH_LABEL_RE` -/
def isLdhLabel (label : List Char) : Bool :=
  label.length ≤ 63 && matchesLabel (String.ofList label)

/-- `FORBIDDEN_NAME_CHARS_RE` -/
def isForbidden (c : Char) : Bool :=
  isSpace c || ['/', ':', '?', '#', '@', '[', ']', '\\', '%'].contains c

/-- `replace(/\.$/, '')`. -/
def withoutRootDot (s : String) : String :=
  String.ofList (if s.toList.getLast? = some '.' then s.toList.dropLast else s.toList)

variable (parseUrl : UrlParser) (toLowerCase : String → String)

def normalizeRuleName (input : String) : Except DnsRuleErrorCode String :=
  let raw := withoutRootDot (trim input)
  if raw = "" then .error .nameRequired
  else if isValidIpv4 raw || isValidIpv6 (String.ofList (withoutBrackets raw)) then .error .nameIp
  else if raw.toList.any isForbidden then .error .nameInvalid
  else
    match parseUrl ("http://" ++ raw ++ "/") with
    | none => .error .nameInvalid
    | some url =>
      let host := withoutRootDot (toLowerCase url.hostname)
      -- numbers that are not four decimal ones are read as an address too
      if isValidIpv4 host || host.toList.head? == some '[' then .error .nameIp
      else if utf16Length host = 0 ∨ 253 < utf16Length host then .error .nameInvalid
      else
        let labels := host.toList.splitOn '.'
        if !labels.all isLdhLabel then .error .nameInvalid
        else if (labels.getLastD []).all Char.isDigit then .error .nameIp
        else if labels.length < 2 then .error .nameSingleLabel
        else .ok host

/-! ### Targets -/

/-- A target typed as one text. -/
def parseDnsRuleTargetInput (input : String) : Option DnsRuleTarget :=
  let raw := trim input
  if raw = "" then none
  else if isValidIpv4 raw then some (.ipv4 raw)
  else
    let v6 := String.ofList (withoutBrackets raw)
    if isValidIpv6 v6 then some (.ipv6 (toLowerCase v6))
    else (normalizeRuleName parseUrl toLowerCase raw).toOption.map .name

def parseTarget (value : Value) : Option DnsRuleTarget :=
  match asRecord value with
  | none => none
  | some record =>
    match Value.field record "value", Value.field record "kind" with
    | .string value, .string kind =>
      if kind = "ipv4" then if isValidIpv4 value then some (.ipv4 value) else none
      else if kind = "ipv6" then
        if isValidIpv6 value then some (.ipv6 (toLowerCase value)) else none
      else if kind = "name" then (normalizeRuleName parseUrl toLowerCase value).toOption.map .name
      else none
    | _, _ => none

/-! ### Rules -/

/-- `NAME_ERRORS` -/
def nameError : DnsRuleErrorCode → String
  | .nameRequired => "name is required"
  | .nameInvalid => "name is not a valid domain name"
  | .nameSingleLabel => "a rule must name a domain, never a whole TLD"
  | .nameIp => "name must be a domain name, not an IP address"
  | _ => ""

/-- A value that is a text, or the empty text. -/
def textOf : Value → String
  | .string s => s
  | _ => ""

def isAbsent : Value → Bool
  | .undefined => true
  | .null => true
  | _ => false

def isTrue : Value → Bool
  | .bool b => b
  | _ => false

variable (isNative : String → Bool)

def parseRedirect (record : Record) (name : String) : DnsRuleParseResult DnsRule :=
  if isNative name then
    fail .name .redirectNative
      "a TNP-native name cannot be redirected: the TNP namespace is authoritative for it"
  else if isAbsent (Value.field record "target") then
    fail .target .targetRequired "target is required"
  else
    match parseTarget parseUrl toLowerCase (Value.field record "target") with
    | none =>
      fail .target .targetInvalid "target must be an IPv4 or IPv6 address or a domain name"
    | some target =>
      if target = .name name then
        fail .target .targetSelf "a name cannot redirect to itself"
      else .ok (.redirect name target)

def parseDnsRule (input : Value) : DnsRuleParseResult DnsRule :=
  match asRecord input with
  | none => fail .body .bodyInvalid "a rule must be an object"
  | some record =>
    let type := textOf (Value.field record "type")
    if type ≠ "block" ∧ type ≠ "redirect" then
      fail .type .typeInvalid "type must be block or redirect"
    else
      match normalizeRuleName parseUrl toLowerCase (textOf (Value.field record "name")) with
      | .error code => fail .name code (nameError code)
      | .ok name =>
        if type = "block" then .ok (.block name (isTrue (Value.field record "subdomains")))
        else parseRedirect parseUrl toLowerCase isNative record name

/-! ### Sets -/

/-- A rule that is left out, and why. -/
structure RejectedDnsRule where
  index : ℕ
  code : DnsRuleErrorCode
  error : String
  deriving DecidableEq, Repr

/-- What was parsed of a set so far. -/
structure ParsedDnsRules where
  rules : List DnsRule := []
  rejected : List RejectedDnsRule := []
  seen : List String := []

/-- The next entry of a set. -/
def ParsedDnsRules.add (parsed : ParsedDnsRules) (entry : Value × ℕ) : ParsedDnsRules :=
  match parseDnsRule parseUrl toLowerCase isNative entry.1 with
  | .error e => { parsed with rejected := parsed.rejected ++ [⟨entry.2, e.code, e.error⟩] }
  | .ok rule =>
    if parsed.seen.contains rule.name then
      { parsed with
        rejected := parsed.rejected ++
          [⟨entry.2, .duplicate, "another rule already covers this name"⟩] }
    else
      { parsed with rules := parsed.rules ++ [rule], seen := rule.name :: parsed.seen }

def parseDnsRuleSet (input : Value) :
    ParseResult (List DnsRule × List RejectedDnsRule) :=
  match (asRecord input).map fun record => Value.field record "rules" with
  | some (.array entries) =>
    if MAX_DNS_RULES < entries.length then
      .error s!"a rule set holds at most {MAX_DNS_RULES} rules"
    else
      let parsed := entries.zipIdx.foldl (ParsedDnsRules.add parseUrl toLowerCase isNative) {}
      .ok (parsed.rules, parsed.rejected)
  | _ => .error "a rule set is an object with a rules array"

/-! ### How an address is written -/

lemma of_ascii {P : Char → Prop} (hall : ∀ i : Fin 128, P (Char.ofNat i)) {c : Char}
    (hc : c.toNat < 128) : P c := by
  have h := hall ⟨c.toNat, hc⟩
  rwa [Char.ofNat_toNat] at h

/-- A digit of either base, a dot or a colon. -/
def isAddressChar (c : Char) : Bool := isHexadecimal c || c == '.' || c == ':'

lemma ascii_of_isAddressChar {c : Char} (h : isAddressChar c = true) : c.toNat < 128 := by
  simp only [isAddressChar, isHexadecimal, Char.isDigit, Bool.or_eq_true, Bool.and_eq_true,
    decide_eq_true_eq, beq_iff_eq] at h
  have hle (d : Char) (hd : d.toNat < 128) (hcd : c ≤ d) : c.toNat < 128 :=
    Nat.lt_of_le_of_lt hcd hd
  rcases h with ((((⟨-, h⟩ | ⟨-, h⟩) | ⟨-, h⟩) | rfl) | rfl)
  · exact hle '9' (by decide) h
  · exact hle 'f' (by decide) h
  · exact hle 'F' (by decide) h
  · decide
  · decide

/-- What there is to know of the characters of an address. -/
lemma isAddressChar_spec {c : Char} (h : isAddressChar c = true) :
    isSpace c = false ∧ c ≠ '[' ∧ c ≠ ']' ∧ isAddressChar c.toLower = true ∧
      isHexadecimal c.toLower = isHexadecimal c ∧ (c.toLower = ':' ↔ c = ':') ∧
      (c.toLower = '.' ↔ c = '.') ∧ c.toLower.toNat < 128 := by
  refine of_ascii (P := fun c => isAddressChar c = true → isSpace c = false ∧ c ≠ '[' ∧ c ≠ ']' ∧
    isAddressChar c.toLower = true ∧ isHexadecimal c.toLower = isHexadecimal c ∧
      (c.toLower = ':' ↔ c = ':') ∧ (c.toLower = '.' ↔ c = '.') ∧ c.toLower.toNat < 128) ?_
    (ascii_of_isAddressChar h) h
  decide

lemma isDigit_spec {c : Char} (h : c.isDigit = true ∨ c = '.') :
    isAddressChar c = true ∧ c ≠ ':' ∧ c.toLower = c := by
  have hascii : c.toNat < 128 := by
    rcases h with h | rfl
    · exact Nat.lt_of_le_of_lt (digit_bounds h).2 (by decide)
    · decide
  refine of_ascii (P := fun c => (c.isDigit = true ∨ c = '.') →
    isAddressChar c = true ∧ c ≠ ':' ∧ c.toLower = c) ?_ hascii h
  decide

lemma isIpv4Part_digit {part : List Char} (h : isIpv4Part part = true) {c : Char}
    (hc : c ∈ part) : c.isDigit = true := by
  simp only [isIpv4Part, Bool.and_eq_true, Bool.or_eq_true, beq_iff_eq, List.all_eq_true] at h
  obtain ⟨rfl | ⟨⟨-, hall⟩, -⟩, -⟩ := h
  · exact List.mem_singleton.mp hc ▸ rfl
  · exact hall c hc

/-- An IPv4 address is digits and dots. -/
lemma mem_of_isValidIpv4 {s : String} (h : isValidIpv4 s = true) {c : Char} (hc : c ∈ s.toList) :
    c.isDigit = true ∨ c = '.' := by
  simp only [isValidIpv4, Bool.and_eq_true, List.all_eq_true] at h
  rcases @mem_splitOn _ _ _ '.' _ hc with rfl | ⟨part, hpart, hmem⟩
  · exact .inr rfl
  · exact .inl (isIpv4Part_digit (h.2 part hpart) hmem)

section Ipv6

open Tnp.SharedTypes.DnsRecords

lemma cutDoubleColon_cons {c : Char} {rest : List Char}
    (hne : ∀ back, c = ':' → rest = ':' :: back → False) :
    cutDoubleColon (c :: rest) = (cutDoubleColon rest).map fun cut => (c :: cut.1, cut.2) := by
  rw [cutDoubleColon]
  exact hne

lemma cutDoubleColon_eq_some {cs before after : List Char}
    (h : cutDoubleColon cs = some (before, after)) : cs = before ++ ':' :: ':' :: after := by
  induction cs using cutDoubleColon.induct generalizing before with
  | case1 rest =>
    rw [cutDoubleColon] at h
    obtain ⟨rfl, rfl⟩ := Prod.mk.inj (Option.some.inj h)
    rfl
  | case2 c rest hne ih =>
    rw [cutDoubleColon_cons hne] at h
    obtain ⟨⟨front, back⟩, hcut, heq⟩ := Option.map_eq_some_iff.mp h
    obtain ⟨rfl, rfl⟩ := Prod.mk.inj heq
    rw [ih hcut]
    rfl
  | case3 => simp [cutDoubleColon] at h

lemma cutDoubleColon_eq_none {cs : List Char} (h : ':' ∉ cs) : cutDoubleColon cs = none := by
  cases hcut : cutDoubleColon cs with
  | none => rfl
  | some cut => exact absurd (by simp [cutDoubleColon_eq_some hcut]) h

/-- Where colons and only they become colons, the text is cut at the same place. -/
lemma cutDoubleColon_map {f : Char → Char} {cs : List Char} (h : ∀ c ∈ cs, f c = ':' ↔ c = ':') :
    cutDoubleColon (cs.map f) =
      (cutDoubleColon cs).map fun cut => (cut.1.map f, cut.2.map f) := by
  induction cs using cutDoubleColon.induct with
  | case1 rest =>
    have hcolon : f ':' = ':' := (h ':' (by simp)).mpr rfl
    rw [List.map_cons, List.map_cons, hcolon, cutDoubleColon, cutDoubleColon]
    rfl
  | case2 c rest hne ih =>
    obtain ⟨hc, hrest⟩ := List.forall_mem_cons.mp h
    rw [cutDoubleColon_cons hne, List.map_cons, cutDoubleColon_cons, ih hrest, Option.map_map,
      Option.map_map]
    · rfl
    · intro back hfc hback
      cases rest with
      | nil => simp at hback
      | cons d rest =>
        obtain ⟨hfd, -⟩ := List.cons.inj hback
        exact hne rest (hc.mp hfc) (by rw [(hrest d List.mem_cons_self).mp hfd])
  | case3 => rfl

lemma groupsOf_eq_some {part : List Char} {groups : List (List Char)}
    (h : groupsOf part = some groups) {c : Char} (hc : c ∈ part) :
    c = ':' ∨ ∃ group ∈ groups, c ∈ group := by
  unfold groupsOf at h
  split at h
  next hnil => simp [hnil] at hc
  dsimp only at h
  split at h
  · simp at h
  · obtain rfl := Option.some.inj h
    exact mem_splitOn hc

lemma groupsOf_map {f : Char → Char} {part : List Char} (h : ∀ c ∈ part, f c = ':' ↔ c = ':') :
    groupsOf (part.map f) = (groupsOf part).map (List.map (List.map f)) := by
  simp only [groupsOf, List.map_eq_nil_iff]
  split
  · rfl
  rw [splitOn_map h]
  have hempty : ((part.splitOn ':').map (List.map f)).contains [] =
      (part.splitOn ':').contains [] := by
    rw [Bool.eq_iff_iff, List.contains_iff_mem, List.contains_iff_mem, List.mem_map]
    refine ⟨fun ⟨group, hmem, hnil⟩ => List.map_eq_nil_iff.mp hnil ▸ hmem,
      fun hmem => ⟨[], hmem, rfl⟩⟩
  rw [hempty]
  split
  · rfl
  · rfl

lemma mem_of_groupsWidth {groups : List (List Char)} {n : ℕ} (h : groupsWidth groups = some n) :
    ∀ group ∈ groups, ∀ c ∈ group, isAddressChar c = true := by
  induction groups generalizing n with
  | nil => simp
  | cons group groups ih =>
    rw [groupsWidth] at h
    rw [List.forall_mem_cons]
    split at h
    next hlast =>
      split at h
      next hquad =>
        refine ⟨fun c hc => (isDigit_spec (mem_of_isValidIpv4 hquad ?_)).1, ?_⟩
        · rwa [String.toList_ofList]
        · simp [hlast.1]
      · simp at h
    · split at h
      next hhex =>
        obtain ⟨m, hm, -⟩ := Option.map_eq_some_iff.mp h
        refine ⟨fun c hc => ?_, ih hm⟩
        simp [isAddressChar, List.all_eq_true.mp hhex.2.2 c hc]
      · simp at h

lemma groupsWidth_lower {groups : List (List Char)} {n : ℕ} (h : groupsWidth groups = some n) :
    groupsWidth (groups.map (List.map Char.toLower)) = some n := by
  induction groups generalizing n with
  | nil => exact h
  | cons group groups ih =>
    have hchars := mem_of_groupsWidth h
    have hgroup : ∀ c ∈ group, isAddressChar c = true := hchars group List.mem_cons_self
    have hdot : '.' ∈ group.map Char.toLower ↔ '.' ∈ group := by
      rw [List.mem_map]
      constructor
      · rintro ⟨c, hc, hlower⟩
        exact (isAddressChar_spec (hgroup c hc)).2.2.2.2.2.2.1.mp hlower ▸ hc
      · exact fun hmem => ⟨'.', hmem, rfl⟩
    have hhex : (group.map Char.toLower).all isHexadecimal = group.all isHexadecimal := by
      rw [List.all_map, Bool.eq_iff_iff, List.all_eq_true, List.all_eq_true]
      refine forall₂_congr fun c hc => ?_
      rw [Function.comp_apply, (isAddressChar_spec (hgroup c hc)).2.2.2.2.1]
    rw [groupsWidth] at h
    simp only [List.map_cons, groupsWidth, List.map_eq_nil_iff, hdot, List.length_map, hhex]
    split at h
    next hlast =>
      rw [if_pos hlast]
      split at h
      next hquad =>
        have hsame : group.map Char.toLower = group := by
          refine (List.map_congr_left fun c hc => ?_).trans (List.map_id group)
          refine (isDigit_spec (mem_of_isValidIpv4 hquad ?_)).2.2
          rwa [String.toList_ofList]
        rw [hsame, if_pos hquad]
        exact h
      · simp at h
    next hnotlast =>
      rw [if_neg hnotlast]
      split at h
      next hhex =>
        obtain ⟨m, hm, hn⟩ := Option.map_eq_some_iff.mp h
        rw [if_pos hhex, ih hm]
        exact congrArg some hn
      · simp at h

lemma mem_of_groupsOf {part : List Char} {groups : List (List Char)}
    (h : groupsOf part = some groups)
    (hall : ∀ group ∈ groups, ∀ c ∈ group, isAddressChar c = true) :
    ∀ c ∈ part, isAddressChar c = true := by
  intro c hc
  rcases groupsOf_eq_some h hc with rfl | ⟨group, hgroup, hmem⟩
  · rfl
  · exact hall group hgroup c hmem

/-- The groups of an address: without a double colon they fill it, with one they leave a place. -/
lemma isValidIpv6_cases {s : String} (h : isValidIpv6 s = true) :
    (cutDoubleColon s.toList = none ∧
      ∃ groups, groupsOf s.toList = some groups ∧ groupsWidth groups = some 8) ∨
    ∃ before after head tail width, cutDoubleColon s.toList = some (before, after) ∧
      cutDoubleColon (':' :: after) = none ∧ groupsOf before = some head ∧
      groupsOf after = some tail ∧ groupsWidth (head ++ tail) = some width ∧ width ≤ 7 := by
  unfold isValidIpv6 at h
  split at h
  · simp at h
  split at h
  next hcut =>
    rw [beq_iff_eq, Option.bind_eq_bind, Option.bind_eq_some_iff] at h
    exact .inl ⟨hcut, h⟩
  next before after hcut =>
    split at h
    · simp at h
    next hsecond =>
    split at h
    next head tail hhead htail =>
      rw [Option.any_eq_true] at h
      obtain ⟨width, hwidth, hle⟩ := h
      refine .inr ⟨before, after, head, tail, width, hcut, ?_, hhead, htail, hwidth, ?_⟩
      · simpa using hsecond
      · simpa using hle
    · simp at h

lemma mem_of_isValidIpv6 {s : String} (h : isValidIpv6 s = true) {c : Char}
    (hc : c ∈ s.toList) : isAddressChar c = true := by
  rcases isValidIpv6_cases h with ⟨-, groups, hgroups, hwidth⟩ |
    ⟨before, after, head, tail, width, hcut, -, hhead, htail, hwidth, -⟩
  · exact mem_of_groupsOf hgroups (mem_of_groupsWidth hwidth) c hc
  · have hall := mem_of_groupsWidth hwidth
    rw [cutDoubleColon_eq_some hcut, List.mem_append, List.mem_cons, List.mem_cons] at hc
    rcases hc with hc | rfl | rfl | hc
    · exact mem_of_groupsOf hhead (fun g hg => hall g (List.mem_append_left _ hg)) c hc
    · rfl
    · rfl
    · exact mem_of_groupsOf htail (fun g hg => hall g (List.mem_append_right _ hg)) c hc

/-- No address is of both kinds. -/
lemma isValidIpv4_of_isValidIpv6 {s : String} (h : isValidIpv6 s = true) :
    isValidIpv4 s = false := by
  by_contra hfour
  rw [Bool.not_eq_false] at hfour
  have hcolon : ':' ∉ s.toList := fun hmem =>
    (isDigit_spec (mem_of_isValidIpv4 hfour hmem)).2.1 rfl
  have hcut := cutDoubleColon_eq_none hcolon
  rcases isValidIpv6_cases h with ⟨-, groups, hgroups, hwidth⟩ | ⟨_, _, _, _, _, hcut', -⟩
  · unfold groupsOf at hgroups
    split at hgroups
    · obtain rfl := Option.some.inj hgroups
      simp [groupsWidth] at hwidth
    dsimp only at hgroups
    rw [List.splitOn_eq_singleton hcolon] at hgroups
    split at hgroups
    · simp at hgroups
    obtain rfl := Option.some.inj hgroups
    simp only [groupsWidth, true_and] at hwidth
    split at hwidth
    · split at hwidth <;> simp at hwidth
    · split at hwidth <;> simp at hwidth
  · simp [hcut] at hcut'

lemma utf16Length_of_ascii {s : String} (h : ∀ c ∈ s.toList, c.toNat < 128) :
    utf16Length s = s.toList.length := by
  have hone : ∀ c ∈ s.toList, (if c.toNat < 0x10000 then 1 else 2) = 1 := by
    intro c hc
    have hlt := h c hc
    rw [if_pos (by omega)]
  rw [utf16Length, List.map_congr_left hone]
  simp

/-- An address in lower case is an address. -/
lemma isValidIpv6_asciiLower {s : String} (h : isValidIpv6 s = true) :
    isValidIpv6 (asciiLower s) = true := by
  have hchars : ∀ c ∈ s.toList, isAddressChar c = true := fun c hc => mem_of_isValidIpv6 h hc
  have hcolon : ∀ c ∈ s.toList, c.toLower = ':' ↔ c = ':' := fun c hc =>
    (isAddressChar_spec (hchars c hc)).2.2.2.2.2.1
  have hlength : utf16Length (asciiLower s) = utf16Length s := by
    rw [utf16Length_of_ascii fun c hc => ascii_of_isAddressChar (hchars c hc),
      utf16Length_of_ascii, asciiLower, String.toList_ofList, List.length_map]
    intro c hc
    rw [asciiLower, String.toList_ofList, List.mem_map] at hc
    obtain ⟨d, hd, rfl⟩ := hc
    exact (isAddressChar_spec (hchars d hd)).2.2.2.2.2.2.2
  have hlist : (asciiLower s).toList = s.toList.map Char.toLower := by
    rw [asciiLower, String.toList_ofList]
  have hbound : ¬ (utf16Length s = 0 ∨ 45 < utf16Length s) := by
    intro hbad
    simp [isValidIpv6, if_pos hbad] at h
  rw [isValidIpv6, hlength, if_neg hbound, hlist, cutDoubleColon_map hcolon]
  rcases isValidIpv6_cases h with ⟨hcut, groups, hgroups, hwidth⟩ |
    ⟨before, after, head, tail, width, hcut, hsecond, hhead, htail, hwidth, hle⟩
  · rw [hcut]
    dsimp only [Option.map_none]
    rw [groupsOf_map hcolon, hgroups]
    simpa using groupsWidth_lower hwidth
  · have hparts := cutDoubleColon_eq_some hcut
    have hbefore : ∀ c ∈ before, c.toLower = ':' ↔ c = ':' := fun c hc =>
      hcolon c (by rw [hparts]; exact List.mem_append_left _ hc)
    have hafter : ∀ c ∈ after, c.toLower = ':' ↔ c = ':' := fun c hc =>
      hcolon c (by rw [hparts]; simp [hc])
    have hsecond' : cutDoubleColon (':' :: after.map Char.toLower) = none := by
      have hmap := cutDoubleColon_map (List.forall_mem_cons.mpr
        ⟨show (':' : Char).toLower = ':' ↔ (':' : Char) = ':' by decide, hafter⟩)
      rw [hsecond, List.map_cons] at hmap
      exact hmap
    have hsum := groupsWidth_lower hwidth
    rw [List.map_append] at hsum
    rw [hcut]
    dsimp only [Option.map_some]
    rw [hsecond', groupsOf_map hbefore, groupsOf_map hafter, hhead, htail]
    simp only [Option.isSome_none, Bool.false_eq_true, if_false, Option.map_some, hsum,
      Option.any_some, decide_eq_true hle]

end Ipv6

/-! ### How a name is written -/

/-- Letters, digits, hyphens and dots. -/
def isHostChar (c : Char) : Bool := Namespace.isAlphanumeric c || c == '-' || c == '.'

lemma isHostChar_spec {c : Char} (h : isHostChar c = true) :
    isSpace c = false ∧ c.toNat < 128 ∧ c ≠ '[' ∧ c ≠ ']' := by
  have hascii : c.toNat < 128 := by
    simp only [isHostChar, Namespace.isAlphanumeric, Bool.or_eq_true, Bool.and_eq_true,
      decide_eq_true_eq, beq_iff_eq] at h
    rcases h with ((⟨-, h⟩ | ⟨-, h⟩) | rfl) | rfl
    · exact Nat.lt_of_le_of_lt h (show ('z' : Char).toNat < 128 by decide)
    · exact Nat.lt_of_le_of_lt h (show ('9' : Char).toNat < 128 by decide)
    · decide
    · decide
  refine of_ascii (P := fun c => isHostChar c = true →
    isSpace c = false ∧ c.toNat < 128 ∧ c ≠ '[' ∧ c ≠ ']') ?_ hascii h
  decide

/-- What a normalized name is written with, and how long it may be. -/
structure IsHost (name : String) : Prop where
  labels : ∀ label ∈ name.toList.splitOn '.', isLdhLabel label = true
  ne_empty : name ≠ ""
  length_le : utf16Length name ≤ 253

section Host

variable {name : String} (h : IsHost name)
include h

lemma IsHost.chars : ∀ c ∈ name.toList, isHostChar c = true := by
  intro c hc
  rcases @mem_splitOn _ _ _ '.' _ hc with rfl | ⟨label, hlabel, hmem⟩
  · rfl
  · have hldh := h.labels label hlabel
    simp only [isLdhLabel, matchesLabel, Bool.and_eq_true, String.toList_ofList,
      List.all_eq_true] at hldh
    rw [isHostChar, hldh.2.2 c hmem, Bool.true_or]

lemma IsHost.trim_eq : trim name = name :=
  trim_eq_self fun c hc => (isHostChar_spec (h.chars c hc)).1

lemma IsHost.withoutRootDot_eq : withoutRootDot name = name := by
  have hlast : name.toList.getLast? ≠ some '.' := by
    intro hdot
    obtain ⟨front, hfront⟩ := List.getLast?_eq_some_iff.mp hdot
    have hempty : [] ∈ name.toList.splitOn '.' := by
      rw [hfront, List.splitOn_append_cons_self]
      simp
    exact absurd (h.labels [] hempty) (by decide)
  rw [withoutRootDot, if_neg hlast, String.ofList_toList]

lemma IsHost.length_eq : utf16Length name = name.toList.length :=
  utf16Length_of_ascii fun c hc => (isHostChar_spec (h.chars c hc)).2.1

end Host

lemma withoutBrackets_eq {s : String} (h : ∀ c ∈ s.toList, c ≠ '[' ∧ c ≠ ']') :
    String.ofList (withoutBrackets s) = s := by
  have hhead : s.toList.head? ≠ some '[' := fun hc => (h _ (List.mem_of_head? hc)).1 rfl
  have hlast : s.toList.getLast? ≠ some ']' := fun hc => (h _ (List.mem_of_getLast? hc)).2 rfl
  rw [withoutBrackets, if_neg hhead, if_neg hlast, String.ofList_toList]

/-! ### What a parsed set holds -/

/-- Lower case of ASCII text, as the runtime's is. -/
def LowersAscii : Prop :=
  ∀ s : String, (∀ c ∈ s.toList, c.toNat < 128) → toLowerCase s = asciiLower s

/-- A normalized name is normalized. -/
def Idempotent : Prop :=
  ∀ input name, normalizeRuleName parseUrl toLowerCase input = .ok name →
    normalizeRuleName parseUrl toLowerCase name = .ok name

def DnsRuleTarget.Valid : DnsRuleTarget → Prop
  | .ipv4 value => isValidIpv4 value = true
  | .ipv6 value => isValidIpv6 value = true ∧ toLowerCase value = value
  | .name value => normalizeRuleName parseUrl toLowerCase value = .ok value

def DnsRule.Valid : DnsRule → Prop
  | .block name _ => normalizeRuleName parseUrl toLowerCase name = .ok name
  | .redirect name target => normalizeRuleName parseUrl toLowerCase name = .ok name ∧
    target.Valid parseUrl toLowerCase ∧ target ≠ .name name

variable {parseUrl : UrlParser} {toLowerCase : String → String}

lemma isHost_of_normalizeRuleName {input name : String}
    (h : normalizeRuleName parseUrl toLowerCase input = .ok name) : IsHost name := by
  unfold normalizeRuleName at h
  dsimp only at h
  obtain ⟨-, h⟩ := check_eq_ok.mp h
  obtain ⟨-, h⟩ := check_eq_ok.mp h
  obtain ⟨-, h⟩ := check_eq_ok.mp h
  split at h
  · simp at h
  obtain ⟨-, h⟩ := check_eq_ok.mp h
  obtain ⟨hlength, h⟩ := check_eq_ok.mp h
  obtain ⟨hlabels, h⟩ := check_eq_ok.mp h
  obtain ⟨-, h⟩ := check_eq_ok.mp h
  obtain ⟨-, h⟩ := check_eq_ok.mp h
  obtain rfl := Except.ok.inj h
  rw [not_or, not_lt] at hlength
  refine ⟨?_, ?_, hlength.2⟩
  · simpa using hlabels
  · intro hempty
    rw [hempty] at hlength
    exact hlength.1 rfl

/-- A normalized name is no address. -/
lemma not_address_of_normalizeRuleName {name : String}
    (h : normalizeRuleName parseUrl toLowerCase name = .ok name) :
    isValidIpv4 name = false ∧ isValidIpv6 name = false := by
  have hhost := isHost_of_normalizeRuleName h
  unfold normalizeRuleName at h
  dsimp only at h
  rw [hhost.trim_eq, hhost.withoutRootDot_eq, withoutBrackets_eq fun c hc =>
    (isHostChar_spec (hhost.chars c hc)).2.2] at h
  obtain ⟨-, h⟩ := check_eq_ok.mp h
  obtain ⟨haddress, -⟩ := check_eq_ok.mp h
  simpa using haddress

/-- A target typed as it is kept is parsed as it is. -/
lemma parseDnsRuleTargetInput_value {target : DnsRuleTarget}
    (h : target.Valid parseUrl toLowerCase) :
    parseDnsRuleTargetInput parseUrl toLowerCase target.value = some target := by
  cases target with
  | ipv4 value =>
    have htrim : trim value = value := trim_eq_self fun c hc =>
      (isAddressChar_spec (isDigit_spec (mem_of_isValidIpv4 h hc)).1).1
    change isValidIpv4 value = true at h
    have hne : value ≠ "" := by
      rintro rfl
      exact absurd h (by decide)
    simp [parseDnsRuleTargetInput, DnsRuleTarget.value, htrim, hne, h]
  | ipv6 value =>
    obtain ⟨hvalid, hlower⟩ := h
    have hchars : ∀ c ∈ value.toList, isAddressChar c = true := fun c hc =>
      mem_of_isValidIpv6 hvalid hc
    have htrim : trim value = value := trim_eq_self fun c hc =>
      (isAddressChar_spec (hchars c hc)).1
    have hbrackets : String.ofList (withoutBrackets value) = value :=
      withoutBrackets_eq fun c hc =>
        ⟨(isAddressChar_spec (hchars c hc)).2.1, (isAddressChar_spec (hchars c hc)).2.2.1⟩
    have hne : value ≠ "" := by
      rintro rfl
      exact absurd hvalid (by decide)
    simp [parseDnsRuleTargetInput, DnsRuleTarget.value, htrim, hne, hbrackets, hvalid, hlower,
      isValidIpv4_of_isValidIpv6 hvalid]
  | name value =>
    change normalizeRuleName parseUrl toLowerCase value = .ok value at h
    have hhost := isHost_of_normalizeRuleName h
    obtain ⟨hfour, hsix⟩ := not_address_of_normalizeRuleName h
    have hbrackets : String.ofList (withoutBrackets value) = value :=
      withoutBrackets_eq fun c hc => (isHostChar_spec (hhost.chars c hc)).2.2
    simp [parseDnsRuleTargetInput, DnsRuleTarget.value, hhost.trim_eq, hhost.ne_empty, hbrackets,
      hfour, hsix, h, Except.toOption]

section Parsed

variable (hlower : LowersAscii toLowerCase) (hidem : Idempotent parseUrl toLowerCase)
include hlower hidem

lemma parseTarget_valid {value : Value} {target : DnsRuleTarget}
    (h : parseTarget parseUrl toLowerCase value = some target) :
    target.Valid parseUrl toLowerCase := by
  unfold parseTarget at h
  split at h
  · simp at h
  split at h
  next value kind hvalue hkind =>
    split at h
    · split at h
      next hfour =>
        obtain rfl := Option.some.inj h
        exact hfour
      · simp at h
    split at h
    · split at h
      next hsix =>
        obtain rfl := Option.some.inj h
        have hascii : ∀ c ∈ value.toList, c.toNat < 128 := fun c hc =>
          ascii_of_isAddressChar (mem_of_isValidIpv6 hsix hc)
        rw [hlower value hascii]
        refine ⟨isValidIpv6_asciiLower hsix, ?_⟩
        rw [hlower _ fun c hc =>
          ascii_of_isAddressChar (mem_of_isValidIpv6 (isValidIpv6_asciiLower hsix) hc)]
        simp only [asciiLower, String.toList_ofList, List.map_map]
        congr 1
        refine List.map_congr_left fun c hc => ?_
        exact of_ascii (P := fun c => c.toLower.toLower = c.toLower) (by decide)
          (hascii c hc)
      · simp at h
    split at h
    · obtain ⟨name, hname, rfl⟩ := Option.map_eq_some_iff.mp h
      exact hidem _ _ (toOption_eq_some.mp hname)
    · simp at h
  · simp at h

lemma parseDnsRule_valid {isNative : String → Bool} {input : Value} {rule : DnsRule}
    (h : parseDnsRule parseUrl toLowerCase isNative input = .ok rule) :
    rule.Valid parseUrl toLowerCase := by
  unfold parseDnsRule at h
  split at h
  · simp [fail] at h
  dsimp only at h
  split at h
  · simp [fail] at h
  split at h
  · simp [fail] at h
  next name hname =>
  have hnormal := hidem _ _ hname
  split at h
  · obtain rfl := Except.ok.inj h
    exact hnormal
  unfold parseRedirect at h
  split at h
  · simp [fail] at h
  split at h
  · simp [fail] at h
  split at h
  · simp [fail] at h
  next target htarget =>
  split at h
  · simp [fail] at h
  next hself =>
  obtain rfl := Except.ok.inj h
  exact ⟨hnormal, parseTarget_valid hlower hidem htarget, hself⟩

/-- A list of rules as a parsed set has it: few enough, each valid, and no name twice. -/
structure IsRuleSet (parseUrl : UrlParser) (toLowerCase : String → String)
    (rules : List DnsRule) : Prop where
  length_le : rules.length ≤ MAX_DNS_RULES
  valid : ∀ rule ∈ rules, rule.Valid parseUrl toLowerCase
  names : (rules.map DnsRule.name).Nodup

/-- What was accepted of the first entries of a set. -/
structure Accepted (parseUrl : UrlParser) (toLowerCase : String → String)
    (parsed : ParsedDnsRules) (entries : ℕ) : Prop where
  length_le : parsed.rules.length ≤ entries
  valid : ∀ rule ∈ parsed.rules, rule.Valid parseUrl toLowerCase
  names : (parsed.rules.map DnsRule.name).Nodup
  seen : ∀ rule ∈ parsed.rules, rule.name ∈ parsed.seen

lemma Accepted.add {isNative : String → Bool} {parsed : ParsedDnsRules} {n : ℕ}
    (h : Accepted parseUrl toLowerCase parsed n) (entry : Value × ℕ) :
    Accepted parseUrl toLowerCase (parsed.add parseUrl toLowerCase isNative entry) (n + 1) := by
  unfold ParsedDnsRules.add
  split
  · exact ⟨Nat.le_succ_of_le h.length_le, h.valid, h.names, h.seen⟩
  next rule hrule =>
  split
  · exact ⟨Nat.le_succ_of_le h.length_le, h.valid, h.names, h.seen⟩
  next hnew =>
  have hfresh : rule.name ∉ parsed.seen := by simpa using hnew
  refine ⟨?_, ?_, ?_, ?_⟩
  · rw [List.length_append, List.length_singleton]
    exact Nat.succ_le_succ h.length_le
  · rw [List.forall_mem_append, List.forall_mem_singleton]
    exact ⟨h.valid, parseDnsRule_valid hlower hidem hrule⟩
  · rw [List.map_append, List.map_singleton]
    refine h.names.append (List.nodup_singleton _) ?_
    intro name hname hrulename
    obtain rfl := List.mem_singleton.mp hrulename
    obtain ⟨other, hother, heq⟩ := List.mem_map.mp hname
    exact hfresh (heq ▸ h.seen other hother)
  · rw [List.forall_mem_append, List.forall_mem_singleton]
    exact ⟨fun r hr => List.mem_cons_of_mem _ (h.seen r hr), List.mem_cons_self⟩

lemma Accepted.foldl {isNative : String → Bool} (entries : List (Value × ℕ))
    {parsed : ParsedDnsRules} {n : ℕ} (h : Accepted parseUrl toLowerCase parsed n) :
    Accepted parseUrl toLowerCase
      (entries.foldl (ParsedDnsRules.add parseUrl toLowerCase isNative) parsed)
      (n + entries.length) := by
  induction entries generalizing parsed n with
  | nil => exact h
  | cons entry entries ih =>
    rw [List.length_cons, Nat.add_comm entries.length 1, ← Nat.add_assoc]
    exact ih (h.add hlower hidem entry)

/-- **What is parsed is a rule set.** -/
theorem isRuleSet_of_parse {isNative : String → Bool} {input : Value} {rules : List DnsRule}
    {rejected : List RejectedDnsRule}
    (h : parseDnsRuleSet parseUrl toLowerCase isNative input = .ok (rules, rejected)) :
    IsRuleSet parseUrl toLowerCase rules := by
  unfold parseDnsRuleSet at h
  split at h
  next entries hentries =>
    obtain ⟨hmax, hparsed⟩ := check_eq_ok.mp h
    obtain ⟨rfl, -⟩ := Prod.mk.inj (Except.ok.inj hparsed)
    have hstart : Accepted parseUrl toLowerCase {} 0 :=
      ⟨Nat.le_refl 0, by simp, by simp, by simp⟩
    have hall := @Accepted.foldl _ _ hlower hidem isNative entries.zipIdx _ _ hstart
    refine ⟨hall.length_le.trans ?_, hall.valid, hall.names⟩
    rw [List.length_zipIdx]
    omega
  · simp at h

end Parsed

end Tnp.SharedTypes.DnsRules
