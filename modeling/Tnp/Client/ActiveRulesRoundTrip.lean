import Mathlib.Algebra.Order.BigOperators.Group.List
import Tnp.Client.ActiveRulesFile

/-!
What is written to the file of active rules is read back, and the file is never too large to be
read.

A line is words with one space between them, none of which has a space in it. The rules come one
after the other, each of a name that no rule before it covers.
-/

namespace Tnp.Client.ActiveRules

open Tnp.Lib Tnp.Namespace Tnp.Crypto Tnp.SharedTypes Tnp.SharedTypes.DnsRules Tnp.Protocol

/-! ### Lines of words -/

/-- A line is these words, with one space between them. -/
structure Spaced (line : String) (ws : List String) : Prop where
  toList_eq : line.toList = [' '].intercalate (ws.map String.toList)
  ne_nil : ws ≠ []
  ne_empty : ∀ w ∈ ws, w.toList ≠ []
  visible : ∀ w ∈ ws, ∀ c ∈ w.toList, isSpace c = false ∧ c.toNat < 128

section Spaced

variable {line : String} {ws : List String} (h : Spaced line ws)
include h

lemma Spaced.trim_eq : trim line = line := by
  apply trim_of_ends
  · intro c hc
    obtain ⟨w, rest, rfl⟩ := List.exists_cons_of_ne_nil h.ne_nil
    rw [h.toList_eq, List.map_cons, head_of_intercalate (h.ne_empty w List.mem_cons_self)] at hc
    exact (h.visible w List.mem_cons_self c (List.mem_of_head? hc)).1
  · intro c hc
    obtain ⟨front, w, rfl⟩ := (List.eq_nil_or_concat' ws).resolve_left h.ne_nil
    have hmem : w ∈ front ++ [w] := List.mem_append_right _ (List.mem_singleton_self w)
    rw [h.toList_eq, List.map_append, List.map_singleton,
      getLast_of_intercalate (h.ne_empty w hmem)] at hc
    exact (h.visible w hmem c (List.mem_of_getLast? hc)).1

lemma Spaced.words_eq : words line = ws := by
  have hsplit : line.toList.splitOnP isSpace = ws.map String.toList := by
    rw [h.toList_eq]
    refine splitOnP_intercalate (by decide) ?_ (by simpa using h.ne_nil)
    intro part hpart c hc
    obtain ⟨w, hw, rfl⟩ := List.mem_map.mp hpart
    exact (h.visible w hw c hc).1
  have hfilter : (ws.map String.toList).filter (· ≠ []) = ws.map String.toList := by
    rw [List.filter_eq_self]
    intro part hpart
    obtain ⟨w, hw, rfl⟩ := List.mem_map.mp hpart
    simpa using h.ne_empty w hw
  rw [words, hsplit, hfilter, List.map_map]
  exact (List.map_congr_left fun w _ => String.ofList_toList).trans (List.map_id ws)

lemma Spaced.mem {c : Char} (hc : c ∈ line.toList) : c ≠ '\n' ∧ c.toNat < 128 := by
  rw [h.toList_eq] at hc
  rcases mem_intercalate hc with rfl | ⟨part, hpart, hmem⟩
  · decide
  · obtain ⟨w, hw, rfl⟩ := List.mem_map.mp hpart
    obtain ⟨hspace, hascii⟩ := h.visible w hw c hmem
    refine ⟨?_, hascii⟩
    rintro rfl
    exact absurd hspace (by decide)

/-- A line of words that is no comment is parsed by its words. -/
lemma Spaced.parseLine_eq {parseUrl : UrlParser} {toLowerCase : String → String}
    (hhash : line.toList.head? ≠ some '#') (snapshot : PersonalRuleSnapshot) :
    parseLine parseUrl toLowerCase snapshot line =
      parseWords parseUrl toLowerCase snapshot ws := by
  have hne : line ≠ "" := by
    rintro rfl
    obtain ⟨w, rest, rfl⟩ := List.exists_cons_of_ne_nil h.ne_nil
    have hhead := congrArg List.head? h.toList_eq
    rw [List.map_cons, head_of_intercalate (h.ne_empty w List.mem_cons_self)] at hhead
    exact h.ne_empty w List.mem_cons_self (List.head?_eq_none_iff.mp hhead.symm)
  rw [parseLine, h.trim_eq, if_neg (by simp [hne, hhash]), h.words_eq]

end Spaced

/-! ### The lines of the file -/

section Lines

variable {parseUrl : UrlParser} {toLowerCase : String → String}

/-- The words of a rule. -/
def ruleWords : DnsRule → List String
  | .block name subdomains => [if subdomains then "block-subdomains" else "block", name]
  | .redirect name target => ["redirect", name, target.kind, target.value]

lemma visible_of_decide {w : String}
    (h : w.toList.all (fun c => !isSpace c && decide (c.toNat < 128)) = true) :
    ∀ c ∈ w.toList, isSpace c = false ∧ c.toNat < 128 := by
  intro c hc
  simpa using List.all_eq_true.mp h c hc

lemma visible_of_isHost {name : String} (h : IsHost name) :
    ∀ c ∈ name.toList, isSpace c = false ∧ c.toNat < 128 := fun c hc =>
  ⟨(isHostChar_spec (h.chars c hc)).1, (isHostChar_spec (h.chars c hc)).2.1⟩

lemma visible_value {target : DnsRuleTarget} (h : target.Valid parseUrl toLowerCase) :
    target.value.toList ≠ [] ∧ ∀ c ∈ target.value.toList, isSpace c = false ∧ c.toNat < 128 := by
  have haddress {c : Char} (hc : isAddressChar c = true) : isSpace c = false ∧ c.toNat < 128 :=
    ⟨(isAddressChar_spec hc).1, ascii_of_isAddressChar hc⟩
  cases target with
  | ipv4 value =>
    change isValidIpv4 value = true at h
    refine ⟨fun hnil => ?_, fun c hc => haddress (isDigit_spec (mem_of_isValidIpv4 h hc)).1⟩
    obtain rfl : value = "" := String.toList_eq_nil_iff.mp hnil
    exact absurd h (by decide)
  | ipv6 value =>
    refine ⟨fun hnil => ?_, fun c hc => haddress (mem_of_isValidIpv6 h.1 hc)⟩
    obtain rfl : value = "" := String.toList_eq_nil_iff.mp hnil
    exact absurd h.1 (by decide)
  | name value =>
    have hhost := isHost_of_normalizeRuleName h
    exact ⟨fun hnil => hhost.ne_empty (String.toList_eq_nil_iff.mp hnil), visible_of_isHost hhost⟩

lemma visible_kind (target : DnsRuleTarget) :
    target.kind.toList ≠ [] ∧ ∀ c ∈ target.kind.toList, isSpace c = false ∧ c.toNat < 128 := by
  cases target with
  | ipv4 value => exact ⟨by simp [DnsRuleTarget.kind], visible_of_decide (w := "ipv4") (by decide)⟩
  | ipv6 value => exact ⟨by simp [DnsRuleTarget.kind], visible_of_decide (w := "ipv6") (by decide)⟩
  | name value => exact ⟨by simp [DnsRuleTarget.kind], visible_of_decide (w := "name") (by decide)⟩

lemma spaced_ruleLine {rule : DnsRule} (h : rule.Valid parseUrl toLowerCase) :
    Spaced (ruleLine rule) (ruleWords rule) := by
  cases rule with
  | block name subdomains =>
    have hhost := isHost_of_normalizeRuleName h
    refine ⟨?_, by simp [ruleWords], ?_, ?_⟩
    · simp [ruleLine, ruleWords]
    · cases subdomains <;> simp [ruleWords, hhost.ne_empty]
    · simp only [ruleWords, List.forall_mem_cons]
      refine ⟨visible_of_decide ?_, visible_of_isHost hhost, by simp⟩
      cases subdomains <;> decide
  | redirect name target =>
    obtain ⟨hname, htarget, -⟩ := h
    have hhost := isHost_of_normalizeRuleName hname
    obtain ⟨hne, hvisible⟩ := visible_value htarget
    refine ⟨?_, by simp [ruleWords], ?_, ?_⟩
    · simp [ruleLine, ruleWords]
    · simp only [ruleWords, List.forall_mem_cons]
      exact ⟨by simp, fun hnil => hhost.ne_empty (String.toList_eq_nil_iff.mp hnil),
        (visible_kind target).1, hne, by simp⟩
    · simp only [ruleWords, List.forall_mem_cons]
      exact ⟨visible_of_decide (by decide), visible_of_isHost hhost, (visible_kind target).2,
        hvisible, by simp⟩

/-- The rule is entered. -/
def PersonalRuleSnapshot.add (snapshot : PersonalRuleSnapshot) : DnsRule → PersonalRuleSnapshot
  | .block name subdomains => { snapshot with blocks := snapshot.blocks.set name subdomains }
  | .redirect name target => { snapshot with redirects := snapshot.redirects.set name target }

lemma nameOf_eq {name : String} (h : normalizeRuleName parseUrl toLowerCase name = .ok name) :
    nameOf parseUrl toLowerCase name = some name := by
  delta nameOf
  rw [h]
  exact if_pos rfl

/-- **The line of a rule enters the rule**, where no rule covers its name yet. -/
lemma parseLine_ruleLine {rule : DnsRule} (h : rule.Valid parseUrl toLowerCase)
    {snapshot : PersonalRuleSnapshot} (hfresh : snapshot.covers rule.name = false) :
    parseLine parseUrl toLowerCase snapshot (ruleLine rule) = some (snapshot.add rule) := by
  have hspaced := spaced_ruleLine h
  cases rule with
  | block name subdomains =>
    rw [hspaced.parseLine_eq (by cases subdomains <;> simp [ruleLine])]
    change snapshot.covers name = false at hfresh
    cases subdomains <;>
      simp [ruleWords, parseWords, nameOf_eq h, hfresh, PersonalRuleSnapshot.add]
  | redirect name target =>
    rw [hspaced.parseLine_eq (by simp [ruleLine])]
    change snapshot.covers name = false at hfresh
    simp [ruleWords, parseWords, nameOf_eq h.1, parseDnsRuleTargetInput_value h.2.1, h.2.2, hfresh,
      PersonalRuleSnapshot.add]

lemma isCount_toString {n : ℕ} (h : n < 10 ^ 15) : isCount (toString n) = true := by
  have hdigits : (toString n).toList = Nat.toDigits 10 n := by
    rw [Nat.toString_eq_ofList_toDigits, String.toList_ofList]
  have hpos : 1 ≤ (Nat.toDigits 10 n).length := Nat.length_toDigits_pos
  have hle := (Nat.length_toDigits_le_iff (by decide) (by decide)).mpr h
  have hall : (Nat.toDigits 10 n).all Char.isDigit = true :=
    List.all_eq_true.mpr fun c hc => Nat.isDigit_of_mem_toDigits (by decide) (by decide) hc
  rw [isCount, hdigits, hall, decide_eq_true hle, decide_eq_true hpos]
  rfl

/-- A count after its keyword. -/
lemma spaced_count {kind label : String} (hlabel : label.toList = kind.toList ++ [' '])
    (hne : kind.toList ≠ []) (hkind : ∀ c ∈ kind.toList, isSpace c = false ∧ c.toNat < 128)
    (n : ℕ) : Spaced (label ++ toString n) [kind, toString n] := by
  have hdigits : (toString n).toList = Nat.toDigits 10 n := by
    rw [Nat.toString_eq_ofList_toDigits, String.toList_ofList]
  refine ⟨by simp [hlabel], by simp, ?_, ?_⟩
  · simp only [List.forall_mem_cons]
    exact ⟨hne, by rw [hdigits]; exact Nat.toDigits_ne_nil, by simp⟩
  · simp only [List.forall_mem_cons]
    refine ⟨hkind, fun c hc => ?_, by simp⟩
    rw [hdigits] at hc
    have hdigit := Nat.isDigit_of_mem_toDigits (by decide) (by decide) hc
    have haddress := (isDigit_spec (.inl hdigit)).1
    exact ⟨(isAddressChar_spec haddress).1, ascii_of_isAddressChar haddress⟩

lemma parseLine_version {n : ℕ} (h : n < 10 ^ 15) (snapshot : PersonalRuleSnapshot) :
    parseLine parseUrl toLowerCase snapshot ("version " ++ toString n) =
      some { snapshot with version := n } := by
  have hspaced : Spaced ("version " ++ toString n) ["version", toString n] :=
    spaced_count (by simp) (by simp) (visible_of_decide (by decide)) n
  have hcount := isCount_toString h
  rw [Nat.toString_eq_repr] at hcount
  rw [hspaced.parseLine_eq (by simp)]
  simp [parseWords, hcount]

lemma parseLine_pending {n : ℕ} (h : n < 10 ^ 15) (snapshot : PersonalRuleSnapshot) :
    parseLine parseUrl toLowerCase snapshot ("pending " ++ toString n) =
      some { snapshot with pending := n } := by
  have hspaced : Spaced ("pending " ++ toString n) ["pending", toString n] :=
    spaced_count (by simp) (by simp) (visible_of_decide (by decide)) n
  have hcount := isCount_toString h
  rw [Nat.toString_eq_repr] at hcount
  rw [hspaced.parseLine_eq (by simp)]
  simp [parseWords, hcount]

end Lines

/-! ### The whole file -/

section File

variable {parseUrl : UrlParser} {toLowerCase : String → String}

lemma parseLines_cons {snapshot snapshot' : PersonalRuleSnapshot} {line : String}
    (h : parseLine parseUrl toLowerCase snapshot line = some snapshot') (i : ℕ)
    (rest : List String) : parseLines parseUrl toLowerCase snapshot i (line :: rest) =
      parseLines parseUrl toLowerCase snapshot' (i + 1) rest := by
  rw [parseLines, h]

/-- What a comment's line is as characters. -/
structure IsComment (line : String) : Prop where
  head : line.toList.head? = some '#'
  newline : '\n' ∉ line.toList
  length_lt : (Utf8.encode line.toList).length < 100

lemma isComment_ofList {cs : List Char} (hhead : cs.head? = some '#')
    (hnewline : cs.all (· != '\n') = true) (hlength : (Utf8.encode cs).length < 100) :
    IsComment (String.ofList cs) := by
  refine ⟨?_, fun hmem => ?_, ?_⟩
  · rw [String.toList_ofList, hhead]
  · rw [String.toList_ofList] at hmem
    simpa using List.all_eq_true.mp hnewline _ hmem
  · rwa [String.toList_ofList]

lemma isComment_header : ∀ line ∈ HEADER, IsComment line := by
  simp only [HEADER, List.forall_mem_cons]
  refine ⟨?_, ?_, ?_, ?_, ?_, by simp⟩
  all_goals exact isComment_ofList rfl (by decide) (by decide)

lemma head_trim {line : String} (h : line.toList.head? = some '#') :
    (trim line).toList.head? = some '#' := by
  obtain ⟨cs, hcs⟩ : ∃ cs, line.toList = '#' :: cs := by
    cases hline : line.toList with
    | nil => simp [hline] at h
    | cons c cs => exact ⟨cs, by simpa [hline] using h⟩
  have hhash : isSpace '#' = false := by decide
  have hne : ('#' :: cs).rdropWhile isSpace ≠ [] := by
    rw [ne_eq, List.rdropWhile_eq_nil_iff]
    exact fun hall => absurd (hall '#' List.mem_cons_self) (by rw [hhash]; decide)
  obtain ⟨d, rest, hrest⟩ := List.exists_cons_of_ne_nil hne
  obtain ⟨tail, htail⟩ := List.rdropWhile_prefix isSpace (l := '#' :: cs)
  rw [hrest, List.cons_append, List.cons.injEq] at htail
  rw [trim, hcs, List.dropWhile_cons_of_neg (by rw [hhash]; decide), String.toList_ofList, hrest,
    htail.1, List.head?_cons]

/-- Lines that start a comment are passed over. -/
lemma parseLines_comments {comments : List String}
    (h : ∀ line ∈ comments, IsComment line) (snapshot : PersonalRuleSnapshot)
    (i : ℕ) (rest : List String) :
    parseLines parseUrl toLowerCase snapshot i (comments ++ rest) =
      parseLines parseUrl toLowerCase snapshot (i + comments.length) rest := by
  induction comments generalizing i with
  | nil => rfl
  | cons line comments ih =>
    rw [List.forall_mem_cons] at h
    have hline : parseLine parseUrl toLowerCase snapshot line = some snapshot := by
      rw [parseLine]
      exact if_pos (.inr (head_trim h.1.head))
    rw [List.cons_append, parseLines_cons hline, ih h.2, List.length_cons, Nat.add_assoc,
      Nat.add_comm 1]

lemma covers_eq_false_iff {snapshot : PersonalRuleSnapshot} {name : String} :
    snapshot.covers name = false ↔
      snapshot.blocks.get name = none ∧ snapshot.redirects.get name = none := by
  simp [PersonalRuleSnapshot.covers, OrderedMap.has]

lemma covers_add {snapshot : PersonalRuleSnapshot} {rule : DnsRule} {name : String}
    (hne : rule.name ≠ name) (h : snapshot.covers name = false) :
    (snapshot.add rule).covers name = false := by
  rw [covers_eq_false_iff] at h ⊢
  cases rule with
  | block other subdomains =>
    exact ⟨(OrderedMap.get_set_of_ne _ hne).trans h.1, h.2⟩
  | redirect other target =>
    exact ⟨h.1, (OrderedMap.get_set_of_ne _ hne).trans h.2⟩

/-- What a snapshot holds once rules of names it did not cover were entered. -/
structure Holds (before after : PersonalRuleSnapshot) (rules : List DnsRule) : Prop where
  version : after.version = before.version
  pending : after.pending = before.pending
  blocks : ∀ name subdomains, after.blocks.get name = some subdomains ↔
    before.blocks.get name = some subdomains ∨ .block name subdomains ∈ rules
  redirects : ∀ name target, after.redirects.get name = some target ↔
    before.redirects.get name = some target ∨ .redirect name target ∈ rules

lemma holds_add {snapshot : PersonalRuleSnapshot} {rule : DnsRule}
    (h : snapshot.covers rule.name = false) : Holds snapshot (snapshot.add rule) [rule] := by
  rw [covers_eq_false_iff] at h
  cases rule with
  | block name subdomains =>
    refine ⟨rfl, rfl, fun other b => ?_, fun other target => by simp [PersonalRuleSnapshot.add]⟩
    simp only [PersonalRuleSnapshot.add, OrderedMap.get_set, List.mem_singleton,
      DnsRule.block.injEq]
    split
    next heq =>
      change snapshot.blocks.get name = none ∧ _ at h
      simp [← heq, h.1, eq_comm]
    next hne => simp [Ne.symm hne]
  | redirect name target =>
    refine ⟨rfl, rfl, fun other b => by simp [PersonalRuleSnapshot.add], fun other t => ?_⟩
    simp only [PersonalRuleSnapshot.add, OrderedMap.get_set, List.mem_singleton,
      DnsRule.redirect.injEq]
    split
    next heq =>
      change _ ∧ snapshot.redirects.get name = none at h
      simp [← heq, h.2, eq_comm]
    next hne => simp [Ne.symm hne]

lemma Holds.trans {a b c : PersonalRuleSnapshot} {rs ss : List DnsRule} (h : Holds a b rs)
    (h' : Holds b c ss) : Holds a c (rs ++ ss) where
  version := h'.version.trans h.version
  pending := h'.pending.trans h.pending
  blocks name b := by rw [h'.blocks, h.blocks, List.mem_append, or_assoc]
  redirects name t := by rw [h'.redirects, h.redirects, List.mem_append, or_assoc]

/-- **The lines of rules of different names enter the rules.** -/
lemma parseLines_rules {rules : List DnsRule}
    (hvalid : ∀ rule ∈ rules, rule.Valid parseUrl toLowerCase)
    (hnames : (rules.map DnsRule.name).Nodup) {snapshot : PersonalRuleSnapshot}
    (hfresh : ∀ rule ∈ rules, snapshot.covers rule.name = false) (i : ℕ) (rest : List String) :
    ∃ after, Holds snapshot after rules ∧
      parseLines parseUrl toLowerCase snapshot i (rules.map ruleLine ++ rest) =
        parseLines parseUrl toLowerCase after (i + rules.length) rest := by
  induction rules generalizing snapshot i with
  | nil => exact ⟨snapshot, ⟨rfl, rfl, by simp, by simp⟩, rfl⟩
  | cons rule rules ih =>
    rw [List.forall_mem_cons] at hvalid hfresh
    rw [List.map_cons, List.nodup_cons] at hnames
    have hrest : ∀ other ∈ rules, (snapshot.add rule).covers other.name = false := by
      intro other hother
      refine covers_add (fun heq => hnames.1 ?_) (hfresh.2 other hother)
      rw [heq]
      exact List.mem_map_of_mem hother
    obtain ⟨after, hholds, hparse⟩ := ih hvalid.2 hnames.2 hrest (i + 1)
    refine ⟨after, (holds_add hfresh.1).trans hholds, ?_⟩
    rw [List.map_cons, List.cons_append, parseLines_cons (parseLine_ruleLine hvalid.1 hfresh.1),
      hparse, List.length_cons]
    congr 1
    omega

lemma ordered_perm (rules : List DnsRule) : (ordered rules).Perm rules := by
  unfold ordered
  dsimp only
  exact (List.filter_append_perm isBlock _).trans (List.mergeSort_perm rules _)

lemma isRuleSet_ordered {rules : List DnsRule} (h : IsRuleSet parseUrl toLowerCase rules) :
    IsRuleSet parseUrl toLowerCase (ordered rules) where
  length_le := (ordered_perm rules).length_eq ▸ h.length_le
  valid rule hrule := h.valid rule ((ordered_perm rules).mem_iff.mp hrule)
  names := ((ordered_perm rules).map DnsRule.name).nodup_iff.mpr h.names

lemma newline_not_mem {version pending : ℕ} {rules : List DnsRule}
    (hvalid : ∀ rule ∈ rules, rule.Valid parseUrl toLowerCase) :
    ∀ part ∈ (fileLines version pending rules).map String.toList, '\n' ∉ part := by
  have hspaced {line : String} {ws : List String} (h : Spaced line ws) : '\n' ∉ line.toList :=
    fun hmem => (h.mem hmem).1 rfl
  intro part hpart
  obtain ⟨line, hline, rfl⟩ := List.mem_map.mp hpart
  simp only [fileLines, List.mem_append, List.mem_cons, List.not_mem_nil, or_false,
    List.mem_map] at hline
  rcases hline with (hline | rfl | rfl) | ⟨rule, hrule, rfl⟩
  · exact (isComment_header line hline).newline
  · have hcount : Spaced ("version " ++ toString version) ["version", toString version] :=
      spaced_count (by simp) (by simp) (visible_of_decide (by decide)) version
    exact hspaced hcount
  · have hcount : Spaced ("pending " ++ toString pending) ["pending", toString pending] :=
      spaced_count (by simp) (by simp) (visible_of_decide (by decide)) pending
    exact hspaced hcount
  · exact hspaced (spaced_ruleLine (hvalid rule ((ordered_perm rules).mem_iff.mp hrule)))

/-- What is written is read back. -/
lemma parseActiveRulesFile_formatActiveRulesFile {version pending : ℕ}
    (hversion : version < 10 ^ 15) (hpending : pending < 10 ^ 15) {rules : List DnsRule}
    (h : IsRuleSet parseUrl toLowerCase rules) : ∃ snapshot,
      parseActiveRulesFile parseUrl toLowerCase (formatActiveRulesFile version pending rules) =
        .ok snapshot ∧ Holds { version, pending } snapshot rules := by
  have hne : (fileLines version pending rules).map String.toList ≠ [] := by
    simp [fileLines]
  have hlines : ((formatActiveRulesFile version pending rules).toList.splitOn '\n').map
      String.ofList = fileLines version pending rules ++ [""] := by
    have hback : (fileLines version pending rules).map (String.ofList ∘ String.toList) =
        fileLines version pending rules :=
      (List.map_congr_left fun l _ => String.ofList_toList).trans (List.map_id _)
    rw [formatActiveRulesFile, String.toList_ofList,
      splitOn_intercalate_append_sep (newline_not_mem h.valid) hne, List.map_append, List.map_map,
      hback, List.map_singleton, String.ofList_nil]
  have hset := isRuleSet_ordered h
  obtain ⟨snapshot, hholds, hparse⟩ := @parseLines_rules _ _ _ hset.valid hset.names
    { version, pending } (fun rule _ => rfl) (HEADER.length + 1 + 1) [""]
  refine ⟨snapshot, ?_, hholds.version, hholds.pending, fun name b => ?_, fun name t => ?_⟩
  · have hend : parseLine parseUrl toLowerCase snapshot "" = some snapshot := by
      rw [parseLine]
      exact if_pos (.inl (by decide))
    rw [parseActiveRulesFile, hlines, fileLines, List.append_assoc, List.append_assoc,
      parseLines_comments isComment_header, Nat.zero_add, List.cons_append, List.cons_append,
      List.nil_append, parseLines_cons (parseLine_version hversion _),
      parseLines_cons (parseLine_pending hpending _), hparse, parseLines_cons hend]
    rfl
  · rw [hholds.blocks, (ordered_perm rules).mem_iff]
  · rw [hholds.redirects, (ordered_perm rules).mem_iff]

/-! ### How large the file is -/

lemma length_encode_lines (parts : List (List Char)) :
    (Utf8.encode (parts.flatMap fun part => part ++ ['\n'])).length =
      (parts.map fun part => (Utf8.encode part).length + 1).sum := by
  induction parts with
  | nil => rfl
  | cons part parts ih =>
    have hnewline : (Utf8.encode ['\n']).length = 1 := by decide
    rw [List.flatMap_cons, Utf8.encode_append, Utf8.encode_append, List.length_append,
      List.length_append, hnewline, ih, List.map_cons, List.sum_cons]

lemma exists_four {α : Type*} {l : List α} (h : l.length = 4) :
    ∃ a b c d, l = [a, b, c, d] := by
  obtain ⟨a, l, rfl⟩ := List.exists_cons_of_length_eq_add_one h
  obtain ⟨b, c, d, rfl⟩ := List.length_eq_three.mp (Nat.succ.inj h)
  exact ⟨a, b, c, d, rfl⟩

lemma length_ipv4 {value : String} (h : isValidIpv4 value = true) : value.toList.length ≤ 15 := by
  simp only [isValidIpv4, Bool.and_eq_true, beq_iff_eq, List.all_eq_true] at h
  obtain ⟨hlength, hparts⟩ := h
  have hthree {part : List Char} (hpart : isIpv4Part part = true) : part.length ≤ 3 := by
    rcases isIpv4Part_cases hpart with ⟨a, rfl, -⟩ | ⟨a, b, rfl, -⟩ | ⟨a, b, c, rfl, -⟩ <;> simp
  have hjoin : ['.'].intercalate (value.toList.splitOn '.') = value.toList :=
    List.intercalate_splitOn '.'
  obtain ⟨a, b, c, d, hsplit⟩ := exists_four hlength
  simp only [hsplit, List.forall_mem_cons] at hparts
  have ha := hthree hparts.1
  have hb := hthree hparts.2.1
  have hc := hthree hparts.2.2.1
  have hd := hthree hparts.2.2.2.1
  rw [hsplit] at hjoin
  simp only [← hjoin, List.intercalate_cons_cons, List.intercalate_singleton,
    List.length_append, List.length_singleton]
  omega

lemma length_value {target : DnsRuleTarget} (h : target.Valid parseUrl toLowerCase) :
    target.value.toList.length ≤ 253 := by
  cases target with
  | ipv4 value => exact (length_ipv4 h).trans (by decide)
  | ipv6 value =>
    have hascii : ∀ c ∈ value.toList, c.toNat < 128 := fun c hc =>
      ascii_of_isAddressChar (mem_of_isValidIpv6 h.1 hc)
    have hbound : utf16Length value ≤ 45 := by
      by_contra hlong
      have hbad := h.1
      rw [DnsRecords.isValidIpv6, if_pos (.inr (not_le.mp hlong))] at hbad
      exact Bool.false_ne_true hbad
    rw [utf16Length_of_ascii hascii] at hbound
    exact hbound.trans (by decide)
  | name value =>
    have hhost := isHost_of_normalizeRuleName h
    exact hhost.length_eq ▸ hhost.length_le

/-- The longest line is that of a redirect from a longest name to a longest name. -/
lemma length_ruleLine {rule : DnsRule} (h : rule.Valid parseUrl toLowerCase) :
    (Utf8.encode (ruleLine rule).toList).length ≤ 521 := by
  rw [length_encode_of_ascii fun c hc => ((spaced_ruleLine h).mem hc).2]
  cases rule with
  | block name subdomains =>
    have hhost := isHost_of_normalizeRuleName h
    have hname := hhost.length_eq ▸ hhost.length_le
    cases subdomains <;> simp [ruleLine] <;> omega
  | redirect name target =>
    have hhost := isHost_of_normalizeRuleName h.1
    have hname := hhost.length_eq ▸ hhost.length_le
    have hvalue := length_value h.2.1
    have hkind : target.kind.toList.length = 4 := by
      cases target <;> simp [DnsRuleTarget.kind]
    simp [ruleLine] at hkind ⊢
    omega

lemma length_count (label : String) {n : ℕ} (hlabel : label.toList.length = 8)
    (hascii : ∀ c ∈ label.toList, c.toNat < 128) (h : n < 10 ^ 15) :
    (Utf8.encode (label ++ toString n).toList).length ≤ 23 := by
  have hdigits : (toString n).toList = Nat.toDigits 10 n := by
    rw [Nat.toString_eq_ofList_toDigits, String.toList_ofList]
  have hle := (Nat.length_toDigits_le_iff (by decide) (by decide)).mpr h
  rw [String.toList_append, hdigits, length_encode_of_ascii, List.length_append, hlabel]
  · omega
  · rw [List.forall_mem_append]
    refine ⟨hascii, fun c hc => ?_⟩
    have hdigit := Nat.isDigit_of_mem_toDigits (by decide) (by decide) hc
    exact ascii_of_isAddressChar (isDigit_spec (.inl hdigit)).1

/-- The file is never larger than what is read. -/
lemma length_formatActiveRulesFile {version pending : ℕ} (hversion : version < 10 ^ 15)
    (hpending : pending < 10 ^ 15) {rules : List DnsRule}
    (h : IsRuleSet parseUrl toLowerCase rules) :
    (utf8 (formatActiveRulesFile version pending rules)).length ≤ MAX_RULES_FILE_BYTES := by
  have hne : (fileLines version pending rules).map String.toList ≠ [] := by
    simp [fileLines]
  have hheader : (HEADER.map fun line => (Utf8.encode line.toList).length + 1).sum ≤ 500 := by
    have hsum := List.sum_le_card_nsmul (HEADER.map fun line =>
      (Utf8.encode line.toList).length + 1) 100 fun n hn => by
        obtain ⟨line, hline, rfl⟩ := List.mem_map.mp hn
        exact (isComment_header line hline).length_lt
    have hfive : HEADER.length = 5 := rfl
    simpa [List.length_map, hfive, Nat.nsmul_eq_mul] using hsum
  have hversion' := length_count "version " (by simp) (by simp) hversion
  have hpending' := length_count "pending " (by simp) (by simp) hpending
  have hset := isRuleSet_ordered h
  have hrules : ((ordered rules).map fun rule =>
      (Utf8.encode (ruleLine rule).toList).length + 1).sum ≤ (ordered rules).length * 522 := by
    have hsum := List.sum_le_card_nsmul ((ordered rules).map fun rule =>
      (Utf8.encode (ruleLine rule).toList).length + 1) 522 fun n hn => by
        obtain ⟨rule, hrule, rfl⟩ := List.mem_map.mp hn
        exact Nat.succ_le_succ (length_ruleLine (hset.valid rule hrule))
    simpa [List.length_map, Nat.nsmul_eq_mul] using hsum
  have hcount : (ordered rules).length ≤ 2000 := hset.length_le
  rw [utf8_eq_encode, formatActiveRulesFile, String.toList_ofList, intercalate_append_sep hne,
    length_encode_lines, List.map_map, fileLines, List.map_append, List.map_append,
    List.sum_append, List.sum_append, List.map_map]
  simp only [List.map_cons, List.map_nil, List.sum_cons, List.sum_nil, Function.comp_def]
  have hmax : MAX_RULES_FILE_BYTES = 1048576 := by decide
  omega

/-- **The active rules file**: from every set that parses, what is written is read back as exactly
the blocks and the redirects of the set, and is no larger than what is read at all. -/
theorem active_rules_file_read_back (hlower : LowersAscii toLowerCase)
    (hidem : Idempotent parseUrl toLowerCase) {isNative : String → Bool} {input : Value}
    {rules : List DnsRule} {rejected : List RejectedDnsRule}
    (h : parseDnsRuleSet parseUrl toLowerCase isNative input = .ok (rules, rejected))
    {version pending : ℕ} (hversion : version < 10 ^ 15) (hpending : pending < 10 ^ 15) :
    (utf8 (formatActiveRulesFile version pending rules)).length ≤ MAX_RULES_FILE_BYTES ∧
      ∃ snapshot, parseActiveRulesFile parseUrl toLowerCase
          (formatActiveRulesFile version pending rules) = .ok snapshot ∧
        snapshot.version = version ∧ snapshot.pending = pending ∧
        (∀ name subdomains, snapshot.blocks.get name = some subdomains ↔
          .block name subdomains ∈ rules) ∧
        (∀ name target, snapshot.redirects.get name = some target ↔
          .redirect name target ∈ rules) ∧
        ∀ path platform euid (st : FileStat), st.isSymbolicLink = false → st.isFile = true →
          st.uid = 0 → st.mode &&& 0o022 = 0 →
          st.size = (utf8 (formatActiveRulesFile version pending rules)).length →
          load parseUrl toLowerCase path platform euid st
            (.ok (formatActiveRulesFile version pending rules)) = .ok snapshot := by
  have hset := isRuleSet_of_parse hlower hidem h
  have hsize := length_formatActiveRulesFile hversion hpending hset
  obtain ⟨snapshot, hparse, hholds⟩ :=
    parseActiveRulesFile_formatActiveRulesFile hversion hpending hset
  refine ⟨hsize, snapshot, hparse, hholds.version, hholds.pending, fun name b => ?_,
    fun name t => ?_, ?_⟩
  · rw [hholds.blocks]
    simp
  · rw [hholds.redirects]
    simp
  · intro path platform euid st hlink hfile huid hmode hst
    have hnotlarge : ¬ MAX_RULES_FILE_BYTES < st.size := by rw [hst]; exact not_lt.mpr hsize
    rw [load, hlink, hfile]
    simp only [Bool.not_true, Bool.or_false, Bool.false_eq_true, if_false, huid, hmode, ne_eq,
      not_true, false_and, and_false, if_neg hnotlarge, hparse]

end File

/-! ### A file to read -/

/-- A host parser that knows two hosts. -/
def sampleUrl : UrlParser := fun url =>
  if url = "http://ads.example.com/" then
    some { protocol := "http:", host := "ads.example.com", hostname := "ads.example.com" }
  else if url = "http://nas.example.org/" then
    some { protocol := "http:", host := "nas.example.org", hostname := "nas.example.org" }
  else none

lemma lowersAscii_asciiLower : LowersAscii asciiLower := fun _ _ => rfl

lemma idempotent_sampleUrl : Idempotent sampleUrl asciiLower := by
  have hads : normalizeRuleName sampleUrl asciiLower "ads.example.com" = .ok "ads.example.com" := by
    decide
  have hnas : normalizeRuleName sampleUrl asciiLower "nas.example.org" = .ok "nas.example.org" := by
    decide
  intro input name h
  unfold normalizeRuleName at h
  dsimp only at h
  obtain ⟨-, h⟩ := check_eq_ok.mp h
  obtain ⟨-, h⟩ := check_eq_ok.mp h
  obtain ⟨-, h⟩ := check_eq_ok.mp h
  split at h
  · simp at h
  next url hurl =>
  obtain ⟨-, h⟩ := check_eq_ok.mp h
  obtain ⟨-, h⟩ := check_eq_ok.mp h
  obtain ⟨-, h⟩ := check_eq_ok.mp h
  obtain ⟨-, h⟩ := check_eq_ok.mp h
  obtain ⟨-, h⟩ := check_eq_ok.mp h
  have hname := Except.ok.inj h
  unfold sampleUrl at hurl
  split at hurl
  · obtain rfl := Option.some.inj hurl
    have hhost : withoutRootDot (asciiLower "ads.example.com") = "ads.example.com" := by
      decide
    rw [← hname, hhost]
    exact hads
  split at hurl
  · obtain rfl := Option.some.inj hurl
    have hhost : withoutRootDot (asciiLower "nas.example.org") = "nas.example.org" := by
      decide
    rw [← hname, hhost]
    exact hnas
  · simp at hurl

def sampleRules : Value :=
  .object [("rules", .array [
    .object [("type", .string "redirect"), ("name", .string "nas.example.org"),
      ("target", .object [("kind", .string "ipv4"), ("value", .string "192.0.2.1")])],
    .object [("type", .string "block"), ("name", .string "ads.example.com"),
      ("subdomains", .bool true)]])]

theorem active_rules_file_read_back_sample :
    ∃ snapshot, parseActiveRulesFile sampleUrl asciiLower (formatActiveRulesFile 7 1
        [.redirect "nas.example.org" (.ipv4 "192.0.2.1"), .block "ads.example.com" true]) =
      .ok snapshot ∧ snapshot.blocks.get "ads.example.com" = some true ∧
        snapshot.redirects.get "nas.example.org" = some (.ipv4 "192.0.2.1") := by
  have hparse : parseDnsRuleSet sampleUrl asciiLower (fun _ => false) sampleRules = .ok
      ([.redirect "nas.example.org" (.ipv4 "192.0.2.1"), .block "ads.example.com" true], []) := by
    rfl
  obtain ⟨-, snapshot, hread, -, -, hblocks, hredirects, -⟩ :=
    @active_rules_file_read_back sampleUrl asciiLower lowersAscii_asciiLower idempotent_sampleUrl
      _ _ _ _ hparse 7 1 (by decide) (by decide)
  exact ⟨snapshot, hread, (hblocks _ _).mpr (by simp), (hredirects _ _).mpr (by simp)⟩

end Tnp.Client.ActiveRules
