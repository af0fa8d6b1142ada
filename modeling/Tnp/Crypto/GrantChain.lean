import Mathlib.Data.List.Chain
import Mathlib.Tactic.MkIffOfInductiveProp
import Tnp.Crypto.Grants

/-!
What an accepted grant chain means, and which chains are accepted.

The walk compares neighbours only. Being no broader is an order, so a chain of neighbours none
of which is broader than the next is one in which no grant is broader than any above it.
-/

namespace Tnp.Crypto.GrantChain

open Tnp.Lib Tnp.Crypto.Grants

/-- The scope of a grant lies inside that of one above it, where that one has any. -/
def ScopeWithin (inner outer : Option String) : Prop :=
  ∀ o, outer = some o → ∃ i, inner = some i ∧ scopeCovers o i = true

lemma scopeWithin_iff {inner outer : Option String} :
    (outer.any fun o => !inner.any fun i => scopeCovers o i) = false ↔
      ScopeWithin inner outer := by
  cases outer <;> cases inner <;> simp [ScopeWithin]

instance (inner outer : Option String) : Decidable (ScopeWithin inner outer) :=
  decidable_of_iff _ scopeWithin_iff

lemma ScopeWithin.trans {a b c : Option String} (hab : ScopeWithin a b) (hbc : ScopeWithin b c) :
    ScopeWithin a c := by
  intro o ho
  obtain ⟨m, hm, hom⟩ := hbc o ho
  obtain ⟨i, hi, hmi⟩ := hab m hm
  exact ⟨i, hi, scopeCovers_trans hom hmi⟩

/-- `child` is no broader than `parent` in what it allows, for whom, and when. -/
@[mk_iff]
structure NoBroader (child parent : ParsedGrant) : Prop where
  purposes : child.purposes ⊆ parent.purposes
  scope : ScopeWithin child.scope parent.scope
  notBefore : parent.notBefore.val ≤ child.notBefore.val
  notAfter : child.notAfter.val ≤ parent.notAfter.val

lemma NoBroader.trans {a b c : ParsedGrant} (hab : NoBroader a b) (hbc : NoBroader b c) :
    NoBroader a c :=
  ⟨List.Subset.trans hab.purposes hbc.purposes, hab.scope.trans hbc.scope,
    hbc.notBefore.trans hab.notBefore, hab.notAfter.trans hbc.notAfter⟩

instance (child parent : ParsedGrant) : Decidable (NoBroader child parent) :=
  decidable_of_iff _ (noBroader_iff child parent).symm

instance : Trans NoBroader NoBroader NoBroader := ⟨NoBroader.trans⟩

/-- A grant that authorizes the issuer of `child` and may do so. -/
@[mk_iff]
structure Authorizes (child parent : ParsedGrant) : Prop where
  linked : parent.subject = child.issuer
  delegate : .DELEGATE ∈ parent.purposes

variable (verify : Verifier) (c : Context)

/-- A grant good by itself. -/
structure GoodLink (link : Link) : Prop where
  subject : link.1.subject ∉ c.revoked
  issuer : link.1.issuer ∉ c.revoked
  started : link.1.notBefore.val ≤ c.now.val
  running : c.now.val < link.1.notAfter.val
  current : ∀ seen, c.knownSerials link.1.serialKey = some seen → seen ≤ (link.1.serial.val : ℚ)
  signed : verify (encodeParsed link.1) link.2 link.1.issuer.val = true

/-- The keys of a chain: the key it is about, then every issuer. -/
def keys : List Link → List PublicKey
  | [] => []
  | links@((leaf, _) :: _) => leaf.subject :: links.map fun l => l.1.issuer

/-- What a chain must be whatever it is checked for: from a trusted root down, each grant good
by itself and authorized by the next, and no key twice. -/
@[mk_iff]
structure Walks (links : List Link) : Prop where
  good : ∀ l ∈ links, GoodLink verify c l
  authorized : links.IsChain fun child parent => Authorizes child.1 parent.1
  nodup : (keys links).Nodup
  root : ∀ r ∈ links.getLast?, r.1.issuer ∈ c.roots

/-- No grant of the chain is broader than the one above it. -/
def Narrowing (links : List Link) : Prop :=
  links.IsChain fun child parent => NoBroader child.1 parent.1

/-- The key at the end of the chain may do no more than any grant above it allows. -/
@[mk_iff]
structure LeafBounded (links : List Link) : Prop where
  purposes : ∀ leaf ∈ links.head?, ∀ l ∈ links, ∀ p ∈ leaf.1.purposes, p ≠ .DELEGATE →
    p ∈ l.1.purposes
  scope : ∀ leaf ∈ links.head?, ∀ l ∈ links.tail, ScopeWithin leaf.1.scope l.1.scope
  window : ∀ leaf ∈ links.head?, ∀ l ∈ links, l.1.notBefore.val ≤ leaf.1.notBefore.val ∧
    leaf.1.notAfter.val ≤ l.1.notAfter.val

/-- The chain was checked for what it is good for. -/
structure Serves (options : VerifyOptions) (links : List Link) : Prop where
  purpose : ∀ leaf ∈ links.head?, options.requirePurpose ∈ leaf.1.purposes
  scope : ∀ leaf ∈ links.head?, ∀ s, options.requireScope = some s → leaf.1.scope = some s
  named : options.requirePurpose ∈ SCOPED_PURPOSES → options.requireScope ≠ none
  canonical : ∀ s, options.requireScope = some s → isValidScope s = true

/-- The grants parse to these links. -/
abbrev Parses (chain : List Value) (links : List Link) : Prop :=
  List.Forall₂ (fun grant link => parseLink grant = .ok link) chain links

/-! ### From neighbours to ancestors -/

/-- **Narrowing at every step bounds the leaf by every ancestor.** -/
theorem Narrowing.leafBounded {links : List Link} (h : Narrowing links) : LeafBounded links := by
  cases links with
  | nil => exact ⟨by simp, by simp, by simp⟩
  | cons leaf rest =>
    let R : Link → Link → Prop := fun child parent => NoBroader child.1 parent.1
    have : Trans R R R := ⟨NoBroader.trans⟩
    have hall : ∀ l ∈ rest, NoBroader leaf.1 l.1 :=
      (List.pairwise_cons.mp (List.isChain_iff_pairwise.mp (show List.IsChain R _ from h))).1
    refine ⟨?_, ?_, ?_⟩
    · rintro _ ⟨⟩ l hl p hp -
      rcases List.mem_cons.mp hl with rfl | hl
      · exact hp
      · exact (hall l hl).purposes hp
    · rintro _ ⟨⟩ l hl
      exact (hall l hl).scope
    · rintro _ ⟨⟩ l hl
      rcases List.mem_cons.mp hl with rfl | hl
      · exact ⟨le_rfl, le_rfl⟩
      · exact ⟨(hall l hl).notBefore, (hall l hl).notAfter⟩

/-! ### The checks, one by one -/

variable {verify c}

lemma hex_mem_iff {ks : List PublicKey} {k : PublicKey} :
    toHex k.val ∈ ks.map (fun k => toHex k.val) ↔ k ∈ ks := by
  simp only [List.mem_map]
  constructor
  · rintro ⟨k', hk', h⟩
    rwa [← Subtype.ext (toHex_injective h)]
  · exact fun h => ⟨k, h, rfl⟩

lemma checkGrant_eq_ok_iff {i : ℕ} {link : Link} :
    checkGrant verify c i link = .ok () ↔ GoodLink verify c link := by
  unfold checkGrant
  have hserial : (c.knownSerials link.1.serialKey).filter
        (fun seen => (link.1.serial.val : ℚ) < seen) = none ↔
      ∀ seen, c.knownSerials link.1.serialKey = some seen → seen ≤ (link.1.serial.val : ℚ) := by
    cases c.knownSerials link.1.serialKey <;> simp [Option.filter]
  simp only [ParsedGrant.subjectHex, ParsedGrant.issuerHex, List.contains_iff_mem, hex_mem_iff]
  constructor
  · intro h
    split at h
    · simp at h
    next hsubject =>
    split at h
    · simp at h
    next hissuer =>
    split at h
    · simp at h
    next hbefore =>
    split at h
    · simp at h
    next hafter =>
    split at h
    · simp at h
    next hseen =>
    split at h
    · simp at h
    next hsigned =>
    refine ⟨hsubject, hissuer, by omega, by omega, ?_, by simpa using hsigned⟩
    rw [← hserial]
    cases hf : (c.knownSerials link.1.serialKey).filter
        (fun seen => (link.1.serial.val : ℚ) < seen) with
    | none => rfl
    | some seen => exact absurd hf (hseen seen)
  · rintro ⟨hsubject, hissuer, hbefore, hafter, hcurrent, hsigned⟩
    rw [if_neg hsubject, if_neg hissuer, if_neg (by omega), if_neg (by omega),
      hserial.mpr hcurrent]
    simp [hsigned]

instance (link : Link) : Decidable (GoodLink verify c link) :=
  decidable_of_iff (checkGrant verify c 0 link = .ok ()) checkGrant_eq_ok_iff

instance (child parent : ParsedGrant) : Decidable (Authorizes child parent) :=
  decidable_of_iff _ (authorizes_iff child parent).symm

instance (links : List Link) : Decidable (Walks verify c links) :=
  decidable_of_iff _ (walks_iff verify c links).symm

instance (links : List Link) : Decidable (LeafBounded links) :=
  decidable_of_iff _ (leafBounded_iff links).symm

lemma checkNarrows_eq_ok_iff {i : ℕ} {child grant : ParsedGrant} :
    checkNarrows i child grant = .ok () ↔ Authorizes child grant ∧ NoBroader child grant := by
  unfold checkNarrows
  have hfind : (child.purposes.find? fun p => !grant.purposes.contains p) = none ↔
      child.purposes ⊆ grant.purposes := by
    simp [List.find?_eq_none, List.subset_def]
  constructor
  · intro h
    split at h
    · simp at h
    next hlinked =>
    split at h
    · simp at h
    next hdelegate =>
    split at h
    · simp at h
    next hpurposes =>
    split at h
    · simp at h
    next hany =>
    split at h
    · simp at h
    next hwindow =>
    push Not at hwindow
    exact ⟨⟨not_not.mp hlinked, by simpa using hdelegate⟩, hfind.mp hpurposes,
      scopeWithin_iff.mp (by simpa using hany), hwindow.1, hwindow.2⟩
  · rintro ⟨⟨hlinked, hdelegate⟩, hpurposes, hwithin, hbefore, hafter⟩
    rw [if_neg (by simpa using hlinked), if_neg (by simpa using hdelegate), hfind.mpr hpurposes]
    dsimp only
    rw [scopeWithin_iff.mpr hwithin, if_neg (by simp), if_neg (by omega)]

/-- One round of the walk: the grant by itself, then against the one below it. -/
lemma checkLinks_cons {i : ℕ} {child : Option ParsedGrant} {link : Link} {rest : List Link} :
    checkLinks verify c i child (link :: rest) = .ok () ↔
      GoodLink verify c link ∧
      (∀ g, child = some g → Authorizes g link.1 ∧ NoBroader g link.1) ∧
      checkLinks verify c (i + 1) (some link.1) rest = .ok () := by
  rw [checkLinks]
  rw [← checkGrant_eq_ok_iff (i := i)]
  cases hg : checkGrant verify c i link with
  | error e => simp [bind, Except.bind]
  | ok u =>
    cases child with
    | none => simp [bind, Except.bind]
    | some g =>
      rw [show (∀ g', some g = some g' → Authorizes g' link.1 ∧ NoBroader g' link.1) ↔
        checkNarrows i g link.1 = .ok () by rw [checkNarrows_eq_ok_iff]; simp]
      cases hn : checkNarrows i g link.1 <;> simp [bind, Except.bind, hn]

lemma checkLinks_above {i : ℕ} {below : Link} {links : List Link} :
    checkLinks verify c i (some below.1) links = .ok () ↔
      (∀ l ∈ links, GoodLink verify c l) ∧
      (below :: links).IsChain fun child parent =>
        Authorizes child.1 parent.1 ∧ NoBroader child.1 parent.1 := by
  induction links generalizing i below with
  | nil => simp [checkLinks]
  | cons link rest ih =>
    rw [checkLinks_cons, ih, List.isChain_cons_cons, List.forall_mem_cons]
    simp only [Option.some.injEq, forall_eq']
    tauto

/-- The walk accepts exactly the chains of good grants that authorize and narrow in turn. -/
lemma checkLinks_eq_ok_iff {links : List Link} :
    checkLinks verify c 0 none links = .ok () ↔
      (∀ l ∈ links, GoodLink verify c l) ∧
      (links.IsChain fun child parent => Authorizes child.1 parent.1) ∧ Narrowing links := by
  have hand : ∀ l : List Link, (l.IsChain fun child parent =>
        Authorizes child.1 parent.1 ∧ NoBroader child.1 parent.1) ↔
      (l.IsChain fun child parent => Authorizes child.1 parent.1) ∧ Narrowing l := by
    intro l
    simp only [Narrowing, List.isChain_iff_getElem, forall_and]
  cases links with
  | nil => simp [checkLinks, Narrowing]
  | cons link rest =>
    rw [checkLinks_cons, checkLinks_above, hand, List.forall_mem_cons, and_assoc]
    simp

lemma parseLinks_eq_ok_iff {i : ℕ} {chain : List Value} {links : List Link} :
    parseLinks i chain = .ok links ↔ Parses chain links := by
  induction chain generalizing i links with
  | nil => simp [parseLinks, eq_comm]
  | cons grant rest ih =>
    unfold parseLinks
    cases hp : parseLink grant with
    | error e => simp [Parses, List.forall₂_cons_left_iff, hp]
    | ok link =>
      cases hr : parseLinks (i + 1) rest with
      | error e =>
        have : ∀ u, ¬ Parses rest u := fun u hu => by simp [ih.mpr hu] at hr
        simp only [bind, Except.bind, reduceCtorEq, false_iff]
        intro h
        obtain ⟨l, ls, -, hls, -⟩ := List.forall₂_cons_left_iff.mp h
        exact this ls hls
      | ok links' =>
        have hrest := ih.mp hr
        constructor
        · intro h
          obtain rfl := Except.ok.inj h
          exact List.Forall₂.cons hp hrest
        · intro h
          obtain ⟨l, ls, hl, hls, rfl⟩ := List.forall₂_cons_left_iff.mp h
          obtain rfl := Except.ok.inj (hp.symm.trans hl)
          obtain rfl := Except.ok.inj (hr.symm.trans (ih.mpr hls))
          rfl

/-! ### The whole verification -/

lemma keys_nodup_iff {leaf : Link} {rest : List Link} :
    (leaf.1.subjectHex :: (leaf :: rest).map fun l => l.1.issuerHex).Nodup ↔
      (keys (leaf :: rest)).Nodup := by
  have hmap : (leaf.1.subjectHex :: (leaf :: rest).map fun l => l.1.issuerHex) =
      (keys (leaf :: rest)).map fun k => toHex k.val := by
    simp [keys, ParsedGrant.subjectHex, ParsedGrant.issuerHex]
  rw [hmap, List.nodup_map_iff]
  exact fun a b h => Subtype.ext (toHex_injective h)

/-- What the checks after the walk come to. -/
lemma verifyLinks_of_parses {purpose : GrantPurpose} {chain : List Value} {leaf : Link}
    {rest : List Link} (hchain : Parses chain (leaf :: rest))
    (hlength : chain.length ≤ MAX_CHAIN_DEPTH) {v : VerifiedChain} :
    verifyLinks verify c purpose chain = .ok v ↔
      Walks verify c (leaf :: rest) ∧ Narrowing (leaf :: rest) ∧ purpose ∈ leaf.1.purposes ∧
      v = ⟨leaf.1.purposes, leaf.1.subject, leaf.1.scope, leaf.1.notBefore, leaf.1.notAfter,
        (leaf :: rest).map fun l => (l.1.serialKey, l.1.serial)⟩ := by
  have hne : chain.isEmpty = false := by
    cases hchain
    rfl
  obtain ⟨root, hroot⟩ : ∃ root, (leaf :: rest).getLast? = some root :=
    ⟨_, List.getLast?_eq_some_getLast (List.cons_ne_nil _ _)⟩
  have hwalk : checkLinks verify c 0 none (leaf :: rest) = .ok () ↔ _ := checkLinks_eq_ok_iff
  have hkeys : _ ↔ (keys (leaf :: rest)).Nodup := keys_nodup_iff
  have hrooted : _ ↔ root.1.issuer ∈ c.roots := hex_mem_iff
  unfold verifyLinks
  rw [parseLinks_eq_ok_iff.mpr hchain]
  simp only [hne, Bool.false_eq_true, if_false, not_lt.mpr hlength, bind, Except.bind]
  cases hc : checkLinks verify c 0 none (leaf :: rest) with
  | error e =>
    rw [hc] at hwalk
    simp only [reduceCtorEq, false_iff] at hwalk ⊢
    exact fun h => hwalk ⟨h.1.good, h.1.authorized, h.2.1⟩
  | ok u =>
    obtain ⟨hgood, hauth, hnarrow⟩ := hwalk.mp hc
    simp only [List.head?_cons, hroot]
    constructor
    · intro h
      split at h
      · simp at h
      next hnodup =>
      split at h
      · simp at h
      next htrusted =>
      split at h
      · simp at h
      next hpurpose =>
      refine ⟨⟨hgood, hauth, hkeys.mp (not_not.mp hnodup), ?_⟩, hnarrow, by simpa using hpurpose,
        (Except.ok.inj h).symm⟩
      rw [hroot]
      rintro _ ⟨⟩
      exact hrooted.mp (by simpa [ParsedGrant.issuerHex] using htrusted)
    · rintro ⟨⟨-, -, hnodup, htrusted⟩, -, hpurpose, rfl⟩
      rw [if_neg (not_not.mpr (hkeys.mpr hnodup))]
      have hin := hrooted.mpr (htrusted root (by simp [hroot]))
      simp only [ParsedGrant.issuerHex, List.contains_iff_mem.mpr hin,
        List.contains_iff_mem.mpr hpurpose]
      rfl

/-- The walk accepts one to four grants that lead to a root and narrow at every step. -/
lemma verifyLinks_eq_ok_iff {purpose : GrantPurpose} {chain : List Value} {v : VerifiedChain} :
    verifyLinks verify c purpose chain = .ok v ↔
      chain.length ≤ MAX_CHAIN_DEPTH ∧ ∃ leaf rest, Parses chain (leaf :: rest) ∧
        Walks verify c (leaf :: rest) ∧ Narrowing (leaf :: rest) ∧ purpose ∈ leaf.1.purposes ∧
        v = ⟨leaf.1.purposes, leaf.1.subject, leaf.1.scope, leaf.1.notBefore, leaf.1.notAfter,
          (leaf :: rest).map fun l => (l.1.serialKey, l.1.serial)⟩ := by
  constructor
  · intro h
    have hlength : chain.length ≤ MAX_CHAIN_DEPTH := by
      by_contra hlong
      unfold verifyLinks at h
      by_cases hne : chain.isEmpty
      · simp [hne, bind, Except.bind] at h
      · simp [hne, not_le.mp hlong, bind, Except.bind] at h
    cases hp : parseLinks 0 chain with
    | error e =>
      unfold verifyLinks at h
      rw [hp] at h
      by_cases hne : chain.isEmpty
      · simp [hne, bind, Except.bind] at h
      · simp [hne, not_lt.mpr hlength, bind, Except.bind] at h
    | ok links =>
      have hparses := parseLinks_eq_ok_iff.mp hp
      cases links with
      | nil =>
        cases hparses
        simp [verifyLinks, bind, Except.bind] at h
      | cons leaf rest =>
        exact ⟨hlength, leaf, rest, hparses, (verifyLinks_of_parses hparses hlength).mp h⟩
  · rintro ⟨hlength, leaf, rest, hparses, h⟩
    exact (verifyLinks_of_parses hparses hlength).mpr h

/-- The check of the required scope, before the walk and after it. -/
lemma verifyChain_eq_ok_iff {chain : List Value} {options : VerifyOptions} {v : VerifiedChain} :
    verifyChain verify chain options = .ok (.ok v) ↔
      (options.requirePurpose ∈ SCOPED_PURPOSES → options.requireScope ≠ none) ∧
      (∀ s, options.requireScope = some s → isValidScope s = true ∧ v.scope = some s) ∧
      ∃ c, context options = .ok c ∧
        verifyLinks verify c options.requirePurpose chain = .ok v := by
  unfold verifyChain verifyChainCore
  cases hcontext : context options with
  | error e =>
    simp only [bind, Except.bind]
    split <;> simp
  | ok c =>
    simp only [bind, Except.bind, Except.ok.injEq, exists_eq_left']
    cases hlinks : verifyLinks verify c options.requirePurpose chain with
    | error f =>
      simp only [reduceCtorEq, and_false, iff_false]
      split <;> simp
    | ok w =>
      cases hscope : options.requireScope with
      | none =>
        by_cases hscoped : options.requirePurpose ∈ SCOPED_PURPOSES <;> simp [hscoped]
      | some s =>
        by_cases hvalid : isValidScope s = true
        · by_cases hw : w.scope = some s
          · simp only [Option.isSome_some, Bool.true_or, Option.any_some, hvalid, Bool.not_true,
              Bool.and_false, Bool.false_eq_true, if_false, hw, ne_eq, not_true_eq_false,
              decide_false, Except.ok.injEq, Option.some.injEq, forall_eq', true_and]
            constructor
            · rintro rfl
              exact ⟨fun _ => by simp, hw, rfl⟩
            · exact fun h => h.2.2
          · simp only [Option.isSome_some, Bool.true_or, Option.any_some, hvalid, Bool.not_true,
              Bool.and_false, Bool.false_eq_true, if_false, hw, ne_eq, not_false_eq_true,
              decide_true, Bool.and_self, if_true, Except.ok.injEq, reduceCtorEq, false_iff]
            rintro ⟨-, hv, rfl⟩
            exact hw (hv s rfl).2
        · simp [hvalid]

/-- **Grant chains**: an accepted chain leads from a trusted root to a leaf that no grant above
it is narrower than; and the chains accepted are those of one to four grants that lead to a
root, are each no broader than the next, and carry what was asked for. -/
theorem verifyChain_sound_complete (verify : Verifier) (options : VerifyOptions)
    (chain : List Value) :
    (∀ v, verifyChain verify chain options = .ok (.ok v) →
      ∃ c links, context options = .ok c ∧ Parses chain links ∧ Walks verify c links ∧
        LeafBounded links ∧ Serves options links) ∧
    ∀ c links, context options = .ok c → Parses chain links → links ≠ [] →
      links.length ≤ MAX_CHAIN_DEPTH → Walks verify c links → Narrowing links →
      Serves options links → ∃ v, verifyChain verify chain options = .ok (.ok v) := by
  constructor
  · intro v hv
    obtain ⟨hnamed, hscope, c, hc, hlinks⟩ := verifyChain_eq_ok_iff.mp hv
    obtain ⟨-, leaf, rest, hparses, hwalks, hnarrow, hpurpose, rfl⟩ :=
      verifyLinks_eq_ok_iff.mp hlinks
    refine ⟨c, leaf :: rest, hc, hparses, hwalks, hnarrow.leafBounded, ?_, ?_, hnamed,
      fun s hs => (hscope s hs).1⟩
    · rintro _ ⟨⟩
      exact hpurpose
    · rintro _ ⟨⟩ s hs
      exact (hscope s hs).2
  · intro c links hc hparses hne hlength hwalks hnarrow hserves
    obtain ⟨leaf, rest, rfl⟩ := List.exists_cons_of_ne_nil hne
    refine ⟨_, verifyChain_eq_ok_iff.mpr ⟨hserves.named, fun s hs => ?_, c, hc,
      verifyLinks_eq_ok_iff.mpr ⟨hparses.length_eq ▸ hlength, leaf, rest, hparses, hwalks, hnarrow,
        hserves.purpose leaf rfl, rfl⟩⟩⟩
    exact ⟨hserves.canonical s hs, hserves.scope leaf rfl s hs⟩

/-! ### Two chains to run -/

def sampleKey (first : Char) : String :=
  String.ofList (first :: List.replicate 42 'A' ++ ['='])

def sampleSignature : String := String.ofList (List.replicate 86 'A' ++ ['=', '='])

def sampleGrant (issuer subject : Char) (purposes : List GrantPurpose) (notBefore notAfter : ℕ)
    (scope : Value) : Value :=
  .object [("issuer", .string (sampleKey issuer)), ("subject", .string (sampleKey subject)),
    ("purposes", .array (purposes.map fun p => .string p.text)),
    ("notBefore", .number notBefore), ("notAfter", .number notAfter), ("serial", .number 1),
    ("scope", scope), ("signature", .string sampleSignature)]

def sampleOptions (purpose : GrantPurpose) (scope : Option String) : VerifyOptions where
  trustedRoots := [.text (sampleKey 'B')]
  now := 12
  requirePurpose := purpose
  requireScope := scope

/-- A service node's key, under a device's key that is scoped to the name above it. -/
def serviceChain : List Value :=
  [sampleGrant 'C' 'D' [.SERVICE_NODE] 10 20 (.string "www.example.ox"),
    sampleGrant 'B' 'C' [.DELEGATE, .SERVICE_NODE] 5 50 (.string "example.ox")]

/-- A client's key, under a grant whose window is wider than that of the grant above it. -/
def wideMiddle : List Value :=
  [sampleGrant 'D' 'E' [.CLIENT] 10 20 .undefined,
    sampleGrant 'C' 'D' [.DELEGATE, .CLIENT] 0 100 .undefined,
    sampleGrant 'B' 'C' [.DELEGATE, .CLIENT] 5 50 .undefined]

def verifyAny : Verifier := fun _ _ _ => true

def contextOf (options : VerifyOptions) : Context :=
  match context options with
  | .ok c => c
  | .error _ => ⟨[], ⟨0, by decide⟩, [], fun _ => none⟩

def linksOf (chain : List Value) : List Link :=
  match parseLinks 0 chain with
  | .ok links => links
  | .error _ => []

lemma context_contextOf {options : VerifyOptions} (h : (context options).isOk = true) :
    context options = .ok (contextOf options) := by
  unfold contextOf
  cases hc : context options with
  | ok c => rfl
  | error e => simp [hc, Except.isOk, Except.toBool] at h

lemma parses_linksOf {chain : List Value} (h : (parseLinks 0 chain).isOk = true) :
    Parses chain (linksOf chain) := by
  unfold linksOf
  cases hl : parseLinks 0 chain with
  | ok links => exact parseLinks_eq_ok_iff.mp hl
  | error e => simp [hl, Except.isOk, Except.toBool] at h

lemma serves_sampleOptions {purpose : GrantPurpose} {scope : Option String} {links : List Link}
    (h : ∀ leaf ∈ links.head?, purpose ∈ leaf.1.purposes ∧ leaf.1.scope = scope)
    (hnamed : purpose ∈ SCOPED_PURPOSES → scope ≠ none)
    (hvalid : scope.all isValidScope = true) : Serves (sampleOptions purpose scope) links := by
  refine ⟨fun leaf hl => (h leaf hl).1, fun leaf hl s hs => (h leaf hl).2.trans hs, hnamed, ?_⟩
  intro s hs
  obtain rfl : scope = some s := hs
  simpa using hvalid

/-- The service node's chain, accepted and bounded. -/
theorem serviceChain_sound_complete :
    (∃ v, verifyChain verifyAny serviceChain
      (sampleOptions .SERVICE_NODE (some "www.example.ox")) = .ok (.ok v)) ∧
    ∃ c links, context (sampleOptions .SERVICE_NODE (some "www.example.ox")) = .ok c ∧
      Parses serviceChain links ∧ Walks verifyAny c links ∧ LeafBounded links ∧
      Serves (sampleOptions .SERVICE_NODE (some "www.example.ox")) links := by
  have hmain := verifyChain_sound_complete verifyAny
    (sampleOptions .SERVICE_NODE (some "www.example.ox")) serviceChain
  obtain ⟨hok, hne, hlength, hwalks, hnarrow, hleaf⟩ :
      (parseLinks 0 serviceChain).isOk = true ∧ linksOf serviceChain ≠ [] ∧
      (linksOf serviceChain).length ≤ MAX_CHAIN_DEPTH ∧
      Walks verifyAny (contextOf (sampleOptions .SERVICE_NODE (some "www.example.ox")))
        (linksOf serviceChain) ∧
      (linksOf serviceChain).IsChain (fun child parent => NoBroader child.1 parent.1) ∧
      ∀ leaf ∈ (linksOf serviceChain).head?, .SERVICE_NODE ∈ leaf.1.purposes ∧
        leaf.1.scope = some "www.example.ox" := by
    decide
  obtain ⟨v, hv⟩ := hmain.2 _ _ (context_contextOf (by decide)) (parses_linksOf hok) hne
    hlength hwalks hnarrow (serves_sampleOptions hleaf (by decide) (by decide))
  exact ⟨⟨v, hv⟩, hmain.1 v hv⟩

/-- Every grant of this chain bounds its leaf, and still it is refused. -/
theorem wideMiddle_refused :
    (∃ c links, context (sampleOptions .CLIENT none) = .ok c ∧ Parses wideMiddle links ∧
      links ≠ [] ∧ links.length ≤ MAX_CHAIN_DEPTH ∧ Walks verifyAny c links ∧
      LeafBounded links ∧ Serves (sampleOptions .CLIENT none) links) ∧
    verifyChain verifyAny wideMiddle (sampleOptions .CLIENT none) =
      .ok (.error ⟨.windowNotNested, "grant 1 outlives or predates its issuer's grant"⟩) := by
  obtain ⟨hok, hne, hlength, hwalks, hbounded, hleaf, hresult⟩ :
      (parseLinks 0 wideMiddle).isOk = true ∧ linksOf wideMiddle ≠ [] ∧
      (linksOf wideMiddle).length ≤ MAX_CHAIN_DEPTH ∧
      Walks verifyAny (contextOf (sampleOptions .CLIENT none)) (linksOf wideMiddle) ∧
      LeafBounded (linksOf wideMiddle) ∧
      (∀ leaf ∈ (linksOf wideMiddle).head?, .CLIENT ∈ leaf.1.purposes ∧ leaf.1.scope = none) ∧
      verifyChain verifyAny wideMiddle (sampleOptions .CLIENT none) =
        .ok (.error ⟨.windowNotNested, "grant 1 outlives or predates its issuer's grant"⟩) := by
    decide
  exact ⟨⟨contextOf (sampleOptions .CLIENT none), linksOf wideMiddle,
    context_contextOf (by decide), parses_linksOf hok, hne, hlength, hwalks, hbounded,
    serves_sampleOptions hleaf (by decide) (by decide)⟩, hresult⟩

end Tnp.Crypto.GrantChain
