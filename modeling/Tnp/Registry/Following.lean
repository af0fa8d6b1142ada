import Tnp.Lib.Fallible
import Tnp.Registry.KeyLifecycle

/-!
Whether a client can follow what the registry publishes.

A walk takes the first statement that retires the key it stands at. In a history each statement
retires the key the one before it introduced, so the walk misses none on its way, whatever does
not verify stands between them. Everything in the list counts towards the limit.
-/

namespace Tnp.Registry

open Tnp.Lib Tnp.Crypto Tnp.Crypto.Grants Tnp.Crypto.DomainKey

variable (verify : Verifier)

/-- The statements that verify for the name, in the order of the list. -/
def genuine (name : String) (rotations : List Value) : List ParsedRotation :=
  rotations.filterMap fun value => (verifyDomainKeyRotation verify value name).toOption

/-- The statements lead through the pinned key, and from there to the current one. -/
def Covers (rs : List ParsedRotation) (pinned current : PublicKey) : Prop :=
  ∃ start older between newer, rs = older ++ (between ++ newer) ∧ Leads start older pinned ∧
    Leads pinned between current

/-- What a rotation may leave behind: each statement verifies, retires the key that the one before
it introduced, and was issued after it. -/
structure Contiguous (name : String) (history : List Value) (rs : List ParsedRotation) : Prop where
  verified : Verified verify name history rs
  path : ∃ start last, Leads start rs last
  increasing : Increasing rs
  bounded : history.length ≤ MAX_DOMAIN_KEY_ROTATIONS

/-- The list holds the history, among statements that do not verify. -/
def Holds (name : String) (rotations history : List Value) : Prop :=
  rotations.filter (fun value => (verifyDomainKeyRotation verify value name).toOption.isSome) =
    history

variable {verify}

lemma genuine_cons_error {name : String} {value : Value} {rest : List Value} {e : String}
    (h : verifyDomainKeyRotation verify value name = .error e) :
    genuine verify name (value :: rest) = genuine verify name rest := by
  simp [genuine, h, Except.toOption]

lemma genuine_cons_ok {name : String} {value : Value} {rest : List Value} {r : ParsedRotation}
    (h : verifyDomainKeyRotation verify value name = .ok r) :
    genuine verify name (value :: rest) = r :: genuine verify name rest := by
  simp [genuine, h, Except.toOption]

/-- What does not verify adds nothing to the statements that do. -/
lemma genuine_of_holds {name : String} {rotations history : List Value} {rs : List ParsedRotation}
    (hholds : Holds verify name rotations history) (hverified : Verified verify name history rs) :
    genuine verify name rotations = rs := by
  subst hholds
  induction rotations generalizing rs with
  | nil => simpa [genuine] using hverified
  | cons value rest ih =>
    cases hvalue : verifyDomainKeyRotation verify value name with
    | error e =>
      rw [List.filter_cons_of_neg (by simp [hvalue, Except.toOption])] at hverified
      rw [genuine_cons_error hvalue]
      exact ih hverified
    | ok r =>
      rw [List.filter_cons_of_pos (by simp [hvalue, Except.toOption])] at hverified
      obtain ⟨r', rs', hr', hrest, rfl⟩ := List.forall₂_cons_left_iff.mp hverified
      obtain rfl := Except.ok.inj (hvalue.symm.trans hr')
      rw [genuine_cons_ok hvalue, ih hrest]

/-- A history holds itself. -/
lemma holds_self {name : String} {history : List Value} {rs : List ParsedRotation}
    (h : Verified verify name history rs) : Holds verify name history history := by
  refine List.filter_eq_self.mpr ?_
  induction h with
  | nil => simp
  | cons hvalue _ ih => exact List.forall_mem_cons.mpr ⟨by simp [hvalue, Except.toOption], ih⟩

/-! ### The walk along a history -/

/-- From a key on the way, the walk takes each statement to the end. -/
lemma walkRotations_arrives {name : String} {target cursor : PublicKey} {last : ℤ} {steps : ℕ}
    {rotations : List Value} {path newer : List ParsedRotation}
    (hgenuine : genuine verify name rotations = path ++ newer) (hpath : Leads cursor path target)
    (hne : cursor ≠ target) (hincreasing : Increasing path)
    (hlast : ∀ r ∈ path.head?, last < r.issuedAt.val) :
    ∃ n, walkRotations verify name target cursor last steps rotations = some n := by
  induction rotations generalizing cursor last steps path with
  | nil =>
    obtain rfl : path = [] := (List.append_eq_nil_iff.mp hgenuine.symm).1
    exact absurd hpath hne
  | cons value rest ih =>
    unfold walkRotations
    cases hvalue : verifyDomainKeyRotation verify value name with
    | error e => exact ih (genuine_cons_error hvalue ▸ hgenuine) hpath hne hincreasing hlast
    | ok r =>
      rw [genuine_cons_ok hvalue] at hgenuine
      cases path with
      | nil => exact absurd hpath hne
      | cons p path =>
        obtain ⟨rfl, hrest⟩ := List.cons.inj hgenuine
        obtain ⟨hfrom, hpath⟩ := hpath
        have hissued : ¬ (r.issuedAt.val : ℤ) ≤ last := not_le.mpr (hlast r rfl)
        simp only [hfrom, ne_eq, not_true_eq_false, if_false, hissued]
        by_cases hto : r.nextKey = target
        · exact ⟨_, if_pos hto⟩
        · rw [if_neg hto]
          obtain ⟨hhead, htail⟩ := List.isChain_cons.mp hincreasing
          exact ih hrest hpath hto htail fun s hs => by exact_mod_cast hhead s hs

/-- From the pinned key, the walk passes over what came before it or goes along with it, and takes
the rest to the current key. -/
lemma walkRotations_covers {name : String} {pinned current start : PublicKey} {steps : ℕ}
    {rotations : List Value} {older between newer : List ParsedRotation}
    (hgenuine : genuine verify name rotations = older ++ (between ++ newer))
    (holder : Leads start older pinned) (hbetween : Leads pinned between current)
    (hne : pinned ≠ current) (hincreasing : Increasing (older ++ between)) :
    ∃ n, walkRotations verify name current pinned (-1) steps rotations = some n := by
  have hfirst : ∀ r : ParsedRotation, (-1 : ℤ) < r.issuedAt.val := fun r => by omega
  induction rotations generalizing older start with
  | nil =>
    obtain ⟨-, hrest⟩ := List.append_eq_nil_iff.mp hgenuine.symm
    obtain rfl : between = [] := (List.append_eq_nil_iff.mp hrest).1
    exact absurd hbetween hne
  | cons value rest ih =>
    cases older with
    | nil =>
      have hbegins : genuine verify name (value :: rest) = between ++ newer := hgenuine
      exact walkRotations_arrives hbegins hbetween hne hincreasing fun r _ => hfirst r
    | cons o older =>
      unfold walkRotations
      cases hvalue : verifyDomainKeyRotation verify value name with
      | error e => exact ih (genuine_cons_error hvalue ▸ hgenuine) holder hincreasing
      | ok r =>
        rw [genuine_cons_ok hvalue] at hgenuine
        obtain ⟨rfl, hrest⟩ := List.cons.inj hgenuine
        obtain ⟨-, holder⟩ := holder
        obtain ⟨hhead, htail⟩ := List.isChain_cons.mp hincreasing
        dsimp only
        by_cases hfrom : r.previousKey = pinned
        · have hissued : ¬ (r.issuedAt.val : ℤ) ≤ -1 := not_le.mpr (hfirst r)
          simp only [hfrom, ne_eq, not_true_eq_false, if_false, hissued]
          by_cases hto : r.nextKey = current
          · exact ⟨_, if_pos hto⟩
          · rw [if_neg hto]
            have hleft : genuine verify name rest = (older ++ between) ++ newer := by
              rw [List.append_assoc]
              exact hrest
            exact walkRotations_arrives hleft (leads_append.mpr ⟨_, holder, hbetween⟩) hto htail
              fun s hs => by exact_mod_cast hhead s hs
        · rw [if_pos hfrom]
          exact ih hrest holder htail

/-! ### What is followed -/

/-- **Following is sound, and complete for what the registry publishes.** A key that is accepted
is the pinned one, or is reached from it by statements of the list that verify. And if the list has
at most as many entries as are kept, and holds a history that leads through the pinned key to the
current one, then it is accepted, whatever else is in the list. -/
theorem follow_rotations (name : String) (pinned current : KeyInput) (rotations : List Value) :
    (∀ n, followDomainKeyRotations verify ⟨name, pinned, current, .array rotations⟩ = .ok n →
      ∃ key key', parsePublicKey pinned = .ok key ∧ parsePublicKey current = .ok key' ∧
        (key = key' ∨ ∃ taken rs, taken.Sublist rotations ∧ Verified verify name taken rs ∧
          Leads key rs key' ∧ Increasing rs)) ∧
    ∀ history rs key key', parsePublicKey pinned = .ok key → parsePublicKey current = .ok key' →
      Contiguous verify name history rs → Covers rs key key' →
      Holds verify name rotations history → rotations.length ≤ MAX_DOMAIN_KEY_ROTATIONS →
      ∃ n, followDomainKeyRotations verify ⟨name, pinned, current, .array rotations⟩ = .ok n := by
  constructor
  · intro n h
    have hkeys : ∃ key key', parsePublicKey pinned = .ok key ∧
        parsePublicKey current = .ok key' := by
      unfold followDomainKeyRotations at h
      split at h
      · contradiction
      next key hkey =>
      split at h
      · contradiction
      next key' hkey' => exact ⟨key, key', hkey, hkey'⟩
    obtain ⟨key, key', hkey, hkey'⟩ := hkeys
    refine ⟨key, key', hkey, hkey', ?_⟩
    rcases followDomainKeyRotations_eq_ok hkey hkey' h with hsame |
      ⟨all, taken, rs, hall, hsub, hverified, hleads, hincreasing⟩
    · exact .inl hsame
    · obtain rfl := Value.array.inj hall
      exact .inr ⟨taken, rs, hsub, hverified, hleads, hincreasing⟩
  · intro history rs key key' hkey hkey' hcontiguous hcovers hholds hlength
    obtain ⟨start, older, between, newer, rfl, holder, hbetween⟩ := hcovers
    simp only [followDomainKeyRotations, hkey, hkey']
    by_cases hsame : key = key'
    · exact ⟨0, if_pos hsame⟩
    · have hincreasing : Increasing (older ++ between) := by
        have hall := hcontiguous.increasing
        rw [← List.append_assoc] at hall
        exact (List.isChain_append.mp hall).1
      obtain ⟨n, hn⟩ := walkRotations_covers (genuine_of_holds hholds hcontiguous.verified) holder
        hbetween hsame hincreasing
      rw [if_neg hsame, if_neg (not_lt.mpr hlength), hn]
      exact ⟨n, rfl⟩

/-- A statement that hands `shop.ox` on from one key to the next, where signatures verify. -/
def handOver : Value :=
  .object [("name", .string "shop.ox"),
    ("previousKey", .string (encodeBase64 (List.replicate 32 1))),
    ("nextKey", .string (encodeBase64 (List.replicate 32 2))), ("issuedAt", .number 5),
    ("signature", .string (encodeBase64 (List.replicate 64 0)))]

/-- The keys it is between. -/
def retiredKey : PublicKey := ⟨List.replicate 32 1, length_ones⟩

def introducedKey : PublicKey := ⟨List.replicate 32 2, List.length_replicate⟩

/-- What it says. -/
def handedOver : ParsedRotation :=
  ⟨"shop.ox", retiredKey, introducedKey, ⟨5, by decide⟩, by decide, by decide⟩

lemma verify_handOver :
    verifyDomainKeyRotation (fun _ _ _ => true) handOver "shop.ox" = .ok handedOver := by
  decide +kernel

lemma contiguous_handOver :
    Contiguous (fun _ _ _ => true) "shop.ox" [handOver] [handedOver] :=
  ⟨.cons verify_handOver .nil, ⟨retiredKey, introducedKey, rfl, rfl⟩, List.isChain_singleton _,
    by decide⟩

lemma covers_handOver : Covers [handedOver] retiredKey introducedKey :=
  ⟨retiredKey, [], [handedOver], [], rfl, rfl, rfl, rfl⟩

lemma holds_handOver (n : ℕ) :
    Holds (fun _ _ _ => true) "shop.ox" (handOver :: List.replicate n .null) [handOver] := by
  have hnull : verifyDomainKeyRotation (fun _ _ _ => true) .null "shop.ox" =
      .error "rotation: rotation must be an object" := rfl
  rw [Holds, List.filter_cons_of_pos (by simp [verify_handOver, Except.toOption])]
  simp [hnull, Except.toOption]

/-- It is followed among entries that are no statements. -/
theorem follow_rotations_handOver :
    ∃ n, followDomainKeyRotations (fun _ _ _ => true) ⟨"shop.ox", .raw retiredKey.val,
      .raw introducedKey.val, .array (handOver :: List.replicate 31 .null)⟩ = .ok n :=
  (follow_rotations "shop.ox" (.raw retiredKey.val) (.raw introducedKey.val)
    (handOver :: List.replicate 31 .null)).2 [handOver] [handedOver] retiredKey introducedKey
    (by decide) (by decide) contiguous_handOver covers_handOver (holds_handOver 31) (by decide)

/-- **The limit is on the list, not on the history in it**: one statement is not found among as many
entries that do not verify as may be kept. -/
theorem interleaved_not_followed :
    ¬ ∀ (name : String) (pinned current : KeyInput) (rotations history : List Value)
      (rs : List ParsedRotation) (key key' : PublicKey), parsePublicKey pinned = .ok key →
      parsePublicKey current = .ok key' → Contiguous (fun _ _ _ => true) name history rs →
      Covers rs key key' → Holds (fun _ _ _ => true) name rotations history →
      ∃ n, followDomainKeyRotations (fun _ _ _ => true) ⟨name, pinned, current, .array rotations⟩ =
        .ok n := by
  intro h
  obtain ⟨n, hn⟩ := h "shop.ox" (.raw retiredKey.val) (.raw introducedKey.val)
    (handOver :: List.replicate 32 .null) [handOver] [handedOver] retiredKey introducedKey
    (by decide) (by decide) contiguous_handOver covers_handOver (holds_handOver 32)
  have hlong : followDomainKeyRotations (fun _ _ _ => true) ⟨"shop.ox", .raw retiredKey.val,
      .raw introducedKey.val, .array (handOver :: List.replicate 32 .null)⟩ =
        .error "rotation history is malformed or too long" := by
    decide +kernel
  rw [hlong] at hn
  contradiction

variable {sha256 : Hash} {toLowerCase : String → String}

/-- **A client that pinned any key of a published history can follow it** to the key that is
published with it. -/
theorem published_followed (es : List Request) {parts : NameParts} {row : Domain} {text : String}
    (hrow : (Run.run (step verify sha256 toLowerCase) {} es).domains.get parts = some row)
    (htext : row.domainKey = some text) :
    ∃ rs, Contiguous verify parts.name row.domainKeyRotations rs ∧
      ∀ pinned key key', parsePublicKey pinned = .ok key → canonicalKey text = some key' →
        Covers rs key key' → ∃ n, followDomainKeyRotations verify
          ⟨parts.name, pinned, .text text, .array row.domainKeyRotations⟩ = .ok n := by
  obtain ⟨K, hK, ⟨start, rs, hverified, hleads, hincreasing⟩, hbounded⟩ :=
    (Sound.run es).rows parts row text hrow htext
  have hcontiguous : Contiguous verify parts.name row.domainKeyRotations rs :=
    ⟨hverified, ⟨start, K, hleads⟩, hincreasing, hbounded⟩
  refine ⟨rs, hcontiguous, fun pinned key key' hkey hkey' hcovers => ?_⟩
  refine (follow_rotations parts.name pinned (.text text) row.domainKeyRotations).2 _ rs key key'
    hkey (toOption_eq_some.mp hkey') hcontiguous hcovers ?_ hbounded
  exact holds_self hverified

end Tnp.Registry
