import Mathlib.Data.List.Chain
import Tnp.Crypto.Grants

/-!
Domain keys, and the statements that hand a name on from one key to the next.

A domain key is the root of every grant chain of its name. The registry only publishes it: a
client pins the first one it sees, and takes another only along statements that the retiring
keys signed.
-/

namespace Tnp.Crypto.DomainKey

open Tnp.Lib Tnp.Crypto.Grants

def ROTATION_CONTEXT : String := "tnp-domain-key-rotation-v1"
def MAX_DOMAIN_KEY_ROTATIONS : ℕ := 32

def ROTATION_FIELDS : List String := ["name", "previousKey", "nextKey", "issuedAt", "signature"]

/-- A rotation statement after strict parsing. -/
structure ParsedRotation where
  name : String
  previousKey : PublicKey
  nextKey : PublicKey
  issuedAt : SafeUint
  name_valid : isValidScope name = true
  keys_ne : previousKey ≠ nextKey

lemma ParsedRotation.eq_iff {r s : ParsedRotation} :
    r.name = s.name ∧ r.previousKey = s.previousKey ∧ r.nextKey = s.nextKey ∧
      r.issuedAt = s.issuedAt ↔ r = s := by
  obtain ⟨name, previousKey, nextKey, issuedAt, _, _⟩ := r
  obtain ⟨name', previousKey', nextKey', issuedAt', _, _⟩ := s
  simp only [ParsedRotation.mk.injEq]

instance : DecidableEq ParsedRotation := fun _ _ => decidable_of_iff _ ParsedRotation.eq_iff

def rotationKey (v : Value) : Except EncodingError PublicKey :=
  match v with
  | .string s => parsePublicKey (.text s)
  | _ => .error ⟨"previousKey and nextKey must be base64 strings"⟩

def parseRotation (value : Value) (allowSignature : Bool) : Except EncodingError ParsedRotation :=
  match value with
  | .object fields => do
    if fields.any fun f =>
        !(ROTATION_FIELDS.contains f.1) || (f.1 == "signature" && !allowSignature)
    then .error ⟨"rotation has an unexpected field"⟩
    let r := Value.field fields
    match r "name" with
    | .string name =>
      if hname : isValidScope name = true then do
        if !isText (r "previousKey") || !isText (r "nextKey") then
          .error ⟨"previousKey and nextKey must be base64 strings"⟩
        let previousKey ← rotationKey (r "previousKey")
        let nextKey ← rotationKey (r "nextKey")
        if hkeys : previousKey = nextKey then .error ⟨"rotation to the same key"⟩
        else do
          let issuedAt ← assertUint (r "issuedAt") "issuedAt"
          .ok ⟨name, previousKey, nextKey, issuedAt, hname, hkeys⟩
      else .error ⟨"name is not a canonical name"⟩
    | _ => .error ⟨"name is not a canonical name"⟩
  | _ => .error ⟨"rotation must be an object"⟩

/-- What is signed. -/
def encodeRotation (r : ParsedRotation) : Bytes :=
  ({} : CanonicalWriter)
    |>.string ROTATION_CONTEXT
    |>.string r.name
    |>.fixed r.previousKey
    |>.fixed r.nextKey
    |>.uint r.issuedAt
    |>.finish

variable (verify : Verifier)

/-- One statement for `name`, signed by the key it retires. The error is the `detail`. -/
def verifyDomainKeyRotation (rotation : Value) (name : String) : Except String ParsedRotation :=
  match parseRotation rotation true with
  | .error e => .error ("rotation: " ++ e.message)
  | .ok parsed =>
    match decodeBase64Strict (rotation.get "signature") (some SIGNATURE_LENGTH) with
    | .error e => .error ("rotation: " ++ e.message)
    | .ok signature =>
      if parsed.name ≠ name then .error "rotation is for another name"
      else if !verify (encodeRotation parsed) signature parsed.previousKey.val then
        .error "rotation signature does not verify"
      else .ok parsed

/-- The walk from `cursor` to `target`: the number of statements it took, if it gets there.
Statements that do not verify or do not continue the walk are skipped. -/
def walkRotations (name : String) (target : PublicKey) :
    PublicKey → ℤ → ℕ → List Value → Option ℕ
  | _, _, _, [] => none
  | cursor, lastIssuedAt, steps, rotation :: rest =>
    match verifyDomainKeyRotation verify rotation name with
    | .error _ => walkRotations name target cursor lastIssuedAt steps rest
    | .ok verified =>
      if verified.previousKey ≠ cursor then
        walkRotations name target cursor lastIssuedAt steps rest
      else if (verified.issuedAt.val : ℤ) ≤ lastIssuedAt then
        walkRotations name target cursor lastIssuedAt steps rest
      else if verified.nextKey = target then some (steps + 1)
      else walkRotations name target verified.nextKey verified.issuedAt.val (steps + 1) rest

structure FollowRotationsOptions where
  name : String
  pinned : KeyInput
  current : KeyInput
  rotations : Value

/-- Whether `current` is reached from `pinned` along genuine statements for the name. -/
def followDomainKeyRotations (options : FollowRotationsOptions) : Except String ℕ :=
  match parsePublicKey options.pinned with
  | .error e => .error ("key: " ++ e.message)
  | .ok cursor =>
    match parsePublicKey options.current with
    | .error e => .error ("key: " ++ e.message)
    | .ok target =>
      if cursor = target then .ok 0
      else
        match options.rotations with
        | .array rotations =>
          if MAX_DOMAIN_KEY_ROTATIONS < rotations.length then
            .error "rotation history is malformed or too long"
          else
            match walkRotations verify options.name target cursor (-1) 0 rotations with
            | some steps => .ok steps
            | none =>
              .error ("no chain of rotation statements signed by the pinned key leads to the " ++
                "presented key")
        | _ => .error "rotation history is malformed or too long"

/-- A hash of 32 bytes, `sha256`. -/
abbrev Hash := Bytes → {digest : Bytes // digest.length = 32}

def domainKeyFingerprint (sha256 : Hash) (key : KeyInput) : Except EncodingError String := do
  let key ← parsePublicKey key
  .ok (toHex (sha256 key.val).val)

variable {verify}

lemma parseRotation_issuedAt {value : Value} {allowSignature : Bool} {r : ParsedRotation}
    (h : parseRotation value allowSignature = .ok r) :
    value.get "issuedAt" = .number r.issuedAt.val := by
  unfold parseRotation at h
  simp only [bind, Except.bind] at h
  split at h
  · next fields =>
    repeat (split at h <;> try contradiction)
    next hissued =>
    obtain rfl := Except.ok.inj h
    exact assertUint_eq_ok hissued
  · contradiction

lemma verifyDomainKeyRotation_eq_ok {rotation : Value} {name : String} {r : ParsedRotation}
    (h : verifyDomainKeyRotation verify rotation name = .ok r) :
    parseRotation rotation true = .ok r ∧ r.name = name ∧
      ∃ signature, verify (encodeRotation r) signature r.previousKey.val = true := by
  unfold verifyDomainKeyRotation at h
  grind

/-! ### Successions of keys -/

/-- The statements hand a name on from one key to the other, each from where the one before it
ended. -/
def Leads : PublicKey → List ParsedRotation → PublicKey → Prop
  | K, [], K' => K = K'
  | K, r :: rs, K' => r.previousKey = K ∧ Leads r.nextKey rs K'

/-- The statements were issued one after the other. -/
def Increasing (rs : List ParsedRotation) : Prop :=
  rs.IsChain fun a b => a.issuedAt.val < b.issuedAt.val

variable (verify)

/-- Each value is a statement for the name that verifies. -/
abbrev Verified (name : String) (rotations : List Value) (rs : List ParsedRotation) : Prop :=
  List.Forall₂ (fun value r => verifyDomainKeyRotation verify value name = .ok r) rotations rs

lemma leads_append {K K' : PublicKey} {rs ss : List ParsedRotation} :
    Leads K (rs ++ ss) K' ↔ ∃ M, Leads K rs M ∧ Leads M ss K' := by
  induction rs generalizing K with
  | nil => simp [Leads]
  | cons r rs ih => simp [Leads, ih, and_assoc]

lemma Leads.drop {K K' : PublicKey} {rs : List ParsedRotation} (h : Leads K rs K') (n : ℕ) :
    ∃ M, Leads M (rs.drop n) K' := by
  rw [← List.take_append_drop n rs] at h
  obtain ⟨M, -, hdrop⟩ := leads_append.mp h
  exact ⟨M, hdrop⟩

variable {verify}

/-- **A walk that arrives went along statements of the history**, each signed by the key it
retires, and issued one after the other. -/
theorem walkRotations_eq_some {name : String} {target cursor : PublicKey} {last : ℤ} {steps n : ℕ}
    {rotations : List Value}
    (h : walkRotations verify name target cursor last steps rotations = some n) :
    ∃ taken rs, taken.Sublist rotations ∧ Verified verify name taken rs ∧
      Leads cursor rs target ∧ Increasing rs ∧ ∀ r ∈ rs.head?, last < r.issuedAt.val := by
  induction rotations generalizing cursor last steps with
  | nil => simp [walkRotations] at h
  | cons rotation rest ih =>
    unfold walkRotations at h
    -- a statement that is passed over is in the history but not on the way
    have hskip : ∀ {cursor last steps},
        walkRotations verify name target cursor last steps rest = some n →
        ∃ taken rs, taken.Sublist (rotation :: rest) ∧ Verified verify name taken rs ∧
          Leads cursor rs target ∧ Increasing rs ∧ ∀ r ∈ rs.head?, last < r.issuedAt.val := by
      intro cursor last steps hrest
      obtain ⟨taken, rs, hsub, hrs⟩ := ih hrest
      exact ⟨taken, rs, hsub.cons rotation, hrs⟩
    split at h
    · exact hskip h
    next r hverified =>
    split at h
    · exact hskip h
    next hfrom =>
    split at h
    · exact hskip h
    next hissued =>
    split at h
    · next hto =>
      exact ⟨[rotation], [r], by simp, .cons hverified .nil, ⟨not_not.mp hfrom, hto⟩,
        List.isChain_singleton r, by simpa using hissued⟩
    · obtain ⟨taken, rs, hsub, hrs, hleads, hincreasing, hhead⟩ := ih h
      refine ⟨rotation :: taken, r :: rs, hsub.cons_cons rotation, .cons hverified hrs,
        ⟨not_not.mp hfrom, hleads⟩, ?_, by simpa using hissued⟩
      exact List.isChain_cons.mpr ⟨fun s hs => by exact_mod_cast hhead s hs, hincreasing⟩

/-- A key that is followed to is the pinned key itself, or is reached from it by statements of the
history. -/
theorem followDomainKeyRotations_eq_ok {options : FollowRotationsOptions} {n : ℕ}
    {pinned current : PublicKey} (hpinned : parsePublicKey options.pinned = .ok pinned)
    (hcurrent : parsePublicKey options.current = .ok current)
    (h : followDomainKeyRotations verify options = .ok n) :
    pinned = current ∨ ∃ rotations taken rs, options.rotations = .array rotations ∧
      taken.Sublist rotations ∧ Verified verify options.name taken rs ∧
      Leads pinned rs current ∧ Increasing rs := by
  simp only [followDomainKeyRotations, hpinned, hcurrent] at h
  split at h
  · next heq => exact .inl heq
  · split at h
    · next rotations hrotations =>
      split at h
      · contradiction
      split at h
      · next hwalk =>
        obtain ⟨taken, rs, hsub, hrs, hleads, hincreasing, -⟩ := walkRotations_eq_some hwalk
        exact .inr ⟨rotations, taken, rs, hrotations, hsub, hrs, hleads, hincreasing⟩
      · contradiction
    · contradiction

end Tnp.Crypto.DomainKey
