import Tnp.Registry.DomainKeys

/-!
What one request can do to the key of a name: an inversion of the step function, and the history
that a stored key carries.
-/

namespace Tnp.Registry

open Tnp.Lib Tnp.Crypto Tnp.Crypto.Grants Tnp.Crypto.DomainKey Tnp.Namespace

variable {verify : Verifier} {sha256 : Hash} {toLowerCase : String → String}

/-! ### Keys and names as text -/

lemma encodeBase64_of_canonicalKey {text : String} {K : PublicKey}
    (h : canonicalKey text = some K) : encodeBase64 K.val = text := by
  unfold canonicalKey at h
  cases hp : parsePublicKey (.text text) with
  | error e => simp [hp, Except.toOption] at h
  | ok key =>
    obtain rfl : key = K := by simpa [hp, Except.toOption] using h
    exact encodeBase64_of_parse hp

lemma canonicalKey_empty : canonicalKey "" = none := by decide

lemma splitNativeName_eq_some {name : String} {parts : NameParts}
    (h : splitNativeName toLowerCase name = some parts) : parts.name = name := by
  unfold splitNativeName at h
  split at h
  · simp at h
  split at h
  · next label tld hsplit =>
    split at h
    · simp at h
    · obtain rfl := Option.some.inj h
      have hjoin : ['.'].intercalate (name.toList.splitOn '.') = name.toList :=
        List.intercalate_splitOn '.'
      rw [hsplit] at hjoin
      apply String.toList_injective
      simpa [NameParts.name, List.intercalate] using hjoin
  · simp at h

/-! ### Histories -/

/-- The statements are a path of verified rotations of the name, each issued after the one
before, no longer than what is kept, and they end at the key. -/
structure History (verify : Verifier) (name : String) (key : PublicKey)
    (rotations : List Value) : Prop where
  path : ∃ start rs, Verified verify name rotations rs ∧ Leads start rs key ∧ Increasing rs
  bounded : rotations.length ≤ MAX_DOMAIN_KEY_ROTATIONS

lemma History.nil {name : String} {key : PublicKey} : History verify name key [] :=
  ⟨⟨key, [], List.Forall₂.nil, rfl, List.isChain_nil⟩, Nat.zero_le _⟩

/-- The last statement of a verified history is the last of what it parses to. -/
lemma getLast?_of_verified {name : String} {rotations : List Value} {rs : List ParsedRotation}
    (h : Verified verify name rotations rs) {r : ParsedRotation} (hr : r ∈ rs.getLast?) :
    ∃ last ∈ rotations.getLast?, verifyDomainKeyRotation verify last name = .ok r := by
  obtain ⟨init, rfl⟩ := List.getLast?_eq_some_iff.mp hr
  have hdrop := List.forall₂_drop_append rotations init [r] h
  obtain ⟨last, tail, hlast, htail, hsplit⟩ := List.forall₂_cons_right_iff.mp hdrop
  obtain rfl := List.forall₂_nil_right_iff.mp htail
  refine ⟨last, ?_, hlast⟩
  rw [← List.take_append_drop init.length rotations, hsplit]
  simp

lemma notAfter_eq_false {issuedAt : ℕ} {last : Value} {r : ParsedRotation} {name : String}
    (h : verifyDomainKeyRotation verify last name = .ok r) :
    notAfter issuedAt last = false ↔ r.issuedAt.val < issuedAt := by
  unfold notAfter
  rw [parseRotation_issuedAt (verifyDomainKeyRotation_eq_ok h).1]
  simp

/-- A rotation from the current key, issued after the last, makes a history of the next key,
also when the oldest statement is let go. -/
lemma History.rotate {name : String} {rotations : List Value} {rotation : Value}
    {r : ParsedRotation} (h : History verify name r.previousKey rotations)
    (hr : verifyDomainKeyRotation verify rotation name = .ok r)
    (hlast : rotations.getLast?.any (notAfter r.issuedAt.val) = false) :
    History verify name r.nextKey ((rotations ++ [rotation]).rtake MAX_DOMAIN_KEY_ROTATIONS) := by
  obtain ⟨⟨start, rs, hverified, hleads, hincreasing⟩, -⟩ := h
  have hall : Verified verify name (rotations ++ [rotation]) (rs ++ [r]) :=
    List.rel_append hverified (List.Forall₂.cons hr List.Forall₂.nil)
  have hpath : Leads start (rs ++ [r]) r.nextKey :=
    leads_append.mpr ⟨r.previousKey, hleads, rfl, rfl⟩
  have hchain : Increasing (rs ++ [r]) := by
    refine List.isChain_append.mpr ⟨hincreasing, List.isChain_singleton r, ?_⟩
    rintro last hmem next hnext
    obtain rfl : r = next := by simpa using hnext
    obtain ⟨value, hvalue, hlastOk⟩ := getLast?_of_verified hverified hmem
    rw [Option.mem_def.mp hvalue] at hlast
    exact (notAfter_eq_false hlastOk).mp (by simpa using hlast)
  constructor
  · obtain ⟨M, hdrop⟩ := hpath.drop ((rotations ++ [rotation]).length - MAX_DOMAIN_KEY_ROTATIONS)
    exact ⟨M, _, List.forall₂_drop _ hall, hdrop, hchain.drop _⟩
  · rw [List.rtake, List.length_drop]
    omega

/-! ### The checks of a registration -/

lemma checkRotation_eq_ok {rotation : Value} {name : String} {previous next : PublicKey}
    {history : List Value} {now : ℤ}
    (h : checkRotation verify rotation name previous next history now = .ok ()) :
    ∃ r, verifyDomainKeyRotation verify rotation name = .ok r ∧ r.previousKey = previous ∧
      r.nextKey = next ∧ history.getLast?.any (notAfter r.issuedAt.val) = false ∧
      r.issuedAt.val ≤ now + MAX_ROTATION_SKEW_SECONDS := by
  unfold checkRotation at h
  split at h
  · simp at h
  next r hr =>
  split at h
  · simp at h
  next hkeys =>
  split at h
  · simp at h
  next htimes =>
  push Not at hkeys htimes
  exact ⟨r, hr, hkeys.1, hkeys.2, by simpa using htimes.1, htimes.2⟩

lemma canonicalKey_of_fingerprint {text fingerprint : String}
    (h : domainKeyFingerprint sha256 (.text text) = .ok fingerprint) :
    ∃ K, canonicalKey text = some K ∧ fingerprint = toHex (sha256 K.val).val := by
  unfold domainKeyFingerprint at h
  unfold canonicalKey
  cases hp : parsePublicKey (.text text) with
  | error e => simp [hp, bind, Except.bind] at h
  | ok K =>
    simp only [hp, bind, Except.bind, Except.ok.injEq] at h
    exact ⟨K, rfl, h.symm⟩

lemma fingerprint_ne_empty {text fingerprint : String}
    (h : domainKeyFingerprint sha256 (.text text) = .ok fingerprint) : fingerprint ≠ "" := by
  obtain ⟨K, -, rfl⟩ := canonicalKey_of_fingerprint h
  intro hempty
  have hnil : (sha256 K.val).val = [] := toHex_injective (hempty.trans (by decide))
  have hlength := (sha256 K.val).property
  rw [hnil] at hlength
  simp at hlength

/-- How a name takes its first key: with nothing before it, as the released key itself, by a
rotation the released key signed, or by a reset once the hold is over. -/
inductive FirstKey (verify : Verifier) (sha256 : Hash) (params : RegisterParams)
    (nextKey : PublicKey) : Option Tombstone → List Value → Option Reset → Prop
  | unused : params.request.rotation = none → FirstKey verify sha256 params nextKey none [] none
  | inherited {t} : canonicalKey t.domainKey = some nextKey →
      params.request.rotation = none →
      FirstKey verify sha256 params nextKey (some t) t.rotations none
  | rotated {t rotation released} : params.request.rotation = some rotation →
      canonicalKey t.domainKey = some released →
      checkRotation verify rotation params.request.name released nextKey t.rotations
        params.now = .ok () →
      FirstKey verify sha256 params nextKey (some t)
        ((t.rotations ++ [rotation]).rtake MAX_DOMAIN_KEY_ROTATIONS) none
  | reset {t released fingerprint} : canonicalKey t.domainKey = some released →
      released ≠ nextKey → params.request.rotation = none →
      t.allowedAt params.resetHoldSeconds ≤ params.now →
      domainKeyFingerprint sha256 (.text t.domainKey) = .ok fingerprint →
      FirstKey verify sha256 params nextKey (some t) [] (some ⟨fingerprint, params.now * 1000⟩)

lemma firstKey_eq_ok {tombstone : Option Tombstone} {params : RegisterParams}
    {nextKey : PublicKey} {rotations : List Value} {reset : Option Reset}
    (h : firstKey verify sha256 tombstone params nextKey = .ok (rotations, reset)) :
    FirstKey verify sha256 params nextKey tombstone rotations reset := by
  unfold firstKey at h
  dsimp only at h
  cases tombstone with
  | none =>
    dsimp only at h
    split at h
    · simp at h
    next hrotation =>
    obtain ⟨rfl, rfl⟩ := Prod.mk.inj (Except.ok.inj h)
    exact .unused (by simpa using hrotation)
  | some t =>
    dsimp only at h
    split at h
    · next hsame =>
      obtain ⟨rfl, rfl⟩ := Prod.mk.inj (Except.ok.inj h)
      exact .inherited hsame.1 (by simpa using hsame.2)
    next hother =>
    split at h
    · next rotation released hrotation hreleased =>
      split at h
      · simp at h
      next hcheck =>
      obtain ⟨rfl, rfl⟩ := Prod.mk.inj (Except.ok.inj h)
      exact .rotated hrotation hreleased hcheck
    · next hunsigned =>
      split at h
      · simp at h
      next hhold =>
      split at h
      · simp at h
      next fingerprint hfingerprint =>
      obtain ⟨rfl, rfl⟩ := Prod.mk.inj (Except.ok.inj h)
      obtain ⟨K, hK, -⟩ := canonicalKey_of_fingerprint hfingerprint
      have hrotation : params.request.rotation = none := by
        cases hr : params.request.rotation with
        | none => rfl
        | some rotation => exact (hunsigned rotation K hr hK).elim
      refine .reset hK ?_ hrotation (by omega) hfingerprint
      rintro rfl
      exact hother ⟨hK, by simp [hrotation]⟩

/-! ### What a request does -/

/-- The row of a name once it took its first key. -/
def Domain.first (row : Domain) (params : RegisterParams) (rotations : List Value)
    (reset : Option Reset) : Domain :=
  { row with
    domainKey := some params.request.domainKey
    domainKeyRotations := rotations
    domainKeyResetFrom := reset.map Reset.resetFrom
    domainKeyResetAt := reset.map Reset.resetAt }

variable (verify sha256 toLowerCase)

/-- What one request can make of the tables. -/
inductive Move (db : Db) : Request → Db → Prop
  | idle {e db'} : db'.domains = db.domains →
      db'.domainKeyTombstones = db.domainKeyTombstones → Move db e db'
  | add {e db' parts row} : db.domains.get parts = none → row.domainKey = none →
      db'.domains = db.domains.set parts row →
      db'.domainKeyTombstones = db.domainKeyTombstones → Move db e db'
  | renew {e db' parts row expiresAt} : db.domains.get parts = some row →
      db'.domains = db.domains.set parts { row with expiresAt } →
      db'.domainKeyTombstones = db.domainKeyTombstones → Move db e db'
  | release {id oxyUserId now parts row} : db.byId id = some (parts, row) →
      db.domains.get parts = some row →
      Move db (.releaseDomain id oxyUserId now)
        { tombstoneDomainKey db parts row now with domains := db.domains.delete parts }
  | first {params parts row nextKey rotations reset} :
      splitNativeName toLowerCase params.request.name = some parts →
      canonicalKey params.request.domainKey = some nextKey →
      db.active parts = some row → row.oxyUserId = params.userId → row.key = none →
      FirstKey verify sha256 params nextKey (db.domainKeyTombstones.get parts) rotations reset →
      Move db (.registerDomainKey params)
        { db with domains := db.domains.set parts (row.first params rotations reset) }
  | rotate {params parts row text currentKey nextKey rotation} :
      splitNativeName toLowerCase params.request.name = some parts →
      canonicalKey params.request.domainKey = some nextKey →
      db.active parts = some row → row.key = some text →
      canonicalKey text = some currentKey → params.request.rotation = some rotation →
      checkRotation verify rotation params.request.name currentKey nextKey
        row.domainKeyRotations params.now = .ok () →
      Move db (.registerDomainKey params)
        { db with
          domains := db.domains.set parts { row with
            domainKey := some params.request.domainKey
            domainKeyRotations :=
              (row.domainKeyRotations ++ [rotation]).rtake MAX_DOMAIN_KEY_ROTATIONS } }

variable {verify sha256 toLowerCase} {db : Db} {e : Request}

lemma Db.active_eq_some {parts : NameParts} {row : Domain} (h : db.active parts = some row) :
    db.domains.get parts = some row := by
  unfold Db.active at h
  exact (Option.filter_eq_some_iff.mp h).1

lemma Db.byId_eq_some {id : ℕ} {parts : NameParts} {row : Domain}
    (h : db.byId id = some (parts, row)) : db.domains.get parts = some row :=
  OrderedMap.mem_entries_iff.mp (List.mem_of_find?_eq_some h)

lemma Domain.key_of_canonical {row : Domain} {text : String} {K : PublicKey}
    (hrow : row.domainKey = some text) (hK : canonicalKey text = some K) :
    row.key = some text := by
  have hne : text ≠ "" := by
    rintro rfl
    simp [canonicalKey_empty] at hK
  simp [Domain.key, hrow, hne]

lemma Domain.domainKey_of_key {row : Domain} {text : String} (h : row.key = some text) :
    row.domainKey = some text :=
  (Option.filter_eq_some_iff.mp h).1

/-- The record describes the row of its name. -/
def Describes (toLowerCase : String → String) (db : Db) (record : DomainKeyRecord) : Prop :=
  ∃ parts row, splitNativeName toLowerCase record.name = some parts ∧
    db.domains.get parts = some row ∧ row.key = some record.domainKey ∧
    record.rotations = row.domainKeyRotations ∧ record.keyReset = keyResetOf row

lemma keyResetOf_first {params : RegisterParams} {nextKey : PublicKey}
    {tombstone : Option Tombstone} {rotations : List Value} {reset : Option Reset}
    (h : FirstKey verify sha256 params nextKey tombstone rotations reset) (row : Domain) :
    keyResetOf (row.first params rotations reset) =
      reset.map fun r => ⟨r.resetFrom, toISOString r.resetAt⟩ := by
  cases h with
  | reset hreleased hne hrotation hhold hfingerprint =>
    simp [keyResetOf, Domain.first, Option.filter, fingerprint_ne_empty hfingerprint]
  | _ => rfl

lemma move_registerDomainKey {params : RegisterParams} {db' : Db} {status : ℕ}
    {record : DomainKeyRecord}
    (h : registerDomainKey verify sha256 toLowerCase db params = .ok (db', status, record)) :
    Move verify sha256 toLowerCase db (.registerDomainKey params) db' ∧
      Describes toLowerCase db' record := by
  unfold registerDomainKey at h
  dsimp only at h
  split at h
  · simp at h
  next parts hparts =>
  split at h
  · simp at h
  next nextKey hnext =>
  split at h
  · simp at h
  next row hrow =>
  split at h
  · simp at h
  next howner =>
  split at h
  · next hkey =>
    cases hfirst : firstKey verify sha256 (db.domainKeyTombstones.get parts) params nextKey with
    | error e => simp [hfirst, bind, Except.bind] at h
    | ok made =>
      obtain ⟨rotations, reset⟩ := made
      simp only [hfirst, bind, Except.bind, Except.ok.injEq, Prod.mk.injEq] at h
      obtain ⟨rfl, -, rfl⟩ := h
      have hcases := firstKey_eq_ok hfirst
      refine ⟨.first hparts hnext hrow (not_not.mp howner) hkey hcases, parts,
        row.first params rotations reset, hparts, OrderedMap.get_set_self _,
        Domain.key_of_canonical rfl hnext, rfl, (keyResetOf_first hcases row).symm⟩
  · next text hkey =>
    split at h
    · simp only [Except.ok.injEq, Prod.mk.injEq] at h
      obtain ⟨rfl, -, rfl⟩ := h
      exact ⟨.idle rfl rfl, parts, row, hparts, Db.active_eq_some hrow, hkey, rfl, rfl⟩
    split at h
    · next rotation currentKey hrotation hcurrent =>
      split at h
      · simp at h
      next hcheck =>
      simp only [Except.ok.injEq, Prod.mk.injEq] at h
      obtain ⟨rfl, -, rfl⟩ := h
      exact ⟨.rotate hparts hnext hrow hkey hcurrent hrotation hcheck, parts, _, hparts,
        OrderedMap.get_set_self _, Domain.key_of_canonical rfl hnext, rfl, rfl⟩
    · simp at h

lemma move_registerDomain {oxyUserId name tld : String} {expiresAt : Option ℤ} {db' : Db}
    {e : Request} (h : registerDomain toLowerCase db oxyUserId name tld expiresAt = .ok db') :
    Move verify sha256 toLowerCase db e db' := by
  unfold registerDomain at h
  split at h
  · simp at h
  dsimp only at h
  split at h
  · simp at h
  split at h
  · simp at h
  split at h
  · simp at h
  next hnew =>
  obtain rfl := Except.ok.inj h
  exact .add (by simpa [OrderedMap.has] using hnew) rfl rfl rfl

lemma move_releaseDomain {id : ℕ} {oxyUserId : String} {now : ℤ} {db' : Db}
    (h : releaseDomain db id oxyUserId now = .ok db') :
    Move verify sha256 toLowerCase db (.releaseDomain id oxyUserId now) db' := by
  unfold releaseDomain at h
  split at h
  · simp at h
  next parts row hrow =>
  split at h
  · simp at h
  obtain rfl := Except.ok.inj h
  have hdomains : (tombstoneDomainKey db parts row now).domains = db.domains := by
    unfold tombstoneDomainKey
    split <;> rfl
  rw [hdomains]
  exact .release hrow (Db.byId_eq_some hrow)

/-- **Every request moves the tables in one of the ways listed.** -/
theorem move_step (db : Db) (e : Request) :
    Move verify sha256 toLowerCase db e (step verify sha256 toLowerCase db e) := by
  cases e with
  | tld name status => exact .idle rfl rfl
  | registerDomain oxyUserId name tld expiresAt =>
    simp only [step]
    split
    · next h => exact move_registerDomain h
    · exact .idle rfl rfl
  | renewDomain id expiresAt =>
    simp only [step, renewDomain]
    split
    · exact .idle rfl rfl
    · next parts row h => exact .renew (Db.byId_eq_some h) rfl rfl
  | releaseDomain id oxyUserId now =>
    simp only [step]
    split
    · next h => exact move_releaseDomain h
    · exact .idle rfl rfl
  | registerDomainKey params =>
    simp only [step]
    split
    · next h => exact (move_registerDomainKey h).1
    · exact .idle rfl rfl
  | lookupDomainKey name settings => exact .idle rfl rfl

/-- **A record describes the row as the request leaves it.** -/
theorem published_describes {record : DomainKeyRecord}
    (h : published verify sha256 toLowerCase db e = some record) :
    Describes toLowerCase (step verify sha256 toLowerCase db e) record := by
  cases e with
  | registerDomainKey params =>
    simp only [published] at h
    split at h
    · next db' status made hmade =>
      obtain rfl := Option.some.inj h
      simp only [step, hmade]
      exact (move_registerDomainKey hmade).2
    · simp at h
  | lookupDomainKey name settings =>
    simp only [published, lookupDomainKey, bind, Option.bind_eq_some_iff] at h
    obtain ⟨parts, hparts, row, hrow, h⟩ := h
    split at h
    · simp at h
    obtain ⟨text, hkey, h⟩ := Option.bind_eq_some_iff.mp h
    split at h
    · simp at h
    obtain rfl := Option.some.inj h
    exact ⟨parts, row, hparts, Db.active_eq_some hrow, hkey, rfl, rfl⟩
  | _ => simp [published] at h

/-! ### The key of a name -/

/-- The key text of the row, or else the one the name was released with. -/
def Db.keyText (db : Db) (parts : NameParts) : Option String :=
  ((db.domains.get parts).bind Domain.key).or
    ((db.domainKeyTombstones.get parts).map Tombstone.domainKey)

/-- The key a name has, or had when it was released. -/
def Db.currentKey (db : Db) (parts : NameParts) : Option PublicKey :=
  (db.keyText parts).bind canonicalKey

lemma Db.keyText_of_row {parts : NameParts} {row : Domain} {text : String}
    (hrow : db.domains.get parts = some row) (hkey : row.key = some text) :
    db.keyText parts = some text := by
  simp [Db.keyText, hrow, hkey]

lemma Db.keyText_of_keyless {parts : NameParts} {row : Domain}
    (hrow : db.domains.get parts = some row) (hkey : row.key = none) :
    db.keyText parts = (db.domainKeyTombstones.get parts).map Tombstone.domainKey := by
  simp [Db.keyText, hrow, hkey]

/-- The key of a name is read off two tables. -/
lemma Db.keyText_congr {db' : Db} {j : NameParts} {domains : OrderedMap NameParts Domain}
    (hdomains : db'.domains = domains)
    (htombstones : db'.domainKeyTombstones = db.domainKeyTombstones) :
    db'.keyText j = ({ db with domains } : Db).keyText j := by
  simp [Db.keyText, hdomains, htombstones]

/-- Rewriting a row leaves the other names alone, and a row with the same key the name itself. -/
lemma Db.keyText_set (parts j : NameParts) (row : Domain) :
    ({ db with domains := db.domains.set parts row } : Db).keyText j = if parts = j then
        row.key.or ((db.domainKeyTombstones.get parts).map Tombstone.domainKey)
      else db.keyText j := by
  unfold Db.keyText
  rw [OrderedMap.get_set]
  by_cases h : parts = j
  · subst h
    simp
  · simp [h]

lemma Db.keyText_release {parts j : NameParts} {row : Domain} {now : ℤ}
    (hrow : db.domains.get parts = some row) :
    ({ tombstoneDomainKey db parts row now with
      domains := db.domains.delete parts } : Db).keyText j = db.keyText j := by
  unfold Db.keyText tombstoneDomainKey
  by_cases h : parts = j
  · subst h
    cases hkey : row.key <;> simp [hrow, hkey]
  · cases hkey : row.key <;> simp [OrderedMap.get_delete, OrderedMap.get_set, h]

/-- How a request gives a name its key: the first of this registration, or in place of one. -/
inductive Takes (verify : Verifier) (sha256 : Hash) (db db' : Db) (params : RegisterParams)
    (parts : NameParts) (nextKey : PublicKey) : Prop
  | first {row rotations reset} : db.domains.get parts = some row → row.key = none →
      FirstKey verify sha256 params nextKey (db.domainKeyTombstones.get parts) rotations reset →
      db'.domains.get parts = some (row.first params rotations reset) →
      Takes verify sha256 db db' params parts nextKey
  | rotated {row text currentKey rotation} : db.domains.get parts = some row →
      row.key = some text → canonicalKey text = some currentKey →
      params.request.rotation = some rotation →
      checkRotation verify rotation params.request.name currentKey nextKey
        row.domainKeyRotations params.now = .ok () → Takes verify sha256 db db' params parts nextKey

/-- **Only a registered key changes the key of a name**, and then to the one in the request. -/
theorem keyText_step {db' : Db} {e : Request} (h : Move verify sha256 toLowerCase db e db')
    (j : NameParts) : db'.keyText j = db.keyText j ∨
      ∃ params nextKey, e = .registerDomainKey params ∧
        splitNativeName toLowerCase params.request.name = some j ∧
        canonicalKey params.request.domainKey = some nextKey ∧
        db'.keyText j = some params.request.domainKey ∧
        Takes verify sha256 db db' params j nextKey := by
  cases h with
  | idle hdomains htombstones =>
    exact .inl (Db.keyText_congr hdomains htombstones)
  | @add _ _ parts row hnew hkey hdomains htombstones =>
    left
    rw [Db.keyText_congr hdomains htombstones, Db.keyText_set]
    split
    · next h =>
      subst h
      simp [Db.keyText, Domain.key, hnew, hkey]
    · rfl
  | @renew _ _ parts row expiresAt hrow hdomains htombstones =>
    left
    rw [Db.keyText_congr hdomains htombstones, Db.keyText_set]
    split
    · next h =>
      subst h
      simp [Db.keyText, Domain.key, hrow]
    · rfl
  | release hid hrow => exact .inl (Db.keyText_release hrow)
  | @first params parts row nextKey rotations reset hparts hnext hrow howner hkey hfirst =>
    rw [Db.keyText_set]
    split
    · next h =>
      subst h
      refine .inr ⟨params, nextKey, rfl, hparts, hnext, ?_,
        .first (Db.active_eq_some hrow) hkey hfirst (OrderedMap.get_set_self _)⟩
      rw [Domain.key_of_canonical rfl hnext, Option.some_or]
    · exact .inl rfl
  | @rotate params parts row text currentKey nextKey rotation hparts hnext hrow hkey hcurrent
      hrotation hcheck =>
    rw [Db.keyText_set]
    split
    · next h =>
      subst h
      refine .inr ⟨params, nextKey, rfl, hparts, hnext, ?_,
        .rotated (Db.active_eq_some hrow) hkey hcurrent hrotation hcheck⟩
      rw [Domain.key_of_canonical rfl hnext, Option.some_or]
    · exact .inl rfl

end Tnp.Registry
