import Tnp.Lib.Run
import Tnp.Registry.KeyMoves

/-!
The life of a domain key in the registry.

A stored key comes with the statements that led to it, and it is the only one that can hand the
name on: short of that, the name must have been released with it, and the hold must be over.
-/

namespace Tnp.Registry

open Tnp.Lib Tnp.Crypto Tnp.Crypto.Grants Tnp.Crypto.DomainKey Tnp.Namespace

variable (verify : Verifier) (sha256 : Hash) (toLowerCase : String → String)

/-- Every key that is stored comes with its history: of a row, and of a released name. -/
structure Sound (db : Db) : Prop where
  rows : ∀ parts row text, db.domains.get parts = some row → row.domainKey = some text →
    ∃ K, canonicalKey text = some K ∧ History verify parts.name K row.domainKeyRotations
  tombstones : ∀ parts t, db.domainKeyTombstones.get parts = some t →
    ∃ K, canonicalKey t.domainKey = some K ∧ History verify parts.name K t.rotations

/-- The request carries a statement for the name that retires the one key for the other, signed
by the one it retires. -/
def Rotated (e : Request) (parts : NameParts) (K K' : PublicKey) : Prop :=
  ∃ params rotation r, e = .registerDomainKey params ∧
    params.request.rotation = some rotation ∧
    verifyDomainKeyRotation verify rotation parts.name = .ok r ∧
    r.previousKey = K ∧ r.nextKey = K'

/-- The name was released with the key and has taken none since, and the hold is over. -/
def ResetAfterHold (db : Db) (e : Request) (parts : NameParts) (K : PublicKey) : Prop :=
  ∃ params t, e = .registerDomainKey params ∧ params.request.rotation = none ∧
    (∀ row, db.domains.get parts = some row → row.key = none) ∧
    db.domainKeyTombstones.get parts = some t ∧ canonicalKey t.domainKey = some K ∧
    t.releasedAt / 1000 + params.resetHoldSeconds ≤ params.now

/-- The request leaves the key of each name, or replaces it in one of the two ways. A name that
has had a key is never without one. -/
def KeepsKeys (db : Db) (e : Request) : Prop :=
  ∀ parts K, db.currentKey parts = some K →
    ∃ K', (step verify sha256 toLowerCase db e).currentKey parts = some K' ∧
      (K' = K ∨ Rotated verify e parts K K' ∨ ResetAfterHold db e parts K)

/-- The tombstone was written when the name was released with that key, at that time. -/
def Released (es : List Request) (parts : NameParts) (t : Tombstone) : Prop :=
  ∃ before id oxyUserId after row,
    es = before ++ .releaseDomain id oxyUserId t.releasedAt :: after ∧
    (Run.run (step verify sha256 toLowerCase) {} before).byId id = some (parts, row) ∧
    row.domainKey = some t.domainKey

variable {verify sha256 toLowerCase} {db db' : Db} {e : Request}

/-! ### Histories are kept -/

lemma History.firstKey {params : RegisterParams} {nextKey : PublicKey}
    {tombstone : Option Tombstone} {rotations : List Value} {reset : Option Reset}
    (hfirst : FirstKey verify sha256 params nextKey tombstone rotations reset)
    (hsound : ∀ t, tombstone = some t → ∃ K, canonicalKey t.domainKey = some K ∧
      History verify params.request.name K t.rotations) :
    History verify params.request.name nextKey rotations := by
  cases hfirst with
  | unused => exact .nil
  | inherited hsame =>
    obtain ⟨K, hK, hhistory⟩ := hsound _ rfl
    obtain rfl := Option.some.inj (hsame.symm.trans hK)
    exact hhistory
  | rotated hrotation hreleased hcheck =>
    obtain ⟨K, hK, hhistory⟩ := hsound _ rfl
    obtain rfl := Option.some.inj (hreleased.symm.trans hK)
    obtain ⟨r, hr, rfl, rfl, hlast, -⟩ := checkRotation_eq_ok hcheck
    exact hhistory.rotate hr hlast
  | reset => exact .nil

/-- Rewriting one row with a key that has its history keeps the tables sound. -/
lemma Sound.set {parts : NameParts} {row : Domain} (h : Sound verify db)
    (hdomains : db'.domains = db.domains.set parts row)
    (htombstones : db'.domainKeyTombstones = db.domainKeyTombstones)
    (hrow : ∀ text, row.domainKey = some text →
      ∃ K, canonicalKey text = some K ∧ History verify parts.name K row.domainKeyRotations) :
    Sound verify db' := by
  refine ⟨?_, fun j t ht => h.tombstones j t (htombstones ▸ ht)⟩
  intro j row' text hget htext
  rw [hdomains, OrderedMap.get_set] at hget
  split at hget
  · next hj =>
    subst hj
    obtain rfl := Option.some.inj hget
    exact hrow text htext
  · exact h.rows j row' text hget htext

lemma Sound.release {parts : NameParts} {row : Domain} {now : ℤ} (h : Sound verify db)
    (hrow : db.domains.get parts = some row) :
    Sound verify { tombstoneDomainKey db parts row now with
      domains := db.domains.delete parts } := by
  constructor
  · intro j row' text hget htext
    rw [OrderedMap.get_delete] at hget
    split at hget
    · simp at hget
    · exact h.rows j row' text hget htext
  · intro j t ht
    unfold tombstoneDomainKey at ht
    split at ht
    · exact h.tombstones j t ht
    · next text hkey =>
      dsimp only at ht
      rw [OrderedMap.get_set] at ht
      split at ht
      · next hj =>
        subst hj
        obtain rfl := Option.some.inj ht
        exact h.rows parts row text hrow (Domain.domainKey_of_key hkey)
      · exact h.tombstones j t ht

lemma Sound.move (h : Sound verify db) (hmove : Move verify sha256 toLowerCase db e db') :
    Sound verify db' := by
  cases hmove with
  | idle hdomains htombstones =>
    exact ⟨fun j row text hget => h.rows j row text (hdomains ▸ hget),
      fun j t ht => h.tombstones j t (htombstones ▸ ht)⟩
  | add hnew hkey hdomains htombstones =>
    exact h.set hdomains htombstones fun text htext => by simp [hkey] at htext
  | @renew _ _ parts row expiresAt hrow hdomains htombstones =>
    exact h.set hdomains htombstones fun text htext => h.rows parts row text hrow htext
  | release hid hrow => exact h.release hrow
  | @first params parts row nextKey rotations reset hparts hnext hrow howner hkey hfirst =>
    refine h.set rfl rfl fun text htext => ?_
    obtain rfl := Option.some.inj htext
    refine ⟨nextKey, hnext, ?_⟩
    have hname := splitNativeName_eq_some hparts
    rw [hname]
    exact History.firstKey hfirst fun t ht => hname ▸ h.tombstones parts t ht
  | @rotate params parts row text currentKey nextKey rotation hparts hnext hrow hkey hcurrent
      hrotation hcheck =>
    refine h.set rfl rfl fun text' htext => ?_
    obtain rfl := Option.some.inj htext
    refine ⟨nextKey, hnext, ?_⟩
    obtain ⟨K, hK, hhistory⟩ :=
      h.rows parts row text (Db.active_eq_some hrow) (Domain.domainKey_of_key hkey)
    obtain rfl := Option.some.inj (hcurrent.symm.trans hK)
    rw [← splitNativeName_eq_some hparts] at hcheck
    obtain ⟨r, hr, rfl, rfl, hlast, -⟩ := checkRotation_eq_ok hcheck
    exact hhistory.rotate hr hlast

lemma sound_empty : Sound verify {} :=
  ⟨fun j row text h => by simp at h, fun j t h => by simp at h⟩

lemma Sound.run (es : List Request) :
    Sound verify (Run.run (step verify sha256 toLowerCase) {} es) :=
  Run.invariant (fun db e h => h.move (move_step db e)) sound_empty es

/-! ### Keys change hands -/

/-- A name takes a key as the one it had, by a rotation of it, or after the hold. -/
lemma Takes.replaces {params : RegisterParams} {parts : NameParts} {nextKey K : PublicKey}
    (h : Takes verify sha256 db db' params parts nextKey)
    (hname : parts.name = params.request.name) (hK : db.currentKey parts = some K) :
    nextKey = K ∨ Rotated verify (.registerDomainKey params) parts K nextKey ∨
      ResetAfterHold db (.registerDomainKey params) parts K := by
  unfold Db.currentKey at hK
  cases h with
  | @first row rotations reset hrow hkey hfirst hpost =>
    rw [Db.keyText_of_keyless hrow hkey] at hK
    generalize ht : db.domainKeyTombstones.get parts = tombstone at hfirst hK
    cases hfirst with
    | unused => simp at hK
    | inherited hsame => exact .inl (Option.some.inj (hsame.symm.trans hK))
    | rotated hrotation hreleased hcheck =>
      obtain rfl := Option.some.inj (hreleased.symm.trans hK)
      obtain ⟨r, hr, hprevious, hnext, -⟩ := checkRotation_eq_ok hcheck
      exact .inr (.inl ⟨params, _, r, rfl, hrotation, hname ▸ hr, hprevious, hnext⟩)
    | reset hreleased hne hrotation hhold hfingerprint =>
      refine .inr (.inr ⟨params, _, rfl, hrotation, fun row' hrow' => ?_, ht, hK, hhold⟩)
      exact Option.some.inj (hrow.symm.trans hrow') ▸ hkey
  | rotated hrow hkey hcurrent hrotation hcheck =>
    rw [Db.keyText_of_row hrow hkey, Option.bind_some, hcurrent] at hK
    obtain rfl := Option.some.inj hK
    obtain ⟨r, hr, hprevious, hnext, -⟩ := checkRotation_eq_ok hcheck
    exact .inr (.inl ⟨params, _, r, rfl, hrotation, hname ▸ hr, hprevious, hnext⟩)

lemma keepsKeys (db : Db) (e : Request) : KeepsKeys verify sha256 toLowerCase db e := by
  intro parts K hK
  have hmove : Move verify sha256 toLowerCase db e _ := move_step db e
  rcases keyText_step hmove parts with hsame | ⟨params, nextKey, rfl, hparts, hnext, htext, htakes⟩
  · exact ⟨K, by rwa [Db.currentKey, hsame], .inl rfl⟩
  · refine ⟨nextKey, by rw [Db.currentKey, htext, Option.bind_some, hnext], ?_⟩
    exact htakes.replaces (splitNativeName_eq_some hparts) hK

/-! ### Tombstones are of releases -/

lemma Released.snoc {es : List Request} {parts : NameParts} {t : Tombstone}
    (h : Released verify sha256 toLowerCase es parts t) (e : Request) :
    Released verify sha256 toLowerCase (es ++ [e]) parts t := by
  obtain ⟨before, id, oxyUserId, after, row, rfl, hrow⟩ := h
  exact ⟨before, id, oxyUserId, after ++ [e], row, by simp, hrow⟩

lemma released_of_tombstone (es : List Request) :
    ∀ parts t, (Run.run (step verify sha256 toLowerCase) {} es).domainKeyTombstones.get parts =
      some t → Released verify sha256 toLowerCase es parts t := by
  induction es using List.reverseRecOn with
  | nil =>
    intro parts t ht
    simp at ht
  | append_singleton es e ih =>
    intro parts t ht
    rw [Run.run_append, Run.run_cons, Run.run_nil] at ht
    generalize hdb : Run.run (step verify sha256 toLowerCase) {} es = db at ht ih
    have hmove : Move verify sha256 toLowerCase db e _ := move_step db e
    generalize step verify sha256 toLowerCase db e = db' at ht hmove
    cases hmove with
    | idle hdomains htombstones => exact (ih parts t (htombstones ▸ ht)).snoc _
    | add hnew hkey hdomains htombstones => exact (ih parts t (htombstones ▸ ht)).snoc _
    | renew hrow hdomains htombstones => exact (ih parts t (htombstones ▸ ht)).snoc _
    | first => exact (ih parts t ht).snoc _
    | rotate => exact (ih parts t ht).snoc _
    | @release id oxyUserId now released row hid hrow =>
      unfold tombstoneDomainKey at ht
      split at ht
      · exact (ih parts t ht).snoc _
      next text hkey =>
      dsimp only at ht
      rw [OrderedMap.get_set] at ht
      split at ht
      · next h =>
        subst h
        obtain rfl := Option.some.inj ht
        exact ⟨es, id, oxyUserId, [], row, rfl, hdb ▸ hid, Domain.domainKey_of_key hkey⟩
      · exact (ih parts t ht).snoc _

/-! ### The main result -/

/-- **The life of a domain key.** After any requests, with any clocks, the rotations stored for a
name are a path of at most 32 verified statements for it, each issued after the one before, that
ends at its key. Each request leaves the key of a name, or replaces it by a rotation it signed,
or does so after the name was released with it and the hold is over. -/
theorem domainKey_lifecycle (es : List Request) :
    Sound verify (Run.run (step verify sha256 toLowerCase) {} es) ∧
    Run.Allowed (step verify sha256 toLowerCase) (KeepsKeys verify sha256 toLowerCase) {} es ∧
    ∀ parts t, (Run.run (step verify sha256 toLowerCase) {} es).domainKeyTombstones.get parts =
      some t → Released verify sha256 toLowerCase es parts t := by
  refine ⟨Sound.run es, ?_, released_of_tombstone es⟩
  have hall : Run.Allowed (step verify sha256 toLowerCase) (fun _ _ => True) {} es :=
    Run.allowed_of_forall fun e he => trivial
  exact Run.allowed_of_invariant (I := fun _ => True) (fun _ _ _ _ => trivial)
    (fun db e _ _ => keepsKeys db e) trivial hall

end Tnp.Registry
