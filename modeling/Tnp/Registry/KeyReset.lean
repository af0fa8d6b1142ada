import Mathlib.Logic.Relation
import Tnp.Registry.KeyLifecycle

/-!
Whether a reset stays visible.

A row carries the marker of its reset, and a rotation leaves it there. The tombstone of a
released name has no place for it: a name that comes back on the word of its tombstone comes
back without the marker.
-/

namespace Tnp.Registry

open Tnp.Lib Tnp.Crypto Tnp.Crypto.Grants Tnp.Crypto.DomainKey Tnp.Namespace

variable (verify : Verifier) (sha256 : Hash) (toLowerCase : String → String)

/-- The tables, and the keys that names took by a reset. -/
structure Watched where
  db : Db := {}
  resets : List (NameParts × PublicKey) := []

/-- The key that a request puts in place of another without any rotation. -/
def resetBy (db : Db) : Request → Option (NameParts × PublicKey)
  | .registerDomainKey params =>
    if params.request.rotation.isSome then none
    else do
      let parts ← splitNativeName toLowerCase params.request.name
      let K ← db.currentKey parts
      let K' ← (step verify sha256 toLowerCase db (.registerDomainKey params)).currentKey parts
      if K' = K then none else some (parts, K')
  | _ => none

def watch (w : Watched) (e : Request) : Watched where
  db := step verify sha256 toLowerCase w.db e
  resets := (resetBy verify sha256 toLowerCase w.db e).toList ++ w.resets

/-- One verified statement for the name leads from the one key to the other. -/
def Hands (name : String) (K K' : PublicKey) : Prop :=
  ∃ rotation r, verifyDomainKeyRotation verify rotation name = .ok r ∧ r.previousKey = K ∧
    r.nextKey = K'

def Reached (name : String) : PublicKey → PublicKey → Prop :=
  Relation.ReflTransGen (Hands verify name)

/-- What the request publishes for a name that took a key by a reset carries the marker, when
the key published is that one or is reached from it. -/
def Visible (w : Watched) (e : Request) : Prop :=
  ∀ record ∈ published verify sha256 toLowerCase w.db e, ∀ parts K K',
    splitNativeName toLowerCase record.name = some parts →
    (parts, K) ∈ (watch verify sha256 toLowerCase w e).resets →
    canonicalKey record.domainKey = some K' → Reached verify parts.name K K' →
    record.keyReset.isSome

/-- The key of the request is the released one, or comes with a rotation that it signed. -/
def Vouched (params : RegisterParams) (t : Tombstone) (released nextKey : PublicKey) : Prop :=
  (released = nextKey ∧ params.request.rotation = none) ∨
    ∃ rotation, params.request.rotation = some rotation ∧
      checkRotation verify rotation params.request.name released nextKey t.rotations
        params.now = .ok ()

/-- The owner gives a name that was reset before its first key of this registration, on the word
of the key the name was released with. -/
def OnTombstoneWord (w : Watched) (e : Request) : Prop :=
  ∃ params parts row t released nextKey K, e = .registerDomainKey params ∧
    splitNativeName toLowerCase params.request.name = some parts ∧
    canonicalKey params.request.domainKey = some nextKey ∧
    w.db.active parts = some row ∧ row.oxyUserId = params.userId ∧ row.key = none ∧
    w.db.domainKeyTombstones.get parts = some t ∧ canonicalKey t.domainKey = some released ∧
    (parts, K) ∈ w.resets ∧ Vouched verify params t released nextKey

variable {verify sha256 toLowerCase} {db db' : Db} {e : Request} {w : Watched}

/-! ### Where the key of a name comes from -/

lemma resetBy_eq_some {parts : NameParts} {K : PublicKey}
    (h : resetBy verify sha256 toLowerCase db e = some (parts, K)) :
    ∃ params K₀, e = .registerDomainKey params ∧ params.request.rotation = none ∧
      db.currentKey parts = some K₀ ∧ K ≠ K₀ ∧
      (step verify sha256 toLowerCase db e).currentKey parts = some K := by
  unfold resetBy at h
  split at h
  · next params =>
    split at h
    · simp at h
    next hrotation =>
    simp only [bind, Option.bind_eq_some_iff] at h
    obtain ⟨parts', hparts, K₀, hK₀, K', hK', h⟩ := h
    split at h
    · simp at h
    next hne =>
    obtain ⟨rfl, rfl⟩ := Prod.mk.inj (Option.some.inj h)
    exact ⟨params, K₀, rfl, by simpa using hrotation, hK₀, hne, hK'⟩
  · simp at h

lemma resetBy_of_change {params : RegisterParams} {parts : NameParts} {K K' : PublicKey}
    (hparts : splitNativeName toLowerCase params.request.name = some parts)
    (hrotation : params.request.rotation = none) (hK : db.currentKey parts = some K)
    (hK' : (step verify sha256 toLowerCase db (.registerDomainKey params)).currentKey parts =
      some K') (hne : K' ≠ K) :
    resetBy verify sha256 toLowerCase db (.registerDomainKey params) = some (parts, K') := by
  simp [resetBy, hrotation, hparts, hK, hK', hne]

lemma mem_resets_watch {entry : NameParts × PublicKey} :
    entry ∈ (watch verify sha256 toLowerCase w e).resets ↔
      resetBy verify sha256 toLowerCase w.db e = some entry ∨ entry ∈ w.resets := by
  simp [watch, List.mem_append]

/-- Once a name was reset, its key is one it took by a reset or is reached from one. -/
def Lineage (verify : Verifier) (w : Watched) : Prop :=
  ∀ parts K, (parts, K) ∈ w.resets → ∃ K₀ Kc, (parts, K₀) ∈ w.resets ∧
    w.db.currentKey parts = some Kc ∧ Reached verify parts.name K₀ Kc

lemma Lineage.step (h : Lineage verify w) :
    Lineage verify (watch verify sha256 toLowerCase w e) := by
  intro parts K hmem
  rcases mem_resets_watch.mp hmem with hnew | hold
  · obtain ⟨params, K₀, -, -, -, -, hcurrent⟩ := resetBy_eq_some hnew
    exact ⟨K, K, hmem, hcurrent, .refl⟩
  obtain ⟨K₀, Kc, hK₀, hcurrent, hreached⟩ := h parts K hold
  have hK₀' : (parts, K₀) ∈ (watch verify sha256 toLowerCase w e).resets :=
    mem_resets_watch.mpr (.inr hK₀)
  have hmove : Move verify sha256 toLowerCase w.db e _ := move_step w.db e
  rcases keyText_step hmove parts with hsame | ⟨params, K', rfl, hparts, hK', htext, htakes⟩
  · exact ⟨K₀, Kc, hK₀', by rwa [watch, Db.currentKey, hsame], hreached⟩
  have hcurrent' : (step verify sha256 toLowerCase w.db (.registerDomainKey params)).currentKey
      parts = some K' := by
    rw [Db.currentKey, htext, Option.bind_some, hK']
  rcases htakes.replaces (splitNativeName_eq_some hparts) hcurrent with rfl | hrotated | hreset
  · exact ⟨K₀, K', hK₀', hcurrent', hreached⟩
  · obtain ⟨_, rotation, r, -, -, hr, hprevious, hnext⟩ := hrotated
    exact ⟨K₀, K', hK₀', hcurrent', hreached.tail ⟨rotation, r, hr, hprevious, hnext⟩⟩
  · obtain ⟨_, t, hparams, hrotation, -⟩ := hreset
    obtain rfl := Request.registerDomainKey.inj hparams
    by_cases hne : K' = Kc
    · subst hne
      exact ⟨K₀, K', hK₀', hcurrent', hreached⟩
    · have hnew := resetBy_of_change hparts hrotation hcurrent hcurrent' hne
      exact ⟨K', K', mem_resets_watch.mpr (.inl hnew), hcurrent', .refl⟩

/-! ### Rows keep the marker -/

/-- A name that was reset has the marker on its row, once the row has a key. -/
def Marked (w : Watched) : Prop :=
  ∀ parts K row, (parts, K) ∈ w.resets → w.db.domains.get parts = some row → row.key.isSome →
    (keyResetOf row).isSome

/-- The row of a name that just took a key by a reset has the marker. -/
lemma marked_of_resetBy {parts : NameParts} {K : PublicKey} {row : Domain}
    (h : resetBy verify sha256 toLowerCase db e = some (parts, K))
    (hrow : (step verify sha256 toLowerCase db e).domains.get parts = some row) :
    (keyResetOf row).isSome := by
  obtain ⟨params, K₀, rfl, hrotation, hbefore, hne, hafter⟩ := resetBy_eq_some h
  have hmove : Move verify sha256 toLowerCase db (.registerDomainKey params) _ := move_step db _
  rcases keyText_step hmove parts with hsame | ⟨_, K', hparams, hparts, hK', htext, htakes⟩
  · rw [Db.currentKey, hsame] at hafter
    exact absurd (Option.some.inj (hafter.symm.trans hbefore)) hne
  obtain rfl := Request.registerDomainKey.inj hparams
  rw [Db.currentKey, htext, Option.bind_some, hK'] at hafter
  obtain rfl := Option.some.inj hafter
  cases htakes with
  | @first old rotations reset hold hkey hfirst hpost =>
    obtain rfl := Option.some.inj (hrow.symm.trans hpost)
    rw [keyResetOf_first hfirst]
    rw [Db.currentKey, Db.keyText_of_keyless hold hkey] at hbefore
    generalize db.domainKeyTombstones.get parts = tombstone at hfirst hbefore
    cases hfirst with
    | unused => simp at hbefore
    | inherited hsame => exact absurd (Option.some.inj (hsame.symm.trans hbefore)) hne
    | rotated hsome => simp [hrotation] at hsome
    | reset => rfl
  | rotated hold hkey hcurrent hsome => simp [hrotation] at hsome

/-- The marker stays on the rows of names that were reset, unless one takes its key on the word
of its tombstone. -/
lemma Marked.step (hlineage : Lineage verify w) (h : Marked w)
    (hword : ¬ OnTombstoneWord verify toLowerCase w e) :
    Marked (watch verify sha256 toLowerCase w e) := by
  intro parts K row hmem hrow hkey
  rcases mem_resets_watch.mp hmem with hnew | hold
  · exact marked_of_resetBy hnew hrow
  have hmove : Move verify sha256 toLowerCase w.db e _ := move_step w.db e
  change (Registry.step verify sha256 toLowerCase w.db e).domains.get parts = some row at hrow
  generalize Registry.step verify sha256 toLowerCase w.db e = db' at hmove hrow
  cases hmove with
  | idle hdomains => exact h parts K row hold (hdomains ▸ hrow) hkey
  | add hnone hkeyless hdomains =>
    rw [hdomains, OrderedMap.get_set] at hrow
    split at hrow
    · obtain rfl := Option.some.inj hrow
      simp [Domain.key, hkeyless] at hkey
    · exact h parts K row hold hrow hkey
  | @renew _ _ parts' row' expiresAt hrow' hdomains =>
    rw [hdomains, OrderedMap.get_set] at hrow
    split at hrow
    · next heq =>
      subst heq
      obtain rfl := Option.some.inj hrow
      exact h parts' K row' hold hrow' hkey
    · exact h parts K row hold hrow hkey
  | release hid hrow' =>
    rw [OrderedMap.get_delete] at hrow
    split at hrow
    · simp at hrow
    · exact h parts K row hold hrow hkey
  | @first params parts' row' nextKey rotations reset hparts hnext hactive howner hkeyless
      hfirst =>
    rw [OrderedMap.get_set] at hrow
    split at hrow
    · next heq =>
      subst heq
      obtain rfl := Option.some.inj hrow
      rw [keyResetOf_first hfirst]
      obtain ⟨K₀, Kc, -, hcurrent, -⟩ := hlineage parts' K hold
      rw [Db.currentKey, Db.keyText_of_keyless (Db.active_eq_some hactive) hkeyless] at hcurrent
      generalize ht : w.db.domainKeyTombstones.get parts' = tombstone at hfirst hcurrent
      cases hfirst with
      | unused => simp at hcurrent
      | @inherited t hsame hrotation =>
        refine absurd ⟨params, parts', row', t, nextKey, nextKey, K, rfl, hparts, hnext, hactive,
          howner, hkeyless, ht, hsame, hold, .inl ⟨rfl, hrotation⟩⟩ hword
      | @rotated t rotation released hrotation hreleased hcheck =>
        refine absurd ⟨params, parts', row', t, released, nextKey, K, rfl, hparts, hnext, hactive,
          howner, hkeyless, ht, hreleased, hold, .inr ⟨rotation, hrotation, hcheck⟩⟩ hword
      | reset => rfl
    · exact h parts K row hold hrow hkey
  | @rotate params parts' row' text currentKey nextKey rotation hparts hnext hactive htext =>
    rw [OrderedMap.get_set] at hrow
    split at hrow
    · next heq =>
      subst heq
      obtain rfl := Option.some.inj hrow
      exact h parts' K row' hold (Db.active_eq_some hactive) (by simp [htext])
    · exact h parts K row hold hrow hkey

lemma visible_of_marked (h : Marked (watch verify sha256 toLowerCase w e)) :
    Visible verify sha256 toLowerCase w e := by
  intro record hrecord parts K K' hparts hmem hK' hreached
  obtain ⟨parts', row, hparts', hrow, hkey, -, hreset⟩ := published_describes hrecord
  obtain rfl := Option.some.inj (hparts.symm.trans hparts')
  rw [hreset]
  exact h parts K row hmem hrow (by simp [hkey])

/-! ### The tombstone has no marker -/

lemma not_visible_of_word (hlineage : Lineage verify w)
    (hword : OnTombstoneWord verify toLowerCase w e) :
    ¬ Visible verify sha256 toLowerCase w e := by
  obtain ⟨params, parts, row, t, released, nextKey, K, rfl, hparts, hnext, hactive, howner, hkey,
    ht, hreleased, hold, hvouched⟩ := hword
  obtain ⟨K₀, Kc, hK₀, hcurrent, hreached⟩ := hlineage parts K hold
  rw [Db.currentKey, Db.keyText_of_keyless (Db.active_eq_some hactive) hkey, ht] at hcurrent
  obtain rfl := Option.some.inj (hreleased.symm.trans hcurrent)
  have hfirst : ∃ rotations,
      firstKey verify sha256 (some t) params nextKey = .ok (rotations, none) ∧
        Reached verify parts.name K₀ nextKey := by
    rcases hvouched with ⟨rfl, hrotation⟩ | ⟨rotation, hrotation, hcheck⟩
    · exact ⟨t.rotations, by simp [firstKey, hreleased, hrotation], hreached⟩
    · obtain ⟨r, hr, hprevious, hnextKey, -⟩ := checkRotation_eq_ok hcheck
      rw [← splitNativeName_eq_some hparts] at hr
      refine ⟨(t.rotations ++ [rotation]).rtake MAX_DOMAIN_KEY_ROTATIONS, ?_,
        hreached.tail ⟨rotation, r, hr, hprevious, hnextKey⟩⟩
      simp [firstKey, hreleased, hrotation, hcheck]
  obtain ⟨rotations, hmade, hreached'⟩ := hfirst
  intro hvisible
  have hrecord : published verify sha256 toLowerCase w.db (.registerDomainKey params) =
      some ⟨params.request.name, params.request.domainKey, rotations, none⟩ := by
    simp [published, registerDomainKey, hparts, hnext, hactive, howner, hkey, ht, hmade, bind,
      Except.bind]
  have hsome := hvisible _ hrecord parts K₀ nextKey hparts (mem_resets_watch.mpr (.inr hK₀)) hnext
    hreached'
  simp at hsome

/-! ### A reset that is hidden -/

/-- Thirty-two ones, and the name's first key. -/
def firstText : String := "AQEBAQEBAQEBAQEBAQEBAQEBAQEBAQEBAQEBAQEBAQE="

/-- Thirty-two twos, and the key it is reset to. -/
def resetText : String := "AgICAgICAgICAgICAgICAgICAgICAgICAgICAgICAgI="

def firstDigest : {digest : Bytes // digest.length = 32} :=
  ⟨[114, 205, 110, 132, 34, 196, 7, 251, 109, 9, 134, 144, 241, 19, 11, 125, 237, 126, 194, 247,
    245, 225, 211, 11, 217, 213, 33, 240, 21, 54, 55, 147], by decide⟩

def shop (userId key : String) (now : ℤ) : Request :=
  .registerDomainKey { userId, request := { name := "shop.ox", domainKey := key }, now }

/-- A name takes a key, is released, is taken by another account and, after the hold, reset to
another key; then it is released and registered once more. -/
def hiddenReset : List Request :=
  [.tld "ox" .active, .registerDomain "alice" "shop" "ox" none, shop "alice" firstText 1000,
    .releaseDomain 0 "alice" 1000000, .registerDomain "mallory" "shop" "ox" none,
    shop "mallory" resetText 2593000, .releaseDomain 1 "mallory" 2593001000,
    .registerDomain "mallory" "shop" "ox" none]

/-- The key of the reset is published again, and the marker is gone. -/
theorem hiddenReset_not_visible :
    ¬ Run.Allowed (watch (fun _ _ _ => false) (fun _ => firstDigest) asciiLower)
      (Visible (fun _ _ _ => false) (fun _ => firstDigest) asciiLower) {}
      (hiddenReset ++ [shop "mallory" resetText 2593002]) := by
  intro h
  have hvisible := Run.Allowed.last h
  generalize hw : Run.run (watch (fun _ _ _ => false) (fun _ => firstDigest) asciiLower) {}
    hiddenReset = w at hvisible
  have hlast : (published (fun _ _ _ => false) (fun _ => firstDigest) asciiLower w.db
        (shop "mallory" resetText 2593002)).any (fun record => record.name == "shop.ox" &&
          record.domainKey == resetText && record.keyReset.isNone) ∧
      (⟨"shop", "ox"⟩, ⟨List.replicate 32 2, by decide⟩) ∈
        (watch (fun _ _ _ => false) (fun _ => firstDigest) asciiLower w
          (shop "mallory" resetText 2593002)).resets := by
    subst hw
    decide +kernel
  obtain ⟨hpublished, hreset⟩ := hlast
  obtain ⟨record, hrecord, hmade⟩ := Option.any_eq_true _ _ |>.mp hpublished
  simp only [Bool.and_eq_true, beq_iff_eq, Option.isNone_iff_eq_none] at hmade
  obtain ⟨⟨hname, hkey⟩, hnone⟩ := hmade
  have hsplit : splitNativeName asciiLower "shop.ox" = some ⟨"shop", "ox"⟩ := by decide +kernel
  have hcanonical : canonicalKey resetText = some ⟨List.replicate 32 2, by decide⟩ := by
    decide
  have hsome := hvisible record hrecord ⟨"shop", "ox"⟩ _ _ (hname ▸ hsplit) hreset
    (hkey ▸ hcanonical) .refl
  simp [hnone] at hsome

/-! ### The main result -/

/-- **When a reset stays visible.** In a run, every record published for a name that was reset
carries the marker, where its key is the one of the reset or is reached from it, if and only if
no such name ever comes back on the word of the key it was released with. -/
theorem keyReset_visible (es : List Request) :
    Run.Allowed (watch verify sha256 toLowerCase) (Visible verify sha256 toLowerCase) {} es ↔
      Run.Allowed (watch verify sha256 toLowerCase)
        (fun w e => ¬ OnTombstoneWord verify toLowerCase w e) {} es := by
  have hlineage : Lineage verify {} := fun parts K h => by simp at h
  have hmarked : Marked {} := fun parts K row h => by simp at h
  constructor
  · exact Run.allowed_of_invariant (I := Lineage verify) (fun w e _ h => h.step)
      (fun w e hvisible h hword => not_visible_of_word h hword hvisible) hlineage
  · exact Run.allowed_of_invariant (I := fun w => Lineage verify w ∧ Marked w)
      (fun w e hword h => ⟨h.1.step, h.2.step h.1 hword⟩)
      (fun w e hword h => visible_of_marked (h.2.step h.1 hword)) ⟨hlineage, hmarked⟩

end Tnp.Registry
