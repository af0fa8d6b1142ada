import Tnp.Services.Zone

/-!
What a merge does to the records that no change mentions.

Every record of the zone read goes through the normal form before the changes are made, so a record
is sent back as it was read only where it is in that form already.
-/

namespace Tnp.Services

open Tnp.Lib

/-- A record of the zone sent: one of the zone read, or one that a change writes. -/
inductive Piece
  | carried (record : ZoneRecord)
  | written (record : ZoneRecord)
  deriving DecidableEq

def Piece.record : Piece → ZoneRecord
  | .carried record | .written record => record

def Piece.remote : Piece → Option ZoneRecord
  | .carried record => some record
  | .written _ => none

def ZoneChange.target : ZoneChange → Option RecordMatch
  | .add _ => none
  | .update target _ | .delete target => some target

/-- What becomes of a zone: its records, and those taken out of it with the target of the change. -/
structure Composition where
  pieces : List Piece
  taken : List (Piece × RecordMatch)
  deriving DecidableEq

variable (toLowerCase toUpperCase : String → String)

/-- How a record should be sent: as it was read, or the normal form of what the change writes. -/
def Piece.asRead : Piece → ZoneRecord
  | .carried record => record
  | .written record => normalizeRecord toLowerCase toUpperCase record

/-- How a record is sent. -/
def Piece.sent (piece : Piece) : ZoneRecord := normalizeRecord toLowerCase toUpperCase piece.record

/-- The first record that a target is taken to name goes, and `instead` comes in its place. -/
def Composition.take (c : Composition) (target : RecordMatch) (instead : List Piece) :
    Option Composition :=
  let names (piece : Piece) :=
    «matches» toLowerCase toUpperCase (piece.sent toLowerCase toUpperCase) target
  match c.pieces.dropWhile fun piece => !names piece with
  | [] => none
  | piece :: after => some ⟨(c.pieces.takeWhile fun piece => !names piece) ++ instead ++ after,
      c.taken ++ [(piece, target)]⟩

def Composition.change (c : Composition) : ZoneChange → Option Composition
  | .add record => some { c with pieces := c.pieces ++ [.written record] }
  | .update target record => c.take toLowerCase toUpperCase target [.written record]
  | .delete target => c.take toLowerCase toUpperCase target []

/-- The changes made to records as they were read; `none` where a target is missing. -/
def compose (records : List ZoneRecord) (changes : List ZoneChange) : Option Composition :=
  changes.foldlM (Composition.change toLowerCase toUpperCase) ⟨records.map .carried, []⟩

/-- Every remote record is carried or taken, in the order read, and every change that has a target
takes one record, which that target names. -/
structure Composition.Accounts (records : List ZoneRecord) (changes : List ZoneChange)
    (c : Composition) : Prop where
  all : (c.pieces.filterMap Piece.remote ++ c.taken.filterMap (·.1.remote)).Perm records
  ordered : (c.pieces.filterMap Piece.remote).Sublist records
  targets : c.taken.map Prod.snd = changes.filterMap ZoneChange.target
  named : ∀ t ∈ c.taken, «matches» toLowerCase toUpperCase
    (t.1.asRead toLowerCase toUpperCase) t.2 = true

variable (parseUrl : SharedTypes.UrlParser) (remote : Zone) (changes : List ZoneChange)
  (supportedTypes : List String)

/-- A merge changes what the changes mention and nothing else. -/
structure Preserves : Prop where
  refused : compose toLowerCase toUpperCase remote.records changes = none →
    ∃ error, mergeZoneChanges toLowerCase toUpperCase parseUrl remote changes supportedTypes =
      .error error
  kept : ∀ zone,
    mergeZoneChanges toLowerCase toUpperCase parseUrl remote changes supportedTypes = .ok zone →
      ∃ c, compose toLowerCase toUpperCase remote.records changes = some c ∧
        c.Accounts toLowerCase toUpperCase remote.records changes ∧
        zone = { remote with records := c.pieces.map (Piece.asRead toLowerCase toUpperCase) }

/-- What is sent back is in normal form, and the normal form of what is taken is one. -/
structure Composition.Normal (c : Composition) : Prop where
  carried : ∀ record, .carried record ∈ c.pieces →
    normalizeRecord toLowerCase toUpperCase record = record
  taken : ∀ record target, (.carried record, target) ∈ c.taken →
    normalizeRecord toLowerCase toUpperCase (normalizeRecord toLowerCase toUpperCase record) =
      normalizeRecord toLowerCase toUpperCase record

/-! ### Normal forms -/

variable {toLowerCase toUpperCase parseUrl remote changes supportedTypes}

/-- A target names a record as read just when it names what is sent of it and that is a normal
form. -/
lemma matches_iff_of_sent {record : ZoneRecord} {target : RecordMatch}
    (h : «matches» toLowerCase toUpperCase (normalizeRecord toLowerCase toUpperCase record)
      target = true) :
    «matches» toLowerCase toUpperCase record target = true ↔
      normalizeRecord toLowerCase toUpperCase (normalizeRecord toLowerCase toUpperCase record) =
        normalizeRecord toLowerCase toUpperCase record := by
  simp only [«matches», Bool.and_eq_true, beq_iff_eq] at h ⊢
  obtain ⟨⟨hhost, htype⟩, hvalue⟩ := h
  refine Iff.trans ?_ normalizeRecord_twice_iff.symm
  constructor
  · rintro ⟨⟨hhost', htype'⟩, hvalue'⟩
    exact ⟨hhost.trans hhost'.symm, htype.trans htype'.symm, hvalue.trans hvalue'.symm⟩
  · rintro ⟨hhost', htype', hvalue'⟩
    exact ⟨⟨hhost'.symm.trans hhost, htype'.symm.trans htype⟩, hvalue'.symm.trans hvalue⟩

/-! ### One change -/

/-- What a change that has a target does, said without places. -/
lemma Composition.take_eq_some {c c' : Composition} {target : RecordMatch} {instead : List Piece}
    (h : c.take toLowerCase toUpperCase target instead = some c') :
    ∃ before piece after, c.pieces = before ++ piece :: after ∧
      c' = ⟨before ++ instead ++ after, c.taken ++ [(piece, target)]⟩ ∧
      «matches» toLowerCase toUpperCase (piece.sent toLowerCase toUpperCase) target = true := by
  unfold Composition.take at h
  dsimp only at h
  split at h
  · simp at h
  · next piece after hdrop =>
    refine ⟨_, piece, after, ?_, (Option.some.inj h).symm, ?_⟩
    · rw [← hdrop, List.takeWhile_append_dropWhile]
    · have hhead := List.head_dropWhile_not (fun piece => !«matches» toLowerCase toUpperCase
        (Piece.sent toLowerCase toUpperCase piece) target) (l := c.pieces) (by simp [hdrop])
      simpa [hdrop] using hhead

/-- A target that is found names the place of what goes. -/
lemma findIdx?_dropWhile {α : Type*} (p : α → Bool) (l : List α) :
    match l.dropWhile (fun a => !p a) with
    | [] => l.findIdx? p = none
    | a :: after => ∃ before, l.takeWhile (fun a => !p a) = before ∧ l = before ++ a :: after ∧
        l.findIdx? p = some before.length := by
  induction l with
  | nil => simp
  | cons a l ih =>
    cases hp : p a with
    | true => simp [List.findIdx?_cons, hp]
    | false =>
      simp only [List.dropWhile_cons, hp, Bool.not_false, if_true, List.takeWhile_cons,
        List.findIdx?_cons]
      split at ih
      · simp [*]
      · obtain ⟨before, htake, hl, hidx⟩ := ih
        exact ⟨a :: before, by rw [htake], by rw [hl]; rfl, by simp [hidx]⟩

/-- The loop of the code, on the records sent, does what a change does to the pieces. -/
lemma applyChange_map (c : Composition) (change : ZoneChange) :
    match c.change toLowerCase toUpperCase change with
    | some c' => applyChange toLowerCase toUpperCase
        (c.pieces.map (Piece.sent toLowerCase toUpperCase)) change =
          .ok (c'.pieces.map (Piece.sent toLowerCase toUpperCase))
    | none => ∃ error, applyChange toLowerCase toUpperCase
        (c.pieces.map (Piece.sent toLowerCase toUpperCase)) change = .error error := by
  have hplace (target : RecordMatch) := findIdx?_dropWhile (fun piece =>
    «matches» toLowerCase toUpperCase (Piece.sent toLowerCase toUpperCase piece) target) c.pieces
  cases change with
  | add record => simp [Composition.change, applyChange, Piece.sent, Piece.record]
  | update target record =>
    specialize hplace target
    simp only [Composition.change, Composition.take, applyChange, List.findIdx?_map,
      Function.comp_def]
    split at hplace
    · simp [*]
    · next piece after hdrop =>
      obtain ⟨before, htake, hpieces, hidx⟩ := hplace
      rw [hdrop, hidx, htake, hpieces]
      simp [Piece.sent, Piece.record]
  | delete target =>
    specialize hplace target
    simp only [Composition.change, Composition.take, applyChange, List.findIdx?_map,
      Function.comp_def]
    split at hplace
    · simp [*]
    · next piece after hdrop =>
      obtain ⟨before, htake, hpieces, hidx⟩ := hplace
      rw [hdrop, hidx, htake, hpieces]
      simp [List.eraseIdx_append]

/-! ### All changes -/

/-- What the changes made so far account for, the targets going by what is sent. -/
structure Composition.Traced (records : List ZoneRecord) (targets : List RecordMatch)
    (c : Composition) (toLowerCase toUpperCase : String → String) : Prop where
  all : (c.pieces.filterMap Piece.remote ++ c.taken.filterMap (·.1.remote)).Perm records
  ordered : (c.pieces.filterMap Piece.remote).Sublist records
  targets : c.taken.map Prod.snd = targets
  named : ∀ t ∈ c.taken, «matches» toLowerCase toUpperCase
    (t.1.sent toLowerCase toUpperCase) t.2 = true

lemma Composition.Traced.take {records : List ZoneRecord} {targets : List RecordMatch}
    {c c' : Composition} {target : RecordMatch} {instead : List Piece}
    (h : c.Traced records targets toLowerCase toUpperCase)
    (htake : c.take toLowerCase toUpperCase target instead = some c')
    (hinstead : instead.filterMap Piece.remote = []) :
    c'.Traced records (targets ++ [target]) toLowerCase toUpperCase := by
  obtain ⟨before, piece, after, hpieces, rfl, hnames⟩ := Composition.take_eq_some htake
  have hall := h.all
  have hordered := h.ordered
  rw [hpieces, List.filterMap_append, List.filterMap_cons] at hall hordered
  refine ⟨?_, ?_, by simp [h.targets], ?_⟩
  · refine List.Perm.trans ?_ hall
    cases hremote : piece.remote with
    | none => simp [hinstead, hremote]
    | some record =>
      simp only [List.filterMap_append, hinstead, hremote, List.filterMap_cons, List.filterMap_nil,
        List.append_assoc, List.cons_append, List.nil_append]
      refine (List.perm_append_left_iff _).mpr ?_
      rw [← List.append_assoc]
      exact List.perm_append_singleton record _
  · refine List.Sublist.trans ?_ hordered
    rw [List.filterMap_append, List.filterMap_append, hinstead, List.append_nil]
    refine List.Sublist.append_left ?_ _
    split
    · exact List.Sublist.refl _
    · exact List.sublist_cons_self _ _
  · intro t ht
    rcases List.mem_append.mp ht with ht | ht
    · exact h.named t ht
    · obtain rfl := List.mem_singleton.mp ht
      exact hnames

lemma Composition.Traced.change {records : List ZoneRecord} {targets : List RecordMatch}
    {c c' : Composition} {change : ZoneChange}
    (h : c.Traced records targets toLowerCase toUpperCase)
    (hchange : c.change toLowerCase toUpperCase change = some c') :
    c'.Traced records (targets ++ change.target.toList) toLowerCase toUpperCase := by
  cases change with
  | add record =>
    obtain rfl := Option.some.inj hchange
    have hnone : (Piece.written record).remote = none := rfl
    refine ⟨?_, ?_, by simpa [ZoneChange.target] using h.targets, h.named⟩
    · simpa [hnone] using h.all
    · simpa [hnone] using h.ordered
  | update target record => exact h.take hchange rfl
  | delete target => exact h.take hchange rfl

/-- The loop of the code and the composition fail together, and make the same records. -/
lemma foldlM_applyChange {records : List ZoneRecord} (targets : List RecordMatch)
    (changes : List ZoneChange) (c : Composition)
    (h : c.Traced records targets toLowerCase toUpperCase) :
    match changes.foldlM (Composition.change toLowerCase toUpperCase) c with
    | some c' => changes.foldlM (applyChange toLowerCase toUpperCase)
        (c.pieces.map (Piece.sent toLowerCase toUpperCase)) =
          .ok (c'.pieces.map (Piece.sent toLowerCase toUpperCase)) ∧
        c'.Traced records (targets ++ changes.filterMap ZoneChange.target) toLowerCase toUpperCase
    | none => ∃ error, changes.foldlM (applyChange toLowerCase toUpperCase)
        (c.pieces.map (Piece.sent toLowerCase toUpperCase)) = .error error := by
  induction changes generalizing c targets with
  | nil => exact ⟨rfl, by simpa using h⟩
  | cons change changes ih =>
    have hstep := @applyChange_map toLowerCase toUpperCase c change
    rw [List.foldlM_cons]
    cases hchange : c.change toLowerCase toUpperCase change with
    | none =>
      rw [hchange] at hstep
      obtain ⟨error, herror⟩ := hstep
      exact ⟨error, by rw [List.foldlM_cons, herror]; rfl⟩
    | some c' =>
      rw [hchange] at hstep
      have hrest := ih _ c' (h.change hchange)
      have htargets : targets ++ change.target.toList ++ changes.filterMap ZoneChange.target =
          targets ++ (change :: changes).filterMap ZoneChange.target := by
        cases htarget : change.target <;> simp [htarget]
      rw [htargets] at hrest
      simpa [List.foldlM_cons, hstep, bind, Except.bind] using hrest

lemma asRead_eq_sent_iff {piece : Piece} :
    piece.asRead toLowerCase toUpperCase = piece.sent toLowerCase toUpperCase ↔
      ∀ record, piece = .carried record →
        normalizeRecord toLowerCase toUpperCase record = record := by
  cases piece with
  | carried record =>
    constructor
    · rintro h _ ⟨⟩
      exact h.symm
    · intro h
      exact (h record rfl).symm
  | written record => exact ⟨fun _ _ h => by simp at h, fun _ => rfl⟩

/-- The targets name what they take exactly where what is taken has one normal form. -/
lemma Composition.Traced.named_iff {records : List ZoneRecord} {targets : List RecordMatch}
    {c : Composition} (h : c.Traced records targets toLowerCase toUpperCase) :
    (∀ t ∈ c.taken, «matches» toLowerCase toUpperCase
      (t.1.asRead toLowerCase toUpperCase) t.2 = true) ↔
      ∀ record target, (.carried record, target) ∈ c.taken →
        normalizeRecord toLowerCase toUpperCase
          (normalizeRecord toLowerCase toUpperCase record) =
            normalizeRecord toLowerCase toUpperCase record := by
  have hsent (record : ZoneRecord) (target : RecordMatch)
      (ht : (.carried record, target) ∈ c.taken) :
      «matches» toLowerCase toUpperCase (normalizeRecord toLowerCase toUpperCase record)
        target = true := h.named (.carried record, target) ht
  constructor
  · intro hnamed record target ht
    have htake : «matches» toLowerCase toUpperCase record target = true :=
      hnamed (.carried record, target) ht
    exact (matches_iff_of_sent (hsent record target ht)).mp htake
  · rintro hnormal ⟨piece, target⟩ ht
    cases piece with
    | carried record =>
      have htwice := hnormal record target ht
      exact (matches_iff_of_sent (hsent record target ht)).mpr htwice
    | written record => exact h.named (.written record, target) ht

/-- The composition of nothing changed. -/
lemma traced_carried (records : List ZoneRecord) :
    Composition.Traced records [] ⟨records.map .carried, []⟩ toLowerCase toUpperCase := by
  have hcarried : (records.map Piece.carried).filterMap Piece.remote = records := by
    simp [List.filterMap_map, Piece.remote, Function.comp_def]
  refine ⟨?_, ?_, rfl, by simp⟩
  · simp [hcarried]
  · rw [hcarried]

lemma foldlM_remote (records : List ZoneRecord) (changes : List ZoneChange) :
    match compose toLowerCase toUpperCase records changes with
    | some c => changes.foldlM (applyChange toLowerCase toUpperCase)
        (records.map (normalizeRecord toLowerCase toUpperCase)) =
          .ok (c.pieces.map (Piece.sent toLowerCase toUpperCase)) ∧
        c.Traced records (changes.filterMap ZoneChange.target) toLowerCase toUpperCase
    | none => ∃ error, changes.foldlM (applyChange toLowerCase toUpperCase)
        (records.map (normalizeRecord toLowerCase toUpperCase)) = .error error := by
  have hfold := foldlM_applyChange [] changes _ (@traced_carried toLowerCase toUpperCase records)
  rw [List.map_map] at hfold
  exact hfold

lemma mergeZoneChanges_of_missing
    (h : compose toLowerCase toUpperCase remote.records changes = none) :
    ∃ error, mergeZoneChanges toLowerCase toUpperCase parseUrl remote changes supportedTypes =
      .error error := by
  have hfold := @foldlM_remote toLowerCase toUpperCase remote.records changes
  rw [h] at hfold
  obtain ⟨error, herror⟩ := hfold
  exact ⟨error, by rw [mergeZoneChanges, herror]; rfl⟩

/-- What an accepted merge gives. -/
lemma mergeZoneChanges_eq_ok {zone : Zone}
    (h : mergeZoneChanges toLowerCase toUpperCase parseUrl remote changes supportedTypes =
      .ok zone) :
    ∃ c, compose toLowerCase toUpperCase remote.records changes = some c ∧
      c.Traced remote.records (changes.filterMap ZoneChange.target) toLowerCase toUpperCase ∧
      zone = { remote with records := c.pieces.map (Piece.sent toLowerCase toUpperCase) } := by
  have hfold := @foldlM_remote toLowerCase toUpperCase remote.records changes
  cases hcompose : compose toLowerCase toUpperCase remote.records changes with
  | none =>
    obtain ⟨error, herror⟩ :=
      @mergeZoneChanges_of_missing _ _ parseUrl remote changes supportedTypes hcompose
    rw [herror] at h
    cases h
  | some c =>
    rw [hcompose] at hfold
    rw [mergeZoneChanges, hfold.1] at h
    obtain ⟨records, hrecords, h⟩ := bind_eq_ok.mp h
    obtain rfl := Except.ok.inj hrecords
    split at h
    · cases h
    · dsimp only at h
      split at h
      · cases h
      · exact ⟨c, rfl, hfold.2, (Except.ok.inj h).symm⟩

/-- **A merge preserves what its changes do not mention** exactly where every record carried into
an accepted zone was read in normal form, and the normal form of every record taken out is one. -/
theorem preserves_iff :
    Preserves toLowerCase toUpperCase parseUrl remote changes supportedTypes ↔
      ∀ zone c,
        mergeZoneChanges toLowerCase toUpperCase parseUrl remote changes supportedTypes =
          .ok zone →
        compose toLowerCase toUpperCase remote.records changes = some c →
        c.Normal toLowerCase toUpperCase := by
  constructor
  · intro hpreserves zone c hmerge hcompose
    obtain ⟨c', hcompose', haccounts, hzone⟩ := hpreserves.kept zone hmerge
    obtain ⟨c'', hcompose'', htraced, hsent⟩ := mergeZoneChanges_eq_ok hmerge
    obtain rfl := Option.some.inj (hcompose.symm.trans hcompose')
    obtain rfl := Option.some.inj (hcompose.symm.trans hcompose'')
    have hrecords : c.pieces.map (Piece.asRead toLowerCase toUpperCase) =
        c.pieces.map (Piece.sent toLowerCase toUpperCase) :=
      congrArg Zone.records (hzone.symm.trans hsent)
    refine ⟨fun record hrecord => ?_, htraced.named_iff.mp haccounts.named⟩
    exact asRead_eq_sent_iff.mp (List.map_inj_left.mp hrecords _ hrecord) record rfl
  · intro hnormal
    refine ⟨mergeZoneChanges_of_missing, fun zone hmerge => ?_⟩
    obtain ⟨c, hcompose, htraced, hsent⟩ := mergeZoneChanges_eq_ok hmerge
    have hc := hnormal zone c hmerge hcompose
    have hrecords : c.pieces.map (Piece.asRead toLowerCase toUpperCase) =
        c.pieces.map (Piece.sent toLowerCase toUpperCase) := by
      refine List.map_inj_left.mpr fun piece hpiece => asRead_eq_sent_iff.mpr fun record h => ?_
      exact hc.carried record (h ▸ hpiece)
    refine ⟨c, hcompose, ⟨htraced.all, htraced.ordered, htraced.targets, ?_⟩, ?_⟩
    · exact htraced.named_iff.mpr hc.taken
    · rw [hsent, hrecords]

/-- A host beside an alias written as providers print them, with the root's dot. -/
def rootedZone : Zone where
  records := [⟨"www", "CNAME", "target.example.", 1800, none⟩, ⟨"@", "A", "192.0.2.1", 300, none⟩]
  settings := {}
  servedByProvider := true

/-- Adding a host takes the dot of an alias that no change mentions. -/
theorem not_preserves_rootedZone :
    ¬ Preserves id id (fun _ => none) rootedZone [.add ⟨"api", "A", "192.0.2.2", 300, none⟩]
      ["A", "CNAME"] := by
  intro h
  have hmerge : (mergeZoneChanges id id (fun _ => none) rootedZone
      [.add ⟨"api", "A", "192.0.2.2", 300, none⟩] ["A", "CNAME"]).toOption.map Zone.records =
        some [⟨"www", "CNAME", "target.example", 1800, none⟩, ⟨"@", "A", "192.0.2.1", 300, none⟩,
          ⟨"api", "A", "192.0.2.2", 300, none⟩] := by
    decide
  obtain ⟨zone, hzone, hrecords⟩ := Option.map_eq_some_iff.mp hmerge
  obtain ⟨c, hcompose, -, rfl⟩ := h.kept zone (toOption_eq_some.mp hzone)
  obtain rfl := Option.some.inj hcompose
  revert hrecords
  decide

end Tnp.Services
