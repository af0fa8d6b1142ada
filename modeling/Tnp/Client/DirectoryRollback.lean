import Mathlib.Order.Nat
import Tnp.Client.RelayDirectory

/-!
What the device has accepted, over any interleaving of its processes.

The marks on disk only rise. A client, however, judges by the marks it loaded before it waited for
the network: it accepts what another process has meanwhile gone beyond.
-/

namespace Tnp.Client.RelayDirectory

open Tnp.Lib Tnp.Lib.Run Tnp.Crypto Tnp.Crypto.RelayDirectory Tnp.SharedTypes

variable {options : Options} {d : Device} {e : Event} {key : String} {n serial : ℕ}

/-- The mark of a key that is persisted. -/
def persisted (d : Device) (key : String) : ℕ := markOf (marksOf d.file) key

/-- What a refresh ends with was not signed before what its key is known to have signed. -/
def NotRolledBack (options : Options) (d : Device) (e : Event) : Prop :=
  ∀ outcome ∈ d.outcome options e, ∀ directory ∈ outcome.directory,
    persisted d (toHex directory.signedBy) ≤ directory.serial.val

/-- No mark decreases. -/
def MarksRise (options : Options) (d : Device) (e : Event) : Prop :=
  ∀ key, persisted d key ≤ persisted (d.step options e) key

/-- The merges since a client loaded the marks. -/
def since (d : Device) (merges : ℕ) : List (String × ℕ) :=
  d.merges.take (d.merges.length - merges)

/-- No process has merged a higher serial of the same key since the client loaded the marks. -/
def notOvertaken (options : Options) (d : Device) : Event → Bool
  | .answered c now answer =>
    match (d.client c).refreshing with
    | some (.fetching _ _ merges) =>
      ((d.outcome options (.answered c now answer)).bind Outcome.directory).all fun directory =>
        (since d merges).all fun m => m.1 ≠ toHex directory.signedBy ∨ m.2 ≤ directory.serial.val
    | _ => true
  | _ => true

/-! ### Marks -/

lemma markOf_raise (marks : Marks) (key other : String) (serial : ℕ) :
    markOf (raise marks key serial) other =
      if key = other then max (markOf marks key) serial else markOf marks other := by
  unfold raise
  simp only [markOf, OrderedMap.get_set]
  split <;> rfl

lemma markOf_merge (current : Option DirectoryState) (document : Option SignedRelayDirectory)
    (key other : String) (serial : ℕ) :
    markOf (mergeStates current ⟨.ofList [(key, serial)], document⟩).marks other =
      if key = other then max (markOf (marksOf current) key) serial
      else markOf (marksOf current) other :=
  markOf_raise (marksOf current) key other serial

/-- What a client judges by is at least what it loaded. -/
lemma le_loadedMarks (client : Client) (state : Option DirectoryState) (key : String) :
    markOf (marksOf state) key ≤ markOf (loadedMarks client state) key := by
  unfold loadedMarks
  split
  · rw [markOf_raise]
    split
    · next hkey => exact hkey ▸ le_max_left _ _
    · exact le_rfl
  · exact le_rfl

lemma verify_eq_ok {now : ℤ} {marks : Marks} {body : Value} {directory : VerifiedRelayDirectory}
    (h : verify options now marks body = .ok directory) :
    markOf marks (toHex directory.signedBy) ≤ directory.serial.val := by
  obtain ⟨found, -, hfound⟩ := bind_eq_ok.mp h
  rw [check_eq_ok] at hfound
  obtain ⟨hmark, hsame⟩ := hfound
  obtain rfl := Except.ok.inj hsame
  exact Nat.le_of_not_lt hmark

lemma fromCache_marks {client : Client} {state : Option DirectoryState} {marks : Marks} {now : ℤ}
    {directory : VerifiedRelayDirectory}
    (h : fromCache options client state now marks = some directory) :
    markOf marks (toHex directory.signedBy) ≤ directory.serial.val := by
  obtain ⟨document, -, hverify⟩ := List.exists_of_findSome?_eq_some h
  exact verify_eq_ok (toOption_eq_some.mp hverify)

/-- Nothing is settled on below the marks that the client judges by. -/
lemma settle_marks {client : Client} {state : Option DirectoryState} {marks : Marks} {now : ℤ}
    {answer : Except String Value} {directory : VerifiedRelayDirectory}
    (h : (settle options client state marks now answer).directory = some directory) :
    markOf marks (toHex directory.signedBy) ≤ directory.serial.val := by
  unfold settle at h
  dsimp only at h
  split at h
  · split at h
    · next hfound =>
      obtain rfl := Option.some.inj h
      exact fromCache_marks hfound
    · cases h
  · split at h
    · next hverify =>
      obtain rfl := Option.some.inj h
      exact verify_eq_ok hverify
    · split at h
      · next hfound =>
        obtain rfl := Option.some.inj h
        exact fromCache_marks hfound
      · cases h

/-! ### One step -/

/-- The mark on disk is the one loaded, raised by the merges since. -/
structure Tracks (d : Device) (state : Option DirectoryState) (marks : Marks) (merges : ℕ) :
    Prop where
  merges_le : merges ≤ d.merges.length
  loaded : ∀ key, markOf (marksOf state) key ≤ markOf marks key
  since : ∀ key n, persisted d key ≤ n ↔
    markOf (marksOf state) key ≤ n ∧ ∀ m ∈ since d merges, m.1 = key → m.2 ≤ n

def Tracked (d : Device) : Prop :=
  ∀ c client state marks merges, d.clients.get c = some client →
    client.refreshing = some (.fetching state marks merges) → Tracks d state marks merges

variable {d' : Device} {state : Option DirectoryState} {marks : Marks} {merges : ℕ}

lemma Tracks.frame (h : Tracks d state marks merges) (hfile : d'.file = d.file)
    (hmerges : d'.merges = d.merges) : Tracks d' state marks merges where
  merges_le := by
    rw [hmerges]
    exact h.merges_le
  loaded := h.loaded
  since key n := by
    unfold persisted RelayDirectory.since
    rw [hfile, hmerges]
    exact h.since key n

/-- What is loaded now is what is persisted now. -/
lemma Tracks.load (client : Client) :
    Tracks d d.file (loadedMarks client d.file) d.merges.length where
  merges_le := le_rfl
  loaded := le_loadedMarks client d.file
  since key n := by simp [persisted, RelayDirectory.since]

/-- The device after a merge. -/
def Device.merged (d : Device) (key : String) (serial : ℕ)
    (document : Option SignedRelayDirectory) : Device :=
  { d with
    file := some (mergeStates d.file ⟨.ofList [(key, serial)], document⟩)
    merges := (key, serial) :: d.merges }

lemma persisted_merged (document : Option SignedRelayDirectory) (other : String) :
    persisted (d.merged key serial document) other =
      if key = other then max (persisted d key) serial else persisted d other :=
  markOf_merge d.file document key other serial

lemma since_merged (document : Option SignedRelayDirectory) (h : merges ≤ d.merges.length) :
    since (d.merged key serial document) merges = (key, serial) :: since d merges := by
  simp only [RelayDirectory.since, Device.merged, List.length_cons]
  rw [Nat.succ_sub h, List.take_succ_cons]

lemma Tracks.merged (h : Tracks d state marks merges) (document : Option SignedRelayDirectory) :
    Tracks (d.merged key serial document) state marks merges where
  merges_le := h.merges_le.trans (Nat.le_succ _)
  loaded := h.loaded
  since other n := by
    rw [persisted_merged, since_merged document h.merges_le, List.forall_mem_cons]
    split
    · next hkey =>
      subst hkey
      rw [max_le_iff, h.since key n]
      constructor
      · rintro ⟨⟨hloaded, hlater⟩, hserial⟩
        exact ⟨hloaded, fun _ => hserial, hlater⟩
      · rintro ⟨hloaded, hserial, hlater⟩
        exact ⟨⟨hloaded, hlater⟩, hserial rfl⟩
    · next hkey =>
      rw [h.since other n]
      constructor
      · rintro ⟨hloaded, hlater⟩
        exact ⟨hloaded, fun hsame => absurd hsame hkey, hlater⟩
      · rintro ⟨hloaded, -, hlater⟩
        exact ⟨hloaded, hlater⟩

namespace Tracked

/-- A client that goes on with what it tracks, if it fetches at all. -/
lemma setClient (h : Tracked d) {c : ClientId} {client : Client}
    (hclient : ∀ state marks merges, client.refreshing = some (.fetching state marks merges) →
      Tracks d state marks merges) : Tracked (d.setClient c client) := by
  intro j other state marks merges hj hother
  refine Tracks.frame ?_ rfl rfl (d := d)
  simp only [Device.setClient, OrderedMap.get_set] at hj
  split at hj
  · obtain rfl := Option.some.inj hj
    exact hclient state marks merges hother
  · exact h j other state marks merges hj hother

lemma merged (h : Tracked d) (document : Option SignedRelayDirectory) :
    Tracked (d.merged key serial document) :=
  fun j other state marks merges hj hother =>
    (h j other state marks merges hj hother).merged document

theorem step (h : Tracked d) : Tracked (d.step options e) := by
  cases e with
  | get c now readable =>
    simp only [Device.step]
    split
    · exact h
    · refine h.setClient ?_
      rintro state marks merges ⟨⟩
      exact Tracks.load _
  | answered c now answer =>
    simp only [Device.step]
    split
    · exact h.setClient (by simp)
    · exact h.setClient (by simp)
    · exact h.setClient (by simp)
    · exact h
  | merge c written =>
    simp only [Device.step]
    split
    · next directory _ =>
      split
      · exact (h.setClient (by simp)).merged (some directory.document)
      · exact h.setClient (by simp)
    · exact h

end Tracked

lemma marksRise (d : Device) (e : Event) : MarksRise options d e := by
  intro key
  cases e with
  | get c now readable =>
    simp only [Device.step]
    split <;> exact le_rfl
  | answered c now answer =>
    simp only [Device.step]
    split <;> exact le_rfl
  | merge c written =>
    simp only [Device.step]
    split
    · next directory _ =>
      split
      · refine le_of_le_of_eq ?_ (persisted_merged (some directory.document) key).symm
        split
        · next hkey => exact hkey ▸ le_max_left _ _
        · exact le_rfl
      · exact le_rfl
    · exact le_rfl

/-- A client accepts below a mark exactly where a merge since its load has raised it. -/
lemma notRolledBack_iff (h : Tracked d) : NotRolledBack options d e ↔ notOvertaken options d e := by
  cases e with
  | get c now readable => simp [NotRolledBack, notOvertaken, Device.outcome]
  | merge c written => simp [NotRolledBack, notOvertaken, Device.outcome]
  | answered c now answer =>
    cases hrefresh : (d.client c).refreshing with
    | none => simp [NotRolledBack, notOvertaken, Device.outcome, hrefresh]
    | some refresh =>
      cases refresh with
      | accepting directory => simp [NotRolledBack, notOvertaken, Device.outcome, hrefresh]
      | fetching state marks merges =>
        have hget : d.clients.get c = some (d.client c) := by
          unfold Device.client at hrefresh ⊢
          cases hc : d.clients.get c with
          | none => simp [hc] at hrefresh
          | some client => rfl
        have htracks := h c _ state marks merges hget hrefresh
        have houtcome : d.outcome options (.answered c now answer) =
            some (settle options (d.client c) state marks now answer) := by
          simp [Device.outcome, hrefresh]
        unfold NotRolledBack notOvertaken
        simp only [houtcome, hrefresh, Option.mem_some_iff, forall_eq', Option.bind_some]
        cases hdirectory : (settle options (d.client c) state marks now answer).directory with
        | none => simp
        | some directory =>
          have hloaded := (htracks.loaded (toHex directory.signedBy)).trans
            (settle_marks hdirectory)
          have hsame : persisted d (toHex directory.signedBy) ≤ directory.serial.val ↔
              ∀ m ∈ since d merges, m.1 = toHex directory.signedBy →
                m.2 ≤ directory.serial.val := by
            rw [htracks.since]
            exact and_iff_right hloaded
          simp only [Option.mem_some_iff, forall_eq']
          simpa [imp_iff_not_or] using hsame

/-- Over a run, nothing is rolled back exactly where no client is overtaken. -/
lemma allowed_notRolledBack_iff (options : Options) (file : Option DirectoryState)
    (es : List Event) :
    Allowed (Device.step options) (NotRolledBack options) { file := file } es ↔
      Allowed (Device.step options) (fun d e => notOvertaken options d e) { file := file } es := by
  have hinit : Tracked { file := file } := by
    intro c client state marks merges hc
    simp at hc
  exact allowed_congr (I := Tracked) (fun _ _ _ h => h.step) (fun _ _ h => notRolledBack_iff h)
    hinit es

/-- **The marks of a device only rise, and nothing below them is accepted exactly where no client
is overtaken**: in every run of its processes, from any state file, each directory accepted has at
least the serial persisted for its key if and only if no other process has merged a higher serial
of that key since the client loaded the marks. -/
theorem device_marks (options : Options) (file : Option DirectoryState) (es : List Event) :
    Allowed (Device.step options) (MarksRise options) { file := file } es ∧
      (Allowed (Device.step options) (NotRolledBack options) { file := file } es ↔
        Allowed (Device.step options) (fun d e => notOvertaken options d e) { file := file }
          es) :=
  ⟨allowed_of_always marksRise _ es, allowed_notRolledBack_iff options file es⟩

/-! ### An overtaken client -/

/-- A pinned key, and a verifier for which any signature is its. -/
def pinnedOptions : Options where
  verify := fun _ _ _ => true
  parseUrl := fun _ => none
  trustedKeys := [List.replicate 32 0]

/-- A directory of no relays. -/
def emptyDirectory (serial : ℤ) : SignedRelayDirectory where
  serial := serial
  issuedAt := serial
  expiresAt := 1000
  relays := []
  signature := encodeBase64 (List.replicate 64 0)

/-- Client 0 loads the marks; client 1 accepts and persists serial 10; client 0 is answered. -/
def overtakenRun : List Event :=
  [.get 0 10 true, .get 1 10 true, .answered 1 10 (.ok (emptyDirectory 10).value), .merge 1 true,
    .answered 0 10 (.ok (emptyDirectory 5).value)]

/-- A client overtaken while it waits accepts serial 5 where 10 is persisted. -/
theorem overtaken_rolled_back :
    ¬ ∀ options file es,
      Allowed (Device.step options) (NotRolledBack options) { file := file } es := by
  intro h
  have hnot : ¬ Allowed (Device.step pinnedOptions)
      (fun d e => notOvertaken pinnedOptions d e) { file := none } overtakenRun := by
    decide
  exact hnot ((allowed_notRolledBack_iff pinnedOptions none overtakenRun).mp (h _ _ _))

end Tnp.Client.RelayDirectory
