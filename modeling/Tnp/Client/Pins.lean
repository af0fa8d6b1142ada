import Tnp.Crypto.Encoding
import Tnp.Crypto.Scope
import Tnp.Lib.Fallible
import Tnp.Lib.Recency

/-!
Domain-key pins: trust on first use.

The file is read again for every decision and written when the pin changed. It also keeps marks
of the highest serials seen under each pin, the ones raised last. The names are those of
services, of two labels, so none is a name that every object has.
-/

namespace Tnp.Client.Pins

open Tnp.Lib Tnp.Crypto

structure Pin where
  domainKey : String
  /-- When this key was first pinned, or last rotated to. -/
  pinnedAt : String
  serials : OrderedMap String ℕ
  deriving DecidableEq

abbrev PinFile := OrderedMap String Pin

/-- Serial marks kept per pin. -/
def MAX_SERIALS_PER_PIN : ℕ := 256

/-- Raise the marks, moving each raised key to the most recent end. -/
def raiseSerials (current : OrderedMap String ℕ) (serials : List (String × ℕ)) :
    OrderedMap String ℕ :=
  (raiseAll current serials).latest MAX_SERIALS_PER_PIN

/-! ### The file -/

/-- An entry as it is on disk, where fields may be missing. -/
structure StoredPin where
  domainKey : Option String
  pinnedAt : String
  serials : Option (OrderedMap String ℕ)
  deriving DecidableEq

/-- What is at the path of the pin file. -/
inductive PinDisk
  | absent
  | notRegular
  | corrupt
  | unknownFormat
  | pins (entries : OrderedMap String StoredPin)
  deriving DecidableEq

/-- Why the file cannot be used. -/
inductive FileError
  | error (message : String)
  | encoding (e : EncodingError)
  deriving DecidableEq

/-- What a call throws: because of the file, or because the caller's decision does. -/
inductive Thrown (ε : Type)
  | file (e : FileError)
  | decision (e : ε)
  deriving DecidableEq

variable {ε α : Type} (pinsPath : String)

/-- What is checked of every entry. -/
def checkEntries : List (String × StoredPin) → Except FileError Unit
  | [] => .ok ()
  | (name, pin) :: rest =>
    match pin.domainKey with
    | none => .error (.error s!"the pin file {pinsPath} has a malformed entry")
    | some domainKey =>
      if !isValidScope name then .error (.error s!"the pin file {pinsPath} has a malformed entry")
      else
        match parsePublicKey (.text domainKey) with
        | .error e => .error (.encoding e)
        | .ok _ => checkEntries rest

def StoredPin.load (pin : StoredPin) : Pin :=
  ⟨pin.domainKey.getD "", pin.pinnedAt, pin.serials.getD ⟨[], List.nodup_nil⟩⟩

def Pin.store (pin : Pin) : StoredPin := ⟨some pin.domainKey, pin.pinnedAt, some pin.serials⟩

/-- A file that is there but cannot be read is not taken for one without pins. -/
def read : PinDisk → Except FileError PinFile
  | .absent => .ok ⟨[], List.nodup_nil⟩
  | .notRegular => .error (.error s!"refusing to read {pinsPath}: not a regular file")
  | .corrupt =>
    .error (.error s!"the pin file {pinsPath} is corrupt; refusing to continue without it")
  | .unknownFormat => .error (.error s!"the pin file {pinsPath} has an unknown format")
  | .pins entries => do
    checkEntries pinsPath entries.entries
    .ok (entries.mapValues StoredPin.load)

def write (file : PinFile) : PinDisk := .pins (file.mapValues Pin.store)

/-- The pin of a name, if the file can be read. -/
def get (disk : PinDisk) (name : String) : Option Pin :=
  match read pinsPath disk with
  | .error _ => none
  | .ok file => file.get name

/-- The file after a decision: written if there is a pin to store and it is not there yet. -/
def stored (disk : PinDisk) (file : PinFile) (name : String) : Option Pin → PinDisk
  | none => disk
  | some pin => if some pin ≠ file.get name then write (file.set name pin) else disk

/-- Decide about `name` against the pin as it is on disk now. What is thrown changes nothing. -/
def update (disk : PinDisk) (name : String)
    (decide : Option Pin → Except ε (Option Pin × α)) : PinDisk × Except (Thrown ε) α :=
  match read pinsPath disk with
  | .error e => (disk, .error (.file e))
  | .ok file =>
    match decide (file.get name) with
    | .error e => (disk, .error (.decision e))
    | .ok (pin, result) => (stored disk file name pin, .ok result)

/-- The pin after recording `domainKey` and raising the serial marks. -/
def next (existing : Option Pin) (domainKey now : String) (serials : List (String × ℕ)) : Pin :=
  match existing.filter fun pin => pin.domainKey = domainKey with
  | none => ⟨domainKey, now, raiseSerials ⟨[], List.nodup_nil⟩ serials⟩
  | some pin => ⟨domainKey, pin.pinnedAt, raiseSerials pin.serials serials⟩

/-- The next contact with a name that is forgotten is a first contact again. -/
def forget (disk : PinDisk) (name : String) : PinDisk × Except FileError Bool :=
  match read pinsPath disk with
  | .error e => (disk, .error e)
  | .ok file =>
    if (file.get name).isNone then (disk, .ok false)
    else (write (file.delete name), .ok true)

/-! ### What is stored and read back -/

lemma next_same {pin : Pin} {domainKey now : String} {serials : List (String × ℕ)}
    (h : pin.domainKey = domainKey) : next (some pin) domainKey now serials =
      ⟨domainKey, pin.pinnedAt, raiseSerials pin.serials serials⟩ := by
  have hfilter : (some pin).filter (fun pin => pin.domainKey = domainKey) = some pin := by
    simp [Option.filter, h]
  rw [next, hfilter]

lemma next_other {pin : Pin} {domainKey now : String} {serials : List (String × ℕ)}
    (h : pin.domainKey ≠ domainKey) : next (some pin) domainKey now serials =
      ⟨domainKey, now, raiseSerials ⟨[], List.nodup_nil⟩ serials⟩ := by
  have hfilter : (some pin).filter (fun pin => pin.domainKey = domainKey) = none := by
    simp [Option.filter, h]
  rw [next, hfilter]

/-- Every entry is of a name and has a key. -/
def Valid (file : PinFile) : Prop :=
  ∀ name pin, file.get name = some pin →
    isValidScope name = true ∧ ∃ key, parsePublicKey (.text pin.domainKey) = .ok key

variable {pinsPath}

lemma checkEntries_eq_ok_iff {l : List (String × StoredPin)} :
    checkEntries pinsPath l = .ok () ↔ ∀ e ∈ l, isValidScope e.1 = true ∧
      ∃ domainKey key, e.2.domainKey = some domainKey ∧
        parsePublicKey (.text domainKey) = .ok key := by
  induction l with
  | nil => simp [checkEntries]
  | cons e rest ih =>
    obtain ⟨name, pin⟩ := e
    rw [List.forall_mem_cons, ← ih]
    cases hdomainKey : pin.domainKey with
    | none => simp [checkEntries, hdomainKey]
    | some domainKey =>
      cases hname : isValidScope name with
      | false => simp [checkEntries, hdomainKey, hname]
      | true =>
        cases hkey : parsePublicKey (.text domainKey) with
        | error e => simp [checkEntries, hdomainKey, hname, hkey]
        | ok key =>
          simp only [checkEntries, hdomainKey, hname, hkey, Bool.not_true, Bool.false_eq_true,
            if_false, true_and]
          exact (and_iff_right ⟨domainKey, key, rfl, hkey⟩).symm

lemma valid_of_read {disk : PinDisk} {file : PinFile}
    (h : read pinsPath disk = .ok file) : Valid file := by
  intro name pin hpin
  cases disk with
  | pins entries =>
    obtain ⟨_, hcheck, h⟩ := bind_eq_ok.mp h
    obtain rfl := Except.ok.inj h
    rw [OrderedMap.get_mapValues, Option.map_eq_some_iff] at hpin
    obtain ⟨stored, hstored, rfl⟩ := hpin
    obtain ⟨hname, domainKey, key, hdomainKey, hkey⟩ :=
      checkEntries_eq_ok_iff.mp hcheck _ (OrderedMap.mem_entries_iff.mpr hstored)
    refine ⟨hname, key, ?_⟩
    rw [StoredPin.load, hdomainKey]
    exact hkey
  | absent =>
    obtain rfl := Except.ok.inj h
    simp at hpin
  | _ => simp [read] at h

/-- What is written is read back. -/
lemma read_write {file : PinFile} (h : Valid file) :
    read pinsPath (write file) = .ok file := by
  refine bind_eq_ok.mpr ⟨(), checkEntries_eq_ok_iff.mpr ?_, ?_⟩
  · intro e he
    obtain ⟨⟨name, pin⟩, hpin, rfl⟩ := List.mem_map.mp he
    obtain ⟨hname, key, hkey⟩ := h name pin (OrderedMap.mem_entries_iff.mp hpin)
    exact ⟨hname, pin.domainKey, key, rfl, hkey⟩
  · obtain ⟨entries, hnodup⟩ := file
    simp [OrderedMap.mapValues, Function.comp_def, StoredPin.load, Pin.store]

lemma get_of_read {disk : PinDisk} {file : PinFile} (h : read pinsPath disk = .ok file)
    (name : String) : get pinsPath disk name = file.get name := by
  rw [get, h]

lemma get_write {file : PinFile} (h : Valid file) (name : String) :
    get pinsPath (write file) name = file.get name :=
  get_of_read (read_write h) name

/-- A pin that can be read has a key. -/
lemma parse_of_get {disk : PinDisk} {name : String} {pin : Pin}
    (h : get pinsPath disk name = some pin) :
    ∃ key, parsePublicKey (.text pin.domainKey) = .ok key := by
  unfold get at h
  split at h
  · contradiction
  next file hfile => exact (valid_of_read hfile name pin h).2

/-! ### What a call does to the file -/

/-- The pin of the name is the one decided on, where there is one, and no other changes. -/
lemma get_stored {disk : PinDisk} {file : PinFile} {name : String} {pin : Option Pin}
    (hfile : read pinsPath disk = .ok file) (hpin : ∀ p, pin = some p →
      isValidScope name = true ∧ ∃ key, parsePublicKey (.text p.domainKey) = .ok key)
    (other : String) : get pinsPath (stored disk file name pin) other =
      if other = name then pin.or (file.get name) else file.get other := by
  cases pin with
  | none =>
    rw [stored, get_of_read hfile, Option.none_or]
    split
    · next h => rw [h]
    · rfl
  | some p =>
    obtain ⟨hname, hkey⟩ := hpin p rfl
    rw [stored, Option.some_or]
    split
    · rw [get_write (OrderedMap.forall_set (valid_of_read hfile) ⟨hname, hkey⟩), OrderedMap.get_set]
      simp [eq_comm]
    · next hsame =>
      rw [get_of_read hfile]
      split
      · next h => rw [h, not_not.mp hsame]
      · rfl

variable (pinsPath) in
/-- A call either throws and leaves the file, or stores what the decision says of the pin. -/
lemma update_cases (disk : PinDisk) (name : String)
    (decide : Option Pin → Except ε (Option Pin × α)) :
    (∃ e, update pinsPath disk name decide = (disk, .error e)) ∨
    ∃ file pin result, read pinsPath disk = .ok file ∧ decide (file.get name) = .ok (pin, result) ∧
      update pinsPath disk name decide = (stored disk file name pin, .ok result) := by
  unfold update
  split
  · exact .inl ⟨_, rfl⟩
  next file hfile =>
  split
  · exact .inl ⟨_, rfl⟩
  · next pin result hdecide => exact .inr ⟨file, pin, result, hfile, hdecide, rfl⟩

variable (pinsPath) in
/-- Forgetting a name leaves every other. A file that cannot be read is left, and has no pins. -/
lemma forget_cases (disk : PinDisk) (name : String) :
    (∃ e, forget pinsPath disk name = (disk, .error e) ∧
      ∀ other, get pinsPath disk other = none) ∨
    ∃ found, (forget pinsPath disk name).2 = .ok found ∧
      ∀ other, get pinsPath (forget pinsPath disk name).1 other =
        if other = name then none else get pinsPath disk other := by
  unfold forget
  split
  · next e he => exact .inl ⟨e, rfl, fun other => by rw [get, he]⟩
  next file hfile =>
  rw [show get pinsPath disk = file.get from funext (get_of_read hfile)]
  right
  split
  · next hnone =>
    refine ⟨false, rfl, fun other => ?_⟩
    rw [get_of_read hfile]
    split
    · next h => rw [h, Option.isNone_iff_eq_none.mp hnone]
    · rfl
  · refine ⟨true, rfl, fun other => ?_⟩
    rw [get_write (OrderedMap.forall_delete (valid_of_read hfile)), OrderedMap.get_delete]
    simp [eq_comm]

end Tnp.Client.Pins
