import Tnp.Lib.OrderedMap
import Tnp.Lib.Run
import Tnp.SharedTypes.Relays

/-!
The client's view of the signed relay directory, and the state file its processes share.

A refresh is three steps: it loads the marks, and waits for the network; it judges what came by the
marks it loaded; it merges what it accepted into the file, under the lock.
-/

namespace Tnp.Client.RelayDirectory

open Tnp.Lib Tnp.Crypto Tnp.Crypto.Grants Tnp.Crypto.RelayDirectory Tnp.SharedTypes

abbrev Marks := OrderedMap String ℕ

/-- The mark of a key; none is zero. -/
def markOf (marks : Marks) (key : String) : ℕ := (marks.get key).getD 0

structure DirectoryState where
  /-- Highest serial accepted on this device, per signing key (hex). -/
  marks : Marks := ⟨[], List.nodup_nil⟩
  /-- The last verified document. -/
  document : Option SignedRelayDirectory := none

def marksOf (state : Option DirectoryState) : Marks :=
  (state.map DirectoryState.marks).getD ⟨[], List.nodup_nil⟩

def raise (marks : Marks) (key : String) (serial : ℕ) : Marks :=
  marks.set key (max (markOf marks key) serial)

/-- Marks only ever rise; the newer document wins. -/
def mergeStates (current : Option DirectoryState) (next : DirectoryState) : DirectoryState where
  marks := next.marks.entries.foldl (fun marks e => raise marks e.1 e.2) (marksOf current)
  document :=
    match current.bind DirectoryState.document, next.document with
    | some a, some b => if b.issuedAt < a.issuedAt then some a else some b
    | some a, none => some a
    | none, b => b

structure Options where
  verify : Verifier
  parseUrl : UrlParser
  trustedKeys : List Bytes
  allowNonPublicEndpoints : Bool := false
  refreshAfterSeconds : ℤ := 10 * 60

structure Held where
  directory : VerifiedRelayDirectory
  fetchedAt : ℤ

inductive Refresh
  /-- The state and the marks were read, after so many merges, and the request is out. -/
  | fetching (state : Option DirectoryState) (marks : Marks) (merges : ℕ)
  /-- A fetched directory is held, and about to be merged into the file. -/
  | accepting (directory : VerifiedRelayDirectory)

structure Client where
  held : Option Held := none
  refreshing : Option Refresh := none

abbrev ClientId := ℕ

structure Device where
  file : Option DirectoryState := none
  clients : OrderedMap ClientId Client := ⟨[], List.nodup_nil⟩
  /-- The key and the serial of each merge, newest first; never read. -/
  merges : List (String × ℕ) := []

/-- How a refresh ends. -/
inductive Outcome
  | fetched (directory : VerifiedRelayDirectory)
  | cached (directory : VerifiedRelayDirectory)
  | refused (problem : String)

def Outcome.directory : Outcome → Option VerifiedRelayDirectory
  | fetched directory => some directory
  | cached directory => some directory
  | refused _ => none

section

variable (options : Options)

/-- Rollback is judged against what this key has signed before. -/
def verify (now : ℤ) (marks : Marks) (body : Value) :
    Except RelayDirectoryFailure VerifiedRelayDirectory := do
  let directory ← verifySignedRelayDirectory options.verify options.parseUrl body
    { now := now
      trustedKeys := options.trustedKeys
      allowNonPublicEndpoints := options.allowNonPublicEndpoints }
  if directory.serial.val < markOf marks (toHex directory.signedBy) then
    .error (.rejected .rolledBack)
  else .ok directory

/-- The marks that a client judges by: those it loaded, and that of what it holds. -/
def loadedMarks (client : Client) (state : Option DirectoryState) : Marks :=
  match client.held with
  | some held => raise (marksOf state) (toHex held.directory.signedBy) held.directory.serial.val
  | none => marksOf state

/-- The newest verified document there is, re-verified now. -/
def fromCache (client : Client) (state : Option DirectoryState) (now : ℤ) (marks : Marks) :
    Option VerifiedRelayDirectory :=
  let cached := (client.held.map fun held => held.directory.document).toList ++
    (state.bind DirectoryState.document).toList
  cached.findSome? fun document => (verify options now marks document.value).toOption

/-- What the answer of the API comes to; an error of the fetch is its message. -/
def settle (client : Client) (state : Option DirectoryState) (marks : Marks) (now : ℤ)
    (answer : Except String Value) : Outcome :=
  let fallback (problem : String) :=
    match fromCache options client state now marks with
    | some directory => .cached directory
    | none => .refused ("no verified relay directory: " ++ problem)
  match answer with
  | .error message => fallback ("could not fetch the relay directory: " ++ message)
  | .ok body =>
    match verify options now marks body with
    | .ok directory => .fetched directory
    | .error reason => fallback (describeDirectoryRejection reason)

end

inductive Event
  /-- `get` by a client; the file may be unreadable, which is thrown. -/
  | get (c : ClientId) (now : ℤ) (readable : Bool)
  | answered (c : ClientId) (now : ℤ) (answer : Except String Value)
  /-- The merge under the lock; it may fail, which is logged. -/
  | merge (c : ClientId) (written : Bool)

namespace Device

variable (options : Options) (d : Device)

def client (c : ClientId) : Client := (d.clients.get c).getD {}

def setClient (c : ClientId) (client : Client) : Device :=
  { d with clients := d.clients.set c client }

/-- The held directory is still to be used. -/
def fresh (client : Client) (now : ℤ) : Bool :=
  client.held.any fun held =>
    now < held.directory.expiresAt.val ∧ now - held.fetchedAt < options.refreshAfterSeconds

/-- How the refresh that an event answers ends. -/
def outcome : Event → Option Outcome
  | .answered c now answer =>
    match (d.client c).refreshing with
    | some (.fetching state marks _) => some (settle options (d.client c) state marks now answer)
    | _ => none
  | _ => none

def step : Event → Device
  | .get c now readable =>
    let client := d.client c
    if fresh options client now ∨ client.refreshing.isSome ∨ ¬ readable then d
    else
      d.setClient c { client with
        refreshing := some (.fetching d.file (loadedMarks client d.file) d.merges.length) }
  | .answered c now answer =>
    let client := d.client c
    match d.outcome options (.answered c now answer) with
    | some (.fetched directory) =>
      d.setClient c ⟨some ⟨directory, now⟩, some (.accepting directory)⟩
    | some (.cached directory) => d.setClient c ⟨some ⟨directory, now⟩, none⟩
    | some (.refused _) => d.setClient c { client with refreshing := none }
    | none => d
  | .merge c written =>
    let client := d.client c
    match client.refreshing with
    | some (.accepting directory) =>
      let key := toHex directory.signedBy
      let d' := d.setClient c { client with refreshing := none }
      if written then
        { d' with
          file := some (mergeStates d.file
            { marks := .ofList [(key, directory.serial.val)]
              document := some directory.document })
          merges := (key, directory.serial.val) :: d.merges }
      else d'
    | _ => d

end Device

end Tnp.Client.RelayDirectory
