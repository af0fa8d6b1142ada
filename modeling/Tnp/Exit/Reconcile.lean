import Mathlib.Data.List.Sort
import Mathlib.Data.String.Basic
import Tnp.Lib.Holdings
import Tnp.Namespace.Policy
import Tnp.SharedTypes.Vpn

/-!
Peer reconciliation: from the peers an exit has to the peers it must have.

The plan and the argument lists are what the agent computes. What `wg` does with them is not part
of this code.
-/

namespace Tnp.Exit

open Tnp.Lib Tnp.SharedTypes Tnp.Namespace

/-! ### Shapes -/

def isBase64Char (c : Char) : Bool := c.isAlphanum || c == '+' || c == '/'

/-- `KEY_RE`. -/
def matchesKey (key : String) : Bool :=
  let cs := key.toList
  cs.length == 44 && cs.getLast? == some '=' && cs.dropLast.all isBase64Char

/-- `IFACE_RE`. -/
def matchesIface (iface : String) : Bool :=
  let cs := iface.toList
  cs.head?.any Char.isAlphanum && cs.length ≤ 15 &&
    cs.all fun c => c.isAlphanum || c == '_' || c == '.' || c == '-'

def isAddressChar (c : Char) : Bool := isHexDigit c || c == '.' || c == ':'

/-- `PREFIX_RE`. -/
def matchesPrefix (ip : String) : Bool :=
  match ip.toList.splitOn '/' with
  | [address, length] =>
    !address.isEmpty && address.all isAddressChar && !length.isEmpty && length.length ≤ 3 &&
      length.all Char.isDigit
  | _ => false

def PEERS_PER_COMMAND : ℕ := 100

inductive PeerChange
  | set (publicKey : String) (allowedIps : List String)
  | remove (publicKey : String)
  deriving DecidableEq, Repr

/-- Public key to its allowed IPs, sorted. -/
abbrev ActualPeers := OrderedMap String (List String)

/-- All that is sorted here is ASCII, of which the order of characters is that of units. -/
def sortTexts (texts : List String) : List String := texts.insertionSort (· ≤ ·)

/-! ### What `wg` prints -/

/-- What `.` does not match. -/
def isLineTerminator (c : Char) : Bool := [0x0a, 0x0d, 0x2028, 0x2029].contains c.toNat

/-- The runs of characters between blanks. -/
def words (cs : List Char) : List String :=
  ((cs.splitOnP isSpace).filter (· ≠ [])).map String.ofList

/-- A key, blanks, and the rest of the line without the blanks at its end. -/
def matchLine (line : List Char) : Option (String × List Char) :=
  let cs := line.rdropWhile isSpace
  let key := String.ofList (cs.take 44)
  let rest := (cs.drop 44).dropWhile isSpace
  if matchesKey key && (cs.drop 44).head?.any isSpace && !rest.isEmpty &&
      !rest.any isLineTerminator then
    some (key, rest)
  else none

def parseLine (peers : ActualPeers) (line : List Char) : Except String ActualPeers :=
  if line.all isSpace then .ok peers
  else
    match matchLine line with
    | none => .error "unexpected line in wg allowed-ips output"
    | some (key, rest) =>
      if peers.has key then .error "unexpected line in wg allowed-ips output"
      else
        let ips := if rest = "(none)".toList then [] else words rest
        if !ips.all matchesPrefix then .error "unexpected prefix in wg allowed-ips output"
        else .ok (peers.set key (sortTexts ips))

/-- The peers of an interface. What is not in the documented form is an error. -/
def parseWgAllowedIps (output : String) : Except String ActualPeers :=
  (output.toList.splitOn '\n').foldlM parseLine {}

/-! ### The plan -/

/-- Exactly its two host addresses. -/
def allowedIpsFor (peer : ExitPeer) : List String :=
  sortTexts [peer.ipv4 ++ "/32", peer.ipv6 ++ "/128"]

def wantedPeers (desired : List ExitPeer) : OrderedMap String (List String) :=
  .ofList (desired.map fun peer => (peer.publicKey, allowedIpsFor peer))

def joinIps (ips : List String) : String := ",".intercalate ips

/-- A peer that must be set, because it is missing or has other addresses. -/
def setChange (actual : ActualPeers) (entry : String × List String) : Option PeerChange :=
  match actual.get entry.1 with
  | none => some (.set entry.1 entry.2)
  | some current =>
    if joinIps current ≠ joinIps entry.2 then some (.set entry.1 entry.2) else none

/-- Removals first, then every peer that is missing or whose addresses differ. -/
def planPeerChanges (desired : List ExitPeer) (actual : ActualPeers) : List PeerChange :=
  let wanted := wantedPeers desired
  ((sortTexts (actual.entries.map Prod.fst)).filter fun key => !wanted.has key).map .remove ++
    (wanted.entries.insertionSort fun a b => a.1 ≤ b.1).filterMap (setChange actual)

/-! ### Argument lists -/

/-- The arguments for one peer. -/
def peerArgs (change : PeerChange) : Except String (List String) :=
  match change with
  | .remove publicKey =>
    if !matchesKey publicKey then .error "invalid public key"
    else .ok ["peer", publicKey, "remove"]
  | .set publicKey allowedIps =>
    if !matchesKey publicKey then .error "invalid public key"
    else if allowedIps.isEmpty || !allowedIps.all matchesPrefix then .error "invalid allowed IPs"
    else .ok ["peer", publicKey, "allowed-ips", joinIps allowedIps]

/-- The changes, so many at a time. -/
def slices (changes : List PeerChange) : List (List PeerChange) :=
  (List.range ((changes.length + (PEERS_PER_COMMAND - 1)) / PEERS_PER_COMMAND)).map fun i =>
    (changes.drop (i * PEERS_PER_COMMAND)).take PEERS_PER_COMMAND

def wgSetCommands (iface : String) (changes : List PeerChange) :
    Except String (List (List String)) :=
  if !matchesIface iface then .error "invalid interface name"
  else
    (slices changes).mapM fun slice => do
      let args ← slice.mapM peerArgs
      .ok ("set" :: iface :: args.flatten)

/-! ### What is read of an interface -/

lemma perm_sortTexts (texts : List String) : (sortTexts texts).Perm texts :=
  List.perm_insertionSort _ texts

/-- Texts in another order are sorted the same. -/
lemma sortTexts_eq_of_perm {s t : List String} (h : s.Perm t) : sortTexts s = sortTexts t :=
  List.Perm.eq_of_sortedLE List.sortedLE_insertionSort List.sortedLE_insertionSort
    ((perm_sortTexts s).trans (h.trans (perm_sortTexts t).symm))

lemma sortTexts_idempotent (texts : List String) :
    sortTexts (sortTexts texts) = sortTexts texts :=
  sortTexts_eq_of_perm (perm_sortTexts texts)

/-- Only keys and prefixes of the expected form are read. -/
structure WellFormed (peers : ActualPeers) : Prop where
  keys : ∀ key ips, peers.get key = some ips → matchesKey key = true
  prefixes : ∀ key ips, peers.get key = some ips → ∀ ip ∈ ips, matchesPrefix ip = true
  sorted : ∀ key ips, peers.get key = some ips → sortTexts ips = ips

lemma WellFormed.parseLine {peers peers' : ActualPeers} {line : List Char}
    (hpeers : WellFormed peers) (h : parseLine peers line = .ok peers') : WellFormed peers' := by
  unfold Exit.parseLine at h
  split at h
  · exact Except.ok.inj h ▸ hpeers
  split at h
  · simp at h
  · next key rest hmatch =>
    rw [check_eq_ok, check_eq_ok] at h
    obtain ⟨-, hips, h⟩ := h
    obtain rfl := Except.ok.inj h
    simp only [Bool.not_eq_true', Bool.not_eq_false, List.all_eq_true] at hips
    have hkey : matchesKey key = true := by
      unfold matchLine at hmatch
      dsimp only at hmatch
      split at hmatch
      · next hchecks =>
        obtain ⟨rfl, -⟩ := Prod.mk.inj (Option.some.inj hmatch)
        simp only [Bool.and_eq_true] at hchecks
        exact hchecks.1.1.1
      · simp at hmatch
    refine ⟨OrderedMap.forall_set (P := fun key _ => matchesKey key = true) hpeers.keys hkey,
      OrderedMap.forall_set (P := fun _ ips => ∀ ip ∈ ips, matchesPrefix ip = true)
        hpeers.prefixes fun ip hip => hips ip ((perm_sortTexts _).mem_iff.mp hip),
      OrderedMap.forall_set (P := fun _ ips => sortTexts ips = ips) hpeers.sorted
        (sortTexts_idempotent _)⟩

lemma wellFormed_of_parse {output : String} {actual : ActualPeers}
    (h : parseWgAllowedIps output = .ok actual) : WellFormed actual := by
  refine foldlM_invariant (P := WellFormed) (fun _ _ _ => WellFormed.parseLine) ?_ h
  exact ⟨by simp, by simp, by simp⟩

/-! ### Keys that are accepted can be written -/

lemma isBase64Char_encodeDigit (n : ℕ) : isBase64Char (Crypto.encodeDigit n) = true := by
  have key : ∀ i : Fin 64, isBase64Char (Crypto.ALPHABET.getD i 'A') = true := by decide +kernel
  exact key ⟨n % 64, by omega⟩

/-- Bytes that leave a group of two have one character of padding. -/
lemma encodeGroups_shape (n : ℕ) {bytes : Bytes} (h : bytes.length = 3 * n + 2) :
    ∃ cs, Crypto.encodeGroups bytes = cs ++ ['='] ∧ cs.length = 4 * n + 3 ∧
      ∀ c ∈ cs, isBase64Char c = true := by
  induction n generalizing bytes with
  | zero =>
    obtain ⟨a, b, rfl⟩ := List.length_eq_two.mp h
    refine ⟨[_, _, _], by rw [Crypto.encodeGroups]; rfl, rfl, ?_⟩
    simp [isBase64Char_encodeDigit]
  | succ n ih =>
    rcases bytes with _ | ⟨a, _ | ⟨b, _ | ⟨c, rest⟩⟩⟩
    iterate 3 · grind
    · obtain ⟨cs, hcs, hlength, hchars⟩ := @ih rest (by grind)
      refine ⟨_ :: _ :: _ :: _ :: cs, by rw [Crypto.encodeGroups, hcs]; rfl, ?_, ?_⟩
      · simp only [List.length_cons, hlength]
        omega
      · simpa [isBase64Char_encodeDigit] using hchars

variable {nacl : Crypto.KeyAgreement.Nacl}

/-- A key that is accepted has the form in which `wg` prints keys. -/
lemma matchesKey_of_valid {key : String} (h : isValidWireGuardPublicKey nacl (.string key) = true) :
    matchesKey key = true := by
  simp only [isValidWireGuardPublicKey, Bool.and_eq_true] at h
  cases hparse : Crypto.parsePublicKey (.text key) with
  | error e => simp [hparse] at h
  | ok parsed =>
    obtain ⟨cs, hcs, hlength, hchars⟩ := encodeGroups_shape 10 parsed.property
    have htext : key.toList = cs ++ ['='] := by
      rw [← Crypto.encodeBase64_of_parse hparse, Crypto.encodeBase64, String.toList_ofList, hcs]
    simp [matchesKey, htext, hlength, List.all_eq_true.mpr hchars]

/-! ### Addresses that are accepted can be written -/

lemma isAddressChar_of_isDigit {c : Char} (h : c.isDigit = true) : isAddressChar c = true := by
  simp [isAddressChar, isHexDigit, h]

/-- A prefix is address characters, a slash and digits. -/
lemma matchesPrefix_append {address length : String} (hne : address ≠ "")
    (haddress : ∀ c ∈ address.toList, isAddressChar c = true)
    (hlength : length ∈ ["/32", "/128"]) : matchesPrefix (address ++ length) = true := by
  have hslash : '/' ∉ address.toList := fun hmem => absurd (haddress '/' hmem) (by decide)
  have hne' : address.toList ≠ [] := fun h => hne (String.toList_eq_nil_iff.mp h)
  simp only [List.mem_cons, List.not_mem_nil, or_false] at hlength
  rcases hlength with rfl | rfl
  · have hsplit : (address ++ "/32").toList.splitOn '/' = [address.toList, "32".toList] := by
      rw [String.toList_append]
      exact List.splitOn_append_cons_self_of_not_mem hslash _
    rw [matchesPrefix, hsplit]
    simp [hne', List.all_eq_true.mpr haddress]
  · have hsplit : (address ++ "/128").toList.splitOn '/' = [address.toList, "128".toList] := by
      rw [String.toList_append]
      exact List.splitOn_append_cons_self_of_not_mem hslash _
    rw [matchesPrefix, hsplit]
    simp [hne', List.all_eq_true.mpr haddress]

lemma mem_allowedIpsFor {peer : ExitPeer} {ip : String} :
    ip ∈ allowedIpsFor peer ↔ ip = peer.ipv4 ++ "/32" ∨ ip = peer.ipv6 ++ "/128" := by
  rw [allowedIpsFor, sortTexts, List.mem_insertionSort]
  simp

lemma allowedIpsFor_ne_nil (peer : ExitPeer) : allowedIpsFor peer ≠ [] := fun h => by
  have hmem : peer.ipv4 ++ "/32" ∈ allowedIpsFor peer := mem_allowedIpsFor.mpr (.inl rfl)
  simp [h] at hmem

lemma isAddressChar_ipv4 {peer : ExitPeer} (h : peer.Valid nacl) :
    ∀ c ∈ peer.ipv4.toList, isAddressChar c = true := by
  intro c hc
  obtain ⟨index, hindex, -⟩ := vpnIpv6ForIpv4_eq_ok h.ipv6
  rcases mem_of_vpnIndexOfIpv4 hindex hc with hdigit | rfl
  · exact isAddressChar_of_isDigit hdigit
  · decide

lemma isAddressChar_ipv6 {peer : ExitPeer} (h : peer.Valid nacl) :
    ∀ c ∈ peer.ipv6.toList, isAddressChar c = true := by
  intro c hc
  obtain ⟨index, -, hipv6⟩ := vpnIpv6ForIpv4_eq_ok h.ipv6
  rw [hipv6, String.toList_append, String.toList_ofList] at hc
  rcases List.mem_append.mp hc with hc | hc
  · have hstart : VPN_IPV6_PREFIX.toList.all isAddressChar = true := by decide
    exact List.all_eq_true.mp hstart c hc
  · simp [isAddressChar, isHexDigit_of_mem hc]

lemma ipv4_ne_empty {peer : ExitPeer} (h : peer.Valid nacl) : peer.ipv4 ≠ "" := by
  obtain ⟨index, hindex, -⟩ := vpnIpv6ForIpv4_eq_ok h.ipv6
  obtain ⟨a, b, c, d, hsplit, -⟩ := vpnIndexOfIpv4_eq_some hindex
  intro hempty
  simp [hempty] at hsplit

lemma ipv6_ne_empty {peer : ExitPeer} (h : peer.Valid nacl) : peer.ipv6 ≠ "" := by
  obtain ⟨index, -, hipv6⟩ := vpnIpv6ForIpv4_eq_ok h.ipv6
  intro hempty
  have hlength := congrArg String.length (hipv6.symm.trans hempty)
  simp [VPN_IPV6_PREFIX] at hlength

lemma matchesPrefix_of_mem {peer : ExitPeer} (h : peer.Valid nacl) {ip : String}
    (hip : ip ∈ allowedIpsFor peer) : matchesPrefix ip = true := by
  rcases mem_allowedIpsFor.mp hip with rfl | rfl
  · exact matchesPrefix_append (ipv4_ne_empty h) (isAddressChar_ipv4 h) (by simp)
  · exact matchesPrefix_append (ipv6_ne_empty h) (isAddressChar_ipv6 h) (by simp)

/-- Peers that share an address are one peer. -/
lemma eq_of_mem_allowedIpsFor {desired : List ExitPeer} (h : Listed nacl desired) {p q : ExitPeer}
    (hp : p ∈ desired) (hq : q ∈ desired) {ip : String} (hip : ip ∈ allowedIpsFor p)
    (hiq : ip ∈ allowedIpsFor q) : p = q := by
  have hlast {s t : String} : s ++ "/32" ≠ t ++ "/128" := fun heq => by
    have hchars := congrArg (fun u => u.toList.getLast?) heq
    simp at hchars
  have hsame : p.ipv4 = q.ipv4 := by
    rcases mem_allowedIpsFor.mp hip with rfl | rfl <;>
      rcases mem_allowedIpsFor.mp hiq with heq | heq
    · exact (String.append_left_inj _).mp heq
    · exact absurd heq hlast
    · exact absurd heq.symm hlast
    · have hsix := (String.append_left_inj _).mp heq
      exact vpnIpv6ForIpv4_injective (h.valid p hp).ipv6 (hsix ▸ (h.valid q hq).ipv6)
  exact List.inj_on_of_nodup_map h.addresses hp hq hsame

/-! ### The plan and its arguments -/

lemma wantedPeers_get {desired : List ExitPeer} (h : Listed nacl desired) {key : String}
    {ips : List String} : (wantedPeers desired).get key = some ips ↔
      ∃ peer ∈ desired, peer.publicKey = key ∧ allowedIpsFor peer = ips := by
  rw [wantedPeers, OrderedMap.get_ofList (by simpa [Function.comp_def] using h.keys)]
  simp

/-- Only address characters and slashes stand in a prefix, and none is empty. -/
lemma chars_of_matchesPrefix {ip : String} (h : matchesPrefix ip = true) :
    (∀ c ∈ ip.toList, isAddressChar c = true ∨ c = '/') ∧ ip ≠ "" := by
  unfold matchesPrefix at h
  split at h
  · next address length hsplit =>
    simp only [Bool.and_eq_true, Bool.not_eq_true', List.isEmpty_eq_false_iff,
      decide_eq_true_eq, List.all_eq_true] at h
    obtain ⟨⟨⟨⟨-, haddress⟩, -⟩, -⟩, hlength⟩ := h
    have hjoin : ['/'].intercalate (ip.toList.splitOn '/') = ip.toList :=
      List.intercalate_splitOn '/'
    constructor
    · rw [← hjoin, hsplit]
      simp only [List.intercalate_cons_cons, List.intercalate_singleton, List.mem_append,
        List.mem_singleton]
      rintro c ((hmem | hmem) | hmem)
      · exact .inl (haddress c hmem)
      · exact .inr hmem
      · exact .inl (isAddressChar_of_isDigit (hlength c hmem))
    · rintro rfl
      simp at hsplit
  · simp at h

def splitIps (ips : String) : List String := (ips.toList.splitOn ',').map String.ofList

lemma splitIps_joinIps {ips : List String} (hne : ips ≠ [])
    (h : ∀ ip ∈ ips, matchesPrefix ip = true) : splitIps (joinIps ips) = ips := by
  have hsplit : (joinIps ips).toList.splitOn ',' = ips.map String.toList := by
    rw [joinIps, String.toList_intercalate]
    refine List.splitOn_intercalate ',' ?_ (by simpa using hne)
    intro cs hcs
    obtain ⟨ip, hip, rfl⟩ := List.mem_map.mp hcs
    intro hcomma
    rcases (chars_of_matchesPrefix (h ip hip)).1 ',' hcomma with hc | hc
    · exact absurd hc (by decide)
    · exact absurd hc (by decide)
  rw [splitIps, hsplit]
  simp [Function.comp_def]

/-- Lists of prefixes that are joined to the same text are the same. -/
lemma joinIps_injective {s t : List String} (hs : ∀ ip ∈ s, matchesPrefix ip = true)
    (ht : ∀ ip ∈ t, matchesPrefix ip = true) (hne : t ≠ []) (h : joinIps s = joinIps t) :
    s = t := by
  have hback : splitIps (joinIps s) = t := h ▸ splitIps_joinIps hne ht
  cases s with
  | nil =>
    subst hback
    exact absurd rfl (chars_of_matchesPrefix (ht "" (by decide))).2
  | cons ip rest => exact (splitIps_joinIps (by simp) hs).symm.trans hback

/-- What is written of a change. -/
def argsOf : PeerChange → List String
  | .remove publicKey => ["peer", publicKey, "remove"]
  | .set publicKey allowedIps => ["peer", publicKey, "allowed-ips", joinIps allowedIps]

def PeerChange.publicKey : PeerChange → String
  | .remove publicKey => publicKey
  | .set publicKey _ => publicKey

/-- A change of which every value has the expected form. -/
def PeerChange.Writable : PeerChange → Prop
  | .remove publicKey => matchesKey publicKey = true
  | .set publicKey allowedIps => matchesKey publicKey = true ∧ allowedIps ≠ [] ∧
      ∀ ip ∈ allowedIps, matchesPrefix ip = true

lemma peerArgs_eq_ok {change : PeerChange} (h : change.Writable) :
    peerArgs change = .ok (argsOf change) := by
  cases change with
  | remove key =>
    have hkey : matchesKey key = true := h
    simp [peerArgs, argsOf, hkey]
  | set key ips =>
    obtain ⟨hkey, hne, hips⟩ := h
    simp [peerArgs, argsOf, hkey, hne, List.all_eq_true.mpr hips]

lemma flatten_range_slices {α : Type*} (l : List α) (n m : ℕ) :
    ((List.range m).map fun i => (l.drop (i * n)).take n).flatten = l.take (m * n) := by
  induction m with
  | zero => simp
  | succ m ih =>
    rw [List.range_succ, List.map_append, List.flatten_append, ih, Nat.succ_mul, List.take_add]
    simp

/-- The slices are the changes, in order. -/
lemma flatten_slices (changes : List PeerChange) : (slices changes).flatten = changes := by
  rw [slices, flatten_range_slices]
  refine List.take_of_length_le ?_
  unfold PEERS_PER_COMMAND
  omega

lemma wgSetCommands_eq_ok {iface : String} {changes : List PeerChange}
    (hiface : matchesIface iface = true) (h : ∀ c ∈ changes, c.Writable) :
    wgSetCommands iface changes =
      .ok ((slices changes).map fun slice => "set" :: iface :: slice.flatMap argsOf) := by
  unfold wgSetCommands
  simp only [hiface, Bool.not_true, Bool.false_eq_true, if_false]
  refine mapM_eq_ok fun slice hslice => ?_
  have hargs : slice.mapM peerArgs = .ok (slice.map argsOf) := by
    refine mapM_eq_ok fun c hc => peerArgs_eq_ok (h c ?_)
    rw [← flatten_slices changes]
    exact List.mem_flatten.mpr ⟨slice, hslice, hc⟩
  rw [hargs]
  rfl

end Tnp.Exit
