import Tnp.Crypto.KeyAgreement
import Tnp.SharedTypes.KeyMaterial

/-!
The addresses of VPN devices, and the peer list an exit accepts.

A device has one index in the tunnel's pool, and both its addresses are texts of that index. Two
devices with different indices share neither.
-/

namespace Tnp.SharedTypes

open Tnp.Lib Tnp.Crypto Tnp.Crypto.KeyAgreement

def VPN_MIN_HOST_INDEX : ℕ := 2
def VPN_MAX_HOST_INDEX : ℕ := 65534
def VPN_MAX_DEVICES_PER_USER : ℕ := 10

/-! ### Addresses -/

/-- A number up to 255 without leading zeros. -/
def isIpv4Part (part : List Char) : Bool :=
  (part == ['0'] || (part.head?.any (fun c => '1' ≤ c && c ≤ '9') && part.all Char.isDigit &&
    part.length ≤ 3)) && Nat.ofDigitChars 10 part 0 ≤ 255

def isValidIpv4 (value : String) : Bool :=
  let parts := value.toList.splitOn '.'
  parts.length == 4 && parts.all isIpv4Part

/-- The IPv4 tunnel address of a host index, whatever the index. -/
def vpnIpv4ForIndex (index : ℕ) : String :=
  s!"10.77.{index >>> 8 &&& 0xff}.{index &&& 0xff}"

/-- The host index of a device address. -/
def vpnIndexOfIpv4 (ipv4 : Value) : Option ℕ :=
  match ipv4 with
  | .string s =>
    if !isValidIpv4 s then none
    else
      match (s.toList.splitOn '.').map fun part => Nat.ofDigitChars 10 part 0 with
      | [a, b, c, d] =>
        if a ≠ 10 ∨ b ≠ 77 then none
        else
          let index := c <<< 8 ||| d
          if VPN_MIN_HOST_INDEX ≤ index ∧ index ≤ VPN_MAX_HOST_INDEX then some index else none
      | _ => none
  | _ => none

def VPN_IPV6_PREFIX : String := "fd85:d596:af02::a4d:"

/-- The IPv6 address that an IPv4 device address maps to. -/
def vpnIpv6ForIpv4 (ipv4 : String) : Except String String :=
  match vpnIndexOfIpv4 (.string ipv4) with
  | none => .error "not a VPN device address"
  | some index => .ok (VPN_IPV6_PREFIX ++ String.ofList (Nat.toDigits 16 index))

def isVpnDeviceIpv4 (value : Value) : Bool := (vpnIndexOfIpv4 value).isSome

def isHexDigit (c : Char) : Bool := c.isDigit || ('a' ≤ c && c ≤ 'f')

/-- `Number.parseInt` of hexadecimal digits. -/
def hexValue (digits : List Char) : ℕ :=
  digits.foldl (fun n c => 16 * n + if c.isDigit then c.toNat - 48 else c.toNat - 87) 0

def isVpnDeviceIpv6 (value : Value) : Bool :=
  match value with
  | .string s =>
    let digits := s.toList.drop VPN_IPV6_PREFIX.length
    VPN_IPV6_PREFIX.toList.isPrefixOf s.toList && 1 ≤ digits.length && digits.length ≤ 4 &&
      digits.all isHexDigit && !(1 < digits.length && digits.head? == some '0') &&
      VPN_MIN_HOST_INDEX ≤ hexValue digits && hexValue digits ≤ VPN_MAX_HOST_INDEX
  | _ => false

/-! ### The peer list -/

/-- One peer an exit must accept. -/
structure ExitPeer where
  publicKey : String
  ipv4 : String
  ipv6 : String
  deriving DecidableEq, Repr

/-- The whole address pool. -/
def MAX_EXIT_PEERS : ℕ := VPN_MAX_HOST_INDEX - VPN_MIN_HOST_INDEX + 1

/-- What was accepted, and how many entries were dropped. -/
structure ParsedExitPeers where
  peers : List ExitPeer := []
  rejected : ℕ := 0
  deriving DecidableEq, Repr

variable (nacl : Nacl)

/-- Canonical base64 of a canonical point of large order. -/
def isValidWireGuardPublicKey (value : Value) : Bool :=
  match value with
  | .string s =>
    utf16Length s == 44 &&
      match parsePublicKey (.text s) with
      | .ok key => isValidX25519PublicKey nacl key
      | .error _ => false
  | _ => false

/-- An entry of the list as a peer, whatever was accepted before it. -/
def exitPeerOf (entry : Value) : Option ExitPeer :=
  match asRecord entry with
  | none => none
  | some e =>
    match Value.field e "publicKey", Value.field e "ipv4", Value.field e "ipv6" with
    | .string publicKey, .string ipv4, .string ipv6 =>
      if isValidWireGuardPublicKey nacl (.string publicKey) && isVpnDeviceIpv4 (.string ipv4) &&
          isVpnDeviceIpv6 (.string ipv6) && vpnIpv6ForIpv4 ipv4 == .ok ipv6 then
        some ⟨publicKey, ipv4, ipv6⟩
      else none
    | _, _, _ => none

/-- An entry that is malformed, or claims a key or an address already listed, is dropped on its
own. -/
def acceptPeer (parsed : ParsedExitPeers) (entry : Value) : ParsedExitPeers :=
  match exitPeerOf nacl entry with
  | none => { parsed with rejected := parsed.rejected + 1 }
  | some peer =>
    if (parsed.peers.map ExitPeer.publicKey).contains peer.publicKey ||
        (parsed.peers.map ExitPeer.ipv4).contains peer.ipv4 then
      { parsed with rejected := parsed.rejected + 1 }
    else { parsed with peers := parsed.peers ++ [peer] }

def parseExitPeersResponse (body : Value) : ParseResult ParsedExitPeers :=
  match asRecord body with
  | none => .error "peers must be an array"
  | some r =>
    match Value.field r "peers" with
    | .array entries =>
      if MAX_EXIT_PEERS < entries.length then .error "too many peers"
      else .ok (entries.foldl (acceptPeer nacl) {})
    | _ => .error "peers must be an array"

/-! ### An address is its index -/

lemma ofDigitChars_ten (part : List Char) :
    Nat.ofDigitChars 10 part 0 = part.foldl (fun n c => 10 * n + (c.toNat - 48)) 0 :=
  Nat.ofDigitChars_eq_foldl

lemma digit_bounds {c : Char} (h : c.isDigit = true) : 48 ≤ c.toNat ∧ c.toNat ≤ 57 := by
  simp only [Char.isDigit, Bool.and_eq_true, decide_eq_true_eq] at h
  exact ⟨h.1, h.2⟩

/-- A part has one to three digits, and more than one only after a digit other than zero. -/
lemma isIpv4Part_cases {part : List Char} (h : isIpv4Part part = true) :
    (∃ a, part = [a] ∧ 48 ≤ a.toNat ∧ a.toNat ≤ 57) ∨
    (∃ a b, part = [a, b] ∧ 49 ≤ a.toNat ∧ a.toNat ≤ 57 ∧ 48 ≤ b.toNat ∧ b.toNat ≤ 57) ∨
    ∃ a b c, part = [a, b, c] ∧ 49 ≤ a.toNat ∧ a.toNat ≤ 57 ∧ 48 ≤ b.toNat ∧ b.toNat ≤ 57 ∧
      48 ≤ c.toNat ∧ c.toNat ≤ 57 := by
  simp only [isIpv4Part, Bool.and_eq_true, Bool.or_eq_true, beq_iff_eq, decide_eq_true_eq,
    List.all_eq_true] at h
  obtain ⟨rfl | ⟨⟨hhead, hdigits⟩, hlength⟩, -⟩ := h
  · exact .inl ⟨'0', rfl, by decide⟩
  · match part with
    | [] => simp at hhead
    | [a] =>
      exact .inl ⟨a, rfl, digit_bounds (hdigits a (by simp))⟩
    | [a, b] =>
      have ha : 49 ≤ a.toNat := (by simpa using hhead : '1' ≤ a ∧ a ≤ '9').1
      exact .inr (.inl ⟨a, b, rfl, ha, (digit_bounds (hdigits a (by simp))).2,
        digit_bounds (hdigits b (by simp))⟩)
    | [a, b, c] =>
      have ha : 49 ≤ a.toNat := (by simpa using hhead : '1' ≤ a ∧ a ≤ '9').1
      exact .inr (.inr ⟨a, b, c, rfl, ha, (digit_bounds (hdigits a (by simp))).2,
        (digit_bounds (hdigits b (by simp))).1, (digit_bounds (hdigits b (by simp))).2,
        digit_bounds (hdigits c (by simp))⟩)
    | a :: b :: c :: d :: rest =>
      simp only [List.length_cons] at hlength
      omega

/-- A part is its number. -/
lemma isIpv4Part_injective {p q : List Char} (hp : isIpv4Part p = true) (hq : isIpv4Part q = true)
    (h : Nat.ofDigitChars 10 p 0 = Nat.ofDigitChars 10 q 0) : p = q := by
  rw [ofDigitChars_ten, ofDigitChars_ten] at h
  rcases isIpv4Part_cases hp with ⟨a, rfl, ha⟩ | ⟨a, b, rfl, ha⟩ | ⟨a, b, c, rfl, ha⟩ <;>
    rcases isIpv4Part_cases hq with ⟨x, rfl, hx⟩ | ⟨x, y, rfl, hx⟩ | ⟨x, y, z, rfl, hx⟩ <;>
    simp only [List.foldl_cons, List.foldl_nil] at h <;>
    simp only [List.cons.injEq, ← Char.toNat_inj, reduceCtorEq, and_true, and_false] <;> omega

lemma isIpv4Part_le {part : List Char} (h : isIpv4Part part = true) :
    Nat.ofDigitChars 10 part 0 ≤ 255 := by
  simp only [isIpv4Part, Bool.and_eq_true, decide_eq_true_eq] at h
  exact h.2

/-- A device address has four parts, of which the last two are its index. -/
lemma vpnIndexOfIpv4_eq_some {s : String} {index : ℕ}
    (h : vpnIndexOfIpv4 (.string s) = some index) :
    ∃ a b c d, s.toList.splitOn '.' = [a, b, c, d] ∧ isIpv4Part a = true ∧ isIpv4Part b = true ∧
      isIpv4Part c = true ∧ isIpv4Part d = true ∧ Nat.ofDigitChars 10 a 0 = 10 ∧
      Nat.ofDigitChars 10 b 0 = 77 ∧
      index = Nat.ofDigitChars 10 c 0 * 256 + Nat.ofDigitChars 10 d 0 ∧
      VPN_MIN_HOST_INDEX ≤ index ∧ index ≤ VPN_MAX_HOST_INDEX := by
  unfold vpnIndexOfIpv4 at h
  dsimp only at h
  split at h
  · simp at h
  next hvalid =>
  simp only [isValidIpv4, Bool.not_eq_true', Bool.not_eq_false, Bool.and_eq_true, beq_iff_eq,
    List.all_eq_true] at hvalid
  obtain ⟨hlength, hparts⟩ := hvalid
  match hsplit : s.toList.splitOn '.', hlength with
  | [a, b, c, d], _ =>
    simp only [hsplit, List.mem_cons, forall_eq_or_imp, List.not_mem_nil, false_imp_iff,
      implies_true, and_true] at hparts
    obtain ⟨ha, hb, hc, hd⟩ := hparts
    simp only [hsplit, List.map_cons, List.map_nil] at h
    split at h
    · simp at h
    next hten =>
    split at h
    · next hrange =>
      obtain rfl := Option.some.inj h
      have hlow : Nat.ofDigitChars 10 d 0 < 2 ^ 8 := Nat.lt_succ_of_le (isIpv4Part_le hd)
      rw [← Nat.shiftLeft_add_eq_or_of_lt hlow, Nat.shiftLeft_eq] at hrange
      refine ⟨a, b, c, d, rfl, ha, hb, hc, hd, by omega, by omega, ?_, ?_⟩
      · rw [← Nat.shiftLeft_add_eq_or_of_lt hlow, Nat.shiftLeft_eq]
      · rw [← Nat.shiftLeft_add_eq_or_of_lt hlow, Nat.shiftLeft_eq]
        exact hrange
    · simp at h

/-- A device address is spelled in one way. -/
lemma vpnIndexOfIpv4_injective {s t : String} {index : ℕ}
    (hs : vpnIndexOfIpv4 (.string s) = some index) (ht : vpnIndexOfIpv4 (.string t) = some index) :
    s = t := by
  obtain ⟨a, b, c, d, hsplit, ha, hb, hc, hd, ha10, hb77, hindex, -⟩ := vpnIndexOfIpv4_eq_some hs
  obtain ⟨a', b', c', d', hsplit', ha', hb', hc', hd', ha10', hb77', hindex', -⟩ :=
    vpnIndexOfIpv4_eq_some ht
  have hlow := isIpv4Part_le hd
  have hlow' := isIpv4Part_le hd'
  have ea : a = a' := isIpv4Part_injective ha ha' (by omega)
  have eb : b = b' := isIpv4Part_injective hb hb' (by omega)
  have ec : c = c' := isIpv4Part_injective hc hc' (by omega)
  have ed : d = d' := isIpv4Part_injective hd hd' (by omega)
  refine String.toList_inj.mp ?_
  calc s.toList = ['.'].intercalate (s.toList.splitOn '.') := (List.intercalate_splitOn '.').symm
    _ = ['.'].intercalate (t.toList.splitOn '.') := by rw [hsplit, hsplit', ea, eb, ec, ed]
    _ = t.toList := List.intercalate_splitOn '.'

lemma digitChar_injective {m n : ℕ} (hm : m < 16) (hn : n < 16)
    (h : m.digitChar = n.digitChar) : m = n := by
  have key : ∀ i j : Fin 16, i.val.digitChar = j.val.digitChar → i = j := by decide
  exact congrArg Fin.val (key ⟨m, hm⟩ ⟨n, hn⟩ h)

/-- A number is its hexadecimal digits. -/
lemma toDigits_injective {m n : ℕ} (h : Nat.toDigits 16 m = Nat.toDigits 16 n) : m = n := by
  induction m using Nat.strong_induction_on generalizing n with
  | h m ih =>
    rw [Nat.toDigits_eq_if (n := m) (by omega), Nat.toDigits_eq_if (n := n) (by omega)] at h
    split at h <;> split at h
    · next hm hn => exact digitChar_injective hm hn (by simpa using h)
    · have hlength := congrArg List.length h
      have := List.length_pos_iff.mpr (Nat.toDigits_ne_nil (n := n / 16) (b := 16))
      simp only [List.length_append, List.length_cons, List.length_nil] at hlength
      omega
    · have hlength := congrArg List.length h
      have := List.length_pos_iff.mpr (Nat.toDigits_ne_nil (n := m / 16) (b := 16))
      simp only [List.length_append, List.length_cons, List.length_nil] at hlength
      omega
    · obtain ⟨hhigh, hlow⟩ := List.append_inj' h rfl
      have e1 : m / 16 = n / 16 := ih (m / 16) (by omega) hhigh
      have e2 : m % 16 = n % 16 :=
        digitChar_injective (by omega) (by omega) (List.singleton_inj.mp hlow)
      omega

lemma isHexDigit_of_mem {n : ℕ} {c : Char} (h : c ∈ Nat.toDigits 16 n) : isHexDigit c = true := by
  have key : ∀ i : Fin 16, isHexDigit i.val.digitChar = true := by decide
  induction n using Nat.strong_induction_on with
  | h n ih =>
    rw [Nat.toDigits_eq_if (by omega)] at h
    split at h
    · next hn =>
      obtain rfl := List.mem_singleton.mp h
      exact key ⟨n, hn⟩
    · rcases List.mem_append.mp h with h | h
      · exact ih (n / 16) (by omega) h
      · obtain rfl := List.mem_singleton.mp h
        exact key ⟨n % 16, by omega⟩

/-- A device address is digits and dots. -/
lemma mem_of_vpnIndexOfIpv4 {s : String} {index : ℕ} (h : vpnIndexOfIpv4 (.string s) = some index)
    {c : Char} (hc : c ∈ s.toList) : c.isDigit = true ∨ c = '.' := by
  obtain ⟨a, b, x, d, hsplit, ha, hb, hx, hd, -⟩ := vpnIndexOfIpv4_eq_some h
  have hdigits {part : List Char} (hpart : isIpv4Part part = true) (hmem : c ∈ part) :
      c.isDigit = true ∨ c = '.' := by
    simp only [isIpv4Part, Bool.and_eq_true, Bool.or_eq_true, beq_iff_eq, List.all_eq_true] at hpart
    obtain ⟨rfl | ⟨⟨-, hall⟩, -⟩, -⟩ := hpart
    · exact .inl (List.mem_singleton.mp hmem ▸ rfl)
    · exact .inl (hall c hmem)
  have hjoin : ['.'].intercalate (s.toList.splitOn '.') = s.toList := List.intercalate_splitOn '.'
  rw [← hjoin, hsplit] at hc
  simp only [List.intercalate_cons_cons, List.intercalate_singleton, List.mem_append,
    List.mem_singleton] at hc
  rcases hc with (hc | hc) | hc
  · exact hdigits ha hc
  · exact .inr hc
  rcases hc with (hc | hc) | hc
  · exact hdigits hb hc
  · exact .inr hc
  rcases hc with (hc | hc) | hc
  · exact hdigits hx hc
  · exact .inr hc
  · exact hdigits hd hc

lemma vpnIpv6ForIpv4_eq_ok {ipv4 ipv6 : String} (h : vpnIpv6ForIpv4 ipv4 = .ok ipv6) :
    ∃ index, vpnIndexOfIpv4 (.string ipv4) = some index ∧
      ipv6 = VPN_IPV6_PREFIX ++ String.ofList (Nat.toDigits 16 index) := by
  unfold vpnIpv6ForIpv4 at h
  cases hindex : vpnIndexOfIpv4 (.string ipv4) with
  | none => simp [hindex] at h
  | some index =>
    simp only [hindex, Except.ok.injEq] at h
    exact ⟨index, rfl, h.symm⟩

/-- The IPv6 address of a device tells its IPv4 address. -/
lemma vpnIpv6ForIpv4_injective {s t ipv6 : String} (hs : vpnIpv6ForIpv4 s = .ok ipv6)
    (ht : vpnIpv6ForIpv4 t = .ok ipv6) : s = t := by
  obtain ⟨i, hi, rfl⟩ := vpnIpv6ForIpv4_eq_ok hs
  obtain ⟨j, hj, heq⟩ := vpnIpv6ForIpv4_eq_ok ht
  have hlists := congrArg String.toList heq
  simp only [String.toList_append, String.toList_ofList, List.append_cancel_left_eq] at hlists
  obtain rfl := toDigits_injective hlists
  exact vpnIndexOfIpv4_injective hi hj

/-! ### The addresses of an index -/

lemma isIpv4Part_toDigits {n : ℕ} (h : n < 256) :
    isIpv4Part (Nat.toDigits 10 n) = true ∧ '.' ∉ Nat.toDigits 10 n := by
  have key : ∀ i : Fin 256, isIpv4Part (Nat.toDigits 10 i.val) = true ∧
      '.' ∉ Nat.toDigits 10 i.val := by decide +kernel
  exact key ⟨n, h⟩

lemma splitOn_vpnIpv4ForIndex (index : ℕ) :
    (vpnIpv4ForIndex index).toList.splitOn '.' = [['1', '0'], ['7', '7'],
      Nat.toDigits 10 (index >>> 8 &&& 0xff), Nat.toDigits 10 (index &&& 0xff)] := by
  have hjoin : (vpnIpv4ForIndex index).toList = ['.'].intercalate [['1', '0'], ['7', '7'],
      Nat.toDigits 10 (index >>> 8 &&& 0xff), Nat.toDigits 10 (index &&& 0xff)] := by
    simp [vpnIpv4ForIndex, String.toList_append, Nat.repr, toString, List.intercalate]
  have hhigh := (isIpv4Part_toDigits (Nat.lt_succ_of_le (Nat.and_le_right (n := index >>> 8)))).2
  have hlow := (isIpv4Part_toDigits (Nat.lt_succ_of_le (Nat.and_le_right (n := index)))).2
  rw [hjoin]
  refine List.splitOn_intercalate '.' ?_ (by simp)
  simpa using ⟨hhigh, hlow⟩

/-- The address of an index in the pool is that of no other index. -/
lemma vpnIndexOfIpv4_vpnIpv4ForIndex {index : ℕ} (hmin : VPN_MIN_HOST_INDEX ≤ index)
    (hmax : index ≤ VPN_MAX_HOST_INDEX) :
    vpnIndexOfIpv4 (.string (vpnIpv4ForIndex index)) = some index := by
  have hbound : index < 2 ^ 16 := Nat.lt_of_le_of_lt hmax (by decide)
  have hhigh : index >>> 8 &&& 0xff = index / 256 := by
    rw [Nat.shiftRight_eq_div_pow]
    exact (Nat.and_two_pow_sub_one_eq_mod _ 8).trans (Nat.mod_eq_of_lt (by omega))
  have hlow : index &&& 0xff = index % 256 := Nat.and_two_pow_sub_one_eq_mod index 8
  have hsplit := splitOn_vpnIpv4ForIndex index
  rw [hhigh, hlow] at hsplit
  have hvalid : isValidIpv4 (vpnIpv4ForIndex index) = true := by
    have h1 := (isIpv4Part_toDigits (n := index / 256) (by omega)).1
    have h2 := (isIpv4Part_toDigits (n := index % 256) (by omega)).1
    have h3 : isIpv4Part ['1', '0'] = true ∧ isIpv4Part ['7', '7'] = true := by decide
    simp [isValidIpv4, hsplit, h1, h2, h3]
  have hindex : (index / 256) <<< 8 ||| index % 256 = index := by
    rw [← Nat.shiftLeft_add_eq_or_of_lt (by omega : index % 256 < 2 ^ 8), Nat.shiftLeft_eq]
    omega
  have hten : Nat.ofDigitChars 10 ['1', '0'] 0 = 10 ∧ Nat.ofDigitChars 10 ['7', '7'] 0 = 77 := by
    decide
  simp [vpnIndexOfIpv4, hvalid, hsplit, hindex, hten, hmin, hmax]

/-- The value of a hexadecimal digit. -/
lemma hexDigit_value {n : ℕ} (h : n < 16) :
    (if n.digitChar.isDigit then n.digitChar.toNat - 48 else n.digitChar.toNat - 87) = n := by
  have key : ∀ i : Fin 16, (if i.val.digitChar.isDigit then i.val.digitChar.toNat - 48
      else i.val.digitChar.toNat - 87) = i.val := by decide
  exact key ⟨n, h⟩

lemma hexValue_toDigits (n : ℕ) : hexValue (Nat.toDigits 16 n) = n := by
  induction n using Nat.strong_induction_on with
  | h n ih =>
    rw [Nat.toDigits_eq_if (by omega)]
    split
    · next hn =>
      unfold hexValue
      rw [List.foldl_cons, List.foldl_nil, hexDigit_value hn]
      omega
    · have hhigh := ih (n / 16) (by omega)
      unfold hexValue at hhigh ⊢
      rw [List.foldl_append, hhigh, List.foldl_cons, List.foldl_nil,
        hexDigit_value (Nat.mod_lt n (by omega))]
      omega

/-- A number other than zero is written without leading zeros. -/
lemma head_toDigits {n : ℕ} (h : 0 < n) : (Nat.toDigits 16 n).head? ≠ some '0' := by
  induction n using Nat.strong_induction_on with
  | h n ih =>
    rw [Nat.toDigits_eq_if (by omega)]
    split
    · next hn =>
      intro hzero
      exact h.ne' (digitChar_injective hn (by omega) (Option.some.inj hzero))
    · rw [List.head?_append_of_ne_nil _ Nat.toDigits_ne_nil]
      exact ih (n / 16) (by omega) (by omega)

/-- The IPv6 address of a device is one. -/
lemma isVpnDeviceIpv6_of_eq_ok {ipv4 ipv6 : String} (h : vpnIpv6ForIpv4 ipv4 = .ok ipv6) :
    isVpnDeviceIpv6 (.string ipv6) = true := by
  obtain ⟨index, hindex, rfl⟩ := vpnIpv6ForIpv4_eq_ok h
  obtain ⟨-, -, -, -, -, -, -, -, -, -, -, -, hmin, hmax⟩ := vpnIndexOfIpv4_eq_some hindex
  have hbound : index < 16 ^ 4 := Nat.lt_of_le_of_lt hmax (by decide)
  have hlong := (Nat.length_toDigits_le_iff (n := index) (b := 16) (by omega)
    (by omega : 0 < 4)).mpr hbound
  have hshort := Nat.length_toDigits_pos (b := 16) (n := index)
  have hhead := head_toDigits (n := index) (Nat.lt_of_lt_of_le (by decide) hmin)
  have hhex : (Nat.toDigits 16 index).all isHexDigit = true :=
    List.all_eq_true.mpr fun c hc => isHexDigit_of_mem hc
  have hdrop : (VPN_IPV6_PREFIX ++ String.ofList (Nat.toDigits 16 index)).toList.drop
      VPN_IPV6_PREFIX.length = Nat.toDigits 16 index := by
    rw [String.toList_append, ← String.length_toList, List.drop_left, String.toList_ofList]
  have hprefix : VPN_IPV6_PREFIX.toList.isPrefixOf
      (VPN_IPV6_PREFIX ++ String.ofList (Nat.toDigits 16 index)).toList = true := by
    rw [String.toList_append]
    exact List.isPrefixOf_iff_prefix.mpr (List.prefix_append _ _)
  simp only [isVpnDeviceIpv6, hdrop, hprefix, hhex, hexValue_toDigits]
  simp [hhead, hmin, hmax, hlong, Nat.one_le_iff_ne_zero.mpr hshort.ne']

/-! ### What is accepted -/

/-- A peer that was accepted has a valid key, and two addresses of one index. -/
structure ExitPeer.Valid (peer : ExitPeer) : Prop where
  publicKey : isValidWireGuardPublicKey nacl (.string peer.publicKey) = true
  ipv6 : vpnIpv6ForIpv4 peer.ipv4 = .ok peer.ipv6

/-- No key and no address is listed twice. -/
structure Listed (peers : List ExitPeer) : Prop where
  valid : ∀ peer ∈ peers, peer.Valid nacl
  keys : (peers.map ExitPeer.publicKey).Nodup
  addresses : (peers.map ExitPeer.ipv4).Nodup

variable {nacl}

lemma exitPeerOf_eq_some {entry : Value} {peer : ExitPeer} (h : exitPeerOf nacl entry = some peer) :
    peer.Valid nacl := by
  unfold exitPeerOf at h
  split at h
  · simp at h
  split at h
  · split at h
    · next hchecks =>
      obtain rfl := Option.some.inj h
      simp only [Bool.and_eq_true, beq_iff_eq] at hchecks
      exact ⟨hchecks.1.1.1, hchecks.2⟩
    · simp at h
  · simp at h

lemma Listed.nil : Listed nacl [] := ⟨by simp, by simp, by simp⟩

/-- What one entry leaves of the list. -/
lemma Listed.acceptPeer {parsed : ParsedExitPeers} (h : Listed nacl parsed.peers) (entry : Value) :
    Listed nacl (acceptPeer nacl parsed entry).peers := by
  unfold SharedTypes.acceptPeer
  cases hpeer : exitPeerOf nacl entry with
  | none => exact h
  | some peer =>
    dsimp only
    split
    · exact h
    · next hnew =>
      simp only [Bool.or_eq_true, List.contains_iff_mem, not_or] at hnew
      refine ⟨?_, ?_, ?_⟩
      · intro p hp
        rcases List.mem_append.mp hp with hp | hp
        · exact h.valid p hp
        · exact List.mem_singleton.mp hp ▸ exitPeerOf_eq_some hpeer
      · simpa [List.nodup_append] using ⟨h.keys, fun a ha e => hnew.1 (by simp_all)⟩
      · simpa [List.nodup_append] using ⟨h.addresses, fun a ha e => hnew.2 (by simp_all)⟩

/-- **Whatever the answer holds, the peers accepted share no key and no address.** -/
theorem parseExitPeersResponse_listed {body : Value} {parsed : ParsedExitPeers}
    (h : parseExitPeersResponse nacl body = .ok parsed) : Listed nacl parsed.peers := by
  unfold parseExitPeersResponse at h
  split at h
  · simp at h
  split at h
  · next entries _ =>
    rw [check_eq_ok] at h
    obtain rfl := Except.ok.inj h.2
    refine List.foldlRecOn (motive := fun (parsed : ParsedExitPeers) => Listed nacl parsed.peers)
      entries _ Listed.nil ?_
    intro parsed hparsed entry _
    exact hparsed.acceptPeer entry
  · simp at h

end Tnp.SharedTypes
