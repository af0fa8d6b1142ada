import Tnp.Lib.Gaps
import Tnp.Net.Prefixes

/-!
The DNS kill switch: outbound plain DNS to every destination but loopback and the resolver of TNP.

Each platform has rules of its own for the one policy. What a rule does to a packet is its tool's:
the first rule that matches decides, but for the rules of Windows, which only block.
-/

namespace Tnp.Client.KillSwitch

open Tnp.Lib Tnp.Lib.Ipv6 Tnp.Net

/-! ### Policy -/

/-- Destinations besides loopback that may receive plain DNS. -/
structure KillSwitchAllow where
  v4 : List String := []
  v6 : List String := []
  deriving DecidableEq

def isIpLiteral (value : String) : Bool :=
  value ≠ "" && !value.toList.contains '%' && isIP value ≠ 0

def killSwitchAllow (publicDnsIp : String) : Except String KillSwitchAllow :=
  if publicDnsIp = "" then .ok {}
  else if !isIpLiteral publicDnsIp then
    .error s!"TNP resolver address \"{publicDnsIp}\" is not an IP address"
  else if ':' ∈ publicDnsIp.toList then .ok { v6 := [publicDnsIp] }
  else .ok { v4 := [publicDnsIp] }

/-! ### Address arithmetic -/

def ipv4ToBigInt (addr : List Char) : ℕ :=
  (addr.splitOn '.').foldl (fun acc octet => (acc <<< 8) ||| Nat.ofDigitChars 10 octet 0) 0

def bigIntToIpv4 (n : ℕ) : List Char :=
  ['.'].intercalate ([24, 16, 8, 0].map fun shift => Nat.toDigits 10 ((n >>> shift) &&& 0xff))

/-- The groups of a part, a dotted quad among them as two. -/
def groups (part : List Char) : List ℕ :=
  if part = [] then []
  else
    (part.splitOn ':').flatMap fun g =>
      if '.' ∈ g then
        let v4 := ipv4ToBigInt g
        [v4 / 0x10000, v4 &&& 0xffff]
      else [groupValue (g.takeWhile isHex)]

/-- The groups of an address, with zeros in place of a `::`. -/
def allGroups (addr : List Char) : List ℕ :=
  match cutPair ':' addr with
  | none => groups addr
  | some (head, rest) =>
    -- `split('::')`, of which only the first two parts are read
    let tail := ((cutPair ':' rest).map Prod.fst).getD rest
    groups head ++ List.replicate (8 - (groups head).length - (groups tail).length) 0 ++ groups tail

def ipv6ToBigInt (addr : List Char) : ℕ :=
  (allGroups addr).foldl (fun acc g => (acc <<< 16) ||| g) 0

def bigIntToIpv6 (n : ℕ) : List Char :=
  [':'].intercalate
    ([7, 6, 5, 4, 3, 2, 1, 0].map fun i => Nat.toDigits 16 ((n >>> (i * 16)) &&& 0xffff))

/-- What the loop of `complement` has found: the gaps so far, and where the next may start. -/
structure Found where
  gaps : List (ℕ × ℕ) := []
  next : ℕ := 0

def Found.add (found : Found) (range : ℕ × ℕ) : Found :=
  let (lo, hi) := range
  { gaps := if found.next < lo then found.gaps ++ [(found.next, lo - 1)] else found.gaps
    next := if found.next < hi + 1 then hi + 1 else found.next }

/-- Gaps in [0, max] not covered by `excluded` (inclusive ranges). -/
def complement (excluded : List (ℕ × ℕ)) (max : ℕ) : List (ℕ × ℕ) :=
  let sorted := excluded.mergeSort fun a b => a.1 ≤ b.1
  let found := sorted.foldl Found.add {}
  if found.next ≤ max then found.gaps ++ [(found.next, max)] else found.gaps

def rangeText (address : ℕ → List Char) (range : ℕ × ℕ) : String :=
  if range.1 = range.2 then String.ofList (address range.1)
  else String.ofList (address range.1 ++ '-' :: address range.2)

/-- IPv4 ranges in netsh syntax covering everything but 127.0.0.0/8 and `allowed`. -/
def ipv4BlockRanges (allowed : List String) : List String :=
  let excluded :=
    (ipv4ToBigInt "127.0.0.0".toList, ipv4ToBigInt "127.255.255.255".toList) ::
      allowed.map fun a => (ipv4ToBigInt a.toList, ipv4ToBigInt a.toList)
  (complement excluded 0xffffffff).map (rangeText bigIntToIpv4)

/-- IPv6 ranges in netsh syntax covering everything but ::1 and `allowed`. -/
def ipv6BlockRanges (allowed : List String) : List String :=
  let excluded := (1, 1) :: allowed.map fun a => (ipv6ToBigInt a.toList, ipv6ToBigInt a.toList)
  (complement excluded (1 <<< 128 - 1)).map (rangeText bigIntToIpv6)

/-! ### Rules -/

inductive Protocol
  | udp
  | tcp
  deriving DecidableEq, Repr

def Protocol.text : Protocol → String
  | .udp => "udp"
  | .tcp => "tcp"

/-- A rule of the `nft` chain. -/
inductive NftRule
  | accept (family : Family) (dst : String) (protocol : Protocol)
  | drop (protocol : Protocol)
  deriving DecidableEq

def NftRule.text : NftRule → String
  | .accept family dst protocol =>
    s!"    {family.keyword} daddr {dst} {protocol.text} dport 53 accept"
  | .drop protocol => s!"    {protocol.text} dport 53 drop"

def nftRules (allow : KillSwitchAllow) : List NftRule :=
  let accept (family : Family) (dst : String) : List NftRule :=
    [.accept family dst .udp, .accept family dst .tcp]
  accept .v4 "127.0.0.0/8" ++ accept .v6 "::1" ++ allow.v4.flatMap (accept .v4) ++
    allow.v6.flatMap (accept .v6) ++ [.drop .udp, .drop .tcp]

def NFT_TABLE : String := "tnp_killswitch"

def nftRuleset (allow : KillSwitchAllow) : String :=
  "\n".intercalate ([s!"table inet {NFT_TABLE}", s!"delete table inet {NFT_TABLE}",
    s!"table inet {NFT_TABLE} \x7b", "  chain output \x7b",
    "    type filter hook output priority 0; policy accept;"] ++
      (nftRules allow).map NftRule.text ++ ["  \x7d", "\x7d", ""])

/-- A `quick` rule of the pf anchor. -/
inductive PfRule
  | pass (inet6 : Bool) (dst : String)
  | block
  deriving DecidableEq

def PfRule.text : PfRule → String
  | .pass inet6 dst =>
    let family := if inet6 then "inet6 " else ""
    s!"pass out quick {family}proto \x7b tcp, udp \x7d from any to {dst} port 53"
  | .block => "block drop out quick proto \x7b tcp, udp \x7d from any to any port 53"

/-- Passes first, every rule `quick`. -/
def pfAnchor (allow : KillSwitchAllow) : List PfRule :=
  [.pass false "127.0.0.0/8", .pass true "::1"] ++ allow.v4.map (.pass false) ++
    allow.v6.map (.pass true) ++ [.block]

def pfRules (allow : KillSwitchAllow) : String :=
  "\n".intercalate ((pfAnchor allow).map PfRule.text ++ [""])

structure Cmd where
  file : String
  args : List String
  input : Option String := none
  deriving DecidableEq

def IPT_CHAIN : String := "TNP_KILLSWITCH"

inductive IptTarget
  | RETURN
  | DROP
  deriving DecidableEq

/-- A rule appended to the chain of `iptables` or `ip6tables`. -/
structure IptRule where
  dst : Option String
  protocol : Protocol
  target : IptTarget
  deriving DecidableEq

def IptRule.append (bin : String) (rule : IptRule) : Cmd :=
  { file := bin
    args := ["-w", "-A", IPT_CHAIN] ++ rule.dst.elim [] (fun dst => ["-d", dst]) ++
      ["-p", rule.protocol.text, "--dport", "53", "-j",
        if rule.target = .RETURN then "RETURN" else "DROP"] }

def iptablesChain (loopback : String) (allowed : List String) : List IptRule :=
  ((loopback :: allowed).flatMap fun dst =>
    [.udp, .tcp].map fun protocol => ⟨some dst, protocol, .RETURN⟩) ++
      [.udp, .tcp].map fun protocol => ⟨none, protocol, .DROP⟩

def iptablesApply (bin loopback : String) (allowed : List String) : List Cmd :=
  [{ file := bin, args := ["-w", "-N", IPT_CHAIN] }] ++
    (iptablesChain loopback allowed).map (IptRule.append bin) ++
      [{ file := bin, args := ["-w", "-I", "OUTPUT", "1", "-j", IPT_CHAIN] }]

structure NetshRule where
  name : String
  protocol : Protocol
  family : Family
  deriving DecidableEq

def NETSH_RULES : List NetshRule :=
  [⟨"TNP-KillSwitch-DNS-UDP-v4", .udp, .v4⟩, ⟨"TNP-KillSwitch-DNS-TCP-v4", .tcp, .v4⟩,
    ⟨"TNP-KillSwitch-DNS-UDP-v6", .udp, .v6⟩, ⟨"TNP-KillSwitch-DNS-TCP-v6", .tcp, .v6⟩]

def NetshRule.remote (rule : NetshRule) (allow : KillSwitchAllow) : List String :=
  if rule.family = .v4 then ipv4BlockRanges allow.v4 else ipv6BlockRanges allow.v6

def NetshRule.add (netsh : String) (allow : KillSwitchAllow) (rule : NetshRule) : Cmd :=
  { file := netsh
    args := ["advfirewall", "firewall", "add", "rule", "name=" ++ rule.name, "dir=out",
      "action=block", "protocol=" ++ rule.protocol.text, "remoteport=53",
      "remoteip=" ++ ",".intercalate (rule.remote allow), "profile=any", "enable=yes"] }

/-! ### What the rules do to a packet -/

/-- An outbound packet. The protocol is absent where it is neither UDP nor TCP. -/
structure Packet where
  family : Family
  protocol : Option Protocol
  destination : ℕ
  port : ℕ

inductive Verdict
  | pass
  | drop
  deriving DecidableEq

def NftRule.verdict (rule : NftRule) (p : Packet) : Option Verdict :=
  match rule with
  | .accept family dst protocol =>
    if p.family = family ∧ p.protocol = some protocol ∧ p.port = 53 ∧
        family.covers dst p.destination then some .pass
    else none
  | .drop protocol => if p.protocol = some protocol ∧ p.port = 53 then some .drop else none

def PfRule.verdict (rule : PfRule) (p : Packet) : Option Verdict :=
  match rule with
  | .pass inet6 dst =>
    let family := if inet6 then Family.v6 else .v4
    if p.family = family ∧ p.protocol.isSome ∧ p.port = 53 ∧ family.covers dst p.destination then
      some .pass
    else none
  | .block => if p.protocol.isSome ∧ p.port = 53 then some .drop else none

/-- Each of the tools sees the packets of one family. -/
def IptRule.verdict (family : Family) (rule : IptRule) (p : Packet) : Option Verdict :=
  if p.protocol = some rule.protocol ∧ p.port = 53 ∧
      rule.dst.all fun dst => family.covers dst p.destination then
    some (if rule.target = .RETURN then .pass else .drop)
  else none

/-- The first rule that matches decides, and what none matches passes. -/
def firstMatch {α : Type*} (verdict : α → Packet → Option Verdict) (rules : List α) (p : Packet) :
    Verdict := (rules.findSome? (verdict · p)).getD .pass

def nftVerdict (allow : KillSwitchAllow) (p : Packet) : Verdict :=
  firstMatch NftRule.verdict (nftRules allow) p

def pfVerdict (allow : KillSwitchAllow) (p : Packet) : Verdict :=
  firstMatch PfRule.verdict (pfAnchor allow) p

def iptablesVerdict (allow : KillSwitchAllow) (p : Packet) : Verdict :=
  match p.family with
  | .v4 => firstMatch (IptRule.verdict .v4) (iptablesChain "127.0.0.0/8" allow.v4) p
  | .v6 => firstMatch (IptRule.verdict .v6) (iptablesChain "::1/128" allow.v6) p

/-- Whatever rule blocks, blocks. -/
def netshVerdict (allow : KillSwitchAllow) (p : Packet) : Verdict :=
  if NETSH_RULES.any fun rule => p.family = rule.family && p.protocol = some rule.protocol &&
      p.port = 53 && (rule.remote allow).any fun range => rule.family.spans range p.destination then
    .drop
  else .pass

end Tnp.Client.KillSwitch
