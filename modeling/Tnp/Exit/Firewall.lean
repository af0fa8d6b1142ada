import Mathlib.Algebra.Order.Field.Rat
import Tnp.Net.Prefixes
import Tnp.SharedTypes.Ipv6Values

/-!
The exit's packet filter.

The ruleset is generated as a whole from options that are checked first. A rule is what it matches
and what it does, in the order in which it is written; its text is what `nft` is given.
-/

namespace Tnp.Exit.Firewall

open Tnp.Lib Tnp.Lib.Ipv6 Tnp.Net Tnp.SharedTypes
open Tnp.SharedTypes.DnsRecords (isValidIpv6)

def VPN_TUNNEL_IPV4_CIDR : String := "10.77.0.0/16"
def VPN_WIREGUARD_PORT : ℕ := 51820

/-! ### Networks -/

/-- The length of a prefix, without leading zeros. -/
def isPrefixLength (length : List Char) : Bool :=
  length = ['0'] || (length.head?.any (fun c => '1' ≤ c && c ≤ '9') && length.all Char.isDigit &&
    length.length ≤ 3)

/-- What stands before the first slash, and after it. -/
def splitPrefix (value : String) : Option (String × List Char) :=
  match value.toList.dropWhile (· ≠ '/') with
  | [] => none
  | _ :: length => some (String.ofList (value.toList.takeWhile (· ≠ '/')), length)

def isCidr (value : String) : Bool :=
  match splitPrefix value with
  | none => false
  | some (address, length) =>
    isPrefixLength length &&
      if isValidIpv4 address then Nat.ofDigitChars 10 length 0 ≤ 32
      else isValidIpv6 address && Nat.ofDigitChars 10 length 0 ≤ 128

/-- The groups of a part of an address. A group that is no number is none. -/
def parseGroups (part : List Char) : List (Option ℕ) :=
  if part = [] then []
  else (part.splitOn ':').map fun g =>
    if (g.takeWhile isHex).isEmpty then none else some (groupValue (g.takeWhile isHex))

def expandIpv6 (address : List Char) : Option (List ℕ) :=
  if '.' ∈ address then none
  else
    let halves := match cutPair ':' address with
      | none => [address]
      | some (head, rest) => match cutPair ':' rest with
        | none => [head, rest]
        | some (tail, more) => [head, tail, more]
    match halves with
    | [whole] =>
      let groups := parseGroups whole
      if groups.length = 8 ∧ groups.all fun g => g.any (· ≤ 0xffff) then groups.mapM id else none
    | [head, tail] =>
      let fill := 8 - ((parseGroups head).length + (parseGroups tail).length : ℤ)
      let groups := parseGroups head ++ List.replicate fill.toNat (some 0) ++ parseGroups tail
      if 1 ≤ fill ∧ groups.all fun g => g.any (· ≤ 0xffff) then groups.mapM id else none
    | _ => none

/-- The network an interface address is on. -/
def networkOf (addressWithPrefix : String) : Option String :=
  if !isCidr addressWithPrefix then none
  else
    match splitPrefix addressWithPrefix with
    | none => none
    | some (address, text) =>
      let length := Nat.ofDigitChars 10 text 0
      if isValidIpv4 address then
        let value := (address.toList.splitOn '.').foldl
          (fun acc octet => (acc <<< 8) ||| Nat.ofDigitChars 10 octet 0) 0
        let masked := if length = 0 then 0 else (value >>> (32 - length)) <<< (32 - length)
        some (String.ofList (['.'].intercalate
          ([24, 16, 8, 0].map fun shift => Nat.toDigits 10 ((masked >>> shift) &&& 0xff)) ++
            '/' :: Nat.toDigits 10 length))
      else
        (expandIpv6 address.toList).map fun groups =>
          let value := groups.foldl (fun acc group => (acc <<< 16) ||| group) 0
          let masked := if length = 0 then 0 else (value >>> (128 - length)) <<< (128 - length)
          String.ofList ([':'].intercalate ([112, 96, 80, 64, 48, 32, 16, 0].map fun shift =>
            Nat.toDigits 16 ((masked >>> shift) &&& 0xffff)) ++ '/' :: Nat.toDigits 10 length)

def isVpnTunnelIpv4 (value : String) : Bool :=
  isValidIpv4 value && "10.77.".toList.isPrefixOf value.toList

def BLOCKED_IPV4 : List String :=
  ["0.0.0.0/8", "10.0.0.0/8", "100.64.0.0/10", "127.0.0.0/8", "169.254.0.0/16", "172.16.0.0/12",
    "192.0.0.0/24", "192.0.2.0/24", "192.168.0.0/16", "198.18.0.0/15", "198.51.100.0/24",
    "203.0.113.0/24", "224.0.0.0/4", "240.0.0.0/4"]

def BLOCKED_IPV6 : List String :=
  ["::/128", "::1/128", "::ffff:0:0/96", "64:ff9b::/96", "64:ff9b:1::/48", "100::/64",
    "2001:db8::/32", "2002::/16", "fc00::/7", "fe80::/10", "ff00::/8"]

def BLOCKED_TCP_PORTS : List ℕ := [25, 137, 139, 445]
def BLOCKED_UDP_PORTS : List ℕ := [137, 138]

/-! ### Rules -/

inductive CtState
  | invalid
  | new
  | established
  | related
  deriving DecidableEq

def CtState.text : CtState → String
  | .invalid => "invalid"
  | .new => "new"
  | .established => "established"
  | .related => "related"

inductive Transport
  | tcp
  | udp
  deriving DecidableEq

def Transport.text : Transport → String
  | .tcp => "tcp"
  | .udp => "udp"

/-- What a rule asks of a packet, and what it does besides its verdict. -/
inductive Expr
  | iifLo
  | iifname (name : String)
  | iifnameNe (name : String)
  | oifname (name : String)
  | oifnameNe (name : String)
  | ctState (states : List CtState)
  | saddr (family : Family) (network : String)
  | saddrNe (family : Family) (network : String)
  | daddr (family : Family) (address : String)
  | daddrSet (family : Family) (set : String)
  | nfproto (family : Family)
  | l4proto
  | thDport (port : ℕ)
  | sport (transport : Transport) (port : ℕ)
  | dport (transport : Transport) (port : ℚ)
  | dports (transport : Transport) (ports : List ℕ)
  | icmpType (types : List String)
  | icmpv6Type (types : List String)
  | limitRate
  | overRate (set : String) (packetsPerSecond : ℚ)
  | clampMss
  | counter (name : String)
  deriving DecidableEq

inductive Verdict
  | accept
  | drop
  | rejectIcmpx
  | rejectTcp
  deriving DecidableEq

structure Rule where
  exprs : List Expr
  verdict : Option Verdict
  deriving DecidableEq

/-- A set of addresses that a rule may name. -/
structure NamedSet where
  name : String
  family : Family
  elements : List String

structure Ruleset where
  sets : List NamedSet
  input : List Rule
  forward : List Rule

structure ExitFirewallOptions where
  wgInterface : String
  uplinkInterface : String
  listenPort : ℚ := VPN_WIREGUARD_PORT
  operatorCidrs : List String
  uplinkAddresses : List String := []
  dnsServers : List String
  dnsPacketsPerSecond : ℚ := 50
  localDnsAddress : Option String := none
  adminSshCidrs : List String := []

def isIfaceChar (c : Char) : Bool := c.isAlphanum || c == '_' || c == '.' || c == '-'

/-- `IFACE_RE`. -/
def isIface (name : String) : Bool :=
  name.toList.head?.any Char.isAlphanum && name.toList.all isIfaceChar && name.toList.length ≤ 15

def isIpv6Cidr (network : String) : Bool := network.toList.contains ':'

def familyOf (network : String) : Family := if isIpv6Cidr network then .v6 else .v4

/-- The messages of ICMP that the host takes from anyone. -/
def icmpTypes : Family → List String
  | .v4 => ["echo-request", "destination-unreachable", "time-exceeded", "parameter-problem"]
  | .v6 => ["destination-unreachable", "packet-too-big", "time-exceeded", "parameter-problem",
    "echo-request", "nd-router-advert", "nd-neighbor-solicit", "nd-neighbor-advert"]

namespace ExitFirewallOptions

variable (o : ExitFirewallOptions)

/-- The operator's networks, with those of the uplink's addresses. -/
def operator : List String := o.operatorCidrs ++ o.uplinkAddresses.filterMap networkOf

def dnsV4 : List String := o.dnsServers.filter isValidIpv4

def check : Option String :=
  if !isIface o.wgInterface then some "invalid WireGuard interface"
  else if !isIface o.uplinkInterface then some "invalid uplink interface"
  else if o.wgInterface = o.uplinkInterface then some "interfaces must differ"
  else if !o.listenPort.isInt || o.listenPort < 1 || 65535 < o.listenPort then
    some "invalid listen port"
  else if o.operatorCidrs.any (!isCidr ·) then some "invalid operator CIDR"
  else if o.adminSshCidrs.any (!isCidr ·) then some "invalid admin SSH network"
  else if o.uplinkAddresses.any fun address => (networkOf address).isNone then
    some "invalid uplink address"
  else if o.operatorCidrs = [] ∧ o.uplinkAddresses = [] then
    some "at least one operator network (the VPC CIDR or the uplink address) is required"
  else if o.dnsServers.any fun ip => !isValidIpv4 ip && !isCidr (ip ++ "/128") then
    some "invalid DNS server"
  else if o.localDnsAddress.any (!isVpnTunnelIpv4 ·) then
    some "the local resolver address must be in the tunnel pool"
  else if !o.dnsPacketsPerSecond.isInt || o.dnsPacketsPerSecond < 1 ||
      100000 < o.dnsPacketsPerSecond then some "invalid DNS rate"
  else none

def sets : List NamedSet :=
  [⟨"blocked_v4", .v4, BLOCKED_IPV4 ++ o.operator.filter (!isIpv6Cidr ·)⟩,
    ⟨"blocked_v6", .v6, BLOCKED_IPV6 ++ o.operator.filter isIpv6Cidr⟩] ++
    if o.dnsV4 = [] then [] else [⟨"dns_v4", .v4, o.dnsV4⟩]

def localDnsLimit : List Rule :=
  o.localDnsAddress.toList.map fun address =>
    ⟨[.iifname o.wgInterface, .daddr .v4 address, .l4proto, .thDport 53,
      .overRate "local_dns_rate" o.dnsPacketsPerSecond, .counter "refused_dns_rate"], some .drop⟩

def localDnsAccept : List Rule :=
  o.localDnsAddress.toList.map fun address =>
    ⟨[.iifname o.wgInterface, .saddr .v4 VPN_TUNNEL_IPV4_CIDR, .daddr .v4 address, .l4proto,
      .thDport 53], some .accept⟩

def inputRules : List Rule :=
  [⟨[.iifLo], some .accept⟩, ⟨[.ctState [.invalid]], some .drop⟩] ++ o.localDnsLimit ++
    [⟨[.ctState [.established, .related]], some .accept⟩] ++ o.localDnsAccept ++
    [⟨[.iifname o.uplinkInterface, .dport .udp o.listenPort], some .accept⟩] ++
    o.adminSshCidrs.map (fun cidr => ⟨[.iifname o.uplinkInterface, .saddr (familyOf cidr) cidr,
      .dport .tcp 22], some .accept⟩) ++
    [⟨[.iifname o.uplinkInterface, .sport .udp 67, .dport .udp 68], some .accept⟩,
      ⟨[.iifname o.uplinkInterface, .sport .udp 547, .dport .udp 546], some .accept⟩,
      ⟨[.nfproto .v4, .icmpType (icmpTypes .v4), .limitRate], some .accept⟩,
      ⟨[.nfproto .v6, .icmpv6Type (icmpTypes .v6)], some .accept⟩]

def dnsLimit : List Rule :=
  if o.dnsV4 = [] then []
  else
    [⟨[.iifname o.wgInterface, .daddrSet .v4 "dns_v4", .dport .udp 53,
      .overRate "dns_rate" o.dnsPacketsPerSecond, .counter "refused_dns_rate"], some .drop⟩]

def forwardRules : List Rule :=
  [⟨[.clampMss], none⟩, ⟨[.ctState [.invalid]], some .drop⟩] ++ o.dnsLimit ++
    [⟨[.ctState [.established, .related]], some .accept⟩,
      ⟨[.iifnameNe o.wgInterface], some .drop⟩,
      ⟨[.saddrNe .v4 VPN_TUNNEL_IPV4_CIDR], some .drop⟩,
      ⟨[.oifnameNe o.uplinkInterface, .counter "refused_private"], some .rejectIcmpx⟩,
      ⟨[.daddrSet .v6 "blocked_v6", .counter "refused_private"], some .rejectIcmpx⟩,
      ⟨[.nfproto .v6, .counter "refused_ipv6"], some .rejectIcmpx⟩,
      ⟨[.daddrSet .v4 "blocked_v4", .counter "refused_private"], some .rejectIcmpx⟩,
      ⟨[.dports .tcp BLOCKED_TCP_PORTS, .counter "refused_port"], some .rejectTcp⟩,
      ⟨[.dports .udp BLOCKED_UDP_PORTS, .counter "refused_port"], some .rejectIcmpx⟩,
      ⟨[.oifname o.uplinkInterface, .counter "forwarded"], some .accept⟩]

end ExitFirewallOptions

/-- The sets and rules, or the message of what is thrown. -/
def exitRuleset (o : ExitFirewallOptions) : Except String Ruleset :=
  match o.check with
  | some problem => .error problem
  | none => .ok ⟨o.sets, o.inputRules, o.forwardRules⟩

/-! ### The text -/

def elements (values : List String) : String := ", ".intercalate values

/-- Elements between braces. -/
def braced (values : List String) : String := "\x7b " ++ elements values ++ " \x7d"

def Family.nfproto : Family → String
  | .v4 => "ipv4"
  | .v6 => "ipv6"

/-- The text of a number that was checked to be whole. -/
def wholeText (n : ℚ) : String := toString n.num

def rateText (packetsPerSecond : ℚ) : String :=
  "limit rate over " ++ wholeText packetsPerSecond ++ "/second burst " ++
    wholeText (packetsPerSecond * 4) ++ " packets"

/-- An interface's name between quotes; none of its characters is escaped. -/
def quoted (name : String) : String := "\"" ++ name ++ "\""

def Expr.text : Expr → String
  | .iifLo => "iif \"lo\""
  | .iifname name => "iifname " ++ quoted name
  | .iifnameNe name => "iifname != " ++ quoted name
  | .oifname name => "oifname " ++ quoted name
  | .oifnameNe name => "oifname != " ++ quoted name
  | .ctState states => "ct state " ++ ",".intercalate (states.map CtState.text)
  | .saddr family network => family.keyword ++ " saddr " ++ network
  | .saddrNe family network => family.keyword ++ " saddr != " ++ network
  | .daddr family address => family.keyword ++ " daddr " ++ address
  | .daddrSet family set => family.keyword ++ " daddr @" ++ set
  | .nfproto family => "meta nfproto " ++ Family.nfproto family
  | .l4proto => "meta l4proto " ++ braced ["tcp", "udp"]
  | .thDport port => "th dport " ++ toString port
  | .sport transport port => transport.text ++ " sport " ++ toString port
  | .dport transport port => transport.text ++ " dport " ++ wholeText port
  | .dports transport ports => transport.text ++ " dport " ++ braced (ports.map toString)
  | .icmpType types => "icmp type " ++ braced types
  | .icmpv6Type types => "icmpv6 type " ++ braced types
  | .limitRate => "limit rate 50/second"
  | .overRate set packetsPerSecond =>
    "add @" ++ set ++ " " ++ braced ["ip saddr " ++ rateText packetsPerSecond]
  | .clampMss => "tcp flags syn tcp option maxseg size set rt mtu"
  | .counter name => "counter name " ++ name

def Verdict.text : Verdict → String
  | .accept => "accept"
  | .drop => "drop"
  | .rejectIcmpx => "reject with icmpx type admin-prohibited"
  | .rejectTcp => "reject with tcp reset"

def Rule.text (r : Rule) : String :=
  "    " ++ " ".intercalate (r.exprs.map Expr.text ++ r.verdict.toList.map Verdict.text)

/-- The sets of blocked networks may hold overlapping ones. -/
def NamedSet.lines (s : NamedSet) (interval : Bool) : List String :=
  ["  set " ++ s.name ++ " \x7b", "    type " ++ Family.nfproto s.family ++ "_addr"] ++
    (if interval then ["    flags interval", "    auto-merge"] else []) ++
    ["    elements = " ++ braced s.elements, "  \x7d", ""]

def rateSetLines (name : String) : List String :=
  ["  set " ++ name ++ " \x7b", "    type ipv4_addr", "    size 65536", "    flags dynamic,timeout",
    "    timeout 1m", "  \x7d", ""]

def Ruleset.lines (r : Ruleset) (o : ExitFirewallOptions) : List String :=
  ["#!/usr/sbin/nft -f",
    "# TNP exit packet filter. Generated by @tnp/exit (apps/exit/src/nftables.ts); do not edit.",
    "# No rule here logs. Counters are aggregate only.", "", "table inet tnp_exit",
    "delete table inet tnp_exit", "", "table inet tnp_exit \x7b"] ++
    (r.sets.take 2).flatMap (NamedSet.lines · true) ++
    (if o.localDnsAddress.isSome then rateSetLines "local_dns_rate" else []) ++
    (r.sets.drop 2).flatMap (fun s => s.lines false ++ rateSetLines "dns_rate") ++
    ["  counter forwarded \x7b\x7d", "  counter refused_private \x7b\x7d",
      "  counter refused_port \x7b\x7d", "  counter refused_ipv6 \x7b\x7d",
      "  counter refused_dns_rate \x7b\x7d", "", "  chain input \x7b",
      "    type filter hook input priority filter; policy drop;"] ++
    r.input.map Rule.text ++
    ["  \x7d", "", "  chain forward \x7b",
      "    type filter hook forward priority filter; policy drop;"] ++
    r.forward.map Rule.text ++
    ["  \x7d", "", "  chain postrouting \x7b",
      "    type nat hook postrouting priority srcnat; policy accept;",
      "    oifname " ++ quoted o.uplinkInterface ++ " ip saddr " ++ VPN_TUNNEL_IPV4_CIDR ++
        " masquerade",
      "  \x7d", "\x7d", ""]

def renderExitRuleset (o : ExitFirewallOptions) : Except String String :=
  (exitRuleset o).map fun r => "\n".intercalate (r.lines o)

end Tnp.Exit.Firewall
