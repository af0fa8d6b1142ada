import Tnp.Crypto.Encoding
import Tnp.Crypto.Utf16
import Tnp.Lib.Act
import Tnp.Lib.OrderedMap
import Tnp.Namespace.Policy
import Tnp.Net.AddressKeys

/-!
Routing of names to the local resolver by the operating system, and the records that teardown
acts on.

What is logged and warned about is left out. `numberText` is how a number is written.
-/

namespace Tnp.Client.DnsRouting

open Tnp.Lib Tnp.Crypto Tnp.Namespace Tnp.Net

def ROUTED_TLDS : List String := BUILTIN_NATIVE_TLDS

/-- Where queries are sent. The port is any number. -/
structure RoutingTarget where
  address : String
  port : ℚ
  deriving DecidableEq

inductive RoutingOwner
  | install
  | connect
  | rules
  deriving DecidableEq, Repr

inductive Platform
  | darwin
  | win32
  | linux
  | other
  deriving DecidableEq, Repr

structure OwnerNames where
  delegate : String
  link : String
  linkAddress : String
  nrptComment : String

def ownerNames : RoutingOwner → OwnerNames
  | .install =>
    ⟨"/etc/systemd/dns-delegate.d/tnp.dns-delegate", "tnp0", "192.0.2.53/32", "Managed by TNP"⟩
  | .connect =>
    ⟨"/etc/systemd/dns-delegate.d/tnp-connect.dns-delegate", "tnp1", "192.0.2.54/32",
      "Managed by TNP (connect)"⟩
  | .rules =>
    ⟨"/etc/systemd/dns-delegate.d/tnp-rules.dns-delegate", "tnp2", "192.0.2.55/32",
      "Managed by TNP (personal rules)"⟩

def LEGACY_RESOLVED_DROPIN : String := "/etc/systemd/resolved.conf.d/tnp.conf"
def DNS_DELEGATE_MIN_SYSTEMD : ℕ := 258
def LEGACY_MAC_RESOLVER_TLDS : List String := ["com", "app"]

/-! ### What is written and run -/

def isLineEnd (c : Char) : Bool := ['\n', '\r', '\u2028', '\u2029'].contains c

/-- Where lines begin. -/
def lineStarts (cs : List Char) : List (List Char) :=
  cs :: cs.tails.filterMap fun
    | c :: rest => if isLineEnd c then some rest else none
    | [] => none

/-- The version behind `systemd` and blanks. -/
def versionAt (cs : List Char) : Option ℕ :=
  let rest := cs.drop 7
  let digits := (rest.dropWhile isSpace).takeWhile Char.isDigit
  if "systemd".toList.isPrefixOf cs && !(rest.takeWhile isSpace).isEmpty && !digits.isEmpty then
    some (Nat.ofDigitChars 10 digits 0)
  else none

def parseSystemdVersion (output : String) : Option ℕ :=
  (lineStarts output.toList).findSome? versionAt

def join (separator : String) (parts : List String) : String :=
  String.ofList (separator.toList.intercalate (parts.map String.toList))

/-- The path of a resolver file on macOS. -/
def resolverPath (name : String) : String := "/etc/resolver/" ++ name

/-- `/^[a-z0-9-]+$/`, and not reserved. What matches is in lower case, as ASCII has it. -/
def isRoutable (tld : String) : Bool :=
  !tld.isEmpty && tld.toList.all (fun c => Namespace.isAlphanumeric c || c == '-') &&
    !isReservedTld asciiLower tld

section Builders

variable (numberText : ℚ → String)

def resolvedServerSpec (target : RoutingTarget) : String :=
  if target.port = 53 then target.address
  else
    let host := if isIPv6 target.address then "[" ++ target.address ++ "]" else target.address
    host ++ ":" ++ numberText target.port

def routingDomains (tlds : List String) : String := join " " (tlds.map ("~" ++ ·))

def dnsDelegateFile (target : RoutingTarget) (tlds : List String) : String :=
  join "\n"
    ["# Written by TNP (tnp install / tnp connect). Routes TNP-native names, and",
      "# nothing else, to the local TNP resolver. Removed by tnp uninstall.", "[Delegate]",
      "DNS=" ++ resolvedServerSpec numberText target, "Domains=" ++ routingDomains tlds,
      "DefaultRoute=no", ""]

/-- Commands that set a link up, and that take it down. -/
structure LinkCommands where
  up : List String
  down : List String

/-- What undoes an owner's link. -/
def linkDown (owner : RoutingOwner) : List String :=
  ["resolvectl revert " ++ (ownerNames owner).link, "ip link delete " ++ (ownerNames owner).link]

def resolvedLinkCommands (target : RoutingTarget) (names : List String) (owner : RoutingOwner) :
    LinkCommands :=
  let link := (ownerNames owner).link
  { up :=
      ["ip link show " ++ link ++ " >/dev/null 2>&1 || ip link add " ++ link ++ " type dummy",
        "ip link set " ++ link ++ " up", "resolvectl default-route " ++ link ++ " false",
        "resolvectl domain " ++ link ++ " " ++ join " " (names.map ("\"~" ++ · ++ "\"")),
        "ip address replace " ++ (ownerNames owner).linkAddress ++ " dev " ++ link,
        "resolvectl dns " ++ link ++ " " ++ resolvedServerSpec numberText target]
    down := linkDown owner }

def macResolverFile (target : RoutingTarget) : String :=
  "nameserver " ++ target.address ++ "\nport " ++ numberText target.port ++ "\n"

end Builders

def nrptRemove (owner : RoutingOwner) : String :=
  "Get-DnsClientNrptRule | Where-Object \x7b $_.Comment -eq '" ++ (ownerNames owner).nrptComment ++
    "' \x7d | Remove-DnsClientNrptRule -Force"

def nrptAdd (server nameSpace : String) (owner : RoutingOwner) : String :=
  "Add-DnsClientNrptRule -Namespace '" ++ nameSpace ++ "' -NameServers '" ++ server ++
    "' -Comment '" ++ (ownerNames owner).nrptComment ++ "'"

/-- The script for namespaces that were checked. -/
def nrptScript (server : String) (nameSpaces : List String) (owner : RoutingOwner) : String :=
  join "; " (nrptRemove owner :: (nameSpaces.map fun ns => nrptAdd server ns owner) ++
    ["Clear-DnsClientCache"])

def utf16le (s : String) : Bytes :=
  (units s).flatMap fun u => [(u % 256).toUInt8, (u / 256).toUInt8]

def powershellCommand (script powershell : String) : String :=
  "\"" ++ powershell ++ "\" -NoProfile -NonInteractive -ExecutionPolicy Bypass -EncodedCommand " ++
    encodeBase64 (utf16le script)

/-! ### Personal rules -/

structure RuleRoute where
  name : String
  subtree : Bool
  deriving DecidableEq

/-- The labels of a name. -/
def labels (name : String) : List String := (name.toList.splitOn '.').map String.ofList

/-- `RULE_NAME_RE`. -/
def isRuleName (name : String) : Bool :=
  name.length ≤ 253 && 2 ≤ (labels name).length &&
    (labels name).all fun label => label.length ≤ 63 && matchesLabel label

/-- The label behind the last dot. -/
def lastLabel (name : String) : String := String.ofList (name.toList.rtakeWhile (· ≠ '.'))

def isNumeric (name : String) : Bool :=
  !name.isEmpty && name.toList.all fun c => c.isDigit || c == '.'

/-- The message of what a route is refused with. -/
def ruleRouteError (name : String) : Option String :=
  if !isRuleName name || isNumeric name then
    some "refusing to route a personal rule: not a multi-label domain name"
  else if ROUTED_TLDS.contains (lastLabel name) then
    some "refusing to route a TNP-native name as a personal rule: it is already routed"
  else none

/-- The routes in the order of their names, one for each name: a subtree route wins. -/
def normalizeRuleRoutes (routes : List RuleRoute) : List RuleRoute :=
  let byName := routes.foldl (fun (m : OrderedMap String Bool) r =>
    m.set r.name ((m.get r.name).getD false || r.subtree)) {}
  (byName.entries.insertionSort fun a b => units a.1 ≤ units b.1).map fun e => ⟨e.1, e.2⟩

def rulesDelegateFile (numberText : ℚ → String) (target : RoutingTarget)
    (routes : List RuleRoute) : String :=
  join "\n"
    ["# Written by TNP (tnp rules). Routes the public names your personal DNS",
      "# rules cover on this device, and nothing else, to the local TNP resolver.",
      "# Removed by tnp rules revoke/forget and tnp uninstall.", "[Delegate]",
      "DNS=" ++ resolvedServerSpec numberText target,
      "Domains=" ++ join " " (routes.map ("~" ++ ·.name)), "DefaultRoute=no", ""]

/-- The namespaces of a route: a name, and its suffix where it covers its subdomains. -/
def ruleNamespaces (route : RuleRoute) : List String :=
  if route.subtree then [route.name, "." ++ route.name] else [route.name]

/-! ### Records -/

inductive RoutingMechanism
  | dnsDelegate
  | resolvedLink
  | macosResolver
  | windowsNrpt
  | none
  deriving DecidableEq, Repr

/-- A record without a prototype in its way: its keys are paths. -/
abbrev Record := List (String × String)

/-- What was added, so that teardown removes exactly that. -/
structure RoutingState where
  owner : RoutingOwner
  mechanism : RoutingMechanism
  target : Option RoutingTarget
  tlds : List String
  files : List String
  backups : Record
  written : Record
  down : List String
  adapterSnapshot : Option String := none
  routes : Option (List RuleRoute) := none
  deriving DecidableEq

structure Deps (σ : Type) where
  platform : Platform
  run : String → Act σ String
  existsSync : String → Act σ Bool
  read : String → Act σ String
  write : String → String → Act σ Unit
  remove : String → Act σ Unit
  /-- The path of PowerShell. -/
  powershell : String

/-- `startsWith('# Written by TNP')`. -/
def writtenByTnp (content : String) : Bool := "# Written by TNP".toList.isPrefixOf content.toList

section Apply

variable {σ : Type} (numberText : ℚ → String) (deps : Deps σ)

def tryRun (cmd : String) : Act σ Bool := do
  let out ← (deps.run cmd).attempt
  return out.isSome

/-! ### What earlier versions left -/

def removeLegacyResolvedDropin : Act σ Unit := do
  if ← deps.existsSync LEGACY_RESOLVED_DROPIN then
    deps.remove LEGACY_RESOLVED_DROPIN
    let _ ← tryRun deps "systemctl try-reload-or-restart systemd-resolved"

/-- `/^nameserver 127\.0\.0\.1$/m`. -/
def pointsAtLoopback (content : String) : Bool :=
  (lineStarts content.toList).any fun line =>
    line.takeWhile (fun c => !isLineEnd c) == "nameserver 127.0.0.1".toList

def removeLegacyMacResolverFiles : List String → Act σ Unit
  | [] => return
  | tld :: tlds => do
    if ← deps.existsSync (resolverPath tld) then
      if let some content ← (deps.read (resolverPath tld)).attempt then
        if pointsAtLoopback content then deps.remove (resolverPath tld)
    removeLegacyMacResolverFiles tlds

/-! ### Ways to route -/

/-- What a file holds that is someone else's. -/
def foreignContent (path : String) (isForeign : String → Bool) : Act σ (Option String) := do
  if ← deps.existsSync path then
    let existing ← deps.read path
    return if isForeign existing then some existing else none
  else return none

/-- What systemd-resolved can do, where it is running. -/
def resolvedMechanism : Act σ RoutingMechanism := do
  if ← deps.existsSync "/run/systemd/resolve" then
    let out ← (deps.run "systemctl --version").attempt
    let version := (out.bind parseSystemdVersion).getD 0
    return if DNS_DELEGATE_MIN_SYSTEMD ≤ version then .dnsDelegate else .resolvedLink
  else return .none

def writeDelegate (content : String) (state : RoutingState) : Act σ RoutingState := do
  let path := (ownerNames state.owner).delegate
  deps.write path content
  let _ ← tryRun deps "systemctl try-reload-or-restart systemd-resolved"
  return { state with
    files := [path]
    written := [(path, content)]
    mechanism := .dnsDelegate }

def runAll : List String → Act σ Unit
  | [] => return
  | cmd :: cmds => do
    let _ ← deps.run ("sh -c '" ++ cmd ++ "'")
    runAll cmds

def setUpLink (link : LinkCommands) (state : RoutingState) : Act σ RoutingState := do
  runAll deps link.up
  return { state with mechanism := .resolvedLink, down := link.down }

def addNrptRules (nameSpaces : List String) (target : RoutingTarget) (state : RoutingState) :
    Act σ RoutingState :=
  if isIP target.address = 0 then
    .error ("NRPT name server must be an IP address: " ++ target.address)
  else do
    let script := nrptScript target.address nameSpaces state.owner
    let _ ← deps.run (powershellCommand script deps.powershell)
    return { state with mechanism := .windowsNrpt }

def newState (owner : RoutingOwner) (target : RoutingTarget) (tlds : List String) : RoutingState :=
  { owner, mechanism := .none, target, tlds, files := [], backups := [], written := [], down := [] }

/-! ### Routing native names -/

structure ApplyOptions where
  target : RoutingTarget
  owner : RoutingOwner
  linkCommandsInUnit : Bool := false
  tlds : List String := ROUTED_TLDS

/-- One resolver file for each label. -/
def writeResolverFiles (content : String) : List String → RoutingState → Act σ RoutingState
  | [], state => return state
  | tld :: tlds, state => do
    let path := resolverPath tld
    let existing ← foreignContent deps path (· != content)
    deps.write path content
    writeResolverFiles content tlds
      { state with
        backups :=
          match existing with
          | some existing => OrderedMap.setEntries path existing state.backups
          | none => state.backups
        files := state.files ++ [path]
        written := OrderedMap.setEntries path content state.written }

/-- Native names through systemd-resolved. -/
def applyResolved (options : ApplyOptions) (state : RoutingState) : Act σ RoutingState := do
  removeLegacyResolvedDropin deps
  let _ ← (deps.run "resolvectl dns").attempt
  match ← resolvedMechanism deps with
  | .dnsDelegate =>
    let delegate := (ownerNames options.owner).delegate
    let existing ← foreignContent deps delegate (!writtenByTnp ·)
    writeDelegate deps (dnsDelegateFile numberText options.target options.tlds)
      { state with backups := existing.toList.map (delegate, ·) }
  | .resolvedLink =>
    -- A unit of the service runs the commands where it should.
    if options.linkCommandsInUnit then return { state with mechanism := .resolvedLink }
    else
      setUpLink deps
        (resolvedLinkCommands numberText options.target options.tlds options.owner) state
  | _ => return state

def applyNativeRouting (options : ApplyOptions) : Act σ RoutingState :=
  let state := newState options.owner options.target options.tlds
  match options.tlds.find? (!isRoutable ·) with
  | some tld => .error ("refusing to route ." ++ tld ++ " to TNP: not a TNP-native TLD")
  | none =>
    match deps.platform with
    | .darwin => do
      removeLegacyMacResolverFiles deps LEGACY_MAC_RESOLVER_TLDS
      let content := macResolverFile numberText options.target
      let state ← writeResolverFiles deps content options.tlds state
      return { state with mechanism := .macosResolver }
    | .win32 => addNrptRules deps (options.tlds.map ("." ++ ·)) options.target state
    | .linux | .other => applyResolved numberText deps options state

/-! ### Routing the names of rules -/

/-- A file that exists is someone else's. -/
def writeRuleFiles (content : String) : List RuleRoute → RoutingState → Act σ RoutingState
  | [], state => return state
  | route :: routes, state => do
    let path := resolverPath route.name
    if ← deps.existsSync path then writeRuleFiles content routes state
    else
      deps.write path content
      writeRuleFiles content routes
        { state with
          files := state.files ++ [path]
          written := OrderedMap.setEntries path content state.written
          routes := some (state.routes.getD [] ++ [route]) }

/-- The names of rules through systemd-resolved. -/
def applyRulesResolved (target : RoutingTarget) (routes : List RuleRoute) (state : RoutingState) :
    Act σ RoutingState := do
  match ← resolvedMechanism deps with
  | .dnsDelegate =>
    let existing ← foreignContent deps (ownerNames .rules).delegate (!writtenByTnp ·)
    if existing.isSome then return state
    else
      writeDelegate deps (rulesDelegateFile numberText target routes)
        { state with routes := some routes }
  | .resolvedLink =>
    setUpLink deps (resolvedLinkCommands numberText target (routes.map RuleRoute.name) .rules)
      { state with routes := some routes }
  | _ => return state

def applyRuleRouting (target : RoutingTarget) (rules : List RuleRoute) : Act σ RoutingState :=
  let routes := normalizeRuleRoutes rules
  let state := { newState .rules target [] with routes := some [] }
  match routes.findSome? fun route => ruleRouteError route.name with
  | some message => .error message
  | none =>
    if routes = [] then return state
    else
      match deps.platform with
      | .darwin => do
        let state ← writeRuleFiles deps (macResolverFile numberText target) routes state
        return { state with mechanism := .macosResolver }
      | .win32 =>
        if target.port ≠ 53 then return state
        else
          addNrptRules deps (routes.flatMap ruleNamespaces) target
            { state with routes := some routes }
      | .linux | .other => applyRulesResolved numberText deps target routes state

end Apply

/-! ### Records that are read back -/

def RoutingOwner.text : RoutingOwner → String
  | .install => "install"
  | .connect => "connect"
  | .rules => "rules"

def ROUTING_OWNERS : List RoutingOwner := [.install, .connect, .rules]

def RoutingMechanism.text : RoutingMechanism → String
  | .dnsDelegate => "dns-delegate"
  | .resolvedLink => "resolved-link"
  | .macosResolver => "macos-resolver"
  | .windowsNrpt => "windows-nrpt"
  | .none => "none"

def ROUTING_MECHANISMS : List RoutingMechanism :=
  [.dnsDelegate, .resolvedLink, .macosResolver, .windowsNrpt, .none]

/-- `/^127\.\d{1,3}\.\d{1,3}\.\d{1,3}$/`, or `::1`. -/
def isLoopback (address : String) : Bool :=
  address == "::1" ||
    match labels address with
    | [first, a, b, c] =>
      first == "127" && [a, b, c].all fun part =>
        1 ≤ part.length && part.length ≤ 3 && part.toList.all Char.isDigit
    | _ => false

/-- The name of a resolver file: up to 253 of the characters that names have. -/
def resolverName (path : String) : Option String :=
  let directory := "/etc/resolver/".toList
  let name := path.toList.drop directory.length
  if directory.isPrefixOf path.toList && 1 ≤ name.length && name.length ≤ 253 &&
      name.all fun c => Namespace.isAlphanumeric c || c == '.' || c == '-' then
    some (String.ofList name)
  else none

def routingFileAllowed (owner : RoutingOwner) (path : String) (platform : Platform) : Bool :=
  match platform with
  | .darwin =>
    match resolverName path with
    | none => false
    | some name => if owner = .rules then isRuleName name else ROUTED_TLDS.contains name
  | .linux => path == (ownerNames owner).delegate
  | .win32 | .other => false

def downCommandAllowed (owner : RoutingOwner) (cmd : String) (platform : Platform) : Bool :=
  platform == .linux && (linkDown owner).contains cmd

def text : Value → Option String
  | .string s => some s
  | _ => none

/-- The elements of an array that are strings. -/
def strings : Value → List String
  | .array items => items.filterMap text
  | _ => []

/-- The entries of an object whose values are strings. The keys of an array are no paths. -/
def entries : Value → Record
  | .object fields => fields.filterMap fun e => (text e.2).map fun content => (e.1, content)
  | _ => []

def keep (files : List String) (record : Record) : Record :=
  record.filter fun e => files.contains e.1

def readTarget (t : Value) : Option RoutingTarget :=
  match t.get "address", t.get "port" with
  | .string address, .number port =>
    if isIP address ≠ 0 ∧ port.den = 1 ∧ 0 < port ∧ port < 65536 then some ⟨address, port⟩
    else none
  | _, _ => none

def readOwner : Value → Option RoutingOwner
  | .string s => ROUTING_OWNERS.find? (·.text == s)
  | _ => none

def readMechanism : Value → RoutingMechanism
  | .string s => (ROUTING_MECHANISMS.find? (·.text == s)).getD .none
  | _ => .none

/-- Of what else an entry has, nothing is read. -/
def readRoute (route : Value) : Option RuleRoute :=
  match route.get "name", route.get "subtree" with
  | .string name, .bool subtree => some ⟨name, subtree⟩
  | _, _ => none

def readRoutes : Value → Option (List RuleRoute)
  | .array items => some (items.filterMap readRoute)
  | _ => none

/-- The fields of a routing record, and its owner. -/
def routingRecord (value : Value) : Option (List (String × Value) × RoutingOwner) :=
  match value with
  | .object raw =>
    match Value.field raw "version", readOwner (Value.field raw "owner") with
    | .number x, some owner => if x = 1 then some (raw, owner) else none
    | _, _ => none
  | _ => none

def sanitizeRoutingState (value : Value) (platform : Platform) (legacy : Bool) :
    Option RoutingState :=
  (routingRecord value).map fun (raw, owner) =>
    let files := (strings (Value.field raw "files")).filter (routingFileAllowed owner · platform)
    let target := readTarget (Value.field raw "target")
    { owner
      mechanism := readMechanism (Value.field raw "mechanism")
      target := if legacy then target.filter (isLoopback ·.address) else target
      tlds := strings (Value.field raw "tlds")
      files
      backups := if legacy then [] else keep files (entries (Value.field raw "backups"))
      written := keep files (entries (Value.field raw "written"))
      down := (strings (Value.field raw "down")).filter (downCommandAllowed owner · platform)
      adapterSnapshot := text (Value.field raw "adapterSnapshot")
      routes := readRoutes (Value.field raw "routes") }

/-! ### How a record is written -/

def RoutingTarget.value (target : RoutingTarget) : Value :=
  .object [("address", .string target.address), ("port", .number target.port)]

def RuleRoute.value (route : RuleRoute) : Value :=
  .object [("name", .string route.name), ("subtree", .bool route.subtree)]

def recordValue (record : Record) : Value :=
  .object (record.map fun e => (e.1, .string e.2))

/-- What is absent is not written. -/
def RoutingState.fields (state : RoutingState) : List (String × Value) :=
  [("version", .number 1), ("owner", .string state.owner.text),
    ("mechanism", .string state.mechanism.text),
    ("target", (state.target.map RoutingTarget.value).getD .null),
    ("tlds", .array (state.tlds.map .string)), ("files", .array (state.files.map .string)),
    ("backups", recordValue state.backups), ("written", recordValue state.written),
    ("down", .array (state.down.map .string))] ++
    (state.adapterSnapshot.map fun s => ("adapterSnapshot", Value.string s)).toList ++
    (state.routes.map fun rs => ("routes", Value.array (rs.map RuleRoute.value))).toList

def RoutingState.value (state : RoutingState) : Value := .object state.fields

end Tnp.Client.DnsRouting
