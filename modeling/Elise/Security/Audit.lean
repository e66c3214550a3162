/-
Elise/Security/Audit.lean

The audit of destinations (src/security/audit.rs): the lines of a list become rules,
`matches_full` looks for one that matches, and `should_block` puts the white list before
everything else.

The router asks the same questions about a destination, so what both take from elsewhere comes
first.  `Matching` holds what the crates for networks and regular expressions and the Unicode
tables give; port ranges are read as they are written in rules.  The geo files (src/geo/) are
read once and never again, so that a list in the cache is the list of the file; `GeoEngine` is
what the files say.
-/
import Elise.Conn.ProxyProtocol

namespace Elise

open Net

/-- Networks, regular expressions and letter cases. -/
structure Matching where
  IpNet : Type
  Regex : Type
  contains : IpNet → IpAddr → Bool
  parseNet : List Char → Option IpNet
  parseIp : List Char → Option IpAddr
  regexNew : List Char → Option Regex
  isMatch : Regex → List Char → Bool
  lower : List Char → List Char
  upper : List Char → List Char
  /-- In ASCII, lower case is what it is in ASCII. -/
  lower_ascii : ∀ cs, (∀ c ∈ cs, c.toNat < 128) → lower cs = Text.toAsciiLowercase cs

theorem Matching.lower_of_all (env : Matching) {cs : List Char}
    (h : cs.all (fun c => c.toNat < 128) = true) : env.lower cs = Text.toAsciiLowercase cs := by
  apply env.lower_ascii
  simpa using h

/-! ### Wildcards -/

/-- The characters that `regex::escape` puts a backslash before. -/
def regexMeta : List Char := "\\.+*?()|[]\x7b\x7d^$#&-~".toList

def regexEscape (cs : List Char) : List Char :=
  cs.flatMap fun c => if c ∈ regexMeta then ['\\', c] else [c]

/-- `.replace(r"\*", ".*")`. -/
def replaceStars : List Char → List Char
  | '\\' :: '*' :: rest => '.' :: '*' :: replaceStars rest
  | c :: rest => c :: replaceStars rest
  | [] => []

/-- The expression for a text with stars. -/
def wildcard (text : List Char) : List Char := '^' :: replaceStars (regexEscape text) ++ ['$']

/-! ### Numbers in rules -/

/-- `parse::<u32>()`. -/
def parseId (cs : List Char) : Option UInt32 :=
  (Text.parseUnsigned 4294967295 cs).map UInt32.ofNat

/-- A port, or a range of ports. -/
def parsePortRange (part : List Char) : Option (UInt16 × UInt16) :=
  match Text.splitOnce '-' part with
  | some (start, stop) =>
      match parseU16 (Text.trim start), parseU16 (Text.trim stop) with
      | some start, some stop => some (start, stop)
      | _, _ => none
  | none => (parseU16 part).map fun port => (port, port)

def inRange (port : UInt16) (range : UInt16 × UInt16) : Bool := range.1 ≤ port && port ≤ range.2

/-! ### Geo data -/

/-- The networks of a country as ranges of numbers.  `merge_and_sort` has
sorted them and joined those that meet, so the binary search of the source
finds an address exactly if one of them holds it. -/
structure CountryIpList where
  ipv4Ranges : List (Nat × Nat)
  ipv6Ranges : List (Nat × Nat)
  sorted4 : ipv4Ranges.Pairwise fun r s => r.2 < s.1
  sorted6 : ipv6Ranges.Pairwise fun r s => r.2 < s.1

namespace CountryIpList

def contains (list : CountryIpList) : IpAddr → Bool
  | .v4 v4 => list.ipv4Ranges.any fun (start, stop) => start ≤ v4.toNat && v4.toNat ≤ stop
  | .v6 v6 => list.ipv6Ranges.any fun (start, stop) => start ≤ v6.toNat && v6.toNat ≤ stop

end CountryIpList

structure SiteGroupList (env : Matching) where
  exactDomains : List (List Char)
  domainSuffixes : List (List Char)
  keywords : List (List Char)
  regexes : List env.Regex

def SiteGroupList.matches {env : Matching} (group : SiteGroupList env) (domain : List Char) :
    Bool :=
  let lower := env.lower domain
  group.exactDomains.contains lower || group.domainSuffixes.any (Text.underDomain · lower)
    || group.keywords.any (Text.contains lower ·) || group.regexes.any (env.isMatch · lower)

/-- What the two files say; a missing file says nothing. -/
structure GeoEngine (env : Matching) where
  loadCountry : List Char → Option CountryIpList
  loadGroup : List Char → Option (SiteGroupList env)

namespace GeoEngine

variable {env : Matching}

def matchGeoip (geo : GeoEngine env) (country : List Char) (ip : IpAddr) : Bool :=
  match geo.loadCountry (env.upper (Text.trim country)) with
  | some list => list.contains ip
  | none => false

def matchGeosite (geo : GeoEngine env) (tag domain : List Char) : Bool :=
  match geo.loadGroup (env.lower (Text.trim tag)) with
  | some group => group.matches domain
  | none => false

/-- No files. -/
def none : GeoEngine env := ⟨fun _ => .none, fun _ => .none⟩

end GeoEngine

/-- What small examples need: the addresses in `known` are read, a network is
one address, there are no expressions and letters are ASCII. -/
def asciiMatching (known : List IpAddr) : Matching where
  IpNet := IpAddr
  Regex := Empty
  contains net ip := net == ip
  parseNet _ := none
  parseIp cs := known.find? fun ip => ip.chars == cs
  regexNew _ := none
  isMatch re _ := nomatch re
  lower := Text.toAsciiLowercase
  upper cs := cs.map Char.toUpper
  lower_ascii _ _ := rfl

inductive RuleItem (env : Matching) where
  | keyword (kw : List Char)
  | regex (re : env.Regex)
  | cidr (net : env.IpNet)
  | ip (addr : IpAddr)
  | portRange (start stop : UInt16)
  | domainSuffix (suffix : List Char)
  | fullDomain (full : List Char)
  | geoSite (tag : List Char)
  | geoIp (country : List Char)
  | nodeId (ids : List UInt32)
  | network (net : List Char)
  | all

namespace RuleItem

variable {env : Matching}

/-! ### Reading a list -/

/-- `ip:`, and a line without a head: a network, or an address. -/
def parseAddress (text : List Char) : Option (RuleItem env) :=
  ((env.parseNet text).map .cidr).or ((env.parseIp text).map .ip)

/-- A line without a head that is no address: an expression if it has stars,
otherwise a keyword. -/
def parsePlain (line : List Char) : List (RuleItem env) :=
  match parseAddress line with
  | some item => [item]
  | none =>
      if '*' ∈ line then ((env.regexNew (wildcard line)).map .regex).toList
      else [.keyword (env.lower line)]

/-- The rules of one line that is neither empty nor a comment. -/
def parseLine (line : List Char) : List (RuleItem env) :=
  if line = ['*'] then [.all]
  else if let some geosite := Text.stripAny ["geosite:".toList] line then
    [.geoSite (env.lower (Text.trim geosite))]
  else if let some geoip := Text.stripAny ["geoip:".toList] line then
    [.geoIp (env.upper (Text.trim geoip))]
  else if let some domain := Text.stripAny ["domain:".toList] line then
    [.domainSuffix (env.lower (Text.trim domain))]
  else if let some domain :=
      Text.stripAny ["domain_suffix:".toList, "domain-suffix:".toList] line then
    [.domainSuffix (env.lower (Text.trim domain))]
  else if let some full := Text.stripAny ["full:".toList] line then
    [.fullDomain (env.lower (Text.trim full))]
  else if let some kw :=
      Text.stripAny ["keyword:".toList, "domain_keyword:".toList, "domain-keyword:".toList]
        line then
    [.keyword (env.lower (Text.trim kw))]
  else if let some re := Text.stripAny ["regexp:".toList, "domain_regex:".toList] line then
    ((env.regexNew (Text.trim re)).map .regex).toList
  else if let some text := Text.stripAny ["cidr:".toList, "ip_cidr:".toList] line then
    ((env.parseNet (Text.trim text)).map .cidr).toList
  else if let some text := Text.stripAny ["ip:".toList] line then
    (parseAddress (Text.trim text)).toList
  else if let some ports := Text.stripAny ["port:".toList] line then
    (ports.splitOn ',').filterMap fun part =>
      (parsePortRange (Text.trim part)).map fun (start, stop) => .portRange start stop
  else if let some node := Text.stripAny ["node_id:".toList] line then
    let ids := (node.splitOn ',').filterMap fun part => parseId (Text.trim part)
    if ids.isEmpty then [] else [.nodeId ids]
  else if let some net := Text.stripAny ["network:".toList] line then
    [.network (env.lower (Text.trim net))]
  else parsePlain line

/-- `RuleMatcher::reload`. -/
def reload (content : List Char) : List (RuleItem env) :=
  (Text.lines content).flatMap fun line =>
    let line := Text.trim line
    if line.isEmpty ∨ line.head? = some '#' ∨ line.head? = some ';' then [] else parseLine line

/-! ### Matching -/

/-- What a rule is asked about. -/
structure Query where
  domain : List Char
  ip : Option IpAddr
  port : UInt16
  nodeId : Option UInt32
  network : Option (List Char)

/-- Whether one rule matches; `lowerDomain` is the name in lower case. -/
def matchesQuery (geo : GeoEngine env) (q : Query) (lowerDomain : List Char) : RuleItem env → Bool
  | all => true
  | keyword kw => !lowerDomain.isEmpty && Text.contains lowerDomain kw
  | regex re => !lowerDomain.isEmpty && env.isMatch re lowerDomain
  | domainSuffix suffix => !lowerDomain.isEmpty && Text.underDomain suffix lowerDomain
  | fullDomain full => !lowerDomain.isEmpty && lowerDomain == full
  | geoSite tag => !lowerDomain.isEmpty && geo.matchGeosite tag lowerDomain
  | geoIp country => q.ip.any fun targetIp => geo.matchGeoip country targetIp
  | cidr net => q.ip.any fun targetIp => env.contains net targetIp
  | ip expected => q.ip.any fun targetIp => targetIp == expected
  | portRange start stop => inRange q.port (start, stop)
  | nodeId ids => q.nodeId.any fun nid => ids.contains nid
  | network net => q.network.any fun n => net == "all".toList || Text.eqIgnoreAsciiCase net n

/-- The keyword stands somewhere in the payload, whatever the case of its
ASCII letters. -/
def keywordInPayload (kw payload : List UInt8) : Bool :=
  !kw.isEmpty &&
    (List.range (payload.length + 1 - kw.length)).any fun i =>
      ((payload.drop i).take kw.length).map asciiLower == kw.map asciiLower
where
  asciiLower (b : UInt8) : UInt8 := if 0x41 ≤ b ∧ b ≤ 0x5A then b + 0x20 else b

def matchesPayload (payload : List UInt8) : RuleItem env → Bool
  | keyword kw => keywordInPayload (Text.toUtf8 kw) payload
  | regex re =>
      match Text.fromUtf8 payload with
      | some text => env.isMatch re text
      | none => false
  | _ => false

end RuleItem

/-- `RuleMatcher::matches_full`. -/
def matchesFull {env : Matching} (geo : GeoEngine env) (items : List (RuleItem env))
    (q : RuleItem.Query) : Bool :=
  items.any (RuleItem.matchesQuery geo q (env.lower q.domain))

/-- `RuleMatcher::matches_payload`. -/
def matchesPayload {env : Matching} (items : List (RuleItem env)) (payload : List UInt8) : Bool :=
  !payload.isEmpty && items.any (RuleItem.matchesPayload payload)

/-! ### Private addresses -/

namespace PrivateIp

/-- The ranges that `Ipv4Addr` knows by name: private, loopback, link-local,
broadcast, documentation, unspecified. -/
def isPrivateV4 (v4 : Ipv4Addr) : Bool :=
  match v4.octets with
  | [a, b, c, d] =>
      (a == 10 || (a == 172 && 16 ≤ b && b ≤ 31) || (a == 192 && b == 168))
        || a == 127
        || (a == 169 && b == 254)
        || (a == 255 && b == 255 && c == 255 && d == 255)
        || ((a == 192 && b == 0 && c == 2) || (a == 198 && b == 51 && c == 100)
          || (a == 203 && b == 0 && c == 113))
        || (a == 0 && b == 0 && c == 0 && d == 0)
  | _ => false

def isPrivateV6 (v6 : Ipv6Addr) : Bool :=
  let first := v6.segments.headD 0
  v6.toNat == 1 || v6.toNat == 0 || (first &&& 0xfe00) == 0xfc00 || (first &&& 0xffc0) == 0xfe80

end PrivateIp

/-- `AuditController::is_private_ip`; an IPv4-mapped address is looked at as
the address in it. -/
def isPrivateIp : IpAddr → Bool
  | .v4 v4 => PrivateIp.isPrivateV4 v4
  | .v6 v6 => v6.toIpv4Mapped.any PrivateIp.isPrivateV4 || PrivateIp.isPrivateV6 v6

/-! ### The controller -/

structure AuditController (env : Matching) where
  blockList : List (RuleItem env)
  whiteList : List (RuleItem env)
  forbiddenPorts : List (UInt16 × UInt16)
  banPrivateIp : Bool
  forbiddenBitTorrent : Bool

namespace AuditController

variable {env : Matching} (geo : GeoEngine env) (audit : AuditController env)

/-- A name, or an address, of a private network. -/
def isPrivateTarget (q : RuleItem.Query) : Bool :=
  Text.eqIgnoreAsciiCase q.domain "localhost".toList || q.ip.any isPrivateIp

/-- The ports and names of BitTorrent. -/
def isBitTorrent (env : Matching) (q : RuleItem.Query) : Bool :=
  let lower := env.lower q.domain
  inRange q.port (6881, 6889) || Text.contains lower "torrent".toList
    || Text.contains lower "tracker".toList || Text.contains lower "peer_id".toList

def shouldBlockFull (q : RuleItem.Query) : Bool :=
  if matchesFull geo audit.whiteList q then false
  else if audit.banPrivateIp && isPrivateTarget q then true
  else if audit.forbiddenPorts.any (inRange q.port) then true
  else if audit.forbiddenBitTorrent && isBitTorrent env q then true
  else matchesFull geo audit.blockList q

def shouldBlock (domain : List Char) (ip : Option IpAddr) (port : UInt16) : Bool :=
  audit.shouldBlockFull geo ⟨domain, ip, port, none, none⟩

def shouldBlockPayload (payload : List UInt8) : Bool :=
  if payload.isEmpty then false
  else if matchesPayload audit.whiteList payload then false
  else matchesPayload audit.blockList payload

end AuditController

end Elise
