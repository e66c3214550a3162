/-
Elise/Router/Routes.lean

Routes and the router that goes through them (src/config/routes.rs,
src/proxy/router/mod.rs): outbounds, the entries of a routes file, and
`match_outbound`.

The entries come first, in order.  An entry accepts a connection if its
filters for node, network and port let it pass and one of its other rules
matches, or it has no other rules; one of its outbounds is then drawn.
`roll` is the number that was drawn.  The rules follow, then the default.
-/
import Elise.Security.Audit

namespace Elise

open Net

structure OutboundConfig where
  tag : List Char
  outboundType : List Char
  server : Option (List Char) := none
  address : Option (List Char) := none
  port : Option UInt16 := none
  username : Option (List Char) := none
  password : Option (List Char) := none
  uuid : Option (List Char) := none
  alterId : Option UInt16 := none
  cipher : Option (List Char) := none
  network : Option (List Char) := none
  flow : Option (List Char) := none
  security : Option (List Char) := none
  tls : Option Bool := none
  sni : Option (List Char) := none
  wsPath : Option (List Char) := none
  h2Path : Option (List Char) := none
  h2Host : Option (List Char) := none
  grpcServiceName : Option (List Char) := none
  realityPublicKey : Option (List Char) := none
  realityShortId : Option (List Char) := none
  listen : Option (List Char) := none
  deriving DecidableEq

namespace OutboundConfig

/-- An outbound with a tag and a type and nothing else. -/
def plain (tag outboundType : List Char) : OutboundConfig where
  tag := tag
  outboundType := outboundType

def direct : OutboundConfig := plain "direct".toList "direct".toList

def block : OutboundConfig := plain "block".toList "block".toList

def normalizedType (env : Matching) (ob : OutboundConfig) : List Char :=
  let t := env.lower (Text.trim ob.outboundType)
  if t = "freedom".toList then "direct".toList
  else if t = "reject".toList then "block".toList
  else if t = "socks5".toList then "socks".toList
  else if t = "shadowsocks".toList then "ss".toList
  else t

def targetHost (ob : OutboundConfig) : Option (List Char) := ob.server.or ob.address

end OutboundConfig

structure TomlRouteEntry where
  rules : List (List Char)
  outs : List OutboundConfig

structure RuleConfig where
  nodeId : List UInt32
  network : Option (List Char)
  domain : List (List Char)
  domainSuffix : List (List Char)
  domainKeyword : List (List Char)
  ip : List (List Char)
  port : List (List Char)
  outbound : List Char

structure RoutesConfig where
  defaultOutbound : List Char
  outbounds : List OutboundConfig
  rules : List RuleConfig
  tomlRoutes : List TomlRouteEntry

def RoutesConfig.default : RoutesConfig where
  defaultOutbound := "direct".toList
  outbounds := [.direct, .block]
  rules := []
  tomlRoutes := []

structure MatchContext where
  nodeId : UInt32
  network : List Char
  targetHost : List Char
  targetIp : Option IpAddr
  targetPort : UInt16

section

variable {env : Matching} (geo : GeoEngine env)

/-! ### The entries of a routes file -/

/-- What the rules of an entry come down to. -/
structure RouteFilters where
  nodeFilters : List UInt32
  networkFilters : List (List Char)
  portFilters : List (UInt16 × UInt16)
  destRules : List (List Char)

/-- Sort one rule into its kind. -/
def RouteFilters.add (env : Matching) (f : RouteFilters) (ruleStr : List Char) : RouteFilters :=
  let rule := Text.trim ruleStr
  if rule.isEmpty ∨ rule.head? = some '#' then f
  else if let some node := Text.stripAny ["node_id:".toList] rule then
    let ids := (node.splitOn ',').filterMap fun part => parseId (Text.trim part)
    { f with nodeFilters := f.nodeFilters ++ ids }
  else if let some net := Text.stripAny ["network:".toList] rule then
    { f with networkFilters := f.networkFilters ++ [env.lower (Text.trim net)] }
  else if let some ports := Text.stripAny ["port:".toList, "port_range:".toList] rule then
    let ranges := (ports.splitOn ',').filterMap fun part => parsePortRange (Text.trim part)
    { f with portFilters := f.portFilters ++ ranges }
  else { f with destRules := f.destRules ++ [rule] }

def TomlRouteEntry.filters (env : Matching) (route : TomlRouteEntry) : RouteFilters :=
  route.rules.foldl (RouteFilters.add env) ⟨[], [], [], []⟩

/-- A network or an address in a rule, against the address of the target. -/
def matchAddress (env : Matching) (text : List Char) (targetIp : Option IpAddr) : Option Bool :=
  match env.parseNet text with
  | some net => some (targetIp.any fun tip => env.contains net tip)
  | none =>
      match env.parseIp text with
      | some exactIp => some (targetIp.any fun tip => tip == exactIp)
      | none => none

/-- Whether a rule for destinations matches. -/
def matchDestRule (ctx : MatchContext) (targetLower rule : List Char) : Bool :=
  if rule = ['*'] then true
  else if let some geosite := Text.stripAny ["geosite:".toList] rule then
    !targetLower.isEmpty && geo.matchGeosite (env.lower (Text.trim geosite)) targetLower
  else if let some geoip := Text.stripAny ["geoip:".toList] rule then
    ctx.targetIp.any fun tip => geo.matchGeoip (env.upper (Text.trim geoip)) tip
  else if let some domain :=
      Text.stripAny ["domain:".toList, "domain_suffix:".toList, "domain-suffix:".toList]
        rule then
    !targetLower.isEmpty && Text.underDomain (env.lower (Text.trim domain)) targetLower
  else if let some full := Text.stripAny ["full:".toList] rule then
    !targetLower.isEmpty && targetLower == env.lower (Text.trim full)
  else if let some kw :=
      Text.stripAny ["keyword:".toList, "domain_keyword:".toList, "domain-keyword:".toList]
        rule then
    !targetLower.isEmpty && Text.contains targetLower (env.lower (Text.trim kw))
  else if let some re := Text.stripAny ["regexp:".toList, "domain_regex:".toList] rule then
    (env.regexNew (Text.trim re)).any fun re => !targetLower.isEmpty && env.isMatch re targetLower
  else if let some text :=
      Text.stripAny ["ip:".toList, "cidr:".toList, "ip_cidr:".toList] rule then
    (matchAddress env (Text.trim text) ctx.targetIp).getD false
  else
    match matchAddress env rule ctx.targetIp with
    | some hit => hit
    | none =>
        if '*' ∈ rule then
          (env.regexNew (wildcard rule)).any fun re =>
            !targetLower.isEmpty && env.isMatch re targetLower
        else !targetLower.isEmpty && Text.underDomain (env.lower rule) targetLower

/-- The filters for node, network and port let a connection pass. -/
def RouteFilters.pass (f : RouteFilters) (ctx : MatchContext) : Bool :=
  (f.nodeFilters.isEmpty || f.nodeFilters.contains ctx.nodeId)
    && (f.networkFilters.isEmpty
      || f.networkFilters.any fun n => n == "all".toList || Text.eqIgnoreAsciiCase n ctx.network)
    && (f.portFilters.isEmpty || f.portFilters.any (inRange ctx.targetPort))

def matchTomlRoute (route : TomlRouteEntry) (ctx : MatchContext) (targetLower : List Char) :
    Bool :=
  let f := route.filters env
  f.pass ctx && (f.destRules.isEmpty || f.destRules.any (matchDestRule geo ctx targetLower))

/-! ### The rules -/

/-- A port of a rule; unlike those of the entries it is not trimmed. -/
def matchRulePort (ctx : MatchContext) (p : List Char) : Bool :=
  (parsePortRange p).any (inRange ctx.targetPort)

/-- Every part of a rule that is there matches. -/
def matchRule (env : Matching) (rule : RuleConfig) (ctx : MatchContext) (targetLower : List Char) :
    Bool :=
  (rule.nodeId.isEmpty || rule.nodeId.contains ctx.nodeId)
    && (rule.network.all fun net => net == "all".toList || Text.eqIgnoreAsciiCase net ctx.network)
    && (rule.port.isEmpty || rule.port.any (matchRulePort ctx))
    && (rule.domain.isEmpty || rule.domain.any fun d => Text.eqIgnoreAsciiCase d targetLower)
    && (rule.domainSuffix.isEmpty
      || rule.domainSuffix.any fun sfx => Text.underDomain (env.lower sfx) targetLower)
    && (rule.domainKeyword.isEmpty
      || rule.domainKeyword.any fun kw => Text.contains targetLower (env.lower kw))
    && (rule.ip.isEmpty
      || ctx.targetIp.any fun tip =>
        rule.ip.any fun cidr => (env.parseNet cidr).any fun net => env.contains net tip)

/-! ### The outbound -/

/-- One of the outbounds of an entry. -/
def choose (roll : Nat) (outs : List OutboundConfig) : Option OutboundConfig :=
  outs[roll % outs.length]?

/-- The outbound that an entry leads to, if it accepts. -/
def routeOut (ctx : MatchContext) (targetLower : List Char) (roll : Nat)
    (route : TomlRouteEntry) : Option OutboundConfig :=
  if matchTomlRoute geo route ctx targetLower then choose roll route.outs else none

def findOutbound (outbounds : List OutboundConfig) (tag : List Char) : Option OutboundConfig :=
  outbounds.find? fun o => o.tag == tag

/-- The outbound that a rule leads to, if it matches and there is one with its
tag. -/
def ruleOut (env : Matching) (outbounds : List OutboundConfig) (ctx : MatchContext)
    (targetLower : List Char) (rule : RuleConfig) : Option OutboundConfig :=
  if matchRule env rule ctx targetLower then findOutbound outbounds rule.outbound else none

def matchOutbound (cfg : RoutesConfig) (roll : Nat) (ctx : MatchContext) : OutboundConfig :=
  let targetLower := env.lower ctx.targetHost
  let found := (cfg.tomlRoutes.findSome? (routeOut geo ctx targetLower roll)).or
    (cfg.rules.findSome? (ruleOut env cfg.outbounds ctx targetLower))
  (found.or (findOutbound cfg.outbounds cfg.defaultOutbound)).getD .direct

end

end Elise
