/-
Elise/Config/Global.lean

The part of the global configuration that decides about PROXY headers
(src/config/global.rs): `GlobalConfig::parse`, the three keys of `apply_kv`
that touch it, the variables of the environment that are laid over it, what a
node lays over it (src/proxy/node.rs) and `get_proxy_protocol_mode`.

Parameters: `lower`, Unicode lower-casing; `parseNet` and `parseIp`, which read
a network and an address; `ofIp`, the network of one address.
-/
import Elise.Conn.ProxyProtocol

namespace Elise

open Net

namespace ProxyProtocolMode

def fromStrOpt (val : List Char) : ProxyProtocolMode :=
  let val := Text.toAsciiLowercase val
  if val = "strict".toList ∨ val = "force".toList ∨ val = "1".toList ∨ val = "true".toList then
    .strict
  else if val = "auto".toList ∨ val = "detect".toList then .auto
  else .off

end ProxyProtocolMode

structure GlobalConfig (IpNet : Type) where
  proxyProtocol : Bool
  forceProxyProtocol : Bool
  proxyProtocolMode : ProxyProtocolMode
  trustedProxies : Option (List IpNet)

namespace GlobalConfig

section

variable {IpNet : Type} (lower : List Char → List Char)
variable (parseNet : List Char → Option IpNet) (parseIp : List Char → Option IpAddr)
variable (ofIp : IpAddr → IpNet)

def default : GlobalConfig IpNet := ⟨false, false, .off, none⟩

/-- `val.eq_ignore_ascii_case("true") || val == "1"`. -/
def isTrue (val : List Char) : Bool :=
  Text.eqIgnoreAsciiCase val "true".toList || val == "1".toList

/-- One entry of `trusted_proxies`: a network, or an address. -/
def parseTrusted (entry : List Char) : Option IpNet :=
  let entry := Text.trim entry
  if entry.isEmpty then none
  else (parseNet entry).or ((parseIp entry).map ofIp)

/-- The keys other than these three leave all four fields as they are. -/
def applyKv (cfg : GlobalConfig IpNet) (key val : List Char) : GlobalConfig IpNet :=
  if key = "proxy_protocol".toList then
    { cfg with
      proxyProtocol := isTrue val || Text.eqIgnoreAsciiCase val "auto".toList
      proxyProtocolMode := .fromStrOpt val }
  else if key = "force_proxy_protocol".toList then
    if isTrue val then
      { cfg with forceProxyProtocol := true, proxyProtocol := true, proxyProtocolMode := .strict }
    else { cfg with forceProxyProtocol := false }
  else if key = "trusted_proxies".toList then
    let nets := (val.splitOn ',').filterMap (parseTrusted parseNet parseIp ofIp)
    if nets.isEmpty then { cfg with trustedProxies := none }
    else
      { cfg with
        proxyProtocol := true
        proxyProtocolMode := if cfg.proxyProtocolMode = .off then .auto else cfg.proxyProtocolMode
        trustedProxies := some nets }
  else cfg

/-- The node whose section a header in square brackets opens. -/
def nodeSection (line : List Char) : Option Nat :=
  let name := Text.trim (line.drop 1).dropLast
  match ("node_".toList.isPrefixOf? name).or ("node".toList.isPrefixOf? name) with
  | some num => Text.parseUnsigned 4294967295 num
  | none => none

/-- One line; what stands in the section of a node is kept for that node and
not applied. -/
def parseLine (st : GlobalConfig IpNet × Option Nat) (line : List Char) :
    GlobalConfig IpNet × Option Nat :=
  let (cfg, currentNodeSection) := st
  let line := Text.trim line
  if line.isEmpty ∨ line.head? = some '#' ∨ line.head? = some ';' then st
  else if line.head? = some '[' ∧ line.getLast? = some ']' then (cfg, nodeSection line)
  else
    match Text.splitOnce '=' line with
    | none => st
    | some (k, v) =>
        let key := lower (Text.trim k)
        let quoted := Text.trimMatches (· = '\'') (Text.trimMatches (· = '"') (Text.trim v))
        let val := Text.trim quoted
        if currentNodeSection.isSome then st
        else (cfg.applyKv parseNet parseIp ofIp key val, currentNodeSection)

def parse (content : List Char) : GlobalConfig IpNet :=
  ((Text.lines content).foldl (parseLine lower parseNet parseIp ofIp) (default, none)).1

def applyEnvOverrides (cfg : GlobalConfig IpNet) (vars : List (List Char × List Char)) :
    GlobalConfig IpNet :=
  vars.foldl
    (fun cfg (k, v) => cfg.applyKv parseNet parseIp ofIp (Text.toAsciiLowercase k) (Text.trim v))
    cfg

/-- The file and the environment together, as `load_from_file` has them. -/
def load (content : List Char) (vars : List (List Char × List Char)) : GlobalConfig IpNet :=
  (parse lower parseNet parseIp ofIp content).applyEnvOverrides parseNet parseIp ofIp vars

end

section

variable {IpNet : Type}

/-- `node_effective_global`: what the configuration of a node says about
`proxy_protocol` is laid over the global one. -/
def forNode (cfg : GlobalConfig IpNet) : Option Bool → GlobalConfig IpNet
  | none => cfg
  | some pp =>
      { cfg with
        proxyProtocol := pp
        proxyProtocolMode :=
          if pp ∧ cfg.proxyProtocolMode = .off then .auto else cfg.proxyProtocolMode }

def getProxyProtocolMode (cfg : GlobalConfig IpNet) : ProxyProtocolMode :=
  if cfg.forceProxyProtocol then .strict
  else if cfg.proxyProtocol ∨ cfg.trustedProxies.isSome then
    if cfg.proxyProtocolMode = .off then .auto else cfg.proxyProtocolMode
  else .off

@[simp] theorem trustedProxies_forNode (cfg : GlobalConfig IpNet) (pp : Option Bool) :
    (cfg.forNode pp).trustedProxies = cfg.trustedProxies := by
  cases pp <;> rfl

/-- With a list of trusted proxies, headers are always looked for. -/
theorem getProxyProtocolMode_ne_off {cfg : GlobalConfig IpNet} (h : cfg.trustedProxies.isSome) :
    cfg.getProxyProtocolMode ≠ .off := by
  rw [getProxyProtocolMode]
  split_ifs with hforce hmode hoff
  · decide
  · decide
  · exact hoff
  · exact absurd (Or.inr h) hmode

end

end GlobalConfig

end Elise
