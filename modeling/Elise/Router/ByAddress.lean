/-
Elise/Router/ByAddress.lean

The router as a decision list, and what an address adds for it.

The entries and then the rules of a configuration are asked in their order, and the
first that accepts decides (`matchOutbound_eq_firstMatch`).  Where no entry has more than
one outbound, it does not matter what is drawn.

Rules for names and for ports look at the host and the port, rules for addresses (`geoip`,
`ip`, `cidr`, a bare address or network, the `ip` of a rule) at the address only.  So a
request with an address is accepted wherever the same request without it is, and by the
address rules besides (`leadsTo_some`).
-/
import Elise.Lib.FirstMatch
import Elise.Security.Audit
import Elise.Router.Routes

namespace Elise

open Net FirstMatch

section

variable {env : Matching} (geo : GeoEngine env)

/-! ### The decision list -/

/-- The entries and the rules of a configuration, in the order of the
router. -/
def RoutesConfig.alternatives (cfg : RoutesConfig) : List (TomlRouteEntry ⊕ RuleConfig) :=
  cfg.tomlRoutes.map .inl ++ cfg.rules.map .inr

/-- Where an entry or a rule leads, if it accepts. -/
def RoutesConfig.leadsTo (cfg : RoutesConfig) (roll : Nat) (ctx : MatchContext) :
    TomlRouteEntry ⊕ RuleConfig → Option OutboundConfig
  | .inl route => routeOut geo ctx (env.lower ctx.targetHost) roll route
  | .inr rule => ruleOut env cfg.outbounds ctx (env.lower ctx.targetHost) rule

def RoutesConfig.fallback (cfg : RoutesConfig) : OutboundConfig :=
  (findOutbound cfg.outbounds cfg.defaultOutbound).getD .direct

/-- **The router is a decision list.** -/
theorem matchOutbound_eq_firstMatch (cfg : RoutesConfig) (roll : Nat) (ctx : MatchContext) :
    matchOutbound geo cfg roll ctx =
      firstMatch cfg.fallback (cfg.leadsTo geo roll ctx) cfg.alternatives := by
  have hroute : cfg.leadsTo geo roll ctx ∘ Sum.inl =
      routeOut geo ctx (env.lower ctx.targetHost) roll := rfl
  have hrule : cfg.leadsTo geo roll ctx ∘ Sum.inr =
      ruleOut env cfg.outbounds ctx (env.lower ctx.targetHost) := rfl
  rw [RoutesConfig.alternatives, firstMatch_append, firstMatch_map, firstMatch_map, hroute, hrule]
  rw [matchOutbound, firstMatch, firstMatch, RoutesConfig.fallback]
  rw [Option.getD_or, Option.getD_or]

/-- No entry has a choice of outbounds. -/
def RoutesConfig.NoChoice (cfg : RoutesConfig) : Prop :=
  ∀ route ∈ cfg.tomlRoutes, route.outs.length ≤ 1

instance (cfg : RoutesConfig) : Decidable cfg.NoChoice :=
  inferInstanceAs (Decidable (∀ route ∈ cfg.tomlRoutes, _))

theorem choose_of_length_le_one {outs : List OutboundConfig} (h : outs.length ≤ 1) (roll : Nat) :
    choose roll outs = outs.head? := by
  cases outs with
  | nil => rfl
  | cons ob rest =>
      have hrest : rest = [] := by
        rw [List.length_cons] at h
        exact List.length_eq_zero_iff.mp (by omega)
      subst hrest
      rw [choose, List.length_singleton, Nat.mod_one]
      rfl

/-- Without a choice it does not matter what is drawn. -/
theorem matchOutbound_roll {cfg : RoutesConfig} (h : cfg.NoChoice) (roll roll' : Nat)
    (ctx : MatchContext) : matchOutbound geo cfg roll ctx = matchOutbound geo cfg roll' ctx := by
  have hroute : ∀ route ∈ cfg.tomlRoutes,
      routeOut geo ctx (env.lower ctx.targetHost) roll route =
        routeOut geo ctx (env.lower ctx.targetHost) roll' route := by
    intro route hmem
    rw [routeOut, routeOut, choose_of_length_le_one (h route hmem),
      choose_of_length_le_one (h route hmem)]
  have hfind : cfg.tomlRoutes.findSome? (routeOut geo ctx (env.lower ctx.targetHost) roll) =
      cfg.tomlRoutes.findSome? (routeOut geo ctx (env.lower ctx.targetHost) roll') := by
    rw [← List.head?_filterMap, ← List.head?_filterMap, List.filterMap_congr hroute]
  rw [matchOutbound, matchOutbound, hfind]

/-! ### Rules for addresses -/

/-- Whether a rule is for addresses and matches this one. -/
def addressRule (x : IpAddr) (rule : List Char) : Bool :=
  if rule = ['*'] then false
  else if (Text.stripAny ["geosite:".toList] rule).isSome then false
  else if let some geoip := Text.stripAny ["geoip:".toList] rule then
    geo.matchGeoip (env.upper (Text.trim geoip)) x
  else if (Text.stripAny ["domain:".toList, "domain_suffix:".toList, "domain-suffix:".toList]
      rule).isSome then false
  else if (Text.stripAny ["full:".toList] rule).isSome then false
  else if (Text.stripAny ["keyword:".toList, "domain_keyword:".toList, "domain-keyword:".toList]
      rule).isSome then false
  else if (Text.stripAny ["regexp:".toList, "domain_regex:".toList] rule).isSome then false
  else if let some text := Text.stripAny ["ip:".toList, "cidr:".toList, "ip_cidr:".toList] rule then
    (matchAddress env (Text.trim text) (some x)).getD false
  else (matchAddress env rule (some x)).getD false

/-- Without an address, a text that is one does not match. -/
theorem matchAddress_none (env : Matching) (text : List Char) (x : IpAddr) :
    matchAddress env text none = (matchAddress env text (some x)).map fun _ => false := by
  rw [matchAddress, matchAddress]
  cases env.parseNet text with
  | some net => rfl
  | none => cases env.parseIp text <;> rfl

theorem matchDestRule_some (ctx : MatchContext) (targetLower rule : List Char) (x : IpAddr) :
    matchDestRule geo { ctx with targetIp := some x } targetLower rule =
      (matchDestRule geo { ctx with targetIp := none } targetLower rule ||
        addressRule geo x rule) := by
  unfold matchDestRule addressRule
  simp only [matchAddress_none env _ x]
  generalize Text.stripAny ["geosite:".toList] rule = site
  generalize Text.stripAny ["geoip:".toList] rule = country
  generalize Text.stripAny ["domain:".toList, "domain_suffix:".toList,
    "domain-suffix:".toList] rule = domain
  generalize Text.stripAny ["full:".toList] rule = full
  generalize Text.stripAny ["keyword:".toList, "domain_keyword:".toList,
    "domain-keyword:".toList] rule = keyword
  generalize Text.stripAny ["regexp:".toList, "domain_regex:".toList] rule = regexp
  generalize Text.stripAny ["ip:".toList, "cidr:".toList, "ip_cidr:".toList] rule = text
  by_cases hstar : rule = ['*']
  · simp only [hstar, if_true, Bool.or_false]
  · simp only [if_neg hstar]
    cases site with
    | some site => simp only [Option.isSome_some, if_true, Bool.or_false]
    | none =>
    cases country with
    | some country => simp
    | none =>
    cases domain with
    | some domain => simp
    | none =>
    cases full with
    | some full => simp
    | none =>
    cases keyword with
    | some keyword => simp
    | none =>
    cases regexp with
    | some regexp => simp
    | none =>
    cases text with
    | some text =>
        dsimp only
        cases matchAddress env (Text.trim text) (some x) <;> simp
    | none =>
        cases matchAddress env rule (some x) <;> simp

/-! ### Entries and rules -/

/-- An entry accepts by one of its address rules. -/
def TomlRouteEntry.acceptsAddress (route : TomlRouteEntry) (ctx : MatchContext) (x : IpAddr) :
    Bool :=
  (route.filters env).pass ctx && (route.filters env).destRules.any (addressRule geo x)

theorem matchTomlRoute_some (route : TomlRouteEntry) (ctx : MatchContext) (targetLower : List Char)
    (x : IpAddr) :
    matchTomlRoute geo route { ctx with targetIp := some x } targetLower =
      (matchTomlRoute geo route { ctx with targetIp := none } targetLower ||
        route.acceptsAddress geo ctx x) := by
  have hany : ∀ rules : List (List Char),
      rules.any (matchDestRule geo { ctx with targetIp := some x } targetLower) =
        (rules.any (matchDestRule geo { ctx with targetIp := none } targetLower) ||
          rules.any (addressRule geo x)) := by
    intro rules
    induction rules with
    | nil => rfl
    | cons rule rules ih =>
        rw [List.any_cons, List.any_cons, List.any_cons, ih, matchDestRule_some]
        ac_rfl
  rw [matchTomlRoute, matchTomlRoute, TomlRouteEntry.acceptsAddress]
  rw [hany, ← Bool.or_assoc]
  exact Bool.and_or_distrib_left _ _ _

/-- A rule accepts by one of its networks. -/
def RuleConfig.acceptsAddress (env : Matching) (rule : RuleConfig) (ctx : MatchContext)
    (targetLower : List Char) (x : IpAddr) : Bool :=
  matchRule env { rule with ip := [] } ctx targetLower &&
    rule.ip.any fun cidr => (env.parseNet cidr).any fun net => env.contains net x

theorem matchRule_some (rule : RuleConfig) (ctx : MatchContext) (targetLower : List Char)
    (x : IpAddr) :
    matchRule env rule { ctx with targetIp := some x } targetLower =
      (matchRule env rule { ctx with targetIp := none } targetLower ||
        rule.acceptsAddress env ctx targetLower x) := by
  rw [matchRule, matchRule, RuleConfig.acceptsAddress, matchRule]
  simp only [List.isEmpty_nil, Bool.true_or, Bool.and_true, Option.any_some, Option.any_none,
    Bool.or_false]
  exact Bool.and_or_distrib_left _ _ _

/-- Where an entry or a rule leads by its address rules. -/
def RoutesConfig.leadsByAddress (cfg : RoutesConfig) (roll : Nat) (ctx : MatchContext) (x : IpAddr) :
    TomlRouteEntry ⊕ RuleConfig → Option OutboundConfig
  | .inl route => if route.acceptsAddress geo ctx x then choose roll route.outs else none
  | .inr rule =>
      if rule.acceptsAddress env ctx (env.lower ctx.targetHost) x then
        findOutbound cfg.outbounds rule.outbound
      else none

theorem ite_or_eq (p q : Bool) (out : Option OutboundConfig) :
    (if p || q then out else none) = (if p then out else none).or (if q then out else none) := by
  cases p <;> cases q <;> cases out <;> rfl

/-- **What the address adds.** -/
theorem leadsTo_some (cfg : RoutesConfig) (roll : Nat) (ctx : MatchContext) (x : IpAddr)
    (alt : TomlRouteEntry ⊕ RuleConfig) :
    cfg.leadsTo geo roll { ctx with targetIp := some x } alt =
      (cfg.leadsTo geo roll { ctx with targetIp := none } alt).or
        (cfg.leadsByAddress geo roll ctx x alt) := by
  cases alt with
  | inl route =>
      show (if matchTomlRoute _ _ _ _ then _ else none) = _
      rw [matchTomlRoute_some, ite_or_eq]
      rfl
  | inr rule =>
      show (if matchRule _ _ _ _ then _ else none) = _
      rw [matchRule_some, ite_or_eq]
      rfl

/-- By its address rules an entry or a rule leads every address to one outbound. -/
theorem leadsByAddress_same {cfg : RoutesConfig} {roll : Nat} {ctx : MatchContext} {x y : IpAddr}
    {alt : TomlRouteEntry ⊕ RuleConfig} {out out' : OutboundConfig}
    (h : cfg.leadsByAddress geo roll ctx x alt = some out)
    (h' : cfg.leadsByAddress geo roll ctx y alt = some out') : out = out' := by
  cases alt with
  | inl route =>
      simp only [RoutesConfig.leadsByAddress] at h h'
      split_ifs at h h'
      exact Option.some.inj (h.symm.trans h')
  | inr rule =>
      simp only [RoutesConfig.leadsByAddress] at h h'
      split_ifs at h h'
      exact Option.some.inj (h.symm.trans h')

end

end Elise
