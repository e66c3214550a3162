/-
Elise/Router/LetterCase.lean

Whether the routes that match depend on the case of letters (`match_outbound` and `match_toml_route` in
src/proxy/router/mod.rs), and both sides together with the audit list.

The entries read a name when it is compared, with the same slip as the audit: a rule with stars is not
put in lower case.  The parts of the other rules (`domain`, `domain_suffix`, `domain_keyword`) have no
stars, and their case does not count.
-/
import Elise.Router.Constraints
import Elise.Security.LetterCase

namespace Elise

open Text (SameLetters HasLetter toAsciiLowercase toAsciiUppercase)

/-- What a rule of an entry can begin with. -/
def routeHeads : List (List Char) := auditHeads ++ ["port_range:".toList]

/-! ### Entries -/

section

variable {env : Matching}

theorem matchDestRule_suffix (geo : GeoEngine env) (ctx : MatchContext) (targetLower : List Char)
    {head : List Char} (h : head ∈ suffixHeads) (name : List Char) :
    matchDestRule geo ctx targetLower (head ++ name) =
      (!targetLower.isEmpty && Text.underDomain (env.lower (Text.trim name)) targetLower) := by
  simp only [suffixHeads, List.mem_cons, List.not_mem_nil, or_false] at h
  rcases h with rfl | rfl | rfl
  · rfl
  · rfl
  · rfl

theorem matchDestRule_full (geo : GeoEngine env) (ctx : MatchContext) (targetLower : List Char)
    {head : List Char} (h : head ∈ fullHeads) (name : List Char) :
    matchDestRule geo ctx targetLower (head ++ name) =
      (!targetLower.isEmpty && targetLower == env.lower (Text.trim name)) := by
  obtain rfl := List.mem_singleton.mp h
  rfl

theorem matchDestRule_keyword (geo : GeoEngine env) (ctx : MatchContext) (targetLower : List Char)
    {head : List Char} (h : head ∈ keywordHeads) (name : List Char) :
    matchDestRule geo ctx targetLower (head ++ name) =
      (!targetLower.isEmpty && Text.contains targetLower (env.lower (Text.trim name))) := by
  simp only [keywordHeads, List.mem_cons, List.not_mem_nil, or_false] at h
  rcases h with rfl | rfl | rfl
  · rfl
  · rfl
  · rfl

/-- A name after a head is in lower case once it is compared. -/
theorem matchDestRule_name (laws : CaseLaws env) (geo : GeoEngine env) (ctx : MatchContext)
    (targetLower : List Char) {head name name' : List Char} (h : head ∈ domainHeads)
    (hname : SameLetters name name') :
    matchDestRule geo ctx targetLower (head ++ name') =
      matchDestRule geo ctx targetLower (head ++ name) := by
  have hlower := laws.lower_congr hname.trim
  rcases List.mem_append.mp h with h | hkeyword
  · rcases List.mem_append.mp h with hsuffix | hfull
    · rw [matchDestRule_suffix _ _ _ hsuffix, matchDestRule_suffix _ _ _ hsuffix, hlower]
    · rw [matchDestRule_full _ _ _ hfull, matchDestRule_full _ _ _ hfull, hlower]
  · rw [matchDestRule_keyword _ _ _ hkeyword, matchDestRule_keyword _ _ _ hkeyword, hlower]

theorem matchDestRule_bare (geo : GeoEngine env) (ctx : MatchContext) (targetLower : List Char)
    {line : List Char} (h : IsBare env routeHeads line) (hline : line ≠ ['*']) :
    matchDestRule geo ctx targetLower line = if '*' ∈ line then
        (env.regexNew (wildcard line)).any fun re => !targetLower.isEmpty && env.isMatch re targetLower
      else !targetLower.isEmpty && Text.underDomain (env.lower line) targetLower := by
  obtain ⟨hheads, hnet, hip⟩ := h
  have hnone : ∀ {heads}, heads ⊆ routeHeads → Text.stripAny heads line = none := by
    intro heads hsub
    exact Text.stripAny_eq_none_of_subset hheads hsub
  simp (disch := decide) only [matchDestRule, if_neg hline, hnone]
  rw [matchAddress, hnet, hip]

/-- Whether a trimmed rule is one for destinations and matches. -/
def destHits (geo : GeoEngine env) (ctx : MatchContext) (line : List Char) : Bool :=
  if line.isEmpty ∨ line.head? = some '#' ∨ (Text.stripAny constraintHeads line).isSome then false
  else matchDestRule geo ctx (env.lower ctx.targetHost) line

theorem any_destsOf (geo : GeoEngine env) (ctx : MatchContext) (rule : List Char) :
    (destsOf rule).any (matchDestRule geo ctx (env.lower ctx.targetHost)) =
      destHits geo ctx (Text.trim rule) := by
  rw [destsOf, destHits]
  generalize Text.trim rule = rule
  show List.any (if _ then [] else _) _ = _
  split
  · rfl
  · simp

theorem stripAny_constraintHeads {head : List Char} (h : head ∈ domainHeads) (name : List Char) :
    Text.stripAny constraintHeads (head ++ name) = none := by
  have hall : ∀ head ∈ domainHeads, ∀ head' ∈ constraintHeads,
      ¬ head <+: head' ∧ ¬ head' <+: head := by decide
  apply Text.stripAny_eq_none (Text.stripAny_singleton_append head name)
  intro head' hmem
  obtain rfl := List.mem_singleton.mp hmem
  exact hall head' h

theorem IsBare.stripAny_constraintHeads {line : List Char} (h : IsBare env routeHeads line) :
    Text.stripAny constraintHeads line = none :=
  Text.stripAny_eq_none_of_subset h.1 (by decide)

theorem spellsAlike_destHits (laws : CaseLaws env) (geo : GeoEngine env) (ctx : MatchContext) :
    SpellsAlike env routeHeads (destHits geo ctx) where
  name {head name name'} hhead hname := by
    have hcomment : ∀ name, ¬ ((head ++ name).isEmpty ∨ (head ++ name).head? = some '#' ∨
        (Text.stripAny constraintHeads (head ++ name)).isSome) := by
      intro name
      rw [stripAny_constraintHeads hhead]
      obtain ⟨c, rest, hrest, hhash, -⟩ := exists_cons_of_mem_domainHeads hhead
      rw [hrest]
      simp [hhash]
    rw [destHits, destHits, if_neg (hcomment name'), if_neg (hcomment name),
      matchDestRule_name laws geo ctx _ hhead hname]
  plain {line line'} hbare hbare' hletters hstar := by
    have hstar' : '*' ∉ line' := (hletters.mem_iff (by decide)).not.mp hstar
    have hline : line ≠ ['*'] := by
      rintro rfl
      exact hstar (by decide)
    have hline' : line' ≠ ['*'] := by
      rintro rfl
      exact hstar' (by decide)
    rw [destHits, destHits, matchDestRule_bare _ _ _ hbare hline,
      matchDestRule_bare _ _ _ hbare' hline', if_neg hstar, if_neg hstar', laws.lower_congr hletters,
      hletters.isEmpty, hbare.stripAny_constraintHeads, hbare'.stripAny_constraintHeads]
    simp only [hletters.head?_iff (d := '#') (by decide)]
  wildcard {line} hbare hstar hletter hhit := by
    have hline : line ≠ ['*'] := by
      rintro rfl
      exact absurd hletter (by decide)
    rw [destHits, matchDestRule_bare _ _ _ hbare hline, if_pos hstar] at hhit
    split at hhit
    · cases hhit
    · obtain ⟨re, hre, hmatch⟩ := (Option.any_eq_true _ _).mp hhit
      rw [Bool.and_eq_true] at hmatch
      exact laws.small_of_match hre hmatch.2

theorem sensitive_destHits (laws : CaseLaws env) (geo : GeoEngine env) (ctx : MatchContext) :
    Spelling.Sensitive (RespelledLine env routeHeads) (fun rule => destHits geo ctx (Text.trim rule))
      (IsWildcardLine env routeHeads) toAsciiLowercase toAsciiUppercase :=
  (spellsAlike_destHits laws geo ctx).sensitive laws (by decide) (by decide)

theorem matchTomlRoute_eq (geo : GeoEngine env) (route : TomlRouteEntry) (ctx : MatchContext) :
    matchTomlRoute geo route ctx (env.lower ctx.targetHost) = ((route.filters env).pass ctx &&
      ((route.rules.all fun rule => (destsOf rule).isEmpty) ||
        route.rules.any fun rule => destHits geo ctx (Text.trim rule))) := by
  have hdests : (route.filters env).destRules = route.rules.flatMap destsOf := by
    rw [TomlRouteEntry.filters_eq]
  have hempty : (route.rules.flatMap destsOf).isEmpty =
      route.rules.all fun rule => (destsOf rule).isEmpty := by
    rw [Bool.eq_iff_iff, List.isEmpty_iff, List.flatMap_eq_nil_iff, List.all_eq_true]
    simp only [List.isEmpty_iff]
  rw [matchTomlRoute, hdests, hempty, List.any_flatMap]
  simp only [any_destsOf]

/-- A rule that is spelled anew is no constraint. -/
theorem RespelledLine.cases {line line' : List Char} (h : RespelledLine env routeHeads line line') :
    Text.trim line' = Text.trim line ∨
      Text.stripAny constraintHeads (Text.trim line) = none ∧
        Text.stripAny constraintHeads (Text.trim line') = none ∧
        ((Text.trim line).isEmpty = (Text.trim line').isEmpty) ∧
        ((Text.trim line).head? = some '#' ↔ (Text.trim line').head? = some '#') := by
  rw [RespelledLine] at h
  generalize Text.trim line = line at h ⊢
  generalize Text.trim line' = line' at h ⊢
  cases h with
  | same => exact .inl rfl
  | @name head name name' hhead hname =>
      obtain ⟨c, rest, rfl, -⟩ := exists_cons_of_mem_domainHeads hhead
      exact .inr ⟨stripAny_constraintHeads hhead name, stripAny_constraintHeads hhead name', rfl, .rfl⟩
  | bare hbare hbare' hletters =>
      exact .inr ⟨hbare.stripAny_constraintHeads, hbare'.stripAny_constraintHeads, hletters.isEmpty,
        hletters.head?_iff (by decide)⟩

/-- A spelling changes no constraint, and it makes and removes no rule for destinations. -/
theorem RespelledLine.filters {line line' : List Char} (h : RespelledLine env routeHeads line line') :
    nodesOf line' = nodesOf line ∧ networksOf env line' = networksOf env line ∧
      portsOf line' = portsOf line ∧ (destsOf line').isEmpty = (destsOf line).isEmpty := by
  rcases h.cases with heq | ⟨hnone, hnone', hempty, hhash⟩
  · rw [nodesOf, nodesOf, networksOf, networksOf, portsOf, portsOf, destsOf, destsOf, heq]
    exact ⟨rfl, rfl, rfl, rfl⟩
  · have hsub : ∀ heads ⊆ constraintHeads, Text.stripAny heads (Text.trim line) = none ∧
        Text.stripAny heads (Text.trim line') = none := by
      intro heads hsub
      exact ⟨Text.stripAny_eq_none_of_subset hnone hsub, Text.stripAny_eq_none_of_subset hnone' hsub⟩
    have hnode := hsub ["node_id:".toList] (by decide)
    have hnet := hsub ["network:".toList] (by decide)
    have hport := hsub ["port:".toList, "port_range:".toList] (by decide)
    refine ⟨?_, ?_, ?_, ?_⟩
    · rw [nodesOf, nodesOf, hnode.1, hnode.2]
    · rw [networksOf, networksOf, hnet.1, hnet.2]
    · rw [portsOf, portsOf, hport.1, hport.2]
    · rw [destsOf, destsOf, hnone, hnone', hempty]
      simp only [hhash]
      split
      · rfl
      · rfl

section

variable {rules rules' : List (List Char)}
  (hsame : List.Forall₂ (RespelledLine env routeHeads) rules rules')

include hsame

theorem pass_respelled (outs outs' : List OutboundConfig) (ctx : MatchContext) :
    ((⟨rules', outs'⟩ : TomlRouteEntry).filters env).pass ctx =
      ((⟨rules, outs⟩ : TomlRouteEntry).filters env).pass ctx := by
  have hnodes := Spelling.map_spelling (f := nodesOf) hsame fun _ _ _ h => h.filters.1
  have hnetworks := Spelling.map_spelling (f := networksOf env) hsame fun _ _ _ h => h.filters.2.1
  have hports := Spelling.map_spelling (f := portsOf) hsame fun _ _ _ h => h.filters.2.2.1
  rw [TomlRouteEntry.filters_eq, TomlRouteEntry.filters_eq, RouteFilters.pass, RouteFilters.pass]
  simp only [List.flatMap_def, hnodes, hnetworks, hports]

theorem all_destsOf_respelled :
    (rules'.all fun rule => (destsOf rule).isEmpty) = rules.all fun rule => (destsOf rule).isEmpty := by
  have hmap := Spelling.map_spelling (f := fun rule => (destsOf rule).isEmpty) hsame
    fun _ _ _ h => h.filters.2.2.2
  have hall := congrArg (List.all · id) hmap
  rwa [List.all_map, List.all_map] at hall

end

theorem destHits_targetHost (laws : CaseLaws env) (geo : GeoEngine env) (ctx : MatchContext)
    {host : List Char} (h : SameLetters ctx.targetHost host) :
    destHits geo { ctx with targetHost := host } = destHits geo ctx := by
  funext line
  rw [destHits, destHits]
  show (if _ then _ else matchDestRule geo _ (env.lower host) line) = _
  rw [← laws.lower_congr h]
  rfl

/-- The spelling of the wildcards of an entry does not count: its constraints keep the connection out, or
another rule matches, or no wildcard matches in lower case. -/
def RouteSettled (geo : GeoEngine env) (ctx : MatchContext) (route : TomlRouteEntry) : Prop :=
  (route.filters env).pass ctx = true →
    Spelling.Settled (fun rule => destHits geo ctx (Text.trim rule)) (IsWildcardLine env routeHeads)
      toAsciiLowercase route.rules

/-- The entry with its wildcards spelled anew. -/
def TomlRouteEntry.respell (env : Matching) (f : Char → Char) (route : TomlRouteEntry) :
    TomlRouteEntry :=
  { route with rules := route.rules.map (Spelling.respell (IsWildcardLine env routeHeads) (List.map f)) }

section

variable (laws : CaseLaws env) (geo : GeoEngine env)

include laws

theorem matchTomlRoute_of_settled {ctx : MatchContext} {route route' : TomlRouteEntry}
    {host : List Char} (hsettled : RouteSettled geo ctx route)
    (hsame : List.Forall₂ (RespelledLine env routeHeads) route.rules route'.rules)
    (hhost : SameLetters ctx.targetHost host) :
    matchTomlRoute geo route' { ctx with targetHost := host } (env.lower host) =
      matchTomlRoute geo route ctx (env.lower ctx.targetHost) := by
  have hpass : (route'.filters env).pass { ctx with targetHost := host } =
      (route.filters env).pass ctx := pass_respelled hsame route.outs route'.outs ctx
  rw [matchTomlRoute_eq, matchTomlRoute_eq geo route ctx, hpass,
    all_destsOf_respelled hsame, destHits_targetHost laws geo ctx hhost]
  rcases hadmit : (route.filters env).pass ctx with - | -
  · rfl
  · rw [Spelling.any_eq_of_settled (sensitive_destHits laws geo ctx) (hsettled hadmit) hsame]

omit laws in
theorem TomlRouteEntry.forall₂_respell {f : Char → Char}
    (hf : ∀ {line}, IsWildcardLine env routeHeads line →
      RespelledLine env routeHeads line (line.map f)) (route : TomlRouteEntry) :
    List.Forall₂ (RespelledLine env routeHeads) route.rules (route.respell env f).rules :=
  Spelling.forall₂_respell (fun _ => .same _) hf

/-- If an entry answers alike whether its wildcards are in lower case or in upper case, their spelling
does not count. -/
theorem routeSettled_of_eq {ctx : MatchContext} {route : TomlRouteEntry}
    (h : matchTomlRoute geo (route.respell env Char.toLower) ctx (env.lower ctx.targetHost) =
      matchTomlRoute geo (route.respell env Char.toUpper) ctx (env.lower ctx.targetHost)) :
    RouteSettled geo ctx route := by
  intro hadmit
  have hsensitive := sensitive_destHits laws geo ctx
  have hlower := route.forall₂_respell hsensitive.same_down
  have hupper := route.forall₂_respell hsensitive.same_up
  have hpass : ∀ {f}, List.Forall₂ (RespelledLine env routeHeads) route.rules
      (route.respell env f).rules → ((route.respell env f).filters env).pass ctx = true := by
    intro f hsame
    rw [← hadmit]
    exact pass_respelled hsame route.outs route.outs ctx
  rw [matchTomlRoute_eq, matchTomlRoute_eq, hpass hlower, hpass hupper, all_destsOf_respelled hlower,
    all_destsOf_respelled hupper, Bool.true_and, Bool.true_and] at h
  rcases hempty : route.rules.all fun rule => (destsOf rule).isEmpty with - | -
  · rw [hempty, Bool.false_or, Bool.false_or] at h
    exact Spelling.settled_of_any_eq hsensitive h
  · -- no rule is for destinations
    apply Or.inr
    intro rule hmem hwild
    have hnone := (hsensitive.same_down hwild).filters.2.2.2
    rw [List.all_eq_true.mp hempty rule hmem, List.isEmpty_iff] at hnone
    show destHits geo ctx (Text.trim (toAsciiLowercase rule)) = false
    rw [← any_destsOf, hnone]
    rfl

/-! ### Rules, and all routes -/

/-- The names of a rule are spelled anew. -/
structure RespelledRule (rule rule' : RuleConfig) : Prop where
  domain : List.Forall₂ SameLetters rule.domain rule'.domain
  domainSuffix : List.Forall₂ SameLetters rule.domainSuffix rule'.domainSuffix
  domainKeyword : List.Forall₂ SameLetters rule.domainKeyword rule'.domainKeyword
  rest : rule' = { rule with
    domain := rule'.domain
    domainSuffix := rule'.domainSuffix
    domainKeyword := rule'.domainKeyword }

theorem matchRule_respelled {rule rule' : RuleConfig} (h : RespelledRule rule rule')
    (ctx : MatchContext) (host targetLower : List Char) :
    matchRule env rule' { ctx with targetHost := host } targetLower =
      matchRule env rule ctx targetLower := by
  have hdomain := Spelling.any_spelling h.domain
    (f := fun d => Text.eqIgnoreAsciiCase d targetLower) fun d d' hd => by
      rw [Text.eqIgnoreAsciiCase, Text.eqIgnoreAsciiCase, show toAsciiLowercase d = _ from hd]
  have hsuffix := Spelling.any_spelling h.domainSuffix
    (f := fun sfx => Text.underDomain (env.lower sfx) targetLower) fun sfx sfx' hsfx => by
      rw [laws.lower_congr hsfx]
  have hkeyword := Spelling.any_spelling h.domainKeyword
    (f := fun kw => Text.contains targetLower (env.lower kw)) fun kw kw' hkw => by
      rw [laws.lower_congr hkw]
  rw [h.rest, matchRule, matchRule]
  simp only [hdomain, hsuffix, hkeyword, Spelling.isEmpty_spelling h.domain,
    Spelling.isEmpty_spelling h.domainSuffix, Spelling.isEmpty_spelling h.domainKeyword]
  rfl

end

/-- The names in the entries and in the rules are spelled anew. -/
structure RespelledRoutes (env : Matching) (cfg cfg' : RoutesConfig) : Prop where
  tomlRoutes : List.Forall₂ (fun route route' : TomlRouteEntry =>
    List.Forall₂ (RespelledLine env routeHeads) route.rules route'.rules ∧ route'.outs = route.outs)
      cfg.tomlRoutes cfg'.tomlRoutes
  rules : List.Forall₂ RespelledRule cfg.rules cfg'.rules
  rest : cfg' = { cfg with tomlRoutes := cfg'.tomlRoutes, rules := cfg'.rules }

/-- Of each entry and of each rule, whether it matches. -/
def matchingRoutes (geo : GeoEngine env) (cfg : RoutesConfig) (ctx : MatchContext) :
    List Bool × List Bool :=
  let targetLower := env.lower ctx.targetHost
  (cfg.tomlRoutes.map (matchTomlRoute geo · ctx targetLower),
    cfg.rules.map (matchRule env · ctx targetLower))

theorem respelledRoutes_respell {f : Char → Char}
    (hf : ∀ {line}, IsWildcardLine env routeHeads line →
      RespelledLine env routeHeads line (line.map f)) (cfg : RoutesConfig) :
    RespelledRoutes env cfg { cfg with tomlRoutes := cfg.tomlRoutes.map (TomlRouteEntry.respell env f) } where
  tomlRoutes := by
    apply List.forall₂_map_right_iff.mpr
    apply List.forall₂_same.mpr
    intro route _
    exact ⟨route.forall₂_respell hf, rfl⟩
  rules := by
    apply List.forall₂_same.mpr
    intro rule _
    have hrefl : ∀ names : List (List Char), List.Forall₂ SameLetters names names := fun names =>
      List.forall₂_same.mpr fun name _ => .refl name
    exact ⟨hrefl _, hrefl _, hrefl _, rfl⟩
  rest := rfl

/-- The same routes match in every spelling of the names and of the host exactly if in no entry the
spelling of the wildcards counts. -/
theorem matchingRoutes_spelling_iff (laws : CaseLaws env) (geo : GeoEngine env) (cfg : RoutesConfig)
    (ctx : MatchContext) :
    (∀ cfg' host', RespelledRoutes env cfg cfg' → SameLetters ctx.targetHost host' →
      matchingRoutes geo cfg' { ctx with targetHost := host' } = matchingRoutes geo cfg ctx) ↔
      ∀ route ∈ cfg.tomlRoutes, RouteSettled geo ctx route := by
  constructor
  · intro h route hmem
    have hsensitive := sensitive_destHits laws geo ctx
    have hanswer : ∀ {f : Char → Char}, (∀ {line}, IsWildcardLine env routeHeads line →
        RespelledLine env routeHeads line (line.map f)) →
        matchTomlRoute geo (route.respell env f) ctx (env.lower ctx.targetHost) =
          matchTomlRoute geo route ctx (env.lower ctx.targetHost) := by
      intro f hf
      have hall := congrArg Prod.fst
        (h _ ctx.targetHost (respelledRoutes_respell hf cfg) (.refl ctx.targetHost))
      simp only [matchingRoutes, List.map_map] at hall
      exact List.map_inj_left.mp hall route hmem
    apply routeSettled_of_eq laws geo
    exact (hanswer hsensitive.same_down).trans (hanswer hsensitive.same_up).symm
  · intro hsettled cfg' host' hsame hhost
    have hlower : env.lower host' = env.lower ctx.targetHost := (laws.lower_congr hhost).symm
    apply Prod.ext
    · show List.map _ cfg'.tomlRoutes = List.map _ cfg.tomlRoutes
      apply Spelling.map_spelling hsame.tomlRoutes
      intro route hmem route' hroute
      exact matchTomlRoute_of_settled laws geo (hsettled route hmem) hroute.1 hhost
    · show List.map _ cfg'.rules = List.map _ cfg.rules
      apply Spelling.map_spelling hsame.rules
      intro rule _ rule' hrule
      show matchRule env rule' { ctx with targetHost := host' } (env.lower host') = _
      rw [matchRule_respelled laws hrule, hlower]

end

/-- **Letter case.**  The answer of an audit list, and the routes that match, are the same in every
spelling of the list, of the routes and of the host, exactly if the spelling of no wildcard counts: some
other rule matches anyway, or no wildcard with a letter in it matches in lower case. -/
theorem letter_case_iff {env : Matching} (laws : CaseLaws env) (geo : GeoEngine env) :
    (∀ (content : List Char) (q : RuleItem.Query),
      (∀ content' domain', List.Forall₂ (RespelledLine env auditHeads) (Text.lines content)
          (Text.lines content') → SameLetters q.domain domain' →
        matchesFull geo (RuleItem.reload content') { q with domain := domain' } =
          matchesFull geo (RuleItem.reload content) q) ↔
        Spelling.Settled (fun line => RuleItem.lineHits geo q (Text.trim line))
          (IsWildcardLine env auditHeads) toAsciiLowercase (Text.lines content)) ∧
    ∀ (cfg : RoutesConfig) (ctx : MatchContext),
      (∀ cfg' host', RespelledRoutes env cfg cfg' → SameLetters ctx.targetHost host' →
        matchingRoutes geo cfg' { ctx with targetHost := host' } = matchingRoutes geo cfg ctx) ↔
        ∀ route ∈ cfg.tomlRoutes, RouteSettled geo ctx route :=
  ⟨RuleItem.matchesFull_spelling_iff laws geo, matchingRoutes_spelling_iff laws geo⟩

/-- A connection to a host of `example.com`. -/
def wwwContext : MatchContext := ⟨1, "tcp".toList, "www.example.com".toList, none, 443⟩

def wwwQuery : RuleItem.Query := ⟨"www.example.com".toList, none, 443, none, none⟩

def noGeo : GeoEngine wildcardMatching := .none

/-- One entry, with one rule. -/
def oneRule (rule : List Char) : RoutesConfig :=
  { RoutesConfig.default with tomlRoutes := [⟨[rule], []⟩] }

/-- The case of a wildcard does not count next to a suffix that matches, and not in an entry without
wildcards. -/
theorem letter_case_suffix :
    (∀ content' domain', List.Forall₂ (RespelledLine wildcardMatching auditHeads)
        (Text.lines "domain:Example.com\n*.Example.com".toList) (Text.lines content') →
      SameLetters wwwQuery.domain domain' →
        matchesFull noGeo (RuleItem.reload content') { wwwQuery with domain := domain' } =
          matchesFull noGeo (RuleItem.reload "domain:Example.com\n*.Example.com".toList) wwwQuery) ∧
    ∀ cfg' host', RespelledRoutes wildcardMatching (oneRule "full:www.EXAMPLE.com".toList) cfg' →
      SameLetters wwwContext.targetHost host' →
        matchingRoutes noGeo cfg' { wwwContext with targetHost := host' } =
          matchingRoutes noGeo (oneRule "full:www.EXAMPLE.com".toList) wwwContext := by
  have hboth := letter_case_iff caseLaws_wildcardMatching noGeo
  constructor
  · apply (hboth.1 _ wwwQuery).mpr
    exact .inl ⟨"domain:Example.com".toList, by decide +kernel, by decide +kernel, by decide +kernel⟩
  · apply (hboth.2 _ wwwContext).mpr
    intro route hmem _
    obtain rfl := List.mem_singleton.mp hmem
    exact .inl ⟨"full:www.EXAMPLE.com".toList, by decide +kernel, by decide +kernel, by decide +kernel⟩

/-- A wildcard with a capital letter matches no host, and in lower case it does, in an audit list as in
an entry. -/
theorem capital_wildcard_missed :
    (List.Forall₂ (RespelledLine wildcardMatching auditHeads) (Text.lines "*.Example.com".toList)
        (Text.lines "*.example.com".toList) ∧
      matchesFull noGeo (RuleItem.reload "*.Example.com".toList) wwwQuery = false ∧
      matchesFull noGeo (RuleItem.reload "*.example.com".toList) wwwQuery = true) ∧
    RespelledRoutes wildcardMatching (oneRule "*.Example.com".toList) (oneRule "*.example.com".toList) ∧
      matchingRoutes noGeo (oneRule "*.Example.com".toList) wwwContext = ([false], []) ∧
      matchingRoutes noGeo (oneRule "*.example.com".toList) wwwContext = ([true], []) := by
  refine ⟨⟨?_, by decide +kernel, by decide +kernel⟩, ?_, by decide +kernel, by decide +kernel⟩
  · have hlines : Text.lines "*.Example.com".toList = ["*.Example.com".toList] ∧
        Text.lines "*.example.com".toList = ["*.example.com".toList] := by decide +kernel
    rw [hlines.1, hlines.2]
    exact .cons (.bare (by decide +kernel) (by decide +kernel) (by decide +kernel)) .nil
  · refine ⟨.cons ⟨.cons ?_ .nil, rfl⟩ .nil, .nil, rfl⟩
    exact .bare (by decide +kernel) (by decide +kernel) (by decide +kernel)

end Elise
