/-
Elise/Router/Constraints.lean

What the constraints of a routes entry (`node_id:`, `network:`, `port:` and `port_range:`) keep out
(`match_toml_route` in src/proxy/router/mod.rs).

The rules of an entry are collected kind by kind.  Of one kind the values are alternatives, so a
further rule of a kind adds an alternative, and a kind without a value constrains nothing.  So what
does not parse is as if it were not there, also where nothing else of its kind is.
-/
import Elise.Router.Routes

namespace Elise

/-! ### One rule -/

def nodesOf (rule : List Char) : List UInt32 :=
  match Text.stripAny ["node_id:".toList] (Text.trim rule) with
  | some node => (node.splitOn ',').filterMap fun part => parseId (Text.trim part)
  | none => []

def networksOf (env : Matching) (rule : List Char) : List (List Char) :=
  match Text.stripAny ["network:".toList] (Text.trim rule) with
  | some net => [env.lower (Text.trim net)]
  | none => []

/-- The ports and ranges that parse. -/
def portsOf (rule : List Char) : List (UInt16 × UInt16) :=
  match Text.stripAny ["port:".toList, "port_range:".toList] (Text.trim rule) with
  | some ports => (ports.splitOn ',').filterMap fun part => parsePortRange (Text.trim part)
  | none => []

def constraintHeads : List (List Char) :=
  ["node_id:".toList, "network:".toList, "port:".toList, "port_range:".toList]

/-- The rule is a constraint, whatever comes after its head. -/
def IsConstraint (rule : List Char) : Prop :=
  (Text.stripAny constraintHeads (Text.trim rule)).isSome = true

instance (rule : List Char) : Decidable (IsConstraint rule) := inferInstanceAs (Decidable (_ = true))

/-- What is neither a constraint nor a comment is a rule for destinations. -/
def destsOf (rule : List Char) : List (List Char) :=
  let rule := Text.trim rule
  if rule.isEmpty ∨ rule.head? = some '#' ∨ (Text.stripAny constraintHeads rule).isSome then []
  else [rule]

/-- A constraint is neither empty nor a comment. -/
theorem not_comment {heads : List (List Char)} {rule rest : List Char}
    (h : Text.stripAny heads rule = some rest)
    (hheads : ∀ head ∈ heads, head ≠ [] ∧ head.head? ≠ some '#') :
    ¬ (rule.isEmpty ∨ rule.head? = some '#') := by
  obtain ⟨head, hmem, rfl⟩ := Text.stripAny_eq_some h
  obtain ⟨hne, hhash⟩ := hheads head hmem
  rcases head with - | ⟨c, head⟩
  · exact absurd rfl hne
  · rintro (hempty | hcomment)
    · cases hempty
    · exact hhash hcomment

/-! ### All rules -/

namespace RouteFilters

/-- The values of two lists of rules. -/
def append (f g : RouteFilters) : RouteFilters :=
  ⟨f.nodeFilters ++ g.nodeFilters, f.networkFilters ++ g.networkFilters,
    f.portFilters ++ g.portFilters, f.destRules ++ g.destRules⟩

/-- A rule adds its values. -/
theorem add_eq (env : Matching) (f : RouteFilters) (rule : List Char) :
    f.add env rule = f.append ⟨nodesOf rule, networksOf env rule, portsOf rule, destsOf rule⟩ := by
  rw [nodesOf, networksOf, portsOf, destsOf, RouteFilters.add, append]
  generalize Text.trim rule = rule
  have hheads : Text.stripAny constraintHeads rule =
      (Text.stripAny ["node_id:".toList] rule).or ((Text.stripAny ["network:".toList] rule).or
        (Text.stripAny ["port:".toList, "port_range:".toList] rule)) := by
    simp only [constraintHeads, Text.stripAny, List.findSome?_cons, List.findSome?_nil]
    cases "node_id:".toList.isPrefixOf? rule <;> cases "network:".toList.isPrefixOf? rule <;> rfl
  rcases hnode : Text.stripAny ["node_id:".toList] rule with - | node
  · rcases hnet : Text.stripAny ["network:".toList] rule with - | net
    · rcases hports : Text.stripAny ["port:".toList, "port_range:".toList] rule with - | ports
      · -- a rule for destinations, or nothing
        rw [hheads, hnode, hnet, hports]
        simp only [Option.or_none, Option.isSome_none, Bool.false_eq_true, or_false]
        by_cases hcomment : rule.isEmpty ∨ rule.head? = some '#'
        · rw [if_pos hcomment, if_pos hcomment]
          simp only [List.append_nil]
        · rw [if_neg hcomment, if_neg hcomment]
          simp only [List.append_nil]
      · have hcomment := not_comment hports (by decide)
        rw [hheads, hnode, hnet, hports]
        simp only [if_neg hcomment, Option.none_or, Option.isSome_some, or_true, if_true,
          List.append_nil]
    · have hcomment := not_comment hnet (by decide)
      have hports : Text.stripAny ["port:".toList, "port_range:".toList] rule = none :=
        Text.stripAny_eq_none hnet (by decide)
      rw [hheads, hnode, hnet, hports]
      simp only [if_neg hcomment, Option.none_or, Option.some_or, Option.isSome_some, or_true, if_true,
        List.append_nil]
  · have hcomment := not_comment hnode (by decide)
    have hnet : Text.stripAny ["network:".toList] rule = none := Text.stripAny_eq_none hnode (by decide)
    have hports : Text.stripAny ["port:".toList, "port_range:".toList] rule = none :=
      Text.stripAny_eq_none hnode (by decide)
    rw [hheads, hnode, hnet, hports]
    simp only [if_neg hcomment, Option.some_or, Option.isSome_some, or_true, if_true, List.append_nil]

theorem foldl_add (env : Matching) (rules : List (List Char)) (f : RouteFilters) :
    rules.foldl (RouteFilters.add env) f = f.append ⟨rules.flatMap nodesOf,
      rules.flatMap (networksOf env), rules.flatMap portsOf, rules.flatMap destsOf⟩ := by
  induction rules generalizing f with
  | nil => simp [append]
  | cons rule rules ih =>
      rw [List.foldl_cons, ih, add_eq]
      simp only [append, List.flatMap_cons, List.append_assoc]

end RouteFilters

theorem TomlRouteEntry.filters_eq (env : Matching) (route : TomlRouteEntry) :
    route.filters env = ⟨route.rules.flatMap nodesOf, route.rules.flatMap (networksOf env),
      route.rules.flatMap portsOf, route.rules.flatMap destsOf⟩ := by
  rw [TomlRouteEntry.filters, RouteFilters.foldl_add]
  rfl

/-! ### The kinds -/

inductive ConstraintKind where
  | node
  | network
  | port

namespace ConstraintKind

/-- The rule has a value of the kind that parses. -/
def HasValue (env : Matching) : ConstraintKind → (rule : List Char) → Prop
  | node, rule => nodesOf rule ≠ []
  | network, rule => networksOf env rule ≠ []
  | port, rule => portsOf rule ≠ []

/-- The rule has the value of the connection among those of the kind. -/
def Lists (env : Matching) (ctx : MatchContext) : ConstraintKind → (rule : List Char) → Prop
  | node, rule => ctx.nodeId ∈ nodesOf rule
  | network, rule => ∃ net ∈ networksOf env rule,
      net = "all".toList ∨ Text.eqIgnoreAsciiCase net ctx.network = true
  | port, rule => ∃ range ∈ portsOf rule, inRange ctx.targetPort range = true

/-- For each value of the kind in a rule, whether the connection has it. -/
def verdicts (env : Matching) (ctx : MatchContext) (rule : List Char) : ConstraintKind → List Bool
  | node => (nodesOf rule).map fun id => ctx.nodeId == id
  | network => (networksOf env rule).map fun net =>
      net == "all".toList || Text.eqIgnoreAsciiCase net ctx.network
  | port => (portsOf rule).map (inRange ctx.targetPort)

variable {env : Matching} {ctx : MatchContext} {rule : List Char}

theorem hasValue_iff (kind : ConstraintKind) :
    kind.HasValue env rule ↔ verdicts env ctx rule kind ≠ [] := by
  cases kind with
  | node => simp [HasValue, verdicts]
  | network => simp [HasValue, verdicts]
  | port => simp [HasValue, verdicts]

theorem lists_iff (kind : ConstraintKind) :
    kind.Lists env ctx rule ↔ true ∈ verdicts env ctx rule kind := by
  cases kind with
  | node => simp [Lists, verdicts]
  | network => simp [Lists, verdicts]
  | port => simp [Lists, verdicts]

end ConstraintKind

/-- No value, or the right one. -/
def admits (verdicts : List Bool) : Bool := verdicts.isEmpty || verdicts.contains true

theorem admits_iff {verdicts : List Bool} : admits verdicts = true ↔ verdicts ≠ [] → true ∈ verdicts := by
  rw [admits, Bool.or_eq_true, List.isEmpty_iff, List.contains_iff_mem]
  tauto

/-- What is let pass with further values is let pass without them, or they are alternatives to others
and have the right one. -/
theorem admits_insert {before added after : List Bool}
    (h : admits (before ++ (added ++ after)) = true) (hno : admits (before ++ after) = false) :
    before ++ after ≠ [] ∧ true ∈ added := by
  rw [← Bool.not_eq_true, admits_iff, Classical.not_imp] at hno
  obtain ⟨hne, hmissing⟩ := hno
  refine ⟨hne, ?_⟩
  have hsome : true ∈ before ++ (added ++ after) := by
    apply admits_iff.mp h
    intro hnil
    apply hne
    simp_all
  simp only [List.mem_append] at hsome hmissing
  tauto

theorem admits_map {α : Type} (values : List α) (p : α → Bool) :
    admits (values.map p) = (values.isEmpty || values.any p) := by
  rw [admits, List.isEmpty_map, List.contains_eq_any_beq, List.any_map]
  congr 2
  funext value
  simp

/-- The filters let a connection pass if every kind admits it. -/
theorem pass_filters_iff (env : Matching) (route : TomlRouteEntry) (ctx : MatchContext) :
    (route.filters env).pass ctx = true ↔ ∀ kind : ConstraintKind,
      admits (route.rules.flatMap fun rule => kind.verdicts env ctx rule) = true := by
  have hnode : admits (route.rules.flatMap (ConstraintKind.verdicts env ctx · .node)) =
      ((route.rules.flatMap nodesOf).isEmpty ||
        (route.rules.flatMap nodesOf).contains ctx.nodeId) := by
    rw [List.contains_eq_any_beq, ← admits_map, List.map_flatMap]
    rfl
  have hnetwork : admits (route.rules.flatMap (ConstraintKind.verdicts env ctx · .network)) =
      ((route.rules.flatMap (networksOf env)).isEmpty ||
        (route.rules.flatMap (networksOf env)).any fun n =>
          n == "all".toList || Text.eqIgnoreAsciiCase n ctx.network) := by
    rw [← admits_map, List.map_flatMap]
    rfl
  have hport : admits (route.rules.flatMap (ConstraintKind.verdicts env ctx · .port)) =
      ((route.rules.flatMap portsOf).isEmpty ||
        (route.rules.flatMap portsOf).any (inRange ctx.targetPort)) := by
    rw [← admits_map, List.map_flatMap]
    rfl
  rw [TomlRouteEntry.filters_eq, RouteFilters.pass, ← hnode, ← hnetwork, ← hport, Bool.and_eq_true,
    Bool.and_eq_true]
  constructor
  · rintro ⟨⟨hnodes, hnetworks⟩, hports⟩ kind
    cases kind with
    | node => exact hnodes
    | network => exact hnetworks
    | port => exact hports
  · intro h
    exact ⟨⟨h .node, h .network⟩, h .port⟩

section

variable {env : Matching} (geo : GeoEngine env)

theorem matchTomlRoute_iff (route : TomlRouteEntry) (ctx : MatchContext) (targetLower : List Char) :
    matchTomlRoute geo route ctx targetLower = true ↔
      (∀ kind : ConstraintKind,
        admits (route.rules.flatMap fun rule => kind.verdicts env ctx rule) = true) ∧
      (route.rules.flatMap destsOf = [] ∨
        (route.rules.flatMap destsOf).any (matchDestRule geo ctx targetLower) = true) := by
  rw [matchTomlRoute, Bool.and_eq_true, pass_filters_iff, TomlRouteEntry.filters_eq, Bool.or_eq_true,
    List.isEmpty_iff]

theorem destsOf_of_isConstraint {rule : List Char} (h : IsConstraint rule) : destsOf rule = [] := by
  rw [destsOf]
  exact if_pos (.inr (.inr h))

/-- **Constraints narrow.**  An entry matches only a connection that has one of the values that the
entry lists, of every kind of which it lists one.  A constraint that is added, anywhere in the entry,
lets a further connection match only as an alternative: the entry has listed a value of its kind
before, and the constraint lists the value of the connection. -/
theorem constraints_narrow (route : TomlRouteEntry) (ctx : MatchContext) (targetLower : List Char) :
    (matchTomlRoute geo route ctx targetLower = true → ∀ kind : ConstraintKind,
      (∃ rule ∈ route.rules, kind.HasValue env rule) →
        ∃ rule ∈ route.rules, kind.Lists env ctx rule) ∧
    ∀ before added after, route.rules = before ++ after → IsConstraint added →
      matchTomlRoute geo ⟨before ++ added :: after, route.outs⟩ ctx targetLower = true →
        matchTomlRoute geo route ctx targetLower = false →
          ∃ kind : ConstraintKind,
            (∃ rule ∈ route.rules, kind.HasValue env rule) ∧ kind.Lists env ctx added := by
  constructor
  · intro hmatch kind hvalue
    have hadmits := ((matchTomlRoute_iff geo route ctx targetLower).mp hmatch).1 kind
    have hne : (route.rules.flatMap fun rule => kind.verdicts env ctx rule) ≠ [] := by
      obtain ⟨rule, hmem, hrule⟩ := hvalue
      intro hnil
      exact (kind.hasValue_iff.mp hrule) (List.flatMap_eq_nil_iff.mp hnil rule hmem)
    obtain ⟨rule, hmem, hlists⟩ := List.mem_flatMap.mp (admits_iff.mp hadmits hne)
    exact ⟨rule, hmem, kind.lists_iff.mpr hlists⟩
  · intro before added after hrules hadded hmatch hno
    obtain ⟨hkinds, hdests⟩ := (matchTomlRoute_iff geo _ ctx targetLower).mp hmatch
    rw [← Bool.not_eq_true, matchTomlRoute_iff, hrules] at hno
    simp only [List.flatMap_append, List.flatMap_cons, destsOf_of_isConstraint hadded,
      List.nil_append] at hkinds hdests hno
    -- the destinations are the same, so the difference is in a kind
    obtain ⟨kind, hkind⟩ := not_forall.mp fun hall => hno ⟨hall, hdests⟩
    rw [Bool.not_eq_true] at hkind
    obtain ⟨hne, hlists⟩ := admits_insert (hkinds kind) hkind
    refine ⟨kind, ?_, kind.lists_iff.mpr hlists⟩
    rw [← List.flatMap_append, ← hrules] at hne
    obtain ⟨rule, hmem, hrule⟩ : ∃ rule ∈ route.rules, kind.verdicts env ctx rule ≠ [] := by
      by_contra hnone
      apply hne
      apply List.flatMap_eq_nil_iff.mpr
      intro rule hmem
      by_contra hrule
      exact hnone ⟨rule, hmem, hrule⟩
    exact ⟨rule, hmem, kind.hasValue_iff.mpr hrule⟩

end

/-- A connection to port 443 of a host that is not resolved. -/
def httpsContext : MatchContext := ⟨1, "tcp".toList, "example.org".toList, none, 443⟩

/-- An entry whose only port does not parse matches every port; and an entry for port 80 does not match
port 443, but it does with one more port rule. -/
theorem constraints_widen :
    (IsConstraint "port:https".toList ∧ ¬ ConstraintKind.port.Lists (asciiMatching []) httpsContext
          "port:https".toList ∧
        matchTomlRoute (GeoEngine.none : GeoEngine (asciiMatching [])) ⟨["port:https".toList], []⟩
          httpsContext "example.org".toList = true) ∧
      matchTomlRoute (GeoEngine.none : GeoEngine (asciiMatching [])) ⟨["port:80".toList], []⟩
          httpsContext "example.org".toList = false ∧
        matchTomlRoute (GeoEngine.none : GeoEngine (asciiMatching []))
          ⟨["port:80".toList, "port:443".toList], []⟩ httpsContext "example.org".toList = true := by
  refine ⟨⟨by decide +kernel, ?_, by decide +kernel⟩, by decide +kernel, by decide +kernel⟩
  have hnone : portsOf "port:https".toList = [] := by decide +kernel
  rintro ⟨range, hmem, -⟩
  rw [hnone] at hmem
  cases hmem

end Elise
