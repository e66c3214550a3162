/-
Elise/Router/PanelRoutes.lean

The routes of the panel (src/config/routes.rs, `import_panel_routes`): each
becomes an entry in front of the local ones, with one outbound.

The match list of a panel route is handed to the router as it is, and the
router reads it in its own language of rules.  There a bare number is the name
of a host, also where the action of the route says `block_port`, and `port:`,
`network:` and `node_id:` restrict an entry and accept everything where they
stand alone.  So what a panel route covers and what its entry accepts differ:
a route that covers a connection may be kept from accepting it by its own
filters, or by being about ports, and one that does not may accept it by its
filters alone.  `panel_blocks_exact` says when a connection that the panel
blocks is blocked.
-/
import Elise.Lib.AssocMap
import Elise.Lib.Json
import Elise.Router.Mapped

namespace Elise

open Net FirstMatch

/-! ### Panel routes -/

namespace PanelRoute

/-- The strings of the match list. -/
def rulesStr (r : Json) : List (List Char) :=
  (((r.get "match").bind Json.asArray).getD []).filterMap Json.asStr

def action (r : Json) : List Char := ((r.get "action").bind Json.asStr).getD "direct".toList

def actionValue (r : Json) : Option (List Char) := (r.get "action_value").bind Json.asStr

/-- The actions that block. -/
def blocking : List (List Char) :=
  ["block".toList, "reject".toList, "block_ip".toList, "block_port".toList]

/-- The tag of the outbound that the route asks for. -/
def targetOut (r : Json) : List Char :=
  if blocking.contains (action r) then "block".toList
  else if action r = "direct".toList ∨ action r = "freedom".toList then "direct".toList
  else (actionValue r).getD "direct".toList

/-- The outbound of the route: one of those that are known, or one made up
from the tag. -/
def out (newOutbounds : AssocMap (List Char) OutboundConfig) (r : Json) : OutboundConfig :=
  (newOutbounds.get (targetOut r)).getD (.plain (targetOut r) (targetOut r))

/-- The entry for the route; a route without strings to match is left out. -/
def convert (newOutbounds : AssocMap (List Char) OutboundConfig) (r : Json) :
    Option TomlRouteEntry :=
  if (rulesStr r).isEmpty then none else some ⟨rulesStr r, [out newOutbounds r]⟩

end PanelRoute

section

variable (env : Matching) (decode : Json → Option OutboundConfig)

/-- A custom outbound without a tag is called by its type. -/
def withTag (ob : OutboundConfig) : OutboundConfig :=
  if ob.tag.isEmpty then { ob with tag := ob.normalizedType env } else ob

/-- The custom outbounds by their tags, a later one over an earlier one. -/
def customByTag (customOutbounds : List Json) : AssocMap (List Char) OutboundConfig :=
  .ofPairs ((customOutbounds.filterMap decode).map fun ob =>
    ((withTag env ob).tag, withTag env ob))

/-- `entry(tag).or_insert`. -/
def orInsert (m : AssocMap (List Char) OutboundConfig) (ob : OutboundConfig) :
    AssocMap (List Char) OutboundConfig :=
  if m.contains ob.tag then m else m.insert ob.tag ob

def newOutbounds (customOutbounds : List Json) : AssocMap (List Char) OutboundConfig :=
  orInsert (orInsert (customByTag env decode customOutbounds) .direct) .block

/-- `import_panel_routes`; `decode` is the decoder of an outbound. -/
def RoutesConfig.importPanelRoutes (cfg : RoutesConfig) (panelRoutes customOutbounds : List Json) :
    RoutesConfig :=
  let new := newOutbounds env decode customOutbounds
  { cfg with
    tomlRoutes := panelRoutes.filterMap (PanelRoute.convert new) ++ cfg.tomlRoutes
    outbounds := new.pairs.foldl
      (fun obs (_, ob) => if obs.any fun o => o.tag == ob.tag then obs else obs ++ [ob])
      cfg.outbounds }

/-- The custom outbounds leave the tag `block` alone. -/
def KeepsBlock (customOutbounds : List Json) : Prop :=
  ∀ ob ∈ customOutbounds.filterMap decode, (withTag env ob).tag ≠ "block".toList

end

/-! ### What a panel route covers -/

section

variable {env : Matching} (geo : GeoEngine env) (ctx : MatchContext)

/-- A port, or a range of ports, that holds the target's. -/
def portCovers (entry : List Char) : Bool :=
  (parsePortRange (Text.trim entry)).any (inRange ctx.targetPort)

/-- A rule for destinations that matches the host or the address. -/
def destCovers (entry : List Char) : Bool :=
  (RouteFilters.add env ⟨[], [], [], []⟩ entry).destRules.any
    (matchDestRule geo ctx (env.lower ctx.targetHost))

/-- What the panel means by a route. -/
def covers (r : Json) : Bool :=
  if PanelRoute.action r = "block_port".toList then (PanelRoute.rulesStr r).any (portCovers ctx)
  else (PanelRoute.rulesStr r).any (destCovers geo ctx)

/-- What the router makes of it. -/
def accepts (r : Json) : Bool :=
  !(PanelRoute.rulesStr r).isEmpty &&
    matchTomlRoute geo ⟨PanelRoute.rulesStr r, []⟩ ctx (env.lower ctx.targetHost)

/-- The filters in the match list let the connection pass. -/
def passes (env : Matching) (ctx : MatchContext) (r : Json) : Bool :=
  (TomlRouteEntry.filters env ⟨PanelRoute.rulesStr r, []⟩).pass ctx

/-- There is nothing but filters and comments in the match list. -/
def filtersOnly (env : Matching) (r : Json) : Bool :=
  (TomlRouteEntry.filters env ⟨PanelRoute.rulesStr r, []⟩).destRules.isEmpty

/-- Accepted, though it does not cover the connection: by its filters alone,
or because ports are read as the names of hosts. -/
def strays (r : Json) : Bool :=
  !(PanelRoute.rulesStr r).isEmpty && passes env ctx r &&
    (filtersOnly env r ||
      (PanelRoute.action r == "block_port".toList &&
        (PanelRoute.rulesStr r).any (destCovers geo ctx)))

/-- Accepted, where it covers the connection: its filters let it pass and, if
it is about ports, it is accepted for another reason than its ports. -/
def holds (r : Json) : Bool :=
  passes env ctx r &&
    (PanelRoute.action r != "block_port".toList || filtersOnly env r ||
      (PanelRoute.rulesStr r).any (destCovers geo ctx))

end

/-! ### Covering and accepting -/

section

variable {env : Matching} (geo : GeoEngine env) (ctx : MatchContext)

theorem destRules_add (f : RouteFilters) (rule : List Char) :
    (f.add env rule).destRules =
      f.destRules ++ (RouteFilters.add env ⟨[], [], [], []⟩ rule).destRules := by
  unfold RouteFilters.add
  dsimp only
  split
  · simp
  · split
    · simp
    · split
      · simp
      · split <;> simp

/-- The rules for destinations are those of the single rules. -/
theorem destRules_foldl (rules : List (List Char)) (f : RouteFilters) :
    (rules.foldl (RouteFilters.add env) f).destRules =
      f.destRules ++
        rules.flatMap fun rule => (RouteFilters.add env ⟨[], [], [], []⟩ rule).destRules := by
  induction rules generalizing f with
  | nil => simp
  | cons rule rules ih =>
      rw [List.foldl_cons, ih, destRules_add, List.flatMap_cons, List.append_assoc]

theorem any_destRules (r : Json) :
    (TomlRouteEntry.filters env ⟨PanelRoute.rulesStr r, []⟩).destRules.any
        (matchDestRule geo ctx (env.lower ctx.targetHost)) =
      (PanelRoute.rulesStr r).any (destCovers geo ctx) := by
  rw [TomlRouteEntry.filters, destRules_foldl, List.nil_append, List.any_flatMap]
  rfl

theorem accepts_eq (r : Json) :
    accepts geo ctx r =
      (!(PanelRoute.rulesStr r).isEmpty && passes env ctx r &&
        (filtersOnly env r || (PanelRoute.rulesStr r).any (destCovers geo ctx))) := by
  rw [accepts, matchTomlRoute, ← any_destRules, Bool.and_assoc]
  rfl

/-- Without covering, only a stray accepts. -/
theorem accepts_of_not_covers {r : Json} (h : covers geo ctx r = false) :
    accepts geo ctx r = strays geo ctx r := by
  rw [accepts_eq, strays]
  rw [covers] at h
  split_ifs at h with haction
  · simp [haction]
  · simp [h]

theorem accepts_of_covers {r : Json} (h : covers geo ctx r = true) :
    accepts geo ctx r = holds geo ctx r := by
  have hne : (PanelRoute.rulesStr r).isEmpty = false := by
    rw [List.isEmpty_eq_false_iff]
    intro hnil
    rw [covers, hnil, List.any_nil, List.any_nil, ite_self] at h
    exact Bool.false_ne_true h
  rw [accepts_eq, holds, hne]
  rw [covers] at h
  split_ifs at h with haction
  · simp [haction]
  · have hother : (PanelRoute.action r != "block_port".toList) = true := by simpa using haction
    rw [h, hother]
    simp

end

/-! ### The imported routes -/

section

variable {env : Matching} {decode : Json → Option OutboundConfig}

theorem get_customByTag_block {customOutbounds : List Json}
    (h : KeepsBlock env decode customOutbounds) :
    (customByTag env decode customOutbounds).get "block".toList = none := by
  rw [customByTag, AssocMap.get_ofPairs_eq_none, List.map_map]
  intro hmem
  obtain ⟨ob, hob, htag⟩ := List.mem_map.mp hmem
  exact h ob hob htag

/-- The tag `block` is that of the outbound that blocks. -/
theorem get_newOutbounds_block {customOutbounds : List Json}
    (h : KeepsBlock env decode customOutbounds) :
    (newOutbounds env decode customOutbounds).get "block".toList = some .block := by
  have hne : "block".toList ≠ OutboundConfig.direct.tag := by decide
  have hdirect : (orInsert (customByTag env decode customOutbounds) .direct).get "block".toList =
      none := by
    rw [orInsert]
    split_ifs
    · exact get_customByTag_block h
    · rw [AssocMap.get_insert_ne _ _ hne]
      exact get_customByTag_block h
  have hmissing : ¬ (orInsert (customByTag env decode customOutbounds) .direct).contains
      OutboundConfig.block.tag := by
    rw [AssocMap.contains, show OutboundConfig.block.tag = "block".toList from rfl, hdirect]
    decide
  rw [newOutbounds, orInsert, if_neg hmissing]
  exact AssocMap.get_insert_self _ _ _

theorem normalizedType_block : OutboundConfig.block.normalizedType env = "block".toList := by
  have htrim : Text.trim OutboundConfig.block.outboundType = "block".toList := by decide
  have hlower : env.lower "block".toList = "block".toList := by
    rw [env.lower_of_all (by decide)]
    decide
  rw [OutboundConfig.normalizedType]
  rw [htrim, hlower]
  rfl

/-- A route whose action blocks leads to the outbound that blocks. -/
theorem out_of_blocking {customOutbounds : List Json} (h : KeepsBlock env decode customOutbounds)
    {r : Json} (hr : PanelRoute.action r ∈ PanelRoute.blocking) :
    PanelRoute.out (newOutbounds env decode customOutbounds) r = .block := by
  rw [PanelRoute.out, PanelRoute.targetOut, if_pos (List.contains_iff_mem.mpr hr),
    get_newOutbounds_block h]
  rfl

variable (geo : GeoEngine env) (decode)

/-- The imported configuration without the entries of the panel. -/
def localPart (env : Matching) (cfg : RoutesConfig) (customOutbounds : List Json) : RoutesConfig :=
  cfg.importPanelRoutes env decode [] customOutbounds

theorem routeOut_convert {new : AssocMap (List Char) OutboundConfig} {ctx : MatchContext}
    {roll : Nat} (r : Json) :
    (PanelRoute.convert new r).bind (routeOut geo ctx (env.lower ctx.targetHost) roll) =
      if accepts geo ctx r then some (PanelRoute.out new r) else none := by
  rw [PanelRoute.convert, accepts]
  cases hempty : (PanelRoute.rulesStr r).isEmpty with
  | true => simp
  | false =>
      have hroute : matchTomlRoute geo ⟨PanelRoute.rulesStr r, [PanelRoute.out new r]⟩ ctx
          (env.lower ctx.targetHost) =
        matchTomlRoute geo ⟨PanelRoute.rulesStr r, []⟩ ctx (env.lower ctx.targetHost) := rfl
      have hone : choose roll [PanelRoute.out new r] = some (PanelRoute.out new r) :=
        by
        rw [choose_of_length_le_one (by simp) roll]
        rfl
      simp [routeOut, hroute, hone]

/-- The entries of the panel: the first route that is accepted decides. -/
theorem findSome_panel {new : AssocMap (List Char) OutboundConfig} {ctx : MatchContext}
    {roll : Nat} (panelRoutes : List Json) :
    (panelRoutes.filterMap (PanelRoute.convert new)).findSome?
        (routeOut geo ctx (env.lower ctx.targetHost) roll) =
      (panelRoutes.find? (accepts geo ctx)).map (PanelRoute.out new) := by
  induction panelRoutes with
  | nil => rfl
  | cons r rs ih =>
      have hr := @routeOut_convert env geo new ctx roll r
      rw [List.find?_cons]
      cases hconvert : PanelRoute.convert new r with
      | none =>
          rw [hconvert, Option.bind_none] at hr
          have haccepts : accepts geo ctx r = false := by
            by_contra hne
            rw [if_pos (by simpa using hne)] at hr
            cases hr
          rw [List.filterMap_cons_none hconvert, ih, haccepts]
      | some entry =>
          rw [hconvert, Option.bind_some] at hr
          rw [List.filterMap_cons_some hconvert, List.findSome?_cons, hr, ih]
          cases accepts geo ctx r <;> rfl

/-- **The imported routes as a decision**: the first panel route that is
accepted, else the local part. -/
theorem matchOutbound_import (cfg : RoutesConfig) (panelRoutes customOutbounds : List Json)
    (roll : Nat) (ctx : MatchContext) :
    matchOutbound geo (cfg.importPanelRoutes env decode panelRoutes customOutbounds) roll ctx =
      ((panelRoutes.find? (accepts geo ctx)).map
        (PanelRoute.out (newOutbounds env decode customOutbounds))).getD
        (matchOutbound geo (localPart decode env cfg customOutbounds) roll ctx) := by
  have hentries : (cfg.importPanelRoutes env decode panelRoutes customOutbounds).tomlRoutes =
      panelRoutes.filterMap (PanelRoute.convert (newOutbounds env decode customOutbounds)) ++
        cfg.tomlRoutes := rfl
  have hlocal : (localPart decode env cfg customOutbounds).tomlRoutes = cfg.tomlRoutes := rfl
  rw [matchOutbound, matchOutbound, hentries, hlocal, List.findSome?_append, findSome_panel]
  cases (panelRoutes.find? (accepts geo ctx)) with
  | none => rfl
  | some r => rfl

/-- A panel route leads to an outbound that blocks. -/
def Blocks (env : Matching) (customOutbounds : List Json) (r : Json) : Prop :=
  (PanelRoute.out (newOutbounds env decode customOutbounds) r).normalizedType env =
    "block".toList

/-- The first of these panel routes that the router accepts blocks, or it
accepts none and the local part blocks. -/
def RestBlocks (cfg : RoutesConfig) (panelRoutes customOutbounds : List Json) (roll : Nat)
    (ctx : MatchContext) : Prop :=
  match panelRoutes.find? (accepts geo ctx) with
  | some r => Blocks decode env customOutbounds r
  | none =>
      (matchOutbound geo (localPart decode env cfg customOutbounds) roll ctx).normalizedType env =
        "block".toList

theorem restBlocks_iff (cfg : RoutesConfig) (panelRoutes customOutbounds : List Json) (roll : Nat)
    (ctx : MatchContext) :
    RestBlocks decode geo cfg panelRoutes customOutbounds roll ctx ↔
      (matchOutbound geo (cfg.importPanelRoutes env decode panelRoutes customOutbounds) roll
        ctx).normalizedType env = "block".toList := by
  rw [matchOutbound_import, RestBlocks]
  cases panelRoutes.find? (accepts geo ctx) <;> exact Iff.rfl

/-- **Panel routes that block.**  Let the panel route `r` be the first that
covers a connection, and let its action block.  The router blocks exactly if
the first stray before `r` blocks or, where there is none, `r` is accepted or
what follows it blocks anyway. -/
theorem panel_blocks_exact (cfg : RoutesConfig) (before after customOutbounds : List Json)
    (roll : Nat) (ctx : MatchContext) (r : Json) (hkeeps : KeepsBlock env decode customOutbounds)
    (hbefore : ∀ p ∈ before, covers geo ctx p = false) (hr : covers geo ctx r = true)
    (hblocking : PanelRoute.action r ∈ PanelRoute.blocking) :
    (matchOutbound geo (cfg.importPanelRoutes env decode (before ++ r :: after) customOutbounds)
        roll ctx).normalizedType env = "block".toList ↔
      match before.find? (strays geo ctx) with
      | some p => Blocks decode env customOutbounds p
      | none =>
          holds geo ctx r = true ∨ RestBlocks decode geo cfg after customOutbounds roll ctx := by
  have hfind : before.find? (accepts geo ctx) = before.find? (strays geo ctx) := by
    apply List.find?_congr
    intro p hmem
    exact accepts_of_not_covers geo ctx (hbefore p hmem)
  rw [← restBlocks_iff, RestBlocks, List.find?_append, hfind, List.find?_cons,
    accepts_of_covers geo ctx hr]
  cases before.find? (strays geo ctx) with
  | some p => exact Iff.rfl
  | none =>
      cases holds geo ctx r with
      | true =>
          refine iff_of_true ?_ (.inl rfl)
          show (PanelRoute.out _ r).normalizedType env = _
          rw [out_of_blocking hkeeps hblocking, normalizedType_block]
      | false => exact (or_iff_right Bool.false_ne_true).symm

end

/-- A panel route with one string to match. -/
def samplePanelRoute (text action : String) : Json :=
  .object [("match", .array [.string text]), ("action", .string action)]

/-- A connection to port 25 of mail.example. -/
def smtpContext : MatchContext := ⟨1, "tcp".toList, "mail.example".toList, none, 25⟩

theorem panel_blocks_exact_domain :
    (matchOutbound sampleGeo
      (RoutesConfig.default.importPanelRoutes sampleMatching (fun _ => none)
        ([] ++ samplePanelRoute "domain:example" "reject" :: []) []) 0
      smtpContext).normalizedType sampleMatching = "block".toList := by
  apply (panel_blocks_exact (fun _ => none) sampleGeo .default [] [] [] 0 smtpContext
    (samplePanelRoute "domain:example" "reject") ?_ ?_ (by decide) (by decide)).mpr
  · exact .inl (by decide)
  · intro ob hmem
    cases hmem
  · intro p hmem
    cases hmem

/-- The panel blocks port 25; the router takes `25` for the name of a host and
lets the connection through. -/
theorem blocked_port_let_through :
    KeepsBlock sampleMatching (fun _ => none) [] ∧
      covers sampleGeo smtpContext (samplePanelRoute "25" "block_port") = true ∧
      PanelRoute.action (samplePanelRoute "25" "block_port") ∈ PanelRoute.blocking ∧
      (matchOutbound sampleGeo
        (RoutesConfig.default.importPanelRoutes sampleMatching (fun _ => none)
          [samplePanelRoute "25" "block_port"] []) 0
        smtpContext).normalizedType sampleMatching ≠ "block".toList := by
  refine ⟨?_, by decide, by decide, by decide⟩
  intro ob hmem
  cases hmem

end Elise
