/-
Elise/Router/Mapped.lean

IPv4-mapped destinations: what the audit and the router make of `a` and of
`::ffff:a`.

The check for private addresses looks through the mapping, the rules for
addresses (`ip`, `cidr`, `geoip`) do not.  The audit answers both forms alike
exactly under `AuditAlike`, which says how far the address rules of the two
lists may tell the forms apart.  The router does exactly under `MappedAlike`: up
to the first entry or rule that accepts the destination by its name or port, no
address rules tell the forms apart, or the first that do lead where the other
form ends up (`mapped_policy_exact`).
-/
import Elise.Router.ByAddress

namespace Elise

open Net FirstMatch

/-- `::ffff:a`. -/
def mapped (a : Ipv4Addr) : Ipv6Addr :=
  ⟨[0, 0, 0, 0, 0, 0, 0, 0, 0, 0, 255, 255] ++ a.octets, by simp [a.length_octets]⟩

theorem toIpv4Mapped_mapped (a : Ipv4Addr) : (mapped a).toIpv4Mapped = some a := by
  have htake : (mapped a).octets.take 12 = [0, 0, 0, 0, 0, 0, 0, 0, 0, 0, 255, 255] := rfl
  rw [Ipv6Addr.toIpv4Mapped]
  rw [if_pos htake]
  rfl

/-! ### The audit -/

theorem isPrivateV6_mapped (a : Ipv4Addr) : PrivateIp.isPrivateV6 (mapped a) = false := by
  have hfirst : (mapped a).segments.headD 0 = 0 := rfl
  have hnat : 65535 ≤ (mapped a).toNat := by
    obtain ⟨octets, hlen⟩ := a
    match octets, hlen with
    | [a, b, c, d], hlen =>
        show 65535 ≤
          (((65535 * 256 + a.toNat) * 256 + b.toNat) * 256 + c.toNat) * 256 + d.toNat
        omega
  have hone : ((mapped a).toNat == 1) = false := beq_eq_false_iff_ne.mpr (by omega)
  have hzero : ((mapped a).toNat == 0) = false := beq_eq_false_iff_ne.mpr (by omega)
  rw [PrivateIp.isPrivateV6]
  rw [hone, hzero, hfirst]
  rfl

/-- **A mapped address is as private as the one in it.** -/
theorem isPrivateIp_mapped (a : Ipv4Addr) : isPrivateIp (.v6 (mapped a)) = isPrivateIp (.v4 a) := by
  rw [isPrivateIp, isPrivateIp, toIpv4Mapped_mapped, isPrivateV6_mapped, Bool.or_false]
  rfl

section

variable {env : Matching} (geo : GeoEngine env)

/-- Whether a rule for addresses matches an address. -/
def RuleItem.matchesAddress (x : IpAddr) : RuleItem env → Bool
  | geoIp country => geo.matchGeoip country x
  | cidr net => env.contains net x
  | ip expected => x == expected
  | _ => false

/-- The address rules of a list match an address. -/
def addressHit (items : List (RuleItem env)) (x : IpAddr) : Bool :=
  items.any (RuleItem.matchesAddress geo x)

/-- A rule of another kind matches. -/
def otherHit (items : List (RuleItem env)) (domain : List Char) (port : UInt16) : Bool :=
  matchesFull geo items ⟨domain, none, port, none, none⟩

theorem matchesQuery_some (item : RuleItem env) (domain lower : List Char) (x : IpAddr)
    (port : UInt16) :
    item.matchesQuery geo ⟨domain, some x, port, none, none⟩ lower =
      (item.matchesQuery geo ⟨domain, none, port, none, none⟩ lower ||
        item.matchesAddress geo x) := by
  cases item <;> simp [RuleItem.matchesQuery, RuleItem.matchesAddress]

theorem matchesFull_some (items : List (RuleItem env)) (domain : List Char) (x : IpAddr)
    (port : UInt16) :
    matchesFull geo items ⟨domain, some x, port, none, none⟩ =
      (otherHit geo items domain port || addressHit geo items x) := by
  rw [otherHit, matchesFull, matchesFull, addressHit]
  induction items with
  | nil => rfl
  | cons item items ih =>
      rw [List.any_cons, List.any_cons, List.any_cons, ih, matchesQuery_some]
      ac_rfl

/-- Forbidden whatever the lists say: a private destination, a port, or
BitTorrent. -/
def AuditController.forbidden (audit : AuditController env) (domain : List Char) (x : IpAddr)
    (port : UInt16) : Bool :=
  (audit.banPrivateIp && isPrivateTarget ⟨domain, some x, port, none, none⟩) ||
    audit.forbiddenPorts.any (inRange port) ||
    (audit.forbiddenBitTorrent && isBitTorrent env ⟨domain, some x, port, none, none⟩)

theorem shouldBlock_some (audit : AuditController env) (domain : List Char) (x : IpAddr)
    (port : UInt16) :
    audit.shouldBlock geo domain (some x) port =
      (!(otherHit geo audit.whiteList domain port || addressHit geo audit.whiteList x) &&
        (audit.forbidden domain x port ||
          (otherHit geo audit.blockList domain port || addressHit geo audit.blockList x))) := by
  rw [AuditController.shouldBlock, AuditController.shouldBlockFull, matchesFull_some,
    matchesFull_some, AuditController.forbidden]
  split_ifs with hwhite hprivate hport htorrent
  · simp [hwhite]
  · simp [hwhite, hprivate]
  · simp [hwhite, hport]
  · simp [hwhite, htorrent]
  · simp [hwhite, hprivate, hport, htorrent]

theorem forbidden_mapped (audit : AuditController env) (domain : List Char) (a : Ipv4Addr)
    (port : UInt16) :
    audit.forbidden domain (.v6 (mapped a)) port = audit.forbidden domain (.v4 a) port := by
  have hprivate : AuditController.isPrivateTarget ⟨domain, some (.v6 (mapped a)), port, none, none⟩
      = AuditController.isPrivateTarget ⟨domain, some (.v4 a), port, none, none⟩ := by
    simp only [AuditController.isPrivateTarget, Option.any_some, isPrivateIp_mapped]
  rw [AuditController.forbidden, AuditController.forbidden, hprivate]
  rfl

/-- The address rules of a list match one form exactly if they match the
other. -/
def AddressesAlike (items : List (RuleItem env)) (a : Ipv4Addr) : Prop :=
  addressHit geo items (.v4 a) = addressHit geo items (.v6 (mapped a))

instance (items : List (RuleItem env)) (a : Ipv4Addr) : Decidable (AddressesAlike geo items a) :=
  inferInstanceAs (Decidable (_ = _))

/-- The form that the address rules of the white list do not match. -/
def unlisted (whiteList : List (RuleItem env)) (a : Ipv4Addr) : IpAddr :=
  if addressHit geo whiteList (.v4 a) then .v6 (mapped a) else .v4 a

/-- How far the lists may tell the two forms apart. -/
def AuditAlike (audit : AuditController env) (domain : List Char) (port : UInt16)
    (a : Ipv4Addr) : Prop :=
  otherHit geo audit.whiteList domain port = true ∨
    (AddressesAlike geo audit.whiteList a ∧
      (addressHit geo audit.whiteList (.v4 a) = true ∨
        audit.forbidden domain (.v4 a) port = true ∨
        otherHit geo audit.blockList domain port = true ∨
        AddressesAlike geo audit.blockList a)) ∨
    (¬ AddressesAlike geo audit.whiteList a ∧
      audit.forbidden domain (.v4 a) port = false ∧
      otherHit geo audit.blockList domain port = false ∧
      addressHit geo audit.blockList (unlisted geo audit.whiteList a) = false)

theorem shouldBlock_mapped_iff (audit : AuditController env) (domain : List Char) (port : UInt16)
    (a : Ipv4Addr) :
    audit.shouldBlock geo domain (some (.v4 a)) port =
        audit.shouldBlock geo domain (some (.v6 (mapped a))) port ↔
      AuditAlike geo audit domain port a := by
  rw [shouldBlock_some, shouldBlock_some, forbidden_mapped, AuditAlike, AddressesAlike,
    AddressesAlike, unlisted]
  -- five facts decide: the other rules, the ban, and what the address rules say
  generalize otherHit geo audit.whiteList domain port = white
  generalize otherHit geo audit.blockList domain port = block
  generalize audit.forbidden domain (.v4 a) port = forbidden
  cases white
  · cases addressHit geo audit.whiteList (.v4 a) <;>
      cases addressHit geo audit.whiteList (.v6 (mapped a)) <;>
      cases forbidden <;> cases block <;> simp
  · simp

end

/-! ### The router -/

section

variable {env : Matching} (geo : GeoEngine env)

/-- Go through the entries and rules.  One that accepts the destination without
its address, by name, port, node or network, ends the search; so does one whose
address rules match both forms.  One whose address rules match one form only
must lead where the later ones lead the other form. -/
def RoutesConfig.MappedAlike (cfg : RoutesConfig) (ctx : MatchContext) (a : Ipv4Addr) : Prop :=
  SameBeside cfg.fallback (cfg.leadsTo geo 0 { ctx with targetIp := none })
    (cfg.leadsByAddress geo 0 ctx (.v4 a)) (cfg.leadsByAddress geo 0 ctx (.v6 (mapped a)))
    cfg.alternatives

theorem matchOutbound_mapped_iff {cfg : RoutesConfig} (h : cfg.NoChoice) (ctx : MatchContext)
    (a : Ipv4Addr) (roll roll' : Nat) :
    matchOutbound geo cfg roll { ctx with targetIp := some (.v4 a) } =
        matchOutbound geo cfg roll' { ctx with targetIp := some (.v6 (mapped a)) } ↔
      cfg.MappedAlike geo ctx a := by
  rw [matchOutbound_roll geo h roll 0, matchOutbound_roll geo h roll' 0,
    matchOutbound_eq_firstMatch, matchOutbound_eq_firstMatch,
    firstMatch_beside_iff (leadsTo_some geo cfg 0 ctx (.v4 a))
      (leadsTo_some geo cfg 0 ctx (.v6 (mapped a))) fun _ _ _ => leadsByAddress_same geo]
  rfl

/-- **The two forms of a destination.**  The audit answers `a` and `::ffff:a`
alike exactly under `AuditAlike`.  The router chooses the same outbound for
both exactly under `MappedAlike`. -/
theorem mapped_policy_exact (audit : AuditController env) (cfg : RoutesConfig) (host : List Char)
    (port : UInt16) (a : Ipv4Addr) (nodeId : UInt32) (network : List Char) (roll roll' : Nat)
    (h : cfg.NoChoice) :
    (audit.shouldBlock geo host (some (.v4 a)) port =
        audit.shouldBlock geo host (some (.v6 (mapped a))) port ↔
      AuditAlike geo audit host port a) ∧
    (matchOutbound geo cfg roll ⟨nodeId, network, host, some (.v4 a), port⟩ =
        matchOutbound geo cfg roll' ⟨nodeId, network, host, some (.v6 (mapped a)), port⟩ ↔
      cfg.MappedAlike geo ⟨nodeId, network, host, none, port⟩ a) :=
  ⟨shouldBlock_mapped_iff geo audit host port a,
    matchOutbound_mapped_iff geo h ⟨nodeId, network, host, none, port⟩ a roll roll'⟩

end

/-- Examples know the address 1.2.3.4, and no geo data. -/
def sampleMatching : Matching := asciiMatching [.v4 (.new 1 2 3 4)]

def sampleGeo : GeoEngine sampleMatching := .none

/-- An audit that blocks 1.2.3.4. -/
def blockingAudit : AuditController sampleMatching where
  blockList := RuleItem.reload "# abuse\nip:1.2.3.4\n".toList
  whiteList := []
  forbiddenPorts := []
  banPrivateIp := false
  forbiddenBitTorrent := false

/-- Routes that block 1.2.3.4. -/
def blockingRoutes : RoutesConfig :=
  { RoutesConfig.default with tomlRoutes := [⟨["1.2.3.4".toList], [.block]⟩] }

/-- Routes that block 1.2.3.4, and then the name of the destination. -/
def twiceBlockingRoutes : RoutesConfig :=
  { RoutesConfig.default with
    tomlRoutes := [⟨["1.2.3.4".toList], [.block]⟩, ⟨["full:a.example".toList], [.block]⟩] }

theorem mapped_policy_exact_elsewhere :
    blockingRoutes.NoChoice ∧ twiceBlockingRoutes.NoChoice ∧
      blockingAudit.shouldBlock sampleGeo "a.example".toList (some (.v4 (.new 5 6 7 8))) 443 =
        blockingAudit.shouldBlock sampleGeo "a.example".toList
          (some (.v6 (mapped (.new 5 6 7 8)))) 443 ∧
      matchOutbound sampleGeo twiceBlockingRoutes 0
          ⟨1, "tcp".toList, "a.example".toList, some (.v4 (.new 1 2 3 4)), 443⟩ =
        matchOutbound sampleGeo twiceBlockingRoutes 0
          ⟨1, "tcp".toList, "a.example".toList, some (.v6 (mapped (.new 1 2 3 4))), 443⟩ := by
  have hsingle : blockingRoutes.NoChoice := by decide
  have htwice : twiceBlockingRoutes.NoChoice := by decide
  refine ⟨hsingle, htwice, ?_, ?_⟩
  · apply (mapped_policy_exact sampleGeo blockingAudit blockingRoutes "a.example".toList 443
      (.new 5 6 7 8) 1 "tcp".toList 0 0 hsingle).1.mpr
    exact .inr (.inl ⟨by decide, .inr (.inr (.inr (by decide)))⟩)
  · apply (mapped_policy_exact sampleGeo blockingAudit twiceBlockingRoutes "a.example".toList 443
      (.new 1 2 3 4) 1 "tcp".toList 0 0 htwice).2.mpr
    -- the first entry sees one form only, the second one leads the other form alike
    have hname : twiceBlockingRoutes.leadsTo sampleGeo 0
        ⟨1, "tcp".toList, "a.example".toList, none, 443⟩
        (.inl ⟨["1.2.3.4".toList], [.block]⟩) = none := by decide
    have hv4 : twiceBlockingRoutes.leadsByAddress sampleGeo 0
        ⟨1, "tcp".toList, "a.example".toList, none, 443⟩ (.v4 (.new 1 2 3 4))
        (.inl ⟨["1.2.3.4".toList], [.block]⟩) = some .block := by decide
    have hv6 : twiceBlockingRoutes.leadsByAddress sampleGeo 0
        ⟨1, "tcp".toList, "a.example".toList, none, 443⟩ (.v6 (mapped (.new 1 2 3 4)))
        (.inl ⟨["1.2.3.4".toList], [.block]⟩) = none := by decide
    have hname' : twiceBlockingRoutes.leadsTo sampleGeo 0
        ⟨1, "tcp".toList, "a.example".toList, none, 443⟩
        (.inl ⟨["full:a.example".toList], [.block]⟩) = some .block := by decide
    show SameBeside _ _ _ _ [_, _]
    rw [SameBeside, hname, hv4, hv6]
    show firstMatch _ _ [_] = _
    rw [firstMatch_cons, hname']
    rfl

/-- 1.2.3.4 is blocked, `::ffff:1.2.3.4` is let through: by the audit and by
the router. -/
theorem mapped_escapes :
    blockingRoutes.NoChoice ∧
      blockingAudit.shouldBlock sampleGeo "a.example".toList (some (.v4 (.new 1 2 3 4))) 443 ≠
        blockingAudit.shouldBlock sampleGeo "a.example".toList
          (some (.v6 (mapped (.new 1 2 3 4)))) 443 ∧
      matchOutbound sampleGeo blockingRoutes 0
          ⟨1, "tcp".toList, "a.example".toList, some (.v4 (.new 1 2 3 4)), 443⟩ ≠
        matchOutbound sampleGeo blockingRoutes 0
          ⟨1, "tcp".toList, "a.example".toList, some (.v6 (mapped (.new 1 2 3 4))), 443⟩ := by
  refine ⟨by decide, by decide, ?_⟩
  intro heq
  have htag := congrArg OutboundConfig.tag heq
  revert htag
  decide

end Elise
