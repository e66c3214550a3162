/-
Elise/Inbound/Spelled.lean

An address and its text as the target of a request.

A client can name a host by its address, or send the text of the address as a
name.  The parsers keep the two apart: the text leaves the request without an
address, and then no address rule of the router sees it.  (The mux of VLESS and
the inbounds of SOCKS and HTTP read such a text as an address.)  The two requests
go the same way exactly under `RoutesConfig.SpelledAlike`.

A request with an address is accepted wherever the same request without it is, and by
the address rules besides (`leadsTo_some`).  It goes the same way exactly if the first
entry or rule that accepts it by an address rule alone leads where the rest leads without
the address (`matchOutbound_spelled_iff`).
-/
import Elise.Inbound.Requests
import Elise.Router.Mapped

namespace Elise

open Net FirstMatch

section

variable {env : Matching} (geo : GeoEngine env)

/-- The first entry or rule that accepts the request, if it does so by an
address rule alone, leads where the rest leads without the address. -/
def RoutesConfig.SpelledAlike (cfg : RoutesConfig) (ctx : MatchContext) (x : IpAddr) : Prop :=
  Repeats cfg.fallback (cfg.leadsTo geo 0 { ctx with targetIp := none })
    (cfg.leadsByAddress geo 0 ctx x) cfg.alternatives

/-- **With the address and without.** -/
theorem matchOutbound_spelled_iff {cfg : RoutesConfig} (h : cfg.NoChoice) (ctx : MatchContext)
    (x : IpAddr) (roll roll' : Nat) :
    matchOutbound geo cfg roll { ctx with targetIp := some x } =
        matchOutbound geo cfg roll' { ctx with targetIp := none } ↔
      cfg.SpelledAlike geo ctx x := by
  rw [matchOutbound_roll geo h roll 0, matchOutbound_roll geo h roll' 0,
    matchOutbound_eq_firstMatch, matchOutbound_eq_firstMatch,
    firstMatch_or_eq_iff (leadsTo_some geo cfg 0 ctx x)]
  rfl

end

/-! ### The text of an address -/

/-- The text of an address, as a name. -/
def AddressField.spelled (a : IpAddr) : AddressField := .domain a.textBytes a.length_textBytes_lt

theorem AddressField.read_spelled (a : IpAddr) : (spelled a).read = (a.chars, none) := by
  rw [spelled, read, a.fromUtf8Lossy_textBytes]

section

variable {env : Matching} (geo : GeoEngine env)

/-- The outbound for a destination. -/
def Destination.outbound (d : Destination) (cfg : RoutesConfig) (nodeId : UInt32)
    (network : List Char) (roll : Nat) : OutboundConfig :=
  matchOutbound geo cfg roll ⟨nodeId, network, d.host, d.ip, d.port⟩

/-- **The spelling of an address.**  Every parser accepts a request for an
address and a request for the text of the address.  The router, for a
configuration without a choice, leads both to the same outbound exactly under
`SpelledAlike`. -/
theorem spelled_routing_exact (h : Vmess.Hashes) (gcm : Vmess.GcmOpen) (cfg : RoutesConfig)
    (nodeId : UInt32) (network : List Char) (a : IpAddr) (port : UInt16) (r s : InboundRequest)
    (roll roll' : Nat) (hchoice : cfg.NoChoice) (hr : r.Names h gcm (.ip a) port)
    (hs : s.Names h gcm (.spelled a) port) :
    ∃ d e, r.parse h gcm = some d ∧ s.parse h gcm = some e ∧
      (d.outbound geo cfg nodeId network roll = e.outbound geo cfg nodeId network roll' ↔
        cfg.SpelledAlike geo ⟨nodeId, network, a.chars, none, port⟩ a) := by
  have hparse := InboundRequest.parse_of_names h gcm hr
  have hparse' := InboundRequest.parse_of_names h gcm hs
  rw [AddressField.read_spelled] at hparse'
  exact ⟨_, _, hparse, hparse',
    matchOutbound_spelled_iff geo hchoice ⟨nodeId, network, a.chars, none, port⟩ a roll roll'⟩

end

/-- For requests that hold no sealed text. -/
def noHashes : Vmess.Hashes := ⟨fun _ => [], fun _ => []⟩

def noGcm : Vmess.GcmOpen := fun _ _ _ _ => none

/-- 5.6.7.8 and its text in TUIC, where the routes block 1.2.3.4. -/
theorem spelled_routing_exact_elsewhere :
    blockingRoutes.NoChoice ∧
      ∃ d e,
        (InboundRequest.tuicV5 [1, 5, 6, 7, 8, 1, 187]).parse noHashes noGcm = some d ∧
        (InboundRequest.tuicV5 [0, 7, 53, 46, 54, 46, 55, 46, 56, 1, 187]).parse noHashes noGcm = some e ∧
        d.outbound sampleGeo blockingRoutes 1 "tcp".toList 0 =
          e.outbound sampleGeo blockingRoutes 1 "tcp".toList 0 := by
  have hsingle : blockingRoutes.NoChoice := by decide
  have hr : (InboundRequest.tuicV5 [1, 5, 6, 7, 8, 1, 187]).Names noHashes noGcm
      (.ip (.v4 (.new 5 6 7 8))) 443 := ⟨[], by decide⟩
  have hs : (InboundRequest.tuicV5 [0, 7, 53, 46, 54, 46, 55, 46, 56, 1, 187]).Names noHashes noGcm
      (.spelled (.v4 (.new 5 6 7 8))) 443 := ⟨[], by decide⟩
  obtain ⟨d, e, hd, he, hsame⟩ := spelled_routing_exact sampleGeo noHashes noGcm blockingRoutes 1
    "tcp".toList (.v4 (.new 5 6 7 8)) 443 _ _ 0 0 hsingle hr hs
  refine ⟨hsingle, d, e, hd, he, hsame.mpr ?_⟩
  have hname : blockingRoutes.leadsTo sampleGeo 0
      ⟨1, "tcp".toList, (IpAddr.v4 (.new 5 6 7 8)).chars, none, 443⟩
      (.inl ⟨["1.2.3.4".toList], [.block]⟩) = none := by decide
  have haddress : blockingRoutes.leadsByAddress sampleGeo 0
      ⟨1, "tcp".toList, (IpAddr.v4 (.new 5 6 7 8)).chars, none, 443⟩ (.v4 (.new 5 6 7 8))
      (.inl ⟨["1.2.3.4".toList], [.block]⟩) = none := by decide
  show FirstMatch.Repeats _ _ _ [_]
  rw [FirstMatch.Repeats, hname, haddress]
  trivial

/-- In VLESS, 1.2.3.4 is blocked and the text `1.2.3.4` is let through. -/
theorem spelling_escapes :
    blockingRoutes.NoChoice ∧
      ∃ r s : InboundRequest,
        r.Names noHashes noGcm (.ip (.v4 (.new 1 2 3 4))) 443 ∧
        s.Names noHashes noGcm (.spelled (.v4 (.new 1 2 3 4))) 443 ∧
        ∃ d e, r.parse noHashes noGcm = some d ∧ s.parse noHashes noGcm = some e ∧
          d.outbound sampleGeo blockingRoutes 1 "tcp".toList 0 ≠
            e.outbound sampleGeo blockingRoutes 1 "tcp".toList 0 := by
  let client : Vless.Request := ⟨List.replicate 16 7, [], 1, [], rfl, by decide, .inl rfl⟩
  refine ⟨by decide, .vless (client.bytes (.ip (.v4 (.new 1 2 3 4))) 443),
    .vless (client.bytes (.spelled (.v4 (.new 1 2 3 4))) 443), ⟨client, rfl⟩, ⟨client, rfl⟩,
    ⟨"1.2.3.4".toList, some (.v4 (.new 1 2 3 4)), 443⟩, ⟨"1.2.3.4".toList, none, 443⟩,
    by decide, by decide, by decide⟩

end Elise
