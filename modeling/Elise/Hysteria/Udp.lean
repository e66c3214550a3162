/-
Elise/Hysteria/Udp.lean

The UDP sessions of Hysteria 1 (`handle_hy1_udp_session` in
src/protocol/hysteria/v1.rs).

A session has one socket of its own and sends every datagram from it.  It asks
the audit about the host of a datagram and the router for its outbound, but of
the outbound it only heeds whether it blocks; and the address that a name
resolves to is not looked at again.  So a datagram goes as the shared session
would send it exactly when its outbound is direct and the first address of its
host is not blocked (`hy1_udp_policy_exact`).
-/
import Elise.Router.UdpOutbound

namespace Elise.Hysteria

open Net

/-- A datagram of the client. -/
structure Packet where
  host : List Char
  port : UInt16
  data : List UInt8

/-- What the session is woken by.  A packet comes with what the router draws,
what the DNS knows when it is asked, and the bytes that `send_to` takes, if it
does. -/
inductive Event where
  | cancelled
  | closed
  | down (n : Nat)
  | packet (p : Packet) (roll : Nat) (lookup : Resolver) (taken : Option Nat)

/-- A call of `send_to`. -/
structure Sent where
  packet : Packet
  roll : Nat
  lookup : Resolver
  addr : SocketAddr

structure Session where
  finished : Bool
  lastTag : List Char
  totalUp : Nat
  totalDown : Nat
  /-- `on_traffic`, bytes up. -/
  billed : Nat
  sent : List Sent

def Session.new : Session := ⟨false, "direct".toList, 0, 0, 0, []⟩

section

variable {env : Matching} (ctx : InboundContext env)

/-- The router's answer for a datagram. -/
def outboundFor (p : Packet) (roll : Nat) : OutboundConfig :=
  matchOutbound ctx.geo ctx.routes roll
    ⟨ctx.nodeId, "udp".toList, p.host, env.parseIp p.host, p.port⟩

/-- `target_addr`: the address that the host is, or the first that the DNS
answers. -/
def targetAddr (env : Matching) (lookup : Resolver) (p : Packet) : Option SocketAddr :=
  match env.parseIp p.host with
  | some ip => some (SocketAddr.new ip p.port)
  | none =>
      match dnsResolve env lookup p.host p.port with
      | .ok (addr :: _) => some addr
      | .ok [] => none
      | .error _ => none

/-- One turn of the loop. -/
def Session.step (s : Session) : Event → Session
  | .cancelled => { s with finished := true }
  | .closed => { s with finished := true }
  | .down n => { s with totalDown := s.totalDown + n }
  | .packet p roll lookup taken =>
      if ctx.audit.shouldBlock ctx.geo p.host (env.parseIp p.host) p.port then s
      else
        let outbound := outboundFor ctx p roll
        if outbound.normalizedType env = "block".toList then s
        else
          let s := { s with lastTag := outbound.tag }
          match targetAddr env lookup p with
          | none => s
          | some addr =>
              let bytes := taken.getD 0
              { s with
                totalUp := s.totalUp + bytes
                billed := s.billed + bytes
                sent := s.sent ++ [⟨p, roll, lookup, addr⟩] }

/-- `handle_hy1_udp_session`: the loop, until it is left. -/
def handleHy1UdpSession (s : Session) : List Event → Session
  | [] => s
  | e :: es => if s.finished then s else handleHy1UdpSession (s.step ctx e) es

/-! ### What was sent -/

/-- The audit let the host pass, and the address is the host's first. -/
structure Made (s : Sent) : Prop where
  allowed : ctx.audit.shouldBlock ctx.geo s.packet.host (env.parseIp s.packet.host)
    s.packet.port = false
  addr : targetAddr env s.lookup s.packet = some s.addr

variable {ctx}

/-- A turn sends at most the datagram that it was woken by. -/
theorem Session.made_step {s : Session} (h : ∀ x ∈ s.sent, Made ctx x) (e : Event) :
    ∀ x ∈ (s.step ctx e).sent, Made ctx x := by
  cases e with
  | cancelled => exact h
  | closed => exact h
  | down n => exact h
  | packet p roll lookup taken =>
      rw [Session.step]
      split
      · exact h
      rename_i hallowed
      dsimp only
      split
      · exact h
      cases haddr : targetAddr env lookup p with
      | none => exact h
      | some addr =>
          intro x hx
          rcases List.mem_append.mp hx with hx | hx
          · exact h x hx
          · obtain rfl := List.mem_singleton.mp hx
            exact ⟨Bool.eq_false_iff.mpr hallowed, haddr⟩

theorem made_session {s : Session} (h : ∀ x ∈ s.sent, Made ctx x) (es : List Event) :
    ∀ x ∈ (handleHy1UdpSession ctx s es).sent, Made ctx x := by
  induction es generalizing s with
  | nil => exact h
  | cons e es ih =>
      rw [handleHy1UdpSession]
      split
      · exact h
      · exact ih (Session.made_step h e)

/-! ### The policy -/

variable (ctx)

/-- The shared session would send the datagram directly too, and to the same
address if it sends it at all. -/
def LeavesAsSelected (s : Sent) : Prop :=
  ∃ peer target, UdpSession.connect ctx (dnsResolve env s.lookup) s.roll ⟨true, true⟩
      s.packet.host s.packet.port = .ok (.direct peer target) ∧
    ∀ other ∈ peer, other = s.addr

/-- The address that the datagram is sent to is not blocked. -/
def AddressAllowed (s : Sent) : Prop :=
  ctx.audit.shouldBlock ctx.geo s.packet.host (some s.addr.ip) s.packet.port = false

/-- The router leads to a direct outbound, and the first address that the host
resolves to is not blocked. -/
def DirectAndAllowed (p : Packet) (roll : Nat) (lookup : Resolver) : Prop :=
  (outboundFor ctx p roll).normalizedType env = "direct".toList ∧
    ∀ addr rest, dnsResolve env lookup p.host p.port = .ok (addr :: rest) →
      ctx.audit.shouldBlock ctx.geo p.host (some addr.ip) p.port = false

variable {ctx}

/-- The address is the first that the DNS answers. -/
theorem Made.resolve {s : Sent} (h : Made ctx s) : ∃ rest,
    dnsResolve env s.lookup s.packet.host s.packet.port = .ok (s.addr :: rest) := by
  have haddr := h.addr
  rw [targetAddr] at haddr
  rw [dnsResolve] at haddr ⊢
  generalize env.parseIp s.packet.host = ip at haddr ⊢
  cases ip with
  | some ip => exact ⟨[], by rw [← Option.some.inj haddr]⟩
  | none =>
      dsimp only at haddr ⊢
      generalize s.lookup s.packet.host s.packet.port = resolved at haddr ⊢
      match resolved, haddr with
      | .ok (addr :: rest), haddr =>
          obtain rfl := Option.some.inj haddr
          exact ⟨rest, rfl⟩

theorem Made.policy_iff {s : Sent} (h : Made ctx s) :
    LeavesAsSelected ctx s ∧ AddressAllowed ctx s ↔
      DirectAndAllowed ctx s.packet s.roll s.lookup := by
  obtain ⟨rest, hresolve⟩ := h.resolve
  rw [LeavesAsSelected, UdpSession.connect_eq h.allowed]
  constructor
  · rintro ⟨⟨peer, target, hdial, -⟩, haddr⟩
    refine ⟨OutboundDialer.normalizedType_of_direct _ _ _ hdial, ?_⟩
    intro addr rest' hresolve'
    rw [hresolve] at hresolve'
    obtain ⟨rfl, -⟩ := List.cons.inj (Except.ok.inj hresolve')
    exact haddr
  · rintro ⟨hdirect, hfirst⟩
    have haddr := hfirst s.addr rest hresolve
    obtain ⟨peer, hpeer, hsame⟩ :=
      OutboundDialer.dialUdp_of_first ctx.geo ctx.audit _ h.allowed hresolve haddr
    obtain ⟨target, hdial⟩ := OutboundDialer.dialUdpOutbound_direct _ _ _ hdirect hpeer
    exact ⟨⟨peer, target, hdial, hsame⟩, haddr⟩

end

/-- **Hysteria 1 and the policy.**  A datagram that a session sends goes as the
shared session would send it, to an address that is not blocked, exactly when
its outbound is direct and the first address of its host is not blocked. -/
theorem hy1_udp_policy_exact {env : Matching} (ctx : InboundContext env) (es : List Event)
    (s : Sent) (h : s ∈ (handleHy1UdpSession ctx .new es).sent) :
    LeavesAsSelected ctx s ∧ AddressAllowed ctx s ↔
      DirectAndAllowed ctx s.packet s.roll s.lookup := by
  have hnew : ∀ x ∈ Session.new.sent, Made ctx x := fun _ hx => absurd hx List.not_mem_nil
  exact (made_session hnew es s h).policy_iff

/-- 1.2.3.4 is blocked, and everything is sent directly. -/
def directContext : InboundContext sampleMatching := { relayContext with routes := .default }

def query : Packet := ⟨"a.example".toList, 53, [1, 2, 3]⟩

/-- The DNS knows one address for every name. -/
def answering (ip : Ipv4Addr) : Resolver := fun _ port => .ok [.v4 ip port]

/-- The query, sent to the address that the DNS answers. -/
def sentQuery (ip : Ipv4Addr) : Sent := ⟨query, 0, answering ip, .v4 ip 53⟩

theorem direct_query_obeys :
    sentQuery (.new 5 6 7 8) ∈ (handleHy1UdpSession directContext .new
        [.packet query 0 (answering (.new 5 6 7 8)) (some 3)]).sent ∧
      LeavesAsSelected directContext (sentQuery (.new 5 6 7 8)) ∧
      AddressAllowed directContext (sentQuery (.new 5 6 7 8)) := by
  have hsent : sentQuery (.new 5 6 7 8) ∈ (handleHy1UdpSession directContext .new
      [.packet query 0 (answering (.new 5 6 7 8)) (some 3)]).sent := List.mem_singleton_self _
  refine ⟨hsent, (hy1_udp_policy_exact directContext _ _ hsent).mpr ⟨by decide, ?_⟩⟩
  intro addr rest hresolve
  obtain ⟨rfl, -⟩ := List.cons.inj (Except.ok.inj hresolve)
  decide

/-- Where everything is to be redirected to a relay, the query is sent to its
host; and where a name resolves to the blocked 1.2.3.4, it is sent there. -/
theorem query_leaves_directly :
    (sentQuery (.new 5 6 7 8) ∈ (handleHy1UdpSession relayContext .new
        [.packet query 0 (answering (.new 5 6 7 8)) (some 3)]).sent ∧
      ¬ LeavesAsSelected relayContext (sentQuery (.new 5 6 7 8))) ∧
    (sentQuery (.new 1 2 3 4) ∈ (handleHy1UdpSession directContext .new
        [.packet query 0 (answering (.new 1 2 3 4)) (some 3)]).sent ∧
      ¬ AddressAllowed directContext (sentQuery (.new 1 2 3 4))) := by
  refine ⟨⟨List.mem_singleton_self _, ?_⟩, List.mem_singleton_self _, ?_⟩
  · rintro ⟨peer, target, hconnect, -⟩
    rw [UdpSession.connect_eq (by decide)] at hconnect
    have hdirect := OutboundDialer.normalizedType_of_direct _ _ _ hconnect
    revert hdirect
    decide
  · unfold AddressAllowed
    decide

end Elise.Hysteria
