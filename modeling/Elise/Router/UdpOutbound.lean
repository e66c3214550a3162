/-
Elise/Router/UdpOutbound.lean

The dialer for UDP (src/proxy/router/outbound.rs), and the session that the
inbounds share (`UdpSession::connect` in src/conn/udp.rs).

An outbound that is opened says where datagrams leave: a socket that is
connected to a peer, for a direct or a redirecting outbound, or the relay of a
SOCKS5 proxy.  As with `dial`, what the network makes of it is left out.
-/
import Elise.Inbound.Sniffed

namespace Elise

open Net

/-- `shadowsocks::relay::socks5::Address`. -/
inductive Address where
  | socketAddress (addr : SocketAddr)
  | domainNameAddress (host : List Char) (port : UInt16)
  deriving DecidableEq

/-- `UdpOutbound`, and the type of outbound that it was opened for.  A socket
without a peer is not connected and sends nothing. -/
inductive UdpOutbound where
  | direct (peer : Option SocketAddr) (target : Address)
  | redirect (peer : Option SocketAddr) (target : Address)
  | socks (proxyHost : List Char) (proxyPort : UInt16) (target : SocketAddr)

inductive UdpDialError where
  | dial (error : DialError)
  | invalidInput (message : String)
  deriving DecidableEq

/-- `DNSResolver::resolve`: an address stands for itself, a name is looked up. -/
def dnsResolve (env : Matching) (lookup : Resolver) : Resolver := fun host port =>
  match env.parseIp host with
  | some ip => .ok [SocketAddr.new ip port]
  | none => lookup host port

namespace OutboundDialer

variable {env : Matching} (geo : GeoEngine env) (audit : AuditController env) (resolve : Resolver)

/-- `is_unspecified` in `dial_udp`. -/
def isUnspecified (host : List Char) (port : UInt16) : Bool :=
  host.isEmpty || host == "0.0.0.0".toList || port == 0

/-- The peer that the socket is connected to. -/
def dialUdp (host : List Char) (port : UInt16) : Except DialError (Option SocketAddr) :=
  if isUnspecified host port then .ok none
  else
    match resolveTarget geo audit resolve host port with
    | .error e => .error e
    | .ok [] => .error ⟨.notFound, "Failed to resolve UDP destination"⟩
    | .ok (addr :: _) => .ok (some addr)

/-- The address that answers carry, for a host that is an address or a name. -/
def udpTarget (env : Matching) (host : List Char) (port : UInt16) : Address :=
  match env.parseIp host with
  | some ip => .socketAddress (SocketAddr.new ip port)
  | none => .domainNameAddress host port

def dialUdpOutbound (outbound : OutboundConfig) (targetHost : List Char) (targetPort : UInt16) :
    Except UdpDialError UdpOutbound :=
  let ntype := outbound.normalizedType env
  if ntype = "direct".toList then
    match dialUdp geo audit resolve targetHost targetPort with
    | .error e => .error (.dial e)
    | .ok peer =>
        let target :=
          if (env.parseIp targetHost).isNone ∧ targetHost = [] then
            .socketAddress (.v4 (.new 0 0 0 0) 0)
          else udpTarget env targetHost targetPort
        .ok (.direct peer target)
  else if ntype = "redirect".toList then
    match dialUdp geo audit resolve (outbound.targetHost.getD targetHost)
        (redirectPort outbound targetPort) with
    | .error e => .error (.dial e)
    | .ok peer => .ok (.redirect peer (udpTarget env targetHost targetPort))
  else if ntype = "socks".toList then
    match resolveTarget geo audit resolve targetHost targetPort with
    | .error e => .error (.dial e)
    | .ok [] => .error (.dial ⟨.notFound, "No target addresses"⟩)
    | .ok (target :: _) =>
        match outbound.targetHost with
        | none => .error (.invalidInput "Missing SOCKS5 proxy address")
        | some proxyHost => .ok (.socks proxyHost (outbound.port.getD 1080) target)
  else if ntype = "block".toList then
    .error (.dial ⟨.permissionDenied, "UDP blocked by routing rule"⟩)
  else .error (.dial ⟨.unsupported, "Unsupported UDP outbound; direct fallback is disabled"⟩)

/-! ### What a direct outbound needs -/

/-- Only a direct outbound is opened as one. -/
theorem normalizedType_of_direct {outbound : OutboundConfig} {host : List Char} {port : UInt16}
    {peer : Option SocketAddr} {target : Address}
    (h : dialUdpOutbound geo audit resolve outbound host port = .ok (.direct peer target)) :
    outbound.normalizedType env = "direct".toList := by
  rw [dialUdpOutbound] at h
  dsimp only at h
  split_ifs at h with hdirect hredirect hsocks hblock
  · exact hdirect
  · exact hdirect
  · split at h <;> cases h
  · split at h
    · cases h
    · cases h
    · split at h <;> cases h

theorem dialUdpOutbound_direct {outbound : OutboundConfig} {host : List Char} {port : UInt16}
    {peer : Option SocketAddr} (htype : outbound.normalizedType env = "direct".toList)
    (h : dialUdp geo audit resolve host port = .ok peer) :
    ∃ target, dialUdpOutbound geo audit resolve outbound host port = .ok (.direct peer target) := by
  rw [dialUdpOutbound]
  simp only [if_pos htype, h]
  exact ⟨_, rfl⟩

/-- The first address is dialed if the audit lets it pass. -/
theorem dialUdp_of_first {host : List Char} {port : UInt16} {addr : SocketAddr}
    {rest : List SocketAddr}
    (hname : audit.shouldBlock geo host (env.parseIp host) port = false)
    (hresolve : resolve host port = .ok (addr :: rest))
    (haddr : audit.shouldBlock geo host (some addr.ip) port = false) :
    ∃ peer, dialUdp geo audit resolve host port = .ok peer ∧ ∀ other ∈ peer, other = addr := by
  rw [dialUdp]
  split
  · exact ⟨none, rfl, by simp⟩
  · have htarget : ∃ others, resolveTarget geo audit resolve host port = .ok (addr :: others) := by
      rw [resolveTarget]
      simp [hname, hresolve, haddr]
    obtain ⟨others, htarget⟩ := htarget
    rw [htarget]
    exact ⟨some addr, rfl, by simp⟩

end OutboundDialer

/-! ### The session that the inbounds share -/

/-- What the limiters answer. -/
structure Admission where
  device : Bool
  connection : Bool

namespace UdpSession

/-- `UdpSession::connect`. -/
def connect {env : Matching} (ctx : InboundContext env) (resolve : Resolver) (roll : Nat)
    (admission : Admission) (host : List Char) (port : UInt16) : Except UdpDialError UdpOutbound :=
  let ip := env.parseIp host
  if ctx.audit.shouldBlock ctx.geo host ip port || !admission.device then
    .error (.dial ⟨.permissionDenied, "UDP audit/device limit rejected"⟩)
  else if !admission.connection then
    .error (.dial ⟨.permissionDenied, "UDP connection limit reached"⟩)
  else
    let outbound := matchOutbound ctx.geo ctx.routes roll
      ⟨ctx.nodeId, "udp".toList, host, ip, port⟩
    OutboundDialer.dialUdpOutbound ctx.geo ctx.audit resolve outbound host port

/-- The limiters let it pass, and so does the audit. -/
theorem connect_eq {env : Matching} {ctx : InboundContext env} {resolve : Resolver} {roll : Nat}
    {host : List Char} {port : UInt16}
    (h : ctx.audit.shouldBlock ctx.geo host (env.parseIp host) port = false) :
    connect ctx resolve roll ⟨true, true⟩ host port =
      OutboundDialer.dialUdpOutbound ctx.geo ctx.audit resolve
        (matchOutbound ctx.geo ctx.routes roll
          ⟨ctx.nodeId, "udp".toList, host, env.parseIp host, port⟩) host port := by
  simp [connect, h]

end UdpSession

end Elise
