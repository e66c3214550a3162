/-
Elise/Inbound/Sniffed.lean

From the target that a client asks for to the outbound that is dialed: the
second part of the TCP handlers of Shadowsocks, ShadowsocksR, Trojan and plain
VLESS (src/protocol/*/), and the CONNECT of HTTP for comparison.

A handler reads a name from the first bytes of the client and asks the audit
about that name in place of the host that was asked for; HTTP asks about both.
So a client lifts a block by sending a name that the audit lets pass
(`sniffed_block_exact`).  The dialer asks the audit again, about the host that
is dialed; that stops the connection unless the name is dialed in place of the
host or the outbound redirects.
-/
import Elise.Conn.Sniffer
import Elise.Router.Mapped
import Elise.Router.Outbound

namespace Elise

open Net

/-- What the handlers read of their context. -/
structure InboundContext (env : Matching) where
  nodeId : UInt32
  geo : GeoEngine env
  audit : AuditController env
  routes : RoutesConfig
  domainSniff : Bool
  sniffRedirect : Bool
  detectPacket : Bool

/-- The destination that a client asks for. -/
structure Target where
  host : List Char
  ip : Option IpAddr
  port : UInt16

/-- A call of `dial`. -/
structure DialCall where
  outbound : OutboundConfig
  host : List Char
  port : UInt16

section

variable {env : Matching} (ctx : InboundContext env) (target : Target)

/-- The end of a handler: the audit, the router, and the call of `dial`. -/
def callDial (roll : Nat) (sniffed : Option (List Char)) : Option DialCall :=
  let matchHost := sniffed.getD target.host
  let dialHost := if ctx.sniffRedirect then matchHost else target.host
  if ctx.audit.shouldBlock ctx.geo matchHost target.ip target.port then none
  else
    let outbound := matchOutbound ctx.geo ctx.routes roll
      ⟨ctx.nodeId, "tcp".toList, matchHost, target.ip, target.port⟩
    some ⟨outbound, dialHost, target.port⟩

variable (roll : Nat) (inTime : Bool) (s : ByteStream)

/-- Sniff the stream, then go on. -/
def sniffAndDial : Option DialCall :=
  callDial ctx target roll (sniffAsyncStream inTime s target.ip ctx.domainSniff).1

def Trojan.handleTrojanProtocol : Option DialCall := sniffAndDial ctx target roll inTime s

def ShadowsocksR.dialTarget : Option DialCall := sniffAndDial ctx target roll inTime s

def Vless.handleVlessStandardTcp : Option DialCall := sniffAndDial ctx target roll inTime s

/-- Shadowsocks puts the audit of the payload before the rest. -/
def Shadowsocks.handleStream : Option DialCall :=
  match sniffAndDetectStream ctx.audit inTime s target.ip ctx.domainSniff ctx.detectPacket with
  | none => none
  | some (sniffed, _) => callDial ctx target roll sniffed

/-- HTTP, with the bytes that came with the request. -/
def Http.relay (received : List UInt8) : Option DialCall :=
  let sniffed :=
    if ctx.domainSniff && target.ip.isSome then (sniffDomain received).map Prod.fst else none
  if ctx.audit.shouldBlock ctx.geo target.host target.ip target.port then none
  else callDial ctx target roll sniffed

/-- The handlers that ask about one name only. -/
inductive TcpHandler where
  | shadowsocks
  | shadowsocksR
  | trojan
  | vless
  deriving DecidableEq

def TcpHandler.handle : TcpHandler → Option DialCall
  | .shadowsocks => Shadowsocks.handleStream ctx target roll inTime s
  | .shadowsocksR => ShadowsocksR.dialTarget ctx target roll inTime s
  | .trojan => Trojan.handleTrojanProtocol ctx target roll inTime s
  | .vless => Vless.handleVlessStandardTcp ctx target roll inTime s

end

/-! ### The name that counts -/

section

variable {env : Matching} {ctx : InboundContext env} {target : Target}
variable {roll : Nat} {inTime : Bool} {s : ByteStream}

/-- The name in the first bytes of the client, where names are looked for. -/
def sniffedName (ctx : InboundContext env) (target : Target) (inTime : Bool) (s : ByteStream) :
    Option (List Char) :=
  if ctx.domainSniff && target.ip.isSome && inTime then
    (sniffDomain (s.read 1024).1).map Prod.fst
  else none

/-- The payload is stopped before a name is looked for. -/
def payloadStopped (ctx : InboundContext env) (inTime : Bool) (s : ByteStream)
    (handler : TcpHandler) : Bool :=
  handler == .shadowsocks && ctx.detectPacket && inTime &&
    ctx.audit.shouldBlockPayload (s.read 1024).1

theorem sniffAsyncStream_fst :
    (sniffAsyncStream inTime s target.ip ctx.domainSniff).1 = sniffedName ctx target inTime s := by
  rw [sniffAsyncStream, sniffedName]
  cases ctx.domainSniff with
  | false => rfl
  | true =>
      cases target.ip with
      | none => rfl
      | some ip =>
          cases inTime with
          | false => rfl
          | true =>
              cases hread : (s.read 1024).1 with
              | nil => simp [hread, sniffDomain]
              | cons b bs => simp [hread]

theorem handleStream_eq :
    Shadowsocks.handleStream ctx target roll inTime s =
      if payloadStopped ctx inTime s .shadowsocks then none
      else callDial ctx target roll (sniffedName ctx target inTime s) := by
  rw [Shadowsocks.handleStream, sniffAndDetectStream, payloadStopped, sniffedName]
  cases inTime with
  | false => simp
  | true =>
      cases hread : (s.read 1024).1 with
      | nil =>
          cases ctx.domainSniff <;> cases ctx.detectPacket <;>
            simp [hread, sniffDomain, AuditController.shouldBlockPayload]
      | cons b bs =>
          cases ctx.domainSniff <;> cases ctx.detectPacket <;>
            cases hpayload : ctx.audit.shouldBlockPayload (b :: bs) <;> simp [hread, hpayload]

/-- **Every handler asks about one name.** -/
theorem handle_eq (handler : TcpHandler) :
    handler.handle ctx target roll inTime s =
      if payloadStopped ctx inTime s handler then none
      else callDial ctx target roll (sniffedName ctx target inTime s) := by
  cases handler with
  | shadowsocks => exact handleStream_eq
  | shadowsocksR =>
      show callDial ctx target roll _ = _
      rw [sniffAsyncStream_fst]
      rfl
  | trojan =>
      show callDial ctx target roll _ = _
      rw [sniffAsyncStream_fst]
      rfl
  | vless =>
      show callDial ctx target roll _ = _
      rw [sniffAsyncStream_fst]
      rfl

/-- HTTP asks about the host too, and no payload lifts its block. -/
theorem httpRelay_eq_none (received : List UInt8)
    (hblocked : ctx.audit.shouldBlock ctx.geo target.host target.ip target.port = true) :
    Http.relay ctx target roll received = none := by
  rw [Http.relay]
  rw [if_pos hblocked]

/-! ### Lifting a block -/

/-- The first bytes of the client hold a name that the audit lets pass, and
are not stopped themselves. -/
def Lifts (ctx : InboundContext env) (target : Target) (inTime : Bool) (s : ByteStream)
    (handler : TcpHandler) (name : List Char) : Prop :=
  payloadStopped ctx inTime s handler = false ∧ sniffedName ctx target inTime s = some name ∧
    ctx.audit.shouldBlock ctx.geo name target.ip target.port = false

/-- The call of `dial` under a name. -/
def callUnder (ctx : InboundContext env) (target : Target) (roll : Nat) (name : List Char) :
    DialCall where
  outbound := matchOutbound ctx.geo ctx.routes roll
    ⟨ctx.nodeId, "tcp".toList, name, target.ip, target.port⟩
  host := if ctx.sniffRedirect then name else target.host
  port := target.port

/-- Without a name the audit is asked about the host, which is blocked. -/
theorem callDial_eq_some_iff {sniffed : Option (List Char)} {call : DialCall}
    (hblocked : ctx.audit.shouldBlock ctx.geo target.host target.ip target.port = true) :
    callDial ctx target roll sniffed = some call ↔
      ∃ name, sniffed = some name ∧
        ctx.audit.shouldBlock ctx.geo name target.ip target.port = false ∧
        call = callUnder ctx target roll name := by
  rw [callDial]
  cases sniffed with
  | none => simp [hblocked]
  | some name =>
      simp only [Option.getD_some, Option.some.injEq, exists_eq_left']
      cases haudit : ctx.audit.shouldBlock ctx.geo name target.ip target.port with
      | true => simp
      | false =>
          simp only [Bool.false_eq_true, if_false, true_and, Option.some.injEq]
          exact eq_comm

/-- **For a blocked target, `dial` is called exactly under a name that lifts
the block.** -/
theorem handle_eq_some_iff {handler : TcpHandler} {call : DialCall}
    (hblocked : ctx.audit.shouldBlock ctx.geo target.host target.ip target.port = true) :
    handler.handle ctx target roll inTime s = some call ↔
      ∃ name, Lifts ctx target inTime s handler name ∧ call = callUnder ctx target roll name := by
  rw [handle_eq]
  simp only [Lifts]
  cases payloadStopped ctx inTime s handler with
  | true => simp
  | false =>
      rw [if_neg Bool.false_ne_true, callDial_eq_some_iff hblocked]
      simp only [true_and, and_assoc]

end

/-- The dialer opens a connection for a call. -/
def Connects {env : Matching} (ctx : InboundContext env) (resolve : Resolver) (call : DialCall) :
    Prop :=
  ∃ c, OutboundDialer.dial ctx.geo ctx.audit resolve call.outbound call.host call.port = .ok c

/-- **Payload and block.**  For a target that the audit blocks, a handler calls
`dial` for no payload but one with a name that lifts the block, and a
connection is opened for no payload but one whose name, besides, leads to an
outbound that can be dialed: to the redirection's host, or to the name itself
where names are dialed, or to the host that was asked for. -/
theorem sniffed_block_exact {env : Matching} (ctx : InboundContext env) (target : Target)
    (resolve : Resolver) (roll : Nat) (inTime : Bool) (s : ByteStream) (handler : TcpHandler)
    (hblocked : ctx.audit.shouldBlock ctx.geo target.host target.ip target.port = true) :
    (handler.handle ctx target roll inTime s = none ↔
      ∀ name, ¬ Lifts ctx target inTime s handler name) ∧
    ((∀ call, handler.handle ctx target roll inTime s = some call → ¬ Connects ctx resolve call) ↔
      ∀ name, Lifts ctx target inTime s handler name →
        ¬ OutboundDialer.Dialable ctx.geo ctx.audit resolve
          (matchOutbound ctx.geo ctx.routes roll
            ⟨ctx.nodeId, "tcp".toList, name, target.ip, target.port⟩)
          (if ctx.sniffRedirect then name else target.host) target.port) := by
  have hsome := fun call => @handle_eq_some_iff env ctx target roll inTime s handler call hblocked
  constructor
  · rw [Option.eq_none_iff_forall_ne_some]
    constructor
    · intro hnone name hlifts
      exact hnone _ ((hsome _).mpr ⟨name, hlifts, rfl⟩)
    · intro hlifts call hcall
      obtain ⟨name, hname, -⟩ := (hsome call).mp hcall
      exact hlifts name hname
  · constructor
    · intro hnever name hlifts hdial
      exact hnever _ ((hsome _).mpr ⟨name, hlifts, rfl⟩)
        ((OutboundDialer.dial_isOk_iff ..).mpr hdial)
    · intro hnever call hcall hconnects
      obtain ⟨name, hlifts, rfl⟩ := (hsome call).mp hcall
      exact hnever name hlifts ((OutboundDialer.dial_isOk_iff ..).mp hconnects)

/-- 1.2.3.4 is blocked, the names under good.example are not, and everything
is sent to a relay. -/
def relayContext : InboundContext sampleMatching where
  nodeId := 1
  geo := sampleGeo
  audit := { blockingAudit with whiteList := RuleItem.reload "domain:good.example\n".toList }
  routes :=
    { RoutesConfig.default with
      tomlRoutes := [⟨["*".toList],
        [{ OutboundConfig.plain "relay".toList "redirect".toList with
            server := some "relay.example".toList }]⟩] }
  domainSniff := true
  sniffRedirect := false
  detectPacket := false

def blockedTarget : Target := ⟨"1.2.3.4".toList, some (.v4 (.new 1 2 3 4)), 80⟩

/-- The relay has an address. -/
def relayResolver : Resolver := fun _ port => .ok [.v4 (.new 9 9 9 9) port]

/-- A request with a host. -/
def requestFor (host : String) : List UInt8 :=
  Text.toUtf8 ("GET / HTTP/1.1\r\nHost: " ++ host ++ "\r\n\r\n").toList

/-- A request for another name does not lift the block. -/
theorem sniffed_block_exact_unlifted :
    relayContext.audit.shouldBlock relayContext.geo blockedTarget.host blockedTarget.ip
        blockedTarget.port = true ∧
      TcpHandler.trojan.handle relayContext blockedTarget 0 true
        (.single (requestFor "other.example") (by decide)) = none := by
  have hblocked : relayContext.audit.shouldBlock relayContext.geo blockedTarget.host
      blockedTarget.ip blockedTarget.port = true := by decide
  refine ⟨hblocked, ?_⟩
  apply (sniffed_block_exact relayContext blockedTarget relayResolver 0 true
    (.single (requestFor "other.example") (by decide)) .trojan hblocked).1.mpr
  have hother : sniffedName relayContext blockedTarget true
      (.single (requestFor "other.example") (by decide)) = some "other.example".toList := by decide +kernel
  have hstill : relayContext.audit.shouldBlock relayContext.geo "other.example".toList
      blockedTarget.ip blockedTarget.port = true := by decide
  rintro name ⟨-, hname, hlifted⟩
  obtain rfl := Option.some.inj (hother.symm.trans hname)
  rw [hstill] at hlifted
  cases hlifted

/-- With a request for good.example, a connection for the blocked 1.2.3.4 is
dialed by every one of the handlers. -/
theorem block_lifted_by_payload :
    relayContext.audit.shouldBlock relayContext.geo blockedTarget.host blockedTarget.ip
        blockedTarget.port = true ∧
      ∀ handler : TcpHandler, ∃ call,
        handler.handle relayContext blockedTarget 0 true
          (.single (requestFor "good.example") (by decide)) = some call ∧
        Connects relayContext relayResolver call := by
  have hblocked : relayContext.audit.shouldBlock relayContext.geo blockedTarget.host
      blockedTarget.ip blockedTarget.port = true := by decide
  refine ⟨hblocked, ?_⟩
  intro handler
  have hlifts : Lifts relayContext blockedTarget true
      (.single (requestFor "good.example") (by decide)) handler "good.example".toList := by
    refine ⟨?_, by decide +kernel, by decide⟩
    rw [payloadStopped, show relayContext.detectPacket = false from rfl, Bool.and_false]
    rfl
  refine ⟨_, (handle_eq_some_iff hblocked).mpr ⟨_, hlifts, rfl⟩, ?_⟩
  apply (OutboundDialer.dial_isOk_iff ..).mpr
  refine .inl ⟨by decide, by decide, [.v4 (.new 9 9 9 9) 80], rfl, _, List.mem_singleton_self _, ?_⟩
  decide

end Elise
