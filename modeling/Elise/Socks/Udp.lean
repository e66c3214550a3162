/-
Elise/Socks/Udp.lean

UDP associations of SOCKS5 (`handle_socks5_udp_associate` in
src/protocol/socks/udp.rs).

One task receives the datagrams of the client.  It takes those of one peer, drops
the ones that the audit blocks, and sends the others to the worker for their
destination, which it starts if there is none.  It waits while the channel of a
worker is full.  What the workers receive goes back over another task, which has
no part in this and is left out.
-/
import Elise.Lib.AssocMap
import Elise.Lib.HostText
import Elise.Lib.Run
import Elise.Router.UdpOutbound

namespace Elise

namespace Socks

open Net

/-- What a datagram of the client asks for. -/
structure UdpRequest where
  host : List Char
  ip : Option IpAddr
  port : UInt16
  payload : List UInt8
  deriving DecidableEq

/-- The destination of a datagram and the length of its header. -/
def readTarget (env : Matching) (buf : List UInt8) : Option (List Char × Option IpAddr × Nat) :=
  let atyp := byteAt buf 3
  if atyp = 0x01 then
    if buf.length < 10 then none
    else
      let ip := IpAddr.v4 (ipv4At buf 4)
      some (ip.chars, some ip, 10)
  else if atyp = 0x03 then
    let dlen := (byteAt buf 4).toNat
    if dlen = 0 ∨ buf.length < 5 + dlen + 2 then none
    else
      let domain := Text.fromUtf8Lossy ((buf.drop 5).take dlen)
      some (domain, env.parseIp domain, 5 + dlen + 2)
  else if atyp = 0x04 then
    if buf.length < 22 then none
    else
      let ip := IpAddr.v6 (ipv6At buf 4)
      some (ip.chars, some ip, 22)
  else none

/-- What a datagram asks for, if it is well formed. -/
def readRequest (env : Matching) (buf : List UInt8) : Option UdpRequest :=
  if buf.length < 7 ∨ byteAt buf 0 ≠ 0 ∨ byteAt buf 1 ≠ 0 ∨ byteAt buf 2 ≠ 0 then none
  else
    (readTarget env buf).map fun (host, ip, headerLen) =>
      ⟨host, ip, u16At buf (headerLen - 2), buf.drop headerLen⟩

/-- A worker: what waits in `rx`, whether it is over, and whether the task has
joined it. -/
structure Worker where
  key : List Char × UInt16
  rx : List (List UInt8)
  ended : Bool
  joined : Bool

structure Association where
  clientIp : IpAddr
  clientUdpPeer : Option SocketAddr
  sessions : AssocMap (List Char × UInt16) Nat
  workers : List Worker
  /-- The request that waits for the channel of a worker. -/
  sending : Option (Nat × UdpRequest)
  cancelled : Bool
  /-- The requests that were passed to a worker. -/
  handed : List UdpRequest

inductive Event where
  /-- A datagram arrives.  It comes with what the router draws and what the DNS
  knows. -/
  | datagram (src : SocketAddr) (buf : List UInt8) (roll : Nat) (lookup : Resolver)
  /-- The send to a worker completes. -/
  | sent
  | relay (worker : Nat)
  | workerEnds (worker : Nat)
  /-- The task joins a worker that is over. -/
  | join (worker : Nat)
  | cancel

namespace Association

def new (clientIp : IpAddr) : Association := ⟨clientIp, none, ∅, [], none, false, []⟩

section

variable {env : Matching} (ctx : InboundContext env)

def outboundFor (r : UdpRequest) (roll : Nat) : OutboundConfig :=
  matchOutbound ctx.geo ctx.routes roll ⟨ctx.nodeId, "udp".toList, r.host, r.ip, r.port⟩

/-- `dial_udp_outbound` for a request. -/
def dial (r : UdpRequest) (roll : Nat) (lookup : Resolver) : Except UdpDialError UdpOutbound :=
  OutboundDialer.dialUdpOutbound ctx.geo ctx.audit (dnsResolve env lookup) (outboundFor ctx r roll)
    r.host r.port

/-- A worker is started for a request. -/
def startWorker (a : Association) (r : UdpRequest) : Association :=
  let key := (r.host, r.port)
  { a with workers := a.workers ++ [⟨key, [], false, false⟩]
           sessions := a.sessions.insert key a.workers.length
           sending := some (a.workers.length, r) }

/-- A request of the peer. -/
def receive (a : Association) (r : UdpRequest) (roll : Nat) (lookup : Resolver) : Association :=
  if ctx.audit.shouldBlock ctx.geo r.host r.ip r.port then a
  else
    match a.sessions.get (r.host, r.port) with
    | some g => { a with sending := some (g, r) }
    | none =>
        match dial ctx r roll lookup with
        | .error _ => a
        | .ok _ => a.startWorker r

end

/-- `tx.send` to a worker: it fails if the worker is over, and waits if its channel
is full. -/
def send (a : Association) (g : Nat) (r : UdpRequest) : Option Association :=
  match a.workers[g]? with
  | none => some { a with sending := none }
  | some w =>
      if w.ended then some { a with sending := none }
      else if 128 ≤ w.rx.length then none
      else
        some { a with workers := a.workers.set g { w with rx := w.rx ++ [r.payload] }
                      sending := none
                      handed := a.handed ++ [r] }

/-- A worker is joined: its session is forgotten, unless it is another worker's. -/
def joinWorker (a : Association) (g : Nat) (w : Worker) : Association :=
  { a with workers := a.workers.set g { w with joined := true }
           sessions := if a.sessions.get w.key = some g then a.sessions.erase w.key
                       else a.sessions }

/-- **One step of an association.** -/
def step {env : Matching} (ctx : InboundContext env) (a : Association) : Event → Option Association
  | .datagram src buf roll lookup =>
      if a.cancelled ∨ a.sending.isSome then none
      else if src.ip ≠ a.clientIp ∨ a.clientUdpPeer.any (· ≠ src) then some a
      else
        match readRequest env buf with
        | none => some a
        | some r => some ({ a with clientUdpPeer := some src }.receive ctx r roll lookup)
  | .sent =>
      match a.sending with
      | none => none
      | some (g, r) => a.send g r
  | .relay g =>
      match a.workers[g]? with
      | none => none
      | some w => some { a with workers := a.workers.set g { w with rx := w.rx.tail } }
  | .workerEnds g =>
      match a.workers[g]? with
      | none => none
      | some w => some { a with workers := a.workers.set g { w with ended := true } }
  | .join g =>
      match a.workers[g]? with
      | none => none
      | some w =>
          if w.ended ∧ ¬ w.joined ∧ a.sending = none then some (a.joinWorker g w) else none
  | .cancel => some { a with cancelled := true }

end Association

end Socks

end Elise
