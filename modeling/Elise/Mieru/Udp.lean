/-
Elise/Mieru/Udp.lean

The UDP inbound for one client session (src/protocol/mieru/udp.rs): the tasks
that `handle_udp_packet` runs as, one for each datagram, and the bridges that
`run_udp_session_bridge` runs as, one for each session that was opened.

A task looks for the session and sends its datagram into the session's channel,
or opens the session; it can be held up between any two of these.  A bridge
takes the datagrams from its channel one by one.  The datagrams of the client
have numbers: 0 is the open request, `i + 1` is the `i`-th segment.  The network
delivers any of them, any number of times, in any order.

The program does not get here: `MieruInbound::start` refuses the transport UDP, since it
requires reliable delivery, and nothing else calls `start_udp_server`.  What follows is
about the code as it stands.
-/
import Elise.Lib.Run
import Elise.Mieru.Frame

namespace Elise

namespace Mieru

open Net

/-! ### The client -/

structure Segment where
  packet : List UInt8
  payload : List UInt8

structure Client where
  sessionId : UInt32
  openSeq : UInt32
  openPacket : List UInt8
  segments : List Segment

namespace Client

def packets (client : Client) : List (List UInt8) :=
  client.openPacket :: client.segments.map (·.packet)

/-- What the datagrams carry for the bridge; the payload of the open request is
written before it starts. -/
def payloads (client : Client) : List (List UInt8) := [] :: client.segments.map (·.payload)

end Client

/-! ### What a datagram says -/

section Datagrams

variable (c : XChaCha) (key : List UInt8)

/-- The metadata of a datagram. -/
def openMeta (packet : List UInt8) : Option Metadata :=
  if packet.length < 72 then none
  else (c.decrypt key (packet.take nonceSize) ((packet.drop 24).take metadataLength)
    ((packet.drop 56).take overhead)).map (⟨·⟩)

def nextNonce (packet : List UInt8) : List UInt8 := incrementNonce (packet.take nonceSize)

/-- The payload of an open request. -/
def initialPayload (m : Metadata) (packet : List UInt8) : List UInt8 :=
  if 0 < m.sessionPayloadLen ∧ 72 + m.sessionPayloadLen + overhead ≤ packet.length then
    (c.decrypt key (nextNonce packet) ((packet.drop 72).take m.sessionPayloadLen)
      ((packet.drop (72 + m.sessionPayloadLen)).take overhead)).getD []
  else []

/-- The datagram belongs to the session. -/
def belongsTo (sessionId : UInt32) (packet : List UInt8) : Bool :=
  match openMeta c key packet with
  | none => false
  | some m => m.sessionId = sessionId

/-- The session that the datagram opens: its id, the number of the request and
the payload. -/
def opensSession (packet : List UInt8) : Option (UInt32 × UInt32 × List UInt8) :=
  match openMeta c key packet with
  | none => none
  | some m =>
      if m.protocol ≠ protocolOpenSessionReq then none
      else if m.sessionId = 0 then none
      else some (m.sessionId, m.seq, initialPayload c key m packet)

/-- A segment: plain data of the session, with its number. -/
structure IsSegment (sessionId seq : UInt32) (segment : Segment) (m : Metadata) : Prop where
  opens : openMeta c key segment.packet = some m
  protocol : m.protocol = protocolDataC2S
  sessionId : m.sessionId = sessionId
  seq : m.seq = seq
  payload : (udpOpen c key (nextNonce segment.packet) m segment.packet).getD [] = segment.payload

/-- The open request of a session. -/
structure IsOpenRequest (sessionId seq : UInt32) (packet : List UInt8) (m : Metadata) : Prop where
  opens : openMeta c key packet = some m
  protocol : m.protocol = protocolOpenSessionReq
  sessionId : m.sessionId = sessionId
  seq : m.seq = seq

/-- The client opens the session and numbers its segments one after the other. -/
structure Client.Sends (client : Client) : Prop where
  request : ∃ m, IsOpenRequest c key client.sessionId client.openSeq client.openPacket m
  segments : ∀ i segment, client.segments[i]? = some segment →
    ∃ m, IsSegment c key client.sessionId (client.openSeq + UInt32.ofNat (i + 1)) segment m

end Datagrams

/-! ### The server -/

/-- A task of `handle_udp_packet` with its datagram. -/
inductive Task where
  | received (datagram : Nat)
  /-- It has found the session and sends. -/
  | sending (datagram bridge : Nat)
  /-- It has found no session and opens one. -/
  | opening (datagram : Nat)
  | done
  deriving DecidableEq, Repr

/-- The down task of a bridge. -/
inductive Down where
  | reading
  | writing (payload : List UInt8)
  | ended
  deriving DecidableEq, Repr

structure Bridge where
  state : SessionState
  channel : List Nat
  down : Down
  /-- What has gone into the session's stream. -/
  written : List UInt8
  /-- The acknowledgements in the frames sent to the client. -/
  acks : List UInt32
  /-- The highest datagram that was taken. -/
  top : Nat
  deriving DecidableEq, Repr

structure Server where
  tasks : List Task
  bridges : List Bridge
  /-- The entry of the session in `active_sessions`. -/
  active : Option Nat
  /-- The datagrams that have arrived. -/
  arrived : List Nat
  deriving DecidableEq, Repr

def Server.new : Server := ⟨[], [], none, []⟩

inductive Event where
  | arrive (datagram : Nat)
  /-- A task looks for the session. -/
  | look (task : Nat)
  | enqueue (task : Nat)
  | register (task : Nat)
  /-- A ban, a limit or the socket ends the task. -/
  | giveUp (task : Nat)
  /-- The cleaner or the end of the session's own task. -/
  | remove
  | take (bridge : Nat)
  | write (bridge : Nat) (alive : Bool)
  /-- The up task sends a frame. -/
  | reply (bridge : Nat)
  /-- The up task or the last sender is gone. -/
  | cancel (bridge : Nat)
  deriving DecidableEq, Repr

def channelCapacity : Nat := 256

section Steps

variable (c : XChaCha) (key : List UInt8) (client : Client)

/-- What a datagram does to the bridge that takes it. -/
def Bridge.receive (b : Bridge) (datagram : Nat) (packet : List UInt8) : Bridge :=
  let b := { b with channel := b.channel.tail, top := max b.top datagram }
  match bridgePacket c key packet with
  | .skip => b
  | .frame seq payload =>
      { b with
        state := b.state.advanceRecvSeq seq
        down := if payload = [] then .reading else .writing payload }
  | .close seq => { b with state := b.state.advanceRecvSeq seq, down := .ended }

/-- Take the next datagram. -/
def Bridge.take (b : Bridge) : Option Bridge :=
  match b.down, b.channel with
  | .reading, datagram :: _ => (client.packets[datagram]?).map (b.receive c key datagram)
  | _, _ => none

/-- Write the payload, or end because the session is gone. -/
def Bridge.write (b : Bridge) (alive : Bool) : Option Bridge :=
  match b.down with
  | .writing payload =>
      if alive then some { b with written := b.written ++ payload, down := .reading }
      else some { b with down := .ended }
  | _ => none

def Bridge.reply (b : Bridge) : Bridge :=
  { b with state := b.state.allocSendSeq, acks := b.acks ++ [b.state.unackSeq] }

def Bridge.cancel (b : Bridge) : Option Bridge :=
  match b.down with
  | .reading => some { b with down := .ended }
  | _ => none

/-- A datagram in the channel; it is dropped if the bridge has ended, and waits
if the channel is full. -/
def Bridge.enqueue (b : Bridge) (datagram : Nat) : Option Bridge :=
  if b.down = .ended then some b
  else if b.channel.length < channelCapacity then
    some { b with channel := b.channel ++ [datagram] }
  else none

/-- The bridge of a session that was opened: the request is answered and its
payload written. -/
def Bridge.opened (sessionId seq : UInt32) (payload : List UInt8) : Bridge where
  state := ((SessionState.new sessionId).advanceRecvSeq seq).allocSendSeq
  channel := []
  down := .reading
  written := payload
  acks := []
  top := 0

/-- The search for the session, by the session's own key and id. -/
def Server.look (s : Server) (datagram : Nat) (packet : List UInt8) : Task :=
  match s.active with
  | some bridge =>
      if belongsTo c key client.sessionId packet then .sending datagram bridge
      else if (opensSession c key packet).isSome then .opening datagram else .done
  | none => if (opensSession c key packet).isSome then .opening datagram else .done

def Server.onBridge (s : Server) (bridge : Nat) (f : Bridge → Option Bridge) : Option Server :=
  match s.bridges[bridge]? with
  | none => none
  | some b => (f b).map fun b' => { s with bridges := s.bridges.set bridge b' }

def Server.setTask (s : Server) (task : Nat) (t : Task) : Server :=
  { s with tasks := s.tasks.set task t }

def Server.step (s : Server) : Event → Option Server
  | .arrive datagram =>
      if datagram < client.packets.length then
        some { s with
          tasks := s.tasks ++ [.received datagram]
          arrived := datagram :: s.arrived }
      else none
  | .look task =>
      match s.tasks[task]? with
      | some (.received datagram) =>
          (client.packets[datagram]?).map fun packet =>
            s.setTask task (s.look c key client datagram packet)
      | _ => none
  | .enqueue task =>
      match s.tasks[task]? with
      | some (.sending datagram bridge) =>
          (s.onBridge bridge (·.enqueue datagram)).map (·.setTask task .done)
      | _ => none
  | .register task =>
      match s.tasks[task]? with
      | some (.opening datagram) =>
          ((client.packets[datagram]?).bind (opensSession c key)).map fun (sessionId, seq, payload) =>
            { s.setTask task .done with
              bridges := s.bridges ++ [Bridge.opened sessionId seq payload]
              active := some s.bridges.length }
      | _ => none
  | .giveUp task => if task < s.tasks.length then some (s.setTask task .done) else none
  | .remove => some { s with active := none }
  | .take bridge => s.onBridge bridge (·.take c key client)
  | .write bridge alive => s.onBridge bridge (·.write alive)
  | .reply bridge => s.onBridge bridge fun b => some b.reply
  | .cancel bridge => s.onBridge bridge Bridge.cancel

end Steps

end Mieru

end Elise
