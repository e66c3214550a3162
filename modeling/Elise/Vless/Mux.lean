/-
Elise/Vless/Mux.lean

Multiplexed connections of VLESS (src/protocol/vless/mux.rs).

The reader handles the frames of the client one by one; each session is a task
of its own, in which an upload and a download are raced.  The tasks and the
reader share one queue of frames for the client, and know each other only by the
id of a session.  The environment chooses the order of all steps, what the
targets do and which calls fail.

Parameters: `shouldBlock` of the audit, and how an address is read from its text.
-/
import Elise.Lib.AssocMap
import Elise.Lib.HostText
import Elise.Lib.Run

namespace Elise

namespace Vless

open Net

namespace Mux

/-! ### Frames -/

/-- `encode_mux_meta`. -/
def encodeMuxMeta (sessionId : UInt16) (status option : UInt8) : List UInt8 :=
  [0x00, 0x04] ++ toBeBytes 2 sessionId.toNat ++ [status, option]

/-- A frame for the client. -/
inductive MuxFrame where
  | data (sessionId : UInt16) (bytes : List UInt8)
  | fin (sessionId : UInt16)
  | keepAlive (sessionId : UInt16)
  deriving DecidableEq, Repr

namespace MuxFrame

/-- `encode_mux_data`, `encode_mux_end` and the answer to a keep-alive. -/
def encode : MuxFrame → List UInt8
  | data sessionId bytes =>
      encodeMuxMeta sessionId 0x02 0x01 ++ toBeBytes 2 bytes.length ++ bytes
  | fin sessionId => encodeMuxMeta sessionId 3 0
  | keepAlive sessionId => encodeMuxMeta sessionId 4 0

def sessionId : MuxFrame → UInt16
  | data sessionId _ => sessionId
  | fin sessionId => sessionId
  | keepAlive sessionId => sessionId

end MuxFrame

/-! ### Addresses -/

inductive AddressError where
  | truncatedIpv4
  | missingDomainLength
  | truncatedDomain
  | truncatedIpv6
  | invalidType (atyp : UInt8)
  deriving DecidableEq, Repr

/-- What the handler asks others. -/
structure Env where
  shouldBlock : List Char → Option IpAddr → UInt16 → Bool
  /-- `str::parse::<IpAddr>`. -/
  parseIp : List Char → Option IpAddr

/-- `parse_mux_address`; the count of bytes is not used. -/
def parseMuxAddress (env : Env) (atyp : UInt8) (buf : List UInt8) :
    Except AddressError (List Char × Option IpAddr) :=
  if atyp = 0x01 then
    if buf.length < 4 then .error .truncatedIpv4
    else
      let ip := IpAddr.v4 (ipv4At buf 0)
      .ok (ip.chars, some ip)
  else if atyp = 0x02 then
    if buf.isEmpty then .error .missingDomainLength
    else
      let len := (byteAt buf 0).toNat
      if buf.length < 1 + len then .error .truncatedDomain
      else
        let domain := Text.fromUtf8Lossy (bytesAt buf 1 len)
        .ok (domain, env.parseIp domain)
  else if atyp = 0x03 then
    if buf.length < 16 then .error .truncatedIpv6
    else
      let ip := IpAddr.v6 (ipv6At buf 0)
      .ok (ip.chars, some ip)
  else .error (.invalidType atyp)

/-! ### Tasks -/

/-- How far a task is. -/
inductive Stage where
  | dialing
  /-- The target is reached, and the first payload is to be written. -/
  | writing
  | relaying
  /-- The race is over, and the END frame is to be queued. -/
  | ending
  | ended
  deriving DecidableEq, Repr

structure Task where
  sessionId : UInt16
  udp : Bool
  payload : List UInt8
  /-- What waits in `rx_sub`. -/
  rxSub : List (List UInt8)
  stage : Stage
  /-- The upload has left its loop. -/
  upStopped : Bool
  /-- What the download has read and not queued. -/
  pending : Option (List UInt8)
  /-- What has come from the target and was not read. -/
  unread : List (List UInt8)
  /-- The target was reached. -/
  reached : Bool
  /-- Nothing more comes from the target. -/
  closed : Bool
  /-- All that has come from the target. -/
  sent : List UInt8
  /-- The client has ended the session while the task was there. -/
  clientEnded : Bool
  deriving DecidableEq, Repr

/-- What can happen to a task. -/
inductive TaskEvent where
  | dialed (ok : Bool)
  | wrote (ok : Bool)
  /-- The upload takes the next data and writes it. -/
  | upload (ok : Bool)
  /-- The channel of the upload is closed. -/
  | upStop
  /-- The upload is complete. -/
  | upEnd
  /-- The download reads, from a stream up to `n` bytes. -/
  | download (n : Nat)
  | forward
  /-- The download is complete. -/
  | downEnd
  /-- The END frame is queued. -/
  | finish
  | targetSends (bytes : List UInt8)
  | targetCloses
  /-- What was not read is lost. -/
  | targetResets
  deriving DecidableEq, Repr

namespace Task

def new (sessionId : UInt16) (udp : Bool) (payload : List UInt8) : Task where
  sessionId := sessionId
  udp := udp
  payload := payload
  rxSub := []
  stage := .dialing
  upStopped := false
  pending := none
  unread := []
  reached := false
  closed := false
  sent := []
  clientEnded := false

/-- What is behind `n` bytes of a stream. -/
def behind (n : Nat) (unread : List (List UInt8)) : List (List UInt8) :=
  if (unread.flatten.drop n).isEmpty then [] else [unread.flatten.drop n]

/-- What the download reads: bytes of the stream, or a datagram. -/
def read (t : Task) (n : Nat) : Option (List UInt8 × List (List UInt8)) :=
  if t.udp then
    match t.unread with
    | [] => none
    | datagram :: rest => if datagram.isEmpty then none else some (datagram, rest)
  else
    let bytes := t.unread.flatten.take (min n 16384)
    if bytes.isEmpty then none else some (bytes, behind (min n 16384) t.unread)

/-- One step of a task, with the frame it queues; `none` where it is not enabled.
(`connected`: the queue takes frames; `registered`: the reader has the sender of
the channel.) -/
def act (connected registered : Bool) (t : Task) : TaskEvent → Option (Task × Option MuxFrame)
  | .dialed ok =>
      if t.stage = .dialing then
        if ok then
          some ({ t with stage := if t.payload.isEmpty then .relaying else .writing
                         reached := true }, none)
        else some ({ t with stage := .ending }, none)
      else none
  | .wrote ok =>
      -- a datagram that is not sent is no error
      if t.stage = .writing then
        some ({ t with stage := if ok || t.udp then .relaying else .ending }, none)
      else none
  | .upload ok =>
      match t.rxSub with
      | [] => none
      | _ :: rest =>
          if t.stage = .relaying ∧ t.upStopped = false then
            some ({ t with rxSub := rest, upStopped := !ok }, none)
          else none
  | .upStop =>
      if t.stage = .relaying ∧ t.upStopped = false ∧ t.rxSub = [] ∧ registered = false then
        some ({ t with upStopped := true }, none)
      else none
  | .upEnd =>
      if t.stage = .relaying ∧ t.upStopped = true then some ({ t with stage := .ending }, none)
      else none
  | .download n =>
      match t.read n with
      | none => none
      | some (bytes, rest) =>
          if t.stage = .relaying ∧ t.pending = none then
            some ({ t with pending := some bytes, unread := rest }, none)
          else none
  | .forward =>
      match t.pending with
      | none => none
      | some bytes =>
          if t.stage = .relaying then
            if connected then some ({ t with pending := none }, some (.data t.sessionId bytes))
            else some ({ t with stage := .ending }, none)
          else none
  | .downEnd =>
      -- a socket for datagrams may be idle for too long or fail at any time
      if t.stage = .relaying ∧ t.pending = none ∧ (t.udp = true ∨ t.closed = true ∧ t.unread = []) then
        some ({ t with stage := .ending }, none)
      else none
  | .finish =>
      if t.stage = .ending then
        some ({ t with stage := .ended }, if connected then some (.fin t.sessionId) else none)
      else none
  | .targetSends bytes =>
      if t.reached = true ∧ t.closed = false then
        some ({ t with unread := t.unread ++ [bytes], sent := t.sent ++ bytes }, none)
      else none
  | .targetCloses =>
      if t.reached = true then some ({ t with closed := true }, none) else none
  | .targetResets =>
      if t.reached = true then
        some ({ t with closed := true, unread := []
                       sent := t.sent.take (t.sent.length - t.unread.flatten.length) }, none)
      else none

end Task

/-! ### The connection -/

/-- A frame of the client: `meta_buf`, and the data behind it. -/
structure ClientFrame where
  metaBuf : List UInt8
  data : List UInt8
  deriving DecidableEq, Repr

namespace ClientFrame

def sessionId (f : ClientFrame) : UInt16 := u16At f.metaBuf 0

def status (f : ClientFrame) : UInt8 := byteAt f.metaBuf 2

def option (f : ClientFrame) : UInt8 := byteAt f.metaBuf 3

def payload (f : ClientFrame) : List UInt8 := if f.option &&& 0x01 ≠ 0 then f.data else []

end ClientFrame

/-- What has happened, in order: sessions that were opened, and frames that were
queued, with the task that has queued them. -/
inductive Entry where
  | opened (task : Nat) (sessionId : UInt16)
  | queued (task : Option Nat) (frame : MuxFrame)
  deriving DecidableEq, Repr

structure State where
  /-- The senders that the reader has, by the task they belong to. -/
  sessions : AssocMap UInt16 Nat
  tasks : List Task
  /-- What waits in `rx_out`. -/
  rxOut : List MuxFrame
  /-- What was written to the client. -/
  written : List UInt8
  connected : Bool
  log : List Entry

inductive Event where
  | client (f : ClientFrame)
  | task (g : Nat) (e : TaskEvent)
  /-- The writer writes the next frame. -/
  | write
  /-- The reader or the writer has ended, and the handler returns. -/
  | leave

namespace State

def new : State := ⟨∅, [], [], [], true, []⟩

/-- `tx_out.send`: it waits where the queue is full. -/
def send (s : State) (owner : Option Nat) (frame : MuxFrame) : Option State :=
  if s.rxOut.length < 128 then
    some { s with rxOut := s.rxOut ++ [frame], log := s.log ++ [.queued owner frame] }
  else none

/-- A session is opened. -/
def openSession (s : State) (sessionId : UInt16) (udp : Bool) (payload : List UInt8) : State :=
  { s with sessions := s.sessions.insert sessionId s.tasks.length
           tasks := s.tasks ++ [.new sessionId udp payload]
           log := s.log ++ [.opened s.tasks.length sessionId] }

/-- The target of a frame that opens a session, if it is let through. -/
def admitted (env : Env) (f : ClientFrame) : Bool :=
  match parseMuxAddress env (byteAt f.metaBuf 7) (f.metaBuf.drop 8) with
  | .error _ => false
  | .ok (host, ip) => !env.shouldBlock host ip (u16At f.metaBuf 5)

/-- The receiver of a session is dropped when its task is over. -/
def sendSub (s : State) (g : Nat) (payload : List UInt8) : Option State :=
  match s.tasks[g]? with
  | none => some s
  | some t =>
      if t.stage = .ended then some s
      else if t.rxSub.length < 64 then
        some { s with tasks := s.tasks.set g { t with rxSub := t.rxSub ++ [payload] } }
      else none

/-- The client has ended a session. -/
def markEnded (s : State) (g : Nat) : State :=
  match s.tasks[g]? with
  | none => s
  | some t =>
      if t.stage = .ended then s
      else { s with tasks := s.tasks.set g { t with clientEnded := true } }

/-- The reader handles a frame. -/
def receive (env : Env) (s : State) (f : ClientFrame) : Option State :=
  if f.metaBuf.length < 4 then some s
  else if f.status = 1 then
    if f.metaBuf.length < 8 then some s
    else if admitted env f then
      some (s.openSession f.sessionId (byteAt f.metaBuf 4 = 2) f.payload)
    else s.send none (.fin f.sessionId)
  else if f.status = 2 then
    match s.sessions.get f.sessionId with
    | none => s.send none (.fin f.sessionId)
    | some g => if f.payload.isEmpty then some s else s.sendSub g f.payload
  else if f.status = 3 then
    match s.sessions.get f.sessionId with
    | none => some s
    | some g => some { s.markEnded g with sessions := s.sessions.erase f.sessionId }
  else if f.status = 4 then s.send none (.keepAlive f.sessionId)
  else some s

/-- A task takes a step. -/
def runTask (s : State) (g : Nat) (e : TaskEvent) : Option State :=
  match s.tasks[g]? with
  | none => none
  | some t =>
      match t.act s.connected (s.sessions.get t.sessionId = some g) e with
      | none => none
      | some (t', none) => some { s with tasks := s.tasks.set g t' }
      | some (t', some frame) => { s with tasks := s.tasks.set g t' }.send (some g) frame

/-- **One step of the connection.** -/
def step (env : Env) (s : State) : Event → Option State
  | .client f => if s.connected then s.receive env f else none
  | .task g e => s.runTask g e
  | .write =>
      match s.rxOut with
      | [] => none
      | frame :: rest =>
          if s.connected then some { s with rxOut := rest, written := s.written ++ frame.encode }
          else none
  | .leave => some { s with connected := false, sessions := ∅ }

end State

end Mux

end Vless

end Elise
