/-
Elise/Shadowsocks/Udp.lean

The UDP loop with a 2022 method (src/protocol/shadowsocks/udp.rs, and
`decrypt_udp_with_cache` of ss2022.rs).

One task handles datagrams and sweeps, one after the other; the sessions it
starts run beside it and end by themselves.  A replay window is shared with the
sessions that answer for it, and the sweep keeps a window that is held by a
session or was used within the last minute.

The two clocks advance together: an event carries the time in nanoseconds, and
the wall clock is that time from `epoch` on, in whole seconds.
-/
import Elise.Conn.ProxyProtocol
import Elise.Lib.BitPlaces
import Elise.Shadowsocks.Handshake

namespace Elise

namespace Shadowsocks

open Net

/-! ### Decrypting -/

structure Datagram where
  credential : Credential
  address : Address
  payload : List UInt8
  sessionId : UInt64
  packetId : UInt64

/-- A packet that has been opened: who sent it, and what it holds. -/
structure Opened where
  credential : Credential
  sessionId : UInt64
  packetId : UInt64
  body : List UInt8

variable (c : Crypto)

/-- The user last seen at the address if it is there, or the first one. -/
def selectCredential (index : UserIndex) (cachedUser : Option UInt32) : Option Credential :=
  (cachedUser.bind fun uid => index.credentials.find? fun cred => cred.user.id = uid).or
    index.credentials.head?

/-- A packet of the ChaCha20 method under the key of one user. -/
def openChacha (packet : List UInt8) (cred : Credential) : Option Opened :=
  if packet.length < 24 + 16 + 11 + 16 then none
  else
    (c.udpOpen .chacha20Poly1305 cred.key 0 (packet.take 24) (packet.drop 24)).map fun data =>
      ⟨cred, u64At data 0, u64At data 8, data.drop 16⟩

/-- The body of a packet of an AES method, whose header names the session. -/
def openBody (kind : Cipher2022) (header body : List UInt8) (cred : Credential) : Option Opened :=
  let sessionId := u64At header 0
  (c.udpOpen kind cred.key sessionId (bytesAt header 4 12) body).map fun data =>
    ⟨cred, sessionId, u64At header 8, data⟩

/-- Without a server key, the header is under the key of the user. -/
def openSingle (kind : Cipher2022) (packet : List UInt8) (cred : Credential) : Option Opened :=
  if packet.length < 16 + 11 + 16 then none
  else openBody c kind (c.aesDecrypt cred.key (packet.take 16)) (packet.drop 16) cred

/-- With a server key, the header is under it, and the identity of the user
comes next. -/
def openMulti (kind : Cipher2022) (headerKey : List UInt8) (index : UserIndex)
    (packet : List UInt8) : Option Opened :=
  if packet.length < 32 + 11 + 16 then none
  else
    let header := c.aesDecrypt headerKey (packet.take 16)
    let masked := c.aesDecrypt headerKey ((packet.drop 16).take 16)
    (index.identityMap.get (List.zipWith (· ^^^ ·) masked header)).bind
      (openBody c kind header (packet.drop 32))

/-- A packet under the key of a user that is chosen before. -/
def openFor (kind : Cipher2022) (packet : List UInt8) (cred : Credential) : Option Opened :=
  if kind = .chacha20Poly1305 then openChacha c packet cred else openSingle c kind packet cred

def openPacket (kind : Cipher2022) (serverKey : Option (List UInt8)) (index : UserIndex)
    (cachedUser : Option UInt32) (packet : List UInt8) : Option Opened :=
  match serverKey with
  | some headerKey =>
      if kind = .chacha20Poly1305 then
        (selectCredential index cachedUser).bind (openFor c kind packet)
      else openMulti c kind headerKey index packet
  | none => (selectCredential index cachedUser).bind (openFor c kind packet)

def maxTimestampSkewSecs : Nat := 30

/-- The time a packet says it was made at. -/
def Opened.timestamp (opened : Opened) : UInt64 := u64At opened.body 1

/-- The body: type, time, padding, address and payload. -/
def readBody (now : Nat) (opened : Opened) : Option Datagram :=
  let body := opened.body
  if byteAt body 0 ≠ 0 then none
  else if maxTimestampSkewSecs < absDiff now opened.timestamp.toNat then none
  else
    let start := 11 + (u16At body 9).toNat
    if body.length < start then none
    else
      (c.readAddress (body.drop start)).map fun (address, len) =>
        ⟨opened.credential, address, body.drop (start + len), opened.sessionId, opened.packetId⟩

def decryptUdp (kind : Cipher2022) (serverKey : Option (List UInt8)) (index : UserIndex)
    (packet : List UInt8) (cachedUser : Option UInt32) (now : Nat) : Option Datagram :=
  (openPacket c kind serverKey index cachedUser packet).bind (readBody c now)

/-! ### Replay windows -/

structure ReplayWindow where
  bitmap : Bitmap.Words
  highest : UInt64
  initialized : Bool
  seen : Nat
  /-- Which `ResponseSession` it shares with its sessions. -/
  response : Nat

namespace ReplayWindow

def new (response now : Nat) : ReplayWindow := ⟨List.replicate 16 0#64, 0, false, now, response⟩

def accept (window : ReplayWindow) (packet : UInt64) (now : Nat) : ReplayWindow × Bool :=
  let window := { window with seen := now }
  if !window.initialized then
    ({ window with
      initialized := true
      highest := packet
      bitmap := window.bitmap.set 0 1#64 }, true)
  else if window.highest < packet then
    let diff := (packet - window.highest).toNat
    let shifted :=
      if 1024 ≤ diff then List.replicate 16 0#64 else Bitmap.shiftUp window.bitmap diff
    ({ window with highest := packet, bitmap := Bitmap.insert shifted 0 }, true)
  else
    let diff := (window.highest - packet).toNat
    if 1024 ≤ diff then (window, false)
    else if Bitmap.test window.bitmap diff then (window, false)
    else ({ window with bitmap := Bitmap.insert window.bitmap diff }, true)

end ReplayWindow

/-! ### The loop -/

structure ReplayKey where
  user : UInt32
  key : List UInt8
  session : UInt64
  deriving DecidableEq

structure SessionKey where
  user : UInt32
  key : List UInt8
  session : UInt64
  address : Address
  deriving DecidableEq

/-- A session that was started: whether it still runs, and which
`ResponseSession` it holds. -/
structure SessionTask where
  running : Bool
  response : Nat

/-- What does not change while the loop runs. -/
structure UdpConfig where
  kind : Cipher2022
  serverKey : Option (List UInt8)
  index : UserIndex
  udpProxyProtocol : Bool
  /-- The wall clock at time zero, in nanoseconds. -/
  epoch : Nat

def UdpConfig.wallSecs (cfg : UdpConfig) (now : Nat) : Nat := (cfg.epoch + now) / 1000000000

structure UdpServer where
  clock : Nat
  replay : AssocMap ReplayKey ReplayWindow
  /-- By session, its task. -/
  sessions : AssocMap SessionKey Nat
  tasks : List SessionTask
  /-- The number of the next `ResponseSession`. -/
  nextResponse : Nat

/-- A datagram as it arrives, with what the rest of the program says about its
sender and its target. -/
structure Received where
  bytes : List UInt8
  banned : Bool
  cachedUser : Option UInt32
  blocked : Bool

inductive UdpEvent where
  | recv (now : Nat) (received : Received)
  | sweep (now : Nat)
  | sessionEnd (tid : Nat)

namespace UdpServer

def new : UdpServer := ⟨0, ∅, ∅, [], 0⟩

variable (cfg : UdpConfig)

/-- The datagram behind a PROXY header, if one may come and does. -/
def payloadOf (bytes : List UInt8) : List UInt8 :=
  if cfg.udpProxyProtocol then
    match parseProxyProtocolDatagram bytes .auto with
    | .ok (some _, rest) => rest
    | _ => bytes
  else bytes

def replayKey (cred : Credential) (sessionId : UInt64) : ReplayKey :=
  ⟨cred.user.id, c.blake3 cred.key, sessionId⟩

def sessionKey (d : Datagram) : SessionKey :=
  ⟨d.credential.user.id, c.blake3 d.credential.key, d.sessionId, d.address⟩

/-- The window of the datagram; a new one if there is none and room for it. -/
def window? (s : UdpServer) (d : Datagram) (now : Nat) : Option ReplayWindow :=
  match s.replay.get (replayKey c d.credential d.sessionId) with
  | some window => some window
  | none => if 4096 ≤ s.replay.len then none else some (.new s.nextResponse now)

/-- The datagram passes the window: the `ResponseSession` to answer with. -/
def check (s : UdpServer) (d : Datagram) (now : Nat) : UdpServer × Option Nat :=
  match s.window? c d now with
  | none => (s, none)
  | some window =>
      let (window, ok) := window.accept d.packetId now
      ({ s with
        replay := s.replay.insert (replayKey c d.credential d.sessionId) window
        nextResponse := s.nextResponse + 1 }, if ok then some window.response else none)

def closed (s : UdpServer) (tid : Nat) : Bool := !(s.tasks[tid]?.any (·.running))

/-- Forward an accepted datagram, in a new session if there is none yet. -/
def forward (s : UdpServer) (d : Datagram) (blocked : Bool) (response : Nat) : UdpServer :=
  if d.address.host.isEmpty || d.address.port = 0 || blocked then s
  else
    let key := sessionKey c d
    let sessions :=
      match s.sessions.get key with
      | some tid => if s.closed tid then s.sessions.erase key else s.sessions
      | none => s.sessions
    if sessions.contains key || 4096 ≤ sessions.len then { s with sessions := sessions }
    else
      { s with
        sessions := sessions.insert key s.tasks.length
        tasks := s.tasks ++ [⟨true, response⟩] }

/-- The datagram that is in what arrives, if its sender is not banned and it
can be decrypted. -/
def decrypted (received : Received) (now : Nat) : Option Datagram :=
  if received.banned then none
  else
    decryptUdp c cfg.kind cfg.serverKey cfg.index (payloadOf cfg received.bytes)
      received.cachedUser (cfg.wallSecs now)

def receive (s : UdpServer) (now : Nat) (received : Received) : UdpServer :=
  match decrypted c cfg received now with
  | none => s
  | some d =>
      match s.check c d now with
      | (s, some response) => s.forward c d received.blocked response
      | (s, none) => s

/-- Who shares the `ResponseSession`, the window included. -/
def strongCount (s : UdpServer) (response : Nat) : Nat :=
  1 + s.tasks.countP fun task => task.running && task.response = response

def sweepAt (s : UdpServer) (now : Nat) : UdpServer :=
  { s with
    sessions := s.sessions.retain fun key tid =>
      cfg.index.validKeys.contains (key.user, key.key) && !s.closed tid
    replay := s.replay.retain fun _ window =>
      1 < s.strongCount window.response || now - window.seen < 60 * 1000000000 }

/-- An event at a time that is not before the last one. -/
def step (s : UdpServer) : UdpEvent → Option UdpServer
  | .recv now received =>
      if s.clock ≤ now then some { s.receive c cfg now received with clock := now } else none
  | .sweep now => if s.clock ≤ now then some { s.sweepAt cfg now with clock := now } else none
  | .sessionEnd tid =>
      s.tasks[tid]?.map fun task =>
        { s with tasks := s.tasks.set tid { task with running := false } }

end UdpServer

end Shadowsocks

end Elise
