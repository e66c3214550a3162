/-
Elise/Anytls/Session.lean

A session of AnyTLS (`handle_anytls_session` of src/protocol/anytls/session.rs):
the loop that reads frames, and what each command does.

The loop waits for a header in a `select!` with the cancellation of the session
and a tick of five seconds.  A tick that does not close the session goes round
the loop again, and the read that was waiting is dropped with the bytes it has
taken (`Session.tick`).  The payload is read under a timeout of fifteen seconds.
Sending to the client and to the streams may take time, so a command is followed
by a phase in which nothing is read (`handling`).

The times that the session remembers are those of an instant that has just been
made (`Instant::now().elapsed()`).  They come with the events, and so does the
padding scheme, which may be replaced at any time.

A frame is a header of seven bytes, with the command, the id of the stream and the
length of the payload, and then the payload.  `parseFrames` reads a whole text as
consecutive frames; it is what a reader of the frames is measured by.  Bytes that
hold complete frames and nothing else (`Complete`) can be taken off in front.
-/
import Elise.Lib.AssocMap
import Elise.Lib.Text
import Elise.Lib.Wire

namespace Elise

namespace Anytls

open Net

def cmdSyn : UInt8 := 1
def cmdPsh : UInt8 := 2
def cmdFin : UInt8 := 3
def cmdSettings : UInt8 := 4
def cmdAlert : UInt8 := 5
def cmdUpdatePaddingScheme : UInt8 := 6
def cmdSynack : UInt8 := 7
def cmdHeartRequest : UInt8 := 8
def cmdHeartResponse : UInt8 := 9
def cmdServerSettings : UInt8 := 10

def frameOverhead : Nat := 7
def maxFrameSize : Nat := 0xffff

structure Frame where
  command : UInt8
  streamId : UInt32
  payload : List UInt8
  deriving DecidableEq, Repr

/-- The length is cut off to 16 bits. -/
def makeFrame (command : UInt8) (streamId : UInt32) (payload : List UInt8) : List UInt8 :=
  command :: (toBeBytes 4 streamId.toNat ++ (toBeBytes 2 (UInt16.ofNat payload.length).toNat ++ payload))

/-! ### Parsing -/

/-- The length in a header. -/
def payloadLength (header : List UInt8) : Nat := (u16At header 5).toNat

/-- The frame of a header and a payload. -/
def frameOf (header payload : List UInt8) : Frame := ⟨byteAt header 0, u32At header 1, payload⟩

/-- The frames that are complete, one after the other. -/
def parseFrames (bytes : List UInt8) : List Frame :=
  if bytes.length < frameOverhead then []
  else
    let header := bytes.take frameOverhead
    let rest := bytes.drop frameOverhead
    if rest.length < payloadLength header then []
    else frameOf header (rest.take (payloadLength header)) :: parseFrames (rest.drop (payloadLength header))
  termination_by bytes.length
  decreasing_by
    simp only [List.length_drop, frameOverhead] at *
    omega

theorem parseFrames_of_short {bytes : List UInt8} (h : bytes.length < frameOverhead) :
    parseFrames bytes = [] := by
  rw [parseFrames, if_pos h]

section Header

variable {header : List UInt8} (hheader : header.length = frameOverhead)

include hheader

theorem parseFrames_of_cut {payload : List UInt8} (h : payload.length < payloadLength header) :
    parseFrames (header ++ payload) = [] := by
  rw [parseFrames, if_neg (by rw [List.length_append]; omega), ← hheader]
  simp only [List.take_left, List.drop_left]
  rw [if_pos h]

theorem parseFrames_cons {payload : List UInt8} (h : payload.length = payloadLength header)
    (rest : List UInt8) :
    parseFrames (header ++ (payload ++ rest)) = frameOf header payload :: parseFrames rest := by
  rw [parseFrames, if_neg (by rw [List.length_append]; omega), ← hheader]
  simp only [List.take_left, List.drop_left, ← h]
  rw [if_neg (by rw [List.length_append]; omega)]

end Header

/-! ### Complete frames -/

/-- The bytes are these frames, whatever follows. -/
def Complete (bytes : List UInt8) (frames : List Frame) : Prop :=
  ∀ rest, parseFrames (bytes ++ rest) = frames ++ parseFrames rest

namespace Complete

variable {bytes : List UInt8} {frames : List Frame}

theorem nil : Complete [] [] := fun _ => rfl

/-- One more frame. -/
theorem snoc (h : Complete bytes frames) {header payload : List UInt8}
    (hheader : header.length = frameOverhead) (hpayload : payload.length = payloadLength header) :
    Complete (bytes ++ (header ++ payload)) (frames ++ [frameOf header payload]) := by
  intro rest
  rw [List.append_assoc, List.append_assoc, h, parseFrames_cons hheader hpayload, List.append_assoc]
  rfl

end Complete

/-- **What is made as a frame is parsed as this frame**, for a payload whose
length fits. -/
theorem complete_makeFrame (command : UInt8) (streamId : UInt32) {payload : List UInt8}
    (h : payload.length ≤ maxFrameSize) :
    Complete (makeFrame command streamId payload) [⟨command, streamId, payload⟩] := by
  let length := UInt16.ofNat payload.length
  let header := [command] ++ (toBeBytes 4 streamId.toNat ++ toBeBytes 2 length.toNat)
  have hmake : makeFrame command streamId payload = [] ++ (header ++ payload) := by
    simp [makeFrame, header, length]
  have hheader : header.length = frameOverhead := by
    simp only [header, List.length_append, length_toBeBytes]
    rfl
  have hlength : payload.length = payloadLength header := by
    have hread : u16At (([command] ++ toBeBytes 4 streamId.toNat) ++ (toBeBytes 2 length.toNat ++ [])) 5 =
        length := u16At_append length (by rw [List.length_append, length_toBeBytes]; rfl)
    rw [List.append_nil, List.append_assoc] at hread
    rw [payloadLength, hread, UInt16.toNat_ofNat_of_lt' (Nat.lt_succ_of_le h)]
  have hframe : frameOf header payload = ⟨command, streamId, payload⟩ := by
    have hid : bytesAt header 1 4 = toBeBytes 4 streamId.toNat := bytesAt_append rfl (length_toBeBytes 4 _)
    rw [frameOf, u32At, hid, ofBeBytes_toBeBytes streamId.toNat_lt, UInt32.ofNat_toNat]
    rfl
  rw [hmake, ← hframe]
  exact Complete.nil.snoc hheader hlength

/-! ### Targets -/

/-- An address, or a domain in the bytes it has on the wire.  The text that
`from_utf8_lossy` makes of them is that of a name in ASCII only if they are the
bytes of this name. -/
inductive Host where
  | ip (addr : IpAddr)
  | domain (bytes : List UInt8)
  deriving DecidableEq

structure Target where
  host : Host
  port : UInt16
  deriving DecidableEq

/-- The target, and what follows it. -/
def parseSocks5Addr (data : List UInt8) : Option (Target × List UInt8) :=
  match data with
  | [] => none
  | kind :: _ =>
      if kind = 0x01 then
        if data.length < 7 then none
        else some (⟨.ip (.v4 (ipv4At data 1)), u16At data 5⟩, data.drop 7)
      else if kind = 0x03 then
        if data.length < 2 then none
        else
          let len := (byteAt data 1).toNat
          if data.length < 2 + len + 2 then none
          else some (⟨.domain (bytesAt data 2 len), u16At data (2 + len)⟩, data.drop (4 + len))
      else if kind = 0x04 then
        if data.length < 19 then none
        else some (⟨.ip (.v6 (ipv6At data 1)), u16At data 17⟩, data.drop 19)
      else none

/-- `sp.v2.udp-over-tcp.arpa` -/
def uotV2MagicAddress : List UInt8 :=
  [115, 112, 46, 118, 50, 46, 117, 100, 112, 45, 111, 118, 101, 114, 45, 116, 99, 112, 46, 97, 114, 112, 97]

/-- `sp.udp-over-tcp.arpa` -/
def uotV1MagicAddress : List UInt8 :=
  [115, 112, 46, 117, 100, 112, 45, 111, 118, 101, 114, 45, 116, 99, 112, 46, 97, 114, 112, 97]

def Target.isUot (target : Target) : Bool :=
  target.host = .domain uotV2MagicAddress ∨ target.host = .domain uotV1MagicAddress

/-! ### Settings -/

structure PaddingScheme where
  md5Hex : List Char
  raw : List UInt8
  deriving DecidableEq, Repr

structure Settings where
  peerVersion : UInt32
  peerPaddingMd5 : List Char
  deriving DecidableEq, Repr

/-- One line of the settings. -/
def Settings.readLine (settings : Settings) (line : List Char) : Settings :=
  match Text.splitOnce '=' line with
  | none => settings
  | some (k, v) =>
      if Text.trim k = "v".toList then
        match Text.parseUnsigned (2 ^ 32 - 1) (Text.trim v) with
        | some n => { settings with peerVersion := UInt32.ofNat n }
        | none => settings
      else if Text.trim k = "padding-md5".toList then { settings with peerPaddingMd5 := Text.trim v }
      else settings

def Settings.read (payload : List UInt8) : Settings :=
  match Text.fromUtf8 payload with
  | none => ⟨1, []⟩
  | some text => (Text.lines text).foldl Settings.readLine ⟨1, []⟩

/-! ### The session -/

inductive StreamState where
  | waitingForDestination
  | active
  deriving DecidableEq, Repr

/-- Where the loop is. -/
inductive Reading where
  /-- In the `select!`, with the bytes of the header that were taken. -/
  | header (got : List UInt8)
  | payload (header got : List UInt8)
  /-- In the handling of a command. -/
  | handling
  deriving DecidableEq, Repr

inductive SessionEnd where
  | cancelled
  | idle
  /-- The stream of the client has ended. -/
  | disconnected
  | readError
  | payloadTimeout
  | invalidData (message : String)
  deriving DecidableEq, Repr

structure Session where
  reading : Reading
  /-- What the client has sent and the session has not taken. -/
  inbox : List UInt8
  /-- The client sends no more. -/
  closed : Bool
  /-- Milliseconds. -/
  now : Nat
  /-- Of the tick, or of the read of the payload. -/
  deadline : Nat
  lastActivity : UInt64
  settingsReceived : Bool
  clientVersion : UInt32
  lastStreamId : UInt32
  streams : AssocMap UInt32 StreamState
  ended : Option SessionEnd
  /-- All that the client has sent. -/
  arrived : List UInt8
  /-- The frames whose commands were carried out. -/
  processed : List Frame

/-- What a command causes outside the session. -/
inductive Effect where
  /-- `session_tx.send`. -/
  | reply (frame : List UInt8)
  | spawn (streamId : UInt32) (target : Target) (initialPayload : List UInt8)
  /-- To the worker of a stream. -/
  | deliver (streamId : UInt32) (payload : List UInt8)
  deriving DecidableEq

def tickMillis : Nat := 5000
def frameReadTimeout : Nat := 15000
def sessionIdleTimeout : UInt64 := 30000
def maxConcurrentStreams : Nat := 1024

/-- `anytls: client did not send its settings` -/
def alertNoSettings : List UInt8 :=
  [97, 110, 121, 116, 108, 115, 58, 32, 99, 108, 105, 101, 110, 116, 32, 100, 105, 100, 32, 110, 111, 116,
    32, 115, 101, 110, 100, 32, 105, 116, 115, 32, 115, 101, 116, 116, 105, 110, 103, 115]

/-- `anytls: non-monotonic stream id` -/
def alertNonMonotonic : List UInt8 :=
  [97, 110, 121, 116, 108, 115, 58, 32, 110, 111, 110, 45, 109, 111, 110, 111, 116, 111, 110, 105, 99, 32,
    115, 116, 114, 101, 97, 109, 32, 105, 100]

/-- `invalid target address` -/
def invalidTargetAddress : List UInt8 :=
  [105, 110, 118, 97, 108, 105, 100, 32, 116, 97, 114, 103, 101, 116, 32, 97, 100, 100, 114, 101, 115, 115]

/-- `v=2` and a line feed -/
def serverSettings : List UInt8 := [118, 61, 50, 10]

namespace Session

def new (age : UInt64) : Session where
  reading := .header []
  inbox := []
  closed := false
  now := 0
  deadline := tickMillis
  lastActivity := age
  settingsReceived := false
  clientVersion := 1
  lastStreamId := 0
  streams := ∅
  ended := none
  arrived := []
  processed := []

/-! ### Commands -/

def settings (s : Session) (scheme : PaddingScheme) (payload : List UInt8) : Session × List Effect :=
  let read := Settings.read payload
  let update :=
    if read.peerPaddingMd5 ≠ scheme.md5Hex ∧ scheme.raw.length ≤ maxFrameSize then
      [.reply (makeFrame cmdUpdatePaddingScheme 0 scheme.raw)]
    else []
  let version :=
    if 2 ≤ read.peerVersion then [.reply (makeFrame cmdServerSettings 0 serverSettings)] else []
  ({ s with settingsReceived := true, clientVersion := read.peerVersion }, update ++ version)

def syn (s : Session) (streamId : UInt32) : Session × List Effect :=
  if s.settingsReceived = false then
    ({ s with ended := some (.invalidData "anytls: client sent SYN before settings") },
      [.reply (makeFrame cmdAlert 0 alertNoSettings)])
  else if streamId ≤ s.lastStreamId then
    ({ s with ended := some (.invalidData ("anytls: non-monotonic stream id: got " ++
        streamId.toNat.repr ++ " <= " ++ s.lastStreamId.toNat.repr)) },
      [.reply (makeFrame cmdAlert 0 alertNonMonotonic)])
  else
    let s := { s with lastStreamId := streamId }
    if s.streams.len < maxConcurrentStreams then
      ({ s with streams := s.streams.insert streamId .waitingForDestination }, [])
    else (s, [.reply (makeFrame cmdFin streamId [])])

def psh (s : Session) (streamId : UInt32) (payload : List UInt8) : Session × List Effect :=
  match s.streams.get streamId with
  | some .waitingForDestination =>
      match parseSocks5Addr payload with
      | some (target, leftover) =>
          ({ s with streams := s.streams.insert streamId .active }, [.spawn streamId target leftover])
      | none =>
          let synack :=
            if 2 ≤ s.clientVersion then [.reply (makeFrame cmdSynack streamId invalidTargetAddress)] else []
          ({ s with streams := s.streams.erase streamId }, synack ++ [.reply (makeFrame cmdFin streamId [])])
  | some .active => (s, [.deliver streamId payload])
  | none => (s, [])

def dispatch (s : Session) (scheme : PaddingScheme) (frame : Frame) : Session × List Effect :=
  if frame.command = cmdSettings then s.settings scheme frame.payload
  else if frame.command = cmdSyn then s.syn frame.streamId
  else if frame.command = cmdPsh then s.psh frame.streamId frame.payload
  else if frame.command = cmdFin then ({ s with streams := s.streams.erase frame.streamId }, [])
  else if frame.command = cmdHeartRequest then
    (s, [.reply (makeFrame cmdHeartResponse frame.streamId [])])
  else (s, [])

/-- A frame that is complete. -/
def handle (s : Session) (scheme : PaddingScheme) (frame : Frame) : Session × List Effect :=
  dispatch { s with reading := .handling, processed := s.processed ++ [frame] } scheme frame

/-! ### Reading -/

/-- The header is complete. -/
def headerRead (s : Session) (age : UInt64) (scheme : PaddingScheme) (header : List UInt8) :
    Session × List Effect :=
  let s := { s with lastActivity := age }
  if payloadLength header = 0 then s.handle scheme (frameOf header [])
  else ({ s with reading := .payload header [], deadline := s.now + frameReadTimeout }, [])

/-- The read that is waiting takes what there is, up to the length it was asked
for. -/
def poll (s : Session) (age : UInt64) (scheme : PaddingScheme) : Option (Session × List Effect) :=
  match s.reading with
  | .header got =>
      let want := frameOverhead - got.length
      let taken := got ++ s.inbox.take want
      let s := { s with inbox := s.inbox.drop want }
      if taken.length < frameOverhead then some ({ s with reading := .header taken }, [])
      else some (s.headerRead age scheme taken)
  | .payload header got =>
      let want := payloadLength header - got.length
      let taken := got ++ s.inbox.take want
      let s := { s with inbox := s.inbox.drop want }
      if taken.length < payloadLength header then some ({ s with reading := .payload header taken }, [])
      else some ({ s with lastActivity := age }.handle scheme (frameOf header taken))
  | .handling => none

/-- The tick closes a session without streams that was idle for too long. -/
def closesIdle (s : Session) (age : UInt64) : Bool :=
  s.streams.isEmpty ∧ sessionIdleTimeout < age - s.lastActivity

def tick (s : Session) (age : UInt64) : Option Session :=
  match s.reading with
  | .header _ =>
      if s.now < s.deadline then none
      else if s.closesIdle age then some { s with ended := some .idle }
      else some { s with reading := .header [], deadline := s.now + tickMillis }
  | _ => none

/-- The read ends without what it was asked for. -/
def readFails (s : Session) (reason : SessionEnd) : Option Session :=
  match s.reading with
  | .handling => none
  | _ => some { s with ended := some reason }

def payloadTimeout (s : Session) : Option Session :=
  match s.reading with
  | .payload header got =>
      if s.now < s.deadline ∨ payloadLength header - got.length ≤ s.inbox.length then none
      else some { s with ended := some .payloadTimeout }
  | _ => none

def cancel (s : Session) : Option Session :=
  match s.reading with
  | .header _ => some { s with ended := some .cancelled }
  | _ => none

/-- Round the loop. -/
def resume (s : Session) : Option Session :=
  match s.reading with
  | .handling => some { s with reading := .header [], deadline := s.now + tickMillis }
  | _ => none

end Session

inductive SessionEvent where
  /-- The client sends. -/
  | arrive (bytes : List UInt8)
  /-- The client sends no more. -/
  | close
  | elapse (millis : Nat)
  /-- The worker of a stream has returned. -/
  | workerReturned (streamId : UInt32)
  | poll (age : UInt64) (scheme : PaddingScheme)
  | tick (age : UInt64)
  | cancel
  | eof
  | readError
  | payloadTimeout
  | resume
  deriving DecidableEq, Repr

namespace Session

/-- What the session does by itself, as long as it has not ended. -/
def act (s : Session) : SessionEvent → Option (Session × List Effect)
  | .poll age scheme => s.poll age scheme
  | .tick age => (s.tick age).map (·, [])
  | .cancel => s.cancel.map (·, [])
  | .eof => if s.closed ∧ s.inbox = [] then (s.readFails .disconnected).map (·, []) else none
  | .readError => (s.readFails .readError).map (·, [])
  | .payloadTimeout => s.payloadTimeout.map (·, [])
  | .resume => s.resume.map (·, [])
  | _ => none

def step (s : Session) : SessionEvent → Option (Session × List Effect)
  | .arrive bytes =>
      if s.closed then none
      else some ({ s with inbox := s.inbox ++ bytes, arrived := s.arrived ++ bytes }, [])
  | .close => some ({ s with closed := true }, [])
  | .elapse millis => some ({ s with now := s.now + millis }, [])
  | .workerReturned streamId => some ({ s with streams := s.streams.erase streamId }, [])
  | e => if s.ended.isSome then none else s.act e

end Session

end Anytls

end Elise
