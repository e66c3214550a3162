/-
Elise/Conn/Sniffer.lean

The name of a destination, read from the first bytes that a client sends
(src/conn/sniffer.rs): the server name in a TLS or QUIC hello, or the host of
an HTTP request.

The two functions at the end read once from the stream and put back what they
read.  `inTime` says whether that read came back within its 150 milliseconds;
a read that failed or timed out counts as none.
-/
import Elise.Security.Audit

namespace Elise

open Net

/-! ### TLS and QUIC -/

/-- The name in the server name list from `sniPos` to `listEnd`. -/
def sniffNames (buf : List UInt8) (sniPos listEnd : Nat) : Option (List Char) :=
  if _h : sniPos + 3 ≤ listEnd then
    let nameType := byteAt buf sniPos
    let nameLen := (u16At buf (sniPos + 1)).toNat
    let name :=
      if nameType = 0 ∧ sniPos + 3 + nameLen ≤ listEnd then
        Text.fromUtf8 ((buf.drop (sniPos + 3)).take nameLen)
      else none
    match name with
    | some name => some name
    | none => sniffNames buf (sniPos + 3 + nameLen) listEnd
  else none
termination_by listEnd - sniPos

/-- The extensions from `pos` to `endExt`; the one with number 0 holds the
server names. -/
def sniffExtensions (buf : List UInt8) (pos endExt : Nat) : Option (List Char) :=
  if _h : pos + 4 ≤ endExt then
    let extType := u16At buf pos
    let extSize := (u16At buf (pos + 2)).toNat
    let name :=
      if extType = 0 ∧ pos + 4 + 2 ≤ endExt then
        let listLen := (u16At buf (pos + 4)).toNat
        sniffNames buf (pos + 6) (min (pos + 6 + listLen) endExt)
      else none
    match name with
    | some name => some name
    | none => sniffExtensions buf (pos + 4 + extSize) endExt
  else none
termination_by endExt - pos

def parseClientHelloBody (buf : List UInt8) : Option (List Char) :=
  if buf.length < 4 + 2 + 32 then none
  else
    let pos := 4 + 2 + 32
    if buf.length ≤ pos then none
    else
      let pos := pos + 1 + (byteAt buf pos).toNat
      if buf.length < pos + 2 then none
      else
        let pos := pos + 2 + (u16At buf pos).toNat
        if buf.length ≤ pos then none
        else
          let pos := pos + 1 + (byteAt buf pos).toNat
          if buf.length < pos + 2 then none
          else
            let extLen := (u16At buf pos).toNat
            let pos := pos + 2
            sniffExtensions buf pos (min (pos + extLen) buf.length)

def parseTlsSni (buf : List UInt8) : Option (List Char) :=
  if buf.length < 5 ∨ byteAt buf 0 ≠ 0x16 then none
  else if buf.length ≤ 5 ∨ byteAt buf 5 ≠ 0x01 then none
  else parseClientHelloBody (buf.drop 5)

def parseQuicSni (buf : List UInt8) : Option (List Char) :=
  (List.range (buf.length - 40)).findSome? fun i =>
    if byteAt buf i = 0x01 ∧ buf[i + 4]? = some 0x03 ∧ buf[i + 5]? = some 0x03 then
      parseClientHelloBody (buf.drop i)
    else none

/-! ### HTTP -/

def parseHttpHost (buf : List UInt8) : Option (List Char) :=
  match Text.fromUtf8 buf with
  | none => none
  | some text =>
      (Text.lines text).findSome? fun line =>
        match Text.stripAny ["Host:".toList] (Text.trim line) with
        | none => none
        | some hostVal => ((Text.trim hostVal).splitOn ':').head?

/-- What an HTTP request begins with. -/
def httpMethods : List (List UInt8) :=
  ["GET ", "POST ", "HEAD ", "CONNECT ", "OPTIONS ", "PUT ", "DELETE "].map fun s =>
    Text.toUtf8 s.toList

/-- The protocol that a name was found in. -/
inductive SniffedProtocol where
  | tls
  | http
  | quic
  deriving DecidableEq

def sniffDomain (buffer : List UInt8) : Option (List Char × SniffedProtocol) :=
  if buffer.isEmpty then none
  else
    let tls :=
      if byteAt buffer 0 = 0x16 ∧ 43 < buffer.length then parseTlsSni buffer else none
    let http :=
      if httpMethods.any (·.isPrefixOf buffer) then parseHttpHost buffer else none
    let quic :=
      if byteAt buffer 0 &&& 0x80 ≠ 0 ∧ 40 < buffer.length then parseQuicSni buffer else none
    (tls.map (·, SniffedProtocol.tls)).or
      ((http.map (·, SniffedProtocol.http)).or (quic.map (·, SniffedProtocol.quic)))

example : sniffDomain (Text.toUtf8 "GET /index.html HTTP/1.1\r\nHost: example.com\r\n\r\n".toList) =
    some ("example.com".toList, .http) := by decide +kernel

/-! ### Streams -/

def sniffAsyncStream (inTime : Bool) (s : ByteStream) (targetIp : Option IpAddr)
    (sniffEnabled : Bool) : Option (List Char) × PrefixedStream :=
  if !sniffEnabled || targetIp.isNone || !inTime then (none, .new s none)
  else
    let (pre, s) := s.read 1024
    if pre.isEmpty then (none, .new s none)
    else ((sniffDomain pre).map Prod.fst, .new s (some pre))

/-- The same with the audit of the payload before it; `none` for a payload
that is blocked. -/
def sniffAndDetectStream {env : Matching} (audit : AuditController env) (inTime : Bool)
    (s : ByteStream) (targetIp : Option IpAddr) (sniffEnabled detectPacket : Bool) :
    Option (Option (List Char) × PrefixedStream) :=
  if (!sniffEnabled && !detectPacket) || !inTime then some (none, .new s none)
  else
    let (pre, s) := s.read 1024
    if pre.isEmpty then some (none, .new s none)
    else if detectPacket && audit.shouldBlockPayload pre then none
    else
      let sniffed :=
        if sniffEnabled && targetIp.isSome then (sniffDomain pre).map Prod.fst else none
      some (sniffed, .new s (some pre))

end Elise
