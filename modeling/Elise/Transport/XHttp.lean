/-
Elise/Transport/XHttp.lean

The chunked coding of XHTTP over HTTP/1 (`XHttpChunkedStream` in
src/transport/xhttp.rs).

The reader is a machine with five states over a buffer that is shared by all of
them; the writer puts a chunk into a buffer and answers before it is written.
-/
import Elise.Lib.Lines
import Elise.Lib.Poll
import Elise.Lib.Text

namespace Elise

namespace Transport

open Poll

def crlf : List UInt8 := [13, 10]

def findSubslice (needle haystack : List UInt8) : Option Nat := Lines.find needle haystack

inductive ChunkState where
  | readingLength
  | readingData (rem : Nat)
  | readingCrlf
  | readingTrailer
  | eof
  deriving DecidableEq, Repr

structure XHttpChunkedStream where
  state : ChunkState
  readBuf : List UInt8
  writeBuf : List UInt8
  hasSentEof : Bool
  deriving DecidableEq, Repr

namespace XHttpChunkedStream

/-- What came behind the request is read first. -/
def new (unconsumed : List UInt8) : XHttpChunkedStream := ⟨.readingLength, unconsumed, [], false⟩

/-! ### Reading -/

/-- The length in a line: what is before the extensions. -/
def chunkLen (line : List UInt8) : Option Nat :=
  match Text.fromUtf8 line with
  | none => none
  | some text => Text.parseHex (2 ^ 64) (Text.trim (text.takeWhile (· ≠ ';')))

/-- What a state does with the buffer: it answers, goes on, or needs more; it is said
how much is asked for, and what the end of the inner stream is answered with. -/
inductive Next where
  | answer (result : Result (List UInt8)) (s : XHttpChunkedStream)
  | again (s : XHttpChunkedStream)
  | fetch (size : Nat) (result : Result (List UInt8)) (ended : XHttpChunkedStream)

def next (s : XHttpChunkedStream) (cap : Nat) : Next :=
  match s.state with
  | .readingLength =>
      match findSubslice crlf s.readBuf with
      | some pos =>
          match chunkLen (s.readBuf.take pos) with
          | none => .answer .error s
          | some len =>
              .again { s with
                readBuf := s.readBuf.drop (pos + 2)
                state := if len = 0 then .readingTrailer else .readingData len }
      | none => .fetch 8192 (.ready []) s
  | .readingData rem =>
      if !s.readBuf.isEmpty then
        let toCopy := min (min cap s.readBuf.length) rem
        .answer (.ready (s.readBuf.take toCopy)) { s with
          readBuf := s.readBuf.drop toCopy
          state := if rem - toCopy = 0 then .readingCrlf else .readingData (rem - toCopy) }
      else .fetch 16384 .error s
  | .readingCrlf =>
      if 2 ≤ s.readBuf.length then
        .again { s with readBuf := s.readBuf.drop 2, state := .readingLength }
      else .fetch 512 .error s
  | .readingTrailer =>
      match findSubslice crlf s.readBuf with
      | some pos =>
          if pos = 0 then .answer (.ready []) { s with readBuf := s.readBuf.drop 2, state := .eof }
          else .again { s with readBuf := s.readBuf.drop (pos + 2) }
      | none => .fetch 512 (.ready []) { s with state := .eof }
  | .eof => .answer (.ready []) s

/-- The loop of `poll_read`.  Every round but the last takes some bytes off the
buffer or of the inner stream. -/
def readLoop : (fuel : Nat) → XHttpChunkedStream → Arrivals UInt8 → (cap : Nat) →
    Result (List UInt8) × XHttpChunkedStream × Arrivals UInt8
  | 0, s, a, _ => (.pending, s, a)
  | fuel + 1, s, a, cap =>
      match s.next cap with
      | .answer result s => (result, s, a)
      | .again s => readLoop fuel s a cap
      | .fetch size result ended =>
          match a.poll size with
          | (.pending, a) => (.pending, s, a)
          | (.error, a) => (.error, s, a)
          | (.ready bytes, a) =>
              if bytes.isEmpty then (result, ended, a)
              else readLoop fuel { s with readBuf := s.readBuf ++ bytes } a cap

/-- `poll_read` with room for `cap` bytes. -/
def pollRead (r : XHttpChunkedStream × Arrivals UInt8) (cap : Nat) :
    Result (List UInt8) × XHttpChunkedStream × Arrivals UInt8 :=
  if cap = 0 then (.ready [], r)
  else readLoop (r.1.readBuf.length + 2 * r.2.items.length + 1) r.1 r.2 cap

/-! ### Writing -/

/-- Write until nothing is left.  A stream that takes nothing is asked again. -/
def writeOut : List Wrote → List UInt8 → Drained UInt8
  | answers, [] => ⟨answers, [], [], .done⟩
  | [], buf => ⟨[], [], buf, .pending⟩
  | .pending :: answers, buf => ⟨answers, [], buf, .pending⟩
  | .error :: answers, buf => ⟨answers, [], buf, .failed⟩
  | .some n :: answers, buf =>
      let rest := writeOut answers (buf.drop n)
      { rest with written := buf.take n ++ rest.written }

/-- A length, the bytes, and the ends of the lines. -/
def chunk (data : List UInt8) : List UInt8 :=
  Text.toUtf8 (Text.upperHex data.length) ++ crlf ++ data ++ crlf

/-- The chunk without bytes, and no trailers. -/
def lastChunk : List UInt8 := [48, 13, 10, 13, 10]

/-- What the inner stream is given, and the answer to the caller. -/
structure Polled (β : Type) where
  stream : XHttpChunkedStream
  written : List UInt8
  result : Result β

def pollWrite (s : XHttpChunkedStream) (data : List UInt8) (answers : List Wrote) : Polled Nat :=
  let flushed := writeOut answers s.writeBuf
  let s := { s with writeBuf := flushed.left }
  match flushed.verdict with
  | .pending => ⟨s, flushed.written, .pending⟩
  | .failed | .ended => ⟨s, flushed.written, .error⟩
  | .done =>
      if data.isEmpty then ⟨s, flushed.written, .ready 0⟩
      else
        let data := data.take 65536
        let sent := writeOut flushed.answers (s.writeBuf ++ chunk data)
        let s := { s with writeBuf := sent.left }
        let written := flushed.written ++ sent.written
        match sent.verdict with
        | .done | .pending => ⟨s, written, .ready data.length⟩
        | .failed | .ended => ⟨s, written, .error⟩

/-- What waits is written, and then the inner stream is flushed. -/
def pollFlush (s : XHttpChunkedStream) (answers : List Wrote) (inner : Result Unit) : Polled Unit :=
  let flushed := writeOut answers s.writeBuf
  let s := { s with writeBuf := flushed.left }
  match flushed.verdict with
  | .pending => ⟨s, flushed.written, .pending⟩
  | .failed | .ended => ⟨s, flushed.written, .error⟩
  | .done => ⟨s, flushed.written, inner⟩

def pollShutdown (s : XHttpChunkedStream) (answers : List Wrote) (inner : Result Unit) :
    Polled Unit :=
  let s :=
    if !s.hasSentEof then { s with hasSentEof := true, writeBuf := s.writeBuf ++ lastChunk } else s
  s.pollFlush answers inner

end XHttpChunkedStream

end Transport

end Elise
