/-
Elise/Shadowsocksr/Stream.lean

The data stream of ShadowsocksR (`SsrCfb`, `SsrDecoder` and `SsrEncoder` in
src/protocol/shadowsocksr/mod.rs).

A write is cut into chunks of at most 8100 bytes, and each becomes a frame with
its length, a MAC of the length, one byte of padding and a MAC of the frame, under
a key that ends in the number of the frame.  The frames are encrypted with AES in
CFB mode, byte by byte.  AES and HMAC are parameters.
-/
import Elise.Lib.Run
import Elise.Lib.Wire

namespace Elise

namespace Shadowsocksr

open Net

/-- AES and the HMAC of the settings. -/
structure SsrCrypto where
  encryptBlock : (key block : List UInt8) → List UInt8
  mac : (key data : List UInt8) → List UInt8

/-- A MAC has the four bytes that a frame takes of it. -/
def SsrCrypto.Lawful (c : SsrCrypto) : Prop := ∀ key data, 4 ≤ (c.mac key data).length

variable (c : SsrCrypto)

/-- `SsrAuth::verify`: the tag is a beginning of the MAC. -/
def verify (key data tag : List UInt8) : Bool :=
  !tag.isEmpty && (c.mac key data).take tag.length == tag

/-! ### The cipher -/

structure SsrCfb where
  aes : List UInt8
  feedback : List UInt8
  mask : List UInt8
  position : Nat
  deriving DecidableEq, Repr

def SsrCfb.new (key iv : List UInt8) : SsrCfb := ⟨key, iv, List.replicate 16 0, 0⟩

/-- One round of `apply`. -/
def SsrCfb.applyByte (decrypt : Bool) (s : SsrCfb) (byte : UInt8) : UInt8 × SsrCfb :=
  let mask := if s.position = 0 then c.encryptBlock s.aes s.feedback else s.mask
  let out := byte ^^^ byteAt mask s.position
  (out,
    { s with
      mask := mask
      feedback := s.feedback.set s.position (if decrypt then byte else out)
      position := (s.position + 1) % 16 })

def SsrCfb.apply (s : SsrCfb) (data : List UInt8) (decrypt : Bool) : List UInt8 × SsrCfb :=
  Transducer.run (SsrCfb.applyByte c decrypt) s data

/-- The key of a frame. -/
def frameKey (key : List UInt8) (counter : UInt32) : List UInt8 :=
  key ++ toLeBytes 4 counter.toNat

/-- `checked_add(1)`. -/
def nextCounter (counter : UInt32) : Option UInt32 :=
  if counter.toNat + 1 < 2 ^ 32 then some (counter + 1) else none

/-! ### The decoder -/

inductive SsrError where
  | authentication
  | invalidSize
  | invalidPadding
  | counterExhausted
  | truncated
  deriving DecidableEq, Repr

structure SsrDecoder where
  cipher : SsrCfb
  key : List UInt8
  counter : UInt32
  plain : List UInt8
  initial : Option (List UInt8)
  deriving DecidableEq, Repr

namespace SsrDecoder

/-- The decoder of a stream, with what `authenticate` has read too much. -/
def start (aes iv key : List UInt8) (initial : Option (List UInt8)) : SsrDecoder :=
  ⟨.new aes iv, key, 1, [], initial⟩

/-- The frame at the beginning of `plain`: its size and what it holds, or `none` if
it is not complete. -/
def readFrame (d : SsrDecoder) : Except SsrError (Option (Nat × List UInt8)) :=
  if d.plain.length < 4 then .ok none
  else
    let key := frameKey d.key d.counter
    if !verify c key (d.plain.take 2) ((d.plain.drop 2).take 2) then .error .authentication
    else
      let size := (u16LeAt d.plain 0).toNat
      if size < 9 ∨ 8192 ≤ size then .error .invalidSize
      else if d.plain.length < size then .ok none
      else if !verify c key (d.plain.take (size - 4)) ((d.plain.drop (size - 4)).take 4) then
        .error .authentication
      else
        let padding :=
          if byteAt d.plain 4 = 255 then (u16LeAt d.plain 5).toNat else (byteAt d.plain 4).toNat
        if padding = 0 ∨ size - 8 < padding ∨ (byteAt d.plain 4 = 255 ∧ padding < 3) then
          .error .invalidPadding
        else .ok (some (size, (d.plain.take (size - 4)).drop (4 + padding)))

/-- The loop of `decode`.  A round that goes on takes a frame. -/
def decodeLoop : (fuel : Nat) → SsrDecoder → Except SsrError (Option (List UInt8)) × SsrDecoder
  | 0, d => (.ok none, d)
  | fuel + 1, d =>
      match d.readFrame c with
      | .error e => (.error e, d)
      | .ok none => (.ok none, d)
      | .ok (some (size, data)) =>
          match nextCounter d.counter with
          | none => (.error .counterExhausted, d)
          | some counter =>
              let d := { d with counter := counter, plain := d.plain.drop size }
              if data.isEmpty then decodeLoop fuel d else (.ok (some data), d)

/-- `src` is decrypted and goes behind what waits. -/
def take (d : SsrDecoder) (src : List UInt8) : SsrDecoder :=
  let (bytes, cipher) := d.cipher.apply c src true
  { d with cipher := cipher, plain := d.plain ++ bytes }

/-- `decode`, with what it leaves of `src`. -/
def decode (d : SsrDecoder) (src : List UInt8) :
    Except SsrError (Option (List UInt8)) × SsrDecoder × List UInt8 :=
  let initial := d.initial.getD []
  let d := { d with initial := none }
  if !initial.isEmpty then (.ok (some initial), d, src)
  else
    let d := d.take c src
    let (result, d) := d.decodeLoop c (d.plain.length + 1)
    (result, d, [])

def decodeEof (d : SsrDecoder) (src : List UInt8) :
    Except SsrError (Option (List UInt8)) × SsrDecoder × List UInt8 :=
  let (result, d, src) := d.decode c src
  match result with
  | .ok none => (if !d.plain.isEmpty then .error .truncated else .ok none, d, src)
  | _ => (result, d, src)

end SsrDecoder

/-! ### The encoder -/

structure SsrEncoder where
  cipher : SsrCfb
  key : List UInt8
  counter : UInt32
  iv : Option (List UInt8)
  deriving DecidableEq, Repr

/-- The frame of a chunk, before it is encrypted. -/
def frame (key : List UInt8) (counter : UInt32) (chunk : List UInt8) : List UInt8 :=
  let key := frameKey key counter
  let frame := toLeBytes 2 (chunk.length + 9)
  let frame := frame ++ (c.mac key frame).take 2
  let frame := frame ++ 1 :: chunk
  frame ++ (c.mac key frame).take 4

/-- `data.chunks(8100)`.  Every chunk takes a byte at least. -/
def chunksLoop : (fuel : Nat) → List UInt8 → List (List UInt8)
  | 0, _ => []
  | fuel + 1, data =>
      if data.isEmpty then [] else data.take 8100 :: chunksLoop fuel (data.drop 8100)

/-- The chunks of a write; no data are one empty chunk. -/
def chunks (data : List UInt8) : List (List UInt8) :=
  if data.isEmpty then [[]] else chunksLoop data.length data

namespace SsrEncoder

def start (aes iv key : List UInt8) : SsrEncoder := ⟨.new aes iv, key, 1, some iv⟩

/-- One round of `encode`. -/
def encodeChunk (e : SsrEncoder) (chunk : List UInt8) : Option (SsrEncoder × List UInt8) :=
  match nextCounter e.counter with
  | none => none
  | some counter =>
      let (bytes, cipher) := e.cipher.apply c (frame c e.key e.counter chunk) false
      some ({ e with counter := counter, cipher := cipher }, bytes)

/-- The loop of `encode`, with what goes to `dst`. -/
def encodeChunks : SsrEncoder → List (List UInt8) → Except SsrError Unit × SsrEncoder × List UInt8
  | e, [] => (.ok (), e, [])
  | e, chunk :: rest =>
      match e.encodeChunk c chunk with
      | none => (.error .counterExhausted, e, [])
      | some (e, bytes) =>
          let (result, e, more) := e.encodeChunks rest
          (result, e, bytes ++ more)

def encode (e : SsrEncoder) (data : List UInt8) : Except SsrError Unit × SsrEncoder × List UInt8 :=
  let head := e.iv.getD []
  let (result, e, bytes) := { e with iv := none }.encodeChunks c (chunks data)
  (result, e, head ++ bytes)

end SsrEncoder

/-! ### Both ends -/

/-- A list of writes, with what was sent, and whether one has failed. -/
structure Sent where
  encoder : SsrEncoder
  wire : List UInt8
  failed : Bool

def Sent.write (s : Sent) (data : List UInt8) : Sent :=
  let (result, encoder, bytes) := s.encoder.encode c data
  ⟨encoder, s.wire ++ bytes, s.failed || !result.isOk⟩

/-- All the writes of an encoder. -/
def sendAll (e : SsrEncoder) (writes : List (List UInt8)) : Sent :=
  writes.foldl (Sent.write c) ⟨e, [], false⟩

/-- What was read: the items, the error of the call that failed, and the decoder. -/
structure Received where
  items : List (List UInt8)
  error : Option SsrError
  decoder : SsrDecoder

/-- A call is repeated until it has no item. -/
def callUntilNone (call : SsrDecoder → List UInt8 →
    Except SsrError (Option (List UInt8)) × SsrDecoder × List UInt8) :
    (fuel : Nat) → SsrDecoder → (src : List UInt8) → Received
  | 0, d, _ => ⟨[], none, d⟩
  | fuel + 1, d, src =>
      match call d src with
      | (.error e, d, _) => ⟨[], some e, d⟩
      | (.ok none, d, _) => ⟨[], none, d⟩
      | (.ok (some item), d, src) =>
          let r := callUntilNone call fuel d src
          { r with items := item :: r.items }

/-- Every call but one takes the initial payload or a byte. -/
def callFuel (d : SsrDecoder) (src : List UInt8) : Nat := d.plain.length + src.length + 2

/-- Some segments arrive, and after them the end. -/
def receiveAll : SsrDecoder → List (List UInt8) → Received
  | d, [] => callUntilNone (SsrDecoder.decodeEof c) (callFuel d []) d []
  | d, segment :: segments =>
      let r := callUntilNone (SsrDecoder.decode c) (callFuel d segment) d segment
      if r.error.isSome then r
      else
        let later := receiveAll r.decoder segments
        { later with items := r.items ++ later.items }

end Shadowsocksr

end Elise
