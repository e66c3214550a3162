/-
Elise/Vmess/Header.lean

The request header of VMess (src/protocol/vmess/crypto.rs) and the keys and checksums it needs.

The key derivation nests HMACs: each step of the path keys an HMAC whose hash is the HMAC of the
step before, down to SHA-256.  The masks and paddings of the stream are read from SHAKE-128
(`Shake128`): absorb a nonce, then read 16-bit numbers.

The header comes as two sealed texts, its length and itself, each under a key and a nonce of its
own that are derived from the user's key; both are bound to the auth id
(`decrypt_vmess_header`).  AES-128-GCM is a parameter.  What is opened is read with
`parseVmessHeader`.
-/
import Elise.Lib.HostText
import Elise.Lib.Wire

namespace Elise

namespace Vmess

open Net

/-- SHA-256 and MD5 (crates `sha2` and `md5`). -/
structure Hashes where
  sha256 : List UInt8 → List UInt8
  md5 : List UInt8 → List UInt8

/-! ### Key derivation -/

def blockSize : Nat := 64

/-- The key of an HMAC, filled up to a block. -/
def blockKey (hash : List UInt8 → List UInt8) (key : List UInt8) : List UInt8 :=
  let actualKey := if blockSize < key.length then hash key else key
  actualKey ++ List.replicate (blockSize - actualKey.length) 0

/-- `NestedHmac`: an HMAC over any hash with blocks of 64 bytes. -/
def nestedHmac (hash : List UInt8 → List UInt8) (key data : List UInt8) : List UInt8 :=
  let block := blockKey hash key
  hash (block.map (· ^^^ 0x5c) ++ hash (block.map (· ^^^ 0x36) ++ data))

/-- `VMess AEAD KDF` -/
def kdfSaltVmessAeadKdf : List UInt8 :=
  [86, 77, 101, 115, 115, 32, 65, 69, 65, 68, 32, 75, 68, 70]

/-- `AES Auth ID Encryption` -/
def kdfSaltAuthIdEncryptionKey : List UInt8 :=
  [65, 69, 83, 32, 65, 117, 116, 104, 32, 73, 68, 32, 69, 110, 99, 114, 121, 112, 116, 105, 111, 110]

/-- `auth_len` -/
def kdfSaltAuthLen : List UInt8 := [97, 117, 116, 104, 95, 108, 101, 110]

def vmessKdf (h : Hashes) (key : List UInt8) (path : List (List UInt8)) : List UInt8 :=
  path.foldl (fun hash salt => nestedHmac hash salt) (nestedHmac h.sha256 kdfSaltVmessAeadKdf) key

/-- `c48619fe-8f02-49e0-b9e9-edf763e17e21` -/
def cmdKeySalt : List UInt8 :=
  [99, 52, 56, 54, 49, 57, 102, 101, 45, 56, 102, 48, 50, 45, 52, 57, 101, 48, 45, 98, 57, 101, 57, 45,
    101, 100, 102, 55, 54, 51, 101, 49, 55, 101, 50, 49]

def deriveCmdKey (h : Hashes) (uuid : List UInt8) : List UInt8 := h.md5 (uuid ++ cmdKeySalt)

def generateChacha20Poly1305Key (h : Hashes) (key : List UInt8) : List UInt8 :=
  h.md5 key ++ h.md5 (h.md5 key)

/-! ### Checksum -/

/-- One bit of a byte. -/
def crcBit (crc : UInt32) : UInt32 := (crc >>> 1) ^^^ (0xEDB88320 &&& (0 - (crc &&& 1)))

def crcByte (crc : UInt32) (byte : UInt8) : UInt32 := Nat.repeat crcBit 8 (crc ^^^ byte.toUInt32)

def crc32Ieee (data : List UInt8) : UInt32 := ~~~(data.foldl crcByte 0xFFFFFFFF)

/-! ### SHAKE-128 -/

def keccakRoundConstants : List UInt64 :=
  [0x0000000000000001, 0x0000000000008082, 0x800000000000808a, 0x8000000080008000,
    0x000000000000808b, 0x0000000080000001, 0x8000000080008081, 0x8000000000008009,
    0x000000000000008a, 0x0000000000000088, 0x0000000080008009, 0x000000008000000a,
    0x000000008000808b, 0x800000000000008b, 0x8000000000008089, 0x8000000000008003,
    0x8000000000008002, 0x8000000000000080, 0x000000000000800a, 0x800000008000000a,
    0x8000000080008081, 0x8000000000008080, 0x0000000080000001, 0x8000000080008008]

def shake128Rate : Nat := 168

structure Shake128 where
  /-- 25 lanes; lane `x + 5 * y` is in column `x` and row `y`. -/
  state : List UInt64
  byteIndex : Nat
  deriving DecidableEq, Repr

namespace Shake128

def rotateLeft (v : UInt64) (n : Nat) : UInt64 := ⟨v.toBitVec.rotateLeft n⟩

def lane (state : List UInt64) (i : Nat) : UInt64 := state.getD i 0

/-- Add the parities of two columns to each lane. -/
def theta (state : List UInt64) : List UInt64 :=
  let column := fun x => lane state x ^^^ lane state (x + 5) ^^^ lane state (x + 10) ^^^
    lane state (x + 15) ^^^ lane state (x + 20)
  (List.range 25).map fun i =>
    lane state i ^^^ (column ((i % 5 + 4) % 5) ^^^ rotateLeft (column ((i % 5 + 1) % 5)) 1)

/-- The walk through the lanes: where it is, and the lane that it carries. -/
def rhoPiStep (walk : List UInt64 × UInt64 × Nat × Nat) (t : Nat) : List UInt64 × UInt64 × Nat × Nat :=
  let (state, current, x, y) := walk
  let nextX := y
  let nextY := (2 * x + 3 * y) % 5
  (state.set (nextX + nextY * 5) (rotateLeft current ((t + 1) * (t + 2) / 2 % 64)),
    lane state (nextX + nextY * 5), nextX, nextY)

def rhoPi (state : List UInt64) : List UInt64 :=
  ((List.range 24).foldl rhoPiStep (state, lane state 1, 1, 0)).1

/-- Combine each lane with the next two of its row. -/
def chi (state : List UInt64) : List UInt64 :=
  (List.range 25).map fun i =>
    let base := i / 5 * 5
    lane state i ^^^ (~~~lane state (base + (i % 5 + 1) % 5) &&& lane state (base + (i % 5 + 2) % 5))

def round (state : List UInt64) (roundConstant : UInt64) : List UInt64 :=
  let state := chi (rhoPi (theta state))
  state.set 0 (lane state 0 ^^^ roundConstant)

def permute (s : Shake128) : Shake128 := { s with state := keccakRoundConstants.foldl round s.state }

def absorbByte (s : Shake128) (b : UInt8) : Shake128 :=
  let i := s.byteIndex / 8
  let shift := s.byteIndex % 8 * 8
  let s := { s with
    state := s.state.set i (lane s.state i ^^^ (b.toUInt64 <<< UInt64.ofNat shift))
    byteIndex := s.byteIndex + 1 }
  if s.byteIndex = shake128Rate then { s.permute with byteIndex := 0 } else s

/-- Zeros up to the last byte of the block. -/
def pad (s : Shake128) : Shake128 :=
  Nat.repeat (·.absorbByte 0) (shake128Rate - 1 - s.byteIndex) s

def new (nonce : List UInt8) : Shake128 :=
  let s := (nonce.foldl absorbByte ⟨List.replicate 25 0, 0⟩).absorbByte 0x1f
  { s.pad.absorbByte 0x80 with byteIndex := 0 }

def readByte (s : Shake128) : UInt8 × Shake128 :=
  let s := if s.byteIndex = shake128Rate then { s.permute with byteIndex := 0 } else s
  ((lane s.state (s.byteIndex / 8) >>> UInt64.ofNat (s.byteIndex % 8 * 8)).toUInt8,
    { s with byteIndex := s.byteIndex + 1 })

def nextU16 (s : Shake128) : UInt16 × Shake128 :=
  let (high, s) := s.readByte
  let (low, s) := s.readByte
  (high.toUInt16 <<< 8 ||| low.toUInt16, s)

end Shake128

/-- Opening with AES-128-GCM (crate `aes-gcm`): the text without its tag. -/
abbrev GcmOpen := (key nonce aad sealed : List UInt8) → Option (List UInt8)

/-- `VMess Header AEAD Key` -/
def kdfSaltHeaderPayloadKey : List UInt8 :=
  [86, 77, 101, 115, 115, 32, 72, 101, 97, 100, 101, 114, 32, 65, 69, 65, 68, 32, 75, 101, 121]

/-- `VMess Header AEAD Nonce` -/
def kdfSaltHeaderPayloadIv : List UInt8 :=
  [86, 77, 101, 115, 115, 32, 72, 101, 97, 100, 101, 114, 32, 65, 69, 65, 68, 32, 78, 111, 110, 99, 101]

/-- `VMess Header AEAD Key_Length` -/
def kdfSaltHeaderPayloadLenKey : List UInt8 :=
  kdfSaltHeaderPayloadKey ++ [95, 76, 101, 110, 103, 116, 104]

/-- `VMess Header AEAD Nonce_Length` -/
def kdfSaltHeaderPayloadLenIv : List UInt8 :=
  kdfSaltHeaderPayloadIv ++ [95, 76, 101, 110, 103, 116, 104]

inductive HeaderErrorKind where
  | unexpectedEof
  | invalidData
  deriving DecidableEq

structure HeaderError where
  kind : HeaderErrorKind
  message : String
  deriving DecidableEq

structure VmessRequestHeader where
  version : UInt8
  requestBodyKey : List UInt8
  requestBodyNonce : List UInt8
  responseHeader : UInt8
  option : UInt8
  security : UInt8
  command : UInt8
  targetPort : UInt16
  targetHost : List Char
  targetIp : Option IpAddr

def vmessVersion : UInt8 := 1

def cmdMux : UInt8 := 3

/-- `fnv1a_32`. -/
def fnv1a32 (data : List UInt8) : UInt32 :=
  data.foldl (fun hash b => (hash ^^^ b.toUInt32) * 0x01000193) 0x811c9dc5

/-! ### Reading an opened header -/

/-- The host, the address if it is given as one, and where the next field
begins. -/
def readAddress (data : List UInt8) (cursor : Nat) :
    Except HeaderError (List Char × Option IpAddr × Nat) :=
  let atyp := byteAt data cursor
  let cursor := cursor + 1
  if atyp = 0x01 then
    if data.length < cursor + 4 then .error ⟨.unexpectedEof, "IPv4 address truncated"⟩
    else
      let ip := IpAddr.v4 (ipv4At data cursor)
      .ok (ip.chars, some ip, cursor + 4)
  else if atyp = 0x02 then
    if data.length < cursor + 1 then .error ⟨.unexpectedEof, "Domain length truncated"⟩
    else
      let len := (byteAt data cursor).toNat
      let cursor := cursor + 1
      if data.length < cursor + len then .error ⟨.unexpectedEof, "Domain truncated"⟩
      else .ok (Text.fromUtf8Lossy (bytesAt data cursor len), none, cursor + len)
  else if atyp = 0x03 then
    if data.length < cursor + 16 then .error ⟨.unexpectedEof, "IPv6 address truncated"⟩
    else
      let ip := IpAddr.v6 (ipv6At data cursor)
      .ok (ip.chars, some ip, cursor + 16)
  else .error ⟨.invalidData, "Invalid ATYP in VMess"⟩

/-- The port, the host and the address, and where the padding begins. -/
def readTarget (data : List UInt8) (command : UInt8) :
    Except HeaderError (UInt16 × List Char × Option IpAddr × Nat) :=
  if command = cmdMux then .ok (0, "v1.mux.cool".toList, none, 38)
  else if data.length < 38 + 3 then .error ⟨.unexpectedEof, "Target address truncated"⟩
  else (readAddress data 40).map fun r => (u16At data 38, r)

def parseVmessHeader (data : List UInt8) : Except HeaderError VmessRequestHeader :=
  if data.length < 38 then .error ⟨.invalidData, "Header body too short"⟩
  else if byteAt data 0 ≠ vmessVersion then .error ⟨.invalidData, "Unsupported VMess version"⟩
  else
    let paddingLen := (byteAt data 35 >>> 4).toNat
    let command := byteAt data 37
    match readTarget data command with
    | .error e => .error e
    | .ok (port, host, ip, cursor) =>
        if data.length < cursor + paddingLen + 4 then
          .error ⟨.unexpectedEof, "Padding or FNV1a truncated"⟩
        else if u32At data (cursor + paddingLen) ≠ fnv1a32 (data.take (cursor + paddingLen)) then
          .error ⟨.invalidData, "VMess Header FNV-1a checksum mismatch"⟩
        else
          .ok
            { version := byteAt data 0
              requestBodyNonce := bytesAt data 1 16
              requestBodyKey := bytesAt data 17 16
              responseHeader := byteAt data 33
              option := byteAt data 34
              security := byteAt data 35 &&& 0x0F
              command := command
              targetPort := port
              targetHost := host
              targetIp := ip }

/-! ### Opening a header -/

/-- The arguments of `decrypt_vmess_header`. -/
structure SealedHeader where
  cmdKey : List UInt8
  authId : List UInt8
  encLenBlock : List UInt8
  connectionNonce : List UInt8
  encHeaderPayload : List UInt8

namespace SealedHeader

variable (h : Hashes) (gcm : GcmOpen) (s : SealedHeader)

/-- A key, or a nonce, for one of the two sealed texts. -/
def derive (salt : List UInt8) (len : Nat) : List UInt8 :=
  (vmessKdf h s.cmdKey [salt, s.authId, s.connectionNonce]).take len

/-- `decrypt_vmess_header_length`. -/
def decryptVmessHeaderLength : Except HeaderError Nat :=
  match gcm (s.derive h kdfSaltHeaderPayloadLenKey 16) (s.derive h kdfSaltHeaderPayloadLenIv 12)
      s.authId (s.encLenBlock.take 18) with
  | none => .error ⟨.invalidData, "Header length decryption failed"⟩
  | some lenData => .ok (u16At lenData 0).toNat

/-- The header without its seal. -/
def openHeader : Except HeaderError (List UInt8) :=
  match s.decryptVmessHeaderLength h gcm with
  | .error e => .error e
  | .ok headerLen =>
      if s.encHeaderPayload.length < headerLen + 16 then
        .error ⟨.unexpectedEof, "Header payload too short"⟩
      else
        match gcm (s.derive h kdfSaltHeaderPayloadKey 16) (s.derive h kdfSaltHeaderPayloadIv 12)
            s.authId (s.encHeaderPayload.take (headerLen + 16)) with
        | none => .error ⟨.invalidData, "Header payload decryption failed"⟩
        | some data => .ok data

/-- `decrypt_vmess_header`. -/
def decryptVmessHeader : Except HeaderError VmessRequestHeader :=
  match s.openHeader h gcm with
  | .error e => .error e
  | .ok data => parseVmessHeader data

end SealedHeader

end Vmess

end Elise
