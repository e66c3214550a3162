/-
Elise/Vmess/Chunk.lean

The chunks of a VMess stream (`VmessChunkEncrypter` and `VmessChunkDecrypter` of
src/protocol/vmess/crypto.rs).

A chunk is a length, the sealed payload, and zeros up to the length.  The length
is either sealed on its own, under a key and a counter of its own, or masked by
the next number of a SHAKE-128 stream; with masked lengths and global padding the
number before the mask says how many zeros follow.

The two ciphers are parameters (`Aeads`), and what the chunks rely on is
`Aeads.Lawful`.  Keys have the length of their cipher, so building a cipher does
not fail.
-/
import Elise.Vmess.Header

namespace Elise

namespace Vmess

open Net

/-! ### Ciphers -/

inductive VmessCipher where
  | aesGcm (key : List UInt8)
  | chaCha20 (key : List UInt8)
  deriving DecidableEq, Repr

/-- AES-128-GCM and ChaCha20-Poly1305 (crates `aes-gcm` and `chacha20poly1305`).
A sealed text ends in its tag of 16 bytes. -/
structure Aeads where
  encrypt : VmessCipher → (nonce data : List UInt8) → Option (List UInt8)
  decrypt : VmessCipher → (nonce data : List UInt8) → Option (List UInt8)

/-- Texts of the length of a chunk can be sealed, and sealed texts be opened. -/
structure Aeads.Lawful (a : Aeads) : Prop where
  seals : ∀ cipher nonce data, data.length ≤ 2 ^ 16 → (a.encrypt cipher nonce data).isSome
  length : ∀ {cipher nonce data sealed}, a.encrypt cipher nonce data = some sealed →
    sealed.length = data.length + 16
  opens : ∀ {cipher nonce data sealed}, a.encrypt cipher nonce data = some sealed →
    a.decrypt cipher nonce sealed = some data

def securityChacha20Poly1305 : UInt8 := 4

/-- The cipher of a security byte. -/
def VmessCipher.ofSecurity (h : Hashes) (security : UInt8) (key : List UInt8) : VmessCipher :=
  if security = securityChacha20Poly1305 then .chaCha20 (generateChacha20Poly1305Key h key)
  else .aesGcm key

/-- The count takes the place of the first two bytes. -/
def chunkNonce (nonceBase : List UInt8) (count : UInt16) : List UInt8 :=
  toBeBytes 2 count.toNat ++ nonceBase.drop 2

/-! ### Errors -/

inductive ErrorKind where
  | invalidInput
  | invalidData
  | unexpectedEof
  deriving DecidableEq, Repr

structure ChunkError where
  kind : ErrorKind
  message : String
  deriving DecidableEq, Repr

/-! ### Lengths -/

def optionGlobalPadding : UInt8 := 0x08
def optionAuthLength : UInt8 := 0x10

inductive ChunkLengthCodec where
  | authenticated (cipher : VmessCipher) (nonceBase : List UInt8) (count : UInt16)
  | masked (shake : Shake128) (globalPadding : Bool)
  deriving DecidableEq, Repr

namespace ChunkLengthCodec

def ofOption (h : Hashes) (key nonce : List UInt8) (security option : UInt8) : ChunkLengthCodec :=
  if option &&& optionAuthLength ≠ 0 then
    .authenticated (.ofSecurity h security ((vmessKdf h key [kdfSaltAuthLen]).take 16)) (nonce.take 12) 0
  else .masked (.new nonce) (option &&& optionGlobalPadding ≠ 0)

def isAuthenticated : ChunkLengthCodec → Bool
  | .authenticated _ _ _ => true
  | .masked _ _ => false

/-- A number below 64 from the stream, or 0. -/
def shakePadding (shake : Shake128) (globalPadding : Bool) : Nat × Shake128 :=
  if globalPadding then (shake.nextU16.1.toNat % 64, shake.nextU16.2) else (0, shake)

/-- How many zeros follow the next chunk. -/
def drawPadding : ChunkLengthCodec → Nat × ChunkLengthCodec
  | .authenticated cipher nonceBase count => (0, .authenticated cipher nonceBase count)
  | .masked shake globalPadding =>
      let padding := shakePadding shake globalPadding
      (padding.1, .masked padding.2 globalPadding)

/-- The bytes of a length; `none` where the cipher fails. -/
def sealLength (a : Aeads) (total : UInt16) :
    ChunkLengthCodec → Option (List UInt8) × ChunkLengthCodec
  | .authenticated cipher nonceBase count =>
      (a.encrypt cipher (chunkNonce nonceBase count) (toBeBytes 2 total.toNat),
        .authenticated cipher nonceBase (count + 1))
  | .masked shake globalPadding =>
      (some (toBeBytes 2 (total ^^^ shake.nextU16.1).toNat), .masked shake.nextU16.2 globalPadding)

end ChunkLengthCodec

/-! ### Encrypter -/

structure VmessChunkEncrypter where
  lenCodec : ChunkLengthCodec
  payloadCipher : VmessCipher
  payloadNonceBase : List UInt8
  payloadCount : UInt16
  isAuthenticatedLength : Bool
  deriving DecidableEq, Repr

namespace VmessChunkEncrypter

def new (h : Hashes) (respKey respNonce : List UInt8) (security option : UInt8) :
    VmessChunkEncrypter where
  lenCodec := .ofOption h respKey respNonce security option
  payloadCipher := .ofSecurity h security respKey
  payloadNonceBase := respNonce.take 12
  payloadCount := 0
  isAuthenticatedLength := option &&& optionAuthLength ≠ 0

def u16Max : Nat := 65535

/-- What a call leaves behind: its result, the encrypter and the buffer. -/
structure Encrypted where
  result : Except ChunkError Unit
  encrypter : VmessChunkEncrypter
  out : List UInt8

def encryptFailed : VmessCipher → ChunkError
  | .aesGcm _ => ⟨.invalidData, "AesGcm encrypt chunk failed"⟩
  | .chaCha20 _ => ⟨.invalidData, "ChaCha encrypt chunk failed"⟩

/-- The payload and its padding, behind a length that is written. -/
def encryptPayload (a : Aeads) (e : VmessChunkEncrypter) (payload : List UInt8) (paddingLen : Nat)
    (out : List UInt8) : Encrypted :=
  let payloadNonce := chunkNonce e.payloadNonceBase e.payloadCount
  let e := { e with payloadCount := e.payloadCount + 1 }
  match a.encrypt e.payloadCipher payloadNonce payload with
  | none => ⟨.error (encryptFailed e.payloadCipher), e, out⟩
  | some sealed => ⟨.ok (), e, out ++ sealed ++ List.replicate paddingLen 0⟩

def encryptChunk (a : Aeads) (e : VmessChunkEncrypter) (payload out : List UInt8) : Encrypted :=
  if u16Max - 16 < payload.length then ⟨.error ⟨.invalidInput, "VMess chunk too large"⟩, e, out⟩
  else
    let encryptedSize := payload.length + 16
    let padding := e.lenCodec.drawPadding
    let paddingLen := padding.1
    let e := { e with lenCodec := padding.2 }
    -- the padding is drawn before the sum is checked
    if u16Max < encryptedSize + paddingLen then
      ⟨.error ⟨.invalidInput, "VMess padded chunk too large"⟩, e, out⟩
    else
      let length := e.lenCodec.sealLength a (UInt16.ofNat (encryptedSize + paddingLen))
      let e := { e with lenCodec := length.2 }
      match length.1 with
      | none => ⟨.error ⟨.invalidData, "Encrypt chunk len failed"⟩, e, out⟩
      | some lenData => e.encryptPayload a payload paddingLen (out ++ lenData)

end VmessChunkEncrypter

/-! ### Decrypter -/

structure VmessChunkDecrypter where
  lenCodec : ChunkLengthCodec
  payloadCipher : VmessCipher
  payloadNonceBase : List UInt8
  payloadCount : UInt16
  isAuthenticatedLength : Bool
  currentPaddingLen : Nat
  deriving DecidableEq, Repr

namespace VmessChunkDecrypter

def new (h : Hashes) (requestKey requestNonce : List UInt8) (security option : UInt8) :
    VmessChunkDecrypter where
  lenCodec := .ofOption h requestKey requestNonce security option
  payloadCipher := .ofSecurity h security requestKey
  payloadNonceBase := requestNonce.take 12
  payloadCount := 0
  isAuthenticatedLength := option &&& optionAuthLength ≠ 0
  currentPaddingLen := 0

def lengthDecryptFailed : VmessCipher → ChunkError
  | .aesGcm _ => ⟨.invalidData, "AesGcm chunk length decrypt failed"⟩
  | .chaCha20 _ => ⟨.invalidData, "ChaCha chunk length decrypt failed"⟩

/-- The length of the tag and the padding alone says that the stream has ended. -/
def checkLength (total overhead : Nat) (tooShort : String) : Except ChunkError Nat :=
  if total = overhead then .ok 0
  else if total < overhead then .error ⟨.invalidData, tooShort⟩
  else .ok total

def decryptLength (a : Aeads) (d : VmessChunkDecrypter) (rawLenBytes : List UInt8) :
    Except ChunkError Nat × VmessChunkDecrypter :=
  match d.lenCodec with
  | .authenticated cipher nonceBase count =>
      if rawLenBytes.length < 18 then (.error ⟨.unexpectedEof, "Len block requires 18 bytes"⟩, d)
      else
        let d := { d with lenCodec := .authenticated cipher nonceBase (count + 1) }
        match a.decrypt cipher (chunkNonce nonceBase count) (rawLenBytes.take 18) with
        | none => (.error (lengthDecryptFailed cipher), d)
        | some data =>
            (checkLength (u16At data 0).toNat 16 "Authenticated chunk length too short for tag",
              { d with currentPaddingLen := 0 })
  | .masked shake globalPadding =>
      if rawLenBytes.length < 2 then (.error ⟨.unexpectedEof, "Masked len requires 2 bytes"⟩, d)
      else
        let padding := ChunkLengthCodec.shakePadding shake globalPadding
        let mask := padding.2.nextU16
        (checkLength (u16At rawLenBytes 0 ^^^ mask.1).toNat (16 + padding.1)
            "Masked chunk len too short for AEAD tag and padding",
          { d with lenCodec := .masked mask.2 globalPadding, currentPaddingLen := padding.1 })

def payloadDecryptFailed : VmessCipher → ChunkError
  | .aesGcm _ => ⟨.invalidData, "AesGcm payload chunk decrypt failed"⟩
  | .chaCha20 _ => ⟨.invalidData, "ChaCha payload chunk decrypt failed"⟩

/-- The payload that takes the place of the sealed bytes. -/
def decryptChunkPayload (a : Aeads) (d : VmessChunkDecrypter) (chunk : List UInt8) :
    Except ChunkError (List UInt8) × VmessChunkDecrypter :=
  let paddingLen := d.currentPaddingLen
  if chunk.length < 16 + paddingLen then
    (.error ⟨.unexpectedEof, "Payload chunk too short for tag and padding"⟩, d)
  else
    let effectiveLen := chunk.length - paddingLen
    let nonce := chunkNonce d.payloadNonceBase d.payloadCount
    let d := { d with payloadCount := d.payloadCount + 1 }
    match a.decrypt d.payloadCipher nonce (chunk.take effectiveLen) with
    | none => (.error (payloadDecryptFailed d.payloadCipher), d)
    | some payload => (.ok payload, d)

end VmessChunkDecrypter

end Vmess

end Elise
