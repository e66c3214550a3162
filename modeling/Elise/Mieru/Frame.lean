/-
Elise/Mieru/Frame.lean

The frames of Mieru: what the TCP reader (`read_payload` and `MieruSessionState` of
src/protocol/mieru/session.rs) and the down task of the UDP bridge (udp.rs) make of a frame of a
client, and the low-entropy encoding of its payload (pattern.rs).

A frame is its metadata and what follows: padding, a sealed payload, padding.  On TCP the
metadata has been opened before; a datagram carries it, behind its nonce.  In both cases the
payload is sealed under the next nonce.

In low entropy, eight bytes on the wire carry four to seven bytes of the payload.  A mask says
which of the 64 bits they are, and it turns by some bits from chunk to chunk; the other bits are
padding, all zeros or all ones.
-/
import Elise.Lib.Wire

namespace Elise

namespace Mieru

open Net

/-! ### Bits under a mask -/

/-- Each round clears the lowest bit of the mask, so there are at most 64. -/
def pdepLoop (x : UInt64) : (rounds : Nat) → (mask srcBit result : UInt64) → UInt64
  | 0, _, _, result => result
  | rounds + 1, mask, srcBit, result =>
      if mask = 0 then result
      else
        let maskBit := mask &&& (0 - mask)
        pdepLoop x rounds (mask &&& (mask - 1)) (srcBit <<< 1)
          (if x &&& srcBit ≠ 0 then result ||| maskBit else result)

def pdepGeneric (x mask : UInt64) : UInt64 := pdepLoop x 64 mask 1 0

def pextLoop (x : UInt64) : (rounds : Nat) → (mask resultBit result : UInt64) → UInt64
  | 0, _, _, result => result
  | rounds + 1, mask, resultBit, result =>
      if mask = 0 then result
      else
        let maskBit := mask &&& (0 - mask)
        pextLoop x rounds (mask &&& (mask - 1)) (resultBit <<< 1)
          (if x &&& maskBit ≠ 0 then result ||| resultBit else result)

def pextGeneric (x mask : UInt64) : UInt64 := pextLoop x 64 mask 1 0

def repeatU32 (v : UInt32) : UInt64 := (v.toUInt64 <<< 32) ||| v.toUInt64

def rotateMask (initialMask : UInt64) (rotation chunkIndex : Nat) : UInt64 :=
  if rotation = 0 ∨ chunkIndex = 0 then initialMask
  else if rotation ≤ 15 then
    ⟨initialMask.toBitVec.rotateRight (chunkIndex % 64 * rotation)⟩
  else ⟨initialMask.toBitVec.rotateLeft (chunkIndex % 64 * (rotation / 16))⟩

def lowBits (n : Nat) : UInt64 := if 64 ≤ n then 0 - 1 else (1 <<< UInt64.ofNat n) - 1

/-! ### Lengths -/

def lowEntropyChunkLen : Nat := 8

/-- How many bytes of the payload a chunk carries. -/
def sourceBytesPerChunk (mode : Nat) : Except String Nat :=
  match mode with
  | 1 => .ok 4
  | 2 => .ok 5
  | 3 => .ok 6
  | 4 => .ok 7
  | _ => .error ("Invalid low entropy mode " ++ toString mode)

def lowEntropyChunkCount (extractedLen perChunk : Nat) : Nat :=
  if extractedLen % perChunk ≠ 0 then extractedLen / perChunk + 1 else extractedLen / perChunk

def lowEntropyEncodedLen (extractedLen mode : Nat) : Except String Nat :=
  match sourceBytesPerChunk mode with
  | .error e => .error e
  | .ok perChunk =>
      if extractedLen = 0 then .error "Invalid extracted payload len 0"
      else if 65535 / lowEntropyChunkLen < lowEntropyChunkCount extractedLen perChunk then
        .error "Encoded payload length exceeds u16 limit"
      else .ok (lowEntropyChunkCount extractedLen perChunk * lowEntropyChunkLen)

/-! ### Decoding -/

/-- The padding of a chunk: all zeros, all ones as in the first chunk, or an
error. -/
def checkPadding (chunkIdx : Nat) (bit : Option Bool) (padding paddingMask : UInt64) :
    Except String (Option Bool) :=
  if chunkIdx = 0 then
    if padding = 0 then .ok (some false)
    else if padding = paddingMask then .ok (some true)
    else .error "Mixed padding bits in chunk 0"
  else
    let ones := bit.getD false
    if (!ones && padding != 0) || (ones && padding != paddingMask) then
      .error ("Non-uniform padding bits in chunk " ++ toString chunkIdx)
    else .ok bit

/-- The chunks from `chunkIdx` on.  A round decodes at least one byte. -/
def decodeChunks (encoded : List UInt8) (perChunk : Nat) (initialMask : UInt64) (rotation : Nat) :
    (rounds chunkIdx : Nat) → Option Bool → (left : Nat) → Except String (List UInt8)
  | 0, _, _, _ => .ok []
  | rounds + 1, chunkIdx, bit, left =>
      if left = 0 then .ok []
      else
        let sourceLen := min perChunk left
        let chunk := UInt64.ofNat (ofBeBytes (bytesAt encoded (chunkIdx * 8) 8))
        let chunkMask := rotateMask initialMask rotation chunkIdx
        let dataMask := pdepGeneric (lowBits (sourceLen * 8)) chunkMask
        let paddingMask := ~~~dataMask
        match checkPadding chunkIdx bit (chunk &&& paddingMask) paddingMask with
        | .error e => .error e
        | .ok bit =>
            let scratch := toBeBytes 8 (pextGeneric chunk chunkMask).toNat
            match decodeChunks encoded perChunk initialMask rotation rounds (chunkIdx + 1) bit
                (left - perChunk) with
            | .error e => .error e
            | .ok decoded => .ok (scratch.drop (8 - sourceLen) ++ decoded)

def decodeLowEntropy (encoded : List UInt8) (extractedLen mode : Nat) (halfMask : UInt32)
    (rotation : Nat) : Except String (List UInt8) :=
  match sourceBytesPerChunk mode, lowEntropyEncodedLen extractedLen mode with
  | .error e, _ => .error e
  | _, .error e => .error e
  | .ok perChunk, .ok expectedLen =>
      if encoded.length ≠ expectedLen then
        .error ("Encoded payload len is " ++ toString encoded.length ++ ", expected " ++
          toString expectedLen)
      else decodeChunks encoded perChunk (repeatU32 halfMask) rotation extractedLen 0 none
        extractedLen

/-! ### What decodes -/

theorem sourceBytesPerChunk_eq_ok {mode perChunk : Nat} (h : sourceBytesPerChunk mode = .ok perChunk) :
    4 ≤ perChunk ∧ perChunk ≤ 7 := by
  unfold sourceBytesPerChunk at h
  split at h <;> simp_all <;> omega

/-- The encoding is longer than what it carries. -/
theorem lt_of_lowEntropyEncodedLen {extractedLen mode len : Nat}
    (h : lowEntropyEncodedLen extractedLen mode = .ok len) : 0 < extractedLen ∧ extractedLen < len := by
  rw [lowEntropyEncodedLen] at h
  split at h
  · cases h
  · rename_i perChunk hmode
    obtain ⟨hlow, hhigh⟩ := sourceBytesPerChunk_eq_ok hmode
    split at h
    · cases h
    · rename_i hpos
      split at h
      · cases h
      · obtain rfl := Except.ok.inj h
        refine ⟨Nat.pos_of_ne_zero hpos, ?_⟩
        have hdiv := Nat.div_add_mod extractedLen perChunk
        have hrest := Nat.mod_lt extractedLen (show 0 < perChunk by omega)
        have hmul : perChunk * (extractedLen / perChunk) ≤ 7 * (extractedLen / perChunk) :=
          Nat.mul_le_mul_right _ hhigh
        rw [lowEntropyChunkLen, lowEntropyChunkCount]
        split <;> omega

theorem length_decodeChunks {encoded : List UInt8} {perChunk : Nat} {initialMask : UInt64}
    {rotation rounds chunkIdx left : Nat} {bit : Option Bool} {decoded : List UInt8}
    (hper : 0 < perChunk ∧ perChunk ≤ 8) (hrounds : left ≤ rounds)
    (h : decodeChunks encoded perChunk initialMask rotation rounds chunkIdx bit left = .ok decoded) :
    decoded.length = left := by
  -- on the rounds: a chunk decodes `min perChunk left` bytes
  induction rounds generalizing chunkIdx bit left decoded with
  | zero =>
      obtain rfl := Except.ok.inj h
      rw [List.length_nil]
      omega
  | succ rounds ih =>
      rw [decodeChunks] at h
      split at h
      · obtain rfl := Except.ok.inj h
        rw [List.length_nil]
        omega
      · simp only at h
        split at h
        · cases h
        · split at h
          · cases h
          · rename_i rest hrest
            obtain rfl := Except.ok.inj h
            rw [List.length_append, ih (by omega) hrest, List.length_drop, length_toBeBytes]
            omega

/-- What decodes has the length that was asked for, from a longer text. -/
theorem decodeLowEntropy_eq_ok {encoded : List UInt8} {extractedLen mode : Nat} {halfMask : UInt32}
    {rotation : Nat} {decoded : List UInt8}
    (h : decodeLowEntropy encoded extractedLen mode halfMask rotation = .ok decoded) :
    decoded.length = extractedLen ∧ 0 < extractedLen ∧ extractedLen < encoded.length := by
  rw [decodeLowEntropy] at h
  split at h
  · cases h
  · cases h
  · rename_i perChunk expectedLen hmode hlen
    split at h
    · cases h
    · rename_i hsame
      obtain ⟨hlow, hhigh⟩ := sourceBytesPerChunk_eq_ok hmode
      obtain ⟨hpos, hlt⟩ := lt_of_lowEntropyEncodedLen hlen
      rw [not_not] at hsame
      exact ⟨length_decodeChunks ⟨by omega, by omega⟩ (Nat.le_refl _) h, hpos, hsame ▸ hlt⟩

/-! ### Ciphers and nonces -/

/-- XChaCha20-Poly1305 (crate `chacha20poly1305`): a text with its tag opens or
does not. -/
structure XChaCha where
  decrypt : (key nonce buf tag : List UInt8) → Option (List UInt8)

/-- What opens is as long as what was sealed. -/
def XChaCha.Lawful (c : XChaCha) : Prop :=
  ∀ key nonce buf tag plain, c.decrypt key nonce buf tag = some plain → plain.length = buf.length

def nonceSize : Nat := 24

def metadataLength : Nat := 32

def overhead : Nat := 16

/-- From the last byte on, with the carry. -/
def incrementReversed : List UInt8 → List UInt8
  | [] => []
  | byte :: rest => if byte = 255 then 0 :: incrementReversed rest else (byte + 1) :: rest

def incrementNonce (nonce : List UInt8) : List UInt8 := (incrementReversed nonce.reverse).reverse

/-! ### Metadata -/

def protocolOpenSessionReq : UInt8 := 2
def protocolOpenSessionResp : UInt8 := 3
def protocolCloseSessionReq : UInt8 := 4
def protocolCloseSessionResp : UInt8 := 5
def protocolDataC2S : UInt8 := 6
def protocolDataS2C : UInt8 := 7
def protocolAckC2S : UInt8 := 8
def protocolDataC2SLowEntropy : UInt8 := 10

/-- The 32 bytes in front of a frame. -/
structure Metadata where
  bytes : List UInt8

namespace Metadata

variable (m : Metadata)

def protocol : UInt8 := byteAt m.bytes 0

/-- The mode of the low-entropy encoding. -/
def mode : Nat := (byteAt m.bytes 1).toNat

/-- In minutes. -/
def timestamp : Nat := (u32At m.bytes 2).toNat

def sessionId : UInt32 := u32At m.bytes 6

def seq : UInt32 := u32At m.bytes 10

/-- The payload of a frame that opens or closes a session. -/
def sessionPayloadLen : Nat := (u16At m.bytes 15).toNat

def sessionSuffixLen : Nat := (byteAt m.bytes 17).toNat

def prefixLen : Nat := (byteAt m.bytes 21).toNat

def payloadLen : Nat := (u16At m.bytes 22).toNat

def suffixLen : Nat := (byteAt m.bytes 24).toNat

def halfMask : UInt32 := u32At m.bytes 25

/-- What the low-entropy encoding carries. -/
def extractedLen : Nat := (u16At m.bytes 29).toNat

def rotation : Nat := (byteAt m.bytes 31).toNat

/-- Decode a text as the metadata says. -/
def decode (text : List UInt8) (len : Nat) : Except String (List UInt8) :=
  decodeLowEntropy text len m.mode m.halfMask m.rotation

end Metadata

/-! ### The TCP reader -/

inductive FrameError where
  | invalidData (msg : String)
  | unexpectedEof
  deriving DecidableEq, Repr

variable (c : XChaCha)

/-- Padding before, payload, padding after. -/
def frameLayout (m : Metadata) : Except FrameError (Nat × Nat × Nat) :=
  if m.protocol = protocolOpenSessionReq ∨ m.protocol = protocolCloseSessionReq ∨
      m.protocol = protocolCloseSessionResp then
    if 1024 < m.sessionPayloadLen then
      .error (.invalidData "Mieru session payload exceeds 1024 bytes")
    else .ok (0, m.sessionPayloadLen, m.sessionSuffixLen)
  else if m.protocol = protocolDataC2S ∨ m.protocol = protocolDataC2SLowEntropy ∨
      m.protocol = protocolAckC2S then
    .ok (m.prefixLen, m.payloadLen, m.suffixLen)
  else .error (.invalidData "Invalid Mieru client frame")

/-- Open the payload at the front of a text. -/
def decryptPayload (key nonce wire : List UInt8) (len : Nat) : Except FrameError (List UInt8) :=
  if wire.length < len + overhead then .error .unexpectedEof
  else
    match c.decrypt key nonce (wire.take len) ((wire.drop len).take overhead) with
    | none => .error (.invalidData "Payload decrypt failed: Error")
    | some plain => .ok plain

/-- The payload from the wire: a low-entropy frame is decoded and then opened. -/
def tcpPayload (key nonce : List UInt8) (m : Metadata) (wire : List UInt8) (len : Nat) :
    Except FrameError (List UInt8) :=
  if m.protocol = protocolDataC2SLowEntropy then
    match m.decode wire (m.extractedLen + overhead) with
    | .error e => .error (.invalidData e)
    | .ok text => decryptPayload c key nonce text m.extractedLen
  else decryptPayload c key nonce wire len

/-- The rest of a frame from the bytes that follow its metadata. -/
def readPayload (key nonce : List UInt8) (nowMinutes : Nat) (m : Metadata) (bytes : List UInt8) :
    Except FrameError (List UInt8) :=
  if 1 < (nowMinutes - m.timestamp) + (m.timestamp - nowMinutes) ∨ m.sessionId = 0 then
    .error (.invalidData "Invalid Mieru timestamp or session ID")
  else
    match frameLayout m with
    | .error e => .error e
    | .ok (prefixLen, len, suffixLen) =>
        if bytes.length < prefixLen then .error .unexpectedEof
        else
          let rest := bytes.drop prefixLen
          let wireLen := if 0 < len then len + overhead else 0
          if rest.length < wireLen then .error .unexpectedEof
          else
            match (if 0 < len then tcpPayload c key nonce m (rest.take wireLen) len else .ok []) with
            | .error e => .error e
            | .ok payload =>
                if rest.length < wireLen + suffixLen then .error .unexpectedEof else .ok payload

/-! ### The UDP bridge -/

/-- What the bridge makes of a datagram. -/
inductive Bridged where
  /-- It does not open. -/
  | skip
  /-- A frame; `written` goes to the session. -/
  | frame (seq : UInt32) (written : List UInt8)
  | close (seq : UInt32)
  deriving DecidableEq, Repr

def Bridged.written : Bridged → List UInt8
  | .frame _ written => written
  | _ => []

/-- The payload of a datagram, opened as it is. -/
def udpOpen (key nonce : List UInt8) (m : Metadata) (packet : List UInt8) : Option (List UInt8) :=
  let offset := 72 + m.prefixLen
  if 0 < m.payloadLen ∧ offset + m.payloadLen + overhead ≤ packet.length then
    c.decrypt key nonce ((packet.drop offset).take m.payloadLen)
      ((packet.drop (offset + m.payloadLen)).take overhead)
  else none

/-- What the bridge writes: a low-entropy frame is opened and then decoded. -/
def udpPayload (key nonce : List UInt8) (m : Metadata) (packet : List UInt8) : List UInt8 :=
  match udpOpen c key nonce m packet with
  | none => []
  | some plain =>
      if m.protocol = protocolDataC2SLowEntropy then
        match m.decode plain m.extractedLen with
        | .error _ => []
        | .ok raw => raw
      else plain

def bridgePacket (key packet : List UInt8) : Bridged :=
  if packet.length < 72 then .skip
  else
    let nonce := packet.take nonceSize
    match c.decrypt key nonce ((packet.drop 24).take metadataLength)
        ((packet.drop 56).take overhead) with
    | none => .skip
    | some metaBuf =>
        let m : Metadata := ⟨metaBuf⟩
        if m.protocol = protocolDataC2S ∨ m.protocol = protocolDataC2SLowEntropy then
          .frame m.seq (udpPayload c key (incrementNonce nonce) m packet)
        else if m.protocol = protocolCloseSessionReq then .close m.seq
        else .frame m.seq []

/-! ### Sessions -/

def defaultWindowSize : UInt16 := 256

structure SessionState where
  sessionId : UInt32
  nextSendSeq : UInt32
  nextRecvSeq : UInt32
  unackSeq : UInt32
  windowSize : UInt16
  isClosed : Bool
  deriving DecidableEq, Repr

namespace SessionState

def new (sessionId : UInt32) : SessionState :=
  ⟨sessionId, 0, 0, 0, defaultWindowSize, false⟩

/-- The number that is given out is `nextSendSeq` of the state before. -/
def allocSendSeq (s : SessionState) : SessionState := { s with nextSendSeq := s.nextSendSeq + 1 }

def advanceRecvSeq (s : SessionState) (seq : UInt32) : SessionState :=
  if s.nextRecvSeq ≤ seq ∨ (0xF0000000 < s.nextRecvSeq ∧ seq < 0x10000000) then
    { s with nextRecvSeq := seq + 1, unackSeq := seq + 1 }
  else s

/-- A number that is taken moves the acknowledgement behind it, or not at all. -/
theorem unackSeq_advanceRecvSeq (s : SessionState) (seq : UInt32) :
    (s.advanceRecvSeq seq).unackSeq = seq + 1 ∨ (s.advanceRecvSeq seq).unackSeq = s.unackSeq := by
  rw [advanceRecvSeq]
  split
  · exact .inl rfl
  · exact .inr rfl

@[simp] theorem unackSeq_allocSendSeq (s : SessionState) : s.allocSendSeq.unackSeq = s.unackSeq := rfl

/-- The first number of the peer is taken whatever it is. -/
theorem unackSeq_first (sessionId seq : UInt32) :
    ((new sessionId).advanceRecvSeq seq).unackSeq = seq + 1 := by
  have hfirst : (new sessionId).nextRecvSeq ≤ seq := UInt32.zero_le
  rw [advanceRecvSeq, if_pos (.inl hfirst)]

end SessionState

/-! ### Ciphers with given texts -/

/-- A sealed text. -/
structure Sealed where
  key : List UInt8
  nonce : List UInt8
  buf : List UInt8
  tag : List UInt8
  plain : List UInt8

/-- A cipher that knows some texts and refuses all others. -/
def xchachaOf (known : List Sealed) : XChaCha where
  decrypt key nonce buf tag :=
    (known.find? fun s => s.key = key ∧ s.nonce = nonce ∧ s.buf = buf ∧ s.tag = tag).map (·.plain)

theorem xchachaOf_isSome {known : List Sealed} {key nonce buf tag : List UInt8}
    (h : ((xchachaOf known).decrypt key nonce buf tag).isSome = true) :
    ∃ s ∈ known, s.key = key ∧ s.nonce = nonce ∧ s.buf = buf ∧
      (xchachaOf known).decrypt key nonce buf tag = some s.plain := by
  rw [xchachaOf, Option.isSome_map] at h
  obtain ⟨s, hfind⟩ := Option.isSome_iff_exists.mp h
  have hfound := List.find?_some hfind
  simp only [decide_eq_true_eq] at hfound
  refine ⟨s, List.mem_of_find?_eq_some hfind, hfound.1, hfound.2.1, hfound.2.2.1, ?_⟩
  show Option.map _ _ = _
  rw [hfind]
  rfl

theorem xchachaOf_lawful {known : List Sealed}
    (hlen : ∀ s ∈ known, s.plain.length = s.buf.length) : (xchachaOf known).Lawful := by
  intro key nonce buf tag plain hopen
  obtain ⟨s, hs, -, -, rfl, hplain⟩ := xchachaOf_isSome (by rw [hopen]; rfl)
  rw [hopen] at hplain
  rw [Option.some.inj hplain, hlen s hs]

/-- The only text opens under its own key. -/
theorem xchachaOf_singleton (s : Sealed) (key : List UInt8) :
    (xchachaOf [s]).decrypt key s.nonce s.buf s.tag = if key = s.key then some s.plain else none := by
  show Option.map _ (List.find? _ [s]) = _
  rw [List.find?_singleton]
  by_cases hkey : key = s.key
  · rw [if_pos (by simp [hkey]), if_pos hkey]
    rfl
  · rw [if_neg (by simp [Ne.symm hkey]), if_neg hkey]
    rfl

end Mieru

end Elise
