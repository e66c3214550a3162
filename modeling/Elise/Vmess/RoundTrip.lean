/-
Elise/Vmess/RoundTrip.lean

What the encrypter writes, the decrypter reads.

The two keep step: between chunks, the decrypter that has read everything has the
length codec, the payload count and the ciphers of the encrypter (`InStep`).  A
chunk moves both alike (`readChunk_encryptChunk`), and a call that fails leaves
the encrypter where it was, with one exception: with global padding, the padding
of a chunk is drawn before its length is found to be too large.  So the result is
about runs in which no payload of a permitted length is refused for its padding
(`Fits`); `eof_lost_after_refused_chunk` is what happens beyond.
-/
import Elise.Lib.Run
import Elise.Lib.TableCipher
import Elise.Vmess.Chunk

namespace Elise

namespace Vmess

open Net

variable (a : Aeads)

/-! ### Reading a stream of chunks -/

/-- How reading ends. -/
inductive ReadEnd where
  /-- `decrypt_length` returned 0. -/
  | marker
  /-- The bytes that are left do not fill the next read. -/
  | closed (left : List UInt8)
  | failed (error : ChunkError)
  /-- A chunk without a payload that is no marker. -/
  | emptyChunk
  deriving DecidableEq, Repr

inductive ReadChunk where
  | more (payload : List UInt8) (d : VmessChunkDecrypter) (rest : List UInt8)
  | ended (e : ReadEnd)
  deriving DecidableEq, Repr

namespace VmessChunkDecrypter

def lengthBytes (d : VmessChunkDecrypter) : Nat := if d.isAuthenticatedLength then 18 else 2

theorem lengthBytes_pos (d : VmessChunkDecrypter) : 0 < d.lengthBytes := by
  rw [lengthBytes]
  split <;> decide

/-- The announced number of bytes, and what they hold. -/
def readPayload (d : VmessChunkDecrypter) (chunkLen : Nat) (bytes : List UInt8) : ReadChunk :=
  if bytes.length < chunkLen then .ended (.closed bytes)
  else
    let plain := d.decryptChunkPayload a (bytes.take chunkLen)
    match plain.1 with
    | .error e => .ended (.failed e)
    | .ok [] => .ended .emptyChunk
    | .ok payload => .more payload plain.2 (bytes.drop chunkLen)

/-- One turn of the loop of `up_task`.  Its check of the length against a buffer
of 65535 bytes never fires: a length has 16 bits. -/
def readChunk (d : VmessChunkDecrypter) (bytes : List UInt8) : ReadChunk :=
  if bytes.length < d.lengthBytes then .ended (.closed bytes)
  else
    let length := d.decryptLength a (bytes.take d.lengthBytes)
    match length.1 with
    | .error e => .ended (.failed e)
    | .ok 0 => .ended .marker
    | .ok chunkLen => length.2.readPayload a chunkLen (bytes.drop d.lengthBytes)

variable {a} {d d' : VmessChunkDecrypter} {bytes payload rest : List UInt8}

theorem readPayload_rest {chunkLen : Nat}
    (h : d.readPayload a chunkLen bytes = .more payload d' rest) : rest = bytes.drop chunkLen := by
  rw [readPayload] at h
  split at h
  · cases h
  · dsimp only at h
    split at h
    · cases h
    · cases h
    · exact (ReadChunk.more.inj h).2.2.symm

/-- Every chunk takes at least the bytes of its length. -/
theorem readChunk_shorter (h : d.readChunk a bytes = .more payload d' rest) :
    rest.length < bytes.length := by
  have hpos := d.lengthBytes_pos
  rw [readChunk] at h
  split at h
  · cases h
  · rename_i hlen
    dsimp only at h
    split at h
    · cases h
    · cases h
    · rw [readPayload_rest h, List.length_drop, List.length_drop]
      omega

section Length

variable {lenData : List UInt8} (hsize : lenData.length = d.lengthBytes)

include hsize

theorem readChunk_marker (h : d.decryptLength a lenData = (.ok 0, d')) (bytes : List UInt8) :
    d.readChunk a (lenData ++ bytes) = .ended .marker := by
  rw [readChunk, if_neg (by rw [List.length_append]; omega), ← hsize, List.take_left, h]
  rfl

theorem readChunk_length {chunkLen : Nat} (h : d.decryptLength a lenData = (.ok chunkLen, d'))
    (hpos : chunkLen ≠ 0) (bytes : List UInt8) :
    d.readChunk a (lenData ++ bytes) = d'.readPayload a chunkLen bytes := by
  obtain ⟨n, rfl⟩ := Nat.exists_eq_succ_of_ne_zero hpos
  rw [readChunk, if_neg (by rw [List.length_append]; omega), ← hsize, List.take_left,
    List.drop_left, h]
  rfl

end Length

/-- The announced bytes are there, and open to a payload. -/
theorem readPayload_of_ok {chunk : List UInt8}
    (h : d.decryptChunkPayload a chunk = (.ok payload, d')) (hne : payload ≠ [])
    (rest : List UInt8) :
    d.readPayload a chunk.length (chunk ++ rest) = .more payload d' rest := by
  cases payload with
  | nil => exact absurd rfl hne
  | cons byte payload =>
      rw [readPayload, if_neg (by rw [List.length_append]; omega), List.take_left, List.drop_left, h]

end VmessChunkDecrypter

/-- The payloads that are read one after the other, and how it ends. -/
def readAll (d : VmessChunkDecrypter) (bytes : List UInt8) : List (List UInt8) × ReadEnd :=
  match _h : d.readChunk a bytes with
  | .ended e => ([], e)
  | .more payload d' rest =>
      let others := readAll d' rest
      (payload :: others.1, others.2)
  termination_by bytes.length
  decreasing_by exact VmessChunkDecrypter.readChunk_shorter ‹_›

variable {a} {d d' : VmessChunkDecrypter} {bytes payload rest : List UInt8}

theorem readAll_of_ended {e : ReadEnd} (h : d.readChunk a bytes = .ended e) :
    readAll a d bytes = ([], e) := by
  rw [readAll]
  split
  · rename_i e' h'
    rw [h] at h'
    rw [ReadChunk.ended.inj h']
  · rename_i h'
    cases h.symm.trans h'

theorem readAll_of_more (h : d.readChunk a bytes = .more payload d' rest) :
    readAll a d bytes = (payload :: (readAll a d' rest).1, (readAll a d' rest).2) := by
  rw [readAll]
  split
  · rename_i h'
    cases h.symm.trans h'
  · rename_i h'
    obtain ⟨rfl, rfl, rfl⟩ := ReadChunk.more.inj (h.symm.trans h')
    rfl

/-! ### A run of calls -/

/-- The encrypter, its buffer, and the payloads of the calls that succeeded. -/
structure ChunkStream where
  encrypter : VmessChunkEncrypter
  out : List UInt8
  sent : List (List UInt8)
  deriving DecidableEq, Repr

namespace ChunkStream

def new (h : Hashes) (key nonce : List UInt8) (security option : UInt8) : ChunkStream :=
  ⟨.new h key nonce security option, [], []⟩

def isOk {α : Type} : Except ChunkError α → Bool
  | .ok _ => true
  | .error _ => false

variable (a) in
/-- One call of `encrypt_chunk`. -/
def step (s : ChunkStream) (payload : List UInt8) : Option ChunkStream :=
  let call := s.encrypter.encryptChunk a payload s.out
  some ⟨call.encrypter, call.out, if isOk call.result then s.sent ++ [payload] else s.sent⟩

/-- A payload of a permitted length has room for its padding. -/
def Fits (s : ChunkStream) (payload : List UInt8) : Prop :=
  payload.length ≤ VmessChunkEncrypter.u16Max - 16 →
    payload.length + 16 + s.encrypter.lenCodec.drawPadding.1 ≤ VmessChunkEncrypter.u16Max

instance (s : ChunkStream) (payload : List UInt8) : Decidable (s.Fits payload) :=
  inferInstanceAs (Decidable (_ → _))

end ChunkStream

/-! ### Lengths -/

namespace ChunkLengthCodec

variable {codec codec' : ChunkLengthCodec} {total : Nat} {lenData : List UInt8}

theorem isAuthenticated_drawPadding (codec : ChunkLengthCodec) :
    codec.drawPadding.2.isAuthenticated = codec.isAuthenticated := by
  cases codec <;> rfl

theorem drawPadding_lt (codec : ChunkLengthCodec) : codec.drawPadding.1 < 64 := by
  cases codec with
  | authenticated cipher nonceBase count => exact Nat.zero_lt_succ 63
  | masked shake globalPadding =>
      cases globalPadding with
      | false => exact Nat.zero_lt_succ 63
      | true => exact Nat.mod_lt _ (Nat.zero_lt_succ 63)

theorem isAuthenticated_sealLength (codec : ChunkLengthCodec) (total : UInt16) :
    (codec.sealLength a total).2.isAuthenticated = codec.isAuthenticated := by
  cases codec <;> rfl

theorem sealLength_isSome (ha : a.Lawful) (codec : ChunkLengthCodec) (total : UInt16) :
    (codec.sealLength a total).1.isSome := by
  cases codec with
  | authenticated cipher nonceBase count =>
      apply ha.seals
      rw [length_toBeBytes]
      decide
  | masked shake globalPadding => rfl

theorem length_sealLength (ha : a.Lawful) {total : UInt16}
    (h : (codec.sealLength a total).1 = some lenData) :
    lenData.length = if codec.isAuthenticated then 18 else 2 := by
  cases codec with
  | authenticated cipher nonceBase count =>
      rw [ha.length h, length_toBeBytes]
      rfl
  | masked shake globalPadding =>
      obtain rfl := Option.some.inj h
      exact length_toBeBytes _ _

end ChunkLengthCodec

namespace VmessChunkDecrypter

theorem checkLength_of_le {total overhead : Nat} (h : overhead ≤ total) (tooShort : String) :
    checkLength total overhead tooShort = .ok (if total = overhead then 0 else total) := by
  rw [checkLength]
  split
  · rfl
  · rw [if_neg (by omega)]

/-- The length that was written is read, and the codec moves on alike. -/
theorem decryptLength_sealLength (ha : a.Lawful) (d : VmessChunkDecrypter) {total : Nat}
    {lenData : List UInt8} (hlow : 16 + d.lenCodec.drawPadding.1 ≤ total)
    (hhigh : total < 2 ^ 16)
    (h : (d.lenCodec.drawPadding.2.sealLength a (UInt16.ofNat total)).1 = some lenData) :
    d.decryptLength a lenData =
      (.ok (if total = 16 + d.lenCodec.drawPadding.1 then 0 else total),
        { d with
          lenCodec := (d.lenCodec.drawPadding.2.sealLength a (UInt16.ofNat total)).2
          currentPaddingLen := d.lenCodec.drawPadding.1 }) := by
  have hlen := ChunkLengthCodec.length_sealLength ha h
  have hnat : (UInt16.ofNat total).toNat = total := UInt16.toNat_ofNat_of_lt' hhigh
  obtain ⟨lenCodec, payloadCipher, payloadNonceBase, payloadCount, isAuthenticatedLength, padding⟩ := d
  cases lenCodec with
  | authenticated cipher nonceBase count =>
      have hlen18 : lenData.length = 18 := hlen
      have hopen : a.decrypt cipher (chunkNonce nonceBase count) lenData =
          some (toBeBytes 2 (UInt16.ofNat total).toNat) := ha.opens h
      have hcheck := checkLength_of_le (show 16 ≤ total from hlow)
        "Authenticated chunk length too short for tag"
      simp only [decryptLength, if_neg (show ¬lenData.length < 18 by omega),
        List.take_of_length_le hlen18.le, hopen, u16At_toBeBytes]
      rw [hnat, hcheck]
      rfl
  | masked shake globalPadding =>
      have hlen2 : lenData.length = 2 := hlen
      have hcheck := checkLength_of_le
        (show 16 + (ChunkLengthCodec.shakePadding shake globalPadding).1 ≤ total from hlow)
        "Masked chunk len too short for AEAD tag and padding"
      have hread : u16At lenData 0 = UInt16.ofNat total ^^^
          (ChunkLengthCodec.shakePadding shake globalPadding).2.nextU16.1 := by
        rw [← Option.some.inj h, u16At_toBeBytes]
      simp only [decryptLength, if_neg (show ¬lenData.length < 2 by omega), hread]
      rw [UInt16.xor_assoc, UInt16.xor_self, UInt16.xor_zero, hnat, hcheck]
      rfl

/-- The sealed payload is opened, and its padding dropped. -/
theorem decryptChunkPayload_sealed (ha : a.Lawful) (d : VmessChunkDecrypter) {payload sealed : List UInt8}
    (h : a.encrypt d.payloadCipher (chunkNonce d.payloadNonceBase d.payloadCount) payload =
      some sealed) :
    d.decryptChunkPayload a (sealed ++ List.replicate d.currentPaddingLen 0) =
      (.ok payload, { d with payloadCount := d.payloadCount + 1 }) := by
  have hlen := ha.length h
  have htotal : (sealed ++ List.replicate d.currentPaddingLen 0).length =
      sealed.length + d.currentPaddingLen := by
    rw [List.length_append, List.length_replicate]
  simp only [decryptChunkPayload, htotal, Nat.add_sub_cancel, List.take_left, ha.opens h]
  rw [if_neg (by omega)]

end VmessChunkDecrypter

/-! ### One chunk -/

/-- The decrypter has read what the encrypter has written. -/
structure InStep (e : VmessChunkEncrypter) (d : VmessChunkDecrypter) : Prop where
  lenCodec : d.lenCodec = e.lenCodec
  payloadCipher : d.payloadCipher = e.payloadCipher
  payloadNonceBase : d.payloadNonceBase = e.payloadNonceBase
  payloadCount : d.payloadCount = e.payloadCount
  lengthBytes : d.lengthBytes = if e.lenCodec.isAuthenticated then 18 else 2

theorem inStep_new (h : Hashes) (key nonce : List UInt8) (security option : UInt8) :
    InStep (.new h key nonce security option) (.new h key nonce security option) := by
  refine ⟨rfl, rfl, rfl, rfl, ?_⟩
  by_cases hauth : option &&& optionAuthLength ≠ 0
  · simp [VmessChunkDecrypter.lengthBytes, VmessChunkDecrypter.new, VmessChunkEncrypter.new,
      ChunkLengthCodec.ofOption, ChunkLengthCodec.isAuthenticated, hauth]
  · simp [VmessChunkDecrypter.lengthBytes, VmessChunkDecrypter.new, VmessChunkEncrypter.new,
      ChunkLengthCodec.ofOption, ChunkLengthCodec.isAuthenticated, hauth]

/-- Some decrypter is in step with an encrypter, whatever was read before. -/
theorem exists_inStep (e : VmessChunkEncrypter) : ∃ d, InStep e d := by
  refine ⟨⟨e.lenCodec, e.payloadCipher, e.payloadNonceBase, e.payloadCount,
    e.lenCodec.isAuthenticated, 0⟩, rfl, rfl, rfl, rfl, rfl⟩

namespace VmessChunkEncrypter

variable {e : VmessChunkEncrypter}

/-- The encrypter after a chunk. -/
def afterChunk (a : Aeads) (e : VmessChunkEncrypter) (payload : List UInt8) : VmessChunkEncrypter :=
  { e with
    lenCodec := (e.lenCodec.drawPadding.2.sealLength a
      (UInt16.ofNat (payload.length + 16 + e.lenCodec.drawPadding.1))).2
    payloadCount := e.payloadCount + 1 }

theorem encryptChunk_large (h : u16Max - 16 < payload.length) (out : List UInt8) :
    e.encryptChunk a payload out = ⟨.error ⟨.invalidInput, "VMess chunk too large"⟩, e, out⟩ := by
  rw [encryptChunk, if_pos h]

/-- A chunk that fits is written whole. -/
theorem encryptChunk_fits (ha : a.Lawful) (hlen : payload.length ≤ u16Max - 16)
    (hfit : payload.length + 16 + e.lenCodec.drawPadding.1 ≤ u16Max) :
    ∃ lenData sealed,
      (e.lenCodec.drawPadding.2.sealLength a
        (UInt16.ofNat (payload.length + 16 + e.lenCodec.drawPadding.1))).1 = some lenData ∧
      a.encrypt e.payloadCipher (chunkNonce e.payloadNonceBase e.payloadCount) payload = some sealed ∧
      ∀ out, e.encryptChunk a payload out =
        ⟨.ok (), e.afterChunk a payload,
          out ++ (lenData ++ (sealed ++ List.replicate e.lenCodec.drawPadding.1 0))⟩ := by
  obtain ⟨lenData, hlenData⟩ := Option.isSome_iff_exists.mp
    (ChunkLengthCodec.sealLength_isSome ha e.lenCodec.drawPadding.2
      (UInt16.ofNat (payload.length + 16 + e.lenCodec.drawPadding.1)))
  have hshort : payload.length ≤ 2 ^ 16 := hlen.trans (by decide)
  obtain ⟨sealed, hsealed⟩ := Option.isSome_iff_exists.mp
    (ha.seals e.payloadCipher (chunkNonce e.payloadNonceBase e.payloadCount) payload hshort)
  refine ⟨lenData, sealed, hlenData, hsealed, ?_⟩
  intro out
  simp only [encryptChunk, if_neg (Nat.not_lt.mpr hlen), if_neg (Nat.not_lt.mpr hfit), hlenData,
    encryptPayload, hsealed, afterChunk, List.append_assoc]

/-- A call that fails appends nothing. -/
theorem out_of_error (ha : a.Lawful) {out : List UInt8} {err : ChunkError}
    (h : (e.encryptChunk a payload out).result = .error err) :
    (e.encryptChunk a payload out).out = out := by
  by_cases hlarge : u16Max - 16 < payload.length
  · rw [encryptChunk_large hlarge]
  · by_cases hfit : payload.length + 16 + e.lenCodec.drawPadding.1 ≤ u16Max
    · obtain ⟨lenData, sealed, -, -, hcall⟩ :=
        encryptChunk_fits ha (Nat.not_lt.mp hlarge) hfit
      rw [hcall] at h
      cases h
    · simp only [encryptChunk, if_neg hlarge, if_pos (Nat.not_le.mp hfit)]

end VmessChunkEncrypter

namespace InStep

variable {e : VmessChunkEncrypter}

/-- **One chunk.**  A payload that fits is appended as bytes that the decrypter
reads as this payload, or as the marker, and the two are in step again. -/
theorem chunk (hstep : InStep e d) (ha : a.Lawful)
    (hlen : payload.length ≤ VmessChunkEncrypter.u16Max - 16)
    (hfit : payload.length + 16 + e.lenCodec.drawPadding.1 ≤ VmessChunkEncrypter.u16Max) :
    ∃ chunk, (∀ out, e.encryptChunk a payload out = ⟨.ok (), e.afterChunk a payload, out ++ chunk⟩) ∧
      (payload = [] → ∀ rest, d.readChunk a (chunk ++ rest) = .ended .marker) ∧
      (payload ≠ [] → ∃ d', InStep (e.afterChunk a payload) d' ∧
        ∀ rest, d.readChunk a (chunk ++ rest) = .more payload d' rest) := by
  obtain ⟨lenData, sealed, hlenData, hsealed, hcall⟩ :=
    VmessChunkEncrypter.encryptChunk_fits ha hlen hfit
  have hsize : lenData.length = d.lengthBytes := by
    rw [ChunkLengthCodec.length_sealLength ha hlenData, ChunkLengthCodec.isAuthenticated_drawPadding,
      hstep.lengthBytes]
  have hread := d.decryptLength_sealLength ha (by rw [hstep.lenCodec]; omega)
    (Nat.lt_succ_of_le hfit) (by rw [hstep.lenCodec]; exact hlenData)
  rw [hstep.lenCodec] at hread
  refine ⟨_, hcall, ?_, ?_⟩
  · intro hempty rest
    rw [if_pos (by rw [hempty]; simp)] at hread
    rw [List.append_assoc]
    exact VmessChunkDecrypter.readChunk_marker hsize hread _
  · intro hne
    have hpos : 0 < payload.length := List.length_pos_iff.mpr hne
    rw [if_neg (by omega)] at hread
    -- the decrypter between the length and the payload
    let d₁ : VmessChunkDecrypter :=
      { d with
        lenCodec := (e.afterChunk a payload).lenCodec
        currentPaddingLen := e.lenCodec.drawPadding.1 }
    have hseal : a.encrypt d₁.payloadCipher (chunkNonce d₁.payloadNonceBase d₁.payloadCount) payload =
        some sealed := by
      rw [← hsealed, ← hstep.payloadCipher, ← hstep.payloadNonceBase, ← hstep.payloadCount]
    have hopen := d₁.decryptChunkPayload_sealed ha hseal
    have hchunk : (sealed ++ List.replicate d₁.currentPaddingLen 0).length =
        payload.length + 16 + e.lenCodec.drawPadding.1 := by
      rw [List.length_append, List.length_replicate, ha.length hseal]
    refine ⟨{ d₁ with payloadCount := d₁.payloadCount + 1 },
      ⟨rfl, hstep.payloadCipher, hstep.payloadNonceBase, ?_, ?_⟩, ?_⟩
    · exact congrArg (· + 1) hstep.payloadCount
    · rw [VmessChunkEncrypter.afterChunk, ChunkLengthCodec.isAuthenticated_sealLength,
        ChunkLengthCodec.isAuthenticated_drawPadding, ← hstep.lengthBytes]
      rfl
    · intro rest
      have hpayload := VmessChunkDecrypter.readPayload_of_ok hopen hne rest
      rw [hchunk] at hpayload
      rw [List.append_assoc, VmessChunkDecrypter.readChunk_length hsize hread (by omega)]
      exact hpayload

end InStep

/-! ### A run -/

/-- What is read of some payloads: those before the first empty one. -/
def recovered (payloads : List (List UInt8)) : List (List UInt8) × ReadEnd :=
  (payloads.takeWhile (· ≠ []), if [] ∈ payloads then .marker else .closed [])

theorem readAll_nil (d : VmessChunkDecrypter) : readAll a d [] = ([], .closed []) := by
  apply readAll_of_ended
  exact if_pos d.lengthBytes_pos

theorem recovered_nil_cons (payloads : List (List UInt8)) :
    recovered ([] :: payloads) = ([], .marker) := by
  simp [recovered]

theorem recovered_cons (hne : payload ≠ []) (payloads : List (List UInt8)) :
    recovered (payload :: payloads) = (payload :: (recovered payloads).1, (recovered payloads).2) := by
  simp [recovered, hne, hne.symm]

namespace ChunkStream

section Step

variable {s : ChunkStream}

theorem step_large (h : VmessChunkEncrypter.u16Max - 16 < payload.length) :
    step a s payload = some s := by
  rw [step, VmessChunkEncrypter.encryptChunk_large h]
  rfl

theorem step_fits (ha : a.Lawful) (hfits : s.Fits payload)
    (hlen : payload.length ≤ VmessChunkEncrypter.u16Max - 16) :
    ∃ s', step a s payload = some s' ∧ s'.sent = s.sent ++ [payload] := by
  obtain ⟨lenData, sealed, -, -, hcall⟩ :=
    VmessChunkEncrypter.encryptChunk_fits ha hlen (hfits hlen)
  refine ⟨_, rfl, ?_⟩
  rw [hcall]
  rfl

end Step

/-- A run appends bytes, and payloads that are read from them. -/
theorem run_recovered (ha : a.Lawful) {s s' : ChunkStream} {payloads : List (List UInt8)}
    (hrun : Run.exec (step a) s payloads = some s') (hfits : Run.Along (step a) Fits s payloads)
    (hstep : InStep s.encrypter d) :
    ∃ wire sent, s'.out = s.out ++ wire ∧ s'.sent = s.sent ++ sent ∧
      readAll a d wire = recovered sent := by
  -- on the calls: the decrypter reads the first chunk, and is in step for the rest
  induction payloads generalizing s d with
  | nil =>
      obtain rfl := Option.some.inj hrun
      exact ⟨[], [], (List.append_nil _).symm, (List.append_nil _).symm, readAll_nil d⟩
  | cons payload payloads ih =>
      obtain ⟨t, ht, hrest⟩ := Run.exec_cons_eq_some.mp hrun
      have hfits' := hfits.2 t ht
      by_cases hlarge : VmessChunkEncrypter.u16Max - 16 < payload.length
      · rw [step_large hlarge] at ht
        obtain rfl := Option.some.inj ht
        exact ih hrest hfits' hstep
      · have hlen := Nat.not_lt.mp hlarge
        obtain ⟨chunk, hcall, hmarker, hmore⟩ := hstep.chunk ha hlen (hfits.1 hlen)
        rw [step, hcall] at ht
        obtain rfl := Option.some.inj ht
        by_cases hempty : payload = []
        · -- what follows the marker is not read
          obtain ⟨d', hstep'⟩ := exists_inStep (s.encrypter.afterChunk a payload)
          obtain ⟨wire, sent, hout, hsent, -⟩ := ih hrest hfits' hstep'
          refine ⟨chunk ++ wire, payload :: sent, ?_, ?_, ?_⟩
          · rw [hout, List.append_assoc]
          · rw [hsent]
            exact List.append_assoc s.sent [payload] sent
          · rw [readAll_of_ended (hmarker hempty wire), hempty, recovered_nil_cons]
        · obtain ⟨d', hstep', hread⟩ := hmore hempty
          obtain ⟨wire, sent, hout, hsent, hrecovered⟩ := ih hrest hfits' hstep'
          refine ⟨chunk ++ wire, payload :: sent, ?_, ?_, ?_⟩
          · rw [hout, List.append_assoc]
          · rw [hsent]
            exact List.append_assoc s.sent [payload] sent
          · rw [readAll_of_more (hread wire), hrecovered, recovered_cons hempty]

/-- **What the calls that succeed have sent is what the decrypter reads**, after
any number of calls of which none that fits into a chunk was refused for its
padding; and a call that fails appends nothing. -/
theorem chunk_stream_round_trip (ha : a.Lawful) (h : Hashes) (key nonce : List UInt8)
    (security option : UInt8) {payloads : List (List UInt8)} {s : ChunkStream}
    (hrun : Run.exec (step a) (new h key nonce security option) payloads = some s)
    (hfits : Run.Along (step a) Fits (new h key nonce security option) payloads) :
    (∀ payload err, (s.encrypter.encryptChunk a payload s.out).result = .error err →
      (s.encrypter.encryptChunk a payload s.out).out = s.out) ∧
    readAll a (.new h key nonce security option) s.out = recovered s.sent := by
  obtain ⟨wire, sent, hout, hsent, hread⟩ :=
    run_recovered ha hrun hfits (inStep_new h key nonce security option)
  refine ⟨fun payload err => VmessChunkEncrypter.out_of_error ha, ?_⟩
  rw [hout, hsent]
  exact hread

/-- Every payload of up to 65456 bytes fits. -/
theorem fits_of_length_le {s : ChunkStream} {payload : List UInt8} (h : payload.length ≤ 65456) :
    s.Fits payload := by
  intro _
  have hpadding := s.encrypter.lenCodec.drawPadding_lt
  rw [VmessChunkEncrypter.u16Max]
  omega

theorem fits_of_large {s : ChunkStream} {payload : List UInt8}
    (h : VmessChunkEncrypter.u16Max - 16 < payload.length) : s.Fits payload :=
  fun hlen => absurd hlen (Nat.not_le.mpr h)

end ChunkStream

/-! ### Two runs -/

/-- AES-128-GCM where a table has its values. -/
def tableAeads (table : List (TableCipher.Entry (VmessCipher × List UInt8))) : Aeads where
  encrypt cipher nonce data := some (TableCipher.encrypt table (cipher, nonce) data)
  decrypt cipher nonce data := TableCipher.decrypt table (cipher, nonce) data

theorem tableAeads_lawful {table : List (TableCipher.Entry (VmessCipher × List UInt8))}
    (h : TableCipher.Valid table) : (tableAeads table).Lawful where
  seals _ _ _ _ := rfl
  length heq := by
    obtain rfl := Option.some.inj heq
    exact TableCipher.length_encrypt h _ _
  opens heq := by
    obtain rfl := Option.some.inj heq
    exact TableCipher.decrypt_encrypt h _ _

def chunkKey : List UInt8 := List.replicate 16 7
def streamNonce : List UInt8 := List.replicate 16 9

/-- Masked lengths with global padding; the hashes are not used. -/
def maskedStream : ChunkStream := .new ⟨fun _ => [], fun _ => []⟩ chunkKey streamNonce 3 0x0c

def maskedDecrypter : VmessChunkDecrypter := .new ⟨fun _ => [], fun _ => []⟩ chunkKey streamNonce 3 0x0c

/-- The stream of masks and paddings at its start. -/
def streamShake : Shake128 :=
  ⟨[1418470936104757591, 11585525410909800344, 8211572671198221006, 3188764504194742982,
      1575376600904618416, 8286649744341706404, 15911620690016334398, 848261080869263649,
      4707287830958709551, 7117632398840013644, 948362981317269743, 12893025594245254461,
      785324228306313817, 9947156056741772544, 7732071350686710154, 15196685127390291534,
      16751461831476183983, 6485271568021592286, 7939998976105485060, 9637852870045574224,
      5697274057922273795, 15725359256645135235, 1591483631545125940, 9958719509938179040,
      8186038108913416936], 0⟩

theorem shake_streamNonce : Shake128.new streamNonce = streamShake := by decide +kernel

/-- A greeting under count 0, and the marker under count 1. -/
def greetingSealed : List (TableCipher.Entry (VmessCipher × List UInt8)) :=
  [⟨(.aesGcm chunkKey, [0, 0, 9, 9, 9, 9, 9, 9, 9, 9, 9, 9]), [104, 105],
      [137, 40, 59, 162, 93, 155, 227, 81, 222, 14, 192, 145, 184, 116, 71, 204, 201, 91]⟩,
    ⟨(.aesGcm chunkKey, [0, 1, 9, 9, 9, 9, 9, 9, 9, 9, 9, 9]), [],
      [113, 39, 23, 213, 176, 6, 144, 112, 4, 53, 219, 174, 84, 246, 171, 120]⟩]

/-- A payload that is too large comes between the two. -/
theorem greeting_recovered : ∃ s, Run.exec (ChunkStream.step (tableAeads greetingSealed)) maskedStream
      [[104, 105], List.replicate 65520 0, []] = some s ∧
    s.sent = [[104, 105], []] ∧
    readAll (tableAeads greetingSealed) maskedDecrypter s.out = ([[104, 105]], .marker) := by
  have ha : (tableAeads greetingSealed).Lawful := tableAeads_lawful (by decide)
  have hlarge : VmessChunkEncrypter.u16Max - 16 < (List.replicate 65520 (0 : UInt8)).length := by
    rw [List.length_replicate]
    decide
  obtain ⟨s₁, h₁, hsent₁⟩ := ChunkStream.step_fits ha (s := maskedStream)
    (ChunkStream.fits_of_length_le (show [104, 105].length ≤ 65456 by decide)) (by decide)
  have h₂ := ChunkStream.step_large (a := tableAeads greetingSealed) (s := s₁) hlarge
  obtain ⟨s₃, h₃, hsent₃⟩ := ChunkStream.step_fits ha (s := s₁)
    (ChunkStream.fits_of_length_le (show [].length ≤ 65456 by decide)) (by decide)
  have hrun : Run.exec (ChunkStream.step (tableAeads greetingSealed)) maskedStream
      [[104, 105], List.replicate 65520 0, []] = some s₃ := by
    rw [Run.exec_cons_eq_some]
    refine ⟨s₁, h₁, ?_⟩
    rw [Run.exec_cons_eq_some]
    refine ⟨s₁, h₂, ?_⟩
    rw [Run.exec_cons_eq_some]
    exact ⟨s₃, h₃, rfl⟩
  have hsent : s₃.sent = [[104, 105], []] := by
    rw [hsent₃, hsent₁]
    rfl
  refine ⟨s₃, hrun, hsent, ?_⟩
  have hread := (ChunkStream.chunk_stream_round_trip ha ⟨fun _ => [], fun _ => []⟩ chunkKey streamNonce
    3 0x0c hrun ?_).2
  · rw [hsent] at hread
    exact hread
  · refine ⟨ChunkStream.fits_of_length_le (by decide), fun s _ => ⟨ChunkStream.fits_of_large hlarge, ?_⟩⟩
    exact fun s _ => ⟨ChunkStream.fits_of_length_le (by decide), fun s _ => trivial⟩

/-- The marker under count 0. -/
def markerSealed : List (TableCipher.Entry (VmessCipher × List UInt8)) :=
  [⟨(.aesGcm chunkKey, [0, 0, 9, 9, 9, 9, 9, 9, 9, 9, 9, 9]), [],
      [131, 127, 86, 137, 88, 203, 97, 21, 179, 142, 168, 93, 213, 241, 161, 75]⟩]

/-- The stream that has drawn a padding for nothing. -/
def refusedStream : ChunkStream :=
  { maskedStream with
    encrypter := { maskedStream.encrypter with
      lenCodec := .masked streamShake.nextU16.2 true } }

/-- The marker that is written then. -/
def lateMarker : List UInt8 :=
  [205, 117, 131, 127, 86, 137, 88, 203, 97, 21, 179, 142, 168, 93, 213, 241, 161, 75] ++
    List.replicate 14 0

/-- A payload of 65519 bytes is permitted, but the padding of 41 bytes is too much. -/
theorem step_refused : ChunkStream.step (tableAeads markerSealed) maskedStream
    (List.replicate 65519 0) = some refusedStream := by
  have hcodec : maskedStream.encrypter.lenCodec = .masked streamShake true :=
    congrArg (ChunkLengthCodec.masked · true) shake_streamNonce
  have hpadding : (ChunkLengthCodec.masked streamShake true).drawPadding.1 = 41 := by decide +kernel
  have hlength : (List.replicate 65519 (0 : UInt8)).length = 65519 := List.length_replicate
  rw [ChunkStream.step, VmessChunkEncrypter.encryptChunk, hlength]
  simp only [hcodec, hpadding]
  rw [if_neg (by decide), if_pos (by decide)]
  rfl

theorem step_lateMarker : ∃ s, ChunkStream.step (tableAeads markerSealed) refusedStream [] = some s ∧
    s.sent = [[]] ∧ s.out = lateMarker := by
  refine ⟨_, rfl, ?_⟩
  decide +kernel

/-- The decrypter takes the marker for a chunk of 28795 bytes. -/
theorem eof_lost_after_refused_chunk : ∃ s, Run.exec (ChunkStream.step (tableAeads markerSealed))
      maskedStream [List.replicate 65519 0, []] = some s ∧
    s.sent = [[]] ∧
    readAll (tableAeads markerSealed) maskedDecrypter s.out = ([], .closed (s.out.drop 2)) ∧
    readAll (tableAeads markerSealed) maskedDecrypter s.out ≠ recovered s.sent := by
  obtain ⟨s, hstep, hsent, hout⟩ := step_lateMarker
  have hrun : Run.exec (ChunkStream.step (tableAeads markerSealed)) maskedStream
      [List.replicate 65519 0, []] = some s := by
    rw [Run.exec_cons_eq_some]
    refine ⟨refusedStream, step_refused, ?_⟩
    rw [Run.exec_cons_eq_some]
    exact ⟨s, hstep, rfl⟩
  have hread : readAll (tableAeads markerSealed) maskedDecrypter s.out =
      ([], .closed (s.out.drop 2)) := by
    have hcodec : maskedDecrypter = { maskedDecrypter with lenCodec := .masked streamShake true } := by
      rw [← shake_streamNonce]
      rfl
    rw [hout, hcodec]
    apply readAll_of_ended
    decide +kernel
  refine ⟨s, hrun, hsent, hread, ?_⟩
  rw [hread, hsent, recovered_nil_cons]
  intro heq
  cases congrArg Prod.snd heq

end Vmess

end Elise
