/-
Elise/Shadowsocks/Aead.lean

The codec of the AEAD ciphers of 2017 (`ShadowsocksDecrypter` and `ShadowsocksEncrypter` in
src/protocol/shadowsocks/crypto.rs).

A chunk is its length and its payload, each sealed under a nonce of its own.  The nonce is a
counter of twelve bytes on both sides, so what is said of it is how far it has been counted: `At`.
-/
import Elise.Lib.Decoder
import Elise.Lib.TableCipher
import Elise.Lib.Wire

namespace Elise

namespace Shadowsocks

namespace Aead

open Net Decoder Chunks

def maxPayloadLen : Nat := 0x3FFF

/-- A cipher under its key (crates `chacha20poly1305` and `aes-gcm`): a text and its tag. -/
structure AeadCipher where
  encrypt : (nonce data : List UInt8) → Option (List UInt8)
  decrypt : (nonce block : List UInt8) → Option (List UInt8)

/-- What is not too long is sealed with a tag of sixteen bytes, and opens again. -/
def AeadCipher.Lawful (c : AeadCipher) : Prop :=
  ∀ nonce data, data.length ≤ maxPayloadLen →
    ∃ block, c.encrypt nonce data = some block ∧ block.length = data.length + 16 ∧
      c.decrypt nonce block = some data

def incrementNonce : List UInt8 → List UInt8
  | [] => []
  | byte :: rest => if byte + 1 ≠ 0 then (byte + 1) :: rest else (byte + 1) :: incrementNonce rest

variable (c : AeadCipher)

def encryptInPlace (nonce buffer : List UInt8) : Except String (List UInt8) :=
  match c.encrypt nonce buffer with
  | none => .error "AEAD encrypt failed"
  | some block => .ok block

def decryptInPlace (nonce buffer : List UInt8) : Except String (List UInt8) :=
  if nonce = List.replicate 12 255 then .error "AEAD nonce exhausted"
  else if buffer.length < 16 then .error "buffer too small for tag"
  else
    match c.decrypt nonce buffer with
    | none => .error "AEAD decrypt failed"
    | some plain => .ok plain

/-! ### The decoder -/

structure ShadowsocksDecrypter where
  readNonce : List UInt8
  payloadLen : Option Nat
  deriving DecidableEq, Repr

namespace ShadowsocksDecrypter

def new : ShadowsocksDecrypter := ⟨List.replicate 12 0, none⟩

/-- The length of a payload, and the nonce behind it. -/
def decryptLength (d : ShadowsocksDecrypter) (block : List UInt8) :
    Except String (Nat × ShadowsocksDecrypter) :=
  match decryptInPlace c d.readNonce block with
  | .error message => .error message
  | .ok plain =>
      let len := (u16At plain 0).toNat
      if maxPayloadLen < len then .error "Payload length exceeds maximum"
      else .ok (len, { d with readNonce := incrementNonce d.readNonce })

/-- The payload, once its length is known. -/
def decodePayload (d : ShadowsocksDecrypter) (len : Nat) (src : List UInt8) :
    Decoder.Answer ShadowsocksDecrypter UInt8 (List UInt8) String :=
  if src.length < len + 16 then .more d src
  else
    match decryptInPlace c d.readNonce (src.take (len + 16)) with
    | .error message => .failed message d (src.drop (len + 16))
    | .ok plain =>
        .frame (plain.take len) ⟨incrementNonce d.readNonce, none⟩ (src.drop (len + 16))

def decode (d : ShadowsocksDecrypter) (src : List UInt8) :
    Decoder.Answer ShadowsocksDecrypter UInt8 (List UInt8) String :=
  match d.payloadLen with
  | some len => d.decodePayload c len src
  | none =>
      if src.length < 18 then .more d src
      else
        match d.decryptLength c (src.take 18) with
        | .error message => .failed message d (src.drop 18)
        | .ok (len, d) => { d with payloadLen := some len }.decodePayload c len (src.drop 18)

end ShadowsocksDecrypter

/-! ### The encoder -/

structure ShadowsocksEncrypter where
  writeNonce : List UInt8
  serverSalt : List UInt8
  saltSent : Bool
  deriving DecidableEq, Repr

/-- What was sealed: the nonce and the piece. -/
abbrev Seal := List UInt8 × List UInt8

namespace ShadowsocksEncrypter

def new (serverSalt : List UInt8) : ShadowsocksEncrypter := ⟨List.replicate 12 0, serverSalt, false⟩

/-- The encoder after a chunk, what it has sealed, and the bytes or an error. -/
structure Sealed where
  encrypter : ShadowsocksEncrypter
  seals : List Seal
  out : Except String (List UInt8)

def encryptChunk (e : ShadowsocksEncrypter) (payload : List UInt8) : Sealed :=
  if maxPayloadLen < payload.length then ⟨e, [], .error "Payload length exceeds maximum"⟩
  else if e.writeNonce.drop 1 = List.replicate 11 255 ∧ 254 ≤ byteAt e.writeNonce 0 then
    ⟨e, [], .error "AEAD nonce exhausted"⟩
  else
    let salt := if e.saltSent then [] else e.serverSalt
    let e := { e with saltSent := true }
    let lenBuf := toBeBytes 2 payload.length
    match encryptInPlace c e.writeNonce lenBuf with
    | .error message => ⟨e, [], .error message⟩
    | .ok len =>
        let first : Seal := (e.writeNonce, lenBuf)
        let e := { e with writeNonce := incrementNonce e.writeNonce }
        match encryptInPlace c e.writeNonce payload with
        | .error message => ⟨e, [first], .error message⟩
        | .ok block =>
            ⟨{ e with writeNonce := incrementNonce e.writeNonce }, [first, (e.writeNonce, payload)],
              .ok (salt ++ len ++ block)⟩

/-- The encoder after a write, what it has sealed, what it has written, and its error. -/
structure Encoded where
  encrypter : ShadowsocksEncrypter
  seals : List Seal
  dst : List UInt8
  error : Option String

def encodeChunks (e : ShadowsocksEncrypter) : List (List UInt8) → Encoded
  | [] => ⟨e, [], [], none⟩
  | payload :: rest =>
      let chunk := e.encryptChunk c payload
      match chunk.out with
      | .error message => ⟨chunk.encrypter, chunk.seals, [], some message⟩
      | .ok out =>
          let more := chunk.encrypter.encodeChunks rest
          ⟨more.encrypter, chunk.seals ++ more.seals, out ++ more.dst, more.error⟩

def encode (e : ShadowsocksEncrypter) (item : List UInt8) : Encoded :=
  e.encodeChunks c (chunks maxPayloadLen item)

/-- One write after the other, also after an error; the error is the first one. -/
def encodeAll (e : ShadowsocksEncrypter) : List (List UInt8) → Encoded
  | [] => ⟨e, [], [], none⟩
  | item :: items =>
      let first := e.encode c item
      let more := first.encrypter.encodeAll items
      ⟨more.encrypter, first.seals ++ more.seals, first.dst ++ more.dst, first.error.or more.error⟩

end ShadowsocksEncrypter

/-! ### The counter -/

/-- The nonce that has been counted `n` times. -/
def counted (n : Nat) : List UInt8 := toLeBytes 12 n

theorem incrementNonce_toLeBytes (len n : Nat) :
    incrementNonce (toLeBytes len n) = toLeBytes len (n + 1) := by
  induction len generalizing n with
  | zero => rfl
  | succ len ih =>
      rw [toLeBytes_succ, toLeBytes_succ, incrementNonce]
      have hbyte : UInt8.ofNat n + 1 = UInt8.ofNat (n + 1) := (UInt8.ofNat_add n 1).symm
      rw [hbyte]
      by_cases hwrap : UInt8.ofNat (n + 1) = 0
      · -- the carry goes on
        have hlast := (ofNat_succ_eq_zero_iff n).mp hwrap
        have hdiv : (n + 1) / 256 = n / 256 + 1 := by omega
        rw [if_neg (not_not.mpr hwrap), ih, hdiv]
      · have hlast : ¬ n % 256 = 255 := fun h => hwrap ((ofNat_succ_eq_zero_iff n).mpr h)
        have hdiv : (n + 1) / 256 = n / 256 := by omega
        rw [if_pos hwrap, hdiv]

theorem incrementNonce_counted (n : Nat) : incrementNonce (counted n) = counted (n + 1) :=
  incrementNonce_toLeBytes 12 n

/-- The encoder stops at the last two nonces. -/
def Exhausted (nonce : List UInt8) : Prop :=
  nonce.drop 1 = List.replicate 11 255 ∧ 254 ≤ byteAt nonce 0

instance (nonce : List UInt8) : Decidable (Exhausted nonce) :=
  inferInstanceAs (Decidable (_ ∧ _))

theorem exhausted_counted {n : Nat} (hn : n < 2 ^ 96) (h : 2 ^ 96 ≤ n + 2) :
    Exhausted (counted n) := by
  obtain rfl | rfl : n = 2 ^ 96 - 2 ∨ n = 2 ^ 96 - 1 := by omega
  · decide
  · decide

/-- The value of a nonce. -/
theorem value_counted {n : Nat} (hn : n < 2 ^ 96) : ofBeBytes (counted n).reverse = n := by
  rw [counted, toLeBytes, List.reverse_reverse, ofBeBytes_toBeBytes_mod]
  exact Nat.mod_eq_of_lt (hn.trans_eq (by norm_num))

theorem not_exhausted_counted {n : Nat} (h : n + 2 < 2 ^ 96) : ¬ Exhausted (counted n) := by
  rintro ⟨hrest, hfirst⟩
  have hvalue := value_counted (show n < 2 ^ 96 by omega)
  have hones : ofBeBytes (List.replicate 11 255) = 2 ^ 88 - 1 := by decide
  rcases hnonce : counted n with - | ⟨first, rest⟩
  · have hlen := length_toLeBytes 12 n
    rw [show toLeBytes 12 n = [] from hnonce] at hlen
    cases hlen
  · rw [hnonce] at hrest hfirst hvalue
    rw [show rest = List.replicate 11 255 from hrest, List.reverse_cons, List.reverse_replicate,
      ofBeBytes_append, hones] at hvalue
    have hbyte : 254 ≤ first.toNat := UInt8.le_iff_toNat_le.mp hfirst
    omega

/-- The decoder refuses the last nonce only. -/
theorem counted_ne_last {n : Nat} (h : n + 1 < 2 ^ 96) : counted n ≠ List.replicate 12 255 := by
  intro hlast
  have hvalue := value_counted (show n < 2 ^ 96 by omega)
  rw [hlast] at hvalue
  have hones : ofBeBytes (List.replicate 12 255).reverse = 2 ^ 96 - 1 := by decide
  omega

/-- The nonces from the `n`-th on. -/
def nonces (n k : Nat) : List (List UInt8) := (List.range k).map fun i => counted (n + i)

theorem nonces_append (n k l : Nat) : nonces n k ++ nonces (n + k) l = nonces n (k + l) := by
  rw [nonces, nonces, nonces, List.range_add, List.map_append, List.map_map]
  congr 1
  apply List.map_congr_left
  intro i _
  rw [Function.comp_apply, Nat.add_assoc]

theorem nodup_nonces {n k : Nat} (h : k ≤ 2 ^ 96) : (nonces n k).Nodup :=
  nodup_leCounters (h.trans (by norm_num))

/-! ### What is sealed -/

variable {c}

namespace ShadowsocksEncrypter

/-- The encoder stands at the `n`-th nonce. -/
structure At (e : ShadowsocksEncrypter) (n : Nat) : Prop where
  nonce : e.writeNonce = counted n
  lt : n < 2 ^ 96

theorem at_new (salt : List UInt8) : (new salt).At 0 := ⟨by rfl, by norm_num⟩

/-- It has come from the `n`-th nonce to a later one, and has sealed under each between them. -/
def Sealing (n : Nat) (e : ShadowsocksEncrypter) (seals : List Seal) : Prop :=
  ∃ k, e.At (n + k) ∧ seals.map Prod.fst = nonces n k

theorem Sealing.trans {n : Nat} {e e' : ShadowsocksEncrypter} {seals seals' : List Seal}
    (h : Sealing n e seals) (h' : ∀ m, e.At m → Sealing m e' seals') :
    Sealing n e' (seals ++ seals') := by
  obtain ⟨k, hat, hseals⟩ := h
  obtain ⟨l, hat', hseals'⟩ := h' _ hat
  refine ⟨k + l, by rwa [← Nat.add_assoc], ?_⟩
  rw [List.map_append, hseals, hseals', nonces_append]

variable {e : ShadowsocksEncrypter} {n : Nat}

theorem At.sealing (h : e.At n) : Sealing n e [] := ⟨0, h, rfl⟩

theorem At.next (h : e.At n) (flag : Bool) (hlt : n + 1 < 2 ^ 96) :
    ShadowsocksEncrypter.At ⟨incrementNonce e.writeNonce, e.serverSalt, flag⟩ (n + 1) :=
  ⟨by rw [h.nonce, incrementNonce_counted], hlt⟩

theorem At.not_exhausted (h : e.At n) (hno : ¬ Exhausted e.writeNonce) : n + 2 < 2 ^ 96 := by
  by_contra hlast
  rw [h.nonce] at hno
  exact hno (exhausted_counted h.lt (by omega))

/-- A chunk is sealed under the next two nonces, or less of it is sealed. -/
theorem At.encryptChunk (h : e.At n) (payload : List UInt8) :
    Sealing n (e.encryptChunk c payload).encrypter (e.encryptChunk c payload).seals := by
  rw [ShadowsocksEncrypter.encryptChunk]
  split
  · exact h.sealing
  · split
    · exact h.sealing
    · rename_i hno
      have hroom := h.not_exhausted hno
      have hsent : ShadowsocksEncrypter.At { e with saltSent := true } n := ⟨h.nonce, h.lt⟩
      simp only
      split
      · exact hsent.sealing
      · have hfirst := hsent.next true (show n + 1 < 2 ^ 96 by omega)
        split
        · exact ⟨1, hfirst, by simp [nonces, h.nonce]⟩
        · refine ⟨2, hfirst.next true (by omega), ?_⟩
          simp [nonces, h.nonce, incrementNonce_counted, List.range_succ]

theorem At.encodeChunks (h : e.At n) (payloads : List (List UInt8)) :
    Sealing n (e.encodeChunks c payloads).encrypter (e.encodeChunks c payloads).seals := by
  induction payloads generalizing e n with
  | nil => exact h.sealing
  | cons payload rest ih =>
      rw [ShadowsocksEncrypter.encodeChunks]
      have hchunk := h.encryptChunk (c := c) payload
      simp only
      split
      · exact hchunk
      · exact hchunk.trans fun m hm => ih hm

/-- **No nonce seals two pieces**, whatever is written, also after an error. -/
theorem At.encodeAll (h : e.At n) (items : List (List UInt8)) :
    Sealing n (e.encodeAll c items).encrypter (e.encodeAll c items).seals := by
  induction items generalizing e n with
  | nil => exact h.sealing
  | cons item items ih =>
      have hitem : Sealing n (e.encode c item).encrypter (e.encode c item).seals :=
        h.encodeChunks (chunks maxPayloadLen item)
      exact hitem.trans fun m hm => ih hm

theorem nodup_seals (c : AeadCipher) (salt : List UInt8) (items : List (List UInt8)) :
    (((new salt).encodeAll c items).seals.map Prod.fst).Nodup := by
  obtain ⟨k, hat, hseals⟩ := (at_new salt).encodeAll (c := c) items
  have hlt := hat.lt
  rw [hseals]
  exact nodup_nonces (by omega)

end ShadowsocksEncrypter

/-! ### What comes in is decoded bit by bit -/

namespace ShadowsocksDecrypter

variable {d : ShadowsocksDecrypter} {len : Nat} {src : List UInt8}

theorem decodePayload_of_lt (c : AeadCipher) (d : ShadowsocksDecrypter)
    (h : src.length < len + 16) : d.decodePayload c len src = .more d src := if_pos h

/-- With the whole block in the buffer the answer is known. -/
theorem decodePayload_extend (d : ShadowsocksDecrypter) (h : len + 16 ≤ src.length)
    (ext : List UInt8) :
    d.decodePayload c len (src ++ ext) = (d.decodePayload c len src).extend ext := by
  have hshort : ¬ src.length < len + 16 := by omega
  have hshort' : ¬ (src ++ ext).length < len + 16 := by
    rw [List.length_append]
    omega
  rw [decodePayload, decodePayload, if_neg hshort, if_neg hshort',
    List.take_append_of_le_length h, List.drop_append_of_le_length h]
  cases decryptInPlace c d.readNonce (src.take (len + 16)) <;> rfl

theorem decodePayload_more {s : ShadowsocksDecrypter} {rest : List UInt8}
    (h : d.decodePayload c len src = .more s rest) :
    src.length < len + 16 ∧ s = d ∧ rest = src := by
  rw [decodePayload] at h
  split at h
  · rename_i hshort
    injection h with hs hrest
    exact ⟨hshort, hs.symm, hrest.symm⟩
  · split at h <;> cases h

theorem decodePayload_frame {f : List UInt8} {s : ShadowsocksDecrypter} {rest : List UInt8}
    (h : d.decodePayload c len src = .frame f s rest) :
    len + 16 ≤ src.length ∧ rest = src.drop (len + 16) := by
  rw [decodePayload] at h
  split at h
  · cases h
  · split at h
    · cases h
    · injection h with _ _ hrest
      exact ⟨by omega, hrest.symm⟩

theorem decode_of_some (h : d.payloadLen = some len) (src : List UInt8) :
    d.decode c src = d.decodePayload c len src := by
  rw [decode, h]

theorem decode_of_lt (hnone : d.payloadLen = none) (h : src.length < 18) :
    d.decode c src = .more d src := by
  rw [decode, hnone]
  exact if_pos h

theorem decode_of_le (hnone : d.payloadLen = none) (h : 18 ≤ src.length) :
    d.decode c src =
      match d.decryptLength c (src.take 18) with
      | .error message => .failed message d (src.drop 18)
      | .ok (len, d) => { d with payloadLen := some len }.decodePayload c len (src.drop 18) := by
  rw [decode, hnone]
  exact if_neg (by omega)

theorem resume_payload (h : d.payloadLen = some len) (src ext : List UInt8) :
    d.decodePayload c len (src ++ ext) = (d.decodePayload c len src).resume (decode c) ext := by
  rcases Nat.lt_or_ge src.length (len + 16) with hshort | hlong
  · rw [decodePayload_of_lt c d hshort, Decoder.Answer.resume, decode_of_some h]
  · rw [decodePayload_extend d hlong ext]
    rcases hans : d.decodePayload c len src with ⟨s, rest⟩ | ⟨f, s, rest⟩ | ⟨e, s, rest⟩
    · have hless := (decodePayload_more hans).1
      omega
    · rfl
    · rfl

theorem resume (d : ShadowsocksDecrypter) (src ext : List UInt8) :
    d.decode c (src ++ ext) = (d.decode c src).resume (decode c) ext := by
  rcases hlen : d.payloadLen with - | len
  · rcases Nat.lt_or_ge src.length 18 with hshort | hlong
    · rw [decode_of_lt hlen hshort, Decoder.Answer.resume]
    · have hlong' : 18 ≤ (src ++ ext).length := by
        rw [List.length_append]
        omega
      rw [decode_of_le hlen hlong, decode_of_le hlen hlong', List.take_append_of_le_length hlong,
        List.drop_append_of_le_length hlong]
      rcases d.decryptLength c (src.take 18) with message | ⟨len, d'⟩
      · rfl
      · exact resume_payload (d := { d' with payloadLen := some len }) rfl (src.drop 18) ext
  · rw [decode_of_some hlen, decode_of_some hlen]
    exact resume_payload hlen src ext

theorem frame_shortens {f : List UInt8} {s : ShadowsocksDecrypter} {rest : List UInt8}
    (h : d.decode c src = .frame f s rest) : rest.length < src.length := by
  rcases hlen : d.payloadLen with - | len
  · rcases Nat.lt_or_ge src.length 18 with hshort | hlong
    · rw [decode_of_lt hlen hshort] at h
      cases h
    · rw [decode_of_le hlen hlong] at h
      rcases hheader : d.decryptLength c (src.take 18) with message | ⟨len, d'⟩
      · rw [hheader] at h
        cases h
      · rw [hheader] at h
        obtain ⟨-, rfl⟩ := decodePayload_frame h
        rw [List.length_drop, List.length_drop]
        omega
  · rw [decode_of_some hlen] at h
    obtain ⟨hlong, rfl⟩ := decodePayload_frame h
    rw [List.length_drop]
    omega

/-- **The decoder does not see where its input is cut.** -/
theorem incremental (c : AeadCipher) : Incremental (decode c) := by
  apply Incremental.of_resume
  · intro d
    rcases hlen : d.payloadLen with - | len
    · exact decode_of_lt hlen (by decide)
    · rw [decode_of_some hlen]
      exact decodePayload_of_lt c d (by rw [List.length_nil]; omega)
  · exact frame_shortens
  · exact resume

end ShadowsocksDecrypter

/-! ### Both sides -/

/-- The decoder at the `n`-th nonce, between two chunks. -/
def decrypterAt (n : Nat) : ShadowsocksDecrypter := ⟨counted n, none⟩

/-- A piece that was sealed under a nonce opens under it, unless it is the last one. -/
theorem decryptInPlace_of_encrypt (hc : c.Lawful) {n : Nat} (hn : n + 1 < 2 ^ 96)
    {data : List UInt8} (hlen : data.length ≤ maxPayloadLen) :
    ∃ block, encryptInPlace c (counted n) data = .ok block ∧ block.length = data.length + 16 ∧
      decryptInPlace c (counted n) block = .ok data := by
  obtain ⟨block, henc, hblock, hdec⟩ := hc (counted n) data hlen
  refine ⟨block, ?_, hblock, ?_⟩
  · rw [encryptInPlace, henc]
  · rw [decryptInPlace, if_neg (counted_ne_last hn), if_neg (by omega), hdec]

/-- A chunk is decoded as what it was, and both sides have counted two nonces. -/
theorem decode_chunk {n : Nat} {payload lenBlock block : List UInt8}
    (hlen : payload.length ≤ maxPayloadLen) (hlenBlock : lenBlock.length = 18)
    (hblock : block.length = payload.length + 16)
    (hopenLen : decryptInPlace c (counted n) lenBlock = .ok (toBeBytes 2 payload.length))
    (hopen : decryptInPlace c (counted (n + 1)) block = .ok payload) :
    (decrypterAt n).decode c (lenBlock ++ block) = .frame payload (decrypterAt (n + 2)) [] := by
  have hshort : payload.length < 2 ^ 16 := lt_of_le_of_lt hlen (by decide)
  have hvalue : (u16At (toBeBytes 2 payload.length) 0).toNat = payload.length := by
    have hread := toNat_u16At_toBeBytes hshort []
    rwa [List.append_nil] at hread
  have hheader : (decrypterAt n).decryptLength c lenBlock =
      .ok (payload.length, ⟨counted (n + 1), none⟩) := by
    rw [ShadowsocksDecrypter.decryptLength, show (decrypterAt n).readNonce = counted n from rfl,
      hopenLen]
    simp only [hvalue]
    rw [if_neg (Nat.not_lt.mpr hlen), incrementNonce_counted]
    rfl
  have hall : 18 ≤ (lenBlock ++ block).length := by
    rw [List.length_append]
    omega
  rw [ShadowsocksDecrypter.decode_of_le rfl hall, List.take_left' hlenBlock,
    List.drop_left' hlenBlock, hheader]
  show ShadowsocksDecrypter.decodePayload c ⟨counted (n + 1), some payload.length⟩ payload.length
    block = _
  rw [ShadowsocksDecrypter.decodePayload, if_neg (by omega), List.take_of_length_le hblock.le,
    List.drop_of_length_le hblock.le, hopen]
  simp only [List.take_length, incrementNonce_counted]
  rfl

namespace ShadowsocksEncrypter

/-- The salt goes in front of the first chunk. -/
def pendingSalt (e : ShadowsocksEncrypter) : List UInt8 := if e.saltSent then [] else e.serverSalt

/-- Payloads were sent in bytes that decode to them, behind the salt if it was pending. -/
def Sent (c : AeadCipher) (n : Nat) (e : ShadowsocksEncrypter) (sent : List (List UInt8))
    (dst : List UInt8) (e' : ShadowsocksEncrypter) : Prop :=
  e'.At (n + 2 * sent.length) ∧
    ∃ body frames, Decodes (ShadowsocksDecrypter.decode c) (decrypterAt n) body frames
        (decrypterAt (n + 2 * sent.length)) ∧
      frames.map Prod.fst = sent ∧
      (e' = e ∧ dst = [] ∧ body = [] ∨ e'.saltSent = true ∧ dst = e.pendingSalt ++ body)

variable {e e' e'' : ShadowsocksEncrypter} {n : Nat} {sent sent' : List (List UInt8)}
  {dst dst' : List UInt8}

theorem sent_nil (h : e.At n) : Sent c n e [] [] e :=
  ⟨h, [], [], decodes_nil _, rfl, .inl ⟨rfl, rfl, rfl⟩⟩

theorem Sent.trans (h : Sent c n e sent dst e') (h' : Sent c (n + 2 * sent.length) e' sent' dst' e'') :
    Sent c n e (sent ++ sent') (dst ++ dst') e'' := by
  obtain ⟨-, body, frames, hdecodes, hframes, hdst⟩ := h
  obtain ⟨hat, body', frames', hdecodes', hframes', hdst'⟩ := h'
  have hcount : n + 2 * sent.length + 2 * sent'.length = n + 2 * (sent ++ sent').length := by
    rw [List.length_append]
    omega
  rw [hcount] at hat hdecodes'
  refine ⟨hat, body ++ body', frames ++ frames', hdecodes.append hdecodes', ?_, ?_⟩
  · rw [List.map_append, hframes, hframes']
  · rcases hdst with ⟨rfl, rfl, rfl⟩ | ⟨hsalt, rfl⟩
    · exact hdst'
    · right
      rcases hdst' with ⟨rfl, rfl, rfl⟩ | ⟨hsalt', rfl⟩
      · exact ⟨hsalt, by rw [List.append_nil, List.append_nil]⟩
      · refine ⟨hsalt', ?_⟩
        rw [pendingSalt, pendingSalt, if_pos hsalt, List.nil_append, List.append_assoc]

/-- **A chunk is sent**, as long as there are nonces. -/
theorem encryptChunk_sent (hc : c.Lawful) (h : e.At n) (hroom : n + 2 < 2 ^ 96)
    {payload : List UInt8} (hlen : payload.length ≤ maxPayloadLen) :
    ∃ out, (e.encryptChunk c payload).out = .ok out ∧
      Sent c n e [payload] out (e.encryptChunk c payload).encrypter := by
  obtain ⟨lenBlock, hlenSeal, hlenBlock, hlenOpen⟩ := decryptInPlace_of_encrypt hc
    (show n + 1 < 2 ^ 96 by omega) (show (toBeBytes 2 payload.length).length ≤ maxPayloadLen by
      rw [length_toBeBytes]
      decide)
  obtain ⟨block, hseal, hblock, hopen⟩ := decryptInPlace_of_encrypt hc
    (show n + 1 + 1 < 2 ^ 96 by omega) hlen
  rw [length_toBeBytes] at hlenBlock
  have hno : ¬ (e.writeNonce.drop 1 = List.replicate 11 255 ∧ 254 ≤ byteAt e.writeNonce 0) := by
    rw [h.nonce]
    exact not_exhausted_counted hroom
  have hdecode := decode_chunk hlen hlenBlock hblock hlenOpen hopen
  rw [encryptChunk, if_neg (Nat.not_lt.mpr hlen), if_neg hno]
  simp only [h.nonce, hlenSeal, incrementNonce_counted, hseal]
  refine ⟨_, rfl, ⟨rfl, hroom⟩, lenBlock ++ block, _,
    (ShadowsocksDecrypter.incremental c).decodes_single hdecode, rfl, .inr ⟨rfl, ?_⟩⟩
  rw [List.append_assoc]
  rfl

/-- At the last nonces nothing is sent. -/
theorem encryptChunk_exhausted (c : AeadCipher) (hno : Exhausted e.writeNonce)
    {payload : List UInt8} (hlen : payload.length ≤ maxPayloadLen) :
    e.encryptChunk c payload = ⟨e, [], .error "AEAD nonce exhausted"⟩ := by
  rw [encryptChunk, if_neg (Nat.not_lt.mpr hlen)]
  exact if_pos hno

/-- The payloads were sent, or the first of them and then the nonces were exhausted. -/
def Wrote (c : AeadCipher) (n : Nat) (e : ShadowsocksEncrypter) (payloads : List (List UInt8))
    (r : Encoded) : Prop :=
  ∃ sent unsent, payloads = sent ++ unsent ∧ Sent c n e sent r.dst r.encrypter ∧
    (r.error = none ∧ unsent = [] ∨
      r.error.isSome ∧ unsent ≠ [] ∧ Exhausted r.encrypter.writeNonce)

theorem At.wrote (hc : c.Lawful) (h : e.At n) {payloads : List (List UInt8)}
    (hlen : ∀ payload ∈ payloads, payload.length ≤ maxPayloadLen) :
    Wrote c n e payloads (e.encodeChunks c payloads) := by
  induction payloads generalizing e n with
  | nil => exact ⟨[], [], rfl, sent_nil h, .inl ⟨rfl, rfl⟩⟩
  | cons payload rest ih =>
      have hpayload := hlen payload List.mem_cons_self
      have hrest : ∀ other ∈ rest, other.length ≤ maxPayloadLen := fun other hmem =>
        hlen other (List.mem_cons_of_mem _ hmem)
      rw [ShadowsocksEncrypter.encodeChunks]
      by_cases hroom : n + 2 < 2 ^ 96
      · obtain ⟨out, hout, hsent⟩ := encryptChunk_sent hc h hroom hpayload
        simp only [hout]
        obtain ⟨sent, unsent, rfl, hmore, hend⟩ := ih hsent.1 hrest
        exact ⟨payload :: sent, unsent, rfl, hsent.trans hmore, hend⟩
      · have hno : Exhausted e.writeNonce := by
          rw [h.nonce]
          exact exhausted_counted h.lt (by omega)
        rw [encryptChunk_exhausted c hno hpayload]
        exact ⟨[], payload :: rest, rfl, sent_nil h, .inr ⟨rfl, List.cons_ne_nil _ _, hno⟩⟩

theorem encode_exhausted (c : AeadCipher) (hno : Exhausted e.writeNonce) (item : List UInt8) :
    (e.encode c item).encrypter = e ∧ (e.encode c item).dst = [] := by
  rw [encode]
  rcases hchunks : chunks maxPayloadLen item with - | ⟨payload, rest⟩
  · exact ⟨rfl, rfl⟩
  · have hpayload : payload.length ≤ maxPayloadLen :=
      (of_mem_chunks (by decide) (hchunks ▸ List.mem_cons_self)).2
    rw [encodeChunks, encryptChunk_exhausted c hno hpayload]
    exact ⟨rfl, rfl⟩

theorem encodeAll_exhausted (c : AeadCipher) (hno : Exhausted e.writeNonce)
    (items : List (List UInt8)) :
    (e.encodeAll c items).encrypter = e ∧ (e.encodeAll c items).dst = [] := by
  induction items with
  | nil => exact ⟨rfl, rfl⟩
  | cons item items ih =>
      obtain ⟨hstay, hnone⟩ := encode_exhausted c hno item
      simp only [encodeAll, hstay, hnone, ih, List.append_nil, and_self]

/-- The chunks of some writes. -/
def pieces (items : List (List UInt8)) : List (List UInt8) := items.flatMap (chunks maxPayloadLen)

theorem At.wrote_all (hc : c.Lawful) (h : e.At n) (items : List (List UInt8)) :
    Wrote c n e (pieces items) (e.encodeAll c items) := by
  induction items generalizing e n with
  | nil => exact ⟨[], [], rfl, sent_nil h, .inl ⟨rfl, rfl⟩⟩
  | cons item items ih =>
      have hsplit : pieces (item :: items) = chunks maxPayloadLen item ++ pieces items := rfl
      have hitem : Wrote c n e (chunks maxPayloadLen item) (e.encode c item) :=
        h.wrote hc fun _ hmem => (of_mem_chunks (by decide) hmem).2
      obtain ⟨sent, unsent, hchunks, hsent, hend⟩ := hitem
      rw [hsplit, hchunks, ShadowsocksEncrypter.encodeAll]
      rcases hend with ⟨hok, rfl⟩ | ⟨herr, hne, hno⟩
      · obtain ⟨sent', unsent', hrest, hsent', hend'⟩ := ih hsent.1
        refine ⟨sent ++ sent', unsent', ?_, hsent.trans hsent', ?_⟩
        · rw [List.append_nil, hrest, List.append_assoc]
        · simp only [hok, Option.none_or]
          exact hend'
      · -- nothing more is sent
        obtain ⟨hstay, hnone⟩ := encodeAll_exhausted c hno items
        refine ⟨sent, unsent ++ pieces items, ?_, ?_, .inr ⟨?_, ?_, ?_⟩⟩
        · rw [List.append_assoc]
        · simp only [hstay, hnone, List.append_nil]
          exact hsent
        · rw [Option.isSome_or, herr, Bool.true_or]
        · simp [hne]
        · simp only [hstay]
          exact hno

theorem flatten_pieces (items : List (List UInt8)) : (pieces items).flatten = items.flatten := by
  induction items with
  | nil => rfl
  | cons item items ih =>
      have hsplit : pieces (item :: items) = chunks maxPayloadLen item ++ pieces items := rfl
      rw [hsplit, List.flatten_append, flatten_chunks (by decide), ih, List.flatten_cons]

/-- **The codec**: what is written is decoded, cut as it may be, as far as there are nonces for
it, and no nonce seals two pieces. -/
theorem aead_codec (hc : c.Lawful) (salt : List UInt8) (items : List (List UInt8)) :
    (((new salt).encodeAll c items).seals.map Prod.fst).Nodup ∧
    ((pieces items).length < 2 ^ 95 → ((new salt).encodeAll c items).error = none) ∧
    ∀ segments : List (List UInt8),
      segments.flatten = ((new salt).encodeAll c items).dst.drop salt.length →
      let o := feedAll (ShadowsocksDecrypter.decode c) ShadowsocksDecrypter.new segments
      o.error = none ∧ o.rest = [] ∧ o.state.payloadLen = none ∧
      ∃ unsent, (o.frames.map Prod.fst).flatten ++ unsent = items.flatten ∧
        (((new salt).encodeAll c items).error = none → unsent = []) := by
  obtain ⟨sent, unsent, hpieces, ⟨hat, body, frames, hdecodes, hframes, hdst⟩, hend⟩ :=
    (at_new salt).wrote_all hc items
  refine ⟨nodup_seals c salt items, ?_, ?_⟩
  · intro hfew
    rcases hend with ⟨hok, -⟩ | ⟨-, hne, hno⟩
    · exact hok
    · have hpos := List.length_pos_of_ne_nil hne
      rw [hpieces, List.length_append] at hfew
      rw [hat.nonce] at hno
      exact absurd hno (not_exhausted_counted (by omega))
  · intro segments hsegments
    have hbody : segments.flatten = body := by
      rw [hsegments]
      rcases hdst with ⟨-, hdst, rfl⟩ | ⟨-, hdst⟩
      · rw [hdst, List.drop_nil]
      · rw [hdst]
        exact List.drop_left
    have hfed := (ShadowsocksDecrypter.incremental c).feedAll_of_decodes hdecodes hbody
    have hstart : decrypterAt 0 = ShadowsocksDecrypter.new := rfl
    rw [hstart] at hfed
    intro o
    show o.error = none ∧ _
    rw [show o = _ from hfed]
    refine ⟨rfl, rfl, rfl, unsent.flatten, ?_, ?_⟩
    · rw [hframes, ← List.flatten_append, ← hpieces, flatten_pieces]
    · intro hok
      rcases hend with ⟨-, rfl⟩ | ⟨herr, -⟩
      · rfl
      · rw [hok] at herr
        cases herr

/-- Two chunks sealed with ChaCha20-Poly1305, under the key that counts from 0 to 31. -/
def sampleSeals : List (TableCipher.Entry (List UInt8)) :=
  [⟨counted 0, [0, 2],
    [24, 186, 4, 171, 72, 242, 117, 169, 242, 67, 180, 60, 60, 30, 27, 253, 230, 224]⟩,
   ⟨counted 1, [104, 105],
    [252, 86, 173, 244, 171, 94, 154, 199, 240, 40, 177, 77, 189, 77, 54, 92, 200, 179]⟩,
   ⟨counted 2, [0, 2],
    [143, 232, 176, 199, 147, 59, 208, 89, 12, 169, 204, 159, 194, 56, 53, 121, 131, 92]⟩,
   ⟨counted 3, [111, 107],
    [147, 122, 76, 168, 76, 161, 6, 82, 89, 120, 239, 232, 194, 138, 111, 231, 101, 130]⟩]

def sampleCipher : AeadCipher where
  encrypt nonce data := some (TableCipher.encrypt sampleSeals nonce data)
  decrypt nonce block := TableCipher.decrypt sampleSeals nonce block

theorem sampleCipher_lawful : sampleCipher.Lawful := by
  have hvalid : TableCipher.Valid sampleSeals := by decide +kernel
  intro nonce data _
  exact ⟨_, rfl, TableCipher.length_encrypt hvalid nonce data,
    TableCipher.decrypt_encrypt hvalid nonce data⟩

def sampleSalt : List UInt8 := List.replicate 32 9

/-- `hi`, nothing, and `ok`. -/
def sampleItems : List (List UInt8) := [[104, 105], [], [111, 107]]

def sampleBytes : List UInt8 := ((new sampleSalt).encodeAll sampleCipher sampleItems).dst.drop 32

/-- The two chunks are decoded from segments that are cut within a length. -/
theorem hi_ok_decoded :
    ((feedAll (ShadowsocksDecrypter.decode sampleCipher) ShadowsocksDecrypter.new
      [sampleBytes.take 7, sampleBytes.drop 7]).frames.map Prod.fst).flatten =
        [104, 105, 111, 107] := by
  obtain ⟨-, hfew, hdecoded⟩ := aead_codec sampleCipher_lawful sampleSalt sampleItems
  have hok := hfew (by decide)
  have hsegments : [sampleBytes.take 7, sampleBytes.drop 7].flatten =
      ((new sampleSalt).encodeAll sampleCipher sampleItems).dst.drop sampleSalt.length := by
    rw [List.flatten_cons, List.flatten_singleton, List.take_append_drop]
    rfl
  obtain ⟨-, -, -, unsent, hall, hnone⟩ := hdecoded _ hsegments
  rw [hnone hok, List.append_nil] at hall
  exact hall

end ShadowsocksEncrypter

end Aead

end Shadowsocks

end Elise
