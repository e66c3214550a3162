/-
Elise/Vless/Record.lean

The records of VLESS encryption (src/protocol/vless/encryption/aead.rs, and the
headers in xor.rs).

A record is a header with the looks of a TLS record and a text that is sealed
under the next nonce, with the header as additional data.  The nonce counts the
records; the record after the highest nonce is sealed under nonce 0, and then
the key is derived anew from that record.  So no nonce comes twice under a key
(`fresh_pairs`), and the other end opens the records one by one, over every change of
keys (`readRecords_records`).
-/
import Elise.Lib.Run
import Elise.Lib.TableCipher
import Elise.Lib.Wire

namespace Elise

namespace Vless

open Net

/-- The key derivation (kdf.rs, on BLAKE3) and the ciphers (crates `aes-gcm`,
`chacha20poly1305` and `aes`).  A text of a record is far below the length that
the ciphers refuse. -/
structure RecordCrypto where
  deriveKey : (ctx key : List UInt8) → List UInt8
  encrypt : (useAes : Bool) → (key nonce aad text : List UInt8) → List UInt8
  decrypt : (useAes : Bool) → (key nonce aad sealed : List UInt8) → Option (List UInt8)
  encryptBlock : (key block : List UInt8) → List UInt8

/-- What is sealed opens again, and a seal has sixteen bytes of tag. -/
structure RecordCrypto.Lawful (c : RecordCrypto) : Prop where
  decrypt_encrypt : ∀ useAes key nonce aad text,
    c.decrypt useAes key nonce aad (c.encrypt useAes key nonce aad text) = some text
  length_encrypt : ∀ useAes key nonce aad text,
    (c.encrypt useAes key nonce aad text).length = text.length + 16

/-! ### Counters -/

/-- Add one, from the lowest byte. -/
def carry : List UInt8 → List UInt8
  | [] => []
  | b :: bs => if b + 1 ≠ 0 then (b + 1) :: bs else 0 :: carry bs

/-- `increase_nonce`; the counter of AES-CTR counts alike. -/
def increaseNonce (nonce : List UInt8) : List UInt8 := (carry nonce.reverse).reverse

/-- The number in bytes of which the lowest is the first. -/
def ofLeBytes : List UInt8 → Nat
  | [] => 0
  | b :: bs => b.toNat + 256 * ofLeBytes bs

theorem length_carry (bs : List UInt8) : (carry bs).length = bs.length := by
  induction bs with
  | nil => rfl
  | cons b bs ih =>
      rw [carry]
      split
      · rfl
      · rw [List.length_cons, ih, List.length_cons]

theorem length_increaseNonce (nonce : List UInt8) :
    (increaseNonce nonce).length = nonce.length := by
  rw [increaseNonce, List.length_reverse, length_carry, List.length_reverse]

theorem toNat_add_one {b : UInt8} (h : b + 1 ≠ 0) : (b + 1).toNat = b.toNat + 1 := by
  have hlt := b.toNat_lt
  have hne : b.toNat ≠ 255 := by
    intro heq
    apply h
    apply UInt8.toNat_inj.mp
    rw [UInt8.toNat_add, heq]
    rfl
  rw [UInt8.toNat_add]
  exact Nat.mod_eq_of_lt (by show b.toNat + 1 < 256; omega)

theorem toNat_of_add_one {b : UInt8} (h : b + 1 = 0) : b.toNat = 255 := by
  have hlt := b.toNat_lt
  have hsum := congrArg UInt8.toNat h
  rw [UInt8.toNat_add] at hsum
  have hmod : (b.toNat + 1) % 256 = 0 := hsum
  omega

theorem ofLeBytes_lt (bs : List UInt8) : ofLeBytes bs < 256 ^ bs.length := by
  induction bs with
  | nil => simp [ofLeBytes]
  | cons b bs ih =>
      have hlt := b.toNat_lt
      rw [ofLeBytes, List.length_cons, Nat.pow_succ]
      omega

/-- One more, or all zeros after the highest number. -/
theorem ofLeBytes_carry (bs : List UInt8) :
    ofLeBytes (carry bs) =
      if ofLeBytes bs + 1 = 256 ^ bs.length then 0 else ofLeBytes bs + 1 := by
  induction bs with
  | nil => rfl
  | cons b bs ih =>
      have hbs := ofLeBytes_lt bs
      have hlt := b.toNat_lt
      rw [carry, List.length_cons, Nat.pow_succ]
      by_cases hb : b + 1 = 0
      · have h255 := toNat_of_add_one hb
        have hzero : (0 : UInt8).toNat = 0 := rfl
        rw [if_neg (not_not.mpr hb), ofLeBytes, ih, ofLeBytes, h255, hzero]
        by_cases hfull : ofLeBytes bs + 1 = 256 ^ bs.length
        · rw [if_pos hfull, if_pos (by omega)]
        · rw [if_neg hfull, if_neg (by omega)]
          omega
      · have hnext := toNat_add_one hb
        have hsum := (b + 1).toNat_lt
        have hmore : b.toNat + 256 * ofLeBytes bs + 1 ≠ 256 ^ bs.length * 256 := by omega
        rw [if_pos hb, ofLeBytes, ofLeBytes, hnext, if_neg hmore]
        omega

/-- The number of a nonce. -/
def nonceValue (nonce : List UInt8) : Nat := ofLeBytes nonce.reverse

theorem ofLeBytes_inj {xs ys : List UInt8} (hlen : xs.length = ys.length)
    (h : ofLeBytes xs = ofLeBytes ys) : xs = ys := by
  induction xs generalizing ys with
  | nil => exact (List.length_eq_zero_iff.mp hlen.symm).symm
  | cons x xs ih =>
      cases ys with
      | nil => cases hlen
      | cons y ys =>
          rw [ofLeBytes, ofLeBytes] at h
          have hx := x.toNat_lt
          have hy := y.toNat_lt
          rw [ih (Nat.succ.inj hlen) (by omega), UInt8.toNat_inj.mp (show x.toNat = y.toNat by omega)]

theorem nonceValue_inj {m n : List UInt8} (hlen : m.length = n.length)
    (h : nonceValue m = nonceValue n) : m = n := by
  have hrev := ofLeBytes_inj (by rw [List.length_reverse, List.length_reverse, hlen]) h
  exact List.reverse_injective hrev

theorem nonceValue_increaseNonce (nonce : List UInt8) :
    nonceValue (increaseNonce nonce) =
      if nonceValue nonce + 1 = 256 ^ nonce.length then 0 else nonceValue nonce + 1 := by
  rw [nonceValue, increaseNonce, List.reverse_reverse, ofLeBytes_carry, List.length_reverse]
  rfl

/-! ### Headers -/

inductive RecordHeaderError where
  | tooShort
  | invalid (header : List UInt8)
  deriving DecidableEq

/-- `decode_header`. -/
def decodeHeader (h : List UInt8) : Except RecordHeaderError Nat :=
  if h.length < 5 then .error .tooShort
  else
    let l := (byteAt h 3).toNat <<< 8 ||| (byteAt h 4).toNat
    let l := if byteAt h 0 ≠ 23 ∨ byteAt h 1 ≠ 3 ∨ byteAt h 2 ≠ 3 then 0 else l
    if 17 ≤ l ∧ l ≤ 16640 then .ok l else .error (.invalid (h.take 5))

/-- `encode_header`. -/
def encodeHeader (l : Nat) : List UInt8 := [23, 3, 3, UInt8.ofNat (l >>> 8), UInt8.ofNat l]

theorem decodeHeader_encodeHeader {l : Nat} (hlow : 17 ≤ l) (hhigh : l ≤ 16640) :
    decodeHeader (encodeHeader l) = .ok l := by
  have hhi : (UInt8.ofNat (l >>> 8)).toNat = l / 256 := by
    rw [Nat.shiftRight_eq_div_pow, UInt8.toNat_ofNat_of_lt' (by show l / 2 ^ 8 < 256; omega)]
  have hlo : (UInt8.ofNat l).toNat = l % 256 := by simp
  have hlow8 : l % 256 < 2 ^ 8 := Nat.mod_lt l (by decide)
  have hvalue : (l / 256) <<< 8 ||| l % 256 = l := by
    rw [← Nat.shiftLeft_add_eq_or_of_lt hlow8, Nat.shiftLeft_eq]
    omega
  have hbytes : (byteAt (encodeHeader l) 3).toNat <<< 8 ||| (byteAt (encodeHeader l) 4).toNat = l := by
    show (UInt8.ofNat (l >>> 8)).toNat <<< 8 ||| (UInt8.ofNat l).toNat = l
    rw [hhi, hlo, hvalue]
  have hlooks : ¬ (byteAt (encodeHeader l) 0 ≠ 23 ∨ byteAt (encodeHeader l) 1 ≠ 3 ∨
      byteAt (encodeHeader l) 2 ≠ 3) := by
    show ¬ ((23 : UInt8) ≠ 23 ∨ (3 : UInt8) ≠ 3 ∨ (3 : UInt8) ≠ 3)
    decide
  have hlong : ¬ (encodeHeader l).length < 5 := Nat.lt_irrefl 5
  rw [decodeHeader, if_neg hlong]
  simp only [hbytes, if_neg hlooks]
  rw [if_pos ⟨hlow, hhigh⟩]

/-! ### Sealing -/

structure VlessAead where
  key : List UInt8
  nonce : List UInt8
  useAes : Bool
  deriving DecidableEq, Repr

def maxNonce : List UInt8 := List.replicate 12 0xff

namespace VlessAead

variable (c : RecordCrypto)

def new (ctx key : List UInt8) (useAes : Bool) : VlessAead :=
  ⟨c.deriveKey ctx key, List.replicate 12 0, useAes⟩

/-- `seal`: the next nonce, unless one is given. -/
def sealText (a : VlessAead) (explicitNonce : Option (List UInt8)) (text aad : List UInt8) :
    List UInt8 × VlessAead :=
  match explicitNonce with
  | some nonce => (c.encrypt a.useAes a.key nonce aad text, a)
  | none =>
      let a := { a with nonce := increaseNonce a.nonce }
      (c.encrypt a.useAes a.key a.nonce aad text, a)

/-- `open`. -/
def openSealed (a : VlessAead) (explicitNonce : Option (List UInt8)) (sealed aad : List UInt8) :
    Option (List UInt8) × VlessAead :=
  match explicitNonce with
  | some nonce => (c.decrypt a.useAes a.key nonce aad sealed, a)
  | none =>
      let a := { a with nonce := increaseNonce a.nonce }
      (c.decrypt a.useAes a.key a.nonce aad sealed, a)

def isMaxNonce (a : VlessAead) : Bool := a.nonce == maxNonce

end VlessAead

/-! ### Records -/

/-- What both ends of a stream know. -/
structure Secrets where
  unitedKey : List UInt8
  useAes : Bool
  deriving DecidableEq, Repr

section

variable (c : RecordCrypto) (k : Secrets)

/-- The state after a record: the key changes if the nonce was the highest. -/
def rekey (before after : VlessAead) (frame : List UInt8) : VlessAead :=
  if before.isMaxNonce then .new c frame k.unitedKey k.useAes else after

/-- A record, and the state after it. -/
def sealRecord (a : VlessAead) (chunk : List UInt8) : List UInt8 × VlessAead :=
  let header := encodeHeader (chunk.length + 16)
  let (ciphertext, next) := a.sealText c none chunk header
  (header ++ ciphertext, rekey c k a next (header ++ ciphertext))

/-- Open a record, and the state after it. -/
def openRecord (a : VlessAead) (frame : List UInt8) : Option (List UInt8) × VlessAead :=
  let (text, next) := a.openSealed c none (frame.drop 5) (frame.take 5)
  (text, rekey c k a next frame)

/-- The records of some chunks. -/
def records : VlessAead → List (List UInt8) → List UInt8
  | _, [] => []
  | a, chunk :: chunks => (sealRecord c k a chunk).1 ++ records (sealRecord c k a chunk).2 chunks

/-- The state after the records of some chunks. -/
def aeadAfter : VlessAead → List (List UInt8) → VlessAead
  | a, [] => a
  | a, chunk :: chunks => aeadAfter (sealRecord c k a chunk).2 chunks

variable {c}

theorem length_sealRecord (hc : c.Lawful) (a : VlessAead) (chunk : List UInt8) :
    (sealRecord c k a chunk).1.length = 5 + (chunk.length + 16) := by
  show (encodeHeader (chunk.length + 16) ++ c.encrypt _ _ _ _ _).length = _
  rw [List.length_append, hc.length_encrypt]
  rfl

/-- What is sealed opens, and both ends go on from the same state. -/
theorem openRecord_sealRecord (hc : c.Lawful) (a : VlessAead) (chunk : List UInt8) :
    openRecord c k a (sealRecord c k a chunk).1 = (some chunk, (sealRecord c k a chunk).2) := by
  have htake : (sealRecord c k a chunk).1.take 5 = encodeHeader (chunk.length + 16) := rfl
  have hdrop : (sealRecord c k a chunk).1.drop 5 =
      (a.sealText c none chunk (encodeHeader (chunk.length + 16))).1 := rfl
  have hopen : a.openSealed c none (a.sealText c none chunk (encodeHeader (chunk.length + 16))).1
      (encodeHeader (chunk.length + 16)) =
      (some chunk, (a.sealText c none chunk (encodeHeader (chunk.length + 16))).2) :=
    Prod.ext (hc.decrypt_encrypt ..) rfl
  rw [openRecord, htake, hdrop, hopen]
  rfl

/-! ### Fresh nonces -/

variable (c)

/-- The keys and nonces that some chunks are sealed under. -/
def pairs : VlessAead → List (List UInt8) → List (List UInt8 × List UInt8)
  | _, [] => []
  | a, chunk :: chunks => (a.key, increaseNonce a.nonce) :: pairs (sealRecord c k a chunk).2 chunks

/-- The keys, one after the other. -/
def keys : VlessAead → List (List UInt8) → List (List UInt8)
  | a, [] => [a.key]
  | a, chunk :: chunks =>
      let rest := keys (sealRecord c k a chunk).2 chunks
      if a.isMaxNonce then a.key :: rest else rest

variable {c k}

theorem sealRecord_snd (a : VlessAead) (chunk : List UInt8) :
    (sealRecord c k a chunk).2 =
      if a.isMaxNonce then .new c (sealRecord c k a chunk).1 k.unitedKey k.useAes
      else { a with nonce := increaseNonce a.nonce } := rfl

theorem length_nonce_sealRecord {a : VlessAead} (h : a.nonce.length = 12) (chunk : List UInt8) :
    (sealRecord c k a chunk).2.nonce.length = 12 := by
  rw [sealRecord_snd]
  split
  · rfl
  · rw [length_increaseNonce, h]

theorem isMaxNonce_iff {a : VlessAead} (h : a.nonce.length = 12) :
    a.isMaxNonce = true ↔ nonceValue a.nonce + 1 = 256 ^ 12 := by
  have hmax : nonceValue maxNonce + 1 = 256 ^ 12 := by decide
  rw [VlessAead.isMaxNonce, beq_iff_eq]
  constructor
  · intro heq
    rw [heq, hmax]
  · intro hvalue
    exact nonceValue_inj (by rw [h]; rfl) (by omega)

/-- The first key is the one that the sender has. -/
theorem keys_eq_cons (a : VlessAead) (chunks : List (List UInt8)) :
    keys c k a chunks = a.key :: (keys c k a chunks).tail := by
  induction chunks generalizing a with
  | nil => rfl
  | cons chunk chunks ih =>
      rw [keys]
      by_cases hmax : a.isMaxNonce = true
      · rw [if_pos hmax]
        rfl
      · have hkey : (sealRecord c k a chunk).2.key = a.key := by
          rw [sealRecord_snd, if_neg hmax]
        rw [if_neg hmax, ih, hkey]
        rfl

/-- Under the first key, the nonces go up to the highest and end with 0. -/
theorem pairs_bounds {a : VlessAead} (hlen : a.nonce.length = 12) (chunks : List (List UInt8)) :
    ∀ p ∈ pairs c k a chunks,
      (p.1 = a.key ∧ (nonceValue a.nonce < nonceValue p.2 ∨ nonceValue p.2 = 0)) ∨
        p.1 ∈ (keys c k a chunks).tail := by
  induction chunks generalizing a with
  | nil => exact fun p hp => absurd hp List.not_mem_nil
  | cons chunk chunks ih =>
      have hvalue := nonceValue_increaseNonce a.nonce
      rw [hlen] at hvalue
      intro p hp
      rcases List.mem_cons.mp hp with rfl | hp
      · left
        refine ⟨rfl, ?_⟩
        show nonceValue a.nonce < nonceValue (increaseNonce a.nonce) ∨ _
        rw [hvalue]
        split
        · exact .inr rfl
        · exact .inl (Nat.lt_succ_self _)
      · have hrest := ih (length_nonce_sealRecord hlen chunk) p hp
        rw [keys]
        by_cases hmax : a.isMaxNonce = true
        · -- everything after the change is under a later key
          rw [if_pos hmax, List.tail_cons, keys_eq_cons]
          rcases hrest with ⟨hkey, -⟩ | hmem
          · exact .inr (hkey ▸ List.mem_cons_self)
          · exact .inr (List.mem_cons_of_mem _ hmem)
        · rw [if_neg hmax]
          have hmore : nonceValue a.nonce + 1 ≠ 256 ^ 12 := fun h => hmax ((isMaxNonce_iff hlen).mpr h)
          rw [if_neg hmore] at hvalue
          rw [sealRecord_snd, if_neg hmax] at hrest
          rcases hrest with ⟨hkey, hnonce⟩ | hmem
          · refine .inl ⟨hkey, ?_⟩
            rcases hnonce with hlt | hzero
            · rw [hvalue] at hlt
              exact .inl (by omega)
            · exact .inr hzero
          · rw [sealRecord_snd, if_neg hmax]
            exact .inr hmem

/-- **No pair comes twice**, as long as the derived keys differ. -/
theorem fresh_pairs {a : VlessAead} (hlen : a.nonce.length = 12) (chunks : List (List UInt8))
    (hkeys : (keys c k a chunks).Nodup) : (pairs c k a chunks).Nodup := by
  induction chunks generalizing a with
  | nil => exact List.nodup_nil
  | cons chunk chunks ih =>
      have hnext := length_nonce_sealRecord (c := c) (k := k) hlen chunk
      have hvalue := nonceValue_increaseNonce a.nonce
      rw [hlen] at hvalue
      rw [keys] at hkeys
      by_cases hmax : a.isMaxNonce = true
      · rw [if_pos hmax] at hkeys
        obtain ⟨hnot, hrest⟩ := List.nodup_cons.mp hkeys
        refine List.nodup_cons.mpr ⟨?_, ih hnext hrest⟩
        intro hmem
        apply hnot
        rw [keys_eq_cons]
        rcases pairs_bounds hnext chunks _ hmem with ⟨hkey, -⟩ | hlater
        · exact List.mem_cons.mpr (.inl hkey)
        · exact List.mem_cons_of_mem _ hlater
      · rw [if_neg hmax] at hkeys
        have hmore : nonceValue a.nonce + 1 ≠ 256 ^ 12 := fun h => hmax ((isMaxNonce_iff hlen).mpr h)
        rw [if_neg hmore] at hvalue
        refine List.nodup_cons.mpr ⟨?_, ih hnext hkeys⟩
        intro hmem
        rw [sealRecord_snd, if_neg hmax] at hmem hkeys
        rcases pairs_bounds (by rw [length_increaseNonce, hlen]) chunks _ hmem with
          ⟨-, hlt | hzero⟩ | hlater
        · exact absurd hlt (Nat.lt_irrefl _)
        · rw [hvalue] at hzero
          cases hzero
        · rw [keys_eq_cons] at hkeys
          exact (List.nodup_cons.mp hkeys).1 hlater

/-! ### Reading records -/

/-- The reading half of `VlessEncryptionStream`: its state, the bytes that are not opened, and the texts
that have been opened. -/
structure RecordReader where
  peerAead : VlessAead
  readRawBuf : List UInt8
  opened : List (List UInt8)

variable (c k) in
/-- A round of the loop of `poll_read`, if the whole record is in the buffer. -/
def RecordReader.readRecord (r : RecordReader) : Option RecordReader :=
  match decodeHeader r.readRawBuf with
  | .error _ => none
  | .ok payloadLen =>
      if r.readRawBuf.length < 5 + payloadLen then none
      else
        let (text, aead) := openRecord c k r.peerAead (r.readRawBuf.take (5 + payloadLen))
        text.map fun text => ⟨aead, r.readRawBuf.drop (5 + payloadLen), r.opened ++ [text]⟩

variable (c k) in
/-- So many records are read. -/
def RecordReader.readRecords (r : RecordReader) (count : Nat) : Option RecordReader :=
  Run.exec (fun r (_ : Unit) => readRecord c k r) r (List.replicate count ())

/-- Only the first five bytes are looked at. -/
theorem decodeHeader_append {header : List UInt8} (h : header.length = 5) (rest : List UInt8) :
    decodeHeader (header ++ rest) = decodeHeader header := by
  obtain ⟨a, b, d, e, f, rfl⟩ : ∃ a b d e f, header = [a, b, d, e, f] := by
    match header, h with
    | [a, b, d, e, f], _ => exact ⟨a, b, d, e, f, rfl⟩
  have hlong : ¬ ([a, b, d, e, f] ++ rest).length < 5 := by simp
  rw [decodeHeader, decodeHeader, if_neg hlong, if_neg (show ¬ [a, b, d, e, f].length < 5 by simp)]
  rfl

/-- A record is read, whatever is behind it. -/
theorem readRecord_sealRecord (hc : c.Lawful) (a : VlessAead) {chunk : List UInt8} (hpos : 0 < chunk.length)
    (hshort : chunk.length ≤ 8192) (rest : List UInt8) (opened : List (List UInt8)) :
    RecordReader.readRecord c k ⟨a, (sealRecord c k a chunk).1 ++ rest, opened⟩ =
      some ⟨(sealRecord c k a chunk).2, rest, opened ++ [chunk]⟩ := by
  have hlen := length_sealRecord k hc a chunk
  have hheader : decodeHeader ((sealRecord c k a chunk).1 ++ rest) = .ok (chunk.length + 16) := by
    have happend := @decodeHeader_append (encodeHeader (chunk.length + 16)) rfl
      ((a.sealText c none chunk (encodeHeader (chunk.length + 16))).1 ++ rest)
    rw [← List.append_assoc] at happend
    exact happend.trans (decodeHeader_encodeHeader (by omega) (by omega))
  have henough : ¬ ((sealRecord c k a chunk).1 ++ rest).length < 5 + (chunk.length + 16) := by
    rw [List.length_append, hlen]
    omega
  rw [RecordReader.readRecord]
  simp only [hheader]
  rw [if_neg henough, List.take_left' hlen, List.drop_left' hlen, openRecord_sealRecord k hc a chunk]
  rfl

/-- The records of one end are opened by the other, one for each chunk and in order, however often the
key has changed, and then both ends are in the same state.  The writer makes chunks of 1 to 8192 bytes. -/
theorem readRecords_records (hc : c.Lawful) (a : VlessAead) {chunks : List (List UInt8)}
    (hchunks : ∀ chunk ∈ chunks, 0 < chunk.length ∧ chunk.length ≤ 8192) (rest : List UInt8) :
    RecordReader.readRecords c k ⟨a, records c k a chunks ++ rest, []⟩ chunks.length =
      some ⟨aeadAfter c k a chunks, rest, chunks⟩ := by
  suffices hall : ∀ opened, RecordReader.readRecords c k ⟨a, records c k a chunks ++ rest, opened⟩ chunks.length =
      some ⟨aeadAfter c k a chunks, rest, opened ++ chunks⟩ from hall []
  induction chunks generalizing a with
  | nil =>
      intro opened
      rw [List.append_nil]
      rfl
  | cons chunk chunks ih =>
      intro opened
      obtain ⟨hpos, hshort⟩ := hchunks chunk List.mem_cons_self
      have hrest := ih (sealRecord c k a chunk).2 (fun chunk' hmem => hchunks chunk' (List.mem_cons_of_mem _ hmem))
        (opened ++ [chunk])
      rw [List.append_assoc] at hrest
      rw [RecordReader.readRecords, List.length_cons, List.replicate_succ, Run.exec, records, List.append_assoc,
        readRecord_sealRecord hc a hpos hshort]
      exact hrest

end

/-! ### A change of keys -/

def firstKey : List UInt8 :=
  [255, 169, 179, 73, 91, 38, 247, 159, 31, 108, 246, 249, 8, 101, 48, 25, 62, 23, 28, 151, 167, 68,
    112, 219, 18, 82, 194, 218, 242, 170, 188, 29]

def secondKey : List UInt8 :=
  [218, 112, 90, 110, 46, 203, 162, 181, 155, 190, 69, 230, 89, 129, 164, 91, 153, 236, 18, 222, 17,
    109, 246, 105, 118, 127, 196, 17, 142, 250, 245, 42]

/-- The header of both records. -/
def sampleHeader : List UInt8 := [23, 3, 3, 0, 23]

/-- `old key` is sealed with AES-256-GCM under the nonce after the highest, and
`new key` under the next key. -/
def samplePackets : List (TableCipher.Entry (Bool × List UInt8 × List UInt8 × List UInt8)) :=
  [⟨(true, firstKey, [0, 0, 0, 0, 0, 0, 0, 0, 0, 0, 0, 0], sampleHeader),
    [111, 108, 100, 32, 107, 101, 121],
    [81, 188, 95, 127, 138, 253, 214, 72, 161, 26, 88, 242, 29, 234, 186, 207, 92, 13, 91, 72, 153,
      45, 87]⟩,
   ⟨(true, secondKey, [0, 0, 0, 0, 0, 0, 0, 0, 0, 0, 0, 1], sampleHeader),
    [110, 101, 119, 32, 107, 101, 121],
    [169, 57, 172, 17, 37, 249, 219, 108, 121, 251, 155, 255, 212, 86, 104, 41, 91, 141, 224, 251,
      227, 56, 94]⟩]

/-- The key that hides the headers. -/
def maskKey : List UInt8 :=
  [141, 236, 145, 188, 198, 80, 187, 178, 9, 168, 24, 100, 177, 248, 155, 27, 188, 197, 153, 84, 238,
    224, 232, 212, 206, 28, 154, 161, 63, 241, 3, 141]

/-- The block of the numbers from 0 to 15 under this key. -/
def maskBlock : List UInt8 :=
  [83, 179, 232, 230, 180, 103, 50, 159, 13, 207, 84, 89, 249, 27, 53, 100]

/-- For `VLESS` the derived key is that of the headers, and for the last record under the first key it
is the second key.  One block is encrypted. -/
def sampleCrypto : RecordCrypto where
  deriveKey ctx _ := if ctx = [86, 76, 69, 83, 83] then maskKey else secondKey
  encrypt useAes key nonce aad := TableCipher.encrypt samplePackets (useAes, key, nonce, aad)
  decrypt useAes key nonce aad := TableCipher.decrypt samplePackets (useAes, key, nonce, aad)
  encryptBlock _ _ := maskBlock

theorem sampleCrypto_lawful : sampleCrypto.Lawful :=
  ⟨fun _ _ _ _ => TableCipher.decrypt_encrypt (by decide) _,
    fun _ _ _ _ => TableCipher.length_encrypt (by decide) _⟩

def sampleSecrets : Secrets := ⟨List.replicate 96 0x33, true⟩

def lastAead : VlessAead := ⟨firstKey, maxNonce, true⟩

def sampleTexts : List (List UInt8) := [[111, 108, 100, 32, 107, 101, 121], [110, 101, 119, 32, 107, 101, 121]]

theorem fresh_pairs_sample : (pairs sampleCrypto sampleSecrets lastAead sampleTexts).Nodup :=
  fresh_pairs rfl sampleTexts (by decide)

end Vless

end Elise
