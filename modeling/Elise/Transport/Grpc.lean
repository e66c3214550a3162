/-
Elise/Transport/Grpc.lean

The read half of the gRPC stream (`GrpcStreamWrapper` in src/transport/grpc.rs).

The data of an HTTP/2 stream is a sequence of messages, each behind a flag and a length.  Out of
a message the payload of a Hunk is taken, if one is found; else the message itself is handed
out.

The length in a Hunk is a varint.  The loop over its bytes puts a digit above those so far by
shifting and a bitwise or, which is an addition modulo 2^64 (`toNat_addDigit`), and reads exactly
the varints of Protocol Buffers, whatever is behind them (`readVarint_append`,
`varint_of_readVarint`).
-/
import Elise.Lib.Poll
import Elise.Lib.Protobuf
import Elise.Lib.Wire

namespace Elise

namespace Transport

open Net Poll

/-! ### Messages -/

/-- Seven bits of each byte; there are ten bytes at most. -/
def readVarintLoop : List UInt8 → (result : UInt64) → (shift i : Nat) → Option (UInt64 × Nat)
  | [], _, _, _ => none
  | b :: bytes, result, shift, i =>
      let result := result ||| ((b &&& 0x7F).toUInt64 <<< UInt64.ofNat shift)
      if b &&& 0x80 = 0 then some (result, i + 1)
      else if 64 < shift + 7 then none
      else readVarintLoop bytes result (shift + 7) (i + 1)

/-- The number, and how many bytes it takes. -/
def readVarint (bytes : List UInt8) : Option (UInt64 × Nat) := readVarintLoop bytes 0 0 0

inductive Decoded where
  | found (payload : List UInt8)
  | missing
  /-- The end of the payload is out of range, and the slice panics. -/
  | panicked
  deriving DecidableEq, Repr

/-- Every byte is taken for a tag, until one is that of a field 1 with a length
that fits. -/
def decodeLoop (bytes : List UInt8) : (fuel cursor : Nat) → Decoded
  | 0, _ => .missing
  | fuel + 1, cursor =>
      if cursor < bytes.length then
        let tag := byteAt bytes cursor
        let cursor := cursor + 1
        let fieldNumber := tag >>> 3
        let wireType := tag &&& 0x07
        if fieldNumber = 1 ∧ wireType = 2 then
          match readVarint (bytes.drop cursor) with
          | none => .missing
          | some (len, lenBytes) =>
              let cursor := cursor + lenBytes
              let end' := cursor + len.toNat
              -- the sum overflows, or wraps to a place before its start
              if 2 ^ 64 ≤ end' then .panicked
              else if end' ≤ bytes.length then .found ((bytes.drop cursor).take len.toNat)
              else decodeLoop bytes fuel cursor
        else decodeLoop bytes fuel cursor
      else .missing

def decodeProtobufHunk (bytes : List UInt8) : Decoded := decodeLoop bytes bytes.length 0

/-! ### The stream -/

/-- What comes of the HTTP/2 stream. -/
inductive Recv where
  | pending
  | chunk (bytes : List UInt8)
  | error
  deriving DecidableEq, Repr

structure GrpcStreamWrapper where
  readBuf : List UInt8
  rawRecvBuf : List UInt8
  deriving DecidableEq, Repr

namespace GrpcStreamWrapper

def new : GrpcStreamWrapper := ⟨[], []⟩

/-- A message at the beginning of the raw buffer, if it is complete, and what is
behind it. -/
def takeMessage (raw : List UInt8) : Option (List UInt8 × List UInt8) :=
  if raw.length < 5 then none
  else
    let msgLen := (u32At raw 1).toNat
    if raw.length < 5 + msgLen then none
    else some ((raw.drop 5).take msgLen, raw.drop (5 + msgLen))

/-- What a message adds to the buffer; `none` if the task panics. -/
def textOf (message : List UInt8) : Option (List UInt8) :=
  match decodeProtobufHunk message with
  | .found payload => some payload
  | .missing => some message
  | .panicked => none

/-- The loop over the complete messages. -/
def unpack : (fuel : Nat) → GrpcStreamWrapper → Option GrpcStreamWrapper
  | 0, s => some s
  | fuel + 1, s =>
      match takeMessage s.rawRecvBuf with
      | none => some s
      | some (message, raw) =>
          match textOf message with
          | none => none
          | some text => unpack fuel ⟨s.readBuf ++ text, raw⟩

def receive (s : GrpcStreamWrapper) (chunk : List UInt8) : Option GrpcStreamWrapper :=
  let s := { s with rawRecvBuf := s.rawRecvBuf ++ chunk }
  unpack s.rawRecvBuf.length s

/-- The loop of `poll_read`; `none` if the task panics. -/
def readLoop (cap : Nat) (stream : List Recv) (s : GrpcStreamWrapper) :
    Option (Result (List UInt8) × GrpcStreamWrapper × List Recv) :=
  if !s.readBuf.isEmpty then
    some (.ready (s.readBuf.take cap), { s with readBuf := s.readBuf.drop cap }, stream)
  else
    match stream with
    | [] => some (.ready [], s, [])
    | .pending :: stream => some (.pending, s, stream)
    | .error :: stream => some (.error, s, stream)
    | .chunk bytes :: stream =>
        match s.receive bytes with
        | none => none
        | some s => readLoop cap stream s

/-- `poll_read` with room for `cap` bytes. -/
def pollRead (r : GrpcStreamWrapper × List Recv) (cap : Nat) :
    Option (Result (List UInt8) × GrpcStreamWrapper × List Recv) :=
  if cap = 0 then some (.ready [], r) else readLoop cap r.2 r.1

end GrpcStreamWrapper

/-! ### Varints -/

open Protobuf

/-- Seven bits are put above those so far. -/
theorem toNat_addDigit {r : UInt64} {k : Nat} (b : UInt8) (hr : r.toNat < 2 ^ (7 * k)) (hk : k < 10) :
    (r ||| ((b &&& 0x7F).toUInt64 <<< UInt64.ofNat (7 * k))).toNat =
      r.toNat + b.toNat % 128 * 2 ^ (7 * k) % 2 ^ 64 := by
  have hshift : (UInt64.ofNat (7 * k)).toNat = 7 * k := UInt64.toNat_ofNat_of_lt' (by
    have : UInt64.size = 2 ^ 64 := rfl
    omega)
  have hlow : (b &&& 0x7F).toNat = b.toNat % 128 := by
    rw [UInt8.toNat_and]
    exact Nat.and_two_pow_sub_one_eq_mod b.toNat 7
  have hsplit : 2 ^ 64 = 2 ^ (64 - 7 * k) * 2 ^ (7 * k) := by
    rw [← Nat.pow_add]
    congr 1
    omega
  rw [UInt64.toNat_or, UInt64.toNat_shiftLeft, UInt8.toNat_toUInt64, hlow, hshift,
    Nat.mod_eq_of_lt (by omega : 7 * k < 64), Nat.shiftLeft_eq]
  rw [hsplit, Nat.mul_mod_mul_right, Nat.or_comm, Nat.mul_comm,
    ← Nat.two_pow_add_eq_or_of_lt hr]
  omega

/-- What the digits so far and those that come are worth. -/
def worth (r : UInt64) (k n : Nat) : Nat := (r.toNat + n * 2 ^ (7 * k)) % 2 ^ 64

theorem worth_addDigit {r : UInt64} {k : Nat} (b : UInt8) (n : Nat) (hr : r.toNat < 2 ^ (7 * k))
    (hk : k < 10) :
    worth (r ||| ((b &&& 0x7F).toUInt64 <<< UInt64.ofNat (7 * k))) (k + 1) n =
      worth r k (b.toNat % 128 + 128 * n) := by
  have hpow : 2 ^ (7 * (k + 1)) = 2 ^ (7 * k) * 128 := by rw [Nat.mul_add, Nat.pow_add]
  rw [worth, worth, toNat_addDigit b hr hk, hpow]
  have hmul : n * (2 ^ (7 * k) * 128) = 128 * n * 2 ^ (7 * k) := by ring
  rw [hmul, Nat.add_mul]
  omega

theorem addDigit_lt {r : UInt64} {k : Nat} (b : UInt8) (hr : r.toNat < 2 ^ (7 * k)) (hk : k < 10) :
    (r ||| ((b &&& 0x7F).toUInt64 <<< UInt64.ofNat (7 * k))).toNat < 2 ^ (7 * (k + 1)) := by
  have hpow : 2 ^ (7 * (k + 1)) = 2 ^ (7 * k) * 128 := by rw [Nat.mul_add, Nat.pow_add]
  have hdigit : b.toNat % 128 * 2 ^ (7 * k) ≤ 127 * 2 ^ (7 * k) :=
    Nat.mul_le_mul_right _ (by omega)
  rw [toNat_addDigit b hr hk, hpow]
  have hmod := Nat.mod_le (b.toNat % 128 * 2 ^ (7 * k)) (2 ^ 64)
  omega

theorem and_high_eq_zero (b : UInt8) : b &&& 0x80 = 0 ↔ b.toNat < 128 := by
  have hall : ∀ n < 256, (UInt8.ofNat n &&& 0x80 = 0 ↔ n < 128) := by decide +kernel
  have hb := hall b.toNat b.toNat_lt
  rwa [UInt8.ofNat_toNat] at hb

theorem toNat_addLast {r : UInt64} {k : Nat} {b : UInt8} (hb : b.toNat < 128)
    (hr : r.toNat < 2 ^ (7 * k)) (hk : k < 10) :
    (r ||| ((b &&& 0x7F).toUInt64 <<< UInt64.ofNat (7 * k))).toNat = worth r k b.toNat := by
  have hdigit : b.toNat % 128 + 128 * 0 = b.toNat := by omega
  have hworth := worth_addDigit b 0 hr hk
  rw [hdigit] at hworth
  rw [← hworth, worth, Nat.zero_mul, Nat.add_zero, Nat.mod_eq_of_lt (UInt64.toNat_lt _)]

/-- A varint is read, whatever is behind it. -/
theorem readVarintLoop_append {bytes : List UInt8} {n : Nat} (h : Base128 bytes n) (rest : List UInt8)
    {r : UInt64} {k : Nat} (hr : r.toNat < 2 ^ (7 * k)) (hk : k + bytes.length ≤ 10) (i : Nat) :
    ∃ v, readVarintLoop (bytes ++ rest) r (7 * k) i = some (v, i + bytes.length) ∧
      v.toNat = worth r k n := by
  induction h generalizing r k i with
  | @last b hb =>
      rw [List.length_singleton] at hk
      refine ⟨r ||| ((b &&& 0x7F).toUInt64 <<< UInt64.ofNat (7 * k)), ?_, ?_⟩
      · show readVarintLoop (b :: rest) r (7 * k) i = _
        rw [readVarintLoop, if_pos ((and_high_eq_zero b).mpr hb)]
        rfl
      · exact toNat_addLast hb hr (by omega)
  | @more b bytes n hb _ ih =>
      rw [List.length_cons] at hk
      have hlt := b.toNat_lt
      have hpos : bytes ≠ [] := Base128.ne_nil ‹_›
      have hlen := List.length_pos_iff.mpr hpos
      obtain ⟨v, hread, hv⟩ := ih (addDigit_lt b hr (by omega)) (by omega) (i + 1)
      refine ⟨v, ?_, ?_⟩
      · rw [List.cons_append, readVarintLoop,
          if_neg (fun hlow => absurd ((and_high_eq_zero b).mp hlow) (by omega)), if_neg (by omega)]
        rw [Nat.mul_add] at hread
        rw [List.length_cons, Nat.add_comm bytes.length 1, ← Nat.add_assoc]
        exact hread
      · rw [hv, worth_addDigit b n hr (by omega), show b.toNat - 128 = b.toNat % 128 by omega]

/-- What is read is a varint. -/
theorem base128_of_readVarintLoop {bytes : List UInt8} {r v : UInt64} {k i j : Nat}
    (hr : r.toNat < 2 ^ (7 * k)) (hk : k < 10)
    (h : readVarintLoop bytes r (7 * k) i = some (v, j)) :
    ∃ len rest n, bytes = len ++ rest ∧ Base128 len n ∧ j = i + len.length ∧
      k + len.length ≤ 10 ∧ v.toNat = worth r k n := by
  induction bytes generalizing r k i with
  | nil => cases h
  | cons b bytes ih =>
      rw [readVarintLoop] at h
      split at h
      · rename_i hlow
        obtain ⟨rfl, rfl⟩ := Prod.mk.inj (Option.some.inj h)
        have hb := (and_high_eq_zero b).mp hlow
        exact ⟨[b], bytes, b.toNat, rfl, .last hb, rfl, hk, toNat_addLast hb hr hk⟩
      · rename_i hhigh
        have hb : 128 ≤ b.toNat := Nat.le_of_not_lt fun hlt => hhigh ((and_high_eq_zero b).mpr hlt)
        have hlt := b.toNat_lt
        split at h
        · cases h
        rw [show 7 * k + 7 = 7 * (k + 1) from rfl] at h
        obtain ⟨len, rest, n, rfl, hlen, rfl, hle, hv⟩ := ih (addDigit_lt b hr hk) (by omega) h
        refine ⟨b :: len, rest, _, rfl, .more hb hlen, ?_, ?_, ?_⟩
        · rw [List.length_cons]
          omega
        · rw [List.length_cons]
          omega
        · rw [hv, worth_addDigit b n hr hk, show b.toNat - 128 = b.toNat % 128 by omega]

theorem worth_zero (n : Nat) : worth 0 0 n = n % 2 ^ 64 := by simp [worth]

/-- **What is read as a varint.** -/
theorem readVarint_append {len : List UInt8} {v : Nat} (h : Varint len v) (rest : List UInt8) :
    ∃ n, readVarint (len ++ rest) = some (n, len.length) ∧ n.toNat = v := by
  obtain ⟨n, hn, rfl⟩ := h.number
  obtain ⟨m, hread, hm⟩ := readVarintLoop_append hn rest (r := 0) (k := 0) (by decide)
    (by have := h.length; omega) 0
  rw [Nat.zero_add] at hread
  exact ⟨m, hread, by rw [hm, worth_zero]⟩

theorem varint_of_readVarint {bytes : List UInt8} {n : UInt64} {j : Nat}
    (h : readVarint bytes = some (n, j)) :
    ∃ len rest, bytes = len ++ rest ∧ j = len.length ∧ Varint len n.toNat := by
  obtain ⟨len, rest, m, hbytes, hlen, hj, hle, hn⟩ :=
    base128_of_readVarintLoop (r := 0) (k := 0) (by decide) (by decide) h
  rw [Nat.zero_add] at hj hle
  exact ⟨len, rest, hbytes, hj, ⟨m, hlen, by rw [hn, worth_zero]⟩, hle⟩

end Transport

end Elise
