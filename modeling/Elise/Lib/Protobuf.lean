/-
Elise/Lib/Protobuf.lean

Messages of Protocol Buffers.

A varint has seven bits in each byte, the least significant first, and at most ten
bytes; bits above 64 are dropped.  A message is a sequence of fields, each behind
a varint with its number and its wire type.  `Message k bytes payloads` says that
the bytes are such a sequence, in which the fields `k` with a length hold the
payloads.
-/
import Mathlib

namespace Protobuf

/-- The bytes of a number, of any length. -/
inductive Base128 : List UInt8 → Nat → Prop
  | last {b : UInt8} : b.toNat < 128 → Base128 [b] b.toNat
  | more {b : UInt8} {bytes : List UInt8} {n : Nat} :
      128 ≤ b.toNat → Base128 bytes n → Base128 (b :: bytes) (b.toNat - 128 + 128 * n)

/-- A varint, which need not be the shortest one. -/
structure Varint (bytes : List UInt8) (v : Nat) : Prop where
  number : ∃ n, Base128 bytes n ∧ v = n % 2 ^ 64
  length : bytes.length ≤ 10

theorem Base128.ne_nil {bytes : List UInt8} {n : Nat} (h : Base128 bytes n) : bytes ≠ [] := by
  cases h <;> exact List.cons_ne_nil _ _

/-- A byte is a varint, if it is the last. -/
theorem varint_byte {b : UInt8} (h : b.toNat < 128) : Varint [b] b.toNat :=
  ⟨⟨b.toNat, .last h, by omega⟩, by simp⟩

/-- Fields, with the payloads of the fields `k`. -/
inductive Message (k : Nat) : List UInt8 → List (List UInt8) → Prop
  | nil : Message k [] []
  | varint {number v : Nat} {tag value rest : List UInt8} {payloads : List (List UInt8)} :
      0 < number → Varint tag (8 * number) → Varint value v → Message k rest payloads →
        Message k (tag ++ (value ++ rest)) payloads
  | fixed64 {number : Nat} {tag value rest : List UInt8} {payloads : List (List UInt8)} :
      0 < number → Varint tag (8 * number + 1) → value.length = 8 → Message k rest payloads →
        Message k (tag ++ (value ++ rest)) payloads
  | sized {number : Nat} {tag len value rest : List UInt8} {payloads : List (List UInt8)} :
      0 < number → Varint tag (8 * number + 2) → Varint len value.length →
        Message k rest payloads →
        Message k (tag ++ (len ++ (value ++ rest)))
          (if number = k then value :: payloads else payloads)
  | group {number : Nat} {tag inner close rest : List UInt8} {hidden payloads : List (List UInt8)} :
      0 < number → Varint tag (8 * number + 3) → Message k inner hidden →
        Varint close (8 * number + 4) → Message k rest payloads →
        Message k (tag ++ (inner ++ (close ++ rest))) payloads
  | fixed32 {number : Nat} {tag value rest : List UInt8} {payloads : List (List UInt8)} :
      0 < number → Varint tag (8 * number + 5) → value.length = 4 → Message k rest payloads →
        Message k (tag ++ (value ++ rest)) payloads

/-- Fields may be followed by others. -/
theorem Message.append {k : Nat} {xs ys : List UInt8} {ps qs : List (List UInt8)}
    (hxs : Message k xs ps) (hys : Message k ys qs) : Message k (xs ++ ys) (ps ++ qs) := by
  induction hxs with
  | nil => exact hys
  | varint hpos htag hvalue _ ih =>
      rw [List.append_assoc, List.append_assoc]
      exact .varint hpos htag hvalue ih
  | fixed64 hpos htag hlen _ ih =>
      rw [List.append_assoc, List.append_assoc]
      exact .fixed64 hpos htag hlen ih
  | @sized number _ _ value _ payloads hpos htag hlen _ ih =>
      have hpayloads : (if number = k then value :: payloads else payloads) ++ qs =
          if number = k then value :: (payloads ++ qs) else payloads ++ qs := by
        split <;> rfl
      rw [hpayloads, List.append_assoc, List.append_assoc, List.append_assoc]
      exact .sized hpos htag hlen ih
  | group hpos htag hinner hclose _ _ ih =>
      rw [List.append_assoc, List.append_assoc, List.append_assoc]
      exact .group hpos htag hinner hclose ih
  | fixed32 hpos htag hlen _ ih =>
      rw [List.append_assoc, List.append_assoc]
      exact .fixed32 hpos htag hlen ih

/-- A field `k` with a length, whose tag is one byte. -/
theorem Message.single {k : Nat} {tag : UInt8} {len payload : List UInt8} (hpos : 0 < k)
    (htag : tag.toNat = 8 * k + 2) (hone : tag.toNat < 128) (hlen : Varint len payload.length) :
    Message k (tag :: (len ++ payload)) [payload] := by
  have htag' : Varint [tag] (8 * k + 2) := by
    rw [← htag]
    exact varint_byte hone
  have hmessage := Message.sized (k := k) hpos htag' hlen .nil
  rw [if_pos rfl, List.append_nil] at hmessage
  exact hmessage

/-- In front there is a tag. -/
theorem Message.tag_of_ne_nil {k : Nat} {bytes : List UInt8} {payloads : List (List UInt8)}
    (h : Message k bytes payloads) (hne : bytes ≠ []) :
    ∃ tag rest v, Varint tag v ∧ 8 ≤ v ∧ bytes = tag ++ rest := by
  cases h with
  | nil => exact absurd rfl hne
  | varint hpos htag _ _ => exact ⟨_, _, _, htag, by omega, rfl⟩
  | fixed64 hpos htag _ _ => exact ⟨_, _, _, htag, by omega, rfl⟩
  | sized hpos htag _ _ => exact ⟨_, _, _, htag, by omega, rfl⟩
  | group hpos htag _ _ _ => exact ⟨_, _, _, htag, by omega, rfl⟩
  | fixed32 hpos htag _ _ => exact ⟨_, _, _, htag, by omega, rfl⟩

/-! ### Messages with all that they hold -/

/-- The value of a field. -/
inductive Value where
  | varint (v : Nat)
  | fixed64 (bytes : List UInt8)
  | sized (payload : List UInt8)
  | fixed32 (bytes : List UInt8)

/-- Bytes that spell these fields with their numbers; there are no groups among them. -/
inductive Fields : List UInt8 → List (Nat × Value) → Prop
  | nil : Fields [] []
  | varint {number v : Nat} {tag value rest : List UInt8} {fields : List (Nat × Value)} :
      0 < number → number < 2 ^ 29 → Varint tag (8 * number) → Varint value v → Fields rest fields →
        Fields (tag ++ (value ++ rest)) ((number, .varint v) :: fields)
  | fixed64 {number : Nat} {tag bytes rest : List UInt8} {fields : List (Nat × Value)} :
      0 < number → number < 2 ^ 29 → Varint tag (8 * number + 1) → bytes.length = 8 → Fields rest fields →
        Fields (tag ++ (bytes ++ rest)) ((number, .fixed64 bytes) :: fields)
  | sized {number : Nat} {tag len payload rest : List UInt8} {fields : List (Nat × Value)} :
      0 < number → number < 2 ^ 29 → Varint tag (8 * number + 2) → Varint len payload.length →
        Fields rest fields →
        Fields (tag ++ (len ++ (payload ++ rest))) ((number, .sized payload) :: fields)
  | fixed32 {number : Nat} {tag bytes rest : List UInt8} {fields : List (Nat × Value)} :
      0 < number → number < 2 ^ 29 → Varint tag (8 * number + 5) → bytes.length = 4 → Fields rest fields →
        Fields (tag ++ (bytes ++ rest)) ((number, .fixed32 bytes) :: fields)

/-- The payload of a field `k` with a length. -/
def sizedAs (k : Nat) : Nat × Value → Option (List UInt8)
  | (number, .sized payload) => if number = k then some payload else none
  | _ => none

/-- The number in a field `k` that is a varint. -/
def varintAs (k : Nat) : Nat × Value → Option Nat
  | (number, .varint v) => if number = k then some v else none
  | _ => none

@[simp] theorem sizedAs_varint (k number v : Nat) : sizedAs k (number, .varint v) = none := rfl

@[simp] theorem varintAs_sized (k number : Nat) (payload : List UInt8) :
    varintAs k (number, .sized payload) = none := rfl

theorem Varint.ne_nil {bytes : List UInt8} {v : Nat} (h : Varint bytes v) : bytes ≠ [] := by
  obtain ⟨n, hn, -⟩ := h.number
  exact hn.ne_nil

end Protobuf
