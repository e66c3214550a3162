/-
Elise/Lib/TableCipher.lean

A cipher with given values at some points.

The laws of a cipher are about all texts, and a run of a program is about a few.
A table cipher has the values of a table at its entries, and elsewhere seals a
text by a tag of sixteen zeros.  As long as no entry has that tag and no nonce
has two entries, it is a cipher: what it seals opens again
(`decrypt_encrypt`).
-/
import Mathlib

namespace TableCipher

structure Entry (ν : Type*) where
  nonce : ν
  plain : List UInt8
  sealed : List UInt8

variable {ν : Type*} [DecidableEq ν]

def zeros : List UInt8 := List.replicate 16 0

def encrypt (table : List (Entry ν)) (nonce : ν) (data : List UInt8) : List UInt8 :=
  match table.find? fun e => e.nonce = nonce ∧ e.plain = data with
  | some e => e.sealed
  | none => data ++ zeros

def decrypt (table : List (Entry ν)) (nonce : ν) (data : List UInt8) : Option (List UInt8) :=
  match table.find? fun e => e.nonce = nonce ∧ e.sealed = data with
  | some e => some e.plain
  | none =>
      let len := data.length - 16
      if 16 ≤ data.length ∧ data.drop len = zeros then some (data.take len) else none

/-- The bytes of a number, in front of others: long texts are written in blocks. -/
def unpack : (len n : Nat) → List UInt8 → List UInt8
  | 0, _, rest => rest
  | len + 1, n, rest => unpack len (n / 256) (UInt8.ofNat n :: rest)

/-- Blocks of 40 bytes, and a last one. -/
def unpackBlocks (blocks : List Nat) (len last : Nat) : List UInt8 :=
  blocks.foldr (unpack 40) (unpack len last [])

structure Valid (table : List (Entry ν)) : Prop where
  nodup : (table.map (·.nonce)).Nodup
  length : ∀ e ∈ table, e.sealed.length = e.plain.length + 16
  tag : ∀ e ∈ table, e.sealed.drop (e.sealed.length - 16) ≠ zeros

instance (table : List (Entry ν)) : Decidable (Valid table) :=
  decidable_of_iff ((table.map (·.nonce)).Nodup ∧
    (∀ e ∈ table, e.sealed.length = e.plain.length + 16) ∧
      ∀ e ∈ table, e.sealed.drop (e.sealed.length - 16) ≠ zeros)
    ⟨fun h => ⟨h.1, h.2.1, h.2.2⟩, fun h => ⟨h.nodup, h.length, h.tag⟩⟩

variable {table : List (Entry ν)}

/-- The text of an entry, or of none. -/
theorem encrypt_cases (table : List (Entry ν)) (nonce : ν) (data : List UInt8) :
    (∃ e ∈ table, e.nonce = nonce ∧ e.plain = data ∧ encrypt table nonce data = e.sealed) ∨
      encrypt table nonce data = data ++ zeros := by
  rw [encrypt]
  split
  · rename_i e hfind
    have hfound := List.find?_some hfind
    simp only [decide_eq_true_eq] at hfound
    exact .inl ⟨e, List.mem_of_find?_eq_some hfind, hfound.1, hfound.2, rfl⟩
  · exact .inr rfl

/-- The entry of a nonce is the only one. -/
theorem Valid.decrypt_sealed (h : Valid table) {e : Entry ν} (he : e ∈ table) :
    decrypt table e.nonce e.sealed = some e.plain := by
  rw [decrypt]
  split
  · rename_i e' hfind
    have hfound := List.find?_some hfind
    simp only [decide_eq_true_eq] at hfound
    rw [List.inj_on_of_nodup_map h.nodup (List.mem_of_find?_eq_some hfind) he hfound.1]
  · rename_i hfind
    rw [List.find?_eq_none] at hfind
    exact absurd (by simp) (hfind e he)

/-- No entry has the tag of zeros. -/
theorem Valid.decrypt_zeros (h : Valid table) (nonce : ν) (data : List UInt8) :
    decrypt table nonce (data ++ zeros) = some data := by
  have hlen : (data ++ zeros).length - 16 = data.length := by simp [zeros]
  have hdrop : (data ++ zeros).drop data.length = zeros := List.drop_left' rfl
  rw [decrypt]
  split
  · rename_i e hfind
    have hfound := List.find?_some hfind
    simp only [decide_eq_true_eq] at hfound
    refine absurd ?_ (h.tag e (List.mem_of_find?_eq_some hfind))
    rw [hfound.2, hlen, hdrop]
  · simp only [hlen, hdrop, and_true]
    rw [if_pos (by simp [zeros]), List.take_left' rfl]

theorem decrypt_encrypt (h : Valid table) (nonce : ν) (data : List UInt8) :
    decrypt table nonce (encrypt table nonce data) = some data := by
  rcases encrypt_cases table nonce data with ⟨e, he, rfl, rfl, heq⟩ | heq
  · rw [heq, h.decrypt_sealed he]
  · rw [heq, h.decrypt_zeros]

theorem length_encrypt (h : Valid table) (nonce : ν) (data : List UInt8) :
    (encrypt table nonce data).length = data.length + 16 := by
  rcases encrypt_cases table nonce data with ⟨e, he, rfl, rfl, heq⟩ | heq
  · rw [heq, h.length e he]
  · rw [heq, List.length_append]
    rfl

end TableCipher
