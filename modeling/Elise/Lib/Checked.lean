/-
Elise/Lib/Checked.lean

Reads that must stay within a list of bytes.

A computation of type `Option α` is a code fragment that may break: `none` stands for
an access out of bounds, and for a loop that is not done when its fuel is.  `Safe`
says that it does not break.  Whether a composition is safe is told by its parts
(`Safe.bind`), so a reader is gone through as it is written.
-/
import Elise.Lib.Wire

namespace Checked

variable {α β : Type*}

/-- The computation does not break. -/
def Safe (c : Option α) : Prop := ∃ a, c = some a

theorem safe_some (a : α) : Safe (some a) := ⟨a, rfl⟩

theorem Safe.bind {c : Option α} {k : α → Option β} (hc : Safe c) (hk : ∀ a, c = some a → Safe (k a)) :
    Safe (c.bind k) := by
  obtain ⟨a, rfl⟩ := hc
  exact hk a rfl

/-- `bytes[i]`. -/
def index (bytes : List UInt8) (i : Nat) : Option UInt8 := bytes[i]?

/-- `bytes[start..stop]`. -/
def slice (bytes : List UInt8) (start stop : Nat) : Option (List UInt8) :=
  if start ≤ stop ∧ stop ≤ bytes.length then some ((bytes.drop start).take (stop - start)) else none

/-- `u16::from_be_bytes([bytes[i], bytes[i + 1]])`. -/
def u16BeAt (bytes : List UInt8) (i : Nat) : Option Nat :=
  (index bytes i).bind fun hi => (index bytes (i + 1)).map fun lo => Net.ofBeBytes [hi, lo]

/-- `u32::from_be_bytes` of four bytes in a row. -/
def u32BeAt (bytes : List UInt8) (i : Nat) : Option UInt32 :=
  (slice bytes i (i + 4)).map fun field => UInt32.ofNat (Net.ofBeBytes field)

variable {bytes : List UInt8} {i start stop : Nat}

theorem safe_index (h : i < bytes.length) : Safe (index bytes i) := ⟨bytes[i], List.getElem?_eq_getElem h⟩

theorem safe_slice (hle : start ≤ stop) (h : stop ≤ bytes.length) : Safe (slice bytes start stop) :=
  ⟨_, if_pos ⟨hle, h⟩⟩

theorem safe_u16BeAt (h : i + 2 ≤ bytes.length) : Safe (u16BeAt bytes i) := by
  obtain ⟨hi, hhi⟩ := safe_index (show i < bytes.length by omega)
  obtain ⟨lo, hlo⟩ := safe_index (show i + 1 < bytes.length by omega)
  rw [u16BeAt, hhi, Option.bind_some, hlo]
  exact safe_some _

theorem safe_u32BeAt (h : i + 4 ≤ bytes.length) : Safe (u32BeAt bytes i) := by
  obtain ⟨field, hfield⟩ := safe_slice (show i ≤ i + 4 by omega) h
  rw [u32BeAt, hfield]
  exact safe_some _

/-! ### What is read -/

theorem slice_eq_some {field : List UInt8} (h : slice bytes start stop = some field) :
    start ≤ stop ∧ stop ≤ bytes.length ∧ field = (bytes.drop start).take (stop - start) := by
  rw [slice] at h
  split at h
  · rename_i hbounds
    exact ⟨hbounds.1, hbounds.2, (Option.some.inj h).symm⟩
  · cases h

theorem length_of_slice {field : List UInt8} (h : slice bytes start stop = some field) :
    field.length = stop - start := by
  obtain ⟨hle, hstop, rfl⟩ := slice_eq_some h
  rw [List.length_take, List.length_drop]
  omega

/-! ### Bytes behind -/

theorem index_append (ext : List UInt8) (h : i < bytes.length) :
    index (bytes ++ ext) i = index bytes i := List.getElem?_append_left h

theorem slice_append (ext : List UInt8) (h : stop ≤ bytes.length) :
    slice (bytes ++ ext) start stop = slice bytes start stop := by
  rw [slice, slice]
  by_cases hle : start ≤ stop
  · have hlen : stop ≤ (bytes ++ ext).length := by
      rw [List.length_append]
      omega
    rw [if_pos ⟨hle, hlen⟩, if_pos ⟨hle, h⟩, List.drop_append_of_le_length (by omega),
      List.take_append_of_le_length (by rw [List.length_drop]; omega)]
  · rw [if_neg fun hb => hle hb.1, if_neg fun hb => hle hb.1]

theorem u16BeAt_append (ext : List UInt8) (h : i + 2 ≤ bytes.length) :
    u16BeAt (bytes ++ ext) i = u16BeAt bytes i := by
  rw [u16BeAt, u16BeAt, index_append ext (by omega), index_append ext (by omega)]

/-! ### What stands at a position -/

/-- The position is within the bytes, and `rest` is all that stands from there on. -/
structure StandsAt (bytes : List UInt8) (pos : Nat) (rest : List UInt8) : Prop where
  le : pos ≤ bytes.length
  drop : bytes.drop pos = rest

theorem standsAt_append (before rest : List UInt8) : StandsAt (before ++ rest) before.length rest :=
  ⟨by simp, List.drop_left⟩

namespace StandsAt

variable {pos n : Nat} {b : UInt8} {field rest : List UInt8}

theorem length_eq (h : StandsAt bytes pos rest) : bytes.length = pos + rest.length := by
  have hlen := congrArg List.length h.drop
  rw [List.length_drop] at hlen
  have hle := h.le
  omega

theorem index (h : StandsAt bytes pos (b :: rest)) : index bytes pos = some b := by
  rw [Checked.index, ← Nat.add_zero pos, ← List.getElem?_drop, h.drop]
  rfl

theorem skip (h : StandsAt bytes pos (field ++ rest)) : StandsAt bytes (pos + field.length) rest := by
  refine ⟨?_, ?_⟩
  · rw [h.length_eq, List.length_append]
    omega
  · rw [← List.drop_drop, h.drop, List.drop_left]

theorem slice (h : StandsAt bytes pos (field ++ rest)) :
    slice bytes pos (pos + field.length) = some field := by
  have hlen := h.length_eq
  rw [List.length_append] at hlen
  rw [Checked.slice, if_pos ⟨Nat.le_add_right _ _, by omega⟩, h.drop, Nat.add_sub_cancel_left,
    List.take_left]

theorem u16 (h : StandsAt bytes pos (Net.toBeBytes 2 n ++ rest)) (hn : n < 65536) :
    u16BeAt bytes pos = some n := by
  obtain ⟨hi, lo, htwo⟩ : ∃ hi lo, Net.toBeBytes 2 n = [hi, lo] := ⟨_, _, rfl⟩
  have hvalue : Net.ofBeBytes [hi, lo] = n := by
    rw [← htwo]
    exact Net.ofBeBytes_toBeBytes hn
  rw [htwo] at h
  have hnext : StandsAt bytes (pos + [hi].length) (lo :: rest) :=
    StandsAt.skip (show StandsAt bytes pos ([hi] ++ lo :: rest) from h)
  rw [u16BeAt, StandsAt.index h, Option.bind_some, show pos + 1 = pos + [hi].length from rfl, hnext.index, Option.map_some, hvalue]

end StandsAt

/-! ### Lists of fields -/

section

variable (bytes) (visit : (type start len : Nat) → Option (Option α)) (stop)

/-- Go through fields with a type and a length, each of two bytes, up to the first that
`visit` answers for.  A field that does not end before the stop ends the list.  Each
field takes four bytes at least. -/
def walkFields : (fuel pos : Nat) → Option (Option α)
  | 0, pos => if pos + 4 ≤ stop then none else some none
  | fuel + 1, pos =>
      if pos + 4 ≤ stop then
        (u16BeAt bytes pos).bind fun type =>
          (u16BeAt bytes (pos + 2)).bind fun len =>
            if stop < pos + 4 + len then some none
            else
              (visit type (pos + 4) len).bind fun
                | some a => some (some a)
                | none => walkFields fuel (pos + 4 + len)
      else some none

/-- A field with its type and its length, before the stop. -/
structure FieldAt (pos type len : Nat) : Prop where
  type_eq : u16BeAt bytes pos = some type
  len_eq : u16BeAt bytes (pos + 2) = some len
  ends : pos + 4 + len ≤ stop

/-- From one field to the one behind it. -/
def Next (pos pos' : Nat) : Prop := ∃ type len, FieldAt bytes stop pos type len ∧ pos' = pos + 4 + len

end

variable {visit : (type start len : Nat) → Option (Option α)}

/-- **Going through fields is safe** if it is safe to look at each of them. -/
theorem safe_walkFields (hstop : stop ≤ bytes.length)
    (hvisit : ∀ type start len, start + len ≤ stop → Safe (visit type start len)) {fuel pos : Nat}
    (hfuel : stop < pos + 4 * (fuel + 1)) : Safe (walkFields bytes stop visit fuel pos) := by
  induction fuel generalizing pos with
  | zero =>
      rw [walkFields, if_neg (by omega)]
      exact safe_some _
  | succ fuel ih =>
      rw [walkFields]
      split
      · apply (safe_u16BeAt (by omega)).bind
        intro type _
        apply (safe_u16BeAt (by omega)).bind
        intro len _
        split
        · exact safe_some _
        · apply (hvisit type (pos + 4) len (by omega)).bind
          intro answer _
          cases answer with
          | some a => exact safe_some _
          | none => exact ih (by omega)
      · exact safe_some _

/-- What is found was found at a field of the list. -/
theorem found_walkFields {fuel pos : Nat} {a : α}
    (h : walkFields bytes stop visit fuel pos = some (some a)) :
    ∃ at' type len, Relation.ReflTransGen (Next bytes stop) pos at' ∧ FieldAt bytes stop at' type len ∧
      visit type (at' + 4) len = some (some a) := by
  induction fuel generalizing pos with
  | zero =>
      rw [walkFields] at h
      split at h <;> cases h
  | succ fuel ih =>
      rw [walkFields] at h
      split at h
      · obtain ⟨type, htype, h⟩ := Option.bind_eq_some_iff.mp h
        obtain ⟨len, hlen, h⟩ := Option.bind_eq_some_iff.mp h
        split at h
        · cases h
        · rename_i hends
          have hfield : FieldAt bytes stop pos type len := ⟨htype, hlen, by omega⟩
          obtain ⟨answer, hanswer, h⟩ := Option.bind_eq_some_iff.mp h
          cases answer with
          | some b =>
              obtain rfl := Option.some.inj (Option.some.inj h)
              exact ⟨pos, type, len, .refl, hfield, hanswer⟩
          | none =>
              obtain ⟨at', type', len', hreach, hfound⟩ := ih h
              exact ⟨at', type', len', .head ⟨type, len, hfield, rfl⟩ hreach, hfound⟩
      · cases h

end Checked
