/-
Elise/Geo/Fields.lean

What the loops make of a well-formed message (`ProtoReader` in src/geo/dat.rs).

A field that stands at the reader is read in one round, and the reader is then behind it
(`next_field`).  So a loop that goes on after each field folds what it does over the fields
of the message (`Loop.scan_fields`).
-/
import Elise.Geo.Scan

namespace Elise

namespace Geo

open Checked ProtoReader Protobuf

section

variable {buf rest : List UInt8} {pos : Nat}

/-! ### Varints and tags -/

/-- The loop over the bytes of a list is that from a position on. -/
theorem readVarintLoop_of_standsAt {bytes : List UInt8} {rounds k i j : Nat} {r v : UInt64}
    (hk : k + rounds = 10) (hrounds : 0 < rounds) (hat : StandsAt buf pos bytes)
    (h : Transport.readVarintLoop bytes r (7 * k) i = some (v, j)) :
    i ≤ j ∧ readVarintLoop buf rounds r (7 * k) pos = some (some v, pos + (j - i)) := by
  induction bytes generalizing rounds k i r pos with
  | nil => cases h
  | cons b bytes ih =>
      obtain ⟨rounds, rfl⟩ : ∃ n, rounds = n + 1 := ⟨rounds - 1, by omega⟩
      have hlen := hat.length_eq
      rw [List.length_cons] at hlen
      have hnext : StandsAt buf (pos + 1) bytes :=
        StandsAt.skip (show StandsAt buf pos ([b] ++ bytes) from hat)
      rw [Transport.readVarintLoop] at h
      rw [readVarintLoop, if_pos (by omega), hat.index, Option.bind_some]
      dsimp only at h ⊢
      split at h
      · rename_i hlast
        obtain ⟨rfl, rfl⟩ := Prod.mk.inj (Option.some.inj h)
        rw [if_pos hlast]
        exact ⟨Nat.le_succ i, by rw [Nat.add_sub_cancel_left]⟩
      · rename_i hmore
        split at h
        · cases h
        rw [if_neg hmore, if_neg (by omega)]
        have hshift : 7 * k + 7 = 7 * (k + 1) := rfl
        rw [hshift] at h ⊢
        have hk' : k + 1 + rounds = 10 := by omega
        obtain ⟨hle, hread⟩ := ih hk' (by omega) hnext h
        refine ⟨by omega, ?_⟩
        rw [hread]
        congr 2
        omega

theorem readVarint_of_standsAt {len : List UInt8} {v : Nat} (h : Varint len v)
    (hat : StandsAt buf pos (len ++ rest)) :
    readVarint ⟨buf, pos⟩ = some (some (UInt64.ofNat v), ⟨buf, pos + len.length⟩) := by
  obtain ⟨n, hread, hn⟩ := Transport.readVarint_append h rest
  have hvalue : UInt64.ofNat v = n := by rw [← hn, UInt64.ofNat_toNat]
  have hten : 0 + 10 = 10 := rfl
  obtain ⟨-, hloop⟩ := readVarintLoop_of_standsAt hten (by decide) hat hread
  rw [readVarint, show readVarintLoop buf 10 0 0 pos = _ from hloop, hvalue]
  rfl

theorem readTag_of_standsAt {tag : List UInt8} {number w : Nat} (hnumber : number < 2 ^ 29) (hw : w < 8)
    (h : Varint tag (8 * number + w)) (hat : StandsAt buf pos (tag ++ rest)) :
    readTag ⟨buf, pos⟩ =
      some (some (UInt32.ofNat number, UInt8.ofNat w), ⟨buf, pos + tag.length⟩) := by
  have htag : tagOf (UInt64.ofNat (8 * number + w)) = (UInt32.ofNat number, UInt8.ofNat w) := by
    have hvalue : (UInt64.ofNat (8 * number + w)).toNat = 8 * number + w :=
      UInt64.toNat_ofNat_of_lt' (show 8 * number + w < 2 ^ 64 by omega)
    have hnum : (UInt64.ofNat (8 * number + w) >>> 3).toUInt32 = UInt32.ofNat number := by
      apply UInt32.toNat_inj.mp
      rw [UInt64.toNat_toUInt32, UInt64.toNat_shiftRight, hvalue, Nat.shiftRight_eq_div_pow,
        UInt32.toNat_ofNat']
      have hthree : (3 : UInt64).toNat % 64 = 3 := rfl
      rw [hthree]
      omega
    have hwire : (UInt64.ofNat (8 * number + w) &&& 0x07).toUInt8 = UInt8.ofNat w := by
      apply UInt8.toNat_inj.mp
      rw [UInt64.toNat_toUInt8, UInt64.toNat_and, hvalue, UInt8.toNat_ofNat']
      have hseven : (8 * number + w) &&& (0x07 : UInt64).toNat = (8 * number + w) % 2 ^ 3 :=
        Nat.and_two_pow_sub_one_eq_mod _ 3
      rw [hseven]
      omega
    rw [tagOf, hnum, hwire]
  rw [readTag, readVarint_of_standsAt h hat, Option.map_some]
  dsimp only
  rw [Option.map_some, htag]

/-! ### Fields -/

/-- What a loop that wants these fields is given. -/
def readOf (want : UInt32 → UInt8 → Want) : Nat × Value → Field
  | (number, .varint v) =>
      match want (UInt32.ofNat number) 0 with
      | .varint => .varint (some (UInt64.ofNat v))
      | _ => .skipped
  | (number, .sized payload) =>
      match want (UInt32.ofNat number) 2 with
      | .bytes => .bytes (some payload)
      | _ => .skipped
  | _ => .skipped

/-- Bytes are wanted where there is a length, a number where there is a varint. -/
def Proper (want : UInt32 → UInt8 → Want) : Prop :=
  ∀ tag wire, (want tag wire = .bytes → wire = 2) ∧ (want tag wire = .varint → wire = 0)

variable {want : UInt32 → UInt8 → Want}

/-- A tag stands at the reader, and the field behind it. -/
theorem next_of_tag {tag : List UInt8} {number w : Nat} (hnumber : number < 2 ^ 29) (hw : w < 8)
    (htag : Varint tag (8 * number + w)) (hat : StandsAt buf pos (tag ++ rest)) :
    next want ⟨buf, pos⟩ =
      match want (UInt32.ofNat number) (UInt8.ofNat w) with
      | .bytes => (readBytes ⟨buf, pos + tag.length⟩).map fun (b, r) => (some (.bytes b), r)
      | .varint => (readVarint ⟨buf, pos + tag.length⟩).map fun (v, r) => (some (.varint v), r)
      | .skip =>
          (skipField ⟨buf, pos + tag.length⟩ (UInt8.ofNat w)).map fun (_, r) => (some .skipped, r) := by
  rw [next, readTag_of_standsAt hnumber hw htag hat]
  rfl

theorem next_varint (hproper : Proper want) {tag value : List UInt8} {number v : Nat}
    (hnumber : number < 2 ^ 29) (htag : Varint tag (8 * number)) (hvalue : Varint value v)
    (hat : StandsAt buf pos (tag ++ (value ++ rest))) :
    next want ⟨buf, pos⟩ = some (some (readOf want (number, .varint v)),
      ⟨buf, pos + tag.length + value.length⟩) := by
  have hread := readVarint_of_standsAt hvalue hat.skip
  rw [next_of_tag hnumber (by decide : 0 < 8) htag hat, readOf]
  have hzero : UInt8.ofNat 0 = 0 := rfl
  rw [hzero]
  cases hwant : want (UInt32.ofNat number) 0 with
  | bytes => exact absurd ((hproper _ _).1 hwant) (by decide)
  | varint =>
      dsimp only
      rw [hread]
      rfl
  | skip =>
      dsimp only
      rw [skipField, if_pos rfl, hread]
      rfl

/-- A field of fixed length is skipped. -/
theorem next_fixed (hproper : Proper want) {tag bytes : List UInt8} {number w : Nat}
    (hnumber : number < 2 ^ 29) (htag : Varint tag (8 * number + w))
    (hw : w = 1 ∧ bytes.length = 8 ∨ w = 5 ∧ bytes.length = 4)
    (hat : StandsAt buf pos (tag ++ (bytes ++ rest))) :
    next want ⟨buf, pos⟩ = some (some .skipped, ⟨buf, pos + tag.length + bytes.length⟩) := by
  have hlen := hat.skip.length_eq
  rw [List.length_append] at hlen
  rw [next_of_tag hnumber (by omega) htag hat]
  have hskip : skipField ⟨buf, pos + tag.length⟩ (UInt8.ofNat w) =
      some (true, ⟨buf, pos + tag.length + bytes.length⟩) := by
    rcases hw with ⟨rfl, hbytes⟩ | ⟨rfl, hbytes⟩
    · rw [skipField, if_neg (by decide), if_pos (by decide), skipFixed,
        if_pos (by dsimp only; omega), hbytes]
    · rw [skipField, if_neg (by decide), if_neg (by decide), if_neg (by decide), if_pos (by decide),
        skipFixed, if_pos (by dsimp only; omega), hbytes]
  cases hwant : want (UInt32.ofNat number) (UInt8.ofNat w) with
  | bytes =>
      have hwire := (hproper _ _).1 hwant
      rcases hw with ⟨rfl, -⟩ | ⟨rfl, -⟩ <;> exact absurd hwire (by decide)
  | varint =>
      have hwire := (hproper _ _).2 hwant
      rcases hw with ⟨rfl, -⟩ | ⟨rfl, -⟩ <;> exact absurd hwire (by decide)
  | skip =>
      dsimp only
      rw [hskip]
      rfl

/-- A length that fits does not wrap. -/
theorem next_sized (hproper : Proper want) (hbuf : buf.length < 2 ^ 64) {tag len payload : List UInt8}
    {number : Nat} (hnumber : number < 2 ^ 29) (htag : Varint tag (8 * number + 2))
    (hlen : Varint len payload.length) (hat : StandsAt buf pos (tag ++ (len ++ (payload ++ rest)))) :
    next want ⟨buf, pos⟩ = some (some (readOf want (number, .sized payload)),
      ⟨buf, pos + tag.length + len.length + payload.length⟩) := by
  have hread := readVarint_of_standsAt hlen hat.skip
  have hpayload := hat.skip.skip
  have hbound := hpayload.length_eq
  rw [List.length_append] at hbound
  have hvalue : (UInt64.ofNat payload.length).toNat = payload.length :=
    UInt64.toNat_ofNat_of_lt' (show payload.length < 2 ^ 64 by omega)
  have hstop : (pos + tag.length + len.length + payload.length) % 2 ^ 64 =
      pos + tag.length + len.length + payload.length := Nat.mod_eq_of_lt (by omega)
  rw [next_of_tag hnumber (by decide : 2 < 8) htag hat, readOf]
  have htwo : UInt8.ofNat 2 = 2 := rfl
  rw [htwo]
  cases hwant : want (UInt32.ofNat number) 2 with
  | bytes =>
      dsimp only
      rw [readBytes, hread, Option.bind_some]
      dsimp only
      rw [hvalue, hstop, if_neg (by omega), hpayload.slice]
      rfl
  | varint => exact absurd ((hproper _ _).2 hwant) (by decide)
  | skip =>
      dsimp only
      rw [skipField, if_neg (by decide), if_neg (by decide), if_pos rfl, hread, Option.map_some]
      dsimp only
      rw [hvalue, hstop, if_pos (by omega)]
      rfl

/-- **A field that stands at the reader is read in one round.** -/
theorem next_field (hproper : Proper want) (hbuf : buf.length < 2 ^ 64) {bytes : List UInt8}
    {field : Nat × Value} {fields : List (Nat × Value)} (h : Fields bytes (field :: fields))
    (hat : StandsAt buf pos bytes) :
    ∃ pos' rest, next want ⟨buf, pos⟩ = some (some (readOf want field), ⟨buf, pos'⟩) ∧
      rest.length < bytes.length ∧ Fields rest fields ∧ StandsAt buf pos' rest := by
  cases h with
  | @varint number v tag value rest _ hpos hnumber htag hvalue hrest =>
      refine ⟨_, rest, next_varint hproper hnumber htag hvalue hat, ?_, hrest, hat.skip.skip⟩
      have htaglen := List.length_pos_iff.mpr htag.ne_nil
      simp only [List.length_append]
      omega
  | @fixed64 number tag value rest _ hpos hnumber htag hvalue hrest =>
      refine ⟨_, rest, next_fixed hproper hnumber htag (.inl ⟨rfl, hvalue⟩) hat, ?_, hrest, hat.skip.skip⟩
      have htaglen := List.length_pos_iff.mpr htag.ne_nil
      simp only [List.length_append]
      omega
  | @sized number tag len payload rest _ hpos hnumber htag hlen hrest =>
      refine ⟨_, rest, next_sized hproper hbuf hnumber htag hlen hat, ?_, hrest, hat.skip.skip.skip⟩
      have htaglen := List.length_pos_iff.mpr htag.ne_nil
      simp only [List.length_append]
      omega
  | @fixed32 number tag value rest _ hpos hnumber htag hvalue hrest =>
      refine ⟨_, rest, next_fixed hproper hnumber htag (.inr ⟨rfl, hvalue⟩) hat, ?_, hrest, hat.skip.skip⟩
      have htaglen := List.length_pos_iff.mpr htag.ne_nil
      simp only [List.length_append]
      omega

end

/-- **A loop folds what it does over the fields**, if it goes on after each of them. -/
theorem Loop.scan_fields {σ : Type} {l : Loop σ} (hproper : Proper l.want) {buf : List UInt8}
    (hbuf : buf.length < 2 ^ 64) {fields : List (Nat × Value)} (h : Fields buf fields)
    {g : σ → Nat × Value → σ}
    (hg : ∀ acc, ∀ field ∈ fields, ∀ r, l.handle acc (readOf l.want field) r = some (g acc field, true))
    (acc : σ) : l.scan buf acc = some (fields.foldl g acc) := by
  have hall : ∀ (fields : List (Nat × Value)) (fuel pos : Nat) (bytes : List UInt8) (acc : σ),
      (∀ acc, ∀ field ∈ fields, ∀ r, l.handle acc (readOf l.want field) r = some (g acc field, true)) →
      Fields bytes fields → StandsAt buf pos bytes → bytes.length < fuel →
      l.run fuel ⟨buf, pos⟩ acc = some (fields.foldl g acc) := by
    intro fields
    induction fields with
    | nil =>
        intro fuel pos bytes acc _ hfields hat hfuel
        cases hfields
        obtain ⟨fuel, rfl⟩ : ∃ n, fuel = n + 1 := ⟨fuel - 1, by omega⟩
        have hlen := hat.length_eq
        rw [List.length_nil] at hlen
        have heof : isEof ⟨buf, pos⟩ = true := decide_eq_true (by dsimp only; omega)
        rw [run, if_pos heof]
        rfl
    | cons field fields ih =>
        intro fuel pos bytes acc hg hfields hat hfuel
        obtain ⟨fuel, rfl⟩ : ∃ n, fuel = n + 1 := ⟨fuel - 1, by omega⟩
        obtain ⟨pos', rest, hnext, hlt, hrest, hat'⟩ := next_field hproper hbuf hfields hat
        have hlen := hat.length_eq
        have heof : isEof ⟨buf, pos⟩ = false := isEof_eq_false.mpr (by dsimp only; omega)
        rw [run, if_neg (by rw [heof]; exact Bool.false_ne_true), hnext, Option.bind_some]
        dsimp only
        rw [hg acc field (List.mem_cons_self ..), Option.bind_some]
        exact ih fuel pos' rest (g acc field) (fun acc f hf => hg acc f (List.mem_cons_of_mem _ hf)) hrest
          hat' (by omega)
  exact hall fields (buf.length + 1) 0 buf acc hg h ⟨Nat.zero_le _, rfl⟩ (Nat.lt_succ_self _)

end Geo

end Elise
