/-
Elise/Geo/Scan.lean

Reading messages of Protocol Buffers (`ProtoReader` and the loops over fields in src/geo/dat.rs).

A cursor goes over the fields.  What breaks, a slice out of bounds, is `none`.  A position is a
number of 64 bits; a buffer is far shorter, but a length that was read is any number, and the
sum wraps.  Then `read_bytes` breaks, and `skip_field` may go back (`good_iff`).

The loops all go round in the same way: at the end of the buffer they stop, a tag is read, and
without one they stop, too; then the field is read or skipped.  They differ in which fields they
want and in what they do with them (`Loop`).  If every operation of every round is good, each
round goes forward (`Step`), and the loop ends (`Loop.exists_scan`).
-/
import Elise.Lib.Checked
import Elise.Lib.Text
import Elise.Transport.Grpc

namespace Elise

namespace Geo

open Checked

structure ProtoReader where
  buf : List UInt8
  pos : Nat
  deriving DecidableEq

namespace ProtoReader

def new (buf : List UInt8) : ProtoReader := ⟨buf, 0⟩

def isEof (r : ProtoReader) : Bool := r.buf.length ≤ r.pos

/-- The loop of `read_varint`.  The shift reaches 64 in the tenth round. -/
def readVarintLoop (buf : List UInt8) :
    (rounds : Nat) → (result : UInt64) → (shift pos : Nat) → Option (Option UInt64 × Nat)
  | 0, _, _, pos => some (none, pos)
  | rounds + 1, result, shift, pos =>
      if pos < buf.length then
        (index buf pos).bind fun b =>
          let result := result ||| ((b &&& 0x7F).toUInt64 <<< UInt64.ofNat shift)
          if b &&& 0x80 = 0 then some (some result, pos + 1)
          else if 64 ≤ shift + 7 then some (none, pos + 1)
          else readVarintLoop buf rounds result (shift + 7) (pos + 1)
      else some (none, pos)

def readVarint (r : ProtoReader) : Option (Option UInt64 × ProtoReader) :=
  (readVarintLoop r.buf 10 0 0 r.pos).map fun (v, pos) => (v, { r with pos := pos })

/-- The number of a field and its wire type. -/
def tagOf (var : UInt64) : UInt32 × UInt8 := ((var >>> 3).toUInt32, (var &&& 0x07).toUInt8)

def readTag (r : ProtoReader) : Option (Option (UInt32 × UInt8) × ProtoReader) :=
  r.readVarint.map fun (v, r) => (v.map tagOf, r)

def readBytes (r : ProtoReader) : Option (Option (List UInt8) × ProtoReader) :=
  r.readVarint.bind fun
    | (none, r) => some (none, r)
    | (some len, r) =>
        let stop := (r.pos + len.toNat) % 2 ^ 64
        if r.buf.length < stop then some (none, r)
        else (slice r.buf r.pos stop).map fun b => (some b, { r with pos := stop })

/-- Bytes that are no text are as none. -/
def readString (r : ProtoReader) : Option (Option (List Char) × ProtoReader) :=
  r.readBytes.map fun (b, r) => (b.bind Text.fromUtf8, r)

/-- Skip `n` bytes, if they are there; with the length of a buffer this does not wrap. -/
def skipFixed (r : ProtoReader) (n : Nat) : Bool × ProtoReader :=
  if r.pos + n ≤ r.buf.length then (true, { r with pos := r.pos + n }) else (false, r)

def skipField (r : ProtoReader) (wireType : UInt8) : Option (Bool × ProtoReader) :=
  if wireType = 0 then r.readVarint.map fun (v, r) => (v.isSome, r)
  else if wireType = 1 then some (r.skipFixed 8)
  else if wireType = 2 then
    r.readVarint.map fun
      | (none, r) => (false, r)
      | (some len, r) =>
          let stop := (r.pos + len.toNat) % 2 ^ 64
          if stop ≤ r.buf.length then (true, { r with pos := stop }) else (false, r)
  else if wireType = 5 then some (r.skipFixed 4)
  else some (false, r)

/-! ### Operations -/

inductive Op where
  | tag
  | varint
  | bytes
  | skip (wireType : UInt8)

/-- Where an operation leaves the reader. -/
def Op.run (r : ProtoReader) : Op → Option ProtoReader
  | .tag => r.readTag.map Prod.snd
  | .varint => r.readVarint.map Prod.snd
  | .bytes => r.readBytes.map Prod.snd
  | .skip wireType => (r.skipField wireType).map Prod.snd

/-- The operation does not break, nor go back, nor beyond the end. -/
def Good (op : Op) (r : ProtoReader) : Prop :=
  ∃ pos, op.run r = some ⟨r.buf, pos⟩ ∧ r.pos ≤ pos ∧ pos ≤ r.buf.length

/-- A length is read with which the position wraps: for `read_bytes` at all, for
`skip_field` to before where the length stands. -/
def Wraps : Op → ProtoReader → Prop
  | .bytes, r => ∃ len pos, r.readVarint = some (some len, ⟨r.buf, pos⟩) ∧ 2 ^ 64 ≤ pos + len.toNat
  | .skip wireType, r =>
      wireType = 2 ∧ ∃ len pos, r.readVarint = some (some len, ⟨r.buf, pos⟩) ∧
        2 ^ 64 ≤ pos + len.toNat ∧ (pos + len.toNat) % 2 ^ 64 < r.pos
  | _, _ => False

section

variable {r : ProtoReader} {pos : Nat}

/-- The loop ends within the buffer, and has taken a byte if there was one. -/
theorem readVarintLoop_spec (buf : List UInt8) (rounds : Nat) (result : UInt64) (shift pos : Nat)
    (hpos : pos ≤ buf.length) :
    ∃ v pos', readVarintLoop buf rounds result shift pos = some (v, pos') ∧ pos ≤ pos' ∧
      pos' ≤ buf.length ∧ (0 < rounds → pos < buf.length → pos < pos') := by
  induction rounds generalizing result shift pos with
  | zero => exact ⟨none, pos, rfl, Nat.le_refl _, hpos, fun h => absurd h (Nat.lt_irrefl _)⟩
  | succ rounds ih =>
      rw [readVarintLoop]
      split
      · rename_i hlt
        obtain ⟨b, hb⟩ := safe_index hlt
        rw [hb, Option.bind_some]
        dsimp only
        split
        · exact ⟨_, _, rfl, by omega, by omega, fun _ _ => by omega⟩
        split
        · exact ⟨_, _, rfl, by omega, by omega, fun _ _ => by omega⟩
        obtain ⟨v, pos', hread, hle, hlen, -⟩ :=
          ih (result ||| ((b &&& 0x7F).toUInt64 <<< UInt64.ofNat shift)) (shift + 7) (pos + 1) hlt
        exact ⟨v, pos', hread, by omega, hlen, fun _ _ => by omega⟩
      · exact ⟨_, _, rfl, Nat.le_refl _, hpos, fun _ h => absurd h ‹_›⟩

theorem readVarint_spec (hpos : r.pos ≤ r.buf.length) :
    ∃ v pos, r.readVarint = some (v, ⟨r.buf, pos⟩) ∧ r.pos ≤ pos ∧ pos ≤ r.buf.length ∧
      (r.pos < r.buf.length → r.pos < pos) := by
  obtain ⟨v, pos, hread, hle, hlen, hlt⟩ := readVarintLoop_spec r.buf 10 0 0 r.pos hpos
  refine ⟨v, pos, ?_, hle, hlen, hlt (by decide)⟩
  rw [readVarint, hread, Option.map_some]

/-- A tag takes at least a byte. -/
theorem readTag_spec (hpos : r.pos ≤ r.buf.length) :
    ∃ t pos, r.readTag = some (t, ⟨r.buf, pos⟩) ∧ r.pos ≤ pos ∧ pos ≤ r.buf.length ∧
      (r.pos < r.buf.length → r.pos < pos) := by
  obtain ⟨v, pos, hread, hspec⟩ := readVarint_spec hpos
  refine ⟨v.map tagOf, pos, ?_, hspec⟩
  rw [readTag, hread, Option.map_some]

theorem good_skipFixed (hpos : r.pos ≤ r.buf.length) (n : Nat) :
    ∃ pos, (r.skipFixed n).2 = ⟨r.buf, pos⟩ ∧ r.pos ≤ pos ∧ pos ≤ r.buf.length := by
  rw [skipFixed]
  split
  · exact ⟨_, rfl, Nat.le_add_right _ _, ‹_›⟩
  · exact ⟨_, rfl, Nat.le_refl _, hpos⟩

theorem good_bytes_iff (hpos : r.pos ≤ r.buf.length) : Good .bytes r ↔ ¬ Wraps .bytes r := by
  obtain ⟨v, pos, hread, hle, hlen, -⟩ := readVarint_spec hpos
  cases v with
  | none =>
      refine iff_of_true ⟨pos, ?_, hle, hlen⟩ ?_
      · rw [Op.run, readBytes, hread]
        rfl
      · rintro ⟨len, pos', h, -⟩
        rw [hread] at h
        cases h
  | some len =>
      have hlt := len.toNat_lt
      by_cases hwraps : 2 ^ 64 ≤ pos + len.toNat
      · -- the end is before the start, and the slice breaks
        refine iff_of_false ?_ (not_not_intro ⟨len, pos, hread, hwraps⟩)
        rintro ⟨pos', h, -⟩
        have hstop : (pos + len.toNat) % 2 ^ 64 < pos := by omega
        rw [Op.run, readBytes, hread, Option.bind_some] at h
        dsimp only at h
        rw [if_neg (by omega), Checked.slice, if_neg (by omega)] at h
        cases h
      · refine iff_of_true ?_ ?_
        · rw [Good, Op.run, readBytes, hread, Option.bind_some]
          dsimp only
          rw [Nat.mod_eq_of_lt (Nat.lt_of_not_le hwraps)]
          by_cases hstop : r.buf.length < pos + len.toNat
          · rw [if_pos hstop]
            exact ⟨pos, rfl, hle, hlen⟩
          · obtain ⟨b, hb⟩ := safe_slice (Nat.le_add_right pos len.toNat) (Nat.le_of_not_lt hstop)
            rw [if_neg hstop, hb]
            exact ⟨pos + len.toNat, rfl, by omega, by omega⟩
        · rintro ⟨len', pos', h, hge⟩
          rw [hread] at h
          cases h
          exact hwraps hge

theorem good_skip_sized_iff (hpos : r.pos ≤ r.buf.length) : Good (.skip 2) r ↔ ¬ Wraps (.skip 2) r := by
  obtain ⟨v, pos, hread, hle, hlen, -⟩ := readVarint_spec hpos
  have hfield : r.skipField 2 = r.readVarint.map fun
      | (none, r) => (false, r)
      | (some len, r) =>
          let stop := (r.pos + len.toNat) % 2 ^ 64
          if stop ≤ r.buf.length then (true, { r with pos := stop }) else (false, r) := rfl
  cases v with
  | none =>
      refine iff_of_true ⟨pos, ?_, hle, hlen⟩ ?_
      · rw [Op.run, hfield, hread]
        rfl
      · rintro ⟨-, len, pos', h, -⟩
        rw [hread] at h
        cases h
  | some len =>
      have hlt := len.toNat_lt
      have hwraps : Wraps (.skip 2) r ↔ 2 ^ 64 ≤ pos + len.toNat ∧ (pos + len.toNat) % 2 ^ 64 < r.pos := by
        constructor
        · rintro ⟨-, len', pos', h, hge⟩
          rw [hread] at h
          cases h
          exact hge
        · exact fun h => ⟨rfl, len, pos, hread, h⟩
      rw [hwraps, Good, Op.run, hfield, hread, Option.map_some]
      dsimp only
      by_cases hstop : (pos + len.toNat) % 2 ^ 64 ≤ r.buf.length
      · rw [if_pos hstop]
        constructor
        · rintro ⟨pos', h, hle', hlen'⟩
          cases h
          omega
        · intro hnot
          exact ⟨_, rfl, by omega, hstop⟩
      · rw [if_neg hstop]
        refine iff_of_true ⟨pos, rfl, hle, hlen⟩ ?_
        omega

/-- **An operation is good when no length wraps.** -/
theorem good_iff (hpos : r.pos ≤ r.buf.length) (op : Op) : Good op r ↔ ¬ Wraps op r := by
  cases op with
  | tag =>
      obtain ⟨t, pos, hread, hle, hlen, -⟩ := readTag_spec hpos
      refine iff_of_true ⟨pos, ?_, hle, hlen⟩ id
      rw [Op.run, hread, Option.map_some]
  | varint =>
      obtain ⟨v, pos, hread, hle, hlen, -⟩ := readVarint_spec hpos
      refine iff_of_true ⟨pos, ?_, hle, hlen⟩ id
      rw [Op.run, hread, Option.map_some]
  | bytes => exact good_bytes_iff hpos
  | skip wireType =>
      by_cases hsized : wireType = 2
      · subst hsized
        exact good_skip_sized_iff hpos
      · refine iff_of_true ?_ fun h => hsized h.1
        by_cases hvarint : wireType = 0
        · obtain ⟨v, pos, hread, hle, hlen, -⟩ := readVarint_spec hpos
          refine ⟨pos, ?_, hle, hlen⟩
          rw [Op.run, skipField, if_pos hvarint, hread, Option.map_some, Option.map_some]
        by_cases hfixed64 : wireType = 1
        · obtain ⟨pos, hskip, hspec⟩ := good_skipFixed hpos 8
          refine ⟨pos, ?_, hspec⟩
          rw [Op.run, skipField, if_neg hvarint, if_pos hfixed64, Option.map_some, hskip]
        by_cases hfixed32 : wireType = 5
        · obtain ⟨pos, hskip, hspec⟩ := good_skipFixed hpos 4
          refine ⟨pos, ?_, hspec⟩
          rw [Op.run, skipField, if_neg hvarint, if_neg hfixed64, if_neg hsized, if_pos hfixed32,
            Option.map_some, hskip]
        · refine ⟨r.pos, ?_, Nat.le_refl _, hpos⟩
          rw [Op.run, skipField, if_neg hvarint, if_neg hfixed64, if_neg hsized, if_neg hfixed32,
            Option.map_some]

end

end ProtoReader

open ProtoReader

/-! ### Loops -/

/-- What is done with a field. -/
inductive Want where
  | bytes
  | varint
  | skip

def Want.op (wireType : UInt8) : Want → Op
  | .bytes => .bytes
  | .varint => .varint
  | .skip => .skip wireType

inductive Field where
  | bytes (b : Option (List UInt8))
  | varint (v : Option UInt64)
  | skipped

/-- A loop: what it wants, and what it does with a field, the reader being behind it.  It
goes on or breaks off. -/
structure Loop (σ : Type) where
  want : (tag : UInt32) → (wire : UInt8) → Want
  handle : σ → Field → ProtoReader → Option (σ × Bool)

/-- A tag and its field; none without a tag. -/
def next (want : UInt32 → UInt8 → Want) (r : ProtoReader) : Option (Option Field × ProtoReader) :=
  r.readTag.bind fun
    | (none, r) => some (none, r)
    | (some (tag, wire), r) =>
        match want tag wire with
        | .bytes => r.readBytes.map fun (b, r) => (some (.bytes b), r)
        | .varint => r.readVarint.map fun (v, r) => (some (.varint v), r)
        | .skip => (r.skipField wire).map fun (_, r) => (some .skipped, r)

namespace Loop

variable {σ : Type} (l : Loop σ)

def run : (fuel : Nat) → ProtoReader → σ → Option σ
  | 0, _, _ => none
  | fuel + 1, r, acc =>
      if r.isEof then some acc
      else
        (next l.want r).bind fun
          | (none, _) => some acc
          | (some field, r) =>
              (l.handle acc field r).bind fun (acc, goes) =>
                if goes then run fuel r acc else some acc

/-- The loop over a buffer. -/
def scan (buf : List UInt8) (acc : σ) : Option σ := l.run (buf.length + 1) (.new buf) acc

/-! ### Rounds -/

/-- A round that another one follows. -/
def Step (s s' : ProtoReader × σ) : Prop :=
  s.1.isEof = false ∧ ∃ field, next l.want s.1 = some (some field, s'.1) ∧
    l.handle s.2 field s'.1 = some (s'.2, true)

/-- Where a loop over a buffer comes. -/
def Reach (buf : List UInt8) (acc : σ) (s : ProtoReader × σ) : Prop :=
  Relation.ReflTransGen l.Step (.new buf, acc) s

end Loop

/-- The operations of a round. -/
inductive Called (want : UInt32 → UInt8 → Want) (r : ProtoReader) : Op → ProtoReader → Prop
  | tag : Called want r .tag r
  | field {tag : UInt32} {wire : UInt8} {r' : ProtoReader} :
      r.readTag = some (some (tag, wire), r') → Called want r ((want tag wire).op wire) r'

/-- All operations of a loop over a buffer. -/
def Loop.All {σ : Type} (l : Loop σ) (P : Op → ProtoReader → Prop) (buf : List UInt8) (acc : σ) : Prop :=
  ∀ s, l.Reach buf acc s → s.1.isEof = false → ∀ op r, Called l.want s.1 op r → P op r

/-! ### One round -/

section

variable {want : UInt32 → UInt8 → Want} {r r' : ProtoReader} {op : Op}

/-- No operation leaves the buffer, whether it is good or not. -/
theorem within_of_run (h : op.run r = some r') (hpos : r.pos ≤ r.buf.length) :
    r'.buf = r.buf ∧ r'.pos ≤ r'.buf.length := by
  by_cases hwraps : ProtoReader.Wraps op r
  · -- a length wraps: `read_bytes` breaks, `skip_field` goes to a place within the buffer
    cases op with
    | tag => exact hwraps.elim
    | varint => exact hwraps.elim
    | bytes =>
        obtain ⟨len, pos, hread, hge⟩ := hwraps
        have hlt := len.toNat_lt
        rw [Op.run, readBytes, hread, Option.bind_some] at h
        dsimp only at h
        split at h
        · rename_i hstop
          obtain rfl := Option.some.inj h
          obtain ⟨v, pos', hread', -, hlen, -⟩ := readVarint_spec hpos
          rw [hread] at hread'
          cases hread'
          exact ⟨rfl, hlen⟩
        · rw [Checked.slice, if_neg (by omega)] at h
          cases h
    | skip wireType =>
        obtain ⟨rfl, len, pos, hread, -⟩ := hwraps
        obtain ⟨v, pos', hread', -, hlen, -⟩ := readVarint_spec hpos
        rw [hread] at hread'
        cases hread'
        rw [Op.run, skipField, if_neg (by decide), if_neg (by decide), if_pos rfl, hread] at h
        simp only [Option.map_some] at h
        split at h
        · rename_i hstop
          obtain rfl := Option.some.inj h
          exact ⟨rfl, hstop⟩
        · obtain rfl := Option.some.inj h
          exact ⟨rfl, hlen⟩
  · obtain ⟨pos, hrun, -, hlen⟩ := (good_iff hpos op).mpr hwraps
    rw [h] at hrun
    obtain rfl := Option.some.inj hrun
    exact ⟨rfl, hlen⟩

/-- A field is read by the operation that is called for it. -/
theorem of_next {field : Field} (h : next want r = some (some field, r')) :
    ∃ tag wire r₁, r.readTag = some (some (tag, wire), r₁) ∧
      ((want tag wire).op wire).run r₁ = some r' := by
  rw [next] at h
  obtain ⟨⟨t, r₁⟩, htag, h⟩ := Option.bind_eq_some_iff.mp h
  cases t with
  | none => cases h
  | some t =>
      obtain ⟨tag, wire⟩ := t
      refine ⟨tag, wire, r₁, htag, ?_⟩
      dsimp only at h
      cases hwant : want tag wire with
      | bytes =>
          rw [hwant] at h
          obtain ⟨⟨b, r₂⟩, hread, heq⟩ := Option.map_eq_some_iff.mp h
          obtain ⟨-, rfl⟩ := Prod.mk.injEq .. ▸ heq
          rw [Want.op, Op.run, hread, Option.map_some]
      | varint =>
          rw [hwant] at h
          obtain ⟨⟨b, r₂⟩, hread, heq⟩ := Option.map_eq_some_iff.mp h
          obtain ⟨-, rfl⟩ := Prod.mk.injEq .. ▸ heq
          rw [Want.op, Op.run, hread, Option.map_some]
      | skip =>
          rw [hwant] at h
          obtain ⟨⟨b, r₂⟩, hread, heq⟩ := Option.map_eq_some_iff.mp h
          obtain ⟨-, rfl⟩ := Prod.mk.injEq .. ▸ heq
          rw [Want.op, Op.run, hread, Option.map_some]

/-- A round does not break when its operations do not. -/
theorem safe_next (hpos : r.pos ≤ r.buf.length) (hgood : ∀ op r', Called want r op r' → Good op r') :
    ∃ result, next want r = some result := by
  obtain ⟨t, pos, htag, -⟩ := readTag_spec hpos
  rw [next, htag, Option.bind_some]
  cases t with
  | none => exact ⟨_, rfl⟩
  | some t =>
      obtain ⟨tag, wire⟩ := t
      obtain ⟨pos', hrun, -⟩ := hgood _ _ (.field htag)
      dsimp only
      cases hwant : want tag wire with
      | bytes =>
          rw [hwant, Want.op, Op.run] at hrun
          obtain ⟨result, hread, -⟩ := Option.map_eq_some_iff.mp hrun
          rw [hread]
          exact ⟨_, rfl⟩
      | varint =>
          rw [hwant, Want.op, Op.run] at hrun
          obtain ⟨result, hread, -⟩ := Option.map_eq_some_iff.mp hrun
          rw [hread]
          exact ⟨_, rfl⟩
      | skip =>
          rw [hwant, Want.op, Op.run] at hrun
          obtain ⟨result, hread, -⟩ := Option.map_eq_some_iff.mp hrun
          rw [hread]
          exact ⟨_, rfl⟩

theorem isEof_eq_false : r.isEof = false ↔ r.pos < r.buf.length := by
  rw [isEof, decide_eq_false_iff_not, Nat.not_le]

/-- The operations of a round start within the buffer. -/
theorem Called.within (h : Called want r op r') (hpos : r.pos ≤ r.buf.length) :
    r'.buf = r.buf ∧ r'.pos ≤ r'.buf.length := by
  cases h with
  | tag => exact ⟨rfl, hpos⟩
  | field htag =>
      have hrun : Op.run r .tag = some r' := by rw [Op.run, htag, Option.map_some]
      exact within_of_run hrun hpos

theorem within_of_next {field : Field} (h : next want r = some (some field, r'))
    (hpos : r.pos ≤ r.buf.length) : r'.buf = r.buf ∧ r'.pos ≤ r'.buf.length := by
  obtain ⟨tag, wire, r₁, htag, hrun⟩ := of_next h
  have hcalled : Called want r ((want tag wire).op wire) r₁ := .field htag
  obtain ⟨hbuf, hpos'⟩ := hcalled.within hpos
  obtain ⟨hbuf', hpos''⟩ := within_of_run hrun hpos'
  exact ⟨hbuf'.trans hbuf, hpos''⟩

/-- A round of good operations goes forward. -/
theorem lt_of_next {field : Field} (h : next want r = some (some field, r')) (hpos : r.pos < r.buf.length)
    (hgood : ∀ op r', Called want r op r' → Good op r') : r.pos < r'.pos := by
  obtain ⟨tag, wire, r₁, htag, hrun⟩ := of_next h
  obtain ⟨t, pos, htag', -, -, hlt⟩ := readTag_spec (Nat.le_of_lt hpos)
  obtain ⟨pos', hrun', hle, -⟩ := hgood _ _ (.field htag)
  rw [htag] at htag'
  cases htag'
  rw [hrun] at hrun'
  obtain rfl := Option.some.inj hrun'
  exact Nat.lt_of_lt_of_le (hlt hpos) hle

end

/-! ### The whole loop -/

namespace Loop

variable {σ : Type} {l : Loop σ} {buf : List UInt8} {acc : σ}

/-- A loop stays in its buffer. -/
theorem Reach.within {s : ProtoReader × σ} (h : l.Reach buf acc s) :
    s.1.buf = buf ∧ s.1.pos ≤ s.1.buf.length := by
  induction h with
  | refl => exact ⟨rfl, Nat.zero_le _⟩
  | tail _ hstep ih =>
      obtain ⟨-, field, hnext, -⟩ := hstep
      obtain ⟨hbuf, hpos⟩ := within_of_next hnext ih.2
      exact ⟨hbuf.trans ih.1, hpos⟩

theorem all_good_iff : l.All Good buf acc ↔ l.All (fun op r => ¬ ProtoReader.Wraps op r) buf acc := by
  constructor
  · intro h s hs heof op r hcalled
    exact (good_iff (hcalled.within hs.within.2).2 op).mp (h s hs heof op r hcalled)
  · intro h s hs heof op r hcalled
    exact (good_iff (hcalled.within hs.within.2).2 op).mpr (h s hs heof op r hcalled)

/-- Each round that another one follows goes forward. -/
theorem All.forward (h : l.All Good buf acc) {s s' : ProtoReader × σ} (hs : l.Reach buf acc s)
    (hstep : l.Step s s') : s.1.pos < s'.1.pos := by
  obtain ⟨heof, field, hnext, -⟩ := hstep
  exact lt_of_next hnext (isEof_eq_false.mp heof) (h s hs heof)

/-- **A loop of good operations ends**, if what it does with the fields does not break. -/
theorem All.exists_scan (h : l.All Good buf acc)
    (hhandle : ∀ s, l.Reach buf acc s → s.1.isEof = false → ∀ field r,
      next l.want s.1 = some (some field, r) → ∃ result, l.handle s.2 field r = some result) :
    ∃ acc', l.scan buf acc = some acc' := by
  -- with as much fuel as there are bytes left, and one
  have hall : ∀ fuel (s : ProtoReader × σ), l.Reach buf acc s → s.1.buf.length - s.1.pos < fuel →
      ∃ acc', l.run fuel s.1 s.2 = some acc' := by
    intro fuel
    induction fuel with
    | zero => exact fun s _ hlt => absurd hlt (Nat.not_lt_zero _)
    | succ fuel ih =>
        intro s hs hlt
        rw [run]
        cases heof : s.1.isEof with
        | true => exact ⟨s.2, rfl⟩
        | false =>
            rw [if_neg Bool.false_ne_true]
            obtain ⟨⟨found, r⟩, hnext⟩ := safe_next hs.within.2 (h s hs heof)
            rw [hnext, Option.bind_some]
            cases found with
            | none => exact ⟨s.2, rfl⟩
            | some field =>
                obtain ⟨⟨acc', goes⟩, hresult⟩ := hhandle s hs heof field r hnext
                dsimp only
                rw [hresult, Option.bind_some]
                cases goes with
                | false => exact ⟨acc', rfl⟩
                | true =>
                    have hstep : l.Step s (r, acc') := ⟨heof, field, hnext, hresult⟩
                    have hforward := h.forward hs hstep
                    have hbuf := (within_of_next hnext hs.within.2).1
                    have hpos := isEof_eq_false.mp heof
                    refine ih (r, acc') (hs.tail hstep) ?_
                    dsimp only at hforward hbuf ⊢
                    rw [hbuf]
                    omega
  exact hall (buf.length + 1) (.new buf, acc) .refl (by simp [ProtoReader.new])

end Loop

end Geo

end Elise
