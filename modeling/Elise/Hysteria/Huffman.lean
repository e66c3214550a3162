/-
Elise/Hysteria/Huffman.lean

The decoder of Huffman texts (`decode_huffman` of src/protocol/hysteria/qpack.rs)
and its code.
-/
import Elise.Hysteria.HuffmanTable
import Elise.Lib.PrefixCode

namespace Elise

namespace Hysteria

open PrefixCode

/-! ### The decoder -/

def branch : Nat := 0x8000
def tableIndexMask : Nat := 0x7f00
def tableWidth : Nat := 256

/-- What comes of decoding. -/
inductive Decoded (α : Type) where
  | ok (a : α)
  /-- `Invalid Huffman code` -/
  | invalid
  /-- An index out of range, a counter below zero, or a loop that does not end. -/
  | stuck
  deriving DecidableEq, Repr

def Decoded.bind {α β : Type} : Decoded α → (α → Decoded β) → Decoded β
  | ok a, f => f a
  | invalid, _ => invalid
  | stuck, _ => stuck

/-- The bits that were not used are the lowest ones of `acc`, which has 32 bits. -/
structure Huffman where
  buf : List UInt8
  table : Nat
  acc : Nat
  bits : Nat
  deriving DecidableEq, Repr

namespace Huffman

/-- Once round the loop for whole bytes. -/
def walk (s : Huffman) : Decoded Huffman :=
  let index := (s.acc >>> (s.bits - 8)) % 256
  match decodeTable[s.table * tableWidth + index]? with
  | none => .stuck
  | some entry =>
      if entry &&& branch = 0 then
        if s.bits < entry >>> 8 then .stuck
        else .ok { s with buf := s.buf ++ [UInt8.ofNat entry], table := 0, bits := s.bits - entry >>> 8 }
      else
        let table := (entry &&& tableIndexMask) >>> 8
        if table = 0 then .invalid else .ok { s with table := table, bits := s.bits - 8 }

/-- The loop for whole bytes. -/
def drain : (fuel : Nat) → Huffman → Decoded Huffman
  | 0, s => if s.bits < 8 then .ok s else .stuck
  | fuel + 1, s => if s.bits < 8 then .ok s else s.walk.bind (drain fuel)

def feed (s : Huffman) (byte : UInt8) : Decoded Huffman :=
  drain (s.bits + 8) { s with acc := (s.acc <<< 8 ||| byte.toNat) % 2 ^ 32, bits := s.bits + 8 }

def feedAll : Huffman → List UInt8 → Decoded Huffman
  | s, [] => .ok s
  | s, byte :: src => (s.feed byte).bind fun s => feedAll s src

def result (s : Huffman) : Decoded (List UInt8) := if s.table = 0 then .ok s.buf else .invalid

/-- Once round the loop for the last bits. -/
def walkLast (s : Huffman) : Decoded Huffman :=
  let index := (s.acc <<< (8 - s.bits)) % 256
  match decodeTable[s.table * tableWidth + index]? with
  | none => .stuck
  | some entry =>
      if entry &&& branch ≠ 0 then .invalid
      else if s.bits < entry >>> 8 then .invalid
      else .ok { s with buf := s.buf ++ [UInt8.ofNat entry], table := 0, bits := s.bits - entry >>> 8 }

/-- The loop for the last bits, which stops at padding. -/
def finish : (fuel : Nat) → Huffman → Decoded (List UInt8)
  | 0, s => if s.bits = 0 then s.result else .stuck
  | fuel + 1, s =>
      if s.bits = 0 then s.result
      else
        let padding := 2 ^ s.bits - 1
        if s.table = 0 ∧ s.acc &&& padding = padding then s.result
        else s.walkLast.bind (finish fuel)

end Huffman

def decodeHuffman (src : List UInt8) : Decoded (List UInt8) :=
  (Huffman.feedAll ⟨[], 0, 0, 0⟩ src).bind fun s => s.finish s.bits

/-! ### The code -/

/-- The word of a byte, as its length and its number. -/
def word (b : UInt8) : Nat × Nat := encodeTable.getD b.toNat (0, 0)

def codeWord (b : UInt8) : List Bool := wordBits (word b)

/-- A text, filled up with ones to whole bytes. -/
def encodeHuffman (text : List UInt8) : List UInt8 :=
  let bits := encode codeWord text
  let n := (bits.length + 7) / 8
  pack n (bits ++ List.replicate (8 * n - bits.length) true)

/-- What was read when each table is entered. -/
def paths : List (Nat × Nat) := [
  (0, 0), (8, 0xff), (16, 0xffff), (24, 0xfffffe), (24, 0xffffff), (8, 0xfe), (16, 0xfffe),
  (24, 0xfffff8), (24, 0xfffff6), (24, 0xfffff9), (24, 0xfffffb), (24, 0xfffffc), (24, 0xfffffa),
  (24, 0xfffff7), (24, 0xfffffd)]

def pathOf (table : Nat) : Nat × Nat := paths.getD table (0, 0)

def path (table : Nat) : List Bool := wordBits (pathOf table)

/-- What stands behind an index of eight bits in a table: a byte whose word ends
in the index, the table for what was read so far, or, where no word goes on, no
table. -/
def entryRight (table index entry : Nat) : Bool :=
  let p := pathOf table
  if entry &&& branch = 0 then
    let n := entry >>> 8
    1 ≤ n && n ≤ 8 && encodeTable.getD (entry % 256) (0, 0) == (p.1 + n, p.2 * 2 ^ n + index / 2 ^ (8 - n))
  else
    let next := (entry &&& tableIndexMask) >>> 8
    if next = 0 then
      (encodeTable.take 256).all fun w => !starts w (p.1 + 8, p.2 * 2 ^ 8 + index) && w.1 < p.1 + 8
    else next < 15 && pathOf next == (p.1 + 8, p.2 * 2 ^ 8 + index)

theorem decodeTable_right :
    allFrom (fun i entry => entryRight (i / 256) (i % 256) entry) 0 decodeTable = true := by
  decide +kernel

theorem canonical_encodeTable : Canonical (encodeTable.take 256) 31 := by
  decide +kernel

theorem paths_right :
    (paths.all fun p => p.2 < 2 ^ p.1 && (p.1 == 0 || 8 ≤ p.1) &&
      (encodeTable.take 256).all fun w => !starts w p) = true := by
  decide +kernel

theorem words_right :
    ((encodeTable.take 256).all fun w => w.2 < 2 ^ w.1 - 1 && w.1 < 31) = true := by
  decide +kernel

theorem length_decodeTable : decodeTable.length = 15 * tableWidth := by
  decide +kernel

theorem length_encodeTable : encodeTable.length = 257 := by
  decide +kernel

theorem length_path_of_ne : ∀ table < 15, table ≠ 0 → 8 ≤ (pathOf table).1 := by
  decide

/-! ### What the tables mean -/

theorem word_eq (b : UInt8) : (encodeTable.take 256)[b.toNat]? = some (word b) := by
  have hlt : b.toNat < 256 := b.toNat_lt
  rw [List.getElem?_take_of_lt hlt, word, List.getD_eq_getElem?_getD]
  rw [List.getElem?_eq_getElem (by rw [length_encodeTable]; omega)]
  rfl

theorem word_mem (b : UInt8) : word b ∈ encodeTable.take 256 := List.mem_of_getElem? (word_eq b)

theorem word_lt (b : UInt8) : (word b).2 < 2 ^ (word b).1 - 1 ∧ (word b).1 < 31 := by
  have h := List.all_eq_true.mp words_right (word b) (word_mem b)
  rwa [Bool.and_eq_true, decide_eq_true_iff, decide_eq_true_iff] at h

theorem word_lt_two_pow (b : UInt8) : (word b).2 < 2 ^ (word b).1 :=
  Nat.lt_of_lt_of_le (word_lt b).1 (Nat.sub_le _ _)

theorem pathOf_mem (table : Nat) : pathOf table ∈ paths := by
  rw [pathOf, List.getD_eq_getElem?_getD]
  cases h : paths[table]? with
  | none => exact List.mem_cons_self
  | some p => exact List.mem_of_getElem? h

theorem pathOf_lt (table : Nat) : (pathOf table).2 < 2 ^ (pathOf table).1 := by
  have h := List.all_eq_true.mp paths_right (pathOf table) (pathOf_mem table)
  rw [Bool.and_eq_true, Bool.and_eq_true] at h
  exact of_decide_eq_true h.1.1

/-- No word ends before a table. -/
theorem not_prefix_path (b : UInt8) (table : Nat) : ¬ codeWord b <+: path table := by
  intro hpre
  have h := List.all_eq_true.mp paths_right (pathOf table) (pathOf_mem table)
  rw [Bool.and_eq_true] at h
  have hnot := List.all_eq_true.mp h.2 (word b) (word_mem b)
  rw [starts_of_leading (word_lt_two_pow b) (pathOf_lt table) hpre] at hnot
  cases hnot

theorem prefixFree_codeWord : PrefixFree codeWord := by
  intro a b hpre
  have hstarts := starts_of_leading (word_lt_two_pow a) (word_lt_two_pow b) hpre
  exact UInt8.toNat_inj.mp (eq_of_starts canonical_encodeTable (word_eq a) (word_eq b)
    (word_lt a).2 (word_lt b).2 hstarts)

theorem noOnes_codeWord : NoOnes codeWord := by
  intro b n heq
  have hlen : (word b).1 = n := by
    have h := congrArg List.length heq
    rwa [codeWord, wordBits, length_natBits, List.length_replicate] at h
  have hones : natBits (word b).1 (word b).2 = natBits (word b).1 (2 ^ (word b).1 - 1) := by
    rw [natBits_ones]
    rw [← hlen] at heq
    exact heq
  have hlt := (word_lt b).1
  have hnum := natBits_inj (by omega) (by omega) hones
  omega

section Entry

variable {table index entry : Nat} (h : decodeTable[table * tableWidth + index]? = some entry)
  (hindex : index < tableWidth)

include h hindex

theorem entryRight_of_getElem? : entryRight table index entry = true := by
  have hdiv : (table * tableWidth + index) / 256 = table := by
    rw [tableWidth] at *
    omega
  have hmod : (table * tableWidth + index) % 256 = index := by
    rw [tableWidth] at *
    omega
  have hright := of_allFrom decodeTable_right h
  rwa [Nat.zero_add, hdiv, hmod] at hright

/-- The word of a byte ends in the index. -/
theorem symbol_entry (hsymbol : entry &&& branch = 0) :
    1 ≤ entry >>> 8 ∧ entry >>> 8 ≤ 8 ∧
      codeWord (UInt8.ofNat entry) = path table ++ (natBits 8 index).take (entry >>> 8) := by
  have hright := entryRight_of_getElem? h hindex
  rw [entryRight] at hright
  dsimp only at hright
  rw [if_pos hsymbol, Bool.and_eq_true, Bool.and_eq_true, decide_eq_true_iff, decide_eq_true_iff,
    beq_iff_eq] at hright
  obtain ⟨⟨hpos, hle⟩, hword⟩ := hright
  refine ⟨hpos, hle, ?_⟩
  have hpow : index / 2 ^ (8 - entry >>> 8) < 2 ^ (entry >>> 8) := by
    rw [Nat.div_lt_iff_lt_mul (Nat.two_pow_pos _), ← Nat.pow_add, Nat.add_sub_cancel' hle]
    exact hindex
  rw [codeWord, word, UInt8.toNat_ofNat', hword, wordBits, ← natBits_append hpow, take_natBits hle]
  rfl

theorem branch_entry (hbranch : ¬ entry &&& branch = 0) (hnext : (entry &&& tableIndexMask) >>> 8 ≠ 0) :
    (entry &&& tableIndexMask) >>> 8 < 15 ∧
      path ((entry &&& tableIndexMask) >>> 8) = path table ++ natBits 8 index := by
  have hright := entryRight_of_getElem? h hindex
  rw [entryRight] at hright
  dsimp only at hright
  rw [if_neg hbranch, if_neg hnext, Bool.and_eq_true, decide_eq_true_iff, beq_iff_eq] at hright
  refine ⟨hright.1, ?_⟩
  rw [path, hright.2, wordBits, ← natBits_append hindex]
  rfl

/-- No word goes on here. -/
theorem dead_entry (hbranch : ¬ entry &&& branch = 0) (hnext : (entry &&& tableIndexMask) >>> 8 = 0)
    (b : UInt8) :
    ¬ codeWord b <+: path table ++ natBits 8 index ∧ (codeWord b).length < (path table).length + 8 := by
  have hright := entryRight_of_getElem? h hindex
  rw [entryRight] at hright
  dsimp only at hright
  rw [if_neg hbranch, if_pos hnext] at hright
  have hb := List.all_eq_true.mp hright (word b) (word_mem b)
  rw [Bool.and_eq_true, Bool.not_eq_true', decide_eq_true_iff] at hb
  constructor
  · intro hpre
    have hlt : (pathOf table).2 * 2 ^ 8 + index < 2 ^ ((pathOf table).1 + 8) := by
      have hp := pathOf_lt table
      rw [Nat.pow_add]
      rw [tableWidth] at hindex
      omega
    have hpath : wordBits (word b) <+:
        wordBits ((pathOf table).1 + 8, (pathOf table).2 * 2 ^ 8 + index) := by
      rw [wordBits, wordBits, ← natBits_append hindex]
      exact hpre
    rw [starts_of_leading (word_lt_two_pow b) hlt hpath] at hb
    cases hb.1
  · rw [codeWord, path, wordBits, wordBits, length_natBits, length_natBits]
    exact hb.2

end Entry

/-! ### What the loops do -/

namespace Huffman

/-- What was read and not yet decoded. -/
def ahead (s : Huffman) : List Bool := path s.table ++ natBits s.bits s.acc

/-- No text that is filled up with at most seven ones. -/
def Dead (bits : List Bool) : Prop :=
  ∀ text k, k ≤ 7 → ∀ future, bits ++ future ≠ encode codeWord text ++ List.replicate k true

/-- The decoder has gone on by some letters. -/
structure Advances (s s' : Huffman) : Prop where
  table_lt : s'.table < 15
  bits_le : s'.bits ≤ s.bits
  acc_eq : s'.acc = s.acc
  decoded : ∃ text, s'.buf = s.buf ++ text ∧ encode codeWord text ++ s'.ahead = s.ahead

theorem Advances.refl {s : Huffman} (h : s.table < 15) : Advances s s :=
  ⟨h, Nat.le_refl _, rfl, [], (List.append_nil _).symm, rfl⟩

theorem Advances.trans {s t u : Huffman} (h : Advances s t) (h' : Advances t u) : Advances s u := by
  obtain ⟨xs, hbuf, hahead⟩ := h.decoded
  obtain ⟨ys, hbuf', hahead'⟩ := h'.decoded
  refine ⟨h'.table_lt, Nat.le_trans h'.bits_le h.bits_le, h'.acc_eq.trans h.acc_eq, xs ++ ys, ?_, ?_⟩
  · rw [hbuf', hbuf, List.append_assoc]
  · rw [encode_append, List.append_assoc, hahead', hahead]

theorem Advances.dead {s s' : Huffman} (h : Advances s s') (hdead : Dead s'.ahead) : Dead s.ahead := by
  intro text k hk future heq
  obtain ⟨xs, _, hahead⟩ := h.decoded
  rw [← hahead, List.append_assoc] at heq
  obtain ⟨ys, _, hrest⟩ := exists_append_of_eq prefixFree_codeWord noOnes_codeWord heq
  exact hdead ys k hk future hrest

/-- There is an entry behind each index. -/
theorem exists_entry {table index : Nat} (htable : table < 15) (hindex : index < tableWidth) :
    ∃ entry, decodeTable[table * tableWidth + index]? = some entry := by
  have hlt : table * tableWidth + index < decodeTable.length := by
    rw [length_decodeTable]
    rw [tableWidth] at *
    omega
  exact ⟨_, List.getElem?_eq_getElem hlt⟩

/-- The index is made of the next eight bits. -/
theorem natBits_index {s : Huffman} (hbits : 8 ≤ s.bits) :
    natBits 8 ((s.acc >>> (s.bits - 8)) % 256) ++ natBits (s.bits - 8) s.acc = natBits s.bits s.acc := by
  have hmod := natBits_mod (Nat.le_refl 8) (s.acc >>> (s.bits - 8))
  have hsplit := natBits_add 8 (s.bits - 8) s.acc
  rw [Nat.add_sub_cancel' hbits] at hsplit
  rw [show (256 : Nat) = 2 ^ 8 from rfl, hmod, Nat.shiftRight_eq_div_pow, hsplit]

theorem walk_spec {s : Huffman} (htable : s.table < 15) (hbits : 8 ≤ s.bits) :
    (∃ s', s.walk = .ok s' ∧ Advances s s' ∧ s'.bits < s.bits) ∨ (s.walk = .invalid ∧ Dead s.ahead) := by
  have hindex : (s.acc >>> (s.bits - 8)) % 256 < tableWidth := Nat.mod_lt _ (by decide)
  obtain ⟨entry, hentry⟩ := exists_entry htable hindex
  have hnext := natBits_index hbits
  rw [walk]
  dsimp only
  rw [hentry]
  dsimp only
  by_cases hsymbol : entry &&& branch = 0
  · -- a byte
    obtain ⟨hpos, hle, hword⟩ := symbol_entry hentry hindex hsymbol
    rw [if_pos hsymbol, if_neg (by omega)]
    refine .inl ⟨_, rfl, ⟨Nat.zero_lt_succ 14, Nat.sub_le _ _, rfl, [UInt8.ofNat entry], rfl, ?_⟩, ?_⟩
    · show encode codeWord [UInt8.ofNat entry] ++ ([] ++ natBits (s.bits - entry >>> 8) s.acc) = s.ahead
      have hrest : (natBits 8 ((s.acc >>> (s.bits - 8)) % 256)).drop (entry >>> 8) ++
          natBits (s.bits - 8) s.acc = natBits (s.bits - entry >>> 8) s.acc := by
        rw [← drop_natBits (by omega : entry >>> 8 ≤ s.bits), ← hnext,
          List.drop_append_of_le_length (by rw [length_natBits]; exact hle)]
      rw [encode_cons, encode_nil, List.append_nil, hword, List.nil_append, ← hrest, ahead, ← hnext,
        List.append_assoc, ← List.append_assoc (List.take _ _), List.take_append_drop]
    · show s.bits - entry >>> 8 < s.bits
      omega
  · rw [if_neg hsymbol]
    by_cases hzero : (entry &&& tableIndexMask) >>> 8 = 0
    · -- no word goes on
      rw [if_pos hzero]
      refine .inr ⟨rfl, ?_⟩
      intro text k hk future heq
      have hpre : path s.table ++ natBits 8 ((s.acc >>> (s.bits - 8)) % 256) <+:
          encode codeWord text ++ List.replicate k true := by
        rw [← heq, ahead, ← hnext, List.append_assoc, List.append_assoc]
        exact ⟨_, by rw [List.append_assoc]⟩
      cases text with
      | nil =>
          have hlen := hpre.length_le
          rw [encode_nil, List.nil_append, List.length_append, length_natBits, List.length_replicate] at hlen
          omega
      | cons b text =>
          have hb : codeWord b <+: encode codeWord (b :: text) ++ List.replicate k true := by
            rw [encode_cons, List.append_assoc]
            exact List.prefix_append _ _
          obtain ⟨hnot, hlt⟩ := dead_entry hentry hindex hsymbol hzero b
          rcases List.prefix_or_prefix_of_prefix hb hpre with hstarts | hstarts
          · exact hnot hstarts
          · have hlen := hstarts.length_le
            rw [List.length_append, length_natBits] at hlen
            omega
    · -- another table
      obtain ⟨hlt, hpath⟩ := branch_entry hentry hindex hsymbol hzero
      rw [if_neg hzero]
      refine .inl ⟨_, rfl, ⟨hlt, Nat.sub_le _ _, rfl, [], (List.append_nil _).symm, ?_⟩, ?_⟩
      · show path ((entry &&& tableIndexMask) >>> 8) ++ natBits (s.bits - 8) s.acc = s.ahead
        rw [hpath, ahead, ← hnext, List.append_assoc]
      · show s.bits - 8 < s.bits
        omega

theorem drain_spec {fuel : Nat} {s : Huffman} (htable : s.table < 15) (hfuel : s.bits ≤ fuel) :
    (∃ s', drain fuel s = .ok s' ∧ Advances s s' ∧ s'.bits < 8) ∨
      (drain fuel s = .invalid ∧ Dead s.ahead) := by
  induction fuel generalizing s with
  | zero =>
      rw [drain, if_pos (by omega)]
      exact .inl ⟨s, rfl, .refl htable, by omega⟩
  | succ fuel ih =>
      rw [drain]
      by_cases hbits : s.bits < 8
      · rw [if_pos hbits]
        exact .inl ⟨s, rfl, .refl htable, hbits⟩
      · rw [if_neg hbits]
        rcases walk_spec htable (Nat.le_of_not_lt hbits) with ⟨t, hwalk, hadvances, hlt⟩ | ⟨hwalk, hdead⟩
        · rw [hwalk, Decoded.bind]
          rcases ih hadvances.table_lt (by omega) with ⟨u, hdrain, hmore, hlast⟩ | ⟨hdrain, hdead⟩
          · exact .inl ⟨u, hdrain, hadvances.trans hmore, hlast⟩
          · exact .inr ⟨hdrain, hadvances.dead hdead⟩
        · rw [hwalk]
          exact .inr ⟨rfl, hdead⟩

/-- A byte comes behind what is ahead. -/
theorem natBits_acc {bits acc : Nat} (hbits : bits < 8) (byte : UInt8) :
    natBits (bits + 8) ((acc <<< 8 ||| byte.toNat) % 2 ^ 32) = natBits bits acc ++ natBits 8 byte.toNat := by
  have hbyte : byte.toNat < 2 ^ 8 := byte.toNat_lt
  have hor : acc <<< 8 ||| byte.toNat = acc * 2 ^ 8 + byte.toNat := by
    rw [← Nat.shiftLeft_add_eq_or_of_lt hbyte, Nat.shiftLeft_eq]
  rw [natBits_mod (by omega), hor, natBits_append hbyte]

theorem feedAll_spec {src : List UInt8} {s : Huffman} (htable : s.table < 15) (hbits : s.bits < 8) :
    (∃ s' text, feedAll s src = .ok s' ∧ s'.table < 15 ∧ s'.bits < 8 ∧ s'.buf = s.buf ++ text ∧
      encode codeWord text ++ s'.ahead = s.ahead ++ bitsOf src) ∨
    (feedAll s src = .invalid ∧ Dead (s.ahead ++ bitsOf src)) := by
  induction src generalizing s with
  | nil =>
      refine .inl ⟨s, [], rfl, htable, hbits, (List.append_nil _).symm, ?_⟩
      rw [encode_nil, List.nil_append]
      exact (List.append_nil _).symm
  | cons byte src ih =>
      let s1 : Huffman :=
        { s with acc := (s.acc <<< 8 ||| byte.toNat) % 2 ^ 32, bits := s.bits + 8 }
      have hahead : s.ahead ++ bitsOf (byte :: src) = s1.ahead ++ bitsOf src := by
        show path s.table ++ natBits s.bits s.acc ++ (natBits 8 byte.toNat ++ bitsOf src) =
          path s.table ++ natBits (s.bits + 8) ((s.acc <<< 8 ||| byte.toNat) % 2 ^ 32) ++ bitsOf src
        rw [natBits_acc hbits, List.append_assoc, List.append_assoc, List.append_assoc]
      rw [hahead, feedAll]
      have hfeed : s.feed byte = drain (s.bits + 8) s1 := rfl
      rcases drain_spec (s := s1) htable (Nat.le_refl _) with ⟨t, hdrain, hadvances, hlt⟩ | ⟨hdrain, hdead⟩
      · rw [hfeed, hdrain, Decoded.bind]
        obtain ⟨xs, hbuf, hxs⟩ := hadvances.decoded
        rcases ih hadvances.table_lt hlt with ⟨u, ys, hall, hu, hbits', hbuf', hys⟩ | ⟨hall, hdead⟩
        · refine .inl ⟨u, xs ++ ys, hall, hu, hbits', ?_, ?_⟩
          · rw [hbuf', hbuf, List.append_assoc]
          · rw [encode_append, List.append_assoc, hys, ← List.append_assoc, hxs]
        · refine .inr ⟨hall, ?_⟩
          intro text k hk future heq
          rw [← hxs, List.append_assoc, List.append_assoc] at heq
          obtain ⟨rest, _, hrest⟩ := exists_append_of_eq prefixFree_codeWord noOnes_codeWord heq
          refine hdead rest k hk future ?_
          rw [List.append_assoc]
          exact hrest
      · rw [hfeed, hdrain]
        refine .inr ⟨rfl, ?_⟩
        intro text k hk future heq
        rw [List.append_assoc] at heq
        exact hdead text k hk _ heq

/-- No text that is filled up with at most seven ones, and nothing comes. -/
def Unreadable (bits : List Bool) : Prop :=
  ∀ text k, k ≤ 7 → bits ≠ encode codeWord text ++ List.replicate k true

theorem Dead.unreadable {bits : List Bool} (h : Dead bits) : Unreadable bits := by
  intro text k hk heq
  refine h text k hk [] ?_
  rw [List.append_nil]
  exact heq

theorem Advances.unreadable {s s' : Huffman} (h : Advances s s') (hdead : Unreadable s'.ahead) :
    Unreadable s.ahead := by
  intro text k hk heq
  obtain ⟨xs, _, hahead⟩ := h.decoded
  rw [← hahead] at heq
  obtain ⟨ys, _, hrest⟩ := exists_append_of_eq prefixFree_codeWord noOnes_codeWord heq
  exact hdead ys k hk hrest

/-- In a table that is not the first, more than padding was read. -/
theorem eight_le_length_ahead {s : Huffman} (htable : s.table < 15) (hne : s.table ≠ 0) :
    8 ≤ s.ahead.length := by
  have h := length_path_of_ne s.table htable hne
  rw [ahead, List.length_append, path, wordBits, length_natBits]
  omega

/-- The index is made of the last bits and zeros. -/
theorem natBits_lastIndex {s : Huffman} (hbits : s.bits < 8) :
    natBits 8 ((s.acc <<< (8 - s.bits)) % 256) =
      natBits s.bits s.acc ++ natBits (8 - s.bits) (s.acc <<< (8 - s.bits)) := by
  have hmod := natBits_mod (Nat.le_refl 8) (s.acc <<< (8 - s.bits))
  have hsplit := natBits_add s.bits (8 - s.bits) (s.acc <<< (8 - s.bits))
  rw [Nat.add_sub_cancel' (Nat.le_of_lt hbits), Nat.shiftLeft_eq,
    Nat.mul_div_cancel _ (Nat.two_pow_pos _)] at hsplit
  rw [show (256 : Nat) = 2 ^ 8 from rfl, hmod, Nat.shiftLeft_eq, hsplit]

theorem ones_of_and {bits acc : Nat} :
    acc &&& (2 ^ bits - 1) = 2 ^ bits - 1 ↔ natBits bits acc = List.replicate bits true := by
  rw [Nat.and_two_pow_sub_one_eq_mod, ← natBits_ones, ← natBits_mod (Nat.le_refl bits) acc]
  have hpos := Nat.two_pow_pos bits
  constructor
  · intro h
    rw [h]
  · intro h
    exact natBits_inj (Nat.mod_lt _ hpos) (by omega) h

theorem walkLast_spec {s : Huffman} (htable : s.table < 15) (hbits : s.bits < 8)
    (hpadding : ¬(s.table = 0 ∧ s.acc &&& (2 ^ s.bits - 1) = 2 ^ s.bits - 1)) :
    (∃ s', s.walkLast = .ok s' ∧ Advances s s' ∧ s'.bits < s.bits) ∨
      (s.walkLast = .invalid ∧ Unreadable s.ahead) := by
  have hindex : (s.acc <<< (8 - s.bits)) % 256 < tableWidth := Nat.mod_lt _ (by decide)
  obtain ⟨entry, hentry⟩ := exists_entry htable hindex
  have hlast := natBits_lastIndex hbits
  -- the word of the next byte would be the start of the index
  have hnext : (∀ b, codeWord b <+: s.ahead →
      ¬ codeWord b <+: path s.table ++ natBits 8 ((s.acc <<< (8 - s.bits)) % 256)) →
      Unreadable s.ahead := by
    intro hnot text k hk heq
    cases text with
    | nil =>
        rw [encode_nil, List.nil_append] at heq
        have hzero : s.table = 0 := by
          by_contra hne
          have hlen := eight_le_length_ahead htable hne
          rw [heq, List.length_replicate] at hlen
          omega
        refine hpadding ⟨hzero, ones_of_and.mpr ?_⟩
        have hnil : path s.table = [] := by
          rw [hzero]
          rfl
        rw [ahead, hnil, List.nil_append] at heq
        have hlen := congrArg List.length heq
        rw [length_natBits, List.length_replicate] at hlen
        rw [heq, hlen]
    | cons b text =>
        have hb : codeWord b <+: s.ahead := by
          rw [heq, encode_cons, List.append_assoc]
          exact List.prefix_append _ _
        refine hnot b hb ?_
        rw [hlast, ← List.append_assoc]
        exact hb.trans (List.prefix_append _ _)
  rw [walkLast, hentry]
  dsimp only
  by_cases hsymbol : entry &&& branch = 0
  · obtain ⟨hpos, hle, hword⟩ := symbol_entry hentry hindex hsymbol
    rw [if_neg (not_not_intro hsymbol)]
    have hstarts : codeWord (UInt8.ofNat entry) <+:
        path s.table ++ natBits 8 ((s.acc <<< (8 - s.bits)) % 256) := by
      rw [hword]
      exact (List.prefix_append_right_inj _).mpr (List.take_prefix _ _)
    by_cases hused : s.bits < entry >>> 8
    · -- the word takes more than there is
      rw [if_pos hused]
      refine .inr ⟨rfl, hnext ?_⟩
      intro b hb hstarts'
      obtain rfl := prefixFree_codeWord.eq_of_leading hstarts' hstarts
      have hlen := hb.length_le
      rw [hword, ahead, List.length_append, List.length_append, List.length_take, length_natBits,
        length_natBits] at hlen
      omega
    · rw [if_neg hused]
      refine .inl ⟨_, rfl, ⟨Nat.zero_lt_succ 14, Nat.sub_le _ _, rfl, [UInt8.ofNat entry], rfl, ?_⟩, ?_⟩
      · show encode codeWord [UInt8.ofNat entry] ++ ([] ++ natBits (s.bits - entry >>> 8) s.acc) = s.ahead
        have hle' : entry >>> 8 ≤ s.bits := Nat.le_of_not_lt hused
        have htake : (natBits 8 ((s.acc <<< (8 - s.bits)) % 256)).take (entry >>> 8) =
            (natBits s.bits s.acc).take (entry >>> 8) := by
          rw [hlast, List.take_append_of_le_length (by rw [length_natBits]; exact hle')]
        rw [encode_cons, encode_nil, List.append_nil, hword, htake, List.nil_append, ahead,
          ← drop_natBits hle', List.append_assoc, List.take_append_drop]
      · show s.bits - entry >>> 8 < s.bits
        omega
  · rw [if_pos hsymbol]
    refine .inr ⟨rfl, hnext ?_⟩
    intro b _ hstarts
    by_cases hzero : (entry &&& tableIndexMask) >>> 8 = 0
    · exact (dead_entry hentry hindex hsymbol hzero b).1 hstarts
    · rw [← (branch_entry hentry hindex hsymbol hzero).2] at hstarts
      exact not_prefix_path b _ hstarts

/-- What comes at the end of the bits. -/
theorem result_spec {s : Huffman} (htable : s.table < 15) (hbits : s.bits = 0) :
    (∃ text k, s.result = .ok (s.buf ++ text) ∧ k ≤ 7 ∧
      s.ahead = encode codeWord text ++ List.replicate k true) ∨
    (s.result = .invalid ∧ Unreadable s.ahead) := by
  rw [result]
  by_cases hzero : s.table = 0
  · rw [if_pos hzero]
    refine .inl ⟨[], 0, by rw [List.append_nil], Nat.zero_le 7, ?_⟩
    rw [ahead, hzero, hbits]
    rfl
  · rw [if_neg hzero]
    refine .inr ⟨rfl, ?_⟩
    intro text k hk heq
    cases text with
    | nil =>
        have hlen := eight_le_length_ahead htable hzero
        rw [heq, encode_nil, List.nil_append, List.length_replicate] at hlen
        omega
    | cons b text =>
        have hpath : s.ahead = path s.table := by
          rw [ahead, hbits]
          exact List.append_nil _
        apply not_prefix_path b s.table
        rw [← hpath, heq, encode_cons, List.append_assoc]
        exact List.prefix_append _ _

theorem finish_spec {fuel : Nat} {s : Huffman} (htable : s.table < 15) (hbits : s.bits < 8)
    (hfuel : s.bits ≤ fuel) :
    (∃ text k, finish fuel s = .ok (s.buf ++ text) ∧ k ≤ 7 ∧
      s.ahead = encode codeWord text ++ List.replicate k true) ∨
    (finish fuel s = .invalid ∧ Unreadable s.ahead) := by
  induction fuel generalizing s with
  | zero =>
      have hzero : s.bits = 0 := Nat.le_zero.mp hfuel
      rw [finish, if_pos hzero]
      exact result_spec htable hzero
  | succ fuel ih =>
      rw [finish]
      by_cases hzero : s.bits = 0
      · rw [if_pos hzero]
        exact result_spec htable hzero
      · rw [if_neg hzero]
        dsimp only
        by_cases hpadding : s.table = 0 ∧ s.acc &&& (2 ^ s.bits - 1) = 2 ^ s.bits - 1
        · rw [if_pos hpadding, result, if_pos hpadding.1]
          refine .inl ⟨[], s.bits, by rw [List.append_nil], Nat.le_of_lt_succ hbits, ?_⟩
          rw [ahead, hpadding.1, ones_of_and.mp hpadding.2]
          rfl
        · rw [if_neg hpadding]
          rcases walkLast_spec htable hbits hpadding with ⟨t, hwalk, hadvances, hlt⟩ | ⟨hwalk, hdead⟩
          · rw [hwalk, Decoded.bind]
            obtain ⟨xs, hbuf, hxs⟩ := hadvances.decoded
            rcases ih hadvances.table_lt (by omega) (by omega) with ⟨ys, k, hok, hk, hys⟩ | ⟨hinvalid, hdead⟩
            · refine .inl ⟨xs ++ ys, k, ?_, hk, ?_⟩
              · rw [hok, hbuf, List.append_assoc]
              · rw [← hxs, hys, encode_append, List.append_assoc]
            · exact .inr ⟨hinvalid, hadvances.unreadable hdead⟩
          · rw [hwalk]
            exact .inr ⟨rfl, hdead⟩

end Huffman

/-! ### Decoding -/

theorem decodeHuffman_spec (src : List UInt8) :
    (∃ text k, decodeHuffman src = .ok text ∧ k ≤ 7 ∧
      bitsOf src = encode codeWord text ++ List.replicate k true) ∨
    (decodeHuffman src = .invalid ∧ Huffman.Unreadable (bitsOf src)) := by
  have hfeed := @Huffman.feedAll_spec src ⟨[], 0, 0, 0⟩ (by decide) (by decide)
  rw [decodeHuffman]
  rcases hfeed with ⟨s, xs, hall, htable, hbits, hbuf, hxs⟩ | ⟨hall, hdead⟩
  · have hread : encode codeWord xs ++ s.ahead = bitsOf src := hxs
    rw [hall, Decoded.bind]
    rcases Huffman.finish_spec htable hbits (Nat.le_refl _) with ⟨ys, k, hok, hk, hys⟩ | ⟨hinvalid, hdead⟩
    · refine .inl ⟨xs ++ ys, k, ?_, hk, ?_⟩
      · rw [hok, hbuf]
        rfl
      · rw [← hread, hys, encode_append, List.append_assoc]
    · refine .inr ⟨hinvalid, ?_⟩
      intro text k hk heq
      rw [← hread] at heq
      obtain ⟨ys, _, hrest⟩ := exists_append_of_eq prefixFree_codeWord noOnes_codeWord heq
      exact hdead ys k hk hrest
  · rw [hall]
    exact .inr ⟨rfl, hdead.unreadable⟩

theorem decodeHuffman_eq_ok_iff {src text : List UInt8} :
    decodeHuffman src = .ok text ↔
      ∃ k ≤ 7, bitsOf src = encode codeWord text ++ List.replicate k true := by
  rcases decodeHuffman_spec src with ⟨xs, k, hok, hk, hxs⟩ | ⟨hinvalid, hdead⟩
  · rw [hok]
    constructor
    · intro heq
      cases heq
      exact ⟨k, hk, hxs⟩
    · rintro ⟨l, _, hl⟩
      rw [(encode_ones_inj prefixFree_codeWord noOnes_codeWord (hxs.symm.trans hl)).1]
  · rw [hinvalid]
    constructor
    · intro heq
      cases heq
    · rintro ⟨k, hk, heq⟩
      exact absurd heq (hdead text k hk)

/-- Padding takes less than a byte. -/
theorem bitsOf_encodeHuffman (text : List UInt8) :
    ∃ k ≤ 7, bitsOf (encodeHuffman text) = encode codeWord text ++ List.replicate k true := by
  refine ⟨8 * (((encode codeWord text).length + 7) / 8) - (encode codeWord text).length, by omega, ?_⟩
  apply bitsOf_pack
  rw [List.length_append, List.length_replicate]
  omega

/-- **Decoding is exact.**  The words are a prefix code.  A text that is written
in them and padded is decoded; the decoder ends on every input, its counter does
not go below zero and its indices are in range; and it accepts what is written in
words and padded with at most seven ones and nothing else, so that only one input
is decoded to a text. -/
theorem decode_huffman_exact :
    PrefixFree codeWord ∧
    (∀ text, decodeHuffman (encodeHuffman text) = .ok text) ∧
    (∀ text, ∃ k ≤ 7, bitsOf (encodeHuffman text) = encode codeWord text ++ List.replicate k true) ∧
    (∀ src, decodeHuffman src ≠ .stuck) ∧
    (∀ src text, decodeHuffman src = .ok text ↔
      ∃ k ≤ 7, bitsOf src = encode codeWord text ++ List.replicate k true) ∧
    (∀ src src' text, decodeHuffman src = .ok text → decodeHuffman src' = .ok text → src = src') := by
  refine ⟨prefixFree_codeWord, ?_, bitsOf_encodeHuffman, ?_, fun _ _ => decodeHuffman_eq_ok_iff, ?_⟩
  · intro text
    exact decodeHuffman_eq_ok_iff.mpr (bitsOf_encodeHuffman text)
  · intro src
    rcases decodeHuffman_spec src with ⟨xs, k, hok, _⟩ | ⟨hinvalid, _⟩
    · rw [hok]
      rintro ⟨⟩
    · rw [hinvalid]
      rintro ⟨⟩
  · intro src src' text h h'
    obtain ⟨k, hk, hbits⟩ := decodeHuffman_eq_ok_iff.mp h
    obtain ⟨l, hl, hbits'⟩ := decodeHuffman_eq_ok_iff.mp h'
    -- both are as long as bytes are, with less than a byte of ones
    have hlen := congrArg List.length hbits
    have hlen' := congrArg List.length hbits'
    rw [length_bitsOf, List.length_append, List.length_replicate] at hlen hlen'
    have hkl : k = l := by omega
    apply bitsOf_inj
    rw [hbits, hbits', hkl]

end Hysteria

end Elise
