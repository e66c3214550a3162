/-
Elise/Lib/BitPlaces.lean

Bits in words of 64: the places of those that are set, and bitmaps over several words.

`x & -x` is the lowest set bit and `x & (x - 1)` is the word without it, so a loop that clears
one bit after the other goes through the places (`Places.cons`).  Turning a word moves its set
bits and does not change how many there are (`length_places_turn`).

Bit `d` of a list of words is bit `d % 64` of word `d / 64`.  A bitmap is shifted in place from
the last word to the first, and each word takes its bits from words that are not yet written, so
that in the end every bit has moved up by the same distance (`bit_shiftUp`).
-/
import Mathlib

namespace Bits

/-! ### Bits of a word -/

def bit (x : UInt64) (i : Nat) : Bool := x.toBitVec.getLsbD i

variable {x y : UInt64} {i k : Nat}

theorem ext (h : ∀ i < 64, bit x i = bit y i) : x = y := by
  apply UInt64.toBitVec_inj.mp
  apply BitVec.eq_of_getLsbD_eq
  intro i hi
  exact h i hi

theorem bit_of_ge (x : UInt64) (h : 64 ≤ i) : bit x i = false := BitVec.getLsbD_of_ge x.toBitVec i h

theorem lt_of_bit (h : bit x i = true) : i < 64 := by
  by_contra hge
  rw [bit_of_ge x (by omega)] at h
  cases h

theorem bit_eq_testBit (x : UInt64) (i : Nat) : bit x i = x.toNat.testBit i := rfl

@[simp] theorem bit_zero (i : Nat) : bit 0 i = false := by
  simp [bit]

@[simp] theorem bit_and (x y : UInt64) (i : Nat) : bit (x &&& y) i = (bit x i && bit y i) := by
  simp [bit]

@[simp] theorem bit_or (x y : UInt64) (i : Nat) : bit (x ||| y) i = (bit x i || bit y i) := by
  simp [bit]

theorem bit_not (x : UInt64) (i : Nat) : bit (~~~x) i = (decide (i < 64) && !bit x i) := by
  simp [bit]

theorem bit_ofNat (n i : Nat) : bit (UInt64.ofNat n) i = (decide (i < 64) && n.testBit i) := by
  rw [bit_eq_testBit, UInt64.toNat_ofNat', Nat.testBit_mod_two_pow]

theorem bit_shiftLeft_one (x : UInt64) (i : Nat) :
    bit (x <<< 1) i = (decide (i < 64) && decide (0 < i) && bit x (i - 1)) := by
  rcases i with - | i
  · simp [bit]
  · simp [bit]

/-- The bits of the opposite: up to the lowest set bit as they are, and the others turned. -/
theorem bit_neg (x : UInt64) (hi : i < 64) :
    bit (0 - x) i = (bit x i ^^ decide (∃ j < i, bit x j = true)) := by
  have hneg : (0 - x).toBitVec = -x.toBitVec := by
    rw [UInt64.toBitVec_sub]
    exact BitVec.zero_sub _
  show (0 - x).toBitVec.getLsbD i = _
  rw [hneg, BitVec.getLsbD_neg, decide_eq_true hi, Bool.true_and]
  rfl

theorem bit_pred (x : UInt64) (hi : i < 64) :
    bit (x - 1) i = !(bit x i ^^ decide (∃ j < i, bit x j = true)) := by
  have hpred : (x - 1).toBitVec = ~~~(-x.toBitVec) := by
    rw [BitVec.not_neg, UInt64.toBitVec_sub]
    rfl
  have hneg : (0 - x).toBitVec = -x.toBitVec := by
    rw [UInt64.toBitVec_sub]
    exact BitVec.zero_sub _
  show (x - 1).toBitVec.getLsbD i = _
  rw [hpred, BitVec.getLsbD_not, decide_eq_true hi, Bool.true_and, ← hneg]
  exact congrArg not (bit_neg x hi)

/-- The lowest set bit. -/
theorem bit_lowest (x : UInt64) (i : Nat) :
    bit (x &&& (0 - x)) i = true ↔ bit x i = true ∧ ∀ j < i, bit x j = false := by
  rw [bit_and, Bool.and_eq_true]
  apply and_congr_right
  intro hbit
  rw [bit_neg x (lt_of_bit hbit), hbit, Bool.true_xor, Bool.not_eq_true', decide_eq_false_iff_not]
  simp

/-- The word without its lowest set bit. -/
theorem bit_clear_lowest (x : UInt64) (i : Nat) :
    bit (x &&& (x - 1)) i = true ↔ bit x i = true ∧ ∃ j < i, bit x j = true := by
  rw [bit_and, Bool.and_eq_true]
  apply and_congr_right
  intro hbit
  rw [bit_pred x (lt_of_bit hbit), hbit, Bool.true_xor, Bool.not_not, decide_eq_true_eq]

/-! ### Places -/

/-- The places of the set bits, from the lowest on. -/
structure Places (x : UInt64) (ps : List Nat) : Prop where
  sorted : ps.Pairwise (· < ·)
  mem : ∀ i, i ∈ ps ↔ bit x i = true

def places (x : UInt64) : List Nat := (List.range 64).filter (bit x)

theorem places_spec (x : UInt64) : Places x (places x) where
  sorted := List.pairwise_lt_range.filter _
  mem i := by
    rw [places, List.mem_filter, List.mem_range]
    exact and_iff_right_of_imp lt_of_bit

theorem length_places_le (x : UInt64) : (places x).length ≤ 64 :=
  (List.length_filter_le _ _).trans_eq List.length_range

namespace Places

variable {ps : List Nat} {p : Nat}

theorem lt (h : Places x ps) (hp : p ∈ ps) : p < 64 := lt_of_bit ((h.mem p).mp hp)

theorem nil (h : Places x []) : x = 0 := by
  apply ext
  intro i _
  rw [bit_zero]
  apply Bool.eq_false_iff.mpr
  intro hbit
  exact absurd ((h.mem i).mpr hbit) List.not_mem_nil

/-- **The lowest place**, and the others without it. -/
theorem cons (h : Places x (p :: ps)) :
    x ≠ 0 ∧ (∀ i, bit (x &&& (0 - x)) i = true ↔ i = p) ∧ Places (x &&& (x - 1)) ps := by
  obtain ⟨hfirst, hsorted⟩ := List.pairwise_cons.mp h.sorted
  have hp : bit x p = true := (h.mem p).mp List.mem_cons_self
  have hleast : ∀ i, bit x i = true → p ≤ i := by
    intro i hi
    rcases List.mem_cons.mp ((h.mem i).mpr hi) with rfl | hmem
    · exact Nat.le_refl _
    · exact (hfirst i hmem).le
  refine ⟨?_, ?_, hsorted, ?_⟩
  · rintro rfl
    rw [bit_zero] at hp
    cases hp
  · intro i
    rw [bit_lowest]
    constructor
    · rintro ⟨hi, hlow⟩
      by_contra hne
      have hlt : p < i := Nat.lt_of_le_of_ne (hleast i hi) (Ne.symm hne)
      rw [hlow p hlt] at hp
      cases hp
    · rintro rfl
      refine ⟨hp, ?_⟩
      intro j hj
      apply Bool.eq_false_iff.mpr
      intro hset
      have := hleast j hset
      omega
  · intro i
    rw [bit_clear_lowest]
    constructor
    · intro hmem
      exact ⟨(h.mem i).mp (List.mem_cons_of_mem _ hmem), p, hfirst i hmem, hp⟩
    · rintro ⟨hi, j, hj, hset⟩
      rcases List.mem_cons.mp ((h.mem i).mpr hi) with rfl | hmem
      · have := hleast j hset
        omega
      · exact hmem

/-- A place has one rank. -/
theorem rank_unique (h : Places x ps) {r r' : Nat} (hr : ps[r]? = some p) (hr' : ps[r']? = some p) :
    r = r' := by
  have hnodup : ps.Nodup := h.sorted.imp Nat.ne_of_lt
  obtain ⟨hlt, hget⟩ := List.getElem?_eq_some_iff.mp hr
  obtain ⟨hlt', hget'⟩ := List.getElem?_eq_some_iff.mp hr'
  exact (hnodup.getElem_inj_iff).mp (hget.trans hget'.symm)

end Places

/-! ### How many there are -/

theorem length_places (x : UInt64) : (places x).length = (List.range 64).countP (bit x) :=
  List.countP_eq_length_filter.symm

/-- The places of a cycle, turned. -/
theorem perm_turn (n k : Nat) : ((List.range n).map fun i => (i + k) % n).Perm (List.range n) := by
  have hinj : ((List.range n).map fun i => (i + k) % n).Nodup := by
    rw [List.nodup_map_iff_inj_on List.nodup_range]
    intro i hi j hj heq
    rw [List.mem_range] at hi hj
    have hmod : i ≡ j [MOD n] := Nat.ModEq.add_right_cancel' k heq
    exact Nat.ModEq.eq_of_lt_of_lt hmod hi hj
  have hsub : ((List.range n).map fun i => (i + k) % n) ⊆ List.range n := by
    intro j hj
    obtain ⟨i, hi, rfl⟩ := List.mem_map.mp hj
    rw [List.mem_range] at hi ⊢
    exact Nat.mod_lt _ (by omega)
  exact (List.subperm_of_subset hinj hsub).perm_of_length_le (by simp)

/-- **A word that is turned has as many set bits.** -/
theorem length_places_turn (h : ∀ i < 64, bit y i = bit x ((i + k) % 64)) :
    (places y).length = (places x).length := by
  rw [length_places, length_places, ← (perm_turn 64 k).countP_eq (bit x), List.countP_map]
  apply List.countP_congr
  intro i hi
  rw [h i (List.mem_range.mp hi)]
  rfl

end Bits

namespace Bitmap

abbrev Words := List (BitVec 64)

def word (words : Words) (i : Nat) : BitVec 64 := words[i]?.getD 0#64

def bit (words : Words) (d : Nat) : Bool := (word words (d / 64)).getLsbD (d % 64)

/-- The bit is found with a mask. -/
def test (words : Words) (d : Nat) : Bool :=
  word words (d / 64) &&& (1#64 <<< (d % 64)) ≠ 0#64

/-- The bit is set with a mask. -/
def insert (words : Words) (d : Nat) : Words :=
  words.set (d / 64) (word words (d / 64) ||| (1#64 <<< (d % 64)))

/-- Word `i` moved up by `ws` words and `bs` bits. -/
def shiftedWord (ws bs : Nat) (words : Words) (i : Nat) : BitVec 64 :=
  if ws ≤ i then
    let val := word words (i - ws) <<< bs
    if 0 < bs ∧ ws < i then val ||| (word words (i - ws - 1) >>> (64 - bs)) else val
  else 0#64

/-- Move up the first `n` words in place, the last of them first. -/
def shiftLoop (ws bs : Nat) : Nat → Words → Words
  | 0, words => words
  | i + 1, words => shiftLoop ws bs i (words.set i (shiftedWord ws bs words i))

/-- Move all bits up by `diff`. -/
def shiftUp (words : Words) (diff : Nat) : Words :=
  shiftLoop (diff / 64) (diff % 64) words.length words

/-! ### Words -/

theorem word_set {words : Words} {i : Nat} (v : BitVec 64) (h : i < words.length) (j : Nat) :
    word (words.set i v) j = if j = i then v else word words j := by
  rw [word, List.getElem?_set]
  by_cases hji : j = i
  · subst hji
    simp [h]
  · rw [if_neg (Ne.symm hji), if_neg hji, word]

/-- A word is made of words at or below it. -/
theorem shiftedWord_set {words : Words} {i j : Nat} (v : BitVec 64) (h : i < words.length)
    (hj : j < i) (ws bs : Nat) :
    shiftedWord ws bs (words.set i v) j = shiftedWord ws bs words j := by
  have hword : ∀ k ≤ j, word (words.set i v) k = word words k := by
    intro k hk
    rw [word_set v h, if_neg (by omega)]
  rw [shiftedWord, shiftedWord, hword (j - ws) (by omega), hword (j - ws - 1) (by omega)]

@[simp] theorem length_shiftLoop (ws bs n : Nat) (words : Words) :
    (shiftLoop ws bs n words).length = words.length := by
  induction n generalizing words with
  | zero => rfl
  | succ n ih => rw [shiftLoop, ih, List.length_set]

theorem word_shiftLoop (ws bs : Nat) {n : Nat} {words : Words} (h : n ≤ words.length) (j : Nat) :
    word (shiftLoop ws bs n words) j = if j < n then shiftedWord ws bs words j else word words j := by
  -- on the number of words left: what is written lies above everything read later
  induction n generalizing words with
  | zero => simp [shiftLoop]
  | succ n ih =>
      rw [shiftLoop, ih (by rw [List.length_set]; omega)]
      rcases Nat.lt_trichotomy j n with hlt | rfl | hgt
      · rw [if_pos hlt, if_pos (by omega), shiftedWord_set _ (by omega) hlt]
      · rw [if_neg (Nat.lt_irrefl _), if_pos (by omega), word_set _ (by omega), if_pos rfl]
      · rw [if_neg (by omega), if_neg (by omega), word_set _ (by omega), if_neg (by omega)]

/-! ### Bits -/

@[simp] theorem length_insert (words : Words) (d : Nat) :
    (insert words d).length = words.length := by
  simp [insert]

@[simp] theorem length_shiftUp (words : Words) (diff : Nat) :
    (shiftUp words diff).length = words.length := by
  simp [shiftUp]

theorem test_eq_bit (words : Words) (d : Nat) : test words d = bit words d := by
  have hlt : d % 64 < 64 := Nat.mod_lt _ (by decide)
  rw [test, bit, ← BitVec.twoPow_eq, BitVec.and_twoPow]
  cases (word words (d / 64)).getLsbD (d % 64) with
  | true =>
      have hne : BitVec.twoPow 64 (d % 64) ≠ 0#64 := by
        intro heq
        have := congrArg (fun w => w.getLsbD (d % 64)) heq
        simp [hlt] at this
      simp [hne]
  | false => simp

theorem bit_insert {words : Words} {d : Nat} (h : d < 64 * words.length) (e : Nat) :
    bit (insert words d) e = (decide (e = d) || bit words e) := by
  have hword : d / 64 < words.length := by omega
  have hlt : d % 64 < 64 := Nat.mod_lt _ (by decide)
  rw [bit, insert, word_set _ hword]
  by_cases hsame : e / 64 = d / 64
  · have heq : e = d ↔ d % 64 = e % 64 := by omega
    rw [if_pos hsame, ← BitVec.twoPow_eq, BitVec.getLsbD_or, BitVec.getLsbD_twoPow, bit, hsame]
    simp [heq, hlt, Bool.or_comm]
  · have hne : e ≠ d := by
      rintro rfl
      exact hsame rfl
    simp [hsame, hne, bit]

/-- **Every bit moves up by `diff`.** -/
theorem bit_shiftUp {words : Words} {d : Nat} (h : d < 64 * words.length) (diff : Nat) :
    bit (shiftUp words diff) d = (decide (diff ≤ d) && bit words (d - diff)) := by
  have hbs : diff % 64 < 64 := Nat.mod_lt _ (by decide)
  have hd : d % 64 < 64 := Nat.mod_lt _ (by decide)
  rw [bit, shiftUp, word_shiftLoop _ _ (Nat.le_refl _), if_pos (by omega), shiftedWord]
  by_cases hws : diff / 64 ≤ d / 64
  · simp only [if_pos hws]
    by_cases hbit : diff % 64 ≤ d % 64
    -- the bit comes from the word `diff / 64` below
    · have hle : diff ≤ d := by omega
      have hfrom : (d - diff) / 64 = d / 64 - diff / 64 ∧ (d - diff) % 64 = d % 64 - diff % 64 := by
        omega
      have hout : ∀ w : BitVec 64, w.getLsbD (64 - diff % 64 + d % 64) = false :=
        fun w => BitVec.getLsbD_of_ge w _ (by omega)
      have hshift : (word words (d / 64 - diff / 64) <<< (diff % 64)).getLsbD (d % 64) =
          (decide (diff ≤ d) && bit words (d - diff)) := by
        rw [BitVec.getLsbD_shiftLeft, bit, hfrom.1, hfrom.2]
        simp only [hd, hle, Nat.not_lt.mpr hbit, decide_true, decide_false, Bool.not_false,
          Bool.true_and]
      split
      · rw [BitVec.getLsbD_or, BitVec.getLsbD_ushiftRight, hout, Bool.or_false, hshift]
      · exact hshift
    -- or from the one below that, if there is one
    · have hlt : d % 64 < diff % 64 := by omega
      by_cases hmore : diff / 64 < d / 64
      · have hle : diff ≤ d := by omega
        have hfrom : (d - diff) / 64 = d / 64 - diff / 64 - 1 ∧
            (d - diff) % 64 = 64 - diff % 64 + d % 64 := by
          omega
        rw [if_pos ⟨by omega, hmore⟩]
        simp [bit, hfrom, hle, hd, hlt]
      · have hle : ¬ diff ≤ d := by omega
        rw [if_neg (by omega)]
        simp [hle, hlt]
  · have hle : ¬ diff ≤ d := by omega
    rw [if_neg hws]
    simp [hle]

end Bitmap
