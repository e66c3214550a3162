/-
Elise/Lib/PrefixCode.lean

Bits, highest first, and prefix codes.

A number is written in `n` bits (`natBits`), bytes in eight bits each (`bitsOf`).
A text over an alphabet is written in the words of its letters, one after the
other (`encode`).  If no word starts another one, the text can be read again; and
if no word is all ones, it can be read from bits that are filled up with ones,
whose number need not be known (`encode_ones_inj`).
-/
import Mathlib

namespace PrefixCode

/-! ### Numbers in bits -/

/-- The lowest `n` bits, the highest of them first. -/
def natBits : (n : Nat) → Nat → List Bool
  | 0, _ => []
  | n + 1, v => v.testBit n :: natBits n v

@[simp] theorem length_natBits (n v : Nat) : (natBits n v).length = n := by
  induction n with
  | zero => rfl
  | succ n ih => rw [natBits, List.length_cons, ih]

/-- Only the lowest bits count. -/
theorem natBits_congr {n v w : Nat} (h : ∀ i < n, v.testBit i = w.testBit i) :
    natBits n v = natBits n w := by
  induction n with
  | zero => rfl
  | succ n ih =>
      rw [natBits, natBits, h n (Nat.lt_succ_self n), ih fun i hi => h i (Nat.lt_succ_of_lt hi)]

theorem natBits_mod {m n : Nat} (h : m ≤ n) (v : Nat) : natBits m (v % 2 ^ n) = natBits m v := by
  apply natBits_congr
  intro i hi
  rw [Nat.testBit_mod_two_pow, decide_eq_true (Nat.lt_of_lt_of_le hi h), Bool.true_and]

theorem natBits_add (m n v : Nat) : natBits (m + n) v = natBits m (v / 2 ^ n) ++ natBits n v := by
  induction m with
  | zero => rw [Nat.zero_add, natBits, List.nil_append]
  | succ m ih =>
      rw [Nat.succ_add, natBits, natBits, ih, Nat.testBit_div_two_pow, List.cons_append]

/-- Numbers one after the other. -/
theorem natBits_append {m n v w : Nat} (h : w < 2 ^ n) :
    natBits m v ++ natBits n w = natBits (m + n) (v * 2 ^ n + w) := by
  have hdiv : (v * 2 ^ n + w) / 2 ^ n = v := by
    rw [Nat.mul_comm, Nat.mul_add_div (Nat.two_pow_pos n), Nat.div_eq_of_lt h, Nat.add_zero]
  have hmod : (v * 2 ^ n + w) % 2 ^ n = w := by
    rw [Nat.mul_comm, Nat.mul_add_mod, Nat.mod_eq_of_lt h]
  rw [natBits_add, hdiv, ← natBits_mod (Nat.le_refl n) (v * 2 ^ n + w), hmod]

theorem take_natBits {m n : Nat} (h : m ≤ n) (v : Nat) :
    (natBits n v).take m = natBits m (v / 2 ^ (n - m)) := by
  have hsplit : natBits n v = natBits m (v / 2 ^ (n - m)) ++ natBits (n - m) v := by
    rw [← natBits_add, Nat.add_sub_cancel' h]
  rw [hsplit, List.take_left' (length_natBits m _)]

theorem drop_natBits {m n : Nat} (h : m ≤ n) (v : Nat) : (natBits n v).drop m = natBits (n - m) v := by
  have hsplit : natBits n v = natBits m (v / 2 ^ (n - m)) ++ natBits (n - m) v := by
    rw [← natBits_add, Nat.add_sub_cancel' h]
  rw [hsplit, List.drop_left' (length_natBits m _)]

theorem testBit_of_natBits {n v w : Nat} (h : natBits n v = natBits n w) {i : Nat} (hi : i < n) :
    v.testBit i = w.testBit i := by
  induction n with
  | zero => exact absurd hi (Nat.not_lt_zero i)
  | succ n ih =>
      obtain ⟨hhead, htail⟩ := List.cons.inj h
      rcases Nat.lt_succ_iff_lt_or_eq.mp hi with hlt | rfl
      · exact ih htail hlt
      · exact hhead

theorem natBits_inj {n v w : Nat} (hv : v < 2 ^ n) (hw : w < 2 ^ n) (h : natBits n v = natBits n w) :
    v = w := by
  apply Nat.eq_of_testBit_eq
  intro i
  by_cases hi : i < n
  · exact testBit_of_natBits h hi
  · have hpow : 2 ^ n ≤ 2 ^ i := Nat.pow_le_pow_right Nat.zero_lt_two (Nat.le_of_not_lt hi)
    rw [Nat.testBit_lt_two_pow (Nat.lt_of_lt_of_le hv hpow), Nat.testBit_lt_two_pow (Nat.lt_of_lt_of_le hw hpow)]

theorem natBits_ones (n : Nat) : natBits n (2 ^ n - 1) = List.replicate n true := by
  apply List.ext_getElem (by rw [length_natBits, List.length_replicate])
  intro i hi _
  rw [List.getElem_replicate]
  rw [length_natBits] at hi
  have hbit : (natBits n (2 ^ n - 1))[i]? = some true := by
    have hdrop := drop_natBits (Nat.le_of_lt hi) (2 ^ n - 1)
    obtain ⟨m, hm⟩ := Nat.exists_eq_succ_of_ne_zero (Nat.sub_ne_zero_of_lt hi)
    rw [← List.head?_drop, hdrop, hm, natBits, List.head?_cons, Nat.testBit_two_pow_sub_one,
      decide_eq_true (by omega)]
  rw [List.getElem?_eq_getElem (by rw [length_natBits]; exact hi)] at hbit
  exact Option.some.inj hbit

/-- A number starts another one if it is what is left when the lowest bits go. -/
theorem natBits_leading {m n v w : Nat} (hv : v < 2 ^ m) (hw : w < 2 ^ n)
    (h : natBits m v <+: natBits n w) : m ≤ n ∧ w / 2 ^ (n - m) = v := by
  have hle : m ≤ n := by
    have hlen := h.length_le
    rwa [length_natBits, length_natBits] at hlen
  refine ⟨hle, ?_⟩
  have heq := List.prefix_iff_eq_take.mp h
  rw [length_natBits, take_natBits hle] at heq
  refine (natBits_inj hv ?_ heq).symm
  rw [Nat.div_lt_iff_lt_mul (Nat.two_pow_pos _), ← Nat.pow_add, Nat.add_sub_cancel' hle]
  exact hw

/-! ### Words as numbers -/

/-- The word with a length and a number. -/
def wordBits (w : Nat × Nat) : List Bool := natBits w.1 w.2

/-- The first word starts the second one. -/
def starts (w w' : Nat × Nat) : Bool := w.1 ≤ w'.1 && w'.2 / 2 ^ (w'.1 - w.1) == w.2

/-- The first word is no longer than the second one, and lower at its length. -/
def Before (w w' : Nat × Nat) : Prop := w.1 ≤ w'.1 ∧ (w.2 + 1) * 2 ^ (w'.1 - w.1) ≤ w'.2

instance (w w' : Nat × Nat) : Decidable (Before w w') :=
  inferInstanceAs (Decidable (w.1 ≤ w'.1 ∧ (w.2 + 1) * 2 ^ (w'.1 - w.1) ≤ w'.2))

/-- The words that are shorter than `len`, the short ones first, with their places. -/
def byLength (words : List (Nat × Nat)) (len : Nat) : List ((Nat × Nat) × Nat) :=
  (List.range len).flatMap fun l => words.zipIdx.filter fun w => w.1.1 = l

/-- The words of each length follow one another, and the longer ones follow them. -/
def Canonical (words : List (Nat × Nat)) (len : Nat) : Prop :=
  (byLength words len).IsChain fun w w' => Before w.1 w'.1

instance (words : List (Nat × Nat)) (len : Nat) : Decidable (Canonical words len) :=
  inferInstanceAs (Decidable ((byLength words len).IsChain fun w w' => Before w.1 w'.1))

theorem starts_of_leading {w w' : Nat × Nat} (hw : w.2 < 2 ^ w.1) (hw' : w'.2 < 2 ^ w'.1)
    (h : wordBits w <+: wordBits w') : starts w w' = true := by
  obtain ⟨hle, hdiv⟩ := natBits_leading hw hw' h
  rw [starts, decide_eq_true hle, hdiv, beq_self_eq_true, Bool.and_self]

theorem Before.trans {w w' w'' : Nat × Nat} (h : Before w w') (h' : Before w' w'') : Before w w'' := by
  refine ⟨Nat.le_trans h.1 h'.1, ?_⟩
  have hsplit : w''.1 - w.1 = (w'.1 - w.1) + (w''.1 - w'.1) := by
    have hle := h.1
    have hle' := h'.1
    omega
  calc (w.2 + 1) * 2 ^ (w''.1 - w.1)
      = (w.2 + 1) * 2 ^ (w'.1 - w.1) * 2 ^ (w''.1 - w'.1) := by rw [hsplit, Nat.pow_add, Nat.mul_assoc]
    _ ≤ w'.2 * 2 ^ (w''.1 - w'.1) := Nat.mul_le_mul_right _ h.2
    _ ≤ (w'.2 + 1) * 2 ^ (w''.1 - w'.1) := Nat.mul_le_mul_right _ (Nat.le_succ _)
    _ ≤ w''.2 := h'.2

/-- Neither starts the other. -/
theorem Before.starts_eq_false {w w' : Nat × Nat} (h : Before w w') :
    starts w w' = false ∧ starts w' w = false := by
  have hpos := Nat.two_pow_pos (w'.1 - w.1)
  constructor
  · have hdiv : w.2 + 1 ≤ w'.2 / 2 ^ (w'.1 - w.1) := (Nat.le_div_iff_mul_le hpos).mpr h.2
    rw [starts, Bool.and_eq_false_iff, beq_eq_false_iff_ne]
    exact .inr (by omega)
  · rw [starts, Bool.and_eq_false_iff, decide_eq_false_iff_not, beq_eq_false_iff_ne]
    by_cases hle : w'.1 ≤ w.1
    · -- both have the same length
      have hsame : w'.1 - w.1 = 0 := by omega
      have hlower := h.2
      rw [hsame, Nat.pow_zero, Nat.mul_one] at hlower
      have hself : w.1 - w'.1 = 0 := by
        have hge := h.1
        omega
      rw [hself, Nat.pow_zero, Nat.div_one]
      exact .inr (by omega)
    · exact .inl hle

/-- The places of two words of which one starts the other are the same. -/
theorem eq_of_starts {words : List (Nat × Nat)} {len : Nat} (h : Canonical words len) {i j : Nat}
    {w w' : Nat × Nat} (hi : words[i]? = some w) (hj : words[j]? = some w') (hlen : w.1 < len)
    (hlen' : w'.1 < len) (hstarts : starts w w' = true) : i = j := by
  have hmem : ∀ {i w}, words[i]? = some w → w.1 < len → (w, i) ∈ byLength words len := by
    intro i w hi hlt
    refine List.mem_flatMap.mpr ⟨w.1, List.mem_range.mpr hlt, ?_⟩
    exact List.mem_filter.mpr ⟨List.mk_mem_zipIdx_iff_getElem?.mpr hi, decide_eq_true rfl⟩
  obtain ⟨p, hp, heq⟩ := List.getElem_of_mem (hmem hi hlen)
  obtain ⟨q, hq, heq'⟩ := List.getElem_of_mem (hmem hj hlen')
  have : IsTrans ((Nat × Nat) × Nat) fun w w' => Before w.1 w'.1 := ⟨fun _ _ _ => Before.trans⟩
  have hpairs := List.pairwise_iff_getElem.mp (List.isChain_iff_pairwise.mp h)
  rcases Nat.lt_trichotomy p q with hlt | hpq | hgt
  · have hbefore := hpairs p q hp hq hlt
    rw [heq, heq'] at hbefore
    rw [hbefore.starts_eq_false.1] at hstarts
    cases hstarts
  · subst hpq
    exact congrArg Prod.snd (heq.symm.trans heq')
  · have hbefore := hpairs q p hq hp hgt
    rw [heq, heq'] at hbefore
    rw [hbefore.starts_eq_false.2] at hstarts
    cases hstarts

/-- A check of all items with their places. -/
def allFrom {α : Type*} (p : Nat → α → Bool) : Nat → List α → Bool
  | _, [] => true
  | i, a :: as => p i a && allFrom p (i + 1) as

theorem of_allFrom {α : Type*} {p : Nat → α → Bool} {i j : Nat} {as : List α} {a : α}
    (h : allFrom p i as = true) (hj : as[j]? = some a) : p (i + j) a = true := by
  induction as generalizing i j with
  | nil => cases hj
  | cons b as ih =>
      rw [allFrom, Bool.and_eq_true] at h
      cases j with
      | zero =>
          obtain rfl := Option.some.inj hj
          exact h.1
      | succ j =>
          rw [List.getElem?_cons_succ] at hj
          have hrest := ih h.2 hj
          rwa [Nat.add_right_comm, Nat.add_assoc] at hrest

/-! ### Bytes in bits -/

def bitsOf (bytes : List UInt8) : List Bool := bytes.flatMap fun b => natBits 8 b.toNat

theorem bitsOf_cons (b : UInt8) (bytes : List UInt8) :
    bitsOf (b :: bytes) = natBits 8 b.toNat ++ bitsOf bytes := rfl

theorem bitsOf_append (xs ys : List UInt8) : bitsOf (xs ++ ys) = bitsOf xs ++ bitsOf ys :=
  List.flatMap_append

theorem length_bitsOf (bytes : List UInt8) : (bitsOf bytes).length = 8 * bytes.length := by
  induction bytes with
  | nil => rfl
  | cons b bytes ih =>
      rw [bitsOf_cons, List.length_append, length_natBits, ih, List.length_cons, Nat.mul_succ, Nat.add_comm]

theorem bitsOf_inj {xs ys : List UInt8} (h : bitsOf xs = bitsOf ys) : xs = ys := by
  have hlen : xs.length = ys.length := by
    have h8 := congrArg List.length h
    rw [length_bitsOf, length_bitsOf] at h8
    exact Nat.eq_of_mul_eq_mul_left (by decide) h8
  induction xs generalizing ys with
  | nil =>
      cases ys with
      | nil => rfl
      | cons y ys => cases hlen
  | cons x xs ih =>
      cases ys with
      | nil => cases hlen
      | cons y ys =>
          rw [bitsOf_cons, bitsOf_cons] at h
          obtain ⟨hhead, htail⟩ := List.append_inj h (by rw [length_natBits, length_natBits])
          have hxy : x = y := UInt8.toNat_inj.mp (natBits_inj x.toNat_lt y.toNat_lt hhead)
          rw [hxy, ih htail (Nat.succ.inj hlen)]

/-- The number that is written in bits. -/
def ofBits (bits : List Bool) : Nat := bits.foldl (fun v b => 2 * v + b.toNat) 0

theorem ofBits_concat (bits : List Bool) (b : Bool) : ofBits (bits ++ [b]) = 2 * ofBits bits + b.toNat := by
  rw [ofBits, List.foldl_append]
  rfl

theorem natBits_ofBits (bits : List Bool) : natBits bits.length (ofBits bits) = bits := by
  induction bits using List.reverseRecOn with
  | nil => rfl
  | append_singleton bits b ih =>
      have hb : b.toNat < 2 ^ 1 := Bool.toNat_lt b
      have hlast : natBits 1 b.toNat = [b] := by
        cases b with
        | false => rfl
        | true => rfl
      rw [ofBits_concat, List.length_append, List.length_singleton, Nat.mul_comm]
      show natBits (bits.length + 1) (ofBits bits * 2 ^ 1 + b.toNat) = bits ++ [b]
      rw [← natBits_append hb, ih, hlast]

theorem ofBits_lt (bits : List Bool) : ofBits bits < 2 ^ bits.length := by
  induction bits using List.reverseRecOn with
  | nil => exact Nat.one_pos
  | append_singleton bits b ih =>
      have hb : b.toNat < 2 := Bool.toNat_lt b
      rw [ofBits_concat, List.length_append, List.length_singleton, Nat.pow_succ]
      omega

/-- Bits that fill bytes, as bytes. -/
def pack : (n : Nat) → List Bool → List UInt8
  | 0, _ => []
  | n + 1, bits => UInt8.ofNat (ofBits (bits.take 8)) :: pack n (bits.drop 8)

theorem bitsOf_pack {n : Nat} {bits : List Bool} (h : bits.length = 8 * n) : bitsOf (pack n bits) = bits := by
  induction n generalizing bits with
  | zero => exact (List.length_eq_zero_iff.mp h).symm
  | succ n ih =>
      have htake : (bits.take 8).length = 8 := List.length_take_of_le (by omega)
      have hlt := ofBits_lt (bits.take 8)
      rw [htake] at hlt
      have hbyte : natBits 8 (UInt8.ofNat (ofBits (bits.take 8))).toNat = bits.take 8 := by
        rw [UInt8.toNat_ofNat_of_lt' hlt]
        have hbits := natBits_ofBits (bits.take 8)
        rwa [htake] at hbits
      rw [pack, bitsOf_cons, hbyte, ih (by rw [List.length_drop]; omega), List.take_append_drop]

/-! ### Codes -/

variable {α : Type*}

/-- The words of the letters, one after the other. -/
def encode (code : α → List Bool) (text : List α) : List Bool := text.flatMap code

/-- No word starts another one. -/
def PrefixFree (code : α → List Bool) : Prop := ∀ a b, code a <+: code b → a = b

/-- No word is all ones. -/
def NoOnes (code : α → List Bool) : Prop := ∀ a n, code a ≠ List.replicate n true

variable {code : α → List Bool}

@[simp] theorem encode_nil : encode code [] = [] := rfl

@[simp] theorem encode_cons (a : α) (text : List α) : encode code (a :: text) = code a ++ encode code text :=
  rfl

theorem encode_append (xs ys : List α) : encode code (xs ++ ys) = encode code xs ++ encode code ys :=
  List.flatMap_append

/-- The letter with which bits begin. -/
theorem PrefixFree.eq_of_leading (h : PrefixFree code) {a b : α} {bits : List Bool} (ha : code a <+: bits)
    (hb : code b <+: bits) : a = b := by
  rcases List.prefix_or_prefix_of_prefix ha hb with hab | hba
  · exact h a b hab
  · exact (h b a hba).symm

theorem NoOnes.not_leading (h : NoOnes code) {a : α} {n : Nat} : ¬ code a <+: List.replicate n true := by
  intro hpre
  obtain ⟨_, heq⟩ := List.prefix_replicate_iff.mp hpre
  exact h a _ heq

/-- Bits that begin with a word, and are a text that is filled up with ones: the
text begins with the letter of the word. -/
theorem exists_cons_of_leading (hfree : PrefixFree code) (hones : NoOnes code) {a : α} {text : List α} {k : Nat}
    (h : code a <+: encode code text ++ List.replicate k true) : ∃ rest, text = a :: rest := by
  cases text with
  | nil =>
      rw [encode_nil, List.nil_append] at h
      exact absurd h hones.not_leading
  | cons b rest =>
      have hb : code b <+: encode code (b :: rest) ++ List.replicate k true := by
        rw [encode_cons, List.append_assoc]
        exact List.prefix_append _ _
      obtain rfl := hfree.eq_of_leading h hb
      exact ⟨rest, rfl⟩

/-- The text goes on after the letters whose words were read. -/
theorem exists_append_of_eq (hfree : PrefixFree code) (hones : NoOnes code) {xs text : List α} {k : Nat}
    {rest : List Bool} (h : encode code xs ++ rest = encode code text ++ List.replicate k true) :
    ∃ ys, text = xs ++ ys ∧ rest = encode code ys ++ List.replicate k true := by
  induction xs generalizing text with
  | nil => exact ⟨text, rfl, h⟩
  | cons x xs ih =>
      have hpre : code x <+: encode code text ++ List.replicate k true := by
        rw [← h, encode_cons, List.append_assoc]
        exact List.prefix_append _ _
      obtain ⟨text, rfl⟩ := exists_cons_of_leading hfree hones hpre
      rw [encode_cons, encode_cons, List.append_assoc, List.append_assoc] at h
      obtain ⟨ys, rfl, hrest⟩ := ih (List.append_cancel_left h)
      exact ⟨ys, rfl, hrest⟩

/-- **Filled up with ones, a text can be read again.** -/
theorem encode_ones_inj (hfree : PrefixFree code) (hones : NoOnes code) {xs ys : List α} {k l : Nat}
    (h : encode code xs ++ List.replicate k true = encode code ys ++ List.replicate l true) :
    xs = ys ∧ k = l := by
  obtain ⟨rest, rfl, hrest⟩ := exists_append_of_eq hfree hones h
  cases rest with
  | nil =>
      refine ⟨(List.append_nil xs).symm, ?_⟩
      have hlen := congrArg List.length hrest
      simpa using hlen
  | cons y rest =>
      exfalso
      have hpre : code y <+: List.replicate k true := by
        rw [hrest, encode_cons, List.append_assoc]
        exact List.prefix_append _ _
      exact hones.not_leading hpre

end PrefixCode
