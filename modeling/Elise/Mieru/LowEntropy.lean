/-
Elise/Mieru/LowEntropy.lean

The low-entropy encoding and its decoding undo each other (`encode_low_entropy` and
`decode_low_entropy` in src/protocol/mieru/pattern.rs).

A mask is known by the places of its bits.  `pdep_generic` puts the r-th bit of the source at the
r-th place, `pext_generic` takes it from there, so what one does at a place of the data the other
undoes.  The padding of a chunk is told apart because a chunk has at most 56 data bits.
-/
import Elise.Lib.BitPlaces
import Elise.Lib.Wire
import Elise.Mieru.Frame

namespace Elise

namespace Mieru

open Net Bits

/-! ### Encoding -/

/-- How many bits of the half mask the modes ask for. -/
def halfMaskOnes (mode : Nat) : Nat :=
  match mode with
  | 1 => 16
  | 2 => 20
  | 3 => 24
  | 4 => 28
  | _ => 16

/-- One chunk with a piece of the payload. -/
def encodeChunk (initialMask : UInt64) (rotation : Nat) (paddingBit : UInt8) (chunkIdx : Nat)
    (piece : List UInt8) : List UInt8 :=
  let scratch := List.replicate (8 - piece.length) 0 ++ piece
  let source := UInt64.ofNat (ofBeBytes scratch)
  let chunkMask := rotateMask initialMask rotation chunkIdx
  let dataMask := pdepGeneric (lowBits (piece.length * 8)) chunkMask
  let chunk := pdepGeneric source chunkMask
  toBeBytes 8 (if paddingBit = 1 then chunk ||| ~~~dataMask else chunk).toNat

/-- The chunks from `chunkIdx` on.  A round encodes at least one byte. -/
def encodeChunks (perChunk : Nat) (initialMask : UInt64) (rotation : Nat) (paddingBit : UInt8) :
    (rounds chunkIdx : Nat) → List UInt8 → List UInt8
  | 0, _, _ => []
  | rounds + 1, chunkIdx, src =>
      if src.length = 0 then []
      else
        encodeChunk initialMask rotation paddingBit chunkIdx (src.take (min perChunk src.length)) ++
          encodeChunks perChunk initialMask rotation paddingBit rounds (chunkIdx + 1)
            (src.drop perChunk)

def encodeLowEntropy (src : List UInt8) (mode : Nat) (halfMask : UInt32) (rotation : Nat)
    (paddingBit : UInt8) : Except String (List UInt8) :=
  match sourceBytesPerChunk mode, lowEntropyEncodedLen src.length mode with
  | .error e, _ => .error e
  | _, .error e => .error e
  | .ok perChunk, .ok _ =>
      .ok (encodeChunks perChunk (repeatU32 halfMask) rotation paddingBit src.length 0 src)

/-! ### Depositing and extracting -/

/-- The word has the `k`-th bit and no other. -/
def Single (s : UInt64) (k : Nat) : Prop := ∀ j, bit s j = true ↔ j = k ∧ k < 64

theorem single_one : Single 1 0 := by
  intro j
  rw [bit_eq_testBit, show (1 : UInt64).toNat = 2 ^ 0 from rfl, Nat.testBit_two_pow,
    decide_eq_true_eq]
  omega

variable {s x mask : UInt64} {k : Nat} {ps : List Nat}

theorem Single.shift (h : Single s k) : Single (s <<< 1) (k + 1) := by
  intro j
  rw [bit_shiftLeft_one, Bool.and_eq_true, Bool.and_eq_true, decide_eq_true_eq, decide_eq_true_eq,
    h (j - 1)]
  omega

theorem Single.and_ne_zero (h : Single s k) (x : UInt64) : x &&& s ≠ 0 ↔ bit x k = true := by
  constructor
  · intro hne
    by_contra hno
    apply hne
    apply Bits.ext
    intro i _
    rw [bit_and, bit_zero]
    apply Bool.eq_false_iff.mpr
    intro hboth
    obtain ⟨hx, hs⟩ := Bool.and_eq_true_iff.mp hboth
    obtain ⟨rfl, -⟩ := (h i).mp hs
    exact hno hx
  · intro hx hzero
    have hs : bit s k = true := (h k).mpr ⟨rfl, lt_of_bit hx⟩
    have hboth : bit (x &&& s) k = true := by rw [bit_and, hx, hs]; rfl
    rw [hzero, bit_zero] at hboth
    cases hboth

theorem bit_pdepLoop (hm : Places mask ps) {rounds : Nat} (hr : ps.length ≤ rounds)
    (hs : Single s k) (result : UInt64) (q : Nat) :
    bit (pdepLoop x rounds mask s result) q = true ↔
      bit result q = true ∨ ∃ r, ps[r]? = some q ∧ bit x (k + r) = true := by
  -- on the rounds: each takes the lowest place off the mask
  induction rounds generalizing mask ps s k result with
  | zero =>
      obtain rfl := List.length_eq_zero_iff.mp (Nat.le_zero.mp hr)
      simp [pdepLoop]
  | succ rounds ih =>
      rw [pdepLoop]
      cases ps with
      | nil =>
          rw [if_pos hm.nil]
          simp
      | cons p ps =>
          obtain ⟨hne, hlowest, hrest⟩ := hm.cons
          rw [if_neg hne]
          simp only
          rw [ih hrest (Nat.le_of_succ_le_succ hr) hs.shift]
          have hresult : bit (if x &&& s ≠ 0 then result ||| (mask &&& (0 - mask)) else result) q =
              true ↔ bit result q = true ∨ q = p ∧ bit x k = true := by
            by_cases hx : bit x k = true
            · rw [if_pos ((hs.and_ne_zero x).mpr hx), bit_or, Bool.or_eq_true, hlowest q,
                and_iff_left hx]
            · rw [if_neg (mt (hs.and_ne_zero x).mp hx), or_iff_left (fun h => hx h.2)]
          rw [hresult, or_assoc]
          apply or_congr_right
          constructor
          · rintro (⟨rfl, hx⟩ | ⟨r, hq, hx⟩)
            · exact ⟨0, rfl, hx⟩
            · exact ⟨r + 1, hq, by rwa [show k + (r + 1) = k + 1 + r by omega]⟩
          · rintro ⟨r, hq, hx⟩
            cases r with
            | zero => exact .inl ⟨(Option.some.inj hq).symm, hx⟩
            | succ r => exact .inr ⟨r, hq, by rwa [show k + 1 + r = k + (r + 1) by omega]⟩

theorem bit_pextLoop (hm : Places mask ps) {rounds : Nat} (hr : ps.length ≤ rounds)
    (hs : Single s k) (hk : k + ps.length ≤ 64) (result : UInt64) (i : Nat) :
    bit (pextLoop x rounds mask s result) i = true ↔
      bit result i = true ∨ ∃ r p, i = k + r ∧ ps[r]? = some p ∧ bit x p = true := by
  induction rounds generalizing mask ps s k result with
  | zero =>
      obtain rfl := List.length_eq_zero_iff.mp (Nat.le_zero.mp hr)
      simp [pextLoop]
  | succ rounds ih =>
      rw [pextLoop]
      cases ps with
      | nil =>
          rw [if_pos hm.nil]
          simp
      | cons p ps =>
          obtain ⟨hne, hlowest, hrest⟩ := hm.cons
          have hp : Single (mask &&& (0 - mask)) p := fun j =>
            (hlowest j).trans (and_iff_left (hm.lt List.mem_cons_self)).symm
          rw [List.length_cons] at hr hk
          rw [if_neg hne]
          simp only
          rw [ih hrest (by omega) hs.shift (by omega)]
          have hresult : bit (if x &&& (mask &&& (0 - mask)) ≠ 0 then result ||| s else result) i =
              true ↔ bit result i = true ∨ i = k ∧ bit x p = true := by
            by_cases hx : bit x p = true
            · rw [if_pos ((hp.and_ne_zero x).mpr hx), bit_or, Bool.or_eq_true, hs i,
                and_iff_left hx, and_iff_left (show k < 64 by omega)]
            · rw [if_neg (mt (hp.and_ne_zero x).mp hx), or_iff_left (fun h => hx h.2)]
          rw [hresult, or_assoc]
          apply or_congr_right
          constructor
          · rintro (⟨rfl, hx⟩ | ⟨r, q, rfl, hq, hx⟩)
            · exact ⟨0, p, rfl, rfl, hx⟩
            · exact ⟨r + 1, q, by omega, hq, hx⟩
          · rintro ⟨r, q, rfl, hq, hx⟩
            cases r with
            | zero =>
                obtain rfl := Option.some.inj hq
                exact .inl ⟨rfl, hx⟩
            | succ r => exact .inr ⟨r, q, by omega, hq, hx⟩

/-- **The r-th bit goes to the r-th place.** -/
theorem bit_pdep (x mask : UInt64) (q : Nat) :
    bit (pdepGeneric x mask) q = true ↔ ∃ r, (places mask)[r]? = some q ∧ bit x r = true := by
  rw [pdepGeneric, bit_pdepLoop (places_spec mask) (length_places_le mask) single_one, bit_zero]
  simp

/-- **The r-th bit is taken from the r-th place.** -/
theorem bit_pext (x mask : UInt64) (r : Nat) :
    bit (pextGeneric x mask) r = true ↔ ∃ p, (places mask)[r]? = some p ∧ bit x p = true := by
  rw [pextGeneric, bit_pextLoop (places_spec mask) (length_places_le mask) single_one
    (by rw [Nat.zero_add]; exact length_places_le mask), bit_zero]
  simp

/-! ### The data of a chunk -/

theorem bit_lowBits {n : Nat} (hn : n < 64) (i : Nat) : bit (lowBits n) i = true ↔ i < n := by
  have hshift : (UInt64.ofNat n).toNat = n := by
    rw [UInt64.toNat_ofNat']
    omega
  have hpow : 2 ^ n < 2 ^ 64 := Nat.pow_lt_pow_right (by decide) hn
  have hone : (1 <<< UInt64.ofNat n : UInt64).toNat = 2 ^ n := by
    rw [UInt64.toNat_shiftLeft, hshift, Nat.mod_eq_of_lt hn, UInt64.toNat_one, Nat.one_shiftLeft,
      Nat.mod_eq_of_lt hpow]
  have hle : (1 : UInt64) ≤ 1 <<< UInt64.ofNat n := by
    rw [UInt64.le_iff_toNat_le, hone]
    exact Nat.one_le_two_pow
  rw [lowBits, if_neg (by omega), bit_eq_testBit, UInt64.toNat_sub_of_le _ _ hle, hone,
    UInt64.toNat_one, Nat.testBit_two_pow_sub_one, decide_eq_true_eq]

/-- The bits of a mask that carry the first `n` bits of a source. -/
def dataMask (n : Nat) (mask : UInt64) : UInt64 := pdepGeneric (lowBits n) mask

variable {n : Nat}

theorem bit_dataMask (hn : n < 64) (mask : UInt64) (q : Nat) :
    bit (dataMask n mask) q = true ↔ ∃ r < n, (places mask)[r]? = some q := by
  rw [dataMask, bit_pdep]
  constructor
  · rintro ⟨r, hq, hbit⟩
    exact ⟨r, (bit_lowBits hn r).mp hbit, hq⟩
  · rintro ⟨r, hr, hq⟩
    exact ⟨r, hq, (bit_lowBits hn r).mpr hr⟩

/-- There is padding besides the data. -/
theorem padding_ne_zero (hn : n < 64) (mask : UInt64) : ~~~dataMask n mask ≠ 0 := by
  intro hzero
  -- else all of the 64 places were among the first `n` places of the mask
  have hall : ∀ q < 64, q ∈ (places mask).take n := by
    intro q hq
    have hbit : bit (~~~dataMask n mask) q = false := by rw [hzero, bit_zero]
    rw [bit_not, decide_eq_true hq, Bool.true_and, Bool.not_eq_false'] at hbit
    obtain ⟨r, hr, hplace⟩ := (bit_dataMask hn mask q).mp hbit
    apply List.mem_of_getElem? (i := r)
    rw [List.getElem?_take_of_lt hr, hplace]
  have hsub : List.range 64 ⊆ (places mask).take n := fun q hq => hall q (List.mem_range.mp hq)
  have hlen := (List.subperm_of_subset List.nodup_range hsub).length_le
  rw [List.length_range, List.length_take] at hlen
  omega

/-- Depositing within the data. -/
theorem pdep_and_padding (hn : n < 64) {source : UInt64} (hs : ∀ r, bit source r = true → r < n)
    (mask : UInt64) {q : Nat} (hq : bit (pdepGeneric source mask) q = true) :
    bit (dataMask n mask) q = true := by
  obtain ⟨r, hplace, hbit⟩ := (bit_pdep source mask q).mp hq
  exact (bit_dataMask hn mask q).mpr ⟨r, hs r hbit, hplace⟩

/-- A chunk of the source, with padding or without. -/
def padded (pad : Bool) (chunk data : UInt64) : UInt64 := if pad then chunk ||| ~~~data else chunk

theorem bit_padded (pad : Bool) (chunk data : UInt64) {q : Nat} (hq : q < 64) :
    bit (padded pad chunk data) q = (bit chunk q || (pad && !bit data q)) := by
  cases pad with
  | false => simp [padded]
  | true => rw [padded, if_pos rfl, bit_or, bit_not, decide_eq_true hq]

/-- **What is padded is told by the padding.** -/
theorem padding_of_padded (hn : n < 64) {source : UInt64} (hs : ∀ r, bit source r = true → r < n)
    (pad : Bool) (mask : UInt64) :
    padded pad (pdepGeneric source mask) (dataMask n mask) &&& ~~~dataMask n mask =
      if pad then ~~~dataMask n mask else 0 := by
  apply Bits.ext
  intro q hq
  rw [bit_and, bit_padded _ _ _ hq, bit_not, decide_eq_true hq, Bool.true_and]
  have hwithin := pdep_and_padding hn hs mask (q := q)
  cases hdata : bit (dataMask n mask) q with
  | true =>
      rw [Bool.not_true, Bool.and_false]
      cases pad with
      | false => rw [if_neg Bool.false_ne_true, bit_zero]
      | true => rw [if_pos rfl, bit_not, hdata, Bool.not_true, Bool.and_false]
  | false =>
      have hchunk : bit (pdepGeneric source mask) q = false := by
        apply Bool.eq_false_iff.mpr
        intro hset
        rw [hwithin hset] at hdata
        cases hdata
      rw [hchunk, Bool.false_or, Bool.not_false, Bool.and_true, Bool.and_true]
      cases pad with
      | false => rw [if_neg Bool.false_ne_true, bit_zero]
      | true => rw [if_pos rfl, bit_not, hdata, decide_eq_true hq]; rfl

/-- **Extracting undoes depositing**, on the bits of the data. -/
theorem pext_padded (hn : n < 64) (source : UInt64) {mask : UInt64}
    (hroom : n ≤ (places mask).length) (pad : Bool) {r : Nat} (hr : r < n) :
    bit (pextGeneric (padded pad (pdepGeneric source mask) (dataMask n mask)) mask) r =
      bit source r := by
  obtain ⟨p, hp⟩ : ∃ p, (places mask)[r]? = some p :=
    ⟨_, List.getElem?_eq_getElem (show r < (places mask).length by omega)⟩
  have hlt : p < 64 := (places_spec mask).lt (List.mem_of_getElem? hp)
  have hdata : bit (dataMask n mask) p = true := (bit_dataMask hn mask p).mpr ⟨r, hr, hp⟩
  have hsource : bit (pdepGeneric source mask) p = bit source r := by
    apply Bool.eq_iff_iff.mpr
    rw [bit_pdep]
    constructor
    · rintro ⟨r', hp', hbit⟩
      rwa [(places_spec mask).rank_unique hp hp']
    · intro hbit
      exact ⟨r, hp, hbit⟩
  have hchunk : bit (padded pad (pdepGeneric source mask) (dataMask n mask)) p = bit source r := by
    rw [bit_padded _ _ _ hlt, hdata, Bool.not_true, Bool.and_false, Bool.or_false, hsource]
  apply Bool.eq_iff_iff.mpr
  rw [bit_pext]
  constructor
  · rintro ⟨p', hp', hbit⟩
    rw [hp] at hp'
    obtain rfl := Option.some.inj hp'
    rwa [hchunk] at hbit
  · intro hbit
    exact ⟨p, hp, by rwa [hchunk]⟩

/-- **Depositing undoes extracting**: a chunk with uniform padding is made again from its data. -/
theorem padded_pext (hn : n < 64) {chunk source mask : UInt64}
    (hs : ∀ r, bit source r = true ↔ r < n ∧ bit (pextGeneric chunk mask) r = true) {pad : Bool}
    (hpad : chunk &&& ~~~dataMask n mask = if pad then ~~~dataMask n mask else 0) :
    padded pad (pdepGeneric source mask) (dataMask n mask) = chunk := by
  apply Bits.ext
  intro q hq
  -- the padding of the chunk, at this bit
  have hbit := congrArg (fun w => bit w q) hpad
  simp only [bit_and, bit_not, decide_eq_true hq, Bool.true_and] at hbit
  rw [bit_padded _ _ _ hq]
  cases hdata : bit (dataMask n mask) q with
  | true =>
      obtain ⟨r, hr, hplace⟩ := (bit_dataMask hn mask q).mp hdata
      rw [Bool.not_true, Bool.and_false, Bool.or_false]
      apply Bool.eq_iff_iff.mpr
      rw [bit_pdep]
      constructor
      · rintro ⟨r', hplace', hsource⟩
        obtain ⟨p, hp, hchunk⟩ := (bit_pext chunk mask r').mp ((hs r').mp hsource).2
        rw [hplace'] at hp
        rwa [← Option.some.inj hp] at hchunk
      · intro hchunk
        exact ⟨r, hplace, (hs r).mpr ⟨hr, (bit_pext chunk mask r).mpr ⟨q, hplace, hchunk⟩⟩⟩
  | false =>
      have hsource : bit (pdepGeneric source mask) q = false := by
        apply Bool.eq_false_iff.mpr
        intro hset
        have hwithin := pdep_and_padding hn (fun r hr => ((hs r).mp hr).1) mask hset
        rw [hdata] at hwithin
        cases hwithin
      rw [hdata, Bool.not_false, Bool.and_true] at hbit
      rw [hsource, Bool.false_or, Bool.not_false, Bool.and_true, hbit]
      cases pad with
      | false => rw [if_neg Bool.false_ne_true, bit_zero]
      | true => rw [if_pos rfl, bit_not, hdata, decide_eq_true hq]; rfl

/-! ### Masks -/

/-- How many bits of a half mask are set. -/
def ones (halfMask : UInt32) : Nat := (List.range 32).countP halfMask.toNat.testBit

theorem bit_repeatU32 (v : UInt32) {i : Nat} (hi : i < 64) :
    bit (repeatU32 v) i = v.toNat.testBit (i % 32) := by
  have hsmall : ∀ j, 32 ≤ j → v.toNat.testBit j = false := fun j hj =>
    Nat.testBit_lt_two_pow (v.toNat_lt.trans_le (Nat.pow_le_pow_right (by decide) hj))
  have hhigh : (v.toUInt64 <<< 32 : UInt64).toNat = v.toNat * 2 ^ 32 := by
    have hlt := v.toNat_lt
    rw [UInt64.toNat_shiftLeft, UInt32.toNat_toUInt64, Nat.shiftLeft_eq,
      show (32 : UInt64).toNat % 64 = 32 from rfl]
    exact Nat.mod_eq_of_lt (by omega)
  rw [repeatU32, bit_or, bit_eq_testBit, bit_eq_testBit, hhigh, UInt32.toNat_toUInt64,
    Nat.testBit_mul_two_pow]
  rcases Nat.lt_or_ge i 32 with hlow | hge
  · have hno : ¬ 32 ≤ i := by omega
    rw [decide_eq_false hno, Bool.false_and, Bool.false_or, Nat.mod_eq_of_lt hlow]
  · rw [decide_eq_true hge, Bool.true_and, hsmall i hge, Bool.or_false,
      show i - 32 = i % 32 by omega]

theorem length_places_repeatU32 (v : UInt32) : (places (repeatU32 v)).length = 2 * ones v := by
  have hsplit : List.range 64 = List.range 32 ++ (List.range 32).map (32 + ·) :=
    List.range_add (n := 32) (m := 32)
  have hlow : (List.range 32).countP (bit (repeatU32 v)) = ones v := by
    apply List.countP_congr
    intro i hi
    rw [List.mem_range] at hi
    rw [bit_repeatU32 v (by omega), Nat.mod_eq_of_lt hi]
  have hhigh : ((List.range 32).map (32 + ·)).countP (bit (repeatU32 v)) = ones v := by
    rw [List.countP_map]
    apply List.countP_congr
    intro i hi
    rw [List.mem_range] at hi
    rw [Function.comp_apply, bit_repeatU32 v (by omega), Nat.add_mod_left, Nat.mod_eq_of_lt hi]
  rw [length_places, hsplit, List.countP_append, hlow, hhigh, Nat.two_mul]

/-- A mask that is turned. -/
theorem bit_rotateMask (initialMask : UInt64) (rotation chunkIndex : Nat) :
    ∃ k, ∀ i < 64, bit (rotateMask initialMask rotation chunkIndex) i =
      bit initialMask ((i + k) % 64) := by
  rw [rotateMask]
  split
  · refine ⟨0, ?_⟩
    intro i hi
    rw [Nat.add_zero, Nat.mod_eq_of_lt hi]
  · split
    · -- to the right
      generalize chunkIndex % 64 * rotation = turn
      refine ⟨turn % 64, ?_⟩
      intro i hi
      show (initialMask.toBitVec.rotateRight turn).getLsbD i = _
      rw [BitVec.getLsbD_rotateRight]
      have hturn := Nat.mod_lt turn (show 64 > 0 by decide)
      by_cases hlow : i < 64 - turn % 64
      · rw [decide_eq_true hlow, cond_true, Nat.mod_eq_of_lt (show i + turn % 64 < 64 by omega),
          Nat.add_comm i]
        rfl
      · rw [decide_eq_false hlow, cond_false, decide_eq_true hi, Bool.true_and,
          show (i + turn % 64) % 64 = i - (64 - turn % 64) by omega]
        rfl
    · -- to the left
      generalize chunkIndex % 64 * (rotation / 16) = turn
      refine ⟨64 - turn % 64, ?_⟩
      intro i hi
      show (initialMask.toBitVec.rotateLeft turn).getLsbD i = _
      rw [BitVec.getLsbD_rotateLeft]
      have hturn := Nat.mod_lt turn (show 64 > 0 by decide)
      by_cases hlow : i < turn % 64
      · rw [decide_eq_true hlow, cond_true,
          show (i + (64 - turn % 64)) % 64 = 64 - turn % 64 + i by omega]
        rfl
      · rw [decide_eq_false hlow, cond_false, decide_eq_true hi, Bool.true_and,
          show (i + (64 - turn % 64)) % 64 = i - turn % 64 by omega]
        rfl

/-- **Every chunk has as many places.** -/
theorem length_places_rotateMask (halfMask : UInt32) (rotation chunkIndex : Nat) :
    (places (rotateMask (repeatU32 halfMask) rotation chunkIndex)).length = 2 * ones halfMask := by
  obtain ⟨k, hturn⟩ := bit_rotateMask (repeatU32 halfMask) rotation chunkIndex
  rw [length_places_turn hturn, length_places_repeatU32]

/-! ### Chunks -/

/-- A piece of the payload as a number. -/
def sourceOf (piece : List UInt8) : UInt64 := UInt64.ofNat (ofBeBytes piece)

variable {piece : List UInt8}

theorem testBit_of_ge (piece : List UInt8) {r : Nat} (h : piece.length * 8 ≤ r) :
    (ofBeBytes piece).testBit r = false := by
  apply Nat.testBit_lt_two_pow
  calc ofBeBytes piece < 256 ^ piece.length := ofBeBytes_lt piece
    _ = 2 ^ (piece.length * 8) := by rw [show 256 = 2 ^ 8 from rfl, ← Nat.pow_mul, Nat.mul_comm]
    _ ≤ 2 ^ r := Nat.pow_le_pow_right (by decide) h

theorem bit_sourceOf (h : piece.length * 8 < 64) (r : Nat) :
    bit (sourceOf piece) r = (ofBeBytes piece).testBit r := by
  rw [sourceOf, bit_ofNat]
  by_cases hr : r < 64
  · rw [decide_eq_true hr, Bool.true_and]
  · rw [decide_eq_false hr, Bool.false_and, testBit_of_ge piece (by omega)]

theorem lt_of_bit_sourceOf (h : piece.length * 8 < 64) {r : Nat}
    (hr : bit (sourceOf piece) r = true) : r < piece.length * 8 := by
  rw [bit_sourceOf h] at hr
  by_contra hge
  rw [testBit_of_ge piece (by omega)] at hr
  cases hr

/-- The word of a chunk. -/
def chunkWord (mask : UInt64) (pad : Bool) (piece : List UInt8) : UInt64 :=
  padded pad (pdepGeneric (sourceOf piece) mask) (dataMask (piece.length * 8) mask)

theorem encodeChunk_eq (initialMask : UInt64) (rotation : Nat) (paddingBit : UInt8) (chunkIdx : Nat)
    (piece : List UInt8) :
    encodeChunk initialMask rotation paddingBit chunkIdx piece =
      toBeBytes 8 (chunkWord (rotateMask initialMask rotation chunkIdx) (decide (paddingBit = 1))
        piece).toNat := by
  rw [encodeChunk, chunkWord, padded]
  simp only [ofBeBytes_zeros, decide_eq_true_eq]
  rfl

/-- A word is read from the bytes that it was written to. -/
theorem word_toBeBytes (w : UInt64) : UInt64.ofNat (ofBeBytes (toBeBytes 8 w.toNat)) = w := by
  rw [ofBeBytes_toBeBytes (w.toNat_lt.trans_eq (by norm_num)), UInt64.ofNat_toNat]

theorem toBeBytes_word {bytes : List UInt8} (h : bytes.length = 8) :
    toBeBytes 8 (UInt64.ofNat (ofBeBytes bytes)).toNat = bytes := by
  have hlt := ofBeBytes_lt bytes
  rw [h] at hlt
  rw [UInt64.toNat_ofNat_of_lt' (hlt.trans_eq (by norm_num))]
  have hback := toBeBytes_ofBeBytes bytes
  rwa [h] at hback

/-- The low bytes of a word, told by its bits. -/
theorem drop_toBeBytes_word {w : UInt64} (h : piece.length * 8 < 64)
    (hbits : ∀ r < piece.length * 8, bit w r = (ofBeBytes piece).testBit r) :
    (toBeBytes 8 w.toNat).drop (8 - piece.length) = piece := by
  have hvalue : w.toNat % 256 ^ piece.length = ofBeBytes piece := by
    rw [show 256 = 2 ^ 8 from rfl, ← Nat.pow_mul, Nat.mul_comm]
    apply Nat.eq_of_testBit_eq
    intro r
    rw [Nat.testBit_mod_two_pow]
    by_cases hr : r < piece.length * 8
    · rw [decide_eq_true hr, Bool.true_and, ← hbits r hr, bit_eq_testBit]
    · rw [decide_eq_false hr, Bool.false_and, testBit_of_ge piece (by omega)]
  have hdrop := drop_toBeBytes (8 - piece.length) piece.length w.toNat
  rw [show 8 - piece.length + piece.length = 8 by omega] at hdrop
  rw [hdrop, ← toBeBytes_mod, hvalue, toBeBytes_ofBeBytes]

/-- **The piece is taken from its chunk.** -/
theorem piece_of_chunkWord (h : piece.length * 8 < 64) {mask : UInt64}
    (hroom : piece.length * 8 ≤ (places mask).length) (pad : Bool) :
    (toBeBytes 8 (pextGeneric (chunkWord mask pad piece) mask).toNat).drop (8 - piece.length) =
      piece := by
  apply drop_toBeBytes_word h
  intro r hr
  rw [chunkWord, pext_padded h (sourceOf piece) hroom pad hr, bit_sourceOf h]

/-- **The chunk is made again of its piece.** -/
theorem chunkWord_of_piece {chunk mask : UInt64} {len : Nat} (h : len * 8 < 64) {pad : Bool}
    (hpad : chunk &&& ~~~dataMask (len * 8) mask = if pad then ~~~dataMask (len * 8) mask else 0) :
    chunkWord mask pad ((toBeBytes 8 (pextGeneric chunk mask).toNat).drop (8 - len)) = chunk := by
  have hdrop := drop_toBeBytes (8 - len) len (pextGeneric chunk mask).toNat
  rw [show 8 - len + len = 8 by omega] at hdrop
  have hlen : (toBeBytes len (pextGeneric chunk mask).toNat).length = len := length_toBeBytes _ _
  rw [hdrop, chunkWord, hlen]
  apply padded_pext h _ hpad
  intro r
  have hshort : (toBeBytes len (pextGeneric chunk mask).toNat).length * 8 < 64 := by rwa [hlen]
  rw [bit_sourceOf hshort, ofBeBytes_toBeBytes_mod, show 256 = 2 ^ 8 from rfl, ← Nat.pow_mul,
    Nat.mul_comm, Nat.testBit_mod_two_pow, Bool.and_eq_true, decide_eq_true_eq, bit_eq_testBit]

/-! ### Padding -/

theorem checkPadding_of_uniform {chunkIdx : Nat} {bit : Option Bool} {pad : Bool} {mask : UInt64}
    (hne : mask ≠ 0) (h : chunkIdx = 0 ∨ bit = some pad) :
    checkPadding chunkIdx bit (if pad then mask else 0) mask = .ok (some pad) := by
  rw [checkPadding]
  by_cases hfirst : chunkIdx = 0
  · rw [if_pos hfirst]
    cases pad with
    | false => rfl
    | true =>
        rw [if_pos rfl, if_neg hne, if_pos rfl]
  · rw [if_neg hfirst]
    obtain rfl := h.resolve_left hfirst
    cases pad <;> simp

/-- The padding that was found is the one that is expected from then on. -/
theorem checkPadding_eq_ok {chunkIdx : Nat} {bit bit' : Option Bool} {padding mask : UInt64}
    (h : checkPadding chunkIdx bit padding mask = .ok bit') :
    padding = (if bit'.getD false then mask else 0) ∧ (chunkIdx ≠ 0 → bit' = bit) := by
  rw [checkPadding] at h
  split at h
  · rename_i hfirst
    split at h
    · rename_i hzero
      obtain rfl := Except.ok.inj h
      exact ⟨hzero, fun hne => absurd hfirst hne⟩
    · split at h
      · rename_i hones
        obtain rfl := Except.ok.inj h
        exact ⟨hones, fun hne => absurd hfirst hne⟩
      · cases h
  · simp only at h
    split at h
    · cases h
    · rename_i hno
      obtain rfl := Except.ok.inj h
      refine ⟨?_, fun _ => rfl⟩
      cases hpad : bit.getD false <;> simp_all

/-! ### The loops -/

/-- One chunk more for the next bytes. -/
theorem chunkCount_step {perChunk left : Nat} (hper : 0 < perChunk) (hleft : 0 < left) :
    lowEntropyChunkCount left perChunk = lowEntropyChunkCount (left - perChunk) perChunk + 1 := by
  rw [lowEntropyChunkCount, lowEntropyChunkCount]
  rcases Nat.lt_or_ge left perChunk with hlast | hmore
  · rw [Nat.mod_eq_of_lt hlast, Nat.div_eq_of_lt hlast, Nat.sub_eq_zero_of_le hlast.le,
      if_pos (by omega), Nat.zero_mod, Nat.zero_div, if_neg (by simp)]
  · have hmod : (left - perChunk) % perChunk = left % perChunk := (Nat.mod_eq_sub_mod hmore).symm
    have hdiv : left / perChunk = (left - perChunk) / perChunk + 1 := Nat.div_eq_sub_div hper hmore
    rw [hmod, hdiv]
    split <;> rfl

theorem chunkCount_zero (perChunk : Nat) : lowEntropyChunkCount 0 perChunk = 0 := by
  simp [lowEntropyChunkCount]

section

variable {perChunk rotation : Nat} {initialMask : UInt64} {paddingBit : UInt8}

theorem encodeChunks_nil (rounds chunkIdx : Nat) :
    encodeChunks perChunk initialMask rotation paddingBit rounds chunkIdx [] = [] := by
  cases rounds <;> rfl

theorem length_encodeChunks (hper : 0 < perChunk) {rounds : Nat} (chunkIdx : Nat) {src : List UInt8}
    (h : src.length ≤ rounds) :
    (encodeChunks perChunk initialMask rotation paddingBit rounds chunkIdx src).length =
      lowEntropyChunkCount src.length perChunk * 8 := by
  induction rounds generalizing chunkIdx src with
  | zero =>
      obtain rfl := List.length_eq_zero_iff.mp (Nat.le_zero.mp h)
      rw [List.length_nil, chunkCount_zero]
      rfl
  | succ rounds ih =>
      rw [encodeChunks]
      split
      · rename_i hnone
        rw [hnone, chunkCount_zero]
        rfl
      · have hdrop : (src.drop perChunk).length = src.length - perChunk := List.length_drop
        have hcount := chunkCount_step hper (show 0 < src.length by omega)
        rw [List.length_append, encodeChunk_eq, length_toBeBytes, ih _ (by rw [hdrop]; omega), hdrop,
          hcount]
        omega

/-- **Every chunk is decoded as its piece.** -/
theorem decodeChunks_encodeChunks (hper : 0 < perChunk ∧ perChunk ≤ 7)
    (hroom : ∀ chunkIdx,
      perChunk * 8 ≤ (places (rotateMask initialMask rotation chunkIdx)).length)
    {rounds chunkIdx : Nat} {src before : List UInt8} {bit : Option Bool}
    (hrounds : src.length ≤ rounds) (hbefore : before.length = chunkIdx * 8)
    (hbit : chunkIdx = 0 ∨ bit = some (decide (paddingBit = 1))) :
    decodeChunks (before ++ encodeChunks perChunk initialMask rotation paddingBit rounds chunkIdx src)
      perChunk initialMask rotation rounds chunkIdx bit src.length = .ok src := by
  -- on the rounds, with what was encoded before this chunk
  induction rounds generalizing chunkIdx src before bit with
  | zero =>
      obtain rfl := List.length_eq_zero_iff.mp (Nat.le_zero.mp hrounds)
      rfl
  | succ rounds ih =>
      rw [decodeChunks, encodeChunks]
      by_cases hnone : src.length = 0
      · rw [if_pos hnone, List.length_eq_zero_iff.mp hnone]
      · rw [if_neg hnone, if_neg hnone]
        have hjoin : src.take (min perChunk src.length) ++ src.drop perChunk = src := by
          rcases Nat.le_total perChunk src.length with hle | hge
          · rw [Nat.min_eq_left hle, List.take_append_drop]
          · rw [Nat.min_eq_right hge, List.take_length, List.drop_of_length_le hge, List.append_nil]
        have hpiece : (src.take (min perChunk src.length)).length = min perChunk src.length := by
          rw [List.length_take]
          omega
        have hplaces := hroom chunkIdx
        rw [encodeChunk_eq]
        generalize src.take (min perChunk src.length) = piece at hjoin hpiece ⊢
        generalize rotateMask initialMask rotation chunkIdx = mask at hplaces ⊢
        have hshort : piece.length * 8 < 64 := by omega
        -- the padding is what the encoder has put there
        have hpadding := padding_of_padded hshort
          (fun r hr => lt_of_bit_sourceOf hshort hr) (decide (paddingBit = 1)) mask
        have hcheck := checkPadding_of_uniform (padding_ne_zero hshort mask) hbit
        rw [← hpadding] at hcheck
        have hahead : (before ++ toBeBytes 8 (chunkWord mask (decide (paddingBit = 1)) piece).toNat).length =
            (chunkIdx + 1) * 8 := by
          rw [List.length_append, length_toBeBytes]
          omega
        have hdrop : (src.drop perChunk).length = src.length - perChunk := List.length_drop
        have hrest := ih (show (src.drop perChunk).length ≤ rounds by omega) hahead (.inr rfl)
        rw [List.append_assoc, hdrop] at hrest
        simp only
        rw [bytesAt_append hbefore (length_toBeBytes _ _), word_toBeBytes, ← hpiece]
        have hmask : pdepGeneric (lowBits (piece.length * 8)) mask = dataMask (piece.length * 8) mask := rfl
        rw [hmask, chunkWord, hcheck]
        simp only
        rw [← chunkWord, hrest, piece_of_chunkWord hshort (by omega)]
        exact congrArg Except.ok hjoin

/-- The next eight bytes, and the others. -/
theorem drop_eq_bytesAt (encoded : List UInt8) {start : Nat} (h : start + 8 ≤ encoded.length) :
    encoded.drop start = bytesAt encoded start 8 ++ encoded.drop (start + 8) := by
  have hfield : bytesAt encoded start 8 = (encoded.drop start).take 8 := by
    have hcut : encoded = encoded.take start ++
        ((encoded.drop start).take 8 ++ (encoded.drop start).drop 8) := by
      rw [List.take_append_drop, List.take_append_drop]
    conv => lhs; rw [hcut]
    apply bytesAt_append
    · rw [List.length_take]
      omega
    · rw [List.length_take, List.length_drop]
      omega
  rw [hfield, ← List.drop_drop, List.take_append_drop]

/-- **What is decoded encodes to the same bytes**, with the padding that was found. -/
theorem encodeChunks_decodeChunks (hper : 0 < perChunk ∧ perChunk ≤ 7) {encoded : List UInt8}
    {rounds chunkIdx left : Nat} {bit : Option Bool} {decoded : List UInt8} (hrounds : left ≤ rounds)
    (hlen : encoded.length = (chunkIdx + lowEntropyChunkCount left perChunk) * 8)
    (h : decodeChunks encoded perChunk initialMask rotation rounds chunkIdx bit left = .ok decoded) :
    ∃ pad, (chunkIdx ≠ 0 → bit.getD false = pad) ∧
      ∀ paddingBit : UInt8, decide (paddingBit = 1) = pad →
        encodeChunks perChunk initialMask rotation paddingBit rounds chunkIdx decoded =
          encoded.drop (chunkIdx * 8) := by
  induction rounds generalizing chunkIdx bit left decoded with
  | zero =>
      obtain rfl := Nat.le_zero.mp hrounds
      rw [chunkCount_zero, Nat.add_zero] at hlen
      refine ⟨bit.getD false, fun _ => rfl, ?_⟩
      intro paddingBit _
      rw [List.drop_of_length_le hlen.le]
      rfl
  | succ rounds ih =>
      have hdecoded := length_decodeChunks ⟨hper.1, by omega⟩ hrounds h
      rw [decodeChunks] at h
      split at h
      · rename_i hnone
        obtain rfl := Except.ok.inj h
        rw [hnone, chunkCount_zero, Nat.add_zero] at hlen
        refine ⟨bit.getD false, fun _ => rfl, ?_⟩
        intro paddingBit _
        rw [List.drop_of_length_le hlen.le, encodeChunks_nil]
      · rename_i hsome
        simp only at h
        split at h
        · cases h
        · rename_i bit' hcheck
          split at h
          · cases h
          · rename_i rest hrest
            have hcount := chunkCount_step hper.1 (show 0 < left by omega)
            obtain ⟨pad, hpad, hchunks⟩ := ih (by omega) (by rw [hlen, hcount]; omega) hrest
            have hfound := hpad (Nat.succ_ne_zero chunkIdx)
            obtain ⟨huniform, hkept⟩ := checkPadding_eq_ok hcheck
            refine ⟨pad, fun hne => by rw [← hkept hne, hfound], ?_⟩
            intro paddingBit hbit
            rw [hfound] at huniform
            have hrestLen := length_decodeChunks ⟨hper.1, by omega⟩ (by omega) hrest
            generalize hpiece : (toBeBytes 8 (pextGeneric (UInt64.ofNat (ofBeBytes
              (bytesAt encoded (chunkIdx * 8) 8)))
                (rotateMask initialMask rotation chunkIdx)).toNat).drop
                  (8 - min perChunk left) = piece at h
            obtain rfl := Except.ok.inj h
            have hlenPiece : piece.length = min perChunk left := by
              rw [← hpiece, List.length_drop, length_toBeBytes]
              omega
            have htake : (piece ++ rest).take (min perChunk (piece ++ rest).length) = piece := by
              rw [hdecoded, ← hlenPiece, List.take_left]
            have hdrop : (piece ++ rest).drop perChunk = rest := by
              rcases Nat.le_total perChunk left with hle | hge
              · exact List.drop_left' (by omega)
              · obtain rfl := List.length_eq_zero_iff.mp (show rest.length = 0 by omega)
                rw [List.append_nil]
                exact List.drop_of_length_le (by omega)
            have hword : chunkWord (rotateMask initialMask rotation chunkIdx) pad piece =
                UInt64.ofNat (ofBeBytes (bytesAt encoded (chunkIdx * 8) 8)) := by
              rw [← hpiece]
              exact chunkWord_of_piece (by omega) huniform
            have hlong : chunkIdx * 8 + 8 ≤ encoded.length := by
              rw [hlen, hcount]
              omega
            rw [encodeChunks, if_neg (by omega), htake, hdrop, hchunks paddingBit hbit,
              encodeChunk_eq, hbit, hword, toBeBytes_word (length_bytesAt _ _ _),
              drop_eq_bytesAt encoded hlong, show (chunkIdx + 1) * 8 = chunkIdx * 8 + 8 by omega]

end

/-! ### The codec -/

theorem perChunk_of_mode {mode perChunk : Nat} (h : sourceBytesPerChunk mode = .ok perChunk) :
    perChunk * 8 = 2 * halfMaskOnes mode := by
  unfold sourceBytesPerChunk at h
  split at h
  all_goals first | (obtain rfl := Except.ok.inj h; rfl) | cases h

theorem lowEntropyEncodedLen_eq_ok {extractedLen mode len : Nat}
    (h : lowEntropyEncodedLen extractedLen mode = .ok len) :
    ∃ perChunk, sourceBytesPerChunk mode = .ok perChunk ∧
      len = lowEntropyChunkCount extractedLen perChunk * 8 := by
  rw [lowEntropyEncodedLen] at h
  split at h
  · cases h
  · rename_i perChunk hmode
    refine ⟨perChunk, hmode, ?_⟩
    split at h
    · cases h
    · split at h
      · cases h
      · exact (Except.ok.inj h).symm

/-- What is encoded has the length that was foreseen, and is decoded. -/
theorem decode_encodeLowEntropy {src : List UInt8} {mode len : Nat} {halfMask : UInt32}
    (rotation : Nat) (paddingBit : UInt8) (hones : halfMaskOnes mode ≤ ones halfMask)
    (hlen : lowEntropyEncodedLen src.length mode = .ok len) :
    ∃ encoded, encodeLowEntropy src mode halfMask rotation paddingBit = .ok encoded ∧
      encoded.length = len ∧
      decodeLowEntropy encoded src.length mode halfMask rotation = .ok src := by
  obtain ⟨perChunk, hmode, hcount⟩ := lowEntropyEncodedLen_eq_ok hlen
  obtain ⟨hlow, hhigh⟩ := sourceBytesPerChunk_eq_ok hmode
  have hroom : ∀ chunkIdx,
      perChunk * 8 ≤ (places (rotateMask (repeatU32 halfMask) rotation chunkIdx)).length := by
    intro chunkIdx
    rw [length_places_rotateMask, perChunk_of_mode hmode]
    omega
  have hdecode : decodeChunks ([] ++ encodeChunks perChunk (repeatU32 halfMask) rotation paddingBit
      src.length 0 src) perChunk (repeatU32 halfMask) rotation src.length 0 none src.length =
        .ok src :=
    decodeChunks_encodeChunks ⟨by omega, hhigh⟩ hroom (Nat.le_refl _) rfl (.inl rfl)
  have hlength : (encodeChunks perChunk (repeatU32 halfMask) rotation paddingBit src.length 0
      src).length = len := by
    rw [length_encodeChunks (by omega) 0 (Nat.le_refl _), hcount]
  refine ⟨_, by rw [encodeLowEntropy, hmode, hlen], hlength, ?_⟩
  rw [decodeLowEntropy, hmode, hlen]
  simp only
  rw [hlength, if_neg (not_not.mpr rfl)]
  exact hdecode

theorem lowEntropyChunkCount_le_iff {extractedLen perChunk most : Nat} (hpos : 0 < perChunk) :
    lowEntropyChunkCount extractedLen perChunk ≤ most ↔ extractedLen ≤ most * perChunk := by
  have hdiv := Nat.div_add_mod extractedLen perChunk
  rw [lowEntropyChunkCount]
  split
  · rename_i hmore
    rw [Nat.succ_le_iff, Nat.div_lt_iff_lt_mul hpos]
    constructor
    · exact Nat.le_of_lt
    · intro hle
      -- a multiple of the chunk has no rest
      refine Nat.lt_of_le_of_ne hle ?_
      rintro rfl
      exact hmore (Nat.mul_mod_left most perChunk)
  · rename_i hmore
    rw [not_not] at hmore
    rw [hmore, Nat.add_zero] at hdiv
    constructor
    · intro hle
      rw [← hdiv, Nat.mul_comm]
      exact Nat.mul_le_mul_right perChunk hle
    · intro hle
      exact Nat.div_le_of_le_mul (by rwa [Nat.mul_comm])

theorem sourceBytesPerChunk_eq_ok_iff {mode perChunk : Nat} :
    sourceBytesPerChunk mode = .ok perChunk ↔ (1 ≤ mode ∧ mode ≤ 4) ∧ perChunk = mode + 3 := by
  rcases mode with - | - | - | - | - | mode
  case succ.succ.succ.succ.succ =>
    refine iff_of_false ?_ ?_
    · intro h
      cases h
    · omega
  all_goals simp [sourceBytesPerChunk, eq_comm]

/-- A text fits in one of the four modes, if it is not empty and has at most 8191 chunks. -/
theorem lowEntropyEncodedLen_isOk_iff {extractedLen mode : Nat} :
    (∃ len, lowEntropyEncodedLen extractedLen mode = .ok len) ↔
      (1 ≤ mode ∧ mode ≤ 4) ∧ 0 < extractedLen ∧ extractedLen ≤ 8191 * (mode + 3) := by
  have hnone : ∀ e, ¬ ∃ len, (.error e : Except String Nat) = .ok len := by
    rintro e ⟨len, hlen⟩
    cases hlen
  rw [lowEntropyEncodedLen]
  split
  · rename_i e herror
    refine iff_of_false (hnone e) ?_
    rintro ⟨hmode, -⟩
    cases herror.symm.trans (sourceBytesPerChunk_eq_ok_iff.mpr ⟨hmode, rfl⟩)
  · rename_i perChunk hok
    obtain ⟨hmode, rfl⟩ := sourceBytesPerChunk_eq_ok_iff.mp hok
    rw [and_iff_right hmode, ← lowEntropyChunkCount_le_iff (Nat.succ_pos (mode + 2))]
    split
    · rename_i hzero
      refine iff_of_false (hnone _) ?_
      rintro ⟨hpos, -⟩
      exact absurd hzero (Nat.ne_of_gt hpos)
    · rename_i hpos
      split
      · rename_i hmany
        refine iff_of_false (hnone _) ?_
        rintro ⟨-, hfew⟩
        exact absurd hfew (Nat.not_le_of_lt hmany)
      · rename_i hfew
        exact iff_of_true ⟨_, rfl⟩ ⟨Nat.pos_of_ne_zero hpos, Nat.le_of_not_lt hfew⟩

/-- **The encoding is canonical**: what is encoded is decoded, if the half mask has the bits that
its mode asks for, and what is decoded, under any half mask, encodes to the same bytes again. -/
theorem low_entropy_canonical (mode : Nat) (halfMask : UInt32) (rotation : Nat) :
    (∀ (src : List UInt8) (paddingBit : UInt8) (len : Nat),
      halfMaskOnes mode ≤ ones halfMask → lowEntropyEncodedLen src.length mode = .ok len →
        ∃ encoded, encodeLowEntropy src mode halfMask rotation paddingBit = .ok encoded ∧
          decodeLowEntropy encoded src.length mode halfMask rotation = .ok src) ∧
    ∀ (encoded decoded : List UInt8) (extractedLen : Nat),
      decodeLowEntropy encoded extractedLen mode halfMask rotation = .ok decoded →
        ∃ paddingBit : UInt8, (paddingBit = 0 ∨ paddingBit = 1) ∧
          encodeLowEntropy decoded mode halfMask rotation paddingBit = .ok encoded := by
  refine ⟨?_, ?_⟩
  · intro src paddingBit len hones hlen
    obtain ⟨encoded, hencode, -, hdecode⟩ := decode_encodeLowEntropy rotation paddingBit hones hlen
    exact ⟨encoded, hencode, hdecode⟩
  · intro encoded decoded extractedLen h
    rw [decodeLowEntropy] at h
    split at h
    · cases h
    · cases h
    · rename_i perChunk expectedLen hmode hlen
      split at h
      · cases h
      · rename_i hsame
        rw [not_not] at hsame
        obtain ⟨hlow, hhigh⟩ := sourceBytesPerChunk_eq_ok hmode
        obtain ⟨perChunk', hmode', hcount⟩ := lowEntropyEncodedLen_eq_ok hlen
        obtain rfl : perChunk = perChunk' := Except.ok.inj (hmode.symm.trans hmode')
        have hdecoded := length_decodeChunks ⟨by omega, by omega⟩ (Nat.le_refl _) h
        obtain ⟨pad, -, hchunks⟩ := encodeChunks_decodeChunks ⟨by omega, hhigh⟩ (Nat.le_refl _)
          (by rw [hsame, hcount, Nat.zero_add]) h
        rw [Nat.zero_mul, List.drop_zero, ← hdecoded] at hchunks
        rw [← hdecoded] at hlen
        cases pad with
        | false =>
            refine ⟨0, .inl rfl, ?_⟩
            rw [encodeLowEntropy, hmode, hlen]
            exact congrArg Except.ok (hchunks 0 rfl)
        | true =>
            refine ⟨1, .inr rfl, ?_⟩
            rw [encodeLowEntropy, hmode, hlen]
            exact congrArg Except.ok (hchunks 1 rfl)

/-- `ping!`, in two chunks with padding of ones. -/
theorem low_entropy_canonical_ping :
    ∃ encoded, encodeLowEntropy [112, 105, 110, 103, 33] 1 0xFFFF 3 1 = .ok encoded ∧
      decodeLowEntropy encoded 5 1 0xFFFF 3 = .ok [112, 105, 110, 103, 33] :=
  (low_entropy_canonical 1 0xFFFF 3).1 [112, 105, 110, 103, 33] 1 16 (by decide) rfl

end Mieru

end Elise
