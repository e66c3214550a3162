/-
Elise/Vless/Xor.lean

The filter that hides the headers of records (src/protocol/vless/encryption/xor.rs).

A filter masks five bytes with a key stream, reads the length of the record in
them, lets that many bytes pass and masks the next five.  The loops of the source
work on whole buffers; they are machines that take one byte at a time
(`filterLoop_eq_run`), so what they do does not depend on how a stream is cut.
The receiving machine undoes the sending one (`receiving_undoes_sending`), and of
records nothing but the headers is masked (`run_records`), by the bytes of AES in counter mode
(`byteAt_keyBytes`).  So what is sealed at one end is opened at the other, whatever the cuts on
the way (`sealed_stream_opened`).
-/
import Elise.Lib.Run
import Elise.Vless.Record

namespace Elise

namespace Vless

open Net Transducer

/-! ### The key stream -/

/-- AES-256 in counter mode. -/
structure Aes256Ctr where
  subkey : List UInt8
  ctr : List UInt8
  keystream : List UInt8
  keystreamPos : Nat
  deriving DecidableEq, Repr

namespace Aes256Ctr

variable (c : RecordCrypto)

/-- `VLESS` -/
def context : List UInt8 := [86, 76, 69, 83, 83]

def new (key iv : List UInt8) : Aes256Ctr where
  subkey := c.deriveKey context key
  ctr := iv.take 16 ++ List.replicate (16 - (iv.take 16).length) 0
  keystream := List.replicate 16 0
  keystreamPos := 16

/-- A new block, when the last one is used up. -/
def refill (s : Aes256Ctr) : Aes256Ctr :=
  if 16 ≤ s.keystreamPos then
    { s with
      keystream := c.encryptBlock s.subkey s.ctr
      keystreamPos := 0
      ctr := increaseNonce s.ctr }
  else s

def xorByte (s : Aes256Ctr) (b : UInt8) : UInt8 × Aes256Ctr :=
  let s := s.refill c
  (b ^^^ byteAt s.keystream s.keystreamPos, { s with keystreamPos := s.keystreamPos + 1 })

/-- `xor_keystream`. -/
def xorKeystream (s : Aes256Ctr) (buf : List UInt8) : List UInt8 × Aes256Ctr :=
  run (xorByte c) s buf

theorem xorByte_xorByte (s : Aes256Ctr) (b : UInt8) :
    xorByte c s (xorByte c s b).1 = (b, (xorByte c s b).2) := by
  refine Prod.ext ?_ rfl
  show b ^^^ byteAt _ _ ^^^ byteAt _ _ = b
  rw [UInt8.xor_assoc, UInt8.xor_self, UInt8.xor_zero]

/-! ### The bytes of the key stream -/

/-- The next bytes of the key stream. -/
def keyBytes (s : Aes256Ctr) (n : Nat) : List UInt8 := (s.xorKeystream c (List.replicate n 0)).1

theorem xorKeystream_cons (s : Aes256Ctr) (b : UInt8) (buf : List UInt8) :
    s.xorKeystream c (b :: buf) =
      ((s.xorByte c b).1 :: ((s.xorByte c b).2.xorKeystream c buf).1,
        ((s.xorByte c b).2.xorKeystream c buf).2) := rfl

/-- The state moves by the number of the bytes. -/
theorem xorKeystream_snd (s : Aes256Ctr) (buf : List UInt8) :
    (s.xorKeystream c buf).2 = (s.xorKeystream c (List.replicate buf.length 0)).2 := by
  induction buf generalizing s with
  | nil => rfl
  | cons b buf ih =>
      rw [xorKeystream_cons, List.length_cons, List.replicate_succ, xorKeystream_cons]
      exact ih (s.xorByte c b).2

theorem xorKeystream_fst (s : Aes256Ctr) (buf : List UInt8) :
    (s.xorKeystream c buf).1 = List.zipWith (· ^^^ ·) buf (keyBytes c s buf.length) := by
  induction buf generalizing s with
  | nil => rfl
  | cons b buf ih =>
      rw [keyBytes, xorKeystream_cons, List.length_cons, List.replicate_succ, xorKeystream_cons,
        List.zipWith_cons_cons]
      have hbyte : (s.xorByte c b).1 = b ^^^ (s.xorByte c 0).1 := by
        show b ^^^ byteAt _ _ = b ^^^ (0 ^^^ byteAt _ _)
        rw [UInt8.zero_xor]
      show (s.xorByte c b).1 :: ((s.xorByte c b).2.xorKeystream c buf).1 = _
      rw [hbyte, ih (s.xorByte c b).2]
      rfl

@[simp] theorem length_keyBytes (s : Aes256Ctr) (n : Nat) : (keyBytes c s n).length = n := by
  rw [keyBytes, xorKeystream, length_run, List.length_replicate]

theorem keyBytes_add (s : Aes256Ctr) (m n : Nat) :
    keyBytes c s (m + n) =
      keyBytes c s m ++ keyBytes c (s.xorKeystream c (List.replicate m 0)).2 n := by
  rw [keyBytes, xorKeystream, List.replicate_add, run_append]
  rfl

variable {c} {s : Aes256Ctr} {subkey iv : List UInt8} {i : Nat}

variable (c) in
/-- Byte `i` is the next one: the counter has gone up once for each block. -/
def Before (s : Aes256Ctr) (subkey iv : List UInt8) (i : Nat) : Prop :=
  s.refill c = ⟨subkey, increaseNonce^[i / 16 + 1] iv,
    c.encryptBlock subkey (increaseNonce^[i / 16] iv), i % 16⟩

theorem before_new (key iv : List UInt8) :
    Before c (new c key iv) (c.deriveKey context key) (new c key iv).ctr 0 := by
  have hused : 16 ≤ (new c key iv).keystreamPos := Nat.le_refl 16
  rw [Before, refill, if_pos hused]
  rfl

theorem Before.xorByte (h : Before c s subkey iv i) (b : UInt8) :
    (s.xorByte c b).1 = b ^^^ byteAt (c.encryptBlock subkey (increaseNonce^[i / 16] iv)) (i % 16) ∧
      Before c (s.xorByte c b).2 subkey iv (i + 1) := by
  have hstate : (s.xorByte c b).2 =
      { s.refill c with keystreamPos := (s.refill c).keystreamPos + 1 } := rfl
  constructor
  · show b ^^^ byteAt (s.refill c).keystream (s.refill c).keystreamPos = _
    rw [h]
  · rw [Before, hstate, h, refill]
    dsimp only
    -- a block is used up with its 16th byte, and the counter has gone up once more
    by_cases hend : 16 ≤ i % 16 + 1
    · have hdiv : (i + 1) / 16 = i / 16 + 1 := by omega
      have hmod : (i + 1) % 16 = 0 := by omega
      rw [if_pos hend, hdiv, hmod, Function.iterate_succ_apply' _ (i / 16 + 1)]
    · have hdiv : (i + 1) / 16 = i / 16 := by omega
      have hmod : (i + 1) % 16 = i % 16 + 1 := by omega
      rw [if_neg hend, hdiv, hmod]

theorem Before.byteAt_keyBytes (h : Before c s subkey iv i) {n j : Nat} (hj : j < n) :
    byteAt (keyBytes c s n) j =
      byteAt (c.encryptBlock subkey (increaseNonce^[(i + j) / 16] iv)) ((i + j) % 16) := by
  induction n generalizing s i j with
  | zero => exact absurd hj (Nat.not_lt_zero j)
  | succ n ih =>
      obtain ⟨hbyte, hnext⟩ := h.xorByte 0
      have hcons : keyBytes c s (n + 1) = (s.xorByte c 0).1 :: keyBytes c (s.xorByte c 0).2 n := by
        rw [keyBytes, List.replicate_succ, xorKeystream_cons]
        rfl
      rw [hcons]
      cases j with
      | zero =>
          rw [UInt8.zero_xor] at hbyte
          exact hbyte
      | succ j =>
          have hrest := ih hnext (Nat.lt_of_succ_lt_succ hj)
          rw [Nat.add_right_comm i 1 j] at hrest
          exact hrest

/-- **The key stream is AES in counter mode**: byte `i` is byte `i % 16` of the block that the counter
makes when it has gone up `i / 16` times. -/
theorem byteAt_keyBytes (c : RecordCrypto) (key iv : List UInt8) {n i : Nat} (hi : i < n) :
    byteAt (keyBytes c (new c key iv) n) i =
      byteAt (c.encryptBlock (c.deriveKey context key) (increaseNonce^[i / 16] (new c key iv).ctr)) (i % 16) := by
  have hbyte := (before_new (c := c) key iv).byteAt_keyBytes hi
  rw [Nat.zero_add] at hbyte
  exact hbyte

/-- The counter counts, modulo the number of its values. -/
theorem nonceValue_iterate (nonce : List UInt8) (k : Nat) :
    nonceValue (increaseNonce^[k] nonce) = (nonceValue nonce + k) % 256 ^ nonce.length := by
  have hlength : ∀ k, (increaseNonce^[k] nonce).length = nonce.length := by
    intro k
    induction k with
    | zero => rfl
    | succ k ih => rw [Function.iterate_succ_apply', length_increaseNonce, ih]
  induction k with
  | zero =>
      have hlt := ofLeBytes_lt nonce.reverse
      rw [List.length_reverse] at hlt
      exact (Nat.mod_eq_of_lt hlt).symm
  | succ k ih =>
      have hlt : (nonceValue nonce + k) % 256 ^ nonce.length < 256 ^ nonce.length :=
        Nat.mod_lt _ (Nat.pow_pos (by decide))
      rw [Function.iterate_succ_apply', nonceValue_increaseNonce, hlength, ih, ← Nat.add_assoc,
        ← Nat.mod_add_mod (nonceValue nonce + k)]
      split
      · rename_i hfull
        rw [hfull, Nat.mod_self]
      · exact (Nat.mod_eq_of_lt (by omega)).symm

end Aes256Ctr

/-! ### The loops -/

inductive Direction where
  | sending
  | receiving
  deriving DecidableEq

/-- Which of the given and the made bytes are the clear ones. -/
def Direction.clear {α : Type} : Direction → (given made : α) → α
  | sending, given, _ => given
  | receiving, _, made => made

/-- One direction of a filter. -/
structure XorHalf where
  ctr : Aes256Ctr
  skip : Nat
  header : List UInt8
  deriving DecidableEq, Repr

section

variable (c : RecordCrypto) (d : Direction)

/-- The bytes that pass after a header. -/
def skipOf (header : List UInt8) : Nat :=
  match decodeHeader header with
  | .ok l => l
  | .error _ => 0

/-- The loop of `filter_out` and of `filter_in`: the header is taken before it
is masked, or after. -/
def filterLoop : (fuel : Nat) → XorHalf → List UInt8 → List UInt8 × XorHalf
  | 0, h, buf => (buf, h)
  | fuel + 1, h, buf =>
      if buf.length ≤ h.skip then (buf, { h with skip := h.skip - buf.length })
      else
        let passed := buf.take h.skip
        let buf := buf.drop h.skip
        let need := 5 - h.header.length
        if buf.length < need then
          let (masked, ctr) := h.ctr.xorKeystream c buf
          (passed ++ masked, ⟨ctr, 0, h.header ++ d.clear buf masked⟩)
        else
          let (masked, ctr) := h.ctr.xorKeystream c (buf.take need)
          let header := h.header ++ d.clear (buf.take need) masked
          let rest := filterLoop fuel ⟨ctr, skipOf header, []⟩ (buf.drop need)
          (passed ++ (masked ++ rest.1), rest.2)

/-- One byte. -/
def maskByte (h : XorHalf) (b : UInt8) : UInt8 × XorHalf :=
  if h.skip = 0 then
    let (masked, ctr) := h.ctr.xorByte c b
    let header := h.header ++ [d.clear b masked]
    (masked, if header.length = 5 then ⟨ctr, skipOf header, []⟩ else ⟨ctr, 0, header⟩)
  else (b, { h with skip := h.skip - 1 })

variable {c d}

theorem run_skip {h : XorHalf} {xs : List UInt8} (hle : xs.length ≤ h.skip) :
    run (maskByte c d) h xs = (xs, { h with skip := h.skip - xs.length }) := by
  induction xs generalizing h with
  | nil => rfl
  | cons x xs ih =>
      rw [List.length_cons] at hle
      have hstep : maskByte c d h x = (x, { h with skip := h.skip - 1 }) := by
        rw [maskByte, if_neg (by omega)]
      have hrest := @ih { h with skip := h.skip - 1 } (by show xs.length ≤ h.skip - 1; omega)
      rw [run, hstep, hrest, List.length_cons]
      simp only [Nat.sub_sub, Nat.add_comm]

/-- Bytes of a header. -/
theorem run_header {ctr : Aes256Ctr} {header xs : List UInt8} (hne : xs ≠ [])
    (hle : header.length + xs.length ≤ 5) :
    run (maskByte c d) ⟨ctr, 0, header⟩ xs =
      ((ctr.xorKeystream c xs).1,
        let whole := header ++ d.clear xs (ctr.xorKeystream c xs).1
        if header.length + xs.length = 5 then ⟨(ctr.xorKeystream c xs).2, skipOf whole, []⟩
        else ⟨(ctr.xorKeystream c xs).2, 0, whole⟩) := by
  induction xs generalizing ctr header with
  | nil => exact absurd rfl hne
  | cons x xs ih =>
      have hclear : d.clear (x :: xs) (ctr.xorKeystream c (x :: xs)).1 =
          d.clear x (ctr.xorByte c x).1 ::
            d.clear xs ((ctr.xorByte c x).2.xorKeystream c xs).1 := by
        cases d <;> rfl
      rw [List.length_cons] at hle
      have hstep : maskByte c d ⟨ctr, 0, header⟩ x = ((ctr.xorByte c x).1,
          if (header ++ [d.clear x (ctr.xorByte c x).1]).length = 5 then
            ⟨(ctr.xorByte c x).2, skipOf (header ++ [d.clear x (ctr.xorByte c x).1]), []⟩
          else ⟨(ctr.xorByte c x).2, 0, header ++ [d.clear x (ctr.xorByte c x).1]⟩) := rfl
      rw [run, hstep, hclear]
      simp only [List.length_append, List.length_singleton]
      -- the header is whole at its last byte at the earliest, so with more to come it is not
      cases xs with
      | nil =>
          have hnone : d.clear ([] : List UInt8) (((ctr.xorByte c x).2.xorKeystream c []).1) = [] := by
            cases d <;> rfl
          rw [hnone]
          rfl
      | cons y ys =>
          rw [List.length_cons] at hle
          have hmore : ¬ header.length + 1 = 5 := by omega
          have hrest := @ih (ctr.xorByte c x).2 (header ++ [d.clear x (ctr.xorByte c x).1])
            (List.cons_ne_nil y ys) (by
              simp only [List.length_append, List.length_cons, List.length_nil]
              omega)
          have hlen : (header ++ [d.clear x (ctr.xorByte c x).1]).length + (y :: ys).length =
              header.length + (x :: y :: ys).length := by
            simp only [List.length_append, List.length_cons, List.length_nil]
            omega
          rw [if_neg hmore, hrest, hlen, List.append_assoc]
          rfl

/-- **The loop is a machine.** -/
theorem filterLoop_eq_run {fuel : Nat} {h : XorHalf} {buf : List UInt8}
    (hheader : h.header.length < 5) (hfuel : buf.length < fuel) :
    filterLoop c d fuel h buf = run (maskByte c d) h buf := by
  induction fuel generalizing h buf with
  | zero => omega
  | succ fuel ih =>
      rw [filterLoop]
      by_cases hskip : buf.length ≤ h.skip
      · rw [if_pos hskip, run_skip hskip]
      · rw [if_neg hskip]
        -- what is skipped passes; then comes a part of a header, or a whole one and the rest
        have hpassed := @run_skip c d h (buf.take h.skip)
          (by rw [List.length_take]; exact Nat.min_le_left _ _)
        have hlen : (buf.take h.skip).length = h.skip := List.length_take_of_le (by omega)
        rw [hlen, Nat.sub_self] at hpassed
        have hsplit : run (maskByte c d) h buf =
            (buf.take h.skip ++ (run (maskByte c d) ⟨h.ctr, 0, h.header⟩ (buf.drop h.skip)).1,
              (run (maskByte c d) ⟨h.ctr, 0, h.header⟩ (buf.drop h.skip)).2) := by
          conv_lhs => rw [← List.take_append_drop h.skip buf, run_append, hpassed]
        have hdrop : (buf.drop h.skip).length = buf.length - h.skip := List.length_drop
        have hne : buf.drop h.skip ≠ [] := by
          intro hnil
          rw [hnil, List.length_nil] at hdrop
          omega
        rw [hsplit]
        by_cases hneed : (buf.drop h.skip).length < 5 - h.header.length
        · rw [if_pos hneed, run_header hne (by omega), if_neg (by omega)]
        · rw [if_neg hneed]
          set need := 5 - h.header.length with hneedDef
          have htake : ((buf.drop h.skip).take need).length = need :=
            List.length_take_of_le (by omega)
          have hnext := @run_header c d h.ctr h.header ((buf.drop h.skip).take need)
            (by intro hnil; rw [hnil, List.length_nil] at htake; omega) (by omega)
          rw [if_pos (by omega)] at hnext
          have hrest := @ih
            ⟨(h.ctr.xorKeystream c ((buf.drop h.skip).take need)).2,
              skipOf (h.header ++ d.clear ((buf.drop h.skip).take need)
                (h.ctr.xorKeystream c ((buf.drop h.skip).take need)).1), []⟩
            ((buf.drop h.skip).drop need) (by simp) (by rw [List.length_drop]; omega)
          have hwhole : run (maskByte c d) ⟨h.ctr, 0, h.header⟩ (buf.drop h.skip) =
              run (maskByte c d) ⟨h.ctr, 0, h.header⟩
                ((buf.drop h.skip).take need ++ (buf.drop h.skip).drop need) := by
            rw [List.take_append_drop]
          rw [hwhole, run_append, hnext, ← hrest]

theorem length_header_maskByte {h : XorHalf} (hheader : h.header.length < 5) (b : UInt8) :
    (maskByte c d h b).2.header.length < 5 := by
  rw [maskByte]
  split
  · dsimp only
    split
    · exact Nat.zero_lt_succ 4
    · rename_i hmore
      simp only [List.length_append, List.length_singleton] at hmore ⊢
      omega
  · exact hheader

theorem length_header_run {h : XorHalf} (hheader : h.header.length < 5) (buf : List UInt8) :
    (run (maskByte c d) h buf).2.header.length < 5 := by
  induction buf generalizing h with
  | nil => exact hheader
  | cons b buf ih => exact ih (length_header_maskByte hheader b)

/-- The receiving machine undoes a byte of the sending one. -/
theorem maskByte_maskByte (h : XorHalf) (b : UInt8) :
    maskByte c .receiving h (maskByte c .sending h b).1 = (b, (maskByte c .sending h b).2) := by
  unfold maskByte
  by_cases hskip : h.skip = 0
  · simp only [if_pos hskip, Aes256Ctr.xorByte_xorByte]
    rfl
  · simp only [if_neg hskip]

/-- **What one end sends, the other end reads**, and both are in the same state
again. -/
theorem receiving_undoes_sending (h : XorHalf) (buf : List UInt8) :
    (run (maskByte c .receiving) h (run (maskByte c .sending) h buf).1).1 = buf ∧
      (run (maskByte c .sending) h buf).2 =
        (run (maskByte c .receiving) h (run (maskByte c .sending) h buf).1).2 := by
  refine run_inverse ?_ rfl buf
  rintro s t a rfl
  rw [maskByte_maskByte]
  exact ⟨rfl, rfl⟩

end

/-! ### Records -/

/-- A record: its header and its body. -/
structure XorRecord where
  header : List UInt8
  body : List UInt8
  length_header : header.length = 5
  decodeHeader_header : decodeHeader header = .ok body.length

/-- The records as they are sent in the clear. -/
def clearRecords (records : List XorRecord) : List UInt8 := records.flatMap fun r => r.header ++ r.body

/-- The records with the headers masked by the next five bytes of the key each. -/
def maskRecords : List XorRecord → (key : List UInt8) → List UInt8
  | [], _ => []
  | r :: records, key =>
      List.zipWith (· ^^^ ·) r.header (key.take 5) ++ (r.body ++ maskRecords records (key.drop 5))

/-- One record, from between two records to between two records. -/
theorem run_record (c : RecordCrypto) (ctr : Aes256Ctr) (r : XorRecord) (rest : List UInt8) :
    (run (maskByte c .sending) ⟨ctr, 0, []⟩ (r.header ++ (r.body ++ rest))).1 =
      List.zipWith (· ^^^ ·) r.header (ctr.keyBytes c 5) ++
        (r.body ++ (run (maskByte c .sending)
          ⟨(ctr.xorKeystream c (List.replicate 5 0)).2, 0, []⟩ rest).1) := by
  have hne : r.header ≠ [] := by
    intro hnil
    have hlen := r.length_header
    rw [hnil] at hlen
    cases hlen
  have hheader := @run_header c .sending ctr [] r.header hne
    (by rw [r.length_header]; exact Nat.le_refl 5)
  have hskip : skipOf r.header = r.body.length := by
    rw [skipOf, r.decodeHeader_header]
  have hbody := @run_skip c .sending ⟨(ctr.xorKeystream c r.header).2, skipOf r.header, []⟩ r.body
    (Nat.le_of_eq hskip.symm)
  rw [if_pos (by rw [r.length_header]; rfl)] at hheader
  rw [run_append, hheader, run_append]
  show _ ++ ((run (maskByte c .sending) ⟨(ctr.xorKeystream c r.header).2, skipOf r.header, []⟩ r.body).1 ++
    (run (maskByte c .sending) (run (maskByte c .sending)
      ⟨(ctr.xorKeystream c r.header).2, skipOf r.header, []⟩ r.body).2 rest).1) = _
  rw [hbody, Aes256Ctr.xorKeystream_fst, Aes256Ctr.xorKeystream_snd, r.length_header, hskip, Nat.sub_self]

/-- **Only the headers are masked**, each by its part of the key stream. -/
theorem run_records (c : RecordCrypto) (ctr : Aes256Ctr) (records : List XorRecord) :
    (run (maskByte c .sending) ⟨ctr, 0, []⟩ (clearRecords records)).1 =
      maskRecords records (ctr.keyBytes c (5 * records.length)) := by
  induction records generalizing ctr with
  | nil => rfl
  | cons r records ih =>
      have hkey : ctr.keyBytes c (5 * (r :: records).length) = ctr.keyBytes c 5 ++
          (ctr.xorKeystream c (List.replicate 5 0)).2.keyBytes c (5 * records.length) := by
        rw [List.length_cons, Nat.mul_succ, Nat.add_comm, Aes256Ctr.keyBytes_add]
      have hfive : (ctr.keyBytes c 5).length = 5 := Aes256Ctr.length_keyBytes c ctr 5
      rw [clearRecords, List.flatMap_cons, List.append_assoc, run_record, hkey, maskRecords]
      rw [List.take_left' hfive, List.drop_left' hfive]
      rw [← ih]
      rfl

/-! ### The filter -/

structure XorFilter where
  ctr : Aes256Ctr
  peerCtr : Aes256Ctr
  outSkip : Nat
  outHeader : List UInt8
  inSkip : Nat
  inHeader : List UInt8
  deriving DecidableEq, Repr

namespace XorFilter

variable (c : RecordCrypto)

def new (ctr peerCtr : Aes256Ctr) (outSkip inSkip : Nat) : XorFilter :=
  ⟨ctr, peerCtr, outSkip, [], inSkip, []⟩

def outHalf (f : XorFilter) : XorHalf := ⟨f.ctr, f.outSkip, f.outHeader⟩

def inHalf (f : XorFilter) : XorHalf := ⟨f.peerCtr, f.inSkip, f.inHeader⟩

def filterOut (f : XorFilter) (buf : List UInt8) : List UInt8 × XorFilter :=
  let (masked, h) := filterLoop c .sending (buf.length + 1) f.outHalf buf
  (masked, { f with ctr := h.ctr, outSkip := h.skip, outHeader := h.header })

def filterIn (f : XorFilter) (buf : List UInt8) : List UInt8 × XorFilter :=
  let (clear, h) := filterLoop c .receiving (buf.length + 1) f.inHalf buf
  (clear, { f with peerCtr := h.ctr, inSkip := h.skip, inHeader := h.header })

/-! ### Calls -/

section

variable {c : RecordCrypto}

theorem filterOut_eq_run {f : XorFilter} (hheader : f.outHeader.length < 5) (buf : List UInt8) :
    (f.filterOut c buf).1 = (run (maskByte c .sending) f.outHalf buf).1 ∧
      (f.filterOut c buf).2.outHalf = (run (maskByte c .sending) f.outHalf buf).2 ∧
      (f.filterOut c buf).2.outHeader.length < 5 := by
  have hloop := filterLoop_eq_run (c := c) (d := .sending) (h := f.outHalf) hheader (Nat.lt_succ_self buf.length)
  rw [← hloop]
  refine ⟨rfl, rfl, ?_⟩
  show (filterLoop c .sending (buf.length + 1) f.outHalf buf).2.header.length < 5
  rw [hloop]
  exact length_header_run hheader buf

theorem filterIn_eq_run {f : XorFilter} (hheader : f.inHeader.length < 5) (buf : List UInt8) :
    (f.filterIn c buf).1 = (run (maskByte c .receiving) f.inHalf buf).1 ∧
      (f.filterIn c buf).2.inHalf = (run (maskByte c .receiving) f.inHalf buf).2 ∧
      (f.filterIn c buf).2.inHeader.length < 5 := by
  have hloop := filterLoop_eq_run (c := c) (d := .receiving) (h := f.inHalf) hheader (Nat.lt_succ_self buf.length)
  rw [← hloop]
  refine ⟨rfl, rfl, ?_⟩
  show (filterLoop c .receiving (buf.length + 1) f.inHalf buf).2.header.length < 5
  rw [hloop]
  exact length_header_run hheader buf

/-- The receiver has again what the sender has masked, and both are at the same place. -/
theorem filterIn_filterOut {f g : XorFilter} (hhalf : g.inHalf = f.outHalf) (hheader : f.outHeader.length < 5)
    (calls cuts : List (List UInt8)) (hcuts : cuts.flatten = (run (filterOut c) f calls).1.flatten) :
    (run (filterIn c) g cuts).1.flatten = calls.flatten ∧
      (run (filterIn c) g cuts).2.inHalf = (run (filterOut c) f calls).2.outHalf := by
  obtain ⟨hsent, hsender⟩ := run_calls (filterOut c) outHalf (fun f => f.outHeader.length < 5)
    (fun _ buf hinv => filterOut_eq_run hinv buf) hheader calls
  have hpeer : g.inHeader.length < 5 := by
    have heq : g.inHeader = f.outHeader := congrArg XorHalf.header hhalf
    rw [heq]
    exact hheader
  obtain ⟨hread, hreader⟩ := run_calls (filterIn c) inHalf (fun f => f.inHeader.length < 5)
    (fun _ buf hinv => filterIn_eq_run hinv buf) hpeer cuts
  obtain ⟨hback, hsame⟩ := receiving_undoes_sending (c := c) f.outHalf calls.flatten
  -- both ends are machines that work bytes off, so neither the calls nor the cuts matter
  rw [hread, hreader, hsender, hcuts, hsent, hhalf]
  exact ⟨hback, hsame.symm⟩

/-- **Masking is undone however the stream is cut**, and masks nothing but headers.
The calls of the sender are cut from one stream and those of the receiver from
what the sender has made of it; the receiver has the stream again.  Of a stream
that is what the sender skips and then records, the headers are masked, each by
five bytes of the key stream, and all else is as it was. -/
theorem masking_undone_however_cut {f g : XorFilter} (hhalf : g.inHalf = f.outHalf)
    (hheader : f.outHeader.length < 5) (calls : List (List UInt8)) :
    (∀ cuts, List.flatten cuts = (run (filterOut c) f calls).1.flatten →
      (run (filterIn c) g cuts).1.flatten = calls.flatten) ∧
    (∀ skipped records, skipped.length = f.outSkip → f.outHeader = [] →
      calls.flatten = skipped ++ clearRecords records →
      (run (filterOut c) f calls).1.flatten =
        skipped ++ maskRecords records (f.ctr.keyBytes c (5 * records.length))) := by
  have hsent := (run_calls (filterOut c) outHalf (fun f => f.outHeader.length < 5)
    (fun _ buf hinv => filterOut_eq_run hinv buf) hheader calls).1
  rw [hsent]
  constructor
  · intro cuts hcuts
    exact (filterIn_filterOut hhalf hheader calls cuts (hcuts.trans hsent.symm)).1
  · intro skipped records hskipped hnone hstream
    have hskip := run_skip (c := c) (d := .sending) (h := f.outHalf) (Nat.le_of_eq hskipped)
    rw [hstream, run_append, hskip]
    show skipped ++ (run (maskByte c .sending) ⟨f.ctr, f.outSkip - skipped.length, f.outHeader⟩ _).1 = _
    rw [hskipped, Nat.sub_self, hnone, run_records]

/-- **What is sealed at one end is opened at the other.**  Chunks of 1 to 8192 bytes are sealed and the
headers of their records masked, in whatever calls, and what comes of it arrives in whatever cuts; the
receiver unmasks the cuts and opens the records one by one, over every change of keys.  In the end both
have the same keys and nonces, and the same place in the key stream and in the records. -/
theorem sealed_stream_opened {k : Secrets} (hc : c.Lawful) {f g : XorFilter} (hhalf : g.inHalf = f.outHalf)
    (hheader : f.outHeader.length < 5) (a : VlessAead) {chunks : List (List UInt8)}
    (hchunks : ∀ chunk ∈ chunks, 0 < chunk.length ∧ chunk.length ≤ 8192) (calls cuts : List (List UInt8))
    (hcalls : calls.flatten = records c k a chunks) (hcuts : cuts.flatten = (run (filterOut c) f calls).1.flatten) :
    RecordReader.readRecords c k ⟨a, (run (filterIn c) g cuts).1.flatten, []⟩ chunks.length =
        some ⟨aeadAfter c k a chunks, [], chunks⟩ ∧
      (run (filterIn c) g cuts).2.inHalf = (run (filterOut c) f calls).2.outHalf := by
  obtain ⟨hback, hsame⟩ := filterIn_filterOut hhalf hheader calls cuts hcuts
  have hread := readRecords_records (k := k) hc a hchunks []
  rw [List.append_nil] at hread
  rw [hback, hcalls]
  exact ⟨hread, hsame⟩

def sampleCtr : Aes256Ctr := .new sampleCrypto sampleSecrets.unitedKey (List.range 16 |>.map UInt8.ofNat)

/-- A filter that masks for itself. -/
def keyedFilter : XorFilter := .new sampleCtr sampleCtr 0 0

/-- Two records with a change of keys in between. -/
def sampleSent : List (List UInt8) × XorFilter :=
  run (filterOut sampleCrypto) keyedFilter [records sampleCrypto sampleSecrets lastAead sampleTexts]

/-- The receiver takes the bytes one by one. -/
def sampleRead : List (List UInt8) × XorFilter :=
  run (filterIn sampleCrypto) keyedFilter (sampleSent.1.flatten.map fun b => [b])

theorem sealed_stream_opened_sample :
    sampleSent.1.flatten.take 5 = [68, 176, 235, 230, 163] ∧
      RecordReader.readRecords sampleCrypto sampleSecrets ⟨lastAead, sampleRead.1.flatten, []⟩ 2 =
        some ⟨aeadAfter sampleCrypto sampleSecrets lastAead sampleTexts, [], sampleTexts⟩ ∧
      sampleRead.2.inHalf = sampleSent.2.outHalf := by
  refine ⟨by decide, ?_⟩
  refine @sealed_stream_opened sampleCrypto sampleSecrets sampleCrypto_lawful keyedFilter keyedFilter rfl
    (by decide) lastAead sampleTexts (by decide) [records sampleCrypto sampleSecrets lastAead sampleTexts] _
    (List.append_nil _) ?_
  show (sampleSent.1.flatten.map fun b => [b]).flatten = sampleSent.1.flatten
  rw [← List.flatMap_def]
  exact List.flatMap_singleton' _

end

/-! ### A stream in two calls -/

def sampleRecord : XorRecord where
  header := [23, 3, 3, 0, 17]
  body := List.replicate 17 0xaa
  length_header := rfl
  decodeHeader_header := rfl

/-- Two bytes that are skipped and a record, cut in the header. -/
def twoCalls : List (List UInt8) := [[1, 2, 23, 3], [3, 0, 17] ++ List.replicate 17 0xaa]

def sampleSender : XorFilter := .new sampleCtr sampleCtr 2 0

def sampleReceiver : XorFilter := .new sampleCtr sampleCtr 0 2

/-- The receiver takes the bytes one by one. -/
theorem masking_undone_twoCalls :
    (run (filterOut sampleCrypto) sampleSender twoCalls).1.flatten =
      [1, 2] ++ maskRecords [sampleRecord] (sampleCtr.keyBytes sampleCrypto 5) ∧
    (run (filterIn sampleCrypto) sampleReceiver
      ((run (filterOut sampleCrypto) sampleSender twoCalls).1.flatten.map fun b => [b])).1.flatten =
      twoCalls.flatten := by
  have h := masking_undone_however_cut (c := sampleCrypto) (f := sampleSender) (g := sampleReceiver)
    rfl (by decide) twoCalls
  refine ⟨h.2 [1, 2] [sampleRecord] rfl rfl rfl, h.1 _ ?_⟩
  generalize (run (filterOut sampleCrypto) sampleSender twoCalls).1.flatten = out
  rw [← List.flatMap_def]
  exact List.flatMap_singleton' out

end XorFilter

end Vless

end Elise
