/-
Elise/Shadowsocks/ShadowTls.lean

The chained records of ShadowTLS v3 (`Records` and `Verified` in
src/protocol/shadowsocks/shadowtls.rs).

A record carries four bytes of a MAC over all that went before and its own payload.  Both sides
keep what the MAC has absorbed; a record is the next one or it is rejected.
-/
import Elise.Lib.Decoder
import Elise.Lib.Wire

namespace Elise

namespace Shadowsocks

namespace ShadowTls

open Net Decoder Chunks

/-- What a MAC comes to (HMAC-SHA1). -/
structure Digest where
  bytes : List UInt8
  length_bytes : bytes.length = 20
  deriving DecidableEq

/-- A MAC that is under way is known by the bytes that it has absorbed. -/
abbrev Hash := List UInt8

/-- The errors, with the texts of the source. -/
inductive Error where
  | connectionAborted
  | invalid (message : String)
  deriving DecidableEq, Repr

/-! ### Records -/

namespace Records

def decode (_ : Unit) (src : List UInt8) : Decoder.Answer Unit UInt8 (List UInt8) Error :=
  if src.length < 5 then .more () src
  else
    let size := (u16At src 3).toNat
    if byteAt src 1 ≠ 3 ∨ ¬ (byteAt src 2 = 1 ∨ byteAt src 2 = 3) ∨ 18436 < size then
      .failed (.invalid "Invalid TLS record") () src
    else if src.length < 5 + size then .more () src
    else .frame (src.take (5 + size)) () (src.drop (5 + size))

variable {src : List UInt8}

theorem decode_more {s : Unit} {rest : List UInt8} (h : decode () src = .more s rest) :
    rest = src := by
  rw [decode] at h
  split at h
  · injection h with _ h
    exact h.symm
  · simp only at h
    split at h
    · cases h
    · split at h
      · injection h with _ h
        exact h.symm
      · cases h

/-- A record is taken off the front, as long as it says. -/
theorem decode_frame {s : Unit} {frame rest : List UInt8} (h : decode () src = .frame frame s rest) :
    src = frame ++ rest ∧ frame.length = 5 + (u16At src 3).toNat := by
  rw [decode] at h
  split at h
  · cases h
  · simp only at h
    split at h
    · cases h
    · split at h
      · cases h
      · rename_i hlen
        injection h with hframe _ hrest
        subst hframe hrest
        refine ⟨(List.take_append_drop _ _).symm, ?_⟩
        rw [List.length_take]
        omega

/-- The answer does not depend on what comes behind. -/
theorem decode_extend (ext : List UInt8) (h : ∀ s rest, decode () src ≠ .more s rest) :
    decode () (src ++ ext) = (decode () src).extend ext := by
  rw [decode] at h ⊢
  conv => rhs; rw [decode]
  by_cases hshort : src.length < 5
  · rw [if_pos hshort] at h
    exact absurd rfl (h () src)
  · have hshort' : ¬ (src ++ ext).length < 5 := by
      rw [List.length_append]
      omega
    rw [if_neg hshort] at h ⊢
    rw [if_neg hshort', u16At_append_left ext (by omega), byteAt_append_left ext (by omega),
      byteAt_append_left ext (by omega)]
    simp only at h ⊢
    split
    · rfl
    · rename_i hok
      rw [if_neg hok] at h
      split at h
      · exact absurd rfl (h () src)
      · rename_i hlen
        have hlen' : ¬ (src ++ ext).length < 5 + (u16At src 3).toNat := by
          rw [List.length_append]
          omega
        rw [if_neg hlen', if_neg hlen, List.take_append_of_le_length (by omega),
          List.drop_append_of_le_length (by omega)]
        rfl

end Records

/-! ### Verified records -/

variable (mac : Hash → Digest)

namespace Verified

/-- What is made of a record that was taken off the buffer. -/
def verify (hash : Hash) (frame rest : List UInt8) : Decoder.Answer Hash UInt8 (List UInt8) Error :=
  if byteAt frame 0 = 21 then .failed .connectionAborted hash rest
  else if byteAt frame 0 ≠ 23 ∨ bytesAt frame 1 2 ≠ [3, 3] ∨ frame.length < 9 then
    .failed (.invalid "Invalid ShadowTLS data record") hash rest
  else
    let absorbed := hash ++ frame.drop 9
    if (mac absorbed).bytes.take 4 ≠ bytesAt frame 5 4 then
      .failed (.invalid "ShadowTLS record authentication failed") hash rest
    else .frame (frame.drop 9) (absorbed ++ bytesAt frame 5 4) rest

def decode (hash : Hash) (src : List UInt8) : Decoder.Answer Hash UInt8 (List UInt8) Error :=
  match Records.decode () src with
  | .more () rest => .more hash rest
  | .failed e () rest => .failed e hash rest
  | .frame frame () rest => verify mac hash frame rest

/-- A record for a part, and the MAC behind it. -/
def encodePart (hash : Hash) (part : List UInt8) : List UInt8 × Hash :=
  let absorbed := hash ++ part
  let tag := (mac absorbed).bytes.take 4
  ([23, 3, 3] ++ toBeBytes 2 (part.length + 4) ++ tag ++ part, absorbed ++ tag)

/-- Records for some parts. -/
def encodeParts : Hash → List (List UInt8) → List UInt8 × Hash
  | hash, [] => ([], hash)
  | hash, part :: parts =>
      let record := encodePart mac hash part
      let rest := encodeParts record.2 parts
      (record.1 ++ rest.1, rest.2)

def encode (hash : Hash) (data : List UInt8) : List UInt8 × Hash :=
  encodeParts mac hash (chunks 16384 data)

/-- One write after the other. -/
def encodeAll : Hash → List (List UInt8) → List UInt8 × Hash
  | hash, [] => ([], hash)
  | hash, data :: writes =>
      let first := encode mac hash data
      let rest := encodeAll first.2 writes
      (first.1 ++ rest.1, rest.2)

/-- The parts, each with the MAC of the encoder behind its record. -/
def trace : Hash → List (List UInt8) → List (List UInt8 × Hash)
  | _, [] => []
  | hash, part :: parts =>
      let after := (encodePart mac hash part).2
      (part, after) :: trace after parts

variable {mac} {hash : Hash} {src : List UInt8}

theorem verify_extend (frame rest ext : List UInt8) :
    verify mac hash frame (rest ++ ext) = (verify mac hash frame rest).extend ext := by
  rw [verify, verify]
  simp only
  split
  · rfl
  · split
    · rfl
    · split <;> rfl

/-- A record is never put back. -/
theorem verify_ne_more (frame rest : List UInt8) (s : Hash) (left : List UInt8) :
    verify mac hash frame rest ≠ .more s left := by
  rw [verify]
  simp only
  split
  · nofun
  · split
    · nofun
    · split <;> nofun

theorem verify_failed {frame rest left : List UInt8} {e : Error} {s : Hash}
    (h : verify mac hash frame rest = .failed e s left) : s = hash := by
  rw [verify] at h
  simp only at h
  split at h
  · injection h with _ h
    exact h.symm
  · split at h
    · injection h with _ h
      exact h.symm
    · split at h
      · injection h with _ h
        exact h.symm
      · cases h

/-- The record that the encoder makes of a payload, byte by byte. -/
theorem encodePart_eq (hash : Hash) {part : List UInt8} {t₀ t₁ t₂ t₃ hi lo : UInt8}
    (htag : (mac (hash ++ part)).bytes.take 4 = [t₀, t₁, t₂, t₃])
    (hlen : toBeBytes 2 (part.length + 4) = [hi, lo]) :
    encodePart mac hash part =
      (23 :: 3 :: 3 :: hi :: lo :: t₀ :: t₁ :: t₂ :: t₃ :: part, hash ++ part ++ [t₀, t₁, t₂, t₃]) := by
  rw [encodePart, htag, hlen]
  rfl

/-- The nine bytes before a payload. -/
theorem exists_nine {frame : List UInt8} (h : 9 ≤ frame.length) :
    ∃ a b c hi lo t₀ t₁ t₂ t₃ body,
      frame = a :: b :: c :: hi :: lo :: t₀ :: t₁ :: t₂ :: t₃ :: body := by
  have hcut := (List.take_append_drop 9 frame).symm
  have hlen : (frame.take 9).length = 9 := by
    rw [List.length_take]
    omega
  generalize frame.take 9 = head at hcut hlen
  generalize frame.drop 9 = body at hcut
  subst hcut
  rcases head with - | ⟨a, - | ⟨b, - | ⟨c, - | ⟨hi, - | ⟨lo, - | ⟨t₀, - | ⟨t₁, - | ⟨t₂, - | ⟨t₃, head⟩⟩⟩⟩⟩⟩⟩⟩⟩
  all_goals simp only [List.length_cons, List.length_nil] at hlen
  all_goals first | omega | skip
  obtain rfl : head = [] := List.length_eq_zero_iff.mp (by omega)
  exact ⟨a, b, c, hi, lo, t₀, t₁, t₂, t₃, body, rfl⟩

/-- The length that a record says. -/
theorem toNat_length_field (a b c hi lo : UInt8) (rest : List UInt8) :
    (u16At (a :: b :: c :: hi :: lo :: rest) 3).toNat = ofBeBytes [hi, lo] := by
  have hfield : bytesAt (a :: b :: c :: hi :: lo :: rest) 3 2 = [hi, lo] := rfl
  have hlt := ofBeBytes_lt [hi, lo]
  rw [show [hi, lo].length = 2 from rfl] at hlt
  rw [u16At, hfield]
  exact UInt16.toNat_ofNat_of_lt' hlt

theorem verify_frame {frame rest payload left : List UInt8} {s : Hash}
    (h : verify mac hash frame rest = .frame payload s left)
    (hsize : frame.length = 5 + (u16At frame 3).toNat) :
    frame = (encodePart mac hash payload).1 ∧ s = (encodePart mac hash payload).2 ∧ left = rest := by
  rw [verify] at h
  simp only at h
  split at h
  · cases h
  · split at h
    · cases h
    · rename_i hkind
      split at h
      · cases h
      · rename_i htag
        injection h with hpayload hs hrest
        obtain ⟨hfirst, hversion, hlong⟩ : byteAt frame 0 = 23 ∧ bytesAt frame 1 2 = [3, 3] ∧
            9 ≤ frame.length := by
          simpa using hkind
        obtain ⟨a, b, c, hi, lo, t₀, t₁, t₂, t₃, body, rfl⟩ := exists_nine hlong
        obtain rfl : body = payload := hpayload
        obtain rfl : a = 23 := hfirst
        obtain ⟨rfl, rfl⟩ : b = 3 ∧ c = 3 := by
          simpa [bytesAt, byteAt, List.range_succ] using hversion
        have htag' : (mac (hash ++ body)).bytes.take 4 = [t₀, t₁, t₂, t₃] :=
          Decidable.not_not.mp htag
        rw [toNat_length_field] at hsize
        have hlen : toBeBytes 2 (body.length + 4) = [hi, lo] := by
          simp only [List.length_cons] at hsize
          rw [show body.length + 4 = ofBeBytes [hi, lo] by omega]
          exact toBeBytes_ofBeBytes [hi, lo]
        rw [encodePart_eq hash htag' hlen]
        exact ⟨rfl, hs.symm, hrest.symm⟩

/-- While more is needed nothing changes. -/
theorem decode_more {s : Hash} {rest : List UInt8} (h : decode mac hash src = .more s rest) :
    s = hash ∧ rest = src := by
  rw [decode] at h
  rcases hrecord : Records.decode () src with ⟨u, left⟩ | ⟨frame, u, left⟩ | ⟨e, u, left⟩
  · rw [hrecord] at h
    injection h with hs hrest
    exact ⟨hs.symm, hrest ▸ Records.decode_more hrecord⟩
  · rw [hrecord] at h
    exact absurd h (verify_ne_more frame left s rest)
  · rw [hrecord] at h
    cases h

/-- **A record that is rejected leaves the MAC as it is.** -/
theorem decode_failed {e : Error} {s : Hash} {rest : List UInt8}
    (h : decode mac hash src = .failed e s rest) : s = hash := by
  rw [decode] at h
  rcases hrecord : Records.decode () src with ⟨u, left⟩ | ⟨frame, u, left⟩ | ⟨e, u, left⟩
  · rw [hrecord] at h
    cases h
  · rw [hrecord] at h
    exact verify_failed h
  · rw [hrecord] at h
    injection h with _ hs
    exact hs.symm

/-- **A record that is delivered is the one that the encoder makes.** -/
theorem decode_frame {payload : List UInt8} {s : Hash} {rest : List UInt8}
    (h : decode mac hash src = .frame payload s rest) :
    src = (encodePart mac hash payload).1 ++ rest ∧ s = (encodePart mac hash payload).2 := by
  rw [decode] at h
  rcases hrecord : Records.decode () src with ⟨u, left⟩ | ⟨frame, u, left⟩ | ⟨e, u, left⟩
  · rw [hrecord] at h
    cases h
  · rw [hrecord] at h
    obtain ⟨hsrc, hsize⟩ := Records.decode_frame hrecord
    have hsame : u16At src 3 = u16At frame 3 := by
      rw [hsrc]
      exact u16At_append_left left (by omega)
    rw [hsame] at hsize
    obtain ⟨hframe, hs, hleft⟩ := verify_frame h hsize
    rw [← hframe, hleft]
    exact ⟨hsrc, hs⟩
  · rw [hrecord] at h
    cases h

theorem decode_extend (ext : List UInt8) (h : ∀ s rest, decode mac hash src ≠ .more s rest) :
    decode mac hash (src ++ ext) = (decode mac hash src).extend ext := by
  have hrecords : ∀ s rest, Records.decode () src ≠ .more s rest := by
    intro s rest hmore
    apply h hash rest
    rw [decode, hmore]
  rw [decode, decode, Records.decode_extend ext hrecords]
  rcases Records.decode () src with ⟨u, left⟩ | ⟨frame, u, left⟩ | ⟨e, u, left⟩
  · rfl
  · exact verify_extend frame left ext
  · rfl

variable (mac) in
theorem incremental : Incremental (decode mac) := by
  apply Incremental.of_extend
  · intro hash
    rfl
  · exact decode_more
  · intro hash src payload s rest h
    obtain ⟨hsrc, -⟩ := decode_frame h
    rw [hsrc, encodePart]
    simp only [List.length_append]
    rw [length_toBeBytes]
    omega
  · exact decode_extend

/-! ### The encoder and the decoder -/

/-- The fields of a record of a part. -/
theorem exists_fields (mac : Hash → Digest) (hash : Hash) (part : List UInt8) :
    ∃ t₀ t₁ t₂ t₃ hi lo, (mac (hash ++ part)).bytes.take 4 = [t₀, t₁, t₂, t₃] ∧
      toBeBytes 2 (part.length + 4) = [hi, lo] := by
  have hlen : ((mac (hash ++ part)).bytes.take 4).length = 4 := by
    rw [List.length_take, (mac (hash ++ part)).length_bytes]
    rfl
  obtain ⟨t₀, t₁, t₂, t₃, htag⟩ := List.length_eq_four.mp hlen
  obtain ⟨hi, lo, hsize⟩ := List.length_eq_two.mp (length_toBeBytes 2 (part.length + 4))
  exact ⟨t₀, t₁, t₂, t₃, hi, lo, htag, hsize⟩

variable (mac) in
theorem decode_encodePart (hash : Hash) {part : List UInt8} (h : part.length ≤ 16384) :
    decode mac hash (encodePart mac hash part).1 =
      .frame part (encodePart mac hash part).2 [] := by
  obtain ⟨t₀, t₁, t₂, t₃, hi, lo, htag, hsize⟩ := exists_fields mac hash part
  have hvalue : ofBeBytes [hi, lo] = part.length + 4 := by
    rw [← hsize]
    exact ofBeBytes_toBeBytes (Nat.lt_of_lt_of_le (by omega : part.length + 4 < 65536) (by norm_num))
  rw [encodePart_eq hash htag hsize]
  -- the record is all there is
  have hrecord : Records.decode () (23 :: 3 :: 3 :: hi :: lo :: t₀ :: t₁ :: t₂ :: t₃ :: part) =
      .frame (23 :: 3 :: 3 :: hi :: lo :: t₀ :: t₁ :: t₂ :: t₃ :: part) () [] := by
    have hall : (23 :: 3 :: 3 :: hi :: lo :: t₀ :: t₁ :: t₂ :: t₃ :: part).length =
        5 + (part.length + 4) := by
      simp only [List.length_cons]
      omega
    have hgood : ¬ ((3 : UInt8) ≠ 3 ∨ ¬ ((3 : UInt8) = 1 ∨ (3 : UInt8) = 3) ∨
        18436 < part.length + 4) := by
      simp
      omega
    have hversion : byteAt (23 :: 3 :: 3 :: hi :: lo :: t₀ :: t₁ :: t₂ :: t₃ :: part) 1 = 3 := rfl
    have hminor : byteAt (23 :: 3 :: 3 :: hi :: lo :: t₀ :: t₁ :: t₂ :: t₃ :: part) 2 = 3 := rfl
    rw [Records.decode, if_neg (by rw [hall]; omega)]
    simp only [toNat_length_field, hvalue]
    rw [hversion, hminor]
    rw [if_neg hgood, if_neg (by rw [hall]; omega), List.take_of_length_le hall.le,
      List.drop_of_length_le hall.le]
  rw [decode, hrecord]
  show verify mac hash _ [] = _
  have hlong : ¬ (23 :: 3 :: 3 :: hi :: lo :: t₀ :: t₁ :: t₂ :: t₃ :: part).length < 9 := by
    simp only [List.length_cons]
    omega
  have hkind : ¬ (byteAt (23 :: 3 :: 3 :: hi :: lo :: t₀ :: t₁ :: t₂ :: t₃ :: part) 0 ≠ 23 ∨
      bytesAt (23 :: 3 :: 3 :: hi :: lo :: t₀ :: t₁ :: t₂ :: t₃ :: part) 1 2 ≠ [3, 3] ∨
      (23 :: 3 :: 3 :: hi :: lo :: t₀ :: t₁ :: t₂ :: t₃ :: part).length < 9) := by
    rintro (hfirst | hversion | hshort)
    · exact hfirst rfl
    · exact hversion rfl
    · exact hlong hshort
  have halert : ¬ byteAt (23 :: 3 :: 3 :: hi :: lo :: t₀ :: t₁ :: t₂ :: t₃ :: part) 0 = 21 := by
    show ¬ (23 : UInt8) = 21
    decide
  rw [verify, if_neg halert, if_neg hkind]
  have hsame : ¬ (mac (hash ++ part)).bytes.take 4 ≠ [t₀, t₁, t₂, t₃] := not_not.mpr htag
  exact if_neg hsame

variable (mac) in
theorem decodes_encodePart (hash : Hash) {part : List UInt8} (h : part.length ≤ 16384) :
    Decodes (decode mac) hash (encodePart mac hash part).1
      [(part, (encodePart mac hash part).2)] (encodePart mac hash part).2 :=
  (incremental mac).decodes_single (decode_encodePart mac hash h)

variable (mac) in
theorem decodes_encodeParts (hash : Hash) {parts : List (List UInt8)}
    (h : ∀ part ∈ parts, part.length ≤ 16384) :
    Decodes (decode mac) hash (encodeParts mac hash parts).1 (trace mac hash parts)
      (encodeParts mac hash parts).2 := by
  induction parts generalizing hash with
  | nil => exact decodes_nil hash
  | cons part parts ih =>
      have hpart := decodes_encodePart mac hash (h part List.mem_cons_self)
      apply hpart.append
      exact ih _ fun other hmem => h other (List.mem_cons_of_mem _ hmem)

theorem encodeParts_append (hash : Hash) (parts more : List (List UInt8)) :
    encodeParts mac hash (parts ++ more) =
      ((encodeParts mac hash parts).1 ++ (encodeParts mac (encodeParts mac hash parts).2 more).1,
        (encodeParts mac (encodeParts mac hash parts).2 more).2) := by
  induction parts generalizing hash with
  | nil => rfl
  | cons part parts ih =>
      rw [List.cons_append, encodeParts]
      simp only [ih]
      rw [encodeParts, List.append_assoc]

/-- The parts of some writes. -/
def parts (writes : List (List UInt8)) : List (List UInt8) := writes.flatMap (chunks 16384)

/-- One write after the other is one part after the other. -/
theorem encodeAll_eq (hash : Hash) (writes : List (List UInt8)) :
    encodeAll mac hash writes = encodeParts mac hash (parts writes) := by
  induction writes generalizing hash with
  | nil => rfl
  | cons data writes ih =>
      rw [encodeAll, parts, List.flatMap_cons, encodeParts_append]
      simp only [ih]
      rfl

theorem flatten_parts (writes : List (List UInt8)) : (parts writes).flatten = writes.flatten := by
  induction writes with
  | nil => rfl
  | cons data writes ih =>
      have hsplit : parts (data :: writes) = chunks 16384 data ++ parts writes := rfl
      rw [hsplit, List.flatten_append, flatten_chunks (by decide), ih, List.flatten_cons]

theorem length_part_le {writes : List (List UInt8)} {part : List UInt8} (h : part ∈ parts writes) :
    part ≠ [] ∧ part.length ≤ 16384 := by
  obtain ⟨data, -, hpart⟩ := List.mem_flatMap.mp h
  exact of_mem_chunks (by decide) hpart

theorem map_fst_trace (hash : Hash) (parts : List (List UInt8)) :
    (trace mac hash parts).map Prod.fst = parts := by
  induction parts generalizing hash with
  | nil => rfl
  | cons part parts ih => rw [trace, List.map_cons, ih]

/-- A write of one part is one record. -/
theorem encode_single (hash : Hash) {payload : List UInt8} (hne : payload ≠ [])
    (hle : payload.length ≤ 16384) : encode mac hash payload = encodePart mac hash payload := by
  rw [encode, chunks_of_le (by decide) hne hle, encodeParts, encodeParts, List.append_nil]

/-- The empty record is delivered, but the encoder makes none. -/
theorem empty_record_delivered :
    ¬ ∀ (mac : Hash → Digest) (hash : Hash) (src payload : List UInt8) (s : Hash)
      (rest : List UInt8), decode mac hash src = .frame payload s rest →
        bytesAt src 5 4 = ((encode mac hash payload).1.drop 5).take 4 := by
  intro h
  have hdecode : decode (fun _ => ⟨List.replicate 20 7, rfl⟩) [] [23, 3, 3, 0, 4, 7, 7, 7, 7] =
      .frame [] [7, 7, 7, 7] [] := by
    decide
  have htag := h _ _ _ _ _ _ hdecode
  exact absurd htag (by decide)

/-- **The chain of records.**  What is written is read, cut as it may be, and both sides are in
the same state behind every record; of any bytes, a record is delivered only if it is the one that
the encoder makes of the payload in the same state, and a record that is rejected changes
nothing. -/
theorem chain (mac : Hash → Digest) (hash : Hash) :
    (∀ (writes pieces : List (List UInt8)), pieces.flatten = (encodeAll mac hash writes).1 →
      ((feedAll (decode mac) hash pieces).frames.map Prod.fst).flatten = writes.flatten ∧
      feedAll (decode mac) hash pieces =
        ⟨trace mac hash (parts writes), none, (encodeAll mac hash writes).2, []⟩) ∧
    ∀ src : List UInt8,
      (∀ payload s rest, decode mac hash src = .frame payload s rest →
        src = (encodePart mac hash payload).1 ++ rest ∧ s = (encodePart mac hash payload).2 ∧
        bytesAt src 5 4 = (mac (hash ++ payload)).bytes.take 4 ∧
        (payload ≠ [] → payload.length ≤ 16384 →
          encode mac hash payload = encodePart mac hash payload)) ∧
      (∀ e s rest, decode mac hash src = .failed e s rest → s = hash) ∧
      ∀ s rest, decode mac hash src = .more s rest → s = hash ∧ rest = src := by
  refine ⟨?_, ?_⟩
  · intro writes pieces hpieces
    have hdecodes := decodes_encodeParts mac hash
      fun part (hpart : part ∈ parts writes) => (length_part_le hpart).2
    rw [← encodeAll_eq] at hdecodes
    have hfed := (incremental mac).feedAll_of_decodes hdecodes hpieces
    refine ⟨?_, hfed⟩
    rw [hfed]
    show ((trace mac hash (parts writes)).map Prod.fst).flatten = _
    rw [map_fst_trace, flatten_parts]
  · intro src
    refine ⟨?_, fun e s rest h => decode_failed h, fun s rest h => decode_more h⟩
    intro payload s rest h
    obtain ⟨hsrc, hs⟩ := decode_frame h
    refine ⟨hsrc, hs, ?_, encode_single hash⟩
    obtain ⟨t₀, t₁, t₂, t₃, hi, lo, htag, hsize⟩ := exists_fields mac hash payload
    rw [hsrc, encodePart_eq hash htag hsize, htag]
    rfl

end Verified

end ShadowTls

end Shadowsocks

end Elise
