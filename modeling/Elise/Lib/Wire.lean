/-
Elise/Lib/Wire.lean

Numbers on the wire, the most or the least significant byte first.

A `Reader` is for a stream that is read field by field with `read_exact`: it takes
bytes off the front or fails.  What a single read returns does not depend on how the
stream is cut (`ByteStream.readExact_spec`), so the stream is the list of its bytes.

Counters may stand in bytes.  The bytes of a number wrap around at
`256 ^ len`, so a counter of `len` bytes shows the same bytes again after `256 ^ len`
steps and not before (`nodup_counters`).

`Chunks` cuts a list into chunks of `n`, the last one possibly shorter (`slice::chunks`).
-/
import Elise.Lib.Net
import Mathlib

namespace Net

/-- The 32-bit number at a position. -/
def u32At (bytes : List UInt8) (i : Nat) : UInt32 := UInt32.ofNat (ofBeBytes (bytesAt bytes i 4))

/-- A number that was written in two bytes is read back. -/
theorem u16At_toBeBytes (n : UInt16) : u16At (toBeBytes 2 n.toNat) 0 = n := by
  have hread : u16At ([] ++ (toBeBytes 2 n.toNat ++ [])) 0 = n := u16At_append n rfl
  rwa [List.nil_append, List.append_nil] at hread

/-- A length that was written in two bytes is read back. -/
theorem toNat_u16At_toBeBytes {n : Nat} (h : n < 2 ^ 16) (rest : List UInt8) :
    (u16At (toBeBytes 2 n ++ rest) 0).toNat = n := by
  have hread : u16At ([] ++ (toBeBytes 2 (UInt16.ofNat n).toNat ++ rest)) 0 = UInt16.ofNat n :=
    u16At_append _ rfl
  rw [UInt16.toNat_ofNat_of_lt' h, List.nil_append] at hread
  rw [hread, UInt16.toNat_ofNat_of_lt' h]

theorem u32At_append (n : UInt32) {before : List UInt8} (after : List UInt8) {start : Nat}
    (h : before.length = start) : u32At (before ++ (toBeBytes 4 n.toNat ++ after)) start = n := by
  rw [u32At, bytesAt_append h (length_toBeBytes 4 n.toNat), ofBeBytes_toBeBytes n.toNat_lt,
    UInt32.ofNat_toNat]

theorem byteAt_append_cons {before : List UInt8} {start : Nat} (h : before.length = start)
    (b : UInt8) (more : List UInt8) : byteAt (before ++ b :: more) start = b := by
  rw [byteAt, ← h, List.getD_append_right _ _ _ _ (Nat.le_refl _), Nat.sub_self]
  rfl

theorem ipv4At_octets (addr : Ipv4Addr) {before after : List UInt8} {i : Nat}
    (h : before.length = i) : ipv4At (before ++ (addr.octets ++ after)) i = addr := by
  apply Ipv4Addr.ext
  rw [octets_ipv4At, bytesAt_append h addr.length_octets]

theorem ipv6At_octets (addr : Ipv6Addr) {before after : List UInt8} {i : Nat}
    (h : before.length = i) : ipv6At (before ++ (addr.octets ++ after)) i = addr := by
  apply Ipv6Addr.ext
  rw [octets_ipv6At, bytesAt_append h addr.length_octets]

/-- An address that is all there is. -/
theorem ipv4At_octets_self (addr : Ipv4Addr) : ipv4At addr.octets 0 = addr := by
  have h : ipv4At ([] ++ (addr.octets ++ [])) 0 = addr := ipv4At_octets addr rfl
  rwa [List.nil_append, List.append_nil] at h

theorem ipv6At_octets_self (addr : Ipv6Addr) : ipv6At addr.octets 0 = addr := by
  have h : ipv6At ([] ++ (addr.octets ++ [])) 0 = addr := ipv6At_octets addr rfl
  rwa [List.nil_append, List.append_nil] at h

/-- The value of some bytes is bounded by their number. -/
theorem ofBeBytes_lt (bytes : List UInt8) : ofBeBytes bytes < 256 ^ bytes.length := by
  induction bytes using List.reverseRecOn with
  | nil => decide
  | append_singleton bytes b ih =>
      have hb := b.toNat_lt
      rw [ofBeBytes_append, List.length_append, List.length_singleton, pow_succ]
      omega

/-- Some bytes are spelled again by the number that they spell. -/
theorem toBeBytes_ofBeBytes (bytes : List UInt8) :
    toBeBytes bytes.length (ofBeBytes bytes) = bytes := by
  induction bytes using List.reverseRecOn with
  | nil => rfl
  | append_singleton bytes b ih =>
      have hlt : b.toNat < 256 := b.toNat_lt
      have hdiv : (ofBeBytes bytes * 256 + b.toNat) / 256 = ofBeBytes bytes := by omega
      have hbyte : UInt8.ofNat (ofBeBytes bytes * 256 + b.toNat) = b := by
        apply UInt8.toNat_inj.mp
        rw [UInt8.toNat_ofNat']
        omega
      rw [ofBeBytes_append, List.length_append, List.length_singleton, toBeBytes, hdiv, ih, hbyte]


/-! ### The least significant byte first -/

def toLeBytes (len n : Nat) : List UInt8 := (toBeBytes len n).reverse

theorem length_toLeBytes (len n : Nat) : (toLeBytes len n).length = len := by
  rw [toLeBytes, List.length_reverse, length_toBeBytes]

def u16LeAt (bytes : List UInt8) (i : Nat) : UInt16 :=
  UInt16.ofNat (ofBeBytes (bytesAt bytes i 2).reverse)

def u32LeAt (bytes : List UInt8) (i : Nat) : UInt32 :=
  UInt32.ofNat (ofBeBytes (bytesAt bytes i 4).reverse)

theorem toNat_u16LeAt_toLeBytes {n : Nat} (h : n < 2 ^ 16) (rest : List UInt8) :
    (u16LeAt (toLeBytes 2 n ++ rest) 0).toNat = n := by
  have hfield : bytesAt ([] ++ (toLeBytes 2 n ++ rest)) 0 2 = toLeBytes 2 n :=
    bytesAt_append rfl (length_toLeBytes 2 n)
  rw [List.nil_append] at hfield
  rw [u16LeAt, hfield, toLeBytes, List.reverse_reverse, ofBeBytes_toBeBytes h,
    UInt16.toNat_ofNat_of_lt' h]

end Net

/-! ### Readers -/

/-- A reader of bytes, with errors in `E`. -/
abbrev Reader (E α : Type) := StateT (List UInt8) (Except E) α

namespace Reader

variable {E α β : Type}

/-- Read `n` bytes; `eof` if there are fewer. -/
def readExact (eof : E) (n : Nat) : Reader E (List UInt8) := fun bytes =>
  if bytes.length < n then .error eof else .ok (bytes.take n, bytes.drop n)

def readByte (eof : E) : Reader E UInt8 := do
  let buf ← readExact eof 1
  pure (Net.byteAt buf 0)

def readU16 (eof : E) : Reader E UInt16 := do
  let buf ← readExact eof 2
  pure (Net.u16At buf 0)

theorem readExact_append (eof : E) {n : Nat} {field : List UInt8} (h : field.length = n)
    (rest : List UInt8) : readExact eof n (field ++ rest) = .ok (field, rest) := by
  have hlen : ¬ (field ++ rest).length < n := by
    rw [List.length_append]
    omega
  rw [readExact, if_neg hlen, ← h, List.take_left, List.drop_left]

/-- A reader goes on where the one before has stopped. -/
theorem bind_ok {r : Reader E α} {k : α → Reader E β} {bytes rest : List UInt8} {a : α}
    (h : r bytes = .ok (a, rest)) : (r >>= k) bytes = k a rest := by
  show (r bytes >>= fun p => k p.1 p.2) = _
  rw [h]
  rfl

theorem readByte_cons (eof : E) (b : UInt8) (rest : List UInt8) :
    readByte eof (b :: rest) = .ok (b, rest) := by
  have hread : readExact eof 1 ([b] ++ rest) = .ok ([b], rest) := readExact_append eof rfl rest
  show readByte eof ([b] ++ rest) = _
  rw [readByte, bind_ok hread]
  rfl

theorem readU16_append (eof : E) (n : UInt16) (rest : List UInt8) :
    readU16 eof (Net.toBeBytes 2 n.toNat ++ rest) = .ok (n, rest) := by
  have hread := readExact_append eof (Net.length_toBeBytes 2 n.toNat) rest
  rw [readU16, bind_ok hread, Net.u16At_toBeBytes]
  rfl

end Reader

/-! ### Counters in bytes -/

namespace Net

/-- The value of the low bytes of a number. -/
theorem ofBeBytes_toBeBytes_mod (len n : Nat) : ofBeBytes (toBeBytes len n) = n % 256 ^ len := by
  induction len generalizing n with
  | zero =>
      rw [pow_zero, Nat.mod_one]
      rfl
  | succ len ih =>
      have hbyte : (UInt8.ofNat n).toNat = n % 256 := UInt8.toNat_ofNat'
      have hsplit := Nat.mod_mul (a := 256) (b := 256 ^ len) (x := n)
      rw [toBeBytes, ofBeBytes_append, ih, hbyte, pow_succ, Nat.mul_comm (256 ^ len), hsplit]
      omega

theorem toBeBytes_inj {len m n : Nat} (h : toBeBytes len m = toBeBytes len n) :
    m % 256 ^ len = n % 256 ^ len := by
  rw [← ofBeBytes_toBeBytes_mod, ← ofBeBytes_toBeBytes_mod, h]

theorem toBeBytes_mod (len n : Nat) : toBeBytes len (n % 256 ^ len) = toBeBytes len n := by
  have hback := toBeBytes_ofBeBytes (toBeBytes len n)
  rwa [length_toBeBytes, ofBeBytes_toBeBytes_mod] at hback

theorem ofBeBytes_cons (b : UInt8) (bytes : List UInt8) :
    ofBeBytes (b :: bytes) = b.toNat * 256 ^ bytes.length + ofBeBytes bytes := by
  induction bytes using List.reverseRecOn with
  | nil => simp [ofBeBytes]
  | append_singleton bytes last ih =>
      rw [← List.cons_append, ofBeBytes_append, ofBeBytes_append, ih, List.length_append,
        List.length_singleton, pow_succ]
      ring

/-- Zeros in front change nothing. -/
theorem ofBeBytes_zeros (k : Nat) (bytes : List UInt8) :
    ofBeBytes (List.replicate k 0 ++ bytes) = ofBeBytes bytes := by
  induction k with
  | zero => rfl
  | succ k ih =>
      rw [List.replicate_succ, List.cons_append, ofBeBytes_cons, ih]
      simp

/-- The low bytes of a number. -/
theorem drop_toBeBytes (k len n : Nat) : (toBeBytes (k + len) n).drop k = toBeBytes len n := by
  induction len generalizing n with
  | zero => exact List.drop_of_length_le (by rw [length_toBeBytes, Nat.add_zero])
  | succ len ih =>
      have hle : k ≤ (toBeBytes (k + len) (n / 256)).length := by
        rw [length_toBeBytes]
        omega
      rw [← Nat.add_assoc, toBeBytes, List.drop_append_of_le_length hle, ih, toBeBytes]

/-- The bytes of `count` numbers in a row differ while there are no more than there are bytes for. -/
theorem nodup_counters {len start count : Nat} (h : count ≤ 256 ^ len) :
    ((List.range count).map fun i => toBeBytes len (start + i)).Nodup := by
  rw [List.nodup_map_iff_inj_on List.nodup_range]
  intro i hi j hj heq
  rw [List.mem_range] at hi hj
  have hmod : (start + i) % 256 ^ len = (start + j) % 256 ^ len := toBeBytes_inj heq
  have hcongr : i ≡ j [MOD 256 ^ len] := Nat.ModEq.add_left_cancel' start hmod
  exact Nat.ModEq.eq_of_lt_of_lt hcongr (by omega) (by omega)

/-! ### The least significant byte first -/

theorem toLeBytes_succ (len n : Nat) :
    toLeBytes (len + 1) n = UInt8.ofNat n :: toLeBytes len (n / 256) := by
  rw [toLeBytes, toBeBytes, List.reverse_append]
  rfl

theorem nodup_leCounters {len start count : Nat} (h : count ≤ 256 ^ len) :
    ((List.range count).map fun i => toLeBytes len (start + i)).Nodup := by
  have hnodup : ((List.range count).map fun i => toBeBytes len (start + i)).Nodup := nodup_counters h
  have hreversed := hnodup.map List.reverse_injective
  rwa [List.map_map] at hreversed

/-- The next byte wraps around exactly where the carry is. -/
theorem ofNat_succ_eq_zero_iff (n : Nat) : UInt8.ofNat (n + 1) = 0 ↔ n % 256 = 255 := by
  rw [← UInt8.toNat_inj, UInt8.toNat_ofNat']
  show (n + 1) % 256 = 0 ↔ _
  omega

end Net

namespace Chunks

variable {β : Type*} {n : Nat} {xs : List β}

/-- The chunks, with fuel: each takes something off. -/
def chunksLoop (n : Nat) : (fuel : Nat) → List β → List (List β)
  | 0, _ => []
  | fuel + 1, xs => if xs.isEmpty then [] else xs.take n :: chunksLoop n fuel (xs.drop n)

def chunks (n : Nat) (xs : List β) : List (List β) := chunksLoop n xs.length xs

theorem chunksLoop_eq (hn : 0 < n) {fuel fuel' : Nat} (h : xs.length ≤ fuel) (h' : xs.length ≤ fuel') :
    chunksLoop n fuel xs = chunksLoop n fuel' xs := by
  induction fuel generalizing fuel' xs with
  | zero =>
      obtain rfl := List.length_eq_zero_iff.mp (Nat.le_zero.mp h)
      cases fuel' <;> rfl
  | succ fuel ih =>
      cases fuel' with
      | zero =>
          obtain rfl := List.length_eq_zero_iff.mp (Nat.le_zero.mp h')
          rfl
      | succ fuel' =>
          cases xs with
          | nil => rfl
          | cons x xs =>
              have hdrop : ((x :: xs).drop n).length ≤ xs.length := by
                rw [List.length_drop, List.length_cons]
                omega
              rw [List.length_cons] at h h'
              show _ :: chunksLoop n fuel _ = _ :: chunksLoop n fuel' _
              rw [ih (by omega) (show ((x :: xs).drop n).length ≤ fuel' by omega)]

@[simp] theorem chunks_nil : chunks n ([] : List β) = [] := rfl

/-- The first chunk, and the others. -/
theorem chunks_of_ne_nil (hn : 0 < n) (h : xs ≠ []) :
    chunks n xs = xs.take n :: chunks n (xs.drop n) := by
  obtain ⟨x, rest, rfl⟩ := List.exists_cons_of_ne_nil h
  have hdrop : ((x :: rest).drop n).length ≤ rest.length := by
    rw [List.length_drop, List.length_cons]
    omega
  rw [chunks, chunks, List.length_cons]
  show _ :: chunksLoop n rest.length _ = _
  rw [chunksLoop_eq hn hdrop (Nat.le_refl _)]

/-- One chunk is enough. -/
theorem chunks_of_le (hn : 0 < n) (h : xs ≠ []) (hle : xs.length ≤ n) : chunks n xs = [xs] := by
  rw [chunks_of_ne_nil hn h, List.take_of_length_le hle, List.drop_of_length_le hle, chunks_nil]

/-- **The chunks are the list.** -/
theorem flatten_chunks (hn : 0 < n) (xs : List β) : (chunks n xs).flatten = xs := by
  induction hlen : xs.length using Nat.strongRecOn generalizing xs with
  | ind k ih =>
      subst hlen
      rcases eq_or_ne xs [] with rfl | h
      · rfl
      · have hpos := List.length_pos_of_ne_nil h
        have hless : (xs.drop n).length < xs.length := by
          rw [List.length_drop]
          omega
        rw [chunks_of_ne_nil hn h, List.flatten_cons, ih _ hless _ rfl, List.take_append_drop]

/-- A chunk is not empty, and not longer than `n`. -/
theorem of_mem_chunks (hn : 0 < n) {c : List β} (h : c ∈ chunks n xs) : c ≠ [] ∧ c.length ≤ n := by
  induction hlen : xs.length using Nat.strongRecOn generalizing xs with
  | ind k ih =>
      subst hlen
      rcases eq_or_ne xs [] with rfl | hne
      · cases h
      · have hpos := List.length_pos_of_ne_nil hne
        rw [chunks_of_ne_nil hn hne] at h
        rcases List.mem_cons.mp h with rfl | h
        · refine ⟨?_, List.length_take_le n xs⟩
          apply List.ne_nil_of_length_pos
          rw [List.length_take]
          omega
        · exact ih _ (by rw [List.length_drop]; omega) h rfl

/-- There are more than `k` chunks when the first `k` cannot hold everything. -/
theorem lt_length_chunks (hn : 0 < n) (xs : List β) (k : Nat) :
    k < (chunks n xs).length ↔ k * n < xs.length := by
  induction k generalizing xs with
  | zero =>
      rcases eq_or_ne xs [] with rfl | h
      · simp
      · have := List.length_pos_of_ne_nil h
        rw [chunks_of_ne_nil hn h, List.length_cons]
        omega
  | succ k ih =>
      rcases eq_or_ne xs [] with rfl | h
      · simp
      · rw [chunks_of_ne_nil hn h, List.length_cons, Nat.add_lt_add_iff_right, ih, List.length_drop,
          Nat.succ_mul]
        omega

/-- A chunk begins where the ones before end. -/
theorem getElem?_chunks (hn : 0 < n) (i : Nat) : (chunks n xs)[i]? =
    if i * n < xs.length then some ((xs.drop (i * n)).take n) else none := by
  induction i generalizing xs with
  | zero =>
      rcases eq_or_ne xs [] with rfl | h
      · rfl
      · have := List.length_pos_of_ne_nil h
        rw [chunks_of_ne_nil hn h, Nat.zero_mul, if_pos this]
        rfl
  | succ i ih =>
      rcases eq_or_ne xs [] with rfl | h
      · rfl
      · rw [chunks_of_ne_nil hn h, List.getElem?_cons_succ, ih, List.length_drop, List.drop_drop,
          Nat.succ_mul, Nat.add_comm n]
        by_cases hlt : i * n < xs.length - n
        · rw [if_pos hlt, if_pos (by omega)]
        · rw [if_neg hlt, if_neg (by omega)]

end Chunks
