/-
Elise/Hysteria/Qpack.lean

The headers of HTTP/3 (src/protocol/hysteria/qpack.rs): the variable-length
integers of QUIC, the integers, strings and header blocks of QPACK, and the frame
of a response.

The parser is written once, over what it does with the continuation bytes of an
integer and what it notes when it makes room for a string (`IntReader`).  The
source has wrapping arithmetic there (`machine`); reading by the mathematical
values is another instance (`exact` of QpackSafe).  What a response is encoded to
is parsed to its headers, as long as the length of the block fits the integers of
QUIC (`response_roundtrip`).
-/
import Elise.Hysteria.Huffman
import Elise.Lib.Logged
import Elise.Lib.Text
import Elise.Lib.Wire

namespace Elise

namespace Hysteria

open Net

/-! ### Integers of QUIC -/

inductive QpackError where
  /-- `QPACK payload too short` -/
  | tooShort
  /-- `failed to fill whole buffer` -/
  | unexpectedEof
  /-- `Invalid Huffman code` -/
  | invalidHuffman
  /-- The bytes of a string are not UTF-8. -/
  | invalidUtf8
  /-- What does not happen: the fuel runs out, or the Huffman decoder is stuck. -/
  | stuck
  deriving DecidableEq, Repr

def readQuicVarint : Reader QpackError Nat := do
  let first ← Reader.readByte .unexpectedEof
  let tag := first >>> 6
  let len := 1 <<< tag.toNat
  let rest ← Reader.readExact .unexpectedEof (len - 1)
  pure (rest.foldl (fun val b => (val <<< 8 ||| b.toNat) % 2 ^ 64) (first &&& 0x3f).toNat)

/-- Of a `u64`. -/
def writeQuicVarint (val : Nat) : List UInt8 :=
  if val ≤ 63 then [UInt8.ofNat val]
  else if val ≤ 16383 then [(0x40 : UInt8) ||| UInt8.ofNat (val >>> 8), UInt8.ofNat val]
  else if val ≤ 1073741823 then
    [(0x80 : UInt8) ||| (UInt8.ofNat (val >>> 24) &&& 0x3f), UInt8.ofNat (val >>> 16), UInt8.ofNat (val >>> 8),
      UInt8.ofNat val]
  else
    [(0xc0 : UInt8) ||| (UInt8.ofNat (val >>> 56) &&& 0x3f), UInt8.ofNat (val >>> 48), UInt8.ofNat (val >>> 40),
      UInt8.ofNat (val >>> 32), UInt8.ofNat (val >>> 24), UInt8.ofNat (val >>> 16), UInt8.ofNat (val >>> 8),
      UInt8.ofNat val]

def quicVarintLen (val : Nat) : Nat :=
  if val ≤ 63 then 1 else if val ≤ 16383 then 2 else if val ≤ 1073741823 then 4 else 8

/-! ### Integers and strings of QPACK -/

/-- What the parser does that may go wrong. -/
inductive QpackOp where
  /-- `value << amount` of a `usize`. -/
  | shift (value amount : Nat)
  /-- `a + b` of two `usize`. -/
  | add (a b : Nat)
  /-- `m + 7` of an `i32`. -/
  | count (m : Nat)
  /-- An integer is accepted, and what its encoding means. -/
  | accept (value meaning : Nat)
  /-- `vec![0; len]`, and how many bytes there are. -/
  | alloc (len remaining : Nat)
  deriving DecidableEq, Repr

abbrev QpackReader (ω α : Type) := LogReader ω QpackError α

/-- What is done with the bytes that continue an integer, from what its prefix
holds, and what is noted when room is made for a string. -/
structure IntReader (ω : Type) where
  continuation : Nat → QpackReader ω Nat
  alloc : (len remaining : Nat) → ω

/-- What the groups of seven bits add to an integer, the lowest group first. -/
def groupsValue : List UInt8 → Nat
  | [] => 0
  | b :: bytes => (b &&& 0x7f).toNat + 128 * groupsValue bytes

/-- The loop of `read_qpack_int`, with wrapping arithmetic; the shift takes only
the lowest six bits of its amount. -/
def continueInt : (m val : Nat) → QpackReader QpackOp Nat
  | _, _, [] => ([], .error .unexpectedEof)
  | m, val, b :: rest =>
      let group := (b &&& 0x7f).toNat
      let shifted := group <<< (m % 64) % 2 ^ 64
      let ops := [.shift group m, .add val shifted, .count m]
      let val := (val + shifted) % 2 ^ 64
      if b &&& 0x80 = 0 then (ops, .ok (val, rest))
      else
        let more := continueInt (m + 7) val rest
        (ops ++ more.1, more.2)

/-- The source. -/
def machine : IntReader QpackOp where
  continuation init := fun bytes =>
    match continueInt 0 init bytes with
    | (ops, .ok (val, rest)) =>
        (ops ++ [.accept val (init + groupsValue (bytes.take (bytes.length - rest.length)))], .ok (val, rest))
    | (ops, .error e) => (ops, .error e)
  alloc := .alloc

section

variable {ω : Type} (I : IntReader ω)

/-- `mask`, the largest number in a prefix. -/
def prefixMask (prefixBits : Nat) : UInt8 := UInt8.ofNat (1 <<< prefixBits - 1)

def readQpackInt (firstByte : UInt8) (prefixBits : Nat) : QpackReader ω Nat :=
  let mask := prefixMask prefixBits
  let val := (firstByte &&& mask).toNat
  if val = mask.toNat then I.continuation val else pure val

/-- The bytes of a string as text. -/
def decodeString (isHuffman : Bool) (raw : List UInt8) : Except QpackError (List Char) :=
  let bytes : Except QpackError (List UInt8) :=
    if isHuffman then
      match decodeHuffman raw with
      | .ok bytes => .ok bytes
      | .invalid => .error .invalidHuffman
      | .stuck => .error .stuck
    else .ok raw
  match bytes with
  | .error e => .error e
  | .ok bytes =>
      match Text.fromUtf8 bytes with
      | some text => .ok text
      | none => .error .invalidUtf8

/-- What was decided without reading. -/
def ofExcept {α : Type} : Except QpackError α → QpackReader ω α
  | .ok a => pure a
  | .error e => LogReader.fail e

/-- A buffer of the whole length is made before anything is read.  Above `isize::MAX` the source
panics there; here the allocation is logged, and then nothing can be read. -/
def readQpackString (firstByte : UInt8) (prefixBits : Nat) : QpackReader ω (List Char) := do
  let isHuffman := firstByte &&& UInt8.ofNat (1 <<< prefixBits) ≠ 0
  let len ← readQpackInt I firstByte prefixBits
  let raw ← LogReader.readBuf I.alloc .unexpectedEof len
  ofExcept (decodeString isHuffman raw)

/-! ### Header blocks -/

/-- `QPACK_STATIC_TABLE` -/
def qpackStaticTable : List (String × String) := [
  (":authority", ""),
  (":path", "/"),
  ("age", "0"),
  ("content-disposition", ""),
  ("content-length", "0"),
  ("cookie", ""),
  ("date", ""),
  ("etag", ""),
  ("if-modified-since", ""),
  ("if-none-match", ""),
  ("last-modified", ""),
  ("link", ""),
  ("location", ""),
  ("referer", ""),
  ("set-cookie", ""),
  (":method", "CONNECT"),
  (":method", "DELETE"),
  (":method", "GET"),
  (":method", "HEAD"),
  (":method", "OPTIONS"),
  (":method", "POST"),
  (":method", "PUT"),
  (":scheme", "http"),
  (":scheme", "https"),
  (":status", "103"),
  (":status", "200"),
  (":status", "304"),
  (":status", "404"),
  (":status", "503"),
  ("accept", "*/*"),
  ("accept", "application/dns-"),
  ("accept-encoding", "gzip, deflate, br"),
  ("accept-ranges", "bytes"),
  ("access-control-allow-headers", "cache-control"),
  ("access-control-allow-headers", "content-type"),
  ("access-control-allow-origin", "*"),
  ("cache-control", "max-age=0"),
  ("cache-control", "max-age=2592000"),
  ("cache-control", "max-age=604800"),
  ("cache-control", "no-cache"),
  ("cache-control", "no-store"),
  ("cache-control", "public, max-"),
  ("content-encoding", "br"),
  ("content-encoding", "gzip"),
  ("content-type", "application/dns-"),
  ("content-type", "application/"),
  ("content-type", "application/json"),
  ("content-type", "application/x-www-"),
  ("content-type", "image/gif"),
  ("content-type", "image/jpeg"),
  ("content-type", "image/png"),
  ("content-type", "text/css"),
  ("content-type", "text/html;"),
  ("content-type", "text/plain"),
  ("content-type", "text/"),
  ("range", "bytes=0-"),
  ("strict-transport-security", "max-age=31536000"),
  ("strict-transport-security", "max-age=31536000;"),
  ("strict-transport-security", "max-age=31536000;"),
  ("vary", "accept-encoding"),
  ("vary", "origin"),
  ("x-content-type-options", "nosniff"),
  ("x-xss-protection", "1; mode=block"),
  (":status", "100"),
  (":status", "204"),
  (":status", "206"),
  (":status", "302"),
  (":status", "400"),
  (":status", "403"),
  (":status", "421"),
  (":status", "425"),
  (":status", "500"),
  ("accept-language", ""),
  ("access-control-allow-credentials", "FALSE"),
  ("access-control-allow-credentials", "TRUE"),
  ("access-control-allow-headers", "*"),
  ("access-control-allow-methods", "get"),
  ("access-control-allow-methods", "get, post, options"),
  ("access-control-allow-methods", "options"),
  ("access-control-expose-headers", "content-length"),
  ("access-control-request-headers", "content-type"),
  ("access-control-request-method", "get"),
  ("access-control-request-method", "post"),
  ("alt-svc", "clear"),
  ("authorization", ""),
  ("content-security-policy", "script-src 'none';"),
  ("early-data", "1"),
  ("expect-ct", ""),
  ("forwarded", ""),
  ("if-range", ""),
  ("origin", ""),
  ("purpose", "prefetch"),
  ("server", ""),
  ("timing-allow-origin", "*"),
  ("upgrade-insecure-requests", "1"),
  ("user-agent", ""),
  ("x-forwarded-for", ""),
  ("x-frame-options", "deny"),
  ("x-frame-options", "sameorigin")]

structure Http3Request where
  method : List Char
  path : List Char
  authority : List Char
  headers : List (List Char × List Char)
  deriving DecidableEq, Repr

/-- A header goes to its place. -/
def Http3Request.set (req : Http3Request) (name value : List Char) : Http3Request :=
  if name = ":method".toList then { req with method := value }
  else if name = ":path".toList then { req with path := value }
  else if name = ":authority".toList ∨ name = ":host".toList ∨ name = "host".toList then
    { req with authority := value }
  else { req with headers := req.headers ++ [(name, value)] }

/-- An entry of the static table. -/
def staticEntry (isStatic : Bool) (idx : Nat) : Option (List Char × List Char) :=
  if isStatic then (qpackStaticTable[idx]?).map fun e => (e.1.toList, e.2.toList) else none

/-- One line of a block, or none where the loop stops. -/
def readFieldLine (req : Http3Request) (byte : UInt8) : QpackReader ω (Option Http3Request) :=
  if byte &&& 0x80 ≠ 0 then do
    let idx ← readQpackInt I byte 6
    match staticEntry (byte &&& 0x40 ≠ 0) idx with
    | some (name, value) => pure (some (req.set name value))
    | none => pure (some req)
  else if byte &&& 0x40 ≠ 0 then do
    let nameIdx ← readQpackInt I byte 4
    let name := match staticEntry (byte &&& 0x10 ≠ 0) nameIdx with
      | some (name, _) => name
      | none => "unknown".toList
    let lenByte ← LogReader.readByte .unexpectedEof
    let value ← readQpackString I lenByte 7
    pure (some (req.set name value))
  else if byte &&& 0x20 ≠ 0 then do
    let name ← readQpackString I byte 3
    let valByte ← LogReader.readByte .unexpectedEof
    let value ← readQpackString I valByte 7
    pure (some (req.set name value))
  else pure none

/-- The loop over the lines. -/
def readFieldLines : (fuel : Nat) → Http3Request → QpackReader ω Http3Request
  | 0, _ => LogReader.fail .stuck
  | fuel + 1, req => fun bytes =>
      match bytes with
      | [] => ([], .ok (req, []))
      | byte :: rest =>
          (do match ← readFieldLine I req byte with
              | some req => readFieldLines fuel req
              | none => pure req : QpackReader ω Http3Request) rest

/-- The prefix of a block (`_ric` and `_db`), which is not used. -/
def readBlockPrefix : QpackReader ω Unit := do
  let first ← LogReader.readByte .unexpectedEof
  if first = 0xff then
    let _ ← I.continuation 0xff
  let deltaBase ← LogReader.readByte .unexpectedEof
  if deltaBase &&& 0x7f = 0x7f then
    let _ ← I.continuation 0x7f

/-- What is noted of a payload, and what it is parsed to. -/
def parseBlock (payload : List UInt8) : List ω × Except QpackError Http3Request :=
  if payload.length < 2 then ([], .error .tooShort)
  else
    let parsed := (do
      readBlockPrefix I
      readFieldLines I (payload.length + 1) ⟨[], [], [], []⟩ : QpackReader ω Http3Request) payload
    (parsed.1, parsed.2.map Prod.fst)

end

def parseQpackHeaders (payload : List UInt8) : Except QpackError Http3Request :=
  (parseBlock machine payload).2

/-! ### Responses -/

/-- The groups of seven bits of a number, the lowest first. -/
def writeGroups (val : Nat) : List UInt8 :=
  if 128 ≤ val then (UInt8.ofNat val &&& 0x7f ||| 0x80) :: writeGroups (val >>> 7) else [UInt8.ofNat val]
  termination_by val
  decreasing_by
    rw [Nat.shiftRight_eq_div_pow]
    omega

/-- Of a `usize`. -/
def writeQpackInt (head : UInt8) (prefixBits val : Nat) : List UInt8 :=
  let maxPrefix := 1 <<< prefixBits - 1
  if val < maxPrefix then [head ||| UInt8.ofNat val]
  else (head ||| UInt8.ofNat maxPrefix) :: writeGroups (val - maxPrefix)

def writeQpackLiteral (name value : List Char) : List UInt8 :=
  writeQpackInt 0x20 3 (Text.toUtf8 name).length ++ (Text.toUtf8 name ++
    (writeQpackInt 0x00 7 (Text.toUtf8 value).length ++ Text.toUtf8 value))

def h3FrameHeaders : Nat := 0x01

/-- The block of a response. -/
def responseBlock (status : UInt16) (headers : List (List Char × List Char)) : List UInt8 :=
  [0x00, 0x00] ++ (writeQpackLiteral ":status".toList (Nat.toDigits 10 status.toNat) ++
    headers.flatMap fun h => writeQpackLiteral h.1 h.2)

def encodeH3Response (status : UInt16) (headers : List (List Char × List Char)) : List UInt8 :=
  let qpackPayload := responseBlock status headers
  writeQuicVarint h3FrameHeaders ++ (writeQuicVarint qpackPayload.length ++ qpackPayload)

/-! ### Integers come back -/

theorem shiftLeft_or_mod {x : Nat} {b : UInt8} (h : x * 256 + b.toNat < 2 ^ 64) :
    (x <<< 8 ||| b.toNat) % 2 ^ 64 = x * 256 + b.toNat := by
  have hb : b.toNat < 2 ^ 8 := b.toNat_lt
  rw [← Nat.shiftLeft_add_eq_or_of_lt hb, Nat.shiftLeft_eq]
  exact Nat.mod_eq_of_lt h

/-- The loop of `read_quic_varint` reads big-endian bytes. -/
theorem foldl_toBeBytes {len v : Nat} (h : (v + 1) * 256 ^ len ≤ 2 ^ 64) (n : Nat) :
    (toBeBytes len n).foldl (fun val b => (val <<< 8 ||| b.toNat) % 2 ^ 64) v =
      v * 256 ^ len + n % 256 ^ len := by
  induction len generalizing n with
  | zero => rw [Nat.pow_zero, Nat.mod_one, Nat.mul_one]; rfl
  | succ len ih =>
      have hpow : 256 ^ (len + 1) = 256 * 256 ^ len := by rw [Nat.pow_succ, Nat.mul_comm]
      have hbyte : (UInt8.ofNat n).toNat = n % 256 := UInt8.toNat_ofNat'
      have hmod : n % 256 ^ (len + 1) = n % 256 + 256 * (n / 256 % 256 ^ len) := by
        rw [hpow, Nat.mod_mul]
      have hlt : n % 256 ^ (len + 1) < 256 ^ (len + 1) := Nat.mod_lt _ (Nat.pow_pos (by decide))
      have hsum : (v * 256 ^ len + n / 256 % 256 ^ len) * 256 + n % 256 =
          v * 256 ^ (len + 1) + n % 256 ^ (len + 1) := by
        rw [hmod, hpow]
        ring
      have hless : (v + 1) * 256 ^ len ≤ 2 ^ 64 := by
        refine Nat.le_trans (Nat.mul_le_mul_left _ ?_) h
        exact Nat.pow_le_pow_right (by decide) (Nat.le_succ len)
      rw [toBeBytes, List.foldl_append, ih hless, List.foldl_cons, List.foldl_nil]
      rw [shiftLeft_or_mod, hbyte, hsum]
      rw [hbyte, hsum]
      rw [Nat.add_mul, Nat.one_mul] at h
      omega

theorem readQuicVarint_cons {first : UInt8} {len : Nat} (hlen : 1 <<< (first >>> 6).toNat - 1 = len)
    (hfit : ((first &&& 0x3f).toNat + 1) * 256 ^ len ≤ 2 ^ 64) (n : Nat) (rest : List UInt8) :
    readQuicVarint (first :: (toBeBytes len n ++ rest)) =
      .ok ((first &&& 0x3f).toNat * 256 ^ len + n % 256 ^ len, rest) := by
  rw [readQuicVarint, Reader.bind_ok (Reader.readByte_cons _ first _)]
  rw [hlen, Reader.bind_ok (Reader.readExact_append _ (length_toBeBytes len n) rest),
    foldl_toBeBytes hfit]
  rfl

/-- The tag is in the two highest bits. -/
theorem quicTag : ∀ b : UInt8, (b < 64 → (b >>> 6).toNat = 0 ∧ b &&& 0x3f = b) ∧
    (b < 64 → (((0x40 : UInt8) ||| b) >>> 6).toNat = 1 ∧ ((0x40 : UInt8) ||| b) &&& 0x3f = b) ∧
    ((((0x80 : UInt8) ||| (b &&& 0x3f)) >>> 6).toNat = 2 ∧
      (((0x80 : UInt8) ||| (b &&& 0x3f)) &&& 0x3f).toNat = b.toNat % 64) ∧
    ((((0xc0 : UInt8) ||| (b &&& 0x3f)) >>> 6).toNat = 3 ∧
      (((0xc0 : UInt8) ||| (b &&& 0x3f)) &&& 0x3f).toNat = b.toNat % 64) := by
  decide +kernel

/-- What is read of what was written has 62 bits. -/
theorem readQuicVarint_writeQuicVarint {val : Nat} (h : val < 2 ^ 64) (rest : List UInt8) :
    readQuicVarint (writeQuicVarint val ++ rest) = .ok (val % 2 ^ 62, rest) ∧
      (writeQuicVarint val).length = quicVarintLen val := by
  rw [writeQuicVarint, quicVarintLen]
  by_cases h1 : val ≤ 63
  · rw [if_pos h1, if_pos h1]
    have hb : (UInt8.ofNat val).toNat = val := UInt8.toNat_ofNat_of_lt' (by show val < 256; omega)
    have hlt : UInt8.ofNat val < 64 := by
      rw [UInt8.lt_iff_toNat_lt, hb]
      exact Nat.lt_succ_of_le h1
    obtain ⟨htag, hlow⟩ := (quicTag (UInt8.ofNat val)).1 hlt
    have hread := @readQuicVarint_cons (UInt8.ofNat val) 0 (by rw [htag]; rfl) (by rw [hlow, hb]; omega) 0 rest
    rw [hlow, hb] at hread
    refine ⟨?_, rfl⟩
    rw [Nat.pow_zero, Nat.mod_one, Nat.mul_one, Nat.add_zero] at hread
    rw [Nat.mod_eq_of_lt (by omega)]
    exact hread
  · rw [if_neg h1, if_neg h1]
    by_cases h2 : val ≤ 16383
    · rw [if_pos h2, if_pos h2]
      have hb : (UInt8.ofNat (val >>> 8)).toNat = val / 256 := by
        rw [UInt8.toNat_ofNat', Nat.shiftRight_eq_div_pow]
        omega
      have hlt : UInt8.ofNat (val >>> 8) < 64 := by
        rw [UInt8.lt_iff_toNat_lt, hb]
        show val / 256 < 64
        omega
      obtain ⟨htag, hlow⟩ := (quicTag (UInt8.ofNat (val >>> 8))).2.1 hlt
      have hread := @readQuicVarint_cons ((0x40 : UInt8) ||| UInt8.ofNat (val >>> 8)) 1 (by rw [htag]; rfl)
        (by rw [hlow, hb]; omega) val rest
      rw [hlow, hb] at hread
      refine ⟨?_, rfl⟩
      have hval : val / 256 * 256 ^ 1 + val % 256 ^ 1 = val % 2 ^ 62 := by omega
      rw [hval] at hread
      exact hread
    · rw [if_neg h2, if_neg h2]
      by_cases h3 : val ≤ 1073741823
      · rw [if_pos h3, if_pos h3]
        obtain ⟨htag, hlow⟩ := (quicTag (UInt8.ofNat (val >>> 24))).2.2.1
        have hb : (UInt8.ofNat (val >>> 24)).toNat % 64 = val / 2 ^ 24 := by
          rw [UInt8.toNat_ofNat', Nat.shiftRight_eq_div_pow]
          omega
        have hread := @readQuicVarint_cons ((0x80 : UInt8) ||| (UInt8.ofNat (val >>> 24) &&& 0x3f)) 3
          (by rw [htag]; rfl) (by rw [hlow]; omega) val rest
        rw [hlow, hb] at hread
        refine ⟨?_, rfl⟩
        have hval : val / 2 ^ 24 * 256 ^ 3 + val % 256 ^ 3 = val % 2 ^ 62 := by omega
        have hbytes : toBeBytes 3 val =
            [UInt8.ofNat (val >>> 16), UInt8.ofNat (val >>> 8), UInt8.ofNat val] := by
          simp [toBeBytes, Nat.shiftRight_eq_div_pow, Nat.div_div_eq_div_mul]
        rw [hval, hbytes] at hread
        exact hread
      · rw [if_neg h3, if_neg h3]
        obtain ⟨htag, hlow⟩ := (quicTag (UInt8.ofNat (val >>> 56))).2.2.2
        have hb : (UInt8.ofNat (val >>> 56)).toNat % 64 = val / 2 ^ 56 % 64 := by
          rw [UInt8.toNat_ofNat', Nat.shiftRight_eq_div_pow]
          omega
        have hread := @readQuicVarint_cons ((0xc0 : UInt8) ||| (UInt8.ofNat (val >>> 56) &&& 0x3f)) 7
          (by rw [htag]; rfl) (by rw [hlow]; omega) val rest
        rw [hlow, hb] at hread
        refine ⟨?_, rfl⟩
        have hval : val / 2 ^ 56 % 64 * 256 ^ 7 + val % 256 ^ 7 = val % 2 ^ 62 := by omega
        have hbytes : toBeBytes 7 val =
            [UInt8.ofNat (val >>> 48), UInt8.ofNat (val >>> 40), UInt8.ofNat (val >>> 32),
              UInt8.ofNat (val >>> 24), UInt8.ofNat (val >>> 16), UInt8.ofNat (val >>> 8),
              UInt8.ofNat val] := by
          simp [toBeBytes, Nat.shiftRight_eq_div_pow, Nat.div_div_eq_div_mul]
        rw [hval, hbytes] at hread
        exact hread

/-- A byte that goes on, and one that does not. -/
theorem groupByte : ∀ b : UInt8,
    (((b &&& 0x7f ||| 0x80) &&& 0x7f).toNat = b.toNat % 128 ∧ (b &&& 0x7f ||| 0x80) &&& 0x80 ≠ 0) ∧
    (b < 128 → (b &&& 0x7f).toNat = b.toNat ∧ b &&& 0x80 = 0) := by
  decide +kernel

/-- The loop reads the groups that were written, as long as the number has its
place in 64 bits. -/
theorem result_continueInt {val m acc : Nat} (hm : m < 64) (hfit : acc + val * 2 ^ m < 2 ^ 64)
    (rest : List UInt8) :
    (continueInt m acc (writeGroups val ++ rest)).2 = .ok (acc + val * 2 ^ m, rest) := by
  -- on the groups
  induction val using Nat.strongRecOn generalizing m acc with
  | _ val ih =>
      have hmod : m % 64 = m := Nat.mod_eq_of_lt hm
      rw [writeGroups]
      by_cases hmore : 128 ≤ val
      · rw [if_pos hmore, List.cons_append, continueInt]
        obtain ⟨hgroup, hgoes⟩ := (groupByte (UInt8.ofNat val)).1
        have hlow : (UInt8.ofNat val).toNat % 128 = val % 128 := by
          rw [UInt8.toNat_ofNat']
          omega
        have hpow : 2 ^ (m + 7) = 2 ^ m * 128 := Nat.pow_add 2 m 7
        have hsplit : val * 2 ^ m = val % 128 * 2 ^ m + val / 128 * 2 ^ (m + 7) := by
          rw [hpow, Nat.mul_comm (2 ^ m) 128, ← Nat.mul_assoc, ← Nat.add_mul]
          congr 1
          omega
        have hhigh : 2 ^ (m + 7) ≤ val / 128 * 2 ^ (m + 7) := Nat.le_mul_of_pos_left _ (by omega)
        have hnext : m + 7 < 64 := (Nat.pow_lt_pow_iff_right (by decide)).mp (by omega : 2 ^ (m + 7) < 2 ^ 64)
        have hshifted : (val % 128) <<< (m % 64) % 2 ^ 64 = val % 128 * 2 ^ m := by
          rw [hmod, Nat.shiftLeft_eq, Nat.mod_eq_of_lt (by omega)]
        have hsum : (acc + val % 128 * 2 ^ m) % 2 ^ 64 = acc + val % 128 * 2 ^ m :=
          Nat.mod_eq_of_lt (by omega)
        dsimp only
        rw [if_neg hgoes, hgroup, hlow, hshifted, hsum, Nat.shiftRight_eq_div_pow]
        have hrest := ih (val / 2 ^ 7) (by omega) hnext
          (by show acc + val % 128 * 2 ^ m + val / 128 * 2 ^ (m + 7) < 2 ^ 64; omega)
        rw [hrest]
        show Except.ok (acc + val % 128 * 2 ^ m + val / 128 * 2 ^ (m + 7), rest) = _
        rw [hsplit, Nat.add_assoc]
      · rw [if_neg hmore, List.cons_append, List.nil_append, continueInt]
        have hb : (UInt8.ofNat val).toNat = val := UInt8.toNat_ofNat_of_lt' (by show val < 256; omega)
        have hlt : UInt8.ofNat val < 128 := by
          rw [UInt8.lt_iff_toNat_lt, hb]
          exact Nat.lt_of_not_le hmore
        obtain ⟨hgroup, hends⟩ := (groupByte (UInt8.ofNat val)).2 hlt
        dsimp only
        rw [if_pos hends, hgroup, hb, hmod, Nat.shiftLeft_eq, Nat.mod_eq_of_lt (a := val * 2 ^ m) (by omega),
          Nat.mod_eq_of_lt (by omega)]

theorem result_machine {init val : Nat} (hfit : init + val < 2 ^ 64) (rest : List UInt8) :
    (machine.continuation init).result (writeGroups val ++ rest) = .ok (init + val, rest) := by
  have hloop := @result_continueInt val 0 init (by decide)
    (by rw [Nat.pow_zero, Nat.mul_one]; exact hfit) rest
  rw [Nat.pow_zero, Nat.mul_one] at hloop
  show (match continueInt 0 init (writeGroups val ++ rest) with
    | (ops, .ok (val, rest)) => _
    | (ops, .error e) => _ : List QpackOp × Except QpackError (Nat × List UInt8)).2 = _
  rcases h : continueInt 0 init (writeGroups val ++ rest) with ⟨ops, r⟩
  rw [h] at hloop
  obtain rfl := hloop
  rfl

section

variable {prefixBits : Nat} (hbits : prefixBits ≤ 8)

include hbits

theorem toNat_prefixMask : (prefixMask prefixBits).toNat = 2 ^ prefixBits - 1 := by
  have hpow : 2 ^ prefixBits ≤ 2 ^ 8 := Nat.pow_le_pow_right (by decide) hbits
  rw [prefixMask, Nat.one_shiftLeft, UInt8.toNat_ofNat_of_lt']
  show 2 ^ prefixBits - 1 < 256
  omega

/-- The prefix of the first byte. -/
theorem and_prefixMask {head : UInt8} (hhead : head &&& prefixMask prefixBits = 0) {x : Nat}
    (hx : x < 2 ^ prefixBits) : ((head ||| UInt8.ofNat x) &&& prefixMask prefixBits).toNat = x := by
  have hpow : 2 ^ prefixBits ≤ 2 ^ 8 := Nat.pow_le_pow_right (by decide) hbits
  have hzero : head.toNat &&& (2 ^ prefixBits - 1) = 0 := by
    rw [← toNat_prefixMask hbits, ← UInt8.toNat_and, hhead]
    rfl
  have hbyte : (UInt8.ofNat x).toNat = x := UInt8.toNat_ofNat_of_lt' (by show x < 256; omega)
  rw [UInt8.toNat_and, UInt8.toNat_or, toNat_prefixMask hbits, Nat.and_or_distrib_right, hzero, hbyte,
    Nat.and_two_pow_sub_one_eq_mod, Nat.mod_eq_of_lt hx]
  exact Nat.zero_or x

/-- **What was written as an integer is read as this integer.** -/
theorem result_readQpackInt {head : UInt8} (hhead : head &&& prefixMask prefixBits = 0) {val : Nat}
    (hval : val < 2 ^ 64) : ∃ x < 2 ^ prefixBits, ∃ more,
      writeQpackInt head prefixBits val = (head ||| UInt8.ofNat x) :: more ∧
      ∀ rest, (readQpackInt machine (head ||| UInt8.ofNat x) prefixBits).result (more ++ rest) =
        .ok (val, rest) := by
  have hpos := Nat.two_pow_pos prefixBits
  rw [writeQpackInt, Nat.one_shiftLeft]
  by_cases hshort : val < 2 ^ prefixBits - 1
  · rw [if_pos hshort]
    have hx : val < 2 ^ prefixBits := by omega
    refine ⟨val, hx, [], rfl, ?_⟩
    intro rest
    rw [readQpackInt]
    rw [and_prefixMask hbits hhead hx, toNat_prefixMask hbits, if_neg (by omega)]
    rfl
  · rw [if_neg hshort]
    have hx : 2 ^ prefixBits - 1 < 2 ^ prefixBits := by omega
    refine ⟨2 ^ prefixBits - 1, hx, writeGroups (val - (2 ^ prefixBits - 1)), rfl, ?_⟩
    intro rest
    rw [readQpackInt]
    rw [and_prefixMask hbits hhead hx, toNat_prefixMask hbits, if_pos rfl]
    rw [result_machine (by omega), Nat.add_sub_cancel' (by omega)]

end

/-! ### Responses come back -/

theorem result_readQpackString {firstByte : UInt8} {prefixBits : Nat} {more : List UInt8}
    {text : List Char} (hplain : firstByte &&& UInt8.ofNat (1 <<< prefixBits) = 0)
    (hlen : ∀ rest, (readQpackInt machine firstByte prefixBits).result (more ++ rest) =
      .ok ((Text.toUtf8 text).length, rest)) (rest : List UInt8) :
    (readQpackString machine firstByte prefixBits).result (more ++ (Text.toUtf8 text ++ rest)) =
      .ok (text, rest) := by
  have hdecode : decodeString (decide (firstByte &&& UInt8.ofNat (1 <<< prefixBits) ≠ 0))
      (Text.toUtf8 text) = .ok text := by
    rw [hplain, decodeString]
    show (match Text.fromUtf8 (Text.toUtf8 text) with
      | some text => Except.ok text
      | none => Except.error QpackError.invalidUtf8) = _
    rw [Text.fromUtf8_toUtf8]
  rw [readQpackString, LogReader.result_bind_ok (hlen _),
    LogReader.result_bind_ok (LogReader.result_readBuf _ _ rfl rest), hdecode]
  rfl

/-- The first byte of a literal with a name, and of a string behind it. -/
theorem literalByte : (∀ x < 8, ((0x20 : UInt8) ||| UInt8.ofNat x) &&& 0x80 = 0 ∧
      ((0x20 : UInt8) ||| UInt8.ofNat x) &&& 0x40 = 0 ∧ ((0x20 : UInt8) ||| UInt8.ofNat x) &&& 0x20 ≠ 0 ∧
      ((0x20 : UInt8) ||| UInt8.ofNat x) &&& UInt8.ofNat (1 <<< 3) = 0) ∧
    ∀ x < 128, ((0x00 : UInt8) ||| UInt8.ofNat x) &&& UInt8.ofNat (1 <<< 7) = 0 := by
  decide +kernel

/-- The names that have a place of their own. -/
def ownNames : List (List Char) :=
  [":method".toList, ":path".toList, ":authority".toList, ":host".toList, "host".toList]

theorem set_of_notMem {name : List Char} (h : name ∉ ownNames) (req : Http3Request) (value : List Char) :
    req.set name value = { req with headers := req.headers ++ [(name, value)] } := by
  simp only [ownNames, List.mem_cons, List.not_mem_nil, or_false, not_or] at h
  obtain ⟨hmethod, hpath, hauthority, hcolonHost, hhost⟩ := h
  rw [Http3Request.set, if_neg hmethod, if_neg hpath, if_neg]
  rintro (heq | heq | heq)
  · exact hauthority heq
  · exact hcolonHost heq
  · exact hhost heq

/-- A literal is one line. -/
theorem result_readFieldLine {name value : List Char} (hname : (Text.toUtf8 name).length < 2 ^ 64)
    (hvalue : (Text.toUtf8 value).length < 2 ^ 64) (req : Http3Request) :
    ∃ byte more, writeQpackLiteral name value = byte :: more ∧ ∀ rest,
      (readFieldLine machine req byte).result (more ++ rest) = .ok (some (req.set name value), rest) := by
  obtain ⟨x, hx, more, hwrite, hread⟩ := @result_readQpackInt 3 (by decide) 0x20 (by decide)
    _ hname
  obtain ⟨y, hy, more', hwrite', hread'⟩ := @result_readQpackInt 7 (by decide) 0x00 (by decide)
    _ hvalue
  obtain ⟨hindexed, hreferenced, hliteral, hplain⟩ := literalByte.1 x hx
  refine ⟨(0x20 : UInt8) ||| UInt8.ofNat x, more ++ (Text.toUtf8 name ++ (((0x00 : UInt8) ||| UInt8.ofNat y) :: (more' ++ Text.toUtf8 value))),
    ?_, ?_⟩
  · rw [writeQpackLiteral, hwrite, hwrite']
    rfl
  · intro rest
    have hfirst := result_readQpackString hplain hread
      ((((0x00 : UInt8) ||| UInt8.ofNat y) :: (more' ++ Text.toUtf8 value)) ++ rest)
    have hsecond := result_readQpackString (literalByte.2 y hy) hread' rest
    rw [readFieldLine, if_neg (not_not_intro hindexed), if_neg (not_not_intro hreferenced), if_pos hliteral]
    rw [List.append_assoc, List.append_assoc, LogReader.result_bind_ok hfirst, List.cons_append,
      LogReader.result_bind_ok (LogReader.result_readByte _ _ _), List.append_assoc,
      LogReader.result_bind_ok hsecond]
    rfl

/-- The lines of literals are read one after the other. -/
theorem result_readFieldLines {headers : List (List Char × List Char)}
    (hnames : ∀ h ∈ headers, h.1 ∉ ownNames)
    (hfit : (headers.flatMap fun h => writeQpackLiteral h.1 h.2).length < 2 ^ 64) {fuel : Nat}
    (hfuel : headers.length < fuel) (req : Http3Request) :
    (readFieldLines machine fuel req).result (headers.flatMap fun h => writeQpackLiteral h.1 h.2) =
      .ok ({ req with headers := req.headers ++ headers }, []) := by
  induction headers generalizing fuel req with
  | nil =>
      obtain ⟨fuel, rfl⟩ := Nat.exists_eq_succ_of_ne_zero (Nat.ne_of_gt hfuel)
      rw [List.append_nil]
      rfl
  | cons h headers ih =>
      obtain ⟨fuel, rfl⟩ := Nat.exists_eq_succ_of_ne_zero (Nat.ne_of_gt (Nat.zero_lt_of_lt hfuel))
      rw [List.flatMap_cons] at hfit ⊢
      have hlen : (Text.toUtf8 h.1).length + (Text.toUtf8 h.2).length ≤
          (writeQpackLiteral h.1 h.2).length := by
        rw [writeQpackLiteral]
        simp only [List.length_append]
        omega
      rw [List.length_append] at hfit
      obtain ⟨byte, more, hwrite, hread⟩ := @result_readFieldLine h.1 h.2 (by omega) (by omega) req
      rw [hwrite, List.cons_append]
      show ((readFieldLine machine req byte >>= fun next => match next with
        | some req => readFieldLines machine fuel req
        | none => pure req : QpackReader QpackOp Http3Request).result _) = _
      rw [LogReader.result_bind_ok (hread _)]
      have hrest := ih (fun h' hh' => hnames h' (List.mem_cons_of_mem _ hh')) (by omega)
        (Nat.lt_of_succ_lt_succ hfuel) (req.set h.1 h.2)
      show (readFieldLines machine fuel (req.set h.1 h.2)).result _ = _
      rw [hrest, set_of_notMem (hnames h List.mem_cons_self)]
      simp only [List.append_assoc, List.singleton_append]

/-- Each literal takes bytes. -/
theorem length_le_flatMap (headers : List (List Char × List Char)) :
    headers.length ≤ (headers.flatMap fun h => writeQpackLiteral h.1 h.2).length := by
  induction headers with
  | nil => exact Nat.le_refl _
  | cons h headers ih =>
      have hpos : 0 < (writeQpackInt 0x20 3 (Text.toUtf8 h.1).length).length := by
        rw [writeQpackInt]
        split
        · exact Nat.one_pos
        · exact Nat.succ_pos _
      rw [List.flatMap_cons, List.length_append, List.length_cons, writeQpackLiteral, List.length_append]
      omega

/-- The status of a response is its first header. -/
def statusHeader (status : UInt16) : List Char × List Char :=
  (":status".toList, Nat.toDigits 10 status.toNat)

theorem status_notMem_ownNames : ":status".toList ∉ ownNames := by
  decide +kernel

theorem parseQpackHeaders_responseBlock {status : UInt16} {headers : List (List Char × List Char)}
    (hnames : ∀ h ∈ headers, h.1 ∉ ownNames) (hfit : (responseBlock status headers).length < 2 ^ 64) :
    parseQpackHeaders (responseBlock status headers) =
      .ok ⟨[], [], [], statusHeader status :: headers⟩ := by
  have hblock : responseBlock status headers =
      0x00 :: 0x00 :: ((statusHeader status :: headers).flatMap fun h => writeQpackLiteral h.1 h.2) := rfl
  have hnames' : ∀ h ∈ statusHeader status :: headers, h.1 ∉ ownNames := by
    intro h hh
    rcases List.mem_cons.mp hh with rfl | hh
    · exact status_notMem_ownNames
    · exact hnames h hh
  have hcount := length_le_flatMap (statusHeader status :: headers)
  rw [hblock] at hfit ⊢
  rw [List.length_cons, List.length_cons] at hfit
  have hlines := @result_readFieldLines _ hnames' (by omega)
    ((0x00 :: 0x00 :: ((statusHeader status :: headers).flatMap fun h =>
      writeQpackLiteral h.1 h.2)).length + 1)
    (Nat.lt_succ_of_le (Nat.le_trans hcount (Nat.le_add_right _ 2)))
    ⟨[], [], [], []⟩
  rw [parseQpackHeaders, parseBlock, if_neg (by rw [List.length_cons, List.length_cons]; omega)]
  have hprefix : (readBlockPrefix machine).result (0x00 :: 0x00 ::
      ((statusHeader status :: headers).flatMap fun h => writeQpackLiteral h.1 h.2)) =
      .ok ((), (statusHeader status :: headers).flatMap fun h => writeQpackLiteral h.1 h.2) := rfl
  have hparsed := (LogReader.result_bind_ok (k := fun _ => readFieldLines machine _ ⟨[], [], [], []⟩)
    hprefix).trans hlines
  show Except.map Prod.fst (LogReader.result _ _) = _
  rw [hparsed]
  rfl

/-- A number of `7 k` bits has `k` groups. -/
theorem length_writeGroups {k val : Nat} (h : val < 2 ^ (7 * (k + 1))) : (writeGroups val).length ≤ k + 1 := by
  induction k generalizing val with
  | zero =>
      rw [writeGroups, if_neg (by omega)]
      exact Nat.le_refl 1
  | succ k ih =>
      rw [writeGroups]
      split
      · have hpow : 2 ^ (7 * (k + 1 + 1)) = 2 ^ (7 * (k + 1)) * 2 ^ 7 := by rw [← Nat.pow_add]; rfl
        have hnext : val >>> 7 < 2 ^ (7 * (k + 1)) := by
          rw [Nat.shiftRight_eq_div_pow, Nat.div_lt_iff_lt_mul (by decide), ← hpow]
          exact h
        exact Nat.succ_le_succ (ih hnext)
      · exact Nat.succ_le_succ (Nat.zero_le _)

theorem length_writeQpackInt {head : UInt8} {prefixBits val : Nat} (h : val < 2 ^ 64) :
    (writeQpackInt head prefixBits val).length ≤ 11 := by
  rw [writeQpackInt]
  split
  · exact Nat.succ_le_succ (Nat.zero_le _)
  · refine Nat.succ_le_succ (length_writeGroups ?_)
    exact Nat.lt_of_le_of_lt (Nat.sub_le _ _) (Nat.lt_trans h (by decide))

theorem length_writeQpackLiteral {name value : List Char} {m n : Nat} (hm : (Text.toUtf8 name).length = m)
    (hn : (Text.toUtf8 value).length = n) (hfit : m + n < 2 ^ 64) :
    m ≤ (writeQpackLiteral name value).length ∧ (writeQpackLiteral name value).length ≤ 22 + m + n := by
  have hname := @length_writeQpackInt 0x20 3 m (by omega)
  have hvalue := @length_writeQpackInt 0x00 7 n (by omega)
  rw [writeQpackLiteral, hm, hn]
  simp only [List.length_append, hm, hn]
  omega

/-- **Encoding and parsing are inverse**, for a block whose length fits the
integers of QUIC.  Underneath, an integer of QPACK is read as it was written, for
each size of its prefix, and so is an integer of QUIC, with the length that is
foretold. -/
theorem response_roundtrip {status : UInt16} {headers : List (List Char × List Char)}
    (hnames : ∀ h ∈ headers, h.1 ∉ ownNames) (hfit : (responseBlock status headers).length < 2 ^ 62) :
    (∃ rest payload, readQuicVarint (encodeH3Response status headers) = .ok (h3FrameHeaders, rest) ∧
      readQuicVarint rest = .ok (payload.length, payload) ∧
      parseQpackHeaders payload = .ok ⟨[], [], [], statusHeader status :: headers⟩) ∧
    (∀ prefixBits, 3 ≤ prefixBits → prefixBits ≤ 7 → ∀ head : UInt8, head &&& prefixMask prefixBits = 0 →
      ∀ val < 2 ^ 64, ∀ rest, ∃ firstByte more,
        writeQpackInt head prefixBits val ++ rest = firstByte :: more ∧
        (readQpackInt machine firstByte prefixBits).result more = .ok (val, rest)) ∧
    (∀ val < 2 ^ 62, ∀ rest, readQuicVarint (writeQuicVarint val ++ rest) = .ok (val, rest) ∧
      (writeQuicVarint val).length = quicVarintLen val) := by
  have hquic : ∀ val < 2 ^ 62, ∀ rest, readQuicVarint (writeQuicVarint val ++ rest) = .ok (val, rest) ∧
      (writeQuicVarint val).length = quicVarintLen val := by
    intro val hval rest
    have h := readQuicVarint_writeQuicVarint (Nat.lt_trans hval (by decide)) rest
    rwa [Nat.mod_eq_of_lt hval] at h
  refine ⟨⟨_, responseBlock status headers, (hquic h3FrameHeaders (by decide) _).1, (hquic _ hfit _).1, ?_⟩,
    ?_, hquic⟩
  · exact parseQpackHeaders_responseBlock hnames (Nat.lt_trans hfit (by decide))
  · intro prefixBits _ hbits head hhead val hval rest
    obtain ⟨x, _, more, hwrite, hread⟩ := result_readQpackInt (Nat.le_trans hbits (by decide)) hhead hval
    exact ⟨head ||| UInt8.ofNat x, more ++ rest, by rw [hwrite]; rfl, hread rest⟩

/-- A response with one header. -/
theorem response_roundtrip_ok :
    ∃ rest payload, readQuicVarint (encodeH3Response 200 [("server".toList, "x".toList)]) =
        .ok (h3FrameHeaders, rest) ∧
      readQuicVarint rest = .ok (payload.length, payload) ∧
      parseQpackHeaders payload = .ok ⟨[], [], [],
        [(":status".toList, "200".toList), ("server".toList, "x".toList)]⟩ := by
  have hnames : ∀ h ∈ [("server".toList, "x".toList)], h.1 ∉ ownNames := by decide +kernel
  have hstatus := (@length_writeQpackLiteral ":status".toList (Nat.toDigits 10 200) 7 3 (by decide +kernel)
    (by decide +kernel) (by decide)).2
  have hserver := (@length_writeQpackLiteral "server".toList "x".toList 6 1 (by decide +kernel)
    (by decide +kernel) (by decide)).2
  have hfit : (responseBlock 200 [("server".toList, "x".toList)]).length < 2 ^ 62 := by
    rw [responseBlock]
    simp only [List.flatMap_cons, List.flatMap_nil, List.append_nil, List.length_append]
    show 2 + ((writeQpackLiteral ":status".toList (Nat.toDigits 10 200)).length +
      (writeQpackLiteral "server".toList "x".toList).length) < 2 ^ 62
    omega
  have hdigits : statusHeader 200 = (":status".toList, "200".toList) := by decide +kernel
  have h := (response_roundtrip hnames hfit).1
  rwa [hdigits] at h

/-- The length of a block that is too long is cut off. -/
theorem length_ne_of_long {status : UInt16} {headers : List (List Char × List Char)}
    (hlong : 2 ^ 62 ≤ (responseBlock status headers).length)
    (hlt : (responseBlock status headers).length < 2 ^ 64) {kind length : Nat} {rest payload : List UInt8}
    (hkind : readQuicVarint (encodeH3Response status headers) = .ok (kind, rest))
    (hlength : readQuicVarint rest = .ok (length, payload)) : length ≠ payload.length := by
  have hfirst := (@readQuicVarint_writeQuicVarint h3FrameHeaders (by decide)
    (writeQuicVarint (responseBlock status headers).length ++ responseBlock status headers)).1
  obtain ⟨-, rfl⟩ := Prod.mk.inj (Except.ok.inj (hfirst.symm.trans hkind))
  have hsecond := (readQuicVarint_writeQuicVarint hlt (responseBlock status headers)).1
  obtain ⟨rfl, rfl⟩ := Prod.mk.inj (Except.ok.inj (hsecond.symm.trans hlength))
  exact Nat.ne_of_lt (Nat.lt_of_lt_of_le (Nat.mod_lt _ (by decide)) hlong)

theorem length_toUtf8_replicate (n : Nat) : (Text.toUtf8 (List.replicate n 'a')).length = n := by
  induction n with
  | zero => rfl
  | succ n ih =>
      rw [List.replicate_succ]
      show (String.utf8EncodeChar 'a' ++ Text.toUtf8 (List.replicate n 'a')).length = n + 1
      rw [List.length_append, ih, Nat.add_comm]
      rfl

/-- The length of a block with one header, up to a few bytes. -/
theorem length_responseBlock {name : List Char} {m : Nat} (hm : (Text.toUtf8 name).length = m)
    (hfit : m < 2 ^ 63) : m ≤ (responseBlock 200 [(name, [])]).length ∧
      (responseBlock 200 [(name, [])]).length ≤ 2 ^ 7 + m := by
  have hstatus := @length_writeQpackLiteral ":status".toList (Nat.toDigits 10 200) 7 3 (by decide +kernel)
    (by decide +kernel) (by decide)
  have hheader := @length_writeQpackLiteral name [] m 0 hm rfl (by omega)
  rw [responseBlock]
  simp only [List.flatMap_cons, List.flatMap_nil, List.append_nil, List.length_append]
  show m ≤ 2 + ((writeQpackLiteral ":status".toList (Nat.toDigits 10 200)).length +
      (writeQpackLiteral name []).length) ∧
    2 + ((writeQpackLiteral ":status".toList (Nat.toDigits 10 200)).length +
      (writeQpackLiteral name []).length) ≤ 2 ^ 7 + m
  omega

/-- A header whose name is longer than the integers of QUIC can count. -/
def hugeHeader : List Char × List Char := (List.replicate (2 ^ 62) 'a', [])

/-- The length of its block is not the one that is read. -/
theorem hugeHeader_cut : hugeHeader.1 ∉ ownNames ∧
    ∀ kind length rest payload, readQuicVarint (encodeH3Response 200 [hugeHeader]) = .ok (kind, rest) →
      readQuicVarint rest = .ok (length, payload) → length ≠ payload.length := by
  constructor
  · intro hmem
    have hshort : ∀ name ∈ ownNames, name.length ≤ 10 := by decide +kernel
    have hlen := hshort hugeHeader.1 hmem
    rw [hugeHeader, List.length_replicate] at hlen
    exact absurd hlen (by decide)
  · intro kind length rest payload hkind hlength
    obtain ⟨hlow, hhigh⟩ := length_responseBlock (length_toUtf8_replicate (2 ^ 62)) (by decide)
    have hlt : (responseBlock 200 [hugeHeader]).length < 2 ^ 64 := Nat.lt_of_le_of_lt hhigh (by decide)
    exact length_ne_of_long hlow hlt hkind hlength

end Hysteria

end Elise
