/-
Elise/Lib/Net.lean

Internet addresses: octets, the number they spell, and their text.

An address carries the proof that it has as many octets as its family says.
`display` follows RFC 5952 as the standard libraries write it: a dotted
address for IPv4 and for an IPv4-mapped IPv6 address, otherwise lower-case
hexadecimal segments with the first longest run of two or more zero segments
replaced by `::`.
-/
import Elise.Lib.Text

namespace Net

/-! ### Big-endian bytes -/

/-- The number that bytes spell, the most significant first. -/
def ofBeBytes (bytes : List UInt8) : Nat :=
  bytes.foldl (fun n b => n * 256 + b.toNat) 0

/-- The `len` low bytes of a number, the most significant first. -/
def toBeBytes : Nat → Nat → List UInt8
  | 0, _ => []
  | len + 1, n => toBeBytes len (n / 256) ++ [UInt8.ofNat n]

theorem length_toBeBytes (len n : Nat) : (toBeBytes len n).length = len := by
  induction len generalizing n with
  | zero => rfl
  | succ len ih => simp [toBeBytes, ih]

theorem ofBeBytes_append (bytes : List UInt8) (b : UInt8) :
    ofBeBytes (bytes ++ [b]) = ofBeBytes bytes * 256 + b.toNat := by
  simp [ofBeBytes]

/-- A number is spelled by as many bytes as it needs. -/
theorem ofBeBytes_toBeBytes {len n : Nat} (h : n < 256 ^ len) :
    ofBeBytes (toBeBytes len n) = n := by
  induction len generalizing n with
  | zero =>
      have hzero : n = 0 := by simpa using h
      subst hzero
      rfl
  | succ len ih =>
      have hdiv : n / 256 < 256 ^ len := by
        rw [Nat.div_lt_iff_lt_mul (by decide)]
        exact h
      rw [toBeBytes, ofBeBytes_append, ih hdiv]
      have hbyte : (UInt8.ofNat n).toNat = n % 256 := UInt8.toNat_ofNat'
      rw [hbyte]
      omega

/-- The byte at a position.  Callers stay inside the bytes. -/
def byteAt (bytes : List UInt8) (i : Nat) : UInt8 := bytes.getD i 0

/-- The `len` bytes from a position on. -/
def bytesAt (bytes : List UInt8) (start len : Nat) : List UInt8 :=
  (List.range len).map fun k => byteAt bytes (start + k)

@[simp] theorem length_bytesAt (bytes : List UInt8) (start len : Nat) :
    (bytesAt bytes start len).length = len := by simp [bytesAt]

/-- A field is found where the fields before it end. -/
theorem bytesAt_append {before field after : List UInt8} {start len : Nat}
    (hstart : before.length = start) (hlen : field.length = len) :
    bytesAt (before ++ (field ++ after)) start len = field := by
  subst hstart hlen
  apply List.ext_getElem
  · simp
  · intro k hk hk'
    simp only [bytesAt, List.getElem_map, List.getElem_range, byteAt, List.getD_eq_getElem?_getD]
    rw [List.getElem?_append_right (by omega), Nat.add_sub_cancel_left,
      List.getElem?_append_left hk', List.getElem?_eq_getElem hk', Option.getD_some]

theorem byteAt_append_left {bytes : List UInt8} {i : Nat} (more : List UInt8)
    (h : i < bytes.length) : byteAt (bytes ++ more) i = byteAt bytes i := by
  rw [byteAt, byteAt, List.getD_eq_getElem?_getD, List.getD_eq_getElem?_getD,
    List.getElem?_append_left h]

/-- Bytes beyond a field do not matter to it. -/
theorem bytesAt_append_left {bytes : List UInt8} {start len : Nat} (more : List UInt8)
    (h : start + len ≤ bytes.length) :
    bytesAt (bytes ++ more) start len = bytesAt bytes start len := by
  apply List.map_congr_left
  intro k hk
  have hlt := List.mem_range.mp hk
  exact byteAt_append_left more (by omega)

/-- The 16-bit number at a position, the most significant byte first. -/
def u16At (bytes : List UInt8) (i : Nat) : UInt16 := UInt16.ofNat (ofBeBytes (bytesAt bytes i 2))

theorem u16At_append {before after : List UInt8} {start : Nat} (n : UInt16)
    (hstart : before.length = start) :
    u16At (before ++ (toBeBytes 2 n.toNat ++ after)) start = n := by
  rw [u16At, bytesAt_append hstart (length_toBeBytes 2 n.toNat),
    ofBeBytes_toBeBytes n.toNat_lt, UInt16.ofNat_toNat]

theorem u16At_append_left {bytes : List UInt8} {i : Nat} (more : List UInt8)
    (h : i + 2 ≤ bytes.length) : u16At (bytes ++ more) i = u16At bytes i := by
  rw [u16At, u16At, bytesAt_append_left more h]

/-! ### Addresses -/

@[ext] structure Ipv4Addr where
  octets : List UInt8
  length_octets : octets.length = 4
  deriving DecidableEq

@[ext] structure Ipv6Addr where
  octets : List UInt8
  length_octets : octets.length = 16
  deriving DecidableEq

inductive IpAddr where
  | v4 (addr : Ipv4Addr)
  | v6 (addr : Ipv6Addr)
  deriving DecidableEq

def Ipv4Addr.new (a b c d : UInt8) : Ipv4Addr := ⟨[a, b, c, d], rfl⟩

def Ipv4Addr.ofNat (n : Nat) : Ipv4Addr := ⟨toBeBytes 4 n, length_toBeBytes 4 n⟩

def Ipv6Addr.ofNat (n : Nat) : Ipv6Addr := ⟨toBeBytes 16 n, length_toBeBytes 16 n⟩

def Ipv4Addr.toNat (addr : Ipv4Addr) : Nat := ofBeBytes addr.octets

def Ipv6Addr.toNat (addr : Ipv6Addr) : Nat := ofBeBytes addr.octets

/-- The address in the four bytes from a position on. -/
def ipv4At (bytes : List UInt8) (i : Nat) : Ipv4Addr :=
  .new (byteAt bytes i) (byteAt bytes (i + 1)) (byteAt bytes (i + 2)) (byteAt bytes (i + 3))

/-- The address in the sixteen bytes from a position on. -/
def ipv6At (bytes : List UInt8) (i : Nat) : Ipv6Addr :=
  ⟨bytesAt bytes i 16, length_bytesAt bytes i 16⟩

theorem octets_ipv4At (bytes : List UInt8) (i : Nat) :
    (ipv4At bytes i).octets = bytesAt bytes i 4 := rfl

theorem octets_ipv6At (bytes : List UInt8) (i : Nat) :
    (ipv6At bytes i).octets = bytesAt bytes i 16 := rfl

theorem ipv4At_append_left {bytes : List UInt8} {i : Nat} (more : List UInt8)
    (h : i + 4 ≤ bytes.length) : ipv4At (bytes ++ more) i = ipv4At bytes i := by
  apply Ipv4Addr.ext
  rw [octets_ipv4At, octets_ipv4At, bytesAt_append_left more h]

theorem ipv6At_append_left {bytes : List UInt8} {i : Nat} (more : List UInt8)
    (h : i + 16 ≤ bytes.length) : ipv6At (bytes ++ more) i = ipv6At bytes i := by
  apply Ipv6Addr.ext
  rw [octets_ipv6At, octets_ipv6At, bytesAt_append_left more h]

/-- The IPv4 address in an IPv4-mapped IPv6 address. -/
def Ipv6Addr.toIpv4Mapped (addr : Ipv6Addr) : Option Ipv4Addr :=
  if addr.octets.take 12 = [0, 0, 0, 0, 0, 0, 0, 0, 0, 0, 255, 255] then
    some ⟨addr.octets.drop 12, by simp [addr.length_octets]⟩
  else none

/-- An IPv4-mapped address as the IPv4 address it stands for. -/
def IpAddr.toCanonical : IpAddr → IpAddr
  | v4 addr => v4 addr
  | v6 addr =>
      match addr.toIpv4Mapped with
      | some mapped => v4 mapped
      | none => v6 addr

/-- An address with a port. -/
inductive SocketAddr where
  | v4 (ip : Ipv4Addr) (port : UInt16)
  | v6 (ip : Ipv6Addr) (port : UInt16) (flowinfo scopeId : UInt32)
  deriving DecidableEq

def SocketAddr.new : IpAddr → UInt16 → SocketAddr
  | .v4 ip, port => v4 ip port
  | .v6 ip, port => v6 ip port 0 0

def SocketAddr.ip : SocketAddr → IpAddr
  | v4 ip _ => .v4 ip
  | v6 ip _ _ _ => .v6 ip

def SocketAddr.port : SocketAddr → UInt16
  | v4 _ port => port
  | v6 _ port _ _ => port

/-! ### Text -/

def Ipv4Addr.chars (addr : Ipv4Addr) : List Char :=
  ['.'].intercalate (addr.octets.map fun octet => Nat.toDigits 10 octet.toNat)

/-- The 16-bit segments that a list of octets spells. -/
def segmentsOf : List UInt8 → List Nat
  | hi :: lo :: rest => (hi.toNat * 256 + lo.toNat) :: segmentsOf rest
  | _ => []

def Ipv6Addr.segments (addr : Ipv6Addr) : List Nat := segmentsOf addr.octets

/-- A run of zero segments. -/
structure Span where
  start : Nat
  len : Nat
  deriving DecidableEq

/-- One segment of the search for the longest run of zeros; the state is the
index, the longest run so far and the run that ends here. -/
def spanStep : Nat × Span × Span → Nat → Nat × Span × Span
  | (i, longest, current), segment =>
      if segment = 0 then
        let current : Span := ⟨if current.len = 0 then i else current.start, current.len + 1⟩
        (i + 1, if longest.len < current.len then current else longest, current)
      else (i + 1, longest, ⟨0, 0⟩)

def longestZeros (segments : List Nat) : Span :=
  (segments.foldl spanStep (0, ⟨0, 0⟩, ⟨0, 0⟩)).2.1

/-- Segments in hexadecimal, separated by colons. -/
def segmentChars (segments : List Nat) : List Char :=
  [':'].intercalate (segments.map fun segment => Nat.toDigits 16 segment)

def Ipv6Addr.chars (addr : Ipv6Addr) : List Char :=
  match addr.toIpv4Mapped with
  | some mapped => "::ffff:".toList ++ mapped.chars
  | none =>
      let zeros := longestZeros addr.segments
      if 1 < zeros.len then
        segmentChars (addr.segments.take zeros.start) ++ [':', ':']
          ++ segmentChars (addr.segments.drop (zeros.start + zeros.len))
      else segmentChars addr.segments

def IpAddr.chars : IpAddr → List Char
  | v4 addr => addr.chars
  | v6 addr => addr.chars

/-- The text of an address. -/
def IpAddr.display (addr : IpAddr) : String := String.ofList addr.chars

def SocketAddr.display : SocketAddr → String
  | v4 ip port => String.ofList ip.chars ++ ":" ++ port.toNat.repr
  | v6 ip port _ scopeId =>
      let scope := if scopeId = 0 then "" else "%" ++ scopeId.toNat.repr
      "[" ++ String.ofList ip.chars ++ scope ++ "]:" ++ port.toNat.repr

theorem Ipv4Addr.isWord_chars (addr : Ipv4Addr) : Text.IsWord addr.chars := by
  apply Text.isWord_intercalate (by decide)
  · intro word hword
    obtain ⟨octet, -, rfl⟩ := List.mem_map.mp hword
    exact Text.isWord_toDigits 10 _ (by decide) (by decide)
  · intro hnil
    have hlen := addr.length_octets
    rw [List.map_eq_nil_iff.mp hnil] at hlen
    cases hlen

theorem isWord_segmentChars {segments : List Nat} (h : segments ≠ []) :
    Text.IsWord (segmentChars segments) := by
  apply Text.isWord_intercalate (by decide)
  · intro word hword
    obtain ⟨segment, -, rfl⟩ := List.mem_map.mp hword
    exact Text.isWord_toDigits 16 _ (by decide) (by decide)
  · intro hnil
    exact h (List.map_eq_nil_iff.mp hnil)

theorem isGraphic_segmentChars {segments : List Nat} {c : Char}
    (hc : c ∈ segmentChars segments) : Text.IsGraphic c := by
  apply (isWord_segmentChars ?_).graphic c hc
  rintro rfl
  cases hc

theorem Ipv6Addr.segments_ne_nil (addr : Ipv6Addr) : addr.segments ≠ [] := by
  obtain ⟨octets, h⟩ := addr
  match octets, h with
  | _ :: _ :: _, _ => exact List.cons_ne_nil _ _

theorem Ipv6Addr.isWord_chars (addr : Ipv6Addr) : Text.IsWord addr.chars := by
  rw [Ipv6Addr.chars]
  split
  · rename_i mapped hmapped
    have hlead : Text.IsWord "::ffff:".toList := by decide
    exact hlead.append mapped.isWord_chars.graphic
  · dsimp only
    split
    · -- the colons alone make the text non-empty
      refine ⟨by simp, ?_⟩
      intro c hc
      rcases List.mem_append.mp hc with hc | hc
      · rcases List.mem_append.mp hc with hc | hc
        · exact isGraphic_segmentChars hc
        · have hcolon : c = ':' := by simpa using hc
          subst hcolon
          decide
      · exact isGraphic_segmentChars hc
    · exact isWord_segmentChars addr.segments_ne_nil

/-- The text of an address is one word. -/
theorem IpAddr.isWord_chars (addr : IpAddr) : Text.IsWord addr.chars := by
  cases addr with
  | v4 addr => exact addr.isWord_chars
  | v6 addr => exact addr.isWord_chars

example : (IpAddr.v4 (.new 192 168 1 0)).display = "192.168.1.0" := by decide

example : (IpAddr.v6 ⟨[0x20, 0x01, 0x0d, 0xb8, 0, 0, 0, 0, 0, 1, 0, 0, 0, 0, 0, 1], rfl⟩).display
    = "2001:db8::1:0:0:1" := by decide

end Net
