/-
Elise/Tuic/Address.lean

The addresses of TUIC v5 commands (`TuicV5Address` in src/protocol/tuic/v5.rs).
-/
import Elise.Lib.HostText
import Elise.Lib.Wire

namespace Elise.Tuic

open Net

/-- `TuicV5Address`. -/
inductive TuicV5Address where
  | none
  | domain (host : List Char) (port : UInt16)
  | ipv4 (ip : Ipv4Addr) (port : UInt16)
  | ipv6 (ip : Ipv6Addr) (port : UInt16)
  deriving DecidableEq

inductive AddressError where
  | unexpectedEof
  | invalidData (message : String)
  deriving DecidableEq

/-- `{:02x}`. -/
def hex (b : UInt8) : List Char :=
  let digits := Nat.toDigits 16 b.toNat
  List.replicate (2 - digits.length) '0' ++ digits

namespace TuicV5Address

/-- `read_from`, and `read_from_cursor` of a datagram. -/
def readFrom : Reader AddressError TuicV5Address := do
  let atyp ← Reader.readByte .unexpectedEof
  if atyp = 0xff then pure .none
  else if atyp = 0x00 then
    let len ← Reader.readByte .unexpectedEof
    let buf ← Reader.readExact .unexpectedEof len.toNat
    let port ← Reader.readU16 .unexpectedEof
    pure (.domain (Text.fromUtf8Lossy buf) port)
  else if atyp = 0x01 then
    let buf ← Reader.readExact .unexpectedEof 4
    let port ← Reader.readU16 .unexpectedEof
    pure (.ipv4 (ipv4At buf 0) port)
  else if atyp = 0x02 then
    let buf ← Reader.readExact .unexpectedEof 16
    let port ← Reader.readU16 .unexpectedEof
    pure (.ipv6 (ipv6At buf 0) port)
  else throw (.invalidData ("Invalid TUIC V5 address type: 0x" ++ String.ofList (hex atyp)))

/-- `write_to`.  The length of a name is cut to one byte. -/
def writeTo : TuicV5Address → List UInt8
  | none => [0xff]
  | domain h p => 0x00 :: UInt8.ofNat (Text.toUtf8 h).length :: (Text.toUtf8 h ++ toBeBytes 2 p.toNat)
  | ipv4 ip p => 0x01 :: (ip.octets ++ toBeBytes 2 p.toNat)
  | ipv6 ip p => 0x02 :: (ip.octets ++ toBeBytes 2 p.toNat)

def host : TuicV5Address → List Char
  | none => []
  | domain h _ => h
  | ipv4 ip _ => ip.chars
  | ipv6 ip _ => ip.chars

def ip : TuicV5Address → Option IpAddr
  | none => .none
  | domain _ _ => .none
  | ipv4 ip _ => some (.v4 ip)
  | ipv6 ip _ => some (.v6 ip)

def port : TuicV5Address → UInt16
  | none => 0
  | domain _ p => p
  | ipv4 _ p => p
  | ipv6 _ p => p

/-! ### Reading an address -/

theorem readFrom_ipv4 (addr : Ipv4Addr) (port : UInt16) (rest : List UInt8) :
    readFrom (0x01 :: (addr.octets ++ (toBeBytes 2 port.toNat ++ rest))) =
      .ok (.ipv4 addr port, rest) := by
  rw [readFrom, Reader.bind_ok (Reader.readByte_cons _ _ _),
    if_neg (by decide), if_neg (by decide), if_pos rfl,
    Reader.bind_ok (Reader.readExact_append _ addr.length_octets _),
    Reader.bind_ok (Reader.readU16_append _ port rest), ipv4At_octets_self]
  rfl

theorem readFrom_ipv6 (addr : Ipv6Addr) (port : UInt16) (rest : List UInt8) :
    readFrom (0x02 :: (addr.octets ++ (toBeBytes 2 port.toNat ++ rest))) =
      .ok (.ipv6 addr port, rest) := by
  rw [readFrom, Reader.bind_ok (Reader.readByte_cons _ _ _),
    if_neg (by decide), if_neg (by decide), if_neg (by decide), if_pos rfl,
    Reader.bind_ok (Reader.readExact_append _ addr.length_octets _),
    Reader.bind_ok (Reader.readU16_append _ port rest), ipv6At_octets_self]
  rfl

theorem readFrom_domain {name : List UInt8} (h : name.length < 256) (port : UInt16)
    (rest : List UInt8) :
    readFrom (0x00 :: UInt8.ofNat name.length :: (name ++ (toBeBytes 2 port.toNat ++ rest))) =
      .ok (.domain (Text.fromUtf8Lossy name) port, rest) := by
  have hlength : (UInt8.ofNat name.length).toNat = name.length := UInt8.toNat_ofNat_of_lt' h
  rw [readFrom, Reader.bind_ok (Reader.readByte_cons _ _ _), if_neg (by decide), if_pos rfl,
    Reader.bind_ok (Reader.readByte_cons _ _ _),
    Reader.bind_ok (Reader.readExact_append _ hlength.symm _),
    Reader.bind_ok (Reader.readU16_append _ port rest)]
  rfl

/-- The length of a name fits into one byte. -/
def Fits : TuicV5Address → Prop
  | domain h _ => (Text.toUtf8 h).length < 256
  | _ => True

/-- An address that fits is read as it was written. -/
theorem readFrom_writeTo {addr : TuicV5Address} (h : addr.Fits) (rest : List UInt8) :
    readFrom (addr.writeTo ++ rest) = .ok (addr, rest) := by
  cases addr with
  | none => rfl
  | domain host port =>
      have hread := readFrom_domain h port rest
      rw [Text.fromUtf8Lossy_toUtf8] at hread
      rw [writeTo, List.cons_append, List.cons_append, List.append_assoc]
      exact hread
  | ipv4 ip port =>
      rw [writeTo, List.cons_append, List.append_assoc]
      exact readFrom_ipv4 ip port rest
  | ipv6 ip port =>
      rw [writeTo, List.cons_append, List.append_assoc]
      exact readFrom_ipv6 ip port rest

theorem length_writeTo_pos (addr : TuicV5Address) : 0 < addr.writeTo.length := by
  cases addr <;> exact Nat.zero_lt_succ _

theorem length_writeTo_le {addr : TuicV5Address} (h : addr.Fits) : addr.writeTo.length ≤ 259 := by
  cases addr with
  | none => show 1 ≤ 259; omega
  | domain host port =>
      have hlt : (Text.toUtf8 host).length < 256 := h
      rw [writeTo, List.length_cons, List.length_cons, List.length_append, length_toBeBytes]
      omega
  | ipv4 ip port =>
      rw [writeTo, List.length_cons, List.length_append, length_toBeBytes, ip.length_octets]
      omega
  | ipv6 ip port =>
      rw [writeTo, List.length_cons, List.length_append, length_toBeBytes, ip.length_octets]
      omega

end TuicV5Address

end Elise.Tuic
