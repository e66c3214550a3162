/-
Elise/Inbound/Requests.lean

What the request parsers make of an address: the header of VLESS, the header of
VMess, the SOCKS5 address of AnyTLS and the address of TUIC v5.

A request names its target by an address field, which is an address or a name
(`AddressField`), in a place and with type bytes of its own protocol (`Names`).
All four parsers read it alike (`InboundRequest.parse_of_names`): an address gives its
text and the address, a name gives a text and no address, whatever the text is.
-/
import Elise.Anytls.Session
import Elise.Tuic.Address
import Elise.Vless.Header
import Elise.Vmess.Header

namespace Elise

open Net

/-- What a request asks for: the host, the address if it is given as one, and
the port. -/
structure Destination where
  host : List Char
  ip : Option IpAddr
  port : UInt16
  deriving DecidableEq

/-- The two ways to name a host. -/
inductive AddressField where
  | ip (addr : IpAddr)
  /-- The bytes of a name, as many as a length of one byte can say. -/
  | domain (name : List UInt8) (h : name.length < 256)

namespace AddressField

/-- The type bytes of a protocol. -/
structure Types where
  v4 : UInt8
  domain : UInt8
  v6 : UInt8

/-- The field on the wire. -/
def bytes (t : Types) : AddressField → List UInt8
  | ip (.v4 addr) => t.v4 :: addr.octets
  | ip (.v6 addr) => t.v6 :: addr.octets
  | domain name _ => t.domain :: UInt8.ofNat name.length :: name

/-- What a parser makes of the field. -/
def read : AddressField → List Char × Option IpAddr
  | ip addr => (addr.chars, some addr)
  | domain name _ => (Text.fromUtf8Lossy name, none)

theorem toNat_length {name : List UInt8} (h : name.length < 256) :
    (UInt8.ofNat name.length).toNat = name.length :=
  UInt8.toNat_ofNat_of_lt' h

end AddressField

/-! ### VLESS -/

namespace Vless

def types : AddressField.Types := ⟨0x01, 0x02, 0x03⟩

theorem readAddress_field (field : AddressField) (rest : List UInt8) :
    readAddress (field.bytes types ++ rest) = .ok (field.read, rest) := by
  cases field with
  | ip addr =>
      cases addr with
      | v4 addr =>
          show readAddress (0x01 :: (addr.octets ++ rest)) = _
          rw [readAddress, Reader.bind_ok (Reader.readByte_cons _ _ _), if_pos rfl,
            Reader.bind_ok (Reader.readExact_append _ addr.length_octets rest),
            ipv4At_octets_self]
          rfl
      | v6 addr =>
          show readAddress (0x03 :: (addr.octets ++ rest)) = _
          rw [readAddress, Reader.bind_ok (Reader.readByte_cons _ _ _), if_neg (by decide),
            if_neg (by decide), if_pos rfl,
            Reader.bind_ok (Reader.readExact_append _ addr.length_octets rest),
            ipv6At_octets_self]
          rfl
  | domain name h =>
      show readAddress (0x02 :: UInt8.ofNat name.length :: (name ++ rest)) = _
      rw [readAddress, Reader.bind_ok (Reader.readByte_cons _ _ _), if_neg (by decide), if_pos rfl,
        Reader.bind_ok (Reader.readByte_cons _ _ _),
        Reader.bind_ok (Reader.readExact_append _ (AddressField.toNat_length h).symm rest)]
      rfl

/-- A header that asks for a target. -/
structure Request where
  uuid : List UInt8
  addons : List UInt8
  command : UInt8
  rest : List UInt8
  uuid_length : uuid.length = 16
  addons_length : addons.length < 256
  connects : command = 0x01 ∨ command = 0x02

/-- The header on the wire, with what follows it. -/
def Request.bytes (r : Request) (field : AddressField) (port : UInt16) : List UInt8 :=
  0 :: (r.uuid ++ (UInt8.ofNat r.addons.length :: (r.addons ++ (r.command ::
    (toBeBytes 2 port.toNat ++ (field.bytes types ++ r.rest))))))

theorem parse_request (r : Request) (field : AddressField) (port : UInt16) :
    ∃ header, parseVlessRequestHeader (r.bytes field port) = .ok (header, r.rest) ∧
      (header.targetHost, header.targetIp) = field.read ∧ header.targetPort = port := by
  have htarget : readTarget r.command (toBeBytes 2 port.toNat ++ (field.bytes types ++ r.rest)) =
      .ok ((port, field.read.1, field.read.2), r.rest) := by
    rw [readTarget, if_pos r.connects, Reader.bind_ok (Reader.readU16_append _ port _),
      Reader.bind_ok (readAddress_field field r.rest)]
    rfl
  rw [parseVlessRequestHeader, Request.bytes, Reader.bind_ok (Reader.readByte_cons _ _ _),
    if_neg (by decide)]
  beta_reduce
  rw [Reader.bind_ok (Reader.readExact_append _ r.uuid_length _),
    Reader.bind_ok (Reader.readByte_cons _ _ _),
    Reader.bind_ok (Reader.readExact_append _ (AddressField.toNat_length r.addons_length).symm _),
    Reader.bind_ok (Reader.readByte_cons _ _ _), Reader.bind_ok htarget]
  exact ⟨_, rfl, rfl, rfl⟩

end Vless

/-! ### TUIC -/

namespace Tuic

def types : AddressField.Types := ⟨0x01, 0x00, 0x02⟩

theorem readFrom_field (field : AddressField) (port : UInt16) (rest : List UInt8) :
    ∃ addr, TuicV5Address.readFrom
        (field.bytes types ++ (toBeBytes 2 port.toNat ++ rest)) = .ok (addr, rest) ∧
      (addr.host, addr.ip) = field.read ∧ addr.port = port := by
  cases field with
  | ip addr =>
      cases addr with
      | v4 addr => exact ⟨_, TuicV5Address.readFrom_ipv4 addr port rest, rfl, rfl⟩
      | v6 addr => exact ⟨_, TuicV5Address.readFrom_ipv6 addr port rest, rfl, rfl⟩
  | domain name h => exact ⟨_, TuicV5Address.readFrom_domain h port rest, rfl, rfl⟩

end Tuic

/-! ### AnyTLS -/

namespace Anytls

def types : AddressField.Types := ⟨0x01, 0x03, 0x04⟩

/-- The host as a text, and the address if it is one. -/
def Host.read : Host → List Char × Option IpAddr
  | ip addr => (addr.chars, some addr)
  | domain bytes => (Text.fromUtf8Lossy bytes, none)

/-! The three types, on data that is long enough. -/

theorem parse_v4 (fields : List UInt8) (h : 6 ≤ fields.length) :
    parseSocks5Addr ([0x01] ++ fields) =
      some (⟨.ip (.v4 (ipv4At ([0x01] ++ fields) 1)), u16At ([0x01] ++ fields) 5⟩,
        ([0x01] ++ fields).drop 7) :=
  if_neg (by show ¬ fields.length + 1 < 7; omega)

theorem parse_v6 (fields : List UInt8) (h : 18 ≤ fields.length) :
    parseSocks5Addr ([0x04] ++ fields) =
      some (⟨.ip (.v6 (ipv6At ([0x04] ++ fields) 1)), u16At ([0x04] ++ fields) 17⟩,
        ([0x04] ++ fields).drop 19) :=
  if_neg (by show ¬ fields.length + 1 < 19; omega)

theorem parse_domain (len : UInt8) (fields : List UInt8) (h : len.toNat + 2 ≤ fields.length) :
    parseSocks5Addr ([0x03, len] ++ fields) =
      some (⟨.domain (bytesAt ([0x03, len] ++ fields) 2 len.toNat),
          u16At ([0x03, len] ++ fields) (2 + len.toNat)⟩,
        ([0x03, len] ++ fields).drop (4 + len.toNat)) := by
  have hlong : ¬ ([0x03, len] ++ fields).length < 2 + len.toNat + 2 := by
    show ¬ fields.length + 2 < 2 + len.toNat + 2
    omega
  have hshort : ¬ ([0x03, len] ++ fields).length < 2 := by
    show ¬ fields.length + 2 < 2
    omega
  show (if ([0x03, len] ++ fields).length < 2 then none
    else if ([0x03, len] ++ fields).length < 2 + len.toNat + 2 then none
    else some _) = _
  rw [if_neg hshort, if_neg hlong]
  rfl

theorem parseSocks5Addr_field (field : AddressField) (port : UInt16) (rest : List UInt8) :
    ∃ target, parseSocks5Addr (field.bytes types ++ (toBeBytes 2 port.toNat ++ rest)) =
        some (target, rest) ∧
      target.host.read = field.read ∧ target.port = port := by
  have hport := length_toBeBytes 2 port.toNat
  cases field with
  | ip addr =>
      cases addr with
      | v4 addr =>
          have hlen := addr.length_octets
          refine ⟨⟨.ip (.v4 addr), port⟩, ?_, rfl, rfl⟩
          show parseSocks5Addr ([0x01] ++ (addr.octets ++ (toBeBytes 2 port.toNat ++ rest))) = _
          have hread := parse_v4 (addr.octets ++ (toBeBytes 2 port.toNat ++ rest))
            (by simp only [List.length_append]; omega)
          have haddr : ipv4At ([0x01] ++ (addr.octets ++ (toBeBytes 2 port.toNat ++ rest))) 1 = addr :=
            ipv4At_octets addr rfl
          have hvalue : u16At (([0x01] ++ addr.octets) ++ (toBeBytes 2 port.toNat ++ rest)) 5 = port :=
            u16At_append port (by simp [hlen])
          have hrest : (([0x01] ++ addr.octets ++ toBeBytes 2 port.toNat) ++ rest).drop 7 = rest :=
            List.drop_left' (by simp [hlen, hport])
          simp only [List.append_assoc] at hvalue hrest
          rw [hread, haddr, hvalue, hrest]
      | v6 addr =>
          have hlen := addr.length_octets
          refine ⟨⟨.ip (.v6 addr), port⟩, ?_, rfl, rfl⟩
          show parseSocks5Addr ([0x04] ++ (addr.octets ++ (toBeBytes 2 port.toNat ++ rest))) = _
          have hread := parse_v6 (addr.octets ++ (toBeBytes 2 port.toNat ++ rest))
            (by simp only [List.length_append]; omega)
          have haddr : ipv6At ([0x04] ++ (addr.octets ++ (toBeBytes 2 port.toNat ++ rest))) 1 = addr :=
            ipv6At_octets addr rfl
          have hvalue : u16At (([0x04] ++ addr.octets) ++ (toBeBytes 2 port.toNat ++ rest)) 17 = port :=
            u16At_append port (by simp [hlen])
          have hrest : (([0x04] ++ addr.octets ++ toBeBytes 2 port.toNat) ++ rest).drop 19 = rest :=
            List.drop_left' (by simp [hlen, hport])
          simp only [List.append_assoc] at hvalue hrest
          rw [hread, haddr, hvalue, hrest]
  | domain name h =>
      refine ⟨⟨.domain name, port⟩, ?_, rfl, rfl⟩
      have hlen := AddressField.toNat_length h
      show parseSocks5Addr
        ([0x03, UInt8.ofNat name.length] ++ (name ++ (toBeBytes 2 port.toNat ++ rest))) = _
      have hread := parse_domain (UInt8.ofNat name.length) (name ++ (toBeBytes 2 port.toNat ++ rest))
        (by rw [hlen]; simp only [List.length_append]; omega)
      have hname : bytesAt ([0x03, UInt8.ofNat name.length] ++
          (name ++ (toBeBytes 2 port.toNat ++ rest))) 2 name.length = name :=
        bytesAt_append rfl rfl
      have hvalue : u16At (([0x03, UInt8.ofNat name.length] ++ name) ++
          (toBeBytes 2 port.toNat ++ rest)) (2 + name.length) = port :=
        u16At_append port (by rw [List.length_append]; rfl)
      have hrest : (([0x03, UInt8.ofNat name.length] ++ name ++ toBeBytes 2 port.toNat) ++ rest).drop
          (4 + name.length) = rest :=
        List.drop_left' (by simp only [List.length_append, hport, List.length_cons,
          List.length_nil]; omega)
      simp only [List.append_assoc] at hvalue hrest
      rw [hread, hlen, hname, hvalue, hrest]

end Anytls

/-! ### VMess -/

namespace Vmess

def types : AddressField.Types := ⟨0x01, 0x02, 0x03⟩

/-! The three types, on data that is long enough. -/

theorem readAddress_v4 {data : List UInt8} {start : Nat} (h : byteAt data start = 0x01)
    (hlong : start + 5 ≤ data.length) :
    readAddress data start = .ok ((IpAddr.v4 (ipv4At data (start + 1))).chars,
      some (.v4 (ipv4At data (start + 1))), start + 5) := by
  rw [readAddress]
  dsimp only
  rw [if_pos h, if_neg (by omega)]

theorem readAddress_v6 {data : List UInt8} {start : Nat} (h : byteAt data start = 0x03)
    (hlong : start + 17 ≤ data.length) :
    readAddress data start = .ok ((IpAddr.v6 (ipv6At data (start + 1))).chars,
      some (.v6 (ipv6At data (start + 1))), start + 17) := by
  rw [readAddress]
  dsimp only
  rw [if_neg (by rw [h]; decide), if_neg (by rw [h]; decide), if_pos h, if_neg (by omega)]

theorem readAddress_domain {data : List UInt8} {start len : Nat} (h : byteAt data start = 0x02)
    (hlen : (byteAt data (start + 1)).toNat = len) (hlong : start + 2 + len ≤ data.length) :
    readAddress data start = .ok (Text.fromUtf8Lossy (bytesAt data (start + 2) len), none,
      start + 2 + len) := by
  rw [readAddress]
  dsimp only
  rw [if_neg (by rw [h]; decide), if_pos h, if_neg (by omega), hlen, if_neg (by omega)]

theorem readAddress_field {before : List UInt8} {start : Nat} (hstart : before.length = start)
    (field : AddressField) (after : List UInt8) :
    readAddress (before ++ (field.bytes types ++ after)) start =
      .ok (field.read.1, field.read.2, start + (field.bytes types).length) := by
  cases field with
  | ip addr =>
      cases addr with
      | v4 addr =>
          have hlen := addr.length_octets
          have haddr : ipv4At (before ++ 0x01 :: (addr.octets ++ after)) (start + 1) = addr := by
            rw [List.append_cons]
            exact ipv4At_octets addr (by simp [hstart])
          show readAddress (before ++ 0x01 :: (addr.octets ++ after)) start =
            .ok (addr.chars, some (.v4 addr), start + (addr.octets.length + 1))
          rw [readAddress_v4 (byteAt_append_cons hstart _ _)
            (by simp only [List.length_append, List.length_cons]; omega), haddr, hlen]
          rfl
      | v6 addr =>
          have hlen := addr.length_octets
          have haddr : ipv6At (before ++ 0x03 :: (addr.octets ++ after)) (start + 1) = addr := by
            rw [List.append_cons]
            exact ipv6At_octets addr (by simp [hstart])
          show readAddress (before ++ 0x03 :: (addr.octets ++ after)) start =
            .ok (addr.chars, some (.v6 addr), start + (addr.octets.length + 1))
          rw [readAddress_v6 (byteAt_append_cons hstart _ _)
            (by simp only [List.length_append, List.length_cons]; omega), haddr, hlen]
          rfl
  | domain name h =>
      have hcount : (byteAt (before ++ 0x02 :: UInt8.ofNat name.length :: (name ++ after))
          (start + 1)).toNat = name.length := by
        rw [List.append_cons, byteAt_append_cons (by simp [hstart]), AddressField.toNat_length h]
      have hname : bytesAt (before ++ 0x02 :: UInt8.ofNat name.length :: (name ++ after))
          (start + 2) name.length = name := by
        rw [List.append_cons, List.append_cons]
        exact bytesAt_append (by simp [hstart]) rfl
      show readAddress (before ++ 0x02 :: UInt8.ofNat name.length :: (name ++ after)) start =
        .ok (Text.fromUtf8Lossy name, none, start + (name.length + 1 + 1))
      rw [readAddress_domain (byteAt_append_cons hstart _ _) hcount
        (by simp only [List.length_append, List.length_cons]; omega), hname]
      congr 3
      omega

/-- A header that asks for a target: the fields before the port, the padding,
and what stands after the checksum. -/
structure Request where
  front : List UInt8
  padding : List UInt8
  rest : List UInt8
  front_length : front.length = 38
  version : byteAt front 0 = vmessVersion
  connects : byteAt front 37 ≠ cmdMux
  padding_length : padding.length = (byteAt front 35 >>> 4).toNat

/-- The header up to its checksum. -/
def Request.body (r : Request) (field : AddressField) (port : UInt16) : List UInt8 :=
  r.front ++ (toBeBytes 2 port.toNat ++ (field.bytes types ++ r.padding))

/-- The header, with its checksum. -/
def Request.bytes (r : Request) (field : AddressField) (port : UInt16) : List UInt8 :=
  r.body field port ++ (toBeBytes 4 (fnv1a32 (r.body field port)).toNat ++ r.rest)

theorem length_body (r : Request) (field : AddressField) (port : UInt16) :
    (r.body field port).length = 40 + (field.bytes types).length + r.padding.length := by
  simp only [Request.body, List.length_append, r.front_length, length_toBeBytes]
  omega

theorem parse_request (r : Request) (field : AddressField) (port : UInt16) :
    ∃ header, parseVmessHeader (r.bytes field port) = .ok header ∧
      (header.targetHost, header.targetIp) = field.read ∧ header.targetPort = port := by
  have hfront := r.front_length
  have hport := length_toBeBytes 2 port.toNat
  have hbody := length_body r field port
  -- the fields of the header stand at fixed places up to the address
  obtain ⟨after, hdata⟩ : ∃ after, r.bytes field port =
      r.front ++ (toBeBytes 2 port.toNat ++ (field.bytes types ++ after)) :=
    ⟨r.padding ++ (toBeBytes 4 (fnv1a32 (r.body field port)).toNat ++ r.rest), by
      rw [Request.bytes, Request.body]
      simp only [List.append_assoc]⟩
  have hlength : (r.bytes field port).length =
      40 + (field.bytes types).length + r.padding.length + (4 + r.rest.length) := by
    rw [Request.bytes, List.length_append, hbody, List.length_append, length_toBeBytes]
  have hbyte : ∀ i < 38, byteAt (r.bytes field port) i = byteAt r.front i := by
    intro i hi
    rw [hdata, byteAt_append_left _ (by omega)]
  have htarget : readTarget (r.bytes field port) (byteAt r.front 37) =
      .ok (port, field.read.1, field.read.2, 40 + (field.bytes types).length) := by
    have haddress : readAddress ((r.front ++ toBeBytes 2 port.toNat) ++
        (field.bytes types ++ after)) 40 = _ :=
      readAddress_field (by simp [hfront, hport]) field after
    rw [List.append_assoc, ← hdata] at haddress
    rw [readTarget, if_neg r.connects, if_neg (by omega), haddress, hdata,
      u16At_append port hfront]
    rfl
  have hchecksum : u32At (r.bytes field port)
      (40 + (field.bytes types).length + r.padding.length) = fnv1a32 (r.body field port) :=
    u32At_append _ _ hbody
  have hsummed : (r.bytes field port).take (40 + (field.bytes types).length + r.padding.length) =
      r.body field port :=
    List.take_left' hbody
  rw [parseVmessHeader, if_neg (by omega), hbyte 0 (by decide), if_neg (not_not.mpr r.version)]
  simp only [hbyte 35 (by decide), hbyte 37 (by decide), ← r.padding_length, htarget, hlength,
    hchecksum, hsummed]
  rw [if_neg (by omega), if_neg (not_not.mpr rfl)]
  exact ⟨_, rfl, rfl, rfl⟩

end Vmess

/-! ### The four parsers -/

/-- What a client sends, for each of the parsers. -/
inductive InboundRequest where
  | vless (bytes : List UInt8)
  | vmess (header : Vmess.SealedHeader)
  | socks5 (bytes : List UInt8)
  | tuicV5 (bytes : List UInt8)

namespace InboundRequest

variable (h : Vmess.Hashes) (gcm : Vmess.GcmOpen)

/-- What the parser makes of it. -/
def parse : InboundRequest → Option Destination
  | vless bytes =>
      match Vless.parseVlessRequestHeader bytes with
      | .ok (header, _) => some ⟨header.targetHost, header.targetIp, header.targetPort⟩
      | .error _ => none
  | vmess header =>
      match header.decryptVmessHeader h gcm with
      | .ok header => some ⟨header.targetHost, header.targetIp, header.targetPort⟩
      | .error _ => none
  | socks5 bytes =>
      match Anytls.parseSocks5Addr bytes with
      | some (target, _) => some ⟨target.host.read.1, target.host.read.2, target.port⟩
      | none => none
  | tuicV5 bytes =>
      match Tuic.TuicV5Address.readFrom bytes with
      | .ok (addr, _) => some ⟨addr.host, addr.ip, addr.port⟩
      | .error _ => none

/-- It is a request of its protocol, for this host and this port. -/
def Names (field : AddressField) (port : UInt16) : InboundRequest → Prop
  | vless bytes => ∃ r : Vless.Request, bytes = r.bytes field port
  | vmess header => ∃ r : Vmess.Request, header.openHeader h gcm = .ok (r.bytes field port)
  | socks5 bytes => ∃ rest, bytes = field.bytes Anytls.types ++ (toBeBytes 2 port.toNat ++ rest)
  | tuicV5 bytes => ∃ rest, bytes = field.bytes Tuic.types ++ (toBeBytes 2 port.toNat ++ rest)

/-- **The parsers read an address alike.** -/
theorem parse_of_names {r : InboundRequest} {field : AddressField} {port : UInt16}
    (hr : r.Names h gcm field port) :
    r.parse h gcm = some ⟨field.read.1, field.read.2, port⟩ := by
  cases r with
  | vless bytes =>
      obtain ⟨r, rfl⟩ := hr
      obtain ⟨header, hparse, hread, rfl⟩ := Vless.parse_request r field port
      simp only [parse, hparse, ← hread]
  | vmess header =>
      obtain ⟨r, hopen⟩ := hr
      obtain ⟨header', hparse, hread, rfl⟩ := Vmess.parse_request r field port
      simp only [parse, Vmess.SealedHeader.decryptVmessHeader, hopen, hparse, ← hread]
  | socks5 bytes =>
      obtain ⟨rest, rfl⟩ := hr
      obtain ⟨target, hparse, hread, rfl⟩ := Anytls.parseSocks5Addr_field field port rest
      simp only [parse, hparse, ← hread]
  | tuicV5 bytes =>
      obtain ⟨rest, rfl⟩ := hr
      obtain ⟨addr, hparse, hread, rfl⟩ := Tuic.readFrom_field field port rest
      simp only [parse, hparse, ← hread]

end InboundRequest

end Elise
