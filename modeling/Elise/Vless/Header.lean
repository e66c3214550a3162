/-
Elise/Vless/Header.lean

The request header of VLESS (src/protocol/vless/header.rs).

A host is either an address, which is kept beside its text, or a name.
-/
import Elise.Lib.HostText
import Elise.Lib.Wire

namespace Elise.Vless

open Net

/-! ### Addons -/

structure VlessAddons where
  flow : List Char
  seed : List UInt8
  deriving DecidableEq

namespace VlessAddons

def default : VlessAddons := ⟨[], []⟩

/-- `read_uvarint`, from the bits that have been read so far. -/
def readUvarintFrom (value : UInt64) (shift : Nat) : List UInt8 → Option (UInt64 × List UInt8)
  | [] => none
  | b :: rest =>
      let value := value ||| ((b &&& 0x7F).toUInt64 <<< UInt64.ofNat shift)
      if b &&& 0x80 = 0 then some (value, rest)
      else if 63 < shift + 7 then none
      else readUvarintFrom value (shift + 7) rest

def readUvarint (buf : List UInt8) : Option (UInt64 × List UInt8) := readUvarintFrom 0 0 buf

/-- One field of the addons: what is left of the bytes and what is known; `none`
ends the loop. -/
def parseField (buf : List UInt8) (addons : VlessAddons) : Option (List UInt8 × VlessAddons) :=
  match readUvarint buf with
  | none => none
  | some (tagWire, buf) =>
      let wireType := tagWire &&& 7
      let fieldNum := tagWire >>> 3
      if wireType = 0 then (readUvarint buf).map fun r => (r.2, addons)
      else if wireType = 1 then if buf.length < 8 then none else some (buf.drop 8, addons)
      else if wireType = 2 then
        match readUvarint buf with
        | none => none
        | some (len, rest) =>
            if rest.length < len.toNat then none
            else
              let data := rest.take len.toNat
              let addons :=
                if fieldNum = 1 then { addons with flow := Text.fromUtf8Lossy data }
                else if fieldNum = 2 then { addons with seed := data }
                else addons
              some (rest.drop len.toNat, addons)
      else if wireType = 5 then if buf.length < 4 then none else some (buf.drop 4, addons)
      else none

/-- `VlessAddons::parse`.  Each field takes at least one byte, so there are no
more turns than bytes. -/
def parseLoop : Nat → List UInt8 → VlessAddons → VlessAddons
  | 0, _, addons => addons
  | turns + 1, buf, addons =>
      if buf.isEmpty then addons
      else
        match parseField buf addons with
        | none => addons
        | some (buf, addons) => parseLoop turns buf addons

def parse (buf : List UInt8) : VlessAddons := parseLoop buf.length buf default

end VlessAddons

/-! ### The header -/

inductive HeaderError where
  | unexpectedEof
  | invalidData (message : String)
  deriving DecidableEq

structure VlessRequestHeader where
  version : UInt8
  uuidBytes : List UInt8
  addons : VlessAddons
  command : UInt8
  targetPort : UInt16
  targetHost : List Char
  targetIp : Option IpAddr
  deriving DecidableEq

/-- `{:#x}`. -/
def hex (b : UInt8) : String := "0x" ++ String.ofList (Nat.toDigits 16 b.toNat)

/-- The host, and the address if it is given as one. -/
def readAddress : Reader HeaderError (List Char × Option IpAddr) := do
  let atyp ← Reader.readByte .unexpectedEof
  if atyp = 0x01 then
    let ipv4 ← Reader.readExact .unexpectedEof 4
    let ip := IpAddr.v4 (ipv4At ipv4 0)
    pure (ip.chars, some ip)
  else if atyp = 0x02 then
    let len ← Reader.readByte .unexpectedEof
    let domain ← Reader.readExact .unexpectedEof len.toNat
    pure (Text.fromUtf8Lossy domain, none)
  else if atyp = 0x03 then
    let ipv6 ← Reader.readExact .unexpectedEof 16
    let ip := IpAddr.v6 (ipv6At ipv6 0)
    pure (ip.chars, some ip)
  else throw (.invalidData ("invalid VLESS address type: " ++ hex atyp))

/-- The port, the host and the address that a command asks for. -/
def readTarget (command : UInt8) : Reader HeaderError (UInt16 × List Char × Option IpAddr) := do
  if command = 0x01 ∨ command = 0x02 then
    let port ← Reader.readU16 .unexpectedEof
    let (host, ip) ← readAddress
    pure (port, host, ip)
  else if command = 0x03 then pure (0, "v1.mux.cool".toList, none)
  else if command = 0x04 then pure (0, "v1.rvs.cool".toList, none)
  else throw (.invalidData ("unsupported VLESS command: " ++ hex command))

/-- `parse_vless_request_header`. -/
def parseVlessRequestHeader : Reader HeaderError VlessRequestHeader := do
  let version ← Reader.readByte .unexpectedEof
  if version ≠ 0 then
    throw (.invalidData ("unsupported VLESS protocol version: " ++ version.toNat.repr))
  let uuidBytes ← Reader.readExact .unexpectedEof 16
  let addonLen ← Reader.readByte .unexpectedEof
  let addonBuf ← Reader.readExact .unexpectedEof addonLen.toNat
  let addons := if 0 < addonLen then VlessAddons.parse addonBuf else .default
  let command ← Reader.readByte .unexpectedEof
  let (targetPort, targetHost, targetIp) ← readTarget command
  pure ⟨version, uuidBytes, addons, command, targetPort, targetHost, targetIp⟩

end Elise.Vless
