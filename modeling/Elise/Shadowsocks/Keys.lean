/-
Elise/Shadowsocks/Keys.lean

Methods, keys and credentials (src/protocol/shadowsocks/ss2022.rs, the key
derivation of crypto.rs).

Hashes, ciphers, base64, UUIDs and the address format come from crates and are
the parameter `Crypto`.  How a password becomes a key, and which passwords have
none, is the program's own.
-/
import Elise.Lib.AssocMap
import Elise.Lib.Net
import Elise.Panel.Client

namespace Elise

namespace Shadowsocks

/-! ### Methods -/

/-- The methods before 2022. -/
inductive CipherKind where
  | chacha20Poly1305
  | aes256Gcm
  | aes128Gcm
  | aes192Gcm
  deriving DecidableEq, Repr

def CipherKind.keyLen : CipherKind → Nat
  | .chacha20Poly1305 => 32
  | .aes256Gcm => 32
  | .aes128Gcm => 16
  | .aes192Gcm => 24

def CipherKind.saltLen (kind : CipherKind) : Nat := kind.keyLen

/-- The methods of 2022. -/
inductive Cipher2022 where
  | aes128Gcm
  | aes256Gcm
  | chacha20Poly1305
  deriving DecidableEq, Repr

def Cipher2022.keyLen : Cipher2022 → Nat
  | .aes128Gcm => 16
  | .aes256Gcm => 32
  | .chacha20Poly1305 => 32

def Cipher2022.saltLen (kind : Cipher2022) : Nat := kind.keyLen

inductive Method where
  | none
  | legacy (kind : CipherKind)
  | aead2022 (kind : Cipher2022)
  deriving DecidableEq, Repr

def Method.isAead2022 : Method → Bool
  | .aead2022 _ => true
  | _ => false

def Method.keyLen : Method → Nat
  | .none => 0
  | .legacy kind => kind.keyLen
  | .aead2022 kind => kind.keyLen

/-! ### What comes from elsewhere -/

structure Address where
  host : List Char
  port : UInt16
  deriving DecidableEq, Repr

/-- Hashes, ciphers and formats.  A cipher opens a text or fails; the tag is
not part of what it gives back. -/
structure Crypto where
  md5 : List UInt8 → List UInt8
  blake3 : List UInt8 → List UInt8
  hkdfSha1 : (key salt : List UInt8) → (len : Nat) → List UInt8
  /-- BLAKE3 with the context for identity subkeys. -/
  deriveIdentity : List UInt8 → List UInt8
  aesDecrypt : (key block : List UInt8) → List UInt8
  aeadOpen : CipherKind → (key : List UInt8) → (nonce : Nat) → (data : List UInt8) →
    Option (List UInt8)
  /-- The stream cipher of a salt; `counter` numbers the packets. -/
  tcpOpen : Cipher2022 → (key salt : List UInt8) → (counter : Nat) → (data : List UInt8) →
    Option (List UInt8)
  udpOpen : Cipher2022 → (key : List UInt8) → (session : UInt64) → (nonce data : List UInt8) →
    Option (List UInt8)
  isUuid : List Char → Bool
  base64 : List Char → Option (List UInt8)
  base64Url : List Char → Option (List UInt8)
  /-- The address at the front, and how many bytes it takes. -/
  readAddress : List UInt8 → Option (Address × Nat)
  parseIp : List Char → Option Net.IpAddr

variable (c : Crypto)

/-! ### Keys -/

/-- The digests that `evp_bytes_to_key` joins. -/
def evpBlocks (password : List UInt8) : (n : Nat) → (prev : List UInt8) → List UInt8
  | 0, _ => []
  | n + 1, prev =>
      let digest := c.md5 (prev ++ password)
      digest ++ evpBlocks password n digest

/-- An MD5 digest has sixteen bytes, so the loop of the source runs this often. -/
def evpBytesToKey (password : List UInt8) (keyLen : Nat) : List UInt8 :=
  (evpBlocks c password ((keyLen + 15) / 16) []).take keyLen

/-- What stands after the last colon. -/
def afterLastColon (value : List Char) : List Char :=
  (value.reverse.takeWhile (· ≠ ':')).reverse

/-- The raw bytes of a text, as many as a key has. -/
def rawKey (value : List Char) (keyLen : Nat) : Option (List UInt8) :=
  if keyLen ≤ (Text.toUtf8 value).length then some ((Text.toUtf8 value).take keyLen) else none

/-- A base64 text of a key. -/
def base64Key (value : List Char) (keyLen : Nat) : Option (List UInt8) :=
  ((c.base64 value).filter (·.length = keyLen)).or
    ((c.base64Url value).filter (·.length = keyLen))

def decodeKey (value : List Char) (method : Method) : Except String (List UInt8) :=
  let keyLen := method.keyLen
  if keyLen = 0 then .ok []
  else
    let value := Text.trim value
    if value.isEmpty then .error "SS2022 key cannot be empty"
    else
      let last := if ':' ∈ value then Text.trim (afterLastColon value) else value
      if last.isEmpty then .error "SS2022 user key cannot be empty"
      else if c.isUuid last then
        match rawKey last keyLen with
        | some key => .ok key
        | none => .error "UUID shorter than SS2022 key length"
      else
        match base64Key c last keyLen with
        | some key => .ok key
        | none =>
            if (c.base64 last).isSome || (c.base64Url last).isSome then
              .error "SS2022 Base64 key length does not match cipher requirement"
            else
              match rawKey last keyLen with
              | some key => .ok key
              | none => .error ("SS2022 key must be Base64-encoded PSK with matching length, " ++
                  "valid UUID, or raw string of at least key_len characters")

/-! ### Credentials -/

structure Credential where
  user : PanelUser
  key : List UInt8
  identityHash : List UInt8
  deriving DecidableEq

namespace Credential

/-- The password, or the UUID where it is missing or blank. -/
def rawPwd (user : PanelUser) : List Char :=
  (user.password.filter fun password => !(Text.trim password).isEmpty).getD user.uuid

def new (user : PanelUser) (method : Method) : Except String Credential :=
  match method with
  | .none => .ok ⟨user, [], List.replicate 16 0⟩
  | .legacy kind =>
      let key := evpBytesToKey c (Text.toUtf8 (rawPwd user)) kind.keyLen
      .ok ⟨user, key, (c.blake3 key).take 16⟩
  | .aead2022 _ =>
      match decodeKey c (rawPwd user) method with
      | .ok key => .ok ⟨user, key, (c.blake3 key).take 16⟩
      | .error e => .error e

theorem new_user {user : PanelUser} {method : Method} {credential : Credential}
    (h : new c user method = .ok credential) : credential.user = user := by
  cases method with
  | none =>
      cases h
      rfl
  | legacy kind =>
      cases h
      rfl
  | aead2022 kind =>
      rw [new] at h
      split at h
      · cases h
        rfl
      · cases h

end Credential

structure UserIndex where
  credentials : List Credential
  identityMap : AssocMap (List UInt8) Credential
  validKeys : List (UInt32 × List UInt8)

namespace UserIndex

def default : UserIndex := ⟨[], ∅, []⟩

def new (credentials : List Credential) : UserIndex where
  credentials := credentials
  identityMap := AssocMap.ofPairs (credentials.map fun cred => ((c.blake3 cred.key).take 16, cred))
  validKeys := credentials.map fun cred => (cred.user.id, c.blake3 cred.key)

/-- The identities are those of the credentials. -/
theorem mem_of_identityMap {credentials : List Credential} {id : List UInt8} {cred : Credential}
    (h : (new c credentials).identityMap.get id = some cred) : cred ∈ credentials := by
  obtain ⟨cred', hmem, heq⟩ := List.mem_map.mp (AssocMap.mem_of_get_ofPairs h)
  obtain ⟨-, rfl⟩ := Prod.mk.injEq .. ▸ heq
  exact hmem

end UserIndex

end Shadowsocks

end Elise
