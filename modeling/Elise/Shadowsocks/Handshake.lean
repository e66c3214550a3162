/-
Elise/Shadowsocks/Handshake.lean

Whom a TCP connection is attributed to: the handshake of `handle_stream`
(src/protocol/shadowsocks/server.rs) and of the 2022 methods (ss2022.rs).

A connection is the bytes that the client sends, with what the handshake reads
besides them: the clock, the user last seen at the address, and whether the
crate's filter has seen a salt before.  What comes out is the user that the
connection is attributed to, or nothing if the handshake fails.

Every path but one takes the user from the credentials in force
(`handshake_user`).  The method `none` falls back to the default user where
there are no credentials (`handshake_none_empty`).
-/
import Elise.Shadowsocks.Keys

namespace Elise

namespace Shadowsocks

open Net

structure Conn where
  bytes : List UInt8
  /-- The clock in seconds; `none` before 1970. -/
  now : Option UInt64
  cachedUser : Option UInt32
  /-- `check_nonce_replay` lets the salt through. -/
  saltFresh : List UInt8 → Bool

/-- A connection that has passed the handshake. -/
structure Passed where
  user : PanelUser
  host : List Char
  ip : Option IpAddr
  port : UInt16

variable (c : Crypto)

/-! ### The target -/

/-- The port that follows. -/
def readPort (host : List Char) (ip : Option IpAddr) (bytes : List UInt8) :
    Option (List Char × Option IpAddr × UInt16) :=
  if bytes.length < 2 then none else some (host, ip, u16At bytes 0)

def readTarget : List UInt8 → Option (List Char × Option IpAddr × UInt16)
  | 1 :: rest =>
      if rest.length < 4 then none
      else
        let ip := IpAddr.v4 (ipv4At rest 0)
        readPort ip.chars (some ip) (rest.drop 4)
  | 3 :: len :: rest =>
      if len = 0 ∨ rest.length < len.toNat then none
      else (Text.fromUtf8 (rest.take len.toNat)).bind fun host =>
        readPort host none (rest.drop len.toNat)
  | 4 :: rest =>
      if rest.length < 16 then none
      else
        let ip := IpAddr.v6 (ipv6At rest 0)
        readPort ip.chars (some ip) (rest.drop 16)
  | _ => none

/-! ### Methods before 2022 -/

def maxPayloadLen : Nat := 0x3FFF

/-- Nonces are counters of twelve bytes; the last one is not used. -/
def openFrame (kind : CipherKind) (subkey : List UInt8) (nonce : Nat) (data : List UInt8) :
    Option (List UInt8) :=
  if nonce % 2 ^ 96 = 2 ^ 96 - 1 ∨ data.length < 16 then none
  else c.aeadOpen kind subkey (nonce % 2 ^ 96) data

def decryptLength (kind : CipherKind) (subkey : List UInt8) (nonce : Nat) (block : List UInt8) :
    Option Nat :=
  (openFrame c kind subkey nonce block).bind fun plain =>
    let len := (u16At plain 0).toNat
    if maxPayloadLen < len then none else some len

/-- What the frames hold up to the first that is cut off or does not open.
A step takes at least sixteen bytes, so `fuel` may be their number. -/
def decodeFrames (kind : CipherKind) (subkey : List UInt8) :
    (fuel nonce : Nat) → (payloadLen : Option Nat) → List UInt8 → List UInt8
  | 0, _, _, _ => []
  | fuel + 1, nonce, some len, bytes =>
      if bytes.length < len + 16 then []
      else
        match openFrame c kind subkey nonce (bytes.take (len + 16)) with
        | some payload =>
            payload.take len ++ decodeFrames kind subkey fuel (nonce + 1) none (bytes.drop (len + 16))
        | none => []
  | fuel + 1, nonce, none, bytes =>
      if bytes.length < 18 then []
      else
        match decryptLength c kind subkey nonce (bytes.take 18) with
        | some len => decodeFrames kind subkey fuel (nonce + 1) (some len) (bytes.drop 18)
        | none => []

/-- The credential opens the first block. -/
def tryLength (kind : CipherKind) (salt block : List UInt8) (cred : Credential) : Option Nat :=
  decryptLength c kind (c.hkdfSha1 cred.key salt kind.keyLen) 0 block

/-- The user last seen at this address is tried first. -/
def fastPath (kind : CipherKind) (credentials : List Credential) (conn : Conn)
    (salt block : List UInt8) : Option (Credential × Nat) :=
  conn.cachedUser.bind fun uid =>
    (credentials.find? fun cred => cred.user.id = uid).bind fun cred =>
      (tryLength c kind salt block cred).bind fun len =>
        if conn.saltFresh salt then some (cred, len) else none

/-- Then the others in order; a salt that was seen before ends the search. -/
def slowPath (kind : CipherKind) (credentials : List Credential) (conn : Conn)
    (salt block : List UInt8) : Option (Credential × Nat) :=
  let others := credentials.filter fun cred => some cred.user.id ≠ conn.cachedUser
  (others.findSome? fun cred => (tryLength c kind salt block cred).map fun len => (cred, len)).filter
    fun _ => conn.saltFresh salt

def handshakeLegacy (kind : CipherKind) (index : UserIndex) (conn : Conn) : Option Passed :=
  let salt := conn.bytes.take kind.saltLen
  let rest := conn.bytes.drop kind.saltLen
  if salt.length < kind.saltLen ∨ rest.length < 18 then none
  else
    ((fastPath c kind index.credentials conn salt (rest.take 18)).or
      (slowPath c kind index.credentials conn salt (rest.take 18))).bind fun (cred, len) =>
      let subkey := c.hkdfSha1 cred.key salt kind.keyLen
      let plain := decodeFrames c kind subkey conn.bytes.length 1 (some len) (rest.drop 18)
      (readTarget plain).map fun (host, ip, port) => ⟨cred.user, host, ip, port⟩

/-! ### The methods of 2022 -/

def maxTimestampDiff : Nat := 30

def absDiff (m n : Nat) : Nat := (m - n) + (n - m)

/-- Big-endian, as in `u64::from_be_bytes`. -/
def u64At (bytes : List UInt8) (i : Nat) : UInt64 :=
  UInt64.ofNat (ofBeBytes (bytesAt bytes i 8))

theorem u64At_append {before after : List UInt8} {start : Nat} (n : UInt64)
    (hstart : before.length = start) :
    u64At (before ++ (toBeBytes 8 n.toNat ++ after)) start = n := by
  rw [u64At, bytesAt_append hstart (length_toBeBytes 8 n.toNat),
    ofBeBytes_toBeBytes n.toNat_lt, UInt64.ofNat_toNat]

/-- The key opens the fixed header of a request. -/
def openHeader (kind : Cipher2022) (salt block key : List UInt8) : Option (List UInt8) :=
  (c.tcpOpen kind key salt 0 block).filter fun header => byteAt header 0 = 0

/-- The first credential whose key opens the header, with the header. -/
def firstOpening (kind : Cipher2022) (salt block : List UInt8) (credentials : List Credential) :
    Option (Credential × List UInt8 × List UInt8) :=
  credentials.findSome? fun cred =>
    (openHeader c kind salt block cred.key).map fun header => (cred, cred.key, header)

/-- The server key opens the header for the first user. -/
def serverOpening (kind : Cipher2022) (salt block : List UInt8) (serverKey : Option (List UInt8))
    (credentials : List Credential) : Option (Credential × List UInt8 × List UInt8) :=
  serverKey.bind fun skey =>
    (openHeader c kind salt block skey).map fun header =>
      (credentials.head?.getD ⟨.default, skey, List.replicate 16 0⟩, skey, header)

/-- The identity header names the user. -/
def identityOpening (kind : Cipher2022) (salt eih block : List UInt8)
    (serverKey : Option (List UInt8)) (index : UserIndex) :
    Option (Credential × List UInt8 × List UInt8) :=
  serverKey.bind fun skey =>
    let subkey := (c.deriveIdentity (skey ++ salt)).take (min skey.length 32)
    (index.identityMap.get (c.aesDecrypt subkey eih)).bind fun cred =>
      (openHeader c kind salt block cred.key).map fun header => (cred, cred.key, header)

/-- Who opens the request, with which key, and the header; then the bytes that
follow.  Without an identity header first, then with one. -/
def resolve (kind : Cipher2022) (serverKey : Option (List UInt8)) (index : UserIndex)
    (salt rest : List UInt8) :
    Option ((Credential × List UInt8 × List UInt8) × List UInt8) :=
  let first := rest.take 27
  match (firstOpening c kind salt first index.credentials).or
      (serverOpening c kind salt first serverKey index.credentials) with
  | some found => some (found, rest.drop 27)
  | none =>
      if rest.length < 43 then none
      else
        let eih := rest.take 16
        let header := (rest.drop 16).take 27
        (((identityOpening c kind salt eih header serverKey index).or
          (firstOpening c kind salt header index.credentials)).or
          (serverOpening c kind salt header serverKey index.credentials)).map fun found =>
            (found, rest.drop 43)

/-- The variable header: an address, padding, and maybe a payload. -/
def readVariable (body : List UInt8) : Option Address :=
  (c.readAddress body).bind fun (address, offset) =>
    if body.length < offset + 2 then none
    else
      let padding := (u16At body offset).toNat
      if body.length < offset + 2 + padding then none
      else if padding = 0 ∧ body.length = offset + 2 then none
      else some address

def handshake2022 (kind : Cipher2022) (serverKey : Option (List UInt8)) (index : UserIndex)
    (conn : Conn) : Option Passed :=
  let salt := conn.bytes.take kind.saltLen
  let rest := conn.bytes.drop kind.saltLen
  if salt.length < kind.saltLen ∨ index.credentials.isEmpty ∨ rest.length < 27 then none
  else
    (resolve c kind serverKey index salt rest).bind fun ((cred, key, header), rest) =>
      conn.now.bind fun now =>
        if maxTimestampDiff < absDiff now.toNat (u64At header 1).toNat then none
        else
          let len := (u16At header 9).toNat
          if rest.length < len + 16 then none
          else
            (c.tcpOpen kind key salt 1 (rest.take (len + 16))).bind fun body =>
              (readVariable c (body.take len)).bind fun address =>
                if conn.saltFresh salt then
                  some ⟨cred.user, address.host, c.parseIp address.host, address.port⟩
                else none

/-! ### The handshake -/

def handshake (method : Method) (serverKey : Option (List UInt8)) (index : UserIndex)
    (conn : Conn) : Option Passed :=
  match method with
  | .none =>
      let user := (index.credentials.head?.map (·.user)).getD .default
      (readTarget conn.bytes).map fun (host, ip, port) => ⟨user, host, ip, port⟩
  | .aead2022 kind => handshake2022 c kind serverKey index conn
  | .legacy kind => handshakeLegacy c kind index conn

/-! ### Whom it names -/

theorem fastPath_mem {kind : CipherKind} {credentials : List Credential} {conn : Conn}
    {salt block : List UInt8} {found : Credential × Nat}
    (h : fastPath c kind credentials conn salt block = some found) : found.1 ∈ credentials := by
  simp only [fastPath, Option.bind_eq_some_iff] at h
  obtain ⟨uid, -, cred, hfind, len, -, hlast⟩ := h
  split at hlast
  · obtain rfl := Option.some.inj hlast
    exact List.mem_of_find?_eq_some hfind
  · cases hlast

theorem slowPath_mem {kind : CipherKind} {credentials : List Credential} {conn : Conn}
    {salt block : List UInt8} {found : Credential × Nat}
    (h : slowPath c kind credentials conn salt block = some found) : found.1 ∈ credentials := by
  rw [slowPath, Option.filter_eq_some_iff] at h
  obtain ⟨cred, hmem, hcred⟩ := List.exists_of_findSome?_eq_some h.1
  obtain ⟨len, -, rfl⟩ := Option.map_eq_some_iff.mp hcred
  exact (List.mem_filter.mp hmem).1

theorem firstOpening_mem {kind : Cipher2022} {credentials : List Credential}
    {salt block : List UInt8} {found : Credential × List UInt8 × List UInt8}
    (h : firstOpening c kind salt block credentials = some found) : found.1 ∈ credentials := by
  obtain ⟨cred, hmem, hcred⟩ := List.exists_of_findSome?_eq_some h
  obtain ⟨header, -, rfl⟩ := Option.map_eq_some_iff.mp hcred
  exact hmem

theorem serverOpening_mem {kind : Cipher2022} {credentials : List Credential}
    {salt block : List UInt8} {serverKey : Option (List UInt8)}
    {found : Credential × List UInt8 × List UInt8} (hne : credentials ≠ [])
    (h : serverOpening c kind salt block serverKey credentials = some found) :
    found.1 ∈ credentials := by
  obtain ⟨skey, -, hskey⟩ := Option.bind_eq_some_iff.mp h
  obtain ⟨header, -, rfl⟩ := Option.map_eq_some_iff.mp hskey
  cases credentials with
  | nil => exact absurd rfl hne
  | cons cred credentials => exact List.mem_cons_self

theorem identityOpening_mem {kind : Cipher2022} {credentials : List Credential}
    {salt eih block : List UInt8} {serverKey : Option (List UInt8)}
    {found : Credential × List UInt8 × List UInt8}
    (h : identityOpening c kind salt eih block serverKey (UserIndex.new c credentials) =
      some found) : found.1 ∈ credentials := by
  obtain ⟨skey, -, hskey⟩ := Option.bind_eq_some_iff.mp h
  obtain ⟨cred, hcred, hopen⟩ := Option.bind_eq_some_iff.mp hskey
  obtain ⟨header, -, rfl⟩ := Option.map_eq_some_iff.mp hopen
  exact UserIndex.mem_of_identityMap c hcred

theorem resolve_mem {kind : Cipher2022} {credentials : List Credential} {salt rest : List UInt8}
    {serverKey : Option (List UInt8)}
    {found : (Credential × List UInt8 × List UInt8) × List UInt8} (hne : credentials ≠ [])
    (h : resolve c kind serverKey (UserIndex.new c credentials) salt rest = some found) :
    found.1.1 ∈ credentials := by
  rw [resolve] at h
  simp only at h
  split at h
  case h_1 found' hfound =>
    obtain rfl := Option.some.inj h
    rcases Option.or_eq_some_iff.mp hfound with hfirst | ⟨-, hserver⟩
    · exact firstOpening_mem c hfirst
    · exact serverOpening_mem c hne hserver
  case h_2 =>
    split at h
    · cases h
    · obtain ⟨found', hfound, rfl⟩ := Option.map_eq_some_iff.mp h
      rcases Option.or_eq_some_iff.mp hfound with hfound | ⟨-, hserver⟩
      · rcases Option.or_eq_some_iff.mp hfound with hidentity | ⟨-, hfirst⟩
        · exact identityOpening_mem c hidentity
        · exact firstOpening_mem c hfirst
      · exact serverOpening_mem c hne hserver

theorem handshakeLegacy_user {kind : CipherKind} {credentials : List Credential} {conn : Conn}
    {passed : Passed}
    (h : handshakeLegacy c kind (UserIndex.new c credentials) conn = some passed) :
    ∃ cred ∈ credentials, passed.user = cred.user := by
  rw [handshakeLegacy] at h
  simp only at h
  split at h
  · cases h
  · obtain ⟨found, hfound, hrest⟩ := Option.bind_eq_some_iff.mp h
    obtain ⟨target, -, rfl⟩ := Option.map_eq_some_iff.mp hrest
    refine ⟨found.1, ?_, rfl⟩
    rcases Option.or_eq_some_iff.mp hfound with hfast | ⟨-, hslow⟩
    · exact fastPath_mem c hfast
    · exact slowPath_mem c hslow

theorem handshake2022_user {kind : Cipher2022} {serverKey : Option (List UInt8)}
    {credentials : List Credential} {conn : Conn} {passed : Passed}
    (h : handshake2022 c kind serverKey (UserIndex.new c credentials) conn = some passed) :
    ∃ cred ∈ credentials, passed.user = cred.user := by
  rw [handshake2022] at h
  simp only at h
  split at h
  · cases h
  · rename_i hguard
    have hcreds : credentials ≠ [] := by
      intro hnil
      exact hguard (.inr (.inl (by simp [hnil, UserIndex.new])))
    obtain ⟨found, hfound, hrest⟩ := Option.bind_eq_some_iff.mp h
    obtain ⟨now, -, hrest⟩ := Option.bind_eq_some_iff.mp hrest
    refine ⟨found.1.1, resolve_mem c hcreds hfound, ?_⟩
    split at hrest
    · cases hrest
    · split at hrest
      · cases hrest
      · obtain ⟨body, -, hrest⟩ := Option.bind_eq_some_iff.mp hrest
        obtain ⟨address, -, hrest⟩ := Option.bind_eq_some_iff.mp hrest
        split at hrest
        · obtain rfl := Option.some.inj hrest
          rfl
        · cases hrest

/-- A connection is attributed to a user with a credential, unless the method
is `none` and there are no credentials. -/
theorem handshake_user {method : Method} {serverKey : Option (List UInt8)}
    {credentials : List Credential} {conn : Conn} {passed : Passed}
    (hne : method = .none → credentials ≠ [])
    (h : handshake c method serverKey (UserIndex.new c credentials) conn = some passed) :
    ∃ cred ∈ credentials, passed.user = cred.user := by
  cases method with
  | none =>
      obtain ⟨target, -, rfl⟩ := Option.map_eq_some_iff.mp h
      cases credentials with
      | nil => exact absurd rfl (hne rfl)
      | cons cred credentials => exact ⟨cred, List.mem_cons_self, rfl⟩
  | legacy kind => exact handshakeLegacy_user c h
  | aead2022 kind => exact handshake2022_user c h

end Shadowsocks

end Elise
