/-
Elise/Shadowsocks/Hint.lean

Decrypting a datagram with any method (`decrypt_udp_with_cache` of
src/protocol/shadowsocks/ss2022.rs), and what the user last seen at its address changes.

Each family of methods finds the user in its own way.  With the method `none` it is the first
one.  A method before 2022 tries all users, those with the id last seen at the address first.  A
2022 method with AES and a server key reads the identity of the user from the packet; the others
take the user last seen at the address, or the first one, and try no other.  With a 2022 method
this is the function that the UDP loop is built on (`decryptUdpWithCache_eq_ok`).

The hint is meant to save trials, not to decide who is let in.  A search that gets to every user
gives the same answer for any hint, as long as a text opens under one key at most.  Two searches
do not get to every user.  The 2022 methods that choose the user before they open a datagram try
the one chosen (`Tried`), and the TCP search of the methods before 2022 skips all users with the
id of the hint after it has tried the first of them (`Search.Reached`).  `hint_independent_iff`
says that these are the only cases, and that a salt is accepted once, whatever the hints.
-/
import Elise.Lib.Run
import Elise.Lib.Search
import Elise.Shadowsocks.Replay
import Elise.Shadowsocks.Udp

namespace Elise

namespace Shadowsocks

open Net

/-! ### Errors -/

inductive UdpError where
  | invalid (msg : String)
  | permissionDenied (msg : String)
  /-- The address does not parse. -/
  | address
  /-- `check_nonce_replay` has seen the salt. -/
  | replay
  /-- The clock is before 1970. -/
  | clock
  deriving DecidableEq, Repr

section

variable (c : Crypto)

/-! ### Without encryption -/

def decryptNone (index : UserIndex) (packet : List UInt8) : Except UdpError Datagram :=
  if packet.length < 3 then .error (.invalid "Truncated Shadowsocks UDP packet")
  else
    match c.readAddress packet with
    | none => .error .address
    | some (address, len) =>
        match index.credentials.head? with
        | none => .error (.invalid "No users configured for Shadowsocks UDP")
        | some cred => .ok ⟨cred, address, packet.drop len, 0, 0⟩

/-! ### Methods before 2022 -/

def openLegacy (kind : CipherKind) (packet : List UInt8) (cred : Credential) :
    Option (List UInt8) :=
  let subkey := c.hkdfSha1 cred.key (packet.take kind.saltLen) kind.keyLen
  c.aeadOpen kind subkey 0 (packet.drop kind.saltLen)

/-- What opened is read, and its salt is marked. -/
def readLegacy (saltFresh : List UInt8 → Bool) (salt : List UInt8) (cred : Credential)
    (data : List UInt8) : Except UdpError Datagram :=
  match c.readAddress data with
  | none => .error .address
  | some (address, len) =>
      if saltFresh salt then .ok ⟨cred, address, data.drop len, 0, 0⟩ else .error .replay

/-- The trial of one user; an error after the packet has opened ends the search. -/
def tryLegacy (kind : CipherKind) (saltFresh : List UInt8 → Bool) (packet : List UInt8)
    (cred : Credential) : Option (Except UdpError Datagram) :=
  (openLegacy c kind packet cred).map (readLegacy c saltFresh (packet.take kind.saltLen) cred)

def decryptLegacy (kind : CipherKind) (index : UserIndex) (packet : List UInt8)
    (cachedUser : Option UInt32) (saltFresh : List UInt8 → Bool) : Except UdpError Datagram :=
  if packet.length < kind.saltLen + 16 then .error (.invalid "Truncated Shadowsocks UDP packet")
  else
    match Search.hintedAll (tryLegacy c kind saltFresh packet)
        (fun cred => some cred.user.id = cachedUser) index.credentials with
    | some result => result
    | none => .error (.invalid "Shadowsocks UDP authentication failed")

/-! ### The methods of 2022 -/

def readRequest (now : Option UInt64) (opened : Opened) : Except UdpError Datagram :=
  let body := opened.body
  if byteAt body 0 ≠ 0 then .error (.invalid "Invalid SS2022 UDP request type")
  else
    match now with
    | none => .error .clock
    | some now =>
        if maxTimestampSkewSecs < absDiff now.toNat opened.timestamp.toNat then
          .error (.invalid "Invalid SS2022 UDP timestamp")
        else
          let start := 11 + (u16At body 9).toNat
          if body.length < start then .error (.invalid "Invalid SS2022 UDP padding")
          else
            match c.readAddress (body.drop start) with
            | none => .error .address
            | some (address, len) =>
                .ok ⟨opened.credential, address, body.drop (start + len), opened.sessionId,
                  opened.packetId⟩

/-- How short a packet may not be, and what is answered to one that does not
open. -/
structure PacketRules where
  minLen : Nat
  truncated : String
  tagFailed : String

def chachaRules : PacketRules :=
  ⟨24 + 16 + 11 + 16, "Truncated SS2022 ChaCha20 UDP packet",
    "SS2022 ChaCha20 UDP tag verification failed"⟩

def multiRules : PacketRules :=
  ⟨32 + 11 + 16, "Truncated SS2022 multi-user UDP packet",
    "SS2022 UDP body tag verification failed"⟩

def singleRules : PacketRules :=
  ⟨16 + 11 + 16, "Truncated SS2022 single-user UDP packet",
    "SS2022 UDP body tag verification failed"⟩

/-- The user is chosen before the packet is opened. -/
def decryptSelected (kind : Cipher2022) (rules : PacketRules) (index : UserIndex)
    (packet : List UInt8) (cachedUser : Option UInt32) (now : Option UInt64) :
    Except UdpError Datagram :=
  if packet.length < rules.minLen then .error (.invalid rules.truncated)
  else
    match selectCredential index cachedUser with
    | none => .error (.invalid "No user configured for SS2022 UDP")
    | some cred =>
        match openFor c kind packet cred with
        | none => .error (.invalid rules.tagFailed)
        | some opened => readRequest c now opened

/-- The user is named in the packet. -/
def decryptMulti (kind : Cipher2022) (headerKey : List UInt8) (index : UserIndex)
    (packet : List UInt8) (now : Option UInt64) : Except UdpError Datagram :=
  if packet.length < multiRules.minLen then .error (.invalid multiRules.truncated)
  else
    let header := c.aesDecrypt headerKey (packet.take 16)
    let masked := c.aesDecrypt headerKey ((packet.drop 16).take 16)
    match index.identityMap.get (List.zipWith (· ^^^ ·) masked header) with
    | none => .error (.permissionDenied "SS2022 UDP EIH user authentication failed")
    | some cred =>
        match openBody c kind header (packet.drop 32) cred with
        | none => .error (.invalid multiRules.tagFailed)
        | some opened => readRequest c now opened

def decrypt2022 (kind : Cipher2022) (serverKey : Option (List UInt8)) (index : UserIndex)
    (packet : List UInt8) (cachedUser : Option UInt32) (now : Option UInt64) :
    Except UdpError Datagram :=
  if kind = .chacha20Poly1305 then decryptSelected c kind chachaRules index packet cachedUser now
  else
    match serverKey with
    | some headerKey => decryptMulti c kind headerKey index packet now
    | none => decryptSelected c kind singleRules index packet cachedUser now

/-! ### Any method -/

def decryptUdpWithCache (method : Method) (serverKey : Option (List UInt8)) (index : UserIndex)
    (packet : List UInt8) (cachedUser : Option UInt32) (now : Option UInt64)
    (saltFresh : List UInt8 → Bool) : Except UdpError Datagram :=
  match method with
  | .none => decryptNone c index packet
  | .legacy kind => decryptLegacy c kind index packet cachedUser saltFresh
  | .aead2022 kind => decrypt2022 c kind serverKey index packet cachedUser now

/-! ### The function of the loop -/

section Loop

variable {c} {now : UInt64} {d : Datagram}

theorem readRequest_eq_ok {opened : Opened} :
    readRequest c (some now) opened = .ok d ↔ readBody c now.toNat opened = some d := by
  simp only [readRequest, readBody]
  split
  · simp
  · split
    · simp
    · split
      · simp
      · rcases c.readAddress _ with - | ⟨address, len⟩ <;> simp

theorem decryptSelected_eq_ok {kind : Cipher2022} {rules : PacketRules} {index : UserIndex}
    {packet : List UInt8} {cachedUser : Option UInt32}
    (hshort : packet.length < rules.minLen → ∀ cred, openFor c kind packet cred = none) :
    decryptSelected c kind rules index packet cachedUser (some now) = .ok d ↔
      ((selectCredential index cachedUser).bind (openFor c kind packet)).bind
        (readBody c now.toNat) = some d := by
  rw [decryptSelected]
  split
  · rename_i hlen
    rcases selectCredential index cachedUser with - | cred
    · simp
    · simp [hshort hlen cred]
  · rcases selectCredential index cachedUser with - | cred
    · simp
    · rcases hopen : openFor c kind packet cred with - | opened
      · simp [hopen]
      · simpa [hopen] using readRequest_eq_ok

theorem decryptMulti_eq_ok {kind : Cipher2022} {headerKey : List UInt8} {index : UserIndex}
    {packet : List UInt8} :
    decryptMulti c kind headerKey index packet (some now) = .ok d ↔
      (openMulti c kind headerKey index packet).bind (readBody c now.toNat) = some d := by
  rw [decryptMulti, openMulti, show multiRules.minLen = 32 + 11 + 16 from rfl]
  by_cases hlen : packet.length < 32 + 11 + 16
  · simp [hlen]
  · simp only [if_neg hlen]
    rcases index.identityMap.get _ with - | cred
    · simp
    · simp only [Option.bind_some]
      rcases openBody c kind _ (packet.drop 32) cred with - | opened
      · simp
      · exact readRequest_eq_ok

/-- With a 2022 method, what is decrypted is what the UDP loop goes on with. -/
theorem decryptUdpWithCache_eq_ok {kind : Cipher2022} {serverKey : Option (List UInt8)}
    {index : UserIndex} {packet : List UInt8} {cachedUser : Option UInt32}
    {saltFresh : List UInt8 → Bool} :
    decryptUdpWithCache c (.aead2022 kind) serverKey index packet cachedUser (some now) saltFresh =
        .ok d ↔
      decryptUdp c kind serverKey index packet cachedUser now.toNat = some d := by
  simp only [decryptUdpWithCache, decrypt2022, decryptUdp, openPacket]
  by_cases hkind : kind = .chacha20Poly1305
  · have hshort : packet.length < chachaRules.minLen → ∀ cred, openFor c kind packet cred = none := by
      intro hlen cred
      rw [openFor, if_pos hkind]
      exact if_pos hlen
    rw [if_pos hkind, decryptSelected_eq_ok hshort]
    rcases serverKey with - | headerKey
    · exact Iff.rfl
    · simp only [if_pos hkind]
  · rw [if_neg hkind]
    rcases serverKey with - | headerKey
    · have hshort : packet.length < singleRules.minLen →
          ∀ cred, openFor c kind packet cred = none := by
        intro hlen cred
        rw [openFor, if_neg hkind]
        exact if_pos hlen
      exact decryptSelected_eq_ok hshort
    · simp only [if_neg hkind]
      exact decryptMulti_eq_ok

end Loop

end

/-! ### Assumptions -/

def DistinctKeys (credentials : List Credential) : Prop := (credentials.map (·.key)).Nodup

instance (credentials : List Credential) : Decidable (DistinctKeys credentials) :=
  inferInstanceAs (Decidable (credentials.map (·.key)).Nodup)

theorem DistinctKeys.eq_of_key {credentials : List Credential} (h : DistinctKeys credentials)
    {cred cred' : Credential} (hmem : cred ∈ credentials) (hmem' : cred' ∈ credentials)
    (hkey : cred.key = cred'.key) : cred = cred' :=
  List.inj_on_of_nodup_map h hmem hmem' hkey

variable (c : Crypto)

/-- **Authenticated encryption**: no text opens under the keys of two users. -/
structure OneKey (credentials : List Credential) : Prop where
  legacy : ∀ kind salt data, ∀ cred ∈ credentials, ∀ cred' ∈ credentials,
    (c.aeadOpen kind (c.hkdfSha1 cred.key salt kind.keyLen) 0 data).isSome = true →
      (c.aeadOpen kind (c.hkdfSha1 cred'.key salt kind.keyLen) 0 data).isSome = true →
        cred.key = cred'.key
  udp : ∀ kind packet, ∀ cred ∈ credentials, ∀ cred' ∈ credentials,
    (openFor c kind packet cred).isSome = true → (openFor c kind packet cred').isSome = true →
      cred.key = cred'.key

/-- The credentials that an inbound works with: made for its method, with keys
that differ, and that BLAKE3 tells apart. -/
structure Users (method : Method) (credentials : List Credential) : Prop where
  made : ∀ cred ∈ credentials, Credential.new c cred.user method = .ok cred
  distinct : DistinctKeys credentials
  hashes : (credentials.map fun cred => (c.blake3 cred.key).take 16).Nodup
  oneKey : OneKey c credentials

/-! ### Which user a datagram is tried with -/

/-- The user is chosen before the packet is opened. -/
def choosesFirst : Method → Option (List UInt8) → Bool
  | .aead2022 kind, serverKey => decide (kind = .chacha20Poly1305) || serverKey.isNone
  | _, _ => false

/-- The packet is tried with the credential. -/
def Tried (method : Method) (serverKey : Option (List UInt8)) (index : UserIndex)
    (hint : Option UInt32) (cred : Credential) : Prop :=
  choosesFirst method serverKey = true → selectCredential index hint = some cred

instance (method : Method) (serverKey : Option (List UInt8)) (index : UserIndex)
    (hint : Option UInt32) (cred : Credential) :
    Decidable (Tried method serverKey index hint cred) :=
  inferInstanceAs (Decidable
    (choosesFirst method serverKey = true → selectCredential index hint = some cred))

/-- The packet opens under the key of the credential. -/
def opensUdp (method : Method) (packet : List UInt8) (cred : Credential) : Bool :=
  match method with
  | .none => true
  | .legacy kind => (openLegacy c kind packet cred).isSome
  | .aead2022 kind => (openFor c kind packet cred).isSome

variable {c} {credentials : List Credential} {packet : List UInt8} {now : Option UInt64}
  {saltFresh : List UInt8 → Bool}

/-! ### Methods before 2022 -/

theorem Users.atMostOne_legacy {method : Method} (h : Users c method credentials)
    (kind : CipherKind) (packet : List UInt8) (saltFresh : List UInt8 → Bool) :
    Search.AtMostOne (tryLegacy c kind saltFresh packet) credentials := by
  intro cred hcred cred' hcred' hopen hopen'
  simp only [tryLegacy, Option.isSome_map, openLegacy] at hopen hopen'
  exact h.distinct.eq_of_key hcred hcred'
    (h.oneKey.legacy kind _ _ cred hcred cred' hcred' hopen hopen')

/-- The search tries every user, so the hint makes no difference. -/
theorem decryptLegacy_eq {method : Method} {kind : CipherKind} (h : Users c method credentials)
    (hint : Option UInt32) :
    decryptLegacy c kind (UserIndex.new c credentials) packet hint saltFresh =
      if packet.length < kind.saltLen + 16 then
        .error (.invalid "Truncated Shadowsocks UDP packet")
      else (credentials.findSome? (tryLegacy c kind saltFresh packet)).getD
        (.error (.invalid "Shadowsocks UDP authentication failed")) := by
  rw [decryptLegacy, UserIndex.new, Search.hintedAll_eq (h.atMostOne_legacy kind packet saltFresh)]
  rcases credentials.findSome? (tryLegacy c kind saltFresh packet) with - | result <;> rfl

/-! ### Methods that choose first -/

/-- An answer to a packet that has opened is not the answer to one that has
not. -/
theorem readRequest_ne_tagFailed {opened : Opened} {rules : PacketRules}
    (hrules : rules = chachaRules ∨ rules = singleRules) :
    readRequest c now opened ≠ .error (.invalid rules.tagFailed) := by
  intro heq
  simp only [readRequest] at heq
  rcases hrules with rfl | rfl <;>
  · simp only [chachaRules, singleRules] at heq
    split at heq
    · simp at heq
    · split at heq
      · simp at heq
      · split at heq
        · simp at heq
        · split at heq
          · simp at heq
          · split at heq <;> simp at heq

theorem openFor_eq_none_of_short {kind : Cipher2022} {rules : PacketRules}
    (hrules : rules = if kind = .chacha20Poly1305 then chachaRules else singleRules)
    (hlen : packet.length < rules.minLen) (cred : Credential) :
    openFor c kind packet cred = none := by
  subst hrules
  rw [openFor]
  split
  · rename_i hkind
    rw [if_pos hkind] at hlen
    exact if_pos hlen
  · rename_i hkind
    rw [if_neg hkind] at hlen
    exact if_pos hlen

theorem credentials_eq_nil_of_select {hint : Option UInt32}
    (h : selectCredential (UserIndex.new c credentials) hint = none) : credentials = [] := by
  rw [selectCredential, Option.or_eq_none_iff] at h
  exact List.head?_eq_none_iff.mp h.2

theorem rules_family (kind : Cipher2022) :
    (if kind = .chacha20Poly1305 then chachaRules else singleRules) = chachaRules ∨
      (if kind = .chacha20Poly1305 then chachaRules else singleRules) = singleRules := by
  split
  · exact .inl rfl
  · exact .inr rfl

/-- A packet that opens under the key of a user is answered so exactly if that
user is chosen. -/
theorem decryptSelected_eq_readRequest_iff {method : Method} {kind : Cipher2022}
    {rules : PacketRules}
    (hrules : rules = if kind = .chacha20Poly1305 then chachaRules else singleRules)
    (h : Users c method credentials) (hlong : ¬ packet.length < rules.minLen)
    (now : Option UInt64) (hint : Option UInt32) {cred : Credential} {opened : Opened}
    (hcred : cred ∈ credentials) (hopen : openFor c kind packet cred = some opened) :
    decryptSelected c kind rules (UserIndex.new c credentials) packet hint now =
        readRequest c now opened ↔
      selectCredential (UserIndex.new c credentials) hint = some cred := by
  rw [decryptSelected, if_neg hlong]
  rcases hsel : selectCredential (UserIndex.new c credentials) hint with - | cred'
  · rw [credentials_eq_nil_of_select hsel] at hcred
    cases hcred
  · simp only [Option.some.injEq]
    constructor
    · intro heq
      rcases hopen' : openFor c kind packet cred' with - | opened'
      · rw [hopen'] at heq
        exact absurd heq.symm (readRequest_ne_tagFailed (hrules ▸ rules_family kind))
      · exact h.distinct.eq_of_key (selectCredential_mem hsel) hcred
          (h.oneKey.udp kind packet cred' (selectCredential_mem hsel) cred hcred
            (by simp [hopen']) (by simp [hopen]))
    · rintro rfl
      rw [hopen]

/-- Two hints get the same answer exactly if the packet opens with none of the
users they choose, or they choose the same. -/
theorem decryptSelected_eq_iff {method : Method} {kind : Cipher2022} {rules : PacketRules}
    (hrules : rules = if kind = .chacha20Poly1305 then chachaRules else singleRules)
    (h : Users c method credentials) {hint hint' : Option UInt32} :
    decryptSelected c kind rules (UserIndex.new c credentials) packet hint now =
        decryptSelected c kind rules (UserIndex.new c credentials) packet hint' now ↔
      ∀ cred ∈ credentials, (openFor c kind packet cred).isSome = true →
        (selectCredential (UserIndex.new c credentials) hint = some cred ↔
          selectCredential (UserIndex.new c credentials) hint' = some cred) := by
  by_cases hshort : packet.length < rules.minLen
  · simp only [decryptSelected, if_pos hshort, openFor_eq_none_of_short hrules hshort]
    simp
  constructor
  · intro heq cred hcred hsome
    obtain ⟨opened, hopen⟩ := Option.isSome_iff_exists.mp hsome
    rw [← decryptSelected_eq_readRequest_iff hrules h hshort now hint hcred hopen,
      ← decryptSelected_eq_readRequest_iff hrules h hshort now hint' hcred hopen, heq]
  · intro hall
    rcases hsel : selectCredential (UserIndex.new c credentials) hint with - | cred
    · have hnil := credentials_eq_nil_of_select hsel
      have hsel' : selectCredential (UserIndex.new c credentials) hint' = none := by
        simp [selectCredential, hnil, UserIndex.new]
      simp only [decryptSelected, hsel, hsel']
    · have hmem : cred ∈ credentials := selectCredential_mem hsel
      rcases hsel' : selectCredential (UserIndex.new c credentials) hint' with - | cred'
      · rw [credentials_eq_nil_of_select hsel'] at hmem
        cases hmem
      · have hmem' : cred' ∈ credentials := selectCredential_mem hsel'
        rw [hsel, hsel'] at hall
        simp only [Option.some.injEq] at hall
        rcases hopen : openFor c kind packet cred with - | opened
        · rcases hopen' : openFor c kind packet cred' with - | opened'
          · simp only [decryptSelected, hsel, hsel', hopen, hopen']
          · obtain rfl := (hall cred' hmem' (by simp [hopen'])).mpr rfl
            simp only [decryptSelected, hsel, hsel']
        · obtain rfl := (hall cred hmem (by simp [hopen])).mp rfl
          simp only [decryptSelected, hsel, hsel']

/-! ### The answer to a datagram -/

/-- **The hint and a datagram**: two hints get the same answer exactly if the
user under whose key it opens is tried with both or with none. -/
theorem decryptUdpWithCache_eq_iff {method : Method} (serverKey : Option (List UInt8))
    (h : Users c method credentials) (hint hint' : Option UInt32) :
    decryptUdpWithCache c method serverKey (UserIndex.new c credentials) packet hint now saltFresh =
        decryptUdpWithCache c method serverKey (UserIndex.new c credentials) packet hint' now
          saltFresh ↔
      ∀ cred ∈ credentials, opensUdp c method packet cred = true →
        (Tried method serverKey (UserIndex.new c credentials) hint cred ↔
          Tried method serverKey (UserIndex.new c credentials) hint' cred) := by
  cases method with
  | none => simp [decryptUdpWithCache, Tried, choosesFirst]
  | legacy kind =>
      simp [decryptUdpWithCache, Tried, choosesFirst, decryptLegacy_eq h]
  | aead2022 kind =>
      simp only [decryptUdpWithCache, decrypt2022, opensUdp]
      by_cases hkind : kind = .chacha20Poly1305
      · simp only [Tried, choosesFirst, hkind, decide_true, Bool.true_or, if_true, forall_const]
        exact decryptSelected_eq_iff rfl h
      · simp only [if_neg hkind]
        rcases serverKey with - | headerKey
        · simp only [Tried, choosesFirst, Option.isNone_none, Bool.or_true, forall_const]
          exact decryptSelected_eq_iff (if_neg hkind).symm h
        · simp [Tried, choosesFirst, hkind]

/-! ### What a client sends -/

structure ClientRequest where
  sessionId : UInt64
  packetId : UInt64
  timestamp : UInt64
  padding : List UInt8
  addressBytes : List UInt8
  address : Address
  payload : List UInt8

namespace ClientRequest

/-- What a method without a body header carries. -/
def plain (r : ClientRequest) : List UInt8 := r.addressBytes ++ r.payload

def header (r : ClientRequest) : List UInt8 :=
  toBeBytes 8 r.sessionId.toNat ++ toBeBytes 8 r.packetId.toNat

def body (r : ClientRequest) : List UInt8 :=
  0 :: (toBeBytes 8 r.timestamp.toNat ++ (toBeBytes 2 r.padding.length ++ (r.padding ++ r.plain)))

/-- The address is one, the padding has a length that can be written, and the
time is within the tolerance. -/
structure Valid (c : Crypto) (now : UInt64) (r : ClientRequest) : Prop where
  address : c.readAddress r.plain = some (r.address, r.addressBytes.length)
  /-- An address has a type and a port. -/
  address_len : 3 ≤ r.addressBytes.length
  padding : r.padding.length < 2 ^ 16
  timely : absDiff now.toNat r.timestamp.toNat ≤ maxTimestampSkewSecs

/-- What the server is to make of it. -/
def datagram (r : ClientRequest) (method : Method) (cred : Credential) : Datagram :=
  if method.isAead2022 then ⟨cred, r.address, r.payload, r.sessionId, r.packetId⟩
  else ⟨cred, r.address, r.payload, 0, 0⟩

end ClientRequest

/-- The packet is the request as a client with the key of the user makes it. -/
inductive Produced (c : Crypto) (saltFresh : List UInt8 → Bool) (cred : Credential)
    (r : ClientRequest) : Method → Option (List UInt8) → List UInt8 → Prop where
  | none {serverKey : Option (List UInt8)} : Produced c saltFresh cred r .none serverKey r.plain
  | legacy {serverKey : Option (List UInt8)} {kind : CipherKind} {salt sealed : List UInt8}
      (hsalt : salt.length = kind.saltLen) (hfresh : saltFresh salt = true)
      (hlen : sealed.length = r.plain.length + 16)
      (hsealed : c.aeadOpen kind (c.hkdfSha1 cred.key salt kind.keyLen) 0 sealed = some r.plain) :
      Produced c saltFresh cred r (.legacy kind) serverKey (salt ++ sealed)
  | chacha {serverKey : Option (List UInt8)} {nonce sealed : List UInt8}
      (hnonce : nonce.length = 24) (hlen : sealed.length = (r.header ++ r.body).length + 16)
      (hsealed : c.udpOpen .chacha20Poly1305 cred.key 0 nonce sealed = some (r.header ++ r.body)) :
      Produced c saltFresh cred r (.aead2022 .chacha20Poly1305) serverKey (nonce ++ sealed)
  | single {kind : Cipher2022} {block sealed : List UInt8} (hkind : kind ≠ .chacha20Poly1305)
      (hblock : block.length = 16) (hheader : c.aesDecrypt cred.key block = r.header)
      (hlen : sealed.length = r.body.length + 16)
      (hsealed : c.udpOpen kind cred.key r.sessionId (bytesAt r.header 4 12) sealed =
        some r.body) :
      Produced c saltFresh cred r (.aead2022 kind) none (block ++ sealed)
  | multi {kind : Cipher2022} {serverKey block identity sealed : List UInt8}
      (hkind : kind ≠ .chacha20Poly1305) (hblock : block.length = 16)
      (hheader : c.aesDecrypt serverKey block = r.header) (hidentity : identity.length = 16)
      (hmasked : List.zipWith (· ^^^ ·) (c.aesDecrypt serverKey identity) r.header =
        (c.blake3 cred.key).take 16)
      (hlen : sealed.length = r.body.length + 16)
      (hsealed : c.udpOpen kind cred.key r.sessionId (bytesAt r.header 4 12) sealed =
        some r.body) :
      Produced c saltFresh cred r (.aead2022 kind) (some serverKey) (block ++ (identity ++ sealed))

namespace ClientRequest

variable {r : ClientRequest}

theorem length_header (r : ClientRequest) : r.header.length = 16 := by
  simp [header, length_toBeBytes]

theorem length_body (r : ClientRequest) : r.body.length = 11 + r.padding.length + r.plain.length := by
  simp [body, length_toBeBytes]
  omega

theorem sessionId_header (r : ClientRequest) (rest : List UInt8) :
    u64At (r.header ++ rest) 0 = r.sessionId := by
  rw [header, List.append_assoc, ← List.nil_append (toBeBytes 8 _ ++ _),
    u64At_append _ List.length_nil]

theorem packetId_header (r : ClientRequest) (rest : List UInt8) :
    u64At (r.header ++ rest) 8 = r.packetId := by
  rw [header, List.append_assoc, u64At_append _ (length_toBeBytes 8 _)]

/-- The server reads what the client wrote. -/
theorem readRequest_body {clock : UInt64} (hr : r.Valid c clock) (cred : Credential) :
    readRequest c (some clock) ⟨cred, r.sessionId, r.packetId, r.body⟩ =
      .ok ⟨cred, r.address, r.payload, r.sessionId, r.packetId⟩ := by
  have htime : u64At r.body 1 = r.timestamp := by
    rw [body, ← List.singleton_append, u64At_append _ (List.length_singleton)]
  have hpad : (u16At r.body 9).toNat = r.padding.length := by
    have hbody : r.body = (0 :: toBeBytes 8 r.timestamp.toNat) ++
        (toBeBytes 2 (UInt16.ofNat r.padding.length).toNat ++ (r.padding ++ r.plain)) := by
      rw [UInt16.toNat_ofNat_of_lt' hr.padding]
      rfl
    rw [hbody, u16At_append _ (by simp [length_toBeBytes]),
      UInt16.toNat_ofNat_of_lt' hr.padding]
  have hdrop : r.body.drop (11 + r.padding.length) = r.plain := by
    have hbody : r.body = ((0 :: toBeBytes 8 r.timestamp.toNat) ++
        (toBeBytes 2 r.padding.length ++ r.padding)) ++ r.plain := by
      simp [body]
    rw [hbody, List.drop_left' (by simp [length_toBeBytes]; omega)]
  have hpayload : r.body.drop (11 + r.padding.length + r.addressBytes.length) = r.payload := by
    rw [← List.drop_drop, hdrop, plain, List.drop_left' rfl]
  have hlen : ¬ r.body.length < 11 + r.padding.length := by
    rw [length_body]
    omega
  have hkind : ¬ byteAt r.body 0 ≠ 0 := fun hne => hne rfl
  simp only [readRequest, if_neg hkind, Opened.timestamp, htime,
    if_neg (Nat.not_lt.mpr hr.timely), hpad, if_neg hlen, hdrop, hr.address, hpayload]

end ClientRequest

/-! ### Whom a request is attributed to -/

variable {r : ClientRequest} {cred : Credential} {clock : UInt64}

theorem openFor_chacha {nonce sealed : List UInt8} (hnonce : nonce.length = 24)
    (hlong : 16 + 11 + 16 ≤ sealed.length)
    (hsealed : c.udpOpen .chacha20Poly1305 cred.key 0 nonce sealed = some (r.header ++ r.body)) :
    openFor c .chacha20Poly1305 (nonce ++ sealed) cred =
      some ⟨cred, r.sessionId, r.packetId, r.body⟩ := by
  have hlen : ¬ (nonce ++ sealed).length < 24 + 16 + 11 + 16 := by
    rw [List.length_append]
    omega
  rw [openFor, if_pos rfl, openChacha, if_neg hlen, List.take_left' hnonce, List.drop_left' hnonce,
    hsealed, Option.map_some, r.sessionId_header, r.packetId_header,
    List.drop_left' r.length_header]

/-- The body of an AES packet behind the header of the request. -/
theorem openBody_sealed {kind : Cipher2022} {sealed : List UInt8}
    (hsealed : c.udpOpen kind cred.key r.sessionId (bytesAt r.header 4 12) sealed = some r.body) :
    openBody c kind r.header sealed cred = some ⟨cred, r.sessionId, r.packetId, r.body⟩ := by
  have hsession : u64At r.header 0 = r.sessionId := by
    rw [← List.append_nil r.header, r.sessionId_header]
  have hpacket : u64At r.header 8 = r.packetId := by
    rw [← List.append_nil r.header, r.packetId_header]
  simp only [openBody, hsession, hpacket, hsealed, Option.map_some]

theorem openFor_single {kind : Cipher2022} {block sealed : List UInt8}
    (hkind : kind ≠ .chacha20Poly1305) (hblock : block.length = 16)
    (hheader : c.aesDecrypt cred.key block = r.header) (hlong : 11 + 16 ≤ sealed.length)
    (hsealed : c.udpOpen kind cred.key r.sessionId (bytesAt r.header 4 12) sealed = some r.body) :
    openFor c kind (block ++ sealed) cred = some ⟨cred, r.sessionId, r.packetId, r.body⟩ := by
  have hlen : ¬ (block ++ sealed).length < 16 + 11 + 16 := by
    rw [List.length_append]
    omega
  rw [openFor, if_neg hkind, openSingle, if_neg hlen, List.take_left' hblock,
    List.drop_left' hblock, hheader, openBody_sealed hsealed]

/-- With the method `none` all keys are empty, so there is one user at most. -/
theorem Users.eq_singleton_of_none (h : Users c .none credentials) (hcred : cred ∈ credentials) :
    credentials = [cred] := by
  have hkey : ∀ other ∈ credentials, other.key = [] := by
    intro other hother
    have hmade := h.made other hother
    simp only [Credential.new, Except.ok.injEq] at hmade
    rw [← hmade]
  have hall : ∀ other ∈ credentials, other = cred := by
    intro other hother
    exact h.distinct.eq_of_key hother hcred ((hkey other hother).trans (hkey cred hcred).symm)
  have hone : credentials.length ≤ 1 := by
    have hnd : credentials.Nodup := List.Nodup.of_map _ h.distinct
    rw [List.eq_replicate_of_mem hall] at hnd ⊢
    simpa using List.nodup_replicate.mp hnd
  obtain ⟨other, hother⟩ := List.length_eq_one_iff.mp
    (Nat.le_antisymm hone (List.length_pos_of_mem hcred))
  rw [hother, hall other (by simp [hother])]

/-- **The hint and attribution**: a valid request that was made with the key of
a user is accepted as that user's exactly if that user is tried. -/
theorem decryptUdpWithCache_produced_iff {method : Method} {serverKey : Option (List UInt8)}
    (h : Users c method credentials) (hcred : cred ∈ credentials) (hr : r.Valid c clock)
    (hp : Produced c saltFresh cred r method serverKey packet) (hint : Option UInt32) :
    decryptUdpWithCache c method serverKey (UserIndex.new c credentials) packet hint (some clock)
        saltFresh = .ok (r.datagram method cred) ↔
      Tried method serverKey (UserIndex.new c credentials) hint cred := by
  have hplain : 3 ≤ r.plain.length := by
    have := hr.address_len
    simp only [ClientRequest.plain, List.length_append]
    omega
  have hpayload : r.plain.drop r.addressBytes.length = r.payload := List.drop_left' rfl
  have hread := r.readRequest_body hr cred
  cases hp with
  | none =>
      have hone := h.eq_singleton_of_none hcred
      simp [decryptUdpWithCache, decryptNone, Nat.not_lt.mpr hplain, hr.address, hone,
        UserIndex.new, hpayload, ClientRequest.datagram, Method.isAead2022, Tried, choosesFirst]
  | @legacy _ kind salt sealed hsalt hfresh hlen hsealed =>
      have hlong : ¬ (salt ++ sealed).length < kind.saltLen + 16 := by
        rw [List.length_append]
        omega
      have htry : tryLegacy c kind saltFresh (salt ++ sealed) cred =
          some (.ok (r.datagram (.legacy kind) cred)) := by
        simp [tryLegacy, openLegacy, readLegacy, List.take_left' hsalt, List.drop_left' hsalt,
          hsealed, hr.address, hfresh, hpayload, ClientRequest.datagram, Method.isAead2022]
      have hfound := (Search.findSome?_eq_some_iff_exists (h.atMostOne_legacy kind _ saltFresh)).mpr
        ⟨cred, hcred, htry⟩
      simp only [decryptUdpWithCache, decryptLegacy_eq h, if_neg hlong, hfound, Option.getD_some]
      simp [Tried, choosesFirst]
  | @chacha _ nonce sealed hnonce hlen hsealed =>
      rw [List.length_append, r.length_header, r.length_body] at hlen
      have hlong : ¬ (nonce ++ sealed).length < chachaRules.minLen := by
        simp only [List.length_append, chachaRules]
        omega
      have hopen := openFor_chacha hnonce (by omega) hsealed
      have hiff := decryptSelected_eq_readRequest_iff rfl h hlong (some clock) hint hcred hopen
      rw [hread] at hiff
      simpa [decryptUdpWithCache, decrypt2022, Tried, choosesFirst, ClientRequest.datagram,
        Method.isAead2022] using hiff
  | @single kind block sealed hkind hblock hheader hlen hsealed =>
      rw [r.length_body] at hlen
      have hlong : ¬ (block ++ sealed).length < singleRules.minLen := by
        simp only [List.length_append, singleRules]
        omega
      have hopen := openFor_single hkind hblock hheader (by omega) hsealed
      have hiff := decryptSelected_eq_readRequest_iff (if_neg hkind).symm h hlong (some clock) hint hcred
        hopen
      rw [hread] at hiff
      simpa [decryptUdpWithCache, decrypt2022, hkind, Tried, choosesFirst, ClientRequest.datagram,
        Method.isAead2022] using hiff
  | @multi kind serverKey block identity sealed hkind hblock hheader hidentity hmasked hlen hsealed =>
      rw [r.length_body] at hlen
      have hlong : ¬ (block ++ (identity ++ sealed)).length < multiRules.minLen := by
        simp only [List.length_append, multiRules]
        omega
      have hget : (UserIndex.new c credentials).identityMap.get ((c.blake3 cred.key).take 16) =
          some cred := by
        refine AssocMap.get_ofPairs_of_mem ?_ (List.mem_map_of_mem hcred)
        rw [List.map_map]
        exact h.hashes
      have hdrop : (block ++ (identity ++ sealed)).drop 32 = sealed := by
        rw [← List.append_assoc, List.drop_left' (by simp [hblock, hidentity])]
      have hmulti : decryptMulti c kind serverKey (UserIndex.new c credentials)
          (block ++ (identity ++ sealed)) (some clock) =
            .ok (r.datagram (.aead2022 kind) cred) := by
        simp only [decryptMulti, if_neg hlong, List.take_left' hblock, List.drop_left' hblock,
          List.take_left' hidentity, hheader, hmasked, hget, hdrop, openBody_sealed hsealed, hread]
        rfl
      simp [decryptUdpWithCache, decrypt2022, hkind, Tried, choosesFirst, hmulti]

end Shadowsocks

end Elise
