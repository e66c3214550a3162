/-
Elise/Shadowsocks/HintStream.lean

What the user last seen at an address changes for a TCP connection with a method
before 2022, and for both transports together.

The search of `handle_stream` tries the first credential with the id of the
hint, and then those with another id.  Under unique openings it is the search
for the user whose request the stream is (`legacyRequest`), among those that it
gets to.
-/
import Elise.Shadowsocks.Hint

namespace Elise

namespace Shadowsocks

open Net

variable (c : Crypto)

/-! ### The search -/

/-- The credential has the id of the hint. -/
def hinted (hint : Option UInt32) (cred : Credential) : Bool := some cred.user.id = hint

/-- The trial of one credential with the first block. -/
def tryStream (kind : CipherKind) (salt block : List UInt8) (cred : Credential) :
    Option (Credential × Nat) :=
  (tryLength c kind salt block cred).map fun len => (cred, len)

theorem legacySearch_eq (kind : CipherKind) (credentials : List Credential) (conn : Conn)
    (salt block : List UInt8) :
    (fastPath c kind credentials conn salt block).or (slowPath c kind credentials conn salt block) =
      (Search.hintedFirst (tryStream c kind salt block) (hinted conn.cachedUser)
        credentials).filter fun _ => conn.saltFresh salt := by
  have hfast : fastPath c kind credentials conn salt block =
      ((credentials.find? (hinted conn.cachedUser)).bind (tryStream c kind salt block)).filter
        fun _ => conn.saltFresh salt := by
    rcases hcached : conn.cachedUser with - | uid
    · have hnone : credentials.find? (hinted none) = none := by
        rw [List.find?_eq_none]
        intro cred _
        simp [hinted]
      rw [fastPath, hcached, hnone]
      rfl
    · have hfind : hinted (some uid) = fun cred : Credential => decide (cred.user.id = uid) := by
        funext cred
        simp [hinted]
      rw [fastPath, hcached, Option.bind_some, hfind]
      rcases credentials.find? _ with - | cred
      · rfl
      · simp only [Option.bind_some, tryStream]
        rcases tryLength c kind salt block cred with - | len
        · rfl
        · simp [Option.filter_some]
  have hothers : (fun cred : Credential => decide (some cred.user.id ≠ conn.cachedUser)) =
      fun cred => !hinted conn.cachedUser cred := by
    funext cred
    simp [hinted]
  rw [hfast, slowPath, hothers, Search.hintedFirst]
  rcases hfresh : conn.saltFresh salt with - | -
  · simp
  · have hall : ∀ {α : Type} (o : Option α), (o.filter fun _ => true) = o := by
      intro α o
      cases o <;> rfl
    simp only [hall]
    rfl

/-! ### The request of one user -/

/-- The stream has a salt and a first block. -/
def hasBlock (kind : CipherKind) (conn : Conn) : Prop :=
  ¬ ((conn.bytes.take kind.saltLen).length < kind.saltLen ∨
    (conn.bytes.drop kind.saltLen).length < 18)

instance (kind : CipherKind) (conn : Conn) : Decidable (hasBlock kind conn) :=
  inferInstanceAs (Decidable ¬ _)

/-- The trial of one credential with the stream. -/
def tryConn (kind : CipherKind) (conn : Conn) (cred : Credential) : Option (Credential × Nat) :=
  tryStream c kind (conn.bytes.take kind.saltLen) ((conn.bytes.drop kind.saltLen).take 18) cred

/-- What follows once the user is found. -/
def finishLegacy (kind : CipherKind) (conn : Conn) (found : Credential × Nat) : Option Passed :=
  let salt := conn.bytes.take kind.saltLen
  let rest := conn.bytes.drop kind.saltLen
  let subkey := c.hkdfSha1 found.1.key salt kind.keyLen
  let plain := decodeFrames c kind subkey conn.bytes.length 1 (some found.2) (rest.drop 18)
  (readTarget plain).map fun (host, ip, port) => ⟨found.1.user, host, ip, port⟩

/-- What the stream says as a request of the user, if its salt is new. -/
def legacyRequest (kind : CipherKind) (conn : Conn) (cred : Credential) : Option Passed :=
  if hasBlock kind conn ∧ conn.saltFresh (conn.bytes.take kind.saltLen) then
    (tryConn c kind conn cred).bind (finishLegacy c kind conn)
  else none

variable {c} {credentials : List Credential} {kind : CipherKind}

theorem tryLength_opens {salt block : List UInt8} {cred : Credential}
    (h : (tryLength c kind salt block cred).isSome = true) :
    (c.aeadOpen kind (c.hkdfSha1 cred.key salt kind.keyLen) 0 block).isSome = true := by
  obtain ⟨len, hlen⟩ := Option.isSome_iff_exists.mp h
  obtain ⟨plain, hplain, -⟩ := Option.bind_eq_some_iff.mp hlen
  rw [openFrame] at hplain
  split at hplain
  · cases hplain
  · rw [Nat.zero_mod] at hplain
    rw [hplain]
    rfl

theorem Users.atMostOne_tryConn {method : Method} (h : Users c method credentials)
    (kind : CipherKind) (conn : Conn) : Search.AtMostOne (tryConn c kind conn) credentials := by
  intro cred hcred cred' hcred' hsome hsome'
  rw [tryConn, tryStream, Option.isSome_map] at hsome hsome'
  exact h.distinct.eq_of_key hcred hcred' (h.oneKey.legacy kind _ _ cred hcred cred' hcred'
    (tryLength_opens hsome) (tryLength_opens hsome'))

theorem legacyRequest_eq_some {conn : Conn} {cred : Credential} {passed : Passed} :
    legacyRequest c kind conn cred = some passed ↔
      (hasBlock kind conn ∧ conn.saltFresh (conn.bytes.take kind.saltLen) = true) ∧
        ∃ found, tryConn c kind conn cred = some found ∧
          finishLegacy c kind conn found = some passed := by
  rw [legacyRequest, Option.ite_none_right_eq_some, Option.bind_eq_some_iff]

theorem Users.atMostOne_legacyRequest {method : Method} (h : Users c method credentials)
    (kind : CipherKind) (conn : Conn) :
    Search.AtMostOne (legacyRequest c kind conn) credentials := by
  have htried : ∀ {cred}, (legacyRequest c kind conn cred).isSome = true →
      (tryConn c kind conn cred).isSome = true := by
    intro cred hsome
    obtain ⟨passed, hpassed⟩ := Option.isSome_iff_exists.mp hsome
    obtain ⟨-, found, hfound, -⟩ := legacyRequest_eq_some.mp hpassed
    rw [hfound]
    rfl
  intro cred hcred cred' hcred' hsome hsome'
  exact h.atMostOne_tryConn kind conn cred hcred cred' hcred' (htried hsome) (htried hsome')

/-- **The search is for the owner of the request**, among those it gets to. -/
theorem handshakeLegacy_eq {method : Method} (h : Users c method credentials) (conn : Conn) :
    handshakeLegacy c kind (UserIndex.new c credentials) conn =
      Search.hintedFirst (legacyRequest c kind conn) (hinted conn.cachedUser) credentials := by
  have hcode : handshakeLegacy c kind (UserIndex.new c credentials) conn =
      if hasBlock kind conn then
        ((Search.hintedFirst (tryConn c kind conn) (hinted conn.cachedUser) credentials).filter
          fun _ => conn.saltFresh (conn.bytes.take kind.saltLen)).bind (finishLegacy c kind conn)
      else none := by
    rw [handshakeLegacy]
    simp only [UserIndex.new, legacySearch_eq]
    by_cases hblock : hasBlock kind conn
    · rw [if_neg hblock, if_pos hblock]
      rfl
    · rw [if_neg hblock, if_pos (not_not.mp hblock)]
  apply Option.ext
  intro passed
  rw [hcode, Search.hintedFirst_eq_some_iff (h.atMostOne_legacyRequest kind conn),
    Option.ite_none_right_eq_some, Option.bind_eq_some_iff]
  simp only [Option.filter_eq_some_iff, legacyRequest_eq_some,
    Search.hintedFirst_eq_some_iff (h.atMostOne_tryConn kind conn)]
  constructor
  · rintro ⟨hblock, found, ⟨⟨cred, hcred, hreached, hfound⟩, hfresh⟩, hfinish⟩
    exact ⟨cred, hcred, hreached, ⟨hblock, hfresh⟩, found, hfound, hfinish⟩
  · rintro ⟨cred, hcred, hreached, ⟨hblock, hfresh⟩, found, hfound, hfinish⟩
    exact ⟨hblock, found, ⟨⟨cred, hcred, hreached, hfound⟩, hfresh⟩, hfinish⟩

/-- **The hint and a stream**: two hints let in the same user, or none, exactly
if the owner of the request is reached with both or with none. -/
theorem handshakeLegacy_user_eq_iff {method : Method} (h : Users c method credentials)
    (conn : Conn) (hint hint' : Option UInt32) :
    (handshakeLegacy c kind (UserIndex.new c credentials)
        { conn with cachedUser := hint }).map (·.user) =
      (handshakeLegacy c kind (UserIndex.new c credentials)
        { conn with cachedUser := hint' }).map (·.user) ↔
      ∀ cred ∈ credentials, (legacyRequest c kind conn cred).isSome = true →
        (Search.Reached (hinted hint) credentials cred ↔
          Search.Reached (hinted hint') credentials cred) := by
  have hone := h.atMostOne_legacyRequest kind conn
  rw [← Search.hintedFirst_eq_iff hone, handshakeLegacy_eq h, handshakeLegacy_eq h]
  show (Search.hintedFirst (legacyRequest c kind conn) (hinted hint) credentials).map _ =
    (Search.hintedFirst (legacyRequest c kind conn) (hinted hint') credentials).map _ ↔ _
  constructor
  · intro heq
    rcases hfound : Search.hintedFirst (legacyRequest c kind conn) (hinted hint) credentials
      with - | passed
    · rw [hfound] at heq
      exact (Option.map_eq_none_iff.mp heq.symm).symm
    · rcases hfound' : Search.hintedFirst (legacyRequest c kind conn) (hinted hint') credentials
        with - | passed'
      · rw [hfound, hfound'] at heq
        cases heq
      · -- both find the one user whose request it is
        obtain ⟨cred, hcred, -, hpassed⟩ := (Search.hintedFirst_eq_some_iff hone).mp hfound
        obtain ⟨cred', hcred', -, hpassed'⟩ := (Search.hintedFirst_eq_some_iff hone).mp hfound'
        obtain rfl := hone cred hcred cred' hcred' (by simp [hpassed]) (by simp [hpassed'])
        rw [← hpassed, hpassed']
  · intro heq
    rw [heq]

/-! ### A salt is accepted once -/

/-- A connection as it is handled: the users and the hint of that moment. -/
structure Stream where
  credentials : List Credential
  hint : Option UInt32
  bytes : List UInt8

inductive StreamEvent where
  | stream (s : Stream)
  /-- A datagram, or another connection that failed later, marks its salt. -/
  | mark (salt : List UInt8)

variable (c kind)

/-- The connection against the salts marked so far. -/
def Stream.conn (seen : List (List UInt8)) (s : Stream) : Conn :=
  ⟨s.bytes, none, s.hint, fun salt => !seen.contains salt⟩

def Stream.salt (s : Stream) : List UInt8 := s.bytes.take kind.saltLen

/-- `check_nonce_replay` is asked as soon as a credential opens the first block. -/
def Stream.checked (seen : List (List UInt8)) (s : Stream) : Bool :=
  (Search.hintedFirst (tryConn c kind (s.conn seen)) (hinted s.hint) s.credentials).isSome

/-- The salts of the connections that are accepted, in order. -/
def acceptedSalts : (seen : List (List UInt8)) → List StreamEvent → List (List UInt8)
  | _, [] => []
  | seen, .mark salt :: es => acceptedSalts (salt :: seen) es
  | seen, .stream s :: es =>
      let accepted :=
        (handshakeLegacy c kind (UserIndex.new c s.credentials) (s.conn seen)).isSome
      let seen' := if s.checked c kind seen then s.salt kind :: seen else seen
      (if accepted then [s.salt kind] else []) ++ acceptedSalts seen' es

variable {c kind}

/-- An accepted connection had a salt that was not marked, and has marked it. -/
theorem Stream.salt_new {seen : List (List UInt8)} {s : Stream}
    (h : (handshakeLegacy c kind (UserIndex.new c s.credentials) (s.conn seen)).isSome = true) :
    s.salt kind ∉ seen ∧ s.checked c kind seen = true := by
  obtain ⟨passed, hpassed⟩ := Option.isSome_iff_exists.mp h
  rw [handshakeLegacy] at hpassed
  simp only at hpassed
  split at hpassed
  · cases hpassed
  · obtain ⟨found, hfound, -⟩ := Option.bind_eq_some_iff.mp hpassed
    rw [UserIndex.new, legacySearch_eq, Option.filter_eq_some_iff] at hfound
    obtain ⟨hfound, hfresh⟩ := hfound
    refine ⟨?_, ?_⟩
    · have hnot : (!seen.contains (s.salt kind)) = true := hfresh
      simpa using hnot
    · exact Option.isSome_iff_exists.mpr ⟨found, hfound⟩

/-- **No salt is accepted twice**, whatever was marked before, whatever the
users and the hints. -/
theorem acceptedSalts_nodup (seen : List (List UInt8)) (es : List StreamEvent) :
    (acceptedSalts c kind seen es).Nodup ∧ ∀ salt ∈ acceptedSalts c kind seen es, salt ∉ seen := by
  -- on the events: what is marked now is refused by all that follows
  induction es generalizing seen with
  | nil => simp [acceptedSalts]
  | cons e es ih =>
      cases e with
      | mark salt =>
          obtain ⟨hnd, hnew⟩ := ih (salt :: seen)
          exact ⟨hnd, fun other hother hseen => hnew other hother (List.mem_cons_of_mem _ hseen)⟩
      | stream s =>
          rw [acceptedSalts]
          rcases haccepted : (handshakeLegacy c kind (UserIndex.new c s.credentials)
            (s.conn seen)).isSome with - | -
          · simp only [Bool.false_eq_true, if_false, List.nil_append]
            obtain ⟨hnd, hnew⟩ := ih (if s.checked c kind seen then s.salt kind :: seen else seen)
            refine ⟨hnd, ?_⟩
            intro salt hsalt hseen
            refine hnew salt hsalt ?_
            split
            · exact List.mem_cons_of_mem _ hseen
            · exact hseen
          · obtain ⟨hfresh, hchecked⟩ := Stream.salt_new haccepted
            obtain ⟨hnd, hnew⟩ := ih (s.salt kind :: seen)
            simp only [if_true, hchecked, List.singleton_append, List.nodup_cons,
              List.mem_cons, forall_eq_or_imp]
            refine ⟨⟨?_, hnd⟩, hfresh, ?_⟩
            · exact fun hagain => hnew _ hagain List.mem_cons_self
            · exact fun salt hsalt hseen => hnew salt hsalt (List.mem_cons_of_mem _ hseen)

/-! ### Both transports -/

/-- **The hint decides only who is tried.**  A datagram is answered alike for two
hints, and a request accepted as its user's, exactly if the user under whose key
it opens is tried; a stream is attributed alike exactly if the owner of the
request is reached by both searches or by none; and a salt that was accepted is
not accepted again. -/
theorem hint_independent_iff {method : Method} (serverKey : Option (List UInt8))
    (h : Users c method credentials) :
    (∀ packet now saltFresh hint hint',
      decryptUdpWithCache c method serverKey (UserIndex.new c credentials) packet hint now
          saltFresh =
        decryptUdpWithCache c method serverKey (UserIndex.new c credentials) packet hint' now
          saltFresh ↔
        ∀ cred ∈ credentials, opensUdp c method packet cred = true →
          (Tried method serverKey (UserIndex.new c credentials) hint cred ↔
            Tried method serverKey (UserIndex.new c credentials) hint' cred)) ∧
    (∀ cred ∈ credentials, ∀ r packet clock saltFresh hint, ClientRequest.Valid c clock r →
      Produced c saltFresh cred r method serverKey packet →
        (decryptUdpWithCache c method serverKey (UserIndex.new c credentials) packet hint
            (some clock) saltFresh = .ok (r.datagram method cred) ↔
          Tried method serverKey (UserIndex.new c credentials) hint cred)) ∧
    (∀ kind, method = .legacy kind → ∀ conn hint hint',
      (handshake c method serverKey (UserIndex.new c credentials)
          { conn with cachedUser := hint }).map (·.user) =
        (handshake c method serverKey (UserIndex.new c credentials)
          { conn with cachedUser := hint' }).map (·.user) ↔
        ∀ cred ∈ credentials, (legacyRequest c kind conn cred).isSome = true →
          (Search.Reached (hinted hint) credentials cred ↔
            Search.Reached (hinted hint') credentials cred)) ∧
    (∀ kind seen es, (acceptedSalts c kind seen es).Nodup ∧
      ∀ salt ∈ acceptedSalts c kind seen es, salt ∉ seen) := by
  refine ⟨?_, ?_, ?_, ?_⟩
  · intro packet now saltFresh hint hint'
    exact decryptUdpWithCache_eq_iff serverKey h hint hint'
  · intro cred hcred r packet clock saltFresh hint hr hp
    exact decryptUdpWithCache_produced_iff h hcred hr hp hint
  · rintro kind rfl conn hint hint'
    exact handshakeLegacy_user_eq_iff h conn hint hint'
  · intro kind seen es
    exact acceptedSalts_nodup seen es

/-! ### Two users behind one address -/

def bobKey : List UInt8 := [16, 17, 18, 19, 20, 21, 22, 23, 24, 25, 26, 27, 28, 29, 30, 31]

/-- Made at second 1700000000, for 192.0.2.10 and port 53. -/
def bobsRequest : ClientRequest where
  sessionId := 7
  packetId := 0
  timestamp := 1700000000
  padding := []
  addressBytes := [1, 192, 0, 2, 10, 0, 53]
  address := ⟨"192.0.2.10".toList, 53⟩
  payload := [104, 105]

/-- The header under the key of the user. -/
def bobsBlock : List UInt8 := [61, 123, 227, 235, 88, 174, 0, 191, 20, 129, 220, 114, 90, 9, 239, 236]

def bobsSealed : List UInt8 :=
  [155, 220, 0, 188, 96, 228, 140, 114, 92, 175, 143, 137, 100, 174, 132, 33, 82, 93, 113, 72,
    12, 212, 49, 82, 101, 208, 48, 167, 110, 18, 156, 228, 234, 216, 218, 127]

/-- The ciphers on the packet under the keys of two users. -/
def twoUsers : Crypto where
  md5 _ := []
  blake3 := digestOf
    [(sampleKey,
      [166, 164, 146, 150, 85, 23, 168, 48, 203, 117, 253, 183, 19, 70, 90, 164,
        101, 242, 240, 152, 35, 56, 150, 254, 164, 76, 29, 152, 38, 139, 249, 227]),
     (bobKey,
      [234, 95, 241, 148, 64, 94, 206, 79, 85, 174, 122, 21, 12, 82, 56, 132,
        22, 70, 167, 59, 200, 109, 101, 153, 73, 167, 114, 189, 205, 26, 205, 226])]
  hkdfSha1 _ _ _ := []
  deriveIdentity _ := []
  aesDecrypt key block :=
    if block ≠ bobsBlock then []
    else if key = bobKey then bobsRequest.header
    else if key = sampleKey then
      [164, 149, 66, 142, 225, 68, 81, 183, 146, 121, 167, 214, 211, 207, 236, 169]
    else []
  aeadOpen _ _ _ _ := none
  tcpOpen _ _ _ _ _ := none
  udpOpen kind key session nonce data :=
    if kind = .aes128Gcm ∧ key = bobKey ∧ session = 7 ∧
        nonce = bytesAt bobsRequest.header 4 12 ∧ data = bobsSealed then
      some bobsRequest.body
    else none
  isUuid _ := false
  base64 := fun text =>
    if text = "AAECAwQFBgcICQoLDA0ODw==".toList then some sampleKey
    else if text = "EBESExQVFhcYGRobHB0eHw==".toList then some bobKey
    else none
  base64Url _ := none
  readAddress
    | 1 :: b₁ :: b₂ :: b₃ :: b₄ :: hi :: lo :: _ =>
        some (⟨(Ipv4Addr.new b₁ b₂ b₃ b₄).chars, u16At [hi, lo] 0⟩, 7)
    | _ => none
  parseIp _ := none

def alice : Credential :=
  ⟨userWith 1 "AAECAwQFBgcICQoLDA0ODw==", sampleKey, (twoUsers.blake3 sampleKey).take 16⟩

def bob : Credential :=
  ⟨userWith 2 "EBESExQVFhcYGRobHB0eHw==", bobKey, (twoUsers.blake3 bobKey).take 16⟩

theorem twoUsers_opens {kind : Cipher2022} {packet : List UInt8} {cred : Credential}
    (h : (openFor twoUsers kind packet cred).isSome = true) : cred.key = bobKey := by
  have hkey : ∀ {kind key session nonce data plain},
      twoUsers.udpOpen kind key session nonce data = some plain → key = bobKey := by
    intro kind key session nonce data plain hopen
    exact (Option.ite_none_right_eq_some.mp hopen).1.2.1
  obtain ⟨opened, hopen⟩ := Option.isSome_iff_exists.mp h
  rw [openFor] at hopen
  split at hopen
  · obtain ⟨-, hopen⟩ := Option.ite_none_left_eq_some.mp hopen
    obtain ⟨plain, hplain, -⟩ := Option.map_eq_some_iff.mp hopen
    exact hkey hplain
  · obtain ⟨-, hopen⟩ := Option.ite_none_left_eq_some.mp hopen
    obtain ⟨plain, hplain, -⟩ := Option.map_eq_some_iff.mp hopen
    exact hkey hplain

theorem users_alice_bob : Users twoUsers (.aead2022 .aes128Gcm) [alice, bob] where
  made cred hcred := by
    rcases List.mem_pair.mp hcred with rfl | rfl
    · rfl
    · rfl
  distinct := by decide
  hashes := by decide
  oneKey :=
    { legacy := by
        intro kind salt data cred _ cred' _ hopen
        cases hopen
      udp := by
        intro kind packet cred _ cred' _ hopen hopen'
        rw [twoUsers_opens hopen, twoUsers_opens hopen'] }

theorem bobsRequest_valid : bobsRequest.Valid twoUsers 1700000000 where
  address := by decide
  address_len := by decide
  padding := by decide
  timely := by decide

theorem bobsRequest_produced (saltFresh : List UInt8 → Bool) :
    Produced twoUsers saltFresh bob bobsRequest (.aead2022 .aes128Gcm) none
      (bobsBlock ++ bobsSealed) :=
  .single (by decide) (by decide) (by decide) (by decide) (by decide)

/-- With the hint of the user, the packet is accepted as the user's. -/
theorem hint_of_bob :
    decryptUdpWithCache twoUsers (.aead2022 .aes128Gcm) none (UserIndex.new twoUsers [alice, bob])
        (bobsBlock ++ bobsSealed) (some 2) (some 1700000000) (fun _ => true) =
      .ok (bobsRequest.datagram (.aead2022 .aes128Gcm) bob) :=
  ((hint_independent_iff none users_alice_bob).2.1 bob (by simp) bobsRequest _ 1700000000
    (fun _ => true) (some 2) bobsRequest_valid (bobsRequest_produced _)).mpr (by decide)

/-- Without a hint, or with that of the other user, the same packet is refused. -/
theorem hint_decides :
    Users twoUsers (.aead2022 .aes128Gcm) [alice, bob] ∧
    bobsRequest.Valid twoUsers 1700000000 ∧
    Produced twoUsers (fun _ => true) bob bobsRequest (.aead2022 .aes128Gcm) none
      (bobsBlock ++ bobsSealed) ∧
    decryptUdpWithCache twoUsers (.aead2022 .aes128Gcm) none (UserIndex.new twoUsers [alice, bob])
        (bobsBlock ++ bobsSealed) none (some 1700000000) (fun _ => true) ≠
      decryptUdpWithCache twoUsers (.aead2022 .aes128Gcm) none
        (UserIndex.new twoUsers [alice, bob]) (bobsBlock ++ bobsSealed) (some 2)
        (some 1700000000) (fun _ => true) ∧
    decryptUdpWithCache twoUsers (.aead2022 .aes128Gcm) none (UserIndex.new twoUsers [alice, bob])
        (bobsBlock ++ bobsSealed) none (some 1700000000) (fun _ => true) =
      .error (.invalid "SS2022 UDP body tag verification failed") := by
  have hrefused : decryptUdpWithCache twoUsers (.aead2022 .aes128Gcm) none
      (UserIndex.new twoUsers [alice, bob]) (bobsBlock ++ bobsSealed) none (some 1700000000)
        (fun _ => true) = .error (.invalid "SS2022 UDP body tag verification failed") := rfl
  have haccepted : decryptUdpWithCache twoUsers (.aead2022 .aes128Gcm) none
      (UserIndex.new twoUsers [alice, bob]) (bobsBlock ++ bobsSealed) (some 2) (some 1700000000)
        (fun _ => true) = .ok (bobsRequest.datagram (.aead2022 .aes128Gcm) bob) :=
    (decryptUdpWithCache_produced_iff users_alice_bob (by simp) bobsRequest_valid
      (bobsRequest_produced _) (some 2)).mpr (by decide)
  refine ⟨users_alice_bob, bobsRequest_valid, bobsRequest_produced _, ?_, hrefused⟩
  rw [hrefused, haccepted]
  intro heq
  cases heq

end Shadowsocks

end Elise
