/-
Elise/Shadowsocks/Attribution.lean

Whose key a TCP connection with a 2022 method was opened with
(`handshake` of src/protocol/shadowsocks/ss2022.rs).

The header of a request stands behind the salt, or behind an identity header of
sixteen bytes.  In both places it is tried with the keys of the users, and the
user whose key opens it is the one that the connection is attributed to.  Where
none does, it is tried with the server key, and the connection is attributed to
the first user, whose key did not open it: `attributed_iff` says that this is
the only case.
-/
import Elise.Shadowsocks.HintStream

namespace Elise

namespace Shadowsocks

open Net

variable (c : Crypto)

/-! ### The handshake in two steps -/

/-- What follows once the header is open: the clock, the variable header and
the salt. -/
def finish2022 (kind : Cipher2022) (conn : Conn) (key header rest : List UInt8) : Option Address :=
  let salt := conn.bytes.take kind.saltLen
  conn.now.bind fun now =>
    if maxTimestampDiff < absDiff now.toNat (u64At header 1).toNat then none
    else
      let len := (u16At header 9).toNat
      if rest.length < len + 16 then none
      else
        (c.tcpOpen kind key salt 1 (rest.take (len + 16))).bind fun body =>
          (readVariable c (body.take len)).bind fun address =>
            if conn.saltFresh salt then some address else none

/-- The stream has a salt and a header, and there are users. -/
def Opens (kind : Cipher2022) (credentials : List Credential) (conn : Conn) : Prop :=
  ¬ ((conn.bytes.take kind.saltLen).length < kind.saltLen ∨ credentials.isEmpty ∨
    (conn.bytes.drop kind.saltLen).length < 27)

instance (kind : Cipher2022) (credentials : List Credential) (conn : Conn) :
    Decidable (Opens kind credentials conn) :=
  inferInstanceAs (Decidable ¬ _)

variable {c} {kind : Cipher2022} {serverKey : Option (List UInt8)} {credentials : List Credential}
  {conn : Conn} {salt rest : List UInt8}

theorem handshake2022_isSome_iff :
    (handshake2022 c kind serverKey (UserIndex.new c credentials) conn).isSome = true ↔
      Opens kind credentials conn ∧
        ∃ found after, resolve c kind serverKey (UserIndex.new c credentials)
          (conn.bytes.take kind.saltLen) (conn.bytes.drop kind.saltLen) = some (found, after) ∧
            (finish2022 c kind conn found.2.1 found.2.2 after).isSome = true := by
  have hcode : handshake2022 c kind serverKey (UserIndex.new c credentials) conn =
      if Opens kind credentials conn then
        (resolve c kind serverKey (UserIndex.new c credentials) (conn.bytes.take kind.saltLen)
          (conn.bytes.drop kind.saltLen)).bind fun resolved =>
            (finish2022 c kind conn resolved.1.2.1 resolved.1.2.2 resolved.2).map fun address =>
              ⟨resolved.1.1.user, address.host, c.parseIp address.host, address.port⟩
      else none := by
    rw [handshake2022]
    by_cases hopens : Opens kind credentials conn
    · rw [if_pos hopens]
      refine (if_neg hopens).trans ?_
      rcases resolve c kind serverKey (UserIndex.new c credentials)
        (conn.bytes.take kind.saltLen) (conn.bytes.drop kind.saltLen) with - | ⟨found, after⟩
      · rfl
      · simp only [Option.bind_some, finish2022]
        rcases conn.now with - | now
        · rfl
        · simp only [Option.bind_some]
          split
          · rfl
          · split
            · rfl
            · rw [Option.map_bind]
              congr 1
              funext body
              simp only [Function.comp_apply]
              rw [Option.map_bind]
              congr 1
              funext address
              simp only [Function.comp_apply]
              split <;> rfl
    · rw [if_neg hopens]
      exact if_pos (not_not.mp hopens)
  rw [hcode]
  by_cases hopens : Opens kind credentials conn
  · rw [if_pos hopens]
    rcases resolve c kind serverKey (UserIndex.new c credentials) (conn.bytes.take kind.saltLen)
      (conn.bytes.drop kind.saltLen) with - | ⟨found, after⟩
    · simp
    · simp [hopens]
  · simp [hopens]

/-! ### Who opens the header -/

/-- The header that was opened: the bytes before those that follow. -/
def headerBlock (rest after : List UInt8) : List UInt8 :=
  (rest.drop (rest.length - after.length - 27)).take 27

theorem headerBlock_direct (h : 27 ≤ rest.length) : headerBlock rest (rest.drop 27) = rest.take 27 := by
  have hstart : rest.length - (rest.drop 27).length - 27 = 0 := by
    rw [List.length_drop]
    omega
  rw [headerBlock, hstart, List.drop_zero]

theorem headerBlock_identity (h : 43 ≤ rest.length) :
    headerBlock rest (rest.drop 43) = (rest.drop 16).take 27 := by
  have hstart : rest.length - (rest.drop 43).length - 27 = 16 := by
    rw [List.length_drop]
    omega
  rw [headerBlock, hstart]

variable (c kind salt) in
/-- No user's key opens the header. -/
def NoUserOpens (credentials : List Credential) (block : List UInt8) : Prop :=
  ∀ cred ∈ credentials, openHeader c kind salt block cred.key = none

theorem firstOpening_eq_none_iff {block : List UInt8} :
    firstOpening c kind salt block credentials = none ↔
      NoUserOpens c kind salt credentials block := by
  simp [firstOpening, NoUserOpens, List.findSome?_eq_none_iff]

theorem firstOpening_eq_some {block : List UInt8} {found : Credential × List UInt8 × List UInt8}
    (h : firstOpening c kind salt block credentials = some found) :
    found.1 ∈ credentials ∧ found.2.1 = found.1.key ∧
      openHeader c kind salt block found.1.key = some found.2.2 := by
  obtain ⟨cred, hcred, hfound⟩ := List.exists_of_findSome?_eq_some h
  obtain ⟨header, hheader, rfl⟩ := Option.map_eq_some_iff.mp hfound
  exact ⟨hcred, rfl, hheader⟩

theorem identityOpening_eq_some {eih block : List UInt8}
    {found : Credential × List UInt8 × List UInt8}
    (h : identityOpening c kind salt eih block serverKey (UserIndex.new c credentials) =
      some found) :
    found.1 ∈ credentials ∧ found.2.1 = found.1.key ∧
      openHeader c kind salt block found.1.key = some found.2.2 := by
  obtain ⟨skey, -, hskey⟩ := Option.bind_eq_some_iff.mp h
  obtain ⟨cred, hcred, hopen⟩ := Option.bind_eq_some_iff.mp hskey
  obtain ⟨header, hheader, rfl⟩ := Option.map_eq_some_iff.mp hopen
  exact ⟨UserIndex.mem_of_identityMap c hcred, rfl, hheader⟩

variable (c kind salt) in
/-- The server key opens the header at `start`, and no user's key does, there or
in the place that is tried before. -/
structure ServerOpens (credentials : List Credential) (skey rest : List UInt8) (start : Nat)
    (header : List UInt8) : Prop where
  place : start = 0 ∨ start = 16 ∧ NoUserOpens c kind salt credentials (rest.take 27) ∧
    openHeader c kind salt (rest.take 27) skey = none
  fits : start + 27 ≤ rest.length
  noUser : NoUserOpens c kind salt credentials ((rest.drop start).take 27)
  opens : openHeader c kind salt ((rest.drop start).take 27) skey = some header

theorem ServerOpens.headerBlock {skey header : List UInt8} {start : Nat}
    (h : ServerOpens c kind salt credentials skey rest start header) :
    headerBlock rest (rest.drop (start + 27)) = (rest.drop start).take 27 := by
  have hfits := h.fits
  rcases h.place with rfl | ⟨rfl, -, -⟩
  · exact headerBlock_direct hfits
  · exact headerBlock_identity hfits

/-- **Who is found**: a user by the user's own key, or the first user by the
server key. -/
theorem resolve_cases {cred : Credential} {key header after : List UInt8}
    (hlen : 27 ≤ rest.length)
    (h : resolve c kind serverKey (UserIndex.new c credentials) salt rest =
      some ((cred, key, header), after)) :
    (cred ∈ credentials ∧ key = cred.key ∧
      openHeader c kind salt (headerBlock rest after) cred.key = some header) ∨
    ∃ skey start, serverKey = some skey ∧ key = skey ∧ after = rest.drop (start + 27) ∧
      ServerOpens c kind salt credentials skey rest start header := by
  simp only [resolve, UserIndex.new] at h
  split at h
  · rename_i found hfound
    obtain ⟨rfl, rfl⟩ := Prod.mk.injEq .. ▸ Option.some.inj h
    rw [headerBlock_direct hlen]
    rcases Option.or_eq_some_iff.mp hfound with hfirst | ⟨hnone, hserver⟩
    · exact .inl (firstOpening_eq_some hfirst)
    · right
      obtain ⟨skey, rfl, hskey⟩ := Option.bind_eq_some_iff.mp hserver
      obtain ⟨header', hheader, heq⟩ := Option.map_eq_some_iff.mp hskey
      obtain ⟨-, rfl, rfl⟩ := (by simpa using heq : _ ∧ skey = key ∧ header' = header)
      exact ⟨skey, 0, rfl, rfl, rfl, .inl rfl, hlen, firstOpening_eq_none_iff.mp hnone, hheader⟩
  · rename_i hfirst
    split at h
    · cases h
    · rename_i hlong
      obtain ⟨found, hfound, heq⟩ := Option.map_eq_some_iff.mp h
      obtain ⟨rfl, rfl⟩ := Prod.mk.injEq .. ▸ heq
      rw [headerBlock_identity (Nat.le_of_not_lt hlong)]
      obtain ⟨hnone, hnoserver⟩ := Option.or_eq_none_iff.mp hfirst
      rcases Option.or_eq_some_iff.mp hfound with hfound | ⟨hnoneElse, hserver⟩
      · rcases Option.or_eq_some_iff.mp hfound with hidentity | ⟨-, hfirst'⟩
        · exact .inl (identityOpening_eq_some hidentity)
        · exact .inl (firstOpening_eq_some hfirst')
      · right
        obtain ⟨skey, rfl, hskey⟩ := Option.bind_eq_some_iff.mp hserver
        obtain ⟨header', hheader, heq⟩ := Option.map_eq_some_iff.mp hskey
        obtain ⟨-, rfl, rfl⟩ := (by simpa using heq : _ ∧ skey = key ∧ header' = header)
        refine ⟨skey, 16, rfl, rfl, rfl, .inr ⟨rfl, firstOpening_eq_none_iff.mp hnone, ?_⟩,
          Nat.le_of_not_lt hlong, ?_, hheader⟩
        · simpa [serverOpening] using hnoserver
        · exact firstOpening_eq_none_iff.mp (Option.or_eq_none_iff.mp hnoneElse).2

/-- Where only the server key opens the header, the first user is found. -/
theorem ServerOpens.resolve {skey header : List UInt8} {start : Nat}
    (h : ServerOpens c kind salt credentials skey rest start header) :
    ∃ cred, resolve c kind (some skey) (UserIndex.new c credentials) salt rest =
      some ((cred, skey, header), rest.drop (start + 27)) := by
  have hserver : ∀ {block : List UInt8}, openHeader c kind salt block skey = some header →
      serverOpening c kind salt block (some skey) credentials =
        some (credentials.head?.getD ⟨.default, skey, List.replicate 16 0⟩, skey, header) := by
    intro block hblock
    simp [serverOpening, hblock]
  refine ⟨credentials.head?.getD ⟨.default, skey, List.replicate 16 0⟩, ?_⟩
  rcases h.place with rfl | ⟨rfl, hfirst, hskey⟩
  · have hnone := firstOpening_eq_none_iff.mpr h.noUser
    have hopens := hserver h.opens
    rw [List.drop_zero] at hnone hopens
    simp only [Shadowsocks.resolve, UserIndex.new, hnone, hopens, Option.none_or]
  · have hnoneDirect := firstOpening_eq_none_iff.mpr hfirst
    have hnoserver : serverOpening c kind salt (rest.take 27) (some skey) credentials = none := by
      simp [serverOpening, hskey]
    have hnoidentity : identityOpening c kind salt (rest.take 16) ((rest.drop 16).take 27)
        (some skey) (UserIndex.new c credentials) = none := by
      rcases hidentity : identityOpening c kind salt (rest.take 16) ((rest.drop 16).take 27)
        (some skey) (UserIndex.new c credentials) with - | found
      · rfl
      · obtain ⟨hmem, -, hopen⟩ := identityOpening_eq_some hidentity
        rw [h.noUser found.1 hmem] at hopen
        cases hopen
    have hnone := firstOpening_eq_none_iff.mpr h.noUser
    have hopens := hserver h.opens
    have hlong : ¬ rest.length < 43 := Nat.not_lt.mpr h.fits
    rw [UserIndex.new] at hnoidentity
    simp only [Shadowsocks.resolve, UserIndex.new, hnoneDirect, hnoserver, Option.or_none,
      if_neg hlong, hnoidentity, hnone, hopens, Option.none_or, Option.map_some]

/-! ### Attribution -/

variable (c kind) in
/-- **Authenticated encryption**: a header opens under one user's key at most. -/
def OneStreamKey (credentials : List Credential) : Prop :=
  ∀ salt block, ∀ cred ∈ credentials, ∀ other ∈ credentials,
    (openHeader c kind salt block cred.key).isSome = true →
      (openHeader c kind salt block other.key).isSome = true → cred.key = other.key

variable (c kind serverKey credentials conn) in
/-- An accepted connection is attributed to the user whose key opens the header,
and to no other. -/
def AttributedBySeal : Prop :=
  ∀ cred key header after,
    resolve c kind serverKey (UserIndex.new c credentials) (conn.bytes.take kind.saltLen)
      (conn.bytes.drop kind.saltLen) = some ((cred, key, header), after) →
    (handshake2022 c kind serverKey (UserIndex.new c credentials) conn).isSome = true →
    let block := headerBlock (conn.bytes.drop kind.saltLen) after
    let salt := conn.bytes.take kind.saltLen
    cred ∈ credentials ∧ (openHeader c kind salt block cred.key).isSome = true ∧
      ∀ other ∈ credentials, (openHeader c kind salt block other.key).isSome = true → other = cred

variable (c kind serverKey credentials conn) in
/-- The stream is a complete request, in time and with a new salt, whose header
opens under the server key and under no user's. -/
def SealedByServer : Prop :=
  Opens kind credentials conn ∧ ∃ skey start header, serverKey = some skey ∧
    ServerOpens c kind (conn.bytes.take kind.saltLen) credentials skey
      (conn.bytes.drop kind.saltLen) start header ∧
    (finish2022 c kind conn skey header
      ((conn.bytes.drop kind.saltLen).drop (start + 27))).isSome = true

/-- **Attribution follows the seal**, exactly if the stream is not a request that
only the server key opens. -/
theorem attributed_iff (hdistinct : DistinctKeys credentials)
    (hauth : OneStreamKey c kind credentials) :
    AttributedBySeal c kind serverKey credentials conn ↔
      ¬ SealedByServer c kind serverKey credentials conn := by
  constructor
  · rintro hattr ⟨hopens, skey, start, header, rfl, hserver, hfinish⟩
    obtain ⟨cred, hresolve⟩ := hserver.resolve
    obtain ⟨hmem, hown, -⟩ := hattr cred skey header _ hresolve
      (handshake2022_isSome_iff.mpr ⟨hopens, _, _, hresolve, hfinish⟩)
    rw [hserver.headerBlock, hserver.noUser cred hmem] at hown
    cases hown
  · intro hnot cred key header after hresolve haccepted
    obtain ⟨hopens, found, after', hresolve', hfinish⟩ := handshake2022_isSome_iff.mp haccepted
    obtain ⟨rfl, rfl⟩ := Prod.mk.injEq .. ▸ Option.some.inj (hresolve'.symm.trans hresolve)
    have hlen : 27 ≤ (conn.bytes.drop kind.saltLen).length := by
      rw [Opens] at hopens
      omega
    rcases resolve_cases hlen hresolve with ⟨hmem, -, hown⟩ |
      ⟨skey, start, hkey, rfl, rfl, hserver⟩
    · refine ⟨hmem, by rw [hown]; rfl, ?_⟩
      intro other hother hopen
      exact hdistinct.eq_of_key hother hmem
        (hauth _ _ other hother cred hmem hopen (by rw [hown]; rfl))
    · exact absurd ⟨hopens, _, start, header, hkey, hserver, hfinish⟩ hnot

/-! ### Two streams -/

def panelKey : List UInt8 := [32, 33, 34, 35, 36, 37, 38, 39, 40, 41, 42, 43, 44, 45, 46, 47]

/-- A stream before and after it is sealed: the fixed and the variable header. -/
structure SealedStream where
  key : List UInt8
  salt : List UInt8
  sealedFixed : List UInt8
  sealedVariable : List UInt8

def SealedStream.bytes (s : SealedStream) : List UInt8 :=
  s.salt ++ (s.sealedFixed ++ s.sealedVariable)

/-- Made at second 1700000000, with a variable header of twelve bytes. -/
def fixedHeader : List UInt8 := [0, 0, 0, 0, 0, 101, 83, 241, 0, 0, 12]

/-- 192.0.2.10, port 80, no padding and the payload `GET`. -/
def variableHeader : List UInt8 := [1, 192, 0, 2, 10, 0, 80, 0, 0, 71, 69, 84]

/-- Both headers under the server key. -/
def serverStream : SealedStream where
  key := panelKey
  salt := [64, 65, 66, 67, 68, 69, 70, 71, 72, 73, 74, 75, 76, 77, 78, 79]
  sealedFixed :=
    [241, 58, 150, 151, 26, 45, 114, 137, 166, 32, 149, 223, 56, 60, 180, 227, 227, 162, 38, 190,
      186, 209, 200, 232, 202, 52, 199]
  sealedVariable :=
    [175, 161, 147, 60, 188, 184, 24, 161, 205, 80, 21, 232, 158, 241, 85, 82, 155, 20, 103, 15,
      44, 26, 171, 55, 146, 206, 255, 215]

/-- Both headers under the key of the second user. -/
def bobsStream : SealedStream where
  key := bobKey
  salt := [80, 81, 82, 83, 84, 85, 86, 87, 88, 89, 90, 91, 92, 93, 94, 95]
  sealedFixed :=
    [228, 33, 67, 29, 67, 114, 181, 255, 88, 3, 140, 9, 90, 144, 203, 177, 74, 2, 102, 41, 26, 185,
      9, 3, 38, 56, 41]
  sealedVariable :=
    [157, 119, 210, 243, 162, 155, 18, 197, 93, 244, 216, 214, 202, 56, 250, 91, 38, 211, 255, 167,
      217, 76, 181, 59, 78, 16, 169, 111]

/-- The ciphers on the two streams. -/
def twoStreams : Crypto :=
  { twoUsers with
    tcpOpen := fun kind key salt counter data =>
      if kind ≠ .aes128Gcm then none
      else
        ([serverStream, bobsStream].find? fun s => s.key = key ∧ s.salt = salt).bind fun s =>
          if counter = 0 ∧ data = s.sealedFixed then some fixedHeader
          else if counter = 1 ∧ data = s.sealedVariable then some variableHeader
          else none }

theorem twoStreams_opens {salt block : List UInt8} {cred : Credential}
    (hcred : cred ∈ [alice, bob])
    (h : (openHeader twoStreams .aes128Gcm salt block cred.key).isSome = true) : cred = bob := by
  rcases List.mem_pair.mp hcred with rfl | rfl
  · have hnone : ([serverStream, bobsStream].find? fun s => s.key = alice.key ∧ s.salt = salt) =
        none := by
      rw [List.find?_eq_none]
      intro s hs
      rcases List.mem_pair.mp hs with rfl | rfl <;> simp [alice, serverStream, bobsStream,
        panelKey, bobKey, sampleKey]
    have hclosed : twoStreams.tcpOpen .aes128Gcm alice.key salt 0 block = none := by
      simp only [twoStreams, hnone, Option.bind_none, ite_self]
    rw [openHeader, hclosed] at h
    cases h
  · rfl

theorem oneStreamKey_alice_bob : OneStreamKey twoStreams .aes128Gcm [alice, bob] := by
  intro salt block cred hcred other hother hopen hopen'
  rw [twoStreams_opens hcred hopen, twoStreams_opens hother hopen']

/-- At second 1700000000, with a filter that has seen nothing. -/
def arriving (s : SealedStream) : Conn := ⟨s.bytes, some 1700000000, none, fun _ => true⟩

/-- The stream of the second user is attributed to that user. -/
theorem bobsStream_attributed :
    AttributedBySeal twoStreams .aes128Gcm (some panelKey) [alice, bob] (arriving bobsStream) := by
  refine (attributed_iff (by decide) oneStreamKey_alice_bob).mpr ?_
  rintro ⟨-, skey, start, header, hkey, hserver, -⟩
  have hbob : openHeader twoStreams .aes128Gcm bobsStream.salt bobsStream.sealedFixed bob.key =
      some fixedHeader := by decide
  rcases hserver.place with rfl | ⟨rfl, hnone, -⟩
  · exact absurd ((hserver.noUser bob (by simp)).symm.trans hbob) (by simp)
  · exact absurd ((hnone bob (by simp)).symm.trans hbob) (by simp)

/-- A stream that was sealed with the server key alone passes as the first
user's. -/
theorem serverStream_passes :
    DistinctKeys [alice, bob] ∧ OneStreamKey twoStreams .aes128Gcm [alice, bob] ∧
    ((handshake twoStreams (.aead2022 .aes128Gcm) (some panelKey)
      (UserIndex.new twoStreams [alice, bob]) (arriving serverStream)).map (·.user) =
        some alice.user) ∧
    ¬ AttributedBySeal twoStreams .aes128Gcm (some panelKey) [alice, bob]
      (arriving serverStream) := by
  have haccepted : (handshake twoStreams (.aead2022 .aes128Gcm) (some panelKey)
      (UserIndex.new twoStreams [alice, bob]) (arriving serverStream)).map (·.user) =
        some alice.user := rfl
  refine ⟨by decide, oneStreamKey_alice_bob, haccepted, ?_⟩
  intro hattr
  obtain ⟨-, hown, -⟩ := hattr alice panelKey fixedHeader serverStream.sealedVariable rfl rfl
  exact absurd hown (by decide)

end Shadowsocks

end Elise
