/-
Elise/Mieru/Users.lean

To which user of Mieru a session belongs (src/protocol/mieru/crypto.rs).

The metadata of a session is sealed under a key made of the credential of its user and of the
time, rounded to two minutes.  The server tries the keys of all users for three times, those
first to which a hint in the nonce fits, and keeps the keys that it has made.  What it finds does
not depend on the keys that are kept (`tryDecryptMetadata_eq`), and the hint only says where
to look first.
-/
import Elise.Lib.Search
import Elise.Mieru.Frame
import Elise.Panel.Client

namespace Elise

namespace Mieru

open Net Text

/-- SHA-256 and HMAC-SHA-256 (crates `sha2` and `hmac`). -/
structure Hashes where
  sha256 : List UInt8 → List UInt8
  hmac : (key data : List UInt8) → List UInt8

def keyRefreshIntervalSecs : Int := 120

def pbkdf2Rounds : Nat := 64

variable (h : Hashes) (c : XChaCha)

def hashPassword (rawPassword username : List UInt8) : List UInt8 := h.sha256 (rawPassword ++ 0x00 :: username)

/-- The salt for a time on the grid. -/
def saltAt (t : Int) : List UInt8 := h.sha256 (toBeBytes 8 (t % 2 ^ 64).toNat)

/-- The nearest time on the grid. -/
def rounded (nowSec : Int) : Int :=
  let interval := keyRefreshIntervalSecs
  (nowSec + interval.tdiv 2).tdiv interval * interval

def saltsFromTime (nowSec : Int) : List (List UInt8) :=
  let interval := keyRefreshIntervalSecs
  [rounded nowSec - interval, rounded nowSec, rounded nowSec + interval].map (saltAt h)

-- unification would run all rounds
@[irreducible] def pbkdf2Sha256_32 (hashedPassword salt : List UInt8) (rounds : Nat) : List UInt8 :=
  let u := h.hmac hashedPassword (salt ++ toBeBytes 4 1)
  ((List.range (rounds - 1)).foldl
    (fun (key, u) _ =>
      let u := h.hmac hashedPassword u
      (List.zipWith (· ^^^ ·) key u, u)) (u, u)).1

def computeUserHint (username : List Char) (noncePrefix : List UInt8) : List UInt8 :=
  (h.sha256 (toUtf8 username ++ noncePrefix)).take 4

def checkUserHint (username : List Char) (nonce : List UInt8) : Bool :=
  if username.isEmpty || 32 < (toUtf8 username).length then false
  else computeUserHint h username (nonce.take 16) = bytesAt nonce 20 4

/-! ### The index of the users -/

structure MieruUser where
  panelUser : PanelUser
  username : List Char
  hashedPassword : List UInt8
  deriving DecidableEq

/-- The password that the panel gives, or else the UUID. -/
def credential (user : PanelUser) : List Char :=
  (user.password.filter fun v => !v.isEmpty).getD user.uuid

def MieruUser.fromPanelUser (user : PanelUser) : MieruUser :=
  let username := credential user
  ⟨user, username, hashPassword h (toUtf8 username) (toUtf8 username)⟩

structure MieruUserIndex where
  users : List MieruUser
  cachedKeys : AssocMap (UInt32 × List UInt8) (List UInt8)

namespace MieruUserIndex

def new (panelUsers : List PanelUser) : MieruUserIndex := ⟨panelUsers.map (MieruUser.fromPanelUser h), ∅⟩

def getDerivedKey (index : MieruUserIndex) (user : MieruUser) (salt : List UInt8) :
    List UInt8 × MieruUserIndex :=
  let keyTuple := (user.panelUser.id, salt)
  match index.cachedKeys.get keyTuple with
  | some key => (key, index)
  | none =>
      let derived := pbkdf2Sha256_32 h user.hashedPassword salt pbkdf2Rounds
      (derived, { index with cachedKeys := index.cachedKeys.insert keyTuple derived })

/-- Who sent it, the key, and what was sealed. -/
abbrev Found := MieruUser × List UInt8 × List UInt8

section Trial

variable (message nonce : List UInt8)

/-- The loop over the salts. -/
def trySalts (user : MieruUser) : (salts : List (List UInt8)) → MieruUserIndex → Option Found × MieruUserIndex
  | [], index => (none, index)
  | salt :: salts, index =>
      let (key, index) := index.getDerivedKey h user salt
      match c.decrypt key nonce (message.take 32) (bytesAt message 32 16) with
      | some buf => (some (user, key, buf), index)
      | none => trySalts user salts index

/-- The loop over the users, of which some are passed over. -/
def tryUsers (eligible : MieruUser → Bool) (salts : List (List UInt8)) :
    (users : List MieruUser) → MieruUserIndex → Option Found × MieruUserIndex
  | [], index => (none, index)
  | user :: users, index =>
      if eligible user then
        match trySalts h c message nonce user salts index with
        | (some found, index) => (some found, index)
        | (none, index) => tryUsers eligible salts users index
      else tryUsers eligible salts users index

/-- The second loop alone: all users, without hints. -/
def trial (index : MieruUserIndex) (nowSec : Int) : Option Found × MieruUserIndex :=
  tryUsers h c message nonce (fun _ => true) (saltsFromTime h nowSec) index.users index

def tryDecryptMetadata (index : MieruUserIndex) (nowSec : Int) : Option Found × MieruUserIndex :=
  if message.length < 48 then (none, index)
  else
    match tryUsers h c message nonce (fun user => checkUserHint h user.username nonce) (saltsFromTime h nowSec)
      index.users index with
    | (some found, index) => (some found, index)
    | (none, index) => trial h c message nonce index nowSec

end Trial

/-! ### Caches -/

/-- The key that a credential has at a time on the grid. -/
def userKey (user : PanelUser) (t : Int) : List UInt8 :=
  pbkdf2Sha256_32 h (MieruUser.fromPanelUser h user).hashedPassword (saltAt h t) pbkdf2Rounds

/-- A key for each user and salt. -/
def derive (user : MieruUser) (salt : List UInt8) : List UInt8 :=
  pbkdf2Sha256_32 h user.hashedPassword salt pbkdf2Rounds

/-- The keys that are kept are those that would be made. -/
structure Sound (users : List MieruUser) (index : MieruUserIndex) : Prop where
  users_eq : index.users = users
  ids : (users.map fun user => user.panelUser.id).Nodup
  kept : ∀ user ∈ users, ∀ salt key,
    index.cachedKeys.get (user.panelUser.id, salt) = some key → key = derive h user salt

variable {h c} {users : List MieruUser} {index : MieruUserIndex} {user : MieruUser}
variable {message nonce : List UInt8}

theorem sound_new {panelUsers : List PanelUser} (hids : (panelUsers.map fun user => user.id).Nodup) :
    Sound h (panelUsers.map (MieruUser.fromPanelUser h)) (new h panelUsers) := by
  refine ⟨rfl, ?_, ?_⟩
  · rw [List.map_map]
    exact hids
  · intro user _ salt key hkey
    cases hkey

/-- Two users with one id are one user. -/
theorem Sound.eq_of_id (hs : Sound h users index) {v : MieruUser} (hu : user ∈ users) (hv : v ∈ users)
    (hid : user.panelUser.id = v.panelUser.id) : user = v :=
  List.inj_on_of_nodup_map hs.ids hu hv hid

theorem Sound.keep (hs : Sound h users index) (hu : user ∈ users) {salt : List UInt8} :
    Sound h users
      { index with cachedKeys := index.cachedKeys.insert (user.panelUser.id, salt) (derive h user salt) } := by
  refine ⟨hs.users_eq, hs.ids, ?_⟩
  intro v hv salt' key hget
  rcases AssocMap.get_insert_eq_some hget with ⟨hsame, rfl⟩ | ⟨-, hold⟩
  · obtain ⟨hid, rfl⟩ := Prod.mk.inj hsame
    rw [hs.eq_of_id hv hu hid]
  · exact hs.kept v hv salt' key hold

theorem getDerivedKey_sound (hs : Sound h users index) (hu : user ∈ users) (salt : List UInt8) :
    (index.getDerivedKey h user salt).1 = derive h user salt ∧
      Sound h users (index.getDerivedKey h user salt).2 := by
  rcases hkey : index.cachedKeys.get (user.panelUser.id, salt) with - | key
  · have hmiss : index.getDerivedKey h user salt = (derive h user salt,
        { index with cachedKeys := index.cachedKeys.insert (user.panelUser.id, salt) (derive h user salt) }) := by
      rw [getDerivedKey, hkey, derive]
    rw [hmiss]
    exact ⟨rfl, hs.keep hu⟩
  · have hhit : index.getDerivedKey h user salt = (key, index) := by
      rw [getDerivedKey, hkey]
    rw [hhit]
    exact ⟨hs.kept user hu salt key hkey, hs⟩

variable (h c message nonce) in
/-- What a user's keys open, whatever keys are kept. -/
def opens (salts : List (List UInt8)) (user : MieruUser) : Option Found :=
  salts.findSome? fun salt =>
    (c.decrypt (derive h user salt) nonce (message.take 32) (bytesAt message 32 16)).map fun buf =>
      (user, derive h user salt, buf)

variable (c message nonce) in
theorem trySalts_sound (hu : user ∈ users) (salts : List (List UInt8)) (hs : Sound h users index) :
    (trySalts h c message nonce user salts index).1 = opens h c message nonce salts user ∧
      Sound h users (trySalts h c message nonce user salts index).2 := by
  induction salts generalizing index with
  | nil => exact ⟨rfl, hs⟩
  | cons salt salts ih =>
      obtain ⟨hkey, hs'⟩ := getDerivedKey_sound hs hu salt
      rw [trySalts, opens, List.findSome?_cons]
      rcases hget : index.getDerivedKey h user salt with ⟨key, index'⟩
      rw [hget] at hkey hs'
      subst hkey
      rcases hopen : c.decrypt (derive h user salt) nonce (message.take 32) (bytesAt message 32 16) with - | buf
      · simp only [hopen]
        exact ih hs'
      · simp only [hopen]
        exact ⟨rfl, hs'⟩

variable (c message nonce) in
theorem tryUsers_sound (eligible : MieruUser → Bool) (salts : List (List UInt8)) {l : List MieruUser}
    (hl : l ⊆ users) (hs : Sound h users index) :
    (tryUsers h c message nonce eligible salts l index).1 =
        (l.filter eligible).findSome? (opens h c message nonce salts) ∧
      Sound h users (tryUsers h c message nonce eligible salts l index).2 := by
  induction l generalizing index with
  | nil => exact ⟨rfl, hs⟩
  | cons user l ih =>
      have hu : user ∈ users := hl List.mem_cons_self
      have hrest : l ⊆ users := fun v hv => hl (List.mem_cons_of_mem _ hv)
      rcases he : eligible user with - | -
      · rw [tryUsers, List.filter_cons, he]
        exact ih hrest hs
      · obtain ⟨hopens, hs'⟩ := trySalts_sound c message nonce hu salts hs
        rw [tryUsers, List.filter_cons, he, if_pos rfl, if_pos rfl, List.findSome?_cons, ← hopens]
        rcases htry : trySalts h c message nonce user salts index with ⟨- | found, index'⟩
        · rw [htry] at hs'
          exact ih hrest hs'
        · rw [htry] at hs'
          exact ⟨rfl, hs'⟩

theorem trial_sound (nowSec : Int) (hs : Sound h users index) :
    (trial h c message nonce index nowSec).1 = users.findSome? (opens h c message nonce (saltsFromTime h nowSec)) ∧
      Sound h users (trial h c message nonce index nowSec).2 := by
  have htry := tryUsers_sound c message nonce (fun _ => true)
    (saltsFromTime h nowSec) (List.Subset.refl users) hs
  rw [List.filter_true] at htry
  rw [trial, hs.users_eq]
  exact htry

/-- The result without the keys that are kept. -/
theorem tryDecryptMetadata_eq (nowSec : Int) (hs : Sound h users index) :
    (tryDecryptMetadata h c message nonce index nowSec).1 =
        (if message.length < 48 then none
          else Search.hintedAgain (opens h c message nonce (saltsFromTime h nowSec))
            (fun user => checkUserHint h user.username nonce) users) ∧
      Sound h users (tryDecryptMetadata h c message nonce index nowSec).2 := by
  rw [tryDecryptMetadata]
  split
  · exact ⟨rfl, hs⟩
  · obtain ⟨hfirst, hs'⟩ := tryUsers_sound c message nonce
      (fun user => checkUserHint h user.username nonce) (saltsFromTime h nowSec) (List.Subset.refl users) hs
    rw [hs.users_eq, Search.hintedAgain, ← hfirst]
    rcases htry : tryUsers h c message nonce (fun user => checkUserHint h user.username nonce)
      (saltsFromTime h nowSec) users index with ⟨- | found, index'⟩
    · rw [htry] at hs'
      rw [Option.none_or]
      exact trial_sound nowSec hs'
    · rw [htry] at hs'
      exact ⟨rfl, hs'⟩

variable (h c) in
/-- What calls make of a new index. -/
inductive Reached (panelUsers : List PanelUser) : MieruUserIndex → Prop
  | new : Reached panelUsers (new h panelUsers)
  | call {index : MieruUserIndex} (message nonce : List UInt8) (nowSec : Int) (hr : Reached panelUsers index) :
      Reached panelUsers (tryDecryptMetadata h c message nonce index nowSec).2

theorem Reached.sound {panelUsers : List PanelUser} (hids : (panelUsers.map fun user => user.id).Nodup)
    (hr : Reached h c panelUsers index) : Sound h (panelUsers.map (MieruUser.fromPanelUser h)) index := by
  induction hr with
  | new => exact sound_new hids
  | call message nonce nowSec _ ih => exact (tryDecryptMetadata_eq nowSec ih).2

/-! ### Attribution -/

/-- The time of a client is one of the three. -/
theorem saltAt_mem {client server : Int} (hclient : 0 ≤ client) (hserver : 0 ≤ server)
    (hskew : |client - server| ≤ 120) : saltAt h (rounded client) ∈ saltsFromTime h server := by
  have hdiv : ∀ t : Int, 0 ≤ t → rounded t = (t + 60) / 120 * 120 := by
    intro t ht
    show (t + Int.tdiv 120 2).tdiv 120 * 120 = _
    rw [show Int.tdiv 120 2 = 60 from rfl, Int.tdiv_eq_ediv_of_nonneg (by omega)]
  have hgrid : rounded client ∈ [rounded server - 120, rounded server, rounded server + 120] := by
    obtain ⟨hlow, hhigh⟩ := abs_le.mp hskew
    rw [hdiv client hclient, hdiv server hserver]
    simp only [List.mem_cons, List.not_mem_nil, or_false]
    omega
  exact List.mem_map_of_mem hgrid

variable (c) in
/-- A text that opens under one key only, the one that sealed it. -/
def SealedUnder (key nonce plain message : List UInt8) : Prop :=
  ∀ key', c.decrypt key' nonce (message.take 32) (bytesAt message 32 16) = if key' = key then some plain else none

variable (h) in
/-- Users with different credentials have different keys, whatever the times. -/
def KeysApart (panelUsers : List PanelUser) : Prop :=
  ∀ u ∈ panelUsers, ∀ v ∈ panelUsers, credential u ≠ credential v →
    ∀ t t', userKey h u t ≠ userKey h v t'

theorem opens_sealed {key plain : List UInt8} (hsealed : SealedUnder c key nonce plain message)
    (salts : List (List UInt8)) (user : MieruUser) :
    opens h c message nonce salts user =
      if key ∈ salts.map (derive h user) then some (user, key, plain) else none := by
  induction salts with
  | nil => rfl
  | cons salt salts ih =>
      rw [opens, List.findSome?_cons, hsealed (derive h user salt), List.map_cons]
      by_cases hkey : derive h user salt = key
      · rw [if_pos hkey, if_pos (by rw [hkey]; exact List.mem_cons_self), hkey]
        rfl
      · have hmem : key ∈ derive h user salt :: salts.map (derive h user) ↔ key ∈ salts.map (derive h user) := by
          rw [List.mem_cons, or_iff_right (fun hk => hkey hk.symm)]
        rw [if_neg hkey]
        simp only [hmem]
        exact ih

/-- A key of a user for the time of the server. -/
theorem exists_userKey {v : PanelUser} {nowSec : Int} {key : List UInt8}
    (hkey : key ∈ (saltsFromTime h nowSec).map (derive h (MieruUser.fromPanelUser h v))) :
    ∃ t, userKey h v t = key := by
  obtain ⟨salt, hsalt, rfl⟩ := List.mem_map.mp hkey
  obtain ⟨t, -, rfl⟩ := List.mem_map.mp hsalt
  exact ⟨t, rfl⟩

section Sealed

variable {panelUsers : List PanelUser} {key plain : List UInt8} {u : PanelUser} {server : Int}

/-- Nobody but the user opens what was sealed under a key of the user. -/
theorem atMostOne_opens (hcred : (panelUsers.map credential).Nodup) (hapart : KeysApart h panelUsers)
    (hu : u ∈ panelUsers) {t : Int} (hsealed : SealedUnder c (userKey h u t) nonce plain message) :
    Search.AtMostOne (opens h c message nonce (saltsFromTime h server))
      (panelUsers.map (MieruUser.fromPanelUser h)) := by
  have honly : ∀ v ∈ panelUsers,
      (opens h c message nonce (saltsFromTime h server) (MieruUser.fromPanelUser h v)).isSome = true → v = u := by
    intro v hv hsome
    rw [opens_sealed hsealed] at hsome
    split at hsome
    · rename_i hkey
      obtain ⟨t', ht'⟩ := exists_userKey hkey
      by_contra hne
      refine hapart v hv u hu ?_ t' t ht'
      intro hsame
      exact hne (List.inj_on_of_nodup_map hcred hv hu hsame)
    · cases hsome
  intro a ha b hb hasome hbsome
  obtain ⟨v, hv, rfl⟩ := List.mem_map.mp ha
  obtain ⟨w, hw, rfl⟩ := List.mem_map.mp hb
  rw [honly v hv hasome, honly w hw hbsome]

/-- A trial of all users finds the one who sealed it. -/
theorem findSome?_opens (hcred : (panelUsers.map credential).Nodup) (hapart : KeysApart h panelUsers)
    (hu : u ∈ panelUsers) {client : Int} (hclient : 0 ≤ client) (hserver : 0 ≤ server)
    (hskew : |client - server| ≤ 120)
    (hsealed : SealedUnder c (userKey h u (rounded client)) nonce plain message) :
    (panelUsers.map (MieruUser.fromPanelUser h)).findSome? (opens h c message nonce (saltsFromTime h server)) =
      some (MieruUser.fromPanelUser h u, userKey h u (rounded client), plain) := by
  rw [Search.findSome?_eq_some_iff_exists (atMostOne_opens hcred hapart hu hsealed)]
  refine ⟨_, List.mem_map_of_mem hu, ?_⟩
  rw [opens_sealed hsealed, if_pos]
  exact List.mem_map_of_mem (saltAt_mem hclient hserver hskew)

/-- What no user's key sealed opens for nobody. -/
theorem opens_foreign (hkey : ∀ u ∈ panelUsers, ∀ t, userKey h u t ≠ key)
    (hsealed : SealedUnder c key nonce plain message) :
    ∀ v ∈ panelUsers.map (MieruUser.fromPanelUser h),
      opens h c message nonce (saltsFromTime h server) v = none := by
  intro v hv
  obtain ⟨u, hu, rfl⟩ := List.mem_map.mp hv
  rw [opens_sealed hsealed, if_neg]
  intro hmem
  obtain ⟨t, ht⟩ := exists_userKey hmem
  exact hkey u hu t ht

end Sealed

/-- A session belongs to the user who sealed its metadata, whatever the skew of the clocks up to
two minutes, the hint in the nonce and the keys that earlier sessions left; nobody else gets in. -/
theorem tryDecryptMetadata_attributes {panelUsers : List PanelUser}
    (hids : (panelUsers.map fun user => user.id).Nodup) (hcred : (panelUsers.map credential).Nodup)
    (hapart : KeysApart h panelUsers) (hr : Reached h c panelUsers index) :
    (∀ u ∈ panelUsers, ∀ (client server : Int) (message nonce plain : List UInt8),
        0 ≤ client → 0 ≤ server → |client - server| ≤ 120 → 48 ≤ message.length →
        SealedUnder c (userKey h u (rounded client)) nonce plain message →
        (tryDecryptMetadata h c message nonce index server).1 =
            some (MieruUser.fromPanelUser h u, userKey h u (rounded client), plain) ∧
          (tryDecryptMetadata h c message nonce index server).1 = (trial h c message nonce index server).1) ∧
      (∀ (index' : MieruUserIndex) (message nonce : List UInt8) (server : Int), Reached h c panelUsers index' →
        (tryDecryptMetadata h c message nonce index server).1 =
          (tryDecryptMetadata h c message nonce index' server).1) ∧
      ∀ (key message nonce plain : List UInt8) (server : Int),
        (∀ u ∈ panelUsers, ∀ t, userKey h u t ≠ key) → SealedUnder c key nonce plain message →
        (tryDecryptMetadata h c message nonce index server).1 = none := by
  have hs := hr.sound hids
  refine ⟨?_, ?_, ?_⟩
  · intro u hu client server message nonce plain hclient hserver hskew hlen hsealed
    have hfound := findSome?_opens hcred hapart hu hclient hserver hskew hsealed
    rw [(tryDecryptMetadata_eq server hs).1, if_neg (by omega),
      Search.hintedAgain_eq (atMostOne_opens hcred hapart hu hsealed), (trial_sound server hs).1]
    exact ⟨hfound, rfl⟩
  · intro index' message nonce server hr'
    rw [(tryDecryptMetadata_eq server hs).1, (tryDecryptMetadata_eq server (hr'.sound hids)).1]
  · intro key message nonce plain server hkey hsealed
    have hnone := @opens_foreign h c message nonce panelUsers key plain server hkey hsealed
    rw [(tryDecryptMetadata_eq server hs).1, Search.hintedAgain,
      List.findSome?_eq_none_iff.mpr fun v hv => hnone v (List.mem_of_mem_filter hv),
      List.findSome?_eq_none_iff.mpr hnone]
    split <;> rfl

/-! ### A session of one of two users -/

section TwoUsers

def alice : PanelUser := { PanelUser.default with id := 1, uuid := "alice".toList }

def bob : PanelUser := { PanelUser.default with id := 2, uuid := "bob".toList }

def alicePassword : List UInt8 :=
  toBeBytes 32 0x88a5bf19f44998f705915407892fe1fb005655ee408e9322aa772e2c25eee050

def bobPassword : List UInt8 :=
  toBeBytes 32 0xf51a1888512791d2bbcd93d331c4eb972163036653b17add6a99bfb0604c2700

/-- The salt of time 0. -/
def saltZero : List UInt8 :=
  toBeBytes 32 0xaf5570f5a1810b7af78caf4bc70a660f0df51e42baf91d4de5b2328de0e83dfc

/-- The last four bytes are a hint to `alice`. -/
def aliceNonce : List UInt8 :=
  [64, 65, 66, 67, 68, 69, 70, 71, 72, 73, 74, 75, 76, 77, 78, 79,
    80, 81, 82, 83, 47, 247, 238, 81]

/-- The texts that are hashed in the session, with their hashes. -/
def sha256Texts : List (List UInt8 × List UInt8) :=
  [(toUtf8 "alice".toList ++ 0x00 :: toUtf8 "alice".toList, alicePassword),
    (toUtf8 "bob".toList ++ 0x00 :: toUtf8 "bob".toList, bobPassword),
    (toBeBytes 8 0, saltZero),
    (toBeBytes 8 120,
      toBeBytes 32 0xd2b80ebb9ce633ad49a9ccfcc58ac7ad33a9ab4741529ae4247a3b07e8fa1c74),
    (toBeBytes 8 240,
      toBeBytes 32 0x285e15d6744c18b32d58249346ca9ff329982f4577278feb5cf1378d073c1552),
    (toUtf8 "alice".toList ++ aliceNonce.take 16,
      toBeBytes 32 0x2ff7ee514db7f8706c75792d47a2f859d455bcdc28c0f0124b6b3c041ab72e95)]

/-- The key of `alice` for time 0 is made of these texts: the salt with the block number, and the hash
of each is the next. -/
def aliceRounds : List Nat :=
  [0xaf5570f5a1810b7af78caf4bc70a660f0df51e42baf91d4de5b2328de0e83dfc00000001,
    0xbf8cc6b1534366f4955fca700c508f6c8ee5b243d223a655c6704664f73f1faf,
    0x4a01074efd955a18acac15262a26edfa9b425332c69b9cacf0ed0a5f03a38a72,
    0xc4a996ee68c84201acad011fd646cc2522b1858d7c1bc0c2d98e7297bf414ff7,
    0xff34b75568761b0c9ce3148419c23c4f05467449520aa47efa636543bbecd74d,
    0xeea40067bffba548417b523388eb17e0ec4347ddf48c8b7c53da072f5c39ef4e,
    0xa9ccafd99921733ec3fcc6fbda714ef5984eb424a30e4360c5042cc81e66eb1a,
    0x5e6f6721dd82378ee759e2c805d4cbfe2207e2c6c2538c27f5de07b2931c1e03,
    0x4ab4d1fd15c2660bd5de5f7308e516abff2c5a1c65cc26f4643044ad48755677,
    0x76a6a2521e22c71a87a232f0cc752881ae71890f0acb7ccee02c9af9d22010d8,
    0x9ec3928a28304fabc47b0d056e228164deab2eda2ad66def13a22f5dd8af2109,
    0xd1e9e5c11272fb46345d14007ef95f0a48b4af48c76a10922f6717d89d207c27,
    0x394e21ce3884d46ea009656c2596b106333f1864a0c89f7186a8035c26974366,
    0xac1fdd0e8a2e8de9c2733702111166381bee379283d1853c9a8ce08a44567206,
    0xbb286cb06a1e15602bf1bf016aa373349c3022e51593b7da349f0e777a43d23f,
    0x278af61fb7886596d204858d7ddc5bba7c88d20ff5195836866ac7a8fe4b7062,
    0x17e553299af376d6c47ea891282e03f2d9ed15ecbe58bd346e1061a5306f19fe,
    0x1670a6ba4dc97dde6d38b7b1c01201cd722097359aeff2367f45335c790936a2,
    0xec631238d0a3459eaff4e0ea7a8b239221c634ced5efdd2b83f29421d346b123,
    0xaa15ede1ed44eb668aa5b944e7def08547ae3daab34aa78a8a15a3d93a363a19,
    0x3dbcd42fc2ae27b01e1ab644b3b3e261b92702164a6bd672f0ce2825fb6a81f3,
    0x61cbf64ab6b28a3d8c5487e643d72a2b268627724ab9a38325b07152a280f48f,
    0xfdbb2e8d4aa4ba94a6c1e6b8d9c28f43cbcb69a26b5928de1842e1f853c26b2f,
    0x517a4153dbedc156b11c202ca02f3828bf74a84567bddfc826cc6f1c54c5c176,
    0x6dbd271e417dd0ee73bff9605d28b44e24af546f470d8165f7958e59c6193e89,
    0x2517a93a6e80cf40a2d0f8a6a7ea0107c31b0c6d8738cf6e3cfece213aeab52f,
    0xc6432c3d431a7d9c4a72438512238a0133209d6a60889517d6953799411197cc,
    0x5d1b5ef9f16d575a08143c1ef0dc03f16b384ad539daea47581a16a41c1edb98,
    0x7bb4e5cef08090e04ec7233a1cafc7331228f88e3211a1ec9b3ab80dc677caea,
    0x1b3013a2e2bf0e15a6de1d29af6b006726b6355482c8380bf6635a13edaabee5,
    0xfa027a9e2c0ff67f111d9f1991a91e518a31e7799cbcc8f7134237248c8f5016,
    0x03e0d290d0ac759d92789f6436448d33a56092ddb8f84106344819351caf3891,
    0xab2d4148a619c70b287e5ceb725afe2a66fd89954e4f5adb84a5597b35b8d270,
    0x5f5f1585a3750e86374facec86cddcdccff2ac8bc8c4788bc3a1bd9f75e4a515,
    0xc7ada7054c8f49805e26e8e6684c89ee143a5f08399a5dac42301162c1e5c7a4,
    0xc1ded8dc097ec8c59bc8f147763ddcb3673e3156a973296571d51fc9ed329811,
    0xf193ccf250179ed3d7f4fa955f78461baa02bd574d4c094251c7ca6f06a6a1a5,
    0xf95c707b05201c3bf47b7b10ec4324c78ced6b74f17b666ca1b136a87c852db2,
    0xf4fd448551486ee8b3029675a5ba02af8d3b93b4210dcf2b0c0e5337a83143c0,
    0xe3792e9ab4e92d6b72d73b7e45dccd0ba0120922b90709459556cefa2e5fefc7,
    0x4cc900b2cc9da4bd720d76b35b0bf10a8c2147abb8abd1e880857e0d3d6a28ee,
    0x0308e3a0f2ba50a9e8a7022d4e6112d4b5bd924dbe7e3857e9c1a661a39bf81b,
    0x4bc0a7ea82583bcd9fcb3b15c5dbe4ea618878a96afebda16fbe308da4c90d0f,
    0xc72a14ac943511fe486f28fdad4d4aa49cee117b6ae4224e5ecee4bbd9fe2b8c,
    0x0eeb7f986aa24fcd7ee0ea86876369fc91e350692a8637f6df2c6c3aba1a42da,
    0xb88db04cb784edce522a7e51e0d8573323dd7e8191eb74594d8de785994fc3ce,
    0x051b6582eb444a7f4b4a2f1150175dc6963af0ce4b20f79539cbc2b1acd83a7f,
    0x9082ea2bc553078ad64332200a750d9833fda759a5926ab243132523126fcb25,
    0x2236a1a07730e5a1bd1a184eba5eb0c636c7d9b5b1e454c1b7562287a84c960f,
    0xcb8f7a9dd94a604e63de379b1316efc805bd9153fa72896a8826ff7a2ad326da,
    0x135dd5dff74c132de978b00723b193d08978d4da64d39b08e82c69ebe88ae6cf,
    0x378bda4074b956c27c586e1cd1ab8f655c32f0e826c5b0817e339cce096ade20,
    0x48a285934c931357f49fc6742a8f9980c67737e66fcdb7eb4e3359a4cfbce2a4,
    0x8e4691c176b96574a70a405375e45665e07ab9e144b1119d3812dd0cba77e3a1,
    0x06995b3e8a2d2094798da34af1141ebfe09a3d38a3596827aeae67ed90f4b5b4,
    0x8d4d12f6b9f8f6ad7322f8e6ee9d3ad093824bbc5f0cfcfaf532110321b41480,
    0x5e8c51357de98cd597bbed592d84df107758020773a5318628a3114f0e06a402,
    0x05ff97ea6cb116201822408530ea980223fdb7730eac2f16a244bb6500a966dd,
    0xdbe0dbd35865fb6d50f54f90efd645f8d36d3c2b960d73d816cb8907e2cd2dd8,
    0x463f4a8d92eb08586b82dafbca266b6db471b8a2aa97504c356e4fcfdc494fd7,
    0xb6600070149d24b0cca758f51bcd3c2e8de6c8e9f619990219b4225ad7500e01,
    0x26a1da1827b36248ce19a5c16823056a9ff377406813b9aee02fb7cb5d8ffed7,
    0x0612d514f8ef1f74ad9b11690c62c04cc503b74be47f3705e622f71309052c9b,
    0xb5c89d8a7cfdece17c744be96a3f7a3c568a592a0a3ddc910f83f55eebd028b3,
    0x27531788b8ace02bb73037436111cca4b3422432582f92e7dd2be0df91fcf647]

/-- What stands behind a number. -/
def behind (n : Nat) : List Nat → Option Nat
  | a :: b :: l => if a = n then some b else behind n (b :: l)
  | _ => none

/-- The hashes of the session.  Of other texts, a first round gives the password and the later
rounds add nothing, so that no two users' keys meet at any time. -/
def sessionHashes : Hashes where
  sha256 data := ((sha256Texts.find? fun text => text.1 = data).map (·.2)).getD (List.replicate 32 0)
  hmac key data :=
    if key = alicePassword ∧ (behind (ofBeBytes data) aliceRounds).isSome then
      toBeBytes 32 ((behind (ofBeBytes data) aliceRounds).getD 0)
    else if data.length = 36 then key
    else List.replicate 32 0

def aliceKey : List UInt8 :=
  toBeBytes 32 0x1f38194fac7607baa25efe9f17e9ae915925c6047b9ca9c2d18e8ef77c503b2f

/-- A request to open session 7, in minute 0. -/
def openRequest : Sealed where
  key := aliceKey
  nonce := aliceNonce
  buf := [194, 115, 80, 216, 205, 250, 226, 32, 232, 102, 35, 111, 5, 120, 121, 105, 76, 160, 232,
    228, 206, 80, 20, 219, 146, 17, 172, 167, 100, 61, 232, 144]
  tag := [5, 227, 42, 100, 14, 132, 62, 135, 150, 30, 233, 193, 229, 147, 72, 3]
  plain := [2, 0, 0, 0, 0, 0, 0, 0, 0, 7, 0, 0, 0, 0, 0, 0, 0, 0, 0, 0, 0, 0, 0, 0, 0, 0, 0, 0, 0,
    0, 0, 0]

def sessionCipher : XChaCha := xchachaOf [openRequest]

def aliceMessage : List UInt8 := openRequest.buf ++ openRequest.tag

theorem derive_alice_zero :
    derive sessionHashes (MieruUser.fromPanelUser sessionHashes alice) saltZero = aliceKey := by
  decide +kernel

/-- A hash is one of the table, or zeros. -/
theorem sha256_mem (data : List UInt8) :
    sessionHashes.sha256 data ∈ List.replicate 32 0 :: sha256Texts.map (·.2) := by
  -- what is not in the table has the hash of zeros
  rcases hfind : sha256Texts.find? fun text => text.1 = data with - | text
  · have hzeros : sessionHashes.sha256 data = List.replicate 32 0 := by
      simp only [sessionHashes, hfind]
      rfl
    rw [hzeros]
    exact List.mem_cons_self
  · have hhash : sessionHashes.sha256 data = text.2 := by
      simp only [sessionHashes, hfind]
      rfl
    rw [hhash]
    exact List.mem_cons_of_mem _ (List.mem_map_of_mem (List.mem_of_find?_eq_some hfind))

theorem derive_alice : ∀ salt ∈ List.replicate 32 0 :: sha256Texts.map (·.2),
    derive sessionHashes (MieruUser.fromPanelUser sessionHashes alice) salt ∈ [aliceKey, alicePassword] := by
  decide +kernel

theorem derive_bob : ∀ salt ∈ List.replicate 32 0 :: sha256Texts.map (·.2),
    derive sessionHashes (MieruUser.fromPanelUser sessionHashes bob) salt = bobPassword := by
  decide +kernel

theorem keysApart_session : KeysApart sessionHashes [alice, bob] := by
  have hpair : ∀ t t', userKey sessionHashes alice t ≠ userKey sessionHashes bob t' := by
    intro t t' hsame
    have halice : userKey sessionHashes alice t ∈ [aliceKey, alicePassword] := derive_alice _ (sha256_mem _)
    have hbob : userKey sessionHashes bob t' = bobPassword := derive_bob _ (sha256_mem _)
    have hmem : bobPassword ∈ [aliceKey, alicePassword] := by
      rw [← hbob, ← hsame]
      exact halice
    exact absurd hmem (by decide)
  intro u hu v hv hne t t'
  simp only [List.mem_cons, List.not_mem_nil, or_false] at hu hv
  rcases hu with rfl | rfl <;> rcases hv with rfl | rfl
  · exact absurd rfl hne
  · exact hpair t t'
  · exact (hpair t' t).symm
  · exact absurd rfl hne

/-- After the same message has come before. -/
def warm : MieruUserIndex :=
  (tryDecryptMetadata sessionHashes sessionCipher aliceMessage aliceNonce (new sessionHashes [alice, bob]) 60).2

/-- The clocks are a second apart, on both sides of a step of the grid. -/
theorem tryDecryptMetadata_attributes_skewed :
    (tryDecryptMetadata sessionHashes sessionCipher aliceMessage aliceNonce warm 60).1 =
        some (MieruUser.fromPanelUser sessionHashes alice, aliceKey, openRequest.plain) ∧
      (tryDecryptMetadata sessionHashes sessionCipher aliceMessage aliceNonce warm 60).1 =
        (trial sessionHashes sessionCipher aliceMessage aliceNonce warm 60).1 := by
  have hkey : userKey sessionHashes alice (rounded 59) = aliceKey := derive_alice_zero
  have hr : Reached sessionHashes sessionCipher [alice, bob] warm := .call _ _ _ .new
  have hattr := (tryDecryptMetadata_attributes (by decide) (by decide) keysApart_session hr).1 alice
    List.mem_cons_self 59 60 aliceMessage aliceNonce openRequest.plain
  rw [hkey] at hattr
  exact hattr (by decide) (by decide) (by decide) (by decide) fun key' => xchachaOf_singleton openRequest key'

end TwoUsers

end MieruUserIndex

end Mieru

end Elise
