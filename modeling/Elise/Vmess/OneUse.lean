/-
Elise/Vmess/OneUse.lean

Who is let in by VMess, and that an auth id lets its user in only once:
`VmessUserKeys::validate_auth_id` with its replay filter (src/protocol/vmess/crypto.rs),
`update_users`, and the search for the user in `perform_vmess_handshake` (server.rs).

The filter keeps an auth id for 120 seconds after it was accepted, while the auth id itself is
good until 120 seconds after its own time, which may be later; and `update_users` starts with
empty filters.  So an auth id is used once as long as it comes again within 120 seconds of its
acceptance and under the same keys, or after its own time is over (`Guarded`).  The cached user
makes no difference as long as the user who is found is the first one with his id.

Times are `i64`, and their differences wrap as in a release build.
-/
import Elise.Lib.AssocMap
import Elise.Lib.Run
import Elise.Lib.Search
import Elise.Panel.Client
import Elise.Vmess.Header

namespace Elise

namespace Vmess

open Net

/-- The hashes, UUIDs (crate `uuid`) and AES-128 (crate `aes`). -/
structure AuthCrypto extends Hashes where
  parseUuid : List Char → Option (List UInt8)
  decryptBlock : (key block : List UInt8) → List UInt8

variable (c : AuthCrypto)

/-! ### A user's keys -/

/-- `AuthIdReplayFilter`: when each auth id was accepted. -/
abbrev Records := AssocMap (List UInt8) Int64

/-- `check_and_insert`: whether the auth id is new, and the records afterwards. -/
def checkAndInsert (records : Records) (authId : List UInt8) (now : Int64) : Bool × Records :=
  let records := records.retain fun _ ts => (now - ts).abs ≤ 120
  if records.contains authId then (false, records) else (true, records.insert authId now)

structure UserKeys where
  cmdKey : List UInt8
  authIdKey : List UInt8
  replayFilter : Records

instance : DecidableEq UserKeys := fun a b =>
  decidable_of_iff (a.cmdKey = b.cmdKey ∧ a.authIdKey = b.authIdKey ∧
      a.replayFilter.entries = b.replayFilter.entries) <| by
    constructor
    · rcases a with ⟨cmdKey, authIdKey, records⟩
      rintro ⟨rfl, rfl, hrecords⟩
      have hsame : records = b.replayFilter := AList.ext hrecords
      rw [hsame]
    · rintro rfl
      exact ⟨rfl, rfl, rfl⟩

def UserKeys.new (uuid : List Char) : Option UserKeys :=
  (c.parseUuid uuid).map fun parsed =>
    let cmdKey := deriveCmdKey c.toHashes parsed
    ⟨cmdKey, (vmessKdf c.toHashes cmdKey [kdfSaltAuthIdEncryptionKey]).take 16, ∅⟩

/-- The time in a decoded auth id. -/
def timestampOf (decoded : List UInt8) : Int64 :=
  (UInt64.ofNat (ofBeBytes (bytesAt decoded 0 8))).toInt64

def checksumOk (decoded : List UInt8) : Bool := u32At decoded 12 = crc32Ieee (decoded.take 12)

def UserKeys.validateAuthId (keys : UserKeys) (authId : List UInt8) (now : Int64) :
    Bool × UserKeys :=
  let decoded := c.decryptBlock keys.authIdKey authId
  if !checksumOk decoded then (false, keys)
  else if 120 < (timestampOf decoded - now).abs then (false, keys)
  else
    let checked := checkAndInsert keys.replayFilter authId now
    (checked.1, { keys with replayFilter := checked.2 })

/-! ### All users -/

abbrev Entry := UserKeys × PanelUser

/-- The table of the inbound: new keys for everyone. -/
def updateUsers (users : List PanelUser) : List Entry :=
  users.filterMap fun u => (UserKeys.new c u.uuid).map fun keys => (keys, u)

section Find

variable (authId : List UInt8) (now : Int64)

def Entry.attempt (e : Entry) : Bool × Entry :=
  let validated := e.1.validateAuthId c authId now
  (validated.1, (validated.2, e.2))

/-- The user with the cached id: only the first one with this id is tried. -/
def tryHint (uid : UInt32) : List Entry → Option Entry × List Entry
  | [] => (none, [])
  | e :: rest =>
      if e.2.id = uid then
        let tried := Entry.attempt c authId now e
        (if tried.1 then some tried.2 else none, tried.2 :: rest)
      else
        let found := tryHint uid rest
        (found.1, e :: found.2)

/-- The first user that is not skipped and validates. -/
def searchUsers (skip : Entry → Bool) : List Entry → Option Entry × List Entry
  | [] => (none, [])
  | e :: rest =>
      if skip e then
        let found := searchUsers skip rest
        (found.1, e :: found.2)
      else
        let tried := Entry.attempt c authId now e
        if tried.1 then (some tried.2, tried.2 :: rest)
        else
          let found := searchUsers skip rest
          (found.1, tried.2 :: found.2)

/-- The user of a handshake, and the table afterwards. -/
def findUser (cachedUserId : Option UInt32) (users : List Entry) : Option Entry × List Entry :=
  match cachedUserId with
  | none => searchUsers c authId now (fun _ => false) users
  | some uid =>
      let hinted := tryHint c authId now uid users
      match hinted.1 with
      | some e => (some e, hinted.2)
      | none => searchUsers c authId now (fun e => e.2.id = uid) hinted.2

end Find

variable {c}

/-! ### Differences of times -/

section Times

variable {a b : Int64}

/-- The difference fits, and so does its absolute value. -/
def Representable (a b : Int64) : Prop :=
  -2 ^ 63 < a.toInt - b.toInt ∧ a.toInt - b.toInt < 2 ^ 63

instance (a b : Int64) : Decidable (Representable a b) := inferInstanceAs (Decidable (_ ∧ _))

theorem toInt_sub (h : Representable a b) : (a - b).toInt = a.toInt - b.toInt := by
  obtain ⟨hlow, hhigh⟩ := h
  rw [Int64.toInt_sub]
  apply Int.bmod_eq_of_le
  · omega
  · omega

theorem toInt_abs (h : -2 ^ 63 < a.toInt) : a.abs.toInt = |a.toInt| := by
  have hne : a.toBitVec ≠ BitVec.intMin 64 := by
    intro heq
    have hmin := congrArg BitVec.toInt heq
    rw [Int64.toInt_toBitVec] at hmin
    rw [hmin] at h
    revert h
    decide
  rw [← Int.natCast_natAbs]
  exact BitVec.toInt_abs_eq_natAbs_of_ne_intMin hne

theorem abs_sub_le_iff (h : Representable a b) :
    (a - b).abs ≤ 120 ↔ |a.toInt - b.toInt| ≤ 120 := by
  have hsub := toInt_sub h
  rw [Int64.le_iff_toInt_le, toInt_abs (by rw [hsub]; exact h.1), hsub]
  rfl

end Times

/-! ### The filter and the keys -/

/-- A record that is at most 120 seconds old stays. -/
theorem get_retained {records : Records} {authId : List UInt8} {now ts : Int64}
    (h : records.get authId = some ts) (hle : ts ≤ now) (hage : now.toInt - ts.toInt ≤ 120) :
    (records.retain fun _ ts => (now - ts).abs ≤ 120).get authId = some ts := by
  rw [Int64.le_iff_toInt_le] at hle
  have hkept : (now - ts).abs ≤ 120 := by
    rw [abs_sub_le_iff ⟨by omega, by omega⟩, abs_of_nonneg (by omega)]
    exact hage
  rw [AssocMap.get_retain, h, Option.filter_some, if_pos (by simpa using hkept)]

/-- The auth id decodes under the key. -/
def Genuine (c : AuthCrypto) (key authId : List UInt8) : Prop :=
  checksumOk (c.decryptBlock key authId) = true

instance (key authId : List UInt8) : Decidable (Genuine c key authId) :=
  inferInstanceAs (Decidable (_ = _))

/-- The time in an auth id. -/
def stamp (c : AuthCrypto) (key authId : List UInt8) : Int64 := timestampOf (c.decryptBlock key authId)

section Validate

variable {keys : UserKeys} {authId : List UInt8} {now : Int64}

theorem authIdKey_validateAuthId :
    (keys.validateAuthId c authId now).2.authIdKey = keys.authIdKey := by
  rw [UserKeys.validateAuthId]
  split
  · rfl
  · split
    · rfl
    · rfl

/-- An auth id is accepted if it decodes, its time is near and it is new; then it
is recorded. -/
theorem validateAuthId_of_accepted (h : (keys.validateAuthId c authId now).1 = true) :
    Genuine c keys.authIdKey authId ∧ (stamp c keys.authIdKey authId - now).abs ≤ 120 ∧
      (keys.replayFilter.retain fun _ ts => (now - ts).abs ≤ 120).get authId = none ∧
      (keys.validateAuthId c authId now).2.replayFilter =
        (keys.replayFilter.retain fun _ ts => (now - ts).abs ≤ 120).insert authId now := by
  rw [UserKeys.validateAuthId] at h ⊢
  split at h
  · cases h
  · rename_i hsum
    rw [if_neg hsum]
    split at h
    · cases h
    · rename_i htime
      rw [if_neg htime]
      rw [checkAndInsert] at h ⊢
      simp only at h ⊢
      split at h
      · cases h
      · rename_i hnew
        rw [if_neg hnew]
        have hgenuine : checksumOk (c.decryptBlock keys.authIdKey authId) = true := by
          simpa using hsum
        refine ⟨hgenuine, Int64.not_lt.mp htime, ?_, rfl⟩
        rw [AssocMap.contains_iff] at hnew
        rcases hget : (keys.replayFilter.retain fun _ ts => (now - ts).abs ≤ 120).get authId with
          - | ts
        · rfl
        · exact absurd ⟨ts, hget⟩ hnew

/-- Otherwise records are at most dropped for their age. -/
theorem validateAuthId_of_refused (h : (keys.validateAuthId c authId now).1 = false) :
    (keys.validateAuthId c authId now).2.replayFilter = keys.replayFilter ∨
      (keys.validateAuthId c authId now).2.replayFilter =
        keys.replayFilter.retain fun _ ts => (now - ts).abs ≤ 120 := by
  rw [UserKeys.validateAuthId] at h ⊢
  split at h
  · rename_i hsum
    rw [if_pos hsum]
    exact .inl rfl
  · rename_i hsum
    rw [if_neg hsum]
    split at h
    · rename_i htime
      rw [if_pos htime]
      exact .inl rfl
    · rename_i htime
      rw [if_neg htime]
      rw [checkAndInsert] at h ⊢
      simp only at h ⊢
      split at h
      · rename_i hold
        rw [if_pos hold]
        exact .inr rfl
      · cases h

end Validate

/-! ### One user over time -/

structure Acceptance where
  authId : List UInt8
  time : Int64
  /-- How often the users had been updated. -/
  epoch : Nat
  deriving DecidableEq, Repr

/-- The keys of a user in the table, and what they have accepted. -/
structure Watched where
  keys : UserKeys
  clock : Int64
  epoch : Nat
  accepted : List Acceptance
  deriving DecidableEq

def Watched.new (keys : UserKeys) : Watched := ⟨keys, Int64.minValue, 0, []⟩

inductive AuthEvent where
  | validate (authId : List UInt8) (now : Int64)
  | updateUsers (users : List PanelUser)
  deriving DecidableEq, Repr

/-- Times do not go back, and the lists still have the user. -/
def Watched.step (c : AuthCrypto) (user : PanelUser) (s : Watched) : AuthEvent → Option Watched
  | .validate authId now =>
      if s.clock ≤ now then
        let validated := s.keys.validateAuthId c authId now
        some { s with
          keys := validated.2
          clock := now
          accepted :=
            if validated.1 then ⟨authId, now, s.epoch⟩ :: s.accepted else s.accepted }
      else none
  | .updateUsers users =>
      ((Vmess.updateUsers c users).find? fun e => e.2 = user).map fun e =>
        { s with keys := e.1, epoch := s.epoch + 1 }

/-- A genuine auth id comes at a time whose distance from its own can be computed;
if it was accepted before, then by the same keys and not more than 120 seconds
ago, or its own time is over. -/
def Guarded (c : AuthCrypto) (key : List UInt8) (s : Watched) : AuthEvent → Prop
  | .updateUsers _ => True
  | .validate authId now => Genuine c key authId →
      Representable (stamp c key authId) now ∧
        ∀ a ∈ s.accepted, a.authId = authId →
          (a.epoch = s.epoch ∧ now.toInt - a.time.toInt ≤ 120) ∨
            120 < now.toInt - (stamp c key authId).toInt

instance (key : List UInt8) (s : Watched) : (e : AuthEvent) → Decidable (Guarded c key s e)
  | .updateUsers _ => isTrue trivial
  | .validate _ _ => inferInstanceAs (Decidable (_ → _ ∧ ∀ a ∈ s.accepted, _ → _))

structure Watched.UsedOnce (c : AuthCrypto) (key : List UInt8) (s : Watched) : Prop where
  key_eq : s.keys.authIdKey = key
  nodup : (s.accepted.map (·.authId)).Nodup
  near : ∀ a ∈ s.accepted, Genuine c key a.authId ∧
    |(stamp c key a.authId).toInt - a.time.toInt| ≤ 120
  before : ∀ a ∈ s.accepted, a.time ≤ s.clock ∧ a.epoch ≤ s.epoch
  recorded : ∀ a ∈ s.accepted, a.epoch = s.epoch → s.clock.toInt - a.time.toInt ≤ 120 →
    s.keys.replayFilter.get a.authId = some a.time

namespace Watched.UsedOnce

variable {key : List UInt8} {s s' : Watched} {authId : List UInt8} {now : Int64} {user : PanelUser}

theorem new {keys : UserKeys} : (Watched.new keys).UsedOnce c keys.authIdKey :=
  ⟨rfl, List.nodup_nil, fun _ h => absurd h List.not_mem_nil, fun _ h => absurd h List.not_mem_nil,
    fun _ h => absurd h List.not_mem_nil⟩

/-- Young records are still there when the filter has dropped the old ones. -/
theorem retained (h : s.UsedOnce c key) (hclock : s.clock ≤ now) {a : Acceptance}
    (ha : a ∈ s.accepted) (hepoch : a.epoch = s.epoch) (hage : now.toInt - a.time.toInt ≤ 120) :
    (s.keys.replayFilter.retain fun _ ts => (now - ts).abs ≤ 120).get a.authId = some a.time := by
  obtain ⟨hbefore, -⟩ := h.before a ha
  rw [Int64.le_iff_toInt_le] at hclock hbefore
  refine get_retained (h.recorded a ha hepoch (by omega)) ?_ hage
  rw [Int64.le_iff_toInt_le]
  omega

/-- An auth id that is accepted was not accepted before. -/
theorem fresh (h : s.UsedOnce c key) (hclock : s.clock ≤ now)
    (hguard : Guarded c key s (.validate authId now))
    (haccepted : (s.keys.validateAuthId c authId now).1 = true) :
    (∀ a ∈ s.accepted, a.authId ≠ authId) ∧ Genuine c key authId ∧
      |(stamp c key authId).toInt - now.toInt| ≤ 120 := by
  obtain ⟨hgenuine, hnear, hnone, -⟩ := validateAuthId_of_accepted haccepted
  rw [h.key_eq] at hgenuine hnear
  obtain ⟨hrep, hbefore⟩ := hguard hgenuine
  have htime := (abs_sub_le_iff hrep).mp hnear
  refine ⟨?_, hgenuine, htime⟩
  rintro a ha rfl
  rcases hbefore a ha rfl with ⟨hepoch, hage⟩ | hover
  · -- recorded, so the filter refuses
    rw [h.retained hclock ha hepoch hage] at hnone
    cases hnone
  · rw [abs_le] at htime
    omega

theorem validate (h : s.UsedOnce c key) (hclock : s.clock ≤ now)
    (hguard : Guarded c key s (.validate authId now)) :
    Watched.UsedOnce c key { s with
      keys := (s.keys.validateAuthId c authId now).2
      clock := now
      accepted := if (s.keys.validateAuthId c authId now).1 then ⟨authId, now, s.epoch⟩ :: s.accepted
        else s.accepted } := by
  have hbefore : ∀ a ∈ s.accepted, a.time ≤ now ∧ a.epoch ≤ s.epoch :=
    fun a ha => ⟨Int64.le_trans (h.before a ha).1 hclock, (h.before a ha).2⟩
  rcases hok : (s.keys.validateAuthId c authId now).1 with - | -
  · refine ⟨authIdKey_validateAuthId.trans h.key_eq, h.nodup, h.near, hbefore, ?_⟩
    intro a ha hepoch hage
    have hage' : now.toInt - a.time.toInt ≤ 120 := hage
    show (s.keys.validateAuthId c authId now).2.replayFilter.get a.authId = some a.time
    rcases validateAuthId_of_refused hok with heq | heq
    · rw [heq]
      rw [Int64.le_iff_toInt_le] at hclock
      exact h.recorded a ha hepoch (by omega)
    · rw [heq]
      exact h.retained hclock ha hepoch hage'
  · obtain ⟨hnew, hgenuine, htime⟩ := h.fresh hclock hguard hok
    obtain ⟨-, -, -, hfilter⟩ := validateAuthId_of_accepted hok
    refine ⟨authIdKey_validateAuthId.trans h.key_eq, ?_, ?_, ?_, ?_⟩
    · show (authId :: s.accepted.map (·.authId)).Nodup
      refine List.nodup_cons.mpr ⟨?_, h.nodup⟩
      intro hmem
      obtain ⟨a, ha, heq⟩ := List.mem_map.mp hmem
      exact hnew a ha heq
    · intro a ha
      rcases List.mem_cons.mp ha with rfl | ha
      · exact ⟨hgenuine, htime⟩
      · exact h.near a ha
    · intro a ha
      rcases List.mem_cons.mp ha with rfl | ha
      · exact ⟨Int64.le_refl _, Nat.le_refl _⟩
      · exact hbefore a ha
    · intro a ha hepoch hage
      show (s.keys.validateAuthId c authId now).2.replayFilter.get a.authId = some a.time
      rw [hfilter]
      rcases List.mem_cons.mp ha with rfl | ha
      · exact AssocMap.get_insert_self _ _ _
      · rw [AssocMap.get_insert_ne _ _ (hnew a ha)]
        exact h.retained hclock ha hepoch hage

/-- The user's new keys are the old ones with an empty filter. -/
theorem updated_keys {users : List PanelUser} {e : Entry} {keys : UserKeys}
    (hkeys : UserKeys.new c user.uuid = some keys)
    (h : (Vmess.updateUsers c users).find? (fun e => e.2 = user) = some e) : e.1 = keys := by
  have hmem := List.mem_of_find?_eq_some h
  have huser : e.2 = user := by simpa using List.find?_some h
  obtain ⟨u, -, hu⟩ := List.mem_filterMap.mp hmem
  obtain ⟨keys', hkeys', rfl⟩ := Option.map_eq_some_iff.mp hu
  obtain rfl : u = user := huser
  exact Option.some.inj (hkeys'.symm.trans hkeys)

theorem step {keys : UserKeys} (hkeys : UserKeys.new c user.uuid = some keys)
    (h : s.UsedOnce c keys.authIdKey) {e : AuthEvent} (hguard : Guarded c keys.authIdKey s e)
    (hstep : s.step c user e = some s') : s'.UsedOnce c keys.authIdKey := by
  cases e with
  | validate authId now =>
      simp only [Watched.step] at hstep
      split at hstep
      · rename_i hclock
        obtain rfl := Option.some.inj hstep
        exact h.validate hclock hguard
      · cases hstep
  | updateUsers users =>
      obtain ⟨e, he, rfl⟩ := Option.map_eq_some_iff.mp hstep
      refine ⟨congrArg UserKeys.authIdKey (updated_keys hkeys he), h.nodup, h.near, ?_, ?_⟩
      · exact fun a ha => ⟨(h.before a ha).1, Nat.le_succ_of_le (h.before a ha).2⟩
      · -- nothing was accepted under the new keys
        intro a ha hepoch
        have hle := (h.before a ha).2
        rw [show a.epoch = s.epoch + 1 from hepoch] at hle
        exact absurd hle (Nat.not_succ_le_self _)

end Watched.UsedOnce

/-! ### The search for the user -/

section Find

variable {authId : List UInt8} {now : Int64}

/-- The user, if his keys accept. -/
def accepts (c : AuthCrypto) (authId : List UInt8) (now : Int64) (e : Entry) : Option PanelUser :=
  if (e.1.validateAuthId c authId now).1 then some e.2 else none

theorem searchUsers_eq (skip : Entry → Bool) (users : List Entry) :
    (searchUsers c authId now skip users).1.map (·.2) =
      (users.filter fun e => !skip e).findSome? (accepts c authId now) := by
  induction users with
  | nil => rfl
  | cons e users ih =>
      rw [searchUsers]
      by_cases hskip : skip e = true
      · rw [if_pos hskip, List.filter_cons_of_neg (by simp [hskip])]
        exact ih
      · rw [if_neg hskip, List.filter_cons_of_pos (by simpa using hskip), List.findSome?_cons]
        rcases hok : (e.1.validateAuthId c authId now).1 with - | -
        · simp only [Entry.attempt, accepts, hok, Bool.false_eq_true, if_false]
          exact ih
        · simp only [Entry.attempt, accepts, hok, if_true, Option.map_some]

theorem tryHint_eq (uid : UInt32) (users : List Entry) :
    (tryHint c authId now uid users).1.map (·.2) =
      (users.find? fun e => e.2.id = uid).bind (accepts c authId now) := by
  induction users with
  | nil => rfl
  | cons e users ih =>
      rw [tryHint]
      by_cases hid : e.2.id = uid
      · rw [if_pos hid, List.find?_cons_of_pos (by simpa using hid)]
        rcases hok : (e.1.validateAuthId c authId now).1 with - | -
        · simp only [Entry.attempt, accepts, hok, Option.bind_some, Bool.false_eq_true, if_false,
            Option.map_none]
        · simp only [Entry.attempt, accepts, hok, Option.bind_some, if_true, Option.map_some]
      · rw [if_neg hid, List.find?_cons_of_neg (by simpa using hid)]
        exact ih

/-- The hint leaves the others alone. -/
theorem filter_tryHint (uid : UInt32) (users : List Entry) :
    ((tryHint c authId now uid users).2.filter fun e => !decide (e.2.id = uid)) =
      users.filter fun e => !decide (e.2.id = uid) := by
  induction users with
  | nil => rfl
  | cons e users ih =>
      rw [tryHint]
      by_cases hid : e.2.id = uid
      · have htried : (Entry.attempt c authId now e).2.2.id = uid := hid
        rw [if_pos hid, List.filter_cons_of_neg (by simpa using htried),
          List.filter_cons_of_neg (by simpa using hid)]
      · rw [if_neg hid, List.filter_cons_of_pos (by simpa using hid),
          List.filter_cons_of_pos (by simpa using hid), ih]

/-- The user of a handshake is the one of a search with the cached id as hint. -/
theorem findUser_eq (uid : UInt32) (users : List Entry) :
    (findUser c authId now (some uid) users).1.map (·.2) =
      Search.hintedFirst (accepts c authId now) (fun e => e.2.id = uid) users := by
  rw [findUser, Search.hintedFirst, ← tryHint_eq]
  rcases (tryHint c authId now uid users).1 with - | e
  · rw [Option.map_none, Option.none_or, ← filter_tryHint, ← searchUsers_eq]
  · rfl

theorem findUser_none_eq (users : List Entry) :
    (findUser c authId now none users).1.map (·.2) =
      Search.hintedFirst (accepts c authId now) (fun _ => false) users := by
  rw [findUser, Search.hintedFirst, searchUsers_eq]
  have hnone : users.find? (fun _ => false) = none := by
    rw [List.find?_eq_none]
    simp
  rw [hnone]
  rfl

/-- The auth id decodes under one user's key at most. -/
def DecodesOnce (c : AuthCrypto) (authId : List UInt8) (users : List Entry) : Prop :=
  ∀ e ∈ users, ∀ e' ∈ users, Genuine c e.1.authIdKey authId → Genuine c e'.1.authIdKey authId → e = e'

theorem DecodesOnce.atMostOne {users : List Entry} (h : DecodesOnce c authId users) :
    Search.AtMostOne (accepts c authId now) users := by
  have hgenuine : ∀ e : Entry, (accepts c authId now e).isSome = true →
      Genuine c e.1.authIdKey authId := by
    intro e hsome
    rw [accepts] at hsome
    split at hsome
    · rename_i haccepted
      exact (validateAuthId_of_accepted haccepted).1
    · cases hsome
  exact fun e he e' he' hsome hsome' => h e he e' he' (hgenuine e hsome) (hgenuine e' hsome')

end Find

/-- **An auth id is used once.**  In every run of validations and updates that are
guarded, a user's keys accept no auth id twice, and only genuine ones within 120
seconds of their time; and the cached user makes no difference to a handshake
exactly if the user who is accepted is the first one with the cached id, should
he have it. -/
theorem auth_id_used_once {user : PanelUser} {keys : UserKeys}
    (hkeys : UserKeys.new c user.uuid = some keys) :
    (∀ es s, Run.exec (Watched.step c user) (.new keys) es = some s →
      Run.Along (Watched.step c user) (Guarded c keys.authIdKey) (.new keys) es →
        (s.accepted.map (·.authId)).Nodup ∧
          ∀ a ∈ s.accepted, Genuine c keys.authIdKey a.authId ∧
            |(stamp c keys.authIdKey a.authId).toInt - a.time.toInt| ≤ 120) ∧
      ∀ users uid authId now, DecodesOnce c authId users →
        ((findUser c authId now (some uid) users).1.map (·.2) =
            (findUser c authId now none users).1.map (·.2) ↔
          ∀ e ∈ users, (e.1.validateAuthId c authId now).1 = true → e.2.id = uid →
            users.find? (fun e' => e'.2.id = uid) = some e) := by
  constructor
  · intro es s hrun hguarded
    have hend : s.UsedOnce c keys.authIdKey :=
      Run.exec_invariant (fun hs hg hstep => hs.step hkeys hg hstep) hrun hguarded .new
    exact ⟨hend.nodup, hend.near⟩
  · intro users uid authId now honce
    rw [findUser_eq, findUser_none_eq, Search.hintedFirst_eq_iff honce.atMostOne]
    simp only [Search.Reached, Bool.false_eq_true, false_implies, iff_true, decide_eq_true_eq]
    constructor
    · intro h e he haccepted hid
      exact h e he (by rw [accepts, if_pos haccepted]; rfl) hid
    · intro h e he hsome hid
      refine h e he ?_ hid
      rw [accepts] at hsome
      split at hsome
      · assumption
      · cases hsome

section Samples

def sampleUuid : List Char :=
  ['a', '1', 'b', '2', 'c', '3', 'd', '4', '-', 'e', '5', 'f', '6', '-', '7', 'a', '8', 'b',
    '-', '9', 'c', '0', 'd', '-', '1', 'e', '2', 'f', '3', 'a', '4', 'b', '5', 'c', '6', 'd']

def sampleUser : PanelUser := { PanelUser.default with uuid := sampleUuid }

def sampleCmdKey : List UInt8 :=
  [127, 227, 4, 84, 127, 176, 71, 197, 97, 210, 182, 18, 203, 13, 83, 32]

/-- A block of an HMAC key. -/
def keyBlock (key : List UInt8) (pad : UInt8) : List UInt8 :=
  (key ++ List.replicate (64 - key.length) 0).map (· ^^^ pad)

/-- The four hashes behind the key for auth ids. -/
def sampleDigests : List (List UInt8 × List UInt8) :=
  let salt := keyBlock kdfSaltVmessAeadKdf
  let step := keyBlock kdfSaltAuthIdEncryptionKey
  let first : List UInt8 :=
    [14, 83, 208, 180, 80, 246, 179, 111, 240, 219, 62, 30, 31, 195, 108, 19, 6, 129, 72, 144,
      163, 244, 225, 108, 70, 75, 52, 189, 82, 6, 220, 203]
  let second : List UInt8 :=
    [150, 174, 3, 126, 98, 200, 67, 11, 33, 184, 128, 170, 45, 254, 215, 110, 66, 112, 250, 50,
      222, 178, 110, 17, 208, 187, 132, 131, 4, 124, 131, 144]
  let third : List UInt8 :=
    [92, 146, 17, 200, 176, 33, 44, 225, 141, 157, 16, 243, 251, 119, 81, 244, 147, 21, 77,
      102, 176, 45, 67, 73, 246, 48, 192, 172, 179, 63, 219, 12]
  let fourth : List UInt8 :=
    [183, 228, 151, 93, 65, 90, 27, 178, 215, 222, 106, 229, 77, 233, 192, 50, 113, 132, 68,
      225, 196, 69, 70, 29, 238, 121, 245, 76, 200, 133, 56, 33]
  [(salt 0x36 ++ (step 0x36 ++ sampleCmdKey), first), (salt 0x5c ++ first, second),
    (salt 0x36 ++ (step 0x5c ++ second), third), (salt 0x5c ++ third, fourth)]

def sampleAuthIdKey : List UInt8 :=
  [183, 228, 151, 93, 65, 90, 27, 178, 215, 222, 106, 229, 77, 233, 192, 50]

/-- The auth id of second 1700000000, and the one of second 1700000100. -/
def punctualId : List UInt8 :=
  [197, 26, 16, 122, 246, 225, 87, 93, 3, 11, 235, 133, 136, 191, 86, 189]

def earlyId : List UInt8 :=
  [20, 250, 184, 157, 154, 183, 236, 6, 243, 117, 203, 75, 205, 203, 184, 87]

def sampleAuth : AuthCrypto where
  sha256 data := ((sampleDigests.find? fun e => e.1 = data).map (·.2)).getD []
  md5 _ := sampleCmdKey
  parseUuid uuid :=
    if uuid = sampleUuid then
      some [161, 178, 195, 212, 229, 246, 122, 139, 156, 13, 30, 47, 58, 75, 92, 109]
    else none
  decryptBlock key block :=
    if key = sampleAuthIdKey ∧ block = punctualId then
      [0, 0, 0, 0, 101, 83, 241, 0, 1, 2, 3, 4, 184, 85, 117, 247]
    else if key = sampleAuthIdKey ∧ block = earlyId then
      [0, 0, 0, 0, 101, 83, 241, 100, 1, 2, 3, 4, 212, 231, 164, 122]
    else []

def sampleKeys : UserKeys := ⟨sampleCmdKey, sampleAuthIdKey, ∅⟩

theorem sampleKeys_eq : UserKeys.new sampleAuth sampleUser.uuid = some sampleKeys := by
  decide +kernel

/-- The auth id comes again after a minute, and once more when its time is over. -/
def guardedRun : List AuthEvent :=
  [.validate punctualId 1700000000, .validate punctualId 1700000060, .updateUsers [sampleUser],
    .validate punctualId 1700000121]

/-- The users are updated in the end, so the filter is empty. -/
def guardedEnd : Watched := ⟨sampleKeys, 1700000121, 1, [⟨punctualId, 1700000000, 0⟩]⟩

theorem guardedRun_used_once :
    Run.exec (Watched.step sampleAuth sampleUser) (.new sampleKeys) guardedRun = some guardedEnd ∧
      (guardedEnd.accepted.map (·.authId)).Nodup := by
  have hrun : Run.exec (Watched.step sampleAuth sampleUser) (.new sampleKeys) guardedRun =
      some guardedEnd := by decide +kernel
  exact ⟨hrun, ((auth_id_used_once sampleKeys_eq).1 guardedRun guardedEnd hrun
    (by decide +kernel)).1⟩

/-- An auth id that is 100 seconds ahead is accepted again after 121 seconds. -/
theorem early_id_replayed :
    ∃ s, Run.exec (Watched.step sampleAuth sampleUser) (.new sampleKeys)
        [.validate earlyId 1700000000, .validate earlyId 1700000121] = some s ∧
      ¬ (s.accepted.map (·.authId)).Nodup := by
  refine ⟨⟨⟨sampleCmdKey, sampleAuthIdKey, AssocMap.ofPairs [(earlyId, 1700000121)]⟩, 1700000121, 0,
    [⟨earlyId, 1700000121, 0⟩, ⟨earlyId, 1700000000, 0⟩]⟩, ?_, ?_⟩
  · decide +kernel
  · decide +kernel

end Samples

end Vmess

end Elise
