/-
Elise/Limiter/Device.lean

The local device limiter (src/limiter/device.rs): per user, the devices seen
within a sliding window, a limit, and a count of devices seen elsewhere that
the panel supplies.

Instants are counted in nanoseconds, so a clock is a natural number and
`duration_since` its truncated difference.  Each operation takes the time at
which it is called; the maps are behind locks, so an operation is one step.

The view every proof uses is `liveDevices`: the devices of a user that are
fresh at a time.  Each operation has one lemma that says what it does to the
view at any later time; nothing below unfolds an operation again.
-/
import Elise.Lib.AssocMap
import Elise.Lib.Net

namespace Elise

open Net

/-- The length of a second on the clock of the limiter. -/
def nanosPerSec : Nat := 1000000000

structure DeviceLimiter where
  windowDuration : Nat
  prefixV4 : UInt8
  prefixV6 : UInt8
  userDevices : AssocMap UInt32 (AssocMap String Nat)
  userLimits : AssocMap UInt32 UInt32
  globalAlive : AssocMap UInt32 UInt32
  connLimitExpiry : UInt64

namespace DeviceLimiter

/-! ### Operations -/

def newWithRedis (windowSecs : UInt64) (prefixV4 prefixV6 : UInt8) (connLimitExpiry : UInt64) :
    DeviceLimiter where
  windowDuration := windowSecs.toNat * nanosPerSec
  prefixV4 := min prefixV4 32
  prefixV6 := min prefixV6 128
  userDevices := ∅
  userLimits := ∅
  globalAlive := ∅
  connLimitExpiry := max connLimitExpiry 1

def updateGlobalAlive (l : DeviceLimiter) (map : AssocMap UInt32 UInt32) : DeviceLimiter :=
  { l with globalAlive := map }

/-- A limit of zero removes the limit. -/
def setUserLimit (l : DeviceLimiter) (userId limit : UInt32) : DeviceLimiter :=
  { l with
    userLimits :=
      if 0 < limit then l.userLimits.insert userId limit else l.userLimits.erase userId }

/-- The device that an address counts as: the address itself, or its network
when the prefix of its family is shorter than the address. -/
def normalizeIp (l : DeviceLimiter) (ip : IpAddr) : String :=
  match ip.toCanonical with
  | .v4 addr =>
      if 32 ≤ l.prefixV4 then (IpAddr.v4 addr).display
      else if l.prefixV4 = 0 then "0.0.0.0/0"
      else
        let mask := (~~~(((1 : UInt64) <<< (32 - l.prefixV4).toUInt64) - 1)).toUInt32
        let masked := UInt32.ofNat addr.toNat &&& mask
        (IpAddr.v4 (.ofNat masked.toNat)).display ++ "/" ++ l.prefixV4.toNat.repr
  | .v6 addr =>
      if 128 ≤ l.prefixV6 then (IpAddr.v6 addr).display
      else if l.prefixV6 = 0 then "::/0"
      else
        let mask := ~~~(((1 : BitVec 128) <<< (128 - l.prefixV6).toNat) - 1)
        let masked := BitVec.ofNat 128 addr.toNat &&& mask
        (IpAddr.v6 (.ofNat masked.toNat)).display ++ "/" ++ l.prefixV6.toNat.repr

/-- The devices that the lock-step `retain` of every operation leaves. -/
def retainFresh (l : DeviceLimiter) (now : Nat) (devices : AssocMap String Nat) :
    AssocMap String Nat :=
  Window.expire l.windowDuration now devices

/-- The count of devices elsewhere that `check_and_record` reads. -/
def remoteDevs (l : DeviceLimiter) (userId : UInt32) : UInt32 :=
  (l.globalAlive.get userId).getD 0

/-- `get_online_devices`: an empty entry is removed. -/
def getOnlineDevices (l : DeviceLimiter) (userId : UInt32) (now : Nat) :
    DeviceLimiter × List String :=
  match l.userDevices.get userId with
  | some devices =>
      let devices := l.retainFresh now devices
      let userDevices :=
        if devices.isEmpty then l.userDevices.erase userId
        else l.userDevices.insert userId devices
      ({ l with userDevices }, devices.keys)
  | none => (l, [])

/-- The entry that the outer `retain` of `get_all_online_devices` and
`prune_expired` keeps. -/
def retainUser (l : DeviceLimiter) (now : Nat) (_userId : UInt32)
    (devices : AssocMap String Nat) : Option (AssocMap String Nat) :=
  let devices := l.retainFresh now devices
  if devices.isEmpty then none else some devices

def getAllOnlineDevices (l : DeviceLimiter) (now : Nat) :
    DeviceLimiter × AssocMap UInt32 (List String) :=
  let userDevices := l.userDevices.filterMap (l.retainUser now)
  ({ l with userDevices },
    AssocMap.ofPairs (userDevices.pairs.map fun entry => (entry.1, entry.2.keys)))

def pruneExpired (l : DeviceLimiter) (now : Nat) : DeviceLimiter :=
  { l with userDevices := l.userDevices.filterMap (l.retainUser now) }

/-- The sum is taken in 32 bits, as `devices.len() as u32 + remote_devs`. -/
def checkAndRecord (l : DeviceLimiter) (userId : UInt32) (ip : IpAddr) (now : Nat) :
    DeviceLimiter × Bool :=
  let limit := l.userLimits.get userId
  let deviceKey := l.normalizeIp ip
  let devices := l.retainFresh now ((l.userDevices.get userId).getD ∅)
  let full :=
    match limit with
    | some maxDev =>
        !devices.contains deviceKey && maxDev ≤ UInt32.ofNat devices.len + l.remoteDevs userId
    | none => false
  if full then ({ l with userDevices := l.userDevices.insert userId devices }, false)
  else ({ l with userDevices := l.userDevices.insert userId (devices.insert deviceKey now) }, true)

/-! ### The view: live devices -/

/-- The recorded devices of a user. -/
def devices (l : DeviceLimiter) (userId : UInt32) : AssocMap String Nat :=
  (l.userDevices.get userId).getD ∅

/-- The devices of a user that are within the window at `t`. -/
def liveDevices (l : DeviceLimiter) (userId : UInt32) (t : Nat) : AssocMap String Nat :=
  Window.expire l.windowDuration t (l.devices userId)

/-- A table of devices that was only expired shows the same later. -/
theorem liveDevices_of_expired {l l' : DeviceLimiter} {user : UInt32} {now t : Nat} (h : now ≤ t)
    (hwin : l'.windowDuration = l.windowDuration)
    (hdev : l'.devices user = l.liveDevices user now) :
    l'.liveDevices user t = l.liveDevices user t := by
  unfold liveDevices at hdev ⊢
  rw [hwin, hdev, Window.expire_expire h]

theorem devices_retainUser (l : DeviceLimiter) (now : Nat) (user : UInt32) :
    ((l.userDevices.filterMap (l.retainUser now)).get user).getD ∅ = l.liveDevices user now := by
  rw [AssocMap.get_filterMap]
  rw [liveDevices, devices]
  rcases l.userDevices.get user with - | devices
  · rfl
  · show (l.retainUser now user devices).getD ∅ = _
    rw [retainUser]
    by_cases hemp : (l.retainFresh now devices).isEmpty
    · rw [if_pos hemp]
      exact (AssocMap.isEmpty_iff.mp hemp).symm
    · rw [if_neg hemp]
      rfl

theorem liveDevices_pruneExpired {l : DeviceLimiter} {now t : Nat} (h : now ≤ t)
    (user : UInt32) : (l.pruneExpired now).liveDevices user t = l.liveDevices user t :=
  liveDevices_of_expired h rfl (devices_retainUser l now user)

theorem liveDevices_getAllOnlineDevices {l : DeviceLimiter} {now t : Nat} (h : now ≤ t)
    (user : UInt32) : (l.getAllOnlineDevices now).1.liveDevices user t = l.liveDevices user t :=
  liveDevices_of_expired h rfl (devices_retainUser l now user)

/-- `get_online_devices` touches the table of devices only. -/
theorem getOnlineDevices_frame (l : DeviceLimiter) (user : UInt32) (now : Nat) :
    (l.getOnlineDevices user now).1 =
      { l with userDevices := (l.getOnlineDevices user now).1.userDevices } := by
  rw [getOnlineDevices]
  rcases l.userDevices.get user with - | devices <;> rfl

theorem devices_getOnlineDevices (l : DeviceLimiter) (user user' : UInt32) (now : Nat) :
    (l.getOnlineDevices user now).1.devices user' =
      if user' = user then l.liveDevices user now else l.devices user' := by
  unfold getOnlineDevices liveDevices devices
  rcases hget : l.userDevices.get user with - | devices
  · by_cases h : user' = user
    · subst h
      simp [hget, Window.expire_empty]
    · simp [h]
  · dsimp only
    by_cases hemp : (l.retainFresh now devices).isEmpty
    · rw [if_pos hemp, AssocMap.get_erase]
      by_cases h : user' = user
      · simp only [h, if_true]
        exact (AssocMap.isEmpty_iff.mp hemp).symm
      · simp only [h, if_false]
    · rw [if_neg hemp, AssocMap.get_insert]
      by_cases h : user' = user
      · simp only [h, if_true]
        rfl
      · simp only [h, if_false]

theorem liveDevices_getOnlineDevices {l : DeviceLimiter} {user : UInt32} {now t : Nat}
    (h : now ≤ t) (user' : UInt32) :
    (l.getOnlineDevices user now).1.liveDevices user' t = l.liveDevices user' t := by
  have hdev := devices_getOnlineDevices l user user' now
  have hwin : (l.getOnlineDevices user now).1.windowDuration = l.windowDuration := by
    rw [getOnlineDevices_frame]
  by_cases hu : user' = user
  · subst hu
    rw [if_pos rfl] at hdev
    exact liveDevices_of_expired h hwin hdev
  · rw [if_neg hu] at hdev
    unfold liveDevices
    rw [hwin, hdev]

/-! ### `check_and_record` -/

/-- The decision as the code takes it: a limited user, a device that is not
live, and a 32-bit sum that reaches the limit. -/
def Refuses (l : DeviceLimiter) (user : UInt32) (ip : IpAddr) (now : Nat) : Prop :=
  ∃ m, l.userLimits.get user = some m ∧
    (l.liveDevices user now).contains (l.normalizeIp ip) = false ∧
    m ≤ UInt32.ofNat (l.liveDevices user now).len + l.remoteDevs user

/-- The comparison of the 32-bit sum, in natural numbers. -/
theorem le_ofNat_add_iff (m remote : UInt32) (n : Nat) :
    m ≤ UInt32.ofNat n + remote ↔ m.toNat ≤ (n + remote.toNat) % 2 ^ 32 := by
  rw [UInt32.le_iff_toNat_le, UInt32.toNat_add, UInt32.toNat_ofNat', Nat.mod_add_mod]

/-- Without devices elsewhere and below `2 ^ 32` the sum does not wrap. -/
theorem le_ofNat_add_zero_iff {m : UInt32} {n : Nat} (h : n < 2 ^ 32) :
    m ≤ UInt32.ofNat n + 0 ↔ m.toNat ≤ n := by
  rw [le_ofNat_add_iff]
  show m.toNat ≤ (n + 0) % 2 ^ 32 ↔ _
  rw [Nat.add_zero, Nat.mod_eq_of_lt h]

/-- Put a table of devices in place of a user's. -/
def setDevices (l : DeviceLimiter) (user : UInt32) (devices : AssocMap String Nat) :
    DeviceLimiter :=
  { l with userDevices := l.userDevices.insert user devices }

theorem devices_setDevices (l : DeviceLimiter) (user user' : UInt32)
    (devices : AssocMap String Nat) :
    (l.setDevices user devices).devices user' =
      if user' = user then devices else l.devices user' := by
  unfold setDevices DeviceLimiter.devices
  rw [AssocMap.get_insert]
  by_cases h : user' = user
  · rw [if_pos h, if_pos h]
    rfl
  · rw [if_neg h, if_neg h]

/-- **What a check does**: it refuses and leaves the live devices, or records
the device. -/
theorem checkAndRecord_cases (l : DeviceLimiter) (user : UInt32) (ip : IpAddr) (now : Nat) :
    (l.Refuses user ip now ∧
      l.checkAndRecord user ip now = (l.setDevices user (l.liveDevices user now), false)) ∨
    (¬ l.Refuses user ip now ∧
      l.checkAndRecord user ip now =
        (l.setDevices user ((l.liveDevices user now).insert (l.normalizeIp ip) now), true)) := by
  rcases hlim : l.userLimits.get user with - | m
  · -- a user without a limit is never refused
    refine .inr ⟨?_, ?_⟩
    · rintro ⟨m, hm, -⟩
      simp [hlim] at hm
    · simp only [checkAndRecord, hlim, Bool.false_eq_true, if_false]
      rfl
  · by_cases hfull : (!(l.liveDevices user now).contains (l.normalizeIp ip) &&
        decide (m ≤ UInt32.ofNat (l.liveDevices user now).len + l.remoteDevs user)) = true
    · refine .inl ⟨?_, ?_⟩
      · obtain ⟨hkey, hsum⟩ := Bool.and_eq_true_iff.mp hfull
        exact ⟨m, hlim, by simpa using hkey, of_decide_eq_true hsum⟩
      · simp only [checkAndRecord, hlim]
        exact if_pos hfull
    · refine .inr ⟨?_, ?_⟩
      · rintro ⟨m', hm', hkey, hsum⟩
        obtain rfl := Option.some.inj (hlim.symm.trans hm')
        exact hfull (by simp [hkey, hsum])
      · simp only [checkAndRecord, hlim]
        exact if_neg hfull

theorem checkAndRecord_eq_false_iff {l : DeviceLimiter} {user : UInt32} {ip : IpAddr} {now : Nat} :
    (l.checkAndRecord user ip now).2 = false ↔ l.Refuses user ip now := by
  rcases checkAndRecord_cases l user ip now with ⟨href, heq⟩ | ⟨href, heq⟩
  · simp [heq, href]
  · simp [heq, href]

/-- The devices of the other users stay. -/
theorem liveDevices_setDevices_ne {l : DeviceLimiter} {user user' : UInt32} (h : user' ≠ user)
    (devices : AssocMap String Nat) (t : Nat) :
    (l.setDevices user devices).liveDevices user' t = l.liveDevices user' t := by
  show Window.expire l.windowDuration t _ = _
  rw [devices_setDevices, if_neg h]
  rfl

/-- A refusal shows the same devices afterwards. -/
theorem liveDevices_setDevices_live {l : DeviceLimiter} {user : UInt32} {now t : Nat}
    (h : now ≤ t) (user' : UInt32) :
    (l.setDevices user (l.liveDevices user now)).liveDevices user' t = l.liveDevices user' t := by
  by_cases hu : user' = user
  · subst hu
    have hdev := devices_setDevices l user' user' (l.liveDevices user' now)
    rw [if_pos rfl] at hdev
    exact liveDevices_of_expired h rfl hdev
  · exact liveDevices_setDevices_ne hu _ _

/-- A recorded device is live from now on, until the window has passed. -/
theorem get_liveDevices_record {l : DeviceLimiter} {user : UInt32} {key : String} {now t : Nat}
    (h : now ≤ t) (user' : UInt32) (key' : String) :
    ((l.setDevices user ((l.liveDevices user now).insert key now)).liveDevices user' t).get key' =
      if user' = user ∧ key' = key then (some now).filter (Window.fresh l.windowDuration t)
      else (l.liveDevices user' t).get key' := by
  by_cases hu : user' = user
  · subst hu
    show (Window.expire l.windowDuration t _).get key' = _
    rw [devices_setDevices, if_pos rfl, Window.get_expire_insert]
    by_cases hk : key' = key
    · rw [if_pos hk, if_pos ⟨rfl, hk⟩]
    · rw [if_neg hk, if_neg fun hc => hk hc.2]
      show (Window.expire l.windowDuration t (Window.expire l.windowDuration now _)).get key' = _
      rw [Window.expire_expire h]
      rfl
  · rw [liveDevices_setDevices_ne hu, if_neg fun hc => hu hc.1]

/-- Recording a device makes one more live one, unless it was live. -/
theorem len_liveDevices_record_le {l : DeviceLimiter} {user : UInt32} {key : String} {now t : Nat}
    (h : now ≤ t) :
    ((l.setDevices user ((l.liveDevices user now).insert key now)).liveDevices user t).len ≤
      if (l.liveDevices user now).contains key then (l.liveDevices user now).len
      else (l.liveDevices user now).len + 1 := by
  have hlen := Window.len_expire_insert_le (w := l.windowDuration) h (l.liveDevices user now) key
  have hself : Window.expire l.windowDuration now (l.liveDevices user now) =
      l.liveDevices user now := Window.expire_expire (Nat.le_refl now) _
  rw [hself] at hlen
  have hdev := devices_setDevices l user user ((l.liveDevices user now).insert key now)
  rw [if_pos rfl] at hdev
  show (Window.expire l.windowDuration t _).len ≤ _
  rw [hdev]
  exact hlen

end DeviceLimiter

end Elise
