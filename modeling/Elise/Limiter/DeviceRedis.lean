/-
Elise/Limiter/DeviceRedis.lean

The device limit kept in Redis (src/limiter/device.rs): the Lua script that
checks and records, and the range query that lists.

`Twin` runs the local limiter and Redis side by side on the same calls, at
whole seconds.  The local limiter keeps a device that is exactly one window
old; the script removes it.  `OffEdge` says that no check meets such a device,
and under it the two never differ (`redis_agrees_local`): the relation
`Paired` says that both show the same devices from now on.
-/
import Elise.Lib.Redis
import Elise.Lib.Run
import Elise.Lib.Text
import Elise.Limiter.Device

namespace Elise

open Net

/-! ### The script and the query -/

def redisKey (userId : UInt32) : String := "elise:user_ips:" ++ userId.toNat.repr

/-- `REDIS_DEVICE_LIMIT_LUA`, at the time `now` it is given. -/
def redisDeviceLimitLua (db : Redis.Db) (key deviceKey : String) (now expiry limit : Nat) :
    Redis.Db × Nat :=
  let cutoff : Int := now - expiry
  let db := Redis.zRemRangeByScore db now key cutoff
  let record := Redis.expire (Redis.zAdd db now key now deviceKey) now key expiry
  match Redis.zScore db now key deviceKey with
  | some _ => (record, 1)
  | none =>
      if 0 < limit ∧ limit ≤ Redis.zCard db now key then (db, 0)
      else (record, 1)

namespace DeviceLimiter

def checkRedis (l : DeviceLimiter) (db : Redis.Db) (userId : UInt32) (ip : IpAddr) (now : Nat) :
    Redis.Db × Bool :=
  let limit := (l.userLimits.get userId).getD 0
  let res := redisDeviceLimitLua db (redisKey userId) (l.normalizeIp ip) now
    l.connLimitExpiry.toNat limit.toNat
  (res.1, res.2 = 1)

def getRedisOnlineDevices (l : DeviceLimiter) (db : Redis.Db) (userId : UInt32) (now : Nat) :
    List String :=
  let cutoff := now - l.connLimitExpiry.toNat
  Redis.zRangeByScore db now (redisKey userId) cutoff

/-! ### What a check does in Redis -/

/-- The devices that the script's removal leaves: those seen after the cutoff. -/
def redisDevices (l : DeviceLimiter) (db : Redis.Db) (userId : UInt32) (now t : Nat) :
    AssocMap String Nat :=
  (Redis.members db t (redisKey userId)).retain
    fun _ score => ((now : Int) - l.connLimitExpiry.toNat) < (score : Int)

def RedisRefuses (l : DeviceLimiter) (db : Redis.Db) (user : UInt32) (ip : IpAddr) (now : Nat) :
    Prop :=
  0 < ((l.userLimits.get user).getD 0).toNat ∧
    (l.redisDevices db user now now).contains (l.normalizeIp ip) = false ∧
    ((l.userLimits.get user).getD 0).toNat ≤ (l.redisDevices db user now now).len

theorem redisKey_injective : Function.Injective redisKey := by
  intro user user' h
  have hrepr : user.toNat.repr = user'.toNat.repr := by
    have hlist := congrArg String.toList h
    simp only [redisKey, String.toList_append] at hlist
    exact String.toList_inj.mp (List.append_cancel_left hlist)
  exact UInt32.toNat_inj.mp (Text.repr_injective hrepr)

/-- The record that the script writes. -/
theorem get_redisRecord (l : DeviceLimiter) (db : Redis.Db) (user : UInt32) (deviceKey : String)
    (now : Nat) (key : String) :
    (Redis.expire (Redis.zAdd (Redis.zRemRangeByScore db now (redisKey user)
        ((now : Int) - l.connLimitExpiry.toNat)) now (redisKey user) now deviceKey) now
        (redisKey user) l.connLimitExpiry.toNat).get key =
      if key = redisKey user then
        some ⟨(l.redisDevices db user now now).insert deviceKey now,
          some (now + l.connLimitExpiry.toNat)⟩
      else db.get key := by
  by_cases h : key = redisKey user
  · rw [if_pos h, h, Redis.get_zAdd_expire, Redis.members_zRemRangeByScore (Nat.le_refl now)]
    rfl
  · rw [if_neg h, Redis.get_expire_ne h, Redis.get_zAdd_ne h, Redis.get_zRemRangeByScore_ne h]

/-- **What a check does in Redis**: it refuses and removes what is past the
cutoff, or records the device and sets the expiry. -/
theorem checkRedis_cases (l : DeviceLimiter) (db : Redis.Db) (user : UInt32) (ip : IpAddr)
    (now : Nat) :
    (l.RedisRefuses db user ip now ∧ (l.checkRedis db user ip now).2 = false ∧
      (l.checkRedis db user ip now).1 = Redis.zRemRangeByScore db now (redisKey user)
        ((now : Int) - l.connLimitExpiry.toNat)) ∨
    (¬ l.RedisRefuses db user ip now ∧ (l.checkRedis db user ip now).2 = true ∧
      ∀ key, (l.checkRedis db user ip now).1.get key =
        if key = redisKey user then
          some ⟨(l.redisDevices db user now now).insert (l.normalizeIp ip) now,
            some (now + l.connLimitExpiry.toNat)⟩
        else db.get key) := by
  have hview : Redis.members (Redis.zRemRangeByScore db now (redisKey user)
      ((now : Int) - l.connLimitExpiry.toNat)) now (redisKey user)
      = l.redisDevices db user now now := Redis.members_zRemRangeByScore (Nat.le_refl now)
  have hrecord := get_redisRecord l db user (l.normalizeIp ip) now
  rcases hget : (l.redisDevices db user now now).get (l.normalizeIp ip) with - | score
  · have hkey : (l.redisDevices db user now now).contains (l.normalizeIp ip) = false := by
      simp [AssocMap.contains, hget]
    by_cases hfull : 0 < ((l.userLimits.get user).getD 0).toNat ∧
        ((l.userLimits.get user).getD 0).toNat ≤ (l.redisDevices db user now now).len
    · refine .inl ⟨⟨hfull.1, hkey, hfull.2⟩, ?_, ?_⟩ <;>
        simp [checkRedis, redisDeviceLimitLua, Redis.zScore, Redis.zCard, hview, hget, hfull]
    · refine .inr ⟨fun href => hfull ⟨href.1, href.2.2⟩, ?_, ?_⟩
      · simp only [checkRedis, redisDeviceLimitLua, Redis.zScore, Redis.zCard, hview, hget,
          if_neg hfull, decide_true]
      · intro key
        simp only [checkRedis, redisDeviceLimitLua, Redis.zScore, Redis.zCard, hview, hget,
          if_neg hfull]
        exact hrecord key
  · have hkey : (l.redisDevices db user now now).contains (l.normalizeIp ip) = true := by
      simp [AssocMap.contains, hget]
    refine .inr ⟨?_, ?_, ?_⟩
    · rintro ⟨-, hno, -⟩
      rw [hkey] at hno
      cases hno
    · simp only [checkRedis, redisDeviceLimitLua, Redis.zScore, hview, hget, decide_true]
    · intro key
      simp only [checkRedis, redisDeviceLimitLua, Redis.zScore, hview, hget]
      exact hrecord key

end DeviceLimiter

/-! ### Running both -/

/-- The local limiter and Redis, with the second of the last call. -/
structure Twin where
  limiter : DeviceLimiter
  redis : Redis.Db
  clock : Nat

inductive TwinEvent where
  | check (userId : UInt32) (ip : IpAddr) (now : Nat)
  | list (userId : UInt32) (now : Nat)

namespace Twin

/-- The instant of a whole second on the local clock. -/
def instant (now : Nat) : Nat := now * nanosPerSec

def step (s : Twin) : TwinEvent → Option Twin
  | .check userId ip now =>
      if s.clock ≤ now then
        some ⟨(s.limiter.checkAndRecord userId ip (instant now)).1,
          (s.limiter.checkRedis s.redis userId ip now).1, now⟩
      else none
  | .list userId now =>
      if s.clock ≤ now then
        some ⟨(s.limiter.getOnlineDevices userId (instant now)).1, s.redis, now⟩
      else none

/-- A new limiter with an expiry equal to its window, limits set, and an empty
Redis. -/
def new (window : UInt64) (prefixV4 prefixV6 : UInt8) (limits : List (UInt32 × UInt32)) : Twin where
  limiter := limits.foldl (fun l limit => l.setUserLimit limit.1 limit.2)
    (DeviceLimiter.newWithRedis window prefixV4 prefixV6 window)
  redis := ∅
  clock := 0

/-- No device of the user was seen exactly one window before the check. -/
def OffEdge (s : Twin) : TwinEvent → Prop
  | .check userId _ now => ∀ key seen, (s.limiter.devices userId).get key = some seen →
      seen + s.limiter.windowDuration ≠ instant now
  | .list _ _ => True

end Twin

/-! ### Both show the same devices -/

theorem fresh_instant (w t s : Nat) :
    Window.fresh (Twin.instant w) (Twin.instant t) (Twin.instant s) = Window.fresh w t s := by
  have hiff : Window.fresh (Twin.instant w) (Twin.instant t) (Twin.instant s) = true ↔
      Window.fresh w t s = true := by
    rw [Window.fresh_iff, Window.fresh_iff]
    unfold Twin.instant nanosPerSec
    omega
  exact Bool.eq_iff_iff.mpr hiff

theorem instant_mono {now t : Nat} (h : now ≤ t) : Twin.instant now ≤ Twin.instant t :=
  Nat.mul_le_mul_right _ h

/-- What a state of both must keep: the window is the expiry, there are no
remote counts, no set outlives its key, both show the same devices from now
on, and no limit is exceeded. -/
structure Paired (s : Twin) : Prop where
  window : s.limiter.windowDuration = Twin.instant s.limiter.connLimitExpiry.toNat
  alone : s.limiter.globalAlive = ∅
  limits : ∀ user m, s.limiter.userLimits.get user = some m → 0 < m
  stored : ∀ key z, s.redis.get key = some z → ∃ lapse, z.expireAt = some lapse ∧
    ∀ member score, z.members.get member = some score →
      score ≤ s.clock ∧ score + s.limiter.connLimitExpiry.toNat ≤ lapse
  same : ∀ user t, s.clock ≤ t → ∀ key,
    (s.limiter.liveDevices user (Twin.instant t)).get key =
      ((Window.expire s.limiter.connLimitExpiry.toNat t
        (Redis.members s.redis t (redisKey user))).get key).map Twin.instant
  room : ∀ user m, s.limiter.userLimits.get user = some m → ∀ t, s.clock ≤ t →
    (s.limiter.liveDevices user (Twin.instant t)).len ≤ m.toNat

namespace Paired

variable {s : Twin}

theorem remoteDevs_eq_zero (hp : Paired s) (user : UInt32) : s.limiter.remoteDevs user = 0 := by
  simp [DeviceLimiter.remoteDevs, hp.alone]

/-- What is stored stays within its bounds as time goes on. -/
theorem stored_later (hp : Paired s) {now : Nat} (hclock : s.clock ≤ now) {key : String}
    {z : Redis.ZKey} (hget : s.redis.get key = some z) :
    ∃ lapse, z.expireAt = some lapse ∧ ∀ member score, z.members.get member = some score →
      score ≤ now ∧ score + s.limiter.connLimitExpiry.toNat ≤ lapse := by
  obtain ⟨lapse, hlapse, hscores⟩ := hp.stored key z hget
  refine ⟨lapse, hlapse, ?_⟩
  intro member score hmem
  obtain ⟨hle, hbound⟩ := hscores member score hmem
  exact ⟨Nat.le_trans hle hclock, hbound⟩

theorem get_members (hp : Paired s) {key member : String} {t score : Nat}
    (h : (Redis.members s.redis t key).get member = some score) :
    ∃ z lapse, s.redis.get key = some z ∧ z.expireAt = some lapse ∧ t ≤ lapse ∧
      z.members.get member = some score := by
  rcases hget : s.redis.get key with - | z
  · simp [Redis.members, Redis.find, hget] at h
  · obtain ⟨lapse, hlapse, -⟩ := hp.stored key z hget
    rw [Redis.members_of_get hget] at h
    cases hz : z.present t
    · simp [hz] at h
    · rw [hz, if_pos rfl] at h
      refine ⟨z, lapse, rfl, hlapse, ?_, h⟩
      simpa [Redis.ZKey.present, hlapse] using hz

/-- A key that lapses takes no fresh member with it. -/
theorem get_expire_members (hp : Paired s) {now t : Nat} (h : now ≤ t) (key k : String) :
    (Window.expire s.limiter.connLimitExpiry.toNat t (Redis.members s.redis now key)).get k =
      (Window.expire s.limiter.connLimitExpiry.toNat t (Redis.members s.redis t key)).get k := by
  rcases hget : s.redis.get key with - | z
  · have hnone : ∀ t, Redis.members s.redis t key = ∅ := by
      intro t
      simp [Redis.members, Redis.find, hget]
    rw [hnone, hnone]
  · rw [Redis.members_of_get hget, Redis.members_of_get hget]
    cases hz : z.present t
    · obtain ⟨lapse, hlapse, hscores⟩ := hp.stored key z hget
      have hlate : lapse < t := by simpa [Redis.ZKey.present, hlapse] using hz
      simp only [Bool.false_eq_true, if_false, Window.expire_empty, AssocMap.get_empty]
      cases z.present now
      · rfl
      · rw [if_pos rfl, Window.get_expire]
        apply Option.filter_eq_none_iff.mpr
        intro score hscore hfresh
        have hle := (hscores k score hscore).2
        rw [Window.fresh_iff] at hfresh
        omega
    · rw [Redis.ZKey.present_of_le h hz]

/-- Off the edge, the script's removal takes nothing that is fresh. -/
theorem get_expire_redisDevices (hp : Paired s) {user : UInt32} {ip : IpAddr} {now t : Nat}
    (hclock : s.clock ≤ now) (hoff : s.OffEdge (.check user ip now)) (h : now ≤ t) (k : String) :
    (Window.expire s.limiter.connLimitExpiry.toNat t
      (s.limiter.redisDevices s.redis user now t)).get k =
    (Window.expire s.limiter.connLimitExpiry.toNat t
      (Redis.members s.redis t (redisKey user))).get k := by
  have hsame := hp.same user t (Nat.le_trans hclock h) k
  rw [Window.get_expire] at hsame ⊢
  rw [Window.get_expire, DeviceLimiter.redisDevices, AssocMap.get_retain]
  rcases hget : (Redis.members s.redis t (redisKey user)).get k with - | score
  · rfl
  · rw [hget] at hsame
    cases hfresh : Window.fresh s.limiter.connLimitExpiry.toNat t score
    · simp [Option.filter_some, hfresh]
    · -- a fresh member at the cutoff would be a device on the edge
      have hcut : decide (((now : Int) - s.limiter.connLimitExpiry.toNat) < (score : Int)) = true := by
        rw [decide_eq_true_iff]
        rw [Option.filter_some, if_pos hfresh, Option.map_some] at hsame
        have hdev : (s.limiter.devices user).get k = some (Twin.instant score) := by
          unfold DeviceLimiter.liveDevices at hsame
          rw [Window.get_expire, Option.filter_eq_some_iff] at hsame
          exact hsame.1
        have hne := hoff k _ hdev
        rw [hp.window] at hne
        rw [Window.fresh_iff] at hfresh
        unfold Twin.instant nanosPerSec at hne
        omega
      simp [Option.filter_some, hfresh, hcut]

/-- What the script sees is what the local check sees. -/
theorem get_redisDevices (hp : Paired s) {user : UInt32} {ip : IpAddr} {now : Nat}
    (hclock : s.clock ≤ now) (hoff : s.OffEdge (.check user ip now)) (k : String) :
    (s.limiter.liveDevices user (Twin.instant now)).get k =
      ((s.limiter.redisDevices s.redis user now now).get k).map Twin.instant := by
  have hcut : Window.expire s.limiter.connLimitExpiry.toNat now
      (s.limiter.redisDevices s.redis user now now) =
      s.limiter.redisDevices s.redis user now now := by
    apply AList.ext
    apply List.filter_eq_self.mpr
    intro e he
    have hlt := of_decide_eq_true (List.mem_filter.mp he).2
    show Window.fresh _ now e.2 = true
    rw [Window.fresh_iff]
    omega
  rw [hp.same user now hclock k, ← get_expire_redisDevices hp hclock hoff (Nat.le_refl now), hcut]

/-- **Both decide alike.** -/
theorem refuses_iff (hp : Paired s) {user : UInt32} {ip : IpAddr} {now : Nat}
    (hclock : s.clock ≤ now) (hoff : s.OffEdge (.check user ip now)) :
    s.limiter.Refuses user ip (Twin.instant now) ↔ s.limiter.RedisRefuses s.redis user ip now := by
  have hget := get_redisDevices hp hclock hoff
  -- the same devices on both sides, hence the same membership and the same count
  have hcontains : (s.limiter.liveDevices user (Twin.instant now)).contains
      (s.limiter.normalizeIp ip) =
      (s.limiter.redisDevices s.redis user now now).contains (s.limiter.normalizeIp ip) := by
    unfold AssocMap.contains
    rw [hget, Option.isSome_map]
  have hlen : (s.limiter.liveDevices user (Twin.instant now)).len =
      (s.limiter.redisDevices s.redis user now now).len := by
    apply AssocMap.len_eq_of_get_isSome
    intro k
    rw [hget, Option.isSome_map]
  rw [DeviceLimiter.Refuses, DeviceLimiter.RedisRefuses]
  rw [hcontains, hlen, hp.remoteDevs_eq_zero user]
  rcases hlim : s.limiter.userLimits.get user with - | m
  · simp
  · have hpos := hp.limits user m hlim
    have hroom := hp.room user m hlim now hclock
    have hm := m.toNat_lt
    rw [hlen] at hroom
    have hsum : m ≤ UInt32.ofNat (s.limiter.redisDevices s.redis user now now).len + 0 ↔
        m.toNat ≤ (s.limiter.redisDevices s.redis user now now).len :=
      DeviceLimiter.le_ofNat_add_zero_iff (by omega)
    have hpos' : 0 < m.toNat := UInt32.lt_iff_toNat_lt.mp hpos
    simp only [Option.some.injEq, exists_eq_left', hsum, Option.getD_some, hpos', true_and]

/-! ### One step -/

/-- A refused check changes nothing that shows. -/
theorem refuse (hp : Paired s) {user : UInt32} {ip : IpAddr} {now : Nat}
    (hclock : s.clock ≤ now) (hoff : s.OffEdge (.check user ip now)) :
    Paired ⟨s.limiter.setDevices user (s.limiter.liveDevices user (Twin.instant now)),
      Redis.zRemRangeByScore s.redis now (redisKey user)
        ((now : Int) - s.limiter.connLimitExpiry.toNat), now⟩ where
  window := hp.window
  alone := hp.alone
  limits := hp.limits
  stored key z hget := by
    obtain ⟨z₀, hget₀, hexp, hsub⟩ := Redis.get_zRemRangeByScore_eq_some hget
    obtain ⟨lapse, hlapse, hscores⟩ := hp.stored_later hclock hget₀
    exact ⟨lapse, hexp.trans hlapse, fun member score hmem =>
      hscores member score (hsub member score hmem)⟩
  same user' t ht key := by
    have hinst := instant_mono ht
    dsimp only at ht ⊢
    rw [DeviceLimiter.liveDevices_setDevices_live hinst,
      hp.same user' t (Nat.le_trans hclock ht) key]
    by_cases hu : user' = user
    · subst hu
      rw [Redis.members_zRemRangeByScore ht, ← get_expire_redisDevices hp hclock hoff ht]
      rfl
    · have hkey : redisKey user' ≠ redisKey user := fun heq =>
        hu (DeviceLimiter.redisKey_injective heq)
      rw [Redis.members_congr (Redis.get_zRemRangeByScore_ne hkey)]
      rfl
  room user' m hlim t ht := by
    have hinst := instant_mono ht
    dsimp only at ht ⊢
    rw [DeviceLimiter.liveDevices_setDevices_live hinst]
    exact hp.room user' m hlim t (Nat.le_trans hclock ht)

/-- The recorded set, at any later time: the device, and what was there. -/
theorem get_expire_recorded (hp : Paired s) {user : UInt32} {ip : IpAddr} {now t : Nat}
    {db' : Redis.Db} (hclock : s.clock ≤ now) (hoff : s.OffEdge (.check user ip now))
    (hdb : ∀ key, db'.get key =
      if key = redisKey user then
        some ⟨(s.limiter.redisDevices s.redis user now now).insert (s.limiter.normalizeIp ip) now,
          some (now + s.limiter.connLimitExpiry.toNat)⟩
      else s.redis.get key)
    (ht : now ≤ t) (k : String) :
    (Window.expire s.limiter.connLimitExpiry.toNat t
      (Redis.members db' t (redisKey user))).get k =
    if k = s.limiter.normalizeIp ip then
      (some now).filter (Window.fresh s.limiter.connLimitExpiry.toNat t)
    else (Window.expire s.limiter.connLimitExpiry.toNat t
      (Redis.members s.redis t (redisKey user))).get k := by
  have hget := hdb (redisKey user)
  rw [if_pos rfl] at hget
  rw [Redis.members_of_get hget]
  by_cases hpres : t ≤ now + s.limiter.connLimitExpiry.toNat
  · -- the key is there: compare the two sets member by member
    have hz : (Redis.ZKey.mk ((s.limiter.redisDevices s.redis user now now).insert
        (s.limiter.normalizeIp ip) now) (some (now + s.limiter.connLimitExpiry.toNat))).present t
        = true := decide_eq_true hpres
    rw [if_pos hz, Window.get_expire_insert]
    by_cases hk : k = s.limiter.normalizeIp ip
    · rw [if_pos hk, if_pos hk]
    · rw [if_neg hk, if_neg hk, ← get_expire_redisDevices hp hclock hoff ht]
      unfold DeviceLimiter.redisDevices
      rw [Window.get_expire_retain, Window.get_expire_retain, get_expire_members hp ht]
  · -- the key has lapsed: nothing that was recorded by now is fresh
    have hz : (Redis.ZKey.mk ((s.limiter.redisDevices s.redis user now now).insert
        (s.limiter.normalizeIp ip) now) (some (now + s.limiter.connLimitExpiry.toNat))).present t
        = false := decide_eq_false hpres
    rw [hz]
    simp only [Bool.false_eq_true, if_false, Window.expire_empty, AssocMap.get_empty]
    have hstale : ∀ score, score ≤ now →
        Window.fresh s.limiter.connLimitExpiry.toNat t score = false := by
      intro score hle
      rw [Window.fresh]
      exact decide_eq_false (by omega)
    by_cases hk : k = s.limiter.normalizeIp ip
    · rw [if_pos hk, Option.filter_some, hstale now (Nat.le_refl now)]
      rfl
    · rw [if_neg hk, Window.get_expire, eq_comm]
      apply Option.filter_eq_none_iff.mpr
      intro score hscore hfresh
      obtain ⟨z, lapse, hz, -, -, hmem⟩ := hp.get_members hscore
      obtain ⟨_, -, hscores⟩ := hp.stored_later hclock hz
      rw [hstale score (hscores k score hmem).1] at hfresh
      cases hfresh

/-- An admitted check shows the device in both. -/
theorem record (hp : Paired s) {user : UInt32} {ip : IpAddr} {now : Nat} {db' : Redis.Db}
    (hclock : s.clock ≤ now) (hoff : s.OffEdge (.check user ip now))
    (hok : ¬ s.limiter.Refuses user ip (Twin.instant now))
    (hdb : ∀ key, db'.get key =
      if key = redisKey user then
        some ⟨(s.limiter.redisDevices s.redis user now now).insert (s.limiter.normalizeIp ip) now,
          some (now + s.limiter.connLimitExpiry.toNat)⟩
      else s.redis.get key) :
    Paired ⟨s.limiter.setDevices user
      ((s.limiter.liveDevices user (Twin.instant now)).insert (s.limiter.normalizeIp ip)
        (Twin.instant now)), db', now⟩ where
  window := hp.window
  alone := hp.alone
  limits := hp.limits
  stored key z hget := by
    dsimp only at hget ⊢
    rw [hdb] at hget
    by_cases hk : key = redisKey user
    -- the key was written now and lapses one expiry later
    · rw [if_pos hk, Option.some.injEq] at hget
      subst hget
      refine ⟨_, rfl, ?_⟩
      intro member score hmem
      rcases AssocMap.get_insert_eq_some hmem with ⟨-, rfl⟩ | ⟨-, hold⟩
      · exact ⟨Nat.le_refl _, Nat.le_refl _⟩
      · rw [DeviceLimiter.redisDevices, AssocMap.get_retain, Option.filter_eq_some_iff] at hold
        obtain ⟨z₀, lapse, hz₀, hlapse, -, hscore⟩ := hp.get_members hold.1
        obtain ⟨_, -, hscores⟩ := hp.stored_later hclock hz₀
        have hle := (hscores member score hscore).1
        exact ⟨hle, Nat.add_le_add_right hle _⟩
    · rw [if_neg hk] at hget
      exact hp.stored_later hclock hget
  same user' t ht key := by
    have hinst := instant_mono ht
    dsimp only at ht ⊢
    by_cases hu : user' = user
    · subst hu
      show _ = ((Window.expire s.limiter.connLimitExpiry.toNat t _).get key).map _
      rw [DeviceLimiter.get_liveDevices_record hinst, get_expire_recorded hp hclock hoff hdb ht]
      by_cases hk : key = s.limiter.normalizeIp ip
      · rw [if_pos ⟨rfl, hk⟩, if_pos hk, hp.window]
        simp only [Option.filter_some, fresh_instant]
        cases Window.fresh s.limiter.connLimitExpiry.toNat t now <;> rfl
      · rw [if_neg fun hc => hk hc.2, if_neg hk]
        exact hp.same user' t (Nat.le_trans hclock ht) key
    · have hkey : redisKey user' ≠ redisKey user := fun heq =>
        hu (DeviceLimiter.redisKey_injective heq)
      have hget : db'.get (redisKey user') = s.redis.get (redisKey user') := by
        rw [hdb, if_neg hkey]
      rw [DeviceLimiter.liveDevices_setDevices_ne hu, Redis.members_congr hget]
      exact hp.same user' t (Nat.le_trans hclock ht) key
  room user' m hlim t ht := by
    have hinst := instant_mono ht
    dsimp only at ht hlim ⊢
    by_cases hu : user' = user
    · subst hu
      refine Nat.le_trans (DeviceLimiter.len_liveDevices_record_le hinst) ?_
      have hnow := hp.room user' m hlim now hclock
      cases hkey : (s.limiter.liveDevices user' (Twin.instant now)).contains
          (s.limiter.normalizeIp ip)
      · -- not refused, so there was room
        show _ + 1 ≤ m.toNat
        by_contra hfull
        apply hok
        have hm := m.toNat_lt
        refine ⟨m, hlim, hkey, ?_⟩
        rw [hp.remoteDevs_eq_zero user', DeviceLimiter.le_ofNat_add_zero_iff (by omega)]
        omega
      · exact hnow
    · rw [DeviceLimiter.liveDevices_setDevices_ne hu]
      exact hp.room user' m hlim t (Nat.le_trans hclock ht)

/-- Listing the devices changes nothing that shows. -/
theorem list (hp : Paired s) {user : UInt32} {now : Nat} (hclock : s.clock ≤ now) :
    Paired ⟨(s.limiter.getOnlineDevices user (Twin.instant now)).1, s.redis, now⟩ := by
  have hlive : ∀ user' t, now ≤ t →
      (s.limiter.getOnlineDevices user (Twin.instant now)).1.liveDevices user' (Twin.instant t) =
        s.limiter.liveDevices user' (Twin.instant t) := by
    intro user' t ht
    exact DeviceLimiter.liveDevices_getOnlineDevices (instant_mono ht) user'
  have hframe := DeviceLimiter.getOnlineDevices_frame s.limiter user (Twin.instant now)
  generalize hl : (s.limiter.getOnlineDevices user (Twin.instant now)).1 = l' at hlive hframe ⊢
  refine ⟨?_, ?_, ?_, ?_, ?_, ?_⟩
  · rw [hframe]
    exact hp.window
  · rw [hframe]
    exact hp.alone
  · rw [hframe]
    exact hp.limits
  · intro key z hget
    rw [hframe]
    exact hp.stored_later hclock hget
  · intro user' t ht key
    dsimp only at ht ⊢
    rw [hlive user' t ht, hframe]
    exact hp.same user' t (Nat.le_trans hclock ht) key
  · intro user' m hlim t ht
    dsimp only at ht hlim ⊢
    rw [hlive user' t ht]
    rw [hframe] at hlim
    exact hp.room user' m hlim t (Nat.le_trans hclock ht)

/-- **One step keeps the two paired.** -/
theorem step (hp : Paired s) {s' : Twin} {e : TwinEvent} (hoff : s.OffEdge e)
    (hs : s.step e = some s') : Paired s' := by
  cases e with
  | check user ip now =>
      simp only [Twin.step] at hs
      split at hs
      · rename_i hclock
        obtain rfl := Option.some.inj hs
        have hiff := refuses_iff hp hclock hoff
        rcases DeviceLimiter.checkAndRecord_cases s.limiter user ip (Twin.instant now) with
          ⟨href, heq⟩ | ⟨hok, heq⟩
        · rcases DeviceLimiter.checkRedis_cases s.limiter s.redis user ip now with
            ⟨-, -, hdb⟩ | ⟨hokR, -, -⟩
          · rw [heq, hdb]
            exact refuse hp hclock hoff
          · exact absurd (hiff.mp href) hokR
        · rcases DeviceLimiter.checkRedis_cases s.limiter s.redis user ip now with
            ⟨hrefR, -, -⟩ | ⟨-, -, hdb⟩
          · exact absurd (hiff.mpr hrefR) hok
          · rw [heq]
            exact record hp hclock hoff hok hdb
      · cases hs
  | list user now =>
      simp only [Twin.step] at hs
      split at hs
      · rename_i hclock
        obtain rfl := Option.some.inj hs
        exact list hp hclock
      · cases hs

theorem decision_eq (hp : Paired s) {user : UInt32} {ip : IpAddr} {now : Nat}
    (hclock : s.clock ≤ now) (hoff : s.OffEdge (.check user ip now)) :
    (s.limiter.checkRedis s.redis user ip now).2 =
      (s.limiter.checkAndRecord user ip (Twin.instant now)).2 := by
  have hiff := refuses_iff hp hclock hoff
  rcases DeviceLimiter.checkAndRecord_cases s.limiter user ip (Twin.instant now) with
    ⟨href, heq⟩ | ⟨hok, heq⟩
  · rcases DeviceLimiter.checkRedis_cases s.limiter s.redis user ip now with
      ⟨-, hfalse, -⟩ | ⟨hokR, -, -⟩
    · rw [heq, hfalse]
    · exact absurd (hiff.mp href) hokR
  · rcases DeviceLimiter.checkRedis_cases s.limiter s.redis user ip now with
      ⟨hrefR, -, -⟩ | ⟨-, htrue, -⟩
    · exact absurd (hiff.mpr hrefR) hok
    · rw [heq, htrue]

/-- **Both list the same devices.** -/
theorem listing_perm (hp : Paired s) {user : UInt32} {now : Nat} (hclock : s.clock ≤ now) :
    (s.limiter.getRedisOnlineDevices s.redis user now).Perm
      (s.limiter.getOnlineDevices user (Twin.instant now)).2 := by
  have hlocal : (s.limiter.getOnlineDevices user (Twin.instant now)).2 =
      (s.limiter.liveDevices user (Twin.instant now)).keys := by
    rw [DeviceLimiter.getOnlineDevices, DeviceLimiter.liveDevices, DeviceLimiter.devices]
    rcases s.limiter.userDevices.get user with - | devices <;> rfl
  have hredis : s.limiter.getRedisOnlineDevices s.redis user now =
      (Window.expire s.limiter.connLimitExpiry.toNat now
        (Redis.members s.redis now (redisKey user))).keys := by
    have hrange : (fun (_ : String) (score : Nat) =>
        decide (now - s.limiter.connLimitExpiry.toNat ≤ score)) =
        fun _ score => Window.fresh s.limiter.connLimitExpiry.toNat now score := by
      funext _ score
      rw [Window.fresh]
      rw [decide_eq_decide]
      omega
    unfold DeviceLimiter.getRedisOnlineDevices Redis.zRangeByScore Window.expire
    dsimp only
    rw [hrange]
  rw [hlocal, hredis]
  apply (List.perm_ext_iff_of_nodup (AList.keys_nodup _) (AList.keys_nodup _)).mpr
  intro key
  rw [AssocMap.mem_keys_iff, AssocMap.mem_keys_iff, ← Option.isSome_iff_exists,
    ← Option.isSome_iff_exists, hp.same user now hclock key, Option.isSome_map]

end Paired

/-! ### Agreement over whole runs -/

/-- Setting limits changes the limits only, and stores no zero. -/
theorem foldl_setUserLimit (limits : List (UInt32 × UInt32)) {l : DeviceLimiter}
    (hpos : ∀ user m, l.userLimits.get user = some m → 0 < m) :
    ∃ userLimits, limits.foldl (fun l limit => l.setUserLimit limit.1 limit.2) l =
      { l with userLimits } ∧ ∀ user m, userLimits.get user = some m → 0 < m := by
  induction limits generalizing l with
  | nil => exact ⟨l.userLimits, rfl, hpos⟩
  | cons limit limits ih =>
      have hset : ∀ user m, (l.setUserLimit limit.1 limit.2).userLimits.get user = some m →
          0 < m := by
        intro user m hget
        unfold DeviceLimiter.setUserLimit at hget
        by_cases hlim : 0 < limit.2
        · simp only [hlim, if_true] at hget
          rcases AssocMap.get_insert_eq_some hget with ⟨-, rfl⟩ | ⟨-, hold⟩
          · exact hlim
          · exact hpos user m hold
        · simp only [hlim, if_false] at hget
          exact hpos user m (AssocMap.get_erase_eq_some hget).2
      obtain ⟨userLimits, heq, hpos'⟩ := ih hset
      exact ⟨userLimits, heq, hpos'⟩

theorem paired_new {window : UInt64} (hwin : 0 < window) (prefixV4 prefixV6 : UInt8)
    (limits : List (UInt32 × UInt32)) : Paired (Twin.new window prefixV4 prefixV6 limits) := by
  have hmax : max window 1 = window := by
    show (if window ≤ 1 then 1 else window) = window
    split
    · rename_i hle
      rw [UInt64.lt_iff_toNat_lt] at hwin
      rw [UInt64.le_iff_toNat_le] at hle
      exact UInt64.toNat_inj.mp (Nat.le_antisymm hwin hle)
    · rfl
  obtain ⟨userLimits, heq, hpos⟩ := foldl_setUserLimit limits
    (l := DeviceLimiter.newWithRedis window prefixV4 prefixV6 window) (fun _ _ h => (by cases h))
  have hnew : Twin.new window prefixV4 prefixV6 limits =
      ⟨{ DeviceLimiter.newWithRedis window prefixV4 prefixV6 window with userLimits }, ∅, 0⟩ := by
    rw [Twin.new]
    rw [heq]
  rw [hnew]
  refine ⟨?_, rfl, hpos, fun _ _ h => (by cases h), fun _ _ _ _ => rfl, ?_⟩
  · show window.toNat * nanosPerSec = Twin.instant (max window 1).toNat
    rw [hmax]
    rfl
  · intro user m _ t _
    exact Nat.zero_le _

/-- **Redis and local device limiting agree.**  For every window equal to the
expiry, all prefix lengths and limits, and every run of checks and listings at
non-decreasing whole seconds in which no check meets a device seen exactly one
window before: the next check that does not either is decided alike, and the
listed devices are the same. -/
theorem redis_agrees_local {window : UInt64} (hwin : 0 < window) (prefixV4 prefixV6 : UInt8)
    (limits : List (UInt32 × UInt32)) {es : List TwinEvent} {s : Twin}
    (hoff : Run.Along Twin.step Twin.OffEdge (Twin.new window prefixV4 prefixV6 limits) es)
    (hrun : Run.exec Twin.step (Twin.new window prefixV4 prefixV6 limits) es = some s) :
    (∀ user ip now, s.clock ≤ now → s.OffEdge (.check user ip now) →
      (s.limiter.checkRedis s.redis user ip now).2 =
        (s.limiter.checkAndRecord user ip (Twin.instant now)).2) ∧
    (∀ user now, s.clock ≤ now →
      (s.limiter.getRedisOnlineDevices s.redis user now).Perm
        (s.limiter.getOnlineDevices user (Twin.instant now)).2) := by
  have hp : Paired s := Run.exec_invariant (fun hp hedge hs => Paired.step hp hedge hs) hrun hoff
    (paired_new hwin prefixV4 prefixV6 limits)
  exact ⟨fun _ _ _ hclock hedge => hp.decision_eq hclock hedge,
    fun _ _ hclock => hp.listing_perm hclock⟩

def tablet : IpAddr := .v4 (.new 10 0 0 1)

def desktop : IpAddr := .v4 (.new 10 0 0 2)

/-- One device of a user with limit one and a window of ten seconds. -/
def tabletRun : List TwinEvent := [.check 7 tablet 0]

theorem redis_agrees_local_refused :
    ∃ s : Twin, Run.exec Twin.step (Twin.new 10 32 128 [(7, 1)]) tabletRun = some s ∧
      (s.limiter.checkRedis s.redis 7 desktop 5).2 = false ∧
      (s.limiter.checkRedis s.redis 7 desktop 5).2 =
        (s.limiter.checkAndRecord 7 desktop (Twin.instant 5)).2 := by
  refine ⟨_, rfl, by decide, ?_⟩
  refine (@redis_agrees_local 10 (by decide) 32 128 [(7, 1)] tabletRun _ ?_ rfl).1
    7 desktop 5 (by decide) ?_
  · refine Run.along_cons ?_ rfl trivial
    intro key seen hget
    cases hget
  · intro key seen hget
    obtain ⟨-, rfl⟩ := Prod.mk.injEq .. ▸ List.mem_singleton.mp (AssocMap.mem_pairs.mpr hget)
    decide

/-- Ten seconds later the local limiter still counts the tablet and refuses
the desktop; the script has removed it and admits. -/
theorem redis_disagrees_on_edge :
    ∃ s : Twin, Run.exec Twin.step (Twin.new 10 32 128 [(7, 1)]) tabletRun = some s ∧
      s.clock ≤ 10 ∧
      (s.limiter.checkRedis s.redis 7 desktop 10).2 ≠
        (s.limiter.checkAndRecord 7 desktop (Twin.instant 10)).2 := by
  refine ⟨_, rfl, by decide, ?_⟩
  decide

end Elise
