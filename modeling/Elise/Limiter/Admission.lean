/-
Elise/Limiter/Admission.lean

Runs of the device limiter, and what `check_and_record` decides in them.

`Clocked` adds the clock that makes times non-decreasing.  `Sightings` is a
ghost that is never expired: per user, when each device was last admitted.
The limiter's tables are expired by every operation that touches them; the
invariant `Tracks` says that this never shows, so a decision is one about the
devices really seen within the window.

The decision is right unless the 32-bit sum of live and remote devices wraps
below the limit; `admission_exact` gives this as an equivalence, for every
state of every run.
-/
import Elise.Lib.Run
import Elise.Limiter.Device

namespace Elise

open Net

/-! ### Runs -/

inductive LimiterEvent where
  | setUserLimit (userId limit : UInt32)
  | updateGlobalAlive (map : AssocMap UInt32 UInt32)
  | checkAndRecord (userId : UInt32) (ip : IpAddr) (now : Nat)
  | getOnlineDevices (userId : UInt32) (now : Nat)
  | getAllOnlineDevices (now : Nat)
  | pruneExpired (now : Nat)

/-- A limiter and the time of the last operation on it. -/
structure Clocked where
  limiter : DeviceLimiter
  clock : Nat

namespace Clocked

/-- An operation at a time that is not before the last one. -/
def tick (c : Clocked) (now : Nat) (l : DeviceLimiter) : Option Clocked :=
  if c.clock ≤ now then some ⟨l, now⟩ else none

def step (c : Clocked) : LimiterEvent → Option Clocked
  | .setUserLimit userId limit => some { c with limiter := c.limiter.setUserLimit userId limit }
  | .updateGlobalAlive map => some { c with limiter := c.limiter.updateGlobalAlive map }
  | .checkAndRecord userId ip now => c.tick now (c.limiter.checkAndRecord userId ip now).1
  | .getOnlineDevices userId now => c.tick now (c.limiter.getOnlineDevices userId now).1
  | .getAllOnlineDevices now => c.tick now (c.limiter.getAllOnlineDevices now).1
  | .pruneExpired now => c.tick now (c.limiter.pruneExpired now)

theorem tick_eq_some {c c' : Clocked} {now : Nat} {l : DeviceLimiter} :
    c.tick now l = some c' ↔ c.clock ≤ now ∧ c' = ⟨l, now⟩ := by
  rw [tick]
  by_cases h : c.clock ≤ now
  · rw [if_pos h, Option.some.injEq]
    exact ⟨fun heq => ⟨h, heq.symm⟩, fun heq => heq.2.symm⟩
  · rw [if_neg h]
    exact ⟨fun hc => (by cases hc), fun hc => absurd hc.1 h⟩

end Clocked

/-- Per user, the time each device was last admitted at. -/
abbrev Sightings := UInt32 → AssocMap String Nat

namespace Sightings

def empty : Sightings := fun _ => ∅

def record (g : Sightings) (user : UInt32) (key : String) (now : Nat) : Sightings :=
  fun user' => if user' = user then (g user').insert key now else g user'

def post (c : Clocked) (g : Sightings) : LimiterEvent → Sightings
  | .checkAndRecord userId ip now =>
      if (c.limiter.checkAndRecord userId ip now).2 then
        g.record userId (c.limiter.normalizeIp ip) now
      else g
  | _ => g

/-- The devices of a user that were admitted within the window at `t`. -/
def live (g : Sightings) (l : DeviceLimiter) (user : UInt32) (t : Nat) : AssocMap String Nat :=
  Window.expire l.windowDuration t (g user)

end Sightings

/-- **What a step does to the devices**: nothing that a later look can see, or
it admits one. -/
theorem Clocked.step_cases {c c' : Clocked} {e : LimiterEvent} (g : Sightings)
    (h : c.step e = some c') :
    (c.clock ≤ c'.clock ∧ c'.limiter.windowDuration = c.limiter.windowDuration ∧
      g.post c e = g ∧
      ∀ user t, c'.clock ≤ t → c'.limiter.liveDevices user t = c.limiter.liveDevices user t) ∨
    (∃ user ip now, e = .checkAndRecord user ip now ∧ c.clock ≤ now ∧
      ¬ c.limiter.Refuses user ip now ∧
      c' = ⟨c.limiter.setDevices user
        ((c.limiter.liveDevices user now).insert (c.limiter.normalizeIp ip) now), now⟩ ∧
      g.post c e = g.record user (c.limiter.normalizeIp ip) now) := by
  cases e with
  | setUserLimit userId limit =>
      obtain rfl := Option.some.inj h
      exact .inl ⟨Nat.le_refl _, rfl, rfl, fun _ _ _ => rfl⟩
  | updateGlobalAlive map =>
      obtain rfl := Option.some.inj h
      exact .inl ⟨Nat.le_refl _, rfl, rfl, fun _ _ _ => rfl⟩
  | checkAndRecord user ip now =>
      obtain ⟨hle, rfl⟩ := Clocked.tick_eq_some.mp h
      rcases DeviceLimiter.checkAndRecord_cases c.limiter user ip now with
        ⟨-, heq⟩ | ⟨hok, heq⟩
      -- refused: only devices that are no longer live were dropped
      · refine .inl ⟨hle, ?_, ?_, ?_⟩
        · simp only [heq]
          rfl
        · simp [Sightings.post, heq]
        · intro user' t ht
          simp only [heq]
          exact DeviceLimiter.liveDevices_setDevices_live ht user'
      · refine .inr ⟨user, ip, now, rfl, hle, hok, ?_, ?_⟩
        · simp only [heq]
        · simp [Sightings.post, heq]
  | getOnlineDevices user now =>
      obtain ⟨hle, rfl⟩ := Clocked.tick_eq_some.mp h
      refine .inl ⟨hle, ?_, rfl, ?_⟩
      · show (c.limiter.getOnlineDevices user now).1.windowDuration = _
        rw [DeviceLimiter.getOnlineDevices_frame]
      · intro user' t ht
        exact DeviceLimiter.liveDevices_getOnlineDevices ht user'
  | getAllOnlineDevices now =>
      obtain ⟨hle, rfl⟩ := Clocked.tick_eq_some.mp h
      exact .inl ⟨hle, rfl, rfl, fun user t ht =>
        DeviceLimiter.liveDevices_getAllOnlineDevices ht user⟩
  | pruneExpired now =>
      obtain ⟨hle, rfl⟩ := Clocked.tick_eq_some.mp h
      exact .inl ⟨hle, rfl, rfl, fun user t ht => DeviceLimiter.liveDevices_pruneExpired ht user⟩

/-! ### The limiter tracks what was seen -/

/-- From now on, the limiter shows the devices that were seen. -/
def Tracks (c : Clocked × Sightings) : Prop :=
  ∀ user t, c.1.clock ≤ t → ∀ key,
    (c.1.limiter.liveDevices user t).get key = (c.2.live c.1.limiter user t).get key

theorem tracks_step {c c' : Clocked × Sightings} {e : LimiterEvent} (hinv : Tracks c)
    (hs : Run.track Clocked.step Sightings.post c e = some c') : Tracks c' := by
  obtain ⟨c, g⟩ := c
  obtain ⟨c', g'⟩ := c'
  obtain ⟨hstep, rfl⟩ := Run.track_eq_some.mp hs
  intro user t ht key
  dsimp only at hstep ht ⊢
  rcases Clocked.step_cases g hstep with
    ⟨hclock, hwin, hpost, hlive⟩ | ⟨user₀, ip, now, rfl, hle, -, rfl, hpost⟩
  -- nothing that shows changed, on either side
  · rw [hpost, hlive user t ht, hinv user t (Nat.le_trans hclock ht) key]
    unfold Sightings.live
    rw [hwin]
  -- the admitted device is recorded on both sides at the same time
  · have hold := hinv user t (Nat.le_trans hle ht) key
    rw [hpost, DeviceLimiter.get_liveDevices_record ht]
    unfold Sightings.live at hold ⊢
    rw [Sightings.record]
    by_cases hu : user = user₀
    · rw [if_pos hu, Window.get_expire_insert]
      by_cases hk : key = c.limiter.normalizeIp ip
      · rw [if_pos ⟨hu, hk⟩, if_pos hk]
        rfl
      · rw [if_neg fun hc => hk hc.2, if_neg hk]
        exact hold
    · rw [if_neg fun hc => hu hc.1, if_neg hu]
      exact hold

theorem Tracks.contains_eq {c : Clocked × Sightings} (h : Tracks c) {user : UInt32} {t : Nat}
    (ht : c.1.clock ≤ t) (key : String) :
    (c.1.limiter.liveDevices user t).contains key = (c.2.live c.1.limiter user t).contains key := by
  unfold AssocMap.contains
  rw [h user t ht key]

theorem Tracks.len_eq {c : Clocked × Sightings} (h : Tracks c) {user : UInt32} {t : Nat}
    (ht : c.1.clock ≤ t) :
    (c.1.limiter.liveDevices user t).len = (c.2.live c.1.limiter user t).len := by
  apply AssocMap.len_eq_of_get_isSome
  intro key
  rw [h user t ht key]

/-! ### The decision -/

/-- The check should be refused: the user has a limit `m`, the device was not
seen within the window, and the live devices and the remote ones, as an
unbounded sum, reach `m`. -/
def Due (l : DeviceLimiter) (g : Sightings) (user : UInt32) (ip : IpAddr) (t : Nat) : Prop :=
  ∃ m, l.userLimits.get user = some m ∧
    (g.live l user t).contains (l.normalizeIp ip) = false ∧
    m.toNat ≤ (g.live l user t).len + (l.remoteDevs user).toNat

/-- The check reaches the limit, but its 32-bit sum wraps below the limit. -/
def Wraps (l : DeviceLimiter) (g : Sightings) (user : UInt32) (ip : IpAddr) (t : Nat) : Prop :=
  ∃ m, l.userLimits.get user = some m ∧
    (g.live l user t).contains (l.normalizeIp ip) = false ∧
    m.toNat ≤ (g.live l user t).len + (l.remoteDevs user).toNat ∧
    ((g.live l user t).len + (l.remoteDevs user).toNat) % 2 ^ 32 < m.toNat

theorem Tracks.refuses_iff {c : Clocked × Sightings} (h : Tracks c) {user : UInt32}
    {ip : IpAddr} {t : Nat} (ht : c.1.clock ≤ t) :
    c.1.limiter.Refuses user ip t ↔
      ∃ m, c.1.limiter.userLimits.get user = some m ∧
        (c.2.live c.1.limiter user t).contains (c.1.limiter.normalizeIp ip) = false ∧
        m.toNat ≤ ((c.2.live c.1.limiter user t).len + (c.1.limiter.remoteDevs user).toNat)
          % 2 ^ 32 := by
  rw [DeviceLimiter.Refuses]
  simp only [h.contains_eq ht, h.len_eq ht, DeviceLimiter.le_ofNat_add_iff]

theorem Tracks.decision_iff {c : Clocked × Sightings} (h : Tracks c) {user : UInt32}
    {ip : IpAddr} {t : Nat} (ht : c.1.clock ≤ t) :
    ((c.1.limiter.checkAndRecord user ip t).2 = false ↔ Due c.1.limiter c.2 user ip t) ↔
      ¬ Wraps c.1.limiter c.2 user ip t := by
  rw [DeviceLimiter.checkAndRecord_eq_false_iff, h.refuses_iff ht]
  constructor
  · rintro hiff ⟨m, hm, hkey, hreach, hwrap⟩
    obtain ⟨m', hm', -, hle⟩ := hiff.mpr ⟨m, hm, hkey, hreach⟩
    obtain rfl := Option.some.inj (hm.symm.trans hm')
    exact Nat.not_le_of_lt hwrap hle
  · intro hnot
    constructor
    · rintro ⟨m, hm, hkey, hle⟩
      exact ⟨m, hm, hkey, Nat.le_trans hle (Nat.mod_le _ _)⟩
    · rintro ⟨m, hm, hkey, hreach⟩
      refine ⟨m, hm, hkey, ?_⟩
      by_contra hlt
      exact hnot ⟨m, hm, hkey, hreach, Nat.lt_of_not_le hlt⟩

/-- A refused check only drops devices that are no longer live. -/
theorem refused_frame {l : DeviceLimiter} {user : UInt32} {ip : IpAddr} {t : Nat}
    (h : (l.checkAndRecord user ip t).2 = false) :
    (∀ user' key s, ((l.checkAndRecord user ip t).1.devices user').get key = some s →
      (l.devices user').get key = some s) ∧
    (∀ user' t', t ≤ t' →
      (l.checkAndRecord user ip t).1.liveDevices user' t' = l.liveDevices user' t') := by
  rcases DeviceLimiter.checkAndRecord_cases l user ip t with ⟨-, heq⟩ | ⟨-, heq⟩
  · rw [heq]
    refine ⟨?_, fun user' t' ht' => DeviceLimiter.liveDevices_setDevices_live ht' user'⟩
    intro user' key s hget
    rw [DeviceLimiter.devices_setDevices] at hget
    by_cases hu : user' = user
    · subst hu
      rw [if_pos rfl] at hget
      unfold DeviceLimiter.liveDevices at hget
      rw [Window.get_expire, Option.filter_eq_some_iff] at hget
      exact hget.1
    · rw [if_neg hu] at hget
      exact hget
  · simp [heq] at h

/-! ### A fixed limit is never exceeded -/

/-- At each check of the user, the limit is `m` and the panel reports no
devices elsewhere. -/
def FixedLimit (user m : UInt32) (c : Clocked × Sightings) : LimiterEvent → Prop
  | .checkAndRecord userId _ _ => userId = user →
      c.1.limiter.userLimits.get user = some m ∧ c.1.limiter.remoteDevs user = 0
  | _ => True

/-- From now on the user has at most `m` live devices. -/
def Within (user m : UInt32) (c : Clocked × Sightings) : Prop :=
  ∀ t, c.1.clock ≤ t → (c.2.live c.1.limiter user t).len ≤ m.toNat

theorem within_step {user m : UInt32} {c c' : Clocked × Sightings} {e : LimiterEvent}
    (hinv : Tracks c ∧ Within user m c) (hfix : FixedLimit user m c e)
    (hs : Run.track Clocked.step Sightings.post c e = some c') :
    Tracks c' ∧ Within user m c' := by
  obtain ⟨htracks, hwithin⟩ := hinv
  refine ⟨tracks_step htracks hs, ?_⟩
  obtain ⟨c, g⟩ := c
  obtain ⟨c', g'⟩ := c'
  obtain ⟨hstep, rfl⟩ := Run.track_eq_some.mp hs
  intro t ht
  dsimp only at hstep ht ⊢
  rcases Clocked.step_cases g hstep with
    ⟨hclock, hwin, hpost, -⟩ | ⟨user₀, ip, now, rfl, hle, hok, rfl, hpost⟩
  · rw [hpost]
    rw [Sightings.live]
    rw [hwin]
    exact hwithin t (Nat.le_trans hclock ht)
  · rw [hpost]
    by_cases hu : user = user₀
    · subst hu
      obtain ⟨hlim, hremote⟩ := hfix rfl
      have hnow := hwithin now hle
      -- not refused, so the device is live or there is room for it
      have hroom : (g.live c.limiter user now).contains (c.limiter.normalizeIp ip) = false →
          (g.live c.limiter user now).len < m.toNat := by
        intro hkey
        by_contra hfull
        apply hok
        rw [htracks.refuses_iff hle]
        refine ⟨m, hlim, hkey, ?_⟩
        have hm := m.toNat_lt
        dsimp only at hnow ⊢
        rw [hremote]
        show m.toNat ≤ (_ + 0) % 2 ^ 32
        rw [Nat.add_zero, Nat.mod_eq_of_lt (by omega)]
        omega
      have hlen := Window.len_expire_insert_le (w := c.limiter.windowDuration) ht (g user)
        (c.limiter.normalizeIp ip)
      have hlive : (g.record user (c.limiter.normalizeIp ip) now).live c.limiter user t =
          Window.expire c.limiter.windowDuration t
            ((g user).insert (c.limiter.normalizeIp ip) now) := by
        simp only [Sightings.live, Sightings.record, if_true]
      show ((g.record user (c.limiter.normalizeIp ip) now).live c.limiter user t).len ≤ m.toNat
      rw [hlive]
      unfold Sightings.live at hroom hnow
      refine Nat.le_trans hlen ?_
      cases hkey : (Window.expire c.limiter.windowDuration now (g user)).contains
        (c.limiter.normalizeIp ip)
      · exact hroom hkey
      · exact hnow
    · have hlive : (g.record user₀ (c.limiter.normalizeIp ip) now).live c.limiter user t =
          g.live c.limiter user t := by
        simp only [Sightings.live, Sightings.record, if_neg hu]
      show ((g.record user₀ (c.limiter.normalizeIp ip) now).live c.limiter user t).len ≤ m.toNat
      rw [hlive]
      exact hwithin t (Nat.le_trans hle ht)

/-! ### Admission over whole runs -/

section

variable (windowSecs : UInt64) (prefixV4 prefixV6 : UInt8) (connLimitExpiry : UInt64)

/-- A new limiter, before its first operation. -/
def Clocked.new : Clocked :=
  ⟨DeviceLimiter.newWithRedis windowSecs prefixV4 prefixV6 connLimitExpiry, 0⟩

theorem tracks_new :
    Tracks (Clocked.new windowSecs prefixV4 prefixV6 connLimitExpiry, Sightings.empty) :=
  fun _ _ _ _ => rfl

/-- **Device limiter admission.**  In every state of every run from a new
limiter: a check is refused exactly when it should be, if and only if its
32-bit sum does not wrap below the limit; a refused check records nothing and
changes no last-seen time; and under a fixed limit `m`, with no devices
elsewhere, the live devices never exceed `m`. -/
theorem admission_exact {es : List LimiterEvent} {c : Clocked} {g : Sightings}
    (hrun : Run.exec (Run.track Clocked.step Sightings.post)
      (Clocked.new windowSecs prefixV4 prefixV6 connLimitExpiry, Sightings.empty) es
        = some (c, g)) :
    (∀ user ip t, c.clock ≤ t →
      (((c.limiter.checkAndRecord user ip t).2 = false ↔ Due c.limiter g user ip t) ↔
        ¬ Wraps c.limiter g user ip t)) ∧
    (∀ user ip t, (c.limiter.checkAndRecord user ip t).2 = false →
      (∀ user' key s, ((c.limiter.checkAndRecord user ip t).1.devices user').get key = some s →
        (c.limiter.devices user').get key = some s) ∧
      (∀ user' t', t ≤ t' → (c.limiter.checkAndRecord user ip t).1.liveDevices user' t' =
        c.limiter.liveDevices user' t')) ∧
    (∀ user m, Run.Along (Run.track Clocked.step Sightings.post) (FixedLimit user m)
        (Clocked.new windowSecs prefixV4 prefixV6 connLimitExpiry, Sightings.empty) es →
      ∀ t, c.clock ≤ t → (g.live c.limiter user t).len ≤ m.toNat) := by
  have hstart := tracks_new windowSecs prefixV4 prefixV6 connLimitExpiry
  have htracks : Tracks (c, g) := Run.exec_preserves tracks_step hrun hstart
  refine ⟨fun user ip t ht => htracks.decision_iff ht, fun user ip t => refused_frame, ?_⟩
  intro user m hfix
  have hwithin := Run.exec_invariant within_step hrun hfix ⟨hstart, fun _ _ => Nat.zero_le _⟩
  exact hwithin.2

end

def deviceA : IpAddr := .v4 (.new 10 0 0 1)

def deviceB : IpAddr := .v4 (.new 10 0 0 2)

/-- A user with one device. -/
def oneDeviceRun (limit : UInt32) : List LimiterEvent :=
  [.setUserLimit 7 limit, .checkAndRecord 7 deviceA 0]

theorem admission_exact_second_device :
    ∃ (c : Clocked) (g : Sightings),
      Run.exec (Run.track Clocked.step Sightings.post)
        (Clocked.new 60 32 128 60, Sightings.empty) (oneDeviceRun 1) = some (c, g) ∧
      (c.limiter.checkAndRecord 7 deviceB 5).2 = false ∧ Due c.limiter g 7 deviceB 5 := by
  refine ⟨_, _, rfl, by decide, ?_⟩
  refine (((@admission_exact 60 32 128 60 (oneDeviceRun 1) _ _ rfl).1 7 deviceB 5
    (by decide)).mpr ?_).mp (by decide)
  rintro ⟨m, hm, -, -, hwrap⟩
  obtain rfl : (1 : UInt32) = m := Option.some.inj hm
  exact absurd hwrap (by decide)

/-- The panel reports `2 ^ 32 - 1` devices elsewhere: with the one here the
sum is zero, and the second device is admitted under a limit of two. -/
def wrappedRun : List LimiterEvent :=
  oneDeviceRun 2 ++ [.updateGlobalAlive (AssocMap.insert ∅ 7 0xFFFFFFFF)]

theorem admitted_though_due :
    ∃ (c : Clocked) (g : Sightings),
      Run.exec (Run.track Clocked.step Sightings.post)
        (Clocked.new 60 32 128 60, Sightings.empty) wrappedRun = some (c, g) ∧ c.clock ≤ 5 ∧
      ¬ ((c.limiter.checkAndRecord 7 deviceB 5).2 = false ↔ Due c.limiter g 7 deviceB 5) := by
  refine ⟨_, _, rfl, by decide, ?_⟩
  intro hiff
  have hadm : (DeviceLimiter.checkAndRecord _ 7 deviceB 5).2 = false :=
    hiff.mpr ⟨2, rfl, by decide, by decide⟩
  exact absurd hadm (by decide)

end Elise
