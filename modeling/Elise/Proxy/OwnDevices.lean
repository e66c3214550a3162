/-
Elise/Proxy/OwnDevices.lean

The loop through the panel: `report_data` reports the devices of the node,
the panel counts them, `sync_users` brings the counts back, and
`check_and_record` adds them to the devices it sees itself.

The panel is the one the limiter can hope for: its alive list gives, per user,
the number of distinct devices in the last report it received, and no other
node reports.  All the same the counts that come back are those of the
node's own devices, and they are added to the live ones a second time.
`own_devices_exact` says when that leads to a refusal.

A report and a synchronisation each wait for the panel, and checks run in
between, so each is two steps: `collect` and `deliver` (or `lose`), `fetch`
and `apply`.
-/
import Elise.Proxy.Sync

namespace Elise

open Net

/-! ### Reports and the panel -/

/-- The devices that `report_data` reports: those of the users with enough
traffic. -/
def dueDevices (minAliveBytes : UInt64) (activeUsers : AssocMap UInt32 UInt64)
    (onlineMap : AssocMap UInt32 (List String)) : List OnlineDeviceItem :=
  (onlineMap.pairs.filter fun entry =>
    minAliveBytes = 0 || minAliveBytes ≤ (activeUsers.get entry.1).getD 0).map
      fun entry => ⟨entry.1, entry.2⟩

/-- The number of distinct devices of a user in a report. -/
def distinctDevices (report : List OnlineDeviceItem) (user : UInt32) : Nat :=
  ((report.filter fun item => item.userId = user).flatMap OnlineDeviceItem.ips).dedup.length

/-- The member of the alive list for a user. -/
def aliveMember (report : List OnlineDeviceItem) (user : UInt32) : String × Json :=
  (user.toNat.repr, .number (.posInt (UInt64.ofNat (distinctDevices report user))))

/-- The users of a report, once each. -/
def reportedUsers (report : List OnlineDeviceItem) : List UInt32 :=
  (report.map OnlineDeviceItem.userId).dedup

/-- The object of the panel's answer. -/
def panelCounts (report : List OnlineDeviceItem) : Json :=
  .object ((reportedUsers report).map (aliveMember report))

/-- The panel's answer to the alive list request, after a report. -/
def panelAnswer (report : List OnlineDeviceItem) : Answer :=
  .response .ok (some (.object [("data", panelCounts report)]))

/-! ### The node -/

structure DeviceNode where
  limiter : DeviceLimiter
  clock : Nat
  /-- The report that is on its way to the panel. -/
  outbox : Option (List OnlineDeviceItem)
  /-- The report the panel received last. -/
  received : List OnlineDeviceItem
  /-- The alive list that was fetched and not applied yet. -/
  fetched : Option AliveResult

inductive DeviceEvent where
  | check (userId : UInt32) (ip : IpAddr) (now : Nat)
  | prune (now : Nat)
  | limits (users : List User)
  | collect (activeUsers : AssocMap UInt32 UInt64) (now : Nat)
  | deliver
  | lose
  | fetch (answered : Bool)
  | apply

/-- What the node is configured with. -/
structure DeviceEnv where
  client : PanelClient
  nodeId : UInt32
  userConnLimit : UInt32
  minAliveBytes : UInt64

namespace DeviceNode

/-- `get_all_online_devices` of `report_data`; an empty report is not sent. -/
def collect (env : DeviceEnv) (n : DeviceNode) (activeUsers : AssocMap UInt32 UInt64)
    (now : Nat) : DeviceNode :=
  let online := n.limiter.getAllOnlineDevices now
  let items := dueDevices env.minAliveBytes activeUsers online.2
  { n with
    limiter := online.1
    clock := now
    outbox := if items.isEmpty then none else some items }

def step (env : DeviceEnv) (n : DeviceNode) : DeviceEvent → Option DeviceNode
  | .check userId ip now =>
      if n.clock ≤ now then
        some { n with limiter := (n.limiter.checkAndRecord userId ip now).1, clock := now }
      else none
  | .prune now =>
      if n.clock ≤ now then some { n with limiter := n.limiter.pruneExpired now, clock := now }
      else none
  | .limits users =>
      some { n with limiter := setDeviceLimits env.userConnLimit n.limiter users }
  | .collect activeUsers now =>
      match n.outbox with
      | some _ => none
      | none => if n.clock ≤ now then some (n.collect env activeUsers now) else none
  | .deliver => n.outbox.map fun report => { n with outbox := none, received := report }
  | .lose => n.outbox.map fun _ => { n with outbox := none }
  | .fetch answered =>
      let a := if answered then panelAnswer n.received else .error
      some { n with fetched := some ((env.client.getUserAlivelist env.nodeId).answered a) }
  | .apply =>
      n.fetched.map fun result => { n with limiter := applyAlive n.limiter result, fetched := none }

/-- A node before its first check. -/
def new (l : DeviceLimiter) : DeviceNode := ⟨l, 0, none, [], none⟩

end DeviceNode

/-! ### What the counts are counts of -/

/-- Per user, the devices counted in the alive list that was applied last, and
in the one that is fetched; a list without users is skipped and counts
nothing. -/
structure Counted where
  applied : UInt32 → Nat
  pending : Option (UInt32 → Nat)

def Counted.post (n : DeviceNode) (g : Counted) : DeviceEvent → Counted
  | .fetch answered =>
      { g with
        pending :=
          if answered && !n.received.isEmpty then some (distinctDevices n.received) else none }
  | .apply =>
      match g.pending with
      | some counts => ⟨counts, none⟩
      | none => g
  | _ => g

/-- The fetched result is the counts of the pending list, or idle. -/
def Matches (g : Counted) : Option AliveResult → Prop
  | none => g.pending = none
  | some result =>
      match g.pending with
      | none => Idle result
      | some counts => ∃ map, result = .ok map ∧ map.isEmpty = false ∧
          ∀ user, (map.get user).getD 0 = UInt32.ofNat (counts user)

/-- The remote counts are those of the list applied last. -/
structure Echoes (c : DeviceNode × Counted) : Prop where
  applied : ∀ user, c.1.limiter.remoteDevs user = UInt32.ofNat (c.2.applied user)
  pending : Matches c.2 c.1.fetched

/-! ### The answer of the panel, read back -/

theorem aliveEntry_aliveMember (report : List OnlineDeviceItem) (user : UInt32) :
    aliveEntry (aliveMember report user) =
      some (user, UInt32.ofNat (distinctDevices report user)) := by
  have hkey : parseU32 user.toNat.repr = some user := by
    have hle : user.toNat ≤ 0xFFFFFFFF := Nat.le_of_lt_succ user.toNat_lt
    rw [parseU32, Text.parseUnsigned_repr hle, Option.map_some, UInt32.ofNat_toNat]
  have hcut : (UInt64.ofNat (distinctDevices report user)).toUInt32 =
      UInt32.ofNat (distinctDevices report user) := by
    apply UInt32.toNat_inj.mp
    simp
  simp only [aliveEntry, aliveMember, hkey, Json.asU64, hcut]

theorem aliveMap_panelCounts (report : List OnlineDeviceItem) :
    aliveMap (panelCounts report) = AssocMap.ofPairs ((reportedUsers report).map
      fun user => (user, UInt32.ofNat (distinctDevices report user))) := by
  have hentry : aliveEntry ∘ aliveMember report =
      some ∘ fun user => (user, UInt32.ofNat (distinctDevices report user)) := by
    funext user
    exact aliveEntry_aliveMember report user
  show AssocMap.ofPairs (((reportedUsers report).map (aliveMember report)).filterMap aliveEntry) = _
  rw [List.filterMap_map, hentry, List.filterMap_eq_map]

/-- A user that is not in the report has no devices in it. -/
theorem distinctDevices_eq_zero {report : List OnlineDeviceItem} {user : UInt32}
    (h : user ∉ reportedUsers report) : distinctDevices report user = 0 := by
  have hnil : report.filter (fun item => item.userId = user) = [] := by
    apply List.filter_eq_nil_iff.mpr
    intro item hmem heq
    apply h
    rw [reportedUsers, List.mem_dedup, ← of_decide_eq_true heq]
    exact List.mem_map_of_mem hmem
  simp only [distinctDevices, hnil, List.flatMap_nil, List.dedup_nil, List.length_nil]

/-- **What comes back**: the counts of the report. -/
theorem get_aliveMap_panelCounts (report : List OnlineDeviceItem) (user : UInt32) :
    ((aliveMap (panelCounts report)).get user).getD 0 =
      UInt32.ofNat (distinctDevices report user) := by
  have hkeys : ((reportedUsers report).map fun user =>
      (user, UInt32.ofNat (distinctDevices report user))).map Prod.fst = reportedUsers report := by
    simp [Function.comp_def]
  rw [aliveMap_panelCounts]
  by_cases hmem : user ∈ reportedUsers report
  · have hget := AssocMap.get_ofPairs_of_mem (hkeys.symm ▸ List.nodup_dedup _)
      (List.mem_map_of_mem (f := fun user => (user, UInt32.ofNat (distinctDevices report user)))
        hmem)
    rw [hget]
    rfl
  · rw [AssocMap.get_ofPairs_eq_none.mpr (hkeys.symm ▸ hmem), distinctDevices_eq_zero hmem]
    rfl

theorem isEmpty_aliveMap_panelCounts {report : List OnlineDeviceItem} (h : report ≠ []) :
    (aliveMap (panelCounts report)).isEmpty = false := by
  obtain ⟨item, hmem⟩ := List.exists_mem_of_ne_nil report h
  have huser : item.userId ∈ reportedUsers report :=
    List.mem_dedup.mpr (List.mem_map_of_mem hmem)
  by_contra hcon
  have hempty : aliveMap (panelCounts report) = ∅ := AssocMap.isEmpty_iff.mp (by simpa using hcon)
  have hnone : (aliveMap (panelCounts report)).get item.userId = none := by
    rw [hempty]
    rfl
  rw [aliveMap_panelCounts, AssocMap.get_ofPairs_eq_none] at hnone
  apply hnone
  simp [huser]

theorem selectAlive_panel (client : PanelClient) (report : List OnlineDeviceItem) :
    client.selectAlive (.object [("data", panelCounts report)]) = panelCounts report := by
  cases client <;> rfl

/-! ### One step -/

section

variable {env : DeviceEnv}

/-- What is fetched matches what the panel counted. -/
theorem matches_fetch (himpl : env.client.implementsAlivelist = true) (n : DeviceNode)
    (g : Counted) (answered : Bool) :
    Matches (g.post n (.fetch answered))
      (some ((env.client.getUserAlivelist env.nodeId).answered
        (if answered then panelAnswer n.received else .error))) := by
  cases answered with
  | false =>
      show Idle _
      exact getUserAlivelist_failure himpl (by simp)
  | true =>
      have hans : (env.client.getUserAlivelist env.nodeId).answered (panelAnswer n.received) =
          .ok (aliveMap (panelCounts n.received)) := by
        rw [← selectAlive_panel env.client n.received]
        exact getUserAlivelist_success himpl rfl
      simp only [if_true, hans]
      -- an answer without users is skipped, any other one has a count for each user
      rcases hrec : n.received with - | ⟨item, report⟩
      · have hpost : (g.post n (.fetch true)).pending = none := by
          simp [Counted.post, hrec]
        simp only [Matches, hpost]
        exact idle_ok_empty
      · have hpost : (g.post n (.fetch true)).pending =
            some (distinctDevices (item :: report)) := by
          simp [Counted.post, hrec]
        simp only [Matches, hpost]
        exact ⟨_, rfl, isEmpty_aliveMap_panelCounts (by simp), get_aliveMap_panelCounts _⟩

theorem remoteDevs_checkAndRecord (l : DeviceLimiter) (user : UInt32) (ip : IpAddr) (now : Nat)
    (user' : UInt32) : (l.checkAndRecord user ip now).1.remoteDevs user' = l.remoteDevs user' := by
  rcases DeviceLimiter.checkAndRecord_cases l user ip now with ⟨-, heq⟩ | ⟨-, heq⟩ <;>
    rw [heq] <;> rfl

theorem echoes_step (himpl : env.client.implementsAlivelist = true) {c c' : DeviceNode × Counted}
    {e : DeviceEvent} (hinv : Echoes c)
    (hs : Run.track (DeviceNode.step env) Counted.post c e = some c') : Echoes c' := by
  obtain ⟨n, g⟩ := c
  obtain ⟨n', g'⟩ := c'
  obtain ⟨hstep, rfl⟩ := Run.track_eq_some.mp hs
  have happ := hinv.applied
  have hpend := hinv.pending
  dsimp only at hstep happ hpend
  cases e with
  | check user ip now =>
      simp only [DeviceNode.step] at hstep
      split at hstep
      · obtain rfl := Option.some.inj hstep
        exact ⟨fun user' => (remoteDevs_checkAndRecord _ _ _ _ _).trans (happ user'), hpend⟩
      · cases hstep
  | prune now =>
      simp only [DeviceNode.step] at hstep
      split at hstep
      · obtain rfl := Option.some.inj hstep
        exact ⟨happ, hpend⟩
      · cases hstep
  | limits users =>
      obtain rfl := Option.some.inj hstep
      exact ⟨fun user => (remoteDevs_setDeviceLimits _ _ _ _).trans (happ user), hpend⟩
  | collect activeUsers now =>
      simp only [DeviceNode.step] at hstep
      split at hstep
      · cases hstep
      · split at hstep
        · obtain rfl := Option.some.inj hstep
          exact ⟨happ, hpend⟩
        · cases hstep
  | deliver =>
      obtain ⟨report, -, rfl⟩ := Option.map_eq_some_iff.mp hstep
      exact ⟨happ, hpend⟩
  | lose =>
      obtain ⟨report, -, rfl⟩ := Option.map_eq_some_iff.mp hstep
      exact ⟨happ, hpend⟩
  | fetch answered =>
      obtain rfl := Option.some.inj hstep
      exact ⟨happ, matches_fetch himpl n g answered⟩
  | apply =>
      obtain ⟨result, hfetched, rfl⟩ := Option.map_eq_some_iff.mp hstep
      rw [hfetched] at hpend
      rcases hp : g.pending with - | counts
      · -- nothing was counted and nothing is applied
        have hidle : Idle result := by simpa only [Matches, hp] using hpend
        have hg : g.post n .apply = g := by simp only [Counted.post, hp]
        show Echoes (_, g.post n .apply)
        rw [hg, applyAlive_of_idle hidle]
        exact ⟨happ, hp⟩
      · obtain ⟨map, rfl, hne, hmap⟩ : ∃ map, result = .ok map ∧ map.isEmpty = false ∧
            ∀ user, (map.get user).getD 0 = UInt32.ofNat (counts user) := by
          simpa only [Matches, hp] using hpend
        have hg : g.post n .apply = ⟨counts, none⟩ := by simp only [Counted.post, hp]
        show Echoes (_, g.post n .apply)
        rw [hg]
        refine ⟨?_, rfl⟩
        intro user
        exact (remoteDevs_applyAlive user hne).trans (hmap user)

/-! ### Refusals in whole runs -/

theorem echoes_new {l : DeviceLimiter} (hnew : l.globalAlive = ∅) :
    Echoes (DeviceNode.new l, ⟨fun _ => 0, none⟩) where
  applied user := by
    simp [DeviceLimiter.remoteDevs, DeviceNode.new, hnew]
  pending := rfl

end

/-- A user below the limit is not refused. -/
def AdmitsBelow (l : DeviceLimiter) (user : UInt32) (ip : IpAddr) (t : Nat) : Prop :=
  ∀ m, l.userLimits.get user = some m → (l.liveDevices user t).len < m.toNat →
    (l.checkAndRecord user ip t).2 = true

/-- For a user below the limit who brings a new device: the live devices and
the devices in the report that the last alive list counted leave room. -/
def RoomLeft (l : DeviceLimiter) (counted : UInt32 → Nat) (user : UInt32) (ip : IpAddr)
    (t : Nat) : Prop :=
  ∀ m, l.userLimits.get user = some m → (l.liveDevices user t).len < m.toNat →
    (l.liveDevices user t).contains (l.normalizeIp ip) = false →
    ((l.liveDevices user t).len + counted user) % 2 ^ 32 < m.toNat

theorem refuses_iff_counted {l : DeviceLimiter} {counted : UInt32 → Nat} {user : UInt32}
    (h : l.remoteDevs user = UInt32.ofNat (counted user)) (ip : IpAddr) (t : Nat) :
    l.Refuses user ip t ↔ ∃ m, l.userLimits.get user = some m ∧
      (l.liveDevices user t).contains (l.normalizeIp ip) = false ∧
      m.toNat ≤ ((l.liveDevices user t).len + counted user) % 2 ^ 32 := by
  rw [DeviceLimiter.Refuses]
  simp only [DeviceLimiter.le_ofNat_add_iff, h, UInt32.toNat_ofNat', Nat.add_mod_mod]

/-- **Own devices, counted twice.**  In every state of every run of checks,
reports and synchronisations, under the panel that counts what this node
reported: a user below the limit is admitted if and only if the live devices
and those the panel counted leave room. -/
theorem own_devices_exact (env : DeviceEnv) (himpl : env.client.implementsAlivelist = true)
    {l : DeviceLimiter} (hnew : l.globalAlive = ∅) {es : List DeviceEvent} {n : DeviceNode}
    {g : Counted}
    (hrun : Run.exec (Run.track (DeviceNode.step env) Counted.post)
      (DeviceNode.new l, ⟨fun _ => 0, none⟩) es = some (n, g))
    (user : UInt32) (ip : IpAddr) (t : Nat) :
    AdmitsBelow n.limiter user ip t ↔ RoomLeft n.limiter g.applied user ip t := by
  have hinv : Echoes (n, g) := Run.exec_preserves (echoes_step himpl) hrun (echoes_new hnew)
  have hrefuse := refuses_iff_counted (hinv.applied user) ip t
  constructor
  -- admitted below the limit, so the 32-bit sum did not reach it
  · intro hadm m hlim hbelow hkey
    have htrue := hadm m hlim hbelow
    by_contra hfull
    have hfalse := DeviceLimiter.checkAndRecord_eq_false_iff.mpr
      (hrefuse.mpr ⟨m, hlim, hkey, Nat.le_of_not_lt hfull⟩)
    rw [htrue] at hfalse
    cases hfalse
  · intro hroom m hlim hbelow
    by_contra hfalse
    obtain ⟨m', hlim', hkey, hfull⟩ := hrefuse.mp
      (DeviceLimiter.checkAndRecord_eq_false_iff.mp (by simpa using hfalse))
    obtain rfl := Option.some.inj (hlim.symm.trans hlim')
    exact Nat.not_le_of_lt (hroom m hlim hbelow hkey) hfull

def ownEnv : DeviceEnv := ⟨.v2board ⟨"http://127.0.0.1:1", "fixture"⟩, 1, 0, 0⟩

def phone : IpAddr := .v4 (.new 10 0 0 1)

def laptop : IpAddr := .v4 (.new 10 0 0 2)

/-- The first device of a user is seen, reported and counted. -/
def echoRun (limit : UInt32) : List DeviceEvent :=
  [.limits [⟨7, 0, limit⟩], .check 7 phone 0, .collect ∅ 1, .deliver, .fetch true, .apply]

theorem own_devices_exact_three :
    ∃ (n : DeviceNode) (g : Counted),
      Run.exec (Run.track (DeviceNode.step ownEnv) Counted.post)
        (DeviceNode.new (.newWithRedis 60 32 128 60), ⟨fun _ => 0, none⟩) (echoRun 3)
        = some (n, g) ∧
      (n.limiter.liveDevices 7 2).len = 1 ∧ g.applied 7 = 1 ∧
      AdmitsBelow n.limiter 7 laptop 2 := by
  refine ⟨_, _, rfl, by decide, by decide, ?_⟩
  refine (@own_devices_exact ownEnv rfl (.newWithRedis 60 32 128 60) rfl (echoRun 3) _ _ rfl
    7 laptop 2).mpr ?_
  intro m hlim _ _
  obtain rfl : (3 : UInt32) = m := Option.some.inj hlim
  decide

/-- With one live device under a limit of two, the second is refused: the
first is counted here and at the panel. -/
theorem refused_below_limit :
    ∃ (n : DeviceNode) (g : Counted),
      Run.exec (Run.track (DeviceNode.step ownEnv) Counted.post)
        (DeviceNode.new (.newWithRedis 60 32 128 60), ⟨fun _ => 0, none⟩) (echoRun 2)
        = some (n, g) ∧ n.clock ≤ 2 ∧ ¬ AdmitsBelow n.limiter 7 laptop 2 := by
  refine ⟨_, _, rfl, by decide, ?_⟩
  intro hadm
  have htrue := hadm 2 rfl (by decide)
  exact absurd htrue (by decide)

end Elise
