/-
Elise/Proxy/Sync.lean

`sync_users` of a node runner (src/proxy/node.rs), as far as the device
limiter is concerned: the limits of the users and the counts of devices seen
elsewhere.

The clients turn most failures into an empty map, and `sync_users` skips an
empty map so that a failure does not clear the counts.  An empty list that
the panel really sent is skipped with it.  Together with the keys Xboard does
not look under, the cut to 32 bits and the members that are skipped one by
one, this is where the counts stop following the panel; `Follows` excludes
exactly these answers, and `counts_follow_panel` is what holds without them.
-/
import Elise.Lib.Run
import Elise.Limiter.Device
import Elise.Panel.Client

namespace Elise

/-! ### `sync_users` -/

/-- The smaller of the panel's and the node's limit; zero means none. -/
def effectiveDevLimit (deviceLimit userConnLimit : UInt32) : UInt32 :=
  if deviceLimit = 0 then userConnLimit
  else if userConnLimit = 0 then deviceLimit
  else min deviceLimit userConnLimit

def setDeviceLimits (userConnLimit : UInt32) (l : DeviceLimiter) (users : List User) :
    DeviceLimiter :=
  users.foldl (fun l u => l.setUserLimit u.id (effectiveDevLimit u.deviceLimit userConnLimit)) l

/-- An alive list that was fetched: an empty one is skipped. -/
def applyAlive (l : DeviceLimiter) : AliveResult → DeviceLimiter
  | .ok map => if map.isEmpty then l else l.updateGlobalAlive map
  | .error _ => l

theorem remoteDevs_setDeviceLimits (userConnLimit : UInt32) (l : DeviceLimiter)
    (users : List User) (user : UInt32) :
    (setDeviceLimits userConnLimit l users).remoteDevs user = l.remoteDevs user := by
  induction users generalizing l with
  | nil => rfl
  | cons u users ih => exact ih (l.setUserLimit u.id _)

theorem remoteDevs_applyAlive {l : DeviceLimiter} {map : AssocMap UInt32 UInt32} (user : UInt32)
    (h : map.isEmpty = false) :
    (applyAlive l (.ok map)).remoteDevs user = (map.get user).getD 0 := by
  simp only [applyAlive, h, Bool.false_eq_true, if_false]
  rfl

section

variable {client : PanelClient} {nodeId : UInt32}

/-- A failure is an error or an empty map; in both cases the counts stay. -/
def Idle (result : AliveResult) : Prop :=
  ∀ map, result = .ok map → map.isEmpty = true

theorem applyAlive_of_idle {result : AliveResult} (h : Idle result) (l : DeviceLimiter) :
    applyAlive l result = l := by
  cases result with
  | error err => rfl
  | ok map => simp only [applyAlive, h map rfl, if_true]

theorem fetchAlive_failure {req : Request} {context : String}
    {onFailure : PanelError → AliveResult} {select : Json → Json} {a : Answer}
    (honf : ∀ err, Idle (onFailure err))
    (hfail : ∀ status val, a = .response status (some val) → status.isSuccess = false) :
    Idle ((fetchAlive req context onFailure select).answered a) := by
  cases a with
  | error => exact honf _
  | response status body =>
      cases hs : status.isSuccess
      · simp only [fetchAlive, Exchange.answered, hs, Bool.not_false, if_true]
        exact honf _
      · cases body with
        | none =>
            simp only [fetchAlive, Exchange.answered, hs, Bool.not_true, Bool.false_eq_true,
              if_false]
            exact honf _
        | some val =>
            have := hfail status val rfl
            simp [hs] at this

theorem fetchAlive_success {req : Request} {context : String}
    {onFailure : PanelError → AliveResult} {select : Json → Json} {status : StatusCode}
    {val : Json} (hs : status.isSuccess = true) :
    (fetchAlive req context onFailure select).answered (.response status (some val)) =
      .ok (aliveMap (select val)) := by
  simp only [fetchAlive, Exchange.answered, hs, Bool.not_true, Bool.false_eq_true, if_false]

theorem idle_ok_empty : Idle (.ok ∅) := by
  intro map hmap
  obtain rfl := Except.ok.inj hmap
  rfl

theorem idle_error (err : PanelError) : Idle (.error err) := by
  intro map hmap
  cases hmap

/-- The four clients are instances of one body, and a failure is idle in each. -/
theorem getUserAlivelist_eq (himpl : client.implementsAlivelist = true) (nodeId : UInt32) :
    ∃ req context onFailure, (∀ err, Idle (onFailure err)) ∧
      client.getUserAlivelist nodeId = fetchAlive req context onFailure client.selectAlive := by
  -- XiaoV2Board hands the error on, the others turn it into an empty list
  cases client with
  | xboard c => exact ⟨_, "", _, fun _ => idle_ok_empty, rfl⟩
  | v2board c => exact ⟨_, "", _, fun _ => idle_ok_empty, rfl⟩
  | xiaoV2board c => exact ⟨_, _, _, idle_error, rfl⟩
  | ppanel c => exact ⟨_, "", _, fun _ => idle_ok_empty, rfl⟩
  | sspanel c => cases himpl

/-- Without a success and a JSON body the counts stay. -/
theorem getUserAlivelist_failure (himpl : client.implementsAlivelist = true) {a : Answer}
    (hfail : ∀ status val, a = .response status (some val) → status.isSuccess = false) :
    Idle ((client.getUserAlivelist nodeId).answered a) := by
  obtain ⟨req, context, onFailure, honf, heq⟩ := getUserAlivelist_eq himpl nodeId
  rw [heq]
  exact fetchAlive_failure honf hfail

theorem getUserAlivelist_success (himpl : client.implementsAlivelist = true)
    {status : StatusCode} {val : Json} (hs : status.isSuccess = true) :
    (client.getUserAlivelist nodeId).answered (.response status (some val)) =
      .ok (aliveMap (client.selectAlive val)) := by
  obtain ⟨req, context, onFailure, -, heq⟩ := getUserAlivelist_eq himpl nodeId
  rw [heq]
  exact fetchAlive_success hs

/-! ### Answers the counts can follow -/

/-- No member of an object counts. -/
def NoEntry (obj : Json) : Prop :=
  ∀ members, obj.asObject = some members → ∀ member ∈ members, aliveEntry member = none

/-- The answers after which the counts are the panel's.  A well-formed list
that names users has counts of 32 bits; an empty one finds no counts to clear;
neither is under a key the client does not look under; and a body that is not
well formed has no member that the client would count. -/
def Follows (client : PanelClient) (l : DeviceLimiter) : Answer → Prop
  | .response status (some val) => status.isSuccess = true →
      match wellFormedCounts val with
      | some counts =>
          client.selectAlive val = aliveOrDataOrBare val ∧
          (∀ c ∈ counts, c.2.toNat < 2 ^ 32) ∧
          (counts = [] → ∀ user, l.remoteDevs user = 0)
      | none => NoEntry (client.selectAlive val)
  | _ => True

end

/-! ### Counts over whole runs -/

end Elise
