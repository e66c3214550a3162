/-
Elise/Proxy/Report.lean

The traffic side of a node runner as a state machine: callbacks,
`report_data`, `save_pending`, `restore_pending`, and the process around
them, which may die between any two steps and be started again
(src/proxy/node.rs).

Where the steps are cut.  A task gives up control at its `await`s and other
threads run between any two lock acquisitions, so the model has one event per
critical section:

* `snapshot` takes `report_lock` and reads the batch under the buffer lock;
* `saveBegin` is the blocking half of `save_pending` taking
  `traffic_io_lock` and cloning the buffer, `saveEnd` its rename (or error);
* `answer` is one answer of the panel to the request in flight (a redirect may
  be followed by another request), `resume` the task seeing the result of `report_traffic` and, on `Ok`, subtracting the
  batch under the buffer lock;
* `close` is the end of `report_data`, `cancel` the task being dropped at an
  `await` (the shutdown time-outs of `run` do that).  A save whose task was
  dropped still runs to its end, as a detached one.

Every choice of the environment is in the event: the outcome of a save, the
answers of the panel, whether the store is readable at a start.  The node
reports only after `restore_pending` succeeded, so the store's file lock is
held for the whole life of a runner and `save_pending` always writes.
-/
import Elise.Lib.Run
import Elise.Panel.Sending
import Elise.Proxy.TrafficBuffer

namespace Elise

/-! ### The store -/

/-- The JSON codec of the pending store (crate `serde_json`): what is read
back has the entries of what was written, in any order. -/
structure PendingCodec where
  Bytes : Type
  toVec : TrafficBuffer → Bytes
  fromSlice : Bytes → Option TrafficBuffer
  fromSlice_toVec : ∀ buf, ∃ buf', fromSlice (toVec buf) = some buf' ∧
    ∀ user, buf'.get user = buf.get user

/-- The codec that stores the map itself, to run the machine on. -/
def PendingCodec.plain : PendingCodec where
  Bytes := TrafficBuffer
  toVec buf := buf
  fromSlice buf := some buf
  fromSlice_toVec buf := ⟨buf, rfl, fun _ => rfl⟩

/-- What a runner is configured with. -/
structure ReportEnv where
  json : PendingCodec
  reportTraffic : List TrafficItem → Exchange ReportResult
  submitTrafficMinTraffic : UInt64

/-- The environment of a node that reports through `client`. -/
def ReportEnv.ofClient (json : PendingCodec) (client : PanelClient) (nodeId : UInt32)
    (submitTrafficMinTraffic : UInt64) : ReportEnv :=
  ⟨json, client.reportTraffic nodeId, submitTrafficMinTraffic⟩

/-- `min_traffic_bytes` of `report_data`. -/
def ReportEnv.minTrafficBytes (env : ReportEnv) : UInt64 := env.submitTrafficMinTraffic * 1024

/-- How `save_pending` ends.  `syncFailed`: the file was renamed, but syncing
the directory failed. -/
inductive SaveOutcome where
  | ok
  | failed
  | syncFailed
  deriving DecidableEq, Repr

/-- The new file is in place. -/
def SaveOutcome.renamed : SaveOutcome → Bool
  | ok | syncFailed => true
  | failed => false

/-! ### The runner -/

/-- Where the holder of `report_lock` is; `idle` when nobody holds it. -/
inductive ReportPhase where
  | idle
  /-- In the `save_pending` before the report. -/
  | persisting (items : List TrafficItem) (active : AssocMap UInt32 UInt64)
  /-- In `report_traffic`. -/
  | reporting (items : List TrafficItem) (active : AssocMap UInt32 UInt64)
      (call : Sending ReportResult)
  /-- In the `save_pending` after the report. -/
  | flushing (active : AssocMap UInt32 UInt64)
  /-- In the device and status reports. -/
  | closing (active : AssocMap UInt32 UInt64)

/-- The batch that is out for a report. -/
def ReportPhase.items : ReportPhase → List TrafficItem
  | persisting items _ => items
  | reporting items _ _ => items
  | _ => []

/-- The task waits for a save. -/
def ReportPhase.awaitsSave : ReportPhase → Bool
  | persisting _ _ | flushing _ => true
  | _ => false

/-- Whose save holds `traffic_io_lock`: the current report's, or one that no
report waits for. -/
inductive Saver where
  | report
  | detached
  deriving DecidableEq, Repr

structure NodeRunner where
  trafficBuffer : TrafficBuffer
  phase : ReportPhase
  /-- The holder of `traffic_io_lock` with its clone of the buffer. -/
  io : Option (Saver × TrafficBuffer)

inductive RunnerEvent where
  | onTraffic (userId : UInt32) (up down : UInt64)
  | snapshot (force : Bool)
  | saveBegin (saver : Saver)
  | saveEnd (outcome : SaveOutcome)
  | answer (a : Hop)
  | resume
  | close
  | cancel

namespace NodeRunner

/-- Take the batch: an empty one goes straight to the last save. -/
def snapshot (env : ReportEnv) (r : NodeRunner) (force : Bool) : NodeRunner :=
  let items := r.trafficBuffer.batch force env.minTrafficBytes
  let active := r.trafficBuffer.activeUsers
  { r with phase := if items.isEmpty then .flushing active else .persisting items active }

/-- Where `report_data` goes when its `save_pending` ends. -/
def afterSave (env : ReportEnv) (outcome : SaveOutcome) : ReportPhase → ReportPhase
  | .persisting items active =>
      match outcome with
      | .ok => .reporting items active (env.reportTraffic items).begin
      | _ => .idle
  | .flushing active => .closing active
  | phase => phase

/-- One step of a running process. -/
def advance (env : ReportEnv) (r : NodeRunner) : RunnerEvent → Option NodeRunner
  | .onTraffic userId up down =>
      some { r with trafficBuffer := r.trafficBuffer.onTraffic userId up down }
  | .snapshot force =>
      match r.phase with
      | .idle => some (r.snapshot env force)
      | _ => none
  | .saveBegin saver =>
      match r.io with
      | some _ => none
      | none =>
          if saver = .report ∧ r.phase.awaitsSave = false then none
          else some { r with io := some (saver, r.trafficBuffer) }
  | .saveEnd outcome =>
      match r.io with
      | none => none
      | some (.report, _) => some { r with phase := afterSave env outcome r.phase, io := none }
      | some (.detached, _) => some { r with io := none }
  | .answer a =>
      match r.phase with
      | .reporting items active (.request req left k) =>
          some { r with phase := .reporting items active (.next req left k a) }
      | _ => none
  | .resume =>
      match r.phase with
      | .reporting items active (.done (.ok _)) =>
          some { r with
            trafficBuffer := r.trafficBuffer.acknowledge items
            phase := .flushing active }
      | .reporting _ active (.done (.error _)) => some { r with phase := .flushing active }
      | _ => none
  | .close =>
      match r.phase with
      | .closing _ => some { r with phase := .idle }
      | _ => none
  | .cancel =>
      match r.phase with
      | .idle => none
      | _ => some { r with phase := .idle, io := r.io.map fun save => (.detached, save.2) }

end NodeRunner

/-! ### The process and its disk -/

/-- The pending file, and the runner while the process lives. -/
structure Host (env : ReportEnv) where
  disk : Option env.json.Bytes
  runner : Option NodeRunner

inductive Event where
  | start (readable : Bool)
  | crash
  | run (e : RunnerEvent)

/-- `restore_pending`: a missing file is an empty buffer, a file that does not
parse is an error. -/
def restorePending (json : PendingCodec) : Option json.Bytes → Option TrafficBuffer
  | none => some ∅
  | some bytes => json.fromSlice bytes

namespace Host

variable {env : ReportEnv}

/-- The start of `run`: without the pending store the node is not started. -/
def boot (h : Host env) (readable : Bool) : Host env :=
  if readable then
    { h with
      runner := (restorePending env.json h.disk).map fun buf => ⟨buf, .idle, none⟩ }
  else h

/-- The file after a step of the runner: a save that renamed put its clone there. -/
def diskAfter (disk : Option env.json.Bytes) (r : NodeRunner) : RunnerEvent → Option env.json.Bytes
  | .saveEnd outcome =>
      match r.io with
      | some (_, copy) => if outcome.renamed then some (env.json.toVec copy) else disk
      | none => disk
  | _ => disk

def step (h : Host env) : Event → Option (Host env)
  | .start readable =>
      match h.runner with
      | some _ => none
      | none => some (h.boot readable)
  | .crash => h.runner.map fun _ => { h with runner := none }
  | .run e =>
      h.runner.bind fun r =>
        (r.advance env e).map fun r' => ⟨diskAfter h.disk r e, some r'⟩

/-- What a step can do: start, die, or move the runner. -/
theorem step_cases {h h' : Host env} {e : Event} (hs : h.step e = some h') :
    (∃ readable, e = .start readable ∧ h.runner = none ∧ h' = h.boot readable) ∨
    (∃ r, e = .crash ∧ h.runner = some r ∧ h' = { h with runner := none }) ∨
    (∃ ev r r', e = .run ev ∧ h.runner = some r ∧ r.advance env ev = some r' ∧
      h' = ⟨diskAfter h.disk r ev, some r'⟩) := by
  cases e with
  | start readable =>
      rcases hr : h.runner with - | r
      · simp only [step, hr, Option.some.injEq] at hs
        exact .inl ⟨readable, rfl, rfl, hs.symm⟩
      · simp [step, hr] at hs
  | crash =>
      rcases hr : h.runner with - | r
      · simp [step, hr] at hs
      · simp only [step, hr, Option.map_some, Option.some.injEq] at hs
        exact .inr (.inl ⟨r, rfl, rfl, hs.symm⟩)
  | run ev =>
      rcases hr : h.runner with - | r
      · simp [step, hr] at hs
      · simp only [step, hr, Option.bind_some, Option.map_eq_some_iff] at hs
        obtain ⟨r', hadv, rfl⟩ := hs
        exact .inr (.inr ⟨ev, r, r', rfl, rfl, hadv, rfl⟩)

theorem boot_runner_eq_some {h : Host env} {readable : Bool} (hdown : h.runner = none)
    {r : NodeRunner} (hr : (h.boot readable).runner = some r) :
    ∃ buf, restorePending env.json h.disk = some buf ∧ r = ⟨buf, .idle, none⟩ := by
  cases readable with
  | false => simp [boot, hdown] at hr
  | true =>
      simp only [boot, if_true, Option.map_eq_some_iff] at hr
      obtain ⟨buf, hbuf, rfl⟩ := hr
      exact ⟨buf, hbuf, rfl⟩

end Host

/-! ### What a runner's step can do -/

namespace NodeRunner

variable {env : ReportEnv} {r r' : NodeRunner}

theorem advance_snapshot {force : Bool} (h : r.advance env (.snapshot force) = some r') :
    r.phase = .idle ∧ r' = r.snapshot env force := by
  simp only [advance] at h
  split at h
  · rename_i hphase
    exact ⟨hphase, (Option.some.inj h).symm⟩
  · cases h

theorem advance_saveBegin {saver : Saver} (h : r.advance env (.saveBegin saver) = some r') :
    r.io = none ∧ (saver = .report → r.phase.awaitsSave = true) ∧
      r' = { r with io := some (saver, r.trafficBuffer) } := by
  simp only [advance] at h
  split at h
  · cases h
  · rename_i hio
    split at h
    · cases h
    · rename_i hsaver
      refine ⟨hio, ?_, (Option.some.inj h).symm⟩
      intro hreport
      simpa [hreport] using hsaver

theorem advance_saveEnd {outcome : SaveOutcome} (h : r.advance env (.saveEnd outcome) = some r') :
    (∃ copy, r.io = some (.report, copy) ∧
      r' = { r with phase := afterSave env outcome r.phase, io := none }) ∨
    (∃ copy, r.io = some (.detached, copy) ∧ r' = { r with io := none }) := by
  simp only [advance] at h
  split at h
  · cases h
  · rename_i copy hio
    exact .inl ⟨copy, hio, (Option.some.inj h).symm⟩
  · rename_i copy hio
    exact .inr ⟨copy, hio, (Option.some.inj h).symm⟩

theorem advance_answer {a : Hop} (h : r.advance env (.answer a) = some r') :
    ∃ items active req left k, r.phase = .reporting items active (.request req left k) ∧
      r' = { r with phase := .reporting items active (.next req left k a) } := by
  simp only [advance] at h
  split at h
  · rename_i items active req left k hphase
    exact ⟨items, active, req, left, k, hphase, (Option.some.inj h).symm⟩
  · cases h

theorem advance_resume (h : r.advance env .resume = some r') :
    (∃ items active, r.phase = .reporting items active (.done (.ok ())) ∧
      r' = { r with
        trafficBuffer := r.trafficBuffer.acknowledge items
        phase := .flushing active }) ∨
    (∃ items active err, r.phase = .reporting items active (.done (.error err)) ∧
      r' = { r with phase := .flushing active }) := by
  simp only [advance] at h
  split at h
  · rename_i items active _ hphase
    exact .inl ⟨items, active, hphase, (Option.some.inj h).symm⟩
  · rename_i items active err hphase
    exact .inr ⟨items, active, err, hphase, (Option.some.inj h).symm⟩
  · cases h

theorem advance_close (h : r.advance env .close = some r') :
    (∃ active, r.phase = .closing active) ∧ r' = { r with phase := .idle } := by
  simp only [advance] at h
  split at h
  · rename_i active hphase
    exact ⟨⟨active, hphase⟩, (Option.some.inj h).symm⟩
  · cases h

theorem advance_cancel (h : r.advance env .cancel = some r') :
    r' = { r with phase := .idle, io := r.io.map fun save => (.detached, save.2) } := by
  simp only [advance] at h
  split at h
  · cases h
  · exact (Option.some.inj h).symm

theorem items_snapshot (force : Bool) :
    (r.snapshot env force).phase.items = r.trafficBuffer.batch force env.minTrafficBytes := by
  rw [snapshot]
  by_cases h : (r.trafficBuffer.batch force env.minTrafficBytes).isEmpty
  · simp only [h, if_true, ReportPhase.items]
    exact (List.isEmpty_iff.mp h).symm
  · simp [h, ReportPhase.items]

/-- After a save the batch is the same or none. -/
theorem items_afterSave (outcome : SaveOutcome) (phase : ReportPhase) :
    (afterSave env outcome phase).items = phase.items ∨
      (afterSave env outcome phase).items = [] := by
  cases phase with
  | persisting items active => cases outcome <;> simp [afterSave, ReportPhase.items]
  | idle | reporting _ _ _ | flushing _ | closing _ => simp [afterSave, ReportPhase.items]

end NodeRunner

end Elise
