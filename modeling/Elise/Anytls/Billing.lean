/-
Elise/Anytls/Billing.lean

When every relayed byte of a session is billed.

A session, its workers, and the calls of `on_traffic`.  A worker reports when it
returns; a session that has ended drops the workers that are still running, and
what these have relayed is not reported.  Nor is the part of a write that the
target took before the write failed.

What the calls have reported, what the workers still have to report and what was
lost in these two ways is what was relayed (`System.Balanced`).  So the calls add
up to what was relayed exactly in the runs in which nothing is lost
(`Accounted`), and a run in which bytes are relayed and the client leaves is none
of them (`relayed_bytes_unbilled`).  The totals of a worker are `u64` in the source; they are
numbers here, which is the same as long as a worker relays less than 2^64 bytes.
-/
import Elise.Anytls.Worker
import Elise.Lib.Run

namespace Elise

namespace Anytls

structure System where
  session : Session
  workers : List Worker
  /-- The token of the session. -/
  cancelled : Bool
  /-- The workers are being dropped. -/
  exited : Bool
  /-- The calls of `on_traffic`: bytes up and bytes down. -/
  calls : List (Nat × Nat)
  /-- Bytes that targets took. -/
  written : Nat
  /-- Bytes that were read from targets and queued to the client. -/
  queued : Nat

inductive SystemEvent where
  | session (e : SessionEvent)
  | worker (i : Nat) (e : WorkerEvent)
  /-- Somebody cancels the token of the session. -/
  | cancelToken
  /-- The end of `handle_anytls_session`. -/
  | exit
  /-- The task of the session is dropped. -/
  | dropped
  /-- A worker is dropped at its next await. -/
  | abort (i : Nat)
  deriving DecidableEq, Repr

namespace System

def new (age : UInt64) : System := ⟨.new age, [], false, false, [], 0, 0⟩

/-! ### Steps -/

def deliver (streamId : UInt32) (payload : List UInt8) (w : Worker) : Worker :=
  if w.streamId = streamId ∧ w.state ≠ .gone then { w with queue := w.queue ++ [payload] } else w

def apply (s : System) : Effect → System
  | .reply _ => s
  | .spawn streamId target initialPayload =>
      { s with workers := s.workers ++ [.new streamId target.isUot initialPayload] }
  | .deliver streamId payload => { s with workers := s.workers.map (deliver streamId payload) }

/-- What the session does by itself; the end of a worker comes with the worker. -/
def sessionStep (s : System) (e : SessionEvent) : Option System :=
  match e with
  | .workerReturned _ => none
  | _ =>
      if s.exited ∨ (e = .cancel ∧ s.cancelled = false) then none
      else (s.session.step e).map fun next => next.2.foldl apply { s with session := next.1 }

/-- The map of the session holds the sender of an active stream. -/
def hasSender (s : System) (w : Worker) : Bool := s.session.streams.get w.streamId = some .active

def afterWorker (s : System) (i : Nat) (st : Worker.Stepped) : System :=
  { s with
    workers := s.workers.set i st.worker
    session :=
      if st.worker.state = .gone then
        { s.session with streams := s.session.streams.erase st.worker.streamId }
      else s.session
    calls := s.calls ++ st.report.toList
    written := s.written + st.written
    queued := s.queued + st.queued }

def drop (w : Worker) : Worker := { w with state := .gone }

/-- Between the end of both tasks and the report there is no await. -/
def atAwait (w : Worker) : Bool :=
  match w.state with
  | .relaying r => ¬(r.upTask = .ended ∧ r.downTask = .ended)
  | _ => true

def step (s : System) : SystemEvent → Option System
  | .session e => s.sessionStep e
  | .worker i e =>
      (s.workers[i]?).bind fun w => (w.step (s.hasSender w) s.cancelled e).map (s.afterWorker i)
  | .cancelToken => some { s with cancelled := true }
  | .exit =>
      if s.session.ended.isSome ∧ s.exited = false then some { s with exited := true, cancelled := true }
      else none
  | .dropped => if s.exited then none else some { s with exited := true }
  | .abort i =>
      (s.workers[i]?).bind fun w =>
        if s.exited ∧ atAwait w then some { s with workers := s.workers.set i (drop w) } else none

/-! ### What is lost -/

/-- A write that fails has written nothing, and a worker that is dropped has
nothing to report. -/
def Accounted (s : System) : SystemEvent → Prop
  | .worker i .writeFailed => ∀ w, s.workers[i]? = some w → w.state.unfinished = 0
  | .abort i => ∀ w, s.workers[i]? = some w → w.state.Idle
  | _ => True

/-- The session is over, and so is every worker. -/
def Settled (s : System) : Prop := s.exited = true ∧ ∀ w ∈ s.workers, w.state = .gone

instance (s : System) : Decidable s.Settled := inferInstanceAs (Decidable (_ ∧ _))

def reportedUp (s : System) : Nat := (s.calls.map Prod.fst).sum

def reportedDown (s : System) : Nat := (s.calls.map Prod.snd).sum

def pendingUp (s : System) : Nat := (s.workers.map (·.state.pendingUp)).sum

def pendingDown (s : System) : Nat := (s.workers.map (·.state.pendingDown)).sum

/-- Every byte that was relayed is reported, to be reported, or lost. -/
structure Balanced (s : System) (lostUp lostDown : Nat) : Prop where
  up : s.reportedUp + s.pendingUp + lostUp = s.written
  down : s.reportedDown + s.pendingDown + lostDown = s.queued

/-! ### One step -/

section Step

variable {s s' : System} {lostUp lostDown : Nat}

theorem state_deliver (streamId : UInt32) (payload : List UInt8) (w : Worker) :
    (deliver streamId payload w).state = w.state := by
  rw [deliver]
  split <;> rfl

theorem idle_new (streamId : UInt32) (isUot : Bool) (initialPayload : List UInt8) :
    (Worker.new streamId isUot initialPayload).state.Idle := by
  cases isUot with
  | false => exact ⟨rfl, rfl⟩
  | true => exact idle_requestNext initialPayload

/-- What a command causes relays nothing. -/
theorem Balanced.apply (h : Balanced s lostUp lostDown) (effect : Effect) :
    Balanced (s.apply effect) lostUp lostDown := by
  have hkeeps : ∀ workers : List Worker,
      (workers.map (·.state.pendingUp)).sum = s.pendingUp →
      (workers.map (·.state.pendingDown)).sum = s.pendingDown →
      Balanced { s with workers := workers } lostUp lostDown := by
    intro workers hup hdown
    refine ⟨?_, ?_⟩
    · show s.reportedUp + (workers.map (·.state.pendingUp)).sum + lostUp = s.written
      rw [hup, h.up]
    · show s.reportedDown + (workers.map (·.state.pendingDown)).sum + lostDown = s.queued
      rw [hdown, h.down]
  cases effect with
  | reply frame => exact h
  | spawn streamId target initialPayload =>
      have hidle := idle_new streamId target.isUot initialPayload
      apply hkeeps
      · simp [pendingUp, hidle.1]
      · simp [pendingDown, hidle.2]
  | deliver streamId payload =>
      apply hkeeps
      · simp [pendingUp, Function.comp_def, state_deliver]
      · simp [pendingDown, Function.comp_def, state_deliver]

theorem Balanced.foldl_apply (h : Balanced s lostUp lostDown) (effects : List Effect) :
    Balanced (effects.foldl System.apply s) lostUp lostDown := by
  induction effects generalizing s with
  | nil => exact h
  | cons effect effects ih => exact ih (h.apply effect)

theorem Balanced.sessionStep (h : Balanced s lostUp lostDown) {e : SessionEvent}
    (hstep : s.sessionStep e = some s') : Balanced s' lostUp lostDown := by
  rw [System.sessionStep.eq_def] at hstep
  split at hstep
  · cases hstep
  · split at hstep
    · cases hstep
    · obtain ⟨next, -, rfl⟩ := Option.map_eq_some_iff.mp hstep
      have hnext : Balanced { s with session := next.1 } lostUp lostDown := ⟨h.up, h.down⟩
      exact hnext.foldl_apply next.2

/-- A worker takes a step. -/
theorem Balanced.afterWorker (h : Balanced s lostUp lostDown) {i : Nat} {w : Worker}
    (hw : s.workers[i]? = some w) {st : Worker.Stepped} {lost : Nat} (hst : w.Balanced st lost) :
    Balanced (s.afterWorker i st) (lostUp + lost) lostDown := by
  have hup := Agents.sum_map_set_add hw st.worker (·.state.pendingUp)
  have hdown := Agents.sum_map_set_add hw st.worker (·.state.pendingDown)
  have hcalls : ∀ f : Nat × Nat → Nat, f (0, 0) = 0 →
      ((s.calls ++ st.report.toList).map f).sum = (s.calls.map f).sum + f (st.report.getD (0, 0)) := by
    intro f hf
    cases st.report with
    | none => simp [hf]
    | some report => simp
  have hlocal := hst.up
  have hlocal' := hst.down
  have hsum := h.up
  have hsum' := h.down
  refine ⟨?_, ?_⟩
  · show ((s.calls ++ st.report.toList).map Prod.fst).sum +
      ((s.workers.set i st.worker).map (·.state.pendingUp)).sum + (lostUp + lost) = s.written + st.written
    rw [hcalls Prod.fst rfl]
    simp only [reportedUp, pendingUp] at hsum
    omega
  · show ((s.calls ++ st.report.toList).map Prod.snd).sum +
      ((s.workers.set i st.worker).map (·.state.pendingDown)).sum + lostDown = s.queued + st.queued
    rw [hcalls Prod.snd rfl]
    simp only [reportedDown, pendingDown] at hsum'
    omega

/-- A worker is dropped. -/
theorem Balanced.abort (h : Balanced s lostUp lostDown) {i : Nat} {w : Worker}
    (hw : s.workers[i]? = some w) :
    Balanced { s with workers := s.workers.set i (drop w) } (lostUp + w.state.pendingUp)
      (lostDown + w.state.pendingDown) := by
  have hup := Agents.sum_map_set_add hw (drop w) (·.state.pendingUp)
  have hdown := Agents.sum_map_set_add hw (drop w) (·.state.pendingDown)
  have hgone : (drop w).state.Idle := ⟨rfl, rfl⟩
  have hsum := h.up
  have hsum' := h.down
  simp only [reportedUp, reportedDown, pendingUp, pendingDown, hgone.1, hgone.2] at *
  refine ⟨?_, ?_⟩
  · show (s.calls.map Prod.fst).sum + ((s.workers.set i (drop w)).map (·.state.pendingUp)).sum + _ = s.written
    omega
  · show (s.calls.map Prod.snd).sum + ((s.workers.set i (drop w)).map (·.state.pendingDown)).sum + _ = s.queued
    omega

/-- **One step** loses nothing exactly if it is accounted for. -/
theorem Balanced.step (h : Balanced s lostUp lostDown) {e : SystemEvent} (hstep : s.step e = some s') :
    ∃ up down, Balanced s' (lostUp + up) (lostDown + down) ∧
      (up = 0 ∧ down = 0 ↔ s.Accounted e) := by
  cases e with
  | session e => exact ⟨0, 0, h.sessionStep hstep, ⟨fun _ => trivial, fun _ => ⟨rfl, rfl⟩⟩⟩
  | worker i e =>
      obtain ⟨w, hw, hrest⟩ := Option.bind_eq_some_iff.mp hstep
      obtain ⟨st, hst, rfl⟩ := Option.map_eq_some_iff.mp hrest
      refine ⟨w.lostUp e, 0, h.afterWorker hw (Worker.step_balanced hst), ?_⟩
      by_cases hfailed : e = .writeFailed
      · rw [hfailed]
        constructor
        · intro hlost w' hw'
          obtain rfl := Option.some.inj (hw.symm.trans hw')
          exact hlost.1
        · intro haccounted
          exact ⟨haccounted w hw, rfl⟩
      · have hlost : w.lostUp e = 0 := by
          cases e with
          | writeFailed => exact absurd rfl hfailed
          | _ => rfl
        have haccounted : s.Accounted (.worker i e) := by
          cases e with
          | writeFailed => exact absurd rfl hfailed
          | _ => trivial
        exact ⟨fun _ => haccounted, fun _ => ⟨hlost, rfl⟩⟩
  | cancelToken =>
      obtain rfl := Option.some.inj hstep
      exact ⟨0, 0, ⟨h.up, h.down⟩, ⟨fun _ => trivial, fun _ => ⟨rfl, rfl⟩⟩⟩
  | exit =>
      rw [System.step] at hstep
      split at hstep
      · obtain rfl := Option.some.inj hstep
        exact ⟨0, 0, ⟨h.up, h.down⟩, ⟨fun _ => trivial, fun _ => ⟨rfl, rfl⟩⟩⟩
      · cases hstep
  | dropped =>
      rw [System.step] at hstep
      split at hstep
      · cases hstep
      · obtain rfl := Option.some.inj hstep
        exact ⟨0, 0, ⟨h.up, h.down⟩, ⟨fun _ => trivial, fun _ => ⟨rfl, rfl⟩⟩⟩
  | abort i =>
      obtain ⟨w, hw, hrest⟩ := Option.bind_eq_some_iff.mp hstep
      split at hrest
      · obtain rfl := Option.some.inj hrest
        refine ⟨_, _, h.abort hw, ?_⟩
        constructor
        · intro hidle w' hw'
          obtain rfl := Option.some.inj (hw.symm.trans hw')
          exact hidle
        · intro haccounted
          exact haccounted w hw
      · cases hrest

end Step

/-! ### Runs -/

variable {s s' : System}

theorem Balanced.run {lostUp lostDown : Nat} (h : Balanced s lostUp lostDown)
    {events : List SystemEvent} (hrun : Run.exec System.step s events = some s') :
    ∃ lostUp' lostDown', Balanced s' lostUp' lostDown' ∧
      (lostUp' = 0 ∧ lostDown' = 0 ↔
        (lostUp = 0 ∧ lostDown = 0) ∧ Run.Along System.step Accounted s events) := by
  -- on the events: what the first step loses stays lost
  induction events generalizing s lostUp lostDown with
  | nil =>
      obtain rfl := Option.some.inj hrun
      exact ⟨lostUp, lostDown, h, ⟨fun hzero => ⟨hzero, trivial⟩, fun hboth => hboth.1⟩⟩
  | cons e events ih =>
      obtain ⟨t, ht, hrest⟩ := Run.exec_cons_eq_some.mp hrun
      obtain ⟨up, down, hbalanced, hloss⟩ := h.step ht
      obtain ⟨lostUp', lostDown', hend, hiff⟩ := ih hbalanced hrest
      refine ⟨lostUp', lostDown', hend, ?_⟩
      rw [hiff]
      constructor
      · rintro ⟨⟨hup, hdown⟩, halong⟩
        refine ⟨⟨by omega, by omega⟩, Run.along_cons ?_ ht halong⟩
        exact hloss.mp ⟨by omega, by omega⟩
      · rintro ⟨⟨hup, hdown⟩, haccounted, halong⟩
        obtain ⟨hup', hdown'⟩ := hloss.mpr haccounted
        exact ⟨⟨by omega, by omega⟩, halong t ht⟩

theorem Settled.pending (h : s.Settled) : s.pendingUp = 0 ∧ s.pendingDown = 0 := by
  refine ⟨?_, ?_⟩
  · apply List.sum_eq_zero
    intro n hn
    obtain ⟨w, hw, rfl⟩ := List.mem_map.mp hn
    rw [h.2 w hw]
    rfl
  · apply List.sum_eq_zero
    intro n hn
    obtain ⟨w, hw, rfl⟩ := List.mem_map.mp hn
    rw [h.2 w hw]
    rfl

/-- **A session bills what it relays, exactly if nothing is lost on the way**: in
every run to the end of the session and its workers, the calls of `on_traffic` add
up to the bytes that targets took and to those that were queued to the client if
and only if no write fails after a part of it and no worker is dropped before its
report. -/
theorem relayed_bytes_billed_iff {age : UInt64} {events : List SystemEvent}
    (hrun : Run.exec step (new age) events = some s) (hsettled : s.Settled) :
    s.reportedUp = s.written ∧ s.reportedDown = s.queued ↔
      Run.Along step Accounted (new age) events := by
  have hstart : Balanced (new age) 0 0 := ⟨rfl, rfl⟩
  obtain ⟨lostUp, lostDown, ⟨hup, hdown⟩, hiff⟩ := hstart.run hrun
  obtain ⟨hpendingUp, hpendingDown⟩ := hsettled.pending
  constructor
  · rintro ⟨hreportedUp, hreportedDown⟩
    exact (hiff.mp ⟨by omega, by omega⟩).2
  · intro halong
    obtain ⟨hlostUp, hlostDown⟩ := hiff.mpr ⟨⟨rfl, rfl⟩, halong⟩
    exact ⟨by omega, by omega⟩

/-! ### Two runs -/

def plainScheme : PaddingScheme := ⟨[], []⟩

/-- Settings, a SYN for stream 1, and a target at 1.2.3.4:80 with two bytes for
it. -/
def opening : List UInt8 :=
  [4, 0, 0, 0, 0, 0, 0, 1, 0, 0, 0, 1, 0, 0, 2, 0, 0, 0, 1, 0, 9, 1, 1, 2, 3, 4, 0, 80, 104, 105]

/-- The client opens a stream, the two bytes reach the target, and two bytes
come back. -/
def relayedRun : List SystemEvent :=
  [.session (.arrive opening), .session (.poll 0 plainScheme), .session .resume,
    .session (.poll 0 plainScheme), .session .resume, .session (.poll 0 plainScheme),
    .session (.poll 0 plainScheme), .session .resume, .worker 0 .connected, .worker 0 (.wrote 2),
    .worker 0 (.read [111, 107]), .worker 0 .queued]

/-- The client leaves. -/
def leavingRun : List SystemEvent := [.session .close, .session .eof, .exit]

/-- The client ends the stream, and so does the target. -/
def finRun : List SystemEvent :=
  [.session (.arrive [3, 0, 0, 0, 1, 0, 0]), .session (.poll 0 plainScheme), .session .resume,
    .worker 0 .recvNone, .worker 0 .shutdownDone, .worker 0 .readEnded, .worker 0 .finDone,
    .worker 0 .joined]

/-- What is to be seen of a system. -/
def summary (s : System) : Bool × List WorkerState × List (Nat × Nat) × Nat × Nat :=
  (s.exited, s.workers.map (·.state), s.calls, s.written, s.queued)

theorem settled_of_summary {calls : List (Nat × Nat)} {written queued : Nat}
    (h : s.summary = (true, [.gone], calls, written, queued)) :
    s.Settled ∧ s.calls = calls ∧ s.written = written ∧ s.queued = queued := by
  simp only [summary, Prod.mk.injEq] at h
  obtain ⟨hexited, hstates, hcalls, hwritten, hqueued⟩ := h
  refine ⟨⟨hexited, ?_⟩, hcalls, hwritten, hqueued⟩
  intro w hw
  have hstate := List.mem_map_of_mem (f := (·.state)) hw
  rw [hstates] at hstate
  exact List.mem_singleton.mp hstate

theorem finRun_summary : (Run.exec step (new 0) (relayedRun ++ finRun ++ leavingRun)).map summary =
    some (true, [.gone], [(2, 2)], 2, 2) := by decide +kernel

theorem finished_stream_billed : ∃ s, Run.exec step (new 0) (relayedRun ++ finRun ++ leavingRun) = some s ∧
    s.Settled ∧ s.calls = [(2, 2)] ∧ s.reportedUp = s.written ∧ s.reportedDown = s.queued := by
  obtain ⟨s, hrun, hsummary⟩ := Option.map_eq_some_iff.mp finRun_summary
  obtain ⟨hsettled, hcalls, -, -⟩ := settled_of_summary hsummary
  refine ⟨s, hrun, hsettled, hcalls, (relayed_bytes_billed_iff hrun hsettled).mpr ?_⟩
  -- no event of the run loses anything
  repeat refine ⟨trivial, fun _ _ => ?_⟩
  trivial

theorem abortedRun_summary : (Run.exec step (new 0) (relayedRun ++ leavingRun ++ [.abort 0])).map summary =
    some (true, [.gone], [], 2, 2) := by decide +kernel

/-- The client leaves while the stream is open. -/
theorem relayed_bytes_unbilled : ∃ s, Run.exec step (new 0) (relayedRun ++ leavingRun ++ [.abort 0]) = some s ∧
    s.Settled ∧ s.calls = [] ∧ s.written = 2 ∧ s.queued = 2 ∧
    ¬(s.reportedUp = s.written ∧ s.reportedDown = s.queued) := by
  obtain ⟨s, hrun, hsummary⟩ := Option.map_eq_some_iff.mp abortedRun_summary
  obtain ⟨hsettled, hcalls, hwritten, hqueued⟩ := settled_of_summary hsummary
  refine ⟨s, hrun, hsettled, hcalls, hwritten, hqueued, ?_⟩
  rintro ⟨hup, -⟩
  rw [reportedUp, hcalls, hwritten] at hup
  cases hup

end System

end Anytls

end Elise
