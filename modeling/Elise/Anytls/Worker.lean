/-
Elise/Anytls/Worker.lean

The workers of a session: `run_anytls_stream_worker` (src/protocol/anytls/stream.rs)
for a connection, and `run_anytls_uot_worker` (src/protocol/anytls/uot.rs) for UDP
over TCP.

Both relay in two tasks that are joined, and report the traffic when both have
ended.  A worker is the state between its awaits, and an event is the answer to
one of them: bytes that the target took, a frame that was queued, a token that
was cancelled.  A chunk for a connection is written by `write_all`, so it may be
written in part when the write fails or the task is dropped.

`Worker.step_balanced` is what a step does to the bytes: what it relays is either
reported, or still to be reported, or lost with a write that failed.

Frames that a worker sends on its own account (SYNACK and FIN) and its audit
record are left out.  Totals are numbers of bytes, below 2^64.
-/
import Elise.Anytls.Session

namespace Elise

namespace Anytls

open Net

/-- Where `up_task` is. -/
inductive UpTask where
  /-- Waiting for a chunk; the buffer is what is left of the chunks before. -/
  | receiving (buffer : List UInt8)
  /-- In `write_all`, with the number of bytes the target has taken. -/
  | writing (chunk : List UInt8) (done : Nat)
  | sending (packet rest : List UInt8)
  /-- In `shutdown`. -/
  | closing
  | ended
  deriving DecidableEq, Repr

/-- Where `down_task` is. -/
inductive DownTask where
  | reading
  /-- In `session_tx.send`. -/
  | queueing (data : List UInt8)
  /-- Sending the FIN. -/
  | closing
  | ended
  deriving DecidableEq, Repr

structure Relay where
  totalUp : Nat
  up : Nat
  down : Nat
  upTask : UpTask
  downTask : DownTask
  deriving DecidableEq, Repr

inductive WorkerState where
  /-- Waiting for the rest of a connect request. -/
  | request (buffer : List UInt8)
  /-- Audit, routing and dialing; the data is for the target. -/
  | connecting (data : List UInt8)
  /-- Writing the initial payload. -/
  | initial (payload : List UInt8) (done : Nat)
  | relaying (relay : Relay)
  /-- Returned or dropped. -/
  | gone
  deriving DecidableEq, Repr

structure Worker where
  streamId : UInt32
  isUot : Bool
  /-- `stream_rx`. -/
  queue : List (List UInt8)
  /-- Its own token. -/
  cancelled : Bool
  state : WorkerState
  deriving DecidableEq, Repr

inductive WorkerEvent where
  | connected
  /-- Blocked by the audit, or the dial failed. -/
  | refused
  | recv
  /-- `stream_rx.recv` returned `None`. -/
  | recvNone
  | cancelledUp
  | cancelledDown
  /-- The target took bytes. -/
  | wrote (n : Nat)
  | writeFailed
  | sent
  | sendFailed
  | shutdownDone
  | read (data : List UInt8)
  /-- The end of the target's stream, or an error. -/
  | readEnded
  | queued
  | queueFailed
  | finDone
  /-- Both tasks have ended. -/
  | joined
  deriving DecidableEq, Repr

/-! ### Up -/

/-- The next packet of a buffer, or more bytes. -/
def uotNext (buffer : List UInt8) : UpTask :=
  let pktLen := (u16At buffer 0).toNat
  if buffer.length < 2 ∨ buffer.length < 2 + pktLen then .receiving buffer
  else .sending ((buffer.drop 2).take pktLen) (buffer.drop (2 + pktLen))

/-- The request of UDP over TCP, once it is complete. -/
def requestNext (buffer : List UInt8) : WorkerState :=
  if buffer.length < 2 then .request buffer
  else
    match parseSocks5Addr (buffer.drop 1) with
    | some (_, pendingData) => .connecting pendingData
    | none => .request buffer

namespace Worker

def new (streamId : UInt32) (isUot : Bool) (initialPayload : List UInt8) : Worker where
  streamId := streamId
  isUot := isUot
  queue := []
  cancelled := false
  state := if isUot then requestNext initialPayload else .connecting initialPayload

/-- The relay after the initial payload. -/
def startRelay (w : Worker) (totalUp : Nat) (upTask : UpTask) : Worker :=
  { w with state := .relaying ⟨totalUp, 0, 0, upTask, .reading⟩ }

/-- `up_task` leaves its loop. -/
def upLeft (w : Worker) : UpTask := if w.isUot then .ended else .closing

/-- A chunk from the session. -/
def upChunk (w : Worker) (buffer chunk : List UInt8) : UpTask :=
  if w.isUot then uotNext (buffer ++ chunk) else .writing chunk 0

/-! ### Steps -/

/-- A worker after a step, with what the target took, what was queued to the
client and what was reported. -/
structure Stepped where
  worker : Worker
  written : Nat
  queued : Nat
  report : Option (Nat × Nat)
  deriving DecidableEq, Repr

/-- A step that relays nothing. -/
def quietly (w : Worker) : Stepped := ⟨w, 0, 0, none⟩

/-- `hasSender`: the stream is in the map of the session; `sessionCancelled`: the
token of the session is cancelled. -/
def requestStep (w : Worker) (hasSender sessionCancelled : Bool) (buffer : List UInt8) :
    WorkerEvent → Option Stepped
  | .recv =>
      match w.queue with
      | [] => none
      | chunk :: queue => some (quietly { w with queue := queue, state := requestNext (buffer ++ chunk) })
  | .recvNone => if w.queue = [] ∧ hasSender = false then some (quietly { w with state := .gone }) else none
  | .cancelledUp =>
      if w.cancelled ∨ sessionCancelled then some (quietly { w with state := .gone }) else none
  | _ => none

def connectStep (w : Worker) (data : List UInt8) : WorkerEvent → Option Stepped
  | .connected =>
      if w.isUot then some (quietly (w.startRelay 0 (uotNext data)))
      else if data = [] then some (quietly (w.startRelay 0 (.receiving [])))
      else some (quietly { w with state := .initial data 0 })
  | .refused => some (quietly { w with state := .gone })
  | _ => none

/-- A write takes at least one byte, unless there is none to take. -/
def writable (chunk : List UInt8) (done n : Nat) : Bool :=
  done + n ≤ chunk.length ∧ (0 < n ∨ chunk = [])

def initialStep (w : Worker) (payload : List UInt8) (done : Nat) : WorkerEvent → Option Stepped
  | .wrote n =>
      if writable payload done n then
        if done + n = payload.length then
          some ⟨w.startRelay payload.length (.receiving []), n, 0, none⟩
        else some ⟨{ w with state := .initial payload (done + n) }, n, 0, none⟩
      else none
  -- nothing is reported
  | .writeFailed => some (quietly { w with state := .gone })
  | _ => none

/-- `up_task`. -/
def upStep (w : Worker) (hasSender sessionCancelled : Bool) (r : Relay) : WorkerEvent → Option Stepped
  | .recv =>
      match r.upTask, w.queue with
      | .receiving buffer, chunk :: queue =>
          some (quietly { w with
            queue := queue
            state := .relaying { r with upTask := w.upChunk buffer chunk } })
      | _, _ => none
  | .recvNone =>
      match r.upTask with
      | .receiving _ =>
          if w.queue = [] ∧ hasSender = false then
            some (quietly { w with state := .relaying { r with upTask := w.upLeft } })
          else none
      | _ => none
  | .cancelledUp =>
      match r.upTask with
      | .receiving _ =>
          if w.cancelled ∨ sessionCancelled then
            some (quietly { w with state := .relaying { r with upTask := w.upLeft } })
          else none
      | _ => none
  | .wrote n =>
      match r.upTask with
      | .writing chunk done =>
          if writable chunk done n then
            if done + n = chunk.length then
              some ⟨{ w with
                state := .relaying { r with up := r.up + chunk.length, upTask := .receiving [] } }, n, 0, none⟩
            else
              some ⟨{ w with state := .relaying { r with upTask := .writing chunk (done + n) } }, n, 0, none⟩
          else none
      | _ => none
  | .writeFailed =>
      match r.upTask with
      | .writing _ _ =>
          some (quietly { w with cancelled := true, state := .relaying { r with upTask := .closing } })
      | _ => none
  | .sent =>
      match r.upTask with
      | .sending packet rest =>
          some ⟨{ w with
            state := .relaying { r with up := r.up + packet.length, upTask := uotNext rest } },
            packet.length, 0, none⟩
      | _ => none
  | .sendFailed =>
      match r.upTask with
      | .sending _ _ =>
          some (quietly { w with cancelled := true, state := .relaying { r with upTask := .ended } })
      | _ => none
  | .shutdownDone =>
      match r.upTask with
      | .closing => some (quietly { w with state := .relaying { r with upTask := .ended } })
      | _ => none
  | _ => none

def readLimit (w : Worker) : Nat := if w.isUot then 65536 else 16384

/-- `down_task`. -/
def downStep (w : Worker) (sessionCancelled : Bool) (r : Relay) : WorkerEvent → Option Stepped
  | .read data =>
      match r.downTask with
      | .reading =>
          if data ≠ [] ∧ data.length ≤ w.readLimit then
            some (quietly { w with state := .relaying { r with downTask := .queueing data } })
          else none
      | _ => none
  | .readEnded =>
      match r.downTask with
      | .reading => some (quietly { w with state := .relaying { r with downTask := .closing } })
      | _ => none
  | .cancelledDown =>
      match r.downTask with
      | .reading =>
          if w.cancelled ∨ sessionCancelled then
            some (quietly { w with state := .relaying { r with downTask := .closing } })
          else none
      | _ => none
  | .queued =>
      match r.downTask with
      | .queueing data =>
          some ⟨{ w with
            state := .relaying { r with down := r.down + data.length, downTask := .reading } },
            0, data.length, none⟩
      | _ => none
  | .queueFailed =>
      match r.downTask with
      | .queueing _ =>
          some (quietly { w with cancelled := true, state := .relaying { r with downTask := .closing } })
      | _ => none
  | .finDone =>
      match r.downTask with
      | .closing => some (quietly { w with state := .relaying { r with downTask := .ended } })
      | _ => none
  | _ => none

/-- Both tasks have ended, and the traffic is reported. -/
def joinStep (w : Worker) (r : Relay) : Option Stepped :=
  if r.upTask = .ended ∧ r.downTask = .ended then
    let report := if 0 < r.totalUp + r.up ∨ 0 < r.down then some (r.totalUp + r.up, r.down) else none
    some ⟨{ w with state := .gone }, 0, 0, report⟩
  else none

def step (w : Worker) (hasSender sessionCancelled : Bool) (e : WorkerEvent) : Option Stepped :=
  match w.state with
  | .request buffer => w.requestStep hasSender sessionCancelled buffer e
  | .connecting data => w.connectStep data e
  | .initial payload done => w.initialStep payload done e
  | .relaying r =>
      if e = .joined then w.joinStep r
      else (w.upStep hasSender sessionCancelled r e).or (w.downStep sessionCancelled r e)
  | .gone => none

end Worker

/-! ### Bytes -/

/-- Of a write that is not finished. -/
def UpTask.done : UpTask → Nat
  | .writing _ done => done
  | _ => 0

namespace WorkerState

/-- Of a write that is not finished. -/
def unfinished : WorkerState → Nat
  | .initial _ done => done
  | .relaying r => r.upTask.done
  | _ => 0

/-- What the target took and nobody was told yet. -/
def pendingUp : WorkerState → Nat
  | .initial _ done => done
  | .relaying r => r.totalUp + r.up + r.upTask.done
  | _ => 0

/-- What was queued to the client and nobody was told yet. -/
def pendingDown : WorkerState → Nat
  | .relaying r => r.down
  | _ => 0

end WorkerState

theorem done_uotNext (buffer : List UInt8) : (uotNext buffer).done = 0 := by
  rw [uotNext]
  split <;> rfl

/-- Nothing is to be reported. -/
def WorkerState.Idle (state : WorkerState) : Prop := state.pendingUp = 0 ∧ state.pendingDown = 0

theorem idle_requestNext (buffer : List UInt8) : (requestNext buffer).Idle := by
  rw [requestNext]
  split
  · exact ⟨rfl, rfl⟩
  · split <;> exact ⟨rfl, rfl⟩

namespace Worker

variable {w : Worker} {hasSender sessionCancelled : Bool} {e : WorkerEvent} {st : Stepped}

theorem done_upLeft (w : Worker) : w.upLeft.done = 0 := by
  rw [upLeft]
  split <;> rfl

theorem done_upChunk (w : Worker) (buffer chunk : List UInt8) : (w.upChunk buffer chunk).done = 0 := by
  rw [upChunk]
  split
  · exact done_uotNext (buffer ++ chunk)
  · rfl

/-- The part of a write that fails. -/
def lostUp (w : Worker) : WorkerEvent → Nat
  | .writeFailed => w.state.unfinished
  | _ => 0

/-- What was still to be reported and what is relayed now is reported, still to be
reported, or lost. -/
structure Balanced (w : Worker) (st : Stepped) (lost : Nat) : Prop where
  up : w.state.pendingUp + st.written = st.worker.state.pendingUp + (st.report.getD (0, 0)).1 + lost
  down : w.state.pendingDown + st.queued = st.worker.state.pendingDown + (st.report.getD (0, 0)).2

theorem balanced_quietly {w' : Worker} {lost : Nat}
    (hup : w.state.pendingUp = w'.state.pendingUp + lost)
    (hdown : w.state.pendingDown = w'.state.pendingDown) : Balanced w (quietly w') lost := by
  refine ⟨?_, ?_⟩
  · show w.state.pendingUp + 0 = w'.state.pendingUp + 0 + lost
    omega
  · show w.state.pendingDown + 0 = w'.state.pendingDown + 0
    omega

theorem balanced_idle {w' : Worker} (h : w.state.Idle) (h' : w'.state.Idle) :
    Balanced w (quietly w') 0 :=
  balanced_quietly (h.1.trans h'.1.symm) (h.2.trans h'.2.symm)

/-! ### Before the relay -/

theorem requestStep_balanced {buffer : List UInt8} (hw : w.state = .request buffer)
    (h : w.requestStep hasSender sessionCancelled buffer e = some st) : Balanced w st (w.lostUp e) := by
  have hidle : w.state.Idle := by
    rw [hw]
    exact ⟨rfl, rfl⟩
  cases e with
  | recv =>
      dsimp only [requestStep] at h
      split at h
      · cases h
      · obtain rfl := Option.some.inj h
        exact balanced_idle hidle (idle_requestNext _)
  | recvNone =>
      dsimp only [requestStep] at h
      split at h
      · obtain rfl := Option.some.inj h
        exact balanced_idle hidle ⟨rfl, rfl⟩
      · cases h
  | cancelledUp =>
      dsimp only [requestStep] at h
      split at h
      · obtain rfl := Option.some.inj h
        exact balanced_idle hidle ⟨rfl, rfl⟩
      · cases h
  | _ => cases h

theorem connectStep_balanced {data : List UInt8} (hw : w.state = .connecting data)
    (h : w.connectStep data e = some st) : Balanced w st (w.lostUp e) := by
  have hidle : w.state.Idle := by
    rw [hw]
    exact ⟨rfl, rfl⟩
  cases e with
  | connected =>
      dsimp only [connectStep] at h
      split at h
      · obtain rfl := Option.some.inj h
        refine balanced_idle hidle ⟨?_, rfl⟩
        show 0 + 0 + (uotNext data).done = 0
        rw [done_uotNext]
      · split at h
        · obtain rfl := Option.some.inj h
          exact balanced_idle hidle ⟨rfl, rfl⟩
        · obtain rfl := Option.some.inj h
          exact balanced_idle hidle ⟨rfl, rfl⟩
  | refused =>
      obtain rfl := Option.some.inj h
      exact balanced_idle hidle ⟨rfl, rfl⟩
  | _ => cases h

theorem initialStep_balanced {payload : List UInt8} {done : Nat} (hw : w.state = .initial payload done)
    (h : w.initialStep payload done e = some st) : Balanced w st (w.lostUp e) := by
  cases e with
  | wrote n =>
      dsimp only [initialStep] at h
      split at h
      · split at h
        · rename_i hall
          obtain rfl := Option.some.inj h
          refine ⟨?_, by rw [hw]; rfl⟩
          rw [hw]
          exact hall
        · obtain rfl := Option.some.inj h
          refine ⟨?_, by rw [hw]; rfl⟩
          rw [hw]
          rfl
      · cases h
  | writeFailed =>
      obtain rfl := Option.some.inj h
      apply balanced_quietly
      · rw [lostUp, hw]
        exact (Nat.zero_add done).symm
      · rw [hw]
        rfl
  | _ => cases h

/-! ### The relay -/

section Relay

variable {r : Relay} (hw : w.state = .relaying r)

include hw

/-- A step of `up_task` that relays nothing. -/
theorem balanced_upTask {w' : Worker} {task : UpTask} {lost : Nat}
    (hw' : w'.state = .relaying { r with upTask := task }) (hdone : r.upTask.done = task.done + lost) :
    Balanced w (quietly w') lost := by
  apply balanced_quietly
  · rw [hw, hw']
    show r.totalUp + r.up + r.upTask.done = r.totalUp + r.up + task.done + lost
    omega
  · rw [hw, hw']
    rfl

/-- A step of `down_task` that relays nothing. -/
theorem balanced_downTask {w' : Worker} {task : DownTask}
    (hw' : w'.state = .relaying { r with downTask := task }) : Balanced w (quietly w') 0 := by
  apply balanced_quietly
  · rw [hw, hw']
    rfl
  · rw [hw, hw']
    rfl

/-- The target takes bytes. -/
theorem balanced_wrote {w' : Worker} {r' : Relay} {n : Nat} (hw' : w'.state = .relaying r')
    (hup : r.totalUp + r.up + r.upTask.done + n = r'.totalUp + r'.up + r'.upTask.done)
    (hdown : r'.down = r.down) : Balanced w ⟨w', n, 0, none⟩ 0 := by
  refine ⟨?_, ?_⟩
  · rw [hw]
    show r.totalUp + r.up + r.upTask.done + n = w'.state.pendingUp
    rw [hw']
    exact hup
  · rw [hw]
    show r.down = w'.state.pendingDown
    rw [hw']
    exact hdown.symm

theorem upStep_balanced (h : w.upStep hasSender sessionCancelled r e = some st) :
    Balanced w st (w.lostUp e) := by
  cases e with
  | recv =>
      dsimp only [upStep] at h
      split at h
      · rename_i htask _
        obtain rfl := Option.some.inj h
        refine balanced_upTask hw rfl ?_
        rw [htask, done_upChunk]
        rfl
      · cases h
  | recvNone =>
      dsimp only [upStep] at h
      split at h
      · rename_i htask
        split at h
        · obtain rfl := Option.some.inj h
          refine balanced_upTask hw rfl ?_
          rw [htask, done_upLeft]
          rfl
        · cases h
      · cases h
  | cancelledUp =>
      dsimp only [upStep] at h
      split at h
      · rename_i htask
        split at h
        · obtain rfl := Option.some.inj h
          refine balanced_upTask hw rfl ?_
          rw [htask, done_upLeft]
          rfl
        · cases h
      · cases h
  | wrote n =>
      dsimp only [upStep] at h
      split at h
      · rename_i chunk done htask
        have hdone : r.upTask.done = done := by
          rw [htask]
          rfl
        split at h
        · split at h
          · rename_i hall
            obtain rfl := Option.some.inj h
            refine balanced_wrote hw rfl ?_ rfl
            show r.totalUp + r.up + r.upTask.done + n = r.totalUp + (r.up + chunk.length) + 0
            omega
          · obtain rfl := Option.some.inj h
            refine balanced_wrote hw rfl ?_ rfl
            show r.totalUp + r.up + r.upTask.done + n = r.totalUp + r.up + (done + n)
            omega
        · cases h
      · cases h
  | writeFailed =>
      dsimp only [upStep] at h
      split at h
      · obtain rfl := Option.some.inj h
        refine balanced_upTask hw rfl ?_
        rw [lostUp, hw]
        exact (Nat.zero_add _).symm
      · cases h
  | sent =>
      dsimp only [upStep] at h
      split at h
      · rename_i packet rest htask
        obtain rfl := Option.some.inj h
        have hdone : r.upTask.done = 0 := by
          rw [htask]
          rfl
        have hnext := done_uotNext rest
        refine balanced_wrote hw rfl ?_ rfl
        show r.totalUp + r.up + r.upTask.done + packet.length =
          r.totalUp + (r.up + packet.length) + (uotNext rest).done
        omega
      · cases h
  | sendFailed =>
      dsimp only [upStep] at h
      split at h
      · rename_i htask
        obtain rfl := Option.some.inj h
        refine balanced_upTask hw rfl ?_
        rw [htask]
        rfl
      · cases h
  | shutdownDone =>
      dsimp only [upStep] at h
      split at h
      · rename_i htask
        obtain rfl := Option.some.inj h
        refine balanced_upTask hw rfl ?_
        rw [htask]
        rfl
      · cases h
  | _ => cases h

theorem downStep_balanced (h : w.downStep sessionCancelled r e = some st) :
    Balanced w st (w.lostUp e) := by
  cases e with
  | read data =>
      dsimp only [downStep] at h
      split at h
      · split at h
        · obtain rfl := Option.some.inj h
          exact balanced_downTask hw rfl
        · cases h
      · cases h
  | readEnded =>
      dsimp only [downStep] at h
      split at h
      · obtain rfl := Option.some.inj h
        exact balanced_downTask hw rfl
      · cases h
  | cancelledDown =>
      dsimp only [downStep] at h
      split at h
      · split at h
        · obtain rfl := Option.some.inj h
          exact balanced_downTask hw rfl
        · cases h
      · cases h
  | queued =>
      dsimp only [downStep] at h
      split at h
      · obtain rfl := Option.some.inj h
        exact ⟨by rw [hw]; rfl, by rw [hw]; rfl⟩
      · cases h
  | queueFailed =>
      dsimp only [downStep] at h
      split at h
      · obtain rfl := Option.some.inj h
        exact balanced_downTask hw rfl
      · cases h
  | finDone =>
      dsimp only [downStep] at h
      split at h
      · obtain rfl := Option.some.inj h
        exact balanced_downTask hw rfl
      · cases h
  | _ => cases h

theorem joinStep_balanced (h : w.joinStep r = some st) : Balanced w st 0 := by
  rw [joinStep] at h
  split at h
  · rename_i hended
    obtain rfl := Option.some.inj h
    have hdone : r.upTask.done = 0 := by
      rw [hended.1]
      rfl
    by_cases hany : 0 < r.totalUp + r.up ∨ 0 < r.down
    · rw [if_pos hany]
      refine ⟨?_, ?_⟩
      · rw [hw]
        show r.totalUp + r.up + r.upTask.done + 0 = 0 + (r.totalUp + r.up) + 0
        omega
      · rw [hw]
        show r.down + 0 = 0 + r.down
        omega
    · rw [if_neg hany]
      refine ⟨?_, ?_⟩
      · rw [hw]
        show r.totalUp + r.up + r.upTask.done + 0 = 0 + 0 + 0
        omega
      · rw [hw]
        show r.down + 0 = 0 + 0
        omega
  · cases h

end Relay

/-- **What a step does to the bytes.** -/
theorem step_balanced (h : w.step hasSender sessionCancelled e = some st) :
    Balanced w st (w.lostUp e) := by
  rw [step] at h
  split at h
  · rename_i buffer hw
    exact requestStep_balanced hw h
  · rename_i data hw
    exact connectStep_balanced hw h
  · rename_i payload done hw
    exact initialStep_balanced hw h
  · rename_i r hw
    split at h
    · rename_i hjoined
      rw [hjoined]
      exact joinStep_balanced hw h
    · rcases Option.or_eq_some_iff.mp h with hup | ⟨-, hdown⟩
      · exact upStep_balanced hw hup
      · exact downStep_balanced hw hdown
  · cases h

end Worker

end Anytls

end Elise
