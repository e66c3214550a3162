/-
Elise/Conn/Relay.lean

The relay of a TCP connection (`copy_bidirectional_throttled`, `IdleTimeout`,
`MonitoredStream` and `TrafficGuard` in src/conn/mod.rs).

Two loops copy, one in each direction, and share a clock: each operation has to be
done before nothing has happened for too long.  The first error of a loop ends both.
The client's stream counts what passes through it, and the guard reports the counts
when the task ends, in whatever way.  The environment chooses what the streams
answer and which loop goes on, when an operation runs out of time and when the task
is aborted.
-/
import Elise.Lib.Poll
import Elise.Lib.Run

namespace Elise

namespace Conn

open Poll

def bufferSize : Nat := 32768

/-! ### One direction -/

/-- Where a loop stands: what is in its buffer, and what of it is not written yet. -/
inductive Phase where
  | reading
  | throttling (buf : List UInt8)
  | writing (n : Nat) (left : List UInt8)
  | flushing (n : Nat)
  | shuttingDown
  | done
  deriving DecidableEq, Repr

/-- What is awaited under the clock; the limiter is a part of writing. -/
inductive Awaited where
  | read
  | write
  | flush
  | shutdown
  | nothing
  deriving DecidableEq, Repr

def Phase.awaited : Phase → Awaited
  | reading => .read
  | throttling _ | writing _ _ => .write
  | flushing _ => .flush
  | shuttingDown => .shutdown
  | done => .nothing

structure Direction where
  phase : Phase
  total : Nat
  /-- What the reader has handed out. -/
  reads : List UInt8
  /-- What the writer has taken. -/
  written : List UInt8
  /-- Whether the writer was shut down. -/
  shut : Bool
  deriving DecidableEq, Repr

def Direction.new : Direction := ⟨.reading, 0, [], [], false⟩

/-- The answer to a poll of what is awaited. -/
inductive Op where
  | read (answer : Result (List UInt8))
  | throttled
  | write (answer : Wrote)
  | flush (answer : Result Unit)
  | shutdown (answer : Result Unit)
  deriving DecidableEq, Repr

inductive Next where
  | goes (d : Direction)
  /-- The loop returns an error. -/
  | fails
  deriving DecidableEq, Repr

/-- What a loop does with an answer; `none` if it awaits something else. -/
def Direction.next (limited : Bool) (d : Direction) : Op → Option Next
  | .read answer =>
      match d.phase with
      | .reading =>
          match answer with
          | .pending => some (.goes d)
          | .error => some .fails
          | .ready bytes =>
              if bufferSize < bytes.length then none
              else if bytes.isEmpty then some (.goes { d with phase := .shuttingDown })
              else
                some (.goes { d with
                  phase := if limited then .throttling bytes else .writing bytes.length bytes
                  reads := d.reads ++ bytes })
      | _ => none
  | .throttled =>
      match d.phase with
      | .throttling buf => some (.goes { d with phase := .writing buf.length buf })
      | _ => none
  | .write answer =>
      match d.phase with
      | .writing n left =>
          match answer with
          | .pending => some (.goes d)
          | .error | .some 0 => some .fails
          | .some (k + 1) =>
              let left' := left.drop (k + 1)
              some (.goes { d with
                phase := if left'.isEmpty then .flushing n else .writing n left'
                written := d.written ++ left.take (k + 1) })
      | _ => none
  | .flush answer =>
      match d.phase with
      | .flushing n =>
          match answer with
          | .pending => some (.goes d)
          | .error => some .fails
          | .ready () => some (.goes { d with phase := .reading, total := d.total + n })
      | _ => none
  | .shutdown answer =>
      match d.phase with
      | .shuttingDown =>
          match answer with
          | .pending => some (.goes d)
          | .error => some .fails
          | .ready () => some (.goes { d with phase := .done, shut := true })
      | _ => none

/-! ### The client's stream -/

/-- The counts of a `MonitoredStream`.  They are `u64` in the source and add up without wrapping
below 2^64 bytes, which no connection comes to. -/
structure MonitoredStream where
  upload : Nat
  download : Nat
  deriving DecidableEq, Repr

def MonitoredStream.pollRead (m : MonitoredStream) : Result (List UInt8) → MonitoredStream
  | .ready bytes => { m with upload := m.upload + bytes.length }
  | _ => m

/-- Not more than the buffer is taken. -/
def MonitoredStream.pollWrite (m : MonitoredStream) (buf : List UInt8) : Wrote → MonitoredStream
  | .some n => { m with download := m.download + min n buf.length }
  | _ => m

/-! ### Both directions -/

/-- From the client to the target, or back. -/
inductive Way where
  | aToB
  | bToA
  deriving DecidableEq, Repr

/-- The client's stream sees the reads of one loop and the writes of the other. -/
def MonitoredStream.observe (m : MonitoredStream) (d : Direction) : Way → Op → MonitoredStream
  | .aToB, .read answer => m.pollRead answer
  | .bToA, .write answer =>
      match d.phase with
      | .writing _ left => m.pollWrite left answer
      | _ => m
  | _, _ => m

/-- How the task ends. -/
inductive Ended where
  | ok (up down : Nat)
  | error
  | aborted
  deriving DecidableEq, Repr

structure Config where
  userId : UInt32
  /-- Whether there is a rate limiter. -/
  limited : Bool
  /-- Zero is no limit. -/
  timeout : Nat

structure Relay where
  side : Way → Direction
  client : MonitoredStream
  /-- When an operation was done last. -/
  activity : Nat
  /-- Until when each loop waits for what it awaits. -/
  deadline : Way → Nat
  ended : Option Ended
  /-- The calls of `on_traffic`. -/
  calls : List (UInt32 × Nat × Nat)

inductive Event where
  | op (way : Way) (op : Op) (now : Nat)
  /-- The clock of a loop sees that something has happened. -/
  | changed (way : Way)
  | expired (way : Way) (now : Nat)
  | abort

namespace Relay

def start (cfg : Config) (now : Nat) : Relay where
  side := fun _ => .new
  client := ⟨0, 0⟩
  activity := now
  deadline := fun _ => now + cfg.timeout
  ended := none
  calls := []

/-- The streams and the guard are dropped. -/
def finish (cfg : Config) (s : Relay) (ended : Ended) : Relay :=
  { s with
    ended := some ended
    calls :=
      if 0 < s.client.upload ∨ 0 < s.client.download then
        s.calls ++ [(cfg.userId, s.client.upload, s.client.download)]
      else s.calls }

/-- An operation that is done is an activity, and the next one is awaited. -/
def tick (cfg : Config) (s : Relay) (way : Way) (d : Direction) (now : Nat) : Relay :=
  if d.phase.awaited = (s.side way).phase.awaited then s
  else { s with activity := now, deadline := Function.update s.deadline way (now + cfg.timeout) }

/-- `try_join` waits for both loops. -/
def join (cfg : Config) (s : Relay) : Relay :=
  if (s.side .aToB).phase = .done ∧ (s.side .bToA).phase = .done then
    s.finish cfg (.ok (s.side .aToB).total (s.side .bToA).total)
  else s

def step (cfg : Config) (s : Relay) (e : Event) : Option Relay :=
  match s.ended with
  | some _ => none
  | none =>
      match e with
      | .op way op now =>
          match (s.side way).next cfg.limited op with
          | none => none
          | some .fails => some (s.finish cfg .error)
          | some (.goes d) =>
              let client := s.client.observe (s.side way) way op
              let s := s.tick cfg way d now
              some ({ s with side := Function.update s.side way d, client := client }.join cfg)
      | .changed way =>
          some { s with deadline := Function.update s.deadline way (s.activity + cfg.timeout) }
      | .expired way now =>
          if cfg.timeout ≠ 0 ∧ (s.side way).phase ≠ .done ∧ s.deadline way ≤ now then
            some (s.finish cfg .error)
          else none
      | .abort => some (s.finish cfg .aborted)

end Relay

end Conn

end Elise
