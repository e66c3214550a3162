/-
Elise/Conn/UdpRelay.lean

The session of datagrams and what it bills (`UdpSession` in src/conn/udp.rs).

`relay` is a task, and a step is what happens between two of its waits: a branch of a
`select!` is taken, or something happens around it (a request comes, the response that has
been passed on is acknowledged, the token is cancelled, the timer elapses, the task is
dropped).  Any branch that is ready may be taken.

The session bills what a send returns in the step in which it returns (`Move.sent`).  A
response is billed when the task sees its acknowledgement, which may be later than it was
sent: if the task leaves in between, the response is never billed (`billed_iff`).

Left out: how a session is opened, and how long the limiter waits.  The counters are `u64` in the
source; they are numbers here, which is the same as long as a session relays less than 2^64 bytes.
-/
import Elise.Lib.Run

namespace Elise

namespace UdpSession

/-! ### The task -/

/-- What has become of the acknowledgement of a response. -/
inductive Ack where
  | waiting
  | sent
  | dropped
  deriving DecidableEq

/-- How the task has ended. -/
inductive Exit where
  | ok
  | error
  | dropped
  deriving DecidableEq

variable {α : Type}

/-- Where the task waits; addresses are of type `α`. -/
inductive Phase (α : Type) where
  | select
  | throttlingUp (packet : List UInt8)
  | sending (packet : List UInt8)
  | throttlingDown (response : List UInt8) (address : α)
  | offering (response : List UInt8) (address : α)
  | delivering (n : Nat) (ack : Ack)
  | exited (exit : Exit)

/-- What is counted: the counters of the session, the calls of `on_traffic`, what the sends
have returned, and the lengths of the responses that have been acknowledged. -/
structure Accounts where
  up : Nat
  down : Nat
  traffic : List (Nat × Nat)
  sends : List Nat
  acked : List Nat

structure Relay (α : Type) where
  phase : Phase α
  requests : List (List UInt8)
  requestsClosed : Bool
  responsesClosed : Bool
  cancelled : Bool
  /-- The timer has elapsed. -/
  idle : Bool
  /-- What has been passed to the consumer. -/
  responses : List (List UInt8 × α)
  accounts : Accounts
  /-- What `drop` has recorded. -/
  audits : List (Nat × Nat)
  /-- How often the guard has been released. -/
  released : Nat

inductive Event (α : Type) where
  | cancel
  | elapse
  | request (packet : List UInt8)
  | closeRequests
  | closeResponses
  | ack
  | dropAck
  /-- The future is dropped. -/
  | drop
  | takeCancelled
  | takeIdle
  | takeRequest
  /-- The socket has a response, or fails. -/
  | received (result : Option (List UInt8 × α))
  | throttled
  /-- The send returns. -/
  | sent (result : Option Nat)
  | offered
  | delivered

def start : Relay α := ⟨.select, [], false, false, false, false, [], ⟨0, 0, [], [], []⟩, [], 0⟩

namespace Relay

/-- The session is dropped: `drop` writes the record, and the guard is released. -/
def exit (s : Relay α) (exit : Exit) : Relay α :=
  { s with
    phase := .exited exit
    audits := s.audits ++ [(s.accounts.up, s.accounts.down)]
    released := s.released + 1 }

/-- A send has returned, and the timer is set again. -/
def sendReturned (s : Relay α) : Option Nat → Relay α
  | some n =>
      { s with
        phase := .select
        idle := false
        accounts := { s.accounts with
          up := s.accounts.up + n
          traffic := s.accounts.traffic ++ [(n, 0)]
          sends := s.accounts.sends ++ [n] } }
  | none => { s with phase := .select, idle := false }

/-- An acknowledgement has been seen. -/
def bill (s : Relay α) (n : Nat) : Relay α :=
  { s with
    phase := .select
    idle := false
    accounts := { s.accounts with
      down := s.accounts.down + n
      traffic := s.accounts.traffic ++ [(0, n)] } }

/-- What an event does while the task runs. -/
def act (s : Relay α) : Event α → Option (Relay α)
  | .cancel => some { s with cancelled := true }
  | .elapse => some { s with idle := true }
  | .request packet =>
      if s.requestsClosed then none else some { s with requests := s.requests ++ [packet] }
  | .closeRequests => some { s with requestsClosed := true }
  | .closeResponses => some { s with responsesClosed := true }
  | .ack =>
      match s.phase with
      | .delivering n .waiting =>
          some { s with
            phase := .delivering n .sent
            accounts := { s.accounts with acked := s.accounts.acked ++ [n] } }
      | _ => none
  | .dropAck =>
      match s.phase with
      | .delivering n .waiting => some { s with phase := .delivering n .dropped }
      | _ => none
  | .drop => some (s.exit .dropped)
  | .takeCancelled => if s.cancelled then some (s.exit .ok) else none
  | .takeIdle => if s.idle then some (s.exit .ok) else none
  | .takeRequest =>
      match s.phase, s.requests with
      | .select, packet :: requests => some { s with phase := .throttlingUp packet, requests := requests }
      | .select, [] => if s.requestsClosed then some (s.exit .ok) else none
      | _, _ => none
  | .received result =>
      match s.phase, result with
      | .select, some (response, address) => some { s with phase := .throttlingDown response address }
      | .select, none => some (s.exit .error)
      | _, _ => none
  | .throttled =>
      match s.phase with
      | .throttlingUp packet => some { s with phase := .sending packet }
      | .throttlingDown response address => some { s with phase := .offering response address }
      | _ => none
  | .sent result =>
      match s.phase with
      | .sending _ => some (s.sendReturned result)
      | _ => none
  | .offered =>
      match s.phase with
      | .offering response address =>
          if s.responsesClosed then some (s.exit .ok)
          else
            some { s with
              phase := .delivering response.length .waiting
              responses := s.responses ++ [(response, address)] }
      | _ => none
  | .delivered =>
      match s.phase with
      | .delivering n .sent => some (s.bill n)
      | .delivering _ .dropped =>
          if s.responsesClosed then some (s.exit .ok) else some { s with phase := .select }
      | _ => none

/-- One step; when the task has ended there is none. -/
def step (s : Relay α) (event : Event α) : Option (Relay α) :=
  match s.phase with
  | .exited _ => none
  | _ => s.act event

/-! ### What a step does to the accounts -/

/-- What has been acknowledged and is still to be billed. -/
def owed (s : Relay α) : Nat :=
  match s.phase with
  | .delivering n .sent => n
  | _ => 0

def Live (s : Relay α) : Prop := ∀ exit, s.phase ≠ .exited exit

/-- The task is made to leave, whatever it waits for. -/
def Leaves : Event α → Prop
  | .drop | .takeCancelled | .takeIdle => True
  | _ => False

instance decidableLeaves : (e : Event α) → Decidable (Leaves e)
  | .drop | .takeCancelled | .takeIdle => isTrue trivial
  | .cancel | .elapse | .request _ | .closeRequests | .closeResponses | .ack | .dropAck | .takeRequest
  | .received _ | .throttled | .sent _ | .offered | .delivered => isFalse id

inductive Move (s : Relay α) : Event α → Relay α → Prop
  | quiet {e : Event α} {s' : Relay α} : ¬ Leaves e → s'.Live → s'.owed = s.owed →
      s'.accounts = s.accounts → s'.audits = s.audits → s'.released = s.released → Move s e s'
  | sent (n : Nat) : s.owed = 0 → Move s (.sent (some n)) (s.sendReturned (some n))
  | acked {n : Nat} {s' : Relay α} : s.owed = 0 → s'.Live → s'.owed = n →
      s'.accounts = { s.accounts with acked := s.accounts.acked ++ [n] } → s'.audits = s.audits →
      s'.released = s.released → Move s .ack s'
  | billed : Move s .delivered (s.bill s.owed)
  | exited {e : Event α} (exit : Exit) : (Leaves e ∨ s.owed = 0) → Move s e (s.exit exit)

variable {s s' : Relay α} {e : Event α}

theorem act_of_step (h : s.step e = some s') : s.Live ∧ s.act e = some s' := by
  rw [step] at h
  split at h
  · cases h
  · rename_i hlive
    exact ⟨fun exit hexit => hlive exit hexit, h⟩

theorem owed_of_phase {phase : Phase α} (h : s.phase = phase) (hnot : ∀ n, phase ≠ .delivering n .sent) :
    s.owed = 0 := by
  rw [owed, h]
  split
  · exact absurd rfl (hnot _)
  · rfl

theorem live_of_phase {phase : Phase α} (h : s.phase = phase) (hnot : ∀ exit, phase ≠ .exited exit) :
    s.Live := by
  intro exit hexit
  exact hnot exit (h.symm.trans hexit)

/-- Leaving one wait for another, with nothing to be billed. -/
theorem Move.next {phase phase' : Phase α} (hleaves : ¬ Leaves e) (hphase : s.phase = phase)
    (hphase' : s'.phase = phase') (hnot : ∀ n, phase ≠ .delivering n .sent)
    (hnot' : ∀ n, phase' ≠ .delivering n .sent) (hlive : ∀ exit, phase' ≠ .exited exit)
    (haccounts : s'.accounts = s.accounts) (haudits : s'.audits = s.audits)
    (hreleased : s'.released = s.released) : Move s e s' :=
  .quiet hleaves (live_of_phase hphase' hlive)
    ((owed_of_phase hphase' hnot').trans (owed_of_phase hphase hnot).symm) haccounts haudits hreleased

/-- **What a step can do.** -/
theorem move_of_step (h : s.step e = some s') : s.Live ∧ Move s e s' := by
  obtain ⟨hlive, hact⟩ := act_of_step h
  refine ⟨hlive, ?_⟩
  cases e with
  | cancel | elapse | closeRequests | closeResponses =>
      obtain rfl := Option.some.inj hact
      exact .quiet id hlive rfl rfl rfl rfl
  | request packet =>
      rw [act] at hact
      split at hact
      · cases hact
      · obtain rfl := Option.some.inj hact
        exact .quiet id hlive rfl rfl rfl rfl
  | ack =>
      rw [act] at hact
      split at hact
      · rename_i n hphase
        obtain rfl := Option.some.inj hact
        exact .acked (owed_of_phase hphase (by simp)) (fun _ hexit => nomatch hexit) rfl rfl rfl rfl
      · cases hact
  | dropAck =>
      rw [act] at hact
      split at hact
      · rename_i n hphase
        obtain rfl := Option.some.inj hact
        exact .next id hphase rfl (by simp) (by simp) (by simp) rfl rfl rfl
      · cases hact
  | drop =>
      obtain rfl := Option.some.inj hact
      exact .exited .dropped (.inl trivial)
  | takeCancelled | takeIdle =>
      rw [act] at hact
      split at hact
      · obtain rfl := Option.some.inj hact
        exact .exited .ok (.inl trivial)
      · cases hact
  | takeRequest =>
      rw [act] at hact
      split at hact
      · rename_i hphase _
        obtain rfl := Option.some.inj hact
        exact .next id hphase rfl (by simp) (by simp) (by simp) rfl rfl rfl
      · rename_i hphase _
        split at hact
        · obtain rfl := Option.some.inj hact
          exact .exited .ok (.inr (owed_of_phase hphase (by simp)))
        · cases hact
      · cases hact
  | received result =>
      dsimp only [act] at hact
      split at hact
      · rename_i hphase
        obtain rfl := Option.some.inj hact
        exact .next id hphase rfl (by simp) (by simp) (by simp) rfl rfl rfl
      · rename_i hphase
        obtain rfl := Option.some.inj hact
        exact .exited .error (.inr (owed_of_phase hphase (by simp)))
      · cases hact
  | throttled =>
      rw [act] at hact
      split at hact
      · rename_i hphase
        obtain rfl := Option.some.inj hact
        exact .next id hphase rfl (by simp) (by simp) (by simp) rfl rfl rfl
      · rename_i hphase
        obtain rfl := Option.some.inj hact
        exact .next id hphase rfl (by simp) (by simp) (by simp) rfl rfl rfl
      · cases hact
  | sent result =>
      rw [act] at hact
      split at hact
      · rename_i hphase
        obtain rfl := Option.some.inj hact
        cases result with
        | some n => exact .sent n (owed_of_phase hphase (by simp))
        | none =>
            have hselect : (s.sendReturned none).phase = .select := rfl
            exact .next id hphase hselect (by simp) (by simp) (by simp) rfl rfl rfl
      · cases hact
  | offered =>
      rw [act] at hact
      split at hact
      · rename_i hphase
        split at hact
        · obtain rfl := Option.some.inj hact
          exact .exited .ok (.inr (owed_of_phase hphase (by simp)))
        · obtain rfl := Option.some.inj hact
          exact .next id hphase rfl (by simp) (by simp) (by simp) rfl rfl rfl
      · cases hact
  | delivered =>
      rw [act] at hact
      split at hact
      · rename_i n hphase
        obtain rfl := Option.some.inj hact
        have howed : s.owed = n := by rw [owed, hphase]
        have hbilled := @Move.billed α s
        rw [howed] at hbilled
        exact hbilled
      · rename_i hphase
        split at hact
        · obtain rfl := Option.some.inj hact
          exact .exited .ok (.inr (owed_of_phase hphase (by simp)))
        · obtain rfl := Option.some.inj hact
          exact .next id hphase rfl (by simp) (by simp) (by simp) rfl rfl rfl
      · cases hact

/-! ### Runs -/

/-- What is counted while the task runs. -/
structure Sound (s : Relay α) : Prop where
  up_eq : s.accounts.up = (s.accounts.traffic.map Prod.fst).sum
  up_sends : s.accounts.up = s.accounts.sends.sum
  down_eq : s.accounts.down = (s.accounts.traffic.map Prod.snd).sum
  acked_eq : s.accounts.acked.sum = s.accounts.down + s.owed
  audits_nil : s.audits = []
  released_zero : s.released = 0

/-- What has been reported when the task has ended: what the sends returned, and the
responses that have been acknowledged; the record says the same, and the guard has been
released once. -/
def Settled (s : Relay α) : Prop :=
  ∀ exit, s.phase = .exited exit →
    (s.accounts.traffic.map Prod.fst).sum = s.accounts.sends.sum ∧
      (s.accounts.traffic.map Prod.snd).sum = s.accounts.acked.sum ∧
      s.audits = [((s.accounts.traffic.map Prod.fst).sum, (s.accounts.traffic.map Prod.snd).sum)] ∧
      s.released = 1

/-- The task does not leave while a response, with something in it, has been acknowledged
and is not billed yet. -/
def Sees (s : Relay α) (e : Event α) : Prop := Leaves e → s.owed = 0

instance (s : Relay α) (e : Event α) : Decidable (s.Sees e) :=
  inferInstanceAs (Decidable (Leaves e → s.owed = 0))

theorem sound_start : (start : Relay α).Sound := ⟨rfl, rfl, rfl, rfl, rfl, rfl⟩

/-- A step either keeps the task going, and what it counts sound, or ends it. -/
theorem Sound.move (h : s.Sound) (hmove : Move s e s') :
    (s'.Live ∧ s'.Sound ∧ s.Sees e) ∨ ∃ exit, s' = s.exit exit ∧ (Leaves e ∨ s.owed = 0) := by
  cases hmove with
  | quiet hleaves hlive howed haccounts haudits hreleased =>
      refine .inl ⟨hlive, ?_, fun hleave => absurd hleave hleaves⟩
      refine ⟨?_, ?_, ?_, ?_, haudits.trans h.audits_nil, hreleased.trans h.released_zero⟩
      · rw [haccounts]
        exact h.up_eq
      · rw [haccounts]
        exact h.up_sends
      · rw [haccounts]
        exact h.down_eq
      · rw [haccounts, howed]
        exact h.acked_eq
  | sent n howed =>
      refine .inl ⟨fun _ hexit => (nomatch hexit), ?_, fun hleave => hleave.elim⟩
      have hacked := h.acked_eq
      rw [howed] at hacked
      refine ⟨?_, ?_, ?_, hacked, h.audits_nil, h.released_zero⟩
      · simp [sendReturned, h.up_eq]
      · simp [sendReturned, h.up_sends]
      · simp [sendReturned, h.down_eq]
  | acked hzero hlive howed haccounts haudits hreleased =>
      refine .inl ⟨hlive, ?_, fun hleave => hleave.elim⟩
      refine ⟨?_, ?_, ?_, ?_, haudits.trans h.audits_nil, hreleased.trans h.released_zero⟩
      · rw [haccounts]
        exact h.up_eq
      · rw [haccounts]
        exact h.up_sends
      · rw [haccounts]
        exact h.down_eq
      · rw [haccounts, howed, List.sum_append, h.acked_eq, hzero, List.sum_singleton]
        rfl
  | billed =>
      refine .inl ⟨fun _ hexit => (nomatch hexit), ?_, fun hleave => hleave.elim⟩
      refine ⟨?_, ?_, ?_, ?_, h.audits_nil, h.released_zero⟩
      · simp [bill, h.up_eq]
      · exact h.up_sends
      · simp [bill, h.down_eq]
      · exact h.acked_eq
  | exited exit hleaves => exact .inr ⟨exit, rfl, hleaves⟩

/-- What is settled when the task ends: nothing is owed. -/
theorem Sound.settled_exit_iff (h : s.Sound) (exit : Exit) : (s.exit exit).Settled ↔ s.owed = 0 := by
  have hacked := h.acked_eq
  have hdown := h.down_eq
  constructor
  · intro hsettled
    obtain ⟨-, htraffic, -⟩ := hsettled exit rfl
    have htraffic : (s.accounts.traffic.map Prod.snd).sum = s.accounts.acked.sum := htraffic
    omega
  · intro howed other _
    refine ⟨h.up_eq.symm.trans h.up_sends, ?_, ?_, ?_⟩
    · show (s.accounts.traffic.map Prod.snd).sum = s.accounts.acked.sum
      omega
    · show s.audits ++ [(s.accounts.up, s.accounts.down)] = _
      rw [h.audits_nil, h.up_eq, hdown]
      rfl
    · show s.released + 1 = 1
      rw [h.released_zero]

theorem step_exit (exit : Exit) (e : Event α) : (s.exit exit).step e = none := rfl

/-- **What is billed is what was delivered**, in a run of a task that is sound, if and only
if the task never leaves while an acknowledgement that it has not seen is there. -/
theorem Sound.settled_iff (h : s.Sound) (hlive : s.Live) {events : List (Event α)}
    (hrun : Run.exec step s events = some s') : s'.Settled ↔ Run.Along step Sees s events := by
  induction events generalizing s with
  | nil =>
      obtain rfl := Option.some.inj hrun
      exact iff_of_true (fun exit hexit => absurd hexit (hlive exit)) trivial
  | cons e events ih =>
      obtain ⟨t, hstep, hrest⟩ := Run.exec_cons_eq_some.mp hrun
      have hsplit : Run.Along step Sees s (e :: events) ↔ s.Sees e ∧ Run.Along step Sees t events := by
        refine and_congr_right fun _ => ⟨fun hall => hall t hstep, fun ht t' ht' => ?_⟩
        obtain rfl := Option.some.inj (hstep.symm.trans ht')
        exact ht
      rw [hsplit]
      rcases h.move (move_of_step hstep).2 with ⟨hlive', hsound, hsees⟩ | ⟨exit, rfl, hleaves⟩
      · rw [ih hsound hlive' hrest]
        exact (and_iff_right hsees).symm
      · -- behind the exit there is nothing
        cases events with
        | nil =>
            obtain rfl := Option.some.inj hrest
            rw [h.settled_exit_iff exit]
            have hsees : s.Sees e ↔ s.owed = 0 := by
              rcases hleaves with hleaves | howed
              · exact ⟨fun hsees => hsees hleaves, fun howed _ => howed⟩
              · exact iff_of_true (fun _ => howed) howed
            rw [hsees]
            exact (and_iff_left trivial).symm
        | cons e' events =>
            obtain ⟨u, hu, -⟩ := Run.exec_cons_eq_some.mp hrest
            cases hu

end Relay

open Relay

/-- **The session bills exactly what was delivered** if and only if it never leaves while a
response has been acknowledged and the task has not seen it. -/
theorem billed_iff {events : List (Event α)} {s : Relay α} (hrun : Run.exec step start events = some s) :
    s.Settled ↔ Run.Along step Sees start events :=
  sound_start.settled_iff (fun _ hexit => nomatch hexit) hrun

/-- A response of three bytes that is acknowledged before the task is cancelled. -/
def lateEvents : List (Event Unit) :=
  [.received (some ([1, 2, 3], ())), .throttled, .offered, .ack, .cancel, .takeCancelled]

/-- The same, seen in time. -/
def seenEvents : List (Event Unit) :=
  [.received (some ([1, 2, 3], ())), .throttled, .offered, .ack, .delivered, .cancel, .takeCancelled]

theorem settled_seen : ∃ s : Relay Unit, Run.exec step start seenEvents = some s ∧ s.Settled := by
  have hsees : Run.Along step Sees start seenEvents := by decide
  exact ⟨_, rfl, (billed_iff rfl).mpr hsees⟩

/-- It is not billed. -/
theorem late_not_settled :
    ∃ s : Relay Unit, Run.exec step start lateEvents = some s ∧ s.accounts.acked = [3] ∧
      s.audits = [(0, 0)] ∧ ¬ s.Settled := by
  refine ⟨_, rfl, rfl, rfl, ?_⟩
  intro hsettled
  obtain ⟨-, htraffic, -⟩ := hsettled .ok rfl
  exact absurd htraffic (by decide)

end UdpSession

end Elise
