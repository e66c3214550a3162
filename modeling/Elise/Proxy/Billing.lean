/-
Elise/Proxy/Billing.lean

Billing conservation.  `Books` keeps, beside the runner, what was restored at
its start, what callbacks added since, and what was billed: the batches whose
`report_traffic` returned `Ok`.  In every run, per user and direction,

    billed + pending  =  restored + added,

as long as the right-hand side fits the 64-bit counters.

The invariant behind it (`Balanced`) has a second half: the buffer always
holds the batch that is out for a report.  The batch is a copy of buffer
entries, callbacks only add to them, and `report_lock` keeps a second report
from subtracting in between; so the acknowledgement cannot underflow.
-/
import Elise.Proxy.Report

namespace Elise

variable {env : ReportEnv}

/-! ### The books -/

structure Books where
  restored : UInt32 → Direction → Nat
  added : UInt32 → Direction → Nat
  billed : UInt32 → Direction → Nat

namespace Books

/-- Enter a step of the runner. -/
def enter (b : Books) (r : NodeRunner) : RunnerEvent → Books
  | .onTraffic userId up down =>
      { b with
        added := fun user dir =>
          b.added user dir + if user = userId then (dir.pick (up, down)).toNat else 0 }
  | .resume =>
      match r.phase with
      | .reporting items _ (.done (.ok _)) =>
          { b with billed := fun user dir => b.billed user dir + itemBytes items user dir }
      | _ => b
  | _ => b

/-- Enter a step of the process; a start opens new books. -/
def post (h : Host env) (b : Books) : Event → Books
  | .start readable =>
      match (h.boot readable).runner with
      | some r => ⟨r.trafficBuffer.bytes, fun _ _ => 0, fun _ _ => 0⟩
      | none => b
  | .crash => b
  | .run e =>
      match h.runner with
      | some r => b.enter r e
      | none => b

end Books

/-! ### The invariant -/

/-- The books balance for a user and direction, and the buffer holds the batch
that is out. -/
structure Balanced (b : Books) (r : NodeRunner) (user : UInt32) (dir : Direction) : Prop where
  balance : b.billed user dir + r.trafficBuffer.bytes user dir =
    b.restored user dir + b.added user dir
  held : itemBytes r.phase.items user dir ≤ r.trafficBuffer.bytes user dir

/-- The books of a user and direction fit the counters. -/
def Books.Fits (b : Books) (user : UInt32) (dir : Direction) : Prop :=
  b.restored user dir + b.added user dir < 2 ^ 64

/-- The traffic a step adds keeps the books fitting only if they fitted before. -/
theorem Books.fits_of_enter {b : Books} {r : NodeRunner} {e : RunnerEvent} {user : UInt32}
    {dir : Direction} (h : (b.enter r e).Fits user dir) : b.Fits user dir := by
  unfold Books.Fits at h ⊢
  cases e with
  | onTraffic userId up down =>
      simp only [Books.enter] at h
      omega
  | resume =>
      simp only [Books.enter] at h
      split at h <;> exact h
  | snapshot _ | saveBegin _ | saveEnd _ | answer _ | close | cancel => exact h

theorem Balanced.snapshot {b : Books} {r : NodeRunner} {user : UInt32} {dir : Direction}
    (hb : Balanced b r user dir) (force : Bool) :
    Balanced b (r.snapshot env force) user dir where
  balance := hb.balance
  held := by
    rw [NodeRunner.items_snapshot]
    exact TrafficBuffer.itemBytes_batch_le r.trafficBuffer force env.minTrafficBytes user dir

/-- A phase without a batch holds nothing out. -/
theorem Balanced.of_items_nil {b : Books} {r r' : NodeRunner} {user : UInt32} {dir : Direction}
    (hb : Balanced b r user dir) (hbuf : r'.trafficBuffer = r.trafficBuffer)
    (hitems : r'.phase.items = r.phase.items ∨ r'.phase.items = []) :
    Balanced b r' user dir where
  balance := by
    rw [hbuf]
    exact hb.balance
  held := by
    rw [hbuf]
    rcases hitems with h | h
    · rw [h]
      exact hb.held
    · rw [h]
      exact Nat.zero_le _

/-- **One step keeps the books balanced.** -/
theorem advance_balanced {b : Books} {r r' : NodeRunner} {e : RunnerEvent} {user : UInt32}
    {dir : Direction} (hb : Balanced b r user dir) (hadv : r.advance env e = some r')
    (hfit : (b.enter r e).Fits user dir) : Balanced (b.enter r e) r' user dir := by
  cases e with
  | onTraffic userId up down =>
      obtain rfl := Option.some.inj hadv
      have hbal := hb.balance
      have hheld := hb.held
      simp only [Books.Fits, Books.enter] at hfit
      -- what is pending is at most what the books show, so the cell has room
      have hroom : user = userId →
          r.trafficBuffer.bytes user dir + (dir.pick (up, down)).toNat < 2 ^ 64 := by
        intro hu
        rw [if_pos hu] at hfit
        omega
      have hadd := TrafficBuffer.bytes_onTraffic hroom
      refine ⟨?_, ?_⟩
      · show b.billed user dir + (r.trafficBuffer.onTraffic userId up down).bytes user dir
          = b.restored user dir + (b.added user dir + _)
        rw [hadd]
        omega
      · show itemBytes r.phase.items user dir
          ≤ (r.trafficBuffer.onTraffic userId up down).bytes user dir
        rw [hadd]
        omega
  | snapshot force =>
      obtain ⟨-, rfl⟩ := NodeRunner.advance_snapshot hadv
      exact hb.snapshot force
  | saveBegin saver =>
      obtain ⟨-, -, rfl⟩ := NodeRunner.advance_saveBegin hadv
      exact hb.of_items_nil rfl (.inl rfl)
  | saveEnd outcome =>
      rcases NodeRunner.advance_saveEnd hadv with ⟨copy, -, rfl⟩ | ⟨copy, -, rfl⟩
      · exact hb.of_items_nil rfl (NodeRunner.items_afterSave outcome r.phase)
      · exact hb.of_items_nil rfl (.inl rfl)
  | answer a =>
      obtain ⟨items, active, req, left, k, hphase, rfl⟩ := NodeRunner.advance_answer hadv
      exact hb.of_items_nil rfl (.inl (by rw [hphase]; rfl))
  | resume =>
      rcases NodeRunner.advance_resume hadv with
        ⟨items, active, hphase, rfl⟩ | ⟨items, active, err, hphase, rfl⟩
      · -- the batch moves from the buffer to the bill
        have hbal := hb.balance
        have hheld := hb.held
        simp only [hphase, ReportPhase.items] at hheld
        have hack := TrafficBuffer.bytes_acknowledge hheld
        refine ⟨?_, Nat.zero_le _⟩
        simp only [Books.enter, hphase, hack]
        omega
      · simp only [Books.enter, hphase]
        exact hb.of_items_nil rfl (.inr rfl)
  | close =>
      obtain ⟨-, rfl⟩ := NodeRunner.advance_close hadv
      exact hb.of_items_nil rfl (.inr rfl)
  | cancel =>
      obtain rfl := NodeRunner.advance_cancel hadv
      exact hb.of_items_nil rfl (.inr rfl)

/-- The books balance wherever they fit. -/
def BooksInv (c : Host env × Books) : Prop :=
  ∀ r, c.1.runner = some r → ∀ user dir, c.2.Fits user dir → Balanced c.2 r user dir

theorem booksInv_step {c c' : Host env × Books} {e : Event} (hinv : BooksInv c)
    (hs : Run.track Host.step Books.post c e = some c') : BooksInv c' := by
  obtain ⟨h, b⟩ := c
  obtain ⟨h', b'⟩ := c'
  obtain ⟨hstep, rfl⟩ := Run.track_eq_some.mp hs
  intro r hr user dir hfit
  rcases Host.step_cases hstep with
    ⟨readable, rfl, hdown, rfl⟩ | ⟨r₀, rfl, hup, rfl⟩ | ⟨ev, r₀, r', rfl, hup, hadv, rfl⟩
  · -- a start opens the books with what was restored
    dsimp only at hr
    obtain ⟨buf, -, rfl⟩ := Host.boot_runner_eq_some hdown hr
    simp only [Books.post, hr]
    exact ⟨by simp, Nat.zero_le _⟩
  · cases hr
  · obtain rfl := Option.some.inj hr
    dsimp only at hup
    simp only [Books.post, hup] at hfit ⊢
    exact advance_balanced (hinv r₀ hup user dir (Books.fits_of_enter hfit)) hadv hfit

/-! ### Conservation over whole runs -/

/-- The call that this step ends returned `Err`. -/
def EndsInErr (r : NodeRunner) : RunnerEvent → Prop
  | .saveEnd outcome => outcome ≠ .ok
  | .resume => ∃ items active err, r.phase = .reporting items active (.done (.error err))
  | _ => False

theorem trafficBuffer_of_endsInErr {r r' : NodeRunner} {e : RunnerEvent}
    (herr : EndsInErr r e) (hadv : r.advance env e = some r') :
    r'.trafficBuffer = r.trafficBuffer := by
  cases e with
  | saveEnd outcome =>
      rcases NodeRunner.advance_saveEnd hadv with ⟨copy, -, rfl⟩ | ⟨copy, -, rfl⟩ <;> rfl
  | resume =>
      obtain ⟨items, active, err, hphase⟩ := herr
      rcases NodeRunner.advance_resume hadv with
        ⟨items', active', hphase', -⟩ | ⟨items', active', err', -, rfl⟩
      · rw [hphase] at hphase'
        simp at hphase'
      · rfl
  | onTraffic _ _ _ | snapshot _ | saveBegin _ | answer _ | close | cancel => exact herr.elim

/-- **Billing conservation.**  In every run of a node runner from a process
that is down, whatever the panel, the disk and the scheduler do: per user and
direction the billed and the pending bytes are the restored and the added
ones; the acknowledgement of an accepted batch does not underflow; and a
call that ended in `Err` left the buffer alone. -/
theorem billing_conserved (env : ReportEnv) {h h' : Host env} {b b' : Books} {es : List Event}
    (hdown : h.runner = none)
    (hrun : Run.exec (Run.track Host.step Books.post) (h, b) es = some (h', b'))
    {r : NodeRunner} (hup : h'.runner = some r)
    (hfit : ∀ user dir, b'.restored user dir + b'.added user dir < 2 ^ 64) :
    (∀ user dir, b'.billed user dir + r.trafficBuffer.bytes user dir =
      b'.restored user dir + b'.added user dir) ∧
    (∀ items active, r.phase = .reporting items active (.done (.ok ())) →
      TrafficBuffer.AckSafe r.trafficBuffer items) ∧
    (∀ e r', EndsInErr r e → r.advance env e = some r' →
      r'.trafficBuffer = r.trafficBuffer) := by
  -- before the first start there is no runner, so there is nothing to balance
  have hstart : BooksInv (h, b) := by
    intro r₀ hr₀
    simp [hdown] at hr₀
  have hinv : BooksInv (h', b') := Run.exec_preserves booksInv_step hrun hstart
  have hbal := fun user dir => hinv r hup user dir (hfit user dir)
  refine ⟨fun user dir => (hbal user dir).balance, ?_, ?_⟩
  · intro items active hphase
    apply TrafficBuffer.ackSafe_of_le
    intro user dir
    have hheld := (hbal user dir).held
    simpa only [hphase, ReportPhase.items] using hheld
  · intro e r' herr hadv
    exact trafficBuffer_of_endsInErr herr hadv

/-! ### A report with traffic between snapshot and acknowledgement -/

/-- An SSPanel node with a plain store. -/
def billingEnv : ReportEnv :=
  .ofClient .plain (.sspanel ⟨"http://127.0.0.1:1", "fixture"⟩) 1 0

def billingRun : List Event :=
  [.start true, .run (.onTraffic 42 100 500), .run (.snapshot false), .run (.saveBegin .report),
    .run (.saveEnd .ok), .run (.onTraffic 42 30 70),
    .run (.answer (.response .ok none none)), .run .resume]

/-- Where `billingRun` ends: the first callback is billed, the second pending. -/
def billingEnd : Host billingEnv where
  disk := some (AssocMap.insert ∅ 42 (100, 500))
  runner := some ⟨AssocMap.insert ∅ 42 (30, 70), .flushing (AssocMap.insert ∅ 42 600), none⟩

def Books.blank : Books := ⟨fun _ _ => 0, fun _ _ => 0, fun _ _ => 0⟩

def billingBooks : Books where
  restored := (∅ : TrafficBuffer).bytes
  added user dir :=
    0 + (if user = 42 then (dir.pick ((100 : UInt64), 500)).toNat else 0)
      + (if user = 42 then (dir.pick ((30 : UInt64), 70)).toNat else 0)
  billed user dir := 0 + itemBytes [⟨42, 100, 500⟩] user dir

theorem billing_conserved_sspanel :
    Run.exec (Run.track Host.step Books.post) ((⟨none, none⟩ : Host billingEnv), Books.blank)
      billingRun = some (billingEnd, billingBooks) ∧
    billingBooks.billed 42 .up = 100 ∧
    ∀ r, billingEnd.runner = some r → r.trafficBuffer.bytes 42 .up = 30 ∧
      ∀ user dir, billingBooks.billed user dir + r.trafficBuffer.bytes user dir =
        billingBooks.restored user dir + billingBooks.added user dir := by
  have hrun : Run.exec (Run.track Host.step Books.post)
      ((⟨none, none⟩ : Host billingEnv), Books.blank) billingRun
      = some (billingEnd, billingBooks) := rfl
  refine ⟨hrun, rfl, ?_⟩
  intro r hr
  refine ⟨?_, (billing_conserved billingEnv rfl hrun hr ?_).1⟩
  · obtain rfl := Option.some.inj hr
    rfl
  · intro user dir
    by_cases h : user = 42
    · subst h
      cases dir <;> decide
    · have hempty := TrafficBuffer.bytes_eq_zero_of_get dir
        (AssocMap.get_empty (ν := UInt64 × UInt64) user)
      simp [h, billingBooks, hempty]

end Elise
