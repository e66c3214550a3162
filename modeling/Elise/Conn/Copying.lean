/-
Elise/Conn/Copying.lean

What the relay copies and reports.

Each loop copies in order (`Copies`), and neither can cut the other short: what both
do alone they do together, however their steps alternate.  The counts are what was
read from the client and what the client took, wherever the task ends.
-/
import Elise.Conn.Relay

namespace Elise

namespace Conn

open Poll

/-! ### One direction -/

/-- What was read and is not written yet. -/
def Phase.waiting : Phase → List UInt8
  | throttling buf => buf
  | writing _ left => left
  | _ => []

/-- What was read and is not in the total yet. -/
def Phase.uncounted : Phase → Nat
  | throttling buf => buf.length
  | writing n _ | flushing n => n
  | _ => 0

structure Direction.Copies (d : Direction) : Prop where
  bytes : d.reads = d.written ++ d.phase.waiting
  count : d.reads.length = d.total + d.phase.uncounted
  shut : d.shut = true ↔ d.phase = .done

theorem Direction.copies_new : Direction.new.Copies := ⟨rfl, rfl, by decide⟩

/-- What a loop reads with an answer. -/
def Op.got : Op → List UInt8
  | .read (.ready bytes) => bytes
  | _ => []

/-- What is written with an answer. -/
def Op.put (left : List UInt8) : Op → List UInt8
  | .write (.some n) => left.take n
  | _ => []

variable {limited : Bool} {d d' : Direction} {op : Op}

/-- The steps of a loop that do not fail. -/
inductive Moves (limited : Bool) : Direction → Op → Direction → Prop
  | waits {d : Direction} {op : Op} : op.got = [] → (∀ left, op.put left = []) → Moves limited d op d
  | ends {d : Direction} :
      d.phase = .reading → Moves limited d (.read (.ready [])) { d with phase := .shuttingDown }
  | reads {d : Direction} {bytes : List UInt8} :
      d.phase = .reading → bytes ≠ [] → Moves limited d (.read (.ready bytes)) { d with
        phase := if limited then .throttling bytes else .writing bytes.length bytes
        reads := d.reads ++ bytes }
  | throttled {d : Direction} {buf : List UInt8} :
      d.phase = .throttling buf →
        Moves limited d .throttled { d with phase := .writing buf.length buf }
  | writes {d : Direction} {n k : Nat} {left : List UInt8} :
      d.phase = .writing n left → Moves limited d (.write (.some (k + 1))) { d with
        phase := if (left.drop (k + 1)).isEmpty then .flushing n else .writing n (left.drop (k + 1))
        written := d.written ++ left.take (k + 1) }
  | flushes {d : Direction} {n : Nat} :
      d.phase = .flushing n →
        Moves limited d (.flush (.ready ())) { d with phase := .reading, total := d.total + n }
  | shutsDown {d : Direction} :
      d.phase = .shuttingDown →
        Moves limited d (.shutdown (.ready ())) { d with phase := .done, shut := true }

theorem moves_of_next (h : d.next limited op = some (.goes d')) : Moves limited d op d' := by
  unfold Direction.next at h
  cases op with
  | read answer =>
      cases hphase : d.phase <;> simp only [hphase] at h <;> try cases h
      cases answer with
      | pending =>
          obtain rfl := Next.goes.inj (Option.some.inj h)
          exact .waits rfl fun _ => rfl
      | error => cases h
      | ready bytes =>
          dsimp only at h
          by_cases hlong : bufferSize < bytes.length
          · rw [if_pos hlong] at h
            cases h
          rw [if_neg hlong] at h
          by_cases hempty : bytes.isEmpty = true
          · rw [if_pos hempty] at h
            obtain rfl := Next.goes.inj (Option.some.inj h)
            rw [List.isEmpty_iff.mp hempty]
            exact .ends hphase
          · rw [if_neg hempty] at h
            obtain rfl := Next.goes.inj (Option.some.inj h)
            exact .reads hphase (by simpa using hempty)
  | throttled =>
      cases hphase : d.phase <;> simp only [hphase] at h <;> try cases h
      exact .throttled hphase
  | write answer =>
      cases hphase : d.phase <;> simp only [hphase] at h <;> try cases h
      rcases answer with - | k | -
      · obtain rfl := Next.goes.inj (Option.some.inj h)
        exact .waits rfl fun _ => rfl
      · cases k with
        | zero => cases h
        | succ k =>
            obtain rfl := Next.goes.inj (Option.some.inj h)
            exact .writes hphase
      · cases h
  | flush answer =>
      cases hphase : d.phase <;> simp only [hphase] at h <;> try cases h
      cases answer with
      | pending =>
          obtain rfl := Next.goes.inj (Option.some.inj h)
          exact .waits rfl fun _ => rfl
      | error => cases h
      | ready value =>
          obtain rfl := Next.goes.inj (Option.some.inj h)
          exact .flushes hphase
  | shutdown answer =>
      cases hphase : d.phase <;> simp only [hphase] at h <;> try cases h
      cases answer with
      | pending =>
          obtain rfl := Next.goes.inj (Option.some.inj h)
          exact .waits rfl fun _ => rfl
      | error => cases h
      | ready value =>
          obtain rfl := Next.goes.inj (Option.some.inj h)
          exact .shutsDown hphase

/-- **What a step of a loop does**: it reads or writes the next bytes. -/
theorem Moves.copies (h : d.Copies) (hmoves : Moves limited d op d') :
    d'.Copies ∧ d'.reads = d.reads ++ op.got ∧ d'.written = d.written ++ op.put d.phase.waiting := by
  obtain ⟨hbytes, hcount, hshut⟩ := h
  cases hmoves with
  | waits hgot hput =>
      refine ⟨⟨hbytes, hcount, hshut⟩, ?_, ?_⟩
      · rw [hgot, List.append_nil]
      · rw [hput, List.append_nil]
  | ends hphase =>
      rw [hphase] at hbytes hcount hshut
      refine ⟨⟨hbytes, hcount, ?_⟩, (List.append_nil _).symm, (List.append_nil _).symm⟩
      rw [hshut]
      simp
  | @reads bytes hphase hne =>
      rw [hphase] at hbytes hcount hshut
      have hwritten : d.reads = d.written := hbytes.trans (List.append_nil _)
      have htotal : d.reads.length = d.total := hcount
      refine ⟨⟨?_, ?_, ?_⟩, rfl, (List.append_nil _).symm⟩
      · show d.reads ++ bytes = d.written ++ _
        rw [hwritten]
        cases limited <;> rfl
      · show (d.reads ++ bytes).length = d.total + _
        rw [List.length_append, htotal]
        cases limited <;> rfl
      · show d.shut = true ↔ _
        rw [hshut]
        cases limited <;> simp
  | @throttled buf hphase =>
      rw [hphase] at hbytes hcount hshut
      refine ⟨⟨hbytes, hcount, ?_⟩, (List.append_nil _).symm, (List.append_nil _).symm⟩
      rw [hshut]
      simp
  | @writes n k left hphase =>
      rw [hphase] at hbytes hcount hshut
      refine ⟨⟨?_, ?_, ?_⟩, (List.append_nil _).symm, ?_⟩
      · show d.reads = d.written ++ left.take (k + 1) ++ _
        have hleft : d.reads = d.written ++ left := hbytes
        rw [hleft, List.append_assoc]
        congr 1
        conv_lhs => rw [← List.take_append_drop (k + 1) left]
        congr 1
        by_cases hempty : (left.drop (k + 1)).isEmpty = true
        · rw [if_pos hempty]
          exact List.isEmpty_iff.mp hempty
        · rw [if_neg hempty]
          rfl
      · show d.reads.length = d.total + _
        rw [hcount]
        split <;> rfl
      · show d.shut = true ↔ _
        rw [hshut]
        split <;> simp
      · rw [hphase]
        rfl
  | @flushes n hphase =>
      rw [hphase] at hbytes hcount hshut
      refine ⟨⟨hbytes, hcount, ?_⟩, (List.append_nil _).symm, (List.append_nil _).symm⟩
      rw [hshut]
      simp
  | shutsDown hphase =>
      rw [hphase] at hbytes hcount
      exact ⟨⟨hbytes, hcount, by simp⟩, (List.append_nil _).symm, (List.append_nil _).symm⟩

/-! ### The counts -/

theorem observe_aToB (m : MonitoredStream) (d : Direction) (op : Op) :
    m.observe d .aToB op = { m with upload := m.upload + op.got.length } := by
  cases op with
  | read answer => cases answer <;> rfl
  | _ => rfl

theorem observe_bToA (m : MonitoredStream) (hmoves : Moves limited d op d') :
    m.observe d .bToA op =
      { m with download := m.download + (op.put d.phase.waiting).length } := by
  cases hmoves with
  | waits _ hput =>
      rw [hput]
      cases op with
      | write answer =>
          rw [MonitoredStream.observe]
          split
          · cases answer with
            | some n =>
                have hlen := congrArg List.length (hput (List.replicate n 0))
                rw [Op.put, List.length_take, List.length_replicate, Nat.min_self] at hlen
                have hzero : n = 0 := hlen
                rw [MonitoredStream.pollWrite, hzero, Nat.zero_min]
                rfl
            | _ => rfl
          · rfl
      | _ => rfl
  | @writes n k left hphase =>
      have hput : (Op.write (.some (k + 1))).put d.phase.waiting = left.take (k + 1) := by
        rw [hphase]
        rfl
      rw [hput, MonitoredStream.observe, hphase, List.length_take]
      rfl
  | _ => rfl

/-! ### Both directions -/

/-- What the guard reports. -/
def report (cfg : Config) (up down : List UInt8) : List (UInt32 × Nat × Nat) :=
  if up = [] ∧ down = [] then [] else [(cfg.userId, up.length, down.length)]

/-- An error, or an end from outside. -/
def Event.Breaks : Event → Prop
  | .op _ (.read answer) _ => answer = .error
  | .op _ .throttled _ => False
  | .op _ (.write answer) _ => answer = .error ∨ answer = .some 0
  | .op _ (.flush answer) _ | .op _ (.shutdown answer) _ => answer = .error
  | .changed _ => False
  | .expired .. | .abort => True

/-- A loop fails with an error. -/
theorem breaks_of_fails (h : d.next limited op = some .fails) (way : Way) (now : Nat) :
    (Event.op way op now).Breaks := by
  unfold Direction.next at h
  cases op with
  | read answer =>
      cases hphase : d.phase <;> simp only [hphase] at h <;> try cases h
      cases answer with
      | pending => cases h
      | error => rfl
      | ready bytes =>
          dsimp only at h
          split_ifs at h <;> cases h
  | throttled => cases hphase : d.phase <;> simp only [hphase] at h <;> cases h
  | write answer =>
      cases hphase : d.phase <;> simp only [hphase] at h <;> try cases h
      rcases answer with - | k | -
      · cases h
      · cases k with
        | zero => exact .inr rfl
        | succ k => cases h
      · exact .inl rfl
  | flush answer =>
      cases hphase : d.phase <;> simp only [hphase] at h <;> try cases h
      cases answer with
      | error => rfl
      | _ => cases h
  | shutdown answer =>
      cases hphase : d.phase <;> simp only [hphase] at h <;> try cases h
      cases answer with
      | error => rfl
      | _ => cases h

namespace Relay

variable {cfg : Config} {s s' : Relay} {e : Event}

/-- The counts are right, and are reported once, at the end. -/
structure Accounts (cfg : Config) (s : Relay) : Prop where
  copies : ∀ way, (s.side way).Copies
  up : s.client.upload = (s.side .aToB).reads.length
  down : s.client.download = (s.side .bToA).written.length
  running : s.ended = none → s.calls = []
  billed : s.ended ≠ none → s.calls = report cfg (s.side .aToB).reads (s.side .bToA).written
  joined : ∀ up down, s.ended = some (.ok up down) →
    (∀ way, (s.side way).phase = .done) ∧ up = (s.side .aToB).total ∧ down = (s.side .bToA).total

/-- A step of one loop. -/
def moved (cfg : Config) (s : Relay) (way : Way) (op : Op) (d : Direction) (now : Nat) : Relay :=
  { s.tick cfg way d now with
    side := Function.update (s.tick cfg way d now).side way d
    client := s.client.observe (s.side way) way op }

theorem side_tick (way : Way) (d : Direction) (now : Nat) : (s.tick cfg way d now).side = s.side := by
  rw [tick]
  split <;> rfl

theorem side_moved (way : Way) (op : Op) (d : Direction) (now : Nat) :
    (s.moved cfg way op d now).side = Function.update s.side way d := by
  show Function.update (s.tick cfg way d now).side way d = _
  rw [side_tick]

theorem ended_moved (way : Way) (op : Op) (d : Direction) (now : Nat) :
    (s.moved cfg way op d now).ended = s.ended ∧ (s.moved cfg way op d now).calls = s.calls := by
  show (s.tick cfg way d now).ended = s.ended ∧ (s.tick cfg way d now).calls = s.calls
  rw [tick]
  split <;> exact ⟨rfl, rfl⟩

/-- **What an event does**: the task ends, or a clock is set, or one loop makes a
step. -/
theorem step_cases (h : step cfg s e = some s') :
    s.ended = none ∧
      ((∃ ended, s' = s.finish cfg ended ∧ (∀ up down, ended ≠ .ok up down) ∧ e.Breaks) ∨
        (∃ deadline, s' = { s with deadline := deadline }) ∨
        ∃ way op now d, (s.side way).next cfg.limited op = some (.goes d) ∧
          s' = (s.moved cfg way op d now).join cfg) := by
  unfold step at h
  split at h
  · cases h
  rename_i hended
  refine ⟨hended, ?_⟩
  cases e with
  | op way op now =>
      dsimp only at h
      split at h
      · cases h
      · rename_i hnext
        obtain rfl := Option.some.inj h
        exact .inl ⟨.error, rfl, nofun, breaks_of_fails hnext way now⟩
      · rename_i d hnext
        obtain rfl := Option.some.inj h
        exact .inr (.inr ⟨way, op, now, d, hnext, rfl⟩)
  | changed way =>
      obtain rfl := Option.some.inj h
      exact .inr (.inl ⟨_, rfl⟩)
  | expired way now =>
      dsimp only at h
      split at h
      · obtain rfl := Option.some.inj h
        exact .inl ⟨.error, rfl, nofun, trivial⟩
      · cases h
  | abort =>
      obtain rfl := Option.some.inj h
      exact .inl ⟨.aborted, rfl, nofun, trivial⟩

/-- The counts are reported, unless there are none. -/
theorem Accounts.finish (h : Accounts cfg s) (hrunning : s.ended = none) (ended : Ended)
    (hjoined : ∀ up down, ended = .ok up down → (∀ way, (s.side way).phase = .done) ∧
      up = (s.side .aToB).total ∧ down = (s.side .bToA).total) :
    Accounts cfg (s.finish cfg ended) := by
  refine ⟨h.copies, h.up, h.down, nofun, ?_, ?_⟩
  · intro _
    show (if _ then s.calls ++ _ else s.calls) =
      report cfg (s.side .aToB).reads (s.side .bToA).written
    rw [h.running hrunning, h.up, h.down, report]
    simp only [List.length_pos_iff, List.nil_append]
    by_cases hnone : (s.side .aToB).reads = [] ∧ (s.side .bToA).written = []
    · rw [if_pos hnone, if_neg (by
        rintro (hup | hdown)
        · exact hup hnone.1
        · exact hdown hnone.2)]
    · rw [if_neg hnone, if_pos (by
        by_contra hboth
        push Not at hboth
        exact hnone hboth)]
  · intro up down hok
    exact hjoined up down (Option.some.inj hok)

theorem Accounts.moved (h : Accounts cfg s) {way : Way} {op : Op} {d : Direction} (now : Nat)
    (hrunning : s.ended = none) (hnext : (s.side way).next cfg.limited op = some (.goes d)) :
    Accounts cfg (s.moved cfg way op d now) := by
  have hmoves := moves_of_next hnext
  obtain ⟨hcopies, hreads, hwritten⟩ := hmoves.copies (h.copies way)
  obtain ⟨hended, hcalls⟩ := @ended_moved cfg s way op d now
  have hside := @side_moved cfg s way op d now
  refine ⟨?_, ?_, ?_, ?_, ?_, ?_⟩
  · intro other
    rw [hside]
    by_cases hsame : other = way
    · subst hsame
      rw [Function.update_self]
      exact hcopies
    · rw [Function.update_of_ne hsame]
      exact h.copies other
  · rw [hside]
    show (s.client.observe (s.side way) way op).upload = _
    cases way with
    | aToB =>
        rw [observe_aToB, Function.update_self, hreads, List.length_append, ← h.up]
    | bToA =>
        rw [observe_bToA _ hmoves, Function.update_of_ne (by decide)]
        exact h.up
  · rw [hside]
    show (s.client.observe (s.side way) way op).download = _
    cases way with
    | aToB =>
        rw [observe_aToB, Function.update_of_ne (by decide)]
        exact h.down
    | bToA =>
        rw [observe_bToA _ hmoves, Function.update_self, hwritten, List.length_append, ← h.down]
  · intro _
    rw [hcalls]
    exact h.running hrunning
  · intro hnot
    exact absurd (hended.trans hrunning) hnot
  · intro up down hok
    rw [hended, hrunning] at hok
    cases hok

theorem Accounts.join (h : Accounts cfg s) (hrunning : s.ended = none) :
    Accounts cfg (s.join cfg) := by
  rw [Relay.join]
  split
  · rename_i hdone
    apply h.finish hrunning
    intro up down hok
    obtain ⟨rfl, rfl⟩ := Ended.ok.inj hok
    refine ⟨?_, rfl, rfl⟩
    intro way
    cases way with
    | aToB => exact hdone.1
    | bToA => exact hdone.2
  · exact h

theorem Accounts.step (h : Accounts cfg s) (hstep : step cfg s e = some s') : Accounts cfg s' := by
  obtain ⟨hrunning, ⟨ended, rfl, hnot, -⟩ | ⟨deadline, rfl⟩ | ⟨way, op, now, d, hnext, rfl⟩⟩ :=
    step_cases hstep
  · exact h.finish hrunning ended fun up down hok => absurd hok (hnot up down)
  · exact ⟨h.copies, h.up, h.down, h.running, h.billed, h.joined⟩
  · apply (h.moved now hrunning hnext).join
    rw [(ended_moved way op _ now).1]
    exact hrunning

theorem accounts_start (cfg : Config) (now : Nat) : Accounts cfg (start cfg now) :=
  ⟨fun _ => Direction.copies_new, rfl, rfl, fun _ => rfl, fun hnot => absurd rfl hnot, nofun⟩

theorem accounts_of_run {now : Nat} {es : List Event}
    (hrun : Run.exec (step cfg) (start cfg now) es = some s) : Accounts cfg s :=
  Run.exec_preserves (fun h hstep => Accounts.step h hstep) hrun (accounts_start cfg now)

/-- What is written is a beginning of what was read. -/
theorem Accounts.written_of_reads (h : Accounts cfg s) (way : Way) :
    (s.side way).written <+: (s.side way).reads :=
  ⟨_, (h.copies way).bytes.symm⟩

/-! ### Neither direction cuts the other -/

/-- What a loop does alone, as long as it does not fail. -/
def alone (limited : Bool) (d : Direction) (op : Op) : Option Direction :=
  match d.next limited op with
  | some (.goes d') => some d'
  | _ => none

/-- A loop at its end does nothing more. -/
theorem alone_done {d : Direction} (h : d.phase = .done) (limited : Bool) (op : Op) :
    alone limited d op = none := by
  rw [alone]
  unfold Direction.next
  cases op <;> simp only [h]

/-- Either the task goes on, and so does a loop, or it has ended because both loops
have. -/
structure Live (s : Relay) : Prop where
  running : s.ended = none → ∃ way, (s.side way).phase ≠ .done
  ended : s.ended ≠ none → ∀ way, (s.side way).phase = .done

theorem Live.join (h : s.ended = none) : Live (s.join cfg) := by
  rw [Relay.join]
  split
  · rename_i hdone
    refine ⟨nofun, ?_⟩
    intro _ way
    cases way with
    | aToB => exact hdone.1
    | bToA => exact hdone.2
  · rename_i hdone
    refine ⟨?_, fun hnot => absurd h hnot⟩
    intro _
    rcases not_and_or.mp hdone with hup | hdown
    · exact ⟨.aToB, hup⟩
    · exact ⟨.bToA, hdown⟩

theorem side_join (s : Relay) : (s.join cfg).side = s.side := by
  rw [Relay.join]
  split <;> rfl

/-- **A loop is not stopped by the other**: what it does alone, the task does, and the
other loop stands where it stood. -/
theorem step_alone (h : Live s) {way : Way} {op : Op} {sides : Way → Direction}
    (halone : Interleave.step (alone cfg.limited) s.side (way, op) = some sides) (now : Nat) :
    ∃ s', step cfg s (.op way op now) = some s' ∧ s'.side = sides ∧ Live s' := by
  obtain ⟨d, hd, rfl⟩ := Option.map_eq_some_iff.mp halone
  have hrunning : s.ended = none := by
    by_contra hended
    have hnone := alone_done (h.ended hended way) cfg.limited op
    rw [hnone] at hd
    cases hd
  have hnext : (s.side way).next cfg.limited op = some (.goes d) := by
    unfold alone at hd
    split at hd
    · rename_i d' hgoes
      rw [Option.some.inj hd] at hgoes
      exact hgoes
    · cases hd
  refine ⟨(s.moved cfg way op d now).join cfg, ?_, ?_, ?_⟩
  · rw [step, hrunning]
    simp only [hnext]
    rfl
  · rw [side_join, side_moved]
  · apply Live.join
    rw [(ended_moved way op _ now).1]
    exact hrunning

theorem run_alone (ops : List (Way × Op × Nat)) (h : Live s) {sides : Way → Direction}
    (halone : Run.exec (Interleave.step (alone cfg.limited)) s.side
      (ops.map fun o => (o.1, o.2.1)) = some sides) :
    ∃ s', Run.exec (step cfg) s (ops.map fun o => .op o.1 o.2.1 o.2.2) = some s' ∧
      s'.side = sides ∧ Live s' := by
  induction ops generalizing s with
  | nil => exact ⟨s, rfl, Option.some.inj halone, h⟩
  | cons o ops ih =>
      obtain ⟨way, op, now⟩ := o
      obtain ⟨between, hfirst, hrest⟩ := Run.exec_cons_eq_some.mp halone
      obtain ⟨t, hstep, rfl, hlive⟩ := step_alone h hfirst now
      obtain ⟨s', hrun, hside, hlive'⟩ := ih hlive hrest
      exact ⟨s', Run.exec_cons_eq_some.mpr ⟨t, hstep, hrun⟩, hside, hlive'⟩

theorem live_start (cfg : Config) (now : Nat) : Live (start cfg now) :=
  ⟨fun _ => ⟨.aToB, nofun⟩, fun hnot => absurd rfl hnot⟩

/-- As long as nothing breaks, only the ends of both loops end the task. -/
theorem Live.step (h : Live s) (hcalm : ¬ e.Breaks) (hstep : step cfg s e = some s') : Live s' := by
  obtain ⟨hrunning, ⟨ended, rfl, -, hbreaks⟩ | ⟨deadline, rfl⟩ | ⟨way, op, now, d, -, rfl⟩⟩ :=
    step_cases hstep
  · exact absurd hbreaks hcalm
  · exact ⟨h.running, h.ended⟩
  · apply Live.join
    rw [(ended_moved way op _ now).1]
    exact hrunning

/-! ### Any bytes are copied -/

/-- A byte is read, written and flushed. -/
def copyByte (limited : Bool) (b : UInt8) : List Op :=
  .read (.ready [b]) :: (if limited then [.throttled] else []) ++ [.write (.some 1), .flush (.ready ())]

/-- A loop that has copied `bytes`, each on its own. -/
def copied (bytes : List UInt8) : Direction := ⟨.reading, bytes.length, bytes, bytes, false⟩

theorem exec_copyByte (limited : Bool) (bytes : List UInt8) (b : UInt8) :
    Run.exec (alone limited) (copied bytes) (copyByte limited b) = some (copied (bytes ++ [b])) := by
  have hend : some (Direction.mk .reading (bytes.length + 1) (bytes ++ [b]) (bytes ++ [b]) false) =
      some (copied (bytes ++ [b])) := by
    rw [copied, List.length_append]
    rfl
  cases limited with
  | true => exact hend
  | false => exact hend

theorem exec_copyBytes (limited : Bool) (before bytes : List UInt8) :
    Run.exec (alone limited) (copied before) (bytes.flatMap (copyByte limited)) =
      some (copied (before ++ bytes)) := by
  induction bytes generalizing before with
  | nil =>
      rw [List.append_nil]
      rfl
  | cons b bytes ih =>
      rw [List.flatMap_cons, Run.exec_append, exec_copyByte, Option.bind_some, ih, List.append_assoc]
      rfl

/-- **There is a run that copies them.** -/
theorem exists_run_copying (cfg : Config) (now : Nat) (bytes : List UInt8) :
    ∃ es s, Run.exec (step cfg) (start cfg now) es = some s ∧ (s.side .aToB).reads = bytes ∧
      (s.side .aToB).written = bytes := by
  let sides : Way → Direction := Function.update (start cfg now).side .aToB (copied bytes)
  let own := bytes.flatMap (copyByte cfg.limited)
  let ops : List (Way × Op × Nat) := own.map fun op => (.aToB, op, now)
  have hops : (ops.map fun o => (o.1, o.2.1)) = own.map (Prod.mk .aToB) := List.map_map
  have hall : ∀ way, Run.exec (alone cfg.limited) ((start cfg now).side way)
      (Interleave.eventsOf way (ops.map fun o => (o.1, o.2.1))) = some (sides way) := by
    intro way
    rw [hops]
    cases way with
    | aToB =>
        rw [Interleave.eventsOf_map_self]
        exact exec_copyBytes cfg.limited [] bytes
    | bToA =>
        rw [Interleave.eventsOf_map_of_ne (by decide)]
        rfl
  obtain ⟨s, hrun, hside, -⟩ := run_alone ops (live_start cfg now) ((Interleave.exec_iff _ _ _).mpr hall)
  refine ⟨_, s, hrun, ?_, ?_⟩
  · rw [hside]
    rfl
  · rw [hside]
    rfl

/-! ### Every run -/

/-- **The relay copies faithfully and bills exactly.**  In every run, however the loops
alternate and wherever it stops: what is written is a beginning of what was read, in
both directions; a task that ends well has copied all of it and shut down both
writers; the traffic is reported when the task ends, and not before, once, if there
was any.  As long as nothing breaks, the task ends only with both loops; and whatever
the two loops do each alone, they do together, in every order of their steps. -/
theorem relay_copies_and_bills (cfg : Config) (now : Nat) (es : List Event) (s : Relay)
    (hrun : Run.exec (step cfg) (start cfg now) es = some s) :
    (∀ way, (s.side way).written <+: (s.side way).reads) ∧
      (∀ up down, s.ended = some (.ok up down) →
        (∀ way, (s.side way).written = (s.side way).reads ∧ (s.side way).shut = true) ∧
          up = (s.side .aToB).reads.length ∧ down = (s.side .bToA).reads.length) ∧
      (s.ended = none → s.calls = []) ∧
      (s.ended ≠ none → s.calls = report cfg (s.side .aToB).reads (s.side .bToA).written ∧
        ∀ e, step cfg s e = none) ∧
      ((∀ e ∈ es, ¬ e.Breaks) → s.ended ≠ none → ∀ way, (s.side way).phase = .done) ∧
      ∀ (ops : List (Way × Op × Nat)) (sides : Way → Direction),
        (∀ way, Run.exec (alone cfg.limited) .new
          (Interleave.eventsOf way (ops.map fun o => (o.1, o.2.1))) = some (sides way)) →
        ∃ t, Run.exec (step cfg) (start cfg now) (ops.map fun o => .op o.1 o.2.1 o.2.2) = some t ∧
          t.side = sides ∧ (t.ended ≠ none → ∀ way, (sides way).phase = .done) := by
  have haccounts := accounts_of_run hrun
  refine ⟨haccounts.written_of_reads, ?_, haccounts.running, ?_, ?_, ?_⟩
  · intro up down hok
    obtain ⟨hdone, rfl, rfl⟩ := haccounts.joined up down hok
    refine ⟨?_, ?_, ?_⟩
    · intro way
      have hbytes := (haccounts.copies way).bytes
      rw [hdone way] at hbytes
      exact ⟨(hbytes.trans (List.append_nil _)).symm, (haccounts.copies way).shut.mpr (hdone way)⟩
    · have hcount := (haccounts.copies .aToB).count
      rw [hdone .aToB] at hcount
      exact hcount.symm
    · have hcount := (haccounts.copies .bToA).count
      rw [hdone .bToA] at hcount
      exact hcount.symm
  · intro hended
    refine ⟨haccounts.billed hended, ?_⟩
    intro e
    obtain ⟨ended, hsome⟩ := Option.ne_none_iff_exists'.mp hended
    rw [step.eq_def, hsome]
  · intro hcalm
    exact (Run.exec_invariant (fun h hnot hstep => Live.step h hnot hstep) hrun
      (Run.along_of_mem hcalm _) (live_start cfg now)).ended
  · intro ops sides hsides
    obtain ⟨t, hrun', rfl, hlive⟩ :=
      run_alone ops (live_start cfg now) ((Interleave.exec_iff _ _ _).mpr hsides)
    exact ⟨t, hrun', rfl, hlive.ended⟩

/-- The client sends two bytes and ends, and gets an answer of one. -/
def exchange : List Event :=
  [.op .aToB (.read (.ready [1, 2])) 1, .op .aToB .throttled 2, .op .bToA (.read .pending) 2,
    .op .aToB (.write (.some 1)) 3, .op .aToB (.write (.some 9)) 3, .op .aToB (.flush (.ready ())) 3,
    .op .aToB (.read (.ready [])) 4, .op .aToB (.shutdown (.ready ())) 4, .changed .bToA,
    .op .bToA (.read (.ready [7])) 40, .op .bToA .throttled 41, .op .bToA (.write (.some 1)) 42,
    .op .bToA (.flush (.ready ())) 42, .op .bToA (.read (.ready [])) 43,
    .op .bToA (.shutdown (.ready ())) 43]

theorem exchange_reported :
    ∃ s, Run.exec (step ⟨5, true, 60⟩) (start ⟨5, true, 60⟩ 0) exchange = some s ∧
      s.calls = [(5, 2, 1)] ∧ (s.side .aToB).written = [1, 2] := by
  obtain ⟨-, hok, -, hended, -⟩ :=
    relay_copies_and_bills ⟨5, true, 60⟩ 0 exchange _ rfl
  exact ⟨_, rfl, (hended (by decide)).1, ((hok 2 1 rfl).1 .aToB).1⟩

end Relay

end Conn

end Elise
