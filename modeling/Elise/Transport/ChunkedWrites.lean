/-
Elise/Transport/ChunkedWrites.lean

Whether the writing calls of the chunked coding return (`poll_write`, `poll_flush` and
`poll_shutdown` in src/transport/xhttp.rs).

A call is given the answers of the inner stream without end; its loops go on as long as
something is left in the buffer, so they take fuel.  A call that returns does what it does
with the list of the answers it has asked for (`writeOut_of_pour`).  It returns exactly where
the inner stream does not stall within one of its loops: a stream that takes nothing for ever
is asked for ever (`writes_return_iff`).
-/
import Elise.Transport.XHttp

namespace Elise

namespace Transport

open Poll

namespace XHttpChunkedStream

/-! ### Calls -/

section

variable (answers : Nat → Wrote) (fuel : Nat)

/-- What waits is written first, then the chunk.  A chunk that has to wait is accepted. -/
def pollWriteOver (s : XHttpChunkedStream) (data : List UInt8) : Option (Polled Nat) :=
  match pour answers fuel 0 s.writeBuf with
  | none => none
  | some flushed =>
      let s := { s with writeBuf := flushed.left }
      match flushed.verdict with
      | .pending => some ⟨s, flushed.written, .pending⟩
      | .failed | .ended => some ⟨s, flushed.written, .error⟩
      | .done =>
          if data.isEmpty then some ⟨s, flushed.written, .ready 0⟩
          else
            let data := data.take 65536
            match pour answers fuel flushed.asked (s.writeBuf ++ chunk data) with
            | none => none
            | some sent =>
                let s := { s with writeBuf := sent.left }
                let written := flushed.written ++ sent.written
                match sent.verdict with
                | .done | .pending => some ⟨s, written, .ready data.length⟩
                | .failed | .ended => some ⟨s, written, .error⟩

def pollFlushOver (s : XHttpChunkedStream) (inner : Result Unit) : Option (Polled Unit) :=
  (pour answers fuel 0 s.writeBuf).map fun flushed =>
    let s := { s with writeBuf := flushed.left }
    match flushed.verdict with
    | .pending => ⟨s, flushed.written, .pending⟩
    | .failed | .ended => ⟨s, flushed.written, .error⟩
    | .done => ⟨s, flushed.written, inner⟩

def pollShutdownOver (s : XHttpChunkedStream) (inner : Result Unit) : Option (Polled Unit) :=
  let s :=
    if !s.hasSentEof then { s with hasSentEof := true, writeBuf := s.writeBuf ++ lastChunk } else s
  s.pollFlushOver answers fuel inner

end

/-! ### The answers that are asked for -/

variable {answers : Nat → Wrote} {fuel k : Nat} {s : XHttpChunkedStream} {data buf : List UInt8}

/-- **The loop over the answers that are asked for**, whatever comes behind them. -/
theorem writeOut_of_pour {out : Poured UInt8} (h : pour answers fuel k buf = some out) :
    k ≤ out.asked ∧ ∀ later,
      writeOut ((List.range' k (out.asked - k)).map answers ++ later) buf =
        ⟨later, out.written, out.left, out.verdict⟩ := by
  induction fuel generalizing k buf out with
  | zero =>
      cases buf with
      | nil =>
          obtain rfl := Option.some.inj h
          refine ⟨Nat.le_refl k, fun later => ?_⟩
          rw [Nat.sub_self]
          cases later <;> rfl
      | cons b buf => cases h
  | succ fuel ih =>
      by_cases hne : buf = []
      · subst hne
        rw [pour_nil] at h
        obtain rfl := Option.some.inj h
        refine ⟨Nat.le_refl k, fun later => ?_⟩
        rw [Nat.sub_self]
        cases later <;> rfl
      · obtain ⟨b, buf, rfl⟩ := List.exists_cons_of_ne_nil hne
        have hone : k + 1 - k = 1 := by omega
        cases hanswer : answers k with
        | pending =>
            rw [pour_pending hne hanswer] at h
            obtain rfl := Option.some.inj h
            refine ⟨Nat.le_succ k, fun later => ?_⟩
            rw [hone, List.range'_one, List.map_singleton, hanswer]
            rfl
        | error =>
            rw [pour_error hne hanswer] at h
            obtain rfl := Option.some.inj h
            refine ⟨Nat.le_succ k, fun later => ?_⟩
            rw [hone, List.range'_one, List.map_singleton, hanswer]
            rfl
        | some n =>
            rw [pour_taken hne hanswer] at h
            obtain ⟨rest, hrest, rfl⟩ := Option.map_eq_some_iff.mp h
            obtain ⟨hle, hsame⟩ := ih hrest
            dsimp only
            refine ⟨by omega, fun later => ?_⟩
            rw [show rest.asked - k = rest.asked - (k + 1) + 1 by omega, List.range'_succ, List.map_cons,
              hanswer, List.cons_append, writeOut, hsame later]
            · exact List.cons_ne_nil b buf

/-- **A call that returns does what it does with the answers it asks for.** -/
theorem pollFlush_of_returns {inner : Result Unit} {out : Polled Unit}
    (h : s.pollFlushOver answers fuel inner = some out) :
    ∃ asked, ∀ later, s.pollFlush ((List.range' 0 asked).map answers ++ later) inner = out := by
  obtain ⟨flushed, hpour, rfl⟩ := Option.map_eq_some_iff.mp h
  refine ⟨flushed.asked - 0, fun later => ?_⟩
  have hsame := (writeOut_of_pour hpour).2 later
  cases hverdict : flushed.verdict <;> simp only [pollFlush, hsame, hverdict]

theorem pollWrite_of_returns {out : Polled Nat} (h : s.pollWriteOver answers fuel data = some out) :
    ∃ asked, ∀ later, s.pollWrite data ((List.range' 0 asked).map answers ++ later) = out := by
  rw [pollWriteOver] at h
  cases hflush : pour answers fuel 0 s.writeBuf with
  | none =>
      rw [hflush] at h
      cases h
  | some flushed =>
      obtain ⟨hle, hfirst⟩ := writeOut_of_pour hflush
      rw [Nat.sub_zero] at hfirst
      rw [hflush] at h
      dsimp only at h
      by_cases hloop : flushed.verdict = .done ∧ ¬ data.isEmpty = true
      · obtain ⟨hdone, hne⟩ := hloop
        rw [hdone] at h
        dsimp only at h
        rw [if_neg hne] at h
        cases hsend : pour answers fuel flushed.asked (flushed.left ++ chunk (data.take 65536)) with
        | none =>
            rw [hsend] at h
            cases h
        | some sent =>
            obtain ⟨hle', hsecond⟩ := writeOut_of_pour hsend
            rw [hsend] at h
            have hrange : List.range' 0 sent.asked =
                List.range' 0 flushed.asked ++ List.range' flushed.asked (sent.asked - flushed.asked) := by
              have happend := @List.range'_append_1 0 flushed.asked (sent.asked - flushed.asked)
              rw [Nat.zero_add, Nat.add_sub_cancel' hle'] at happend
              exact happend.symm
            refine ⟨sent.asked, fun later => ?_⟩
            rw [pollWrite, hrange, List.map_append, List.append_assoc, hfirst]
            dsimp only
            rw [hdone]
            dsimp only
            rw [if_neg hne, hsecond]
            dsimp only at h ⊢
            cases hverdict : sent.verdict with
            | done =>
                rw [hverdict] at h
                exact Option.some.inj h
            | pending =>
                rw [hverdict] at h
                exact Option.some.inj h
            | failed =>
                rw [hverdict] at h
                exact Option.some.inj h
            | ended =>
                rw [hverdict] at h
                exact Option.some.inj h
      · refine ⟨flushed.asked, fun later => ?_⟩
        rw [pollWrite, hfirst]
        cases hverdict : flushed.verdict with
        | done =>
            have hempty : data.isEmpty = true := by
              by_contra hne
              exact hloop ⟨hverdict, hne⟩
            rw [hverdict] at h
            dsimp only at h ⊢
            rw [if_pos hempty] at h ⊢
            exact Option.some.inj h
        | pending =>
            rw [hverdict] at h
            exact Option.some.inj h
        | failed =>
            rw [hverdict] at h
            exact Option.some.inj h
        | ended =>
            rw [hverdict] at h
            exact Option.some.inj h

/-! ### When they return -/

/-- Within a loop of the call the inner stream takes nothing for ever. -/
def WriteStalls (answers : Nat → Wrote) (s : XHttpChunkedStream) (data : List UInt8) : Prop :=
  Stalls answers 0 s.writeBuf.length ∨
    data ≠ [] ∧ ∃ count, Takes answers 0 s.writeBuf.length count ∧
      Stalls answers count (chunk (data.take 65536)).length

/-- **When `poll_write` returns.** -/
theorem returns_pollWrite_iff :
    (∃ fuel out, s.pollWriteOver answers fuel data = some out) ↔ ¬ WriteStalls answers s data := by
  constructor
  · rintro ⟨fuel, out, hout⟩ hstalls
    rw [pollWriteOver] at hout
    rcases hstalls with hfirst | ⟨hne, count, htakes, hsecond⟩
    · rw [pour_of_stalls hfirst] at hout
      cases hout
    · obtain ⟨fuel', done, hdone, hverdict, hasked⟩ := pour_of_takes htakes
      cases hflush : pour answers fuel 0 s.writeBuf with
      | none =>
          rw [hflush] at hout
          cases hout
      | some flushed =>
          obtain rfl : flushed = done := Option.some.inj
            ((pour_mono (Nat.le_max_left fuel fuel') hflush).symm.trans
              (pour_mono (Nat.le_max_right fuel fuel') hdone))
          obtain ⟨-, -, -, hleft⟩ := takes_of_pour hflush hverdict
          rw [hflush] at hout
          dsimp only at hout
          rw [hverdict, hleft, hasked, Nat.zero_add, List.nil_append] at hout
          dsimp only at hout
          rw [if_neg (by simpa using hne), pour_of_stalls hsecond] at hout
          cases hout
  · intro hnot
    rw [WriteStalls, not_or] at hnot
    obtain ⟨hfirst, hsecond⟩ := hnot
    obtain ⟨fuel, flushed, hflush⟩ := returns_pour_iff.mpr hfirst
    by_cases hloop : flushed.verdict = .done ∧ data ≠ []
    · obtain ⟨hdone, hne⟩ := hloop
      obtain ⟨count, htakes, hasked, hleft⟩ := takes_of_pour hflush hdone
      rw [Nat.zero_add] at hasked
      obtain ⟨fuel', sent, hsent⟩ := returns_pour_iff.mpr
        fun hstalls => hsecond ⟨hne, count, htakes, hstalls⟩
      refine ⟨max fuel fuel', ?_⟩
      rw [pollWriteOver, pour_mono (Nat.le_max_left fuel fuel') hflush]
      dsimp only
      rw [hdone, hasked, hleft]
      dsimp only
      rw [if_neg (by simpa using hne), List.nil_append,
        pour_mono (Nat.le_max_right fuel fuel') hsent]
      dsimp only
      cases sent.verdict <;> exact ⟨_, rfl⟩
    · refine ⟨fuel, ?_⟩
      rw [pollWriteOver, hflush]
      dsimp only
      cases hverdict : flushed.verdict with
      | done =>
          have hnil : data = [] := by
            by_contra hne
            exact hloop ⟨hverdict, hne⟩
          subst hnil
          exact ⟨_, rfl⟩
      | pending => exact ⟨_, rfl⟩
      | failed => exact ⟨_, rfl⟩
      | ended => exact ⟨_, rfl⟩

theorem returns_pollFlush_iff {inner : Result Unit} :
    (∃ fuel out, s.pollFlushOver answers fuel inner = some out) ↔
      ¬ Stalls answers 0 s.writeBuf.length := by
  rw [← returns_pour_iff]
  refine exists_congr fun fuel => ?_
  rw [pollFlushOver]
  constructor
  · rintro ⟨out, hout⟩
    obtain ⟨flushed, hflush, -⟩ := Option.map_eq_some_iff.mp hout
    exact ⟨flushed, hflush⟩
  · rintro ⟨flushed, hflush⟩
    rw [hflush]
    exact ⟨_, rfl⟩

/-- **When the chunked writes return**: where the inner stream does not take nothing for ever
within one of their loops.  They then do what they do with the answers they ask for. -/
theorem writes_return_iff (s : XHttpChunkedStream) (data : List UInt8) (answers : Nat → Wrote)
    (inner : Result Unit) :
    ((∃ fuel out, s.pollWriteOver answers fuel data = some out) ↔
        ¬ (Stalls answers 0 s.writeBuf.length ∨
          data ≠ [] ∧ ∃ count, Takes answers 0 s.writeBuf.length count ∧
            Stalls answers count (chunk (data.take 65536)).length)) ∧
      ((∃ fuel out, s.pollFlushOver answers fuel inner = some out) ↔
        ¬ Stalls answers 0 s.writeBuf.length) ∧
      ((∃ fuel out, s.pollShutdownOver answers fuel inner = some out) ↔
        ¬ Stalls answers 0 (s.writeBuf.length + if s.hasSentEof then 0 else 5)) := by
  refine ⟨returns_pollWrite_iff, returns_pollFlush_iff, ?_⟩
  cases heof : s.hasSentEof with
  | true =>
      have hsame : ∀ fuel, s.pollShutdownOver answers fuel inner = s.pollFlushOver answers fuel inner := by
        intro fuel
        rw [pollShutdownOver, heof]
        rfl
      simp only [hsame]
      exact returns_pollFlush_iff
  | false =>
      have hsame : ∀ fuel, s.pollShutdownOver answers fuel inner =
          { s with hasSentEof := true, writeBuf := s.writeBuf ++ lastChunk }.pollFlushOver answers
            fuel inner := by
        intro fuel
        rw [pollShutdownOver, heof]
        rfl
      simp only [hsame]
      rw [returns_pollFlush_iff]
      dsimp only
      rw [List.length_append]
      rfl

/-- One byte waits, and the inner stream never takes it. -/
theorem flush_never_returns :
    ¬ ∃ fuel out, pollFlushOver (fun _ => .some 0) fuel ⟨.readingLength, [], [65], false⟩ (.ready ()) =
      some out := by
  rw [returns_pollFlush_iff, not_not]
  intro count
  refine ⟨⟨0, rfl⟩, ?_⟩
  have hzero : ∀ count k, total (fun _ => .some 0) k count = 0 := by
    intro count
    induction count with
    | zero => exact fun _ => rfl
    | succ count ih =>
        intro k
        rw [total, ih]
  rw [hzero]
  exact Nat.one_pos

end XHttpChunkedStream

end Transport

end Elise
