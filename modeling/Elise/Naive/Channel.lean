/-
Elise/Naive/Channel.lean

The padded stream of Naive (`NaivePaddedStream` in src/protocol/naive/padding.rs) as a channel.

The first eight chunks in each direction are framed: their length, the length of the padding,
the chunk and the padding.  Everything behind them is raw.  Reader and writer are polled; the
environment chooses how the inner stream answers and the lengths of the paddings.

What is on its way is a beginning of the encoding of the chunks so far (`Encodes`).  The other
end serves these bytes, whatever the segments, and comes to the end behind them, or to an error
where a frame was cut off.
-/
import Elise.Lib.Net
import Elise.Lib.Poll
import Elise.Lib.Serving
import Elise.Lib.Wire

namespace Elise

namespace Naive

open Net Poll

def kFirstPaddings : Nat := 8

structure NaivePaddedStream where
  readsPaddedLeft : Nat
  writesPaddedLeft : Nat
  readBuf : List UInt8
  writeBuf : List UInt8
  pendingData : List UInt8
  deriving DecidableEq, Repr

/-- A chunk with its padding. -/
def frame (chunk : List UInt8) (padLen : UInt8) : List UInt8 :=
  toBeBytes 2 chunk.length ++ padLen :: (chunk ++ List.replicate padLen.toNat 0)

namespace NaivePaddedStream

def new (paddingEnabled : Bool) : NaivePaddedStream :=
  let count := if paddingEnabled then kFirstPaddings else 0
  ⟨count, count, [], [], []⟩

/-! ### Reading -/

/-- A frame at the beginning of `read_buf`, if it is complete. -/
def takeFrame (s : NaivePaddedStream) : Option (List UInt8 × NaivePaddedStream) :=
  if s.readBuf.length < 3 then none
  else
    let origSize := (u16At s.readBuf 0).toNat
    let padSize := (byteAt s.readBuf 2).toNat
    let totalFrameLen := 3 + origSize + padSize
    if s.readBuf.length < totalFrameLen then none
    else
      some ((s.readBuf.drop 3).take origSize,
        { s with readBuf := s.readBuf.drop totalFrameLen, readsPaddedLeft := s.readsPaddedLeft - 1 })

/-- The loop of `poll_read`.  Every round but the last takes a frame without a
chunk, or some bytes of the inner stream. -/
def readLoop : (fuel : Nat) → NaivePaddedStream → Arrivals UInt8 → (cap : Nat) →
    Result (List UInt8) × NaivePaddedStream × Arrivals UInt8
  | 0, s, a, _ => (.pending, s, a)
  | fuel + 1, s, a, cap =>
      if !s.pendingData.isEmpty then
        (.ready (s.pendingData.take cap), { s with pendingData := s.pendingData.drop cap }, a)
      else if s.readsPaddedLeft = 0 then
        if !s.readBuf.isEmpty then
          (.ready (s.readBuf.take cap), { s with readBuf := s.readBuf.drop cap }, a)
        else
          let (result, a) := a.poll cap
          (result, s, a)
      else
        match s.takeFrame with
        | some (payload, s) =>
            if !payload.isEmpty then
              (.ready (payload.take cap),
                { s with pendingData := s.pendingData ++ payload.drop cap }, a)
            else readLoop fuel s a cap
        | none =>
            match a.poll 8192 with
            | (.pending, a) => (.pending, s, a)
            | (.error, a) => (.error, s, a)
            | (.ready bytes, a) =>
                if bytes.isEmpty then (if s.readBuf.isEmpty then .ready [] else .error, s, a)
                else readLoop fuel { s with readBuf := s.readBuf ++ bytes } a cap

/-- `poll_read` with room for `cap` bytes. -/
def pollRead (r : NaivePaddedStream × Arrivals UInt8) (cap : Nat) :
    Result (List UInt8) × NaivePaddedStream × Arrivals UInt8 :=
  if cap = 0 then (.ready [], r)
  else readLoop (r.1.readsPaddedLeft + r.2.items.length + 1) r.1 r.2 cap

/-! ### Writing -/

/-- What the inner stream is given, and the answer to the caller. -/
structure Polled (β : Type) where
  stream : NaivePaddedStream
  written : List UInt8
  result : Result β

/-- Raw bytes go to the inner stream as they are. -/
def passOn (s : NaivePaddedStream) (data : List UInt8) : List Wrote → Polled Nat
  | .some n :: _ => ⟨s, data.take n, .ready (data.take n).length⟩
  | .error :: _ => ⟨s, [], .error⟩
  | _ => ⟨s, [], .pending⟩

def pollWrite (s : NaivePaddedStream) (data : List UInt8) (padLen : UInt8)
    (answers : List Wrote) : Polled Nat :=
  if data.isEmpty then ⟨s, [], .ready 0⟩
  else
    let flushed := drain answers s.writeBuf
    let s := { s with writeBuf := flushed.left }
    match flushed.verdict with
    | .pending => ⟨s, flushed.written, .pending⟩
    | .failed | .ended => ⟨s, flushed.written, .error⟩
    | .done =>
        if s.writesPaddedLeft = 0 then
          let passed := s.passOn data flushed.answers
          { passed with written := flushed.written ++ passed.written }
        else
          let chunk := data.take 65535
          let sent := drain flushed.answers (s.writeBuf ++ frame chunk padLen)
          let s := { s with writeBuf := sent.left, writesPaddedLeft := s.writesPaddedLeft - 1 }
          let written := flushed.written ++ sent.written
          match sent.verdict with
          | .done | .pending => ⟨s, written, .ready chunk.length⟩
          | .failed | .ended => ⟨s, written, .error⟩

/-- `poll_flush` and `poll_shutdown` write what waits, and then ask the inner
stream. -/
def pollFlush (s : NaivePaddedStream) (answers : List Wrote) (inner : Result Unit) : Polled Unit :=
  let flushed := drain answers s.writeBuf
  let s := { s with writeBuf := flushed.left }
  match flushed.verdict with
  | .pending => ⟨s, flushed.written, .pending⟩
  | .failed | .ended => ⟨s, flushed.written, .error⟩
  | .done => ⟨s, flushed.written, inner⟩

def pollShutdown (s : NaivePaddedStream) (answers : List Wrote) (inner : Result Unit) :
    Polled Unit :=
  s.pollFlush answers inner

end NaivePaddedStream

open Serving

/-! ### The encoding -/

/-- Some chunks, each with its padding. -/
def frames (fs : List (List UInt8 × UInt8)) : List UInt8 := (fs.map fun f => frame f.1 f.2).flatten

/-- What the frames hold. -/
def textOf (fs : List (List UInt8 × UInt8)) : List UInt8 := (fs.map Prod.fst).flatten

/-- A chunk that a frame can hold. -/
def Chunk (chunk : List UInt8) : Prop := chunk ≠ [] ∧ chunk.length ≤ 65535

/-- The first `count` chunks are framed, and the others are raw. -/
structure Encodes (count : Nat) (chunks : List (List UInt8)) (fs : List (List UInt8 × UInt8))
    (later : List (List UInt8)) : Prop where
  chunks : chunks = fs.map Prod.fst ++ later
  sized : ∀ f ∈ fs, Chunk f.1
  framed : fs.length ≤ count
  later : later ≠ [] → fs.length = count

theorem length_frame (chunk : List UInt8) (padLen : UInt8) :
    (frame chunk padLen).length = 3 + chunk.length + padLen.toNat := by
  simp only [frame, List.length_append, List.length_cons, length_toBeBytes, List.length_replicate]
  omega

/-- Behind the lengths is the chunk. -/
theorem drop_frame (chunk : List UInt8) (padLen : UInt8) (others : List UInt8) :
    (frame chunk padLen ++ others).drop 3 = chunk ++ (List.replicate padLen.toNat 0 ++ others) := by
  have hhead : (toBeBytes 2 chunk.length ++ [padLen]).length = 3 := by
    rw [List.length_append, length_toBeBytes]
    rfl
  have hsplit : frame chunk padLen ++ others = (toBeBytes 2 chunk.length ++ [padLen]) ++
      (chunk ++ (List.replicate padLen.toNat 0 ++ others)) := by
    simp [frame]
  rw [hsplit, List.drop_left' hhead]

theorem frames_concat (fs : List (List UInt8 × UInt8)) (f : List UInt8 × UInt8) :
    frames (fs ++ [f]) = frames fs ++ frame f.1 f.2 := by
  simp [frames]

section

variable {count : Nat} {chunks later : List (List UInt8)} {fs : List (List UInt8 × UInt8)}

/-- A chunk is framed, as long as chunks are. -/
theorem Encodes.frame (h : Encodes count chunks fs later) (hleft : fs.length < count)
    {chunk : List UInt8} (hchunk : Chunk chunk) (padLen : UInt8) :
    later = [] ∧ Encodes count (chunks ++ [chunk]) (fs ++ [(chunk, padLen)]) [] := by
  have hlater : later = [] := by
    by_contra hne
    have := h.later hne
    omega
  refine ⟨hlater, ?_, ?_, ?_, fun hne => absurd rfl hne⟩
  · rw [h.chunks, hlater]
    simp
  · intro f hmem
    rcases List.mem_append.mp hmem with hmem | hmem
    · exact h.sized f hmem
    · rw [List.mem_singleton.mp hmem]
      exact hchunk
  · rw [List.length_append, List.length_singleton]
    omega

/-- Everything behind the frames is raw. -/
theorem Encodes.raw (h : Encodes count chunks fs later) (hleft : fs.length = count)
    (bytes : List UInt8) : Encodes count (chunks ++ [bytes]) fs (later ++ [bytes]) :=
  ⟨by rw [h.chunks, List.append_assoc], h.sized, h.framed, fun _ => hleft⟩

theorem Encodes.flatten (h : Encodes count chunks fs later) :
    chunks.flatten = textOf fs ++ later.flatten := by
  rw [h.chunks, List.flatten_append, textOf]

end

/-! ### Writing -/

/-- What a caller is told to be written. -/
def told (data : List UInt8) : Result Nat → List (List UInt8)
  | .ready (n + 1) => [data.take (n + 1)]
  | _ => []

/-- What is on its way is the encoding of some chunks. -/
structure Sending (count : Nat) (s : NaivePaddedStream) (inner : List UInt8)
    (chunks : List (List UInt8)) (fs : List (List UInt8 × UInt8)) (later : List (List UInt8)) :
    Prop where
  encodes : Encodes count chunks fs later
  left : fs.length + s.writesPaddedLeft = count
  sent : inner ++ s.writeBuf = frames fs ++ later.flatten

/-- After a call, more chunks may be on their way: those that the caller is told of,
unless it failed. -/
def HasSent (count : Nat) (inner : List UInt8) (chunks : List (List UInt8)) (data : List UInt8)
    (polled : NaivePaddedStream.Polled Nat) : Prop :=
  ∃ more fs later, Sending count polled.stream (inner ++ polled.written) (chunks ++ more) fs later ∧
    (polled.result ≠ .error → more = told data polled.result)

section

variable {count : Nat} {s : NaivePaddedStream} {inner : List UInt8}
  {chunks later : List (List UInt8)} {fs : List (List UInt8 × UInt8)}

/-- Some of what waits is written. -/
theorem Sending.drained (h : Sending count s inner chunks fs later) (answers : List Wrote) :
    Sending count { s with writeBuf := (drain answers s.writeBuf).left }
      (inner ++ (drain answers s.writeBuf).written) chunks fs later := by
  refine ⟨h.encodes, h.left, ?_⟩
  rw [List.append_assoc, drain_append]
  exact h.sent

theorem Sending.hasSent_nothing (h : Sending count s inner chunks fs later) {data written : List UInt8}
    {inner' : List UInt8} (hinner : inner' ++ written = inner) {result : Result Nat}
    (htold : result ≠ .error → told data result = []) :
    HasSent count inner' chunks data ⟨s, written, result⟩ := by
  refine ⟨[], fs, later, ?_, fun hok => (htold hok).symm⟩
  show Sending count s (inner' ++ written) (chunks ++ []) fs later
  rw [hinner, List.append_nil]
  exact h

theorem chunk_take {data : List UInt8} (hne : data ≠ []) : Chunk (data.take 65535) := by
  refine ⟨?_, ?_⟩
  · intro hnil
    rcases List.take_eq_nil_iff.mp hnil with hzero | hnil
    · cases hzero
    · exact hne hnil
  · rw [List.length_take]
    exact Nat.min_le_left _ _

/-- What is told of a beginning of the data is that beginning. -/
theorem told_take {data : List UInt8} {n : Nat} (hne : data.take n ≠ []) :
    told data (.ready (data.take n).length) = [data.take n] := by
  have hpos := List.length_pos_iff.mpr hne
  obtain ⟨m, hm⟩ := Nat.exists_eq_add_of_lt hpos
  rw [Nat.zero_add] at hm
  rw [hm, told, ← hm]
  congr 1
  rw [List.length_take, List.take_eq_take_iff]
  omega

/-- Raw bytes are passed on when nothing waits. -/
theorem Sending.passOn (h : Sending count s inner chunks fs later) (hempty : s.writeBuf = [])
    (hleft : s.writesPaddedLeft = 0) (data : List UInt8) (answers : List Wrote) :
    HasSent count inner chunks data (s.passOn data answers) := by
  rw [NaivePaddedStream.passOn.eq_def]
  split
  · rename_i n _
    by_cases hne : data.take n = []
    · rw [hne]
      exact h.hasSent_nothing (List.append_nil _) fun _ => rfl
    · have hframed : fs.length = count := by
        have := h.left
        omega
      have hsent := h.sent
      rw [hempty, List.append_nil] at hsent
      refine ⟨[data.take n], fs, later ++ [data.take n], ⟨h.encodes.raw hframed _, h.left, ?_⟩,
        fun _ => (told_take hne).symm⟩
      show inner ++ data.take n ++ s.writeBuf = _
      rw [hempty, List.append_nil, hsent, List.flatten_append, List.append_assoc,
        List.flatten_singleton]
  · exact h.hasSent_nothing (List.append_nil _) fun hok => absurd rfl hok
  · exact h.hasSent_nothing (List.append_nil _) fun _ => rfl

/-- A chunk is put behind the others when nothing waits. -/
theorem Sending.frame (h : Sending count s inner chunks fs later) (hempty : s.writeBuf = [])
    (hleft : s.writesPaddedLeft ≠ 0) {chunk : List UInt8} (hchunk : Chunk chunk) (padLen : UInt8) :
    Sending count { s with
        writeBuf := s.writeBuf ++ Naive.frame chunk padLen
        writesPaddedLeft := s.writesPaddedLeft - 1 }
      inner (chunks ++ [chunk]) (fs ++ [(chunk, padLen)]) [] := by
  have hcount := h.left
  have hsent := h.sent
  obtain ⟨rfl, hencodes⟩ := h.encodes.frame (by omega) hchunk padLen
  refine ⟨hencodes, ?_, ?_⟩
  · rw [List.length_append, List.length_singleton]
    show fs.length + 1 + (s.writesPaddedLeft - 1) = count
    omega
  · rw [hempty, List.append_nil, List.flatten_nil, List.append_nil] at hsent
    show inner ++ (s.writeBuf ++ Naive.frame chunk padLen) = _
    rw [hempty, List.nil_append, hsent, frames_concat, List.flatten_nil, List.append_nil]

/-- **What a call to write sends.** -/
theorem Sending.write (h : Sending count s inner chunks fs later) (data : List UInt8)
    (padLen : UInt8) (answers : List Wrote) :
    HasSent count inner chunks data (s.pollWrite data padLen answers) := by
  rw [NaivePaddedStream.pollWrite]
  split
  · exact h.hasSent_nothing (List.append_nil _) fun _ => rfl
  rename_i hdata
  have hdata : data ≠ [] := by simpa using hdata
  have hdrained := h.drained answers
  dsimp only
  split
  · exact hdrained.hasSent_nothing rfl fun _ => rfl
  · exact hdrained.hasSent_nothing rfl fun hok => absurd rfl hok
  · exact hdrained.hasSent_nothing rfl fun hok => absurd rfl hok
  · rename_i hdone
    have hempty := left_eq_nil_of_done hdone
    split
    · rename_i hleft
      obtain ⟨more, fs', later', hsending, hmore⟩ :=
        hdrained.passOn hempty hleft data (drain answers s.writeBuf).answers
      refine ⟨more, fs', later', ?_, hmore⟩
      rw [← List.append_assoc]
      exact hsending
    · rename_i hleft
      have hframed := (hdrained.frame hempty hleft (chunk_take hdata) padLen).drained
        (drain answers s.writeBuf).answers
      rw [List.append_assoc] at hframed
      -- from here on the chunk is on its way
      split
      · exact ⟨_, _, _, hframed, fun _ => (told_take (chunk_take hdata).1).symm⟩
      · exact ⟨_, _, _, hframed, fun _ => (told_take (chunk_take hdata).1).symm⟩
      · exact ⟨_, _, _, hframed, fun hok => absurd rfl hok⟩
      · exact ⟨_, _, _, hframed, fun hok => absurd rfl hok⟩

/-- A flush that is ready leaves nothing behind. -/
theorem Sending.flush (h : Sending count s inner chunks fs later) (answers : List Wrote)
    (innerFlush : Result Unit) :
    Sending count (s.pollFlush answers innerFlush).stream
        (inner ++ (s.pollFlush answers innerFlush).written) chunks fs later ∧
      ((s.pollFlush answers innerFlush).result = .ready () →
        (s.pollFlush answers innerFlush).stream.writeBuf = []) := by
  have hdrained := h.drained answers
  rw [NaivePaddedStream.pollFlush]
  split
  · exact ⟨hdrained, nofun⟩
  · exact ⟨hdrained, nofun⟩
  · exact ⟨hdrained, nofun⟩
  · rename_i hdone
    exact ⟨hdrained, fun _ => left_eq_nil_of_done hdone⟩

end

/-! ### Every run of the writing end -/

structure Channel where
  stream : NaivePaddedStream
  /-- What the inner stream was given. -/
  inner : List UInt8
  /-- What was accepted, in the calls that accepted something. -/
  accepted : List (List UInt8)
  failed : Bool

inductive Call where
  | write (data : List UInt8) (padLen : UInt8) (answers : List Wrote)
  | flush (answers : List Wrote) (inner : Result Unit)
  | shutdown (answers : List Wrote) (inner : Result Unit)

/-- The inner stream is not ready, or takes something. -/
def Call.Partial : Call → Prop
  | .write _ _ answers => ∀ answer ∈ answers, answer.Partial
  | .flush answers inner | .shutdown answers inner =>
      (∀ answer ∈ answers, answer.Partial) ∧ inner ≠ .error

namespace Channel

def new (paddingEnabled : Bool) : Channel := ⟨.new paddingEnabled, [], [], false⟩

def isError {β : Type} : Result β → Bool
  | .error => true
  | _ => false

def after {β : Type} (s : Channel) (polled : NaivePaddedStream.Polled β)
    (taken : List (List UInt8)) : Channel :=
  ⟨polled.stream, s.inner ++ polled.written, s.accepted ++ taken, s.failed || isError polled.result⟩

def step (s : Channel) : Call → Option Channel
  | .write data padLen answers =>
      let polled := s.stream.pollWrite data padLen answers
      some (s.after polled (told data polled.result))
  | .flush answers inner => some (s.after (s.stream.pollFlush answers inner) [])
  | .shutdown answers inner => some (s.after (s.stream.pollShutdown answers inner) [])

/-- Some chunks are on their way; as long as no call has failed, those that were
accepted. -/
def Carries (count : Nat) (s : Channel) : Prop :=
  ∃ chunks fs later, Sending count s.stream s.inner chunks fs later ∧
    (s.failed = false → chunks = s.accepted)

variable {count : Nat} {s s' : Channel}

theorem Carries.step (h : Carries count s) {call : Call} (hstep : s.step call = some s') :
    Carries count s' := by
  obtain ⟨chunks, fs, later, hsending, haccepted⟩ := h
  have hflush : ∀ answers inner, Carries count (s.after (s.stream.pollFlush answers inner) []) := by
    intro answers inner
    refine ⟨chunks, fs, later, (hsending.flush answers inner).1, ?_⟩
    intro hok
    show chunks = s.accepted ++ []
    rw [List.append_nil]
    exact haccepted (Bool.or_eq_false_iff.mp hok).1
  cases call with
  | write data padLen answers =>
      obtain rfl := Option.some.inj hstep
      obtain ⟨more, fs', later', hsent, hmore⟩ := hsending.write data padLen answers
      refine ⟨chunks ++ more, fs', later', hsent, ?_⟩
      intro hok
      obtain ⟨hbefore, hnow⟩ := Bool.or_eq_false_iff.mp hok
      rw [haccepted hbefore, hmore (fun herror => by rw [herror] at hnow; cases hnow)]
      rfl
  | flush answers inner =>
      obtain rfl := Option.some.inj hstep
      exact hflush answers inner
  | shutdown answers inner =>
      obtain rfl := Option.some.inj hstep
      exact hflush answers inner

theorem carries_new (paddingEnabled : Bool) :
    Carries (if paddingEnabled then kFirstPaddings else 0) (.new paddingEnabled) :=
  ⟨[], [], [], ⟨⟨rfl, nofun, Nat.zero_le _, fun hne => absurd rfl hne⟩, Nat.zero_add _, rfl⟩,
    fun _ => rfl⟩

/-- Where the inner stream always takes something when it is ready, no call fails. -/
theorem step_taking {call : Call} (hcall : call.Partial) (hok : s.failed = false)
    (hstep : s.step call = some s') : s'.failed = false := by
  have hflush : ∀ answers inner, (∀ answer ∈ answers, Wrote.Partial answer) → inner ≠ .error →
      isError (s.stream.pollFlush answers inner).result = false := by
    intro answers inner hanswers hinner
    rw [NaivePaddedStream.pollFlush]
    rcases (drain_taking hanswers s.stream.writeBuf).1 with hdone | hpending
    · simp only [hdone]
      cases inner with
      | error => exact absurd rfl hinner
      | _ => rfl
    · simp only [hpending]
      rfl
  cases call with
  | write data padLen answers =>
      obtain rfl := Option.some.inj hstep
      refine Bool.or_eq_false_iff.mpr ⟨hok, ?_⟩
      rw [NaivePaddedStream.pollWrite]
      split
      · rfl
      obtain ⟨hverdict, hanswers⟩ := drain_taking hcall s.stream.writeBuf
      rcases hverdict with hdone | hpending
      · simp only [hdone]
        split
        · rw [NaivePaddedStream.passOn.eq_def]
          split
          · rfl
          · rename_i hfirst
            rw [hfirst] at hanswers
            exact (hanswers _ List.mem_cons_self).elim
          · rfl
        · rcases (drain_taking hanswers ((drain answers s.stream.writeBuf).left ++
            frame (data.take 65535) padLen)).1 with hdone' | hpending'
          · simp only [hdone']
            rfl
          · simp only [hpending']
            rfl
      · simp only [hpending]
        rfl
  | flush answers inner =>
      obtain rfl := Option.some.inj hstep
      exact Bool.or_eq_false_iff.mpr ⟨hok, hflush answers inner hcall.1 hcall.2⟩
  | shutdown answers inner =>
      obtain rfl := Option.some.inj hstep
      exact Bool.or_eq_false_iff.mpr ⟨hok, hflush answers inner hcall.1 hcall.2⟩

theorem run_taking {calls : List Call} (hcalls : ∀ call ∈ calls, call.Partial)
    (hok : s.failed = false) (hrun : Run.exec step s calls = some s') : s'.failed = false := by
  induction calls generalizing s with
  | nil =>
      obtain rfl := Option.some.inj hrun
      exact hok
  | cons call calls ih =>
      obtain ⟨t, hstep, hrest⟩ := Run.exec_cons_eq_some.mp hrun
      exact ih (fun other hmem => hcalls other (List.mem_cons_of_mem _ hmem))
        (step_taking (hcalls call List.mem_cons_self) hok hstep) hrest

end Channel

/-! ### Reading -/

/-- What is behind the frames that are whole, with the raw bytes that it stands for:
raw bytes, once no more frames are expected; or the end; or a frame that was cut
off. -/
inductive Tail : (left : Nat) → (tail raw : List UInt8) → Ending → Prop where
  | raw {bytes : List UInt8} : Tail 0 bytes bytes .eof
  | eof {left : Nat} : Tail (left + 1) [] [] .eof
  | torn {left : Nat} {tail more chunk : List UInt8} {padLen : UInt8} (hchunk : Chunk chunk)
      (hcut : tail ++ more = frame chunk padLen) (htail : tail ≠ []) (hmore : more ≠ []) :
      Tail (left + 1) tail [] .broken

/-- Some frames and a tail are before the reader. -/
def Holds (r : NaivePaddedStream × Arrivals UInt8) (rest : List UInt8) (n : Nat) (e : Ending) : Prop :=
  r.2.Proper ∧ n = r.2.delays ∧
    ∃ fs tail raw, r.1.readBuf ++ r.2.items = frames fs ++ tail ∧ (∀ f ∈ fs, Chunk f.1) ∧
      fs.length ≤ r.1.readsPaddedLeft ∧ Tail (r.1.readsPaddedLeft - fs.length) tail raw e ∧
      rest = r.1.pendingData ++ (textOf fs ++ raw)

section

variable {s : NaivePaddedStream} {a : Arrivals UInt8} {rest : List UInt8} {e : Ending}

/-- The lengths at the beginning of a frame. -/
theorem lengths_of_frame {chunk : List UInt8} {padLen : UInt8} (hchunk : Chunk chunk)
    {buf more others : List UInt8} (hbuf : buf ++ more = frame chunk padLen ++ others)
    (hlen : 3 ≤ buf.length) :
    (u16At buf 0).toNat = chunk.length ∧ byteAt buf 2 = padLen := by
  have hsize : chunk.length < 2 ^ 16 := by
    have := hchunk.2
    omega
  constructor
  · rw [← u16At_append_left more (by omega), hbuf, frame, List.append_assoc]
    exact toNat_u16At_toBeBytes hsize _
  · rw [← byteAt_append_left more (by omega), hbuf]
    rfl

/-- A whole frame is taken. -/
theorem takeFrame_of_le {chunk : List UInt8} {padLen : UInt8} (hchunk : Chunk chunk)
    {more others : List UInt8} (hbuf : s.readBuf ++ more = frame chunk padLen ++ others)
    (hlen : (frame chunk padLen).length ≤ s.readBuf.length) :
    ∃ buf, s.takeFrame = some (chunk,
        { s with readBuf := buf, readsPaddedLeft := s.readsPaddedLeft - 1 }) ∧
      buf ++ more = others := by
  have hframe := length_frame chunk padLen
  obtain ⟨horig, hpad⟩ := lengths_of_frame hchunk hbuf (by omega)
  refine ⟨s.readBuf.drop (frame chunk padLen).length, ?_, ?_⟩
  · rw [NaivePaddedStream.takeFrame, if_neg (by omega)]
    simp only [horig, hpad]
    rw [if_neg (by omega), hframe]
    have htake : (s.readBuf.drop 3).take chunk.length = chunk := by
      have hfront := congrArg (fun l => (l.drop 3).take chunk.length) hbuf
      rw [List.drop_append_of_le_length (by omega),
        List.take_append_of_le_length (by rw [List.length_drop]; omega)] at hfront
      rw [hfront, drop_frame, List.take_left]
    rw [htake]
  · have hdrop := congrArg (List.drop (frame chunk padLen).length) hbuf
    rw [List.drop_append_of_le_length hlen, List.drop_left] at hdrop
    exact hdrop

/-- A part of a frame is not. -/
theorem takeFrame_of_lt {chunk : List UInt8} {padLen : UInt8} (hchunk : Chunk chunk)
    {more others : List UInt8} (hbuf : s.readBuf ++ more = frame chunk padLen ++ others)
    (hlen : s.readBuf.length < (frame chunk padLen).length) : s.takeFrame = none := by
  rw [length_frame] at hlen
  rw [NaivePaddedStream.takeFrame]
  split
  · rfl
  · obtain ⟨horig, hpad⟩ := lengths_of_frame hchunk hbuf (by omega)
    simp only [horig, hpad]
    rw [if_pos hlen]

/-- What arrives goes behind what was fetched. -/
theorem Holds.fetched {n : Nat} (h : Holds (s, a) rest n e) {bytes : List UInt8}
    {arrivals : Arrivals UInt8} (hproper : arrivals.Proper) (hitems : a.items = bytes ++ arrivals.items)
    (hdelays : arrivals.delays = a.delays) :
    Holds ({ s with readBuf := s.readBuf ++ bytes }, arrivals) rest n e := by
  obtain ⟨-, hn, fs, tail, raw, hbuf, hsized, hleft, htail, hrest⟩ := h
  refine ⟨hproper, hn.trans hdelays.symm, fs, tail, raw, ?_, hsized, hleft, htail, hrest⟩
  show s.readBuf ++ bytes ++ arrivals.items = _
  rw [List.append_assoc, ← hitems]
  exact hbuf

/-- A reader that waits is what it was. -/
theorem Holds.waits {n : Nat} (h : Holds (s, a) rest n e) {arrivals : Arrivals UInt8}
    (hproper : arrivals.Proper) (hitems : arrivals.items = a.items)
    (hdelays : arrivals.delays + 1 = a.delays) :
    ∃ m < n, Holds (s, arrivals) rest m e := by
  obtain ⟨-, hn, fs, tail, raw, hbuf, hframes⟩ := h
  have hless : arrivals.delays < n := by
    have : n = a.delays := hn
    omega
  refine ⟨arrivals.delays, hless, hproper, rfl, fs, tail, raw, ?_, hframes⟩
  rw [← hbuf]
  show s.readBuf ++ arrivals.items = s.readBuf ++ a.items
  rw [hitems]

theorem take_ne_nil {α : Type} {xs : List α} {cap : Nat} (hcap : 0 < cap) (hne : xs ≠ []) :
    xs.take cap ≠ [] := by
  intro hnil
  rcases List.take_eq_nil_iff.mp hnil with hzero | hnil
  · omega
  · exact hne hnil

theorem length_take_le_cap {α : Type} (xs : List α) (cap : Nat) : (xs.take cap).length ≤ cap := by
  rw [List.length_take]
  exact Nat.min_le_left _ _

/-- Where frames are expected, the next one is handed out, or fetched; or there is
none. -/
theorem answered_framed {cap : Nat} (hcap : 0 < cap) {fuel : Nat} {n : Nat}
    (h : Holds (s, a) rest n e) (hpending : s.pendingData = []) (hleft : s.readsPaddedLeft ≠ 0)
    (hfuel : a.items.length < fuel) :
    Answered Holds rest n e cap (NaivePaddedStream.readLoop fuel s a cap) := by
  induction fuel generalizing s a with
  | zero => exact absurd hfuel (Nat.not_lt_zero _)
  | succ fuel ih =>
      obtain ⟨hproper, hn, fs, tail, raw, hbuf, hsized, hcount, htail, hrest⟩ := id h
      simp only at hproper hn hbuf hcount htail hrest
      rw [hpending, List.nil_append] at hrest
      have hnone : ¬ (!s.pendingData.isEmpty) = true := by simp [hpending]
      -- where no frame can be taken, the inner stream decides
      have hfetch : s.takeFrame = none → (a = [] → Answered Holds rest n e cap
            (if s.readBuf.isEmpty then .ready [] else .error, s, [])) →
          Answered Holds rest n e cap (NaivePaddedStream.readLoop (fuel + 1) s a cap) := by
        intro htake hend
        rw [NaivePaddedStream.readLoop, if_neg hnone, if_neg hleft]
        simp only [htake]
        rcases Arrivals.poll_cases hproper (show 0 < 8192 by decide) with
          ⟨arrivals, hpoll, hproper', hitems, hdelays⟩ | ⟨rfl, hpoll⟩ |
          ⟨bytes, arrivals, hpoll, hproper', hne, -, hitems, hdelays⟩
        · simp only [hpoll]
          exact h.waits hproper' hitems hdelays
        · simp only [hpoll, List.isEmpty_nil, if_true]
          exact hend rfl
        · have hnot : ¬ bytes.isEmpty = true := by simpa using hne
          simp only [hpoll, if_neg hnot]
          have hpos := List.length_pos_iff.mpr hne
          have hlen := congrArg List.length hitems
          rw [List.length_append] at hlen
          exact ih (h.fetched hproper' hitems hdelays) hpending hleft (by omega)
      cases fs with
      | cons f fs =>
          obtain ⟨chunk, padLen⟩ := f
          have hchunk : Chunk chunk := hsized (chunk, padLen) List.mem_cons_self
          have hfront : s.readBuf ++ a.items = frame chunk padLen ++ (frames fs ++ tail) := by
            rw [hbuf, frames, List.map_cons, List.flatten_cons, List.append_assoc]
            rfl
          by_cases hlen : (frame chunk padLen).length ≤ s.readBuf.length
          · obtain ⟨buf, htake, hmore⟩ := takeFrame_of_le hchunk hfront hlen
            have hsome : (!chunk.isEmpty) = true := by simp [hchunk.1]
            rw [NaivePaddedStream.readLoop, if_neg hnone, if_neg hleft]
            simp only [htake, if_pos hsome]
            refine ⟨chunk.drop cap ++ (textOf fs ++ raw), n, Nat.le_refl _, ?_,
              length_take_le_cap _ _, ?_, fun _ hnil => absurd hnil (take_ne_nil hcap hchunk.1)⟩
            · rw [hrest, ← List.append_assoc, List.take_append_drop, textOf, List.map_cons,
                List.flatten_cons, List.append_assoc]
              rfl
            · rw [List.length_cons] at hcount htail
              refine ⟨hproper, hn, fs, tail, raw, hmore,
                fun f hmem => hsized f (List.mem_cons_of_mem _ hmem), ?_, ?_, ?_⟩
              · show fs.length ≤ s.readsPaddedLeft - 1
                omega
              · show Tail (s.readsPaddedLeft - 1 - fs.length) tail raw e
                rw [show s.readsPaddedLeft - 1 - fs.length = s.readsPaddedLeft - (fs.length + 1)
                  by omega]
                exact htail
              · show _ = (s.pendingData ++ chunk.drop cap) ++ _
                rw [hpending, List.nil_append]
          · apply hfetch (takeFrame_of_lt hchunk hfront (Nat.lt_of_not_le hlen))
            rintro rfl
            -- a frame that is whole does not end early
            rw [Arrivals.items_nil, List.append_nil] at hfront
            rw [hfront, List.length_append] at hlen
            omega
      | nil =>
          rw [frames, List.map_nil, List.flatten_nil, List.nil_append] at hbuf
          rw [List.length_nil, Nat.sub_zero] at htail
          rw [textOf, List.map_nil, List.flatten_nil, List.nil_append] at hrest
          generalize hcount' : s.readsPaddedLeft = left at htail
          cases htail with
          | raw => exact absurd hcount' hleft
          | eof =>
              obtain ⟨hempty, -⟩ := List.append_eq_nil_iff.mp hbuf
              have htake : s.takeFrame = none := by
                rw [NaivePaddedStream.takeFrame, hempty]
                rfl
              apply hfetch htake
              rintro rfl
              obtain rfl : n = 0 := hn
              rw [hempty]
              rw [hrest] at h ⊢
              exact ⟨[], 0, Nat.le_refl _, rfl, Nat.zero_le _, h, fun _ _ => ⟨rfl, rfl, rfl⟩⟩
          | torn hchunk hcut hne hgap =>
              rename_i left more chunk padLen
              have hwhole := congrArg List.length hcut
              have hpart := congrArg List.length hbuf
              have hpos := List.length_pos_iff.mpr hgap
              rw [List.length_append] at hwhole hpart
              have hfront : s.readBuf ++ (a.items ++ more) = frame chunk padLen ++ [] := by
                rw [← List.append_assoc, hbuf, hcut, List.append_nil]
              apply hfetch (takeFrame_of_lt hchunk hfront (by omega))
              rintro rfl
              rw [Arrivals.items_nil, List.append_nil] at hbuf
              have hnot : ¬ s.readBuf.isEmpty = true := by
                rw [hbuf]
                simpa using hne
              rw [if_neg hnot]
              exact ⟨hrest, rfl⟩

/-- Where everything is raw, it is handed out as it comes. -/
theorem answered_raw {cap : Nat} (hcap : 0 < cap) (fuel : Nat) {n : Nat} (h : Holds (s, a) rest n e)
    (hpending : s.pendingData = []) (hleft : s.readsPaddedLeft = 0) :
    Answered Holds rest n e cap (NaivePaddedStream.readLoop (fuel + 1) s a cap) := by
  obtain ⟨hproper, hn, fs, tail, raw, hbuf, hsized, hcount, htail, hrest⟩ := id h
  simp only at hproper hn hbuf hcount htail hrest
  rw [hleft] at hcount htail
  obtain rfl := List.length_eq_zero_iff.mp (Nat.le_zero.mp hcount)
  rw [Nat.zero_sub] at htail
  cases htail
  rw [hpending] at hrest
  have hraw : rest = s.readBuf ++ a.items := by
    rw [hrest, hbuf]
    rfl
  -- what is left behind some bytes is raw again
  have hafter : ∀ (buf bytes : List UInt8) (arrivals : Arrivals UInt8), arrivals.Proper →
      buf ++ arrivals.items = bytes →
      Holds ({ s with readBuf := buf }, arrivals) bytes arrivals.delays .eof := by
    intro buf bytes arrivals hproper' hbytes
    refine ⟨hproper', rfl, [], bytes, bytes, hbytes, nofun, Nat.zero_le _, ?_, ?_⟩
    · show Tail (s.readsPaddedLeft - 0) bytes bytes .eof
      rw [hleft]
      exact .raw
    · show bytes = s.pendingData ++ ([] ++ bytes)
      rw [hpending]
      rfl
  have hnone : ¬ (!s.pendingData.isEmpty) = true := by simp [hpending]
  rw [NaivePaddedStream.readLoop, if_neg hnone, if_pos hleft]
  split
  · rename_i hsome
    have hne : s.readBuf ≠ [] := by simpa using hsome
    refine ⟨s.readBuf.drop cap ++ a.items, a.delays, Nat.le_of_eq hn.symm, ?_,
      length_take_le_cap _ _, hafter _ _ a hproper rfl, fun _ hnil =>
        absurd hnil (take_ne_nil hcap hne)⟩
    rw [hraw, ← List.append_assoc, List.take_append_drop]
  · rename_i hempty
    have hempty : s.readBuf = [] := by simpa using hempty
    rw [hempty, List.nil_append] at hraw
    have hsame : { s with readBuf := [] } = s := by rw [← hempty]
    rw [hsame.symm]
    rcases Arrivals.poll_cases hproper hcap with
      ⟨arrivals, hpoll, hproper', hitems, hdelays⟩ | ⟨rfl, hpoll⟩ |
      ⟨bytes, arrivals, hpoll, hproper', hne, hlen, hitems, hdelays⟩
    · simp only [hpoll]
      refine ⟨arrivals.delays, by omega, ?_⟩
      exact hafter [] _ arrivals hproper' (hitems.trans hraw.symm)
    · simp only [hpoll]
      refine ⟨[], 0, Nat.zero_le _, hraw, Nat.zero_le _, hafter [] _ [] hproper rfl,
        fun _ _ => ⟨hraw, rfl, rfl⟩⟩
    · simp only [hpoll]
      refine ⟨arrivals.items, arrivals.delays, by omega, hraw.trans hitems, hlen,
        hafter [] _ arrivals hproper' rfl, fun _ hnil => absurd hnil hne⟩

/-- **Every poll answers rightly.** -/
theorem serves_pollRead : Serves NaivePaddedStream.pollRead Holds := by
  intro r rest n e h cap
  obtain ⟨s, a⟩ := r
  rw [NaivePaddedStream.pollRead]
  split
  · rename_i hzero
    exact ⟨rest, n, Nat.le_refl _, rfl, Nat.zero_le _, h, fun hpos => absurd hzero (by omega)⟩
  rename_i hcap
  have hcap : 0 < cap := Nat.pos_of_ne_zero hcap
  by_cases hpending : s.pendingData = []
  · by_cases hleft : s.readsPaddedLeft = 0
    · exact answered_raw hcap _ h hpending hleft
    · apply answered_framed hcap h hpending hleft
      show a.items.length < s.readsPaddedLeft + a.items.length + 1
      omega
  · -- a part of a chunk waits
    obtain ⟨hproper, hn, fs, tail, raw, hbuf, hsized, hcount, htail, hrest⟩ := h
    have hsome : (!s.pendingData.isEmpty) = true := by simpa using hpending
    rw [NaivePaddedStream.readLoop, if_pos hsome]
    refine ⟨s.pendingData.drop cap ++ (textOf fs ++ raw), n, Nat.le_refl _, ?_,
      length_take_le_cap _ _, ⟨hproper, hn, fs, tail, raw, hbuf, hsized, hcount, htail, rfl⟩,
      fun _ hnil => absurd hnil (take_ne_nil hcap hpending)⟩
    rw [hrest, ← List.append_assoc (s.pendingData.take cap), List.take_append_drop]

end

/-! ### Both ends -/

/-- The frames of a stream that was cut off inside one of them: those before, and a
part of the next. -/
def CutInside (fs before : List (List UInt8 × UInt8)) (wire : List UInt8) : Prop :=
  ∃ f after part more, fs = before ++ f :: after ∧ frame f.1 f.2 = part ++ more ∧ part ≠ [] ∧
    more ≠ [] ∧ wire = frames before ++ part

theorem holds_new {paddingEnabled : Bool} {a : Arrivals UInt8} {fs : List (List UInt8 × UInt8)}
    {tail raw : List UInt8} {e : Ending} (hproper : a.Proper) (hitems : a.items = frames fs ++ tail)
    (hsized : ∀ f ∈ fs, Chunk f.1)
    (hcount : fs.length ≤ if paddingEnabled then kFirstPaddings else 0)
    (htail : Tail ((if paddingEnabled then kFirstPaddings else 0) - fs.length) tail raw e) :
    Holds (.new paddingEnabled, a) (textOf fs ++ raw) a.delays e :=
  ⟨hproper, rfl, fs, tail, raw, hitems, hsized, hcount, htail, rfl⟩

/-- **The padded stream is a lossless channel.**  After any calls, what the inner
stream was given is a beginning of the encoding of some chunks, of which what waits
is the rest; a call that is ready leaves nothing behind; as long as no call has
failed, and none fails where the inner stream takes something when it is ready, the
chunks are those that were accepted.  The other end hands out the chunks, whatever
the segments and the room of the caller, and then the end; and of a stream that is
cut off inside a frame, what is before it, and then an error. -/
theorem padded_stream_lossless (paddingEnabled : Bool) (calls : List Call) (s : Channel)
    (hrun : Run.exec Channel.step (.new paddingEnabled) calls = some s) :
    ∃ chunks fs later, Encodes (if paddingEnabled then kFirstPaddings else 0) chunks fs later ∧
      s.inner ++ s.stream.writeBuf = frames fs ++ later.flatten ∧
      (s.failed = false → chunks = s.accepted) ∧
      ((∀ call ∈ calls, call.Partial) → s.failed = false) ∧
      (∀ answers inner, (s.stream.pollFlush answers inner).result = .ready () →
        (s.stream.pollFlush answers inner).stream.writeBuf = []) ∧
      (∀ answers inner, (s.stream.pollShutdown answers inner).result = .ready () →
        (s.stream.pollShutdown answers inner).stream.writeBuf = []) ∧
      (∀ (a : Arrivals UInt8) caps, a.Proper → a.items = frames fs ++ later.flatten →
        ∃ r, Run.exec (Serving.step NaivePaddedStream.pollRead)
            ⟨(.new paddingEnabled, a), []⟩ caps = some r ∧
          r.delivered <+: chunks.flatten ∧
          (∀ cap, 0 < cap → (NaivePaddedStream.pollRead r.reader cap).1 = .ready [] →
            r.delivered = chunks.flatten) ∧
          (chunks.flatten.length + a.delays ≤ caps.countP (0 < ·) →
            r.delivered = chunks.flatten ∧
              ∀ cap, (NaivePaddedStream.pollRead r.reader cap).1 = .ready [])) ∧
      ∀ (a : Arrivals UInt8) caps before, a.Proper → CutInside fs before a.items →
        (∀ r, Run.exec (Serving.step NaivePaddedStream.pollRead)
            ⟨(.new paddingEnabled, a), []⟩ caps = some r →
          r.delivered <+: textOf before ∧ ∀ cap, 0 < cap →
            (NaivePaddedStream.pollRead r.reader cap).1 ≠ .ready [] ∧
            ((NaivePaddedStream.pollRead r.reader cap).1 = .error →
              r.delivered = textOf before)) ∧
        ((textOf before).length + a.delays < caps.countP (0 < ·) →
          Run.exec (Serving.step NaivePaddedStream.pollRead)
            ⟨(.new paddingEnabled, a), []⟩ caps = none) := by
  obtain ⟨chunks, fs, later, hsending, haccepted⟩ :=
    Run.exec_preserves (fun h hstep => Channel.Carries.step h hstep) hrun
      (Channel.carries_new paddingEnabled)
  have hencodes := hsending.encodes
  refine ⟨chunks, fs, later, hencodes, hsending.sent, haccepted, ?_, ?_, ?_, ?_, ?_⟩
  · intro hcalls
    exact Channel.run_taking hcalls rfl hrun
  · intro answers inner
    exact (hsending.flush answers inner).2
  · intro answers inner
    exact (hsending.flush answers inner).2
  · intro a caps hproper hitems
    have hholds : Holds (.new paddingEnabled, a) chunks.flatten a.delays .eof := by
      rw [hencodes.flatten]
      apply holds_new hproper hitems hencodes.sized hencodes.framed
      by_cases hframed : fs.length = if paddingEnabled then kFirstPaddings else 0
      · rw [hframed, Nat.sub_self]
        exact .raw
      · have hlater : later = [] := by
          by_contra hne
          exact hframed (hencodes.later hne)
        obtain ⟨left, hleft⟩ := Nat.exists_eq_add_of_lt
          (Nat.lt_of_le_of_ne hencodes.framed hframed)
        rw [hlater, hleft, Nat.add_assoc, Nat.add_sub_cancel_left]
        exact .eof
    exact run_clean serves_pollRead caps hholds
  · rintro a caps before hproper ⟨f, after, part, more, rfl, hframe, hpart, hmore, hitems⟩
    have hsized := hencodes.sized
    have hcount := hencodes.framed
    rw [List.length_append, List.length_cons] at hcount
    have hholds : Holds (.new paddingEnabled, a) (textOf before) a.delays .broken := by
      rw [← List.append_nil (textOf before)]
      apply holds_new hproper hitems (fun g hmem => hsized g (List.mem_append_left _ hmem)) (by omega)
      obtain ⟨left, hleft⟩ := Nat.exists_eq_add_of_lt
        (show before.length < if paddingEnabled then kFirstPaddings else 0 by omega)
      rw [hleft, Nat.add_assoc, Nat.add_sub_cancel_left]
      exact .torn (hsized f (by simp)) hframe.symm hpart hmore
    exact run_broken serves_pollRead caps hholds

/-- Two chunks, with paddings of two bytes and of none. -/
theorem two_chunks_padded :
    ∃ s, Run.exec Channel.step (.new true)
        [.write [1, 2] 2 [.some 4], .write [3] 0 [.some 9, .some 9]] = some s ∧
      s.failed = false ∧ ∃ chunks, chunks = s.accepted ∧ chunks = [[1, 2], [3]] := by
  obtain ⟨chunks, fs, later, -, -, haccepted, hok, -⟩ := padded_stream_lossless true
    [.write [1, 2] 2 [.some 4], .write [3] 0 [.some 9, .some 9]] _ rfl
  have hpartial := hok (by simp [Call.Partial, Wrote.Partial])
  exact ⟨_, rfl, hpartial, chunks, haccepted hpartial, haccepted hpartial⟩

/-- The inner stream takes three bytes and then none: the call fails, and what was
given is not of what was accepted. -/
theorem zero_write_after_frame :
    ∃ s, Run.exec Channel.step (.new true) [.write [1, 2] 2 [.some 3, .some 0]] = some s ∧
      s.accepted = [] ∧ s.inner = [0, 2, 2] ∧
      ¬ ∃ fs later, Encodes kFirstPaddings s.accepted fs later ∧
        s.inner <+: frames fs ++ later.flatten := by
  refine ⟨_, rfl, rfl, rfl, ?_⟩
  rintro ⟨fs, later, hencodes, hbegin⟩
  obtain ⟨hfs, hlater⟩ := List.append_eq_nil_iff.mp hencodes.chunks.symm
  rw [List.map_eq_nil_iff] at hfs
  subst hfs hlater
  exact absurd (List.prefix_nil.mp hbegin) (by decide)

end Naive

end Elise
