/-
Elise/Shadowsocks/Channel.lean

The stream behind a 2022 handshake (`Ss2022TcpReader` and `Ss2022TcpWriter` in
src/protocol/shadowsocks/ss2022.rs) loses nothing.

Both are state machines that are polled.  The writer seals a chunk of what it is given and
passes on what the inner stream takes; the rest waits for the next call.  The reader collects a
sealed length and a sealed chunk and hands out the chunk piece by piece.  The cipher of a
session numbers its packets, so the n-th packet is sealed under the n-th nonce.

At every moment, what the inner stream was given and what waits in the writer are together the
response to some chunks, and the chunks are what was accepted (`Carries`).  What is still to be
handed out is determined by the state of the reader and by what has not arrived yet (`Holds`),
and every poll moves bytes from the one to the caller.

A call that fails after it has sealed its chunk leaves the chunk behind, although the caller was
told that nothing was written.  So the writer's part is about runs in which no call has failed;
`zero_write_leaves_chunk` is a run beyond that.
-/
import Elise.Lib.Net
import Elise.Lib.Poll
import Elise.Lib.Run
import Elise.Lib.TableCipher
import Elise.Lib.Wire

namespace Elise

namespace Shadowsocks

open Net Poll

/-- The packet cipher of a session (crate `shadowsocks-crypto`). -/
structure TcpCipher where
  encryptPacket : (counter : Nat) → List UInt8 → List UInt8
  decryptPacket : (counter : Nat) → List UInt8 → Option (List UInt8)

/-- A packet opens to what was sealed, and the tag has sixteen bytes. -/
structure TcpCipher.Lawful (cipher : TcpCipher) : Prop where
  decrypt_encrypt : ∀ n data, cipher.decryptPacket n (cipher.encryptPacket n data) = some data
  length_encrypt : ∀ n data, (cipher.encryptPacket n data).length = data.length + 16

def ss2022MaxChunkLen : Nat := 0xFFFF

variable (cipher : TcpCipher)

/-! ### The writer -/

inductive WriterState where
  | firstChunk
  | normal
  deriving DecidableEq, Repr

structure Ss2022TcpWriter where
  counter : Nat
  responseSalt : List UInt8
  requestSalt : List UInt8
  pendingBuf : List UInt8
  pendingPos : Nat
  state : WriterState
  deriving DecidableEq, Repr

namespace Ss2022TcpWriter

def new (responseSalt requestSalt : List UInt8) : Ss2022TcpWriter :=
  ⟨0, responseSalt, requestSalt, [], 0, .firstChunk⟩

/-- What the inner stream has not taken yet. -/
def unsent (w : Ss2022TcpWriter) : List UInt8 := w.pendingBuf.drop w.pendingPos

def sentMore (w : Ss2022TcpWriter) (n : Nat) : Ss2022TcpWriter :=
  { w with pendingPos := w.pendingPos + n }

def cleared (w : Ss2022TcpWriter) : Ss2022TcpWriter := { w with pendingBuf := [], pendingPos := 0 }

/-- The fixed header of the response: type, time, salt of the request, and the
length of the first chunk. -/
def fixedHeader (time : UInt64) (requestSalt : List UInt8) (len : Nat) : List UInt8 :=
  1 :: (toBeBytes 8 time.toNat ++ (requestSalt ++ toBeBytes 2 len))

/-- Seal a chunk behind what is pending; the first one needs the clock. -/
def sealChunk (w : Ss2022TcpWriter) (now : Option UInt64) (chunk : List UInt8) :
    Option Ss2022TcpWriter :=
  match w.state with
  | .firstChunk =>
      now.map fun time =>
        { w with
          counter := w.counter + 2
          pendingBuf := w.pendingBuf ++ (w.responseSalt ++
            (cipher.encryptPacket w.counter (fixedHeader time w.requestSalt chunk.length) ++
              cipher.encryptPacket (w.counter + 1) chunk))
          state := .normal }
  | .normal =>
      some { w with
        counter := w.counter + 2
        pendingBuf := w.pendingBuf ++
          (cipher.encryptPacket w.counter (toBeBytes 2 chunk.length) ++
            cipher.encryptPacket (w.counter + 1) chunk) }

/-- What the inner stream is given, and the answer to the caller. -/
structure Polled (β : Type) where
  writer : Ss2022TcpWriter
  written : List UInt8
  result : Result β

def pollWriteEncrypted (w : Ss2022TcpWriter) (now : Option UInt64) (buf : List UInt8)
    (answers : List Wrote) : Polled Nat :=
  let flushed := drain answers w.unsent
  let w := w.sentMore flushed.written.length
  match flushed.verdict with
  | .pending => ⟨w, flushed.written, .pending⟩
  | .failed | .ended => ⟨w, flushed.written, .error⟩
  | .done =>
      let w := w.cleared
      if buf.isEmpty then ⟨w, flushed.written, .ready 0⟩
      else
        let chunk := buf.take ss2022MaxChunkLen
        match w.sealChunk cipher now chunk with
        | none => ⟨w, flushed.written, .error⟩
        | some w =>
            let sent := drain flushed.answers w.unsent
            let w := w.sentMore sent.written.length
            let written := flushed.written ++ sent.written
            match sent.verdict with
            | .done => ⟨w.cleared, written, .ready chunk.length⟩
            | .pending => ⟨w, written, .ready chunk.length⟩
            | .failed | .ended => ⟨w, written, .error⟩

def pollFlush (w : Ss2022TcpWriter) (answers : List Wrote) (inner : Result Unit) : Polled Unit :=
  let flushed := drain answers w.unsent
  let w := w.sentMore flushed.written.length
  match flushed.verdict with
  | .pending => ⟨w, flushed.written, .pending⟩
  | .failed | .ended => ⟨w, flushed.written, .error⟩
  | .done => ⟨w.cleared, flushed.written, inner⟩

def pollShutdown (w : Ss2022TcpWriter) (answers : List Wrote) (innerFlush inner : Result Unit) :
    Polled Unit :=
  let flushed := w.pollFlush answers innerFlush
  match flushed.result with
  | .ready () => { flushed with result := inner }
  | _ => flushed

end Ss2022TcpWriter

/-! ### The reader -/

inductive ReaderState where
  | yieldingData (buf : List UInt8) (pos : Nat)
  | readingLength (got : List UInt8)
  | readingData (length : Nat) (got : List UInt8)
  deriving DecidableEq, Repr

structure Ss2022TcpReader where
  counter : Nat
  state : ReaderState
  deriving DecidableEq, Repr

namespace Ss2022TcpReader

def new (counter : Nat) (initialPayload : List UInt8) : Ss2022TcpReader :=
  ⟨counter, if initialPayload.isEmpty then .readingLength [] else .yieldingData initialPayload 0⟩

/-- What is left of the inner stream, and the answer to the caller. -/
structure Polled where
  reader : Ss2022TcpReader
  arrivals : Arrivals UInt8
  result : Result (List UInt8)

/-- Hand out what fits into the buffer of the caller. -/
def yieldData (r : Ss2022TcpReader) (buf : List UInt8) (pos cap : Nat) :
    Ss2022TcpReader × List UInt8 :=
  let n := min (buf.length - pos) cap
  ({ r with
    state := if buf.length ≤ pos + n then .readingLength [] else .yieldingData buf (pos + n) },
    (buf.drop pos).take n)

/-- The loop of `poll_read_decrypted`.  A round that does not return takes at
least sixteen bytes, but for the first two. -/
def pollLoop : (fuel : Nat) → Ss2022TcpReader → Arrivals UInt8 → (cap : Nat) → Polled
  | 0, r, a, _ => ⟨r, a, .pending⟩
  | fuel + 1, r, a, cap =>
      match r.state with
      | .yieldingData buf pos =>
          let (r, bytes) := r.yieldData buf pos cap
          ⟨r, a, .ready bytes⟩
      | .readingLength got =>
          let filled := fill 18 got a
          let r := { r with state := .readingLength filled.got }
          match filled.verdict with
          | .pending => ⟨r, filled.arrivals, .pending⟩
          | .failed => ⟨r, filled.arrivals, .error⟩
          | .ended =>
              ⟨r, filled.arrivals, if filled.got.isEmpty then .ready [] else .error⟩
          | .done =>
              match cipher.decryptPacket r.counter filled.got with
              | none => ⟨{ r with counter := r.counter + 1 }, filled.arrivals, .error⟩
              | some plain =>
                  let len := (u16At plain 0).toNat
                  let state := if len = 0 then .readingLength [] else .readingData len []
                  pollLoop fuel ⟨r.counter + 1, state⟩ filled.arrivals cap
      | .readingData length got =>
          let filled := fill (length + 16) got a
          let r := { r with state := .readingData length filled.got }
          match filled.verdict with
          | .pending => ⟨r, filled.arrivals, .pending⟩
          | .failed | .ended => ⟨r, filled.arrivals, .error⟩
          | .done =>
              match cipher.decryptPacket r.counter filled.got with
              | none => ⟨{ r with counter := r.counter + 1 }, filled.arrivals, .error⟩
              | some plain =>
                  pollLoop fuel ⟨r.counter + 1, .yieldingData (plain.take length) 0⟩
                    filled.arrivals cap

def pollReadDecrypted (r : Ss2022TcpReader) (a : Arrivals UInt8) (cap : Nat) : Polled :=
  pollLoop cipher (a.items.length + 3) r a cap

end Ss2022TcpReader

/-! ### What is to be sent -/

/-- A chunk that the writer makes. -/
def Chunk (chunk : List UInt8) : Prop := chunk ≠ [] ∧ chunk.length ≤ ss2022MaxChunkLen

/-- The sealed length and the sealed chunk, under the next two nonces. -/
def frame (counter : Nat) (chunk : List UInt8) : List UInt8 :=
  cipher.encryptPacket counter (toBeBytes 2 chunk.length) ++ cipher.encryptPacket (counter + 1) chunk

def frames : (counter : Nat) → List (List UInt8) → List UInt8
  | _, [] => []
  | counter, chunk :: chunks => frame cipher counter chunk ++ frames (counter + 2) chunks

/-- The response: the salt, the fixed header with the first chunk, and the
frames of the others. -/
def response (responseSalt requestSalt : List UInt8) (time : UInt64) :
    List (List UInt8) → List UInt8
  | [] => []
  | chunk :: chunks =>
      (responseSalt ++
        (cipher.encryptPacket 0 (Ss2022TcpWriter.fixedHeader time requestSalt chunk.length) ++
          cipher.encryptPacket 1 chunk)) ++ frames cipher 2 chunks

theorem frames_concat (counter : Nat) (chunks : List (List UInt8)) (chunk : List UInt8) :
    frames cipher counter (chunks ++ [chunk]) =
      frames cipher counter chunks ++ frame cipher (counter + 2 * chunks.length) chunk := by
  induction chunks generalizing counter with
  | nil => simp [frames]
  | cons first chunks ih =>
      rw [List.cons_append, frames, ih, frames, List.append_assoc]
      congr 3
      rw [List.length_cons]
      omega

theorem response_concat {responseSalt requestSalt : List UInt8} {time : UInt64}
    {chunks : List (List UInt8)} (hne : chunks ≠ []) (chunk : List UInt8) :
    response cipher responseSalt requestSalt time (chunks ++ [chunk]) =
      response cipher responseSalt requestSalt time chunks ++
        frame cipher (2 * chunks.length) chunk := by
  cases chunks with
  | nil => exact absurd rfl hne
  | cons first chunks =>
      have hcounter : 2 * (first :: chunks).length = 2 + 2 * chunks.length := by
        rw [List.length_cons]
        omega
      simp only [List.cons_append, response, frames_concat, hcounter, List.append_assoc]

/-! ### The writer and the inner stream -/

/-- The writer, with what the inner stream was given, what the caller was told
was written, and whether a call has failed. -/
structure Channel where
  writer : Ss2022TcpWriter
  inner : List UInt8
  accepted : List UInt8
  failed : Bool
  deriving DecidableEq, Repr

/-- A call, with the clock and the answers of the inner stream. -/
inductive Call where
  | write (buf : List UInt8) (now : Option UInt64) (answers : List Wrote)
  | flush (answers : List Wrote) (inner : Result Unit)
  | shutdown (answers : List Wrote) (innerFlush inner : Result Unit)

namespace Channel

def new (responseSalt requestSalt : List UInt8) : Channel :=
  ⟨.new responseSalt requestSalt, [], [], false⟩

/-- The bytes that a call says it has written. -/
def told (buf : List UInt8) : Result Nat → List UInt8
  | .ready n => buf.take n
  | _ => []

def isError {β : Type} : Result β → Bool
  | .error => true
  | _ => false

/-- The state after a call. -/
def after {β : Type} (s : Channel) (polled : Ss2022TcpWriter.Polled β) (taken : List UInt8) :
    Channel :=
  ⟨polled.writer, s.inner ++ polled.written, s.accepted ++ taken, s.failed || isError polled.result⟩

def step (s : Channel) : Call → Option Channel
  | .write buf now answers =>
      let polled := s.writer.pollWriteEncrypted cipher now buf answers
      some (s.after polled (told buf polled.result))
  | .flush answers inner => some (s.after (s.writer.pollFlush answers inner) [])
  | .shutdown answers innerFlush inner =>
      some (s.after (s.writer.pollShutdown answers innerFlush inner) [])

end Channel

/-! ### The invariant of the writer -/

variable {cipher} {responseSalt requestSalt : List UInt8}

variable (cipher responseSalt requestSalt) in
/-- The chunks are what is on its way: given to the inner stream, or waiting. -/
structure Sending (w : Ss2022TcpWriter) (inner : List UInt8) (time : UInt64)
    (chunks : List (List UInt8)) : Prop where
  salts : w.responseSalt = responseSalt ∧ w.requestSalt = requestSalt
  counter : w.counter = 2 * chunks.length
  state : w.state = if chunks = [] then .firstChunk else .normal
  sent : inner ++ w.unsent = response cipher responseSalt requestSalt time chunks

namespace Sending

variable {w w' : Ss2022TcpWriter} {inner : List UInt8} {time : UInt64} {chunks : List (List UInt8)}

/-- The inner stream takes some of what waits. -/
theorem drained (h : Sending cipher responseSalt requestSalt w inner time chunks)
    (answers : List Wrote) :
    Sending cipher responseSalt requestSalt
      (w.sentMore (drain answers w.unsent).written.length)
      (inner ++ (drain answers w.unsent).written) time chunks := by
  refine ⟨h.salts, h.counter, h.state, ?_⟩
  have hleft : (w.sentMore (drain answers w.unsent).written.length).unsent =
      (drain answers w.unsent).left := by
    rw [left_eq_drop]
    simp [Ss2022TcpWriter.sentMore, Ss2022TcpWriter.unsent]
  rw [hleft, List.append_assoc, drain_append, h.sent]

theorem unsent_of_done {answers : List Wrote} (hdone : (drain answers w.unsent).verdict = .done) :
    (w.sentMore (drain answers w.unsent).written.length).unsent = [] := by
  rw [← left_eq_nil_of_done hdone, left_eq_drop]
  simp [Ss2022TcpWriter.sentMore, Ss2022TcpWriter.unsent]

theorem cleared (h : Sending cipher responseSalt requestSalt w inner time chunks)
    (hunsent : w.unsent = []) :
    Sending cipher responseSalt requestSalt w.cleared inner time chunks := by
  refine ⟨h.salts, h.counter, h.state, ?_⟩
  rw [← h.sent, hunsent]
  rfl

/-- A chunk is sealed when nothing waits. -/
theorem sealChunk (h : Sending cipher responseSalt requestSalt w inner time chunks)
    (hempty : w.pendingBuf = []) (hpos : w.pendingPos = 0) {now : Option UInt64}
    {chunk : List UInt8} (hseal : w.sealChunk cipher now chunk = some w') :
    ∃ time, Sending cipher responseSalt requestSalt w' inner time (chunks ++ [chunk]) := by
  have hinner : inner = response cipher responseSalt requestSalt time chunks := by
    rw [← h.sent]
    simp [Ss2022TcpWriter.unsent, hempty]
  rw [Ss2022TcpWriter.sealChunk] at hseal
  by_cases hne : chunks = []
  · rw [h.state, if_pos hne] at hseal
    obtain ⟨first, -, rfl⟩ := Option.map_eq_some_iff.mp hseal
    refine ⟨first, h.salts, ?_, ?_, ?_⟩
    · simp [h.counter, hne]
    · simp
    · subst hne
      rw [hinner]
      simp [Ss2022TcpWriter.unsent, hempty, hpos, h.counter, h.salts, response, frames]
  · rw [h.state, if_neg hne] at hseal
    obtain rfl := Option.some.inj hseal
    refine ⟨time, h.salts, ?_, ?_, ?_⟩
    · simp only [h.counter, List.length_append, List.length_singleton]
      omega
    · simp [hne]
    · rw [response_concat cipher hne, ← hinner]
      simp [Ss2022TcpWriter.unsent, hempty, hpos, h.counter, frame]

end Sending

/-! ### Every run of the writer -/

variable (cipher responseSalt requestSalt) in
/-- What was accepted is on its way, and nothing else is. -/
structure Carries (s : Channel) (time : UInt64) (chunks : List (List UInt8)) : Prop where
  sending : Sending cipher responseSalt requestSalt s.writer s.inner time chunks
  sized : ∀ chunk ∈ chunks, Chunk chunk
  accepted : chunks.flatten = s.accepted

theorem carries_new (time : UInt64) :
    Carries cipher responseSalt requestSalt (.new responseSalt requestSalt) time [] where
  sending := ⟨⟨rfl, rfl⟩, rfl, rfl, rfl⟩
  sized _ h := by cases h
  accepted := rfl

variable {s : Channel} {time : UInt64} {chunks : List (List UInt8)}

theorem chunk_take {buf : List UInt8} (hne : buf ≠ []) : Chunk (buf.take ss2022MaxChunkLen) := by
  refine ⟨?_, ?_⟩
  · intro hnil
    rcases List.take_eq_nil_iff.mp hnil with hzero | hbuf
    · cases hzero
    · exact hne hbuf
  · rw [List.length_take]
    exact Nat.min_le_left _ _

theorem take_length_take (buf : List UInt8) (n : Nat) : buf.take (buf.take n).length = buf.take n := by
  rw [List.length_take, List.take_eq_take_iff]
  omega

/-- **What a call to write does** if it does not fail: it is not ready, or has
nothing to write, or takes a chunk when nothing else waits. -/
theorem pollWriteEncrypted_cases {w : Ss2022TcpWriter} {now : Option UInt64} {buf : List UInt8}
    {answers : List Wrote}
    (hok : Channel.isError (w.pollWriteEncrypted cipher now buf answers).result = false) :
    let flushed := drain answers w.unsent
    let w₁ := w.sentMore flushed.written.length
    w.pollWriteEncrypted cipher now buf answers = ⟨w₁, flushed.written, .pending⟩ ∨
    (flushed.verdict = .done ∧
      w.pollWriteEncrypted cipher now buf answers = ⟨w₁.cleared, flushed.written, .ready 0⟩) ∨
    (flushed.verdict = .done ∧ buf ≠ [] ∧
      ∃ w₂, w₁.cleared.sealChunk cipher now (buf.take ss2022MaxChunkLen) = some w₂ ∧
        let sent := drain flushed.answers w₂.unsent
        let w₃ := w₂.sentMore sent.written.length
        ∃ w', (w' = w₃ ∨ w' = w₃.cleared ∧ sent.verdict = .done) ∧
          w.pollWriteEncrypted cipher now buf answers =
            ⟨w', flushed.written ++ sent.written, .ready (buf.take ss2022MaxChunkLen).length⟩) := by
  intro flushed w₁
  rw [Ss2022TcpWriter.pollWriteEncrypted] at hok ⊢
  rcases hverdict : (drain answers w.unsent).verdict with - | - | - | -
  all_goals simp only [hverdict] at hok ⊢
  · right
    by_cases hbuf : buf.isEmpty = true
    · exact .inl ⟨trivial, by rw [if_pos hbuf]⟩
    · right
      rw [if_neg hbuf] at hok ⊢
      refine ⟨trivial, by simpa using hbuf, ?_⟩
      rcases hseal : w₁.cleared.sealChunk cipher now (buf.take ss2022MaxChunkLen) with - | w₂
      · rw [hseal] at hok
        cases hok
      · rw [hseal] at hok
        refine ⟨w₂, rfl, ?_⟩
        rcases hsent : (drain (drain answers w.unsent).answers w₂.unsent).verdict
          with - | - | - | -
        all_goals simp only [hsent] at hok ⊢
        · exact ⟨_, .inr ⟨rfl, trivial⟩, rfl⟩
        · exact ⟨_, .inl rfl, rfl⟩
        · cases hok
        · cases hok
  · exact .inl rfl
  · cases hok
  · cases hok

theorem Carries.write (h : Carries cipher responseSalt requestSalt s time chunks)
    (buf : List UInt8) (now : Option UInt64) (answers : List Wrote)
    (hok : Channel.isError (s.writer.pollWriteEncrypted cipher now buf answers).result = false) :
    ∃ time chunks, Carries cipher responseSalt requestSalt
      (s.after (s.writer.pollWriteEncrypted cipher now buf answers)
        (Channel.told buf (s.writer.pollWriteEncrypted cipher now buf answers).result))
      time chunks := by
  have hdrained := h.sending.drained answers
  rcases pollWriteEncrypted_cases hok with heq | ⟨hdone, heq⟩ |
    ⟨hdone, hbuf, w₂, hseal, w', hw', heq⟩
  · rw [heq]
    refine ⟨time, chunks, hdrained, h.sized, ?_⟩
    simp [Channel.after, Channel.told, h.accepted]
  · rw [heq]
    refine ⟨time, chunks, hdrained.cleared (Sending.unsent_of_done hdone), h.sized, ?_⟩
    simp [Channel.after, Channel.told, h.accepted]
  · rw [heq]
    obtain ⟨time', hsealed⟩ :=
      (hdrained.cleared (Sending.unsent_of_done hdone)).sealChunk rfl rfl hseal
    have hsent := hsealed.drained (drain answers s.writer.unsent).answers
    refine ⟨time', chunks ++ [buf.take ss2022MaxChunkLen], ?_, ?_, ?_⟩
    · simp only [Channel.after, ← List.append_assoc]
      rcases hw' with rfl | ⟨rfl, hdone'⟩
      · exact hsent
      · exact hsent.cleared (Sending.unsent_of_done hdone')
    · intro chunk hchunk
      rcases List.mem_append.mp hchunk with hmem | hmem
      · exact h.sized chunk hmem
      · rw [List.mem_singleton.mp hmem]
        exact chunk_take hbuf
    · simp only [Channel.after, Channel.told, List.flatten_append, List.flatten_singleton,
        h.accepted, take_length_take]

/-- **What a flush does**: some of what waits is taken, and all of it if the
flush is ready. -/
theorem pollFlush_cases (w : Ss2022TcpWriter) (answers : List Wrote) (inner : Result Unit) :
    let flushed := drain answers w.unsent
    let w₁ := w.sentMore flushed.written.length
    (w.pollFlush answers inner).written = flushed.written ∧
      (((w.pollFlush answers inner).writer = w₁ ∧ (w.pollFlush answers inner).result ≠ .ready ()) ∨
        ((w.pollFlush answers inner).writer = w₁.cleared ∧ flushed.verdict = .done)) := by
  intro flushed w₁
  rw [Ss2022TcpWriter.pollFlush]
  rcases (drain answers w.unsent).verdict with - | - | - | -
  all_goals simp only
  · exact ⟨rfl, .inr ⟨rfl, trivial⟩⟩
  · exact ⟨rfl, .inl ⟨rfl, by simp⟩⟩
  · exact ⟨rfl, .inl ⟨rfl, by simp⟩⟩
  · exact ⟨rfl, .inl ⟨rfl, by simp⟩⟩

theorem Sending.flush {w : Ss2022TcpWriter} {inner : List UInt8}
    (h : Sending cipher responseSalt requestSalt w inner time chunks) (answers : List Wrote)
    (innerFlush : Result Unit) :
    Sending cipher responseSalt requestSalt (w.pollFlush answers innerFlush).writer
        (inner ++ (w.pollFlush answers innerFlush).written) time chunks ∧
      ((w.pollFlush answers innerFlush).result = .ready () →
        (w.pollFlush answers innerFlush).writer.unsent = []) := by
  have hdrained := h.drained answers
  obtain ⟨hwritten, ⟨hwriter, hnot⟩ | ⟨hwriter, hdone⟩⟩ := pollFlush_cases w answers innerFlush
  · rw [hwritten, hwriter]
    exact ⟨hdrained, fun hready => absurd hready hnot⟩
  · rw [hwritten, hwriter]
    exact ⟨hdrained.cleared (Sending.unsent_of_done hdone), fun _ => rfl⟩

/-- A shutdown flushes. -/
theorem pollShutdown_eq (w : Ss2022TcpWriter) (answers : List Wrote)
    (innerFlush inner : Result Unit) :
    (w.pollShutdown answers innerFlush inner).writer = (w.pollFlush answers innerFlush).writer ∧
      (w.pollShutdown answers innerFlush inner).written =
        (w.pollFlush answers innerFlush).written := by
  rw [Ss2022TcpWriter.pollShutdown]
  split <;> exact ⟨rfl, rfl⟩

theorem Carries.step {s s' : Channel} {call : Call}
    (h : s.failed = false → ∃ time chunks, Carries cipher responseSalt requestSalt s time chunks)
    (hstep : s.step cipher call = some s') :
    s'.failed = false →
      ∃ time chunks, Carries cipher responseSalt requestSalt s' time chunks := by
  intro hok
  cases call with
  | write buf now answers =>
      obtain rfl := Option.some.inj hstep
      obtain ⟨hbefore, hcall⟩ := Bool.or_eq_false_iff.mp hok
      obtain ⟨time, chunks, hcarries⟩ := h hbefore
      exact hcarries.write buf now answers hcall
  | flush answers inner =>
      obtain rfl := Option.some.inj hstep
      obtain ⟨hbefore, -⟩ := Bool.or_eq_false_iff.mp hok
      obtain ⟨time, chunks, hcarries⟩ := h hbefore
      refine ⟨time, chunks, (hcarries.sending.flush answers inner).1, hcarries.sized, ?_⟩
      simp [Channel.after, hcarries.accepted]
  | shutdown answers innerFlush inner =>
      obtain rfl := Option.some.inj hstep
      obtain ⟨hbefore, -⟩ := Bool.or_eq_false_iff.mp hok
      obtain ⟨time, chunks, hcarries⟩ := h hbefore
      obtain ⟨hwriter, hwritten⟩ := pollShutdown_eq s.writer answers innerFlush inner
      refine ⟨time, chunks, ?_, hcarries.sized, ?_⟩
      · rw [Channel.after, hwriter, hwritten]
        exact (hcarries.sending.flush answers innerFlush).1
      · simp [Channel.after, hcarries.accepted]

/-- In every run in which no call has failed, what was accepted is on its way. -/
theorem carries_run {calls : List Call}
    (hrun : Run.exec (Channel.step cipher) (.new responseSalt requestSalt) calls = some s)
    (hok : s.failed = false) :
    ∃ time chunks, Carries cipher responseSalt requestSalt s time chunks :=
  Run.exec_preserves (fun h hstep => Carries.step h hstep) hrun
    (fun _ => ⟨0, [], carries_new 0⟩) hok

/-! ### What is to be handed out -/

variable (cipher) in
/-- What the reader still has to hand out: the rest of a chunk, and the chunks
that are on their way. -/
inductive Holds : Ss2022TcpReader → Arrivals UInt8 → List UInt8 → Prop where
  | yielding {counter pos : Nat} {buf : List UInt8} {a : Arrivals UInt8}
      {chunks : List (List UInt8)} (hpos : pos < buf.length)
      (hchunks : ∀ chunk ∈ chunks, Chunk chunk) (hitems : a.items = frames cipher counter chunks) :
      Holds ⟨counter, .yieldingData buf pos⟩ a (buf.drop pos ++ chunks.flatten)
  | length {counter : Nat} {got : List UInt8} {a : Arrivals UInt8} {chunks : List (List UInt8)}
      (hgot : got.length ≤ 18) (hchunks : ∀ chunk ∈ chunks, Chunk chunk)
      (hitems : got ++ a.items = frames cipher counter chunks) :
      Holds ⟨counter, .readingLength got⟩ a chunks.flatten
  | data {counter : Nat} {got chunk : List UInt8} {a : Arrivals UInt8}
      {chunks : List (List UInt8)} (hgot : got.length ≤ chunk.length + 16) (hchunk : Chunk chunk)
      (hchunks : ∀ chunk ∈ chunks, Chunk chunk)
      (hitems : got ++ a.items =
        cipher.encryptPacket counter chunk ++ frames cipher (counter + 1) chunks) :
      Holds ⟨counter, .readingData chunk.length got⟩ a (chunk ++ chunks.flatten)

variable (cipher) in
/-- A poll that loses nothing: it hands out the next bytes, or waits for an
arrival, and answers a caller who has room with no bytes only at the end. -/
def Delivers (a : Arrivals UInt8) (rest : List UInt8) (cap : Nat)
    (polled : Ss2022TcpReader.Polled) : Prop :=
  polled.arrivals.Proper ∧ polled.arrivals.delays ≤ a.delays ∧
    match polled.result with
    | .pending => Holds cipher polled.reader polled.arrivals rest ∧
        polled.arrivals.delays < a.delays
    | .ready bytes => ∃ rest', rest = bytes ++ rest' ∧
        Holds cipher polled.reader polled.arrivals rest' ∧ bytes.length ≤ cap ∧
        (0 < cap → bytes = [] → rest = [] ∧ polled.arrivals.delays = 0)
    | .error => False

/-- A poll after some arrivals. -/
theorem Delivers.of_le {a a' : Arrivals UInt8} {rest : List UInt8} {cap : Nat}
    {polled : Ss2022TcpReader.Polled} (hle : a'.delays ≤ a.delays)
    (h : Delivers cipher a' rest cap polled) : Delivers cipher a rest cap polled := by
  obtain ⟨hproper, hdelays, hresult⟩ := h
  refine ⟨hproper, hdelays.trans hle, ?_⟩
  rcases hres : polled.result with - | bytes | -
  · rw [hres] at hresult
    exact ⟨hresult.1, hresult.2.trans_le hle⟩
  · rw [hres] at hresult
    exact hresult
  · rw [hres] at hresult
    exact hresult

section Poll

variable {a : Arrivals UInt8} {counter : Nat} {chunk got : List UInt8}

theorem delivers_yielding (cap fuel : Nat) {buf : List UInt8} {pos : Nat} (hpos : pos < buf.length)
    (hchunks : ∀ chunk ∈ chunks, Chunk chunk) (hproper : a.Proper)
    (hitems : a.items = frames cipher counter chunks) :
    Delivers cipher a (buf.drop pos ++ chunks.flatten) cap
      (Ss2022TcpReader.pollLoop cipher (fuel + 1) ⟨counter, .yieldingData buf pos⟩ a cap) := by
  simp only [Ss2022TcpReader.pollLoop, Ss2022TcpReader.yieldData]
  refine ⟨hproper, Nat.le_refl _, (buf.drop pos).drop (min (buf.length - pos) cap) ++
    chunks.flatten, ?_, ?_, ?_, ?_⟩
  · rw [← List.append_assoc, List.take_append_drop]
  · split
    · rename_i hend
      have hnil : (buf.drop pos).drop (min (buf.length - pos) cap) = [] := by
        rw [List.drop_drop, List.drop_eq_nil_iff]
        exact hend
      rw [hnil, List.nil_append]
      exact .length (by simp) hchunks hitems
    · rename_i hmore
      rw [List.drop_drop]
      exact .yielding (Nat.lt_of_not_le hmore) hchunks hitems
  · rw [List.length_take]
    omega
  · intro hcap hnil
    have hlen := congrArg List.length hnil
    rw [List.length_take, List.length_drop, List.length_nil] at hlen
    omega

theorem delivers_data (hlawful : cipher.Lawful) (cap fuel : Nat)
    (hgot : got.length ≤ chunk.length + 16) (hchunk : Chunk chunk)
    (hchunks : ∀ chunk ∈ chunks, Chunk chunk) (hproper : a.Proper)
    (hitems : got ++ a.items =
      cipher.encryptPacket counter chunk ++ frames cipher (counter + 1) chunks) :
    Delivers cipher a (chunk ++ chunks.flatten) cap
      (Ss2022TcpReader.pollLoop cipher (fuel + 2) ⟨counter, .readingData chunk.length got⟩ a
        cap) := by
  obtain ⟨hproper', hdelays, hpending, hended, hnotfailed⟩ :=
    fill_arrivals (chunk.length + 16) got hproper
  obtain ⟨hlen, hdone⟩ := length_fill (a := a) hgot
  have hall := fill_append (chunk.length + 16) got a
  rw [hitems] at hall
  have hsealed := hlawful.length_encrypt counter chunk
  rw [Ss2022TcpReader.pollLoop]
  simp only
  rcases hverdict : (fill (chunk.length + 16) got a).verdict with - | - | - | -
  · -- the chunk is complete and opens
    obtain ⟨hchunkItems, hrest⟩ := List.append_inj hall (by rw [hdone.mp hverdict, hsealed])
    simp only [hchunkItems, hlawful.decrypt_encrypt, List.take_length]
    have hpos : 0 < chunk.length := List.length_pos_iff.mpr hchunk.1
    have hyield := delivers_yielding cap fuel hpos hchunks hproper' hrest
    rw [List.drop_zero] at hyield
    exact hyield.of_le hdelays
  · exact ⟨hproper', hdelays, .data hlen hchunk hchunks hall, hpending hverdict⟩
  · exact absurd hverdict hnotfailed
  · -- more than what has arrived is on its way
    have hshort := congrArg List.length hall
    rw [hended hverdict, Arrivals.items_nil, List.append_nil, List.length_append, hsealed] at hshort
    have hfull : (fill (chunk.length + 16) got a).got.length = chunk.length + 16 := by omega
    rw [hdone.mpr hfull] at hverdict
    cases hverdict

theorem delivers_length (hlawful : cipher.Lawful) (cap fuel : Nat) (hgot : got.length ≤ 18)
    (hchunks : ∀ chunk ∈ chunks, Chunk chunk) (hproper : a.Proper)
    (hitems : got ++ a.items = frames cipher counter chunks) :
    Delivers cipher a chunks.flatten cap
      (Ss2022TcpReader.pollLoop cipher (fuel + 3) ⟨counter, .readingLength got⟩ a cap) := by
  obtain ⟨hproper', hdelays, hpending, hended, hnotfailed⟩ :=
    fill_arrivals 18 got hproper
  obtain ⟨hlen, hdone⟩ := length_fill (a := a) hgot
  have hall := fill_append 18 got a
  rw [hitems] at hall
  rw [Ss2022TcpReader.pollLoop]
  simp only
  rcases hverdict : (fill 18 got a).verdict with - | - | - | -
  · cases chunks with
    | nil =>
        have hzero := congrArg List.length hall
        rw [List.length_append, hdone.mp hverdict] at hzero
        simp [frames] at hzero
    | cons chunk chunks =>
        rw [frames, frame, List.append_assoc] at hall
        obtain ⟨hlength, hrest⟩ := List.append_inj hall (by
          rw [hdone.mp hverdict, hlawful.length_encrypt, length_toBeBytes])
        have hchunk := hchunks chunk List.mem_cons_self
        have hpos : 0 < chunk.length := List.length_pos_iff.mpr hchunk.1
        have hwritten : (u16At (toBeBytes 2 chunk.length) 0).toNat = chunk.length := by
          have h := toNat_u16At_toBeBytes (Nat.lt_succ_of_le hchunk.2) []
          rwa [List.append_nil] at h
        simp only [hlength, hlawful.decrypt_encrypt, hwritten, if_neg (Nat.ne_of_gt hpos)]
        have hothers : ∀ other ∈ chunks, Chunk other :=
          fun other hother => hchunks other (List.mem_cons_of_mem _ hother)
        have hnone : ([] : List UInt8).length ≤ chunk.length + 16 := Nat.zero_le _
        exact (delivers_data hlawful cap fuel hnone hchunk hothers hproper' hrest).of_le hdelays
  · exact ⟨hproper', hdelays, .length hlen hchunks hall, hpending hverdict⟩
  · exact absurd hverdict hnotfailed
  · -- the end comes behind the last chunk only
    rw [hended hverdict, Arrivals.items_nil, List.append_nil] at hall
    cases chunks with
    | nil =>
        rw [frames] at hall
        simp only [hall, hended hverdict]
        exact ⟨by simp [Arrivals.Proper], Nat.zero_le _, [], rfl,
          .length (by simp) hchunks rfl, Nat.zero_le _, fun _ _ => ⟨rfl, rfl⟩⟩
    | cons chunk chunks =>
        have hshort := congrArg List.length hall
        rw [frames, frame, List.length_append, List.length_append, hlawful.length_encrypt,
          length_toBeBytes] at hshort
        have hfull : (fill 18 got a).got.length = 18 := by omega
        rw [hdone.mpr hfull] at hverdict
        cases hverdict

end Poll

/-- **Every poll delivers**, whatever has arrived and whatever the caller has
room for. -/
theorem Holds.delivers (hlawful : cipher.Lawful) {r : Ss2022TcpReader} {a : Arrivals UInt8}
    {rest : List UInt8} (h : Holds cipher r a rest) (hproper : a.Proper) (cap : Nat) :
    Delivers cipher a rest cap (r.pollReadDecrypted cipher a cap) := by
  cases h with
  | yielding hpos hchunks hitems => exact delivers_yielding cap _ hpos hchunks hproper hitems
  | length hgot hchunks hitems => exact delivers_length hlawful cap _ hgot hchunks hproper hitems
  | data hgot hchunk hchunks hitems =>
      exact delivers_data hlawful cap _ hgot hchunk hchunks hproper hitems

/-! ### Every run of the reader -/

/-- The reader, with what has not arrived and what was handed out. -/
structure Reading where
  reader : Ss2022TcpReader
  arrivals : Arrivals UInt8
  delivered : List UInt8

namespace Reading

/-- After the handshake, whose last packet may have brought a payload. -/
def new (counter : Nat) (initialPayload : List UInt8) (a : Arrivals UInt8) : Reading :=
  ⟨.new counter initialPayload, a, []⟩

variable (cipher) in
/-- A poll with room for `cap` bytes; `none` if it fails. -/
def step (s : Reading) (cap : Nat) : Option Reading :=
  let polled := s.reader.pollReadDecrypted cipher s.arrivals cap
  match polled.result with
  | .pending => some ⟨polled.reader, polled.arrivals, s.delivered⟩
  | .ready bytes => some ⟨polled.reader, polled.arrivals, s.delivered ++ bytes⟩
  | .error => none

end Reading

variable (cipher) in
/-- `all` is what was handed out and what is still to come. -/
structure Remains (all : List UInt8) (s : Reading) (rest : List UInt8) : Prop where
  split : all = s.delivered ++ rest
  holds : Holds cipher s.reader s.arrivals rest
  proper : s.arrivals.Proper

theorem remains_new {counter : Nat} {payload : List UInt8} {a : Arrivals UInt8}
    (hchunks : ∀ chunk ∈ chunks, Chunk chunk) (hproper : a.Proper)
    (hitems : a.items = frames cipher counter chunks) :
    Remains cipher (payload ++ chunks.flatten) (.new counter payload a)
      (payload ++ chunks.flatten) := by
  refine ⟨rfl, ?_, hproper⟩
  rw [Reading.new, Ss2022TcpReader.new]
  cases payload with
  | nil => exact .length (by simp) hchunks hitems
  | cons byte payload => exact .yielding (Nat.zero_lt_succ payload.length) hchunks hitems

/-- What is left to do: bytes to hand out, and arrivals to wait for. -/
def Reading.todo (s : Reading) (rest : List UInt8) : Nat := rest.length + s.arrivals.delays

/-- A poll hands out or waits; a caller with room comes nearer to the end. -/
theorem Remains.step (hlawful : cipher.Lawful) {all rest : List UInt8} {s : Reading}
    (h : Remains cipher all s rest) (cap : Nat) :
    ∃ s' rest', s.step cipher cap = some s' ∧ Remains cipher all s' rest' ∧
      s'.todo rest' ≤ s.todo rest - (if 0 < cap then 1 else 0) := by
  obtain ⟨hproper, hdelays, hresult⟩ := h.holds.delivers hlawful h.proper cap
  rw [Reading.step]
  rcases hres : (s.reader.pollReadDecrypted cipher s.arrivals cap).result with - | bytes | -
  · rw [hres] at hresult
    refine ⟨_, rest, rfl, ⟨h.split, hresult.1, hproper⟩, ?_⟩
    have hless := hresult.2
    simp only [Reading.todo]
    split <;> omega
  · rw [hres] at hresult
    obtain ⟨rest', hrest, hholds, -, hend⟩ := hresult
    refine ⟨_, rest', rfl, ⟨?_, hholds, hproper⟩, ?_⟩
    · rw [h.split, hrest, List.append_assoc]
    · simp only [Reading.todo]
      have hlen := congrArg List.length hrest
      rw [List.length_append] at hlen
      split
      · rename_i hcap
        rcases hbytes : bytes with - | ⟨byte, bytes'⟩
        · obtain ⟨hnil, hzero⟩ := hend hcap hbytes
          rw [hnil, List.length_nil] at hlen
          omega
        · rw [hbytes, List.length_cons] at hlen
          omega
      · omega
  · rw [hres] at hresult
    exact hresult.elim

theorem Remains.run (hlawful : cipher.Lawful) {all : List UInt8} (caps : List Nat) {s : Reading}
    {rest : List UInt8} (h : Remains cipher all s rest) :
    ∃ s' rest', Run.exec (Reading.step cipher) s caps = some s' ∧ Remains cipher all s' rest' ∧
      s'.todo rest' ≤ s.todo rest - caps.countP (0 < ·) := by
  -- on the polls: each one keeps the split and brings the end nearer
  induction caps generalizing s rest with
  | nil => exact ⟨s, rest, rfl, h, Nat.le_refl _⟩
  | cons cap caps ih =>
      obtain ⟨s₁, rest₁, hstep, h₁, htodo₁⟩ := h.step hlawful cap
      obtain ⟨s₂, rest₂, hrun, h₂, htodo₂⟩ := ih h₁
      refine ⟨s₂, rest₂, Run.exec_cons_eq_some.mpr ⟨s₁, hstep, hrun⟩, h₂, ?_⟩
      rw [List.countP_cons]
      simp only [decide_eq_true_eq]
      omega

/-- At the end, every poll says so. -/
theorem Remains.ended (hlawful : cipher.Lawful) {all rest : List UInt8} {s : Reading}
    (h : Remains cipher all s rest) (htodo : s.todo rest = 0) (cap : Nat) :
    (s.reader.pollReadDecrypted cipher s.arrivals cap).result = .ready [] := by
  obtain ⟨-, -, hresult⟩ := h.holds.delivers hlawful h.proper cap
  rw [Reading.todo] at htodo
  rcases hres : (s.reader.pollReadDecrypted cipher s.arrivals cap).result with - | bytes | -
  · rw [hres] at hresult
    have hless := hresult.2
    omega
  · rw [hres] at hresult
    obtain ⟨rest', hrest, -⟩ := hresult
    have hlen := congrArg List.length hrest
    rw [List.length_append] at hlen
    rw [List.length_eq_zero_iff.mp (show bytes.length = 0 by omega)]
  · rw [hres] at hresult
    exact hresult.elim

/-! ### Both directions -/

/-- **The stream is a lossless channel.**  As long as no call has failed, the
inner stream was given a beginning of the response to the chunks of what was
accepted, each sealed under the next nonces; a flush that is ready leaves
nothing behind; and a reader hands out what the frames hold, whatever the
segments and the room of the caller, and then the end. -/
theorem stream_lossless (hlawful : cipher.Lawful) :
    (∀ responseSalt requestSalt calls s,
      Run.exec (Channel.step cipher) (.new responseSalt requestSalt) calls = some s →
      s.failed = false →
      ∃ time chunks, (∀ chunk ∈ chunks, Chunk chunk) ∧ chunks.flatten = s.accepted ∧
        s.inner <+: response cipher responseSalt requestSalt time chunks ∧
        ∀ answers inner, (s.writer.pollFlush answers inner).result = .ready () →
          s.inner ++ (s.writer.pollFlush answers inner).written =
            response cipher responseSalt requestSalt time chunks) ∧
    (∀ (w : Ss2022TcpWriter) answers inner, (w.pollFlush answers inner).result = .ready () →
      (w.pollFlush answers inner).writer.unsent = []) ∧
    (∀ counter payload chunks (a : Arrivals UInt8) caps, (∀ chunk ∈ chunks, Chunk chunk) →
      a.Proper → a.items = frames cipher counter chunks →
      ∃ s, Run.exec (Reading.step cipher) (.new counter payload a) caps = some s ∧
        s.delivered <+: payload ++ chunks.flatten ∧
        (∀ cap, 0 < cap →
          (s.reader.pollReadDecrypted cipher s.arrivals cap).result = .ready [] →
            s.delivered = payload ++ chunks.flatten) ∧
        ((payload ++ chunks.flatten).length + a.delays ≤ caps.countP (0 < ·) →
          s.delivered = payload ++ chunks.flatten ∧
            ∀ cap, (s.reader.pollReadDecrypted cipher s.arrivals cap).result = .ready [])) := by
  refine ⟨?_, ?_, ?_⟩
  · intro responseSalt requestSalt calls s hrun hok
    obtain ⟨time, chunks, hcarries⟩ := carries_run hrun hok
    refine ⟨time, chunks, hcarries.sized, hcarries.accepted, ⟨_, hcarries.sending.sent⟩, ?_⟩
    intro answers inner hready
    obtain ⟨hsending, hempty⟩ := hcarries.sending.flush answers inner
    rw [← hsending.sent, hempty hready, List.append_nil]
  · intro w answers inner hready
    obtain ⟨-, ⟨-, hnot⟩ | ⟨hwriter, -⟩⟩ := pollFlush_cases w answers inner
    · exact absurd hready hnot
    · rw [hwriter]
      rfl
  · intro counter payload chunks a caps hchunks hproper hitems
    have hnew : Remains cipher (payload ++ chunks.flatten) (.new counter payload a)
        (payload ++ chunks.flatten) := remains_new hchunks hproper hitems
    obtain ⟨s, rest, hrun, hremains, htodo⟩ := hnew.run hlawful caps
    refine ⟨s, hrun, ⟨rest, hremains.split.symm⟩, ?_, ?_⟩
    · intro cap hcap heof
      obtain ⟨-, -, hresult⟩ := hremains.holds.delivers hlawful hremains.proper cap
      rw [heof] at hresult
      obtain ⟨rest', -, -, -, hend⟩ := hresult
      rw [hremains.split, (hend hcap rfl).1, List.append_nil]
    · intro henough
      have hzero : s.todo rest = 0 := by
        simp only [Reading.todo, Reading.new] at htodo
        rw [Reading.todo]
        omega
      refine ⟨?_, hremains.ended hlawful hzero⟩
      rw [Reading.todo] at hzero
      rw [hremains.split, List.length_eq_zero_iff.mp (show rest.length = 0 by omega),
        List.append_nil]

/-! ### A session -/

/-- The packets of a session: the header of a response to the stream with salt
`[80, .., 95]`, made at second 1700000000, and chunks `hi` and `yo`. -/
def sessionPackets : List (TableCipher.Entry Nat) :=
  [⟨0, [1, 0, 0, 0, 0, 101, 83, 241, 0, 80, 81, 82, 83, 84, 85, 86, 87, 88, 89, 90, 91, 92, 93, 94,
      95, 0, 2],
    [126, 136, 68, 18, 248, 138, 212, 186, 211, 104, 123, 196, 122, 224, 254, 103, 151, 12, 9, 189,
      213, 120, 173, 1, 80, 237, 67, 143, 62, 253, 85, 53, 94, 173, 69, 169, 165, 170, 186, 29, 78,
      77, 123]⟩,
   ⟨1, [104, 105],
    [144, 215, 183, 57, 88, 101, 115, 40, 204, 240, 15, 42, 94, 247, 46, 79, 140, 48]⟩,
   ⟨2, [0, 2], [232, 5, 90, 135, 114, 59, 251, 41, 126, 49, 189, 102, 77, 164, 142, 170, 207, 56]⟩,
   ⟨3, [121, 111],
    [250, 123, 217, 230, 241, 177, 90, 63, 248, 58, 3, 202, 112, 1, 231, 19, 117, 111]⟩]

def sessionCipher : TcpCipher :=
  ⟨TableCipher.encrypt sessionPackets, TableCipher.decrypt sessionPackets⟩

theorem sessionCipher_lawful : sessionCipher.Lawful :=
  ⟨TableCipher.decrypt_encrypt (by decide), TableCipher.length_encrypt (by decide)⟩

def sessionSalt : List UInt8 :=
  [96, 97, 98, 99, 100, 101, 102, 103, 104, 105, 106, 107, 108, 109, 110, 111]

def clientSalt : List UInt8 := [80, 81, 82, 83, 84, 85, 86, 87, 88, 89, 90, 91, 92, 93, 94, 95]

/-- The chunk `yo` in two segments, with room for one byte at a time. -/
theorem session_reads :
    ∃ s, Run.exec (Reading.step sessionCipher)
        (.new 2 [] [none, some ((frames sessionCipher 2 [[121, 111]]).take 20),
          some ((frames sessionCipher 2 [[121, 111]]).drop 20)]) [1, 1, 1, 1] = some s ∧
      s.delivered = [121, 111] := by
  obtain ⟨s, hrun, -, -, hall⟩ := (stream_lossless sessionCipher_lawful).2.2 2 [] [[121, 111]]
    [none, some ((frames sessionCipher 2 [[121, 111]]).take 20),
      some ((frames sessionCipher 2 [[121, 111]]).drop 20)] [1, 1, 1, 1]
    (by simp [Chunk, ss2022MaxChunkLen]) (by unfold Arrivals.Proper; decide) (by decide)
  exact ⟨s, hrun, (hall (by decide)).1⟩

/-- The inner stream takes nothing, so the call fails; a later flush sends the
chunk that the caller was told is not written. -/
theorem zero_write_leaves_chunk :
    ∃ s, Run.exec (Channel.step sessionCipher) (.new sessionSalt clientSalt)
        [.write [104, 105] (some 1700000000) [.some 0],
          .flush [.some 100] (.ready ())] = some s ∧
      s.accepted = [] ∧
      ¬ ∃ time chunks, (∀ chunk ∈ chunks, Chunk chunk) ∧ chunks.flatten = s.accepted ∧
        s.inner <+: response sessionCipher sessionSalt clientSalt time chunks := by
  refine ⟨_, rfl, rfl, ?_⟩
  rintro ⟨time, chunks, hchunks, hnone, hprefix⟩
  cases chunks with
  | nil => exact absurd (List.prefix_nil.mp hprefix) (by decide)
  | cons chunk chunks =>
      have hempty : chunk = [] := by
        rw [List.flatten_cons] at hnone
        exact (List.append_eq_nil_iff.mp hnone).1
      exact (hchunks chunk List.mem_cons_self).1 hempty

end Shadowsocks

end Elise
