/-
Elise/Transport/ResponseHead.lean

The head of the response in front of what is written (`poll_write`, `poll_flush` and
`poll_shutdown` in src/transport/tcp.rs).

What the inner stream has been given is the head as far as the cursor goes, and behind all
of it the bytes of the callers (`Sent`).  Three things can go wrong.  The length of the
head of the request depends on the segments (Lossless.lean); the loop over the head of the
response goes on as long as the inner stream takes nothing (`returns_drainHead_iff`); and
`poll_shutdown` does not look whether the head has been sent.
-/
import Elise.Transport.Lossless

namespace Elise

namespace Camouflage

namespace HttpCamouflageStream

/-! ### Calls -/

/-- A call, with the answers of the inner stream. -/
inductive WriteCall where
  | write (buf : List UInt8) (answers : Nat → Poll.Wrote)
  | flush (answers : Nat → Poll.Wrote) (flushed : Poll.Result Unit)
  | shutdown (down : Poll.Result Unit)

/-- The bytes of the caller that are accepted, and whether a flush or a shutdown is done. -/
structure Written where
  accepted : List UInt8
  finished : Bool
  stream : HttpCamouflageStream

def isReady {β : Type} : Poll.Result β → Bool
  | .ready _ => true
  | _ => false

def WriteCall.run (fuel : Nat) (s : HttpCamouflageStream) : WriteCall → Option Written
  | .write buf answers =>
      (s.pollWrite fuel buf answers).map fun (result, s) =>
        match result with
        | .ready n => ⟨buf.take n, false, s⟩
        | _ => ⟨[], false, s⟩
  | .flush answers flushed =>
      (s.pollFlush fuel answers flushed).map fun (result, s) => ⟨[], isReady result, s⟩
  | .shutdown down =>
      let (result, s) := s.pollShutdown down
      some ⟨[], isReady result, s⟩

/-- The call returns. -/
def WriteCall.Returns (call : WriteCall) (s : HttpCamouflageStream) : Prop :=
  ∃ fuel out, call.run fuel s = some out

/-- What is sent is a prefix of the head and the accepted bytes, each call returns, and none
says that it is done before the head has been sent. -/
def Orderly (head : List UInt8) : HttpCamouflageStream → (accepted : List UInt8) → List WriteCall → Prop
  | s, accepted, [] => s.sent <+: head ++ accepted
  | s, accepted, call :: calls =>
      s.sent <+: head ++ accepted ∧ call.Returns s ∧
        ∀ fuel out, call.run fuel s = some out →
          (out.finished = true → head <+: out.stream.sent) ∧
            Orderly head out.stream (accepted ++ out.accepted) calls

/-! ### When that is so -/

/-- What is left of the head. -/
def left (s : HttpCamouflageStream) : List UInt8 :=
  match s.pendingResponse with
  | some resp => resp.drop s.pendingRespCursor
  | none => []

/-- What a call needs. -/
def WriteCall.Fits (s : HttpCamouflageStream) : WriteCall → Prop
  | .write _ answers | .flush answers _ => ¬ Poll.Stalls answers 0 s.left.length
  | .shutdown down => isReady down = true → s.left = []

/-- All calls have what they need. -/
def Met : HttpCamouflageStream → List WriteCall → Prop
  | _, [] => True
  | s, call :: calls => call.Fits s ∧ ∀ fuel out, call.run fuel s = some out → Met out.stream calls

/-! ### The loop -/

section

variable {answers : Nat → Poll.Wrote} {fuel k : Nat} {s s' : HttpCamouflageStream} {resp : List UInt8}

theorem left_of_pending (h : s.pendingResponse = some resp) : s.left = resp.drop s.pendingRespCursor := by
  rw [left, h]

/-- Nothing is left: the loop is over. -/
theorem drainHead_of_left_nil (h : s.left = []) :
    drainHead answers (fuel + 1) k s = some (.ready k, { s with pendingResponse := none }) := by
  rw [drainHead]
  cases hpending : s.pendingResponse with
  | none =>
      obtain ⟨_, _, _, pending, _, _⟩ := s
      obtain rfl : pending = none := hpending
      rfl
  | some resp =>
      dsimp only
      rw [left_of_pending hpending, List.drop_eq_nil_iff] at h
      rw [if_neg (Nat.not_lt.mpr h)]

/-- One round of the loop. -/
def advance (s : HttpCamouflageStream) (n : Nat) : HttpCamouflageStream :=
  { s.give s.left n with pendingRespCursor := s.pendingRespCursor + min n s.left.length }

theorem drainHead_of_left_ne_nil (h : s.left ≠ []) :
    drainHead answers (fuel + 1) k s =
      match answers k with
      | .some n => drainHead answers fuel (k + 1) (s.advance n)
      | .error => some (.error, s)
      | .pending => some (.pending, s) := by
  rw [drainHead]
  cases hpending : s.pendingResponse with
  | none => exact absurd (by rw [left, hpending]) h
  | some resp =>
      dsimp only
      have hleft := left_of_pending hpending
      rw [hleft] at h
      rw [if_pos (Nat.not_le.mp (fun hle => h (List.drop_eq_nil_of_le hle))), ← hleft]
      rfl

theorem left_advance (n : Nat) (h : s.left ≠ []) : (s.advance n).left = s.left.drop n := by
  cases hpending : s.pendingResponse with
  | none => exact absurd (by rw [left, hpending]) h
  | some resp =>
      have hpending' : (s.advance n).pendingResponse = some resp := hpending
      rw [left_of_pending hpending', left_of_pending hpending, List.drop_drop, advance,
        left_of_pending hpending]
      dsimp only
      rcases Nat.le_total n (resp.drop s.pendingRespCursor).length with hle | hle
      · rw [Nat.min_eq_left hle]
      · rw [Nat.min_eq_right hle, List.length_drop]
        rw [List.length_drop] at hle
        rw [List.drop_eq_nil_of_le (by omega), List.drop_eq_nil_of_le (by omega)]

/-- The loop asks for the answers that writing what is left asks for. -/
theorem isSome_pour_of_drainHead (h : (drainHead answers fuel k s).isSome = true) :
    (Poll.pour answers fuel k s.left).isSome = true := by
  induction fuel generalizing k s with
  | zero => cases h
  | succ fuel ih =>
      by_cases hleft : s.left = []
      · rw [hleft, Poll.pour_nil]
        rfl
      · rw [drainHead_of_left_ne_nil hleft] at h
        cases hanswer : answers k with
        | pending =>
            rw [Poll.pour_pending hleft hanswer]
            rfl
        | error =>
            rw [Poll.pour_error hleft hanswer]
            rfl
        | some n =>
            rw [hanswer] at h
            rw [Poll.pour_taken hleft hanswer, Option.isSome_map, ← left_advance n hleft]
            exact ih h

theorem isSome_drainHead_of_pour (h : (Poll.pour answers fuel k s.left).isSome = true) :
    (drainHead answers (fuel + 1) k s).isSome = true := by
  induction fuel generalizing k s with
  | zero =>
      -- the loop needs one round more, to see that nothing is left
      by_cases hleft : s.left = []
      · rw [drainHead_of_left_nil hleft]
        rfl
      · obtain ⟨b, buf, hcons⟩ := List.exists_cons_of_ne_nil hleft
        rw [hcons] at h
        cases h
  | succ fuel ih =>
      by_cases hleft : s.left = []
      · rw [drainHead_of_left_nil hleft]
        rfl
      · rw [drainHead_of_left_ne_nil hleft]
        cases hanswer : answers k with
        | pending => rfl
        | error => rfl
        | some n =>
            rw [Poll.pour_taken hleft hanswer, Option.isSome_map, ← left_advance n hleft] at h
            exact ih h

/-- **The loop returns exactly when the inner stream does not stall.** -/
theorem returns_drainHead_iff :
    (∃ fuel out, drainHead answers fuel k s = some out) ↔ ¬ Poll.Stalls answers k s.left.length := by
  rw [← Poll.returns_pour_iff]
  constructor
  · rintro ⟨fuel, out, hout⟩
    have hpour := isSome_pour_of_drainHead (Option.isSome_iff_exists.mpr ⟨out, hout⟩)
    exact ⟨fuel, Option.isSome_iff_exists.mp hpour⟩
  · rintro ⟨fuel, out, hout⟩
    have hdrain := isSome_drainHead_of_pour (Option.isSome_iff_exists.mpr ⟨out, hout⟩)
    exact ⟨fuel + 1, Option.isSome_iff_exists.mp hdrain⟩

/-! ### What has been sent -/

/-- The head as far as the cursor goes, and behind all of it the bytes of the callers. -/
def Sent (head : List UInt8) (s : HttpCamouflageStream) (accepted : List UInt8) : Prop :=
  match s.pendingResponse with
  | some resp => resp = head ∧ s.pendingRespCursor ≤ head.length ∧ accepted = [] ∧
      s.sent = head.take s.pendingRespCursor
  | none => s.sent = head ++ accepted

variable {head accepted : List UInt8}

theorem Sent.of_none (h : Sent head s accepted) (hpending : s.pendingResponse = none) :
    s.sent = head ++ accepted := by
  rw [Sent, hpending] at h
  exact h

theorem Sent.isPrefix (h : Sent head s accepted) : s.sent <+: head ++ accepted := by
  cases hpending : s.pendingResponse with
  | none =>
      rw [h.of_none hpending]
  | some resp =>
      rw [Sent, hpending] at h
      obtain ⟨-, -, -, hsent⟩ := h
      rw [hsent]
      exact (List.take_prefix _ _).trans (List.prefix_append _ _)

/-- The head has been sent when nothing of it is left. -/
theorem Sent.head_prefix_iff (h : Sent head s accepted) : head <+: s.sent ↔ s.left = [] := by
  cases hpending : s.pendingResponse with
  | none =>
      rw [h.of_none hpending, left, hpending]
      exact iff_of_true (List.prefix_append _ _) rfl
  | some resp =>
      rw [Sent, hpending] at h
      obtain ⟨rfl, hcursor, -, hsent⟩ := h
      rw [left_of_pending hpending, hsent, List.drop_eq_nil_iff]
      constructor
      · intro hprefix
        have hle := hprefix.length_le
        rw [List.length_take] at hle
        omega
      · intro hle
        rw [List.take_of_length_le hle]

/-- What a round sends is the next part of the head. -/
theorem Sent.advance (h : Sent head s accepted) (hleft : s.left ≠ []) (n : Nat) :
    Sent head (s.advance n) accepted := by
  cases hpending : s.pendingResponse with
  | none => exact absurd (by rw [left, hpending]) hleft
  | some resp =>
      have hpending' : (s.advance n).pendingResponse = some resp := hpending
      rw [Sent, hpending] at h
      obtain ⟨rfl, hcursor, haccepted, hsent⟩ := h
      rw [Sent, hpending']
      have hcursor' : (s.advance n).pendingRespCursor = s.pendingRespCursor + min n (resp.length - s.pendingRespCursor) := by
        rw [HttpCamouflageStream.advance, left_of_pending hpending]
        dsimp only
        rw [List.length_drop]
      refine ⟨rfl, by omega, haccepted, ?_⟩
      rw [hcursor', List.take_add, ← hsent, HttpCamouflageStream.advance, left_of_pending hpending]
      dsimp only
      rw [give]
      dsimp only
      have hmin := @List.take_eq_take_min _ (resp.drop s.pendingRespCursor) n
      rw [List.length_drop] at hmin
      rw [hmin]

/-- The loop keeps what has been sent in order, and leaves nothing of the head when it is over. -/
theorem Sent.drainHead {result : Poll.Result Nat} (h : Sent head s accepted)
    (hrun : drainHead answers fuel k s = some (result, s')) :
    Sent head s' accepted ∧ (isReady result = true → s'.pendingResponse = none) := by
  induction fuel generalizing k s with
  | zero => cases hrun
  | succ fuel ih =>
      by_cases hleft : s.left = []
      · rw [drainHead_of_left_nil hleft] at hrun
        obtain ⟨-, rfl⟩ := Prod.mk.inj (Option.some.inj hrun)
        refine ⟨?_, fun _ => rfl⟩
        show s.sent = head ++ accepted
        cases hpending : s.pendingResponse with
        | none => exact h.of_none hpending
        | some resp =>
            rw [Sent, hpending] at h
            obtain ⟨rfl, -, rfl, hsent⟩ := h
            rw [left_of_pending hpending, List.drop_eq_nil_iff] at hleft
            rw [hsent, List.take_of_length_le hleft, List.append_nil]
      · rw [drainHead_of_left_ne_nil hleft] at hrun
        split at hrun
        · exact ih (h.advance hleft _) hrun
        · obtain ⟨rfl, rfl⟩ := Prod.mk.inj (Option.some.inj hrun)
          exact ⟨h, fun hready => nomatch hready⟩
        · obtain ⟨rfl, rfl⟩ := Prod.mk.inj (Option.some.inj hrun)
          exact ⟨h, fun hready => nomatch hready⟩

/-! ### Calls -/

theorem Sent.give (h : Sent head s accepted) (hpending : s.pendingResponse = none) (buf : List UInt8) (n : Nat) :
    Sent head (s.give buf n) (accepted ++ buf.take n) := by
  have hpending' : (s.give buf n).pendingResponse = none := hpending
  rw [Sent, hpending']
  show s.sent ++ buf.take n = head ++ (accepted ++ buf.take n)
  rw [h.of_none hpending, List.append_assoc]

/-- **A call keeps what has been sent in order.** -/
theorem Sent.run {call : WriteCall} {out : Written} (h : Sent head s accepted)
    (hrun : call.run fuel s = some out) : Sent head out.stream (accepted ++ out.accepted) := by
  cases call with
  | write buf answers =>
      obtain ⟨⟨result, s'⟩, hwrite, rfl⟩ := Option.map_eq_some_iff.mp hrun
      obtain ⟨⟨drained, t⟩, hdrain, hresult⟩ := Option.map_eq_some_iff.mp hwrite
      obtain ⟨hsent, hnone⟩ := h.drainHead hdrain
      have hsent' : Sent head t (accepted ++ []) := by
        rw [List.append_nil]
        exact hsent
      cases drained with
      | ready k =>
          have hgive := hsent.give (hnone rfl) buf
          dsimp only at hresult
          cases hanswer : answers k with
          | some n =>
              rw [hanswer] at hresult
              obtain ⟨rfl, rfl⟩ := Prod.mk.inj hresult
              dsimp only
              rw [← List.take_eq_take_min]
              exact hgive n
          | error | pending =>
              rw [hanswer] at hresult
              obtain ⟨rfl, rfl⟩ := Prod.mk.inj hresult
              exact hsent'
      | error | pending =>
          obtain ⟨rfl, rfl⟩ := Prod.mk.inj hresult
          exact hsent'
  | flush answers flushed =>
      obtain ⟨⟨result, s'⟩, hflush, rfl⟩ := Option.map_eq_some_iff.mp hrun
      obtain ⟨⟨drained, t⟩, hdrain, hresult⟩ := Option.map_eq_some_iff.mp hflush
      have hsent := (h.drainHead hdrain).1
      dsimp only
      rw [List.append_nil]
      cases drained with
      | ready _ | error | pending =>
          obtain ⟨-, rfl⟩ := Prod.mk.inj hresult
          exact hsent
  | shutdown down =>
      obtain rfl := Option.some.inj hrun
      dsimp only [pollShutdown]
      rw [List.append_nil]
      exact h

theorem run_flush_finished {answers : Nat → Poll.Wrote} {flushed : Poll.Result Unit} {out : Written}
    (h : Sent head s accepted) (hrun : (WriteCall.flush answers flushed).run fuel s = some out)
    (hfinished : out.finished = true) : head <+: out.stream.sent := by
  obtain ⟨⟨result, s'⟩, hflush, rfl⟩ := Option.map_eq_some_iff.mp hrun
  obtain ⟨⟨drained, t⟩, hdrain, hresult⟩ := Option.map_eq_some_iff.mp hflush
  obtain ⟨hsent, hnone⟩ := h.drainHead hdrain
  cases drained with
  | ready k =>
      obtain ⟨-, rfl⟩ := Prod.mk.inj hresult
      dsimp only
      rw [hsent.of_none (hnone rfl)]
      exact List.prefix_append _ _
  | error | pending =>
      obtain ⟨rfl, rfl⟩ := Prod.mk.inj hresult
      cases hfinished

theorem returns_write_iff {buf : List UInt8} :
    (WriteCall.write buf answers).Returns s ↔ ¬ Poll.Stalls answers 0 s.left.length := by
  rw [← returns_drainHead_iff]
  constructor
  · rintro ⟨fuel, out, hout⟩
    obtain ⟨_, hwrite, -⟩ := Option.map_eq_some_iff.mp hout
    obtain ⟨drained, hdrain, -⟩ := Option.map_eq_some_iff.mp hwrite
    exact ⟨fuel, drained, hdrain⟩
  · rintro ⟨fuel, out, hout⟩
    refine ⟨fuel, ?_⟩
    rw [WriteCall.run, pollWrite, hout]
    exact ⟨_, rfl⟩

theorem returns_flush_iff {flushed : Poll.Result Unit} :
    (WriteCall.flush answers flushed).Returns s ↔ ¬ Poll.Stalls answers 0 s.left.length := by
  rw [← returns_drainHead_iff]
  constructor
  · rintro ⟨fuel, out, hout⟩
    obtain ⟨_, hflush, -⟩ := Option.map_eq_some_iff.mp hout
    obtain ⟨drained, hdrain, -⟩ := Option.map_eq_some_iff.mp hflush
    exact ⟨fuel, drained, hdrain⟩
  · rintro ⟨fuel, out, hout⟩
    refine ⟨fuel, ?_⟩
    rw [WriteCall.run, pollFlush, hout]
    exact ⟨_, rfl⟩

/-- One call is in order when it has what it needs. -/
theorem fits_iff (h : Sent head s accepted) (call : WriteCall) :
    call.Fits s ↔ call.Returns s ∧
      ∀ fuel out, call.run fuel s = some out → out.finished = true → head <+: out.stream.sent := by
  cases call with
  | write buf answers =>
      rw [returns_write_iff, WriteCall.Fits]
      refine (and_iff_left ?_).symm
      intro fuel out hrun hfinished
      obtain ⟨⟨result, s'⟩, -, rfl⟩ := Option.map_eq_some_iff.mp hrun
      cases result <;> cases hfinished
  | flush answers flushed =>
      rw [returns_flush_iff, WriteCall.Fits]
      exact (and_iff_left fun fuel out hrun hfinished => run_flush_finished h hrun hfinished).symm
  | shutdown down =>
      rw [WriteCall.Fits, ← h.head_prefix_iff]
      constructor
      · intro hfits
        refine ⟨⟨0, _, rfl⟩, ?_⟩
        intro fuel out hrun hfinished
        obtain rfl := Option.some.inj hrun
        exact hfits hfinished
      · intro hall hready
        exact hall.2 0 _ rfl hready

/-- **The calls are in order exactly when all of them have what they need.** -/
theorem orderly_iff (h : Sent head s accepted) (calls : List WriteCall) :
    Orderly head s accepted calls ↔ Met s calls := by
  induction calls generalizing s accepted with
  | nil => exact iff_of_true h.isPrefix trivial
  | cons call calls ih =>
      rw [Orderly, Met, fits_iff h call]
      constructor
      · rintro ⟨-, hreturns, hcalls⟩
        exact ⟨⟨hreturns, fun fuel out hrun => (hcalls fuel out hrun).1⟩,
          fun fuel out hrun => (ih (h.run hrun)).mp (hcalls fuel out hrun).2⟩
      · rintro ⟨⟨hreturns, hfinished⟩, hmet⟩
        exact ⟨h.isPrefix, hreturns,
          fun fuel out hrun => ⟨hfinished fuel out hrun, (ih (h.run hrun)).mpr (hmet fuel out hrun)⟩⟩

end

end HttpCamouflageStream

open HttpCamouflageStream

/-- The stream after a handshake has sent nothing. -/
theorem sent_serverHandshake {inner : ByteStream} {config : TcpTransportConfig} {nowSec : Nat}
    {stream : HttpCamouflageStream} (h : serverHandshake inner config nowSec = .ok stream) :
    Sent (buildHttpResponseHeader config.response nowSec) stream [] ∧
      stream.left = buildHttpResponseHeader config.response nowSec := by
  rw [serverHandshake] at h
  split at h
  · cases h
  · split at h
    · cases h
    · obtain rfl := Except.ok.inj h
      exact ⟨⟨rfl, Nat.zero_le _, rfl, rfl⟩, rfl⟩

/-- **When the camouflage is lossless.**  The head of the request is settled, no call is made
to an inner stream that takes nothing any more of what is left of the head of the response,
and no shutdown is done while something of it is left. -/
theorem lossless_iff (config : TcpTransportConfig) (nowSec : Nat) (bytes : List UInt8) (calls : List WriteCall) :
    (Transparent config nowSec bytes ∧
      ∀ (inner : ByteStream) (stream : HttpCamouflageStream), inner.bytes = bytes →
        serverHandshake inner config nowSec = .ok stream →
          Orderly (buildHttpResponseHeader config.response nowSec) stream [] calls) ↔
      Settled config bytes ∧
        ∀ (inner : ByteStream) (stream : HttpCamouflageStream), inner.bytes = bytes →
          serverHandshake inner config nowSec = .ok stream → Met stream calls := by
  rw [transparent_iff]
  refine and_congr_right fun _ => forall_congr' fun inner => forall_congr' fun stream => ?_
  exact forall_congr' fun _ => forall_congr' fun hok => orderly_iff (sent_serverHandshake hok).1 calls

/-! ### Small requests and long ones -/

def plainConfig : TcpTransportConfig := ⟨none, none⟩

def requestLine : List Char := "GET / HTTP/1.1".toList

/-- If nothing is expected, a request line is enough. -/
theorem validate_requestLine (more : List Char) :
    validateHttpRequest (Text.toUtf8 (requestLine ++ '\r' :: '\n' :: more)) none = .ok () := by
  have hline : Lines.split '\r' '\n' requestLine = [requestLine] := by decide
  have hwords : Text.splitWhitespace requestLine = ["GET".toList, "/".toList, "HTTP/1.1".toList] := by decide
  rw [validateHttpRequest, Text.fromUtf8_toUtf8]
  dsimp only
  rw [Lines.split_append (by decide), hline, List.singleton_append]
  dsimp only
  rw [hwords]
  rfl

/-- A request without headers. -/
def plainRequest : List UInt8 := Text.toUtf8 (requestLine ++ '\r' :: '\n' :: ['\r', '\n'])

/-- A request with a line of `n` characters behind the first one. -/
def longRequest (n : Nat) : List UInt8 :=
  Text.toUtf8 (requestLine ++ '\r' :: '\n' :: (List.replicate n 'A' ++ ['\r', '\n', '\r', '\n']))

theorem longRequest_eq (n : Nat) :
    longRequest n = Lines.headOf 13 10 [Text.toUtf8 requestLine, List.replicate n 65] := by
  have hlong : Text.toUtf8 (List.replicate n 'A') = List.replicate n 65 := by
    have hascii : ∀ c ∈ List.replicate n 'A', c.toNat < 128 := by
      intro c hc
      rw [List.eq_of_mem_replicate hc]
      decide
    rw [Text.toUtf8_ascii hascii, List.map_replicate]
    rfl
  have hends : Text.toUtf8 ['\r', '\n', '\r', '\n'] = [13, 10, 13, 10] := by decide
  have hend : ∀ more, Text.toUtf8 ('\r' :: '\n' :: more) = 13 :: 10 :: Text.toUtf8 more := fun _ => rfl
  rw [longRequest, Text.toUtf8_append, hend, Text.toUtf8_append, hlong, hends]
  simp [Lines.headOf, Lines.joined, List.intercalate]

theorem length_joined (n : Nat) :
    (Lines.joined 13 10 [Text.toUtf8 requestLine, List.replicate n 65]).length = 16 + n := by
  have hfirst : (Text.toUtf8 requestLine).length = 14 := by decide
  simp [Lines.joined, List.intercalate, hfirst]
  omega

theorem length_longRequest (n : Nat) : (longRequest n).length = 16 + n + 4 := by
  rw [longRequest_eq, Lines.headOf, List.length_append, length_joined]
  rfl

theorem find_longRequest (n : Nat) (hpos : 0 < n) : Lines.find doubleCrlf (longRequest n) = some (16 + n) := by
  have hline : Lines.IsLine 13 10 (Text.toUtf8 requestLine) := by decide
  have hhead : Lines.IsHead 13 10 [Text.toUtf8 requestLine, List.replicate n 65] := by
    refine ⟨List.cons_ne_nil _ _, ?_⟩
    intro l hl
    rcases List.mem_cons.mp hl with rfl | hl
    · exact ⟨by decide, hline⟩
    · obtain rfl := List.mem_singleton.mp hl
      refine ⟨List.ne_nil_of_length_pos (by rw [List.length_replicate]; exact hpos), ?_⟩
      apply Lines.isLine_of_not_mem
      intro hmem
      have heq := List.eq_of_mem_replicate hmem
      exact absurd heq (by decide)
  have hall : longRequest n ++ [] = Lines.headOf 13 10 [Text.toUtf8 requestLine, List.replicate n 65] ++ [] := by
    rw [longRequest_eq]
  have hends : doubleCrlf = [13, 10, 13, 10] := rfl
  rw [hends, Lines.find_headOf (by decide) hhead hall, longRequest_eq, if_pos (Nat.le_refl _),
    length_joined]

theorem buildHttpResponseHeader_ne_nil (config : Option TcpHttpResponseConfig) (nowSec : Nat) :
    buildHttpResponseHeader config nowSec ≠ [] := by
  have hend : Text.toUtf8 crlf ≠ [] := by decide
  unfold buildHttpResponseHeader
  dsimp only
  rw [Text.toUtf8_append]
  exact List.append_ne_nil_of_right_ne_nil _ hend

theorem total_zero (k count : Nat) : Poll.total (fun _ => .some 0) k count = 0 := by
  induction count generalizing k with
  | zero => rfl
  | succ count ih => exact (Nat.zero_add _).trans (ih (k + 1))

/-- A shutdown in front of the response, an inner stream that takes nothing, and a head of
8212 bytes. -/
theorem not_lossless :
    (∃ (inner : ByteStream) (stream : HttpCamouflageStream), inner.bytes = plainRequest ∧
      serverHandshake inner plainConfig 0 = .ok stream ∧
      ¬ Orderly (buildHttpResponseHeader none 0) stream [] [.shutdown (.ready ())] ∧
      ¬ Orderly (buildHttpResponseHeader none 0) stream [] [.flush (fun _ => .some 0) (.ready ())]) ∧
      ¬ Transparent plainConfig 0 (longRequest 8192) := by
  have hhead := buildHttpResponseHeader_ne_nil none 0
  constructor
  · have hne : plainRequest ≠ [] := by decide
    have hbytes : (ByteStream.single plainRequest hne).bytes = plainRequest := List.append_nil _
    have hfind : Lines.find doubleCrlf plainRequest = some 14 := by decide
    have hnone : Lines.find doubleCrlf [] = none := rfl
    obtain ⟨found, hfound⟩ :=
      headLoop_of_short hfind (by decide) ((List.nil_append _).trans hbytes) hnone
    have hpos := (found_of_headLoop hfound).1
    rw [hbytes, hfind] at hpos
    have hok : (serverHandshake (ByteStream.single plainRequest hne) plainConfig 0).isOk = true := by
      have htake : plainRequest.take (14 + 4) = plainRequest := by decide
      rw [isOk_serverHandshake_of_ok hfound, hbytes, ← Option.some.inj hpos, htake, plainRequest, plainConfig,
        validate_requestLine]
      rfl
    cases hstream : serverHandshake (ByteStream.single plainRequest hne) plainConfig 0 with
    | error e =>
        rw [hstream] at hok
        cases hok
    | ok stream =>
        have hsent : Sent (buildHttpResponseHeader none 0) stream [] := (sent_serverHandshake hstream).1
        have hleft : stream.left = buildHttpResponseHeader none 0 := (sent_serverHandshake hstream).2
        refine ⟨_, stream, hbytes, hstream, ?_, ?_⟩
        · rw [orderly_iff hsent]
          rintro ⟨hfits, -⟩
          exact hhead (hleft.symm.trans (hfits rfl))
        · rw [orderly_iff hsent]
          rintro ⟨hfits, -⟩
          apply hfits
          intro count
          refine ⟨⟨0, rfl⟩, ?_⟩
          rw [total_zero, hleft]
          exact List.length_pos_iff.mpr hhead
  · rw [transparent_iff]
    intro hsettled
    have hfind := find_longRequest 8192 (by decide)
    have hvalid := hsettled _ hfind (by decide) (by decide)
    have htake : (longRequest 8192).take (16 + 8192 + 4) = longRequest 8192 :=
      List.take_of_length_le (length_longRequest 8192).le
    rw [htake, longRequest, plainConfig, validate_requestLine] at hvalid
    cases hvalid

end Camouflage

end Elise
