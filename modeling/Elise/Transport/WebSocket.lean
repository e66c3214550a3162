/-
Elise/Transport/WebSocket.lean

A stream over WebSocket messages (`WebSocketStreamWrapper` in src/transport/websocket.rs).

A read hands out what is left of a binary message, or asks for the next one.  Pings and
pongs are passed over, and so is a message without bytes, which would look like the end.
A write becomes one message of at most 16384 bytes, and is accepted when the socket has
taken it.  So whatever one end accepts, the other hands out behind the early data of the
handshake, however the writes and the reads are cut (`websocket_channel`).

The socket is the environment: the messages that come, and whether it takes one.  The handshake, which
tells the early data, is not modelled.
-/
import Elise.Lib.FrameReader

namespace Elise

namespace Transport

namespace WebSocket

open Poll Serving FrameReader

/-! ### The stream -/

/-- A message of the socket; of texts and raw frames only the kind is looked at. -/
inductive Message where
  | binary (data : List UInt8)
  | ping
  | pong
  | close
  | text
  | frame
  deriving DecidableEq, Repr

/-- What the socket answers when it is asked for a message; at last there is none. -/
inductive Recv where
  | pending
  | message (m : Message)
  | error
  deriving DecidableEq, Repr

/-- The loop of `poll_read`: `buffered`, and what the socket will answer. -/
def readLoop (cap : Nat) : List Recv → List UInt8 → Result (List UInt8) × List UInt8 × List Recv
  | recvs, b :: buffered => (.ready ((b :: buffered).take cap), (b :: buffered).drop cap, recvs)
  | [], [] => (.ready [], [], [])
  | .pending :: recvs, [] => (.pending, [], recvs)
  | .error :: recvs, [] => (.error, [], recvs)
  | .message (.binary data) :: recvs, [] => readLoop cap recvs data
  | .message .ping :: recvs, [] => readLoop cap recvs []
  | .message .pong :: recvs, [] => readLoop cap recvs []
  | .message .close :: recvs, [] => (.ready [], [], recvs)
  -- "Expected binary WebSocket frame in transport"
  | .message .text :: recvs, [] => (.error, [], recvs)
  | .message .frame :: recvs, [] => (.error, [], recvs)

def pollRead (r : List UInt8 × List Recv) (cap : Nat) : Result (List UInt8) × List UInt8 × List Recv :=
  if cap = 0 then (.ready [], r) else readLoop cap r.2 r.1

/-- Whether the socket is ready for a message, and takes it. -/
inductive Sink where
  | pending
  | error
  | takes
  deriving DecidableEq, Repr

/-- `poll_write`: the answer, and the message that the socket has taken. -/
def pollWrite (sink : Sink) (data : List UInt8) : Result Nat × Option (List UInt8) :=
  if data.isEmpty then (.ready 0, none)
  else
    match sink with
    | .pending => (.pending, none)
    | .error => (.error, none)
    | .takes => (.ready (min data.length 16384), some (data.take (min data.length 16384)))

/-! ### What comes -/

/-- The messages that come hold `data` and end with `e`, and the socket is not ready `n` times. -/
inductive Comes : List Recv → (data : List UInt8) → (n : Nat) → (e : Ending) → Prop
  | ended : Comes [] [] 0 .eof
  | closed : Comes [.message .close] [] 0 .eof
  | pending {recvs data n e} : Comes recvs data n e → Comes (.pending :: recvs) data (n + 1) e
  | ping {recvs data n e} : Comes recvs data n e → Comes (.message .ping :: recvs) data n e
  | pong {recvs data n e} : Comes recvs data n e → Comes (.message .pong :: recvs) data n e
  | binary (payload : List UInt8) {recvs data n e} :
      Comes recvs data n e → Comes (.message (.binary payload) :: recvs) (payload ++ data) n e
  | failed {recvs} : Comes (.error :: recvs) [] 0 .broken
  | text {recvs} : Comes (.message .text :: recvs) [] 0 .broken
  | frame {recvs} : Comes (.message .frame :: recvs) [] 0 .broken

/-- What is left of the last message stands before what comes. -/
def Holds (r : List UInt8 × List Recv) (rest : List UInt8) (n : Nat) (e : Ending) : Prop :=
  ∃ data, Comes r.2 data n e ∧ rest = r.1 ++ data

variable {recvs : List Recv} {data : List UInt8} {n cap : Nat} {e : Ending}

theorem readLoop_buffered (h : Comes recvs data n e) (hcap : 0 < cap) {buffered : List UInt8} (hne : buffered ≠ []) :
    Answered Holds (buffered ++ data) n e cap (readLoop cap recvs buffered) := by
  obtain ⟨b, buffered, rfl⟩ := List.exists_cons_of_ne_nil hne
  have hloop : readLoop cap recvs (b :: buffered) =
      (.ready ((b :: buffered).take cap), (b :: buffered).drop cap, recvs) := by
    rw [readLoop.eq_def]
  rw [hloop]
  exact answered_take hcap hne ⟨data, h, rfl⟩

/-- A poll hands out what is left, or goes on to the next bytes. -/
theorem readLoop_answered (h : Comes recvs data n e) (hcap : 0 < cap) (buffered : List UInt8) :
    Answered Holds (buffered ++ data) n e cap (readLoop cap recvs buffered) := by
  induction h generalizing buffered with
  | ended =>
      by_cases hne : buffered = []
      · subst hne
        exact ⟨[], 0, Nat.le_refl _, rfl, Nat.zero_le _, ⟨[], .ended, rfl⟩, fun _ _ => ⟨rfl, rfl, rfl⟩⟩
      · exact readLoop_buffered .ended hcap hne
  | closed =>
      by_cases hne : buffered = []
      · subst hne
        exact ⟨[], 0, Nat.le_refl _, rfl, Nat.zero_le _, ⟨[], .ended, rfl⟩, fun _ _ => ⟨rfl, rfl, rfl⟩⟩
      · exact readLoop_buffered .closed hcap hne
  | pending hrest ih =>
      by_cases hne : buffered = []
      · subst hne
        exact ⟨_, Nat.lt_succ_self _, _, hrest, rfl⟩
      · exact readLoop_buffered hrest.pending hcap hne
  | ping hrest ih =>
      by_cases hne : buffered = []
      · subst hne
        exact ih []
      · exact readLoop_buffered hrest.ping hcap hne
  | pong hrest ih =>
      by_cases hne : buffered = []
      · subst hne
        exact ih []
      · exact readLoop_buffered hrest.pong hcap hne
  | binary payload hrest ih =>
      by_cases hne : buffered = []
      · subst hne
        exact ih payload
      · exact readLoop_buffered (hrest.binary payload) hcap hne
  | failed =>
      by_cases hne : buffered = []
      · subst hne
        exact ⟨rfl, rfl⟩
      · exact readLoop_buffered .failed hcap hne
  | text =>
      by_cases hne : buffered = []
      · subst hne
        exact ⟨rfl, rfl⟩
      · exact readLoop_buffered .text hcap hne
  | frame =>
      by_cases hne : buffered = []
      · subst hne
        exact ⟨rfl, rfl⟩
      · exact readLoop_buffered .frame hcap hne

/-- **Every read answers rightly.** -/
theorem serves_pollRead : Serves pollRead Holds := by
  rintro ⟨buffered, recvs⟩ rest n e ⟨data, hcomes, rfl⟩ cap
  rw [pollRead]
  split
  · rename_i hzero
    subst hzero
    exact answered_zero ⟨data, hcomes, rfl⟩
  · rename_i hcap
    exact readLoop_answered hcomes (Nat.pos_of_ne_zero hcap) buffered

/-! ### What is written -/

/-- The messages that some calls of `poll_write` hand over. -/
def messages (calls : List (Sink × List UInt8)) : List (List UInt8) :=
  calls.filterMap fun call => (pollWrite call.1 call.2).2

/-- What the calls say that they have written. -/
def accepted (calls : List (Sink × List UInt8)) : List UInt8 :=
  (calls.map fun call =>
    match (pollWrite call.1 call.2).1 with
    | .ready count => call.2.take count
    | _ => []).flatten

/-- **A call is as good as its word**: what it says is written is a message, and there is no other. -/
theorem flatten_messages (calls : List (Sink × List UInt8)) : (messages calls).flatten = accepted calls := by
  induction calls with
  | nil => rfl
  | cons call calls ih =>
      obtain ⟨sink, data⟩ := call
      rw [accepted, messages] at ih
      rw [accepted, messages, List.map_cons, List.flatten_cons, ← ih, List.filterMap_cons]
      by_cases hempty : data.isEmpty
      · simp [pollWrite, List.isEmpty_iff.mp hempty]
      · cases sink <;> simp [pollWrite, hempty]

/-- No message is empty, or longer than the socket of the other end takes. -/
theorem length_message {calls : List (Sink × List UInt8)} {m : List UInt8} (h : m ∈ messages calls) :
    0 < m.length ∧ m.length ≤ 16384 := by
  obtain ⟨⟨sink, data⟩, -, hm⟩ := List.mem_filterMap.mp h
  simp only [pollWrite] at hm
  split at hm
  · cases hm
  · rename_i hne
    have hpos : 0 < data.length := List.length_pos_iff.mpr (by simpa using hne)
    cases sink with
    | pending => cases hm
    | error => cases hm
    | takes =>
        obtain rfl := Option.some.inj hm
        rw [List.length_take]
        omega

/-! ### From one end to the other -/

/-- The stream behind the handshake: without early data, nothing stands in front of it. -/
def opened (early : List UInt8) (recvs : List Recv) : Fronted (List UInt8 × List Recv) UInt8 :=
  ⟨if early.isEmpty then none else some early, 0, [], recvs⟩

theorem holds_opened (early : List UInt8) (hcomes : Comes recvs data n e) :
    Fronted.Holds Holds (opened early recvs) (early ++ data) n e := by
  refine ⟨data, ?_, data, hcomes, rfl⟩
  cases early <;> rfl

/-- What comes are some messages in their order, among which there may be pings and pongs, and at
last the end. -/
def Brings (recvs : List Recv) (sent : List (List UInt8)) : Prop :=
  ∃ body, (recvs = body ∨ recvs = body ++ [.message .close]) ∧
    (∀ recv ∈ body, recv = .pending ∨ recv = .message .ping ∨ recv = .message .pong ∨
      ∃ m, recv = .message (.binary m)) ∧
    (body.filterMap fun
      | .message (.binary m) => some m
      | _ => none) = sent

theorem comes_of_brings {sent : List (List UInt8)} (h : Brings recvs sent) :
    Comes recvs sent.flatten (recvs.count .pending) .eof := by
  obtain ⟨body, hend, hkinds, rfl⟩ := h
  have hcomes : ∀ {tail : List Recv}, tail = [] ∨ tail = [.message .close] →
      Comes (body ++ tail) (body.filterMap fun
        | .message (.binary m) => some m
        | _ => none).flatten ((body ++ tail).count .pending) .eof := by
    intro tail htail
    clear hend
    induction body with
    | nil =>
        rcases htail with rfl | rfl
        · exact .ended
        · exact .closed
    | cons recv body ih =>
        have hrest := ih fun recv' hmem => hkinds recv' (List.mem_cons_of_mem _ hmem)
        rcases hkinds recv List.mem_cons_self with rfl | rfl | rfl | ⟨m, rfl⟩
        · rw [List.cons_append, List.count_cons_self]
          exact hrest.pending
        · rw [List.cons_append, List.count_cons_of_ne (by decide)]
          exact hrest.ping
        · rw [List.cons_append, List.count_cons_of_ne (by decide)]
          exact hrest.pong
        · rw [List.cons_append, List.count_cons_of_ne (by simp)]
          exact hrest.binary m
  rcases hend with rfl | rfl
  · simpa using hcomes (.inl rfl)
  · exact hcomes (.inr rfl)

/-- **A stream over WebSocket messages loses nothing.**  Whatever one end writes and whenever its
socket is ready, and whatever the other end reads: no read fails, and what the reads hand out is the
early data of the handshake and then what the writes said was written, in order, and then the end. -/
theorem websocket_channel (early : List UInt8) (calls : List (Sink × List UInt8)) (recvs : List Recv)
    (caps : List Nat) (hbrings : Brings recvs (messages calls)) :
    ∃ r, Run.exec (Serving.step (Fronted.pollRead pollRead)) ⟨opened early recvs, []⟩ caps = some r ∧
      r.delivered <+: early ++ accepted calls ∧
      (∀ cap, 0 < cap → (Fronted.pollRead pollRead r.reader cap).1 = .ready [] →
        r.delivered = early ++ accepted calls) ∧
      ((early ++ accepted calls).length + recvs.count .pending ≤ caps.countP (0 < ·) →
        r.delivered = early ++ accepted calls ∧
          ∀ cap, (Fronted.pollRead pollRead r.reader cap).1 = .ready []) := by
  have hcomes := comes_of_brings hbrings
  rw [flatten_messages] at hcomes
  exact run_clean (Fronted.serves_pollRead serves_pollRead) caps (holds_opened early hcomes)

/-- Two bytes are written at the second attempt, behind a ping, and read one by one. -/
theorem websocket_channel_ping :
    ∃ r, Run.exec (Serving.step (Fronted.pollRead pollRead))
        ⟨opened [1] [.message .ping, .message (.binary [2, 3]), .message .close], []⟩ [1, 1, 1] = some r ∧
      r.delivered = [1, 2, 3] := by
  obtain ⟨r, hrun, -, -, hall⟩ := websocket_channel [1] [(.pending, [2, 3]), (.takes, [2, 3])]
    [.message .ping, .message (.binary [2, 3]), .message .close] [1, 1, 1]
    ⟨[.message .ping, .message (.binary [2, 3])], .inr rfl, by simp, rfl⟩
  exact ⟨r, hrun, (hall (by decide)).1⟩

/-- **A message that is no bytes breaks the stream** behind the bytes before it, as an error does: the
reads hand out these bytes, never an end, and among enough of them one fails. -/
theorem websocket_broken (early data : List UInt8) (recvs : List Recv) (n : Nat) (caps : List Nat)
    (hcomes : Comes recvs data n .broken) :
    (∀ r, Run.exec (Serving.step (Fronted.pollRead pollRead)) ⟨opened early recvs, []⟩ caps = some r →
      r.delivered <+: early ++ data ∧
      ∀ cap, 0 < cap → (Fronted.pollRead pollRead r.reader cap).1 ≠ .ready [] ∧
        ((Fronted.pollRead pollRead r.reader cap).1 = .error → r.delivered = early ++ data)) ∧
    ((early ++ data).length + n < caps.countP (0 < ·) →
      Run.exec (Serving.step (Fronted.pollRead pollRead)) ⟨opened early recvs, []⟩ caps = none) := by
  exact run_broken (Fronted.serves_pollRead serves_pollRead) caps (holds_opened early hcomes)

theorem websocket_broken_text :
    Run.exec (Serving.step (Fronted.pollRead pollRead))
      ⟨opened [] [.message (.binary [1]), .message .text], []⟩ [1, 1] = none :=
  (websocket_broken [] [1] [.message (.binary [1]), .message .text] 0 [1, 1]
    (.binary [1] .text)).2 (by decide)

end WebSocket

end Transport

end Elise
