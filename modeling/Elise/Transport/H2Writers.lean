/-
Elise/Transport/H2Writers.lean

The writers over HTTP/2 (`poll_write` in src/transport/grpc.rs, src/transport/xhttp.rs,
src/transport/h2.rs and src/protocol/shadowsocks/h2.rs).

A writer looks how much it may send, asks for more where that is too little, and sends one
piece.  The stream wakes the task later only if its own answer is that it is not ready; it
may also grant some capacity that is still too little.  The writer of Shadowsocks then
wakes the task itself, and the others do not (`h2_writers_wake_iff`).

A message of gRPC is a Hunk behind a flag and a length.  It never takes more than the
capacity (`frameKept_pollWrite`), and the reader hands out its payload, however it is cut
(`recovered_grpcFrame`); so what one end says it has written, the other end hands out
(`grpc_channel`).  In a hostile message the end of a Hunk can wrap to a place before its
start, and then the slice panics (`scanHunk_panicked_iff`).
-/
import Elise.Transport.Hunks

namespace Elise

namespace Transport

open Net Poll Protobuf

/-! ### The send half of a stream -/

/-- What `poll_capacity` answers. -/
inductive Capacity where
  | pending
  | ready (n : Nat)
  | failed (error : String)
  | closed
  deriving DecidableEq, Repr

/-- The send half, as a call meets it: what can be sent at once, what `poll_capacity` answers
after a reservation, and what it says to the data. -/
structure SendStream where
  capacity : Nat
  pollCapacity : (reserved : Nat) → Capacity
  sendData : List UInt8 → Except String Unit
  /-- What can be sent behind the data. -/
  capacityAfter : Nat

inductive WriteErrorKind where
  | connectionReset
  | brokenPipe
  | other
  deriving DecidableEq, Repr

structure WriteError where
  kind : WriteErrorKind
  text : String
  deriving DecidableEq, Repr

/-- What a call does: its answer, and what it asks of the stream. -/
structure Call where
  result : Result (Except WriteError Nat)
  /-- The capacity the call goes by. -/
  avail : Nat
  /-- The last answer of `poll_capacity`, if the call has asked. -/
  polled : Option Capacity
  /-- The call wakes the task. -/
  woken : Bool
  reserved : List Nat
  sent : List UInt8

/-- A call that is not ready will be made again: the stream wakes the task, or the call
does. -/
def Call.Wakes (c : Call) : Prop :=
  c.result = .pending → c.polled = some .pending ∨ c.woken = true

/-- What three of the writers have for themselves. -/
structure Writer where
  name : String
  /-- A piece needs more than that. -/
  overhead : Nat
  wanted : (len : Nat) → Nat
  frame : List UInt8 → List UInt8

namespace Writer

variable (w : Writer)

def failed (avail : Nat) (polled : Option Capacity) (reserved : List Nat) (kind : WriteErrorKind)
    (text : String) : Call :=
  ⟨.ready (.error ⟨kind, text⟩), avail, polled, false, reserved, []⟩

/-- One piece is sent, if there is capacity for it. -/
def sendPiece (stream : SendStream) (data : List UInt8) (avail : Nat) (polled : Option Capacity)
    (reserved : List Nat) : Call :=
  if avail ≤ w.overhead then ⟨.pending, avail, polled, false, reserved, []⟩
  else
    let size := min (min (avail - w.overhead) data.length) 16384
    let frame := w.frame (data.take size)
    match stream.sendData frame with
    | .error e => failed avail polled reserved .other (w.name ++ " send_data failed: " ++ e)
    | .ok _ =>
        let reserved := if stream.capacityAfter < 32768 then reserved ++ [65536] else reserved
        ⟨.ready (.ok size), avail, polled, false, reserved, frame⟩

def pollWrite (stream : SendStream) (data : List UInt8) : Call :=
  if data.isEmpty then ⟨.ready (.ok 0), stream.capacity, none, false, [], []⟩
  else if stream.capacity ≤ w.overhead then
    let wanted := w.wanted data.length
    let polled := stream.pollCapacity wanted
    match polled with
    | .ready n => w.sendPiece stream data n (some polled) [wanted]
    | .failed e =>
        failed stream.capacity (some polled) [wanted] .connectionReset
          (w.name ++ " send capacity error: " ++ e)
    | .closed =>
        failed stream.capacity (some polled) [wanted] .brokenPipe (w.name ++ " send stream closed")
    | .pending => ⟨.pending, stream.capacity, some polled, false, [wanted], []⟩
  else w.sendPiece stream data stream.capacity none []

end Writer

/-! ### The four writers -/

/-- Seven bits in each byte, the least significant first. -/
def encodeVarint (val : UInt64) : List UInt8 :=
  if 0x80 ≤ val then ((val.toUInt8 &&& 0x7F) ||| 0x80) :: encodeVarint (val >>> 7)
  else [val.toUInt8]
termination_by val.toNat
decreasing_by
  have hle : 128 ≤ val.toNat := UInt64.le_iff_toNat_le.mp ‹0x80 ≤ val›
  rw [UInt64.toNat_shiftRight, Nat.shiftRight_eq_div_pow]
  exact Nat.div_lt_self (by omega) (by decide)

/-- The Hunk with a payload. -/
def hunk (payload : List UInt8) : List UInt8 :=
  0x0a :: (encodeVarint (UInt64.ofNat payload.length) ++ payload)

/-- It is behind a flag and its length. -/
def grpcFrame (payload : List UInt8) : List UInt8 :=
  0x00 :: (toBeBytes 4 (hunk payload).length ++ hunk payload)

namespace GrpcStreamWrapper

def writer : Writer := ⟨"gRPC", 16, fun len => max (len + 32) 16384, grpcFrame⟩

def pollWrite (stream : SendStream) (data : List UInt8) : Call := writer.pollWrite stream data

end GrpcStreamWrapper

namespace XHttpStreamWrapper

def writer : Writer := ⟨"XHTTP", 0, fun len => max len 16384, id⟩

def pollWrite (stream : SendStream) (data : List UInt8) : Call := writer.pollWrite stream data

end XHttpStreamWrapper

namespace H2RawStreamWrapper

def writer : Writer := ⟨"H2", 0, fun len => max len 16384, id⟩

def pollWrite (stream : SendStream) (data : List UInt8) : Call := writer.pollWrite stream data

end H2RawStreamWrapper

namespace ShadowsocksH2

/-- `poll_write` of the stream of Shadowsocks. -/
def pollWrite (closed : Bool) (stream : SendStream) (data : List UInt8) : Call :=
  let failed := Writer.failed stream.capacity
  if closed then failed none [] .brokenPipe "broken pipe"
  else if data.isEmpty then ⟨.ready (.ok 0), stream.capacity, none, false, [], []⟩
  else
    let wanted := min data.length 16384
    let polled := stream.pollCapacity wanted
    match polled with
    | .pending => ⟨.pending, stream.capacity, some polled, false, [wanted], []⟩
    | .failed e => failed (some polled) [wanted] .other e
    | .closed => failed (some polled) [wanted] .brokenPipe "broken pipe"
    | .ready available =>
        let n := min wanted available
        if n = 0 then ⟨.pending, available, some polled, true, [wanted], []⟩
        else
          match stream.sendData (data.take n) with
          | .error e => Writer.failed available (some polled) [wanted] .other e
          | .ok _ => ⟨.ready (.ok n), available, some polled, false, [wanted], data.take n⟩

end ShadowsocksH2

/-! ### Waking -/

/-- The stream grants less than a piece needs. -/
def Writer.Starved (w : Writer) (stream : SendStream) (data : List UInt8) : Prop :=
  data ≠ [] ∧ stream.capacity ≤ w.overhead ∧
    ∃ n ≤ w.overhead, stream.pollCapacity (w.wanted data.length) = .ready n

/-- A piece is held back only without capacity. -/
theorem Writer.sendPiece_pending_iff (w : Writer) (stream : SendStream) (data : List UInt8)
    (avail : Nat) (polled : Option Capacity) (reserved : List Nat) :
    (w.sendPiece stream data avail polled reserved).result = .pending ↔ avail ≤ w.overhead := by
  rw [sendPiece]
  by_cases hfew : avail ≤ w.overhead
  · rw [if_pos hfew]
    exact iff_of_true rfl hfew
  · rw [if_neg hfew]
    cases hsend : stream.sendData (w.frame (data.take (min (min (avail - w.overhead) data.length) 16384))) with
    | error e =>
        simp only [hsend]
        exact iff_of_false (fun h => by cases h) hfew
    | ok u =>
        simp only [hsend]
        exact iff_of_false (fun h => by cases h) hfew

theorem Writer.sendPiece_frame (w : Writer) (stream : SendStream) (data : List UInt8)
    (avail : Nat) (polled : Option Capacity) (reserved : List Nat) :
    (w.sendPiece stream data avail polled reserved).polled = polled ∧
      (w.sendPiece stream data avail polled reserved).woken = false ∧
      (w.sendPiece stream data avail polled reserved).avail = avail := by
  rw [sendPiece]
  split
  · exact ⟨rfl, rfl, rfl⟩
  · dsimp only
    split <;> exact ⟨rfl, rfl, rfl⟩

/-- **A writer sleeps without a waker where it is starved.** -/
theorem Writer.wakes_pollWrite_iff (w : Writer) (stream : SendStream) (data : List UInt8) :
    (w.pollWrite stream data).Wakes ↔ ¬ w.Starved stream data := by
  rw [pollWrite]
  cases data with
  | nil => exact iff_of_true (fun h => by cases h) fun h => h.1 rfl
  | cons b data =>
      rw [if_neg (show ¬ (b :: data).isEmpty = true from Bool.false_ne_true)]
      by_cases hfew : stream.capacity ≤ w.overhead
      · rw [if_pos hfew]
        dsimp only
        cases hpolled : stream.pollCapacity (w.wanted (b :: data).length) with
        | pending =>
            refine iff_of_true (fun _ => .inl rfl) ?_
            rintro ⟨-, -, n, -, hready⟩
            cases hpolled.symm.trans hready
        | failed e =>
            refine iff_of_true (fun h => by cases h) ?_
            rintro ⟨-, -, n, -, hready⟩
            cases hpolled.symm.trans hready
        | closed =>
            refine iff_of_true (fun h => by cases h) ?_
            rintro ⟨-, -, n, -, hready⟩
            cases hpolled.symm.trans hready
        | ready n =>
            dsimp only
            obtain ⟨hasked, hwoken, -⟩ :=
              w.sendPiece_frame stream (b :: data) n (some (.ready n)) [w.wanted (b :: data).length]
            rw [Call.Wakes, w.sendPiece_pending_iff, hasked, hwoken]
            constructor
            · rintro hwakes ⟨-, -, m, hm, hready⟩
              obtain rfl : n = m := Capacity.ready.inj (hpolled.symm.trans hready)
              rcases hwakes hm with hp | hp
              · cases hp
              · cases hp
            · intro hfed hn
              exact absurd ⟨List.cons_ne_nil b data, hfew, n, hn, hpolled⟩ hfed
      · rw [if_neg hfew]
        refine iff_of_true ?_ fun h => hfew h.2.1
        intro hpending
        exact absurd ((w.sendPiece_pending_iff ..).mp hpending) hfew

/-- The writer of Shadowsocks wakes the task itself. -/
theorem ShadowsocksH2.wakes_pollWrite (closed : Bool) (stream : SendStream) (data : List UInt8) :
    (pollWrite closed stream data).Wakes := by
  rw [pollWrite]
  split
  · exact fun h => by cases h
  split
  · exact fun h => by cases h
  dsimp only
  cases stream.pollCapacity (min data.length 16384) with
  | pending => exact fun _ => .inl rfl
  | failed e => exact fun h => by cases h
  | closed => exact fun h => by cases h
  | ready available =>
      dsimp only
      split
      · exact fun _ => .inr rfl
      · cases stream.sendData (data.take (min (min data.length 16384) available)) with
        | error e => exact fun h => by cases h
        | ok u => exact fun h => by cases h

/-- **When the writers over HTTP/2 are woken.**  A call that is not ready has a waker, except
where the stream grants a capacity that is too little for a piece: no more than 16 bytes for
gRPC, and none for XHTTP and for the raw stream.  The writer of Shadowsocks always has one. -/
theorem h2_writers_wake_iff (stream : SendStream) (data : List UInt8) :
    ((GrpcStreamWrapper.pollWrite stream data).Wakes ↔
        ¬ (data ≠ [] ∧ stream.capacity ≤ 16 ∧
          ∃ n ≤ 16, stream.pollCapacity (max (data.length + 32) 16384) = .ready n)) ∧
      ((XHttpStreamWrapper.pollWrite stream data).Wakes ↔
        ¬ (data ≠ [] ∧ stream.capacity = 0 ∧
          stream.pollCapacity (max data.length 16384) = .ready 0)) ∧
      ((H2RawStreamWrapper.pollWrite stream data).Wakes ↔
        ¬ (data ≠ [] ∧ stream.capacity = 0 ∧
          stream.pollCapacity (max data.length 16384) = .ready 0)) ∧
      ∀ closed, (ShadowsocksH2.pollWrite closed stream data).Wakes := by
  have hnone : ∀ {len : Nat}, (∃ n ≤ 0, stream.pollCapacity len = .ready n) ↔
      stream.pollCapacity len = .ready 0 := by
    intro len
    constructor
    · rintro ⟨n, hn, hready⟩
      obtain rfl := Nat.le_zero.mp hn
      exact hready
    · exact fun hready => ⟨0, Nat.le_refl 0, hready⟩
  refine ⟨GrpcStreamWrapper.writer.wakes_pollWrite_iff stream data, ?_, ?_,
    fun closed => ShadowsocksH2.wakes_pollWrite closed stream data⟩
  · have hwakes := XHttpStreamWrapper.writer.wakes_pollWrite_iff stream data
    rwa [Writer.Starved, show XHttpStreamWrapper.writer.overhead = 0 from rfl, Nat.le_zero,
      hnone] at hwakes
  · have hwakes := H2RawStreamWrapper.writer.wakes_pollWrite_iff stream data
    rwa [Writer.Starved, show H2RawStreamWrapper.writer.overhead = 0 from rfl, Nat.le_zero,
      hnone] at hwakes

/-- The window is opened by sixteen bytes, and gRPC waits for ever. -/
theorem grpc_sleeps :
    ¬ (GrpcStreamWrapper.pollWrite ⟨0, fun _ => .ready 16, fun _ => .ok (), 0⟩ [1]).Wakes := by
  intro hwakes
  rcases hwakes rfl with h | h
  · cases h
  · cases h

/-! ### Varints -/

theorem toNat_shiftRight_seven (v : UInt64) : (v >>> 7).toNat = v.toNat / 128 := by
  rw [UInt64.toNat_shiftRight, Nat.shiftRight_eq_div_pow]
  rfl

theorem toNat_continued (v : UInt64) :
    ((v.toUInt8 &&& 0x7F) ||| 0x80).toNat = v.toNat % 128 + 128 := by
  have hall : ∀ n < 256, ((UInt8.ofNat n &&& 0x7F) ||| 0x80).toNat = n % 128 + 128 := by
    decide +kernel
  have hv := hall v.toUInt8.toNat v.toUInt8.toNat_lt
  rw [UInt8.ofNat_toNat] at hv
  rw [hv, UInt64.toNat_toUInt8]
  omega

/-- The bytes spell the number. -/
theorem base128_encodeVarint (v : UInt64) : Base128 (encodeVarint v) v.toNat := by
  fun_induction encodeVarint v with
  | case1 v hlarge ih =>
      have hdigit := toNat_continued v
      rw [toNat_shiftRight_seven] at ih
      have hmore := Base128.more (b := (v.toUInt8 &&& 0x7F) ||| 0x80) (by omega) ih
      rwa [hdigit, show v.toNat % 128 + 128 - 128 + 128 * (v.toNat / 128) = v.toNat by omega] at hmore
  | case2 v hsmall =>
      have hlt : v.toNat < 128 := Nat.lt_of_not_le fun h => hsmall (UInt64.le_iff_toNat_le.mpr h)
      have hbyte : v.toUInt8.toNat = v.toNat := by
        rw [UInt64.toNat_toUInt8]
        omega
      have hlast := Base128.last (b := v.toUInt8) (by omega)
      rwa [hbyte] at hlast

/-- Seven bits take a byte. -/
theorem length_encodeVarint_le {v : UInt64} {k : Nat} (h : v.toNat < 2 ^ (7 * (k + 1))) :
    (encodeVarint v).length ≤ k + 1 := by
  induction k generalizing v with
  | zero =>
      rw [encodeVarint, if_neg fun hlarge => ?_]
      · exact Nat.le_refl 1
      · have hle : 128 ≤ v.toNat := UInt64.le_iff_toNat_le.mp hlarge
        omega
  | succ k ih =>
      rw [encodeVarint]
      split
      · rw [List.length_cons]
        refine Nat.succ_le_succ (ih ?_)
        rw [toNat_shiftRight_seven, Nat.div_lt_iff_lt_mul (by decide)]
        rwa [Nat.mul_add 7 (k + 1) 1, Nat.pow_add] at h
      · rw [List.length_singleton]
        omega

theorem varint_encodeVarint (v : UInt64) : Varint (encodeVarint v) v.toNat :=
  ⟨⟨v.toNat, base128_encodeVarint v, (Nat.mod_eq_of_lt v.toNat_lt).symm⟩,
    length_encodeVarint_le (k := 9) (Nat.lt_of_lt_of_le v.toNat_lt (by decide))⟩

/-- **What is encoded is read again**, whatever is behind it. -/
theorem readVarint_encodeVarint (v : UInt64) (rest : List UInt8) :
    readVarint (encodeVarint v ++ rest) = some (v, (encodeVarint v).length) := by
  obtain ⟨n, hread, hn⟩ := readVarint_append (varint_encodeVarint v) rest
  rw [hread, UInt64.toNat_inj.mp hn]

/-! ### Frames -/

section

variable {payload : List UInt8}

/-- A payload of a frame has at most three bytes in front that say its length. -/
theorem length_encodeVarint_payload (h : payload.length ≤ 16384) :
    (encodeVarint (UInt64.ofNat payload.length)).length ≤ 3 := by
  refine length_encodeVarint_le (k := 2) ?_
  rw [UInt64.toNat_ofNat_of_lt' (by rw [UInt64.size]; omega)]
  omega

theorem length_grpcFrame_le (h : payload.length ≤ 16384) :
    (grpcFrame payload).length ≤ payload.length + 9 := by
  have hvarint := length_encodeVarint_payload h
  rw [grpcFrame, List.length_cons, List.length_append, length_toBeBytes, hunk, List.length_cons,
    List.length_append]
  omega

/-- A Hunk, for the reader. -/
def sentHunk (payload : List UInt8) (h : payload.length ≤ 16384) : Sent where
  flag := 0x00
  message := hunk payload
  text := payload
  carries := by
    have hvarint := varint_encodeVarint (UInt64.ofNat payload.length)
    rw [UInt64.toNat_ofNat_of_lt' (by rw [UInt64.size]; omega)] at hvarint
    have hcarries := Carries.hunk .nil (List.not_mem_nil) hvarint .nil
    rwa [List.nil_append, List.append_nil] at hcarries
  short := by
    have hvarint := length_encodeVarint_payload h
    rw [hunk, List.length_cons, List.length_append]
    omega

/-- The reader makes the payload of the bytes, however they are cut and whatever room its
caller has. -/
def Recovered (bytes payload : List UInt8) : Prop :=
  ∀ (stream : List Recv) (caps : List Nat), Recv.error ∉ stream → dataOf stream = bytes →
    ∃ r, Run.exec (Serving.step served) ⟨(.new, stream), []⟩ caps = some r ∧
      r.delivered <+: payload ∧
      (payload.length + delays stream ≤ caps.countP (0 < ·) → r.delivered = payload ∧
        ∀ cap, (served r.reader cap).1 = .ready [])

/-- **The reader makes the payload of a frame.** -/
theorem recovered_grpcFrame (h : payload.length ≤ 16384) : Recovered (grpcFrame payload) payload := by
  intro stream caps herror hdata
  have hframes : dataOf stream = frames [sentHunk payload h] := by
    rw [hdata, frames, List.map_cons, List.map_nil, List.flatten_cons, List.flatten_nil,
      List.append_nil]
    rfl
  obtain ⟨r, hrun, hprefix, -, hall⟩ :=
    Serving.run_clean serves_pollRead (s := ⟨(.new, stream), []⟩) caps (holds_new herror hframes)
  have htext : texts [sentHunk payload h] = payload := by
    rw [texts, List.map_cons, List.map_nil, List.flatten_cons, List.flatten_nil, List.append_nil]
    rfl
  rw [htext] at hprefix hall
  exact ⟨r, hrun, hprefix, hall⟩

end

/-! ### Hostile messages -/

/-- A slice; `none` if the task panics. -/
def slice (bytes : List UInt8) (start end' : Nat) : Option (List UInt8) :=
  if start ≤ end' ∧ end' ≤ bytes.length then some ((bytes.drop start).take (end' - start)) else none

/-- The scan, in the arithmetic of a release. -/
def scanFrom (bytes : List UInt8) (cursor : Nat) : Decoded :=
  if cursor < bytes.length then
    let tag := byteAt bytes cursor
    let fieldNumber := tag >>> 3
    let wireType := tag &&& 0x07
    if fieldNumber = 1 ∧ wireType = 2 then
      match readVarint (bytes.drop (cursor + 1)) with
      | none => .missing
      | some (len, lenBytes) =>
          let end' := (cursor + 1 + lenBytes + len.toNat) % 2 ^ 64
          if end' ≤ bytes.length then
            match slice bytes (cursor + 1 + lenBytes) end' with
            | some payload => .found payload
            | none => .panicked
          else scanFrom bytes (cursor + 1 + lenBytes)
    else scanFrom bytes (cursor + 1)
  else .missing
termination_by bytes.length - cursor

def scanHunk (bytes : List UInt8) : Decoded :=
  if bytes.isEmpty then .missing else scanFrom bytes 0

/-- No slice is out of bounds. -/
def Decoded.Safe (d : Decoded) : Prop := d ≠ .panicked

/-- At a place there is the tag of a Hunk with this length behind it. -/
structure HunkAt (bytes : List UInt8) (cursor : Nat) (len : UInt64) (lenBytes : Nat) : Prop where
  inside : cursor < bytes.length
  tag : byteAt bytes cursor = 0x0a
  length : readVarint (bytes.drop (cursor + 1)) = some (len, lenBytes)

/-- The scan goes on behind a byte that is no tag, and behind a length that does not fit. -/
inductive Skips (bytes : List UInt8) : Nat → Nat → Prop
  | byte {cursor : Nat} : cursor < bytes.length → byteAt bytes cursor ≠ 0x0a →
      Skips bytes cursor (cursor + 1)
  | hunk {cursor : Nat} {len : UInt64} {lenBytes : Nat} : HunkAt bytes cursor len lenBytes →
      bytes.length < cursor + 1 + lenBytes + len.toNat →
      cursor + 1 + lenBytes + len.toNat < 2 ^ 64 → Skips bytes cursor (cursor + 1 + lenBytes)

/-- There is a Hunk behind skipped bytes whose end is not less than 2^64. -/
def Overflows (bytes : List UInt8) : Prop :=
  ∃ cursor len lenBytes, Relation.ReflTransGen (Skips bytes) 0 cursor ∧
    HunkAt bytes cursor len lenBytes ∧ 2 ^ 64 ≤ cursor + 1 + lenBytes + len.toNat

section

variable {bytes : List UInt8} {cursor lenBytes : Nat} {len : UInt64}

theorem HunkAt.le_length (h : HunkAt bytes cursor len lenBytes) :
    cursor + 1 + lenBytes ≤ bytes.length := by
  obtain ⟨spelled, rest, hbytes, rfl, -⟩ := varint_of_readVarint h.length
  have hlen := congrArg List.length hbytes
  have hinside := h.inside
  rw [List.length_drop, List.length_append] at hlen
  omega

/-- What the scan does at a Hunk. -/
theorem scanFrom_hunkAt (h : HunkAt bytes cursor len lenBytes) :
    scanFrom bytes cursor =
      if (cursor + 1 + lenBytes + len.toNat) % 2 ^ 64 ≤ bytes.length then
        match slice bytes (cursor + 1 + lenBytes) ((cursor + 1 + lenBytes + len.toNat) % 2 ^ 64) with
        | some payload => .found payload
        | none => .panicked
      else scanFrom bytes (cursor + 1 + lenBytes) := by
  rw [scanFrom, if_pos h.inside]
  simp only [isTag_iff]
  rw [if_pos h.tag, h.length]

theorem scanFrom_skips {next : Nat} (h : Skips bytes cursor next) :
    scanFrom bytes cursor = scanFrom bytes next := by
  cases h with
  | byte hinside htag =>
      rw [scanFrom, if_pos hinside]
      simp only [isTag_iff]
      rw [if_neg htag]
  | hunk hhunk hlong hlt =>
      rw [scanFrom_hunkAt hhunk, Nat.mod_eq_of_lt hlt, if_neg (Nat.not_le.mpr hlong)]

/-- A sum that wraps is before the start. -/
theorem scanFrom_panicked (h : HunkAt bytes cursor len lenBytes)
    (hwraps : 2 ^ 64 ≤ cursor + 1 + lenBytes + len.toNat) : scanFrom bytes cursor = .panicked := by
  have hle := h.le_length
  have hlen := len.toNat_lt
  have hend : (cursor + 1 + lenBytes + len.toNat) % 2 ^ 64 < cursor + 1 + lenBytes := by omega
  rw [scanFrom_hunkAt h, if_pos (by omega), slice, if_neg fun hin => absurd hin.1 (Nat.not_le.mpr hend)]

/-- Else the scan stops, or goes on. -/
theorem scanFrom_cases (cursor : Nat) :
    (∃ next, Skips bytes cursor next ∧ cursor < next) ∨
      (∃ len lenBytes, HunkAt bytes cursor len lenBytes ∧
        2 ^ 64 ≤ cursor + 1 + lenBytes + len.toNat) ∨
      (scanFrom bytes cursor).Safe := by
  by_cases hinside : cursor < bytes.length
  · by_cases htag : byteAt bytes cursor = 0x0a
    · cases hread : readVarint (bytes.drop (cursor + 1)) with
      | none =>
          refine .inr (.inr ?_)
          rw [scanFrom, if_pos hinside]
          simp only [isTag_iff]
          rw [if_pos htag, hread]
          exact fun h => by cases h
      | some number =>
          have hhunk : HunkAt bytes cursor number.1 number.2 := ⟨hinside, htag, hread⟩
          by_cases hwraps : 2 ^ 64 ≤ cursor + 1 + number.2 + number.1.toNat
          · exact .inr (.inl ⟨_, _, hhunk, hwraps⟩)
          · have hlt := Nat.lt_of_not_le hwraps
            by_cases hlong : bytes.length < cursor + 1 + number.2 + number.1.toNat
            · exact .inl ⟨_, .hunk hhunk hlong hlt, by omega⟩
            · refine .inr (.inr ?_)
              rw [scanFrom_hunkAt hhunk, Nat.mod_eq_of_lt hlt, if_pos (Nat.le_of_not_lt hlong), slice,
                if_pos ⟨Nat.le_add_right _ _, Nat.le_of_not_lt hlong⟩]
              exact fun h => by cases h
    · exact .inl ⟨_, .byte hinside htag, Nat.lt_succ_self _⟩
  · refine .inr (.inr ?_)
    rw [scanFrom, if_neg hinside]
    exact fun h => by cases h

theorem Skips.lt_length {next : Nat} (h : Skips bytes cursor next) : cursor < bytes.length := by
  cases h with
  | byte hinside _ => exact hinside
  | hunk hhunk _ _ => exact hhunk.inside

/-- A panic has a Hunk that wraps. -/
theorem overflow_of_panicked {n : Nat} (hn : bytes.length - cursor ≤ n)
    (h : scanFrom bytes cursor = .panicked) :
    ∃ place len lenBytes, Relation.ReflTransGen (Skips bytes) cursor place ∧
      HunkAt bytes place len lenBytes ∧ 2 ^ 64 ≤ place + 1 + lenBytes + len.toNat := by
  induction n generalizing cursor with
  | zero =>
      have hout : ¬ cursor < bytes.length := by omega
      rw [scanFrom, if_neg hout] at h
      cases h
  | succ n ih =>
      rcases @scanFrom_cases bytes cursor with ⟨next, hskips, hlt⟩ | ⟨len, lenBytes, hhunk, hwraps⟩ | hsafe
      · rw [scanFrom_skips hskips] at h
        have hinside := hskips.lt_length
        obtain ⟨place, len, lenBytes, hreach, hrest⟩ := ih (by omega) h
        exact ⟨place, len, lenBytes, .head hskips hreach, hrest⟩
      · exact ⟨cursor, len, lenBytes, .refl, hhunk, hwraps⟩
      · exact absurd h hsafe

/-- **When the scan of a message panics.** -/
theorem scanHunk_panicked_iff : scanHunk bytes = .panicked ↔ Overflows bytes := by
  have hstart : scanHunk bytes = scanFrom bytes 0 := by
    rw [scanHunk]
    cases bytes with
    | nil => rw [scanFrom, if_neg (show ¬ 0 < [].length from Nat.lt_irrefl 0), ite_self]
    | cons b bytes => exact if_neg Bool.false_ne_true
  rw [hstart]
  constructor
  · exact overflow_of_panicked (Nat.le_refl _)
  · rintro ⟨cursor, len, lenBytes, hreach, hhunk, hwraps⟩
    have hsame : scanFrom bytes 0 = scanFrom bytes cursor := by
      clear hhunk hwraps
      induction hreach with
      | refl => rfl
      | tail _ hskips ih => rw [ih, scanFrom_skips hskips]
    rw [hsame, scanFrom_panicked hhunk hwraps]

/-- The scan with the checks is what the reader runs. -/
theorem decodeLoop_eq_scanFrom {fuel : Nat} (hfuel : bytes.length - cursor ≤ fuel) :
    decodeLoop bytes fuel cursor = scanFrom bytes cursor := by
  induction fuel generalizing cursor with
  | zero => rw [decodeLoop, scanFrom, if_neg (by omega)]
  | succ fuel ih =>
      rw [decodeLoop]
      by_cases hinside : cursor < bytes.length
      · rw [if_pos hinside]
        simp only [isTag_iff]
        by_cases htag : byteAt bytes cursor = 0x0a
        · rw [if_pos htag]
          cases hread : readVarint (bytes.drop (cursor + 1)) with
          | none =>
              rw [scanFrom, if_pos hinside]
              simp only [isTag_iff]
              rw [if_pos htag, hread]
          | some number =>
              have hhunk : HunkAt bytes cursor number.1 number.2 := ⟨hinside, htag, hread⟩
              have hle := hhunk.le_length
              dsimp only
              by_cases hwraps : 2 ^ 64 ≤ cursor + 1 + number.2 + number.1.toNat
              · rw [if_pos hwraps, scanFrom_panicked hhunk hwraps]
              · have hlt := Nat.lt_of_not_le hwraps
                rw [if_neg hwraps]
                by_cases hlong : bytes.length < cursor + 1 + number.2 + number.1.toNat
                · rw [if_neg (Nat.not_le.mpr hlong), ih (by omega),
                    scanFrom_skips (.hunk hhunk hlong hlt)]
                · have hfits := Nat.le_of_not_lt hlong
                  rw [if_pos hfits, scanFrom_hunkAt hhunk, Nat.mod_eq_of_lt hlt, if_pos hfits, slice,
                    if_pos ⟨Nat.le_add_right _ _, hfits⟩, Nat.add_sub_cancel_left]
        · rw [if_neg htag, ih (by omega), scanFrom_skips (.byte hinside htag)]
      · rw [if_neg hinside, scanFrom, if_neg hinside]

theorem decodeProtobufHunk_eq_scanHunk : decodeProtobufHunk bytes = scanHunk bytes := by
  rw [decodeProtobufHunk, decodeLoop_eq_scanFrom (Nat.sub_le _ _), scanHunk]
  cases bytes with
  | nil => rw [scanFrom, if_neg (show ¬ 0 < [].length from Nat.lt_irrefl 0), ite_self]
  | cons b bytes => exact (if_neg Bool.false_ne_true).symm

end

/-- What a writer has sent keeps to the capacity it has seen, and the reader makes of it what
the writer says it has taken. -/
def FrameKept (data : List UInt8) (call : Call) : Prop :=
  ∀ n, call.result = .ready (.ok n) → data ≠ [] →
    0 < n ∧ n ≤ 16384 ∧ call.sent.length ≤ call.avail ∧ Recovered call.sent (data.take n)

/-- The piece, if there is capacity. -/
theorem frameKept_sendPiece (stream : SendStream) (data : List UInt8) (avail : Nat)
    (polled : Option Capacity) (reserved : List Nat) :
    FrameKept data (GrpcStreamWrapper.writer.sendPiece stream data avail polled reserved) := by
  intro n hresult hne
  have hpos := List.length_pos_iff.mpr hne
  rw [Writer.sendPiece] at hresult ⊢
  split at hresult
  · cases hresult
  · rename_i hmore
    have henough : 16 < avail := Nat.lt_of_not_le hmore
    rw [if_neg hmore]
    dsimp only [GrpcStreamWrapper.writer] at hresult ⊢ henough
    match hsend : stream.sendData (grpcFrame (data.take (min (min (avail - 16) data.length) 16384))) with
    | .error e =>
      rw [hsend] at hresult
      cases hresult
    | .ok _ =>
      rw [hsend] at hresult
      obtain rfl := Except.ok.inj (Result.ready.inj hresult)
      have hsize : (data.take (min (min (avail - 16) data.length) 16384)).length =
          min (min (avail - 16) data.length) 16384 := by
        rw [List.length_take]
        omega
      have hshort : (data.take (min (min (avail - 16) data.length) 16384)).length ≤ 16384 := by omega
      have hframe := length_grpcFrame_le hshort
      refine ⟨by omega, by omega, ?_, recovered_grpcFrame hshort⟩
      show (grpcFrame (data.take (min (min (avail - 16) data.length) 16384))).length ≤ avail
      omega

theorem frameKept_pollWrite (stream : SendStream) (data : List UInt8) :
    FrameKept data (GrpcStreamWrapper.pollWrite stream data) := by
  rw [GrpcStreamWrapper.pollWrite, Writer.pollWrite]
  split
  · rename_i hempty
    intro n _ hne
    exact absurd (List.isEmpty_iff.mp hempty) hne
  split
  · dsimp only
    split
    · exact frameKept_sendPiece stream data _ _ _
    · exact fun n hresult => by cases hresult
    · exact fun n hresult => by cases hresult
    · exact fun n hresult => by cases hresult
  · exact frameKept_sendPiece stream data _ _ _

/-- Where the stream takes it, a payload that fits is one frame. -/
theorem pollWrite_of_fits {stream : SendStream} {data : List UInt8} (hne : data ≠ [])
    (hshort : data.length ≤ 16384) (hfits : data.length + 16 ≤ stream.capacity)
    (hsend : stream.sendData (grpcFrame data) = .ok ()) :
    (GrpcStreamWrapper.pollWrite stream data).result = .ready (.ok data.length) ∧
      (GrpcStreamWrapper.pollWrite stream data).sent = grpcFrame data := by
  have hpos := List.length_pos_iff.mpr hne
  have hsize : min (min (stream.capacity - 16) data.length) 16384 = data.length := by omega
  have hmore : ¬ stream.capacity ≤ GrpcStreamWrapper.writer.overhead := by
    show ¬ stream.capacity ≤ 16
    omega
  rw [GrpcStreamWrapper.pollWrite, Writer.pollWrite, if_neg (by simpa using hne), if_neg hmore,
    Writer.sendPiece, if_neg hmore]
  dsimp only [GrpcStreamWrapper.writer]
  rw [hsize, List.take_length, hsend]
  exact ⟨rfl, rfl⟩

/-- **When a message is safe to decode.**  What is encoded as a varint is read again; a frame
of the writer keeps to the capacity, and the reader makes its payload of it; and the scan of a
message never slices out of bounds exactly where no Hunk in it overflows. -/
theorem hunk_decoding_safe_iff (bytes : List UInt8) :
    ((scanHunk bytes).Safe ∧
        (∀ v rest, readVarint (encodeVarint v ++ rest) = some (v, (encodeVarint v).length)) ∧
        (∀ stream data, FrameKept data (GrpcStreamWrapper.pollWrite stream data)) ∧
        ∀ stream payload, payload ≠ [] → payload.length ≤ 16384 →
          payload.length + 16 ≤ stream.capacity → stream.sendData (grpcFrame payload) = .ok () →
          (GrpcStreamWrapper.pollWrite stream payload).result = .ready (.ok payload.length) ∧
            (GrpcStreamWrapper.pollWrite stream payload).sent = grpcFrame payload ∧
            Recovered (grpcFrame payload) payload) ↔
      ¬ Overflows bytes := by
  constructor
  · rintro ⟨hsafe, -⟩ hoverflows
    exact hsafe (scanHunk_panicked_iff.mpr hoverflows)
  · intro hfine
    refine ⟨fun hpanicked => hfine (scanHunk_panicked_iff.mp hpanicked), readVarint_encodeVarint,
      frameKept_pollWrite, ?_⟩
    intro stream payload hne hshort hfits hsend
    obtain ⟨hresult, hsent⟩ := pollWrite_of_fits hne hshort hfits hsend
    exact ⟨hresult, hsent, recovered_grpcFrame hshort⟩

/-- A length of ten bytes. -/
theorem ten_byte_length_panics :
    ¬ (scanHunk [0x0a, 0xff, 0xff, 0xff, 0xff, 0xff, 0xff, 0xff, 0xff, 0xff, 0x01]).Safe := by
  rw [← decodeProtobufHunk_eq_scanHunk]
  exact not_not_intro (by decide +kernel)

/-! ### From one end to the other -/

/-- The data that some calls of the gRPC writer send. -/
def sentBytes (calls : List (SendStream × List UInt8)) : List UInt8 :=
  (calls.map fun call => (GrpcStreamWrapper.pollWrite call.1 call.2).sent).flatten

/-- What a call says that it has written. -/
def Call.takenOf (data : List UInt8) (call : Call) : List UInt8 :=
  match call.result with
  | .ready (.ok n) => data.take n
  | _ => []

def takenBytes (calls : List (SendStream × List UInt8)) : List UInt8 :=
  (calls.map fun call => (GrpcStreamWrapper.pollWrite call.1 call.2).takenOf call.2).flatten

/-- A call sends nothing and takes nothing, or sends one frame with what it takes. -/
def OneFrame (data : List UInt8) (call : Call) : Prop :=
  (call.sent = [] ∧ call.takenOf data = []) ∨
    ∃ n ≤ 16384, call.sent = grpcFrame (data.take n) ∧ call.takenOf data = data.take n

theorem oneFrame_sendPiece (stream : SendStream) (data : List UInt8) (avail : Nat)
    (polled : Option Capacity) (reserved : List Nat) :
    OneFrame data (GrpcStreamWrapper.writer.sendPiece stream data avail polled reserved) := by
  rw [Writer.sendPiece]
  split
  · exact .inl ⟨rfl, rfl⟩
  · dsimp only
    split
    · exact .inl ⟨rfl, rfl⟩
    · exact .inr ⟨_, Nat.min_le_right _ _, rfl, rfl⟩

theorem oneFrame_pollWrite (stream : SendStream) (data : List UInt8) :
    OneFrame data (GrpcStreamWrapper.pollWrite stream data) := by
  rw [GrpcStreamWrapper.pollWrite, Writer.pollWrite]
  split
  · rename_i hempty
    rw [List.isEmpty_iff.mp hempty]
    exact .inl ⟨rfl, rfl⟩
  split
  · dsimp only
    split
    · exact oneFrame_sendPiece stream data _ _ _
    · exact .inl ⟨rfl, rfl⟩
    · exact .inl ⟨rfl, rfl⟩
    · exact .inl ⟨rfl, rfl⟩
  · exact oneFrame_sendPiece stream data _ _ _

/-- What is sent are whole messages, and their text is what was taken. -/
theorem frames_sentBytes (calls : List (SendStream × List UInt8)) :
    ∃ ms, sentBytes calls = frames ms ∧ texts ms = takenBytes calls := by
  induction calls with
  | nil => exact ⟨[], rfl, rfl⟩
  | cons call calls ih =>
      obtain ⟨ms, hsent, htaken⟩ := ih
      rw [sentBytes] at hsent
      rw [takenBytes] at htaken
      rw [sentBytes, takenBytes, List.map_cons, List.map_cons, List.flatten_cons, List.flatten_cons, hsent, ← htaken]
      rcases oneFrame_pollWrite call.1 call.2 with ⟨hnone, hnothing⟩ | ⟨n, hn, hframe, htext⟩
      · exact ⟨ms, by rw [hnone]; rfl, by rw [hnothing]; rfl⟩
      · have hshort : (call.2.take n).length ≤ 16384 := by
          rw [List.length_take]
          omega
        exact ⟨sentHunk (call.2.take n) hshort :: ms, by rw [hframe]; rfl, by rw [htext]; rfl⟩

/-- **The gRPC stream loses nothing between its two ends.**  Whatever is written, and whatever
capacity the stream grants or whether it fails, and however the data are cut on their way: the reads of
the other end hand out what the calls said was written, in order, and then the end. -/
theorem grpc_channel (calls : List (SendStream × List UInt8)) (stream : List Recv) (caps : List Nat)
    (herror : Recv.error ∉ stream) (hdata : dataOf stream = sentBytes calls) :
    ∃ r, Run.exec (Serving.step served) ⟨(.new, stream), []⟩ caps = some r ∧
      r.delivered <+: takenBytes calls ∧
      (∀ cap, 0 < cap → (served r.reader cap).1 = .ready [] → r.delivered = takenBytes calls) ∧
      ((takenBytes calls).length + delays stream ≤ caps.countP (0 < ·) → r.delivered = takenBytes calls ∧
        ∀ cap, (served r.reader cap).1 = .ready []) := by
  obtain ⟨ms, hsent, htaken⟩ := frames_sentBytes calls
  rw [← htaken]
  exact Serving.run_clean serves_pollRead caps (holds_new herror (hdata.trans hsent))

/-- A stream that grants 18 bytes. -/
def narrow : SendStream := ⟨18, fun _ => .pending, fun _ => .ok (), 0⟩

/-- Three bytes in two calls, cut inside the head of the second frame. -/
theorem grpc_channel_narrow :
    ∃ r, Run.exec (Serving.step served) ⟨(.new, [.chunk [0, 0, 0, 0, 4, 10, 2, 7, 8, 0], .pending,
        .chunk [0, 0, 0, 3, 10, 1, 9]]), []⟩ [9, 9, 9, 9] = some r ∧ r.delivered = [7, 8, 9] := by
  have hfirst : (GrpcStreamWrapper.pollWrite narrow [7, 8, 9]).sent = grpcFrame [7, 8] := rfl
  have hsecond : (GrpcStreamWrapper.pollWrite narrow [9]).sent = grpcFrame [9] := rfl
  have hsent : sentBytes [(narrow, [7, 8, 9]), (narrow, [9])] = grpcFrame [7, 8] ++ (grpcFrame [9] ++ []) := by
    rw [← hfirst, ← hsecond]
    rfl
  have hframes : grpcFrame [7, 8] = [0, 0, 0, 0, 4, 10, 2, 7, 8] ∧ grpcFrame [9] = [0, 0, 0, 0, 3, 10, 1, 9] := by
    constructor <;> rw [grpcFrame, hunk, encodeVarint, if_neg (by decide)] <;> rfl
  obtain ⟨r, hrun, -, -, hall⟩ := grpc_channel [(narrow, [7, 8, 9]), (narrow, [9])]
    [.chunk [0, 0, 0, 0, 4, 10, 2, 7, 8, 0], .pending, .chunk [0, 0, 0, 3, 10, 1, 9]] [9, 9, 9, 9]
    (by decide) (by rw [hsent, hframes.1, hframes.2]; rfl)
  exact ⟨r, hrun, (hall (by decide)).1⟩

end Transport

end Elise
