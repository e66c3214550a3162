/-
Elise/Anytls/Tick.lean

When the frames of a session survive the tick.

What has arrived is the frames that were processed, then what the waiting read
has taken, then what is still in the inbox (`InOrder`), and no step changes that
but one: a tick that goes round the loop drops the read with the bytes it has
taken.  So the frames are those of the stream in every run in which such a tick
finds no byte of a header taken (`Undisturbed`); `header_lost_at_tick` is a run
beyond that.

The tick also closes a session that is idle.  It compares the ages of two instants,
each just made, so it measures nothing; it closes the session when it should as
long as these ages happen to be as far apart as the tick and the last read
(`idle_exact_iff_ages_agree`), and never if they are fresh
(`never_closed_for_idleness`).  So with fresh instants the ticks are right exactly as long as
no session is due (`fresh_exact_iff_never_due`).
-/
import Elise.Anytls.Session
import Elise.Lib.Run

namespace Elise

namespace Anytls

/-- The bytes that the waiting read has taken. -/
def Reading.bytes : Reading → List UInt8
  | .header got => got
  | .payload head got => head ++ got
  | .handling => []

/-- A read that waits lacks something. -/
def Reading.Waiting : Reading → Prop
  | .header got => got.length < frameOverhead
  | .payload head got => head.length = frameOverhead ∧ got.length < payloadLength head
  | .handling => True

theorem Reading.waiting_header_nil : (Reading.header []).Waiting := Nat.zero_lt_succ 6

theorem Reading.Waiting.parseFrames_bytes {reading : Reading} (h : reading.Waiting) :
    parseFrames reading.bytes = [] := by
  cases reading with
  | header got => exact parseFrames_of_short h
  | payload head got => exact parseFrames_of_cut h.1 h.2
  | handling => exact parseFrames_of_short (by decide)

/-! ### Commands -/

namespace Session

/-- Nothing that concerns the reading has changed. -/
structure SameReading (s s' : Session) : Prop where
  reading : s'.reading = s.reading
  inbox : s'.inbox = s.inbox
  closed : s'.closed = s.closed
  arrived : s'.arrived = s.arrived
  processed : s'.processed = s.processed
  ended : s'.ended = some .disconnected → s.ended = some .disconnected

theorem SameReading.refl (s : Session) : SameReading s s := ⟨rfl, rfl, rfl, rfl, rfl, id⟩

theorem syn_sameReading (s : Session) (streamId : UInt32) : SameReading s (s.syn streamId).1 := by
  rw [syn]
  split
  · exact ⟨rfl, rfl, rfl, rfl, rfl, by rintro ⟨⟩⟩
  · split
    · exact ⟨rfl, rfl, rfl, rfl, rfl, by rintro ⟨⟩⟩
    · dsimp only
      split
      · exact ⟨rfl, rfl, rfl, rfl, rfl, id⟩
      · exact ⟨rfl, rfl, rfl, rfl, rfl, id⟩

theorem psh_sameReading (s : Session) (streamId : UInt32) (payload : List UInt8) :
    SameReading s (s.psh streamId payload).1 := by
  rw [psh]
  split
  · split
    · exact ⟨rfl, rfl, rfl, rfl, rfl, id⟩
    · exact ⟨rfl, rfl, rfl, rfl, rfl, id⟩
  · exact .refl s
  · exact .refl s

theorem dispatch_sameReading (s : Session) (scheme : PaddingScheme) (frame : Frame) :
    SameReading s (s.dispatch scheme frame).1 := by
  rw [dispatch]
  split
  · exact ⟨rfl, rfl, rfl, rfl, rfl, id⟩
  · split
    · exact syn_sameReading s frame.streamId
    · split
      · exact psh_sameReading s frame.streamId frame.payload
      · split
        · exact ⟨rfl, rfl, rfl, rfl, rfl, id⟩
        · split
          · exact .refl s
          · exact .refl s

/-! ### The invariant -/

structure InOrder (s : Session) : Prop where
  stream : ∃ wire, Complete wire s.processed ∧ s.arrived = wire ++ (s.reading.bytes ++ s.inbox)
  waiting : s.reading.Waiting
  disconnected : s.ended = some .disconnected → s.closed = true ∧ s.inbox = []

namespace InOrder

variable {s s' : Session}

theorem sameReading (h : InOrder s) (hsame : SameReading s s') : InOrder s' where
  stream := by
    rw [hsame.processed, hsame.arrived, hsame.reading, hsame.inbox]
    exact h.stream
  waiting := by
    rw [hsame.reading]
    exact h.waiting
  disconnected hended := by
    rw [hsame.closed, hsame.inbox]
    exact h.disconnected (hsame.ended hended)

/-- Of a session that has not ended. -/
theorem of_running (hended : s.ended = none) {wire : List UInt8} (hwire : Complete wire s.processed)
    (harrived : s.arrived = wire ++ (s.reading.bytes ++ s.inbox)) (hwaiting : s.reading.Waiting) :
    InOrder s := by
  refine ⟨⟨wire, hwire, harrived⟩, hwaiting, ?_⟩
  intro hdisconnected
  rw [hended] at hdisconnected
  cases hdisconnected

section Frame

variable {wire header : List UInt8} (hended : s.ended = none) (hwire : Complete wire s.processed)
  (hheader : header.length = frameOverhead) (scheme : PaddingScheme)

include hended hwire hheader

/-- The frame was next in the stream. -/
theorem handle {payload : List UInt8} (hpayload : payload.length = payloadLength header)
    (harrived : s.arrived = wire ++ (header ++ payload ++ s.inbox)) :
    InOrder (s.handle scheme (frameOf header payload)).1 := by
  refine InOrder.sameReading ?_ (dispatch_sameReading _ scheme _)
  refine of_running hended (hwire.snoc hheader hpayload) ?_ trivial
  show s.arrived = wire ++ (header ++ payload) ++ ([] ++ s.inbox)
  rw [harrived, List.nil_append, ← List.append_assoc]

theorem headerRead (age : UInt64) (harrived : s.arrived = wire ++ (header ++ s.inbox)) :
    InOrder (s.headerRead age scheme header).1 := by
  rw [Session.headerRead]
  dsimp only
  split
  · rename_i hzero
    have hnil : ([] : List UInt8).length = payloadLength header := hzero.symm
    apply handle (s := { s with lastActivity := age }) hended hwire hheader scheme hnil
    rw [List.append_nil]
    exact harrived
  · rename_i hne
    refine of_running hended hwire ?_ ⟨hheader, Nat.pos_of_ne_zero hne⟩
    show s.arrived = wire ++ (header ++ [] ++ s.inbox)
    rw [List.append_nil, harrived]

end Frame

/-- What was asked for is there, or everything was taken. -/
theorem length_taken {got inbox : List UInt8} {len : Nat} (h : got.length < len)
    (hfull : ¬(got ++ inbox.take (len - got.length)).length < len) :
    (got ++ inbox.take (len - got.length)).length = len := by
  rw [List.length_append, List.length_take] at *
  omega

/-- A read takes bytes off the inbox. -/
theorem poll (h : InOrder s) (hended : s.ended = none) {age : UInt64} {scheme : PaddingScheme}
    {effects : List Effect} (hpoll : s.poll age scheme = some (s', effects)) : InOrder s' := by
  obtain ⟨wire, hwire, harrived⟩ := h.stream
  have hwaiting := h.waiting
  rw [Session.poll] at hpoll
  split at hpoll
  · rename_i got hreading
    rw [hreading] at harrived hwaiting
    -- the header, as far as it is there, and the inbox
    have hsplit : ∀ n, got ++ s.inbox = got ++ s.inbox.take n ++ s.inbox.drop n := by
      intro n
      rw [List.append_assoc, List.take_append_drop]
    dsimp only [Reading.bytes] at harrived
    rw [hsplit (frameOverhead - got.length)] at harrived
    dsimp only at hpoll
    split at hpoll
    · rename_i hshort
      obtain rfl := (Prod.mk.inj (Option.some.inj hpoll)).1
      exact of_running hended hwire harrived hshort
    · rename_i hfull
      obtain rfl := congrArg Prod.fst (Option.some.inj hpoll)
      exact headerRead (s := { s with inbox := s.inbox.drop (frameOverhead - got.length) })
        hended hwire (length_taken hwaiting hfull) scheme age harrived
  · rename_i head got hreading
    rw [hreading] at harrived hwaiting
    have hsplit : ∀ n, head ++ got ++ s.inbox = head ++ (got ++ s.inbox.take n) ++ s.inbox.drop n := by
      intro n
      rw [List.append_assoc, List.append_assoc, List.append_assoc, List.take_append_drop]
    dsimp only [Reading.bytes] at harrived
    rw [hsplit (payloadLength head - got.length)] at harrived
    dsimp only at hpoll
    split at hpoll
    · rename_i hshort
      obtain rfl := (Prod.mk.inj (Option.some.inj hpoll)).1
      exact of_running hended hwire harrived ⟨hwaiting.1, hshort⟩
    · rename_i hfull
      obtain rfl := congrArg Prod.fst (Option.some.inj hpoll)
      exact handle
        (s := { s with inbox := s.inbox.drop (payloadLength head - got.length), lastActivity := age })
        hended hwire hwaiting.1 scheme (length_taken hwaiting.2 hfull) harrived
  · cases hpoll

end InOrder

/-! ### Runs -/

/-- What a step makes of the session. -/
def next (s : Session) (e : SessionEvent) : Option Session := (s.step e).map Prod.fst

/-- A tick that goes round the loop finds no byte of a header taken. -/
def Undisturbed (s : Session) : SessionEvent → Prop
  | .tick age => s.closesIdle age = true ∨ s.reading = .header []
  | _ => True

namespace InOrder

variable {s s' : Session}

theorem new (age : UInt64) : InOrder (Session.new age) :=
  of_running rfl Complete.nil rfl Reading.waiting_header_nil

/-- The session ends, with everything where it is. -/
theorem ends (h : InOrder s) {reason : SessionEnd} (hreason : reason ≠ .disconnected) :
    InOrder { s with ended := some reason } where
  stream := h.stream
  waiting := h.waiting
  disconnected heq := absurd (Option.some.inj heq) hreason

theorem tick (h : InOrder s) (hended : s.ended = none) {age : UInt64}
    (hcalm : s.Undisturbed (.tick age)) (htick : s.tick age = some s') : InOrder s' := by
  rw [Session.tick] at htick
  split at htick
  · split at htick
    · cases htick
    · split at htick
      · obtain rfl := Option.some.inj htick
        exact h.ends (by decide)
      · rename_i hidle
        obtain rfl := Option.some.inj htick
        have hempty := hcalm.resolve_left hidle
        obtain ⟨wire, hwire, harrived⟩ := h.stream
        rw [hempty] at harrived
        exact of_running hended hwire harrived Reading.waiting_header_nil
  · cases htick

theorem readFails (h : InOrder s) {reason : SessionEnd}
    (hreason : reason = .disconnected → s.closed = true ∧ s.inbox = [])
    (hfails : s.readFails reason = some s') : InOrder s' := by
  rw [Session.readFails] at hfails
  split at hfails
  · cases hfails
  · obtain rfl := Option.some.inj hfails
    exact ⟨h.stream, h.waiting, fun heq => hreason (Option.some.inj heq)⟩

theorem eq_some_of_map_pair {o : Option Session} {effects effects' : List Effect}
    (h : o.map (·, effects) = some (s', effects')) : o = some s' := by
  obtain ⟨t, ht, heq⟩ := Option.map_eq_some_iff.mp h
  rw [ht, (Prod.mk.inj heq).1]

theorem act (h : InOrder s) (hended : s.ended = none) {e : SessionEvent} (hcalm : s.Undisturbed e)
    {effects : List Effect} (hact : s.act e = some (s', effects)) : InOrder s' := by
  cases e with
  | poll age scheme => exact h.poll hended hact
  | tick age =>
      exact h.tick hended hcalm (eq_some_of_map_pair hact)
  | cancel =>
      have ht := eq_some_of_map_pair hact
      rw [Session.cancel] at ht
      split at ht
      · obtain rfl := Option.some.inj ht
        exact h.ends (by decide)
      · cases ht
  | eof =>
      dsimp only [Session.act] at hact
      split at hact
      · rename_i hclosed
        exact h.readFails (fun _ => hclosed) (eq_some_of_map_pair hact)
      · cases hact
  | readError =>
      exact h.readFails (by rintro ⟨⟩) (eq_some_of_map_pair hact)
  | payloadTimeout =>
      have ht := eq_some_of_map_pair hact
      rw [Session.payloadTimeout] at ht
      split at ht
      · split at ht
        · cases ht
        · obtain rfl := Option.some.inj ht
          exact h.ends (by decide)
      · cases ht
  | resume =>
      have ht := eq_some_of_map_pair hact
      rw [Session.resume] at ht
      split at ht
      · rename_i hreading
        obtain rfl := Option.some.inj ht
        obtain ⟨wire, hwire, harrived⟩ := h.stream
        rw [hreading] at harrived
        exact of_running hended hwire harrived Reading.waiting_header_nil
      · cases ht
  | arrive => cases hact
  | close => cases hact
  | elapse => cases hact
  | workerReturned => cases hact

theorem next (h : InOrder s) {e : SessionEvent} (hcalm : s.Undisturbed e)
    (hnext : s.next e = some s') : InOrder s' := by
  obtain ⟨⟨t, effects⟩, hstep, rfl⟩ := Option.map_eq_some_iff.mp hnext
  have hacts : (if s.ended.isSome then none else s.act e) = some (t, effects) → InOrder t := by
    intro hif
    split at hif
    · cases hif
    · rename_i hended
      exact h.act (by simpa using hended) hcalm hif
  cases e with
  | arrive bytes =>
      rw [Session.step] at hstep
      split at hstep
      · cases hstep
      · rename_i hclosed
        obtain rfl := (Prod.mk.inj (Option.some.inj hstep)).1
        obtain ⟨wire, hwire, harrived⟩ := h.stream
        refine ⟨⟨wire, hwire, ?_⟩, h.waiting, fun heq => absurd (h.disconnected heq).1 hclosed⟩
        show s.arrived ++ bytes = wire ++ (s.reading.bytes ++ (s.inbox ++ bytes))
        rw [harrived, List.append_assoc, List.append_assoc]
  | close =>
      obtain rfl := (Prod.mk.inj (Option.some.inj hstep)).1
      exact ⟨h.stream, h.waiting, fun heq => ⟨rfl, (h.disconnected heq).2⟩⟩
  | elapse millis =>
      obtain rfl := (Prod.mk.inj (Option.some.inj hstep)).1
      exact ⟨h.stream, h.waiting, h.disconnected⟩
  | workerReturned streamId =>
      obtain rfl := (Prod.mk.inj (Option.some.inj hstep)).1
      exact ⟨h.stream, h.waiting, h.disconnected⟩
  | poll age scheme => exact hacts hstep
  | tick age => exact hacts hstep
  | cancel => exact hacts hstep
  | eof => exact hacts hstep
  | readError => exact hacts hstep
  | payloadTimeout => exact hacts hstep
  | resume => exact hacts hstep

/-- Frames that were not processed are still ahead. -/
theorem parseFrames_arrived (h : InOrder s) :
    parseFrames s.arrived = s.processed ++ parseFrames (s.reading.bytes ++ s.inbox) := by
  obtain ⟨wire, hwire, harrived⟩ := h.stream
  rw [harrived, hwire]

/-- Nothing is ahead when everything was taken. -/
theorem processed_eq (h : InOrder s) (hinbox : s.inbox = []) : s.processed = parseFrames s.arrived := by
  rw [h.parseFrames_arrived, hinbox, List.append_nil, h.waiting.parseFrames_bytes, List.append_nil]

end InOrder

/-- **The frames are those of the stream.**  In every run whose ticks find no
byte of a header taken, the stream that has arrived is parsed to the frames that
were processed and then to those still ahead; nothing is ahead once everything
was taken, and everything was taken when the session ends with its client. -/
theorem frames_survive_tick {age : UInt64} {events : List SessionEvent} {s : Session}
    (hrun : Run.exec next (new age) events = some s)
    (hcalm : Run.Along next Undisturbed (new age) events) :
    parseFrames s.arrived = s.processed ++ parseFrames (s.reading.bytes ++ s.inbox) ∧
    (s.inbox = [] → s.processed = parseFrames s.arrived) ∧
    (s.ended = some .disconnected → s.processed = parseFrames s.arrived) := by
  have h : InOrder s :=
    Run.exec_invariant (fun hinv hevent hnext => hinv.next hevent hnext) hrun hcalm (InOrder.new age)
  refine ⟨h.parseFrames_arrived, h.processed_eq, ?_⟩
  intro hended
  exact h.processed_eq (h.disconnected hended).2

/-! ### Two runs -/

def someScheme : PaddingScheme := ⟨[], []⟩

/-- The tick comes before the first byte of a heart request that arrives in two
parts. -/
def calmRun : List SessionEvent :=
  [.elapse 5000, .tick 0, .arrive [8, 0, 0], .poll 0 someScheme, .arrive [0, 5, 0, 0], .poll 0 someScheme,
    .resume, .close, .eof]

theorem calmRun_frames : ∃ s, Run.exec next (new 0) calmRun = some s ∧
    s.ended = some .disconnected ∧ s.processed = [⟨8, 5, []⟩] ∧
    s.processed = parseFrames s.arrived := by
  have hcalm : Run.Along next Undisturbed (new 0) calmRun := by
    refine Run.along_cons trivial rfl ?_
    refine Run.along_cons (.inr rfl) rfl ?_
    refine Run.along_cons trivial rfl ?_
    refine Run.along_cons trivial rfl ?_
    refine Run.along_cons trivial rfl ?_
    refine Run.along_cons trivial rfl ?_
    refine Run.along_cons trivial rfl ?_
    refine Run.along_cons trivial rfl ?_
    exact Run.along_cons trivial rfl trivial
  refine ⟨_, rfl, rfl, rfl, ?_⟩
  exact (frames_survive_tick (s := _) rfl hcalm).2.2 rfl

/-- The tick comes between the two parts, and another heart request follows. -/
def cutRun : List SessionEvent :=
  [.arrive [8, 0, 0], .poll 0 someScheme, .elapse 5000, .tick 0, .arrive [0, 5, 0, 0, 8, 0, 0, 0, 6, 0, 0],
    .poll 0 someScheme, .resume, .poll 0 someScheme]

/-- The session sees one frame that nobody has sent. -/
theorem header_lost_at_tick : ∃ s, Run.exec next (new 0) cutRun = some s ∧
    s.ended = none ∧ s.inbox = [] ∧ s.processed = [⟨0, 0x05000008, []⟩] ∧
    parseFrames s.arrived = [⟨8, 5, []⟩, ⟨8, 6, []⟩] := by
  refine ⟨_, rfl, rfl, rfl, rfl, ?_⟩
  have hempty : ([] : List UInt8).length ≤ maxFrameSize := Nat.zero_le maxFrameSize
  have hend : parseFrames [] = [] := parseFrames_of_short (by decide)
  have hfirst := complete_makeFrame 8 5 hempty (makeFrame 8 6 [] ++ [])
  rw [complete_makeFrame 8 6 hempty [], hend] at hfirst
  exact hfirst

/-! ### The clock -/

/-- The event completes the read of a header or of a payload. -/
def completesRead (s : Session) : SessionEvent → Bool
  | .poll _ _ =>
      match s.reading with
      | .header got => frameOverhead - got.length ≤ s.inbox.length
      | .payload header got => payloadLength header - got.length ≤ s.inbox.length
      | .handling => false
  | _ => false

/-- The time of the last read that was completed. -/
def lastRead (s : Session) (last : Nat) (e : SessionEvent) : Nat :=
  if s.completesRead e then s.now else last

/-- A session, and when it has last completed a read. -/
def timedNext : Session × Nat → SessionEvent → Option (Session × Nat) := Run.track next lastRead

/-- A tick closes the session just when no stream is open and the last read was
completed more than 30 s ago, and its subtraction does not underflow. -/
def TickExact (t : Session × Nat) : SessionEvent → Prop
  | .tick age => ∀ s', t.1.next (.tick age) = some s' →
      (s'.ended = some .idle ↔ t.1.streams.isEmpty ∧ t.2 + sessionIdleTimeout.toNat < t.1.now) ∧
      t.1.lastActivity ≤ age
  | _ => True

/-- The instant that a tick makes is not younger than the one that was stored;
and a stream is open, or the two ages are as far apart as the tick and the last
read: both at most 30 s, or both more. -/
def AgesAgree (t : Session × Nat) : SessionEvent → Prop
  | .tick age => ∀ s', t.1.next (.tick age) = some s' →
      t.1.lastActivity ≤ age ∧
      (t.1.streams.isEmpty = false ∨
        (age - t.1.lastActivity ≤ sessionIdleTimeout ∧ t.1.now ≤ t.2 + sessionIdleTimeout.toNat) ∨
        (sessionIdleTimeout < age - t.1.lastActivity ∧ t.2 + sessionIdleTimeout.toNat < t.1.now))
  | _ => True

/-- The tick closes the session, or goes round the loop. -/
theorem ended_of_tick {s s' : Session} {age : UInt64} (h : s.next (.tick age) = some s') :
    s'.ended = some .idle ↔ s.closesIdle age = true := by
  obtain ⟨⟨t, effects⟩, hstep, rfl⟩ := Option.map_eq_some_iff.mp h
  have hif : (if s.ended.isSome then none else s.act (.tick age)) = some (t, effects) := hstep
  split at hif
  · cases hif
  · rename_i hended
    have htick := InOrder.eq_some_of_map_pair hif
    rw [tick] at htick
    split at htick
    · split at htick
      · cases htick
      · split at htick
        · rename_i hidle
          obtain rfl := Option.some.inj htick
          exact iff_of_true rfl hidle
        · rename_i hidle
          obtain rfl := Option.some.inj htick
          refine iff_of_false ?_ hidle
          show s.ended ≠ some .idle
          intro heq
          rw [heq] at hended
          exact hended rfl
    · cases htick

instance decidableTickExact (t : Session × Nat) : (e : SessionEvent) → Decidable (TickExact t e)
  | .tick age => inferInstanceAs (Decidable (∀ s' ∈ t.1.next (.tick age),
      (s'.ended = some .idle ↔ t.1.streams.isEmpty ∧ t.2 + sessionIdleTimeout.toNat < t.1.now) ∧
      t.1.lastActivity ≤ age))
  | .arrive _ | .close | .elapse _ | .workerReturned _ | .poll _ _ | .cancel | .eof | .readError
  | .payloadTimeout | .resume => inferInstanceAs (Decidable True)

theorem tickExact_iff (t : Session × Nat) (e : SessionEvent) : TickExact t e ↔ AgesAgree t e := by
  cases e with
  | tick age =>
      apply forall_congr'
      intro s'
      apply imp_congr_right
      intro hnext
      have hcloses : t.1.closesIdle age = true ↔
          t.1.streams.isEmpty = true ∧ sessionIdleTimeout < age - t.1.lastActivity := by
        rw [closesIdle, decide_eq_true_iff]
      rw [ended_of_tick hnext, hcloses]
      have hyoung : age - t.1.lastActivity ≤ sessionIdleTimeout ↔
          ¬ sessionIdleTimeout < age - t.1.lastActivity := UInt64.not_lt.symm
      have hrecent : t.1.now ≤ t.2 + sessionIdleTimeout.toNat ↔
          ¬ t.2 + sessionIdleTimeout.toNat < t.1.now := Nat.not_lt.symm
      rw [hyoung, hrecent]
      cases t.1.streams.isEmpty with
      | true =>
          by_cases hold : sessionIdleTimeout < age - t.1.lastActivity
          · simp [hold, and_comm]
          · simp [hold, and_comm]
      | false => simp
  | _ => exact Iff.rfl

/-- **Idle closing is exact where the ages tell the time.**  In every run, each
tick closes the session just when it should if and only if the ages agree with
the clock at each tick. -/
theorem idle_exact_iff_ages_agree (age : UInt64) (events : List SessionEvent) :
    Run.Along timedNext TickExact (new age, 0) events ↔
      Run.Along timedNext AgesAgree (new age, 0) events := by
  have heq : TickExact = AgesAgree := by
    funext t e
    exact propext (tickExact_iff t e)
  rw [heq]

/-- An instant is stored as soon as it is made, and the tick reads its own in
less than 30 s. -/
def Fresh : SessionEvent → Prop
  | .poll age _ => age = 0
  | .tick age => age ≤ sessionIdleTimeout
  | _ => True

/-- The session has stored the age of an instant just made, and was not closed
for being idle. -/
structure Young (s : Session) : Prop where
  lastActivity : s.lastActivity = 0
  ended : s.ended ≠ some .idle

namespace Young

variable {s s' : Session}

theorem dispatch (h : Young s) (scheme : PaddingScheme) (frame : Frame) :
    Young (s.dispatch scheme frame).1 := by
  rw [Session.dispatch]
  split
  · exact ⟨h.lastActivity, h.ended⟩
  · split
    · rw [syn]
      split
      · exact ⟨h.lastActivity, by rintro ⟨⟩⟩
      · split
        · exact ⟨h.lastActivity, by rintro ⟨⟩⟩
        · dsimp only
          split
          · exact ⟨h.lastActivity, h.ended⟩
          · exact ⟨h.lastActivity, h.ended⟩
    · split
      · rw [psh]
        split
        · split
          · exact ⟨h.lastActivity, h.ended⟩
          · exact ⟨h.lastActivity, h.ended⟩
        · exact h
        · exact h
      · split
        · exact ⟨h.lastActivity, h.ended⟩
        · split
          · exact h
          · exact h

theorem handle (h : Young s) (scheme : PaddingScheme) (frame : Frame) :
    Young (s.handle scheme frame).1 :=
  dispatch (s := { s with reading := .handling, processed := s.processed ++ [frame] })
    ⟨h.lastActivity, h.ended⟩ scheme frame

theorem poll (h : Young s) {scheme : PaddingScheme} {effects : List Effect}
    (hpoll : s.poll 0 scheme = some (s', effects)) : Young s' := by
  rw [Session.poll] at hpoll
  split at hpoll
  · dsimp only at hpoll
    split at hpoll
    · obtain rfl := (Prod.mk.inj (Option.some.inj hpoll)).1
      exact ⟨h.lastActivity, h.ended⟩
    · obtain rfl := congrArg Prod.fst (Option.some.inj hpoll)
      rw [headerRead]
      dsimp only
      split
      · apply handle
        exact ⟨rfl, h.ended⟩
      · exact ⟨rfl, h.ended⟩
  · dsimp only at hpoll
    split at hpoll
    · obtain rfl := (Prod.mk.inj (Option.some.inj hpoll)).1
      exact ⟨h.lastActivity, h.ended⟩
    · obtain rfl := congrArg Prod.fst (Option.some.inj hpoll)
      apply handle
      exact ⟨rfl, h.ended⟩
  · cases hpoll

theorem readFails (h : Young s) {reason : SessionEnd} (hreason : reason ≠ .idle)
    (hfails : s.readFails reason = some s') : Young s' := by
  rw [Session.readFails] at hfails
  split at hfails
  · cases hfails
  · obtain rfl := Option.some.inj hfails
    exact ⟨h.lastActivity, fun heq => hreason (Option.some.inj heq)⟩

theorem act (h : Young s) {e : SessionEvent} (hfresh : Fresh e) {effects : List Effect}
    (hact : s.act e = some (s', effects)) : Young s' := by
  cases e with
  | poll age scheme =>
      obtain rfl : age = 0 := hfresh
      exact h.poll hact
  | tick age =>
      have htick := InOrder.eq_some_of_map_pair hact
      have hopen : s.closesIdle age = false := by
        rw [closesIdle, h.lastActivity, UInt64.sub_zero]
        exact decide_eq_false fun hidle => UInt64.not_lt.mpr hfresh hidle.2
      rw [Session.tick] at htick
      split at htick
      · rw [hopen] at htick
        split at htick
        · cases htick
        · obtain rfl := Option.some.inj htick
          exact ⟨h.lastActivity, h.ended⟩
      · cases htick
  | cancel =>
      have ht := InOrder.eq_some_of_map_pair hact
      rw [Session.cancel] at ht
      split at ht
      · obtain rfl := Option.some.inj ht
        exact ⟨h.lastActivity, by rintro ⟨⟩⟩
      · cases ht
  | eof =>
      dsimp only [Session.act] at hact
      split at hact
      · exact h.readFails (by decide) (InOrder.eq_some_of_map_pair hact)
      · cases hact
  | readError => exact h.readFails (by decide) (InOrder.eq_some_of_map_pair hact)
  | payloadTimeout =>
      have ht := InOrder.eq_some_of_map_pair hact
      rw [Session.payloadTimeout] at ht
      split at ht
      · split at ht
        · cases ht
        · obtain rfl := Option.some.inj ht
          exact ⟨h.lastActivity, by rintro ⟨⟩⟩
      · cases ht
  | resume =>
      have ht := InOrder.eq_some_of_map_pair hact
      rw [Session.resume] at ht
      split at ht
      · obtain rfl := Option.some.inj ht
        exact ⟨h.lastActivity, h.ended⟩
      · cases ht
  | arrive => cases hact
  | close => cases hact
  | elapse => cases hact
  | workerReturned => cases hact

theorem next (h : Young s) {e : SessionEvent} (hfresh : Fresh e) (hnext : s.next e = some s') :
    Young s' := by
  obtain ⟨⟨t, effects⟩, hstep, rfl⟩ := Option.map_eq_some_iff.mp hnext
  have hacts : (if s.ended.isSome then none else s.act e) = some (t, effects) → Young t := by
    intro hif
    split at hif
    · cases hif
    · exact h.act hfresh hif
  cases e with
  | arrive bytes =>
      rw [Session.step] at hstep
      split at hstep
      · cases hstep
      · obtain rfl := (Prod.mk.inj (Option.some.inj hstep)).1
        exact ⟨h.lastActivity, h.ended⟩
  | close =>
      obtain rfl := (Prod.mk.inj (Option.some.inj hstep)).1
      exact ⟨h.lastActivity, h.ended⟩
  | elapse millis =>
      obtain rfl := (Prod.mk.inj (Option.some.inj hstep)).1
      exact ⟨h.lastActivity, h.ended⟩
  | workerReturned streamId =>
      obtain rfl := (Prod.mk.inj (Option.some.inj hstep)).1
      exact ⟨h.lastActivity, h.ended⟩
  | poll age scheme => exact hacts hstep
  | tick age => exact hacts hstep
  | cancel => exact hacts hstep
  | eof => exact hacts hstep
  | readError => exact hacts hstep
  | payloadTimeout => exact hacts hstep
  | resume => exact hacts hstep

end Young

/-- **No session is closed for being idle**, however long it is, as long as the
instants are fresh: the age of an instant just made tells no time. -/
theorem never_closed_for_idleness {events : List SessionEvent} (hfresh : ∀ e ∈ events, Fresh e)
    {s : Session} (hrun : Run.exec next (new 0) events = some s) : s.ended ≠ some .idle := by
  have hyoung : Young s :=
    Run.exec_invariant (fun hinv hevent hnext => hinv.next hevent hnext) hrun
      (Run.along_of_mem hfresh (new 0)) ⟨rfl, by rintro ⟨⟩⟩
  exact hyoung.ended

/-- No stream has been open at the tick and nothing has been read for more than 30 s. -/
def NotDue (t : Session × Nat) : SessionEvent → Prop
  | .tick age => ∀ s', t.1.next (.tick age) = some s' →
      ¬ (t.1.streams.isEmpty ∧ t.2 + sessionIdleTimeout.toNat < t.1.now)
  | _ => True

/-- A tick with a fresh instant is right where the session need not be closed. -/
theorem Young.tickExact_iff {t : Session × Nat} {e : SessionEvent} (h : Young t.1) (hfresh : Fresh e) :
    TickExact t e ↔ NotDue t e := by
  cases e with
  | tick age =>
      apply forall_congr'
      intro s'
      apply imp_congr_right
      intro hnext
      have hopen : s'.ended ≠ some .idle := (h.next hfresh hnext).ended
      have hage : t.1.lastActivity ≤ age := by
        rw [h.lastActivity]
        exact UInt64.zero_le
      rw [iff_false_left hopen, and_iff_left hage]
  | _ => exact Iff.rfl

/-- **With fresh instants, idle closing is exact as long as nothing is to be closed**: along a run, each
tick does what it should if and only if no tick finds a session that should be closed. -/
theorem fresh_exact_iff_never_due {events : List SessionEvent} (hfresh : ∀ e ∈ events, Fresh e) :
    Run.Along timedNext TickExact (new 0, 0) events ↔ Run.Along timedNext NotDue (new 0, 0) events := by
  -- the two conditions say the same of a session that has stored no age but 0
  refine @Run.along_congr _ _ timedNext TickExact NotDue (fun _ e => Fresh e) (fun t => Young t.1) ?_ ?_ _ _
    (Run.along_of_mem hfresh _) ⟨rfl, by rintro ⟨⟩⟩
  · intro t e t' h hevent hstep
    exact h.next hevent (Run.track_eq_some.mp hstep).1
  · intro t e h hevent
    exact h.tickExact_iff hevent

/-- A client that connects and sends nothing for 35 s. -/
def silentRun : List SessionEvent :=
  [.elapse 5000, .tick 0, .elapse 5000, .tick 0, .elapse 5000, .tick 0, .elapse 5000, .tick 0,
    .elapse 5000, .tick 0, .elapse 5000, .tick 0, .elapse 5000, .tick 0]

theorem silent_never_closed : ∃ s, Run.exec next (new 0) silentRun = some s ∧ s.ended ≠ some .idle := by
  have hfresh : ∀ e ∈ silentRun, Fresh e := by
    simp [silentRun, Fresh]
  exact ⟨_, rfl, never_closed_for_idleness hfresh rfl⟩

/-- The tick after 35 s does not close the session.  Another, whose instant is
younger than the one that was stored, underflows and closes it at once. -/
theorem idle_closing_inexact :
    (∃ t, Run.exec timedNext (new 0, 0) silentRun = some t ∧
      t.1.ended = none ∧ t.1.streams.isEmpty ∧ t.2 = 0 ∧ t.1.now = 35000) ∧
    ¬ Run.Along timedNext TickExact (new 0, 0) silentRun ∧
    ¬ Run.Along timedNext TickExact (new 1, 0) [.elapse 5000, .tick 0] := by
  refine ⟨⟨_, rfl, rfl, rfl, rfl, rfl⟩, ?_, ?_⟩
  · decide
  · decide

end Session

end Anytls

end Elise
