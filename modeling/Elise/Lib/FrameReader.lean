/-
Elise/Lib/FrameReader.lean

A byte stream made of frames.

What arrives goes into a buffer, a decoder takes frames off its front, and a caller reads the
contents of the frames one behind the other.  Behind an end of the arrivals the decoder is asked once more,
and what it leaves is an error.

For an incremental decoder only the bytes count, not how they arrive: a caller is handed what draining
all of them gives, and then the end or an error (`serves_pollRead`).  Bytes that come in front of
such a stream are handed out before it (`serves_prefixed`).
-/
import Elise.Lib.Decoder
import Elise.Lib.Serving

open Poll Decoder Serving

/-- The frame that is handed out, and the buffer behind it; the flags say that nothing more arrives,
that the decoder has not seen the whole buffer, and that it has failed. -/
structure FrameReader (σ β : Type*) where
  chunk : List β
  decoder : σ
  buffer : List β
  eof : Bool
  readable : Bool
  errored : Bool

namespace FrameReader

variable {σ β ε : Type*}

def new (decoder : σ) : FrameReader σ β := ⟨[], decoder, [], false, false, false⟩

section

variable (decode : σ → List β → Answer σ β (List β) ε) (room : List β → Nat)

/-- The loop of a read: a frame is handed out, as much as there is room for, or the decoder is
asked, or more is fetched, as much as the buffer has room for. -/
def readLoop : (fuel : Nat) → FrameReader σ β → Arrivals β → (cap : Nat) →
    Result (List β) × FrameReader σ β × Arrivals β
  | 0, s, a, _ => (.pending, s, a)
  | fuel + 1, s, a, cap =>
      if !s.chunk.isEmpty then (.ready (s.chunk.take cap), { s with chunk := s.chunk.drop cap }, a)
      else if s.errored then (.ready [], { s with readable := false, errored := false }, a)
      else if s.readable then
        match decode s.decoder s.buffer with
        | .frame f decoder rest => readLoop fuel { s with chunk := f, decoder := decoder, buffer := rest } a cap
        | .failed _ decoder rest => (.error, { s with decoder := decoder, buffer := rest, errored := true }, a)
        | .more decoder rest =>
            let s := { s with decoder := decoder, buffer := rest }
            if s.eof then
              if rest.isEmpty then (.ready [], { s with readable := false }, a)
              else (.error, { s with errored := true }, a)
            else readLoop fuel { s with readable := false } a cap
      else
        match a.poll (room s.buffer) with
        | (.pending, a) => (.pending, s, a)
        | (.error, a) => (.error, { s with errored := true }, a)
        | (.ready bytes, a) =>
            if bytes.isEmpty then
              if s.eof then (.ready [], s, a)
              else readLoop fuel { s with eof := true, readable := true } a cap
            else readLoop fuel { s with buffer := s.buffer ++ bytes, eof := false, readable := true } a cap

/-- How many rounds there can be. -/
def rounds (s : FrameReader σ β) (a : Arrivals β) : Nat :=
  2 * s.buffer.length + 4 * a.items.length + (if s.readable then 1 else 0) + if s.eof then 0 else 2

def pollRead (r : FrameReader σ β × Arrivals β) (cap : Nat) : Result (List β) × FrameReader σ β × Arrivals β :=
  if cap = 0 then (.ready [], r) else readLoop decode room (rounds r.1 r.2 + 2) r.1 r.2 cap

/-- What the frames in these bytes hold. -/
def content (decoder : σ) (bytes : List β) : List β := ((drain decode decoder bytes).frames.map Prod.fst).flatten

/-- The bytes are frames, and nothing behind them. -/
def Whole (decoder : σ) (bytes : List β) : Prop :=
  (drain decode decoder bytes).error = none ∧ (drain decode decoder bytes).rest = []

/-- Where a reader stands. -/
structure Holds (r : FrameReader σ β × Arrivals β) (rest : List β) (n : Nat) (e : Ending) : Prop where
  proper : r.2.Proper
  delays : n = r.2.delays
  sound : r.1.errored = false
  ended : r.1.eof = true → r.2 = [] ∧ (r.1.readable = false → r.1.buffer = [])
  rest_eq : rest = r.1.chunk ++ content decode r.1.decoder (r.1.buffer ++ r.2.items)
  ending : e = .eof ↔ Whole decode r.1.decoder (r.1.buffer ++ r.2.items)

end

variable {decode : σ → List β → Answer σ β (List β) ε} {room : List β → Nat}
variable {s : FrameReader σ β} {a : Arrivals β} {rest : List β} {n : Nat} {e : Ending} {cap : Nat}

/-! ### Drained bytes -/

theorem content_of_frame (hd : Incremental decode) {d d' : σ} {src f left : List β}
    (h : decode d src = .frame f d' left) (ext : List β) :
    content decode d (src ++ ext) = f ++ content decode d' (left ++ ext) ∧
      (Whole decode d (src ++ ext) ↔ Whole decode d' (left ++ ext)) := by
  have hdrain := hd.drain_of_frame ((hd.frame h).2 ext)
  rw [content, content, Whole, Whole, hdrain]
  exact ⟨rfl, Iff.rfl⟩

theorem content_of_more (hd : Incremental decode) {d d' : σ} {src left : List β}
    (h : decode d src = .more d' left) (ext : List β) :
    content decode d (src ++ ext) = content decode d' (left ++ ext) ∧
      (Whole decode d (src ++ ext) ↔ Whole decode d' (left ++ ext)) := by
  have hdrain : drain decode d (src ++ ext) = drain decode d' (left ++ ext) := by
    rw [hd.drain_append, drain_of_more h]
    rfl
  rw [content, content, Whole, Whole, hdrain]
  exact ⟨rfl, Iff.rfl⟩

theorem content_of_failed (hd : Incremental decode) {d d' : σ} {src left : List β} {err : ε}
    (h : decode d src = .failed err d' left) (ext : List β) :
    content decode d (src ++ ext) = [] ∧ ¬ Whole decode d (src ++ ext) := by
  have hdrain := drain_of_failed (hd.failed h ext)
  rw [content, Whole, hdrain]
  exact ⟨rfl, nofun⟩

theorem content_nil (hd : Incremental decode) (d : σ) : content decode d [] = [] ∧ Whole decode d [] := by
  have hdrain := drain_of_more (hd.nil d)
  rw [content, Whole, hdrain]
  exact ⟨rfl, rfl, rfl⟩

/-! ### Reading -/

theorem holds_new (decoder : σ) {a : Arrivals β} (h : a.Proper)
    (hend : e = .eof ↔ Whole decode decoder a.items) :
    Holds decode (new decoder, a) (content decode decoder a.items) a.delays e :=
  ⟨h, rfl, rfl, nofun, rfl, hend⟩

/-- The loop goes on until it can answer, or has to wait. -/
theorem readLoop_answered (hd : Incremental decode)
    (hshrink : ∀ {d src d' left}, decode d src = .more d' left → left.length ≤ src.length)
    (hroom : ∀ buffer, 0 < room buffer) (hcap : 0 < cap) {fuel : Nat} (h : Holds decode (s, a) rest n e)
    (hfuel : rounds s a + (if s.chunk.isEmpty then 0 else 1) < fuel) :
    Answered (Holds decode) rest n e cap (readLoop decode room fuel s a cap) := by
  induction fuel generalizing s a with
  | zero => cases hfuel
  | succ fuel ih =>
      obtain ⟨chunk, decoder, buffer, eof, readable, errored⟩ := s
      obtain ⟨hproper, hdelays, hsound, hended, hrest, hending⟩ := id h
      dsimp only at hproper hdelays hsound hended hrest hending
      subst hsound
      rw [readLoop]
      rcases chunk with - | ⟨b, chunk⟩
      · rw [List.nil_append] at hrest
        simp only [List.isEmpty_nil, Bool.not_true, Bool.false_eq_true, if_false]
        simp only [List.isEmpty_nil, if_true] at hfuel
        rcases readable with - | -
        · simp only [Bool.false_eq_true, if_false]
          rcases Arrivals.poll_cases hproper (hroom buffer) with
            ⟨later, hpoll, hproper', hitems, hless⟩ | ⟨rfl, hpoll⟩ | ⟨bytes, later, hpoll, hproper', hne, -, hitems, hless⟩
          · rw [hpoll]
            refine ⟨later.delays, by omega, hproper', rfl, rfl, ?_, ?_, ?_⟩
            · intro heof
              obtain ⟨rfl, -⟩ := hended heof
              cases hpoll
            · show rest = content decode decoder (buffer ++ later.items)
              rw [hitems]
              exact hrest
            · show e = .eof ↔ Whole decode decoder (buffer ++ later.items)
              rw [hitems]
              exact hending
          · rw [hpoll]
            rcases eof with - | -
            · apply ih
              · exact ⟨hproper, hdelays, rfl, fun _ => ⟨rfl, nofun⟩, hrest, hending⟩
              · simp only [rounds, Bool.false_eq_true, if_false, List.isEmpty_nil, if_true] at hfuel ⊢
                omega
            · -- the end again
              obtain rfl := (hended rfl).2 rfl
              refine ⟨rest, n, Nat.le_refl _, rfl, Nat.zero_le _, h, ?_⟩
              exact fun _ _ => ⟨hrest.trans (content_nil hd _).1, hending.mpr (content_nil hd _).2, hdelays⟩
          · rw [hpoll]
            have hlen := congrArg List.length hitems
            have hpos := List.length_pos_iff.mpr hne
            rw [List.length_append] at hlen
            have hnot : ¬ bytes.isEmpty = true := by simpa using hne
            simp only [hnot]
            apply ih
            · refine ⟨hproper', hdelays.trans hless.symm, rfl, nofun, ?_, ?_⟩
              · show rest = content decode decoder (buffer ++ bytes ++ later.items)
                rw [List.append_assoc, ← hitems]
                exact hrest
              · show e = .eof ↔ Whole decode decoder (buffer ++ bytes ++ later.items)
                rw [List.append_assoc, ← hitems]
                exact hending
            · rcases eof with - | -
              · simp only [rounds, Bool.false_eq_true, if_false, List.isEmpty_nil, if_true,
                  List.length_append] at hfuel ⊢
                omega
              · obtain ⟨rfl, -⟩ := hended rfl
                rw [Arrivals.items_nil, List.length_nil] at hlen
                omega
        · simp only [if_true]
          rcases hdecode : decode decoder buffer with ⟨d, left⟩ | ⟨f, d, left⟩ | ⟨err, d, left⟩
          · obtain ⟨hcontent, hwhole⟩ := content_of_more hd hdecode a.items
            rw [hcontent] at hrest
            rw [hwhole] at hending
            have hlen := hshrink hdecode
            rcases eof with - | -
            · apply ih
              · exact ⟨hproper, hdelays, rfl, nofun, hrest, hending⟩
              · simp only [rounds, Bool.false_eq_true, if_false, List.isEmpty_nil, if_true] at hfuel ⊢
                omega
            · -- nothing more arrives, and the decoder needs more
              obtain ⟨rfl, -⟩ := hended rfl
              have hagain := drain_of_more (hd.more_again hdecode)
              rw [Arrivals.items_nil, List.append_nil, content, hagain] at hrest
              rw [Arrivals.items_nil, List.append_nil, Whole, hagain] at hending
              rcases left with - | ⟨b, left⟩
              · have hend : e = .eof := hending.mpr ⟨rfl, rfl⟩
                have hnone := content_nil hd d
                refine ⟨[], n, Nat.le_refl _, hrest, Nat.zero_le _, ?_, fun _ _ => ⟨hrest, hend, hdelays⟩⟩
                refine ⟨hproper, hdelays, rfl, fun _ => ⟨rfl, fun _ => rfl⟩, hnone.1.symm, ?_⟩
                exact ⟨fun _ => hnone.2, fun _ => hend⟩
              · refine ⟨hrest, ?_⟩
                rcases e with - | -
                · cases (hending.mp rfl).2
                · rfl
          · obtain ⟨hcontent, hwhole⟩ := content_of_frame hd hdecode a.items
            have hlen := (hd.frame hdecode).1
            apply ih
            · refine ⟨hproper, hdelays, rfl, ?_, hrest.trans hcontent, hending.trans hwhole⟩
              exact fun heof => ⟨(hended heof).1, nofun⟩
            · have hbit : (if f.isEmpty = true then 0 else 1) ≤ 1 := by split <;> omega
              simp only [rounds, if_true] at hfuel ⊢
              omega
          · obtain ⟨hcontent, hwhole⟩ := content_of_failed hd hdecode a.items
            refine ⟨hrest.trans hcontent, ?_⟩
            rcases e with - | -
            · exact absurd (hending.mp rfl) hwhole
            · rfl
      · rw [if_pos (by rfl), hrest]
        exact answered_take hcap (List.cons_ne_nil _ _) ⟨hproper, hdelays, rfl, hended, rfl, hending⟩

/-- **Every read answers rightly.** -/
theorem serves_pollRead (hd : Incremental decode)
    (hshrink : ∀ {d src d' left}, decode d src = .more d' left → left.length ≤ src.length)
    (hroom : ∀ buffer, 0 < room buffer) : Serves (pollRead decode room) (Holds decode) := by
  intro r rest n e h cap
  rw [pollRead]
  split
  · rename_i hzero
    subst hzero
    exact answered_zero h
  · rename_i hcap
    apply readLoop_answered hd hshrink hroom (Nat.pos_of_ne_zero hcap) h
    split <;> omega

/-! ### Bytes in front -/

/-- Some bytes, how many of them have been handed out, and a stream behind them. -/
structure Fronted (ρ β : Type*) where
  front : Option (List β)
  pos : Nat
  inner : ρ

namespace Fronted

variable {ρ : Type*} {poll : ρ → Nat → Result (List β) × ρ} {Inner : ρ → List β → Nat → Ending → Prop}

def pollInner (poll : ρ → Nat → Result (List β) × ρ) (s : Fronted ρ β) (cap : Nat) : Result (List β) × Fronted ρ β :=
  ((poll s.inner cap).1, { s with inner := (poll s.inner cap).2 })

def pollRead (poll : ρ → Nat → Result (List β) × ρ) (s : Fronted ρ β) (cap : Nat) :
    Result (List β) × Fronted ρ β :=
  match s.front with
  | some front =>
      if s.pos < front.length then
        let toCopy := min (front.length - s.pos) cap
        (.ready ((front.drop s.pos).take toCopy), { s with
          pos := s.pos + toCopy
          front := if front.length ≤ s.pos + toCopy then none else some front })
      else pollInner poll s cap
  | none => pollInner poll s cap

/-- What waits in front. -/
def waiting (s : Fronted ρ β) : List β := (s.front.getD []).drop s.pos

def Holds (Inner : ρ → List β → Nat → Ending → Prop) (s : Fronted ρ β) (rest : List β) (n : Nat) (e : Ending) : Prop :=
  ∃ behind, rest = s.waiting ++ behind ∧ Inner s.inner behind n e

theorem pollInner_answered (hs : Serves poll Inner) {s : Fronted ρ β} {rest : List β} {n : Nat} {e : Ending}
    (hwaiting : s.waiting = []) (h : Inner s.inner rest n e) (cap : Nat) :
    Answered (Holds Inner) rest n e cap (pollInner poll s cap) := by
  have hholds : ∀ {inner rest n}, Inner inner rest n e → Holds Inner { s with inner := inner } rest n e := by
    intro inner rest n hinner
    exact ⟨rest, (by rw [show waiting { s with inner := inner } = s.waiting from rfl, hwaiting]; rfl), hinner⟩
  have hanswer := hs h cap
  rw [pollInner]
  rcases hpoll : poll s.inner cap with ⟨- | bytes | -, inner⟩
  · rw [hpoll] at hanswer
    obtain ⟨m, hm, hinner⟩ := hanswer
    exact ⟨m, hm, hholds hinner⟩
  · rw [hpoll] at hanswer
    obtain ⟨rest', m, hm, hrest, hlen, hinner, hend⟩ := hanswer
    exact ⟨rest', m, hm, hrest, hlen, hholds hinner, hend⟩
  · rw [hpoll] at hanswer
    exact hanswer

theorem serves_pollRead (hs : Serves poll Inner) : Serves (pollRead poll) (Holds Inner) := by
  rintro ⟨front, pos, inner⟩ rest n e ⟨behind, rfl, hinner⟩ cap
  rcases front with - | front
  · exact pollInner_answered hs (by simp [waiting]) (by simpa [waiting] using hinner) cap
  · rw [pollRead]
    simp only
    by_cases hpos : pos < front.length
    · rw [if_pos hpos]
      have htake : (front.drop pos).take (min (front.length - pos) cap) = (front.drop pos).take cap := by
        rw [← List.length_drop, List.take_eq_take_iff]
        omega
      have hleft : (Fronted.mk (if front.length ≤ pos + min (front.length - pos) cap then none else some front)
          (pos + min (front.length - pos) cap) inner).waiting = (front.drop pos).drop cap := by
        rw [waiting, List.drop_drop]
        split
        · rw [Option.getD_none, List.drop_nil, eq_comm, List.drop_eq_nil_iff]
          omega
        · show front.drop (pos + min (front.length - pos) cap) = _
          congr 1
          omega
      refine ⟨(front.drop pos).drop cap ++ behind, n, Nat.le_refl _, ?_, ?_, ⟨behind, ?_, hinner⟩, ?_⟩
      · rw [htake, ← List.append_assoc, List.take_append_drop]
        rfl
      · rw [htake, List.length_take]
        exact Nat.min_le_left _ _
      · rw [hleft]
      · intro hcap hnil
        have hlen := congrArg List.length hnil
        rw [htake, List.length_take, List.length_drop, List.length_nil] at hlen
        omega
    · rw [if_neg hpos]
      have hnil : (Fronted.mk (some front) pos inner).waiting = [] :=
        List.drop_eq_nil_iff.mpr (Nat.le_of_not_lt hpos)
      rw [hnil, List.nil_append]
      exact pollInner_answered hs hnil hinner cap

end Fronted

end FrameReader
