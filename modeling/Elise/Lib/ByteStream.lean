/-
Elise/Lib/ByteStream.lean

Byte streams as a transport delivers them: in segments.

A read returns bytes of the next segment, as many as it has room for, and nothing only at the
end of the stream.  `readExact` reads until it has what it asked for or the stream ends.  What
it returns depends on the bytes of the stream alone (`readExact_eq_some`,
`readExact_eq_none`); only a single read shows where the segments were cut.

Over such a stream go frames that are sealed one after the other.  A reader is in step with the
sealing side, `Holds`, when what it still has to read is what was sealed from here on.  A reader
that reads a whole frame and stays in step, refuses a part of one, and sees the end of the
stream (`InStep`), reads every frame in its order and then the end (`readAll_sealed`), and of a
stream that is cut inside a frame the frames before it and then an error (`readAll_torn`).
-/
import Mathlib

/-- The segments that are still to come; none of them is empty. -/
structure ByteStream where
  segments : List (List UInt8)
  nonempty : ∀ segment ∈ segments, segment ≠ []

namespace ByteStream

/-- The bytes that are still to come. -/
def bytes (s : ByteStream) : List UInt8 := s.segments.flatten

def empty : ByteStream := ⟨[], by simp⟩

/-- A stream that delivers its bytes in one segment. -/
def single (bs : List UInt8) (h : bs ≠ []) : ByteStream := ⟨[bs], by simpa using h⟩

theorem nonempty_tail {segment : List UInt8} {rest : List (List UInt8)}
    (h : ∀ seg ∈ segment :: rest, seg ≠ []) : ∀ seg ∈ rest, seg ≠ [] :=
  fun seg hmem => h seg (List.mem_cons_of_mem _ hmem)

/-- Put bytes back in front, as a segment if there are any. -/
def push (bs : List UInt8) (s : ByteStream) : ByteStream :=
  if h : bs = [] then s
  else ⟨bs :: s.segments, by simpa [h] using s.nonempty⟩

@[simp] theorem bytes_push (bs : List UInt8) (s : ByteStream) :
    (s.push bs).bytes = bs ++ s.bytes := by
  rw [push]
  split
  · rename_i h
    simp [h]
  · simp [bytes]

/-! ### Reading -/

/-- One read with room for `cap` bytes. -/
def read (s : ByteStream) (cap : Nat) : List UInt8 × ByteStream :=
  match s with
  | ⟨[], _⟩ => ([], empty)
  | ⟨segment :: rest, h⟩ => (segment.take cap, push (segment.drop cap) ⟨rest, nonempty_tail h⟩)

/-- Read `n` bytes, in as many reads as it takes; `none` if the stream ends
before. -/
def readExactFrom : List (List UInt8) → Nat → Option (List UInt8 × List (List UInt8))
  | segments, 0 => some ([], segments)
  | [], _ + 1 => none
  | segment :: rest, n + 1 =>
      if n + 1 < segment.length then
        some (segment.take (n + 1), segment.drop (n + 1) :: rest)
      else
        (readExactFrom rest (n + 1 - segment.length)).map fun r => (segment ++ r.1, r.2)

theorem readExactFrom_nonempty {segments : List (List UInt8)} {n : Nat}
    {r : List UInt8 × List (List UInt8)} (h : ∀ seg ∈ segments, seg ≠ [])
    (hr : readExactFrom segments n = some r) : ∀ seg ∈ r.2, seg ≠ [] := by
  induction segments generalizing n r with
  | nil =>
      cases n with
      | zero =>
          obtain rfl := Option.some.inj hr
          exact h
      | succ n => cases hr
  | cons segment rest ih =>
      cases n with
      | zero =>
          obtain rfl := Option.some.inj hr
          exact h
      | succ n =>
          simp only [readExactFrom] at hr
          split at hr
          · rename_i hlt
            obtain rfl := Option.some.inj hr
            intro seg hmem
            rcases List.mem_cons.mp hmem with rfl | hmem
            · intro hnil
              have := List.drop_eq_nil_iff.mp hnil
              omega
            · exact h seg (List.mem_cons_of_mem _ hmem)
          · obtain ⟨r', hr', rfl⟩ := Option.map_eq_some_iff.mp hr
            show ∀ seg ∈ r'.2, seg ≠ []
            exact ih (nonempty_tail h) hr'

def readExact (s : ByteStream) (n : Nat) : Option (List UInt8 × ByteStream) :=
  match h : readExactFrom s.segments n with
  | none => none
  | some r => some (r.1, ⟨r.2, readExactFrom_nonempty s.nonempty h⟩)

/-! ### What a read returns -/

theorem read_append (s : ByteStream) (cap : Nat) :
    (s.read cap).1 ++ (s.read cap).2.bytes = s.bytes := by
  obtain ⟨segments, h⟩ := s
  cases segments with
  | nil => rfl
  | cons segment rest =>
      simp only [read, bytes_push]
      rw [← List.append_assoc, List.take_append_drop]
      rfl

theorem length_read_le (s : ByteStream) (cap : Nat) : (s.read cap).1.length ≤ cap := by
  obtain ⟨segments, h⟩ := s
  cases segments with
  | nil => exact Nat.zero_le _
  | cons segment rest => exact List.length_take_le _ _

/-- A read with room returns nothing only at the end. -/
theorem read_eq_nil_iff {s : ByteStream} {cap : Nat} (hcap : 0 < cap) :
    (s.read cap).1 = [] ↔ s.bytes = [] := by
  obtain ⟨segments, h⟩ := s
  cases segments with
  | nil => simp [read, bytes]
  | cons segment rest =>
      have hne : segment ≠ [] := h segment (by simp)
      have hcap' : cap ≠ 0 := Nat.pos_iff_ne_zero.mp hcap
      simp [read, bytes, List.take_eq_nil_iff, hne, hcap']

theorem readExactFrom_spec (segments : List (List UInt8)) (n : Nat) :
    (readExactFrom segments n).map (fun r => (r.1, r.2.flatten)) =
      if n ≤ segments.flatten.length then
        some (segments.flatten.take n, segments.flatten.drop n)
      else none := by
  -- on the segments, as `readExactFrom` goes through them
  induction segments generalizing n with
  | nil =>
      cases n with
      | zero => rfl
      | succ n => simp [readExactFrom]
  | cons segment rest ih =>
      cases n with
      | zero => simp [readExactFrom]
      | succ n =>
          simp only [readExactFrom, List.flatten_cons, List.length_append]
          by_cases hlt : n + 1 < segment.length
          · have hle : n + 1 ≤ segment.length + rest.flatten.length := by omega
            rw [if_pos hlt, if_pos hle, List.take_append_of_le_length (Nat.le_of_lt hlt),
              List.drop_append_of_le_length (Nat.le_of_lt hlt)]
            rfl
          · -- the whole segment, and the rest from the following ones
            have hseg : segment.length ≤ n + 1 := Nat.le_of_not_lt hlt
            have hrest := ih (n + 1 - segment.length)
            rw [if_neg hlt, Option.map_map]
            rw [List.take_append, List.drop_append, List.take_of_length_le hseg,
              List.drop_of_length_le hseg, List.nil_append]
            have hcomp :
                ((fun r : List UInt8 × List (List UInt8) => (r.1, r.2.flatten)) ∘
                  fun r : List UInt8 × List (List UInt8) => (segment ++ r.1, r.2)) =
                (fun q : List UInt8 × List UInt8 => (segment ++ q.1, q.2)) ∘
                  fun r : List UInt8 × List (List UInt8) => (r.1, r.2.flatten) := rfl
            rw [hcomp, ← Option.map_map, hrest]
            by_cases hle : n + 1 - segment.length ≤ rest.flatten.length
            · rw [if_pos hle, if_pos (by omega)]
              rfl
            · rw [if_neg hle, if_neg (by omega)]
              rfl

/-- **Where the segments are cut does not matter to `readExact`.** -/
theorem readExact_spec (s : ByteStream) (n : Nat) :
    (s.readExact n).map (fun r => (r.1, r.2.bytes)) =
      if n ≤ s.bytes.length then some (s.bytes.take n, s.bytes.drop n) else none := by
  have hspec := readExactFrom_spec s.segments n
  rw [readExact]
  split
  · rename_i h
    rw [h] at hspec
    exact hspec
  · rename_i r h
    rw [h] at hspec
    exact hspec

theorem readExact_eq_none {s : ByteStream} {n : Nat} (h : s.bytes.length < n) :
    s.readExact n = none := by
  have hspec := readExact_spec s n
  rw [if_neg (Nat.not_le_of_lt h), Option.map_eq_none_iff] at hspec
  exact hspec

theorem readExact_eq_some {s : ByteStream} {n : Nat} (h : n ≤ s.bytes.length) :
    ∃ s', s.readExact n = some (s.bytes.take n, s') ∧ s'.bytes = s.bytes.drop n := by
  have hspec := readExact_spec s n
  rw [if_pos h, Option.map_eq_some_iff] at hspec
  obtain ⟨⟨bs, s'⟩, hread, heq⟩ := hspec
  obtain ⟨rfl, hbytes⟩ := Prod.mk.injEq .. ▸ heq
  exact ⟨s', hread, hbytes⟩

/-- What stands in front is read whole. -/
theorem readExact_append {s : ByteStream} {field rest : List UInt8} (h : s.bytes = field ++ rest) :
    ∃ s', s.readExact field.length = some (field, s') ∧ s'.bytes = rest := by
  obtain ⟨s', hread, hbytes⟩ := readExact_eq_some (s := s) (n := field.length) (by
    rw [h, List.length_append]
    exact Nat.le_add_right _ _)
  rw [h, List.take_left] at hread
  rw [h, List.drop_left] at hbytes
  exact ⟨s', hread, hbytes⟩

theorem read_one {s : ByteStream} {b : UInt8} {rest : List UInt8} (h : s.bytes = b :: rest) :
    (s.read 1).1 = [b] ∧ (s.read 1).2.bytes = rest := by
  have hjoin := s.read_append 1
  rw [h] at hjoin
  have hle := s.length_read_le 1
  have hne : (s.read 1).1 ≠ [] := by
    intro hnil
    rw [(read_eq_nil_iff Nat.one_pos).mp hnil] at h
    cases h
  rcases hread : (s.read 1).1 with - | ⟨b', more⟩
  · exact absurd hread hne
  · rw [hread, List.length_cons] at hle
    obtain rfl := List.length_eq_zero_iff.mp (show more.length = 0 by omega)
    rw [hread] at hjoin
    obtain ⟨rfl, hrest⟩ := List.cons.inj hjoin
    exact ⟨rfl, hrest⟩

end ByteStream

namespace Framed

/-- How a loop of reads has ended. -/
inductive Ending (ε : Type*) where
  /-- It goes on. -/
  | more
  | closed
  | failed (e : ε)
  deriving DecidableEq, Repr

/-- What a loop of reads has returned, and the reader behind it. -/
structure Transcript (σ α ε : Type*) where
  frames : List α
  ending : Ending ε
  reader : σ

variable {ι σ τ φ α β ε : Type*}

/-- Read until the stream ends or a read fails.  A read may look at its moment. -/
def readAll (read : ι → σ → Except ε (Option α) × σ) : List ι → σ → Transcript σ α ε
  | [], s => ⟨[], .more, s⟩
  | now :: moments, s =>
      match read now s with
      | (.ok (some frame), s) =>
          let rest := readAll read moments s
          { rest with frames := frame :: rest.frames }
      | (.ok none, s) => ⟨[], .closed, s⟩
      | (.error e, s) => ⟨[], .failed e, s⟩

variable {read : ι → σ → Except ε (Option α) × σ}

/-! ### What every read keeps -/

/-- A reader that is as it should be before every read has been left by a read from such a state. -/
theorem readAll_keeps (Inv Left : σ → Prop) (hleft : ∀ s, Inv s → Left s)
    (hframe : ∀ now s frame s', Inv s → read now s = (.ok (some frame), s') → Inv s')
    (hlast : ∀ now s, Inv s → Left (read now s).2) (moments : List ι) {s : σ} (hs : Inv s) :
    Left (readAll read moments s).reader := by
  induction moments generalizing s with
  | nil => exact hleft s hs
  | cons now moments ih =>
      have hnow := hlast now s hs
      rw [readAll]
      rcases hread : read now s with ⟨⟨e⟩ | ⟨- | frame⟩, s'⟩
      · rw [hread] at hnow
        exact hnow
      · rw [hread] at hnow
        exact hnow
      · exact ih (hframe now s frame s' hs hread)

/-! ### Sealing -/

variable {Seals : ι → τ → φ → List β → τ → Prop}

/-- The frames were sealed one after the other, each for the moment it is read at. -/
inductive Sealing (Seals : ι → τ → φ → List β → τ → Prop) :
    List ι → τ → List φ → List (List β) → Prop
  | nil (t : τ) : Sealing Seals [] t [] []
  | cons {now : ι} {t t' : τ} {frame : φ} {wire : List β} {moments : List ι} {frames : List φ}
      {wires : List (List β)} (hhead : Seals now t frame wire t')
      (htail : Sealing Seals moments t' frames wires) :
      Sealing Seals (now :: moments) t (frame :: frames) (wire :: wires)

/-- The reader follows the sealing side frame by frame. -/
structure InStep (read : ι → σ → Except ε (Option α) × σ) (Seals : ι → τ → φ → List β → τ → Prop)
    (content : φ → α) (Holds : σ → τ → List β → Prop) : Prop where
  whole : ∀ {now s t frame wire t' rest}, Seals now t frame wire t' → Holds s t (wire ++ rest) →
    ∃ s', read now s = (.ok (some (content frame)), s') ∧ Holds s' t' rest
  torn : ∀ {now s t frame wire t' part}, Seals now t frame wire t' → Holds s t part →
    part <+: wire → part ≠ [] → part.length < wire.length → ∃ e s', read now s = (.error e, s')
  closed : ∀ {now s t}, Holds s t [] → ∃ s', read now s = (.ok none, s')

variable {content : φ → α} {Holds : σ → τ → List β → Prop} {moments : List ι} {frames : List φ}
  {wires : List (List β)} {t : τ}

/-- **Every frame is read in its order, and then the end.** -/
theorem readAll_sealed (h : InStep read Seals content Holds)
    (hsealing : Sealing Seals moments t frames wires) (last : ι) (more : List ι) {s : σ}
    (hs : Holds s t wires.flatten) :
    ∃ s', readAll read (moments ++ last :: more) s = ⟨frames.map content, .closed, s'⟩ := by
  induction hsealing generalizing s with
  | nil t =>
      obtain ⟨s', hread⟩ : ∃ s', read last s = (.ok none, s') := h.closed hs
      refine ⟨s', ?_⟩
      show readAll read (last :: more) s = _
      rw [readAll, hread]
      rfl
  | cons hhead _ ih =>
      obtain ⟨s₁, hread, hs₁⟩ := h.whole hhead hs
      obtain ⟨s', hrest⟩ := ih hs₁
      refine ⟨s', ?_⟩
      rw [List.cons_append, readAll, hread]
      simp only [hrest, List.map_cons]

/-- **A stream that is cut inside a frame ends with an error**, behind the frames before it. -/
theorem readAll_torn (h : InStep read Seals content Holds)
    (hsealing : Sealing Seals moments t frames wires) (more : List ι) {n k : Nat} {wire : List β}
    (hwire : wires[n]? = some wire) (hpos : 0 < k) (hlt : k < wire.length) {s : σ}
    (hs : Holds s t ((wires.take n).flatten ++ wire.take k)) :
    ∃ e s', readAll read (moments ++ more) s = ⟨(frames.take n).map content, .failed e, s'⟩ := by
  induction hsealing generalizing n s with
  | nil t => cases hwire
  | @cons _ _ _ _ wire _ _ _ hhead _ ih =>
      cases n with
      | zero =>
          -- the cut is inside the next frame
          obtain rfl := Option.some.inj hwire
          rw [List.take_zero, List.flatten_nil, List.nil_append] at hs
          have hlen : (wire.take k).length = k := List.length_take_of_le (Nat.le_of_lt hlt)
          have hne : wire.take k ≠ [] := List.ne_nil_of_length_pos (by rwa [hlen])
          obtain ⟨e, s', hread⟩ := h.torn hhead hs (List.take_prefix k wire) hne (by rwa [hlen])
          refine ⟨e, s', ?_⟩
          rw [List.cons_append, readAll, hread]
          rfl
      | succ n =>
          rw [List.take_succ_cons, List.flatten_cons, List.append_assoc] at hs
          obtain ⟨s₁, hread, hs₁⟩ := h.whole hhead hs
          obtain ⟨e, s', hrest⟩ := ih hwire hs₁
          refine ⟨e, s', ?_⟩
          rw [List.cons_append, readAll, hread]
          simp only [hrest, List.take_succ_cons, List.map_cons]

end Framed
