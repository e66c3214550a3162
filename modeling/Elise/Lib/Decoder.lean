/-
Elise/Lib/Decoder.lean

Decoders that take frames off the front of a buffer.

A decoder is asked again and again, and between two calls more is put behind what the buffer
holds.  It answers that it needs more, with a frame, or with an error, and leaves its state and
the buffer as they are by then.  `Incremental` says that an answer other than "more" does not
depend on what comes behind, and that nothing is lost by asking too early.

Such a decoder does not see where its input is cut: feeding it in pieces comes to the same as
draining all at once (`feedAll_eq`).  What an encoder writes piece by piece is decoded piece by
piece (`Decodes`).
-/
import Mathlib

namespace Decoder

variable {σ β φ ε : Type*}

/-- What a decoder answers, with its state and what is left of the buffer. -/
inductive Answer (σ β φ ε : Type*) where
  | more (s : σ) (rest : List β)
  | frame (f : φ) (s : σ) (rest : List β)
  | failed (e : ε) (s : σ) (rest : List β)
  deriving DecidableEq, Repr

/-- The same answer, with more behind what is left. -/
def Answer.extend (ext : List β) : Answer σ β φ ε → Answer σ β φ ε
  | more s rest => more s (rest ++ ext)
  | frame f s rest => frame f s (rest ++ ext)
  | failed e s rest => failed e s (rest ++ ext)

/-- What the decoder came to: the frames, each with the state behind it, and the error that
ended it. -/
@[ext] structure Outcome (σ β φ ε : Type*) where
  frames : List (φ × σ)
  error : Option ε
  state : σ
  rest : List β
  deriving DecidableEq, Repr

/-- The same outcome behind earlier frames. -/
def Outcome.after (frames : List (φ × σ)) (o : Outcome σ β φ ε) : Outcome σ β φ ε :=
  { o with frames := frames ++ o.frames }

@[simp] theorem Outcome.after_nil (o : Outcome σ β φ ε) : o.after [] = o := rfl

@[simp] theorem Outcome.after_after (fs gs : List (φ × σ)) (o : Outcome σ β φ ε) :
    (o.after gs).after fs = o.after (fs ++ gs) := by
  simp [Outcome.after]

variable (decode : σ → List β → Answer σ β φ ε)

/-- Take frames until there is no more, with fuel. -/
def drainLoop : (fuel : Nat) → σ → List β → Outcome σ β φ ε
  | 0, s, src => ⟨[], none, s, src⟩
  | fuel + 1, s, src =>
      match decode s src with
      | .more s' rest => ⟨[], none, s', rest⟩
      | .failed e s' rest => ⟨[], some e, s', rest⟩
      | .frame f s' rest => (drainLoop fuel s' rest).after [(f, s')]

/-- Take frames until there is no more.  A frame takes something off the buffer. -/
def drain (s : σ) (src : List β) : Outcome σ β φ ε := drainLoop decode (src.length + 1) s src

/-- More comes in: it is put behind what is left, and the decoder is asked until it needs more.
After an error it is not asked again. -/
def feed (o : Outcome σ β φ ε) (piece : List β) : Outcome σ β φ ε :=
  match o.error with
  | some _ => { o with rest := o.rest ++ piece }
  | none => (drain decode o.state (o.rest ++ piece)).after o.frames

/-- Nothing came in yet. -/
def begin (s : σ) : Outcome σ β φ ε := ⟨[], none, s, []⟩

def feedAll (s : σ) (pieces : List (List β)) : Outcome σ β φ ε :=
  pieces.foldl (feed decode) (begin s)

/-- The answers do not depend on what comes later. -/
structure Incremental : Prop where
  nil : ∀ s, decode s [] = .more s []
  more : ∀ {s src s' rest}, decode s src = .more s' rest →
    ∀ ext, decode s (src ++ ext) = decode s' (rest ++ ext)
  frame : ∀ {s src f s' rest}, decode s src = .frame f s' rest →
    rest.length < src.length ∧ ∀ ext, decode s (src ++ ext) = .frame f s' (rest ++ ext)
  failed : ∀ {s src e s' rest}, decode s src = .failed e s' rest →
    ∀ ext, decode s (src ++ ext) = .failed e s' (rest ++ ext)

variable {decode}

/-! ### Draining -/

theorem drainLoop_succ (fuel : Nat) (s : σ) (src : List β) :
    drainLoop decode (fuel + 1) s src =
      match decode s src with
      | .more s' rest => ⟨[], none, s', rest⟩
      | .failed e s' rest => ⟨[], some e, s', rest⟩
      | .frame f s' rest => (drainLoop decode fuel s' rest).after [(f, s')] := rfl

theorem drain_of_more {s s' : σ} {src rest : List β} (h : decode s src = .more s' rest) :
    drain decode s src = ⟨[], none, s', rest⟩ := by
  rw [drain, drainLoop_succ, h]

theorem drain_of_failed {s s' : σ} {src rest : List β} {e : ε}
    (h : decode s src = .failed e s' rest) : drain decode s src = ⟨[], some e, s', rest⟩ := by
  rw [drain, drainLoop_succ, h]

namespace Incremental

variable (hd : Incremental decode)

include hd

/-- Fuel beyond the length of the buffer makes no difference. -/
theorem drainLoop_eq {fuel fuel' : Nat} {s : σ} {src : List β} (h : src.length < fuel)
    (h' : src.length < fuel') : drainLoop decode fuel s src = drainLoop decode fuel' s src := by
  induction fuel generalizing fuel' s src with
  | zero => omega
  | succ fuel ih =>
      cases fuel' with
      | zero => omega
      | succ fuel' =>
          rw [drainLoop_succ, drainLoop_succ]
          rcases hans : decode s src with ⟨s', rest⟩ | ⟨f, s', rest⟩ | ⟨e, s', rest⟩
          · rfl
          · have hless := (hd.frame hans).1
            show (drainLoop decode fuel s' rest).after _ = (drainLoop decode fuel' s' rest).after _
            rw [ih (by omega) (show rest.length < fuel' by omega)]
          · rfl

theorem drain_of_frame {s s' : σ} {src rest : List β} {f : φ}
    (h : decode s src = .frame f s' rest) :
    drain decode s src = (drain decode s' rest).after [(f, s')] := by
  have hless := (hd.frame h).1
  rw [drain, drainLoop_succ, h]
  show (drainLoop decode src.length s' rest).after _ = (drain decode s' rest).after _
  rw [drain, hd.drainLoop_eq hless (Nat.lt_succ_self _)]

/-- To need more is answered once. -/
theorem more_again {s s' : σ} {src rest : List β} (h : decode s src = .more s' rest) :
    decode s' rest = .more s' rest := by
  have hext := hd.more h []
  rw [List.append_nil, List.append_nil] at hext
  rw [← hext, h]

/-- What is answered alike is drained alike. -/
theorem drain_congr {s t : σ} {src src' : List β} (h : decode s src = decode t src') :
    drain decode s src = drain decode t src' := by
  rcases hans : decode t src' with ⟨s', rest⟩ | ⟨f, s', rest⟩ | ⟨e, s', rest⟩
  · rw [drain_of_more hans, drain_of_more (h.trans hans)]
  · rw [hd.drain_of_frame hans, hd.drain_of_frame (h.trans hans)]
  · rw [drain_of_failed hans, drain_of_failed (h.trans hans)]

/-- **What comes later is decoded later.** -/
theorem drain_append (s : σ) (src ext : List β) :
    drain decode s (src ++ ext) = feed decode (drain decode s src) ext := by
  induction hlen : src.length using Nat.strongRecOn generalizing s src with
  | ind n ih =>
      subst hlen
      rcases hans : decode s src with ⟨s', rest⟩ | ⟨f, s', rest⟩ | ⟨e, s', rest⟩
      · -- the same call with more in the buffer
        rw [drain_of_more hans]
        show drain decode s (src ++ ext) = (drain decode s' (rest ++ ext)).after []
        rw [hd.drain_congr (hd.more hans ext), Outcome.after_nil]
      · obtain ⟨hless, hext⟩ := hd.frame hans
        rw [hd.drain_of_frame hans, hd.drain_of_frame (hext ext), ih rest.length hless s' rest rfl]
        generalize drain decode s' rest = o
        obtain ⟨frames, error, state, left⟩ := o
        cases error with
        | none => exact Outcome.after_after [(f, s')] frames _
        | some e => rfl
      · rw [drain_of_failed hans, drain_of_failed (hd.failed hans ext)]
        rfl

/-- **Feeding in pieces comes to the same as draining all at once.** -/
theorem feedAll_eq (s : σ) (pieces : List (List β)) :
    feedAll decode s pieces = drain decode s pieces.flatten := by
  induction pieces using List.reverseRecOn with
  | nil => exact (drain_of_more (hd.nil s)).symm
  | append_singleton pieces piece ih =>
      rw [feedAll, List.foldl_append, List.flatten_append, List.flatten_singleton, hd.drain_append, ← ih]
      rfl

/-- Two ways of cutting the same bytes. -/
theorem feedAll_congr (s : σ) {pieces pieces' : List (List β)} (h : pieces.flatten = pieces'.flatten) :
    feedAll decode s pieces = feedAll decode s pieces' := by
  rw [hd.feedAll_eq, hd.feedAll_eq, h]

end Incremental

/-- What a decoder answers with more in the buffer, when it has answered without. -/
def Answer.resume (decode : σ → List β → Answer σ β φ ε) (ext : List β) :
    Answer σ β φ ε → Answer σ β φ ε
  | more s rest => decode s (rest ++ ext)
  | frame f s rest => frame f s (rest ++ ext)
  | failed e s rest => failed e s (rest ++ ext)

theorem Incremental.of_resume (hnil : ∀ s, decode s [] = .more s [])
    (hframe : ∀ {s src f s' rest}, decode s src = .frame f s' rest → rest.length < src.length)
    (hresume : ∀ s src ext, decode s (src ++ ext) = (decode s src).resume decode ext) :
    Incremental decode where
  nil := hnil
  more h ext := by
    rw [hresume, h]
    rfl
  frame h := by
    refine ⟨hframe h, ?_⟩
    intro ext
    rw [hresume, h]
    rfl
  failed h ext := by
    rw [hresume, h]
    rfl

/-- A decoder that leaves everything as it is while it needs more. -/
theorem Incremental.of_extend (hnil : ∀ s, decode s [] = .more s [])
    (hmore : ∀ {s src s' rest}, decode s src = .more s' rest → s' = s ∧ rest = src)
    (hframe : ∀ {s src f s' rest}, decode s src = .frame f s' rest → rest.length < src.length)
    (hext : ∀ {s src} ext, (∀ s' rest, decode s src ≠ .more s' rest) →
      decode s (src ++ ext) = (decode s src).extend ext) : Incremental decode where
  nil := hnil
  more h ext := by
    obtain ⟨rfl, rfl⟩ := hmore h
    rfl
  frame h := by
    refine ⟨hframe h, ?_⟩
    intro ext
    rw [hext ext (by rw [h]; exact nofun), h]
    rfl
  failed h ext := by
    rw [hext ext (by rw [h]; exact nofun), h]
    rfl

/-! ### What an encoder writes -/

variable (decode) in
/-- The bytes decode to the frames, whatever comes behind them, and lead to the state `s'`. -/
def Decodes (s : σ) (bytes : List β) (frames : List (φ × σ)) (s' : σ) : Prop :=
  ∀ ext, drain decode s (bytes ++ ext) = (drain decode s' ext).after frames

theorem decodes_nil (s : σ) : Decodes decode s [] [] s := fun _ => rfl

theorem Decodes.append {s t u : σ} {xs ys : List β} {fs gs : List (φ × σ)}
    (h : Decodes decode s xs fs t) (h' : Decodes decode t ys gs u) :
    Decodes decode s (xs ++ ys) (fs ++ gs) u := by
  intro ext
  rw [List.append_assoc, h, h', Outcome.after_after]

theorem Incremental.decodes_single (hd : Incremental decode) {s s' : σ} {bytes : List β} {f : φ}
    (h : decode s bytes = .frame f s' []) : Decodes decode s bytes [(f, s')] s' := by
  intro ext
  have hext := (hd.frame h).2 ext
  rw [List.nil_append] at hext
  exact hd.drain_of_frame hext

/-- All of it is decoded, and nothing is left over. -/
theorem Incremental.feedAll_of_decodes (hd : Incremental decode) {s s' : σ} {bytes : List β}
    {frames : List (φ × σ)} (h : Decodes decode s bytes frames s') {pieces : List (List β)}
    (hpieces : pieces.flatten = bytes) : feedAll decode s pieces = ⟨frames, none, s', []⟩ := by
  have hall := h []
  rw [List.append_nil, drain_of_more (hd.nil s')] at hall
  rw [hd.feedAll_eq, hpieces, hall]
  simp [Outcome.after]

end Decoder
