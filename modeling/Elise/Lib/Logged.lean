/-
Elise/Lib/Logged.lean

Readers of bytes that keep a log.

A reader takes bytes off the front, or stops with an error, and notes what it has
done on the way.  Two readers may note different things about the same bytes: one
what a machine does, the other what the bytes mean.  They agree (`Agrees`) if what
the one notes is good just when what the other notes is good, and if both read the
same then.  Readers that are put together of agreeing ones agree (`Agrees.bind`).
-/
import Mathlib

/-- A reader with a log of `ω` and errors in `E`. -/
def LogReader (ω E α : Type) := List UInt8 → List ω × Except E (α × List UInt8)

namespace LogReader

variable {ω ω' E α β : Type}

/-- What is noted. -/
def log (r : LogReader ω E α) (bytes : List UInt8) : List ω := (r bytes).1

/-- What is read. -/
def result (r : LogReader ω E α) (bytes : List UInt8) : Except E (α × List UInt8) := (r bytes).2

protected def pure (a : α) : LogReader ω E α := fun bytes => ([], .ok (a, bytes))

def fail (e : E) : LogReader ω E α := fun _ => ([], .error e)

/-- What follows a reading. -/
def andThen (first : List ω × Except E (α × List UInt8)) (k : α → LogReader ω E β) :
    List ω × Except E (β × List UInt8) :=
  match first.2 with
  | .error e => (first.1, .error e)
  | .ok (a, rest) => (first.1 ++ (k a rest).1, (k a rest).2)

protected def bind (r : LogReader ω E α) (k : α → LogReader ω E β) : LogReader ω E β := fun bytes =>
  andThen (r bytes) k

instance : Monad (LogReader ω E) where
  pure := LogReader.pure
  bind := LogReader.bind

def readByte (eof : E) : LogReader ω E UInt8
  | [] => ([], .error eof)
  | b :: rest => ([], .ok (b, rest))

/-- Read `n` bytes, for which room is made before: `note` is given `n` and the
number of the bytes that there are. -/
def readBuf (note : Nat → Nat → ω) (eof : E) (n : Nat) : LogReader ω E (List UInt8) := fun bytes =>
  ([note n bytes.length], if bytes.length < n then .error eof else .ok (bytes.take n, bytes.drop n))

@[simp] theorem pure_apply (a : α) (bytes : List UInt8) :
    (pure a : LogReader ω E α) bytes = ([], .ok (a, bytes)) := rfl

theorem result_bind_ok {r : LogReader ω E α} {k : α → LogReader ω E β} {bytes rest : List UInt8} {a : α}
    (h : r.result bytes = .ok (a, rest)) : (r >>= k).result bytes = (k a).result rest := by
  show (andThen (r bytes) k).2 = _
  rw [result] at h
  rw [andThen, h]
  rfl

theorem result_bind_error {r : LogReader ω E α} {k : α → LogReader ω E β} {bytes : List UInt8} {e : E}
    (h : r.result bytes = .error e) : (r >>= k).result bytes = .error e := by
  show (andThen (r bytes) k).2 = _
  rw [result] at h
  rw [andThen, h]

@[simp] theorem result_readByte (eof : E) (b : UInt8) (rest : List UInt8) :
    (readByte eof : LogReader ω E UInt8).result (b :: rest) = .ok (b, rest) := rfl

theorem result_readBuf (note : Nat → Nat → ω) (eof : E) {n : Nat} {field : List UInt8} (h : field.length = n)
    (rest : List UInt8) : (readBuf note eof n).result (field ++ rest) = .ok (field, rest) := by
  have hlen : ¬ (field ++ rest).length < n := by
    rw [List.length_append]
    omega
  show (if (field ++ rest).length < n then _ else _) = _
  rw [if_neg hlen, ← h, List.take_left, List.drop_left]

/-! ### Progress -/

/-- Reading does not stop with this error, and what is left is a part of what
there was. -/
def Ends (e : E) (r : LogReader ω E α) (bytes : List UInt8) : Prop :=
  r.result bytes ≠ .error e ∧ ∀ a rest, r.result bytes = .ok (a, rest) → rest.length ≤ bytes.length

namespace Ends

variable {e : E} {bytes : List UInt8}

theorem pure (a : α) : Ends e (pure a : LogReader ω E α) bytes := by
  constructor
  · rintro ⟨⟩
  · rintro _ _ ⟨⟩
    exact Nat.le_refl _

theorem fail {e' : E} (h : e' ≠ e) : Ends e (fail e' : LogReader ω E α) bytes := by
  constructor
  · intro heq
    exact h (Except.error.inj heq)
  · rintro a rest ⟨⟩

theorem bind {r : LogReader ω E α} {k : α → LogReader ω E β} (h : Ends e r bytes)
    (hk : ∀ a rest, rest.length ≤ bytes.length → Ends e (k a) rest) : Ends e (r >>= k) bytes := by
  obtain ⟨hne, hless⟩ := h
  cases hr : r.result bytes with
  | error e' =>
      rw [hr] at hne
      rw [Ends, result_bind_error hr]
      refine ⟨fun heq => hne (congrArg _ (Except.error.inj heq)), ?_⟩
      rintro a rest ⟨⟩
  | ok p =>
      obtain ⟨a, middle⟩ := p
      have hmiddle := hless a middle hr
      obtain ⟨hne', hless'⟩ := hk a middle hmiddle
      rw [Ends, result_bind_ok hr]
      exact ⟨hne', fun b rest heq => Nat.le_trans (hless' b rest heq) hmiddle⟩

theorem readByte {eof : E} (h : eof ≠ e) : Ends e (readByte eof : LogReader ω E UInt8) bytes := by
  cases bytes with
  | nil => exact fail h
  | cons b bytes =>
      constructor
      · rintro ⟨⟩
      · rintro _ _ ⟨⟩
        exact Nat.le_succ _

theorem readBuf {eof : E} (h : eof ≠ e) (note : Nat → Nat → ω) (n : Nat) :
    Ends e (readBuf note eof n) bytes := by
  have hresult : (LogReader.readBuf note eof n).result bytes =
    if bytes.length < n then .error eof else .ok (bytes.take n, bytes.drop n) := rfl
  rw [Ends, hresult]
  split_ifs
  · refine ⟨fun heq => h (Except.error.inj heq), ?_⟩
    rintro a rest ⟨⟩
  · constructor
    · rintro ⟨⟩
    · rintro _ _ ⟨⟩
      rw [List.length_drop]
      exact Nat.sub_le _ _

end Ends

/-! ### Agreement -/

/-- The logs are good together, and then the same is read. -/
def Agrees (good : ω → Prop) (good' : ω' → Prop) (r : LogReader ω E α) (r' : LogReader ω' E α) : Prop :=
  ∀ bytes, ((∀ o ∈ r.log bytes, good o) ↔ ∀ o ∈ r'.log bytes, good' o) ∧
    ((∀ o ∈ r'.log bytes, good' o) → r.result bytes = r'.result bytes)

namespace Agrees

variable {good : ω → Prop} {good' : ω' → Prop}

theorem pure (a : α) : Agrees good good' (pure a : LogReader ω E α) (pure a) :=
  fun _ => ⟨iff_of_true (by rintro o ⟨⟩) (by rintro o ⟨⟩), fun _ => rfl⟩

theorem fail (e : E) : Agrees good good' (fail e : LogReader ω E α) (fail e) :=
  fun _ => ⟨iff_of_true (by rintro o ⟨⟩) (by rintro o ⟨⟩), fun _ => rfl⟩

theorem readByte (eof : E) : Agrees good good' (readByte eof : LogReader ω E UInt8) (readByte eof) := by
  intro bytes
  cases bytes with
  | nil => exact ⟨iff_of_true (by rintro o ⟨⟩) (by rintro o ⟨⟩), fun _ => rfl⟩
  | cons b bytes => exact ⟨iff_of_true (by rintro o ⟨⟩) (by rintro o ⟨⟩), fun _ => rfl⟩

theorem readBuf {note : Nat → Nat → ω} {note' : Nat → Nat → ω'}
    (h : ∀ n there, good (note n there) ↔ good' (note' n there)) (eof : E) (n : Nat) :
    Agrees good good' (readBuf note eof n) (readBuf note' eof n) := by
  intro bytes
  refine ⟨?_, fun _ => rfl⟩
  show (∀ o ∈ [note n bytes.length], good o) ↔ ∀ o ∈ [note' n bytes.length], good' o
  rw [List.forall_mem_singleton, List.forall_mem_singleton]
  exact h n bytes.length

/-- A log is that of the first reader, and of the second one if it is reached. -/
theorem forall_mem_log_bind {r : LogReader ω E α} {k : α → LogReader ω E β} {bytes : List UInt8} :
    (∀ o ∈ (r >>= k).log bytes, good o) ↔ (∀ o ∈ r.log bytes, good o) ∧
      ∀ a rest, r.result bytes = .ok (a, rest) → ∀ o ∈ (k a).log rest, good o := by
  have hlog : (r >>= k).log bytes = (andThen (r bytes) k).1 := rfl
  rw [hlog, andThen, result, log]
  cases (r bytes).2 with
  | error e => exact ⟨fun h => ⟨h, by rintro a rest ⟨⟩⟩, fun h => h.1⟩
  | ok p =>
      obtain ⟨a, rest⟩ := p
      show (∀ o ∈ (r bytes).1 ++ (k a rest).1, good o) ↔ _
      rw [List.forall_mem_append]
      constructor
      · rintro ⟨hfirst, hsecond⟩
        refine ⟨hfirst, ?_⟩
        rintro _ _ ⟨⟩
        exact hsecond
      · rintro ⟨hfirst, hsecond⟩
        exact ⟨hfirst, hsecond a rest rfl⟩

theorem bind {r : LogReader ω E α} {r' : LogReader ω' E α} {k : α → LogReader ω E β}
    {k' : α → LogReader ω' E β} (h : Agrees good good' r r') (hk : ∀ a, Agrees good good' (k a) (k' a)) :
    Agrees good good' (r >>= k) (r' >>= k') := by
  intro bytes
  obtain ⟨hlog, hsame⟩ := h bytes
  have hiff : (∀ o ∈ (r >>= k).log bytes, good o) ↔ ∀ o ∈ (r' >>= k').log bytes, good' o := by
    rw [forall_mem_log_bind, forall_mem_log_bind, hlog]
    apply and_congr_right
    intro hgood
    rw [hsame hgood]
    exact forall_congr' fun a => forall_congr' fun rest => imp_congr_right fun _ => (hk a rest).1
  refine ⟨hiff, ?_⟩
  intro hgood
  rw [forall_mem_log_bind] at hgood
  have hfirst := hsame hgood.1
  cases hr : r'.result bytes with
  | error e =>
      rw [result_bind_error hr, result_bind_error (hfirst.trans hr)]
  | ok p =>
      obtain ⟨a, rest⟩ := p
      rw [result_bind_ok hr, result_bind_ok (hfirst.trans hr)]
      exact (hk a rest).2 (hgood.2 a rest hr)

end Agrees

end LogReader
