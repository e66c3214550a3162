/-
Elise/Lib/Poll.lean

Streams that are polled.

A poll of a stream answers at once: with some bytes, with an error, or that it
is not ready.  Code over such a stream keeps what it could not pass on and what
it has taken so far, and goes on at the next poll.  Two loops are shared by all
of it:

* `drain` writes a buffer until it is empty, not ready or failed.  The answers
  of the stream are a list that the environment chooses; what was written and
  what is left are always the buffer (`drain_append`);
* `fill` reads until a buffer is full, not ready or at the end.  The stream is
  the segments that arrive, with `none` where it is not ready; no byte is lost
  (`fill_append`).

Code that asks for as much as its buffer holds polls the stream once at a time
(`Arrivals.poll`).
-/
import Mathlib

namespace Poll

variable {α β : Type*}

/-- The answer of a poll. -/
inductive Result (β : Type*) where
  | pending
  | ready (value : β)
  | error
  deriving DecidableEq, Repr

/-! ### Writing -/

/-- The answer of a stream that is written to. -/
inductive Wrote where
  | pending
  | some (n : Nat)
  | error
  deriving DecidableEq, Repr

/-- How a loop over a stream ends. -/
inductive Verdict where
  | done
  | pending
  /-- An error, or nothing more is taken. -/
  | failed
  /-- Nothing more comes. -/
  | ended
  deriving DecidableEq, Repr

structure Drained (α : Type*) where
  /-- The answers that were not asked for. -/
  answers : List Wrote
  written : List α
  left : List α
  verdict : Verdict

/-- Write until nothing is left.  A stream that takes nothing has failed. -/
def drain : List Wrote → List α → Drained α
  | answers, [] => ⟨answers, [], [], .done⟩
  | [], buf => ⟨[], [], buf, .pending⟩
  | .pending :: answers, buf => ⟨answers, [], buf, .pending⟩
  | .error :: answers, buf => ⟨answers, [], buf, .failed⟩
  | .some 0 :: answers, buf => ⟨answers, [], buf, .failed⟩
  | .some (n + 1) :: answers, buf =>
      let rest := drain answers (buf.drop (n + 1))
      { rest with written := buf.take (n + 1) ++ rest.written }

/-- What was written and what is left are the buffer. -/
theorem drain_append (answers : List Wrote) (buf : List α) :
    (drain answers buf).written ++ (drain answers buf).left = buf := by
  fun_induction drain answers buf with
  | case6 answers n buf hne rest ih =>
      rw [List.append_assoc, ih, List.take_append_drop]
  | _ => simp

theorem left_eq_nil_of_done {answers : List Wrote} {buf : List α}
    (h : (drain answers buf).verdict = .done) : (drain answers buf).left = [] := by
  fun_induction drain answers buf with
  | case1 => rfl
  | case6 answers n buf hne rest ih => exact ih h
  | _ => cases h

theorem left_eq_drop (answers : List Wrote) (buf : List α) :
    (drain answers buf).left = buf.drop (drain answers buf).written.length := by
  conv_rhs => rw [← drain_append answers buf]
  rw [List.drop_left' (by rw [drain_append])]

/-- The stream is not ready, or takes something. -/
def Wrote.Partial : Wrote → Prop
  | .pending => True
  | .some n => 0 < n
  | .error => False

/-- A stream that always takes something when it is ready does not fail. -/
theorem drain_taking {answers : List Wrote} (h : ∀ answer ∈ answers, answer.Partial)
    (buf : List α) :
    ((drain answers buf).verdict = .done ∨ (drain answers buf).verdict = .pending) ∧
      ∀ answer ∈ (drain answers buf).answers, answer.Partial := by
  fun_induction drain answers buf with
  | case1 answers => exact ⟨.inl rfl, h⟩
  | case2 => exact ⟨.inr rfl, h⟩
  | case3 => exact ⟨.inr rfl, fun answer hmem => h answer (List.mem_cons_of_mem _ hmem)⟩
  | case4 => exact (h _ List.mem_cons_self).elim
  | case5 => exact absurd (h _ List.mem_cons_self) (Nat.lt_irrefl 0)
  | case6 answers n buf hne rest ih =>
      exact ih fun answer hmem => h answer (List.mem_cons_of_mem _ hmem)

/-! ### Writing to a stream that may take nothing -/

/-- What the `count` answers from the `k`-th on take together. -/
def total (answers : Nat → Wrote) : (k count : Nat) → Nat
  | _, 0 => 0
  | k, count + 1 =>
      (match answers k with
        | .some n => n
        | _ => 0) + total answers (k + 1) count

/-- The stream always takes what it is asked to, but never `m` items in the end: from some
time on it takes nothing. -/
def Stalls (answers : Nat → Wrote) (k m : Nat) : Prop :=
  ∀ count, (∃ n, answers (k + count) = .some n) ∧ total answers k (count + 1) < m

/-- It takes `m` items with `count` answers, and not with fewer. -/
def Takes (answers : Nat → Wrote) (k m count : Nat) : Prop :=
  (∀ i < count, (∃ n, answers (k + i) = .some n) ∧ total answers k i < m) ∧ m ≤ total answers k count

structure Poured (α : Type*) where
  /-- The number of the answer that comes next. -/
  asked : Nat
  written : List α
  left : List α
  verdict : Verdict

/-- Write until nothing is left.  A stream that takes nothing is asked again; `none` if the
fuel is used up. -/
def pour (answers : Nat → Wrote) : (fuel k : Nat) → List α → Option (Poured α)
  | _, k, [] => some ⟨k, [], [], .done⟩
  | 0, _, _ :: _ => none
  | fuel + 1, k, b :: buf =>
      match answers k with
      | .pending => some ⟨k + 1, [], b :: buf, .pending⟩
      | .error => some ⟨k + 1, [], b :: buf, .failed⟩
      | .some n =>
          (pour answers fuel (k + 1) ((b :: buf).drop n)).map fun rest =>
            { rest with written := (b :: buf).take n ++ rest.written }

section

variable {answers : Nat → Wrote} {fuel k : Nat} {buf : List α} {out : Poured α}

theorem pour_nil (fuel k : Nat) : pour answers fuel k ([] : List α) = some ⟨k, [], [], .done⟩ := by
  cases fuel <;> rfl

theorem pour_taken {n : Nat} (hne : buf ≠ []) (h : answers k = .some n) :
    pour answers (fuel + 1) k buf =
      (pour answers fuel (k + 1) (buf.drop n)).map fun rest =>
        { rest with written := buf.take n ++ rest.written } := by
  cases buf with
  | nil => exact absurd rfl hne
  | cons b buf => rw [pour, h]

theorem pour_pending (hne : buf ≠ []) (h : answers k = .pending) :
    pour answers (fuel + 1) k buf = some ⟨k + 1, [], buf, .pending⟩ := by
  cases buf with
  | nil => exact absurd rfl hne
  | cons b buf => rw [pour, h]

theorem pour_error (hne : buf ≠ []) (h : answers k = .error) :
    pour answers (fuel + 1) k buf = some ⟨k + 1, [], buf, .failed⟩ := by
  cases buf with
  | nil => exact absurd rfl hne
  | cons b buf => rw [pour, h]

/-- More fuel gives the same. -/
theorem pour_mono {fuel' : Nat} (hle : fuel ≤ fuel') (h : pour answers fuel k buf = some out) :
    pour answers fuel' k buf = some out := by
  induction fuel generalizing k buf out fuel' with
  | zero =>
      cases buf with
      | nil =>
          rw [pour_nil] at h ⊢
          exact h
      | cons b buf => cases h
  | succ fuel ih =>
      by_cases hne : buf = []
      · subst hne
        rw [pour_nil] at h ⊢
        exact h
      · obtain ⟨fuel', rfl⟩ : ∃ m, fuel' = m + 1 := ⟨fuel' - 1, by omega⟩
        cases hanswer : answers k with
        | pending =>
            rw [pour_pending hne hanswer] at h ⊢
            exact h
        | error =>
            rw [pour_error hne hanswer] at h ⊢
            exact h
        | some n =>
            rw [pour_taken hne hanswer] at h ⊢
            obtain ⟨rest, hrest, rfl⟩ := Option.map_eq_some_iff.mp h
            rw [ih (Nat.le_of_succ_le_succ hle) hrest]
            rfl

theorem total_succ {n : Nat} (h : answers k = .some n) (count : Nat) :
    total answers k (count + 1) = n + total answers (k + 1) count := by
  rw [total, h]

theorem stalls_succ {n m : Nat} (h : answers k = .some n) (hlt : n < m) :
    Stalls answers k m ↔ Stalls answers (k + 1) (m - n) := by
  constructor
  · intro hstalls count
    obtain ⟨hanswer, hsum⟩ := hstalls (count + 1)
    rw [total_succ h] at hsum
    refine ⟨?_, by omega⟩
    rw [Nat.add_assoc, Nat.add_comm 1]
    exact hanswer
  · intro hstalls count
    rw [total_succ h]
    cases count with
    | zero => exact ⟨⟨n, h⟩, by rw [total]; omega⟩
    | succ count =>
        obtain ⟨hanswer, hsum⟩ := hstalls count
        rw [Nat.add_assoc, Nat.add_comm 1] at hanswer
        exact ⟨hanswer, by omega⟩

/-- As long as the stream takes nothing, the loop goes on. -/
theorem pour_of_stalls (h : Stalls answers k buf.length) (fuel : Nat) :
    pour answers fuel k buf = none := by
  induction fuel generalizing k buf with
  | zero =>
      obtain ⟨-, hsum⟩ := h 0
      cases buf with
      | nil => exact absurd hsum (Nat.not_lt_zero _)
      | cons b buf => rfl
  | succ fuel ih =>
      obtain ⟨⟨n, hn⟩, hsum⟩ := h 0
      rw [Nat.add_zero] at hn
      rw [total_succ hn, total, Nat.add_zero] at hsum
      have hne : buf ≠ [] := List.ne_nil_of_length_pos (by omega)
      rw [pour_taken hne hn, ih, Option.map_none]
      rw [List.length_drop]
      exact (stalls_succ hn hsum).mp h

/-- Otherwise it ends. -/
theorem returns_of_not_stalls {count : Nat}
    (h : (¬ ∃ n, answers (k + count) = .some n) ∨ buf.length ≤ total answers k (count + 1)) :
    ∃ fuel out, pour answers fuel k buf = some out := by
  induction count generalizing k buf with
  | zero =>
      by_cases hne : buf = []
      · subst hne
        exact ⟨0, _, pour_nil 0 k⟩
      · cases hanswer : answers k with
        | pending => exact ⟨1, _, pour_pending hne hanswer⟩
        | error => exact ⟨1, _, pour_error hne hanswer⟩
        | some n =>
            have hle : buf.length ≤ n := by
              rcases h with hnot | hle
              · exact absurd ⟨n, hanswer⟩ hnot
              · rw [total_succ hanswer, total, Nat.add_zero] at hle
                exact hle
            refine ⟨1, ?_⟩
            rw [pour_taken hne hanswer, List.drop_eq_nil_of_le hle, pour_nil]
            exact ⟨_, rfl⟩
  | succ count ih =>
      by_cases hne : buf = []
      · subst hne
        exact ⟨0, _, pour_nil 0 k⟩
      · cases hanswer : answers k with
        | pending => exact ⟨1, _, pour_pending hne hanswer⟩
        | error => exact ⟨1, _, pour_error hne hanswer⟩
        | some n =>
            have hnext : (¬ ∃ n, answers (k + 1 + count) = .some n) ∨
                (buf.drop n).length ≤ total answers (k + 1) (count + 1) := by
              rcases h with hnot | hle
              · left
                rw [Nat.add_assoc, Nat.add_comm 1]
                exact hnot
              · right
                rw [total_succ hanswer] at hle
                rw [List.length_drop]
                omega
            obtain ⟨fuel, out, hout⟩ := ih hnext
            refine ⟨fuel + 1, ?_⟩
            rw [pour_taken hne hanswer, hout]
            exact ⟨_, rfl⟩

/-- **The loop returns exactly when the stream does not stall.** -/
theorem returns_pour_iff : (∃ fuel out, pour answers fuel k buf = some out) ↔ ¬ Stalls answers k buf.length := by
  constructor
  · rintro ⟨fuel, out, hout⟩ hstalls
    rw [pour_of_stalls hstalls] at hout
    cases hout
  · intro hnot
    rw [Stalls, not_forall] at hnot
    obtain ⟨count, hcount⟩ := hnot
    rw [not_and_or, Nat.not_lt] at hcount
    exact returns_of_not_stalls hcount

theorem takes_zero {count : Nat} : Takes answers k 0 count ↔ count = 0 := by
  constructor
  · intro h
    by_contra hne
    exact absurd (h.1 0 (Nat.pos_of_ne_zero hne)).2 (Nat.not_lt_zero _)
  · rintro rfl
    exact ⟨fun i hi => absurd hi (Nat.not_lt_zero i), Nat.zero_le _⟩

theorem takes_succ {n m count : Nat} (hm : 0 < m) (h : answers k = .some n) :
    Takes answers k m (count + 1) ↔ Takes answers (k + 1) (m - n) count := by
  constructor
  · rintro ⟨hbefore, hafter⟩
    rw [total_succ h] at hafter
    refine ⟨fun i hi => ?_, by omega⟩
    obtain ⟨hanswer, hsum⟩ := hbefore (i + 1) (Nat.succ_lt_succ hi)
    rw [total_succ h] at hsum
    refine ⟨?_, by omega⟩
    rw [Nat.add_assoc, Nat.add_comm 1]
    exact hanswer
  · rintro ⟨hbefore, hafter⟩
    refine ⟨fun i hi => ?_, by rw [total_succ h]; omega⟩
    cases i with
    | zero => exact ⟨⟨n, h⟩, hm⟩
    | succ i =>
        obtain ⟨hanswer, hsum⟩ := hbefore i (Nat.lt_of_succ_lt_succ hi)
        rw [Nat.add_assoc, Nat.add_comm 1] at hanswer
        refine ⟨hanswer, ?_⟩
        rw [total_succ h]
        omega

/-- **Where the loop is done**: when all has been taken for the first time. -/
theorem takes_of_pour (h : pour answers fuel k buf = some out) (hdone : out.verdict = .done) :
    ∃ count, Takes answers k buf.length count ∧ out.asked = k + count ∧ out.left = [] := by
  induction fuel generalizing k buf out with
  | zero =>
      cases buf with
      | nil =>
          obtain rfl := Option.some.inj h
          exact ⟨0, takes_zero.mpr rfl, rfl, rfl⟩
      | cons b buf => cases h
  | succ fuel ih =>
      by_cases hne : buf = []
      · subst hne
        obtain rfl := Option.some.inj h
        exact ⟨0, takes_zero.mpr rfl, rfl, rfl⟩
      · cases hanswer : answers k with
        | pending =>
            rw [pour_pending hne hanswer] at h
            obtain rfl := Option.some.inj h
            cases hdone
        | error =>
            rw [pour_error hne hanswer] at h
            obtain rfl := Option.some.inj h
            cases hdone
        | some n =>
            rw [pour_taken hne hanswer] at h
            obtain ⟨rest, hrest, rfl⟩ := Option.map_eq_some_iff.mp h
            obtain ⟨count, htakes, hasked, hleft⟩ := ih hrest hdone
            rw [List.length_drop] at htakes
            refine ⟨count + 1, (takes_succ (List.length_pos_iff.mpr hne) hanswer).mpr htakes, ?_, hleft⟩
            rw [hasked, Nat.add_assoc, Nat.add_comm 1]

theorem pour_of_takes {count : Nat} (h : Takes answers k buf.length count) :
    ∃ fuel out, pour answers fuel k buf = some out ∧ out.verdict = .done ∧ out.asked = k + count := by
  induction count generalizing k buf with
  | zero =>
      obtain rfl : buf = [] := List.length_eq_zero_iff.mp (Nat.le_zero.mp h.2)
      exact ⟨0, _, pour_nil 0 k, rfl, rfl⟩
  | succ count ih =>
      obtain ⟨⟨n, hanswer⟩, hpos⟩ := h.1 0 (Nat.succ_pos count)
      rw [Nat.add_zero] at hanswer
      rw [total] at hpos
      have hne : buf ≠ [] := List.ne_nil_of_length_pos hpos
      have htakes := (takes_succ hpos hanswer).mp h
      rw [← List.length_drop] at htakes
      obtain ⟨fuel, out, hout, hdone, hasked⟩ := ih htakes
      have hround : pour answers (fuel + 1) k buf =
          some { out with written := buf.take n ++ out.written } := by
        rw [pour_taken hne hanswer, hout]
        rfl
      refine ⟨fuel + 1, _, hround, hdone, ?_⟩
      show out.asked = k + (count + 1)
      rw [hasked, Nat.add_assoc, Nat.add_comm 1]

end

/-! ### Reading -/

/-- What arrives: segments, and `none` where there is nothing yet.  Behind the
last one is the end, and an empty segment is the end as well. -/
abbrev Arrivals (α : Type*) := List (Option (List α))

namespace Arrivals

/-- All that arrives. -/
def items (a : Arrivals α) : List α := (a.map fun arrival => arrival.getD []).flatten

/-- How often there is nothing yet. -/
def delays (a : Arrivals α) : Nat := a.countP Option.isNone

/-- There is no end before the last segment. -/
def Proper (a : Arrivals α) : Prop := some [] ∉ a

@[simp] theorem items_nil : items ([] : Arrivals α) = [] := rfl

@[simp] theorem items_none (a : Arrivals α) : items (none :: a) = items a := rfl

@[simp] theorem items_some (segment : List α) (a : Arrivals α) :
    items (some segment :: a) = segment ++ items a := rfl

@[simp] theorem delays_nil : delays ([] : Arrivals α) = 0 := rfl

@[simp] theorem delays_none (a : Arrivals α) : delays (none :: a) = delays a + 1 := by
  simp [delays]

@[simp] theorem delays_some (segment : List α) (a : Arrivals α) :
    delays (some segment :: a) = delays a := by
  simp [delays]

theorem Proper.tail {arrival : Option (List α)} {a : Arrivals α} (h : Proper (arrival :: a)) :
    Proper a :=
  fun hmem => h (List.mem_cons_of_mem _ hmem)

/-- A poll with room for `cap` items; no items are the end. -/
def poll (cap : Nat) : Arrivals α → Result (List α) × Arrivals α
  | [] => (.ready [], [])
  | none :: rest => (.pending, rest)
  | some segment :: rest =>
      if segment.length ≤ cap then
        (.ready segment, if segment.isEmpty then some segment :: rest else rest)
      else (.ready (segment.take cap), some (segment.drop cap) :: rest)

/-- **What a poll answers**: not yet; or the next items, some of them unless
nothing is left. -/
theorem poll_cases {a : Arrivals α} (h : a.Proper) {cap : Nat} (hcap : 0 < cap) :
    (∃ rest, a.poll cap = (.pending, rest) ∧ rest.Proper ∧ rest.items = a.items ∧
      rest.delays + 1 = a.delays) ∨
    (a = [] ∧ a.poll cap = (.ready [], [])) ∨
    (∃ bytes rest, a.poll cap = (.ready bytes, rest) ∧ rest.Proper ∧ bytes ≠ [] ∧
      bytes.length ≤ cap ∧ a.items = bytes ++ rest.items ∧ rest.delays = a.delays) := by
  match a, h with
  | [], h => exact .inr (.inl ⟨rfl, rfl⟩)
  | none :: rest, h => exact .inl ⟨rest, rfl, h.tail, rfl, (delays_none rest).symm⟩
  | some segment :: rest, h =>
      have hne : segment ≠ [] := by
        rintro rfl
        exact h List.mem_cons_self
      refine .inr (.inr ?_)
      rw [poll]
      by_cases hfits : segment.length ≤ cap
      · have hnot : ¬ segment.isEmpty = true := by simpa using hne
        rw [if_pos hfits, if_neg hnot]
        exact ⟨segment, rest, rfl, h.tail, hne, hfits, rfl, (delays_some segment rest).symm⟩
      · rw [if_neg hfits]
        refine ⟨segment.take cap, some (segment.drop cap) :: rest, rfl, ?_, ?_, ?_, ?_, ?_⟩
        · intro hmem
          rcases List.mem_cons.mp hmem with heq | hmem
          · have hdrop := List.drop_eq_nil_iff.mp (Option.some.inj heq).symm
            omega
          · exact h.tail hmem
        · intro hnil
          rcases List.take_eq_nil_iff.mp hnil with hzero | hnil
          · omega
          · exact hne hnil
        · rw [List.length_take]
          exact Nat.min_le_left _ _
        · rw [items_some, items_some, ← List.append_assoc, List.take_append_drop]
        · rw [delays_some, delays_some]

end Arrivals

structure Filled (α : Type*) where
  got : List α
  arrivals : Arrivals α
  verdict : Verdict

/-- Read until there are `need` items. -/
def fill (need : Nat) : List α → Arrivals α → Filled α
  | got, [] => if need ≤ got.length then ⟨got, [], .done⟩ else ⟨got, [], .ended⟩
  | got, none :: rest =>
      if need ≤ got.length then ⟨got, none :: rest, .done⟩ else ⟨got, rest, .pending⟩
  | got, some segment :: rest =>
      let missing := need - got.length
      if need ≤ got.length then ⟨got, some segment :: rest, .done⟩
      else if segment.length = 0 then ⟨got, some segment :: rest, .ended⟩
      else if segment.length ≤ missing then fill need (got ++ segment) rest
      else ⟨got ++ segment.take missing, some (segment.drop missing) :: rest, .done⟩

/-- No item is lost. -/
theorem fill_append (need : Nat) (got : List α) (a : Arrivals α) :
    (fill need got a).got ++ (fill need got a).arrivals.items = got ++ a.items := by
  fun_induction fill need got a with
  | case7 got segment rest missing hneed hne hfits ih =>
      rw [ih, Arrivals.items_some, List.append_assoc]
  | case8 got segment rest missing hneed hne hfits =>
      simp only [Arrivals.items_some]
      rw [List.append_assoc, ← List.append_assoc (segment.take missing), List.take_append_drop]
  | _ => rfl

theorem length_fill {need : Nat} {got : List α} {a : Arrivals α} (h : got.length ≤ need) :
    (fill need got a).got.length ≤ need ∧
      ((fill need got a).verdict = .done ↔ (fill need got a).got.length = need) := by
  fun_induction fill need got a with
  | case1 got hneed => exact ⟨h, by simp; omega⟩
  | case2 got hneed => exact ⟨h, by simp; omega⟩
  | case3 got rest hneed => exact ⟨h, by simp; omega⟩
  | case4 got rest hneed => exact ⟨h, by simp; omega⟩
  | case5 got segment rest hneed => exact ⟨h, by simp; omega⟩
  | case6 got segment rest hneed hzero => exact ⟨h, by simp; omega⟩
  | case7 got segment rest missing hneed hne hfits ih =>
      apply ih
      rw [List.length_append]
      omega
  | case8 got segment rest missing hneed hne hfits =>
      simp only [List.length_append, List.length_take]
      exact ⟨by omega, by simp; omega⟩

/-- What is left is proper again, and not later. -/
theorem fill_arrivals (need : Nat) (got : List α) {a : Arrivals α} (h : a.Proper) :
    (fill need got a).arrivals.Proper ∧
      (fill need got a).arrivals.delays ≤ a.delays ∧
      ((fill need got a).verdict = .pending →
        (fill need got a).arrivals.delays < a.delays) ∧
      ((fill need got a).verdict = .ended → (fill need got a).arrivals = []) ∧
      (fill need got a).verdict ≠ .failed := by
  fun_induction fill need got a with
  | case1 => exact ⟨h, Nat.le_refl _, by simp, by simp, by simp⟩
  | case2 => exact ⟨h, Nat.le_refl _, by simp, by simp, by simp⟩
  | case3 => exact ⟨h, Nat.le_refl _, by simp, by simp, by simp⟩
  | case4 got rest hneed => exact ⟨h.tail, by simp, by simp, by simp, by simp⟩
  | case5 => exact ⟨h, Nat.le_refl _, by simp, by simp, by simp⟩
  | case6 got segment rest hneed hzero =>
      rw [List.length_eq_zero_iff.mp hzero] at h
      exact absurd List.mem_cons_self h
  | case7 got segment rest missing hneed hne hfits ih =>
      simpa using ih h.tail
  | case8 got segment rest missing hneed hne hfits =>
      refine ⟨?_, by simp, by simp, by simp, by simp⟩
      intro hmem
      rcases List.mem_cons.mp hmem with heq | hmem
      · have hdrop := List.drop_eq_nil_iff.mp (Option.some.inj heq).symm
        omega
      · exact h.tail hmem

end Poll
