/-
Elise/Lib/Serving.lean

Readers that are polled.

A poll with room for some items answers that nothing is ready, or with items, or
with an error.  What a reader will hand out is fixed beforehand, how often it may
not be ready is bounded, and what comes behind the items is the end or an error.
`Serves` says that a reader keeps to this.  From it follows what any sequence of
polls hands out (`run_clean`, `run_broken`).
-/
import Elise.Lib.Poll
import Elise.Lib.Run

namespace Serving

open Poll

/-- What comes behind the items. -/
inductive Ending where
  | eof
  | broken
  deriving DecidableEq, Repr

variable {ρ α : Type*} {poll : ρ → Nat → Result (List α) × ρ}
  {Holds : ρ → List α → Nat → Ending → Prop}

/-- A right answer of a reader with the items `rest` and the ending `e`, that may
not be ready `n` times: with room there are items, unless nothing is left. -/
def Answered (Holds : ρ → List α → Nat → Ending → Prop) (rest : List α) (n : Nat) (e : Ending)
    (cap : Nat) : Result (List α) × ρ → Prop
  | (.pending, r) => ∃ m < n, Holds r rest m e
  | (.ready items, r) =>
      ∃ rest' m, m ≤ n ∧ rest = items ++ rest' ∧ items.length ≤ cap ∧ Holds r rest' m e ∧
        (0 < cap → items = [] → rest = [] ∧ e = .eof ∧ m = 0)
  | (.error, _) => rest = [] ∧ e = .broken

/-- A reader in the relation `Holds` answers rightly. -/
def Serves (poll : ρ → Nat → Result (List α) × ρ)
    (Holds : ρ → List α → Nat → Ending → Prop) : Prop :=
  ∀ {r rest n e}, Holds r rest n e → ∀ cap, Answered Holds rest n e cap (poll r cap)

/-- What waits in a buffer is handed out, as much as there is room for. -/
theorem answered_take {r : ρ} {buf more : List α} {n : Nat} {e : Ending} {cap : Nat} (hcap : 0 < cap)
    (hne : buf ≠ []) (h : Holds r (buf.drop cap ++ more) n e) :
    Answered Holds (buf ++ more) n e cap (.ready (buf.take cap), r) := by
  refine ⟨buf.drop cap ++ more, n, Nat.le_refl _, ?_, ?_, h, ?_⟩
  · rw [← List.append_assoc, List.take_append_drop]
  · rw [List.length_take]
    exact Nat.min_le_left _ _
  · intro _ hnil
    rcases List.take_eq_nil_iff.mp hnil with hzero | hnil
    · omega
    · exact absurd hnil hne

/-- A call without room takes nothing. -/
theorem answered_zero {r : ρ} {rest : List α} {n : Nat} {e : Ending} (h : Holds r rest n e) :
    Answered Holds rest n e 0 (.ready [], r) :=
  ⟨rest, n, Nat.le_refl _, rfl, Nat.le_refl _, h, fun hcap => absurd hcap (Nat.lt_irrefl 0)⟩

/-- A reader, with what it has handed out. -/
structure Served (ρ α : Type*) where
  reader : ρ
  delivered : List α

variable (poll) in
/-- A poll with room for `cap` items; `none` if it fails. -/
def step (s : Served ρ α) (cap : Nat) : Option (Served ρ α) :=
  match poll s.reader cap with
  | (.pending, r) => some ⟨r, s.delivered⟩
  | (.ready items, r) => some ⟨r, s.delivered ++ items⟩
  | (.error, _) => none

/-- A poll hands out the next items, or waits, or fails at the break. -/
theorem step_cases (hs : Serves poll Holds) {s : Served ρ α} {rest : List α} {n : Nat} {e : Ending}
    (h : Holds s.reader rest n e) (cap : Nat) :
    (∃ s' rest' m, step poll s cap = some s' ∧ Holds s'.reader rest' m e ∧
      s.delivered ++ rest = s'.delivered ++ rest' ∧
      rest'.length + m ≤ rest.length + n - (if 0 < cap then 1 else 0) ∧
      (0 < cap → e = .broken → rest'.length + m < rest.length + n)) ∨
    (rest = [] ∧ e = .broken ∧ step poll s cap = none) := by
  have hanswer := hs h cap
  rw [step]
  match hpoll : poll s.reader cap with
  | (.pending, r) =>
      rw [hpoll] at hanswer
      obtain ⟨m, hless, hholds⟩ := hanswer
      refine .inl ⟨_, rest, m, rfl, hholds, rfl, ?_, fun _ _ => by omega⟩
      split <;> omega
  | (.ready items, r) =>
      rw [hpoll] at hanswer
      obtain ⟨rest', m, hless, rfl, -, hholds, hend⟩ := hanswer
      have hlen := @List.length_append _ items rest'
      refine .inl ⟨_, rest', m, rfl, hholds, (List.append_assoc ..).symm, ?_, ?_⟩
      · split
        · rename_i hcap
          cases items with
          | nil =>
              obtain ⟨hnil, -, rfl⟩ := hend hcap rfl
              rw [List.nil_append] at hnil
              rw [hnil]
              exact Nat.zero_le _
          | cons item items =>
              rw [List.length_cons] at hlen
              omega
        · omega
      · rintro hcap rfl
        cases items with
        | nil => cases (hend hcap rfl).2.1
        | cons item items =>
            rw [List.length_cons] at hlen
            omega
  | (.error, r) =>
      rw [hpoll] at hanswer
      exact .inr ⟨hanswer.1, hanswer.2, rfl⟩

/-- The next poll comes to the end, or to the break, only where nothing is left. -/
theorem rest_of_ending (hs : Serves poll Holds) {r : ρ} {rest : List α} {n : Nat} {e : Ending}
    (h : Holds r rest n e) {cap : Nat} (hcap : 0 < cap) :
    ((poll r cap).1 = .ready [] → rest = [] ∧ e = .eof) ∧
      ((poll r cap).1 = .error → rest = [] ∧ e = .broken) := by
  have hanswer := hs h cap
  match hpoll : poll r cap with
  | (.pending, r') => exact ⟨nofun, nofun⟩
  | (.ready items, r') =>
      rw [hpoll] at hanswer
      obtain ⟨rest', m, -, -, -, -, hend⟩ := hanswer
      refine ⟨?_, nofun⟩
      intro hnil
      obtain ⟨hrest, he, -⟩ := hend hcap (Result.ready.inj hnil)
      exact ⟨hrest, he⟩
  | (.error, r') =>
      rw [hpoll] at hanswer
      exact ⟨nofun, fun _ => hanswer⟩

/-- What a run has not handed out is left. -/
theorem run_holds (hs : Serves poll Holds) {s s' : Served ρ α} {rest : List α} {n : Nat} {e : Ending}
    {caps : List Nat} (h : Holds s.reader rest n e) (hrun : Run.exec (step poll) s caps = some s') :
    ∃ rest' m, Holds s'.reader rest' m e ∧ s.delivered ++ rest = s'.delivered ++ rest' := by
  induction caps generalizing s rest n with
  | nil =>
      obtain rfl := Option.some.inj hrun
      exact ⟨rest, n, h, rfl⟩
  | cons cap caps ih =>
      obtain ⟨s₁, hstep, hrest⟩ := Run.exec_cons_eq_some.mp hrun
      rcases step_cases hs h cap with ⟨s₂, rest₂, n₂, hstep₂, h₂, hsplit, -, -⟩ | ⟨-, -, hnone⟩
      · obtain rfl := Option.some.inj (hstep.symm.trans hstep₂)
        obtain ⟨rest', m, h', hsplit'⟩ := ih h₂ hrest
        exact ⟨rest', m, h', hsplit.trans hsplit'⟩
      · cases hstep.symm.trans hnone

/-- What a run has handed out are the first items, and where the next poll comes to the
end or fails they are all of them. -/
theorem run_delivered (hs : Serves poll Holds) {s s' : Served ρ α} {rest : List α} {n : Nat} {e : Ending}
    {caps : List Nat} (h : Holds s.reader rest n e) (hrun : Run.exec (step poll) s caps = some s') :
    s'.delivered <+: s.delivered ++ rest ∧ ∀ cap, 0 < cap →
      ((poll s'.reader cap).1 = .ready [] → s'.delivered = s.delivered ++ rest ∧ e = .eof) ∧
      ((poll s'.reader cap).1 = .error → s'.delivered = s.delivered ++ rest ∧ e = .broken) := by
  obtain ⟨rest', m, h', hsplit⟩ := run_holds hs h hrun
  refine ⟨⟨rest', hsplit.symm⟩, ?_⟩
  intro cap hcap
  obtain ⟨hend, hbreak⟩ := rest_of_ending hs h' hcap
  constructor
  · intro hready
    obtain ⟨hnil, he⟩ := hend hready
    rw [hsplit, hnil, List.append_nil]
    exact ⟨rfl, he⟩
  · intro herror
    obtain ⟨hnil, he⟩ := hbreak herror
    rw [hsplit, hnil, List.append_nil]
    exact ⟨rfl, he⟩

/-- With nothing left and nothing to wait for, every poll answers the end. -/
theorem poll_end (hs : Serves poll Holds) {r : ρ} (h : Holds r [] 0 .eof) (cap : Nat) :
    (poll r cap).1 = .ready [] := by
  have hanswer := hs h cap
  match hpoll : poll r cap with
  | (.pending, r') =>
      rw [hpoll] at hanswer
      obtain ⟨m, hless, -⟩ := hanswer
      exact absurd hless (Nat.not_lt_zero m)
  | (.ready items, r') =>
      rw [hpoll] at hanswer
      obtain ⟨rest', m, -, hnil, -⟩ := hanswer
      rw [(List.append_eq_nil_iff.mp hnil.symm).1]
  | (.error, r') =>
      rw [hpoll] at hanswer
      cases hanswer.2

/-- Every poll with room brings the end nearer. -/
theorem run_eof (hs : Serves poll Holds) (caps : List Nat) {s : Served ρ α} {rest : List α}
    {n : Nat} (h : Holds s.reader rest n .eof) :
    ∃ s' rest' m, Run.exec (step poll) s caps = some s' ∧ Holds s'.reader rest' m .eof ∧
      s.delivered ++ rest = s'.delivered ++ rest' ∧
      rest'.length + m ≤ rest.length + n - caps.countP (0 < ·) := by
  induction caps generalizing s rest n with
  | nil => exact ⟨s, rest, n, rfl, h, rfl, Nat.le_refl _⟩
  | cons cap caps ih =>
      rcases step_cases hs h cap with ⟨s₁, rest₁, n₁, hstep, h₁, hsplit₁, hlen₁, -⟩ |
        ⟨-, hbroken, -⟩
      · obtain ⟨s₂, rest₂, n₂, hrun, h₂, hsplit₂, hlen₂⟩ := ih h₁
        refine ⟨s₂, rest₂, n₂, Run.exec_cons_eq_some.mpr ⟨s₁, hstep, hrun⟩, h₂,
          hsplit₁.trans hsplit₂, ?_⟩
        rw [List.countP_cons]
        simp only [decide_eq_true_eq]
        omega
      · cases hbroken

/-- **Clean streams**: no poll fails, the items come in order, the end comes behind
them, and enough polls come to it. -/
theorem run_clean (hs : Serves poll Holds) (caps : List Nat) {s : Served ρ α} {rest : List α}
    {n : Nat} (h : Holds s.reader rest n .eof) :
    ∃ s', Run.exec (step poll) s caps = some s' ∧ s'.delivered <+: s.delivered ++ rest ∧
      (∀ cap, 0 < cap → (poll s'.reader cap).1 = .ready [] →
        s'.delivered = s.delivered ++ rest) ∧
      (rest.length + n ≤ caps.countP (0 < ·) → s'.delivered = s.delivered ++ rest ∧
        ∀ cap, (poll s'.reader cap).1 = .ready []) := by
  obtain ⟨s', rest', m, hrun, h', hsplit, hless⟩ := run_eof hs caps h
  refine ⟨s', hrun, ⟨rest', hsplit.symm⟩, ?_, ?_⟩
  · intro cap hcap hend
    rw [hsplit, ((rest_of_ending hs h' hcap).1 hend).1, List.append_nil]
  · intro henough
    obtain ⟨hnil, rfl⟩ : rest' = [] ∧ m = 0 :=
      ⟨List.length_eq_zero_iff.mp (by omega), by omega⟩
    subst hnil
    exact ⟨by rw [hsplit, List.append_nil], poll_end hs h'⟩

/-- **Broken streams**: as long as no poll has failed, the items come in order and
there is no end; a poll fails only behind all of them, and among enough polls one
fails. -/
theorem run_broken (hs : Serves poll Holds) (caps : List Nat) {s : Served ρ α} {rest : List α}
    {n : Nat} (h : Holds s.reader rest n .broken) :
    (∀ s', Run.exec (step poll) s caps = some s' → s'.delivered <+: s.delivered ++ rest ∧
      ∀ cap, 0 < cap → (poll s'.reader cap).1 ≠ .ready [] ∧
        ((poll s'.reader cap).1 = .error → s'.delivered = s.delivered ++ rest)) ∧
    (rest.length + n < caps.countP (0 < ·) → Run.exec (step poll) s caps = none) := by
  induction caps generalizing s rest n with
  | nil =>
      refine ⟨?_, fun hlt => absurd hlt (Nat.not_lt_zero _)⟩
      intro s' hs'
      obtain rfl := Option.some.inj hs'
      refine ⟨⟨rest, rfl⟩, ?_⟩
      intro cap hcap
      obtain ⟨hend, hbreak⟩ := rest_of_ending hs h hcap
      constructor
      · intro heof
        cases (hend heof).2
      · intro herror
        rw [(hbreak herror).1, List.append_nil]
  | cons cap caps ih =>
      rcases step_cases hs h cap with ⟨s₁, rest₁, n₁, hstep, h₁, hsplit₁, hlen₁, hless⟩ |
        ⟨-, -, hnone⟩
      · obtain ⟨hsome, hfail⟩ := ih h₁
        have hexec : Run.exec (step poll) s (cap :: caps) = Run.exec (step poll) s₁ caps := by
          rw [Run.exec, hstep]
          rfl
        rw [hexec, hsplit₁]
        refine ⟨hsome, ?_⟩
        intro hlt
        apply hfail
        rw [List.countP_cons] at hlt
        simp only [decide_eq_true_eq] at hlt
        split at hlt
        · rename_i hcap
          have := hless hcap rfl
          omega
        · omega
      · have hexec : Run.exec (step poll) s (cap :: caps) = none := by
          rw [Run.exec, hnone]
          rfl
        rw [hexec]
        refine ⟨?_, fun _ => rfl⟩
        rintro s' ⟨⟩

/-- Where some bytes are cut off: inside the first of them, or behind these. -/
theorem torn_cases {text more bytes rest : List UInt8} (h : text ++ more = bytes ++ rest) :
    (text.length < bytes.length ∧ ∃ gap, gap ≠ [] ∧ bytes = text ++ gap) ∨
      ∃ text', text = bytes ++ text' ∧ text' ++ more = rest := by
  rcases List.append_eq_append_iff.mp h with ⟨gap, hbytes, hmore⟩ | ⟨text', htext, hrest⟩
  · cases gap with
    | nil =>
        rw [List.append_nil] at hbytes
        refine .inr ⟨[], ?_, ?_⟩
        · rw [hbytes, List.append_nil]
        · rw [hmore]
          rfl
    | cons byte gap =>
        refine .inl ⟨?_, byte :: gap, List.cons_ne_nil _ _, hbytes⟩
        rw [hbytes, List.length_append, List.length_cons]
        omega
  · exact .inr ⟨text', htext, hrest.symm⟩

end Serving
