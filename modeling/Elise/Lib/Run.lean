/-
Elise/Lib/Run.lean

Runs of systems in which something else chooses what happens next.

A system is given by `step : σ → ε → Option σ`: a state, an event chosen by the environment (a
scheduler, a disk, a peer), and `none` where the event is not enabled.  All nondeterminism sits
in the event, so a run is a list of events and `exec` executes it.

* `Along step P s es` says that `P` holds of each state and the event taken in it along the run,
  which is how a side condition on runs is stated.
* `track step upd` carries a ghost value beside the state.  A tracked step is enabled where the
  step is, and moves the state as the step does (`track_eq_some`); the ghost only looks on.
* Machines may run side by side.  Each event belongs to one of the machines and moves only this
  one, so a run of all of them is a run of each (`Interleave.exec_iff`).
* A concurrent system may be a list of agents, of which one takes a step at a time or a new one
  joins at the end.  A count of them changes by what the agent was and what it became
  (`countP_set_add`); when agents carry a key, the counts of the single keys add up to the count
  of all agents that carry one (`sum_countP_key`).
* A machine may answer each item it is given with one item and change its state.  What it makes
  of a text does not depend on how the text is cut (`run_append`, `run_calls`), and a machine
  that undoes another step by step undoes it on every text (`run_inverse`).
-/
import Mathlib

namespace Run

variable {σ ε γ : Type*}

/-! ### Executing a list of events -/

/-- Execute the events in order; `none` if one of them is not enabled. -/
def exec (step : σ → ε → Option σ) : σ → List ε → Option σ
  | s, [] => some s
  | s, e :: es => (step s e).bind fun s' => exec step s' es

variable {step : σ → ε → Option σ}

theorem exec_cons_eq_some {s s' : σ} {e : ε} {es : List ε} :
    exec step s (e :: es) = some s' ↔
      ∃ t, step s e = some t ∧ exec step t es = some s' := by
  simp [exec, Option.bind_eq_some_iff]

theorem exec_append (s : σ) (es fs : List ε) :
    exec step s (es ++ fs) = (exec step s es).bind fun t => exec step t fs := by
  induction es generalizing s with
  | nil => rfl
  | cons e es ih =>
      rcases h : step s e with - | t
      · simp [exec, h]
      · simp [exec, h, ih]

/-! ### Side conditions along a run -/

/-- `P` holds of every state of the run and the event taken in it. -/
def Along (step : σ → ε → Option σ) (P : σ → ε → Prop) : σ → List ε → Prop
  | _, [] => True
  | s, e :: es => P s e ∧ ∀ s', step s e = some s' → Along step P s' es

theorem along_cons {P : σ → ε → Prop} {s t : σ} {e : ε} {es : List ε} (hP : P s e)
    (ht : step s e = some t) (h : Along step P t es) : Along step P s (e :: es) := by
  refine ⟨hP, ?_⟩
  intro s' hs'
  obtain rfl := Option.some.inj (ht.symm.trans hs')
  exact h

/-- **Invariant rule.**  What holds at the start and is preserved by every
step that meets the side condition holds at the end of every run along which
the side condition is met. -/
theorem exec_invariant {P : σ → ε → Prop} {Inv : σ → Prop}
    (hstep : ∀ {s e s'}, Inv s → P s e → step s e = some s' → Inv s')
    {s s' : σ} {es : List ε} (hrun : exec step s es = some s')
    (hP : Along step P s es) (hs : Inv s) : Inv s' := by
  -- on the events: the first step hands the invariant on to the rest of the run
  induction es generalizing s with
  | nil =>
      obtain rfl := Option.some.inj hrun
      exact hs
  | cons e es ih =>
      obtain ⟨t, ht, hrest⟩ := exec_cons_eq_some.mp hrun
      exact ih hrest (hP.2 t ht) (hstep hs hP.1 ht)

theorem along_of_forall {P : σ → ε → Prop} (h : ∀ s e, P s e) (s : σ) (es : List ε) :
    Along step P s es := by
  induction es generalizing s with
  | nil => trivial
  | cons e es ih => exact ⟨h s e, fun s' _ => ih s'⟩

/-- A side condition on the events alone. -/
theorem along_of_mem {P : ε → Prop} {es : List ε} (h : ∀ e ∈ es, P e) (s : σ) :
    Along step (fun _ e => P e) s es := by
  induction es generalizing s with
  | nil => trivial
  | cons e es ih =>
      refine ⟨h e List.mem_cons_self, ?_⟩
      intro s' _
      exact ih (fun other hmem => h other (List.mem_cons_of_mem _ hmem)) s'

/-- Side conditions that say the same where an invariant holds say the same along a run. -/
theorem along_congr {P Q R : σ → ε → Prop} {Inv : σ → Prop}
    (hstep : ∀ {s e s'}, Inv s → R s e → step s e = some s' → Inv s')
    (hsame : ∀ {s e}, Inv s → R s e → (P s e ↔ Q s e)) {s : σ} {es : List ε}
    (hR : Along step R s es) (hs : Inv s) : Along step P s es ↔ Along step Q s es := by
  induction es generalizing s with
  | nil => exact Iff.rfl
  | cons e es ih =>
      apply and_congr (hsame hs hR.1)
      apply forall_congr'
      intro t
      apply imp_congr_right
      intro ht
      exact ih (hR.2 t ht) (hstep hs hR.1 ht)

/-- The invariant rule without a side condition. -/
theorem exec_preserves {Inv : σ → Prop}
    (hstep : ∀ {s e s'}, Inv s → step s e = some s' → Inv s')
    {s s' : σ} {es : List ε} (hrun : exec step s es = some s')
    (hs : Inv s) : Inv s' := by
  have hkeep : ∀ {s e s'}, Inv s → True → step s e = some s' → Inv s' :=
    fun hinv _ ht => hstep hinv ht
  exact exec_invariant hkeep hrun (along_of_forall (fun _ _ => trivial) s es) hs

/-- A side condition that can be decided in each state can be decided along a
run. -/
instance decidableAlong {P : σ → ε → Prop} [∀ s e, Decidable (P s e)] :
    (s : σ) → (es : List ε) → Decidable (Along step P s es)
  | _, [] => isTrue trivial
  | s, e :: es =>
      match h : step s e with
      | none => decidable_of_iff (P s e) (by simp [Along, h])
      | some s' =>
          haveI := decidableAlong (P := P) s' es
          decidable_of_iff (P s e ∧ Along step P s' es) (by simp [Along, h])

/-! ### Ghost values -/

/-- Carry a ghost value beside the state; `upd` reads the state before the
step, the ghost and the event. -/
def track (step : σ → ε → Option σ) (upd : σ → γ → ε → γ) :
    σ × γ → ε → Option (σ × γ) :=
  fun c e => (step c.1 e).map fun s' => (s', upd c.1 c.2 e)

variable {upd : σ → γ → ε → γ}

theorem track_eq_some {c c' : σ × γ} {e : ε} :
    track step upd c e = some c' ↔
      step c.1 e = some c'.1 ∧ c'.2 = upd c.1 c.2 e := by
  obtain ⟨s', g'⟩ := c'
  simp only [track, Option.map_eq_some_iff, Prod.mk.injEq]
  constructor
  · rintro ⟨t, ht, rfl, rfl⟩
    exact ⟨ht, rfl⟩
  · rintro ⟨ht, rfl⟩
    exact ⟨s', ht, rfl, rfl⟩

end Run

/-! ### Machines side by side -/

namespace Interleave

variable {ι σ ε : Type*} [DecidableEq ι] {f : σ → ε → Option σ}

variable (f) in
/-- An event moves the machine that it belongs to. -/
def step (s : ι → σ) (e : ι × ε) : Option (ι → σ) :=
  (f (s e.1) e.2).map fun t => Function.update s e.1 t

/-- The events of one machine. -/
def eventsOf (i : ι) (es : List (ι × ε)) : List ε :=
  (es.filter fun e => e.1 = i).map Prod.snd

theorem eventsOf_cons_self (i : ι) (e : ε) (es : List (ι × ε)) :
    eventsOf i ((i, e) :: es) = e :: eventsOf i es := by
  simp [eventsOf]

theorem eventsOf_cons_of_ne {i j : ι} (h : j ≠ i) (e : ε) (es : List (ι × ε)) :
    eventsOf i ((j, e) :: es) = eventsOf i es := by
  simp [eventsOf, h]

/-- The events of one machine alone. -/
theorem eventsOf_map_self (i : ι) (es : List ε) : eventsOf i (es.map (Prod.mk i)) = es := by
  induction es with
  | nil => rfl
  | cons e es ih => rw [List.map_cons, eventsOf_cons_self, ih]

theorem eventsOf_map_of_ne {i j : ι} (h : j ≠ i) (es : List ε) :
    eventsOf i (es.map (Prod.mk j)) = [] := by
  induction es with
  | nil => rfl
  | cons e es ih => rw [List.map_cons, eventsOf_cons_of_ne h, ih]

/-- **A run of the machines is a run of each of them.** -/
theorem exec_iff (es : List (ι × ε)) (s s' : ι → σ) :
    Run.exec (step f) s es = some s' ↔ ∀ i, Run.exec f (s i) (eventsOf i es) = some (s' i) := by
  induction es generalizing s with
  | nil =>
      show some s = some s' ↔ ∀ i, some (s i) = some (s' i)
      simp only [Option.some.injEq, funext_iff]
  | cons e es ih =>
      obtain ⟨j, e⟩ := e
      rw [Run.exec_cons_eq_some]
      constructor
      · rintro ⟨t, hstep, hrest⟩ i
        obtain ⟨tj, hj, rfl⟩ := Option.map_eq_some_iff.mp hstep
        have hi := (ih _).mp hrest i
        by_cases hij : j = i
        · subst hij
          rw [Function.update_self] at hi
          rw [eventsOf_cons_self]
          exact Run.exec_cons_eq_some.mpr ⟨tj, hj, hi⟩
        · rw [Function.update_of_ne (Ne.symm hij)] at hi
          rw [eventsOf_cons_of_ne hij]
          exact hi
      · intro hall
        have hj := hall j
        rw [eventsOf_cons_self] at hj
        obtain ⟨tj, hstep, hrest⟩ := Run.exec_cons_eq_some.mp hj
        refine ⟨Function.update s j tj, Option.map_eq_some_iff.mpr ⟨tj, hstep, rfl⟩, (ih _).mpr ?_⟩
        intro i
        by_cases hij : j = i
        · subst hij
          rw [Function.update_self]
          exact hrest
        · rw [Function.update_of_ne (Ne.symm hij)]
          have hi := hall i
          rwa [eventsOf_cons_of_ne hij] at hi

end Interleave

namespace Agents

variable {α κ : Type*}

theorem getElem?_concat {l : List α} {i : Nat} {c new : α} (h : (l ++ [new])[i]? = some c) :
    l[i]? = some c ∨ i = l.length ∧ c = new := by
  rcases Nat.lt_trichotomy i l.length with hlt | rfl | hgt
  · rw [List.getElem?_append_left hlt] at h
    exact .inl h
  · rw [List.getElem?_concat_length] at h
    exact .inr ⟨rfl, (Option.some.inj h).symm⟩
  · rw [List.getElem?_eq_none (by simp; omega)] at h
    cases h

theorem getElem?_set_some {l : List α} {i j : Nat} {c new : α} (h : (l.set i new)[j]? = some c) :
    j = i ∧ c = new ∨ j ≠ i ∧ l[j]? = some c := by
  rw [List.getElem?_set] at h
  by_cases hji : i = j
  · rw [if_pos hji] at h
    split at h
    · exact .inl ⟨hji.symm, (Option.some.inj h).symm⟩
    · cases h
  · rw [if_neg hji] at h
    exact .inr ⟨fun h' => hji h'.symm, h⟩

theorem countP_set_add {l : List α} {i : Nat} {c : α} (h : l[i]? = some c) (c' : α)
    (p : α → Bool) :
    (l.set i c').countP p + (p c).toNat = l.countP p + (p c').toNat := by
  induction l generalizing i with
  | nil => simp at h
  | cons x l ih =>
      cases i with
      | zero =>
          obtain rfl := Option.some.inj h
          rw [List.set_cons_zero, List.countP_cons, List.countP_cons]
          cases p x <;> cases p c' <;> simp
      | succ i =>
          have hrest := ih h
          rw [List.set_cons_succ, List.countP_cons, List.countP_cons]
          omega

/-- A sum over the agents changes by what the agent was worth and is worth now. -/
theorem sum_map_set_add {l : List α} {i : Nat} {c : α} (h : l[i]? = some c) (c' : α)
    (f : α → Nat) : ((l.set i c').map f).sum + f c = (l.map f).sum + f c' := by
  induction l generalizing i with
  | nil => simp at h
  | cons x l ih =>
      cases i with
      | zero =>
          obtain rfl := Option.some.inj h
          rw [List.set_cons_zero, List.map_cons, List.map_cons, List.sum_cons, List.sum_cons]
          omega
      | succ i =>
          have hrest := ih h
          rw [List.set_cons_succ, List.map_cons, List.map_cons, List.sum_cons, List.sum_cons]
          omega

/-- A count that an agent contributes to is positive. -/
theorem countP_pos_of_getElem? {l : List α} {i : Nat} {c : α} (h : l[i]? = some c)
    {p : α → Bool} (hp : p c = true) : 0 < l.countP p :=
  List.countP_pos_iff.mpr ⟨c, List.mem_of_getElem? h, hp⟩

variable [DecidableEq κ]

/-- Each key is counted once. -/
theorem sum_ite_key {keys : List κ} (hnd : keys.Nodup) {k : κ} (h : k ∈ keys) :
    (keys.map fun k' => if some k = some k' then 1 else 0).sum = 1 := by
  induction keys with
  | nil => simp at h
  | cons head keys ih =>
      rw [List.nodup_cons] at hnd
      rw [List.map_cons, List.sum_cons]
      rcases List.mem_cons.mp h with rfl | h
      · have hrest : (keys.map fun k' => if some k = some k' then 1 else 0).sum = 0 := by
          apply List.sum_eq_zero
          intro n hn
          obtain ⟨k', hk', rfl⟩ := List.mem_map.mp hn
          apply if_neg
          intro heq
          exact hnd.1 (Option.some.inj heq ▸ hk')
        rw [hrest, if_pos rfl]
      · have hne : some k ≠ some head := by
          intro heq
          exact hnd.1 (Option.some.inj heq ▸ h)
        rw [if_neg hne, ih hnd.2 h]

/-- **The counts of the keys add up.** -/
theorem sum_countP_key {keys : List κ} (hnd : keys.Nodup) (key : α → Option κ) {l : List α}
    (hkeys : ∀ c ∈ l, ∀ k, key c = some k → k ∈ keys) :
    (keys.map fun k => l.countP fun c => key c = some k).sum =
      l.countP fun c => (key c).isSome := by
  induction l with
  | nil => simp
  | cons c l ih =>
      have hrest := ih fun c hc => hkeys c (List.mem_cons_of_mem _ hc)
      -- the first agent adds one to the count of its key, and to no other
      have hsplit : (keys.map fun k => (c :: l).countP fun c => key c = some k).sum =
          (keys.map fun k => l.countP fun c => key c = some k).sum +
            (keys.map fun k => if key c = some k then 1 else 0).sum := by
        rw [← List.sum_map_add]
        congr 1
        apply List.map_congr_left
        intro k _
        rw [List.countP_cons]
        simp
      rw [hsplit, hrest, List.countP_cons]
      congr 1
      rcases hc : key c with - | k
      · simp
      · rw [sum_ite_key hnd (hkeys c (by simp) k hc)]
        rfl

end Agents

namespace Transducer

variable {σ τ α β : Type*}

def run (f : σ → α → β × σ) : σ → List α → List β × σ
  | s, [] => ([], s)
  | s, a :: as => ((f s a).1 :: (run f (f s a).2 as).1, (run f (f s a).2 as).2)

variable {f : σ → α → β × σ} {g : τ → β → α × τ}

theorem run_append (s : σ) (xs ys : List α) :
    run f s (xs ++ ys) =
      ((run f s xs).1 ++ (run f (run f s xs).2 ys).1, (run f (run f s xs).2 ys).2) := by
  induction xs generalizing s with
  | nil => rfl
  | cons x xs ih => rw [List.cons_append, run, ih, run, List.cons_append]

theorem length_run (s : σ) (xs : List α) : (run f s xs).1.length = xs.length := by
  induction xs generalizing s with
  | nil => rfl
  | cons x xs ih => rw [run, List.length_cons, ih, List.length_cons]

/-- A machine that undoes each step undoes every text. -/
theorem run_inverse {R : σ → τ → Prop}
    (h : ∀ s t a, R s t → (g t (f s a).1).1 = a ∧ R (f s a).2 (g t (f s a).1).2)
    {s : σ} {t : τ} (hst : R s t) (xs : List α) :
    (run g t (run f s xs).1).1 = xs ∧ R (run f s xs).2 (run g t (run f s xs).1).2 := by
  induction xs generalizing s t with
  | nil => exact ⟨rfl, hst⟩
  | cons x xs ih =>
      obtain ⟨hx, hnext⟩ := h s t x hst
      obtain ⟨hxs, hlast⟩ := ih hnext
      exact ⟨by rw [run, run, hx, hxs], hlast⟩

/-! ### Whole texts -/

/-- A machine for whole texts that makes of each what `f` makes of its items
makes of many texts what `f` makes of them joined. -/
theorem run_calls {ρ : Type*} (F : ρ → List α → List β × ρ) (proj : ρ → σ) (Inv : ρ → Prop)
    (h : ∀ r xs, Inv r → (F r xs).1 = (run f (proj r) xs).1 ∧
      proj (F r xs).2 = (run f (proj r) xs).2 ∧ Inv (F r xs).2)
    {r : ρ} (hr : Inv r) (calls : List (List α)) :
    (run F r calls).1.flatten = (run f (proj r) calls.flatten).1 ∧
      proj (run F r calls).2 = (run f (proj r) calls.flatten).2 := by
  induction calls generalizing r with
  | nil => exact ⟨rfl, rfl⟩
  | cons xs calls ih =>
      obtain ⟨hmade, hstate, hinv⟩ := h r xs hr
      obtain ⟨hrest, hlast⟩ := ih hinv
      rw [hstate] at hrest hlast
      rw [run, List.flatten_cons, List.flatten_cons, run_append, hmade, hrest]
      exact ⟨rfl, hlast⟩

end Transducer
