/-
Elise/Limiter/Connection.lean

The connection limiter (src/limiter/connection.rs) under every interleaving.

A counter is an `Arc<AtomicU32>`.  An `Arc` is a number; `counter` is the
value of its atomic and `strong` its strong count.  Every call of
`try_acquire` is a caller with a program counter, from the call to the drop of
the guard it returned; a step of a caller is one lock section or one atomic
operation:

* `start` reads the limit, `readMap` looks the counter up and clones it,
  `insert` gets or inserts it under the write lock;
* `load` and `cas` are the loop; the exchange may fail without a reason;
* `refused`, `live` and `released` end the call: the clone is dropped, the
  guard subtracts, and then its clone is dropped.

`prune_idle` holds the write lock over many steps: for each entry one load
and, unless that was positive, one look at the strong count.  Meanwhile no
caller can look into the map, but those that hold a clone go on.

The invariant `Sound` says that whoever holds a clone holds the one in the
map, that the strong count is one more than the holders, and that the counter
is the number of live guards.  A counter with a holder is therefore never
pruned, and a counter that is pruned has no guard to forget.
-/
import Elise.Lib.AssocMap
import Elise.Lib.Run

namespace Elise

/-! ### Callers -/

/-- Where a call of `try_acquire` is. -/
inductive Caller where
  | start (user : UInt32)
  | readMap (user limit : UInt32)
  | insert (user limit : UInt32)
  | load (user limit : UInt32) (arc : Nat)
  | cas (user limit : UInt32) (arc : Nat) (cur : UInt32)
  /-- `None` was returned; the clone is still there. -/
  | refused (user : UInt32) (arc : Nat)
  /-- A guard with a counter was returned. -/
  | live (user : UInt32) (arc : Nat)
  /-- The guard has subtracted; its clone is still there. -/
  | released (user : UInt32) (arc : Nat)
  /-- A guard without a counter was returned: the user had no limit. -/
  | uncounted (user : UInt32)
  | done
  deriving DecidableEq

/-- The user and the clone that a caller holds. -/
def Caller.held : Caller → Option (UInt32 × Nat)
  | load user _ arc | cas user _ arc _ | refused user arc | live user arc | released user arc =>
      some (user, arc)
  | _ => none

/-- The user for whom a caller holds a live guard with a counter. -/
def Caller.guards : Caller → Option UInt32
  | live user _ => some user
  | _ => none

/-- The call has returned, and its guard is live or gone. -/
def Caller.settled : Caller → Bool
  | live _ _ | uncounted _ | done => true
  | _ => false

/-- A call for the user has read this limit, and returned no guard without a
counter. -/
def Caller.Limited (user limit : UInt32) : Caller → Prop
  | readMap u l | insert u l | load u l _ | cas u l _ _ => u = user → l = limit
  | uncounted u => u ≠ user
  | _ => True

/-- The caller holds a clone for the user. -/
def Caller.holds (user : UInt32) (c : Caller) : Bool := c.held.map Prod.fst = some user

/-! ### The limiter -/

/-- The entries that `prune_idle` has still to look at; `idle` when the
counter of the first one was loaded and found zero. -/
structure PruneScan where
  rest : List (UInt32 × Nat)
  idle : Bool

structure ConnectionLimiter where
  activeConns : AssocMap UInt32 Nat
  maxConns : AssocMap UInt32 UInt32
  counter : Nat → UInt32
  strong : Nat → Nat
  nextArc : Nat
  callers : List Caller
  /-- `prune_idle` while it holds the write lock. -/
  prune : Option PruneScan

inductive ConnEvent where
  | setUserLimit (userId limit : UInt32)
  | tryAcquire (userId : UInt32)
  /-- The next step of a caller; `weak` makes an exchange fail. -/
  | step (i : Nat) (weak : Bool)
  | pruneBegin
  | pruneStep

namespace ConnectionLimiter

def new : ConnectionLimiter := ⟨∅, ∅, fun _ => 0, fun _ => 0, 0, [], none⟩

def setUserLimit (s : ConnectionLimiter) (userId limit : UInt32) : ConnectionLimiter :=
  { s with
    maxConns := if 0 < limit then s.maxConns.insert userId limit else s.maxConns.erase userId }

/-- Put a caller in its next state. -/
def goto (s : ConnectionLimiter) (i : Nat) (c : Caller) : ConnectionLimiter :=
  { s with callers := s.callers.set i c }

def setStrong (s : ConnectionLimiter) (arc n : Nat) : ConnectionLimiter :=
  { s with strong := fun a => if a = arc then n else s.strong a }

def setCounter (s : ConnectionLimiter) (arc : Nat) (value : UInt32) : ConnectionLimiter :=
  { s with counter := fun a => if a = arc then value else s.counter a }

/-- `Arc::clone`. -/
def clone (s : ConnectionLimiter) (arc : Nat) : ConnectionLimiter :=
  s.setStrong arc (s.strong arc + 1)

/-- Drop a clone. -/
def unref (s : ConnectionLimiter) (arc : Nat) : ConnectionLimiter :=
  s.setStrong arc (s.strong arc - 1)

/-- `Arc::new(AtomicU32::new(0))` in the map, and a clone of it. -/
def insertNew (s : ConnectionLimiter) (user : UInt32) : ConnectionLimiter :=
  { s with
    activeConns := s.activeConns.insert user s.nextArc
    counter := fun a => if a = s.nextArc then 0 else s.counter a
    strong := fun a => if a = s.nextArc then 2 else s.strong a
    nextArc := s.nextArc + 1 }

/-- The next step of caller `i`, which is at `c`. -/
def callerStep (s : ConnectionLimiter) (i : Nat) (weak : Bool) (c : Caller) :
    Option ConnectionLimiter :=
  match c with
  | .start user =>
      match s.maxConns.get user with
      | some limit => some (s.goto i (if 0 < limit then .readMap user limit else .uncounted user))
      | none => some (s.goto i (.uncounted user))
  | .readMap user limit =>
      match s.prune with
      | some _ => none
      | none =>
          match s.activeConns.get user with
          | some arc => some ((s.clone arc).goto i (.load user limit arc))
          | none => some (s.goto i (.insert user limit))
  | .insert user limit =>
      match s.prune with
      | some _ => none
      | none =>
          match s.activeConns.get user with
          | some arc => some ((s.clone arc).goto i (.load user limit arc))
          | none => some ((s.insertNew user).goto i (.load user limit s.nextArc))
  | .load user limit arc => some (s.goto i (.cas user limit arc (s.counter arc)))
  | .cas user limit arc cur =>
      if limit ≤ cur then some (s.goto i (.refused user arc))
      else if weak = false ∧ s.counter arc = cur then
        some ((s.setCounter arc (cur + 1)).goto i (.live user arc))
      else some (s.goto i (.cas user limit arc (s.counter arc)))
  | .refused _ arc => some ((s.unref arc).goto i .done)
  | .live user arc => some ((s.setCounter arc (s.counter arc - 1)).goto i (.released user arc))
  | .released _ arc => some ((s.unref arc).goto i .done)
  | .uncounted _ => some (s.goto i .done)
  | .done => none

/-- The next step of `prune_idle`; with no entry left the lock is released. -/
def pruneStep (s : ConnectionLimiter) : Option ConnectionLimiter :=
  match s.prune with
  | none => none
  | some ⟨[], _⟩ => some { s with prune := none }
  | some ⟨(user, arc) :: rest, false⟩ =>
      if 0 < s.counter arc then some { s with prune := some ⟨rest, false⟩ }
      else some { s with prune := some ⟨(user, arc) :: rest, true⟩ }
  | some ⟨(user, arc) :: rest, true⟩ =>
      if 1 < s.strong arc then some { s with prune := some ⟨rest, false⟩ }
      else some { s.unref arc with
        activeConns := s.activeConns.erase user
        prune := some ⟨rest, false⟩ }

def step (s : ConnectionLimiter) : ConnEvent → Option ConnectionLimiter
  | .setUserLimit userId limit => some (s.setUserLimit userId limit)
  | .tryAcquire userId => some { s with callers := s.callers ++ [.start userId] }
  | .step i weak => s.callers[i]?.bind (s.callerStep i weak)
  | .pruneBegin =>
      match s.prune with
      | some _ => none
      | none => some { s with prune := some ⟨s.activeConns.pairs, false⟩ }
  | .pruneStep => s.pruneStep

/-- `get_total_active`, with nobody else in between; the sum is of type `u32`. -/
def getTotalActive (s : ConnectionLimiter) : UInt32 :=
  (s.activeConns.pairs.map fun entry => s.counter entry.2).foldl (· + ·) 0

/-! ### The moves of a caller -/

/-- What a step of caller `i`, which is at `c`, may do. -/
inductive CallerMoves (s : ConnectionLimiter) (i : Nat) : Caller → ConnectionLimiter → Prop where
  | limited {user limit : UInt32} (hget : s.maxConns.get user = some limit) (hpos : 0 < limit) :
      CallerMoves s i (.start user) (s.goto i (.readMap user limit))
  | unlimited {user : UInt32} (hfree : ∀ limit, s.maxConns.get user = some limit → ¬ 0 < limit) :
      CallerMoves s i (.start user) (s.goto i (.uncounted user))
  | found {user limit : UInt32} {arc : Nat} (hget : s.activeConns.get user = some arc) :
      CallerMoves s i (.readMap user limit) ((s.clone arc).goto i (.load user limit arc))
  | missing {user limit : UInt32} (hget : s.activeConns.get user = none) :
      CallerMoves s i (.readMap user limit) (s.goto i (.insert user limit))
  /-- Somebody else has inserted the counter in between. -/
  | raced {user limit : UInt32} {arc : Nat} (hget : s.activeConns.get user = some arc) :
      CallerMoves s i (.insert user limit) ((s.clone arc).goto i (.load user limit arc))
  | inserted {user limit : UInt32} (hget : s.activeConns.get user = none)
      (hprune : s.prune = none) :
      CallerMoves s i (.insert user limit)
        ((s.insertNew user).goto i (.load user limit s.nextArc))
  | loaded {user limit : UInt32} {arc : Nat} :
      CallerMoves s i (.load user limit arc) (s.goto i (.cas user limit arc (s.counter arc)))
  | full {user limit cur : UInt32} {arc : Nat} (hle : limit ≤ cur) :
      CallerMoves s i (.cas user limit arc cur) (s.goto i (.refused user arc))
  | counted {user limit : UInt32} {arc : Nat} {cur : UInt32} (hlt : cur < limit)
      (hcur : s.counter arc = cur) :
      CallerMoves s i (.cas user limit arc cur)
        ((s.setCounter arc (cur + 1)).goto i (.live user arc))
  | retried {user limit cur : UInt32} {arc : Nat} :
      CallerMoves s i (.cas user limit arc cur) (s.goto i (.cas user limit arc (s.counter arc)))
  | refused {user : UInt32} {arc : Nat} :
      CallerMoves s i (.refused user arc) ((s.unref arc).goto i .done)
  | dropped {user : UInt32} {arc : Nat} :
      CallerMoves s i (.live user arc)
        ((s.setCounter arc (s.counter arc - 1)).goto i (.released user arc))
  | released {user : UInt32} {arc : Nat} :
      CallerMoves s i (.released user arc) ((s.unref arc).goto i .done)
  | uncounted {user : UInt32} : CallerMoves s i (.uncounted user) (s.goto i .done)

theorem callerMoves_of_step {s s' : ConnectionLimiter} {i : Nat} {weak : Bool} {c : Caller}
    (h : s.callerStep i weak c = some s') : CallerMoves s i c s' := by
  cases c with
  | start user =>
      simp only [callerStep] at h
      split at h
      · rename_i limit hget
        obtain rfl := Option.some.inj h
        split
        · rename_i hpos
          exact .limited hget hpos
        · rename_i hzero
          refine .unlimited ?_
          intro limit' hget'
          obtain rfl := Option.some.inj (hget.symm.trans hget')
          exact hzero
      · rename_i hget
        obtain rfl := Option.some.inj h
        refine .unlimited ?_
        intro limit hget'
        cases hget.symm.trans hget'
  | readMap user limit =>
      simp only [callerStep] at h
      split at h
      · cases h
      · split at h
        · rename_i hget
          obtain rfl := Option.some.inj h
          exact .found hget
        · rename_i hget
          obtain rfl := Option.some.inj h
          exact .missing hget
  | insert user limit =>
      simp only [callerStep] at h
      split at h
      · cases h
      · rename_i hprune
        split at h
        · rename_i hget
          obtain rfl := Option.some.inj h
          exact .raced hget
        · rename_i hget
          obtain rfl := Option.some.inj h
          exact .inserted hget hprune
  | load user limit arc =>
      obtain rfl := Option.some.inj h
      exact .loaded
  | cas user limit arc cur =>
      simp only [callerStep] at h
      split at h
      · rename_i hle
        obtain rfl := Option.some.inj h
        exact .full hle
      · rename_i hlimit
        split at h
        · rename_i hsucc
          obtain rfl := Option.some.inj h
          exact .counted (UInt32.not_le.mp hlimit) hsucc.2
        · obtain rfl := Option.some.inj h
          exact .retried
  | refused user arc =>
      obtain rfl := Option.some.inj h
      exact .refused
  | live user arc =>
      obtain rfl := Option.some.inj h
      exact .dropped
  | released user arc =>
      obtain rfl := Option.some.inj h
      exact .released
  | uncounted user =>
      obtain rfl := Option.some.inj h
      exact .uncounted
  | done => cases h

/-! ### What is counted -/

/-- The callers that hold a clone for a user. -/
def holders (s : ConnectionLimiter) (user : UInt32) : Nat :=
  s.callers.countP (Caller.holds user)

/-- The live guards of a user that have a counter. -/
def guards (s : ConnectionLimiter) (user : UInt32) : Nat :=
  s.callers.countP fun c => c.guards = some user

/-- The live guards returned for a user, with or without a counter. -/
def liveGuards (s : ConnectionLimiter) (user : UInt32) : Nat :=
  s.callers.countP fun c => c.guards = some user || c = .uncounted user

/-- All live guards that have a counter. -/
def totalGuards (s : ConnectionLimiter) : Nat :=
  s.callers.countP fun c => c.guards.isSome

/-- The counter that the map has for a user; zero without an entry. -/
def counterOf (s : ConnectionLimiter) (user : UInt32) : Nat :=
  match s.activeConns.get user with
  | some arc => (s.counter arc).toNat
  | none => 0

/-! ### The invariant -/

/-- Holders hold the counter of the map, the strong count is the map's own and
one for each holder, the counter is the number of live guards; counters are
not shared, and the scan of `prune_idle` looks at entries of the map. -/
structure Sound (s : ConnectionLimiter) : Prop where
  held : ∀ c ∈ s.callers, ∀ user arc, c.held = some (user, arc) →
    s.activeConns.get user = some arc
  strong : ∀ user arc, s.activeConns.get user = some arc → s.strong arc = 1 + s.holders user
  count : ∀ user arc, s.activeConns.get user = some arc →
    (s.counter arc).toNat = s.guards user
  unshared : ∀ user user' arc, s.activeConns.get user = some arc →
    s.activeConns.get user' = some arc → user = user'
  allocated : ∀ user arc, s.activeConns.get user = some arc → arc < s.nextArc
  scan : ∀ scan, s.prune = some scan → (scan.rest.map Prod.fst).Nodup ∧
    ∀ entry ∈ scan.rest, s.activeConns.get entry.1 = some entry.2

theorem holds_of_held {c : Caller} {user : UInt32} {arc : Nat} (h : c.held = some (user, arc)) :
    c.holds user = true := by
  simp [Caller.holds, h]

theorem holds_of_guards {c : Caller} {user : UInt32} (h : c.guards = some user) :
    c.holds user = true := by
  cases c with
  | live user' arc =>
      obtain rfl := Option.some.inj h
      simp [Caller.holds, Caller.held]
  | start _ | readMap _ _ | insert _ _ | load _ _ _ | cas _ _ _ _ | refused _ _ | released _ _
  | uncounted _ | done => cases h

theorem guards_le_holders (s : ConnectionLimiter) (user : UInt32) :
    s.guards user ≤ s.holders user := by
  apply List.countP_mono_left
  intro c _ hc
  exact holds_of_guards (of_decide_eq_true hc)

namespace Sound

variable {s s' : ConnectionLimiter}

/-- One caller moves and the map stays: the strong counts follow what it
holds, the counters follow what it guards. -/
theorem of_move (hs : Sound s) {i : Nat} {c c' : Caller} (hc : s.callers[i]? = some c)
    (hcallers : s'.callers = s.callers.set i c') (hmap : s'.activeConns = s.activeConns)
    (hnext : s'.nextArc = s.nextArc) (hprune : s'.prune = s.prune)
    (hheld : ∀ user arc, c'.held = some (user, arc) → s.activeConns.get user = some arc)
    (hstrong : ∀ user arc, s.activeConns.get user = some arc →
      s'.strong arc + (c.holds user).toNat = s.strong arc + (c'.holds user).toNat)
    (hcount : ∀ user arc, s.activeConns.get user = some arc →
      (s'.counter arc).toNat + (decide (c.guards = some user)).toNat =
        (s.counter arc).toNat + (decide (c'.guards = some user)).toNat) : Sound s' where
  held d hd user arc h := by
    rw [hmap]
    rw [hcallers] at hd
    rcases List.mem_or_eq_of_mem_set hd with hd | rfl
    · exact hs.held d hd user arc h
    · exact hheld user arc h
  strong user arc h := by
    rw [hmap] at h
    have hold := hs.strong user arc h
    have hmove := hstrong user arc h
    have hset := Agents.countP_set_add hc c' (Caller.holds user)
    unfold holders at hold ⊢
    rw [hcallers]
    omega
  count user arc h := by
    rw [hmap] at h
    have hold := hs.count user arc h
    have hmove := hcount user arc h
    have hset := Agents.countP_set_add hc c' fun d => decide (d.guards = some user)
    unfold guards at hold ⊢
    rw [hcallers]
    omega
  unshared user user' arc h h' := by
    rw [hmap] at h h'
    exact hs.unshared user user' arc h h'
  allocated user arc h := by
    rw [hmap] at h
    rw [hnext]
    exact hs.allocated user arc h
  scan scan h := by
    rw [hprune] at h
    rw [hmap]
    exact hs.scan scan h

/-- A caller that changes neither what it holds nor what it guards. -/
theorem goto (hs : Sound s) {i : Nat} {c c' : Caller} (hc : s.callers[i]? = some c)
    (hheld : c'.held = c.held) (hguards : c'.guards = c.guards) : Sound (s.goto i c') := by
  have hholds : ∀ user, c'.holds user = c.holds user := by
    intro user
    simp [Caller.holds, hheld]
  refine hs.of_move hc rfl rfl rfl rfl ?_ ?_ ?_
  · intro user arc h
    exact hs.held c (List.mem_of_getElem? hc) user arc (hheld ▸ h)
  · intro user arc _
    rw [hholds]
    rfl
  · intro user arc _
    rw [hguards]
    rfl

/-- In the map, the counters of a user and of an `Arc` are told apart alike. -/
theorem user_eq_iff (hs : Sound s) {user user' : UInt32} {arc arc' : Nat}
    (h : s.activeConns.get user = some arc) (h' : s.activeConns.get user' = some arc') :
    user' = user ↔ arc' = arc := by
  constructor
  · rintro rfl
    exact Option.some.inj (h'.symm.trans h)
  · rintro rfl
    exact hs.unshared user' user arc' h' h

/-- A caller changes the strong count of one counter by what it holds. -/
theorem setStrong (hs : Sound s) {i : Nat} {c c' : Caller} {user : UInt32} {arc n : Nat}
    (hc : s.callers[i]? = some c) (hget : s.activeConns.get user = some arc)
    (hheld : ∀ user' arc', c'.held = some (user', arc') → (user', arc') = (user, arc))
    (hother : ∀ user', user' ≠ user → c'.holds user' = c.holds user')
    (hstrong : n + (c.holds user).toNat = s.strong arc + (c'.holds user).toNat)
    (hguards : c'.guards = c.guards) : Sound ((s.setStrong arc n).goto i c') := by
  refine hs.of_move hc rfl rfl rfl rfl ?_ ?_ ?_
  · intro user' arc' h
    obtain ⟨rfl, rfl⟩ := Prod.mk.inj (hheld user' arc' h)
    exact hget
  · intro user' arc' h
    have hiff := hs.user_eq_iff hget h
    show (if arc' = arc then n else s.strong arc') + _ = _
    by_cases ha : arc' = arc
    · rw [if_pos ha, hiff.mpr ha, ha]
      exact hstrong
    · rw [if_neg ha, hother user' fun heq => ha (hiff.mp heq)]
  · intro user' arc' _
    rw [hguards]
    rfl

/-- A caller takes a clone of the counter in the map. -/
theorem clone (hs : Sound s) {i : Nat} {c c' : Caller} {user : UInt32} {arc : Nat}
    (hc : s.callers[i]? = some c) (hget : s.activeConns.get user = some arc)
    (hnone : c.held = none) (hheld : c'.held = some (user, arc))
    (hguards : c'.guards = c.guards) : Sound ((s.clone arc).goto i c') := by
  refine hs.setStrong hc hget ?_ ?_ ?_ hguards
  · intro user' arc' h
    exact Option.some.inj (h.symm.trans hheld)
  · intro user' hne
    simp [Caller.holds, hnone, hheld, Ne.symm hne]
  · simp [Caller.holds, hnone, hheld]

/-- A caller drops its clone. -/
theorem unref (hs : Sound s) {i : Nat} {c c' : Caller} {user : UInt32} {arc : Nat}
    (hc : s.callers[i]? = some c) (hheld : c.held = some (user, arc)) (hnone : c'.held = none)
    (hguards : c'.guards = c.guards) : Sound ((s.unref arc).goto i c') := by
  have hget := hs.held c (List.mem_of_getElem? hc) user arc hheld
  have hstrong := hs.strong user arc hget
  refine hs.setStrong hc hget ?_ ?_ ?_ hguards
  · intro user' arc' h
    rw [hnone] at h
    cases h
  · intro user' hne
    simp [Caller.holds, hnone, hheld, Ne.symm hne]
  · -- the map holds the counter too, so the count does not go below one
    simp [Caller.holds, hnone, hheld]
    omega

/-- A caller changes the counter it holds by what it guards. -/
theorem setCounter (hs : Sound s) {i : Nat} {c c' : Caller} {user : UInt32} {arc : Nat}
    {value : UInt32} (hc : s.callers[i]? = some c) (hheld : c.held = some (user, arc))
    (hheld' : c'.held = some (user, arc))
    (hother : ∀ user', user' ≠ user → c.guards ≠ some user' ∧ c'.guards ≠ some user')
    (hvalue : value.toNat + (decide (c.guards = some user)).toNat =
      (s.counter arc).toNat + (decide (c'.guards = some user)).toNat) :
    Sound ((s.setCounter arc value).goto i c') := by
  have hget := hs.held c (List.mem_of_getElem? hc) user arc hheld
  refine hs.of_move hc rfl rfl rfl rfl ?_ ?_ ?_
  · intro user' arc' h
    obtain ⟨rfl, rfl⟩ := Prod.mk.injEq .. ▸ Option.some.inj (hheld'.symm.trans h)
    exact hget
  · intro user' arc' _
    simp only [Caller.holds, hheld, hheld']
    rfl
  · intro user' arc' h
    have hiff := hs.user_eq_iff hget h
    show (if arc' = arc then value else s.counter arc').toNat + _ = _
    by_cases ha : arc' = arc
    · rw [if_pos ha, hiff.mpr ha, ha]
      exact hvalue
    · obtain ⟨hno, hno'⟩ := hother user' fun heq => ha (hiff.mp heq)
      rw [if_neg ha, decide_eq_false hno, decide_eq_false hno']

/-- Nobody holds or guards a counter for a user without an entry. -/
theorem holders_eq_zero (hs : Sound s) {user : UInt32} (h : s.activeConns.get user = none) :
    s.holders user = 0 := by
  apply List.countP_eq_zero.mpr
  intro c hc hholds
  obtain ⟨⟨user', arc⟩, hheld, rfl⟩ := Option.map_eq_some_iff.mp (of_decide_eq_true hholds)
  have hget := hs.held c hc user' arc hheld
  rw [h] at hget
  cases hget

theorem guards_eq_zero (hs : Sound s) {user : UInt32} (h : s.activeConns.get user = none) :
    s.guards user = 0 := by
  have hle := guards_le_holders s user
  rw [hs.holders_eq_zero h] at hle
  exact Nat.le_zero.mp hle

/-- A caller inserts a counter for a user without an entry. -/
theorem insertNew (hs : Sound s) {i : Nat} {c : Caller} {user limit : UInt32}
    (hc : s.callers[i]? = some c) (hget : s.activeConns.get user = none)
    (hprune : s.prune = none) (hnone : c.held = none) (hguards : c.guards = none) :
    Sound ((s.insertNew user).goto i (.load user limit s.nextArc)) := by
  have hnew : ∀ user' arc', s.activeConns.get user' = some arc' → arc' ≠ s.nextArc :=
    fun user' arc' h => Nat.ne_of_lt (hs.allocated user' arc' h)
  have hheld₀ : (Caller.load user limit s.nextArc).held = some (user, s.nextArc) := rfl
  -- the count of the callers' holdings, and of their guards
  have hholders : ∀ user', ((s.insertNew user).goto i (.load user limit s.nextArc)).holders user'
      = s.holders user' + (decide (user = user')).toNat := by
    intro user'
    have hset := Agents.countP_set_add hc (.load user limit s.nextArc) (Caller.holds user')
    simp only [Caller.holds, hnone, hheld₀, Option.map_none, Option.map_some,
      Option.some.injEq] at hset
    exact hset
  have hguards' : ∀ user', ((s.insertNew user).goto i (.load user limit s.nextArc)).guards user'
      = s.guards user' := by
    intro user'
    have hset := Agents.countP_set_add hc (.load user limit s.nextArc)
      fun d => decide (d.guards = some user')
    rw [hguards] at hset
    exact hset
  refine ⟨?_, ?_, ?_, ?_, ?_, ?_⟩
  -- held: nobody held a counter of this user before
  · intro d hd user' arc' h
    show (s.activeConns.insert user s.nextArc).get user' = some arc'
    rw [AssocMap.get_insert]
    rcases List.mem_or_eq_of_mem_set hd with hd | rfl
    · have hold := hs.held d hd user' arc' h
      have hne : user' ≠ user := by
        rintro rfl
        rw [hget] at hold
        cases hold
      rw [if_neg hne]
      exact hold
    · obtain ⟨rfl, rfl⟩ := Prod.mk.injEq .. ▸ Option.some.inj h
      rw [if_pos rfl]
  -- strong: the map's own count and that of the caller
  · intro user' arc' h
    rw [hholders]
    show (if arc' = s.nextArc then 2 else s.strong arc') = _
    rcases AssocMap.get_insert_eq_some h with ⟨rfl, rfl⟩ | ⟨hu, hold⟩
    · rw [if_pos rfl, hs.holders_eq_zero hget]
      simp
    · rw [if_neg (hnew user' arc' hold), hs.strong user' arc' hold]
      simp [Ne.symm hu]
  -- count: the new counter is zero, and there is no guard yet
  · intro user' arc' h
    rw [hguards']
    show (if arc' = s.nextArc then 0 else s.counter arc').toNat = _
    rcases AssocMap.get_insert_eq_some h with ⟨rfl, rfl⟩ | ⟨hu, hold⟩
    · rw [if_pos rfl, hs.guards_eq_zero hget]
      rfl
    · rw [if_neg (hnew user' arc' hold)]
      exact hs.count user' arc' hold
  -- unshared: the new counter is not in the map
  · intro user₁ user₂ arc' h₁ h₂
    rcases AssocMap.get_insert_eq_some h₁ with ⟨rfl, rfl⟩ | ⟨-, hold₁⟩ <;>
      rcases AssocMap.get_insert_eq_some h₂ with ⟨rfl, heq⟩ | ⟨-, hold₂⟩
    · rfl
    · exact absurd rfl (hnew user₂ _ hold₂)
    · exact absurd heq (hnew user₁ _ hold₁)
    · exact hs.unshared user₁ user₂ arc' hold₁ hold₂
  · intro user' arc' h
    show arc' < s.nextArc + 1
    rcases AssocMap.get_insert_eq_some h with ⟨-, rfl⟩ | ⟨-, hold⟩
    · exact Nat.lt_succ_self _
    · exact Nat.lt_succ_of_lt (hs.allocated user' arc' hold)
  -- scan: the write lock is free, so no prune is under way
  · intro scan h
    have hscan : s.prune = some scan := h
    rw [hprune] at hscan
    cases hscan

/-- `prune_idle` goes on to the next entry. -/
theorem skip (hs : Sound s) {user : UInt32} {arc : Nat} {rest : List (UInt32 × Nat)} {idle : Bool}
    (hscan : s.prune = some ⟨(user, arc) :: rest, idle⟩) :
    Sound { s with prune := some ⟨rest, false⟩ } where
  held := hs.held
  strong := hs.strong
  count := hs.count
  unshared := hs.unshared
  allocated := hs.allocated
  scan scan h := by
    obtain rfl := Option.some.inj h
    obtain ⟨hnd, hin⟩ := hs.scan _ hscan
    exact ⟨(List.nodup_cons.mp hnd).2, fun entry hmem => hin entry (List.mem_cons_of_mem _ hmem)⟩

/-- `prune_idle` removes an entry whose strong count is one: nobody holds it. -/
theorem remove (hs : Sound s) {user : UInt32} {arc : Nat} {rest : List (UInt32 × Nat)}
    {idle : Bool} (hscan : s.prune = some ⟨(user, arc) :: rest, idle⟩)
    (hone : ¬ 1 < s.strong arc) :
    Sound { s.unref arc with
      activeConns := s.activeConns.erase user
      prune := some ⟨rest, false⟩ } := by
  obtain ⟨hnd, hin⟩ := hs.scan _ hscan
  have hget : s.activeConns.get user = some arc := hin (user, arc) (by simp)
  have hholders : s.holders user = 0 := by
    have hstrong := hs.strong user arc hget
    omega
  refine ⟨?_, ?_, ?_, ?_, ?_, ?_⟩
  -- held: whoever holds a clone holds one of another user
  · intro c hc user' arc' h
    show (s.activeConns.erase user).get user' = some arc'
    have hold := hs.held c hc user' arc' h
    have hne : user' ≠ user := by
      rintro rfl
      have hno := List.countP_eq_zero.mp hholders c hc
      exact hno (holds_of_held h)
    rw [AssocMap.get_erase_ne _ hne]
    exact hold
  · intro user' arc' h
    obtain ⟨hu, hold⟩ := AssocMap.get_erase_eq_some h
    have hne : arc' ≠ arc := fun heq => hu ((hs.user_eq_iff hget hold).mpr heq)
    show (if arc' = arc then s.strong arc - 1 else s.strong arc') = _
    rw [if_neg hne]
    exact hs.strong user' arc' hold
  · intro user' arc' h
    exact hs.count user' arc' (AssocMap.get_erase_eq_some h).2
  · intro user₁ user₂ arc' h₁ h₂
    exact hs.unshared user₁ user₂ arc' (AssocMap.get_erase_eq_some h₁).2
      (AssocMap.get_erase_eq_some h₂).2
  · intro user' arc' h
    exact hs.allocated user' arc' (AssocMap.get_erase_eq_some h).2
  -- scan: the entries that are left are of other users
  · intro scan h
    obtain rfl := Option.some.inj h
    rw [List.map_cons, List.nodup_cons] at hnd
    refine ⟨hnd.2, ?_⟩
    intro entry hmem
    have hne : entry.1 ≠ user := by
      intro heq
      have hkey := List.mem_map_of_mem (f := Prod.fst) hmem
      rw [heq] at hkey
      exact hnd.1 hkey
    show (s.activeConns.erase user).get entry.1 = some entry.2
    rw [AssocMap.get_erase_ne _ hne]
    exact hin entry (List.mem_cons_of_mem _ hmem)

/-- The counter of a live guard is positive, so the drop does not wrap. -/
theorem counter_pos (hs : Sound s) {i : Nat} {user : UInt32} {arc : Nat}
    (hc : s.callers[i]? = some (.live user arc)) : 0 < (s.counter arc).toNat := by
  have hget := hs.held _ (List.mem_of_getElem? hc) user arc rfl
  rw [hs.count user arc hget]
  exact Agents.countP_pos_of_getElem? hc (by simp [Caller.guards])

/-! ### One step -/

/-- **One step of a caller keeps the limiter sound.** -/
theorem callerMoves (hs : Sound s) {i : Nat} {c : Caller} (hc : s.callers[i]? = some c)
    (hmove : CallerMoves s i c s') : Sound s' := by
  cases hmove with
  | limited hget hpos => exact hs.goto hc rfl rfl
  | unlimited hfree => exact hs.goto hc rfl rfl
  | found hget => exact hs.clone hc hget rfl rfl rfl
  | missing hget => exact hs.goto hc rfl rfl
  | raced hget => exact hs.clone hc hget rfl rfl rfl
  | inserted hget hprune => exact hs.insertNew hc hget hprune rfl rfl
  | loaded => exact hs.goto hc rfl rfl
  | full hle => exact hs.goto hc rfl rfl
  | @counted user limit arc cur hlt hcur =>
      -- the exchange succeeds: below the limit, the counter does not overflow
      refine hs.setCounter hc rfl rfl ?_ ?_
      · intro user' hne
        exact ⟨by simp [Caller.guards], by simpa [Caller.guards] using Ne.symm hne⟩
      · have hcur' : cur.toNat + 1 < 2 ^ 32 := by
          have := UInt32.lt_iff_toNat_lt.mp hlt
          have := limit.toNat_lt
          omega
        rw [hcur, UInt32.toNat_add]
        simp only [Caller.guards, decide_true]
        show (cur.toNat + 1) % 2 ^ 32 + 0 = cur.toNat + 1
        rw [Nat.mod_eq_of_lt hcur']
  | retried => exact hs.goto hc rfl rfl
  | refused => exact hs.unref hc rfl rfl rfl
  | @dropped user arc =>
      -- the guard itself is counted, so the subtraction does not wrap
      have hpos := hs.counter_pos hc
      refine hs.setCounter hc rfl rfl ?_ ?_
      · intro user' hne
        exact ⟨by simpa [Caller.guards] using Ne.symm hne, by simp [Caller.guards]⟩
      · have hsub : (s.counter arc - 1).toNat = (s.counter arc).toNat - 1 :=
          UInt32.toNat_sub_of_le _ _ (UInt32.le_iff_toNat_le.mpr hpos)
        rw [hsub]
        simp only [Caller.guards, decide_true]
        show _ - 1 + 1 = _ + 0
        omega
  | released => exact hs.unref hc rfl rfl rfl
  | uncounted => exact hs.goto hc rfl rfl

/-- **One step keeps the limiter sound.** -/
theorem step (hs : Sound s) {e : ConnEvent} (hstep : s.step e = some s') : Sound s' := by
  cases e with
  | setUserLimit user limit =>
      obtain rfl := Option.some.inj hstep
      exact ⟨hs.held, hs.strong, hs.count, hs.unshared, hs.allocated, hs.scan⟩
  | tryAcquire user =>
      obtain rfl := Option.some.inj hstep
      have hholders : ∀ user', ({ s with callers := s.callers ++ [.start user] } :
          ConnectionLimiter).holders user' = s.holders user' := by
        intro user'
        simp [holders, List.countP_append, Caller.holds, Caller.held]
      have hguards : ∀ user', ({ s with callers := s.callers ++ [.start user] } :
          ConnectionLimiter).guards user' = s.guards user' := by
        intro user'
        simp [guards, List.countP_append, Caller.guards]
      refine ⟨?_, ?_, ?_, hs.unshared, hs.allocated, hs.scan⟩
      · intro c hc user' arc h
        rcases List.mem_append.mp hc with hc | hc
        · exact hs.held c hc user' arc h
        · rw [List.mem_singleton.mp hc] at h
          cases h
      · intro user' arc h
        rw [hholders]
        exact hs.strong user' arc h
      · intro user' arc h
        rw [hguards]
        exact hs.count user' arc h
  | step i weak =>
      obtain ⟨c, hc, hcaller⟩ := Option.bind_eq_some_iff.mp hstep
      exact hs.callerMoves hc (callerMoves_of_step hcaller)
  | pruneBegin =>
      simp only [ConnectionLimiter.step] at hstep
      split at hstep
      · cases hstep
      · obtain rfl := Option.some.inj hstep
        refine ⟨hs.held, hs.strong, hs.count, hs.unshared, hs.allocated, ?_⟩
        intro scan h
        obtain rfl := Option.some.inj h
        exact ⟨AssocMap.nodup_map_fst_pairs _, fun entry hmem => AssocMap.mem_pairs.mp hmem⟩
  | pruneStep =>
      simp only [ConnectionLimiter.step, pruneStep] at hstep
      split at hstep
      · cases hstep
      · obtain rfl := Option.some.inj hstep
        exact ⟨hs.held, hs.strong, hs.count, hs.unshared, hs.allocated, fun _ h => (by cases h)⟩
      · rename_i user arc rest hscan
        split at hstep
        · obtain rfl := Option.some.inj hstep
          exact hs.skip hscan
        · obtain rfl := Option.some.inj hstep
          refine ⟨hs.held, hs.strong, hs.count, hs.unshared, hs.allocated, ?_⟩
          intro scan h
          obtain rfl := Option.some.inj h
          exact hs.scan ⟨(user, arc) :: rest, false⟩ hscan
      · rename_i user arc rest hscan
        split at hstep
        · obtain rfl := Option.some.inj hstep
          exact hs.skip hscan
        · rename_i hone
          obtain rfl := Option.some.inj hstep
          exact hs.remove hscan hone

theorem counterOf_eq (hs : Sound s) (user : UInt32) : s.counterOf user = s.guards user := by
  rw [counterOf]
  rcases hget : s.activeConns.get user with - | arc
  · exact (hs.guards_eq_zero hget).symm
  · exact hs.count user arc hget

/-- Sums of 32-bit counters, in natural numbers. -/
theorem toNat_foldl_add (values : List UInt32) (acc : UInt32) :
    (values.foldl (· + ·) acc).toNat =
      (acc.toNat + (values.map UInt32.toNat).sum) % 2 ^ 32 := by
  induction values generalizing acc with
  | nil => simp [Nat.mod_eq_of_lt acc.toNat_lt]
  | cons value values ih =>
      rw [List.foldl_cons, ih, UInt32.toNat_add, List.map_cons, List.sum_cons, Nat.mod_add_mod,
        Nat.add_assoc]

/-- **The total is that of the live guards**, as far as 32 bits go. -/
theorem getTotalActive_eq (hs : Sound s) :
    s.getTotalActive.toNat = s.totalGuards % 2 ^ 32 := by
  -- the counters of the map are the guards of its users, and every guard has one there
  have hvalues : (s.activeConns.pairs.map fun entry => s.counter entry.2).map UInt32.toNat =
      (s.activeConns.pairs.map Prod.fst).map s.guards := by
    rw [List.map_map, List.map_map]
    apply List.map_congr_left
    rintro ⟨user, arc⟩ hmem
    exact hs.count user arc (AssocMap.mem_pairs.mp hmem)
  have hkeys : ∀ c ∈ s.callers, ∀ user, c.guards = some user →
      user ∈ s.activeConns.pairs.map Prod.fst := by
    intro c hc user hg
    obtain ⟨⟨user', arc⟩, hheld, rfl⟩ :=
      Option.map_eq_some_iff.mp (of_decide_eq_true (holds_of_guards hg))
    exact List.mem_map_of_mem (f := Prod.fst)
      (AssocMap.mem_pairs.mpr (hs.held c hc user' arc hheld))
  have hsum := Agents.sum_countP_key (AssocMap.nodup_map_fst_pairs s.activeConns) Caller.guards hkeys
  rw [getTotalActive]
  rw [toNat_foldl_add, hvalues]
  show (0 + _) % _ = _
  rw [Nat.zero_add]
  exact congrArg (· % 2 ^ 32) hsum

end Sound

/-! ### The limit -/

/-- A call for the user reads this limit. -/
def FixedLimit (user limit : UInt32) (s : ConnectionLimiter) : ConnEvent → Prop
  | .step i _ => s.callers[i]? = some (.start user) → s.maxConns.get user = some limit
  | _ => True

/-- The calls for the user have read the limit, and it is kept. -/
structure Capped (user limit : UInt32) (s : ConnectionLimiter) : Prop where
  limited : ∀ c ∈ s.callers, c.Limited user limit
  capped : s.guards user ≤ limit.toNat

namespace Capped

variable {user limit : UInt32} {s s' : ConnectionLimiter}

theorem of_move (hcap : Capped user limit s) {i : Nat} {c c' : Caller}
    (hc : s.callers[i]? = some c) (hcallers : s'.callers = s.callers.set i c')
    (hlim : c'.Limited user limit)
    (hroom : c'.guards = some user → s.guards user < limit.toNat) : Capped user limit s' where
  limited d hd := by
    rw [hcallers] at hd
    rcases List.mem_or_eq_of_mem_set hd with hd | rfl
    · exact hcap.limited d hd
    · exact hlim
  capped := by
    have hset := Agents.countP_set_add hc c' fun d => decide (d.guards = some user)
    have hold := hcap.capped
    unfold guards at hold hroom ⊢
    rw [hcallers]
    by_cases hg : c'.guards = some user
    · have hlt := hroom hg
      simp only [hg, decide_true, Bool.toNat_true] at hset
      omega
    · simp only [hg, decide_false, Bool.toNat_false] at hset
      omega

theorem callerMoves (hcap : Capped user limit s) (hs : Sound s) {i : Nat} {c : Caller}
    (hc : s.callers[i]? = some c)
    (hfix : s.callers[i]? = some (.start user) → s.maxConns.get user = some limit)
    (hpos : 0 < limit) (hmove : CallerMoves s i c s') : Capped user limit s' := by
  have hold : c.Limited user limit := hcap.limited c (List.mem_of_getElem? hc)
  cases hmove with
  | limited hget _ =>
      refine hcap.of_move hc rfl ?_ (fun h => (by cases h))
      rintro rfl
      exact Option.some.inj (hget.symm.trans (hfix hc))
  | unlimited hfree =>
      refine hcap.of_move hc rfl ?_ (fun h => (by cases h))
      rintro rfl
      exact hfree limit (hfix hc) hpos
  | found hget => exact hcap.of_move hc rfl hold (fun h => (by cases h))
  | missing hget => exact hcap.of_move hc rfl hold (fun h => (by cases h))
  | raced hget => exact hcap.of_move hc rfl hold (fun h => (by cases h))
  | inserted hget hprune => exact hcap.of_move hc rfl hold (fun h => (by cases h))
  | loaded => exact hcap.of_move hc rfl hold (fun h => (by cases h))
  | full hle => exact hcap.of_move hc rfl trivial (fun h => (by cases h))
  | @counted u l arc cur hlt hcur =>
      -- the counter is the number of guards, and it is below the limit
      refine hcap.of_move hc rfl trivial ?_
      intro h
      obtain rfl := Option.some.inj h
      obtain rfl : l = limit := hold rfl
      have hget := hs.held _ (List.mem_of_getElem? hc) u arc rfl
      rw [← hs.count u arc hget, hcur]
      exact UInt32.lt_iff_toNat_lt.mp hlt
  | retried => exact hcap.of_move hc rfl hold (fun h => (by cases h))
  | refused | dropped | released | uncounted =>
      exact hcap.of_move hc rfl trivial (fun h => (by cases h))

/-- **One step keeps the limit.** -/
theorem step (hcap : Capped user limit s) (hs : Sound s) (hpos : 0 < limit) {e : ConnEvent}
    (hfix : FixedLimit user limit s e) (hstep : s.step e = some s') : Capped user limit s' := by
  cases e with
  | setUserLimit u l =>
      obtain rfl := Option.some.inj hstep
      exact ⟨hcap.limited, hcap.capped⟩
  | tryAcquire u =>
      obtain rfl := Option.some.inj hstep
      refine ⟨?_, ?_⟩
      · intro c hc
        rcases List.mem_append.mp hc with hc | hc
        · exact hcap.limited c hc
        · rw [List.mem_singleton.mp hc]
          trivial
      · have hold := hcap.capped
        unfold guards at hold ⊢
        simpa [List.countP_append, Caller.guards] using hold
  | step i weak =>
      obtain ⟨c, hc, hcaller⟩ := Option.bind_eq_some_iff.mp hstep
      exact hcap.callerMoves hs hc hfix hpos (callerMoves_of_step hcaller)
  | pruneBegin =>
      simp only [ConnectionLimiter.step] at hstep
      split at hstep
      · cases hstep
      · obtain rfl := Option.some.inj hstep
        exact ⟨hcap.limited, hcap.capped⟩
  | pruneStep =>
      have hcallers : s'.callers = s.callers := by
        simp only [ConnectionLimiter.step, pruneStep] at hstep
        split at hstep
        · cases hstep
        · rw [← Option.some.inj hstep]
        · split at hstep <;> rw [← Option.some.inj hstep]
        · split at hstep <;> rw [← Option.some.inj hstep]
          rfl
      refine ⟨hcallers ▸ hcap.limited, ?_⟩
      have hold := hcap.capped
      unfold guards at hold ⊢
      rw [hcallers]
      exact hold

/-- Without guards that have no counter, all guards are counted. -/
theorem liveGuards_eq (hcap : Capped user limit s) : s.liveGuards user = s.guards user := by
  rw [liveGuards, guards]
  apply List.countP_congr
  intro c hc
  have hlim := hcap.limited c hc
  cases c with
  | uncounted u =>
      have hne : u ≠ user := hlim
      simp [Caller.guards, hne]
  | start _ | readMap _ _ | insert _ _ | load _ _ _ | cas _ _ _ _ | refused _ _ | live _ _
  | released _ _ | done => simp

end Capped

/-! ### Safety over whole runs -/

/-- Nothing is in progress: every call has returned, and its guard is live or
gone. -/
def Quiescent (s : ConnectionLimiter) : Prop :=
  s.prune = none ∧ ∀ c ∈ s.callers, c.settled = true

theorem sound_new : Sound new where
  held _ hc := by cases hc
  strong _ _ h := by cases h
  count _ _ h := by cases h
  unshared _ _ _ h := by cases h
  allocated _ _ h := by cases h
  scan _ h := by cases h

theorem sound_of_exec {s s' : ConnectionLimiter} {es : List ConnEvent} (hs : Sound s)
    (hrun : Run.exec step s es = some s') : Sound s' :=
  Run.exec_preserves (fun hs hstep => Sound.step hs hstep) hrun hs

/-- **Connection limiter safety.**  In every state that any interleaving of
calls, drops, prunes and changes of limits reaches: the counter of each user is
the number of the user's live counted guards; whoever holds a counter, with a
guard or an acquire in progress, holds the one in the map; no drop wraps; a
user whose calls all read one positive limit never has more live guards than
that, and all are counted; and in a quiescent state the total is the number of
live counted guards modulo `2 ^ 32`. -/
theorem connection_limiter_safe {es : List ConnEvent} {s : ConnectionLimiter}
    (hrun : Run.exec step new es = some s) :
    (∀ user, s.counterOf user = s.guards user) ∧
    (∀ c ∈ s.callers, ∀ user arc, c.held = some (user, arc) →
      s.activeConns.get user = some arc) ∧
    (∀ (i : Nat) user arc, s.callers[i]? = some (Caller.live user arc) →
      0 < (s.counter arc).toNat) ∧
    (∀ user limit, 0 < limit → Run.Along step (FixedLimit user limit) new es →
      s.liveGuards user ≤ limit.toNat ∧ s.counterOf user = s.liveGuards user) ∧
    (s.Quiescent → s.getTotalActive.toNat = s.totalGuards % 2 ^ 32) := by
  have hs : Sound s := sound_of_exec sound_new hrun
  refine ⟨hs.counterOf_eq, hs.held, fun i user arc hc => hs.counter_pos hc, ?_,
    fun _ => hs.getTotalActive_eq⟩
  intro user limit hpos hfix
  -- the limit needs the counters to be right, so both invariants run together
  have hstart : Sound new ∧ Capped user limit new :=
    ⟨sound_new, fun _ hc => (by cases hc), Nat.zero_le _⟩
  have hkeep : ∀ {s e s'}, Sound s ∧ Capped user limit s → FixedLimit user limit s e →
      s.step e = some s' → Sound s' ∧ Capped user limit s' :=
    fun hinv hf hstep => ⟨hinv.1.step hstep, hinv.2.step hinv.1 hpos hf hstep⟩
  have hend : Sound s ∧ Capped user limit s := Run.exec_invariant hkeep hrun hfix hstart
  rw [hend.2.liveGuards_eq]
  exact ⟨hend.2.capped, hs.counterOf_eq user⟩

/-- A call for a user with limit one gets a guard, and a prune looks at the
counter. -/
def oneGuardRun : List ConnEvent :=
  [.setUserLimit 1 1, .tryAcquire 1, .step 0 false, .step 0 false, .step 0 false, .step 0 false,
    .step 0 false, .pruneBegin, .pruneStep, .pruneStep]

theorem connection_limiter_safe_one_guard :
    ∃ s, Run.exec step new oneGuardRun = some s ∧
      s.liveGuards 1 = 1 ∧ s.counterOf 1 = s.liveGuards 1 := by
  refine ⟨_, rfl, by decide, ?_⟩
  refine ((@connection_limiter_safe oneGuardRun _ rfl).2.2.2.1 1 1 (by decide) ?_).2
  exact Run.along_cons trivial rfl (Run.along_cons trivial rfl (Run.along_cons (fun _ => rfl) rfl
    (Run.along_cons (fun _ => rfl) rfl (Run.along_cons (fun _ => rfl) rfl (Run.along_cons
      (fun _ => rfl) rfl (Run.along_cons (fun _ => rfl) rfl (Run.along_cons trivial rfl
        (Run.along_cons trivial rfl (Run.along_cons trivial rfl trivial)))))))))

/-! ### More guards than 32 bits count -/

section

variable {s s' : ConnectionLimiter} {cs : List Caller} {c : Caller}

/-- The caller that came last takes a step. -/
theorem step_last (hcs : s.callers = cs ++ [c])
    (h : s.callerStep cs.length false c = some s') : s.step (.step cs.length false) = some s' := by
  have hget : s.callers[cs.length]? = some c := by simp [hcs]
  simp only [step, hget, Option.bind_some, h]

theorem callers_goto_last (hcs : s.callers = cs ++ [c]) (c' : Caller) :
    (s.goto cs.length c').callers = cs ++ [c'] := by
  simp [goto, hcs]

/-- The last caller has loaded its counter below the limit and gets a guard. -/
theorem exec_load_live {user limit : UInt32} {arc : Nat}
    (hcs : s.callers = cs ++ [.load user limit arc]) (hroom : s.counter arc < limit) :
    ∃ es s', Run.exec step s es = some s' ∧ s'.callers = cs ++ [.live user arc] ∧
      s'.prune = s.prune ∧ s'.maxConns = s.maxConns := by
  have hcas := callers_goto_last hcs (.cas user limit arc (s.counter arc))
  have hnot : ¬ limit ≤ s.counter arc := UInt32.not_le.mpr hroom
  refine ⟨[.step cs.length false, .step cs.length false], _,
    Run.exec_cons_eq_some.mpr ⟨_, step_last hcs rfl, Run.exec_cons_eq_some.mpr
      ⟨((s.goto cs.length (.cas user limit arc (s.counter arc))).setCounter arc
        (s.counter arc + 1)).goto cs.length (.live user arc), step_last hcas ?_, rfl⟩⟩, ?_, rfl, rfl⟩
  · simp only [callerStep, if_neg hnot]
    exact if_pos ⟨trivial, rfl⟩
  · exact callers_goto_last (s := (s.goto cs.length _).setCounter arc _) hcas _

/-- A new call gets as far as the counter. -/
theorem exec_start_load {user limit : UInt32} (hprune : s.prune = none)
    (hlim : s.maxConns.get user = some limit) (hpos : 0 < limit) :
    ∃ es s' arc, Run.exec step s es = some s' ∧ s'.callers = s.callers ++ [.load user limit arc] ∧
      s'.prune = none ∧ s'.maxConns = s.maxConns := by
  let s₁ : ConnectionLimiter := { s with callers := s.callers ++ [.start user] }
  let s₂ := s₁.goto s.callers.length (.readMap user limit)
  have hs₂ : s₂.callers = s.callers ++ [.readMap user limit] := callers_goto_last rfl _
  have hread : s₁.step (.step s.callers.length false) = some s₂ := by
    apply step_last rfl
    simp only [callerStep]
    show (match s.maxConns.get user with
      | some limit => _
      | none => _) = _
    simp only [hlim, if_pos hpos]
    rfl
  rcases hget : s.activeConns.get user with - | arc
  · -- no counter yet: it is inserted
    let s₃ := s₂.goto s.callers.length (.insert user limit)
    have hs₃ : s₃.callers = s.callers ++ [.insert user limit] := callers_goto_last hs₂ _
    have hmiss : s₂.step (.step s.callers.length false) = some s₃ := by
      apply step_last hs₂
      simp only [callerStep]
      show (match s.prune with
        | some _ => none
        | none => match s.activeConns.get user with
          | some _ => _
          | none => _) = _
      simp only [hprune, hget]
      rfl
    have hinsert : s₃.step (.step s.callers.length false) =
        some ((s₃.insertNew user).goto s.callers.length (.load user limit s.nextArc)) := by
      apply step_last hs₃
      simp only [callerStep]
      show (match s.prune with
        | some _ => none
        | none => match s.activeConns.get user with
          | some _ => _
          | none => _) = _
      simp only [hprune, hget]
      rfl
    refine ⟨[.tryAcquire user, .step s.callers.length false, .step s.callers.length false,
      .step s.callers.length false], _, s.nextArc, Run.exec_cons_eq_some.mpr ⟨s₁, rfl,
      Run.exec_cons_eq_some.mpr ⟨s₂, hread, Run.exec_cons_eq_some.mpr ⟨s₃, hmiss,
      Run.exec_cons_eq_some.mpr ⟨_, hinsert, rfl⟩⟩⟩⟩, ?_, hprune, rfl⟩
    exact callers_goto_last (s := s₃.insertNew user) hs₃ _
  · have hclone : s₂.step (.step s.callers.length false) =
        some ((s₂.clone arc).goto s.callers.length (.load user limit arc)) := by
      apply step_last hs₂
      simp only [callerStep]
      show (match s.prune with
        | some _ => none
        | none => match s.activeConns.get user with
          | some _ => _
          | none => _) = _
      simp only [hprune, hget]
    refine ⟨[.tryAcquire user, .step s.callers.length false, .step s.callers.length false], _, arc,
      Run.exec_cons_eq_some.mpr ⟨s₁, rfl, Run.exec_cons_eq_some.mpr ⟨s₂, hread,
      Run.exec_cons_eq_some.mpr ⟨_, hclone, rfl⟩⟩⟩, ?_, hprune, rfl⟩
    exact callers_goto_last (s := s₂.clone arc) hs₂ _

/-- Below the limit, a user can get one guard more. -/
theorem exec_acquire {user limit : UInt32} (hs : Sound s) (hquiet : s.Quiescent)
    (hlim : s.maxConns.get user = some limit) (hroom : s.guards user < limit.toNat) :
    ∃ es s' arc, Run.exec step s es = some s' ∧ s'.callers = s.callers ++ [.live user arc] ∧
      s'.prune = none ∧ s'.maxConns = s.maxConns := by
  have hpos : 0 < limit := UInt32.lt_iff_toNat_lt.mpr (Nat.zero_lt_of_lt hroom)
  obtain ⟨es₁, s₁, arc, hrun₁, hcs₁, hprune₁, hmax₁⟩ := exec_start_load hquiet.1 hlim hpos
  have hs₁ : Sound s₁ := sound_of_exec hs hrun₁
  have hget : s₁.activeConns.get user = some arc :=
    hs₁.held (.load user limit arc) (by simp [hcs₁]) user arc rfl
  have hbelow : s₁.counter arc < limit := by
    have hguards : s₁.guards user = s.guards user := by
      simp [guards, hcs₁, Caller.guards]
    rw [UInt32.lt_iff_toNat_lt, hs₁.count user arc hget, hguards]
    exact hroom
  obtain ⟨es₂, s₂, hrun₂, hcs₂, hprune₂, hmax₂⟩ := exec_load_live hcs₁ hbelow
  refine ⟨es₁ ++ es₂, s₂, arc, ?_, hcs₂, hprune₂.trans hprune₁, hmax₂.trans hmax₁⟩
  rw [Run.exec_append, hrun₁]
  exact hrun₂

/-- Up to its limit, a user can get any number of guards. -/
theorem exec_acquire_many (user limit : UInt32) (n : Nat) (hs : Sound s) (hquiet : s.Quiescent)
    (hlim : s.maxConns.get user = some limit) (hroom : s.guards user + n ≤ limit.toNat) :
    ∃ es s', Run.exec step s es = some s' ∧ s'.Quiescent ∧ s'.maxConns = s.maxConns ∧
      s'.totalGuards = s.totalGuards + n ∧
      ∀ user', user' ≠ user → s'.guards user' = s.guards user' := by
  induction n generalizing s with
  | zero => exact ⟨[], s, rfl, hquiet, rfl, rfl, fun _ _ => rfl⟩
  | succ n ih =>
      obtain ⟨es₁, s₁, arc, hrun₁, hcs₁, hprune₁, hmax₁⟩ :=
        exec_acquire hs hquiet hlim (by omega)
      have hquiet₁ : s₁.Quiescent := by
        refine ⟨hprune₁, ?_⟩
        intro c hc
        rw [hcs₁] at hc
        rcases List.mem_append.mp hc with hc | hc
        · exact hquiet.2 c hc
        · rw [List.mem_singleton.mp hc]
          rfl
      have hguards₁ : ∀ user', s₁.guards user' =
          s.guards user' + (decide (user = user')).toNat := by
        intro user'
        simp only [guards, hcs₁, List.countP_append, List.countP_singleton, Caller.guards,
          Option.some.injEq]
        cases decide (user = user') <;> rfl
      have htotal₁ : s₁.totalGuards = s.totalGuards + 1 := by
        simp [totalGuards, hcs₁, Caller.guards]
      have hroom₁ : s₁.guards user + n ≤ limit.toNat := by
        rw [hguards₁, decide_eq_true rfl, Bool.toNat_true]
        omega
      obtain ⟨es₂, s₂, hrun₂, hquiet₂, hmax₂, htotal₂, hothers₂⟩ :=
        ih (sound_of_exec hs hrun₁) hquiet₁ (hmax₁ ▸ hlim) hroom₁
      refine ⟨es₁ ++ es₂, s₂, ?_, hquiet₂, hmax₂.trans hmax₁, by omega, ?_⟩
      · rw [Run.exec_append, hrun₁]
        exact hrun₂
      · intro user' hne
        rw [hothers₂ user' hne, hguards₁]
        simp [Ne.symm hne]

end

/-- Two users hold `2 ^ 32` guards between them; no `u32` is their number. -/
theorem total_active_wraps :
    ∃ es s, Run.exec step new es = some s ∧ s.Quiescent ∧
      s.getTotalActive.toNat ≠ s.totalGuards := by
  let s₀ := (new.setUserLimit 1 0xFFFFFFFF).setUserLimit 2 1
  have hrun₀ : Run.exec step new [.setUserLimit 1 0xFFFFFFFF, .setUserLimit 2 1] = some s₀ := rfl
  have hs₀ : Sound s₀ := sound_of_exec sound_new hrun₀
  have hempty : s₀.guards 1 = 0 := rfl
  obtain ⟨es₁, s₁, hrun₁, hquiet₁, hmax₁, htotal₁, hothers₁⟩ :=
    exec_acquire_many 1 0xFFFFFFFF 4294967295 hs₀ ⟨rfl, fun _ hc => (by cases hc)⟩ rfl
      (by rw [hempty]; decide)
  have hs₁ : Sound s₁ := sound_of_exec hs₀ hrun₁
  have hnone : s₁.guards 2 = 0 := hothers₁ 2 (by decide)
  obtain ⟨es₂, s₂, hrun₂, hquiet₂, -, htotal₂, -⟩ :=
    exec_acquire_many 2 1 1 hs₁ hquiet₁ (hmax₁ ▸ rfl)
      (by rw [hnone]; exact Nat.le_refl _)
  refine ⟨[.setUserLimit 1 0xFFFFFFFF, .setUserLimit 2 1] ++ (es₁ ++ es₂), s₂, ?_, hquiet₂, ?_⟩
  · rw [Run.exec_append, hrun₀, Option.bind_some, Run.exec_append, hrun₁]
    exact hrun₂
  · have hzero : s₀.totalGuards = 0 := rfl
    have hlt := s₂.getTotalActive.toNat_lt
    omega

end ConnectionLimiter

end Elise
