/-
Elise/Dns/Stale.lean

Answers of old rules in the cache, over every interleaving of lookups and
`set_rules_table` calls.

`Versions` is a ghost that numbers the writes of the rules: which write a call
made, which one put the table in force that a lookup consulted, and which one
an entry of the cache goes back to.  A call that has completed has cleared the
cache after its write, so an entry that goes back to an earlier table can only
come from a lookup that was in flight at that moment.  `Undisturbed` says that
there is none when a call clears the cache; `no_stale_answers` is that then no
run leaves an old answer behind.

A lookup does wait for the servers of its table without a lock, and nothing
tells it that the table is gone when it writes the cache: `stale_answer_cached`.
-/
import Elise.Dns.Resolver
import Elise.Lib.Run

namespace Elise

open Net

namespace Dns

variable {env : Matching}

/-! ### The numbers of the tables -/

structure Versions where
  /-- How often the rules have been written. -/
  written : Nat
  /-- By task, which write was that of the call. -/
  ofSet : Nat → Nat
  /-- By task, which write the table is from that the lookup consulted. -/
  consulted : Nat → Option Nat
  /-- By host, the same for the lookup behind the entry of the cache. -/
  via : List Char → Option Nat
  /-- The highest write of a completed call. -/
  completed : Nat

def LookupPhase.inFlight : LookupPhase → Bool
  | .finished _ | .dropped => false
  | _ => true

/-- The next step reads the rules, and there are some. -/
def Lookup.consults (r : DNSResolver env) (task : Lookup) : Bool :=
  match task.phase with
  | .readRules .. => r.rulesTable.isSome
  | _ => false

/-- The next step writes an entry. -/
def Lookup.stores (task : Lookup) : Bool :=
  match task.phase with
  | .writeCache _ _ ttl => task.now + secs ttl < instantLimit
  | _ => false

namespace Versions

def opening : Versions := ⟨0, fun _ => 0, fun _ => none, fun _ => none, 0⟩

/-- Follow a step of a lookup. -/
def followLookup (v : Versions) (r : DNSResolver env) (tid : Nat) (task : Lookup) : Versions :=
  { v with
    consulted := fun other =>
      if task.consults r ∧ other = tid then some v.written else v.consulted other
    via := fun key =>
      if task.stores ∧ key = env.lower task.host then v.consulted tid else v.via key }

/-- Follow a step of a call. -/
def followSet (v : Versions) (tid : Nat) : SetPhase → Versions
  | .rules =>
      { v with
        written := v.written + 1
        ofSet := fun other => if other = tid then v.written + 1 else v.ofSet other }
  | .clear => { v with completed := max v.completed (v.ofSet tid) }
  | _ => v

def post (s : System env) (v : Versions) : Event env → Versions
  | .run tid _ _ =>
      match s.tasks[tid]? with
      | some (.lookup task) => v.followLookup s.resolver tid task
      | some (.set call) => v.followSet tid call.phase
      | none => v
  | _ => v

end Versions

/-- The system with the numbers beside it. -/
abbrev numbered : System env × Versions → Event env → Option (System env × Versions) :=
  Run.track step Versions.post

/-- A new resolver, and no call yet. -/
def opening (strategy : List Char) (minutes : UInt64) (servers : Option (List Char)) :
    System env × Versions :=
  (⟨DNSResolver.new strategy minutes servers, []⟩, Versions.opening)

/-- **No stale answers**: no entry of the cache goes back to a table that was in
force before the write of a call that has completed. -/
def NoStaleAnswers (c : System env × Versions) : Prop :=
  ∀ (tid : Nat) (call : SetCall env) (key : List Char) (entry : CachedDnsEntry) (i : Nat),
    c.1.tasks[tid]? = some (.set call) → call.phase = .finished →
      c.1.resolver.cache.get key = some entry → c.2.via key = some i → c.2.ofSet tid ≤ i

/-! ### What a lookup does to the cache -/

theorem get_prune {cache : AssocMap (List Char) CachedDnsEntry} {now : Nat} {key : List Char}
    {entry : CachedDnsEntry} (h : (DNSResolver.prune cache now).get key = some entry) :
    cache.get key = some entry := by
  rw [DNSResolver.prune, AssocMap.get_retain, Option.filter_eq_some_iff] at h
  exact h.1

/-- Making room adds nothing. -/
theorem get_makeRoom {cache cache' : AssocMap (List Char) CachedDnsEntry} {now : Nat}
    {victim key : List Char} {entry : CachedDnsEntry}
    (h : DNSResolver.makeRoom cache now victim = some cache')
    (hget : cache'.get key = some entry) : cache.get key = some entry := by
  rw [DNSResolver.makeRoom] at h
  split at h
  · obtain rfl := Option.some.inj h
    exact hget
  · simp only at h
    split at h
    · obtain rfl := Option.some.inj h
      exact get_prune hget
    · split at h
      · obtain rfl := Option.some.inj h
        exact get_prune (AssocMap.get_erase_eq_some hget).2
      · cases h

section Advance

variable {r : DNSResolver env} {task : Lookup} {net : DNSResolver.Network} {victim : List Char}
  {cache : AssocMap (List Char) CachedDnsEntry} {phase : LookupPhase}

/-- A lookup that takes a step has not ended. -/
theorem Lookup.inFlight_of_advance
    (h : task.advance r net victim = some (cache, phase)) : task.phase.inFlight = true := by
  cases hphase : task.phase with
  | finished result => simp [Lookup.advance, hphase] at h
  | dropped => simp [Lookup.advance, hphase] at h
  | _ => rfl

/-- What is in the cache after a step was there before, or the step has written
it. -/
theorem Lookup.get_advance (h : task.advance r net victim = some (cache, phase))
    {key : List Char} {entry : CachedDnsEntry} (hget : cache.get key = some entry) :
    (task.stores = true ∧ key = env.lower task.host) ∨ r.cache.get key = some entry := by
  rw [Lookup.advance] at h
  split at h
  case h_11 strategy ips ttl hphase =>
    obtain ⟨room, hroom, heq⟩ := Option.map_eq_some_iff.mp h
    by_cases hlimit : task.now + secs ttl < instantLimit
    · rw [if_pos hlimit] at heq
      obtain ⟨rfl, -⟩ := Prod.mk.injEq .. ▸ heq
      rcases AssocMap.get_insert_eq_some hget with ⟨hkey, -⟩ | ⟨-, hold⟩
      · left
        refine ⟨?_, hkey⟩
        rw [Lookup.stores, hphase]
        exact decide_eq_true hlimit
      · exact .inr (get_makeRoom hroom hold)
    · rw [if_neg hlimit] at heq
      obtain ⟨rfl, -⟩ := Prod.mk.injEq .. ▸ heq
      exact .inr (get_makeRoom hroom hget)
  all_goals
    -- the other sections leave the cache alone
    right
    repeat' split at h
    all_goals cases h
    all_goals exact hget

end Advance

/-! ### The invariant -/

/-- The completed calls are below everything that is or may come into the
cache. -/
structure Fresh (c : System env × Versions) : Prop where
  done : ∀ tid call, c.1.tasks[tid]? = some (.set call) → call.phase = .finished →
    c.2.ofSet tid ≤ c.2.completed
  ofSet_le : ∀ tid, c.2.ofSet tid ≤ c.2.written
  completed_le : c.2.completed ≤ c.2.written
  unborn : ∀ tid, c.1.tasks.length ≤ tid → c.2.consulted tid = none
  inFlight : ∀ tid task i, c.1.tasks[tid]? = some (.lookup task) → task.phase.inFlight = true →
    c.2.consulted tid = some i → c.2.completed ≤ i
  cached : ∀ key entry i, c.1.resolver.cache.get key = some entry → c.2.via key = some i →
    c.2.completed ≤ i

theorem fresh_opening (strategy : List Char) (minutes : UInt64) (servers : Option (List Char)) :
    Fresh (opening strategy minutes servers : System env × Versions) where
  done _ _ h := by cases h
  ofSet_le _ := Nat.le_refl _
  completed_le := Nat.le_refl _
  unborn _ _ := rfl
  inFlight _ _ _ h := by cases h
  cached _ _ _ h := by cases h

theorem Fresh.noStaleAnswers {c : System env × Versions} (h : Fresh c) : NoStaleAnswers c := by
  intro tid call key entry i htask hphase hget hvia
  exact (h.done tid call htask hphase).trans (h.cached key entry i hget hvia)

/-- The lookup in task `other` has consulted a table from before write `n`, and
it has not ended. -/
def straddles (c : System env × Versions) (n other : Nat) : Bool :=
  match c.1.tasks[other]?, c.2.consulted other with
  | some (.lookup task), some i => task.phase.inFlight && i < n
  | _, _ => false

/-- The write of the call that clears the cache now. -/
def clearing (c : System env × Versions) : Event env → Option Nat
  | .run tid _ _ =>
      match c.1.tasks[tid]? with
      | some (.set ⟨_, .clear⟩) => some (c.2.ofSet tid)
      | _ => none
  | _ => none

/-- When a call clears the cache, no lookup that has consulted an earlier table
is in flight. -/
def Undisturbed (c : System env × Versions) (e : Event env) : Prop :=
  ∀ n ∈ clearing c e, ∀ other < c.1.tasks.length, straddles c n other = false

instance (c : System env × Versions) (e : Event env) : Decidable (Undisturbed c e) :=
  inferInstanceAs (Decidable (∀ n ∈ clearing c e, ∀ other < c.1.tasks.length,
    straddles c n other = false))

/-! ### One step -/

/-- A new call changes nothing yet. -/
theorem Fresh.spawn {c : System env × Versions} (h : Fresh c) {task : Task env}
    (hset : ∀ call, task = .set call → call.phase ≠ .finished) :
    Fresh (({ c.1 with tasks := c.1.tasks ++ [task] } : System env), c.2) where
  done tid call htask hphase := by
    rcases Agents.getElem?_concat htask with hold | ⟨-, hnew⟩
    · exact h.done tid call hold hphase
    · exact absurd hphase (hset call hnew.symm)
  ofSet_le := h.ofSet_le
  completed_le := h.completed_le
  unborn tid htid := h.unborn tid (by simp at htid; omega)
  inFlight tid task i htask hphase hi := by
    rcases Agents.getElem?_concat htask with hold | ⟨rfl, -⟩
    · exact h.inFlight tid task i hold hphase hi
    · rw [h.unborn c.1.tasks.length (Nat.le_refl _)] at hi
      cases hi
  cached := h.cached

/-- A step of a lookup. -/
theorem Fresh.lookup {c : System env × Versions} (h : Fresh c) {tid : Nat} {task : Lookup}
    (htask : c.1.tasks[tid]? = some (.lookup task)) (hphase : task.phase.inFlight = true)
    (cache : AssocMap (List Char) CachedDnsEntry) (task' : Lookup)
    (hcache : ∀ key entry, cache.get key = some entry →
      (task.stores = true ∧ key = env.lower task.host) ∨
        c.1.resolver.cache.get key = some entry) :
    Fresh ((⟨{ c.1.resolver with cache := cache }, c.1.tasks.set tid (.lookup task')⟩ :
      System env), c.2.followLookup c.1.resolver tid task) where
  done other call hother hfinished := by
    rcases Agents.getElem?_set_some hother with ⟨-, hnew⟩ | ⟨-, hold⟩
    · cases hnew
    · exact h.done other call hold hfinished
  ofSet_le := h.ofSet_le
  completed_le := h.completed_le
  unborn other hother := by
    simp only [List.length_set] at hother
    have hne : other ≠ tid := by
      rintro rfl
      have := (List.getElem?_eq_some_iff.mp htask).1
      omega
    show (if task.consults c.1.resolver = true ∧ other = tid then some c.2.written
      else c.2.consulted other) = none
    rw [if_neg (fun hcon => hne hcon.2)]
    exact h.unborn other hother
  inFlight other lookup i hother hflight hi := by
    show c.2.completed ≤ i
    change (if task.consults c.1.resolver = true ∧ other = tid then some c.2.written
      else c.2.consulted other) = some i at hi
    split at hi
    -- the table that is consulted now is from the last write
    · obtain rfl := Option.some.inj hi
      exact h.completed_le
    · rcases Agents.getElem?_set_some hother with ⟨rfl, -⟩ | ⟨-, hold⟩
      · exact h.inFlight other task i htask hphase hi
      · exact h.inFlight other lookup i hold hflight hi
  cached key entry i hget hvia := by
    show c.2.completed ≤ i
    change (if task.stores = true ∧ key = env.lower task.host then c.2.consulted tid
      else c.2.via key) = some i at hvia
    split at hvia
    · exact h.inFlight tid task i htask hphase hvia
    · rename_i hnot
      rcases hcache key entry hget with hstored | hold
      · exact absurd hstored hnot
      · exact h.cached key entry i hold hvia

/-- A step of a call that is neither the write of the rules nor the last. -/
theorem Fresh.moveSet {c : System env × Versions} (h : Fresh c) {tid : Nat} {r : DNSResolver env}
    (call : SetCall env) (hphase : call.phase ≠ .finished)
    (hcache : r.cache = c.1.resolver.cache) :
    Fresh ((⟨r, c.1.tasks.set tid (.set call)⟩ : System env), c.2) where
  done other call' hother hfinished := by
    rcases Agents.getElem?_set_some hother with ⟨-, hnew⟩ | ⟨-, hold⟩
    · cases hnew
      exact absurd hfinished hphase
    · exact h.done other call' hold hfinished
  ofSet_le := h.ofSet_le
  completed_le := h.completed_le
  unborn other hother := h.unborn other (by simpa using hother)
  inFlight other task i hother hflight hi := by
    rcases Agents.getElem?_set_some hother with ⟨-, hnew⟩ | ⟨-, hold⟩
    · cases hnew
    · exact h.inFlight other task i hold hflight hi
  cached key entry i hget hvia := h.cached key entry i (hcache ▸ hget) hvia

/-- The rules are written. -/
theorem Fresh.write {c : System env × Versions} (h : Fresh c) (tid : Nat)
    (hnot : ∀ call, c.1.tasks[tid]? = some (.set call) → call.phase ≠ .finished) :
    Fresh (c.1, c.2.followSet tid .rules) where
  done other call hother hfinished := by
    have hne : other ≠ tid := by
      rintro rfl
      exact hnot call hother hfinished
    show (if other = tid then c.2.written + 1 else c.2.ofSet other) ≤ c.2.completed
    rw [if_neg hne]
    exact h.done other call hother hfinished
  ofSet_le other := by
    show (if other = tid then c.2.written + 1 else c.2.ofSet other) ≤ c.2.written + 1
    split
    · exact Nat.le_refl _
    · exact (h.ofSet_le other).trans (Nat.le_succ _)
  completed_le := h.completed_le.trans (Nat.le_succ _)
  unborn := h.unborn
  inFlight := h.inFlight
  cached := h.cached

/-- The cache is cleared while nobody straddles the write. -/
theorem Fresh.clear {c : System env × Versions} (h : Fresh c) {tid : Nat} (call : SetCall env)
    (hnone : ∀ other < c.1.tasks.length, straddles c (c.2.ofSet tid) other = false) :
    Fresh ((⟨c.1.resolver.clearCache, c.1.tasks.set tid (.set call)⟩ : System env),
      c.2.followSet tid .clear) where
  done other call' hother hfinished := by
    show c.2.ofSet other ≤ max c.2.completed (c.2.ofSet tid)
    rcases Agents.getElem?_set_some hother with ⟨rfl, -⟩ | ⟨-, hold⟩
    · exact Nat.le_max_right _ _
    · exact (h.done other call' hold hfinished).trans (Nat.le_max_left _ _)
  ofSet_le := h.ofSet_le
  completed_le := Nat.max_le.mpr ⟨h.completed_le, h.ofSet_le tid⟩
  unborn other hother := h.unborn other (by simpa using hother)
  inFlight other task i hother hflight hi := by
    show max c.2.completed (c.2.ofSet tid) ≤ i
    rcases Agents.getElem?_set_some hother with ⟨-, hnew⟩ | ⟨-, hold⟩
    · cases hnew
    · refine Nat.max_le.mpr ⟨h.inFlight other task i hold hflight hi, ?_⟩
      have hlt := (List.getElem?_eq_some_iff.mp hold).1
      have hi' : c.2.consulted other = some i := hi
      have hother := hnone other hlt
      simp only [straddles, hold, hi', hflight, Bool.true_and, decide_eq_false_iff_not] at hother
      exact Nat.le_of_not_lt hother
  cached key entry i hget _ := by cases hget

theorem Versions.followLookup_of_quiet (v : Versions) (r : DNSResolver env) (tid : Nat)
    (task : Lookup) (hconsults : task.consults r = false) (hstores : task.stores = false) :
    v.followLookup r tid task = v := by
  simp [Versions.followLookup, hconsults, hstores]

/-- A lookup that is dropped. -/
theorem Fresh.cancel {c : System env × Versions} {s' : System env} {tid : Nat} (h : Fresh c)
    (hs : c.1.cancel tid = some s') : Fresh (s', c.2) := by
  rw [System.cancel] at hs
  split at hs
  case h_2 => cases hs
  case h_1 task htask =>
    split at hs
    case h_5 => cases hs
    all_goals
      rename_i hphase
      obtain rfl := Option.some.inj hs
      have hquiet := c.2.followLookup_of_quiet c.1.resolver tid task
        (by simp [Lookup.consults, hphase]) (by simp [Lookup.stores, hphase])
      have hmoved := h.lookup htask (by rw [hphase]; rfl) c.1.resolver.cache
        { task with phase := .dropped } (fun _ _ hget => .inr hget)
      rw [hquiet] at hmoved
      exact hmoved

/-- A step of a task. -/
theorem Fresh.runTask {c : System env × Versions} {s' : System env} {tid : Nat}
    {net : DNSResolver.Network} {victim : List Char} (h : Fresh c)
    (hcond : Undisturbed c (.run tid net victim))
    (hs : c.1.runTask tid net victim = some s') :
    Fresh (s', Versions.post c.1 c.2 (.run tid net victim)) := by
  rw [System.runTask] at hs
  split at hs
  case h_1 task htask =>
    obtain ⟨⟨cache, phase⟩, hadvance, rfl⟩ := Option.map_eq_some_iff.mp hs
    have hpost : Versions.post c.1 c.2 (.run tid net victim) =
        c.2.followLookup c.1.resolver tid task := by
      simp only [Versions.post, htask]
    rw [hpost]
    exact h.lookup htask (Lookup.inFlight_of_advance hadvance) cache { task with phase := phase }
      (fun _ _ hget => Lookup.get_advance hadvance hget)
  case h_2 call htask =>
    obtain ⟨r, hadvance, rfl⟩ := Option.map_eq_some_iff.mp hs
    have hpost : Versions.post c.1 c.2 (.run tid net victim) =
        c.2.followSet tid call.phase := by
      simp only [Versions.post, htask]
    rw [hpost]
    obtain ⟨table, phase⟩ := call
    cases phase with
    | strategy =>
        obtain rfl := Option.some.inj hadvance
        exact h.moveSet ⟨table, .ttl⟩ (by simp) rfl
    | ttl =>
        obtain rfl := Option.some.inj hadvance
        exact h.moveSet ⟨table, .default⟩ (by simp) rfl
    | default =>
        obtain rfl := Option.some.inj hadvance
        exact h.moveSet ⟨table, .rules⟩ (by simp) rfl
    | rules =>
        obtain rfl := Option.some.inj hadvance
        have hwritten : Fresh (c.1, c.2.followSet tid .rules) := by
          apply h.write tid
          intro call hcall
          obtain rfl := Task.set.inj (Option.some.inj (htask.symm.trans hcall))
          simp
        exact hwritten.moveSet ⟨table, .clear⟩ (by simp) rfl
    | clear =>
        obtain rfl := Option.some.inj hadvance
        have hclearing : clearing c (.run tid net victim) = some (c.2.ofSet tid) := by
          simp [clearing, htask]
        exact h.clear ⟨table, .finished⟩ (hcond _ hclearing)
    | finished => cases hadvance
  case h_3 => cases hs

theorem Fresh.step {c c' : System env × Versions} {e : Event env} (h : Fresh c)
    (hcond : Undisturbed c e) (hstep : numbered c e = some c') : Fresh c' := by
  obtain ⟨s', v'⟩ := c'
  obtain ⟨hs, hpost⟩ := Run.track_eq_some.mp hstep
  simp only at hs hpost
  subst hpost
  cases e with
  | resolveWithRuntime host port runtimeDns now =>
      obtain rfl := Option.some.inj hs
      exact h.spawn (fun call hcall => by cases hcall)
  | setRulesTable table =>
      obtain rfl := Option.some.inj hs
      refine h.spawn ?_
      intro call hcall
      obtain rfl := Task.set.inj hcall
      simp
  | cancel tid => exact h.cancel hs
  | run tid net victim => exact h.runTask hcond hs

/-! ### Every run -/

/-- **No run leaves an old answer behind** if, whenever a call clears the cache,
no lookup that has consulted an earlier table is in flight. -/
theorem no_stale_answers (strategy : List Char) (minutes : UInt64) (servers : Option (List Char))
    {es : List (Event env)} {c : System env × Versions}
    (hrun : Run.exec numbered (opening strategy minutes servers) es = some c)
    (hcond : Run.Along numbered Undisturbed (opening strategy minutes servers) es) :
    NoStaleAnswers c :=
  (Run.exec_invariant Fresh.step hrun hcond (fresh_opening strategy minutes servers)).noStaleAnswers

/-- Every name goes to one server. -/
def oneServer (server : String) : DnsRulesTable (asciiMatching []) where
  strategy := none
  cacheTime := none
  cacheTtl := none
  defaultServers := []
  rules := [⟨[.any], [server.toList]⟩]

/-- Every server knows one address for every name. -/
def answering (ip : IpAddr) : DNSResolver.Network where
  query _ _ qtype :=
    match qtype with
    | .a => some [ip]
    | .aaaa => none
  lookupHost _ := none

/-- `n` steps of a task. -/
def steps (tid n : Nat) : List (Event (asciiMatching [])) :=
  List.replicate n (.run tid (answering (.v4 (Ipv4Addr.new 192 0 2 10))) [])

/-- A lookup of `name`. -/
def lookUp (name : String) : Event (asciiMatching []) :=
  .resolveWithRuntime name.toList 443 none 0

/-- Rules are set, a name is looked up, and other rules are set. -/
def quietReload : List (Event (asciiMatching [])) :=
  [.setRulesTable (some (oneServer "1.1.1.1"))] ++ steps 0 5 ++ [lookUp "a.b"] ++ steps 1 7 ++
    [.setRulesTable (some (oneServer "8.8.8.8"))] ++ steps 2 5

/-- The same, and the second rules are set while the lookup waits. -/
def straddledReload : List (Event (asciiMatching [])) :=
  [.setRulesTable (some (oneServer "1.1.1.1"))] ++ steps 0 5 ++ [lookUp "a.b"] ++ steps 1 4 ++
    [.setRulesTable (some (oneServer "8.8.8.8"))] ++ steps 2 5 ++ steps 1 3

/-- No rules are set while a lookup is in flight, and what is cached goes. -/
theorem quiet_reload_not_stale :
    ∃ c, Run.exec numbered (opening "ipv4_first".toList 10 none) quietReload = some c ∧
      NoStaleAnswers c := by
  have hsome : (Run.exec numbered (opening "ipv4_first".toList 10 none) quietReload).isSome := by
    decide +kernel
  obtain ⟨c, hc⟩ := Option.isSome_iff_exists.mp hsome
  exact ⟨c, hc, no_stale_answers _ _ _ hc (by decide +kernel)⟩

/-- The entry for `key` is from before the write of the completed call `tid`. -/
def staleEntry (c : System env × Versions) (tid : Nat) (key : List Char) : Bool :=
  match c.1.tasks[tid]?, c.1.resolver.cache.get key, c.2.via key with
  | some (.set ⟨_, .finished⟩), some _, some i => i < c.2.ofSet tid
  | _, _, _ => false

theorem NoStaleAnswers.staleEntry_eq_false {c : System env × Versions} (h : NoStaleAnswers c)
    (tid : Nat) (key : List Char) : staleEntry c tid key = false := by
  rw [staleEntry]
  split
  · rename_i table entry i htask hentry hvia
    have hle := h tid ⟨table, .finished⟩ key entry i htask rfl hentry hvia
    simpa using hle
  · rfl

/-- The answer of a server of the first rules is cached after the second rules
have been set. -/
theorem stale_answer_cached :
    ¬ ∀ c, Run.exec numbered (opening "ipv4_first".toList 10 none) straddledReload = some c →
      NoStaleAnswers c := by
  intro hall
  have hend : (Run.exec numbered (opening "ipv4_first".toList 10 none) straddledReload).any
      (staleEntry · 2 "a.b".toList) = true := by
    decide +kernel
  obtain ⟨c, hc, hstale⟩ := (Option.any_eq_true _ _).mp hend
  rw [(hall c hc).staleEntry_eq_false] at hstale
  cases hstale

end Dns

end Elise
