/-
Elise/Dns/Hits.lean

A hit of the cache against the resolution it replaces (`resolve_with_runtime` in
src/dns/resolver.rs).

`resolveWithRuntime` is a call that no other one interrupts, and the task of a lookup
alone does what it says (`steps_of_resolve`).  A call that has resolved a name has stored
all addresses, and the next one takes from them what the strategy allows.  The first call
refuses when nothing is left; the second does not look (`hit_agrees_iff`).
-/
import Elise.Dns.Resolver

namespace Elise

namespace Dns

open Net DNSResolver

variable {env : Matching}

/-! ### A call of its own -/

/-- `resolve_four_levels`; without servers a level gives nothing. -/
def resolveFourLevels (r : DNSResolver env) (net : Network) (host : List Char)
    (runtimeDns : Option (List (List Char))) : Except LookupError (List IpAddr) :=
  let ask := fun servers => resolveWithServers net servers host r.strategy
  let matched := (r.rulesTable.bind fun table => table.matchServers host).getD []
  if ¬ (ask (runtimeDns.getD [])).isEmpty then .ok (ask (runtimeDns.getD []))
  else if ¬ (ask matched).isEmpty then .ok (ask matched)
  else if ¬ (ask r.defaultDns).isEmpty then .ok (ask r.defaultDns)
  else
    match net.lookupHost (host ++ ":80".toList) with
    | some addrs => .ok (addrs.map SocketAddr.ip)
    | none => .error .lookup

/-- The addresses that suit, if there are any. -/
def suitable (ips : List IpAddr) (port : UInt16) (strategy : List Char) :
    Except LookupError (List SocketAddr) :=
  let addrs := applyStrategy ips port strategy
  if addrs.isEmpty then .error .notFound else .ok addrs

def resolveWithRuntime (r : DNSResolver env) (net : Network) (victim host : List Char)
    (port : UInt16) (runtimeDns : Option (List (List Char))) (now : Nat) :
    Option (DNSResolver env × Except LookupError (List SocketAddr)) :=
  match env.parseIp host with
  | some ip => some (r, .ok [SocketAddr.new ip port])
  | none =>
      match (r.cache.get (env.lower host)).filter fun entry => now < entry.expiresAt with
      | some entry => some (r, .ok (applyStrategy entry.ips port r.strategy))
      | none =>
          match resolveFourLevels r net host runtimeDns with
          | .error e => some (r, .error e)
          | .ok ips =>
              if ips.isEmpty then some (r, suitable ips port r.strategy)
              else
                (makeRoom r.cache now victim).map fun cache =>
                  let expiresAt := now + secs r.cacheTtl
                  if expiresAt < instantLimit then
                    ({ r with cache := cache.insert (env.lower host) ⟨ips, expiresAt⟩ },
                      suitable ips port r.strategy)
                  else ({ r with cache := cache }, .error .panicked)

/-! ### The task of a lookup alone -/

/-- The next section of a lookup. -/
def Next (net : Network) (victim : List Char) (a b : DNSResolver env × Lookup) : Prop :=
  ∃ cache phase, a.2.advance a.1 net victim = some (cache, phase) ∧
    b = ({ a.1 with cache := cache }, { a.2 with phase := phase })

abbrev Goes (net : Network) (victim : List Char) : DNSResolver env × Lookup → DNSResolver env × Lookup → Prop :=
  Relation.ReflTransGen (Next net victim)

section

variable {r : DNSResolver env} {net : Network} {victim host : List Char} {port : UInt16}
  {runtimeDns : Option (List (List Char))} {now : Nat}

/-- A section that leaves the cache alone. -/
theorem goes_of_advance {task : Lookup} {phase : LookupPhase} {b : DNSResolver env × Lookup}
    (h : task.advance r net victim = some (r.cache, phase))
    (hrest : Goes net victim (r, { task with phase := phase }) b) : Goes net victim (r, task) b :=
  .head ⟨_, _, h, rfl⟩ hrest

/-- Where a lookup stands when the servers have been asked. -/
def settled (port : UInt16) (strategy : List Char) : Except LookupError (List IpAddr) → LookupPhase
  | .error e => .finished (.error e)
  | .ok ips => if ips.isEmpty then .finished (suitable ips port strategy) else .readTtl strategy ips

/-- One level, with the next one behind it. -/
theorem settled_level (ips : List IpAddr) (strategy : List Char)
    (next : Except LookupError (List IpAddr)) {phase : LookupPhase}
    (hnext : Goes net victim (r, ⟨host, port, runtimeDns, now, phase⟩)
      (r, ⟨host, port, runtimeDns, now, settled port strategy next⟩)) :
    Goes net victim (r, ⟨host, port, runtimeDns, now, answered ips strategy phase⟩)
      (r, ⟨host, port, runtimeDns, now,
        settled port strategy (if ¬ ips.isEmpty then .ok ips else next)⟩) := by
  by_cases hips : ips.isEmpty
  · rw [if_neg (not_not_intro hips), answered, if_pos hips]
    exact hnext
  · rw [if_pos hips, answered, settled, if_neg hips, if_neg hips]

/-- The default servers are asked, if there are any. -/
theorem goes_readDefault {strategy inner : List Char} {b : DNSResolver env × Lookup}
    (h : Goes net victim (r, ⟨host, port, runtimeDns, now,
      answered (resolveWithServers net r.defaultDns host inner) strategy (.askSystem strategy)⟩) b) :
    Goes net victim (r, ⟨host, port, runtimeDns, now, .readDefault strategy inner⟩) b := by
  cases hservers : r.defaultDns with
  | nil =>
      rw [hservers] at h
      refine goes_of_advance ?_ h
      simp only [Lookup.advance, hservers]
      rfl
  | cons server servers =>
      rw [hservers] at h
      have hnext : Lookup.advance r ⟨host, port, runtimeDns, now, .readDefault strategy inner⟩ net victim =
          some (r.cache, .askDefault strategy inner (server :: servers)) := by
        simp only [Lookup.advance, hservers]
      exact goes_of_advance hnext (goes_of_advance rfl h)

/-- The servers of the first rule are asked, if there are any. -/
theorem goes_readRules {strategy inner : List Char} {b : DNSResolver env × Lookup}
    (h : Goes net victim (r, ⟨host, port, runtimeDns, now,
      answered (resolveWithServers net
        ((r.rulesTable.bind fun table => table.matchServers host).getD []) host inner) strategy
        (.readDefault strategy inner)⟩) b) :
    Goes net victim (r, ⟨host, port, runtimeDns, now, .readRules strategy inner⟩) b := by
  rcases hservers : r.rulesTable.bind fun table => table.matchServers host with - | - | ⟨server, servers⟩
  · rw [hservers] at h
    refine goes_of_advance ?_ h
    simp only [Lookup.advance, hservers]
    rfl
  · rw [hservers] at h
    refine goes_of_advance ?_ h
    simp only [Lookup.advance, hservers]
    rfl
  · rw [hservers] at h
    have hnext : Lookup.advance r ⟨host, port, runtimeDns, now, .readRules strategy inner⟩ net victim =
        some (r.cache, .askMatched strategy inner (server :: servers)) := by
      simp only [Lookup.advance, hservers]
    exact goes_of_advance hnext (goes_of_advance rfl h)

theorem goes_resolveFourLevels :
    Goes net victim (r, ⟨host, port, runtimeDns, now, .readStrategyAgain r.strategy⟩)
      (r, ⟨host, port, runtimeDns, now,
        settled port r.strategy (resolveFourLevels r net host runtimeDns)⟩) := by
  -- from the last level to the first
  have hsystem : Goes net victim (r, ⟨host, port, runtimeDns, now, .askSystem r.strategy⟩)
      (r, ⟨host, port, runtimeDns, now, settled port r.strategy
        (match net.lookupHost (host ++ ":80".toList) with
          | some addrs => .ok (addrs.map SocketAddr.ip)
          | none => .error .lookup)⟩) := by
    refine .single ⟨r.cache, _, ?_, rfl⟩
    simp only [Lookup.advance]
    cases net.lookupHost (host ++ ":80".toList) <;> rfl
  have hdefault := goes_readDefault
    (settled_level (resolveWithServers net r.defaultDns host r.strategy) r.strategy _ hsystem)
  have hmatched := goes_readRules
    (settled_level (resolveWithServers net
      ((r.rulesTable.bind fun table => table.matchServers host).getD []) host r.strategy) r.strategy _
      hdefault)
  have hruntime := settled_level (resolveWithServers net (runtimeDns.getD []) host r.strategy)
    r.strategy _ hmatched
  rcases runtimeDns with - | - | ⟨server, servers⟩
  · exact goes_of_advance rfl hruntime
  · exact goes_of_advance rfl hruntime
  · exact goes_of_advance rfl (goes_of_advance rfl hruntime)

/-- **A lookup that no other call interrupts returns what `resolveWithRuntime` says.** -/
theorem steps_of_resolve {r' : DNSResolver env} {result : Except LookupError (List SocketAddr)}
    (h : resolveWithRuntime r net victim host port runtimeDns now = some (r', result)) :
    Goes net victim (r, .start env host port runtimeDns now)
      (r', ⟨host, port, runtimeDns, now, .finished result⟩) := by
  rw [resolveWithRuntime] at h
  cases hip : env.parseIp host with
  | some ip =>
      rw [hip] at h
      obtain ⟨rfl, rfl⟩ := Prod.mk.injEq .. ▸ Option.some.inj h
      rw [Lookup.start, hip]
  | none =>
      rw [hip] at h
      rw [Lookup.start, hip]
      refine goes_of_advance rfl ?_
      cases hhit : (r.cache.get (env.lower host)).filter fun entry => now < entry.expiresAt with
      | some entry =>
          rw [hhit] at h
          obtain ⟨rfl, rfl⟩ := Prod.mk.injEq .. ▸ Option.some.inj h
          obtain ⟨hentry, hnow⟩ := Option.filter_eq_some_iff.mp hhit
          refine goes_of_advance ?_ .refl
          simp [Lookup.advance, hentry, of_decide_eq_true hnow]
      | none =>
          rw [hhit] at h
          dsimp only at h
          have hmiss : (⟨host, port, runtimeDns, now, .readCache r.strategy⟩ : Lookup).advance r net victim =
              some (r.cache, .readStrategyAgain r.strategy) := by
            simp only [Lookup.advance]
            cases hentry : r.cache.get (env.lower host) with
            | none => rfl
            | some entry =>
                rw [hentry, Option.filter_some] at hhit
                have hnow : ¬ now < entry.expiresAt := by
                  intro hnow
                  rw [if_pos (decide_eq_true hnow)] at hhit
                  cases hhit
                simp only [if_neg hnow]
          refine goes_of_advance hmiss (goes_resolveFourLevels.trans ?_)
          cases hresolved : resolveFourLevels r net host runtimeDns with
          | error e =>
              rw [hresolved] at h
              obtain ⟨rfl, rfl⟩ := Prod.mk.injEq .. ▸ Option.some.inj h
              exact .refl
          | ok ips =>
              rw [hresolved] at h
              dsimp only at h
              by_cases hips : ips.isEmpty
              · rw [if_pos hips] at h
                obtain ⟨rfl, rfl⟩ := Prod.mk.injEq .. ▸ Option.some.inj h
                rw [settled, if_pos hips]
              · rw [if_neg hips] at h
                rw [settled, if_neg hips]
                obtain ⟨cache, hroom, hwritten⟩ := Option.map_eq_some_iff.mp h
                refine goes_of_advance rfl (.single ?_)
                by_cases hlimit : now + secs r.cacheTtl < instantLimit
                · rw [if_pos hlimit] at hwritten
                  obtain ⟨rfl, rfl⟩ := Prod.mk.injEq .. ▸ hwritten
                  refine ⟨_, _, ?_, rfl⟩
                  simp only [Lookup.advance, hroom, Option.map_some, if_pos hlimit]
                  rfl
                · rw [if_neg hlimit] at hwritten
                  obtain ⟨rfl, rfl⟩ := Prod.mk.injEq .. ▸ hwritten
                  refine ⟨_, _, ?_, rfl⟩
                  simp only [Lookup.advance, hroom, Option.map_some, if_neg hlimit]

end

/-! ### What a strategy allows -/

/-- The strategy leaves an address of this kind. -/
def Suits (strategy : List Char) : IpAddr → Prop
  | .v4 _ => strategy ≠ "ipv6_only".toList
  | .v6 _ => strategy ≠ "ipv4_only".toList

instance (strategy : List Char) (ip : IpAddr) : Decidable (Suits strategy ip) := by
  cases ip <;> (unfold Suits; infer_instance)

/-- Every address is of one kind or the other. -/
theorem mem_kinds {ips : List IpAddr} {port : UInt16} {strategy : List Char} {addr : SocketAddr}
    (hsuits : ∀ ip, Suits strategy ip) :
    (addr ∈ (ips.filter fun | .v4 _ => true | .v6 _ => false).map (SocketAddr.new · port) ∨
        addr ∈ (ips.filter fun | .v4 _ => false | .v6 _ => true).map (SocketAddr.new · port)) ↔
      ∃ ip ∈ ips, Suits strategy ip ∧ SocketAddr.new ip port = addr := by
  simp only [List.mem_map, List.mem_filter]
  constructor
  · rintro (⟨ip, ⟨hmem, -⟩, rfl⟩ | ⟨ip, ⟨hmem, -⟩, rfl⟩)
    · exact ⟨ip, hmem, hsuits ip, rfl⟩
    · exact ⟨ip, hmem, hsuits ip, rfl⟩
  · rintro ⟨ip | ip, hmem, -, rfl⟩
    · exact .inl ⟨_, ⟨hmem, rfl⟩, rfl⟩
    · exact .inr ⟨_, ⟨hmem, rfl⟩, rfl⟩

/-- The strategy orders the addresses that it leaves. -/
theorem mem_applyStrategy {ips : List IpAddr} {port : UInt16} {strategy : List Char}
    {addr : SocketAddr} :
    addr ∈ applyStrategy ips port strategy ↔
      ∃ ip ∈ ips, Suits strategy ip ∧ SocketAddr.new ip port = addr := by
  have hne : "ipv4_only".toList ≠ "ipv6_only".toList := by decide
  simp only [applyStrategy]
  split
  · rename_i h4
    subst h4
    simp only [List.mem_map, List.mem_filter]
    constructor
    · rintro ⟨ip | ip, ⟨hmem, hkind⟩, rfl⟩
      · exact ⟨_, hmem, hne, rfl⟩
      · cases hkind
    · rintro ⟨ip | ip, hmem, hsuits, rfl⟩
      · exact ⟨_, ⟨hmem, rfl⟩, rfl⟩
      · exact absurd rfl hsuits
  · rename_i h4
    split
    · rename_i h6
      subst h6
      simp only [List.mem_map, List.mem_filter]
      constructor
      · rintro ⟨ip | ip, ⟨hmem, hkind⟩, rfl⟩
        · cases hkind
        · exact ⟨_, hmem, h4, rfl⟩
      · rintro ⟨ip | ip, hmem, hsuits, rfl⟩
        · exact absurd rfl hsuits
        · exact ⟨_, ⟨hmem, rfl⟩, rfl⟩
    · rename_i h6
      -- both kinds, in either order
      have hsuits : ∀ ip, Suits strategy ip := by
        rintro (ip | ip)
        · exact h6
        · exact h4
      split
      · refine (List.mem_append.trans or_comm).trans ?_
        exact mem_kinds hsuits
      · exact List.mem_append.trans (mem_kinds hsuits)

theorem applyStrategy_eq_nil_iff {ips : List IpAddr} {port : UInt16} {strategy : List Char} :
    applyStrategy ips port strategy = [] ↔ ¬ ∃ ip ∈ ips, Suits strategy ip := by
  rw [List.eq_nil_iff_forall_not_mem]
  constructor
  · rintro h ⟨ip, hmem, hsuits⟩
    exact h _ (mem_applyStrategy.mpr ⟨ip, hmem, hsuits, rfl⟩)
  · intro h addr hmem
    obtain ⟨ip, hip, hsuits, -⟩ := mem_applyStrategy.mp hmem
    exact h ⟨ip, hip, hsuits⟩

/-- The port is that of the call, the rest does not depend on it. -/
def withPort (port : UInt16) (addr : SocketAddr) : SocketAddr := .new addr.ip port

theorem map_withPort_applyStrategy (ips : List IpAddr) (port port' : UInt16) (strategy : List Char) :
    (applyStrategy ips port strategy).map (withPort port') = applyStrategy ips port' strategy := by
  have hnew : withPort port' ∘ (SocketAddr.new · port) = (SocketAddr.new · port') := by
    funext ip
    cases ip <;> rfl
  rw [applyStrategy, applyStrategy]
  split
  · rw [List.map_map, hnew]
  · split
    · rw [List.map_map, hnew]
    · split <;> rw [List.map_append, List.map_map, List.map_map, hnew]

/-! ### Two calls -/

/-- The call goes to the servers. -/
def Misses (r : DNSResolver env) (host : List Char) (now : Nat) : Prop :=
  env.parseIp host = none ∧ ∀ entry ∈ r.cache.get (env.lower host), entry.expiresAt ≤ now

/-- What the second call should return after the first. -/
structure Agrees (port' : UInt16) (first second : Except LookupError (List SocketAddr)) : Prop where
  ok : ∀ addrs, first = .ok addrs → second = .ok (addrs.map (withPort port'))
  notFound : first = .error .notFound → ∃ e, second = .error e
  first_ne : first ≠ .ok []
  second_ne : second ≠ .ok []

theorem Misses.resolve {r : DNSResolver env} {host : List Char} {now : Nat} (h : Misses r host now)
    (net : Network) (victim : List Char) (port : UInt16) (runtimeDns : Option (List (List Char))) :
    resolveWithRuntime r net victim host port runtimeDns now =
      match resolveFourLevels r net host runtimeDns with
      | .error e => some (r, .error e)
      | .ok ips =>
          if ips.isEmpty then some (r, suitable ips port r.strategy)
          else
            (makeRoom r.cache now victim).map fun cache =>
              if now + secs r.cacheTtl < instantLimit then
                ({ r with cache := cache.insert (env.lower host) ⟨ips, now + secs r.cacheTtl⟩ },
                  suitable ips port r.strategy)
              else ({ r with cache := cache }, .error .panicked) := by
  have hfilter : ((r.cache.get (env.lower host)).filter fun entry => now < entry.expiresAt) = none := by
    rw [Option.filter_eq_none_iff]
    intro entry hentry
    simpa using h.2 entry hentry
  rw [resolveWithRuntime, h.1, hfilter]

/-- What is resolved is stored. -/
theorem Misses.resolve_ok {r : DNSResolver env} {net : Network} {victim host : List Char}
    {runtimeDns : Option (List (List Char))} {now : Nat} {ips : List IpAddr}
    {cache : AssocMap (List Char) CachedDnsEntry} (h : Misses r host now)
    (hresolved : resolveFourLevels r net host runtimeDns = .ok ips) (hne : ips ≠ [])
    (hroom : makeRoom r.cache now victim = some cache) (hlimit : now + secs r.cacheTtl < instantLimit)
    (port : UInt16) :
    resolveWithRuntime r net victim host port runtimeDns now =
      some ({ r with cache := cache.insert (env.lower host) ⟨ips, now + secs r.cacheTtl⟩ },
        suitable ips port r.strategy) := by
  rw [h.resolve, hresolved]
  dsimp only
  rw [if_neg (by simpa using hne), hroom, Option.map_some, if_pos hlimit]

/-- An entry that has not expired is what a call returns. -/
theorem resolve_of_hit {r : DNSResolver env} {host : List Char} {now : Nat} {entry : CachedDnsEntry}
    (hip : env.parseIp host = none) (hentry : r.cache.get (env.lower host) = some entry)
    (hnow : now < entry.expiresAt) (net : Network) (victim : List Char) (port : UInt16)
    (runtimeDns : Option (List (List Char))) :
    resolveWithRuntime r net victim host port runtimeDns now =
      some (r, .ok (applyStrategy entry.ips port r.strategy)) := by
  have hfilter : ((r.cache.get (env.lower host)).filter fun entry => now < entry.expiresAt) =
      some entry := by
    rw [hentry, Option.filter_some, if_pos (decide_eq_true hnow)]
  rw [resolveWithRuntime, hip, hfilter]

theorem suitable_ne_ok_nil (ips : List IpAddr) (port : UInt16) (strategy : List Char) :
    suitable ips port strategy ≠ .ok [] := by
  intro h
  rw [suitable] at h
  split at h
  · cases h
  · rename_i hne
    exact hne (by rw [Except.ok.inj h]; rfl)

section

variable {r r' r'' : DNSResolver env} {net net' : Network} {victim victim' host : List Char}
  {port port' : UInt16} {runtimeDns runtimeDns' : Option (List (List Char))} {now now' : Nat}
  {first second : Except LookupError (List SocketAddr)}

/-- **A hit agrees with the resolution it replaces when an address that was resolved suits
the strategy.**  Both calls are told the same by the servers, if they ask. -/
theorem hit_agrees_iff (hmiss : Misses r host now)
    (hfirst : resolveWithRuntime r net victim host port runtimeDns now = some (r', first))
    (hreturns : first ≠ .error .panicked) (hlater : now ≤ now')
    (hexpiry : now' < now + secs r.cacheTtl)
    (hsame : resolveFourLevels r net' host runtimeDns' = resolveFourLevels r net host runtimeDns)
    (hsecond : resolveWithRuntime r' net' victim' host port' runtimeDns' now' = some (r'', second)) :
    Agrees port' first second ↔
      ∀ ips, resolveFourLevels r net host runtimeDns = .ok ips → ips ≠ [] →
        ∃ ip ∈ ips, Suits r.strategy ip := by
  rw [hmiss.resolve] at hfirst
  cases hresolved : resolveFourLevels r net host runtimeDns with
  | error e =>
      -- nothing was stored, and the second call fails as the first
      rw [hresolved] at hfirst hsame
      obtain ⟨rfl, rfl⟩ := Prod.mk.injEq .. ▸ Option.some.inj hfirst
      have hmiss' : Misses r host now' := ⟨hmiss.1, fun entry h => (hmiss.2 entry h).trans hlater⟩
      rw [hmiss'.resolve, hsame] at hsecond
      obtain ⟨-, rfl⟩ := Prod.mk.injEq .. ▸ Option.some.inj hsecond
      refine iff_of_true ⟨fun _ h => (nomatch h), fun _ => ⟨e, rfl⟩, fun h => (nomatch h),
        fun h => (nomatch h)⟩ ?_
      intro ips h
      cases h
  | ok ips =>
      rw [hresolved] at hfirst hsame
      dsimp only at hfirst
      by_cases hnil : ips = []
      · -- nothing was resolved and nothing stored
        subst hnil
        obtain ⟨rfl, rfl⟩ := Prod.mk.injEq .. ▸ Option.some.inj hfirst
        have hmiss' : Misses r host now' := ⟨hmiss.1, fun entry h => (hmiss.2 entry h).trans hlater⟩
        rw [hmiss'.resolve, hsame] at hsecond
        obtain ⟨-, rfl⟩ := Prod.mk.injEq .. ▸ Option.some.inj hsecond
        have hempty : ∀ port, suitable [] port r.strategy = .error .notFound := by
          intro port
          have hstrategy : applyStrategy [] port r.strategy = [] :=
            applyStrategy_eq_nil_iff.mpr (by simp)
          rw [suitable, hstrategy]
          rfl
        rw [hempty, hempty]
        refine iff_of_true ⟨fun _ h => (nomatch h), fun _ => ⟨_, rfl⟩, fun h => (nomatch h),
          fun h => (nomatch h)⟩ ?_
        rintro ips h hne
        exact absurd (Except.ok.inj h).symm hne
      · rw [if_neg (by simpa using hnil)] at hfirst
        obtain ⟨cache, -, hwritten⟩ := Option.map_eq_some_iff.mp hfirst
        by_cases hlimit : now + secs r.cacheTtl < instantLimit
        swap
        · rw [if_neg hlimit] at hwritten
          obtain ⟨-, rfl⟩ := Prod.mk.injEq .. ▸ hwritten
          exact absurd rfl hreturns
        rw [if_pos hlimit] at hwritten
        obtain ⟨rfl, rfl⟩ := Prod.mk.injEq .. ▸ hwritten
        -- the second call hits what the first has stored
        rw [resolve_of_hit hmiss.1 (AssocMap.get_insert_self ..) hexpiry] at hsecond
        obtain ⟨-, rfl⟩ := Prod.mk.injEq .. ▸ Option.some.inj hsecond
        have hcond : (∀ ips', (.ok ips : Except LookupError (List IpAddr)) = .ok ips' → ips' ≠ [] →
            ∃ ip ∈ ips', Suits r.strategy ip) ↔ ∃ ip ∈ ips, Suits r.strategy ip := by
          constructor
          · intro h
            exact h ips rfl hnil
          · rintro h ips' heq -
            rw [← Except.ok.inj heq]
            exact h
        rw [hcond]
        constructor
        · intro h
          by_contra hnot
          exact h.second_ne (congrArg Except.ok (applyStrategy_eq_nil_iff.mpr hnot))
        · intro hsuits
          have hne : ∀ port, applyStrategy ips port r.strategy ≠ [] := fun port h =>
            applyStrategy_eq_nil_iff.mp h hsuits
          have hok : suitable ips port r.strategy = .ok (applyStrategy ips port r.strategy) := by
            rw [suitable, if_neg (by simpa using hne port)]
          rw [hok]
          refine ⟨?_, fun h => (nomatch h), fun h => hne port (Except.ok.inj h),
            fun h => hne port' (Except.ok.inj h)⟩
          intro addrs h
          rw [← Except.ok.inj h, map_withPort_applyStrategy]

end

/-- In any state, and between any sections of other calls: a lookup ends with an empty list
of addresses exactly when it hits an entry of which its strategy leaves nothing. -/
theorem finished_ok_nil_iff {r : DNSResolver env} {task : Lookup} {net : Network} {victim : List Char} :
    (∃ cache, task.advance r net victim = some (cache, .finished (.ok []))) ↔
      ∃ strategy entry, task.phase = .readCache strategy ∧
        r.cache.get (env.lower task.host) = some entry ∧ task.now < entry.expiresAt ∧
          ¬ ∃ ip ∈ entry.ips, Suits strategy ip := by
  constructor
  · rintro ⟨cache, h⟩
    rw [Lookup.advance] at h
    split at h
    case h_2 strategy hphase =>
      split at h
      · rename_i entry hentry
        split at h
        · rename_i hnow
          obtain ⟨-, hfinished⟩ := Prod.mk.injEq .. ▸ Option.some.inj h
          have haddrs := Except.ok.inj (LookupPhase.finished.inj hfinished)
          exact ⟨strategy, entry, hphase, hentry, hnow, applyStrategy_eq_nil_iff.mp haddrs⟩
        · cases h
      · cases h
    case h_9 strategy hphase =>
      split at h
      · rename_i addrs haddrs
        obtain ⟨-, hnext⟩ := Prod.mk.injEq .. ▸ Option.some.inj h
        rw [answered] at hnext
        split at hnext
        · exact absurd (LookupPhase.finished.inj hnext) (suitable_ne_ok_nil _ _ _)
        · cases hnext
      · cases h
    case h_11 strategy ips ttl hphase =>
      obtain ⟨room, -, heq⟩ := Option.map_eq_some_iff.mp h
      dsimp only at heq
      split at heq
      · obtain ⟨-, hnext⟩ := Prod.mk.injEq .. ▸ heq
        exact absurd (LookupPhase.finished.inj hnext) (suitable_ne_ok_nil _ _ _)
      · cases heq
    -- no other section ends a lookup
    case h_4 | h_6 | h_8 =>
      simp only [answered] at h
      split at h <;> cases h
    all_goals
      repeat' split at h
      all_goals cases h
  · rintro ⟨strategy, entry, hphase, hentry, hnow, hnone⟩
    refine ⟨r.cache, ?_⟩
    simp only [Lookup.advance, hphase, hentry, if_pos hnow, applyStrategy_eq_nil_iff.mpr hnone]

/-! ### A name with an address of one kind -/

/-- The system knows one address for every name. -/
def systemSays (ip : IpAddr) : Network where
  query _ _ _ := none
  lookupHost _ := some [SocketAddr.new ip 80]

def freshResolver (strategy : String) : DNSResolver (asciiMatching []) := .new strategy.toList 10 none

theorem misses_freshResolver : Misses (freshResolver "ipv4_only") "a.b".toList 0 :=
  ⟨rfl, fun _ h => (nomatch h)⟩

/-- The resolver once the name has been resolved. -/
def filledResolver (ip : IpAddr) : DNSResolver (asciiMatching []) :=
  { freshResolver "ipv4_only" with
    cache := AssocMap.insert ∅ ((asciiMatching []).lower "a.b".toList) ⟨[ip], 0 + secs 600⟩ }

theorem resolve_first (ip : IpAddr) (port : UInt16) :
    resolveWithRuntime (freshResolver "ipv4_only") (systemSays ip) [] "a.b".toList port none 0 =
      some (filledResolver ip, suitable [ip] port "ipv4_only".toList) := by
  have hresolved : resolveFourLevels (freshResolver "ipv4_only") (systemSays ip) "a.b".toList none =
      .ok [ip] := by cases ip <;> rfl
  have hroom : makeRoom (freshResolver "ipv4_only").cache 0 [] = some ∅ := if_pos (by decide)
  exact misses_freshResolver.resolve_ok hresolved (List.cons_ne_nil _ _) hroom (by decide) port

/-- Section by section, the name is resolved as in one call. -/
theorem steps_of_first :
    Goes (systemSays (.v4 (.new 192 0 2 1))) []
      (freshResolver "ipv4_only", .start (asciiMatching []) "a.b".toList 443 none 0)
      (filledResolver (.v4 (.new 192 0 2 1)),
        ⟨"a.b".toList, 443, none, 0, .finished (suitable [.v4 (.new 192 0 2 1)] 443 "ipv4_only".toList)⟩) :=
  steps_of_resolve (resolve_first (.v4 (.new 192 0 2 1)) 443)

theorem resolve_second (ip : IpAddr) (port : UInt16) :
    resolveWithRuntime (filledResolver ip) (systemSays ip) [] "a.b".toList port none 1 =
      some (filledResolver ip, .ok (applyStrategy [ip] port "ipv4_only".toList)) := by
  have hentry : (filledResolver ip).cache.get ((asciiMatching []).lower "a.b".toList) =
      some ⟨[ip], 0 + secs 600⟩ := AssocMap.get_insert_self ..
  have hnow : 1 < 0 + secs 600 := by decide
  exact resolve_of_hit rfl hentry hnow _ _ port none

/-- With an address of the kind that is asked for the hit returns it, too. -/
theorem hit_agrees_ipv4 :
    Agrees 80 (suitable [.v4 (.new 192 0 2 1)] 443 "ipv4_only".toList)
      (.ok (applyStrategy [.v4 (.new 192 0 2 1)] 80 "ipv4_only".toList)) := by
  refine (hit_agrees_iff misses_freshResolver (resolve_first (.v4 (.new 192 0 2 1)) 443) ?_
    (Nat.zero_le 1) (by decide) rfl (resolve_second (.v4 (.new 192 0 2 1)) 80)).mpr ?_
  · intro h
    cases h
  · rintro ips h -
    rw [← Except.ok.inj h]
    exact ⟨_, List.mem_singleton_self _, (by decide : "ipv4_only".toList ≠ "ipv6_only".toList)⟩

/-- With one of the other kind the first call refuses, and the second returns no address. -/
theorem hit_disagrees_ipv6 :
    ∃ r', resolveWithRuntime (freshResolver "ipv4_only") (systemSays (.v6 (.ofNat 1))) []
          "a.b".toList 443 none 0 = some (r', .error .notFound) ∧
        resolveWithRuntime r' (systemSays (.v6 (.ofNat 1))) [] "a.b".toList 443 none 1 =
          some (r', .ok []) ∧
        ¬ Agrees 443 (.error .notFound) (.ok []) :=
  ⟨filledResolver (.v6 (.ofNat 1)), resolve_first _ _, resolve_second _ _, fun h => h.second_ne rfl⟩

end Dns

end Elise
