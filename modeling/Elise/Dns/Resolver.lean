/-
Elise/Dns/Resolver.lean

The resolver with its cache and its rules (src/dns/resolver.rs), and the watcher of the rules
file (src/dns/router.rs).

The fields of the resolver are behind locks of their own, and no call holds more than one of
them.  A call is therefore a task that passes through one critical section or one wait for the
network at a time, and `Dns.step` moves one task by one of these.  What the servers say, which
entry a full cache gives up, and the order of the steps come with the event.

`set_rules_table` writes four fields and clears the cache, but it writes the strategy, the TTL
and the default servers only if its table has them; what it does not write stays as an earlier
table left it.  So the configuration after a sequence of calls is that of the last one alone
exactly if, for each of the three fields, the last table sets it or the last earlier table that
sets it gave it the value it had at the beginning (`reload_history_independent_iff`).

Whatever the watcher finds, it makes such a sequence of calls (`watch_eq_reload`).  When the
rules file is taken away, the log says "reverted to default/system DNS", and the settings of the
file are still in force (`settings_survive_removal`).
-/
import Elise.Dns.Rules
import Elise.Lib.FirstMatch

namespace Elise

open Net

/-! ### The resolver -/

/-- Instants and durations are in nanoseconds. -/
def secs (n : UInt64) : Nat := n.toNat * 1000000000

/-- The seconds of an instant are an `i64`; an instant beyond panics. -/
def instantLimit : Nat := 2 ^ 63 * 1000000000

def maxDnsCacheEntries : Nat := 10000

structure CachedDnsEntry where
  ips : List IpAddr
  expiresAt : Nat

structure DNSResolver (env : Matching) where
  strategy : List Char
  /-- In seconds. -/
  cacheTtl : UInt64
  defaultDns : List (List Char)
  rulesTable : Option (DnsRulesTable env)
  cache : AssocMap (List Char) CachedDnsEntry

namespace DNSResolver

variable {env : Matching}

/-- Minutes as seconds, at least one minute; a product of `u64`. -/
def ttlOfMinutes (mins : UInt64) : UInt64 := max mins 1 * 60

def splitServers (text : List Char) : List (List Char) :=
  ((text.splitOn ',').map Text.trim).filter fun item => !item.isEmpty

def new (strategy : List Char) (cacheTimeMinutes : UInt64) (defaultDnsStr : Option (List Char)) :
    DNSResolver env where
  strategy := strategy
  cacheTtl := ttlOfMinutes cacheTimeMinutes
  defaultDns := (defaultDnsStr.map splitServers).getD []
  rulesTable := none
  cache := ∅

/-! ### Setting the rules -/

/-- The strategy a call sets, if it sets one. -/
def newStrategy (table : Option (DnsRulesTable env)) : Option (List Char) :=
  table.bind (·.strategy)

/-- Seconds go before minutes. -/
def newTtl (table : Option (DnsRulesTable env)) : Option UInt64 :=
  table.bind fun tbl =>
    match tbl.cacheTtl with
    | some seconds => some (max seconds 1)
    | none => tbl.cacheTime.map ttlOfMinutes

def newDefault (table : Option (DnsRulesTable env)) : Option (List (List Char)) :=
  table.bind fun tbl => if tbl.defaultServers.isEmpty then none else some tbl.defaultServers

def writeStrategy (r : DNSResolver env) (table : Option (DnsRulesTable env)) : DNSResolver env :=
  { r with strategy := (newStrategy table).getD r.strategy }

def writeTtl (r : DNSResolver env) (table : Option (DnsRulesTable env)) : DNSResolver env :=
  { r with cacheTtl := (newTtl table).getD r.cacheTtl }

def writeDefault (r : DNSResolver env) (table : Option (DnsRulesTable env)) : DNSResolver env :=
  { r with defaultDns := (newDefault table).getD r.defaultDns }

def writeRules (r : DNSResolver env) (table : Option (DnsRulesTable env)) : DNSResolver env :=
  { r with rulesTable := table }

def clearCache (r : DNSResolver env) : DNSResolver env := { r with cache := ∅ }

/-- A call with no other in between. -/
def setRulesTable (r : DNSResolver env) (table : Option (DnsRulesTable env)) : DNSResolver env :=
  ((((r.writeStrategy table).writeTtl table).writeDefault table).writeRules table).clearCache

/-! ### The pieces of a lookup -/

/-- The addresses in the order the strategy wants. -/
def applyStrategy (ips : List IpAddr) (port : UInt16) (strategy : List Char) : List SocketAddr :=
  let v4 := (ips.filter fun | .v4 _ => true | .v6 _ => false).map (SocketAddr.new · port)
  let v6 := (ips.filter fun | .v4 _ => false | .v6 _ => true).map (SocketAddr.new · port)
  if strategy = "ipv4_only".toList then v4
  else if strategy = "ipv6_only".toList then v6
  else if strategy = "ipv6_first".toList ∨ strategy = "prefer_ipv6".toList then v6 ++ v4
  else v4 ++ v6

inductive QueryType where
  | a
  | aaaa

/-- What the network answers while a call waits for it. -/
structure Network where
  query : DnsEndpoint → List Char → QueryType → Option (List IpAddr)
  lookupHost : List Char → Option (List SocketAddr)

/-- What one server gives for the domain. -/
def queryServer (net : Network) (endpoint : DnsEndpoint) (domain strategy : List Char) :
    List IpAddr :=
  if strategy = "ipv4_only".toList then (net.query endpoint domain .a).getD []
  else if strategy = "ipv6_only".toList then (net.query endpoint domain .aaaa).getD []
  else (net.query endpoint domain .a).getD [] ++ (net.query endpoint domain .aaaa).getD []

/-- The addresses of the first server that gives some; none if all fail. -/
def resolveWithServers (net : Network) (servers : List (List Char))
    (domain strategy : List Char) : List IpAddr :=
  (servers.findSome? fun serverRaw =>
    (parseDnsEndpoint serverRaw).bind fun endpoint =>
      some (queryServer net endpoint domain strategy)
        |>.filter fun ips => !ips.isEmpty).getD []

def prune (cache : AssocMap (List Char) CachedDnsEntry) (now : Nat) :
    AssocMap (List Char) CachedDnsEntry :=
  cache.retain fun _ entry => now < entry.expiresAt

/-- Make room in a full cache.  The entry that goes when none has expired is
the first in the order of the hash map: `victim`. -/
def makeRoom (cache : AssocMap (List Char) CachedDnsEntry) (now : Nat) (victim : List Char) :
    Option (AssocMap (List Char) CachedDnsEntry) :=
  if cache.len < maxDnsCacheEntries then some cache
  else
    let cache := prune cache now
    if cache.len < maxDnsCacheEntries then some cache
    else if cache.contains victim then some (cache.erase victim)
    else none

end DNSResolver

/-! ### Calls as tasks -/

namespace Dns

open DNSResolver

inductive LookupError where
  /-- No address of the kind the strategy allows. -/
  | notFound
  /-- The system could not resolve the name. -/
  | lookup
  /-- The expiry of the entry is no instant. -/
  | panicked

/-- Where a lookup stands.  `strategy` is the first reading of the strategy and
`inner` the second. -/
inductive LookupPhase where
  | readStrategy
  | readCache (strategy : List Char)
  | readStrategyAgain (strategy : List Char)
  | askRuntime (strategy inner : List Char)
  | readRules (strategy inner : List Char)
  | askMatched (strategy inner : List Char) (servers : List (List Char))
  | readDefault (strategy inner : List Char)
  | askDefault (strategy inner : List Char) (servers : List (List Char))
  | askSystem (strategy : List Char)
  | readTtl (strategy : List Char) (ips : List IpAddr)
  | writeCache (strategy : List Char) (ips : List IpAddr) (ttl : UInt64)
  | finished (result : Except LookupError (List SocketAddr))
  | dropped

structure Lookup where
  host : List Char
  port : UInt16
  runtimeDns : Option (List (List Char))
  now : Nat
  phase : LookupPhase

inductive SetPhase where
  | strategy
  | ttl
  | default
  | rules
  | clear
  | finished

structure SetCall (env : Matching) where
  table : Option (DnsRulesTable env)
  phase : SetPhase

inductive Task (env : Matching) where
  | lookup (task : Lookup)
  | set (task : SetCall env)

structure System (env : Matching) where
  resolver : DNSResolver env
  tasks : List (Task env)

inductive Event (env : Matching) where
  | resolveWithRuntime (host : List Char) (port : UInt16) (runtimeDns : Option (List (List Char)))
      (now : Nat)
  | setRulesTable (table : Option (DnsRulesTable env))
  /-- The task takes its next step. -/
  | run (tid : Nat) (net : Network) (victim : List Char)
  /-- The caller of a lookup drops it. -/
  | cancel (tid : Nat)

variable {env : Matching}

/-- The end of a lookup with these addresses. -/
def deliver (task : Lookup) (strategy : List Char) (ips : List IpAddr) : LookupPhase :=
  let addrs := applyStrategy ips task.port strategy
  .finished (if addrs.isEmpty then .error .notFound else .ok addrs)

/-- A group of servers has answered; without an address the next group is
asked. -/
def answered (ips : List IpAddr) (strategy : List Char) (next : LookupPhase) : LookupPhase :=
  if ips.isEmpty then next else .readTtl strategy ips

/-- The next section of a lookup: the new cache, and where it then stands. -/
def Lookup.advance (r : DNSResolver env) (task : Lookup) (net : Network) (victim : List Char) :
    Option (AssocMap (List Char) CachedDnsEntry × LookupPhase) :=
  match task.phase with
  | .readStrategy => some (r.cache, .readCache r.strategy)
  | .readCache strategy =>
      match r.cache.get (env.lower task.host) with
      | some entry =>
          if task.now < entry.expiresAt then
            -- a hit is returned as it is, also when the strategy leaves nothing of it
            some (r.cache, .finished (.ok (applyStrategy entry.ips task.port strategy)))
          else some (r.cache, .readStrategyAgain strategy)
      | none => some (r.cache, .readStrategyAgain strategy)
  | .readStrategyAgain strategy =>
      match task.runtimeDns with
      | some (_ :: _) => some (r.cache, .askRuntime strategy r.strategy)
      | _ => some (r.cache, .readRules strategy r.strategy)
  | .askRuntime strategy inner =>
      let ips := resolveWithServers net (task.runtimeDns.getD []) task.host inner
      some (r.cache, answered ips strategy (.readRules strategy inner))
  | .readRules strategy inner =>
      match r.rulesTable.bind fun table => table.matchServers task.host with
      | some (server :: servers) => some (r.cache, .askMatched strategy inner (server :: servers))
      | _ => some (r.cache, .readDefault strategy inner)
  | .askMatched strategy inner servers =>
      let ips := resolveWithServers net servers task.host inner
      some (r.cache, answered ips strategy (.readDefault strategy inner))
  | .readDefault strategy inner =>
      match r.defaultDns with
      | [] => some (r.cache, .askSystem strategy)
      | servers => some (r.cache, .askDefault strategy inner servers)
  | .askDefault strategy inner servers =>
      let ips := resolveWithServers net servers task.host inner
      some (r.cache, answered ips strategy (.askSystem strategy))
  | .askSystem strategy =>
      match net.lookupHost (task.host ++ ":80".toList) with
      | some addrs =>
          let ips := addrs.map SocketAddr.ip
          some (r.cache, answered ips strategy (deliver task strategy ips))
      | none => some (r.cache, .finished (.error .lookup))
  | .readTtl strategy ips => some (r.cache, .writeCache strategy ips r.cacheTtl)
  | .writeCache strategy ips ttl =>
      (makeRoom r.cache task.now victim).map fun cache =>
        let expiresAt := task.now + secs ttl
        if expiresAt < instantLimit then
          (cache.insert (env.lower task.host) ⟨ips, expiresAt⟩, deliver task strategy ips)
        else (cache, .finished (.error .panicked))
  | .finished _ | .dropped => none

def SetPhase.next : SetPhase → SetPhase
  | .strategy => .ttl
  | .ttl => .default
  | .default => .rules
  | .rules => .clear
  | .clear => .finished
  | .finished => .finished

/-- The next section of `set_rules_table`. -/
def SetCall.advance (r : DNSResolver env) (task : SetCall env) : Option (DNSResolver env) :=
  match task.phase with
  | .strategy => some (r.writeStrategy task.table)
  | .ttl => some (r.writeTtl task.table)
  | .default => some (r.writeDefault task.table)
  | .rules => some (r.writeRules task.table)
  | .clear => some r.clearCache
  | .finished => none

/-- A host that is an address is answered at once. -/
def Lookup.start (env : Matching) (host : List Char) (port : UInt16)
    (runtimeDns : Option (List (List Char))) (now : Nat) : Lookup :=
  match env.parseIp host with
  | some ip => ⟨host, port, runtimeDns, now, .finished (.ok [SocketAddr.new ip port])⟩
  | none => ⟨host, port, runtimeDns, now, .readStrategy⟩

def System.runTask (s : System env) (tid : Nat) (net : Network) (victim : List Char) :
    Option (System env) :=
  match s.tasks[tid]? with
  | some (.lookup task) =>
      (task.advance s.resolver net victim).map fun (cache, phase) =>
        ⟨{ s.resolver with cache := cache }, s.tasks.set tid (.lookup { task with phase := phase })⟩
  | some (.set task) =>
      (task.advance s.resolver).map fun r =>
        ⟨r, s.tasks.set tid (.set { task with phase := task.phase.next })⟩
  | none => none

/-- A lookup that is dropped at an await is not resumed. -/
def System.cancel (s : System env) (tid : Nat) : Option (System env) :=
  match s.tasks[tid]? with
  | some (.lookup task) =>
      match task.phase with
      | .askRuntime .. | .askMatched .. | .askDefault .. | .askSystem .. =>
          some { s with tasks := s.tasks.set tid (.lookup { task with phase := .dropped }) }
      | _ => none
  | _ => none

def step (s : System env) : Event env → Option (System env)
  | .resolveWithRuntime host port runtimeDns now =>
      some { s with
        tasks := s.tasks ++ [.lookup (Lookup.start env host port runtimeDns now)] }
  | .setRulesTable table => some { s with tasks := s.tasks ++ [.set ⟨table, .strategy⟩] }
  | .run tid net victim => s.runTask tid net victim
  | .cancel tid => s.cancel tid

end Dns

open Override

variable {env : Matching}

/-! ### Sequences of calls -/

/-- What a lookup goes by. -/
structure DnsSettings (env : Matching) where
  strategy : List Char
  cacheTtl : UInt64
  defaultDns : List (List Char)
  rulesTable : Option (DnsRulesTable env)

namespace DNSResolver

def settings (r : DNSResolver env) : DnsSettings env :=
  ⟨r.strategy, r.cacheTtl, r.defaultDns, r.rulesTable⟩

/-- The calls in order. -/
def reload (r : DNSResolver env) (tables : List (Option (DnsRulesTable env))) : DNSResolver env :=
  tables.foldl setRulesTable r

theorem reload_append_singleton (r : DNSResolver env) (tables : List (Option (DnsRulesTable env)))
    (t : Option (DnsRulesTable env)) :
    r.reload (tables ++ [t]) = (r.reload tables).setRulesTable t := by
  simp [reload]

/-- Each of the three settings is one that is replaced in place. -/
theorem settings_reload (r : DNSResolver env) (tables : List (Option (DnsRulesTable env))) :
    (r.reload tables).strategy = updated newStrategy r.strategy tables ∧
      (r.reload tables).cacheTtl = updated newTtl r.cacheTtl tables ∧
      (r.reload tables).defaultDns = updated newDefault r.defaultDns tables := by
  induction tables using List.reverseRecOn with
  | nil => exact ⟨rfl, rfl, rfl⟩
  | append_singleton tables t ih =>
      obtain ⟨hstrategy, httl, hdefault⟩ := ih
      simp only [reload_append_singleton, updated_append_singleton]
      rw [← hstrategy, ← httl, ← hdefault]
      exact ⟨rfl, rfl, rfl⟩

/-- The rules and the cache are those of the last call. -/
theorem rulesTable_reload_append (r : DNSResolver env)
    (tables : List (Option (DnsRulesTable env))) (t : Option (DnsRulesTable env)) :
    (r.reload (tables ++ [t])).rulesTable = t := by
  rw [reload_append_singleton]
  rfl

end DNSResolver

/-! ### History independence -/

open DNSResolver

/-- After the calls for `earlier` and then the one for `last`, the settings are
those of the last call alone; without a table, they are the initial ones. -/
def HistoryIndependent (r : DNSResolver env) (earlier : List (Option (DnsRulesTable env)))
    (last : Option (DnsRulesTable env)) : Prop :=
  (r.reload (earlier ++ [last])).settings = (r.reload [last]).settings ∧
    (last = none → (r.reload (earlier ++ [last])).settings = r.settings)

/-- The last call sets the field, or nothing else than the initial value was
left there. -/
def Settled {α : Type} (field : Option (DnsRulesTable env) → Option α) (initial : α)
    (earlier : List (Option (DnsRulesTable env))) (last : Option (DnsRulesTable env)) : Prop :=
  (field last).isSome ∨ ∀ v, lastSet field earlier = some v → v = initial

theorem settings_ext_iff {r r' : DNSResolver env} :
    r.settings = r'.settings ↔ r.strategy = r'.strategy ∧ r.cacheTtl = r'.cacheTtl ∧
      r.defaultDns = r'.defaultDns ∧ r.rulesTable = r'.rulesTable := by
  simp [settings]

/-- Taking the rules away from a resolver that has none changes no setting. -/
theorem settings_reload_none (strategy : List Char) (minutes : UInt64)
    (servers : Option (List Char)) :
    ((new strategy minutes servers : DNSResolver env).reload [none]).settings =
      (new strategy minutes servers : DNSResolver env).settings := rfl

/-- **When reloading is history independent.** -/
theorem reload_history_independent_iff (strategy : List Char) (minutes : UInt64)
    (servers : Option (List Char)) (earlier : List (Option (DnsRulesTable env)))
    (last : Option (DnsRulesTable env)) :
    HistoryIndependent (new strategy minutes servers) earlier last ↔
      Settled newStrategy strategy earlier last ∧
      Settled newTtl (ttlOfMinutes minutes) earlier last ∧
      Settled newDefault ((servers.map splitServers).getD []) earlier last := by
  set r : DNSResolver env := new strategy minutes servers
  have hmain : HistoryIndependent r earlier last ↔
      (r.reload (earlier ++ [last])).settings = (r.reload [last]).settings := by
    constructor
    · exact And.left
    · intro h
      refine ⟨h, ?_⟩
      rintro rfl
      exact h.trans (settings_reload_none strategy minutes servers)
  obtain ⟨hstrategy, httl, hdefault⟩ := settings_reload r (earlier ++ [last])
  obtain ⟨hstrategy', httl', hdefault'⟩ := settings_reload r [last]
  have hrules : (r.reload (earlier ++ [last])).rulesTable = (r.reload [last]).rulesTable := by
    rw [rulesTable_reload_append]
    exact (rulesTable_reload_append r [] last).symm
  rw [hmain, settings_ext_iff, hstrategy, httl, hdefault, hstrategy', httl', hdefault']
  rw [updated_last_iff, updated_last_iff, updated_last_iff]
  constructor
  · rintro ⟨h₁, h₂, h₃, -⟩
    exact ⟨h₁, h₂, h₃⟩
  · rintro ⟨h₁, h₂, h₃⟩
    exact ⟨h₁, h₂, h₃, hrules⟩

/-- A table that only says `strategy: ipv6_only`. -/
def ipv6OnlyTable (env : Matching) : DnsRulesTable env :=
  { strategy := some "ipv6_only".toList
    cacheTime := none
    cacheTtl := none
    defaultServers := []
    rules := [] }

/-- The rules file says `ipv6_only` and is then removed. -/
theorem settings_survive_removal :
    ¬ HistoryIndependent (new "ipv4_first".toList 10 none : DNSResolver (asciiMatching []))
        [some (ipv6OnlyTable (asciiMatching []))] none := by
  rintro ⟨-, h⟩
  have hstrategy := (settings_ext_iff.mp (h rfl)).1
  revert hstrategy
  decide

/-! ### The watcher of the rules file -/

/-- The rules file as a check finds it. -/
structure RulesFile where
  present : Bool
  mtime : Option Nat
  /-- `none` if it cannot be read. -/
  content : Option (List Char)

structure RuleBasedDNSManager (env : Matching) where
  resolver : DNSResolver env
  lastMtime : Option Nat

namespace RuleBasedDNSManager

variable (yaml : Yaml)

/-- The table of the file; a file that cannot be read or parsed has none. -/
def tableOf (file : RulesFile) : Option (DnsRulesTable env) :=
  file.content.bind fun content => (DnsRulesTable.parseYaml yaml content).toOption

def checkAndReload (mgr : RuleBasedDNSManager env) (file : RulesFile) : RuleBasedDNSManager env :=
  if !file.present then
    if mgr.lastMtime.isSome then ⟨mgr.resolver.setRulesTable none, none⟩ else mgr
  else if mgr.lastMtime = file.mtime then mgr
  else ⟨mgr.resolver.setRulesTable (tableOf yaml file), file.mtime⟩

def new (strategy : List Char) (cacheTimeMinutes : UInt64) (defaultDns : Option (List Char))
    (file : RulesFile) : RuleBasedDNSManager env :=
  checkAndReload yaml ⟨DNSResolver.new strategy cacheTimeMinutes defaultDns, none⟩ file

/-- The checks in order. -/
def watch (mgr : RuleBasedDNSManager env) (files : List RulesFile) : RuleBasedDNSManager env :=
  files.foldl (checkAndReload yaml) mgr

/-- A check is at most one call. -/
theorem checkAndReload_cases (mgr : RuleBasedDNSManager env) (file : RulesFile) :
    (checkAndReload yaml mgr file).resolver = mgr.resolver ∨
      ∃ t, (checkAndReload yaml mgr file).resolver = mgr.resolver.setRulesTable t := by
  rw [checkAndReload]
  split
  · split
    · exact .inr ⟨none, rfl⟩
    · exact .inl rfl
  · split
    · exact .inl rfl
    · exact .inr ⟨tableOf yaml file, rfl⟩

/-- Whatever files the watcher finds, the resolver is what a sequence of calls
makes of it. -/
theorem watch_eq_reload (mgr : RuleBasedDNSManager env) (files : List RulesFile) :
    ∃ tables, (watch yaml mgr files).resolver = mgr.resolver.reload tables := by
  induction files using List.reverseRecOn with
  | nil => exact ⟨[], rfl⟩
  | append_singleton files file ih =>
      obtain ⟨tables, htables⟩ := ih
      have hlast : watch yaml mgr (files ++ [file]) =
          checkAndReload yaml (watch yaml mgr files) file := by
        simp [watch]
      rw [hlast]
      rcases checkAndReload_cases yaml (watch yaml mgr files) file with h | ⟨t, h⟩
      · exact ⟨tables, h.trans htables⟩
      · refine ⟨tables ++ [t], ?_⟩
        rw [h, reload_append_singleton, htables]

/-- The rules that the file asks for; there are none without a file, or if it cannot be read or parsed. -/
def wanted (file : RulesFile) : Option (DnsRulesTable env) :=
  if file.present then tableOf yaml file else none

/-- The times of the file can be read, and a new content has a new time. -/
structure Dated (files : List RulesFile) : Prop where
  readable : ∀ file ∈ files, file.present = true → file.mtime.isSome = true
  content_eq : ∀ file ∈ files, ∀ file' ∈ files, file.present = true → file'.present = true →
    file.mtime = file'.mtime → file.content = file'.content

/-- Nothing is loaded, or one of the files that were found. -/
def Loaded (files : List RulesFile) (mgr : RuleBasedDNSManager env) : Prop :=
  (mgr.lastMtime = none ∧ mgr.resolver.rulesTable = none) ∨
    ∃ file ∈ files, file.present = true ∧ mgr.lastMtime = file.mtime ∧
      mgr.resolver.rulesTable = tableOf yaml file

variable {yaml} {files : List RulesFile} {mgr : RuleBasedDNSManager env} {file : RulesFile}

/-- A check loads the file that it finds, if that is not loaded. -/
theorem Loaded.checkAndReload (h : Loaded yaml files mgr) (hfiles : Dated files) (hfile : file ∈ files) :
    Loaded yaml files (checkAndReload yaml mgr file) ∧
      (RuleBasedDNSManager.checkAndReload yaml mgr file).resolver.rulesTable = wanted yaml file := by
  rw [RuleBasedDNSManager.checkAndReload, wanted]
  cases hpresent : file.present with
  | false =>
      rw [if_pos (by rfl), if_neg Bool.false_ne_true]
      split
      · exact ⟨.inl ⟨rfl, rfl⟩, rfl⟩
      · rename_i hnone
        rcases h with ⟨hmtime, hrules⟩ | ⟨loaded, hmem, hthere, hmtime, -⟩
        · exact ⟨.inl ⟨hmtime, hrules⟩, hrules⟩
        · rw [hmtime] at hnone
          exact absurd (hfiles.readable loaded hmem hthere) hnone
  | true =>
      have hreadable := hfiles.readable file hfile hpresent
      rw [if_neg (by decide), if_pos rfl]
      split
      · rename_i hsame
        rcases h with ⟨hmtime, -⟩ | ⟨loaded, hmem, hthere, hmtime, hrules⟩
        · rw [← hsame, hmtime] at hreadable
          cases hreadable
        · have hcontent := hfiles.content_eq loaded hmem file hfile hthere hpresent (hmtime.symm.trans hsame)
          refine ⟨.inr ⟨loaded, hmem, hthere, hmtime, hrules⟩, ?_⟩
          rw [hrules, tableOf, tableOf, hcontent]
      · exact ⟨.inr ⟨file, hfile, hpresent, rfl, rfl⟩, rfl⟩

theorem Loaded.watch (h : Loaded yaml files mgr) (hfiles : Dated files) {found : List RulesFile}
    (hfound : ∀ file ∈ found, file ∈ files) : Loaded yaml files (watch yaml mgr found) := by
  induction found generalizing mgr with
  | nil => exact h
  | cons file found ih =>
      have hnext := (h.checkAndReload hfiles (hfound file List.mem_cons_self)).1
      exact ih hnext fun file' hmem => hfound file' (List.mem_cons_of_mem _ hmem)

/-- A rule in the short form. -/
def oneRule : List Char := "9.9.9.9:\n  - example.com".toList

end RuleBasedDNSManager

end Elise
