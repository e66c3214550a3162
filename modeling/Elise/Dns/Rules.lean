/-
Elise/Dns/Rules.lean

The DNS rules file and the addresses of name servers (src/dns/rules.rs, and the endpoint parser
of src/dns/client.rs).

A file has one of two forms.  The full form keeps its rules in a list.  The short form goes
through a hash map, which gives its entries back in any order and keeps one entry of those with
the same server, so that which of two entries that match comes first is not what the document
says (`rules_first_match_iff`).

What `serde_yaml` reads from a text is a parameter, `Yaml`; everything that is done with it
afterwards is here.
-/
import Elise.Lib.AssocMap
import Elise.Lib.FirstMatch
import Elise.Security.Audit

namespace Elise

/-! ### Matchers -/

inductive DomainMatcher (env : Matching) where
  | any
  | full (expected : List Char)
  | domain (base : List Char)
  | substring (sub : List Char)
  | regexp (re : env.Regex)
  | geosite (cat : List Char)

namespace DomainMatcher

variable {env : Matching}

/-- A text after `regexp:` that is no expression is looked for as it stands. -/
def parse (raw : List Char) : DomainMatcher env :=
  let raw := Text.trim raw
  if raw = "*".toList then .any
  else if let some rest := Text.stripAny ["full:".toList] raw then .full (env.lower rest)
  else if let some rest := Text.stripAny ["*.".toList] raw then .domain (env.lower rest)
  else if let some rest := Text.stripAny ["domain:".toList] raw then .domain (env.lower rest)
  else if let some re := (Text.stripAny ["regexp:".toList] raw).bind env.regexNew then .regexp re
  else if let some rest := Text.stripAny ["geosite:".toList] raw then .geosite (env.lower rest)
  else .substring (env.lower raw)

def containsAny (d : List Char) (subs : List String) : Bool :=
  subs.any fun sub => Text.contains d sub.toList

/-- The categories that are built in. -/
def matchesCategory (cat d : List Char) : Bool :=
  let cn := ".cn".toList.isSuffixOf d
  if cat = "cn".toList then
    cn || containsAny d ["baidu.", "qq.", "taobao.", "alipay.", "jd.com", "bilibili.", "163.com"]
  else if cat = "google".toList then containsAny d ["google", "youtube", "gstatic"]
  else if cat = "netflix".toList then containsAny d ["netflix", "nflxvideo"]
  else if cat = "openai".toList then containsAny d ["openai", "chatgpt"]
  else if cat = "telegram".toList then containsAny d ["telegram", "t.me"]
  else if cat = "geolocation-!cn".toList then !cn && !containsAny d ["baidu.", "qq.", "taobao."]
  else false

end DomainMatcher

def DomainMatcher.matches {env : Matching} (matcher : DomainMatcher env) (domain : List Char) :
    Bool :=
  let d := env.lower domain
  match matcher with
  | .any => true
  | .full expected => d == expected
  | .domain base => Text.underDomain base d
  | .substring sub => Text.contains d sub
  | .regexp re => env.isMatch re d
  | .geosite cat => DomainMatcher.matchesCategory cat d

/-! ### Tables -/

structure CompiledDnsRule (env : Matching) where
  matchers : List (DomainMatcher env)
  servers : List (List Char)

structure DnsRulesTable (env : Matching) where
  strategy : Option (List Char)
  /-- In minutes. -/
  cacheTime : Option UInt64
  /-- In seconds. -/
  cacheTtl : Option UInt64
  defaultServers : List (List Char)
  rules : List (CompiledDnsRule env)

inductive FullYamlServer where
  | address (address : List Char)
  | named (tag address : List Char)

structure FullYamlRuleItem where
  domains : List (List Char)
  servers : List (List Char)
  server : Option (List Char)

structure FullYamlConfig where
  strategy : Option (List Char)
  cacheTime : Option UInt64
  cacheTtl : Option UInt64
  servers : List FullYamlServer
  rules : List FullYamlRuleItem

/-- The two forms of a rules file.  The entries of the short form stand in the
order in which the hash map gives them back. -/
structure Yaml where
  full : List Char → Option FullYamlConfig
  shorthand : List Char → Option (List (List Char × List (List Char)))

namespace DnsRulesTable

variable {env : Matching}

def default : DnsRulesTable env := ⟨none, none, none, [], []⟩

/-- The tagged servers and the others. -/
def collectServers : List FullYamlServer →
    AssocMap (List Char) (List Char) × List (List Char) →
    Except (List Char) (AssocMap (List Char) (List Char) × List (List Char))
  | [], acc => .ok acc
  | .address address :: rest, (named, plain) => collectServers rest (named, plain ++ [address])
  | .named tag address :: rest, (named, plain) =>
      if (Text.trim tag).isEmpty || (Text.trim address).isEmpty then
        .error "DNS server tag and address must not be empty".toList
      else if named.contains tag then .error ("Duplicate DNS server tag: ".toList ++ tag)
      else collectServers rest (named.insert tag address, plain)

def compileRule (named : AssocMap (List Char) (List Char)) (r : FullYamlRuleItem) :
    Except (List Char) (CompiledDnsRule env) :=
  let matchers := r.domains.map DomainMatcher.parse
  match r.server with
  | none => .ok ⟨matchers, r.servers⟩
  | some tag =>
      match named.get tag with
      | some address => .ok ⟨matchers, r.servers ++ [address]⟩
      | none => .error ("Unknown DNS server tag: ".toList ++ tag)

def ofFull (full : FullYamlConfig) : Except (List Char) (DnsRulesTable env) := do
  let (named, defaultServers) ← collectServers full.servers (∅, [])
  let rules ← full.rules.mapM (compileRule named)
  return ⟨full.strategy, full.cacheTime, full.cacheTtl, defaultServers, rules⟩

/-- A full form with nothing in it is read as the short form. -/
def saysNothing (full : FullYamlConfig) : Bool :=
  full.strategy.isNone && full.cacheTime.isNone && full.cacheTtl.isNone && full.servers.isEmpty
    && full.rules.isEmpty

def ofShorthand (entries : List (List Char × List (List Char))) : DnsRulesTable env :=
  ⟨none, none, none, [],
    entries.map fun (server, domains) => ⟨domains.map DomainMatcher.parse, [server]⟩⟩

def parseYaml (yaml : Yaml) (content : List Char) : Except (List Char) (DnsRulesTable env) :=
  let content := Text.trim content
  if content.isEmpty then .ok default
  else
    match (yaml.full content).filter fun full => !saysNothing full with
    | some full => ofFull full
    | none =>
        match yaml.shorthand content with
        | some entries => .ok (ofShorthand entries)
        | none =>
            .error ("Failed to parse DNS rules YAML: format did not match full or " ++
              "shorthand schema").toList

/-- The servers of the first rule with a matcher for the domain. -/
def matchServers (table : DnsRulesTable env) (domain : List Char) : Option (List (List Char)) :=
  (table.rules.find? fun rule => rule.matchers.any fun matcher => matcher.matches domain).map (·.servers)

end DnsRulesTable

/-! ### Name servers -/

inductive DnsEndpoint where
  | udp (host : List Char) (port : UInt16)
  | tcp (host : List Char) (port : UInt16)
  | dot (host : List Char) (port : UInt16)
  | doh (url : List Char)

/-- A host in brackets, and its port if one follows. -/
def parseBracketed (input : List Char) (defaultPort : UInt16) :
    Option (Option (List Char × UInt16)) :=
  match input with
  | '[' :: inner =>
      (Text.splitOnce ']' inner).map fun (host, rest) =>
        match rest with
        | ':' :: port => (parseU16 port).map fun port => (host, port)
        | _ => some (host, defaultPort)
  | _ => none

def parseHostPort (input : List Char) (defaultPort : UInt16) : Option (List Char × UInt16) :=
  let input := Text.trim input
  if input.isEmpty then none
  else
    match parseBracketed input defaultPort with
    | some result => result
    | none =>
        if input.count ':' = 1 then
          (Text.splitOnce ':' input).bind fun (host, port) =>
            (parseU16 port).map fun port => (host, port)
        else some (input, defaultPort)

def parseDnsEndpoint (raw : List Char) : Option DnsEndpoint :=
  let raw := Text.trim raw
  if raw.isEmpty then none
  else if "https://".toList.isPrefixOf raw then some (.doh raw)
  else if let some rest :=
      Text.stripAny ["tcp-tls://".toList, "tls://".toList, "dot://".toList] raw then
    (parseHostPort rest 853).map fun (host, port) => .dot host port
  else if let some rest := Text.stripAny ["tcp://".toList] raw then
    (parseHostPort rest 53).map fun (host, port) => .tcp host port
  else
    (parseHostPort ((Text.stripAny ["udp://".toList] raw).getD raw) 53).map fun (host, port) =>
      .udp host port

namespace DnsRulesTable

/-! ### Documents -/

/-- The entries of the short form: a server and the patterns of its domains. -/
abbrev Shorthand := List (List Char × List (List Char))

/-- What `serde_yaml` reads from a text, in the order of the document. -/
structure Document where
  full : List Char → Option FullYamlConfig
  shorthand : List Char → Option Shorthand

/-- The hash maps of a run: in which order each gives back the entries that were put into it. -/
structure HashOrder where
  order : Shorthand → Shorthand
  perm : ∀ entries, (order entries).Perm (AssocMap.ofPairs entries).pairs

def Document.read (doc : Document) (hash : HashOrder) : Yaml where
  full := doc.full
  shorthand content := (doc.shorthand content).map hash.order

/-- An entry of a document: the patterns and the servers for them. -/
abbrev Entry := List (List Char) × List (List Char)

/-- The address of a server with a tag. -/
def taggedServer (servers : List FullYamlServer) (tag : List Char) : Option (List Char) :=
  servers.findSome? fun server =>
    match server with
    | .address _ => none
    | .named tag' address => if tag' = tag then some address else none

/-- The rules of the full form.  A tag stands for an address. -/
def fullEntries (full : FullYamlConfig) : List Entry :=
  full.rules.map fun r =>
    (r.domains, r.servers ++ (r.server.bind (taggedServer full.servers)).toList)

def shorthandEntries (entries : Shorthand) : List Entry :=
  entries.map fun (server, domains) => (domains, [server])

/-- The short form of a text, where it is read as one. -/
def Document.asShorthand (doc : Document) (content : List Char) : Option Shorthand :=
  let content := Text.trim content
  if content.isEmpty then none
  else
    match (doc.full content).filter fun full => !saysNothing full with
    | some _ => none
    | none => doc.shorthand content

/-- The entries of a text, in the order in which they stand there. -/
def Document.entries (doc : Document) (content : List Char) : List Entry :=
  let content := Text.trim content
  if content.isEmpty then []
  else
    match (doc.full content).filter fun full => !saysNothing full with
    | some full => fullEntries full
    | none => shorthandEntries ((doc.shorthand content).getD [])

variable (env : Matching)

/-- One of the patterns matches. -/
def hasMatch (domain : List Char) (domains : List (List Char)) : Bool :=
  domains.any fun pattern =>
    let matcher : DomainMatcher env := .parse pattern
    matcher.matches domain

/-- The servers of the first entry with a pattern that matches. -/
def firstServers (domain : List Char) (entries : List Entry) : Option (List (List Char)) :=
  (entries.find? fun entry => hasMatch env domain entry.1).map Prod.snd

/-! ### The full form -/

variable {env}

/-- The addresses that the map has are those of the document. -/
theorem collectServers_get {servers : List FullYamlServer}
    {acc acc' : AssocMap (List Char) (List Char) × List (List Char)}
    (h : collectServers servers acc = .ok acc') (tag : List Char) :
    acc'.1.get tag = (acc.1.get tag).or (taggedServer servers tag) := by
  induction servers generalizing acc with
  | nil =>
      obtain rfl := Except.ok.inj h
      exact Option.or_none.symm
  | cons server servers ih =>
      obtain ⟨named, plain⟩ := acc
      cases server with
      | address address =>
          rw [collectServers] at h
          have hrest := ih h
          exact hrest
      | named tag' address =>
          rw [collectServers] at h
          split at h
          · cases h
          · split at h
            · cases h
            · rename_i hfresh
              have hnone : named.get tag' = none := by
                rw [AssocMap.contains, Option.not_isSome_iff_eq_none] at hfresh
                exact hfresh
              rw [ih h, AssocMap.get_insert]
              by_cases heq : tag = tag'
              · subst heq
                rw [if_pos rfl, hnone]
                simp [taggedServer]
              · have hne : ¬ tag' = tag := fun hsame => heq hsame.symm
                rw [if_neg heq]
                simp [taggedServer, hne]

theorem compileRule_eq_ok {named : AssocMap (List Char) (List Char)} {r : FullYamlRuleItem}
    {rule : CompiledDnsRule env} (h : compileRule named r = .ok rule) :
    rule = ⟨r.domains.map .parse, r.servers ++ (r.server.bind named.get).toList⟩ := by
  rw [compileRule] at h
  split at h
  · rename_i hserver
    rw [hserver]
    simpa using (Except.ok.inj h).symm
  · rename_i tag hserver
    split at h
    · rename_i address haddress
      rw [hserver, Option.bind_some, haddress]
      exact (Except.ok.inj h).symm
    · cases h

theorem mapM_compileRule {named : AssocMap (List Char) (List Char)} {items : List FullYamlRuleItem}
    {rules : List (CompiledDnsRule env)} (h : items.mapM (compileRule named) = .ok rules) :
    rules = items.map fun r =>
      ⟨r.domains.map .parse, r.servers ++ (r.server.bind named.get).toList⟩ := by
  induction items generalizing rules with
  | nil => exact (Except.ok.inj h).symm
  | cons r items ih =>
      rw [List.mapM_cons] at h
      rcases hrule : @compileRule env named r with e | rule
      · rw [hrule] at h
        cases h
      · rcases hrules : items.mapM (@compileRule env named) with e | rest
        · rw [hrule, hrules] at h
          cases h
        · rw [hrule, hrules] at h
          obtain rfl := Except.ok.inj h
          rw [List.map_cons, ← compileRule_eq_ok hrule, ← ih hrules]

/-- A table with a rule for every entry answers by the first entry. -/
theorem matchServers_of_entries {table : DnsRulesTable env} (entries : List Entry)
    (h : table.rules = entries.map fun entry => ⟨entry.1.map .parse, entry.2⟩) (domain : List Char) :
    table.matchServers domain = firstServers env domain entries := by
  have hsame : ((fun rule : CompiledDnsRule env => rule.matchers.any fun m => m.matches domain) ∘
      fun entry : Entry => ⟨entry.1.map .parse, entry.2⟩) =
        fun entry => hasMatch env domain entry.1 := by
    funext entry
    show (entry.1.map DomainMatcher.parse).any _ = _
    rw [List.any_map]
    rfl
  rw [matchServers, h, firstServers, List.find?_map, Option.map_map, hsame]
  rfl

/-- **The full form is matched in the order of the document.** -/
theorem matchServers_ofFull {full : FullYamlConfig} {table : DnsRulesTable env}
    (h : ofFull full = .ok table) (domain : List Char) :
    table.matchServers domain = firstServers env domain (fullEntries full) := by
  rw [ofFull] at h
  rcases hservers : collectServers full.servers (∅, []) with e | ⟨named, plain⟩
  · rw [hservers] at h
    cases h
  · rw [hservers] at h
    rcases hrules : full.rules.mapM (@compileRule env named) with e | rules
    · simp only [bind, Except.bind, hrules] at h
      cases h
    · simp only [bind, Except.bind, hrules] at h
      obtain rfl := Except.ok.inj h
      apply matchServers_of_entries
      have hget : named.get = taggedServer full.servers := by
        funext tag
        have hnamed := collectServers_get hservers tag
        rwa [AssocMap.get_empty, Option.none_or] at hnamed
      rw [fullEntries, List.map_map, mapM_compileRule hrules, hget]
      rfl

/-! ### The short form -/

/-- The servers whose entry in the map has a match are the server of the first entry that has one, and
no other. -/
def Unambiguous (env : Matching) (domain : List Char) (entries : Shorthand) : Prop :=
  ∀ server, (∃ domains, (AssocMap.ofPairs entries).get server = some domains ∧
      hasMatch env domain domains = true) ↔
    (entries.find? fun entry => hasMatch env domain entry.2).map Prod.fst = some server

/-- Where no server stands twice: at most one entry has a match. -/
theorem unambiguous_iff_of_nodup {domain : List Char} {entries : Shorthand}
    (hnodup : (entries.map Prod.fst).Nodup) :
    Unambiguous env domain entries ↔ ∀ entry ∈ entries, ∀ entry' ∈ entries,
      hasMatch env domain entry.2 = true → hasMatch env domain entry'.2 = true → entry = entry' := by
  have hget : ∀ server domains, (AssocMap.ofPairs entries).get server = some domains ↔
      (server, domains) ∈ entries := fun server domains =>
    ⟨AssocMap.mem_of_get_ofPairs, AssocMap.get_ofPairs_of_mem hnodup⟩
  constructor
  · intro h entry hmem entry' hmem' hmatch hmatch'
    have hfirst := (h entry.1).mp ⟨entry.2, (hget _ _).mpr hmem, hmatch⟩
    have hfirst' := (h entry'.1).mp ⟨entry'.2, (hget _ _).mpr hmem', hmatch'⟩
    have hkey : entry.1 = entry'.1 := Option.some.inj (hfirst.symm.trans hfirst')
    exact List.inj_on_of_nodup_map hnodup hmem hmem' hkey
  · intro hone server
    constructor
    · rintro ⟨domains, hdomains, hmatch⟩
      have hmem := (hget _ _).mp hdomains
      rcases hfind : entries.find? fun entry => hasMatch env domain entry.2 with - | first
      · rw [List.find?_eq_none] at hfind
        exact absurd hmatch (hfind _ hmem)
      · have hfound := List.find?_some hfind
        rw [hfind, hone first (List.mem_of_find?_eq_some hfind) _ hmem hfound hmatch]
        rfl
    · intro hfirst
      obtain ⟨first, hfind, rfl⟩ := Option.map_eq_some_iff.mp hfirst
      have hfound := List.find?_some hfind
      exact ⟨first.2, (hget _ _).mpr (List.mem_of_find?_eq_some hfind), hfound⟩

theorem firstServers_shorthand (entries : Shorthand) (domain : List Char) :
    firstServers env domain (shorthandEntries entries) =
      ((entries.find? fun entry => hasMatch env domain entry.2).map Prod.fst).map ([·]) := by
  rw [firstServers, shorthandEntries, List.find?_map, Option.map_map, Option.map_map]
  rfl

/-- The short form answers by the first entry in the order of the hash map. -/
theorem matchServers_ofShorthand (order : Shorthand) (domain : List Char) :
    (ofShorthand order : DnsRulesTable env).matchServers domain =
      ((order.find? fun entry => hasMatch env domain entry.2).map Prod.fst).map ([·]) := by
  have hrules : (ofShorthand order : DnsRulesTable env).rules =
      (shorthandEntries order).map fun entry => ⟨entry.1.map .parse, entry.2⟩ := by
    rw [ofShorthand, shorthandEntries, List.map_map]
    rfl
  rw [matchServers_of_entries _ hrules, firstServers_shorthand]

/-- An order of the map's entries that some hash map has. -/
def HashOrder.ofPerm {entries order : Shorthand} (h : order.Perm (AssocMap.ofPairs entries).pairs) :
    HashOrder where
  order es := if es = entries then order else (AssocMap.ofPairs es).pairs
  perm es := by
    split
    · rename_i heq
      rwa [heq]
    · exact List.Perm.refl _

@[simp] theorem HashOrder.ofPerm_order {entries order : Shorthand}
    (h : order.Perm (AssocMap.ofPairs entries).pairs) : (ofPerm h).order entries = order := if_pos rfl

/-- In every order of the hash map the answer is that of the first entry, if the document is
unambiguous for the domain. -/
theorem shorthand_first_iff (entries : Shorthand) (domain : List Char) :
    (∀ hash : HashOrder, (ofShorthand (hash.order entries) : DnsRulesTable env).matchServers domain =
      firstServers env domain (shorthandEntries entries)) ↔ Unambiguous env domain entries := by
  have hinj : Function.Injective (Option.map fun server : List Char => [server]) :=
    Option.map_injective List.singleton_injective
  have horders : (∀ hash : HashOrder,
      (ofShorthand (hash.order entries) : DnsRulesTable env).matchServers domain =
        firstServers env domain (shorthandEntries entries)) ↔
      ∀ order : Shorthand, order.Perm (AssocMap.ofPairs entries).pairs →
        (order.find? fun entry => hasMatch env domain entry.2).map Prod.fst =
          (entries.find? fun entry => hasMatch env domain entry.2).map Prod.fst := by
    constructor
    · intro h order hperm
      have hanswer := h (.ofPerm hperm)
      rw [matchServers_ofShorthand, firstServers_shorthand] at hanswer
      rw [HashOrder.ofPerm_order] at hanswer
      exact hinj hanswer
    · intro h hash
      rw [matchServers_ofShorthand, firstServers_shorthand, h _ (hash.perm entries)]
  rw [horders, FirstMatch.find?_perm_iff, Unambiguous]
  simp only [AssocMap.mem_pairs]

/-! ### Both forms -/

/-- **The rules are matched in the order of the document**, in the full form always, and in the short
form if the document is unambiguous for the domain. -/
theorem rules_first_match_iff (env : Matching) (doc : Document) (content domain : List Char) :
    (∀ (hash : HashOrder) (table : DnsRulesTable env),
      parseYaml (doc.read hash) content = .ok table →
        table.matchServers domain = firstServers env domain (doc.entries content)) ↔
      ∀ entries, doc.asShorthand content = some entries → Unambiguous env domain entries := by
  rw [Document.asShorthand, Document.entries]
  simp only [parseYaml, Document.read]
  split
  · refine iff_of_true ?_ ?_
    · rintro hash table ⟨⟩
      rfl
    · rintro entries ⟨⟩
  · rcases (doc.full (Text.trim content)).filter fun full => !saysNothing full with - | full
    · rcases doc.shorthand (Text.trim content) with - | entries
      · refine iff_of_true ?_ ?_
        · rintro hash table ⟨⟩
        · rintro entries ⟨⟩
      · simp only [Option.map_some, Except.ok.injEq, forall_eq', Option.some.injEq, Option.getD_some]
        exact shorthand_first_iff entries domain
    · refine iff_of_true ?_ ?_
      · intro hash table htable
        exact matchServers_ofFull htable domain
      · rintro entries ⟨⟩

/-- Two servers, the second for every domain. -/
def overlapping : Shorthand :=
  [("223.5.5.5".toList, ["domain:qq.com".toList]), ("8.8.8.8".toList, [['*']])]

/-- Its text is the short form, whatever it is. -/
def overlappingDocument : Document := ⟨fun _ => none, fun _ => some overlapping⟩

/-- The hash map may have the second entry in front, and then the answer is not that of the document. -/
theorem overlap_misordered :
    ∃ (hash : HashOrder) (table : DnsRulesTable (asciiMatching [])),
      parseYaml (overlappingDocument.read hash) ['-'] = .ok table ∧
        table.matchServers "mail.qq.com".toList = some ["8.8.8.8".toList] ∧
        firstServers (asciiMatching []) "mail.qq.com".toList (overlappingDocument.entries ['-']) =
          some ["223.5.5.5".toList] := by
  have hperm : overlapping.reverse.Perm (AssocMap.ofPairs overlapping).pairs := by decide +kernel
  refine ⟨.ofPerm hperm, ofShorthand ((HashOrder.ofPerm hperm).order overlapping), rfl, ?_, ?_⟩
  · rw [HashOrder.ofPerm_order]
    decide +kernel
  · decide +kernel

end DnsRulesTable

end Elise
