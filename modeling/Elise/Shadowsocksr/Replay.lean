/-
Elise/Shadowsocksr/Replay.lean

The handshake of ShadowsocksR (`SsrSettings::authenticate` in src/protocol/shadowsocksr/mod.rs),
and which handshakes are accepted twice.

A client sends an initialisation vector and an encrypted packet.  The server searches for the
password under which the beginning of the packet is genuine, finds the user that it names, and
checks the packet with the key of the user.  A packet names a time and a connection; it is
refused if its time is more than a day off, and the replay cache remembers connections for two
days.

Time is counted in nanoseconds, on one clock.  The time is read when a call begins, in whole
seconds, and the call comes to the cache up to fifteen seconds later.

The cache holds what was accepted recently, and nothing else (`Remembers`).  A packet is timely
for two days and a second, and the cache forgets a connection in the second after two days, so
that a packet whose time was read early enough can come to the cache when it is forgotten.
-/
import Elise.Lib.AssocMap
import Elise.Lib.Run
import Elise.Shadowsocks.Keys
import Elise.Shadowsocksr.Stream

namespace Elise

namespace Shadowsocksr

open Net

/-- The hash of the settings, and what is shared with Shadowsocks. -/
structure SsrPrimitives extends SsrCrypto where
  keys : Shadowsocks.Crypto
  hash : List UInt8 → List UInt8
  /-- The standard encoding, with padding. -/
  base64Encode : List UInt8 → List UInt8

structure SsrSettings where
  salt : List Char
  keyLen : Nat
  password : Option (List Char)

/-- User, client and connection. -/
abbrev Identity := UInt32 × UInt32 × UInt32

inductive AuthError where
  | unexpectedEof
  | streamAuthenticationFailed
  | unknownUser
  | invalidLength
  | authenticationFailed
  | expired
  | replay
  deriving DecidableEq, Repr

/-- A handshake that was found genuine and timely. -/
structure Handshake where
  user : PanelUser
  key : List UInt8
  userKey : List UInt8
  cipher : SsrCfb
  identity : Identity
  timestamp : UInt32
  initial : List UInt8

section

variable (p : SsrPrimitives)

/-- The secret of a user. -/
def secret (user : PanelUser) : List UInt8 := Text.toUtf8 (user.password.getD user.uuid)

/-- The beginning of the packet, if it is genuine under a password. -/
def matchPassword (settings : SsrSettings) (iv encrypted password : List UInt8) :
    Option (SsrCfb × List UInt8 × List UInt8) :=
  let key := Shadowsocks.evpBytesToKey p.keys password settings.keyLen
  let (header, cipher) := (SsrCfb.new key iv).apply p.toSsrCrypto encrypted true
  let macKey := iv ++ key
  if verify p.toSsrCrypto macKey (header.take 1) ((header.drop 1).take 6) &&
      verify p.toSsrCrypto macKey ((header.drop 7).take 20) ((header.drop 27).take 4) then
    some (cipher, key, header)
  else none

/-- The passwords that are tried. -/
def passwords (settings : SsrSettings) (users : List PanelUser) : List (List UInt8) :=
  match settings.password with
  | some password => [Text.toUtf8 password]
  | none => users.map secret

/-- The block of a packet that only the key of the user opens. -/
def openBlock (settings : SsrSettings) (userKey header : List UInt8) : List UInt8 :=
  let password := p.base64Encode userKey ++ Text.toUtf8 settings.salt
  let authKey := Shadowsocks.evpBytesToKey p.keys password 16
  p.keys.aesDecrypt authKey ((header.drop 11).take 16)

/-- `authenticate` up to the replay section. -/
def readHandshake (settings : SsrSettings) (users : List PanelUser) (stream : List UInt8)
    (now : Nat) : Except AuthError Handshake := do
  if stream.length < 16 + 31 then throw .unexpectedEof
  let iv := stream.take 16
  let encrypted := (stream.drop 16).take 31
  let (cipher, key, header) ←
    match (passwords settings users).findSome? (matchPassword p settings iv encrypted) with
    | none => throw .streamAuthenticationFailed
    | some found => pure found
  let uid := u32LeAt header 7
  let user ←
    match users.find? fun u => u.id = uid with
    | none => throw .unknownUser
    | some user => pure user
  let userKey := p.hash (secret user)
  let block := openBlock p settings userKey header
  let length := (u16LeAt block 12).toNat
  let padding := (u16LeAt block 14).toNat
  if length < 35 ∨ 8192 ≤ length ∨ length - 35 < padding then throw .invalidLength
  let rest := stream.drop (16 + 31)
  if rest.length < length - 31 then throw .unexpectedEof
  let (bytes, cipher) := cipher.apply p.toSsrCrypto (rest.take (length - 31)) true
  let packet := header ++ bytes
  if !verify p.toSsrCrypto userKey (packet.take (length - 4)) (packet.drop (length - 4)) then
    throw .authenticationFailed
  let timestamp := u32LeAt block 0
  -- `now.abs_diff(timestamp)`
  if 86400 < now - timestamp.toNat ∨ 86400 < timestamp.toNat - now then throw .expired
  pure
    { user := user
      key := key
      userKey := userKey
      cipher := cipher
      identity := (uid, u32LeAt block 4, u32LeAt block 8)
      timestamp := timestamp
      initial := (packet.take (length - 4)).drop (31 + padding) }

end

/-! ### The replay section -/

/-- Nanoseconds in a second. -/
def second : Nat := 1000000000

/-- `seen.elapsed().as_secs() <= 172800`, at a time. -/
def Recent (at' seen : Nat) : Prop := (at' - seen) / second ≤ 172800

instance (at' seen : Nat) : Decidable (Recent at' seen) := inferInstanceAs (Decidable (_ ≤ _))

/-- Identities, with when they were seen. -/
abbrev ReplayCache := AssocMap Identity Nat

/-- `cache.retain`. -/
def purge (cache : ReplayCache) (at' : Nat) : ReplayCache :=
  cache.retain fun _ seen => decide (Recent at' seen)

/-- The replay section, with the cache that it leaves. -/
def replaySection (cache : ReplayCache) (identity : Identity) (at' : Nat) :
    Except AuthError Unit × ReplayCache :=
  let cache := purge cache at'
  if cache.contains identity ∨ 65536 ≤ cache.len then (.error .replay, cache)
  else (.ok (), cache.insert identity at')

/-! ### Runs -/

/-- A call: what it reads, the seconds when it began, when it comes to the replay
section or fails before, and whether the answer is written. -/
structure Call where
  users : List PanelUser
  stream : List UInt8
  now : Nat
  time : Nat
  written : Bool

structure Replays where
  cache : ReplayCache
  time : Nat
  /-- What was put into the cache, and when. -/
  accepted : List (Identity × Nat)
  /-- The handshakes that have succeeded. -/
  succeeded : List (Identity × UInt32)

namespace Replays

def new : Replays := ⟨∅, 0, [], []⟩

/-- The clock goes on, and the call is not older than fifteen seconds. -/
def InTime (s : Replays) (e : Call) : Prop :=
  s.time ≤ e.time ∧ e.now * second ≤ e.time ∧ e.time < (e.now + 16) * second

instance (s : Replays) (e : Call) : Decidable (s.InTime e) := inferInstanceAs (Decidable (_ ∧ _))

/-- A handshake comes to the replay section. -/
def replaySection (s : Replays) (h : Handshake) (e : Call) : Replays :=
  match Shadowsocksr.replaySection s.cache h.identity e.time with
  | (.error _, cache) => { s with cache := cache, time := e.time }
  | (.ok _, cache) =>
      { cache := cache
        time := e.time
        accepted := s.accepted ++ [(h.identity, e.time)]
        succeeded := if e.written then s.succeeded ++ [(h.identity, h.timestamp)] else s.succeeded }

/-- **One call.** -/
def step (p : SsrPrimitives) (settings : SsrSettings) (s : Replays) (e : Call) : Option Replays :=
  if s.InTime e then
    match readHandshake p settings e.users e.stream e.now with
    | .error _ => some { s with time := e.time }
    | .ok h => some (s.replaySection h e)
  else none

variable {p : SsrPrimitives} {settings : SsrSettings} {s s' : Replays} {e : Call}

/-! ### The laws -/

/-- A call that is refused forgets only what is not recent, and remembers nothing
new. -/
def Forgets (s s' : Replays) (e : Call) : Prop :=
  (∀ id seen, s'.cache.get id = some seen → s.cache.get id = some seen) ∧
    ∀ id seen, s.cache.get id = some seen → s'.cache.get id = none →
      seen + 172800 * second < e.time

/-- No handshake succeeds twice, the cache is bounded, and calls that are refused
forget only what is not recent. -/
def Obeys (p : SsrPrimitives) (settings : SsrSettings) (s : Replays) (calls : List Call)
    (s' : Replays) : Prop :=
  s'.succeeded.Nodup ∧ s'.cache.len ≤ 65536 ∧
    Run.Along (step p settings)
      (fun s e => ∀ s', step p settings s e = some s' → s'.accepted = s.accepted → Forgets s s' e)
      s calls

/-- A handshake that has succeeded, if it is timely again, comes to the replay
section when its connection was accepted recently, or the cache is full. -/
def Remembered (p : SsrPrimitives) (settings : SsrSettings) (s : Replays) (e : Call) : Prop :=
  ∀ h, readHandshake p settings e.users e.stream e.now = .ok h → e.written = true →
    (h.identity, h.timestamp) ∈ s.succeeded →
      (∃ seen, (h.identity, seen) ∈ s.accepted ∧ Recent e.time seen) ∨
        65536 ≤ (purge s.cache e.time).len

/-- A handshake comes to the replay section while its time is less than a day ago. -/
def Prompt (p : SsrPrimitives) (settings : SsrSettings) (e : Call) : Prop :=
  ∀ h, readHandshake p settings e.users e.stream e.now = .ok h →
    e.time / second ≤ h.timestamp.toNat + 86400

/-! ### The cache -/

/-- The cache holds what was accepted recently, and the times fit. -/
structure Remembers (s : Replays) : Prop where
  cached : ∀ id seen, s.cache.get id = some seen → (id, seen) ∈ s.accepted
  recent : ∀ id seen, (id, seen) ∈ s.accepted → Recent s.time seen → s.cache.get id = some seen
  le : ∀ id seen, (id, seen) ∈ s.accepted → seen ≤ s.time
  bounded : s.cache.len ≤ 65536
  timely : ∀ id timestamp, (id, timestamp) ∈ s.succeeded →
    ∃ seen, (id, seen) ∈ s.accepted ∧ timestamp.toNat ≤ seen / second + 86400

/-- What is recent was recent before. -/
theorem recent_of_le {t t' seen : Nat} (h : Recent t' seen) (hle : t ≤ t') : Recent t seen := by
  rw [Recent] at h ⊢
  exact (Nat.div_le_div_right (Nat.sub_le_sub_right hle seen)).trans h

theorem get_purge {cache : ReplayCache} {t seen : Nat} {id : Identity} :
    (purge cache t).get id = some seen ↔ cache.get id = some seen ∧ Recent t seen := by
  rw [purge, AssocMap.get_retain, Option.filter_eq_some_iff]
  simp

/-- What was purged is not recent. -/
theorem lt_of_purged {cache : ReplayCache} {t seen : Nat} {id : Identity}
    (h : cache.get id = some seen) (hgone : (purge cache t).get id = none) :
    seen + 172800 * second < t := by
  have hnot : ¬ Recent t seen := by
    intro hrecent
    rw [get_purge.mpr ⟨h, hrecent⟩] at hgone
    cases hgone
  rw [Recent, Nat.not_le, second] at hnot
  rw [second]
  omega

theorem len_purge_le (cache : ReplayCache) (t : Nat) : (purge cache t).len ≤ cache.len := by
  rw [AssocMap.len, AssocMap.len, purge]
  exact List.length_filter_le _ _

/-- Where everything recent is remembered, the purged cache is what is recent. -/
theorem Remembers.get_purge (h : Remembers s) {t : Nat} (ht : s.time ≤ t) {id : Identity}
    {seen : Nat} :
    (purge s.cache t).get id = some seen ↔ (id, seen) ∈ s.accepted ∧ Recent t seen := by
  rw [Replays.get_purge]
  constructor
  · rintro ⟨hget, hrecent⟩
    exact ⟨h.cached id seen hget, hrecent⟩
  · rintro ⟨hmem, hrecent⟩
    exact ⟨h.recent id seen hmem (recent_of_le hrecent ht), hrecent⟩

/-- The replay section refuses what is recent, or everything if the cache is full. -/
theorem replaySection_cases (s : Replays) (h : Handshake) (e : Call) :
    (((purge s.cache e.time).contains h.identity = true ∨ 65536 ≤ (purge s.cache e.time).len) ∧
      s.replaySection h e = { s with cache := purge s.cache e.time, time := e.time }) ∨
    ((purge s.cache e.time).contains h.identity = false ∧ (purge s.cache e.time).len < 65536 ∧
      s.replaySection h e =
        { cache := (purge s.cache e.time).insert h.identity e.time
          time := e.time
          accepted := s.accepted ++ [(h.identity, e.time)]
          succeeded :=
            if e.written then s.succeeded ++ [(h.identity, h.timestamp)] else s.succeeded }) := by
  rw [Replays.replaySection, Shadowsocksr.replaySection]
  by_cases hrefused : (purge s.cache e.time).contains h.identity = true ∨
      65536 ≤ (purge s.cache e.time).len
  · left
    simp only [if_pos hrefused]
    exact ⟨hrefused, trivial⟩
  · right
    simp only [if_neg hrefused]
    obtain ⟨hnew, hroom⟩ := not_or.mp hrefused
    exact ⟨by simpa using hnew, by omega, trivial⟩

/-- **What a call does.** -/
theorem step_cases (hstep : step p settings s e = some s') :
    s.InTime e ∧ ((s' = { s with time := e.time }) ∨
      ∃ h, readHandshake p settings e.users e.stream e.now = .ok h ∧ s' = s.replaySection h e) := by
  rw [step] at hstep
  split at hstep
  · rename_i hintime
    refine ⟨hintime, ?_⟩
    split at hstep
    · exact .inl (Option.some.inj hstep).symm
    · rename_i h hread
      exact .inr ⟨h, hread, (Option.some.inj hstep).symm⟩
  · cases hstep

/-- A handshake that is read is timely. -/
theorem timely_of_readHandshake {users : List PanelUser} {stream : List UInt8} {now : Nat}
    {h : Handshake} (hread : readHandshake p settings users stream now = .ok h) :
    h.timestamp.toNat ≤ now + 86400 ∧ now ≤ h.timestamp.toNat + 86400 := by
  unfold readHandshake at hread
  simp only [bind, Except.bind, pure, Except.pure, throw, throwThe, MonadExceptOf.throw] at hread
  split at hread
  · cases hread
  split at hread
  · cases hread
  split at hread
  · cases hread
  split_ifs at hread with hlength hshort hmac hexpired
  -- only a packet that is not expired comes here
  obtain rfl := Except.ok.inj hread
  obtain ⟨hpast, hfuture⟩ := not_or.mp hexpired
  dsimp only
  omega

theorem remembers_new : Remembers new :=
  ⟨nofun, nofun, nofun, Nat.zero_le _, nofun⟩

/-- The clock goes on. -/
theorem Remembers.tick (h : Remembers s) {cache : ReplayCache} {t : Nat} (ht : s.time ≤ t)
    (hcached : ∀ id seen, cache.get id = some seen → s.cache.get id = some seen)
    (hrecent : ∀ id seen, s.cache.get id = some seen → Recent t seen → cache.get id = some seen)
    (hlen : cache.len ≤ s.cache.len) : Remembers { s with cache := cache, time := t } where
  cached id seen hget := h.cached id seen (hcached id seen hget)
  recent id seen hmem hrec := hrecent id seen (h.recent id seen hmem (recent_of_le hrec ht)) hrec
  le id seen hmem := (h.le id seen hmem).trans ht
  bounded := hlen.trans h.bounded
  timely := h.timely

theorem Remembers.purged (h : Remembers s) {t : Nat} (ht : s.time ≤ t) :
    Remembers { s with cache := purge s.cache t, time := t } :=
  h.tick ht (fun _ _ hget => (Replays.get_purge.mp hget).1)
    (fun _ _ hget hrecent => Replays.get_purge.mpr ⟨hget, hrecent⟩) (len_purge_le _ _)

/-- A connection that is not in the cache is put into it. -/
theorem Remembers.accept (h : Remembers s) {t : Nat} (ht : s.time ≤ t) {id : Identity}
    (hnew : (purge s.cache t).contains id = false) (hroom : (purge s.cache t).len < 65536)
    {succeeded : List (Identity × UInt32)}
    (htimely : ∀ id' timestamp, (id', timestamp) ∈ succeeded → (id', timestamp) ∈ s.succeeded ∨
      id' = id ∧ timestamp.toNat ≤ t / second + 86400) :
    Remembers ⟨(purge s.cache t).insert id t, t, s.accepted ++ [(id, t)], succeeded⟩ := by
  have hold := h.purged ht
  refine ⟨?_, ?_, ?_, ?_, ?_⟩
  · intro id' seen hget
    rcases AssocMap.get_insert_eq_some hget with ⟨rfl, rfl⟩ | ⟨-, hget⟩
    · exact List.mem_append_right _ List.mem_cons_self
    · exact List.mem_append_left _ (hold.cached id' seen hget)
  · intro id' seen hmem hrecent
    show ((purge s.cache t).insert id t).get id' = some seen
    rcases List.mem_append.mp hmem with hmem | hmem
    · have hget : (purge s.cache t).get id' = some seen := hold.recent id' seen hmem hrecent
      rw [AssocMap.get_insert_ne _ t ?_]
      · exact hget
      · rintro rfl
        rw [AssocMap.contains, hget] at hnew
        cases hnew
    · obtain ⟨rfl, rfl⟩ := Prod.mk.inj (List.mem_singleton.mp hmem)
      exact AssocMap.get_insert_self _ _ _
  · intro id' seen hmem
    rcases List.mem_append.mp hmem with hmem | hmem
    · exact hold.le id' seen hmem
    · obtain ⟨-, rfl⟩ := Prod.mk.inj (List.mem_singleton.mp hmem)
      exact Nat.le_refl _
  · show ((purge s.cache t).insert id t).len ≤ 65536
    rw [AssocMap.len_insert]
    split <;> omega
  · intro id' timestamp hmem
    rcases htimely id' timestamp hmem with hbefore | ⟨rfl, hle⟩
    · obtain ⟨seen, hseen, hle⟩ := h.timely id' timestamp hbefore
      exact ⟨seen, List.mem_append_left _ hseen, hle⟩
    · exact ⟨t, List.mem_append_right _ List.mem_cons_self, hle⟩

/-- **Every call keeps the cache.** -/
theorem Remembers.step (h : Remembers s) (hstep : step p settings s e = some s') :
    Remembers s' := by
  obtain ⟨⟨htime, hnow, -⟩, rfl | ⟨handshake, hread, rfl⟩⟩ := step_cases hstep
  · exact h.tick htime (fun _ _ hget => hget) (fun _ _ hget _ => hget) (Nat.le_refl _)
  · rcases replaySection_cases s handshake e with ⟨-, heq⟩ | ⟨hnew, hroom, heq⟩
    · rw [heq]
      exact h.purged htime
    · rw [heq]
      apply h.accept htime hnew hroom
      have hseconds : e.now ≤ e.time / second := (Nat.le_div_iff_mul_le (by decide)).mpr hnow
      have htimely := (timely_of_readHandshake hread).1
      intro id timestamp hmem
      split at hmem
      · rcases List.mem_append.mp hmem with hmem | hmem
        · exact .inl hmem
        · obtain ⟨rfl, rfl⟩ := Prod.mk.inj (List.mem_singleton.mp hmem)
          exact .inr ⟨rfl, by omega⟩
      · exact .inl hmem

/-- A call that is refused forgets only what is not recent. -/
theorem forgets_of_step (hstep : step p settings s e = some s') (hsame : s'.accepted = s.accepted) :
    Forgets s s' e := by
  obtain ⟨-, rfl | ⟨handshake, -, rfl⟩⟩ := step_cases hstep
  · refine ⟨fun _ _ hget => hget, ?_⟩
    intro id seen hget hnone
    cases hget.symm.trans hnone
  · rcases replaySection_cases s handshake e with ⟨-, heq⟩ | ⟨-, -, heq⟩
    · rw [heq]
      exact ⟨fun id seen hget => (Replays.get_purge.mp hget).1, fun id seen => lt_of_purged⟩
    · rw [heq] at hsame
      exact absurd hsame (by simp)

/-! ### What succeeds twice -/

/-- Where the connection is remembered, a handshake does not succeed again. -/
theorem nodup_step (h : Remembers s) (hnodup : s.succeeded.Nodup)
    (hremembered : Remembered p settings s e) (hstep : step p settings s e = some s') :
    s'.succeeded.Nodup := by
  obtain ⟨⟨htime, -⟩, rfl | ⟨handshake, hread, rfl⟩⟩ := step_cases hstep
  · exact hnodup
  · rcases replaySection_cases s handshake e with ⟨-, heq⟩ | ⟨hnew, hroom, heq⟩
    · rw [heq]
      exact hnodup
    · rw [heq]
      show (if e.written then _ else _ : List (Identity × UInt32)).Nodup
      split
      · rename_i hwritten
        refine List.nodup_append.mpr ⟨hnodup, List.nodup_singleton _, ?_⟩
        rintro pair hpair other hother rfl
        obtain rfl := List.mem_singleton.mp hother
        rcases hremembered handshake hread hwritten hpair with ⟨seen, hseen, hrecent⟩ | hfull
        · have hget := (h.get_purge htime).mpr ⟨hseen, hrecent⟩
          rw [AssocMap.contains, hget] at hnew
          cases hnew
        · omega
      · exact hnodup

/-- Where it is not, the handshake does. -/
theorem repeats_of_not_remembered (h : Remembers s) (hnot : ¬ Remembered p settings s e)
    (hstep : step p settings s e = some s') : ¬ s'.succeeded.Nodup := by
  rw [Remembered] at hnot
  push Not at hnot
  obtain ⟨handshake, hread, hwritten, hpair, hold, hroom⟩ := hnot
  obtain ⟨⟨htime, -⟩, -⟩ := step_cases hstep
  have hs' : s' = s.replaySection handshake e := by
    rw [step, if_pos (step_cases hstep).1, hread] at hstep
    exact (Option.some.inj hstep).symm
  have hnew : (purge s.cache e.time).contains handshake.identity = false := by
    rw [AssocMap.contains]
    cases hget : (purge s.cache e.time).get handshake.identity with
    | none => rfl
    | some seen =>
        obtain ⟨hseen, hrecent⟩ := (h.get_purge htime).mp hget
        exact absurd hrecent (hold seen hseen)
  rcases replaySection_cases s handshake e with ⟨hrefused, -⟩ | ⟨-, -, heq⟩
  · rcases hrefused with hcontains | hfull
    · rw [hnew] at hcontains
      cases hcontains
    · omega
  · rw [hs', heq]
    show ¬ (if e.written then _ else _ : List (Identity × UInt32)).Nodup
    rw [if_pos hwritten]
    intro hnodup
    exact (List.nodup_append.mp hnodup).2.2 _ hpair _ (List.mem_singleton_self _) rfl

/-- What has succeeded stays. -/
theorem succeeded_begins {calls : List Call} (hrun : Run.exec (step p settings) s calls = some s') :
    s.succeeded <+: s'.succeeded := by
  induction calls generalizing s with
  | nil =>
      obtain rfl := Option.some.inj hrun
      exact List.prefix_refl _
  | cons e calls ih =>
      obtain ⟨t, hstep, hrest⟩ := Run.exec_cons_eq_some.mp hrun
      refine List.IsPrefix.trans ?_ (ih hrest)
      obtain ⟨-, rfl | ⟨handshake, -, rfl⟩⟩ := step_cases hstep
      · exact List.prefix_refl _
      · rcases replaySection_cases s handshake e with ⟨-, heq⟩ | ⟨-, -, heq⟩
        · rw [heq]
        · rw [heq]
          show s.succeeded <+: if e.written then _ else _
          split
          · exact List.prefix_append _ _
          · exact List.prefix_refl _

/-- Along a run, nothing succeeds twice exactly if everything that did is
remembered. -/
theorem nodup_iff_along {calls : List Call} (h : Remembers s) (hnodup : s.succeeded.Nodup)
    (hrun : Run.exec (step p settings) s calls = some s') :
    s'.succeeded.Nodup ↔ Run.Along (step p settings) (Remembered p settings) s calls := by
  induction calls generalizing s with
  | nil =>
      obtain rfl := Option.some.inj hrun
      exact ⟨fun _ => trivial, fun _ => hnodup⟩
  | cons e calls ih =>
      obtain ⟨t, hstep, hrest⟩ := Run.exec_cons_eq_some.mp hrun
      constructor
      · intro hall
        have hnow : t.succeeded.Nodup := hall.sublist (succeeded_begins hrest).sublist
        have hremembered : Remembered p settings s e := by
          by_contra hnot
          exact repeats_of_not_remembered h hnot hstep hnow
        exact Run.along_cons hremembered hstep ((ih (h.step hstep) hnow hrest).mp hall)
      · rintro ⟨hremembered, halong⟩
        have hnow := nodup_step h hnodup hremembered hstep
        exact (ih (h.step hstep) hnow hrest).mpr (halong t hstep)

/-- A prompt call finds what it repeats in the cache. -/
theorem remembered_of_prompt (h : Remembers s) (hprompt : Prompt p settings e) :
    Remembered p settings s e := by
  intro handshake hread _ hpair
  obtain ⟨seen, hseen, hle⟩ := h.timely _ _ hpair
  refine .inl ⟨seen, hseen, ?_⟩
  have hlate := hprompt handshake hread
  rw [second] at hle hlate
  rw [Recent, second]
  omega

/-- **Which runs obey.**  In every run, no handshake succeeds twice, the cache is
bounded and calls that are refused forget only what is not recent, if and only if
every handshake that has succeeded comes to the replay section again while its
connection is remembered; and so it is if every call comes to it while its packet is
timely. -/
theorem no_replay_iff (p : SsrPrimitives) (settings : SsrSettings) (calls : List Call) (s : Replays)
    (hrun : Run.exec (step p settings) new calls = some s) :
    (Obeys p settings new calls s ↔ Run.Along (step p settings) (Remembered p settings) new calls) ∧
      ((∀ e ∈ calls, Prompt p settings e) → Obeys p settings new calls s) := by
  have hbounded : s.cache.len ≤ 65536 :=
    (Run.exec_preserves (fun h hstep => Remembers.step h hstep) hrun remembers_new).bounded
  have hforgets : Run.Along (step p settings)
      (fun s e => ∀ s', step p settings s e = some s' → s'.accepted = s.accepted → Forgets s s' e)
      new calls :=
    Run.along_of_forall (fun _ _ _ hstep hsame => forgets_of_step hstep hsame) new calls
  have hiff := nodup_iff_along remembers_new List.nodup_nil hrun
  have hobeys : Obeys p settings new calls s ↔
      Run.Along (step p settings) (Remembered p settings) new calls := by
    rw [← hiff]
    exact ⟨fun h => h.1, fun h => ⟨h, hbounded, hforgets⟩⟩
  refine ⟨hobeys, ?_⟩
  intro hprompt
  apply hobeys.mpr
  clear hobeys hiff hforgets hbounded hrun
  have hnew : Remembers new := remembers_new
  generalize new = t at hnew ⊢
  induction calls generalizing t with
  | nil => trivial
  | cons e calls ih =>
      refine ⟨remembered_of_prompt hnew (hprompt e List.mem_cons_self), ?_⟩
      intro t' hstep
      exact ih (fun other hmem => hprompt other (List.mem_cons_of_mem _ hmem)) t'
        (hnew.step hstep)

/-! ### A packet of the tests -/

/-- The values of MD5, AES-128 and HMAC-MD5 that the packet needs; elsewhere zeros. -/
def sampleTable (table : List (List UInt8 × List UInt8)) (data : List UInt8) : List UInt8 :=
  (table.lookup data).getD (List.replicate 16 0)

/-- The key of `server-secret`. -/
def serverKey : List UInt8 :=
  [232, 225, 23, 98, 135, 206, 193, 149, 152, 9, 8, 19, 173, 1, 175, 171]

/-- The hash of `user-secret`, and its base64 text. -/
def userHash : List UInt8 :=
  [215, 141, 147, 246, 146, 53, 152, 5, 34, 3, 27, 148, 139, 123, 229, 131]

def userHashText : List UInt8 := Text.toUtf8 "142T9pI1mAUiAxuUi3vlgw==".toList

def packetKeys : Shadowsocks.Crypto where
  md5 := sampleTable
    [(Text.toUtf8 "server-secret".toList, serverKey),
     (userHashText ++ Text.toUtf8 "auth_aes128_md5".toList,
      [180, 171, 2, 15, 87, 15, 29, 17, 142, 109, 99, 225, 152, 16, 228, 131])]
  blake3 _ := []
  hkdfSha1 _ _ _ := []
  deriveIdentity _ := []
  aesDecrypt _ := sampleTable
    [([119, 197, 196, 188, 247, 162, 83, 11, 107, 203, 46, 127, 54, 158, 13, 75],
      [0, 241, 83, 101, 123, 0, 0, 0, 1, 0, 0, 0, 63, 0, 0, 0])]
  aeadOpen _ _ _ _ := none
  tcpOpen _ _ _ _ _ := none
  udpOpen _ _ _ _ _ := none
  isUuid _ := false
  base64 _ := none
  base64Url _ := none
  readAddress _ := none
  parseIp _ := none

def packetPrimitives : SsrPrimitives where
  encryptBlock _ := sampleTable
    [([0, 1, 2, 3, 4, 5, 6, 7, 8, 9, 10, 11, 12, 13, 14, 15],
      [154, 81, 114, 51, 35, 87, 90, 74, 86, 217, 210, 51, 189, 82, 7, 51]),
     ([154, 167, 138, 176, 147, 163, 168, 96, 86, 217, 210, 68, 120, 150, 187, 196],
      [108, 54, 241, 149, 201, 92, 0, 69, 223, 122, 75, 213, 1, 119, 91, 149]),
     ([206, 101, 250, 254, 2, 114, 127, 115, 65, 119, 0, 47, 125, 175, 16, 148],
      [215, 196, 176, 1, 231, 210, 126, 0, 7, 190, 79, 124, 69, 235, 205, 159]),
     ([168, 196, 176, 0, 231, 130, 11, 112, 116, 202, 61, 25, 36, 134, 224, 254],
      [213, 217, 36, 36, 228, 52, 145, 254, 184, 31, 1, 132, 1, 223, 144, 43])]
  mac _ := sampleTable
    [([0], [246, 248, 131, 176, 244, 242, 7, 12, 168, 121, 114, 102, 123, 62, 253, 7]),
     ([42, 0, 0, 0, 119, 197, 196, 188, 247, 162, 83, 11, 107, 203, 46, 127, 54, 158, 13, 75],
      [250, 124, 216, 75, 101, 168, 113, 173, 226, 209, 218, 64, 58, 38, 183, 9]),
     ([0, 246, 248, 131, 176, 244, 242, 42, 0, 0, 0, 119, 197, 196, 188, 247, 162, 83, 11, 107,
       203, 46, 127, 54, 158, 13, 75, 250, 124, 216, 75, 1, 127, 0, 0, 1, 0, 80, 117, 112, 115,
       116, 114, 101, 97, 109, 45, 97, 117, 116, 104, 45, 102, 105, 120, 116, 117, 114, 101],
      [150, 105, 81, 108, 252, 239, 13, 52, 85, 46, 44, 203, 251, 29, 230, 168])]
  keys := packetKeys
  hash := sampleTable [(Text.toUtf8 "user-secret".toList, userHash)]
  base64Encode _ := userHashText

def packetSettings : SsrSettings := ⟨"auth_aes128_md5".toList, 16, some "server-secret".toList⟩

def packetUser : PanelUser :=
  { PanelUser.default with id := 42, password := some "user-secret".toList }

/-- The packet of the user 42, client 123 and connection 1, made at second 1700000000. -/
def packet : List UInt8 :=
  [0, 1, 2, 3, 4, 5, 6, 7, 8, 9, 10, 11, 12, 13, 14, 15, 154, 167, 138, 176, 147, 163, 168, 96, 86,
    217, 210, 68, 120, 150, 187, 196, 206, 101, 250, 254, 2, 114, 127, 115, 65, 119, 0, 47, 125, 175,
    16, 148, 168, 196, 176, 0, 231, 130, 11, 112, 116, 202, 61, 25, 36, 134, 224, 254, 160, 173, 76,
    9, 130, 93, 233, 138, 205, 109, 100, 18, 104, 142, 252]

/-- The packet comes, and is `late` nanoseconds later at the replay section. -/
def packetAt (now late : Nat) : Call := ⟨[packetUser], packet, now, now * second + late, true⟩

/-- A day before its time, and a day after it without delay. -/
def promptCalls : List Call := [packetAt 1699913600 0, packetAt 1700086400 0]

theorem prompt_replay_refused :
    ∃ s, Run.exec (step packetPrimitives packetSettings) new promptCalls = some s ∧
      Obeys packetPrimitives packetSettings new promptCalls s := by
  have hsome : (Run.exec (step packetPrimitives packetSettings) new promptCalls).isSome = true := by
    decide +kernel
  obtain ⟨s, hrun⟩ := Option.isSome_iff_exists.mp hsome
  refine ⟨s, hrun, (no_replay_iff packetPrimitives packetSettings promptCalls s hrun).2 ?_⟩
  have hprompt : ∀ e ∈ promptCalls,
      (readHandshake packetPrimitives packetSettings e.users e.stream e.now).toOption.all
        (fun h => decide (e.time / second ≤ h.timestamp.toNat + 86400)) = true := by
    decide +kernel
  intro e hmem h hread
  have hcall := hprompt e hmem
  rw [hread] at hcall
  exact of_decide_eq_true hcall

/-- A day before its time, and a day after it: but it comes to the cache a second
after its time was read. -/
theorem late_replay_succeeds :
    (Run.exec (step packetPrimitives packetSettings) new
      [packetAt 1699913600 0, packetAt 1700086400 second]).map succeeded =
      some [((42, 123, 1), 1700000000), ((42, 123, 1), 1700000000)] := by
  decide +kernel

end Replays

end Shadowsocksr

end Elise
