/-
Elise/Shadowsocks/Replay.lean

No datagram is accepted twice, over whole runs of the UDP loop.

Three limits have to fit: a datagram is refused once its time is more than 30
seconds off, a window refuses the packets that it has marked and those that are
far behind, and the sweep forgets a window that was not used for a minute.  A
window marks what it accepts for as long as it lasts (`Marks`), so a datagram
can only come back after its window was dropped, a minute or more after it was
accepted.  By then its time is out of tolerance if it was less than 30 seconds
ahead when it was accepted; `no_replay` is that, for every run.

A datagram that is exactly 30 seconds ahead is valid for the whole of the
sixtieth second after, and the sweep may have dropped its window in that
second: `replay_after_sweep`.
-/
import Elise.Lib.Run
import Elise.Shadowsocks.Udp
import Elise.Shadowsocks.Users

namespace Elise

namespace Shadowsocks

open Net

/-! ### What a window remembers -/

namespace ReplayWindow

/-- The packet is refused from now on. -/
structure Marks (window : ReplayWindow) (packet : UInt64) : Prop where
  initialized : window.initialized = true
  le_highest : packet.toNat ≤ window.highest.toNat
  marked : window.highest.toNat - packet.toNat < 1024 →
    Bitmap.bit window.bitmap (window.highest.toNat - packet.toNat) = true

/-- The bitmap has its sixteen words. -/
def Sized (window : ReplayWindow) : Prop := window.bitmap.length = 16

theorem sized_new (response now : Nat) : (new response now).Sized := by
  simp [Sized, new]

variable {window : ReplayWindow} {packet p : UInt64} {now : Nat}

/-- **What `accept` does**: the first packet, one ahead of all others, one that
is refused, or one between them. -/
theorem accept_cases (window : ReplayWindow) (packet : UInt64) (now : Nat) :
    (window.initialized = false ∧ window.accept packet now =
      ({ window with
        seen := now
        initialized := true
        highest := packet
        bitmap := window.bitmap.set 0 1#64 }, true)) ∨
    (window.initialized = true ∧ window.highest.toNat < packet.toNat ∧
      window.accept packet now =
        ({ window with
          seen := now
          highest := packet
          bitmap := Bitmap.insert
            (if 1024 ≤ packet.toNat - window.highest.toNat then List.replicate 16 0#64
              else Bitmap.shiftUp window.bitmap (packet.toNat - window.highest.toNat)) 0 }, true)) ∨
    (window.initialized = true ∧ packet.toNat ≤ window.highest.toNat ∧
      window.accept packet now = ({ window with seen := now }, false)) ∨
    (window.initialized = true ∧ packet.toNat ≤ window.highest.toNat ∧
      window.highest.toNat - packet.toNat < 1024 ∧
      Bitmap.bit window.bitmap (window.highest.toNat - packet.toNat) = false ∧
      window.accept packet now =
        ({ window with
          seen := now
          bitmap := Bitmap.insert window.bitmap (window.highest.toNat - packet.toNat) }, true)) := by
  rw [accept]
  rcases hnew : window.initialized with - | -
  · exact .inl ⟨rfl, rfl⟩
  · right
    simp only [Bool.not_true, Bool.false_eq_true, if_false, true_and]
    rcases Nat.lt_or_ge window.highest.toNat packet.toNat with hlt | hge
    · left
      have hdiff : (packet - window.highest).toNat = packet.toNat - window.highest.toNat :=
        UInt64.toNat_sub_of_le _ _ (UInt64.le_iff_toNat_le.mpr hlt.le)
      refine ⟨hlt, ?_⟩
      rw [if_pos (UInt64.lt_iff_toNat_lt.mpr hlt), hdiff]
    · right
      have hdiff : (window.highest - packet).toNat = window.highest.toNat - packet.toNat :=
        UInt64.toNat_sub_of_le _ _ (UInt64.le_iff_toNat_le.mpr hge)
      have hbehind : ¬ window.highest < packet := by
        rw [UInt64.lt_iff_toNat_lt]
        omega
      rw [if_neg hbehind, hdiff, Bitmap.test_eq_bit]
      by_cases hfar : 1024 ≤ window.highest.toNat - packet.toNat
      · exact .inl ⟨hge, if_pos hfar⟩
      · rw [if_neg hfar]
        rcases hbit : Bitmap.bit window.bitmap (window.highest.toNat - packet.toNat) with - | -
        · exact .inr ⟨hge, Nat.lt_of_not_le hfar, rfl, rfl⟩
        · exact .inl ⟨hge, rfl⟩

theorem seen_accept (window : ReplayWindow) (packet : UInt64) (now : Nat) :
    (window.accept packet now).1.seen = now := by
  rcases accept_cases window packet now with ⟨-, heq⟩ | ⟨-, -, heq⟩ | ⟨-, -, heq⟩ |
    ⟨-, -, -, -, heq⟩ <;> rw [heq]

theorem sized_accept (h : window.Sized) : (window.accept packet now).1.Sized := by
  rw [Sized] at h ⊢
  rcases accept_cases window packet now with ⟨-, heq⟩ | ⟨-, -, heq⟩ | ⟨-, -, heq⟩ |
    ⟨-, -, -, -, heq⟩
  · simp [heq, h]
  · rw [heq]
    simp only [Bitmap.length_insert]
    split <;> simp [h]
  · simp [heq, h]
  · simp [heq, h]

/-- The bitmap after a packet ahead of all others. -/
theorem bit_ahead (h : window.Sized) {diff d : Nat} (hd : d < 1024) :
    Bitmap.bit (Bitmap.insert
        (if 1024 ≤ diff then List.replicate 16 0#64 else Bitmap.shiftUp window.bitmap diff) 0) d =
      (decide (d = 0) || (decide (diff ≤ d) && Bitmap.bit window.bitmap (d - diff))) := by
  rw [Sized] at h
  split
  · rename_i hfar
    have hle : ¬ diff ≤ d := by omega
    have hzero : Bitmap.bit (List.replicate 16 0#64) d = false := by
      rw [Bitmap.bit, Bitmap.word, List.getElem?_replicate]
      split <;> simp
    rw [Bitmap.bit_insert (by simp), hzero, decide_eq_false hle, Bool.false_and]
  · rw [Bitmap.bit_insert (by rw [Bitmap.length_shiftUp, h]; decide),
      Bitmap.bit_shiftUp (by rw [h]; omega)]

/-- The bitmap after a packet behind the highest one. -/
theorem bit_behind (h : window.Sized) {diff : Nat} (hdiff : diff < 1024) (d : Nat) :
    Bitmap.bit (Bitmap.insert window.bitmap diff) d =
      (decide (d = diff) || Bitmap.bit window.bitmap d) := by
  rw [Sized] at h
  exact Bitmap.bit_insert (by omega) d

/-- A packet that is accepted is marked. -/
theorem marks_of_accept (h : window.Sized) (hok : (window.accept packet now).2 = true) :
    (window.accept packet now).1.Marks packet := by
  rcases accept_cases window packet now with ⟨-, heq⟩ | ⟨hinit, -, heq⟩ | ⟨-, -, heq⟩ |
    ⟨hinit, hle, hnear, -, heq⟩
  · rw [heq]
    refine ⟨rfl, Nat.le_refl _, ?_⟩
    intro _
    rw [Sized] at h
    have hword := Bitmap.word_set 1#64 (show 0 < window.bitmap.length by omega) 0
    simp [Bitmap.bit, hword]
  · rw [heq]
    refine ⟨hinit, Nat.le_refl _, ?_⟩
    intro _
    simp only [Nat.sub_self]
    rw [bit_ahead h (by decide)]
    rfl
  · rw [heq] at hok
    cases hok
  · rw [heq]
    refine ⟨hinit, hle, ?_⟩
    intro _
    simp only
    rw [bit_behind h hnear, decide_eq_true rfl, Bool.true_or]

/-- What is marked stays so. -/
theorem Marks.accept (hp : window.Marks p) (h : window.Sized) :
    (window.accept packet now).1.Marks p := by
  rcases accept_cases window packet now with ⟨hnew, -⟩ | ⟨-, hlt, heq⟩ | ⟨-, -, heq⟩ |
    ⟨-, -, hnear, -, heq⟩
  · rw [hp.initialized] at hnew
    cases hnew
  · rw [heq]
    have hle := hp.le_highest
    refine ⟨hp.initialized, hle.trans hlt.le, ?_⟩
    intro hnear
    simp only at hnear ⊢
    have hmarked := hp.marked (by omega)
    -- the old place of the mark, moved up with everything else
    have hplace : packet.toNat - p.toNat - (packet.toNat - window.highest.toNat) =
        window.highest.toNat - p.toNat := by
      omega
    have hup : packet.toNat - window.highest.toNat ≤ packet.toNat - p.toNat := by omega
    rw [bit_ahead h hnear, hplace, hmarked, decide_eq_true hup, Bool.true_and, Bool.or_true]
  · rw [heq]
    exact ⟨hp.initialized, hp.le_highest, hp.marked⟩
  · rw [heq]
    refine ⟨hp.initialized, hp.le_highest, ?_⟩
    intro hp'
    simp only at hp' ⊢
    rw [bit_behind h hnear, hp.marked hp', Bool.or_true]

/-- What is marked is refused. -/
theorem Marks.refused (hp : window.Marks packet) : (window.accept packet now).2 = false := by
  rcases accept_cases window packet now with ⟨hnew, -⟩ | ⟨-, hlt, -⟩ | ⟨-, -, heq⟩ |
    ⟨-, -, hnear, hfree, -⟩
  · rw [hp.initialized] at hnew
    cases hnew
  · exact absurd hp.le_highest (Nat.not_le_of_lt hlt)
  · rw [heq]
  · rw [hp.marked hnear] at hfree
    cases hfree

end ReplayWindow

/-! ### Opening a packet -/

variable (c : Crypto)

/-- **Unforgeability**: a packet opens under one key at most. -/
def Unforgeable (cfg : UdpConfig) : Prop :=
  ∀ packet cred cred' opened opened', cred ∈ cfg.index.credentials →
    cred' ∈ cfg.index.credentials → openFor c cfg.kind packet cred = some opened →
      openFor c cfg.kind packet cred' = some opened' → cred.key = cred'.key

theorem selectCredential_mem {index : UserIndex} {cachedUser : Option UInt32} {cred : Credential}
    (h : selectCredential index cachedUser = some cred) : cred ∈ index.credentials := by
  rcases Option.or_eq_some_iff.mp h with hcached | ⟨-, hfirst⟩
  · obtain ⟨uid, -, hfind⟩ := Option.bind_eq_some_iff.mp hcached
    exact List.mem_of_find?_eq_some hfind
  · exact List.mem_of_mem_head? hfirst

/-- Served users have different keys. -/
theorem eq_of_served_key {method : Method} {users : List PanelUser} {cred cred' : Credential}
    (h : cred ∈ served c method users) (h' : cred' ∈ served c method users)
    (hkey : cred.key = cred'.key) : cred = cred' := by
  obtain ⟨hmem, hone⟩ := List.mem_filter.mp h
  obtain ⟨hmem', -⟩ := List.mem_filter.mp h'
  rw [decide_eq_true_eq, List.countP_eq_length_filter] at hone
  obtain ⟨only, honly⟩ := List.length_eq_one_iff.mp hone
  have hin : ∀ other ∈ users.filterMap (credential? c method), other.key = cred.key →
      other = only := by
    intro other hother hsame
    have : other ∈ (users.filterMap (credential? c method)).filter fun other =>
        decide (other.key = cred.key) := List.mem_filter.mpr ⟨hother, by simpa using hsame⟩
    rw [honly] at this
    exact List.mem_singleton.mp this
  rw [hin cred hmem rfl, hin cred' hmem' hkey.symm]

/-- The user last seen at the address makes no difference to what a packet
says. -/
theorem openPacket_unique {cfg : UdpConfig} {users : List PanelUser}
    (hindex : cfg.index = UserIndex.new c (served c (.aead2022 cfg.kind) users))
    (hauth : Unforgeable c cfg) {packet : List UInt8} {cached cached' : Option UInt32}
    {opened opened' : Opened}
    (h : openPacket c cfg.kind cfg.serverKey cfg.index cached packet = some opened)
    (h' : openPacket c cfg.kind cfg.serverKey cfg.index cached' packet = some opened') :
    opened = opened' := by
  have hchosen : ∀ {o o' : Opened},
      (selectCredential cfg.index cached).bind (openFor c cfg.kind packet) = some o →
      (selectCredential cfg.index cached').bind (openFor c cfg.kind packet) = some o' →
        o = o' := by
    intro o o' ho ho'
    obtain ⟨cred, hcred, ho⟩ := Option.bind_eq_some_iff.mp ho
    obtain ⟨cred', hcred', ho'⟩ := Option.bind_eq_some_iff.mp ho'
    have hmem := selectCredential_mem hcred
    have hmem' := selectCredential_mem hcred'
    have hkey := hauth packet cred cred' o o' hmem hmem' ho ho'
    rw [hindex] at hmem hmem'
    obtain rfl := eq_of_served_key c hmem hmem' hkey
    exact Option.some.inj (ho.symm.trans ho')
  rcases hkey : cfg.serverKey with - | headerKey
  · simp only [openPacket, hkey] at h h'
    exact hchosen h h'
  · simp only [openPacket, hkey] at h h'
    by_cases hkind : cfg.kind = .chacha20Poly1305
    · rw [if_pos hkind] at h h'
      exact hchosen h h'
    · rw [if_neg hkind] at h h'
      exact Option.some.inj (h.symm.trans h')

/-- A datagram that is read is within the tolerance. -/
theorem readBody_eq_some {now : Nat} {opened : Opened} {d : Datagram}
    (h : readBody c now opened = some d) :
    absDiff now opened.timestamp.toNat ≤ maxTimestampSkewSecs ∧
      d.credential = opened.credential ∧ d.sessionId = opened.sessionId ∧
      d.packetId = opened.packetId := by
  rw [readBody] at h
  simp only at h
  split at h
  · cases h
  · split at h
    · cases h
    · rename_i hnear
      split at h
      · cases h
      · obtain ⟨address, -, rfl⟩ := Option.map_eq_some_iff.mp h
        exact ⟨Nat.le_of_not_lt hnear, rfl, rfl, rfl⟩

/-! ### Accepted datagrams -/

/-- A datagram that was accepted, and when. -/
structure Accepted where
  payload : List UInt8
  opened : Opened
  time : Nat

namespace UdpServer

variable (cfg : UdpConfig)

def keyOf (opened : Opened) : ReplayKey := replayKey c opened.credential opened.sessionId

/-- What arrives is accepted: it opens, it is within the tolerance, and its
window lets it through. -/
def accepted? (s : UdpServer) (now : Nat) (received : Received) : Option Accepted :=
  if received.banned then none
  else
    let payload := payloadOf cfg received.bytes
    (openPacket c cfg.kind cfg.serverKey cfg.index received.cachedUser payload).bind fun opened =>
      (readBody c (cfg.wallSecs now) opened).bind fun d =>
        if (s.check c d now).2.isSome then some ⟨payload, opened, now⟩ else none

/-- The datagrams accepted so far. -/
def log (s : UdpServer) (before : List Accepted) : UdpEvent → List Accepted
  | .recv now received => before ++ (s.accepted? c cfg now received).toList
  | _ => before

end UdpServer

/-- The loop with the accepted datagrams beside it. -/
abbrev logged (cfg : UdpConfig) :
    UdpServer × List Accepted → UdpEvent → Option (UdpServer × List Accepted) :=
  Run.track (UdpServer.step c cfg) (UdpServer.log c cfg)

/-- **No replay**: no datagram was accepted twice. -/
def NoReplay (accepted : List Accepted) : Prop := (accepted.map (·.payload)).Nodup

/-- The datagram is not as far ahead as the tolerance allows. -/
def NotAhead (cfg : UdpConfig) : UdpEvent → Prop
  | .recv now received =>
      ∀ opened ∈ openPacket c cfg.kind cfg.serverKey cfg.index received.cachedUser
        (UdpServer.payloadOf cfg received.bytes),
        opened.timestamp.toNat ≠ cfg.wallSecs now + maxTimestampSkewSecs
  | _ => True

instance (cfg : UdpConfig) : (e : UdpEvent) → Decidable (NotAhead c cfg e)
  | .recv now received =>
      inferInstanceAs (Decidable (∀ opened ∈ openPacket c cfg.kind cfg.serverKey cfg.index
        received.cachedUser (UdpServer.payloadOf cfg received.bytes),
        opened.timestamp.toNat ≠ cfg.wallSecs now + maxTimestampSkewSecs))
  | .sweep _ => isTrue trivial
  | .sessionEnd _ => isTrue trivial

/-! ### The invariant -/

/-- A minute, in nanoseconds. -/
def minute : Nat := 60 * 1000000000

structure Guarded (cfg : UdpConfig) (s : UdpServer × List Accepted) : Prop where
  sized : ∀ key window, s.1.replay.get key = some window → window.Sized
  past : ∀ a ∈ s.2, a.time ≤ s.1.clock
  early : ∀ a ∈ s.2, a.opened.timestamp.toNat < cfg.wallSecs a.time + maxTimestampSkewSecs
  origin : ∀ a ∈ s.2, ∃ cached,
    openPacket c cfg.kind cfg.serverKey cfg.index cached a.payload = some a.opened
  /-- Its window still refuses it, or a minute has passed. -/
  guarded : ∀ a ∈ s.2,
    (∃ window, s.1.replay.get (UdpServer.keyOf c a.opened) = some window ∧
      a.time ≤ window.seen ∧ window.Marks a.opened.packetId) ∨
    a.time + minute ≤ s.1.clock
  noReplay : NoReplay s.2

theorem guarded_new (cfg : UdpConfig) : Guarded c cfg (UdpServer.new, []) where
  sized _ _ h := by cases h
  past _ h := by cases h
  early _ h := by cases h
  origin _ h := by cases h
  guarded _ h := by cases h
  noReplay := List.nodup_nil

/-- A minute after it was accepted, a datagram is out of tolerance. -/
theorem out_of_tolerance {cfg : UdpConfig} {t now ts : Nat}
    (hearly : ts < cfg.wallSecs t + maxTimestampSkewSecs) (hminute : t + minute ≤ now) :
    maxTimestampSkewSecs < absDiff (cfg.wallSecs now) ts := by
  simp only [UdpConfig.wallSecs, maxTimestampSkewSecs, minute, absDiff] at *
  omega

/-- Time passes, and windows change only so that they refuse as before or a
minute is over. -/
theorem Guarded.advance {cfg : UdpConfig} {s : UdpServer × List Accepted} {s' : UdpServer}
    (h : Guarded c cfg s) (hclock : s.1.clock ≤ s'.clock)
    (hsized : ∀ key window, s'.replay.get key = some window → window.Sized)
    (hkeep : ∀ key window t p, s.1.replay.get key = some window → t ≤ window.seen →
      window.Marks p → t ≤ s.1.clock →
        (∃ window', s'.replay.get key = some window' ∧ t ≤ window'.seen ∧ window'.Marks p) ∨
        t + minute ≤ s'.clock) :
    Guarded c cfg (s', s.2) where
  sized := hsized
  past a ha := (h.past a ha).trans hclock
  early := h.early
  origin := h.origin
  guarded a ha := by
    rcases h.guarded a ha with ⟨window, hget, hseen, hmarks⟩ | hminute
    · exact hkeep _ window _ _ hget hseen hmarks (h.past a ha)
    · exact .inr (hminute.trans hclock)
  noReplay := h.noReplay

/-! ### A datagram arrives -/

section Receive

variable {c} {cfg : UdpConfig} {s : UdpServer} {d : Datagram} {now : Nat}

open UdpServer

theorem forward_replay (s : UdpServer) (d : Datagram) (blocked : Bool) (response : Nat) :
    (s.forward c d blocked response).replay = s.replay := by
  simp only [forward, apply_ite UdpServer.replay, ite_self]

/-- What a datagram does to the windows. -/
theorem receive_replay (s : UdpServer) (now : Nat) (received : Received) :
    (s.receive c cfg now received).replay =
      match decrypted c cfg received now with
      | none => s.replay
      | some d => (s.check c d now).1.replay := by
  rw [receive]
  rcases decrypted c cfg received now with - | d
  · rfl
  · simp only
    split
    · rename_i s' response heq
      rw [forward_replay, heq]
    · rename_i s' heq
      rw [heq]

/-- The window of a datagram is used, and no other. -/
theorem check_get (s : UdpServer) (d : Datagram) (now : Nat) (key : ReplayKey) :
    (s.check c d now).1.replay.get key =
      match s.window? c d now with
      | none => s.replay.get key
      | some window =>
          if key = replayKey c d.credential d.sessionId then
            some (window.accept d.packetId now).1
          else s.replay.get key := by
  rw [check]
  rcases s.window? c d now with - | window
  · rfl
  · simp only [AssocMap.get_insert]

theorem window?_sized (hsized : ∀ key window, s.replay.get key = some window → window.Sized)
    {window : ReplayWindow} (h : s.window? c d now = some window) : window.Sized := by
  rw [window?] at h
  split at h
  · rename_i window' hget
    obtain rfl := Option.some.inj h
    exact hsized _ _ hget
  · split at h
    · cases h
    · obtain rfl := Option.some.inj h
      exact ReplayWindow.sized_new _ _

theorem check_sized (hsized : ∀ key window, s.replay.get key = some window → window.Sized)
    (key : ReplayKey) (window : ReplayWindow)
    (h : (s.check c d now).1.replay.get key = some window) : window.Sized := by
  rw [check_get] at h
  split at h
  · exact hsized key window h
  · rename_i used hused
    split at h
    · obtain rfl := Option.some.inj h
      exact ReplayWindow.sized_accept (window?_sized hsized hused)
    · exact hsized key window h

/-- A window that refuses a packet does so after any datagram. -/
theorem check_keeps (hsized : ∀ key window, s.replay.get key = some window → window.Sized)
    {key : ReplayKey} {window : ReplayWindow} {t : Nat} {p : UInt64}
    (hget : s.replay.get key = some window) (hseen : t ≤ window.seen) (hmarks : window.Marks p)
    (ht : t ≤ now) :
    ∃ window', (s.check c d now).1.replay.get key = some window' ∧ t ≤ window'.seen ∧
      window'.Marks p := by
  rw [check_get]
  by_cases hkey : key = replayKey c d.credential d.sessionId
  · have hused : s.window? c d now = some window := by
      rw [window?, ← hkey, hget]
    rw [hused]
    simp only [if_pos hkey]
    refine ⟨_, rfl, ?_, hmarks.accept (hsized key window hget)⟩
    rw [ReplayWindow.seen_accept]
    exact ht
  · refine ⟨window, ?_, hseen, hmarks⟩
    split
    · exact hget
    · rw [if_neg hkey, hget]

/-- A datagram that passes its window was not marked there, and is now. -/
theorem check_accepts (hsized : ∀ key window, s.replay.get key = some window → window.Sized)
    (h : (s.check c d now).2.isSome) :
    (∃ window, (s.check c d now).1.replay.get (replayKey c d.credential d.sessionId) =
        some window ∧ window.seen = now ∧ window.Marks d.packetId) ∧
      ∀ window, s.replay.get (replayKey c d.credential d.sessionId) = some window →
        ¬ window.Marks d.packetId := by
  rcases hused : s.window? c d now with - | used
  · rw [check, hused] at h
    cases h
  · have hok : (used.accept d.packetId now).2 = true := by
      rw [check, hused] at h
      simp only at h
      by_contra hno
      rw [if_neg hno] at h
      cases h
    refine ⟨⟨(used.accept d.packetId now).1, ?_, ReplayWindow.seen_accept _ _ _,
      ReplayWindow.marks_of_accept (window?_sized hsized hused) hok⟩, ?_⟩
    · rw [check_get, hused]
      simp only [if_true]
    · intro window hget hmarks
      have heq : s.window? c d now = some window := by
        rw [window?, hget]
      obtain rfl := Option.some.inj (heq.symm.trans hused)
      rw [hmarks.refused] at hok
      cases hok

/-- What is accepted has been decrypted, and its window has let it through. -/
theorem accepted?_eq_some {received : Received} {a : Accepted}
    (h : s.accepted? c cfg now received = some a) :
    ∃ d, decrypted c cfg received now = some d ∧
      openPacket c cfg.kind cfg.serverKey cfg.index received.cachedUser
        (payloadOf cfg received.bytes) = some a.opened ∧
      readBody c (cfg.wallSecs now) a.opened = some d ∧ (s.check c d now).2.isSome ∧
      a.payload = payloadOf cfg received.bytes ∧ a.time = now := by
  rw [accepted?] at h
  split at h
  · cases h
  · rename_i hbanned
    obtain ⟨opened, hopened, h⟩ := Option.bind_eq_some_iff.mp h
    obtain ⟨d, hd, h⟩ := Option.bind_eq_some_iff.mp h
    split at h
    · rename_i hok
      obtain rfl := Option.some.inj h
      refine ⟨d, ?_, hopened, hd, hok, rfl, rfl⟩
      rw [decrypted, if_neg hbanned, decryptUdp, hopened]
      exact hd
    · cases h

variable {log : List Accepted} {users : List PanelUser}

/-- A datagram that is accepted now was not accepted before. -/
theorem Guarded.not_mem (h : Guarded c cfg (s, log))
    (hindex : cfg.index = UserIndex.new c (served c (.aead2022 cfg.kind) users))
    (hauth : Unforgeable c cfg) (hclock : s.clock ≤ now) {received : Received} {a : Accepted}
    (ha : s.accepted? c cfg now received = some a) : a.payload ∉ log.map (·.payload) := by
  intro hmem
  obtain ⟨b, hb, hpayload⟩ := List.mem_map.mp hmem
  obtain ⟨d, -, hopen, hread, hok, hnow, -⟩ := accepted?_eq_some ha
  obtain ⟨cached, hopenb⟩ := h.origin b hb
  -- it says the same as then
  rw [hpayload, hnow] at hopenb
  have hsame : b.opened = a.opened := openPacket_unique c hindex hauth hopenb hopen
  obtain ⟨htolerance, hcred, hsession, hpacket⟩ := readBody_eq_some c hread
  rcases h.guarded b hb with ⟨window, hget, -, hmarks⟩ | hminute
  · rw [keyOf, hsame, ← hcred, ← hsession] at hget
    rw [hsame, ← hpacket] at hmarks
    exact (check_accepts h.sized hok).2 window hget hmarks
  · have hearly := h.early b hb
    rw [hsame] at hearly
    have hout := out_of_tolerance hearly (hminute.trans hclock)
    omega

/-- A datagram that is accepted is guarded from now on. -/
theorem Guarded.add (h : Guarded c cfg (s, log)) {a : Accepted}
    (hearly : a.opened.timestamp.toNat < cfg.wallSecs a.time + maxTimestampSkewSecs)
    (htime : a.time ≤ s.clock)
    (horigin : ∃ cached,
      openPacket c cfg.kind cfg.serverKey cfg.index cached a.payload = some a.opened)
    (hguarded : ∃ window, s.replay.get (keyOf c a.opened) = some window ∧
      a.time ≤ window.seen ∧ window.Marks a.opened.packetId)
    (hnew : a.payload ∉ log.map (·.payload)) : Guarded c cfg (s, log ++ [a]) := by
  have hall : ∀ {P : Accepted → Prop}, (∀ b ∈ log, P b) → P a → ∀ b ∈ log ++ [a], P b := by
    intro P hlog ha b hb
    rcases List.mem_append.mp hb with hb | hb
    · exact hlog b hb
    · rw [List.mem_singleton.mp hb]
      exact ha
  refine ⟨h.sized, hall h.past htime, hall h.early hearly, hall h.origin horigin,
    hall h.guarded (.inl hguarded), ?_⟩
  rw [NoReplay, List.map_append, List.map_singleton]
  exact List.nodup_append.mpr ⟨h.noReplay, List.nodup_singleton _, fun p hp q hq heq =>
    hnew (by rw [← List.mem_singleton.mp hq, ← heq]; exact hp)⟩

theorem Guarded.recv (h : Guarded c cfg (s, log))
    (hindex : cfg.index = UserIndex.new c (served c (.aead2022 cfg.kind) users))
    (hauth : Unforgeable c cfg) (hclock : s.clock ≤ now) {received : Received}
    (hcond : NotAhead c cfg (.recv now received)) :
    Guarded c cfg ({ s.receive c cfg now received with clock := now },
      log ++ (s.accepted? c cfg now received).toList) := by
  have hmoved : Guarded c cfg ({ s.receive c cfg now received with clock := now }, log) := by
    apply h.advance c hclock
    · intro key window hget
      simp only [receive_replay] at hget
      split at hget
      · exact h.sized key window hget
      · exact check_sized h.sized key window hget
    · intro key window t p hget hseen hmarks ht
      simp only [receive_replay]
      split
      · exact .inl ⟨window, hget, hseen, hmarks⟩
      · exact .inl (check_keeps h.sized hget hseen hmarks (ht.trans hclock))
  rcases ha : s.accepted? c cfg now received with - | a
  · rw [Option.toList_none, List.append_nil]
    exact hmoved
  · rw [Option.toList_some]
    obtain ⟨d, hdecrypted, hopen, hread, hok, hpayload, htime⟩ := accepted?_eq_some ha
    obtain ⟨htolerance, hcred, hsession, hpacket⟩ := readBody_eq_some c hread
    refine hmoved.add ?_ htime.le ⟨received.cachedUser, hpayload ▸ hopen⟩ ?_
      (h.not_mem hindex hauth hclock ha)
    · have hne := hcond a.opened hopen
      rw [htime]
      simp only [absDiff] at htolerance
      omega
    · obtain ⟨⟨window, hget, hseen, hmarks⟩, -⟩ := check_accepts h.sized hok
      refine ⟨window, ?_, by rw [hseen, htime], hpacket ▸ hmarks⟩
      simp only [receive_replay, hdecrypted]
      rw [keyOf, ← hcred, ← hsession]
      exact hget

end Receive

/-! ### A sweep -/

theorem sweepAt_get (cfg : UdpConfig) (s : UdpServer) (now : Nat) (key : ReplayKey) :
    (s.sweepAt cfg now).replay.get key =
      (s.replay.get key).filter fun window =>
        1 < s.strongCount window.response || now - window.seen < 60 * 1000000000 :=
  AssocMap.get_retain s.replay _ key

/-- A window that is dropped has not been used for a minute. -/
theorem sweepAt_drops (cfg : UdpConfig) {s : UdpServer} (now : Nat) {key : ReplayKey}
    {window : ReplayWindow} (hget : s.replay.get key = some window) :
    (s.sweepAt cfg now).replay.get key = some window ∨
      (s.sweepAt cfg now).replay.get key = none ∧ window.seen + minute ≤ now := by
  rw [sweepAt_get, hget, Option.filter_some]
  split
  · exact .inl rfl
  · rename_i hold
    right
    refine ⟨rfl, ?_⟩
    simp only [Bool.or_eq_true, decide_eq_true_eq, not_or, Nat.not_lt] at hold
    rw [minute]
    omega

theorem Guarded.sweep {cfg : UdpConfig} {s : UdpServer × List Accepted} {now : Nat}
    (h : Guarded c cfg s) (hclock : s.1.clock ≤ now) :
    Guarded c cfg ({ s.1.sweepAt cfg now with clock := now }, s.2) := by
  apply h.advance c hclock
  · intro key window hget
    simp only [sweepAt_get] at hget
    exact h.sized key window (Option.filter_eq_some_iff.mp hget).1
  · intro key window t p hget hseen hmarks _
    rcases sweepAt_drops cfg now hget with hkept | ⟨-, hminute⟩
    · exact .inl ⟨window, hkept, hseen, hmarks⟩
    · refine .inr ?_
      show t + minute ≤ now
      omega

/-! ### Every run -/

theorem UdpServer.step_cases {cfg : UdpConfig} {s s' : UdpServer} {e : UdpEvent}
    (h : s.step c cfg e = some s') :
    (∃ now received, e = .recv now received ∧ s.clock ≤ now ∧
      s' = { s.receive c cfg now received with clock := now }) ∨
    (∃ now, e = .sweep now ∧ s.clock ≤ now ∧ s' = { s.sweepAt cfg now with clock := now }) ∨
    (∃ tid, e = .sessionEnd tid ∧ s'.replay = s.replay ∧ s'.clock = s.clock) := by
  cases e with
  | recv now received =>
      obtain ⟨hclock, heq⟩ := Option.ite_none_right_eq_some.mp h
      exact .inl ⟨now, received, rfl, hclock, (Option.some.inj heq).symm⟩
  | sweep now =>
      obtain ⟨hclock, heq⟩ := Option.ite_none_right_eq_some.mp h
      exact .inr (.inl ⟨now, rfl, hclock, (Option.some.inj heq).symm⟩)
  | sessionEnd tid =>
      obtain ⟨task, -, rfl⟩ := Option.map_eq_some_iff.mp h
      exact .inr (.inr ⟨tid, rfl, rfl, rfl⟩)

theorem Guarded.step {cfg : UdpConfig} {users : List PanelUser}
    {s s' : UdpServer × List Accepted} {e : UdpEvent}
    (hindex : cfg.index = UserIndex.new c (served c (.aead2022 cfg.kind) users))
    (hauth : Unforgeable c cfg) (h : Guarded c cfg s) (hcond : NotAhead c cfg e)
    (hstep : logged c cfg s e = some s') : Guarded c cfg s' := by
  obtain ⟨server', log'⟩ := s'
  obtain ⟨hserver, hlog⟩ := Run.track_eq_some.mp hstep
  simp only at hserver hlog
  subst hlog
  rcases UdpServer.step_cases c hserver with ⟨now, received, rfl, hclock, rfl⟩ |
    ⟨now, rfl, hclock, rfl⟩ | ⟨tid, rfl, hreplay, hclock⟩
  · exact Guarded.recv (s := s.1) h hindex hauth hclock hcond
  · exact h.sweep c hclock
  · refine h.advance c hclock.ge ?_ ?_
    · rw [hreplay]
      exact h.sized
    · intro key window t p hget hseen hmarks _
      rw [hreplay]
      exact .inl ⟨window, hget, hseen, hmarks⟩

/-- A sweep drops a window only when everything it accepted is out of
tolerance. -/
def SweepsLate (cfg : UdpConfig) (s : UdpServer × List Accepted) : Prop :=
  ∀ (now : Nat) (s' : UdpServer) (key : ReplayKey) (window : ReplayWindow),
    s.1.step c cfg (.sweep now) = some s' → s.1.replay.get key = some window →
      s'.replay.get key = none → ∀ a ∈ s.2, UdpServer.keyOf c a.opened = key →
        maxTimestampSkewSecs < absDiff (cfg.wallSecs now) a.opened.timestamp.toNat

theorem Guarded.sweepsLate {cfg : UdpConfig} {s : UdpServer × List Accepted}
    (h : Guarded c cfg s) : SweepsLate c cfg s := by
  intro now s' key window hstep hget hgone a ha hkey
  obtain ⟨hclock, heq⟩ := Option.ite_none_right_eq_some.mp hstep
  obtain rfl := Option.some.inj heq
  have hlast : a.time + minute ≤ now := by
    rcases h.guarded a ha with ⟨window', hget', hseen, -⟩ | hminute
    · rw [hkey, hget] at hget'
      obtain rfl := Option.some.inj hget'
      rcases sweepAt_drops cfg now hget with hkept | ⟨-, hminute⟩
      · rw [show (s.1.sweepAt cfg now).replay.get key = none from hgone] at hkept
        cases hkept
      · omega
    · exact hminute.trans hclock
  exact out_of_tolerance (h.early a ha) hlast

/-- **No datagram is accepted twice**, in no run whose datagrams are all less
than 30 seconds ahead. -/
theorem no_replay (cfg : UdpConfig) (users : List PanelUser)
    (hindex : cfg.index = UserIndex.new c (served c (.aead2022 cfg.kind) users))
    (hauth : Unforgeable c cfg) {es : List UdpEvent} {s : UdpServer × List Accepted}
    (hrun : Run.exec (logged c cfg) (UdpServer.new, []) es = some s)
    (hcond : Run.Along (logged c cfg) (fun _ e => NotAhead c cfg e) (UdpServer.new, []) es) :
    NoReplay s.2 ∧ SweepsLate c cfg s := by
  have h : Guarded c cfg s :=
    Run.exec_invariant (fun hs he hstep => Guarded.step c hindex hauth hs he hstep) hrun hcond
      (guarded_new c cfg)
  exact ⟨h.noReplay, h.sweepsLate c⟩

/-! ### Two packets -/

/-- A packet before and after it is sealed. -/
structure Sealed where
  header : List UInt8
  body : List UInt8
  sealedHeader : List UInt8
  sealedBody : List UInt8

def Sealed.packet (p : Sealed) : List UInt8 := p.sealedHeader ++ p.sealedBody

def sampleKey : List UInt8 := [0, 1, 2, 3, 4, 5, 6, 7, 8, 9, 10, 11, 12, 13, 14, 15]

/-- Made at second 1700000031. -/
def aheadPacket : Sealed where
  header := [0, 0, 0, 0, 0, 0, 0, 1, 0, 0, 0, 0, 0, 0, 0, 0]
  body := [0, 0, 0, 0, 0, 101, 83, 241, 31, 0, 0, 1, 192, 0, 2, 10, 0, 53, 104, 105]
  sealedHeader := [19, 24, 154, 106, 228, 171, 7, 174, 112, 163, 170, 189, 48, 190, 153, 222]
  sealedBody :=
    [68, 112, 166, 177, 111, 201, 34, 77, 200, 112, 176, 84, 223, 104, 202, 39, 132, 25,
      20, 94, 147, 5, 8, 234, 81, 101, 177, 97, 21, 2, 156, 89, 81, 170, 208, 119]

/-- Made at second 1700000001. -/
def timelyPacket : Sealed where
  header := [0, 0, 0, 0, 0, 0, 0, 1, 0, 0, 0, 0, 0, 0, 0, 1]
  body := [0, 0, 0, 0, 0, 101, 83, 241, 1, 0, 0, 1, 192, 0, 2, 10, 0, 53, 104, 105]
  sealedHeader := [143, 148, 41, 68, 76, 143, 75, 53, 153, 66, 18, 53, 181, 16, 223, 61]
  sealedBody :=
    [138, 93, 194, 174, 60, 207, 147, 247, 164, 115, 165, 84, 152, 235, 206, 172, 91, 55,
      164, 105, 231, 70, 47, 15, 154, 153, 197, 189, 118, 58, 76, 200, 40, 190, 149, 8]

/-- The ciphers on the two packets under the sample key, with an address that
is four bytes and a port. -/
def twoPackets : Crypto where
  md5 _ := []
  blake3 := digestOf
    [(sampleKey,
      [166, 164, 146, 150, 85, 23, 168, 48, 203, 117, 253, 183, 19, 70, 90, 164,
        101, 242, 240, 152, 35, 56, 150, 254, 164, 76, 29, 152, 38, 139, 249, 227])]
  hkdfSha1 _ _ _ := []
  deriveIdentity _ := []
  aesDecrypt key block :=
    if key = sampleKey then
      (([aheadPacket, timelyPacket].find? fun p => p.sealedHeader = block).map
        (·.header)).getD []
    else []
  aeadOpen _ _ _ _ := none
  tcpOpen _ _ _ _ _ := none
  udpOpen kind key session nonce data :=
    if kind = .aes128Gcm ∧ key = sampleKey then
      ([aheadPacket, timelyPacket].find? fun p =>
        u64At p.header 0 = session ∧ bytesAt p.header 4 12 = nonce ∧ p.sealedBody = data).map
          (·.body)
    else none
  isUuid _ := false
  base64 text := if text = "AAECAwQFBgcICQoLDA0ODw==".toList then some sampleKey else none
  base64Url _ := none
  readAddress
    | 1 :: b₁ :: b₂ :: b₃ :: b₄ :: hi :: lo :: _ =>
        some (⟨(Ipv4Addr.new b₁ b₂ b₃ b₄).chars, u16At [hi, lo] 0⟩, 7)
    | _ => none
  parseIp _ := none

/-- One user, and a loop that is started 0.9 seconds into a second. -/
def sampleConfig : UdpConfig where
  kind := .aes128Gcm
  serverKey := none
  index := UserIndex.new twoPackets
    (served twoPackets (.aead2022 .aes128Gcm) [userWith 1 "AAECAwQFBgcICQoLDA0ODw=="])
  udpProxyProtocol := false
  epoch := 1700000000900000000

/-- The packet arrives 0.2 seconds after the start, its session ends, there is
a sweep every second, and the packet arrives again after a little more than 61
seconds. -/
def sentTwice (p : Sealed) : List UdpEvent :=
  let received : Received := ⟨p.packet, false, none, false⟩
  [UdpEvent.sweep 0, .recv 200000000 received, .sessionEnd 0] ++
    (List.range 61).map (fun n => UdpEvent.sweep ((n + 1) * 1000000000)) ++
    [UdpEvent.recv 61050000000 received]

theorem sampleConfig_unforgeable : Unforgeable twoPackets sampleConfig := by
  have hkeys : sampleConfig.index.credentials.map (·.key) = [sampleKey] := by decide +kernel
  intro packet cred cred' opened opened' hcred hcred' _ _
  have hkey := List.mem_map_of_mem (f := fun cred : Credential => cred.key) hcred
  have hkey' := List.mem_map_of_mem (f := fun cred : Credential => cred.key) hcred'
  rw [hkeys, List.mem_singleton] at hkey hkey'
  exact hkey.trans hkey'.symm

/-- A packet with the right time is accepted once. -/
theorem timely_packet_once :
    ∃ s, Run.exec (logged twoPackets sampleConfig) (UdpServer.new, []) (sentTwice timelyPacket) =
        some s ∧ s.2.length = 1 ∧ NoReplay s.2 ∧ SweepsLate twoPackets sampleConfig s := by
  have hlen : (Run.exec (logged twoPackets sampleConfig) (UdpServer.new, [])
      (sentTwice timelyPacket)).map (·.2.length) = some 1 := by
    decide +kernel
  obtain ⟨s, hrun, hone⟩ := Option.map_eq_some_iff.mp hlen
  exact ⟨s, hrun, hone, no_replay twoPackets sampleConfig
    [userWith 1 "AAECAwQFBgcICQoLDA0ODw=="] rfl sampleConfig_unforgeable hrun
    (by decide +kernel)⟩

/-- A packet that is 30 seconds ahead is accepted twice. -/
theorem replay_after_sweep :
    ¬ ∀ s, Run.exec (logged twoPackets sampleConfig) (UdpServer.new, [])
      (sentTwice aheadPacket) = some s → NoReplay s.2 := by
  intro hall
  have hlog : (Run.exec (logged twoPackets sampleConfig) (UdpServer.new, [])
      (sentTwice aheadPacket)).map (fun s => s.2.map (·.payload)) =
        some [aheadPacket.packet, aheadPacket.packet] := by
    decide +kernel
  obtain ⟨s, hrun, hpayloads⟩ := Option.map_eq_some_iff.mp hlog
  have hnodup := hall s hrun
  rw [NoReplay, hpayloads] at hnodup
  simp at hnodup

end Shadowsocks

end Elise
