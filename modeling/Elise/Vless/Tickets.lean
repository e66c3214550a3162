/-
Elise/Vless/Tickets.lean

The tickets of VLESS encryption (src/protocol/vless/encryption/session.rs).

A client that comes back shows a ticket and sends data at once, with a key of its
own; the store remembers the keys that came with each ticket.  Sessions leave the
store when it is swept or cleared, and their keys are forgotten with them.  The
theorem is about all sequences of calls: if a ticket is given out once, no key
passes twice with it, whatever happens to the store in between.
-/
import Elise.Lib.AssocMap

namespace Elise

namespace Vless

inductive SessionError where
  | expiredTicket
  | replayDetected
  deriving DecidableEq, Repr

structure ServerSession where
  pfsKey : List UInt8
  nfsKeys : Finset (List UInt8)
  /-- In nanoseconds, as all times here. -/
  expiresAt : Nat
  deriving DecidableEq

def ServerSession.withKey (session : ServerSession) (nfsKey : List UInt8) : ServerSession :=
  { session with nfsKeys := insert nfsKey session.nfsKeys }

def maxSessions : Nat := 16384
def maxNfsKeysPerSession : Nat := 256
def sweepInterval : Nat := 30 * 1000000000

structure SessionStore where
  sessions : AssocMap (List UInt8) ServerSession
  lastSweep : Nat

namespace SessionStore

def new (now : Nat) : SessionStore := ⟨∅, now⟩

/-- Expired sessions are dropped. -/
def sweep (s : SessionStore) (now : Nat) : SessionStore where
  sessions := s.sessions.retain fun _ session => now < session.expiresAt
  lastSweep := now

/-- The store after the sweep that an insertion may make. -/
def swept (s : SessionStore) (now : Nat) : SessionStore :=
  if sweepInterval < now - s.lastSweep ∨ maxSessions ≤ s.sessions.len then s.sweep now else s

def insert (s : SessionStore) (ticket pfsKey : List UInt8) (ttl now : Nat) : SessionStore :=
  let s := s.swept now
  if maxSessions ≤ s.sessions.len then s
  else { s with sessions := s.sessions.insert ticket ⟨pfsKey, ∅, now + ttl⟩ }

def validateAndRecordNfsKey (s : SessionStore) (ticket nfsKey : List UInt8) (now : Nat) :
    Except SessionError (List UInt8) × SessionStore :=
  match s.sessions.get ticket with
  | none => (.error .expiredTicket, s)
  | some session =>
      if now < session.expiresAt then
        if maxNfsKeysPerSession ≤ session.nfsKeys.card then (.error .replayDetected, s)
        else if nfsKey ∈ session.nfsKeys then (.error .replayDetected, s)
        else
          (.ok session.pfsKey,
            { s with sessions := s.sessions.insert ticket (session.withKey nfsKey) })
      else (.error .expiredTicket, s)

def clear (s : SessionStore) : SessionStore := { s with sessions := ∅ }

/-! ### Sweeps -/

variable {s : SessionStore} {ticket : List UInt8} {session : ServerSession} {now : Nat}

theorem get_swept_eq_some (h : (s.swept now).sessions.get ticket = some session) :
    s.sessions.get ticket = some session := by
  rw [swept] at h
  split at h
  · rw [sweep, AssocMap.get_retain, Option.filter_eq_some_iff] at h
    exact h.1
  · exact h

/-- A sweep keeps what has not expired. -/
theorem get_swept (h : s.sessions.get ticket = some session) (hnow : now < session.expiresAt) :
    (s.swept now).sessions.get ticket = some session := by
  rw [swept]
  split
  · rw [sweep, AssocMap.get_retain, h]
    exact if_pos (decide_eq_true hnow)
  · exact h

/-- What an insertion leaves of a ticket: the new session, or what was there. -/
theorem get_insert_cases (s : SessionStore) (ticket pfsKey : List UInt8) (ttl now : Nat)
    (other : List UInt8) :
    (other = ticket ∧ (s.insert ticket pfsKey ttl now).sessions.get other =
        some ⟨pfsKey, ∅, now + ttl⟩) ∨
      ((s.insert ticket pfsKey ttl now).sessions.get other = (s.swept now).sessions.get other) := by
  rw [insert]
  split
  · exact .inr rfl
  · by_cases hother : other = ticket
    · subst hother
      exact .inl ⟨rfl, AssocMap.get_insert_self _ _ _⟩
    · exact .inr (AssocMap.get_insert_ne _ _ hother)

/-- **No unexpired session is dropped** when a ticket is inserted. -/
theorem get_insert_of_unexpired {other : List UInt8} (h : s.sessions.get other = some session)
    (hnow : now < session.expiresAt) (ticket pfsKey : List UInt8) (ttl : Nat) :
    ∃ session', (s.insert ticket pfsKey ttl now).sessions.get other = some session' ∧
      (other ≠ ticket → session' = session) := by
  rcases get_insert_cases s ticket pfsKey ttl now other with ⟨hsame, hget⟩ | hget
  · exact ⟨_, hget, fun hne => absurd hsame hne⟩
  · rw [get_swept h hnow] at hget
    exact ⟨session, hget, fun _ => rfl⟩

theorem len_swept_le (s : SessionStore) (now : Nat) : (s.swept now).sessions.len ≤ s.sessions.len := by
  rw [swept]
  split
  · exact AssocMap.len_retain_le _ _
  · exact Nat.le_refl _

theorem len_insert_le (h : s.sessions.len ≤ maxSessions) (ticket pfsKey : List UInt8) (ttl now : Nat) :
    (s.insert ticket pfsKey ttl now).sessions.len ≤ maxSessions := by
  rw [insert]
  split
  · exact (len_swept_le s now).trans h
  · rename_i hroom
    show ((s.swept now).sessions.insert ticket _).len ≤ maxSessions
    rw [AssocMap.len_insert]
    split <;> omega

/-! ### What a validation does -/

/-- **A validation**: a failed one leaves the store as it is; one that succeeds
gives the key of the session and notes the new key in it. -/
theorem validate_cases (s : SessionStore) (ticket nfsKey : List UInt8) (now : Nat) :
    (∃ e, s.validateAndRecordNfsKey ticket nfsKey now = (.error e, s)) ∨
      ∃ session, s.sessions.get ticket = some session ∧ now < session.expiresAt ∧
        session.nfsKeys.card < maxNfsKeysPerSession ∧ nfsKey ∉ session.nfsKeys ∧
        s.validateAndRecordNfsKey ticket nfsKey now =
          (.ok session.pfsKey,
            { s with sessions := s.sessions.insert ticket (session.withKey nfsKey) }) := by
  rw [validateAndRecordNfsKey]
  cases hget : s.sessions.get ticket with
  | none => exact .inl ⟨_, rfl⟩
  | some session =>
      dsimp only
      split
      · rename_i hnow
        split
        · exact .inl ⟨_, rfl⟩
        · rename_i hfew
          split
          · exact .inl ⟨_, rfl⟩
          · rename_i hnew
            exact .inr ⟨session, rfl, hnow, Nat.lt_of_not_le hfew, hnew, rfl⟩
      · exact .inl ⟨_, rfl⟩

end SessionStore

/-! ### Every sequence of calls -/

/-- A call, with the time at which it is made. -/
inductive SessionCall where
  | insert (ticket pfsKey : List UInt8) (ttl now : Nat)
  | validate (ticket nfsKey : List UInt8) (now : Nat)
  | clear
  deriving DecidableEq

/-- The call inserts this ticket. -/
def SessionCall.inserts (ticket : List UInt8) : SessionCall → Bool
  | .insert other _ _ _ => other = ticket
  | _ => false

/-- A validation that has succeeded, with what it returned. -/
structure Accepted where
  ticket : List UInt8
  nfsKey : List UInt8
  pfsKey : List UInt8
  now : Nat
  deriving DecidableEq

/-- A store, with the validations that have succeeded so far. -/
structure Validated where
  store : SessionStore
  accepted : List Accepted

namespace Validated

def step (h : Validated) : SessionCall → Validated
  | .insert ticket pfsKey ttl now => { h with store := h.store.insert ticket pfsKey ttl now }
  | .validate ticket nfsKey now =>
      match h.store.validateAndRecordNfsKey ticket nfsKey now with
      | (.ok pfsKey, store) => ⟨store, h.accepted ++ [⟨ticket, nfsKey, pfsKey, now⟩]⟩
      | (.error _, store) => { h with store := store }
  | .clear => { h with store := h.store.clear }

/-- A new store, after some calls. -/
def run (start : Nat) (calls : List SessionCall) : Validated :=
  calls.foldl step ⟨.new start, []⟩

/-- The validations of one ticket. -/
def acceptedFor (h : Validated) (ticket : List UInt8) : List Accepted :=
  h.accepted.filter (·.ticket = ticket)

theorem len_step {h : Validated} (hlen : h.store.sessions.len ≤ maxSessions) (call : SessionCall) :
    (h.step call).store.sessions.len ≤ maxSessions := by
  cases call with
  | insert ticket pfsKey ttl now => exact SessionStore.len_insert_le hlen _ _ _ _
  | validate ticket nfsKey now =>
      rw [step]
      rcases SessionStore.validate_cases h.store ticket nfsKey now with ⟨e, heq⟩ |
        ⟨session, hget, -, -, -, heq⟩
      · rw [heq]
        exact hlen
      · rw [heq]
        show (h.store.sessions.insert ticket _).len ≤ maxSessions
        rw [AssocMap.len_insert, if_pos (AssocMap.contains_iff.mpr ⟨session, hget⟩)]
        exact hlen
  | clear => exact Nat.zero_le _

/-- Of a ticket that was inserted once: its session is the one that was inserted
and knows the keys that have passed, or it is gone. -/
structure Once (ticket pfsKey : List UInt8) (expiresAt : Nat) (h : Validated) : Prop where
  granted : ∀ a ∈ h.acceptedFor ticket, a.pfsKey = pfsKey ∧ a.now < expiresAt
  fresh : ((h.acceptedFor ticket).map Accepted.nfsKey).Nodup
  few : (h.acceptedFor ticket).length ≤ maxNfsKeysPerSession
  session : ∀ session, h.store.sessions.get ticket = some session →
    session.pfsKey = pfsKey ∧ session.expiresAt = expiresAt ∧
      session.nfsKeys = ((h.acceptedFor ticket).map Accepted.nfsKey).toFinset

/-- Of a ticket that was not inserted nothing is known. -/
def Never (ticket : List UInt8) (h : Validated) : Prop :=
  h.store.sessions.get ticket = none ∧ h.acceptedFor ticket = []

variable {ticket pfsKey : List UInt8} {expiresAt : Nat} {h : Validated}

theorem acceptedFor_concat_ne (store : SessionStore) {a : Accepted} (hne : a.ticket ≠ ticket) :
    acceptedFor ⟨store, h.accepted ++ [a]⟩ ticket = h.acceptedFor ticket := by
  simp [acceptedFor, hne]

/-- The session of a ticket is the same or gone, and no validation succeeds. -/
theorem Once.shrink (honce : Once ticket pfsKey expiresAt h) {h' : Validated}
    (hsame : h'.acceptedFor ticket = h.acceptedFor ticket)
    (hget : ∀ session, h'.store.sessions.get ticket = some session →
      h.store.sessions.get ticket = some session) : Once ticket pfsKey expiresAt h' := by
  refine ⟨?_, ?_, ?_, ?_⟩
  · rw [hsame]
    exact honce.granted
  · rw [hsame]
    exact honce.fresh
  · rw [hsame]
    exact honce.few
  · intro session hsession
    rw [hsame]
    exact honce.session session (hget session hsession)

/-- **A validation keeps count of the keys.** -/
theorem Once.validate (honce : Once ticket pfsKey expiresAt h) (other nfsKey : List UInt8) (now : Nat) :
    Once ticket pfsKey expiresAt (h.step (.validate other nfsKey now)) := by
  rw [step]
  rcases SessionStore.validate_cases h.store other nfsKey now with ⟨e, heq⟩ |
    ⟨session, hget, hnow, hfew, hnew, heq⟩
  · rw [heq]
    exact honce.shrink rfl fun _ hsame => hsame
  · rw [heq]
    dsimp only
    by_cases hother : other = ticket
    · subst hother
      obtain ⟨hkey, hexpires, hkeys⟩ := honce.session session hget
      have hlog : acceptedFor ⟨⟨h.store.sessions.insert other (session.withKey nfsKey), h.store.lastSweep⟩,
          h.accepted ++ [⟨other, nfsKey, session.pfsKey, now⟩]⟩ other =
          h.acceptedFor other ++ [⟨other, nfsKey, session.pfsKey, now⟩] := by
        simp [acceptedFor]
      have hcard : session.nfsKeys.card = (h.acceptedFor other).length := by
        rw [hkeys, List.toFinset_card_of_nodup honce.fresh, List.length_map]
      refine ⟨?_, ?_, ?_, ?_⟩
      · rw [hlog]
        intro a ha
        rcases List.mem_append.mp ha with ha | ha
        · exact honce.granted a ha
        · obtain rfl := List.mem_singleton.mp ha
          exact ⟨hkey, hexpires ▸ hnow⟩
      · rw [hlog, List.map_append, List.nodup_append']
        refine ⟨honce.fresh, List.nodup_singleton _, ?_⟩
        rw [hkeys, List.mem_toFinset] at hnew
        intro key hmem hlast
        obtain rfl := List.mem_singleton.mp hlast
        exact hnew hmem
      · rw [hlog, List.length_append, ← hcard]
        exact hfew
      · intro session' hsession'
        obtain rfl := Option.some.inj ((AssocMap.get_insert_self _ _ _).symm.trans hsession')
        refine ⟨hkey, hexpires, ?_⟩
        rw [hlog, List.map_append, List.toFinset_append, ← hkeys]
        show insert nfsKey session.nfsKeys = session.nfsKeys ∪ [nfsKey].toFinset
        rw [List.toFinset_cons, List.toFinset_nil, Finset.union_insert, Finset.union_empty]
    · apply honce.shrink (acceptedFor_concat_ne _ hother)
      intro session' hsession'
      rw [← hsession']
      exact (AssocMap.get_insert_ne _ _ (Ne.symm hother)).symm

/-- A ticket that is not in the store does not pass. -/
theorem Never.validate (hnever : Never ticket h) (other nfsKey : List UInt8) (now : Nat) :
    Never ticket (h.step (.validate other nfsKey now)) := by
  rw [step]
  rcases SessionStore.validate_cases h.store other nfsKey now with ⟨e, heq⟩ |
    ⟨session, hget, -, -, -, heq⟩
  · rw [heq]
    exact hnever
  · have hother : other ≠ ticket := by
      rintro rfl
      rw [hnever.1] at hget
      cases hget
    rw [heq]
    exact ⟨(AssocMap.get_insert_ne _ _ (Ne.symm hother)).trans hnever.1,
      (acceptedFor_concat_ne _ hother).trans hnever.2⟩

/-- What the calls so far say of a ticket that they insert at most once. -/
def Known (ticket : List UInt8) (calls : List SessionCall) (h : Validated) : Prop :=
  (calls.countP (·.inserts ticket) = 0 ∧ Never ticket h) ∨
    ∃ pfsKey ttl now, SessionCall.insert ticket pfsKey ttl now ∈ calls ∧
      Once ticket pfsKey (now + ttl) h

/-- **Every call keeps what is known.** -/
theorem Known.step {calls : List SessionCall} {call : SessionCall} (hknown : Known ticket calls h)
    (hcount : (calls ++ [call]).countP (·.inserts ticket) ≤ 1) :
    Known ticket (calls ++ [call]) (h.step call) := by
  rw [List.countP_append] at hcount
  have hpos : ∀ {pfsKey ttl now}, SessionCall.insert ticket pfsKey ttl now ∈ calls →
      0 < calls.countP (·.inserts ticket) := by
    intro pfsKey ttl now hmem
    exact List.countP_pos_iff.mpr ⟨_, hmem, decide_eq_true rfl⟩
  cases call with
  | insert other pfsKey ttl now =>
      by_cases hother : other = ticket
      · -- the ticket is inserted, for the first time
        subst hother
        have hone : [SessionCall.insert other pfsKey ttl now].countP (·.inserts other) = 1 := by
          simp [SessionCall.inserts]
        have hnever : Never other h := by
          rcases hknown with ⟨-, hnever⟩ | ⟨_, _, _, hmem, -⟩
          · exact hnever
          · have := hpos hmem
            omega
        refine .inr ⟨pfsKey, ttl, now, List.mem_append_right _ List.mem_cons_self, ?_⟩
        have hlog : (h.step (.insert other pfsKey ttl now)).acceptedFor other = [] := hnever.2
        refine ⟨?_, ?_, ?_, ?_⟩
        · rw [hlog]
          exact nofun
        · rw [hlog]
          exact List.nodup_nil
        · rw [hlog]
          exact Nat.zero_le _
        · intro session hsession
          rw [hlog]
          rcases SessionStore.get_insert_cases h.store other pfsKey ttl now other with
            ⟨-, hget⟩ | hget
          · obtain rfl := Option.some.inj (hget.symm.trans hsession)
            exact ⟨rfl, rfl, rfl⟩
          · have hbefore := SessionStore.get_swept_eq_some (hget.symm.trans hsession)
            rw [hnever.1] at hbefore
            cases hbefore
      · -- another ticket: a sweep may drop the session
        have hzero : [SessionCall.insert other pfsKey ttl now].countP (·.inserts ticket) = 0 := by
          simp [SessionCall.inserts, hother]
        have hget : ∀ session,
            (h.step (.insert other pfsKey ttl now)).store.sessions.get ticket = some session →
            h.store.sessions.get ticket = some session := by
          intro session hsession
          rcases SessionStore.get_insert_cases h.store other pfsKey ttl now ticket with
            ⟨hsame, -⟩ | hget
          · exact absurd hsame.symm hother
          · exact SessionStore.get_swept_eq_some (hget.symm.trans hsession)
        rcases hknown with ⟨hnone, hnever⟩ | ⟨pfsKey', ttl', now', hmem, honce⟩
        · refine .inl ⟨?_, ?_, hnever.2⟩
          · rw [List.countP_append, hnone, hzero]
          · rw [Option.eq_none_iff_forall_ne_some]
            intro session hsession
            have hbefore := hget session hsession
            rw [hnever.1] at hbefore
            cases hbefore
        · exact .inr ⟨pfsKey', ttl', now', List.mem_append_left _ hmem, honce.shrink rfl hget⟩
  | validate other nfsKey now =>
      rcases hknown with ⟨hnone, hnever⟩ | ⟨pfsKey', ttl', now', hmem, honce⟩
      · refine .inl ⟨?_, hnever.validate other nfsKey now⟩
        rw [List.countP_append, hnone]
        rfl
      · exact .inr ⟨pfsKey', ttl', now', List.mem_append_left _ hmem, honce.validate other nfsKey now⟩
  | clear =>
      rcases hknown with ⟨hnone, hnever⟩ | ⟨pfsKey', ttl', now', hmem, honce⟩
      · refine .inl ⟨?_, AssocMap.get_empty ticket, hnever.2⟩
        rw [List.countP_append, hnone]
        rfl
      · refine .inr ⟨pfsKey', ttl', now', List.mem_append_left _ hmem, honce.shrink rfl ?_⟩
        intro session hsession
        cases (AssocMap.get_empty ticket).symm.trans hsession

theorem run_concat (start : Nat) (calls : List SessionCall) (call : SessionCall) :
    run start (calls ++ [call]) = (run start calls).step call := by
  rw [run, List.foldl_append, ← run]
  rfl

theorem known_run (start : Nat) (calls : List SessionCall) (ticket : List UInt8)
    (hcount : calls.countP (·.inserts ticket) ≤ 1) : Known ticket calls (run start calls) := by
  induction calls using List.reverseRecOn with
  | nil => exact .inl ⟨rfl, AssocMap.get_empty ticket, rfl⟩
  | append_singleton calls call ih =>
      rw [run_concat]
      refine Known.step (ih ?_) hcount
      rw [List.countP_append] at hcount
      omega

theorem len_run (start : Nat) (calls : List SessionCall) :
    (run start calls).store.sessions.len ≤ maxSessions := by
  induction calls using List.reverseRecOn with
  | nil => exact Nat.zero_le _
  | append_singleton calls call ih =>
      rw [run_concat]
      exact len_step ih call

/-- **Tickets cannot be replayed.**  After any calls there are at most 16384
sessions.  Of a ticket that was inserted at most once, each key has passed at
most once and at most 256 keys have passed, before the time of the ticket was up,
and each time the key came back with which the ticket was inserted.  And no
insertion drops a session that has not expired. -/
theorem tickets_pass_once_per_key (start : Nat) (calls : List SessionCall) :
    (run start calls).store.sessions.len ≤ 16384 ∧
      (∀ ticket, calls.countP (·.inserts ticket) ≤ 1 →
        (∀ nfsKey, (run start calls).accepted.countP
          (fun a => a.ticket = ticket ∧ a.nfsKey = nfsKey) ≤ 1) ∧
        (run start calls).accepted.countP (fun a => a.ticket = ticket) ≤ 256 ∧
        ∀ a ∈ (run start calls).accepted, a.ticket = ticket →
          ∃ ttl now, SessionCall.insert ticket a.pfsKey ttl now ∈ calls ∧ a.now < now + ttl) ∧
      ∀ ticket pfsKey ttl now other session,
        (run start calls).store.sessions.get other = some session → now < session.expiresAt →
        ∃ session', ((run start calls).store.insert ticket pfsKey ttl now).sessions.get other =
            some session' ∧ (other ≠ ticket → session' = session) := by
  refine ⟨len_run start calls, ?_, ?_⟩
  · intro ticket hcount
    obtain ⟨pfsKey, expiresAt, honce, hinserted⟩ : ∃ pfsKey expiresAt,
        Once ticket pfsKey expiresAt (run start calls) ∧
        ((run start calls).acceptedFor ticket ≠ [] →
          ∃ ttl now, SessionCall.insert ticket pfsKey ttl now ∈ calls ∧ expiresAt = now + ttl) := by
      rcases known_run start calls ticket hcount with ⟨-, hget, hlog⟩ | ⟨pfsKey, ttl, now, hmem, honce⟩
      · refine ⟨[], 0, ⟨?_, ?_, ?_, ?_⟩, fun hne => absurd hlog hne⟩
        · rw [hlog]
          exact nofun
        · rw [hlog]
          exact List.nodup_nil
        · rw [hlog]
          exact Nat.zero_le _
        · intro session hsession
          rw [hget] at hsession
          cases hsession
      · exact ⟨pfsKey, now + ttl, honce, fun _ => ⟨ttl, now, hmem, rfl⟩⟩
    refine ⟨?_, ?_, ?_⟩
    · intro nfsKey
      have hcountKey : (run start calls).accepted.countP
          (fun a => a.ticket = ticket ∧ a.nfsKey = nfsKey) =
          (((run start calls).acceptedFor ticket).map Accepted.nfsKey).count nfsKey := by
        rw [acceptedFor, List.count, List.countP_map, List.countP_filter]
        congr 1
        funext a
        by_cases ht : a.ticket = ticket <;> by_cases hk : a.nfsKey = nfsKey <;> simp [ht, hk]
      rw [hcountKey]
      exact List.nodup_iff_count_le_one.mp honce.fresh nfsKey
    · rw [List.countP_eq_length_filter]
      exact honce.few
    · intro a ha hticket
      have hmem : a ∈ (run start calls).acceptedFor ticket :=
        List.mem_filter.mpr ⟨ha, decide_eq_true hticket⟩
      obtain ⟨hkey, hnow⟩ := honce.granted a hmem
      obtain ⟨ttl, now, hinsert, hexpires⟩ := hinserted (List.ne_nil_of_mem hmem)
      refine ⟨ttl, now, ?_, ?_⟩
      · rw [hkey]
        exact hinsert
      · rw [← hexpires]
        exact hnow
  · intro ticket pfsKey ttl now other session hget hnow
    exact SessionStore.get_insert_of_unexpired hget hnow ticket pfsKey ttl

/-- A key passes, does not pass again, another one passes, and then the time is
up. -/
example : (run 0 [.insert [0x55] [0xaa] 60 0, .validate [0x55] [0x11] 1, .validate [0x55] [0x11] 2,
    .validate [0x55] [0x22] 3, .validate [0x55] [0x33] 60]).accepted =
      [⟨[0x55], [0x11], [0xaa], 1⟩, ⟨[0x55], [0x22], [0xaa], 3⟩] := by
  decide

end Validated

end Vless

end Elise
