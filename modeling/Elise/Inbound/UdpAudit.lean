/-
Elise/Inbound/UdpAudit.lean

The audit of datagrams, in the associations of Trojan and of SOCKS5.

SOCKS5 asks the audit about each datagram.  Trojan asks it about the first target
only, and leaves the others to the dialer, which does not ask about the
destination of a packet when it redirects it, or when the destination is
unspecified.  So Trojan obeys the audit exactly when the dialer refuses what the
audit blocks.
-/
import Elise.Hysteria.Udp
import Elise.Socks.Udp
import Elise.Trojan.Billing

namespace Elise

open Net Hysteria

/-! ### SOCKS5 -/

namespace Socks.Association

variable {env : Matching} (ctx : InboundContext env)

/-- The audit lets a request pass. -/
def Passes (r : UdpRequest) : Prop := ctx.audit.shouldBlock ctx.geo r.host r.ip r.port = false

/-- Every request that a run passes to a worker is let pass by the audit. -/
def Obeys (clientIp : IpAddr) : Prop :=
  ∀ events a, Run.exec (step ctx) (new clientIp) events = some a → ∀ r ∈ a.handed, Passes ctx r

/-- What is passed and what waits to be passed is let pass. -/
structure Audited (a : Association) : Prop where
  handed : ∀ r ∈ a.handed, Passes ctx r
  sending : ∀ g r, a.sending = some (g, r) → Passes ctx r

variable {ctx} {a a' : Association}

theorem Audited.receive (h : Audited ctx a) (r : UdpRequest) (roll : Nat) (lookup : Resolver) :
    Audited ctx (a.receive ctx r roll lookup) := by
  unfold Association.receive
  split
  · exact h
  · rename_i hpass
    have hpass : Passes ctx r := by simpa [Passes] using hpass
    -- from here on, whatever is sent is this request
    have hsent : ∀ g g' r', some ((g : Nat), r) = some (g', r') → Passes ctx r' := by
      rintro g g' r' hsome
      cases hsome
      exact hpass
    split
    · exact ⟨h.handed, hsent _⟩
    · split
      · exact h
      · exact ⟨h.handed, hsent _⟩

theorem Audited.send (h : Audited ctx a) {g : Nat} {r : UdpRequest} (hr : Passes ctx r)
    (hsend : a.send g r = some a') : Audited ctx a' := by
  unfold Association.send at hsend
  split at hsend
  · obtain rfl := Option.some.inj hsend
    exact ⟨h.handed, nofun⟩
  · split_ifs at hsend
    · obtain rfl := Option.some.inj hsend
      exact ⟨h.handed, nofun⟩
    · obtain rfl := Option.some.inj hsend
      refine ⟨?_, nofun⟩
      intro r' hmem
      rcases List.mem_append.mp hmem with hmem | hmem
      · exact h.handed r' hmem
      · rw [List.mem_singleton.mp hmem]
        exact hr

theorem Audited.step (h : Audited ctx a) {e : Event} (hstep : a.step ctx e = some a') :
    Audited ctx a' := by
  cases e with
  | datagram src buf roll lookup =>
      simp only [Association.step] at hstep
      split_ifs at hstep
      · obtain rfl := Option.some.inj hstep
        exact h
      · split at hstep
        · obtain rfl := Option.some.inj hstep
          exact h
        · rename_i r _
          obtain rfl := Option.some.inj hstep
          have hpeer : Audited ctx { a with clientUdpPeer := some src } := ⟨h.handed, h.sending⟩
          exact hpeer.receive r roll lookup
  | sent =>
      simp only [Association.step] at hstep
      split at hstep
      · cases hstep
      · rename_i g r hsending
        exact h.send (h.sending g r hsending) hstep
  | relay g =>
      simp only [Association.step] at hstep
      split at hstep
      · cases hstep
      · obtain rfl := Option.some.inj hstep
        exact ⟨h.handed, h.sending⟩
  | workerEnds g =>
      simp only [Association.step] at hstep
      split at hstep
      · cases hstep
      · obtain rfl := Option.some.inj hstep
        exact ⟨h.handed, h.sending⟩
  | join g =>
      simp only [Association.step] at hstep
      split at hstep
      · cases hstep
      · split_ifs at hstep
        obtain rfl := Option.some.inj hstep
        exact ⟨h.handed, h.sending⟩
  | cancel =>
      obtain rfl := Option.some.inj hstep
      exact ⟨h.handed, h.sending⟩

theorem obeys (clientIp : IpAddr) : Obeys ctx clientIp := by
  intro events a hrun
  have hnew : Audited ctx (new clientIp) := ⟨nofun, nofun⟩
  exact (Run.exec_preserves (fun h hstep => Audited.step h hstep) hrun hnew).handed

end Socks.Association

/-! ### Trojan -/

namespace Trojan

/-- A packet is one of those that a stream carries. -/
inductive Carries (env : Matching) : List UInt8 → UdpPacket → Prop where
  | head {input rest : List UInt8} {p : UdpPacket} (h : readPacket env input = .ok (p, rest)) :
      Carries env input p
  | tail {input rest : List UInt8} {p q : UdpPacket} (h : readPacket env input = .ok (q, rest))
      (hp : Carries env rest p) : Carries env input p

namespace Association

variable {env : Matching} (ctx : InboundContext env)

/-- The audit lets a packet pass. -/
def Passes (p : UdpPacket) : Prop := blocks ctx p.host p.ip p.port = false

/-- Every packet that a run hands to a session is let pass by the audit. -/
def Obeys (target : Target) (input : List UInt8) : Prop :=
  ∀ start' events a, start ctx target input = some start' →
    Run.exec (step ctx) start' events = some a → ∀ p ∈ a.handed, Passes ctx p

/-- The dialer refuses what the audit blocks, whatever the router draws and the
DNS answers. -/
def Refused (input : List UInt8) : Prop :=
  ∀ p, Carries env input p → ¬ Passes ctx p →
    ∀ roll lookup, ∃ e, dial ctx p roll lookup = .error e

/-- The address of a packet is what its host reads as. -/
def Spelt (env : Matching) (p : UdpPacket) : Prop := p.ip = env.parseIp p.host

/-! ### When the dialer refuses -/

/-- What is handed on is let pass, and the sessions are for destinations that are. -/
structure Audited (input : List UInt8) (a : Association) : Prop where
  handed : ∀ p ∈ a.handed, Passes ctx p
  sessions : ∀ key g, a.sessions.get key = some g →
    ∃ p, Passes ctx p ∧ Spelt env p ∧ (p.host, p.port) = key
  input : ∀ p, Carries env a.input p → Carries env input p

variable {ctx} {input : List UInt8} {a a' : Association}

theorem passes_of_same {p q : UdpPacket} (hp : Spelt env p) (hq : Spelt env q)
    (hkey : (p.host, p.port) = (q.host, q.port)) (h : Passes ctx p) : Passes ctx q := by
  obtain ⟨hhost, hport⟩ := Prod.mk.inj hkey
  have hip : p.ip = q.ip := by rw [hp, hq, hhost]
  rw [Passes, ← hhost, ← hport, ← hip]
  exact h

theorem Audited.trySend (h : Audited ctx input a) (g : Nat) (payload : List UInt8) :
    Audited ctx input (a.trySend g payload) := by
  rw [Association.trySend]
  split
  · exact h
  · split
    · exact h
    · exact ⟨h.handed, h.sessions, h.input⟩

theorem Audited.hand (h : Audited ctx input a) (g : Nat) {p : UdpPacket} (hp : Passes ctx p) :
    Audited ctx input (a.hand g p) := by
  have htry := h.trySend g p.payload
  refine ⟨?_, htry.sessions, htry.input⟩
  intro q hmem
  rcases List.mem_append.mp hmem with hmem | hmem
  · exact htry.handed q hmem
  · rw [List.mem_singleton.mp hmem]
    exact hp

theorem Audited.prune (h : Audited ctx input a) : Audited ctx input a.prune := by
  rw [Association.prune]
  split
  · refine ⟨h.handed, ?_, h.input⟩
    intro key g hget
    apply h.sessions key g
    simp only [AssocMap.get_retain] at hget
    exact (Option.filter_eq_some_iff.mp hget).1
  · exact h

theorem Audited.spawn (h : Audited ctx input a) {p : UdpPacket} (udpOutbound : UdpOutbound)
    (hp : Passes ctx p) (hspelt : Spelt env p) : Audited ctx input (a.spawn p udpOutbound) := by
  refine ⟨h.handed, ?_, h.input⟩
  intro key g hget
  rcases AssocMap.get_insert_eq_some hget with ⟨rfl, -⟩ | ⟨-, hold⟩
  · exact ⟨p, hp, hspelt, rfl⟩
  · exact h.sessions key g hold

/-- A packet that the dialer accepts, or that has a session, is let pass. -/
theorem Audited.receive (h : Audited ctx input a) {p : UdpPacket} (hspelt : Spelt env p)
    {roll : Nat} {lookup : Resolver}
    (hdial : ¬ Passes ctx p → ∃ e, dial ctx p roll lookup = .error e) :
    Audited ctx input (a.receive ctx p roll lookup) := by
  have hopen : Audited ctx input (a.openSession ctx p roll lookup) := by
    unfold Association.openSession
    dsimp only
    split
    · exact h.prune
    · split
      · exact h.prune
      · rename_i hok
        have hp : Passes ctx p := by
          by_contra hblocked
          obtain ⟨e, herror⟩ := hdial hblocked
          cases hok.symm.trans herror
        exact (h.prune.spawn _ hp hspelt).hand _ hp
  unfold Association.receive
  split
  · exact hopen
  · rename_i g hget
    split
    · exact hopen
    · obtain ⟨q, hq, hspelt', hkey⟩ := h.sessions _ g hget
      exact h.hand g (passes_of_same hspelt' hspelt hkey hq)

theorem Audited.step (hspelt : ∀ p, Carries env input p → Spelt env p) (hrefused : Refused ctx input)
    (h : Audited ctx input a) {e : Event} (hstep : a.step ctx e = some a') :
    Audited ctx input a' := by
  cases stepped_of_step hstep with
  | @packet p rest roll lookup _ hread =>
      have hp : Carries env input p := h.input p (.head hread)
      have hrest : Audited ctx input { a with input := rest } :=
        ⟨h.handed, h.sessions, fun q hq => h.input q (.tail hread hq)⟩
      exact hrest.receive (hspelt p hp) fun hblocked => hrefused p hp hblocked roll lookup
  -- no other step hands on a packet
  | readerEnds _ => exact ⟨h.handed, h.sessions, h.input⟩
  | reply _ _ _ _ _ _ _ => exact ⟨h.handed, h.sessions, h.input⟩
  | relay _ _ _ => exact ⟨h.handed, h.sessions, h.input⟩
  | taskEnds _ => exact ⟨h.handed, h.sessions, h.input⟩
  | write _ _ _ => exact ⟨h.handed, h.sessions, h.input⟩
  | writeFails _ _ _ => exact ⟨h.handed, h.sessions, h.input⟩
  | writerEnds _ _ => exact ⟨h.handed, h.sessions, h.input⟩

/-- Where the dialer refuses what is blocked, an association obeys. -/
theorem obeys_of_refused {target : Target} (hspelt : ∀ p, Carries env input p → Spelt env p)
    (hrefused : Refused ctx input) : Obeys ctx target input := by
  intro start' events a hstart hrun
  have hfirst : Audited ctx input start' := by
    rw [start] at hstart
    split_ifs at hstart
    obtain rfl := Option.some.inj hstart
    refine ⟨?_, ?_, fun _ hp => hp⟩
    · rintro p ⟨⟩
    · rintro key g ⟨⟩
  exact (Run.exec_preserves (fun h hstep => Audited.step hspelt hrefused h hstep) hrun hfirst).handed

/-! ### When it does not -/

/-- The association goes on, and none of its tasks does. -/
structure Idle (a : Association) : Prop where
  ended : a.ended = none
  closed : ∀ t ∈ a.tasks, t.closed = true

theorem Idle.isClosed (h : Idle a) (g : Nat) : a.isClosed g = true := by
  rw [Association.isClosed]
  split
  · rfl
  · rename_i t hget
    exact h.closed t (List.mem_of_getElem? hget)

/-- Where no task goes on, there is room for a session. -/
theorem Idle.len_prune (h : Idle a) : a.prune.sessions.len < 1024 := by
  rw [prune]
  split
  · have hempty : (a.sessions.retain fun _ g => !a.isClosed g) = ∅ := by
      apply AssocMap.eq_empty_of_get
      intro key
      rw [AssocMap.get_retain]
      simp [h.isClosed]
    show (a.sessions.retain fun _ g => !a.isClosed g).len < 1024
    rw [hempty]
    decide
  · omega

/-- So the dialer decides about a packet. -/
theorem Idle.receive_eq (h : Idle a) (p : UdpPacket) (roll : Nat) (lookup : Resolver) :
    a.receive ctx p roll lookup =
      match dial ctx p roll lookup with
      | .error _ => a.prune
      | .ok udpOutbound => (a.prune.spawn p udpOutbound).hand a.tasks.length p := by
  have hopen : a.receive ctx p roll lookup = a.openSession ctx p roll lookup := by
    unfold receive
    split
    · rfl
    · rw [if_pos (h.isClosed _)]
  rw [hopen]
  unfold openSession
  dsimp only
  rw [if_neg (by have := h.len_prune; omega)]
  have hlen : a.prune.tasks.length = a.tasks.length := congrArg List.length (prune_fields a).2.2.1
  cases dial ctx p roll lookup with
  | error e => rfl
  | ok udpOutbound => exact congrArg (fun n => (a.prune.spawn p udpOutbound).hand n p) hlen

variable (ctx) in
/-- The newest task comes to its end. -/
theorem Idle.of_last {tasks : List SessionTask} {t : SessionTask} (hended : a.ended = none)
    (htasks : a.tasks = tasks ++ [t]) (hclosed : ∀ t ∈ tasks, t.closed = true) :
    ∃ a', a.step ctx (.taskEnds tasks.length) = some a' ∧ a'.input = a.input ∧ Idle a' := by
  have hget : a.tasks[tasks.length]? = some t := by
    rw [htasks]
    exact List.getElem?_concat_length ..
  have hset : a.tasks.set tasks.length { t with closed := true } =
      tasks ++ [{ t with closed := true }] := by
    rw [htasks]
    simp
  refine ⟨{ a with tasks := tasks ++ [{ t with closed := true }] }, ?_, rfl, hended, ?_⟩
  · simp only [Association.step, hget, hset]
  · intro other hmem
    rcases List.mem_append.mp hmem with hmem | hmem
    · exact hclosed other hmem
    · rw [List.mem_singleton.mp hmem]

variable (ctx) in
/-- A packet is read, and the task that it may have started comes to its end. -/
theorem Idle.read (h : Idle a) {q : UdpPacket} {rest : List UInt8}
    (hread : readPacket env a.input = .ok (q, rest)) :
    ∃ events a', Run.exec (Association.step ctx) a events = some a' ∧ a'.input = rest ∧ Idle a' := by
  have hstep : a.step ctx (.packet 0 fun _ _ => .ok []) =
      some ({ a with input := rest }.receive ctx q 0 fun _ _ => .ok []) := by
    simp only [Association.step, h.ended, hread]
    rfl
  have hidle : Idle { a with input := rest } := ⟨h.ended, h.closed⟩
  rw [hidle.receive_eq] at hstep
  obtain ⟨hinput, hended, htasks, -⟩ := prune_fields { a with input := rest }
  split at hstep
  · refine ⟨[_], _, Run.exec_cons_eq_some.mpr ⟨_, hstep, rfl⟩, hinput, hended.trans h.ended, ?_⟩
    rw [htasks]
    exact h.closed
  · rename_i udpOutbound _
    obtain ⟨htasks', -, hinput', hended', -⟩ :=
      spawn_hand { a with input := rest }.prune q udpOutbound (congrArg List.length htasks).symm
    rw [htasks] at htasks'
    obtain ⟨a', hend, hrest, hidle'⟩ :=
      Idle.of_last ctx ((hended'.trans hended).trans h.ended) htasks' h.closed
    have hrun := Run.exec_cons_eq_some.mpr ⟨a', hend, (rfl : Run.exec _ a' [] = some a')⟩
    exact ⟨_, a', Run.exec_cons_eq_some.mpr ⟨_, hstep, hrun⟩,
      hrest.trans (hinput'.trans hinput), hidle'⟩

/-- Some run hands on a packet of the stream that the dialer accepts. -/
theorem Idle.reaches {p : UdpPacket} (hp : Carries env input p) {roll : Nat} {lookup : Resolver}
    {out : UdpOutbound} (hdial : dial ctx p roll lookup = .ok out) (h : Idle a)
    (hinput : a.input = input) :
    ∃ events a', Run.exec (Association.step ctx) a events = some a' ∧ p ∈ a'.handed := by
  -- on the packets before it
  induction hp generalizing a with
  | @head bytes rest p hread =>
      have hstep : a.step ctx (.packet roll lookup) =
          some ({ a with input := rest }.receive ctx p roll lookup) := by
        simp only [Association.step, h.ended, hinput, hread]
        rfl
      have hidle : Idle { a with input := rest } := ⟨h.ended, h.closed⟩
      rw [hidle.receive_eq] at hstep
      simp only [hdial] at hstep
      obtain ⟨-, -, htasks, -⟩ := prune_fields { a with input := rest }
      obtain ⟨-, hhanded, -⟩ :=
        spawn_hand { a with input := rest }.prune p out (congrArg List.length htasks).symm
      refine ⟨[_], _, Run.exec_cons_eq_some.mpr ⟨_, hstep, rfl⟩, ?_⟩
      rw [hhanded]
      exact List.mem_append_right _ (List.mem_singleton_self p)
  | tail hread hrest ih =>
      obtain ⟨events, a₁, hrun, hinput₁, hidle⟩ := h.read ctx (hinput ▸ hread)
      obtain ⟨events', a₂, hrun', hmem⟩ := ih hdial hidle hinput₁
      refine ⟨events ++ events', a₂, ?_, hmem⟩
      rw [Run.exec_append, hrun]
      exact hrun'

theorem refused_of_obeys {target : Target}
    (htarget : blocks ctx target.host target.ip target.port = false)
    (hobeys : Obeys ctx target input) : Refused ctx input := by
  intro p hp hblocked roll lookup
  cases hdial : dial ctx p roll lookup with
  | error e => exact ⟨e, rfl⟩
  | ok out =>
      obtain ⟨a₀, hstart, hinput, hidle⟩ : ∃ a₀, start ctx target input = some a₀ ∧
          a₀.input = input ∧ Idle a₀ := by
        rw [start, htarget]
        exact ⟨_, rfl, rfl, rfl, fun _ hmem => absurd hmem List.not_mem_nil⟩
      obtain ⟨events, a, hrun, hmem⟩ := Idle.reaches hp hdial hidle hinput
      exact absurd (hobeys _ events a hstart hrun p hmem) hblocked

/-- **Who audits each datagram.**  SOCKS5 does in every run; Trojan does in every
run exactly when its first target is blocked, or the dialer refuses every packet
of the client that the audit blocks. -/
theorem udp_audited_iff_refused (target : Target) (clientIp : IpAddr)
    (hspelt : ∀ p, Carries env input p → Spelt env p) :
    Obeys ctx target input ∧ Socks.Association.Obeys ctx clientIp ↔
      blocks ctx target.host target.ip target.port = true ∨ Refused ctx input := by
  constructor
  · rintro ⟨hobeys, -⟩
    by_cases htarget : blocks ctx target.host target.ip target.port = true
    · exact .inl htarget
    · exact .inr (refused_of_obeys (by simpa using htarget) hobeys)
  · intro hwhen
    refine ⟨?_, Socks.Association.obeys clientIp⟩
    rcases hwhen with htarget | hrefused
    · intro start' events a hstart
      rw [start, if_pos htarget] at hstart
      cases hstart
    · exact obeys_of_refused hspelt hrefused

/-- A packet of two bytes for the blocked 1.2.3.4, as the client sends it. -/
def blockedQuery : List UInt8 := [1, 1, 2, 3, 4, 0, 53, 0, 2, 0x0d, 0x0a, 9, 9]

def blockedPacket : UdpPacket := ⟨"1.2.3.4".toList, some (.v4 (.new 1 2 3 4)), 53, [9, 9]⟩

theorem carries_blockedQuery {p : UdpPacket} (hp : Carries sampleMatching blockedQuery p) :
    p = blockedPacket := by
  have hfirst : readPacket sampleMatching blockedQuery = .ok (blockedPacket, []) := by decide
  cases hp with
  | head hread => exact (Prod.mk.inj (Except.ok.inj (hread.symm.trans hfirst))).1
  | tail hread hrest =>
      -- after it the stream is at its end
      obtain ⟨-, rfl⟩ := Prod.mk.inj (Except.ok.inj (hread.symm.trans hfirst))
      have hend : readPacket sampleMatching [] = .error .unexpectedEof := rfl
      cases hrest with
      | head hread => cases hread.symm.trans hend
      | tail hread _ => cases hread.symm.trans hend

theorem direct_packets_audited :
    Obeys directContext otherTarget blockedQuery ∧
      Socks.Association.Obeys directContext (.v4 (.new 7 7 7 7)) := by
  apply (@udp_audited_iff_refused _ directContext _ otherTarget (.v4 (.new 7 7 7 7)) ?_).mpr
  · refine .inr ?_
    intro p hp _ roll lookup
    rw [carries_blockedQuery hp]
    exact ⟨_, rfl⟩
  · intro p hp
    rw [carries_blockedQuery hp]
    rfl

/-- Where everything is redirected, a packet for the blocked 1.2.3.4 is handed to
a session. -/
theorem blocked_packet_redirected :
    ∃ start' a, start relayContext otherTarget blockedQuery = some start' ∧
      Run.exec (step relayContext) start' [.packet 0 relayResolver] = some a ∧
      blockedPacket ∈ a.handed ∧ ¬ Passes relayContext blockedPacket := by
  refine ⟨_, _, rfl, rfl, by decide, ?_⟩
  rw [Passes]
  decide

end Association

end Trojan

end Elise
