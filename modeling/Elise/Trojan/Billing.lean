/-
Elise/Trojan/Billing.lean

UDP associations of Trojan (`handle_trojan_udp` in src/protocol/trojan/server.rs).

The client sends packets over its stream, each with its own destination.  The reader takes them
one by one and hands them to a session for the destination, which it opens if there is none; the
sessions put their answers on one queue, and the writer writes them to the client.  A session is
for one destination, and what waits for it was sent to that destination (`destinations_apart`).

Reader and writer are raced: when one of them is complete the association is over, and what the
other one has counted is dropped.  So what the other direction has relayed is not billed, and
the bill is right exactly when that is nothing (`udp_billed_iff_one_sided`).  The environment
chooses the order of all steps, what the DNS answers and which calls fail.
-/
import Elise.Lib.AssocMap
import Elise.Lib.HostText
import Elise.Lib.Run
import Elise.Lib.Wire
import Elise.Router.UdpOutbound

namespace Elise

namespace Trojan

open Net

def maxTrojanUdpPayload : Nat := 8192

/-- A packet of the client. -/
structure UdpPacket where
  host : List Char
  ip : Option IpAddr
  port : UInt16
  payload : List UInt8
  deriving DecidableEq

/-- Why the reader leaves its loop. -/
inductive PacketError where
  | unexpectedEof
  | invalidType
  | missingCrlf
  | tooLong
  deriving DecidableEq, Repr

section

variable (env : Matching)

def readDestination : Reader PacketError (List Char × Option IpAddr) := do
  let atyp ← Reader.readByte .unexpectedEof
  if atyp = 0x01 then
    let ipv4 ← Reader.readExact .unexpectedEof 4
    let ip := IpAddr.v4 (ipv4At ipv4 0)
    pure (ip.chars, some ip)
  else if atyp = 0x03 then
    let len ← Reader.readByte .unexpectedEof
    let domain ← Reader.readExact .unexpectedEof len.toNat
    let host := Text.fromUtf8Lossy domain
    pure (host, env.parseIp host)
  else if atyp = 0x04 then
    let ipv6 ← Reader.readExact .unexpectedEof 16
    let ip := IpAddr.v6 (ipv6At ipv6 0)
    pure (ip.chars, some ip)
  else throw .invalidType

/-- The next packet of the stream. -/
def readPacket : Reader PacketError UdpPacket := do
  let (host, ip) ← readDestination env
  let port ← Reader.readU16 .unexpectedEof
  let len ← Reader.readU16 .unexpectedEof
  let crlf ← Reader.readExact .unexpectedEof 2
  if crlf ≠ [0x0d, 0x0a] then throw .missingCrlf
  if maxTrojanUdpPayload < len.toNat then throw .tooLong
  let payload ← Reader.readExact .unexpectedEof len.toNat
  pure ⟨host, ip, port, payload⟩

end

/-- The packet that carries an answer. -/
def replyPacket (source : Address) (data : List UInt8) : List UInt8 :=
  let head :=
    match source with
    | .socketAddress addr =>
        match addr.ip with
        | .v4 v4 => 0x01 :: v4.octets ++ toBeBytes 2 addr.port.toNat
        | .v6 v6 => 0x04 :: v6.octets ++ toBeBytes 2 addr.port.toNat
    | .domainNameAddress host port =>
        let name := Text.toUtf8 host
        0x03 :: UInt8.ofNat name.length :: name ++ toBeBytes 2 port.toNat
  head ++ toBeBytes 2 data.length ++ [0x0d, 0x0a] ++ data

/-- The task of a session: the destination and the outbound that was dialled for it, what waits in
`req_rx`, and whether it is over. -/
structure SessionTask where
  host : List Char
  port : UInt16
  udpOutbound : UdpOutbound
  reqRx : List (List UInt8)
  /-- What was given to `udp_outbound.send`. -/
  sent : List (List UInt8)
  closed : Bool

/-- Which of the two has completed. -/
inductive EndedBy where
  | reader
  | writer
  deriving DecidableEq, Repr

structure Association where
  /-- What the client sends and the reader has not read. -/
  input : List UInt8
  sessions : AssocMap (List Char × UInt16) Nat
  tasks : List SessionTask
  /-- What waits in `response_rx`. -/
  responseRx : List (List UInt8)
  /-- The counters are `u64` in the source, and no association comes to 2^64 bytes. -/
  upBytes : Nat
  downBytes : Nat
  /-- A write to the client has failed. -/
  writerStopped : Bool
  ended : Option EndedBy
  /-- The calls of `on_traffic`. -/
  calls : List (Nat × Nat)
  /-- The packets that were handed to a session. -/
  handed : List UdpPacket
  /-- The packets that were written to the client. -/
  written : List (List UInt8)

inductive Event where
  /-- The reader reads a packet.  It comes with what the router draws and what
  the DNS knows. -/
  | packet (roll : Nat) (lookup : Resolver)
  /-- The reader leaves its loop: at a malformed packet, at the end of the stream,
  or after 60 seconds. -/
  | readerEnds
  /-- A session receives an answer. -/
  | reply (task : Nat) (source : Address) (data : List UInt8)
  /-- A session sends what was handed to it. -/
  | relay (task : Nat)
  | taskEnds (task : Nat)
  /-- The writer writes the next packet. -/
  | write (ok : Bool)
  | writerEnds

namespace Association

section

variable {env : Matching} (ctx : InboundContext env)

/-- `ctx.audit.should_block` for a destination. -/
def blocks (host : List Char) (ip : Option IpAddr) (port : UInt16) : Bool :=
  ctx.audit.shouldBlock ctx.geo host ip port

/-- The association begins, unless its first target is blocked. -/
def start (target : Target) (input : List UInt8) : Option Association :=
  if blocks ctx target.host target.ip target.port then none
  else some ⟨input, ∅, [], [], 0, 0, false, none, [], [], []⟩

/-- `tx.is_closed()`. -/
def isClosed (a : Association) (g : Nat) : Bool :=
  match a.tasks[g]? with
  | none => true
  | some t => t.closed

/-- `try_send`: a full or closed channel takes nothing. -/
def trySend (a : Association) (g : Nat) (payload : List UInt8) : Association :=
  match a.tasks[g]? with
  | none => a
  | some t =>
      if t.closed ∨ 128 ≤ t.reqRx.length then a
      else { a with tasks := a.tasks.set g { t with reqRx := t.reqRx ++ [payload] } }

/-- A packet is handed to a session and counted. -/
def hand (a : Association) (g : Nat) (p : UdpPacket) : Association :=
  let a := a.trySend g p.payload
  { a with upBytes := a.upBytes + (p.payload.length + 7), handed := a.handed ++ [p] }

/-- The outbound for a packet. -/
def outboundFor (p : UdpPacket) (roll : Nat) : OutboundConfig :=
  matchOutbound ctx.geo ctx.routes roll ⟨ctx.nodeId, "udp".toList, p.host, p.ip, p.port⟩

/-- `dial_udp_outbound` for a packet. -/
def dial (p : UdpPacket) (roll : Nat) (lookup : Resolver) : Except UdpDialError UdpOutbound :=
  OutboundDialer.dialUdpOutbound ctx.geo ctx.audit (dnsResolve env lookup) (outboundFor ctx p roll)
    p.host p.port

/-- With 1024 sessions, those whose tasks are over are forgotten. -/
def prune (a : Association) : Association :=
  if 1024 ≤ a.sessions.len then
    { a with sessions := a.sessions.retain fun _ g => !a.isClosed g }
  else a

/-- A task is spawned for the session of a packet. -/
def spawn (a : Association) (p : UdpPacket) (udpOutbound : UdpOutbound) : Association :=
  { a with tasks := a.tasks ++ [⟨p.host, p.port, udpOutbound, [], [], false⟩]
           sessions := a.sessions.insert (p.host, p.port) a.tasks.length }

/-- A session is opened, if there is room and the dial succeeds. -/
def openSession (a : Association) (p : UdpPacket) (roll : Nat) (lookup : Resolver) : Association :=
  let a := a.prune
  if 1024 ≤ a.sessions.len then a
  else
    match dial ctx p roll lookup with
    | .error _ => a
    | .ok udpOutbound => (a.spawn p udpOutbound).hand a.tasks.length p

/-- The reader has read a packet. -/
def receive (a : Association) (p : UdpPacket) (roll : Nat) (lookup : Resolver) : Association :=
  match a.sessions.get (p.host, p.port) with
  | none => a.openSession ctx p roll lookup
  | some g => if a.isClosed g then a.openSession ctx p roll lookup else a.hand g p

end

/-- `select!` is over, and the traffic is reported. -/
def finish (a : Association) (side : EndedBy) : Association :=
  let totalUp := if side = .reader then a.upBytes else 0
  let totalDown := if side = .writer then a.downBytes else 0
  { a with ended := some side
           calls := if 0 < totalUp ∨ 0 < totalDown then [(totalUp, totalDown)] else [] }

/-- **One step of an association.** -/
def step {env : Matching} (ctx : InboundContext env) (a : Association) : Event → Option Association
  | .packet roll lookup =>
      if a.ended.isSome then none
      else
        match readPacket env a.input with
        | .error _ => none
        | .ok (p, rest) => some ({ a with input := rest }.receive ctx p roll lookup)
  | .readerEnds => if a.ended.isSome then none else some (a.finish .reader)
  | .reply g source data =>
      if a.isClosed g ∨ a.ended.isSome ∨ data = [] ∨ maxTrojanUdpPayload < data.length ∨
          256 ≤ a.responseRx.length then none
      else some { a with responseRx := a.responseRx ++ [replyPacket source data] }
  | .relay g =>
      match a.tasks[g]? with
      | none => none
      | some t =>
          match t.reqRx with
          | [] => none
          | payload :: rest =>
              if t.closed then none
              else some { a with tasks := a.tasks.set g { t with reqRx := rest, sent := t.sent ++ [payload] } }
  | .taskEnds g =>
      match a.tasks[g]? with
      | none => none
      | some t => some { a with tasks := a.tasks.set g { t with closed := true } }
  | .write ok =>
      match a.responseRx with
      | [] => none
      | packet :: rest =>
          if a.ended.isSome ∨ a.writerStopped then none
          else if ok then
            some { a with responseRx := rest, downBytes := a.downBytes + packet.length
                          written := a.written ++ [packet] }
          else some { a with responseRx := rest, writerStopped := true }
  | .writerEnds =>
      if a.ended.isNone ∧ a.writerStopped then some (a.finish .writer) else none

variable {env : Matching} {ctx : InboundContext env}

variable (ctx) in
/-- All that a step can do. -/
inductive Stepped (a : Association) : Event → Association → Prop
  | packet {p : UdpPacket} {rest : List UInt8} (roll : Nat) (lookup : Resolver) (hended : a.ended = none)
      (hread : readPacket env a.input = .ok (p, rest)) :
      Stepped a (.packet roll lookup) ({ a with input := rest }.receive ctx p roll lookup)
  | readerEnds (hended : a.ended = none) : Stepped a .readerEnds (a.finish .reader)
  | reply (g : Nat) (source : Address) {data : List UInt8} (hopen : a.isClosed g = false)
      (hended : a.ended = none) (hne : data ≠ []) (hlen : data.length ≤ maxTrojanUdpPayload)
      (hroom : a.responseRx.length < 256) :
      Stepped a (.reply g source data) { a with responseRx := a.responseRx ++ [replyPacket source data] }
  | relay {g : Nat} {t : SessionTask} {payload : List UInt8} {rest : List (List UInt8)}
      (htask : a.tasks[g]? = some t) (hreq : t.reqRx = payload :: rest) (hopen : t.closed = false) :
      Stepped a (.relay g)
        { a with tasks := a.tasks.set g { t with reqRx := rest, sent := t.sent ++ [payload] } }
  | taskEnds {g : Nat} {t : SessionTask} (htask : a.tasks[g]? = some t) :
      Stepped a (.taskEnds g) { a with tasks := a.tasks.set g { t with closed := true } }
  | write {packet : List UInt8} {rest : List (List UInt8)} (hwaiting : a.responseRx = packet :: rest)
      (hended : a.ended = none) (hgoes : a.writerStopped = false) :
      Stepped a (.write true) { a with
        responseRx := rest, downBytes := a.downBytes + packet.length, written := a.written ++ [packet] }
  | writeFails {packet : List UInt8} {rest : List (List UInt8)} (hwaiting : a.responseRx = packet :: rest)
      (hended : a.ended = none) (hgoes : a.writerStopped = false) :
      Stepped a (.write false) { a with responseRx := rest, writerStopped := true }
  | writerEnds (hended : a.ended = none) (hstopped : a.writerStopped = true) :
      Stepped a .writerEnds (a.finish .writer)

theorem stepped_of_step {a a' : Association} {e : Event} (hstep : a.step ctx e = some a') :
    Stepped ctx a e a' := by
  cases e with
  | packet roll lookup =>
      simp only [step] at hstep
      split_ifs at hstep with hended
      split at hstep
      · cases hstep
      · rename_i p rest hread
        obtain rfl := Option.some.inj hstep
        exact .packet roll lookup (by simpa using hended) hread
  | readerEnds =>
      simp only [step] at hstep
      split_ifs at hstep with hended
      obtain rfl := Option.some.inj hstep
      exact .readerEnds (by simpa using hended)
  | reply g source data =>
      simp only [step] at hstep
      split_ifs at hstep with hguard
      obtain rfl := Option.some.inj hstep
      simp only [not_or, Bool.not_eq_true, Option.isSome_eq_false_iff, Option.isNone_iff_eq_none, not_lt,
        not_le] at hguard
      obtain ⟨hopen, hended, hne, hlen, hroom⟩ := hguard
      exact .reply g source hopen hended hne hlen hroom
  | relay g =>
      simp only [step] at hstep
      split at hstep
      · cases hstep
      · rename_i t htask
        split at hstep
        · cases hstep
        · rename_i payload rest hreq
          split_ifs at hstep with hclosed
          obtain rfl := Option.some.inj hstep
          exact .relay htask hreq (by simpa using hclosed)
  | taskEnds g =>
      simp only [step] at hstep
      split at hstep
      · cases hstep
      · rename_i t htask
        obtain rfl := Option.some.inj hstep
        exact .taskEnds htask
  | write ok =>
      simp only [step] at hstep
      split at hstep
      · cases hstep
      · rename_i packet rest hwaiting
        split_ifs at hstep with hguard hok
        all_goals
          obtain rfl := Option.some.inj hstep
          simp only [not_or, Bool.not_eq_true, Option.isSome_eq_false_iff, Option.isNone_iff_eq_none] at hguard
        · subst hok
          exact .write hwaiting hguard.1 hguard.2
        · obtain rfl := Bool.eq_false_of_not_eq_true hok
          exact .writeFails hwaiting hguard.1 hguard.2
  | writerEnds =>
      simp only [step] at hstep
      split_ifs at hstep with hguard
      obtain rfl := Option.some.inj hstep
      exact .writerEnds (Option.isNone_iff_eq_none.mp hguard.1) hguard.2

/-- What is counted for the packets of the client. -/
def handedBytes (a : Association) : Nat := (a.handed.map fun p => p.payload.length + 7).sum

/-- What was written to the client. -/
def writtenBytes (a : Association) : Nat := (a.written.map List.length).sum

/-- The calls of `on_traffic` add up to what was relayed. -/
def Billed (a : Association) : Prop :=
  (a.calls.map Prod.fst).sum = a.handedBytes ∧ (a.calls.map Prod.snd).sum = a.writtenBytes

/-- Nothing was relayed in the direction that has not completed. -/
def OneSided (a : Association) : EndedBy → Prop
  | .reader => a.written = []
  | .writer => a.handed = []

/-! ### The counters -/

/-- The counters follow what is relayed, and the calls come at the end. -/
structure Counts (a : Association) : Prop where
  up : a.upBytes = a.handedBytes
  down : a.downBytes = a.writtenBytes
  written : ∀ packet ∈ a.written, packet ≠ []
  waiting : ∀ packet ∈ a.responseRx, packet ≠ []
  calls : ∀ side ∈ a.ended, a.calls = (a.finish side).calls

theorem replyPacket_ne_nil (source : Address) (data : List UInt8) :
    replyPacket source data ≠ [] := by
  unfold replyPacket
  simp

theorem trySend_counts (a : Association) (g : Nat) (payload : List UInt8) :
    (a.trySend g payload).upBytes = a.upBytes ∧ (a.trySend g payload).downBytes = a.downBytes ∧
      (a.trySend g payload).handed = a.handed ∧ (a.trySend g payload).written = a.written ∧
      (a.trySend g payload).responseRx = a.responseRx ∧ (a.trySend g payload).ended = a.ended ∧
      (a.trySend g payload).calls = a.calls := by
  rw [trySend]
  split
  · exact ⟨rfl, rfl, rfl, rfl, rfl, rfl, rfl⟩
  · split <;> exact ⟨rfl, rfl, rfl, rfl, rfl, rfl, rfl⟩

variable {a a' : Association}

/-- A packet is counted as it is handed on. -/
theorem Counts.hand (h : Counts a) (hended : a.ended = none) (g : Nat) (p : UdpPacket) :
    Counts (a.hand g p) := by
  obtain ⟨hup, hdown, hhanded, hwritten, hwaiting, hsame, -⟩ := trySend_counts a g p.payload
  refine ⟨?_, ?_, ?_, ?_, ?_⟩
  · show (a.trySend g p.payload).upBytes + (p.payload.length + 7) =
      (((a.trySend g p.payload).handed ++ [p]).map fun p => p.payload.length + 7).sum
    rw [hup, hhanded, h.up, List.map_append, List.sum_append]
    rfl
  · show (a.trySend g p.payload).downBytes = ((a.trySend g p.payload).written.map List.length).sum
    rw [hdown, hwritten]
    exact h.down
  · show ∀ packet ∈ (a.trySend g p.payload).written, packet ≠ []
    rw [hwritten]
    exact h.written
  · show ∀ packet ∈ (a.trySend g p.payload).responseRx, packet ≠ []
    rw [hwaiting]
    exact h.waiting
  · intro side hside
    have hsome : (a.trySend g p.payload).ended = some side := hside
    rw [hsame, hended] at hsome
    cases hsome

/-- The sessions and their tasks are not counted. -/
theorem Counts.of_sessions (h : Counts a) (input : List UInt8)
    (sessions : AssocMap (List Char × UInt16) Nat) (tasks : List SessionTask) :
    Counts { a with input := input, sessions := sessions, tasks := tasks } :=
  ⟨h.up, h.down, h.written, h.waiting, h.calls⟩

theorem Counts.spawn (h : Counts a) (p : UdpPacket) (udpOutbound : UdpOutbound) :
    Counts (a.spawn p udpOutbound) :=
  h.of_sessions _ _ _

theorem Counts.openSession (h : Counts a) (hended : a.ended = none) (p : UdpPacket) (roll : Nat)
    (lookup : Resolver) : Counts (a.openSession ctx p roll lookup) := by
  have hprune : Counts a.prune ∧ a.prune.ended = none := by
    rw [prune]
    split
    · exact ⟨h.of_sessions _ _ _, hended⟩
    · exact ⟨h, hended⟩
  unfold Association.openSession
  dsimp only
  split
  · exact hprune.1
  · split
    · exact hprune.1
    · exact (hprune.1.spawn p _).hand hprune.2 _ p

theorem Counts.receive (h : Counts a) (hended : a.ended = none) (p : UdpPacket) (roll : Nat)
    (lookup : Resolver) : Counts (a.receive ctx p roll lookup) := by
  rw [Association.receive]
  split
  · exact h.openSession hended p roll lookup
  · split
    · exact h.openSession hended p roll lookup
    · exact h.hand hended _ p

theorem Counts.finish (h : Counts a) (side : EndedBy) : Counts (a.finish side) := by
  refine ⟨h.up, h.down, h.written, h.waiting, ?_⟩
  intro other hother
  obtain rfl := Option.some.inj hother
  rfl

/-- **Every step keeps the counters.** -/
theorem Counts.step (h : Counts a) {e : Event} (hstep : a.step ctx e = some a') : Counts a' := by
  cases stepped_of_step hstep with
  | @packet p rest roll lookup hended _ =>
      exact (h.of_sessions rest a.sessions a.tasks).receive hended p roll lookup
  | readerEnds _ => exact h.finish .reader
  | reply g source _ _ _ _ _ =>
      refine ⟨h.up, h.down, h.written, ?_, h.calls⟩
      intro packet hmem
      rcases List.mem_append.mp hmem with hmem | hmem
      · exact h.waiting packet hmem
      · rw [List.mem_singleton.mp hmem]
        exact replyPacket_ne_nil source _
  | relay _ _ _ => exact h.of_sessions a.input a.sessions _
  | taskEnds _ => exact h.of_sessions a.input a.sessions _
  | @write packet rest hwaiting hended _ =>
      have hmem : ∀ other ∈ packet :: rest, other ≠ [] := hwaiting ▸ h.waiting
      refine ⟨h.up, ?_, ?_, fun other ho => hmem other (List.mem_cons_of_mem _ ho), ?_⟩
      · show a.downBytes + packet.length = ((a.written ++ [packet]).map List.length).sum
        rw [h.down, List.map_append, List.sum_append]
        rfl
      · intro other ho
        rcases List.mem_append.mp ho with ho | ho
        · exact h.written other ho
        · rw [List.mem_singleton.mp ho]
          exact hmem packet List.mem_cons_self
      · -- the association goes on
        intro side hside
        have hsome : a.ended = some side := hside
        rw [hended] at hsome
        cases hsome
  | @writeFails packet rest hwaiting _ _ =>
      have hmem : ∀ other ∈ packet :: rest, other ≠ [] := hwaiting ▸ h.waiting
      exact ⟨h.up, h.down, h.written, fun other ho => hmem other (List.mem_cons_of_mem _ ho), h.calls⟩
  | writerEnds _ _ => exact h.finish .writer

theorem counts_start {target : Target} {input : List UInt8} (h : start ctx target input = some a) :
    Counts a := by
  rw [start] at h
  split at h
  · cases h
  · obtain rfl := Option.some.inj h
    exact ⟨rfl, rfl, nofun, nofun, nofun⟩

/-! ### The bill -/

theorem handedBytes_eq_zero : a.handedBytes = 0 ↔ a.handed = [] := by
  constructor
  · intro hzero
    cases hhanded : a.handed with
    | nil => rfl
    | cons p rest =>
        rw [handedBytes, hhanded, List.map_cons, List.sum_cons] at hzero
        omega
  · intro hnil
    rw [handedBytes, hnil]
    rfl

theorem Counts.writtenBytes_eq_zero (h : Counts a) : a.writtenBytes = 0 ↔ a.written = [] := by
  constructor
  · intro hzero
    cases hwritten : a.written with
    | nil => rfl
    | cons packet rest =>
        have hne : packet ≠ [] := by
          apply h.written
          rw [hwritten]
          exact List.mem_cons_self
        have hpos := List.length_pos_iff.mpr hne
        rw [writtenBytes, hwritten, List.map_cons, List.sum_cons] at hzero
        omega
  · intro hnil
    rw [writtenBytes, hnil]
    rfl

/-- What the calls add up to. -/
theorem sum_finish (a : Association) (side : EndedBy) :
    ((a.finish side).calls.map Prod.fst).sum = (if side = .reader then a.upBytes else 0) ∧
      ((a.finish side).calls.map Prod.snd).sum = if side = .writer then a.downBytes else 0 := by
  simp only [Association.finish]
  generalize (if side = .reader then a.upBytes else 0) = up
  generalize (if side = .writer then a.downBytes else 0) = down
  split
  · exact ⟨rfl, rfl⟩
  · rename_i hnone
    obtain ⟨hup, hdown⟩ := not_or.mp hnone
    refine ⟨?_, ?_⟩
    · show 0 = up
      omega
    · show 0 = down
      omega

/-- **The bill is exact when one side was silent.**  However an association has
run and ended, the calls of `on_traffic` add up, in each direction, to what was
relayed, if and only if nothing was relayed in the direction that had not
completed. -/
theorem udp_billed_iff_one_sided (target : Target) (input : List UInt8) (start' : Association)
    (hstart : start ctx target input = some start') (events : List Event) (a : Association)
    (hrun : Run.exec (Association.step ctx) start' events = some a) (side : EndedBy)
    (hended : a.ended = some side) : a.Billed ↔ a.OneSided side := by
  have hcounts : Counts a :=
    Run.exec_preserves (fun h hstep => Counts.step h hstep) hrun (counts_start hstart)
  obtain ⟨hup, hdown⟩ := sum_finish a side
  rw [Billed, hcounts.calls side hended, hup, hdown]
  cases side with
  | reader =>
      rw [if_pos rfl, if_neg (by decide), OneSided, ← hcounts.writtenBytes_eq_zero]
      constructor
      · rintro ⟨-, hzero⟩
        exact hzero.symm
      · intro hzero
        exact ⟨hcounts.up, hzero.symm⟩
  | writer =>
      rw [if_neg (by decide), if_pos rfl, OneSided, ← handedBytes_eq_zero]
      constructor
      · rintro ⟨hzero, -⟩
        exact hzero.symm
      · intro hzero
        exact ⟨hzero.symm, hcounts.down⟩

/-- A query of two bytes for 5.6.7.8, as the client sends it. -/
def sentQuery : List UInt8 := [1, 5, 6, 7, 8, 0, 53, 0, 2, 0x0d, 0x0a, 9, 9]

def otherTarget : Target := ⟨"5.6.7.8".toList, some (.v4 (.new 5 6 7 8)), 53⟩

theorem query_is_billed :
    ∃ start' a, start relayContext otherTarget sentQuery = some start' ∧
      Run.exec (Association.step relayContext) start' [.packet 0 relayResolver, .readerEnds] = some a ∧
      a.handed.length = 1 ∧ a.Billed := by
  refine ⟨_, _, rfl, rfl, by decide, ?_⟩
  exact (@udp_billed_iff_one_sided _ relayContext otherTarget sentQuery _ rfl
    [.packet 0 relayResolver, .readerEnds] _ rfl .reader rfl).mpr rfl

/-- A query is handed on and its answer is written; then the client leaves, and
the answer is not billed. -/
theorem answer_not_billed :
    ∃ start' a, start relayContext otherTarget sentQuery = some start' ∧
      Run.exec (Association.step relayContext) start'
        [.packet 0 relayResolver,
          .reply 0 (.socketAddress (.v4 (.new 5 6 7 8) 53)) [7, 7, 7], .write true,
          .readerEnds] = some a ∧
      a.ended = some .reader ∧ a.calls = [(9, 0)] ∧ a.writtenBytes = 14 ∧ ¬ a.Billed := by
  refine ⟨_, _, rfl, rfl, rfl, by decide, by decide, ?_⟩
  rw [Billed]
  decide

/-! ### Sessions -/

/-- The payloads of the packets that were handed on for a destination. -/
def payloadsFor (a : Association) (key : List Char × UInt16) : List (List UInt8) :=
  (a.handed.filter fun p => (p.host, p.port) = key).map (·.payload)

variable (ctx) in
/-- Each task has an outbound that was dialled for a packet to its destination, and what it has sent and
what waits for it came in such packets, in their order; the table leads from a destination to a task of
it. -/
structure Apart (a : Association) : Prop where
  dialled : ∀ t ∈ a.tasks, ∃ p ∈ a.handed, (p.host, p.port) = (t.host, t.port) ∧
    ∃ roll lookup, dial ctx p roll lookup = .ok t.udpOutbound
  table : ∀ {key g}, a.sessions.get key = some g → ∃ t, a.tasks[g]? = some t ∧ (t.host, t.port) = key
  relayed : ∀ t ∈ a.tasks, (t.sent ++ t.reqRx).Sublist (a.payloadsFor (t.host, t.port))
  room : a.sessions.len ≤ 1024

/-- No task changes its destination or its outbound, and what was sent stays sent. -/
def Keeps (a a' : Association) : Prop :=
  ∀ (g : Nat) (t : SessionTask), a.tasks[g]? = some t → ∃ t', a'.tasks[g]? = some t' ∧
    (t'.host, t'.port) = (t.host, t.port) ∧ t'.udpOutbound = t.udpOutbound ∧ t.sent <+: t'.sent

theorem Keeps.of_tasks (htasks : a'.tasks = a.tasks) : Keeps a a' := by
  intro g t htask
  refine ⟨t, ?_, rfl, rfl, List.prefix_rfl⟩
  rw [htasks, htask]

theorem Keeps.trans {b : Association} (h : Keeps a b) (h' : Keeps b a') : Keeps a a' := by
  intro g t htask
  obtain ⟨u, hu, hkey, hout, hsent⟩ := h g t htask
  obtain ⟨v, hv, hkey', hout', hsent'⟩ := h' g u hu
  exact ⟨v, hv, hkey'.trans hkey, hout'.trans hout, hsent.trans hsent'⟩

/-- One task goes on. -/
theorem Keeps.of_set {g : Nat} {t t' : SessionTask} (htask : a.tasks[g]? = some t)
    (htasks : a'.tasks = a.tasks.set g t') (hkey : (t'.host, t'.port) = (t.host, t.port))
    (hout : t'.udpOutbound = t.udpOutbound) (hsent : t.sent <+: t'.sent) : Keeps a a' := by
  intro i u hu
  rw [htasks, List.getElem?_set]
  split
  · rename_i heq
    subst heq
    obtain rfl := Option.some.inj (htask.symm.trans hu)
    rw [if_pos (List.getElem?_eq_some_iff.mp hu).1]
    exact ⟨t', rfl, hkey, hout, hsent⟩
  · exact ⟨u, hu, rfl, rfl, List.prefix_rfl⟩

theorem prune_fields (a : Association) :
    a.prune.input = a.input ∧ a.prune.ended = a.ended ∧ a.prune.tasks = a.tasks ∧
      a.prune.handed = a.handed := by
  rw [prune]
  split <;> exact ⟨rfl, rfl, rfl, rfl⟩

/-- A packet that opens a session waits in the channel of its task. -/
theorem spawn_hand (a : Association) (p : UdpPacket) (udpOutbound : UdpOutbound) {g : Nat}
    (hg : g = a.tasks.length) :
    ((a.spawn p udpOutbound).hand g p).tasks =
        a.tasks ++ [⟨p.host, p.port, udpOutbound, [p.payload], [], false⟩] ∧
      ((a.spawn p udpOutbound).hand g p).handed = a.handed ++ [p] ∧
      ((a.spawn p udpOutbound).hand g p).input = a.input ∧
      ((a.spawn p udpOutbound).hand g p).ended = a.ended ∧
      ((a.spawn p udpOutbound).hand g p).sessions = a.sessions.insert (p.host, p.port) a.tasks.length := by
  subst hg
  have hget : (a.spawn p udpOutbound).tasks[a.tasks.length]? =
      some ⟨p.host, p.port, udpOutbound, [], [], false⟩ :=
    List.getElem?_concat_length ..
  have hsend : (a.spawn p udpOutbound).trySend a.tasks.length p.payload =
      { a.spawn p udpOutbound with
        tasks := a.tasks ++ [⟨p.host, p.port, udpOutbound, [p.payload], [], false⟩] } := by
    rw [trySend, hget]
    simp [spawn]
  rw [hand, hsend]
  exact ⟨rfl, rfl, rfl, rfl, rfl⟩

/-- More packets for a destination have more payloads. -/
theorem payloadsFor_sublist (hhanded : a.handed <+: a'.handed) (key : List Char × UInt16) :
    (a.payloadsFor key).Sublist (a'.payloadsFor key) :=
  (hhanded.sublist.filter _).map _

theorem payloadsFor_of_handed {p : UdpPacket} (hhanded : a'.handed = a.handed ++ [p]) :
    a'.payloadsFor (p.host, p.port) = a.payloadsFor (p.host, p.port) ++ [p.payload] := by
  rw [payloadsFor, hhanded, List.filter_append, List.map_append]
  simp [payloadsFor]

namespace Apart

/-- Packets are handed on, and nothing else changes about the sessions. -/
theorem of_handed (h : Apart ctx a) (htasks : a'.tasks = a.tasks) (hsessions : a'.sessions = a.sessions)
    (hhanded : a.handed <+: a'.handed) : Apart ctx a' := by
  refine ⟨?_, ?_, ?_, hsessions ▸ h.room⟩
  · intro t ht
    rw [htasks] at ht
    obtain ⟨p, hp, hdial⟩ := h.dialled t ht
    exact ⟨p, hhanded.subset hp, hdial⟩
  · intro key g hget
    rw [hsessions] at hget
    rw [htasks]
    exact h.table hget
  · intro t ht
    rw [htasks] at ht
    exact (h.relayed t ht).trans (payloadsFor_sublist hhanded _)

/-- One task goes on, with payloads of packets for its destination. -/
theorem of_set (h : Apart ctx a) {g : Nat} {t t' : SessionTask} (htask : a.tasks[g]? = some t)
    (hkey : (t'.host, t'.port) = (t.host, t.port)) (hout : t'.udpOutbound = t.udpOutbound)
    (hrelayed : (t'.sent ++ t'.reqRx).Sublist (a.payloadsFor (t.host, t.port))) :
    Apart ctx { a with tasks := a.tasks.set g t' } := by
  have hmem : t ∈ a.tasks := List.mem_of_getElem? htask
  refine ⟨?_, ?_, ?_, h.room⟩
  · intro u hu
    rcases List.mem_or_eq_of_mem_set hu with hold | rfl
    · exact h.dialled u hold
    · rw [hkey, hout]
      exact h.dialled t hmem
  · intro key i hget
    obtain ⟨u, hu, hdestination⟩ := h.table hget
    show ∃ v, (a.tasks.set g t')[i]? = some v ∧ (v.host, v.port) = key
    rw [List.getElem?_set]
    split
    · rename_i heq
      subst heq
      obtain rfl := Option.some.inj (htask.symm.trans hu)
      rw [if_pos (List.getElem?_eq_some_iff.mp hu).1]
      exact ⟨t', rfl, hkey.trans hdestination⟩
    · exact ⟨u, hu, hdestination⟩
  · intro u hu
    rcases List.mem_or_eq_of_mem_set hu with hold | rfl
    · exact h.relayed u hold
    · rw [hkey]
      exact hrelayed

/-- A packet is handed to a task of its destination. -/
theorem hand (h : Apart ctx a) {g : Nat} {t : SessionTask} {p : UdpPacket} (htask : a.tasks[g]? = some t)
    (hkey : (t.host, t.port) = (p.host, p.port)) : Apart ctx (a.hand g p) ∧ Keeps a (a.hand g p) := by
  have hmore : Apart ctx { a with upBytes := a.upBytes + (p.payload.length + 7), handed := a.handed ++ [p] } :=
    h.of_handed rfl rfl (List.prefix_append _ _)
  rw [Association.hand, trySend, htask]
  dsimp only
  split
  · exact ⟨hmore, .of_tasks rfl⟩
  · have hrelayed : (t.sent ++ (t.reqRx ++ [p.payload])).Sublist
        (Association.payloadsFor { a with upBytes := a.upBytes + (p.payload.length + 7), handed := a.handed ++ [p] }
          (t.host, t.port)) := by
      rw [hkey, payloadsFor_of_handed rfl, ← hkey, ← List.append_assoc]
      exact (h.relayed t (List.mem_of_getElem? htask)).append (List.Sublist.refl _)
    have hkeeps : Keeps a { a with
        upBytes := a.upBytes + (p.payload.length + 7), handed := a.handed ++ [p],
        tasks := a.tasks.set g { t with reqRx := t.reqRx ++ [p.payload] } } :=
      .of_set htask rfl rfl rfl List.prefix_rfl
    exact ⟨hmore.of_set htask rfl rfl hrelayed, hkeeps⟩

theorem prune (h : Apart ctx a) : Apart ctx a.prune := by
  rw [Association.prune]
  split
  · refine ⟨h.dialled, ?_, h.relayed, (AssocMap.len_retain_le _ _).trans h.room⟩
    intro key g hget
    rw [AssocMap.get_retain] at hget
    exact h.table (Option.filter_eq_some_iff.mp hget).1
  · exact h

/-- A packet opens a session. -/
theorem spawn_hand (h : Apart ctx a) {p : UdpPacket} {roll : Nat} {lookup : Resolver} {out : UdpOutbound}
    (hdial : dial ctx p roll lookup = .ok out) (hroom : a.sessions.len < 1024) :
    Apart ctx ((a.spawn p out).hand a.tasks.length p) ∧ Keeps a ((a.spawn p out).hand a.tasks.length p) := by
  obtain ⟨htasks, hhanded, -, -, hsessions⟩ := Association.spawn_hand a p out rfl
  have hprefix : a.handed <+: ((a.spawn p out).hand a.tasks.length p).handed := by
    rw [hhanded]
    exact List.prefix_append _ _
  refine ⟨⟨?_, ?_, ?_, ?_⟩, ?_⟩
  · intro t ht
    rw [htasks] at ht
    rcases List.mem_append.mp ht with hold | hnew
    -- the packet of an old task was handed on before; the new task has this one
    · obtain ⟨q, hq, hdialled⟩ := h.dialled t hold
      exact ⟨q, hprefix.subset hq, hdialled⟩
    · obtain rfl := List.mem_singleton.mp hnew
      refine ⟨p, ?_, rfl, roll, lookup, hdial⟩
      rw [hhanded]
      exact List.mem_append_right _ (List.mem_singleton_self p)
  · intro key g hget
    rw [hsessions] at hget
    rw [htasks]
    -- the table leads to the new task, or to an old one, which has kept its place
    rcases AssocMap.get_insert_eq_some hget with ⟨rfl, rfl⟩ | ⟨-, hold⟩
    · exact ⟨_, List.getElem?_concat_length, rfl⟩
    · obtain ⟨t, htask, hkey⟩ := h.table hold
      refine ⟨t, ?_, hkey⟩
      rw [List.getElem?_append_left (List.getElem?_eq_some_iff.mp htask).1, htask]
  · intro t ht
    rw [htasks] at ht
    rcases List.mem_append.mp ht with hold | hnew
    · exact (h.relayed t hold).trans (payloadsFor_sublist hprefix _)
    · obtain rfl := List.mem_singleton.mp hnew
      show [p.payload].Sublist (payloadsFor _ (p.host, p.port))
      rw [payloadsFor_of_handed hhanded]
      exact List.sublist_append_right _ _
  · rw [hsessions, AssocMap.len_insert]
    split <;> omega
  · intro g t htask
    refine ⟨t, ?_, rfl, rfl, List.prefix_rfl⟩
    rw [htasks, List.getElem?_append_left (List.getElem?_eq_some_iff.mp htask).1, htask]

theorem openSession (h : Apart ctx a) (p : UdpPacket) (roll : Nat) (lookup : Resolver) :
    Apart ctx (a.openSession ctx p roll lookup) ∧ Keeps a (a.openSession ctx p roll lookup) := by
  have hpruned := h.prune
  have hkeeps : Keeps a a.prune := .of_tasks (prune_fields a).2.2.1
  rw [Association.openSession]
  split
  · exact ⟨hpruned, hkeeps⟩
  · rename_i hroom
    split
    · exact ⟨hpruned, hkeeps⟩
    · rename_i out hdial
      obtain ⟨hopen, hmore⟩ := hpruned.spawn_hand hdial (Nat.lt_of_not_le hroom)
      exact ⟨hopen, hkeeps.trans hmore⟩

theorem receive (h : Apart ctx a) (p : UdpPacket) (roll : Nat) (lookup : Resolver) :
    Apart ctx (a.receive ctx p roll lookup) ∧ Keeps a (a.receive ctx p roll lookup) := by
  rw [Association.receive]
  split
  · exact h.openSession p roll lookup
  · rename_i g hget
    split
    · exact h.openSession p roll lookup
    · obtain ⟨t, htask, hkey⟩ := h.table hget
      exact h.hand htask hkey

/-- **Every step keeps the destinations apart.** -/
theorem step (h : Apart ctx a) {e : Event} (hstep : a.step ctx e = some a') : Apart ctx a' ∧ Keeps a a' := by
  have hsame : ∀ {b : Association}, b.sessions = a.sessions → b.tasks = a.tasks → b.handed = a.handed →
      Apart ctx b ∧ Keeps a b := by
    intro b hsessions htasks hhanded
    exact ⟨h.of_handed htasks hsessions (hhanded ▸ List.prefix_rfl), .of_tasks htasks⟩
  cases stepped_of_step hstep with
  | @packet p rest roll lookup _ _ =>
      obtain ⟨hread, hkeeps⟩ := @hsame { a with input := rest } rfl rfl rfl
      obtain ⟨hdone, hmore⟩ := hread.receive p roll lookup
      exact ⟨hdone, hkeeps.trans hmore⟩
  | readerEnds _ => exact hsame rfl rfl rfl
  | reply _ _ _ _ _ _ _ => exact hsame rfl rfl rfl
  | @relay g t payload rest htask hreq _ =>
      refine ⟨h.of_set htask rfl rfl ?_, .of_set htask rfl rfl rfl (List.prefix_append _ _)⟩
      -- the payload moves from the one list to the other
      have hrelayed := h.relayed t (List.mem_of_getElem? htask)
      rw [hreq] at hrelayed
      rw [List.append_assoc]
      exact hrelayed
  | @taskEnds g t htask =>
      exact ⟨h.of_set htask rfl rfl (h.relayed t (List.mem_of_getElem? htask)),
        .of_set htask rfl rfl rfl List.prefix_rfl⟩
  | write _ _ _ => exact hsame rfl rfl rfl
  | writeFails _ _ _ => exact hsame rfl rfl rfl
  | writerEnds _ _ => exact hsame rfl rfl rfl

end Apart

theorem apart_start {target : Target} {input : List UInt8} (h : start ctx target input = some a) :
    Apart ctx a := by
  rw [start] at h
  split at h
  · cases h
  · obtain rfl := Option.some.inj h
    refine ⟨?_, ?_, ?_, Nat.zero_le _⟩
    · intro t ht
      cases ht
    · intro key g hget
      cases hget
    · intro t ht
      cases ht

/-- **Destinations are kept apart**, in every run.  Each task of a UDP association serves the destination
that its outbound was dialled for, with payloads of packets for this destination, and does so as long as
the association goes on; the table leads from a destination to a task of it, and there are never more
than 1024 sessions. -/
theorem destinations_apart (target : Target) (input : List UInt8) (start' : Association)
    (hstart : start ctx target input = some start') (events later : List Event) (a a' : Association)
    (hrun : Run.exec (Association.step ctx) start' events = some a)
    (hlater : Run.exec (Association.step ctx) a later = some a') : Apart ctx a ∧ Keeps a a' := by
  have hapart : Apart ctx a :=
    Run.exec_preserves (fun h hstep => (Apart.step h hstep).1) hrun (apart_start hstart)
  -- the second run starts where the first has ended
  have hboth : Apart ctx a' ∧ Keeps a a' := by
    refine @Run.exec_preserves _ _ (Association.step ctx) (fun b => Apart ctx b ∧ Keeps a b) ?_ _ _ _ hlater
      ⟨hapart, .of_tasks rfl⟩
    rintro b e b' ⟨h, hkeeps⟩ hstep
    obtain ⟨h', hmore⟩ := h.step hstep
    exact ⟨h', hkeeps.trans hmore⟩
  exact ⟨hapart, hboth.2⟩

/-- Queries for 5.6.7.8, for 5.6.7.9 and for 5.6.7.8 again. -/
def sentQueries : List UInt8 :=
  sentQuery ++ [1, 5, 6, 7, 9, 0, 53, 0, 1, 0x0d, 0x0a, 8] ++ [1, 5, 6, 7, 8, 0, 53, 0, 1, 0x0d, 0x0a, 7]

/-- Two tasks, of which the first has sent its first query and gets the last one. -/
theorem query_kept_apart :
    ∃ start' a a', start relayContext otherTarget sentQueries = some start' ∧
      Run.exec (Association.step relayContext) start'
        [.packet 0 relayResolver, .relay 0, .packet 0 relayResolver, .packet 0 relayResolver] = some a ∧
      Run.exec (Association.step relayContext) a [.relay 1, .relay 0] = some a' ∧
      (a.tasks.map fun t => (t.host, t.sent, t.reqRx)) =
        [("5.6.7.8".toList, [[9, 9]], [[7]]), ("5.6.7.9".toList, [], [[8]])] ∧
      Apart relayContext a ∧ Keeps a a' := by
  refine ⟨_, _, _, rfl, rfl, rfl, by decide, ?_⟩
  exact @destinations_apart _ relayContext otherTarget sentQueries _ rfl
    [.packet 0 relayResolver, .relay 0, .packet 0 relayResolver, .packet 0 relayResolver] [.relay 1, .relay 0]
    _ _ rfl rfl

end Association

end Trojan

end Elise
