/-
Elise/Anytls/Framing.lean

What a stream of AnyTLS asks for, and whether it depends on the frames its bytes
come in (the PSH of src/protocol/anytls/session.rs, with
`run_anytls_stream_worker` and `run_anytls_uot_worker`).

The session reads the target of a stream from the first frame alone, and the worker
of a connection looks for a name in what is left of this frame.  The worker of UDP
over TCP puts the frames together (`uotDecode` is incremental).  So two ways of
cutting the bytes of a stream come to the same just if both first frames hold the
whole target or neither does, and the names that are found lead to the same call
(`framing_free_iff`).
-/
import Elise.Anytls.Worker
import Elise.Inbound.Requests
import Elise.Inbound.Sniffed
import Elise.Lib.Decoder

namespace Elise

namespace Anytls

open Net FirstMatch

/-! ### Workers -/

/-- What the handlers get of a target. -/
def Target.read (target : Target) : Elise.Target := ⟨target.host.read.1, target.host.read.2, target.port⟩

/-- What is dialed for a stream, and what is forwarded if the dial succeeds and the
other side takes it. -/
inductive Upstream where
  | nothing
  | tcp (call : DialCall) (bytes : List UInt8)
  | udp (call : DialCall) (packets : List (List UInt8))

/-- A request of UDP over TCP: whether it says that it is connected, and for which
target. -/
structure UotRequest where
  isConnect : Bool
  dest : Target
  deriving DecidableEq

/-- The request at the front of a buffer, once it is complete. -/
def uotRequest (buffer : List UInt8) : Option (UotRequest × List UInt8) :=
  if buffer.length < 2 then none
  else (parseSocks5Addr (buffer.drop 1)).map fun parsed => (⟨byteAt buffer 0 = 1, parsed.1⟩, parsed.2)

/-- Where `run_anytls_uot_worker` is. -/
inductive UotPhase where
  | request
  | relaying
  deriving DecidableEq, Repr

/-- What it takes off its buffer. -/
inductive UotItem where
  | request (request : UotRequest)
  | packet (data : List UInt8)
  deriving DecidableEq

/-- One item of the buffer; the loops receive a chunk when there is none. -/
def uotDecode : UotPhase → List UInt8 → Decoder.Answer UotPhase UInt8 UotItem Empty
  | .request, buffer =>
      match uotRequest buffer with
      | some (request, pendingData) => .frame (.request request) .relaying pendingData
      | none => .more .request buffer
  | .relaying, buffer =>
      match uotNext buffer with
      | .sending packet rest => .frame (.packet packet) .relaying rest
      | _ => .more .relaying buffer

def UotItem.packet? : UotItem → Option (List UInt8)
  | .request _ => none
  | .packet data => some data

section

variable {env : Matching} (ctx : InboundContext env) (roll : Nat)

/-- The name in the initial payload. -/
def sniffedIn (initialPayload : List UInt8) : Option (List Char) :=
  if ctx.domainSniff ∧ initialPayload ≠ [] then (sniffDomain initialPayload).map Prod.fst else none

/-- The audit, the router and the call of `dial_udp_outbound`. -/
def uotCall (dest : Target) : Option DialCall :=
  let host := dest.read.host
  let ip := dest.read.ip
  if ctx.audit.shouldBlock ctx.geo host ip dest.port then none
  else some ⟨matchOutbound ctx.geo ctx.routes roll ⟨ctx.nodeId, "udp".toList, host, ip, dest.port⟩, host, dest.port⟩

def runAnytlsStreamWorker (target : Target) (initialPayload : List UInt8) (chunks : List (List UInt8)) :
    Upstream :=
  match callDial ctx target.read roll (sniffedIn ctx initialPayload) with
  | none => .nothing
  | some call => .tcp call (initialPayload ++ chunks.flatten)

def runAnytlsUotWorker (initialPayload : List UInt8) (chunks : List (List UInt8)) : Upstream :=
  match (Decoder.feedAll uotDecode .request (initialPayload :: chunks)).frames.map Prod.fst with
  | .request request :: items =>
      match uotCall ctx roll request.dest with
      | none => .nothing
      | some call => .udp call (items.filterMap UotItem.packet?)
  | _ => .nothing

/-- The worker that the session spawns. -/
def runWorker (target : Target) (initialPayload : List UInt8) (chunks : List (List UInt8)) : Upstream :=
  if target.isUot then runAnytlsUotWorker ctx roll initialPayload chunks
  else runAnytlsStreamWorker ctx roll target initialPayload chunks

/-! ### The session -/

def Effect.delivered? : Effect → Option (List UInt8)
  | .deliver _ payload => some payload
  | _ => none

/-- What the effects of a stream come to: the worker that is spawned gets what is
delivered later. -/
def upstream : List Effect → Upstream
  | [] => .nothing
  | .spawn _ target initialPayload :: more =>
      runWorker ctx roll target initialPayload (more.filterMap Effect.delivered?)
  | _ :: more => upstream more

end

/-- The PSH frames of a stream, one after the other. -/
def Session.pshAll (s : Session) (streamId : UInt32) : List (List UInt8) → List Effect
  | [] => []
  | payload :: more => (s.psh streamId payload).2 ++ (s.psh streamId payload).1.pshAll streamId more

namespace Session

variable {s : Session} {streamId : UInt32}

theorem pshAll_active (h : s.streams.get streamId = some .active) (payloads : List (List UInt8)) :
    s.pshAll streamId payloads = payloads.map (.deliver streamId) := by
  induction payloads with
  | nil => rfl
  | cons payload more ih =>
      have hpsh : s.psh streamId payload = (s, [.deliver streamId payload]) := by
        rw [psh, h]
      rw [pshAll, hpsh, ih]
      rfl

theorem pshAll_none (h : s.streams.get streamId = none) (payloads : List (List UInt8)) :
    s.pshAll streamId payloads = [] := by
  induction payloads with
  | nil => rfl
  | cons payload more ih =>
      have hpsh : s.psh streamId payload = (s, []) := by
        rw [psh, h]
      rw [pshAll, hpsh, ih]
      rfl

end Session

/-! ### Incremental reading -/

/-- A target that is complete stays the same. -/
theorem parseSocks5Addr_append {data rest : List UInt8} {target : Target}
    (h : parseSocks5Addr data = some (target, rest)) (more : List UInt8) :
    parseSocks5Addr (data ++ more) = some (target, rest ++ more) := by
  cases data with
  | nil => cases h
  | cons kind fields =>
      rw [List.cons_append, parseSocks5Addr]
      rw [parseSocks5Addr] at h
      have hlen : (kind :: (fields ++ more)).length = (kind :: fields).length + more.length := by
        rw [← List.cons_append, List.length_append]
      have hcons : kind :: (fields ++ more) = (kind :: fields) ++ more := rfl
      dsimp only at h ⊢
      rw [hlen, hcons]
      generalize kind :: fields = data at *
      split_ifs at h with h4 hshort hdomain hhead hbody h6 hshort
      · obtain ⟨rfl, rfl⟩ := Prod.mk.inj (Option.some.inj h)
        rw [if_pos h4, if_neg (by omega), ipv4At_append_left more (by omega),
          u16At_append_left more (by omega), List.drop_append_of_le_length (by omega)]
      · obtain ⟨rfl, rfl⟩ := Prod.mk.inj (Option.some.inj h)
        rw [if_neg h4, if_pos hdomain, if_neg (by omega), byteAt_append_left more (by omega),
          if_neg (by omega), bytesAt_append_left more (by omega), u16At_append_left more (by omega),
          List.drop_append_of_le_length (by omega)]
      · obtain ⟨rfl, rfl⟩ := Prod.mk.inj (Option.some.inj h)
        rw [if_neg h4, if_neg hdomain, if_pos h6, if_neg (by omega), ipv6At_append_left more (by omega),
          u16At_append_left more (by omega), List.drop_append_of_le_length (by omega)]

/-- A target takes bytes. -/
theorem length_parseSocks5Addr {data rest : List UInt8} {target : Target}
    (h : parseSocks5Addr data = some (target, rest)) : rest.length < data.length := by
  cases data with
  | nil => cases h
  | cons kind fields =>
      rw [parseSocks5Addr] at h
      dsimp only at h
      have hpos : 0 < (kind :: fields).length := Nat.succ_pos _
      generalize kind :: fields = data at *
      split_ifs at h
      all_goals
        obtain ⟨rfl, rfl⟩ := Prod.mk.inj (Option.some.inj h)
        rw [List.length_drop]
        omega

theorem uotRequest_append {buffer rest : List UInt8} {request : UotRequest}
    (h : uotRequest buffer = some (request, rest)) (more : List UInt8) :
    uotRequest (buffer ++ more) = some (request, rest ++ more) := by
  rw [uotRequest] at h
  split_ifs at h with hshort
  obtain ⟨⟨dest, pending⟩, hparse, hrequest⟩ := Option.map_eq_some_iff.mp h
  obtain ⟨rfl, rfl⟩ := Prod.mk.inj hrequest
  rw [uotRequest, if_neg (by rw [List.length_append]; omega), List.drop_append_of_le_length (by omega),
    parseSocks5Addr_append hparse more, byteAt_append_left more (by omega)]
  rfl

theorem length_uotRequest {buffer rest : List UInt8} {request : UotRequest}
    (h : uotRequest buffer = some (request, rest)) : rest.length < buffer.length := by
  rw [uotRequest] at h
  split_ifs at h with hshort
  obtain ⟨⟨dest, pending⟩, hparse, hrequest⟩ := Option.map_eq_some_iff.mp h
  obtain ⟨rfl, rfl⟩ := Prod.mk.inj hrequest
  have hless := length_parseSocks5Addr hparse
  rw [List.length_drop] at hless
  show pending.length < buffer.length
  omega

/-- A packet that is complete stays the same. -/
theorem uotNext_append {buffer packet rest : List UInt8} (h : uotNext buffer = .sending packet rest)
    (more : List UInt8) : rest.length < buffer.length ∧
      uotNext (buffer ++ more) = .sending packet (rest ++ more) := by
  rw [uotNext] at h
  split_ifs at h with hshort
  obtain ⟨rfl, rfl⟩ := UpTask.sending.inj h
  have hfit := not_or.mp hshort
  rw [uotNext, u16At_append_left more (by omega)]
  rw [if_neg (by rw [List.length_append]; omega)]
  constructor
  · rw [List.length_drop]
    omega
  · rw [List.drop_append_of_le_length (by omega), List.drop_append_of_le_length (by omega),
      List.take_append_of_le_length]
    rw [List.length_drop]
    omega

/-- The worker of UDP over TCP reads the same however its bytes are cut. -/
theorem incremental_uotDecode : Decoder.Incremental uotDecode := by
  apply Decoder.Incremental.of_resume
  · intro phase
    cases phase with
    | request => rfl
    | relaying => rfl
  · intro phase src item phase' rest h
    cases phase with
    | request =>
        rw [uotDecode] at h
        split at h
        · rename_i request pending hrequest
          cases h
          exact length_uotRequest hrequest
        · cases h
    | relaying =>
        rw [uotDecode] at h
        split at h
        · rename_i packet rest hnext
          cases h
          exact (uotNext_append hnext []).1
        · cases h
  · intro phase src more
    cases phase with
    | request =>
        rw [uotDecode.eq_1 src]
        cases hrequest : uotRequest src with
        | none => rfl
        | some parsed =>
            obtain ⟨request, pending⟩ := parsed
            rw [uotDecode, uotRequest_append hrequest more]
            rfl
    | relaying =>
        rw [uotDecode.eq_2 src]
        cases hnext : uotNext src with
        | sending packet rest =>
            rw [uotDecode, (uotNext_append hnext more).2]
            rfl
        | receiving buffer => rfl
        | writing chunk done => rfl
        | closing => rfl
        | ended => rfl

/-! ### What decides -/

section

variable {env : Matching} (ctx : InboundContext env) (roll : Nat)

/-- The question to the router under a name. -/
def streamQuestion (target : Target) (name : List Char) : MatchContext :=
  ⟨ctx.nodeId, "tcp".toList, name, target.read.ip, target.port⟩

/-- The audit, the router and the dialer treat two names alike: both are blocked or
neither is; and then the first entry or rule that accepts one of them leads both to
the same outbound, and they are the same name if it is the name that is dialed. -/
def NamesAlike (target : Target) (name name' : List Char) : Prop :=
  ctx.audit.shouldBlock ctx.geo name target.read.ip target.port =
      ctx.audit.shouldBlock ctx.geo name' target.read.ip target.port ∧
    (ctx.audit.shouldBlock ctx.geo name target.read.ip target.port = false →
      SameDecision ctx.routes.fallback (ctx.routes.leadsTo ctx.geo roll (streamQuestion ctx target name))
        (ctx.routes.leadsTo ctx.geo roll (streamQuestion ctx target name')) ctx.routes.alternatives ∧
      (ctx.sniffRedirect = true → name = name'))

/-- The name that the audit and the router are asked about. -/
def matchHost (target : Target) (initialPayload : List UInt8) : List Char :=
  (sniffedIn ctx initialPayload).getD target.read.host

/-- A stream for which nothing is dialed although its target is read: the audit
blocks it, or the request of UDP over TCP is never complete. -/
def Declined (target : Target) (initialPayload rest : List UInt8) : Prop :=
  if target.isUot then
    ∀ request pendingData, uotRequest rest = some (request, pendingData) →
      ctx.audit.shouldBlock ctx.geo request.dest.read.host request.dest.read.ip request.dest.port = true
  else ctx.audit.shouldBlock ctx.geo (matchHost ctx target initialPayload) target.read.ip target.port = true

/-- What the session reads of the first frame: the target, and the rest of the
frame. -/
def firstTarget (cut : List (List UInt8)) : Option (Target × List UInt8) := parseSocks5Addr (cut.head?.getD [])

/-- When two ways of cutting the bytes of a stream come to the same. -/
def CutsAlike (cut cut' : List (List UInt8)) : Prop :=
  match firstTarget cut, firstTarget cut' with
  | none, none => True
  | some (target, initialPayload), some (_, initialPayload') =>
      target.isUot ∨
        NamesAlike ctx roll target (matchHost ctx target initialPayload) (matchHost ctx target initialPayload')
  | some (target, initialPayload), none =>
      Declined ctx target initialPayload (initialPayload ++ cut.tail.flatten)
  | none, some (target, initialPayload) =>
      Declined ctx target initialPayload (initialPayload ++ cut'.tail.flatten)

end

section

variable {env : Matching} {ctx : InboundContext env} {roll : Nat}

theorem upstream_replies (frames : List (List UInt8)) : upstream ctx roll (frames.map .reply) = .nothing := by
  induction frames with
  | nil => rfl
  | cons frame frames ih => exact ih

/-- The session goes by the first frame. -/
theorem upstream_pshAll {s : Session} {streamId : UInt32}
    (hwaiting : s.streams.get streamId = some .waitingForDestination) (cut : List (List UInt8)) :
    upstream ctx roll (s.pshAll streamId cut) = match firstTarget cut with
      | none => .nothing
      | some (target, initialPayload) => runWorker ctx roll target initialPayload cut.tail := by
  cases cut with
  | nil => rfl
  | cons first more =>
      show _ = match parseSocks5Addr first with
        | none => Upstream.nothing
        | some (target, initialPayload) => runWorker ctx roll target initialPayload more
      cases hparse : parseSocks5Addr first with
      | none =>
          -- the stream is gone, and the rest of its frames is passed over
          have hgone : (s.psh streamId first).1.streams.get streamId = none := by
            rw [Session.psh, hwaiting, hparse]
            exact (AssocMap.get_erase _ _ _).trans (if_pos rfl)
          obtain ⟨frames, hreplies⟩ : ∃ frames : List (List UInt8),
              (s.psh streamId first).2 = frames.map .reply := by
            rw [Session.psh, hwaiting, hparse]
            dsimp only
            split
            · exact ⟨[_, _], rfl⟩
            · exact ⟨[_], rfl⟩
          rw [Session.pshAll, Session.pshAll_none hgone, List.append_nil, hreplies]
          exact upstream_replies frames
      | some parsed =>
          obtain ⟨target, initialPayload⟩ := parsed
          have hpsh : s.psh streamId first =
              ({ s with streams := s.streams.insert streamId .active },
                [.spawn streamId target initialPayload]) := by
            rw [Session.psh, hwaiting, hparse]
          have hactive : (s.psh streamId first).1.streams.get streamId = some .active := by
            rw [hpsh]
            exact (AssocMap.get_insert _ _ _ _).trans (if_pos rfl)
          rw [Session.pshAll, Session.pshAll_active hactive, hpsh]
          show runWorker ctx roll target initialPayload
            ((more.map (Effect.deliver streamId)).filterMap Effect.delivered?) = _
          rw [List.filterMap_map]
          congr 1
          exact List.filterMap_some

/-- Two names lead to the same call just if they are treated alike. -/
theorem callDial_congr_iff (target : Target) (sniffed sniffed' : Option (List Char)) :
    callDial ctx target.read roll sniffed = callDial ctx target.read roll sniffed' ↔
      NamesAlike ctx roll target (sniffed.getD target.read.host) (sniffed'.getD target.read.host) := by
  generalize hname : sniffed.getD target.read.host = name
  generalize hname' : sniffed'.getD target.read.host = name'
  rw [NamesAlike, ← firstMatch_eq_iff, ← matchOutbound_eq_firstMatch, ← matchOutbound_eq_firstMatch,
    callDial, callDial, hname, hname']
  have hport : target.read.port = target.port := rfl
  rw [hport]
  cases ctx.audit.shouldBlock ctx.geo name target.read.ip target.port with
  | true =>
      cases ctx.audit.shouldBlock ctx.geo name' target.read.ip target.port <;> simp
  | false =>
      cases ctx.audit.shouldBlock ctx.geo name' target.read.ip target.port with
      | true => simp
      | false =>
          cases ctx.sniffRedirect <;>
            simp [streamQuestion]

/-- Only what the audit blocks is not dialed. -/
theorem callDial_eq_none_iff (target : Target) (initialPayload : List UInt8) :
    callDial ctx target.read roll (sniffedIn ctx initialPayload) = none ↔
      ctx.audit.shouldBlock ctx.geo (matchHost ctx target initialPayload) target.read.ip target.port = true := by
  rw [callDial, matchHost]
  dsimp only
  have hport : target.read.port = target.port := rfl
  rw [hport]
  split_ifs with h
  · exact iff_of_true rfl h
  · exact iff_of_false not_false h

/-- What UDP over TCP comes to depends on all its bytes only. -/
theorem runAnytlsUotWorker_eq (initialPayload : List UInt8) (chunks : List (List UInt8)) :
    runAnytlsUotWorker ctx roll initialPayload chunks =
      runAnytlsUotWorker ctx roll (initialPayload ++ chunks.flatten) [] := by
  rw [runAnytlsUotWorker, runAnytlsUotWorker, incremental_uotDecode.feedAll_eq, incremental_uotDecode.feedAll_eq,
    List.flatten_singleton, List.flatten_cons]

/-- Nothing is dialed as long as the request is not complete, or if the audit
blocks it. -/
theorem runAnytlsUotWorker_eq_nothing_iff (bytes : List UInt8) :
    runAnytlsUotWorker ctx roll bytes [] = .nothing ↔
      ∀ request pendingData, uotRequest bytes = some (request, pendingData) →
        ctx.audit.shouldBlock ctx.geo request.dest.read.host request.dest.read.ip request.dest.port = true := by
  rw [runAnytlsUotWorker, incremental_uotDecode.feedAll_eq, List.flatten_singleton]
  cases hrequest : uotRequest bytes with
  | none =>
      have hmore : uotDecode .request bytes = .more .request bytes := by
        rw [uotDecode, hrequest]
      rw [Decoder.drain_of_more hmore]
      exact iff_of_true rfl nofun
  | some parsed =>
      obtain ⟨request, pendingData⟩ := parsed
      have hframe : uotDecode .request bytes = .frame (.request request) .relaying pendingData := by
        rw [uotDecode, hrequest]
      rw [incremental_uotDecode.drain_of_frame hframe]
      show (match uotCall ctx roll request.dest with
        | none => Upstream.nothing
        | some call => .udp call _) = .nothing ↔ _
      rw [uotCall]
      split_ifs with hblocked
      · refine iff_of_true rfl ?_
        rintro _ _ ⟨⟩
        exact hblocked
      · exact iff_of_false nofun fun h => hblocked (h request pendingData rfl)

theorem runWorker_eq_nothing_iff (target : Target) (initialPayload : List UInt8) (chunks : List (List UInt8)) :
    runWorker ctx roll target initialPayload chunks = .nothing ↔
      Declined ctx target initialPayload (initialPayload ++ chunks.flatten) := by
  rw [runWorker, Declined]
  split
  · rw [runAnytlsUotWorker_eq]
    exact runAnytlsUotWorker_eq_nothing_iff _
  · rw [← @callDial_eq_none_iff env ctx roll, runAnytlsStreamWorker]
    cases callDial ctx target.read roll (sniffedIn ctx initialPayload) with
    | none => exact iff_of_true rfl rfl
    | some call => exact iff_of_false nofun nofun

/-- The bytes behind the target. -/
theorem parseSocks5Addr_flatten {cut : List (List UInt8)} {target : Target} {initialPayload : List UInt8}
    (h : firstTarget cut = some (target, initialPayload)) :
    parseSocks5Addr cut.flatten = some (target, initialPayload ++ cut.tail.flatten) := by
  cases cut with
  | nil => cases h
  | cons first more => exact parseSocks5Addr_append h more.flatten

/-- **Two ways of cutting the bytes of a stream come to the same** just if both
first frames hold the whole target or neither does, unless nothing is dialed
anyway; and, for a connection, if the names in what is left of the first frames are
treated alike. -/
theorem framing_free_iff {env : Matching} (ctx : InboundContext env) (roll : Nat) {s : Session}
    {streamId : UInt32} (hwaiting : s.streams.get streamId = some .waitingForDestination)
    {cut cut' : List (List UInt8)} (hsame : cut.flatten = cut'.flatten) :
    upstream ctx roll (s.pshAll streamId cut) = upstream ctx roll (s.pshAll streamId cut') ↔
      CutsAlike ctx roll cut cut' := by
  rw [upstream_pshAll hwaiting, upstream_pshAll hwaiting, CutsAlike]
  cases hfirst : firstTarget cut with
  | none =>
      cases hfirst' : firstTarget cut' with
      | none => exact iff_of_true rfl trivial
      | some parsed =>
          obtain ⟨target, initialPayload⟩ := parsed
          exact eq_comm.trans (runWorker_eq_nothing_iff target initialPayload cut'.tail)
  | some parsed =>
      obtain ⟨target, initialPayload⟩ := parsed
      cases hfirst' : firstTarget cut' with
      | none => exact runWorker_eq_nothing_iff target initialPayload cut.tail
      | some parsed' =>
          obtain ⟨target', initialPayload'⟩ := parsed'
          have hwhole := parseSocks5Addr_flatten hfirst
          rw [hsame, parseSocks5Addr_flatten hfirst'] at hwhole
          obtain ⟨rfl, hrest⟩ := Prod.mk.inj (Option.some.inj hwhole)
          show runWorker ctx roll target' initialPayload cut.tail =
            runWorker ctx roll target' initialPayload' cut'.tail ↔ _
          rw [runWorker, runWorker]
          by_cases huot : target'.isUot = true
          · rw [if_pos huot, if_pos huot, runAnytlsUotWorker_eq, ← hrest, ← runAnytlsUotWorker_eq]
            exact iff_of_true rfl (Or.inl huot)
          · rw [if_neg huot, if_neg huot, runAnytlsStreamWorker, runAnytlsStreamWorker, hrest]
            show _ ↔ target'.isUot = true ∨ NamesAlike ctx roll target' (matchHost ctx target' initialPayload)
              (matchHost ctx target' initialPayload')
            rw [or_iff_right huot, matchHost, matchHost, ← callDial_congr_iff]
            cases callDial ctx target'.read roll (sniffedIn ctx initialPayload) with
            | none =>
                cases callDial ctx target'.read roll (sniffedIn ctx initialPayload') <;> simp
            | some call =>
                cases callDial ctx target'.read roll (sniffedIn ctx initialPayload') <;> simp

end

/-- A session whose client has opened a stream. -/
def waitingSession : Session := { Session.new 0 with streams := AssocMap.insert ∅ 1 .waitingForDestination }

theorem get_waitingSession : waitingSession.streams.get 1 = some .waitingForDestination :=
  (AssocMap.get_insert _ _ _ _).trans (if_pos rfl)

/-- 5.6.7.8:80 and one byte. -/
def shortStream : List UInt8 := [0x01, 5, 6, 7, 8, 0, 80, 9]

def shortTarget : Target := ⟨.ip (.v4 (ipv4At shortStream 1)), u16At shortStream 5⟩

/-- A stream whose first frame holds the target comes to the same however the rest
of its bytes is cut. -/
theorem framing_free_shortStream :
    upstream relayContext 0 (waitingSession.pshAll 1 [shortStream]) =
      upstream relayContext 0 (waitingSession.pshAll 1 [shortStream.take 7, shortStream.drop 7]) := by
  apply (framing_free_iff relayContext 0 get_waitingSession (by decide)).mpr
  right
  show NamesAlike relayContext 0 shortTarget (matchHost relayContext shortTarget [9])
    (matchHost relayContext shortTarget [])
  have hname : matchHost relayContext shortTarget [9] = matchHost relayContext shortTarget [] := by
    decide +kernel
  rw [hname]
  exact (callDial_congr_iff shortTarget none none).mp rfl

/-- 1.2.3.4:80, which is blocked, and a request for a host that is not. -/
def liftedStream : List UInt8 := [0x01, 1, 2, 3, 4, 0, 80] ++ requestFor "good.example"

/-- With a target that is cut in two nothing is dialed; and a target that is
blocked by itself is dialed if a request comes in its frame. -/
theorem cuts_differ :
    (upstream relayContext 0 (waitingSession.pshAll 1 [shortStream]) ≠ .nothing ∧
      upstream relayContext 0 (waitingSession.pshAll 1 [shortStream.take 3, shortStream.drop 3]) = .nothing) ∧
    (upstream relayContext 0 (waitingSession.pshAll 1 [liftedStream]) ≠ .nothing ∧
      upstream relayContext 0 (waitingSession.pshAll 1 [liftedStream.take 7, liftedStream.drop 7]) = .nothing) := by
  simp only [upstream_pshAll get_waitingSession]
  refine ⟨⟨?_, rfl⟩, ?_, ?_⟩
  · show runWorker relayContext 0 ⟨.ip (.v4 (ipv4At shortStream 1)), 80⟩ [9] [] ≠ _
    rw [Ne, runWorker_eq_nothing_iff]
    exact Bool.eq_false_iff.mp (by decide +kernel)
  · show runWorker relayContext 0 ⟨.ip (.v4 (ipv4At liftedStream 1)), 80⟩ (requestFor "good.example") [] ≠ _
    rw [Ne, runWorker_eq_nothing_iff]
    exact Bool.eq_false_iff.mp (by decide +kernel)
  · show runWorker relayContext 0 ⟨.ip (.v4 (ipv4At liftedStream 1)), 80⟩ [] [requestFor "good.example"] = _
    rw [runWorker_eq_nothing_iff]
    show relayContext.audit.shouldBlock _ _ _ _ = true
    decide +kernel

end Anytls

end Elise
