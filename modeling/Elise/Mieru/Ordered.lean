/-
Elise/Mieru/Ordered.lean

When the bridge of a UDP session delivers an ordered stream.

The bridge writes each payload as it comes and acknowledges what is behind the
last number it took, whatever is missing before it.  So the stream is in order
as long as the datagrams are: every datagram that a bridge takes is the one after
the highest taken so far, or an earlier one without a payload
(`udp_stream_ordered`).
-/
import Elise.Mieru.Transports
import Elise.Mieru.Udp

namespace Elise

namespace Mieru

variable {c : XChaCha} {key : List UInt8} {client : Client}

/-! ### The client's datagrams -/

namespace Client

/-- The payload of the open request. -/
def openPayload (c : XChaCha) (key : List UInt8) (client : Client) : List UInt8 :=
  ((opensSession c key client.openPacket).map fun opened => opened.2.2).getD []

/-- The payloads of the first segments. -/
def stream (client : Client) (k : Nat) : List UInt8 :=
  ((client.segments.take k).map (·.payload)).flatten

theorem stream_succ {k : Nat} {segment : Segment} (h : client.segments[k]? = some segment) :
    client.stream (k + 1) = client.stream k ++ segment.payload := by
  rw [stream, stream, List.take_add_one, h]
  simp

end Client

theorem bridgePacket_of_openMeta {packet : List UInt8} {m : Metadata}
    (h : openMeta c key packet = some m) :
    bridgePacket c key packet =
      if m.protocol = protocolDataC2S ∨ m.protocol = protocolDataC2SLowEntropy then
        .frame m.seq (udpPayload c key (nextNonce packet) m packet)
      else if m.protocol = protocolCloseSessionReq then .close m.seq
      else .frame m.seq [] := by
  rw [openMeta] at h
  rw [bridgePacket]
  split at h
  · cases h
  · rename_i hlong
    obtain ⟨metaBuf, hopen, rfl⟩ := Option.map_eq_some_iff.mp h
    rw [if_neg hlong]
    simp only [hopen, nextNonce]

/-- The bridge reads the number and the payload of a datagram. -/
theorem Client.Sends.bridgePacket (hclient : client.Sends c key) {i : Nat} {packet : List UInt8}
    (h : client.packets[i]? = some packet) :
    ∃ payload, client.payloads[i]? = some payload ∧
      Mieru.bridgePacket c key packet = .frame (client.openSeq + UInt32.ofNat i) payload := by
  cases i with
  | zero =>
      obtain rfl := Option.some.inj h
      obtain ⟨m, hopens, hproto, -, hseq⟩ := hclient.request
      refine ⟨[], rfl, ?_⟩
      rw [bridgePacket_of_openMeta hopens, hproto, if_neg (by decide), if_neg (by decide), hseq]
      exact congrArg (Bridged.frame · []) (UInt32.add_zero _).symm
  | succ i =>
      rw [packets, List.getElem?_cons_succ, List.getElem?_map] at h
      obtain ⟨segment, hsegment, rfl⟩ := Option.map_eq_some_iff.mp h
      obtain ⟨m, hopens, hproto, -, hseq, hpayload⟩ := hclient.segments i segment hsegment
      refine ⟨segment.payload, ?_, ?_⟩
      · rw [payloads, List.getElem?_cons_succ, List.getElem?_map, hsegment]
        rfl
      · have hplain : ¬ m.protocol = protocolDataC2SLowEntropy := by
          rw [hproto]
          decide
        rw [bridgePacket_of_openMeta hopens, if_pos (.inl hproto), hseq, ← hpayload, udpPayload]
        rcases udpOpen c key (nextNonce segment.packet) m segment.packet with - | plain
        · rfl
        · simp only [if_neg hplain, Option.getD_some]

/-- Only the open request opens the session. -/
theorem Client.Sends.opensSession (hclient : client.Sends c key) {i : Nat} {packet : List UInt8}
    {opened : UInt32 × UInt32 × List UInt8} (h : client.packets[i]? = some packet)
    (hopen : Mieru.opensSession c key packet = some opened) :
    opened = (client.sessionId, client.openSeq, client.openPayload c key) := by
  cases i with
  | zero =>
      obtain rfl := Option.some.inj h
      obtain ⟨m, hopens, hproto, hid, hseq⟩ := hclient.request
      rw [openPayload, hopen]
      simp only [Mieru.opensSession, hopens, hproto, ne_eq, not_true_eq_false, if_false] at hopen
      split at hopen
      · cases hopen
      · obtain rfl := Option.some.inj hopen
        simp only [hid, hseq, Option.map_some, Option.getD_some]
  | succ i =>
      rw [packets, List.getElem?_cons_succ, List.getElem?_map] at h
      obtain ⟨segment, hsegment, rfl⟩ := Option.map_eq_some_iff.mp h
      obtain ⟨m, hopens, hproto, -⟩ := hclient.segments i segment hsegment
      have hdata : m.protocol ≠ protocolOpenSessionReq := by
        rw [hproto]
        decide
      simp only [Mieru.opensSession, hopens, if_pos hdata] at hopen
      cases hopen

/-! ### Ordered streams -/

/-- All segments below the acknowledged number have arrived. -/
def Acked (client : Client) (arrived : List Nat) (ack : UInt32) : Prop :=
  ∀ i < (ack - (client.openSeq + 1)).toNat, i + 1 ∈ arrived

/-- Behind the payload of the open request, the stream is the first segments'
payloads, and no acknowledgement is ahead of what has arrived. -/
structure Bridge.Ordered (c : XChaCha) (key : List UInt8) (client : Client) (arrived : List Nat)
    (b : Bridge) : Prop where
  stream : ∃ k ≤ client.segments.length, b.written = client.openPayload c key ++ client.stream k
  acks : ∀ ack ∈ b.state.unackSeq :: b.acks, Acked client arrived ack

/-- The bridge whose next datagram the event takes. -/
def Server.takes (s : Server) : Event → Option Bridge
  | .take bridge => s.bridges[bridge]?
  | _ => none

/-- A datagram that is taken is the one after the highest, or an earlier one
without a payload. -/
def InOrder (client : Client) (s : Server) (e : Event) : Prop :=
  ∀ b ∈ s.takes e, ∀ datagram ∈ b.channel.head?,
    datagram = b.top + 1 ∨ datagram ≤ b.top ∧ client.payloads[datagram]? = some []

instance (client : Client) (s : Server) (e : Event) : Decidable (InOrder client s e) :=
  inferInstanceAs (Decidable (∀ b ∈ s.takes e, ∀ datagram ∈ b.channel.head?,
    datagram = b.top + 1 ∨ datagram ≤ b.top ∧ client.payloads[datagram]? = some []))

/-! ### A bridge keeps the order -/

/-- Where the stream is: all of the segments taken, but for the one that is being
written, or that was when the session went away. -/
def Bridge.StreamAt (initial : List UInt8) (client : Client) (b : Bridge) : Prop :=
  match b.down with
  | .reading => b.written = initial ++ client.stream b.top
  | .writing payload => ∃ k, k + 1 = b.top ∧ b.written = initial ++ client.stream k ∧
      client.stream k ++ payload = client.stream b.top
  | .ended => ∃ k ≤ b.top, b.written = initial ++ client.stream k

structure Bridge.InStep (initial : List UInt8) (client : Client) (arrived : List Nat) (b : Bridge) :
    Prop where
  channel : ∀ i ∈ b.channel, i ∈ arrived
  top_le : b.top ≤ client.segments.length
  arrived : ∀ i < b.top, i + 1 ∈ arrived
  stream : b.StreamAt initial client
  acks : ∀ ack ∈ b.state.unackSeq :: b.acks, (ack - (client.openSeq + 1)).toNat ≤ b.top

variable {initial : List UInt8} {arrived : List Nat} {b b' : Bridge}

/-- The number behind a datagram, counted from the open request. -/
theorem toNat_behind (openSeq : UInt32) (i : Nat) :
    (openSeq + UInt32.ofNat i + 1 - (openSeq + 1)).toNat ≤ i := by
  have hsame : openSeq + UInt32.ofNat i + 1 - (openSeq + 1) = UInt32.ofNat i := by grind
  rw [hsame, UInt32.toNat_ofNat']
  exact Nat.mod_le _ _

namespace Bridge.InStep

theorem ordered (h : b.InStep (client.openPayload c key) client arrived) :
    b.Ordered c key client arrived := by
  refine ⟨?_, fun ack hack i hi => h.arrived i (Nat.lt_of_lt_of_le hi (h.acks ack hack))⟩
  have hstream := h.stream
  have htop := h.top_le
  rw [StreamAt] at hstream
  split at hstream
  · exact ⟨b.top, htop, hstream⟩
  · obtain ⟨k, hk, hwritten, -⟩ := hstream
    exact ⟨k, by omega, hwritten⟩
  · obtain ⟨k, hk, hwritten⟩ := hstream
    exact ⟨k, by omega, hwritten⟩

theorem mono {arrived' : List Nat} (h : b.InStep initial client arrived)
    (hmore : ∀ i ∈ arrived, i ∈ arrived') : b.InStep initial client arrived' :=
  ⟨fun i hi => hmore i (h.channel i hi), h.top_le, fun i hi => hmore _ (h.arrived i hi), h.stream,
    h.acks⟩

theorem opened (sessionId : UInt32) :
    (Bridge.opened sessionId client.openSeq initial).InStep initial client arrived := by
  refine ⟨fun i hi => absurd hi List.not_mem_nil, Nat.zero_le _,
    fun i hi => absurd hi (Nat.not_lt_zero i), ?_, ?_⟩
  · show initial = initial ++ []
    rw [List.append_nil]
  · intro ack hack
    obtain rfl := List.mem_singleton.mp hack
    show (((SessionState.new sessionId).advanceRecvSeq client.openSeq).unackSeq -
      (client.openSeq + 1)).toNat ≤ 0
    rw [SessionState.unackSeq_first, UInt32.sub_self]
    rfl

theorem enqueue (h : b.InStep initial client arrived) {datagram : Nat}
    (harrived : datagram ∈ arrived) (hstep : b.enqueue datagram = some b') :
    b'.InStep initial client arrived := by
  rw [Bridge.enqueue] at hstep
  split at hstep
  · obtain rfl := Option.some.inj hstep
    exact h
  · split at hstep
    · obtain rfl := Option.some.inj hstep
      refine ⟨?_, h.top_le, h.arrived, h.stream, h.acks⟩
      intro i hi
      rcases List.mem_append.mp hi with hi | hi
      · exact h.channel i hi
      · rwa [List.mem_singleton.mp hi]
    · cases hstep

theorem write (h : b.InStep initial client arrived) {alive : Bool}
    (hstep : b.write alive = some b') : b'.InStep initial client arrived := by
  have hstream := h.stream
  rw [Bridge.write] at hstep
  rw [StreamAt] at hstream
  split at hstep
  · rename_i payload hdown
    rw [hdown] at hstream
    obtain ⟨k, hk, hwritten, hnext⟩ := hstream
    cases alive with
    | true =>
        obtain rfl := Option.some.inj hstep
        refine ⟨h.channel, h.top_le, h.arrived, ?_, h.acks⟩
        show b.written ++ payload = initial ++ client.stream b.top
        rw [hwritten, List.append_assoc, hnext]
    | false =>
        obtain rfl := Option.some.inj hstep
        exact ⟨h.channel, h.top_le, h.arrived, ⟨k, by show k ≤ b.top; omega, hwritten⟩, h.acks⟩
  · cases hstep

theorem reply (h : b.InStep initial client arrived) : b.reply.InStep initial client arrived := by
  refine ⟨h.channel, h.top_le, h.arrived, h.stream, ?_⟩
  intro ack hack
  apply h.acks
  rcases List.mem_cons.mp hack with rfl | hack
  · exact List.mem_cons_self
  · rcases List.mem_append.mp hack with hack | hack
    · exact List.mem_cons_of_mem _ hack
    · rw [List.mem_singleton.mp hack]
      exact List.mem_cons_self

theorem cancel (h : b.InStep initial client arrived) (hstep : b.cancel = some b') :
    b'.InStep initial client arrived := by
  have hstream := h.stream
  rw [Bridge.cancel] at hstep
  rw [StreamAt] at hstream
  split at hstep
  · rename_i hdown
    rw [hdown] at hstream
    obtain rfl := Option.some.inj hstep
    exact ⟨h.channel, h.top_le, h.arrived, ⟨b.top, Nat.le_refl _, hstream⟩, h.acks⟩
  · cases hstep

/-- A datagram in order. -/
theorem receive (hclient : client.Sends c key) (h : b.InStep initial client arrived)
    (hdown : b.down = .reading) {i : Nat} {rest packet : List _} (hfront : b.channel = i :: rest)
    (hpacket : client.packets[i]? = some packet)
    (horder : i = b.top + 1 ∨ i ≤ b.top ∧ client.payloads[i]? = some []) :
    (b.receive c key i packet).InStep initial client arrived := by
  obtain ⟨payload, hpayload, hread⟩ := hclient.bridgePacket hpacket
  have hstream := h.stream
  rw [StreamAt, hdown] at hstream
  have hacks : ∀ top, i ≤ top → b.top ≤ top →
      ∀ ack ∈ (b.state.advanceRecvSeq (client.openSeq + UInt32.ofNat i)).unackSeq :: b.acks,
        (ack - (client.openSeq + 1)).toNat ≤ top := by
    intro top hi htop ack hack
    rcases List.mem_cons.mp hack with rfl | hack
    · rcases SessionState.unackSeq_advanceRecvSeq b.state (client.openSeq + UInt32.ofNat i) with
        hnew | hold
      · rw [hnew]
        exact (toNat_behind _ _).trans hi
      · rw [hold]
        exact (h.acks _ List.mem_cons_self).trans htop
    · exact (h.acks ack (List.mem_cons_of_mem _ hack)).trans htop
  have hchannel : ∀ j ∈ b.channel.tail, j ∈ arrived :=
    fun j hj => h.channel j (List.mem_of_mem_tail hj)
  have hi : i ∈ arrived := h.channel i (hfront ▸ List.mem_cons_self)
  rw [Bridge.receive, hread]
  rcases horder with rfl | ⟨hle, hempty⟩
  · -- the next segment: the stream grows by its payload now or with the write
    rw [Client.payloads, List.getElem?_cons_succ, List.getElem?_map] at hpayload
    obtain ⟨segment, hsegment, rfl⟩ := Option.map_eq_some_iff.mp hpayload
    have hlt : b.top < client.segments.length := (List.getElem?_eq_some_iff.mp hsegment).1
    have hmax : max b.top (b.top + 1) = b.top + 1 := Nat.max_eq_right (Nat.le_succ _)
    have hgrown := Client.stream_succ hsegment
    refine ⟨hchannel, ?_, ?_, ?_, hacks _ (Nat.le_max_right _ _) (Nat.le_max_left _ _)⟩
    · show max b.top (b.top + 1) ≤ _
      rwa [hmax]
    · show ∀ j < max b.top (b.top + 1), j + 1 ∈ arrived
      intro j hj
      rw [hmax] at hj
      rcases Nat.lt_succ_iff_lt_or_eq.mp hj with hj | rfl
      · exact h.arrived j hj
      · exact hi
    · simp only [StreamAt, hmax]
      by_cases hnil : segment.payload = []
      · rw [if_pos hnil]
        show b.written = _
        rw [hstream, hgrown, hnil, List.append_nil]
      · rw [if_neg hnil]
        exact ⟨b.top, rfl, hstream, hgrown.symm⟩
  · -- an earlier one leaves the stream as it is
    obtain rfl : payload = [] := Option.some.inj (hpayload.symm.trans hempty)
    have hmax : max b.top i = b.top := Nat.max_eq_left hle
    refine ⟨hchannel, ?_, ?_, ?_, hacks _ (Nat.le_max_right _ _) (Nat.le_max_left _ _)⟩
    · show max b.top i ≤ _
      rw [hmax]
      exact h.top_le
    · show ∀ j < max b.top i, j + 1 ∈ arrived
      rw [hmax]
      exact h.arrived
    · simp only [StreamAt, hmax]
      exact hstream

theorem take (hclient : client.Sends c key) (h : b.InStep initial client arrived)
    (horder : ∀ i ∈ b.channel.head?,
      i = b.top + 1 ∨ i ≤ b.top ∧ client.payloads[i]? = some [])
    (hstep : b.take c key client = some b') : b'.InStep initial client arrived := by
  rw [Bridge.take] at hstep
  split at hstep
  · rename_i i rest hdown hfront
    obtain ⟨packet, hpacket, rfl⟩ := Option.map_eq_some_iff.mp hstep
    exact h.receive hclient hdown hfront hpacket (horder i (by rw [hfront]; rfl))
  · cases hstep

end Bridge.InStep

/-! ### The server keeps the order -/

/-- The datagram of a task. -/
def Task.datagram : Task → Option Nat
  | .received i => some i
  | .sending i _ => some i
  | .opening i => some i
  | .done => none

structure Server.InStep (initial : List UInt8) (client : Client) (s : Server) : Prop where
  tasks : ∀ t ∈ s.tasks, ∀ i ∈ t.datagram, i ∈ s.arrived
  bridges : ∀ b ∈ s.bridges, b.InStep initial client s.arrived

namespace Server.InStep

variable {s s' : Server}

theorem setTask (h : s.InStep initial client) {task : Nat} {t : Task}
    (ht : ∀ i ∈ t.datagram, i ∈ s.arrived) : (s.setTask task t).InStep initial client := by
  refine ⟨?_, h.bridges⟩
  intro t' ht'
  rcases List.mem_or_eq_of_mem_set ht' with hold | rfl
  · exact h.tasks t' hold
  · exact ht

theorem onBridge (h : s.InStep initial client) {bridge : Nat} {f : Bridge → Option Bridge}
    (hf : ∀ b b', s.bridges[bridge]? = some b → b.InStep initial client s.arrived → f b = some b' →
      b'.InStep initial client s.arrived)
    (hstep : s.onBridge bridge f = some s') :
    s'.InStep initial client ∧ s'.arrived = s.arrived ∧ s'.tasks = s.tasks := by
  rw [Server.onBridge] at hstep
  split at hstep
  · cases hstep
  · rename_i b hb
    obtain ⟨b', hb', rfl⟩ := Option.map_eq_some_iff.mp hstep
    refine ⟨⟨h.tasks, ?_⟩, rfl, rfl⟩
    intro b'' hb''
    rcases List.mem_or_eq_of_mem_set hb'' with hold | rfl
    · exact h.bridges b'' hold
    · exact hf b b'' hb (h.bridges b (List.mem_of_getElem? hb)) hb'

/-- Of a datagram that is looked at, the task keeps the number. -/
theorem look_datagram {i j : Nat} {packet : List UInt8}
    (hj : j ∈ (s.look c key client i packet).datagram) : j = i := by
  rw [Server.look] at hj
  have hcases : ∀ {t : Task}, j ∈ t.datagram →
      t = .opening i ∨ t = .done ∨ (∃ b, t = .sending i b) → j = i := by
    rintro t ht (rfl | rfl | ⟨b, rfl⟩)
    · exact (Option.some.inj ht).symm
    · cases ht
    · exact (Option.some.inj ht).symm
  apply hcases hj
  split
  · split
    · exact .inr (.inr ⟨_, rfl⟩)
    · split
      · exact .inl rfl
      · exact .inr (.inl rfl)
  · split
    · exact .inl rfl
    · exact .inr (.inl rfl)

theorem step (hclient : client.Sends c key) (h : s.InStep (client.openPayload c key) client)
    {e : Event} (horder : InOrder client s e) (hstep : s.step c key client e = some s') :
    s'.InStep (client.openPayload c key) client := by
  cases e with
  | arrive i =>
      rw [Server.step] at hstep
      split at hstep
      · obtain rfl := Option.some.inj hstep
        have hmore : ∀ j ∈ s.arrived, j ∈ i :: s.arrived := fun j hj => List.mem_cons_of_mem _ hj
        refine ⟨?_, fun b hb => (h.bridges b hb).mono hmore⟩
        intro t ht j hj
        rcases List.mem_append.mp ht with ht | ht
        · exact hmore j (h.tasks t ht j hj)
        · rw [List.mem_singleton.mp ht] at hj
          rw [← Option.some.inj hj]
          exact List.mem_cons_self
      · cases hstep
  | look task =>
      simp only [Server.step] at hstep
      split at hstep
      · rename_i i htask
        obtain ⟨packet, -, rfl⟩ := Option.map_eq_some_iff.mp hstep
        apply h.setTask
        intro j hj
        rw [look_datagram hj]
        exact h.tasks _ (List.mem_of_getElem? htask) i rfl
      · cases hstep
  | enqueue task =>
      simp only [Server.step] at hstep
      split at hstep
      · rename_i i bridge htask
        obtain ⟨t, ht, rfl⟩ := Option.map_eq_some_iff.mp hstep
        have hi := h.tasks _ (List.mem_of_getElem? htask) i rfl
        obtain ⟨hnew, -, -⟩ := h.onBridge (fun b b' _ hb hb' => hb.enqueue hi hb') ht
        exact hnew.setTask fun j hj => by cases hj
      · cases hstep
  | register task =>
      simp only [Server.step] at hstep
      split at hstep
      · obtain ⟨opened, hopened, rfl⟩ := Option.map_eq_some_iff.mp hstep
        obtain ⟨packet, hpacket, hopen⟩ := Option.bind_eq_some_iff.mp hopened
        obtain rfl := hclient.opensSession hpacket hopen
        have hdone : (s.setTask task .done).InStep (client.openPayload c key) client :=
          h.setTask fun j hj => by cases hj
        refine ⟨hdone.tasks, ?_⟩
        intro b hb
        rcases List.mem_append.mp hb with hb | hb
        · exact h.bridges b hb
        · rw [List.mem_singleton.mp hb]
          exact Bridge.InStep.opened client.sessionId
      · cases hstep
  | giveUp task =>
      simp only [Server.step] at hstep
      split at hstep
      · obtain rfl := Option.some.inj hstep
        exact h.setTask fun j hj => by cases hj
      · cases hstep
  | remove =>
      obtain rfl := Option.some.inj hstep
      exact ⟨h.tasks, h.bridges⟩
  | take bridge =>
      exact (h.onBridge (fun b b' hb hin hb' => hin.take hclient (horder b hb) hb') hstep).1
  | write bridge alive =>
      exact (h.onBridge (fun b b' _ hin hb' => hin.write hb') hstep).1
  | reply bridge =>
      refine (h.onBridge (fun b b' _ hin hb' => ?_) hstep).1
      obtain rfl := Option.some.inj hb'
      exact hin.reply
  | cancel bridge =>
      exact (h.onBridge (fun b b' _ hin hb' => hin.cancel hb') hstep).1

end Server.InStep

/-- **A session's stream is ordered** in every state of every run in which the
bridges take their datagrams in order, whatever arrives, is lost, delayed or
doubled besides. -/
theorem udp_stream_ordered (hclient : client.Sends c key) {es : List Event} {s : Server}
    (hrun : Run.exec (Server.step c key client) Server.new es = some s)
    (horder : Run.Along (Server.step c key client) (InOrder client) Server.new es) :
    ∀ b ∈ s.bridges, b.Ordered c key client s.arrived := by
  have hstart : Server.new.InStep (client.openPayload c key) client :=
    ⟨fun t ht => absurd ht List.not_mem_nil, fun b hb => absurd hb List.not_mem_nil⟩
  have hend : s.InStep (client.openPayload c key) client :=
    Run.exec_invariant (fun hin ho hs => hin.step hclient ho hs) hrun horder hstart
  exact fun b hb => (hend.bridges b hb).ordered

section Samples

def sessionKey : List UInt8 := List.replicate 32 7

/-- The open request of session 9, with number 100. -/
def sampleRequest : Sealed where
  key := sessionKey
  nonce := List.replicate 24 1
  buf := [179, 116, 2, 253, 156, 249, 237, 159, 61, 226, 151, 131, 39, 111, 87, 141, 183, 71, 146, 37,
    164, 116, 11, 175, 177, 31, 191, 53, 96, 233, 121, 79]
  tag := [180, 122, 10, 83, 167, 87, 19, 3, 160, 214, 193, 197, 90, 177, 238, 113]
  plain := [2, 0, 1, 176, 85, 21, 0, 0, 0, 9, 0, 0, 0, 100, 0, 0, 0, 0, 0, 0, 0, 0, 0, 0, 0, 0, 0, 0, 0,
    0, 0, 0]

/-- Segment 101 and its payload `ab`. -/
def firstMeta : Sealed where
  key := sessionKey
  nonce := List.replicate 24 2
  buf := [220, 177, 1, 76, 221, 136, 55, 135, 70, 62, 101, 129, 49, 209, 23, 243, 70, 181, 27, 10, 10,
    67, 144, 39, 187, 145, 127, 108, 220, 61, 122, 211]
  tag := [218, 124, 147, 178, 165, 150, 137, 77, 173, 228, 30, 249, 179, 184, 249, 76]
  plain := [6, 0, 1, 176, 85, 21, 0, 0, 0, 9, 0, 0, 0, 101, 0, 0, 0, 0, 0, 0, 0, 0, 0, 2, 0, 0, 0, 0, 0,
    0, 0, 0]

def firstPayload : Sealed where
  key := sessionKey
  nonce := incrementNonce (List.replicate 24 2)
  buf := [94, 145]
  tag := [88, 119, 165, 183, 42, 139, 122, 25, 167, 253, 164, 33, 45, 35, 254, 62]
  plain := [97, 98]

/-- Segment 102 and its payload `cd`. -/
def secondMeta : Sealed where
  key := sessionKey
  nonce := List.replicate 24 3
  buf := [130, 6, 74, 171, 32, 52, 198, 240, 119, 25, 67, 251, 71, 183, 206, 73, 42, 154, 112, 103, 3,
    21, 54, 23, 170, 95, 60, 13, 32, 36, 33, 186]
  tag := [72, 132, 114, 52, 214, 63, 40, 211, 8, 227, 143, 49, 35, 110, 59, 140]
  plain := [6, 0, 1, 176, 85, 21, 0, 0, 0, 9, 0, 0, 0, 102, 0, 0, 0, 0, 0, 0, 0, 0, 0, 2, 0, 0, 0, 0, 0,
    0, 0, 0]

def secondPayload : Sealed where
  key := sessionKey
  nonce := incrementNonce (List.replicate 24 3)
  buf := [161, 201]
  tag := [119, 244, 22, 230, 224, 27, 158, 181, 247, 148, 92, 19, 28, 17, 151, 165]
  plain := [99, 100]

def udpCipher : XChaCha :=
  xchachaOf [sampleRequest, firstMeta, firstPayload, secondMeta, secondPayload]

def Sealed.datagram (head payload : Sealed) : List UInt8 :=
  datagramOf head.nonce (head.buf ++ head.tag) (payload.buf ++ payload.tag)

def sampleClient : Client where
  sessionId := 9
  openSeq := 100
  openPacket := datagramOf sampleRequest.nonce (sampleRequest.buf ++ sampleRequest.tag) []
  segments := [⟨firstMeta.datagram firstPayload, firstPayload.plain⟩,
    ⟨secondMeta.datagram secondPayload, secondPayload.plain⟩]

theorem sampleClient_sends : sampleClient.Sends udpCipher sessionKey := by
  refine ⟨⟨⟨sampleRequest.plain⟩, rfl, by decide, by decide, by decide⟩, ?_⟩
  intro i segment hsegment
  match i with
  | 0 =>
      obtain rfl := Option.some.inj hsegment
      exact ⟨⟨firstMeta.plain⟩, rfl, by decide, by decide, by decide, by decide⟩
  | 1 =>
      obtain rfl := Option.some.inj hsegment
      exact ⟨⟨secondMeta.plain⟩, rfl, by decide, by decide, by decide, by decide⟩
  | i + 2 => cases hsegment

/-- The session is opened, twice, and the segments come one after the other. -/
def orderedRun : List Event :=
  [.arrive 0, .look 0, .register 0, .arrive 1, .look 1, .enqueue 1, .arrive 2, .look 2, .enqueue 2,
    .take 0, .reply 0, .write 0 true, .arrive 0, .look 3, .enqueue 3, .take 0, .write 0 true, .take 0,
    .reply 0]

/-- Where it leads. -/
def orderedEnd : Server where
  tasks := [.done, .done, .done, .done]
  bridges := [⟨⟨9, 3, 103, 103, 256, false⟩, [], .reading, [97, 98, 99, 100], [102, 103], 2⟩]
  active := some 0
  arrived := [0, 2, 1, 0]

theorem ordered_session :
    Run.exec (Server.step udpCipher sessionKey sampleClient) Server.new orderedRun =
        some orderedEnd ∧
      ∀ b ∈ orderedEnd.bridges, b.Ordered udpCipher sessionKey sampleClient orderedEnd.arrived := by
  have hrun : Run.exec (Server.step udpCipher sessionKey sampleClient) Server.new orderedRun =
      some orderedEnd := by decide
  exact ⟨hrun, udp_stream_ordered sampleClient_sends hrun (by decide)⟩

/-- The first segment is lost: the second is written in its place, and the first
is acknowledged. -/
theorem lost_segment_acked :
    ∃ s, Run.exec (Server.step udpCipher sessionKey sampleClient) Server.new
        [.arrive 0, .look 0, .register 0, .arrive 2, .look 1, .enqueue 1, .take 0, .write 0 true,
          .reply 0] = some s ∧
      ∃ b ∈ s.bridges, b.written = [99, 100] ∧ b.acks = [103] ∧
        (¬ ∃ k ≤ sampleClient.segments.length,
          b.written = sampleClient.openPayload udpCipher sessionKey ++ sampleClient.stream k) ∧
        ¬ Acked sampleClient s.arrived 103 := by
  refine ⟨_, rfl, _, List.mem_singleton.mpr rfl, rfl, rfl, ?_, ?_⟩
  · decide
  · intro hacked
    exact absurd (hacked 0 (by decide)) (by decide)

end Samples

end Mieru

end Elise
