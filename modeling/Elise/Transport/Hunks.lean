/-
Elise/Transport/Hunks.lean

What the gRPC stream hands out.

A client sends messages of Protocol Buffers.  The scan of a message looks at every
byte as at a tag, so it finds the payload of a Hunk where no byte before is like that
tag (`Carries`).  Over messages of this kind, and over bytes in which there is no
field 1 at all, the stream is lossless, however it is cut.
-/
import Elise.Lib.Serving
import Elise.Transport.Grpc

namespace Elise

namespace Transport

open Net Poll Protobuf Serving

/-! ### What a message holds -/

theorem isTag_iff (b : UInt8) : b >>> 3 = 1 ∧ b &&& 0x07 = 2 ↔ b = 10 := by
  have hall : ∀ n < 256,
      (UInt8.ofNat n >>> 3 = 1 ∧ UInt8.ofNat n &&& 0x07 = 2 ↔ UInt8.ofNat n = 10) := by
    decide +kernel
  have hb := hall b.toNat b.toNat_lt
  rwa [UInt8.ofNat_toNat] at hb

/-- In no place of the message is there a field 1 that fits, and no length is out of
all bounds. -/
structure Opaque (message : List UInt8) : Prop where
  unfound : ∀ {before len payload after : List UInt8},
    message = before ++ 10 :: (len ++ (payload ++ after)) → ¬ Varint len payload.length
  bounded : ∀ {before len after : List UInt8} {v : Nat},
    message = before ++ 10 :: (len ++ after) → Varint len v → v < 2 ^ 63

/-- What a message is for the stream: a Hunk, in which no byte before its field 1 is
like the tag of it; or bytes. -/
inductive Carries : (message text : List UInt8) → Prop
  | hunk {before len payload after : List UInt8} :
      Message 1 before [] → 10 ∉ before → Varint len payload.length → Message 1 after [] →
        Carries (before ++ 10 :: (len ++ (payload ++ after))) payload
  | raw {message : List UInt8} : Opaque message → Carries message message

theorem opaque_of_not_mem {message : List UInt8} (h : 10 ∉ message) : Opaque message := by
  refine ⟨?_, ?_⟩
  · rintro before len payload after rfl
    simp at h
  · rintro before len after v rfl
    simp at h

theorem decodeLoop_found {before len payload after : List UInt8} (hbefore : 10 ∉ before)
    (hlen : Varint len payload.length)
    (hshort : (before ++ 10 :: (len ++ (payload ++ after))).length < 2 ^ 32) {fuel cursor : Nat}
    (hcursor : cursor ≤ before.length) (hfuel : before.length - cursor < fuel) :
    decodeLoop (before ++ 10 :: (len ++ (payload ++ after))) fuel cursor = .found payload := by
  induction fuel generalizing cursor with
  | zero => cases hfuel
  | succ fuel ih =>
      have hsize := hshort
      simp only [List.length_append, List.length_cons] at hsize
      rw [decodeLoop, if_pos (by simp only [List.length_append, List.length_cons]; omega)]
      simp only [isTag_iff]
      by_cases hlt : cursor < before.length
      · have htag : byteAt (before ++ 10 :: (len ++ (payload ++ after))) cursor ≠ 10 := by
          rw [byteAt_append_left _ hlt, byteAt, List.getD_eq_getElem _ _ hlt]
          rintro heq
          exact hbefore (heq ▸ List.getElem_mem hlt)
        rw [if_neg htag]
        exact ih hlt (by omega)
      · obtain rfl : cursor = before.length := by omega
        have htag : byteAt (before ++ 10 :: (len ++ (payload ++ after))) before.length = 10 := by
          simp [byteAt]
        have hdrop : (before ++ 10 :: (len ++ (payload ++ after))).drop (before.length + 1) =
            len ++ (payload ++ after) := by
          simp
        obtain ⟨n, hread, hn⟩ := readVarint_append hlen (payload ++ after)
        rw [if_pos htag, hdrop, hread]
        dsimp only
        rw [hn, if_neg (by omega),
          if_pos (by simp only [List.length_append, List.length_cons]; omega),
          ← List.drop_drop, hdrop, List.drop_left, List.take_left]

theorem decodeLoop_missing {message : List UInt8} (h : Opaque message)
    (hshort : message.length < 2 ^ 32) (fuel cursor : Nat) :
    decodeLoop message fuel cursor = .missing := by
  induction fuel generalizing cursor with
  | zero => rfl
  | succ fuel ih =>
      rw [decodeLoop]
      split
      · rename_i hlt
        simp only [isTag_iff]
        split
        · rename_i htag
          split
          · rfl
          · rename_i n j hread
            obtain ⟨len, rest, hrest, rfl, hlen⟩ := varint_of_readVarint hread
            have hsplit : message = message.take cursor ++ 10 :: (len ++ rest) := by
              rw [← hrest, ← htag, byteAt, List.getD_eq_getElem _ _ hlt,
                ← List.drop_eq_getElem_cons hlt, List.take_append_drop]
            have hbound := h.bounded hsplit hlen
            have hsize := congrArg List.length hrest
            rw [List.length_drop, List.length_append] at hsize
            rw [if_neg (by omega)]
            split
            · rename_i hfits
              -- then the field would be there
              have hpayload : Varint len (rest.take n.toNat).length := by
                rw [List.length_take, Nat.min_eq_left (by omega)]
                exact hlen
              have hwhole : message = message.take cursor ++
                  10 :: (len ++ (rest.take n.toNat ++ rest.drop n.toNat)) := by
                rw [List.take_append_drop]
                exact hsplit
              exact absurd hpayload (h.unfound hwhole)
            · exact ih _
        · exact ih _
      · rfl

/-- **What a message adds to the stream.** -/
theorem textOf_carries {message text : List UInt8} (h : Carries message text)
    (hshort : message.length < 2 ^ 32) :
    GrpcStreamWrapper.textOf message = some text := by
  cases h with
  | hunk _ hbefore hlen _ =>
      rw [GrpcStreamWrapper.textOf, decodeProtobufHunk,
        decodeLoop_found hbefore hlen hshort (Nat.zero_le _)
          (by simp only [List.length_append, List.length_cons]; omega)]
  | raw hopaque =>
      rw [GrpcStreamWrapper.textOf, decodeProtobufHunk, decodeLoop_missing hopaque hshort]

/-! ### Framing -/

/-- A message that is sent, behind a flag. -/
structure Sent where
  flag : UInt8
  message : List UInt8
  text : List UInt8
  carries : Carries message text
  short : message.length < 2 ^ 32

def Sent.frame (m : Sent) : List UInt8 :=
  m.flag :: (toBeBytes 4 m.message.length ++ m.message)

def frames (ms : List Sent) : List UInt8 := (ms.map Sent.frame).flatten

def texts (ms : List Sent) : List UInt8 := (ms.map Sent.text).flatten

theorem Sent.length_frame (m : Sent) : m.frame.length = 5 + m.message.length := by
  rw [frame, List.length_cons, List.length_append, length_toBeBytes]
  omega

/-- The length is behind the flag. -/
theorem Sent.u32At_frame (m : Sent) (rest : List UInt8) :
    (u32At (m.frame ++ rest) 1).toNat = m.message.length := by
  have hfield : bytesAt ([m.flag] ++ (toBeBytes 4 m.message.length ++ (m.message ++ rest))) 1 4 =
      toBeBytes 4 m.message.length := bytesAt_append rfl (length_toBeBytes 4 _)
  have hframe : m.frame ++ rest =
      [m.flag] ++ (toBeBytes 4 m.message.length ++ (m.message ++ rest)) := by
    simp [frame]
  rw [hframe, u32At, hfield, ofBeBytes_toBeBytes m.short, UInt32.toNat_ofNat_of_lt' m.short]

/-- A whole message is taken. -/
theorem Sent.takeMessage_frame (m : Sent) (rest : List UInt8) :
    GrpcStreamWrapper.takeMessage (m.frame ++ rest) = some (m.message, rest) := by
  have hlen := m.length_frame
  have hhead : (m.flag :: toBeBytes 4 m.message.length).length = 5 := by
    rw [List.length_cons, length_toBeBytes]
  rw [GrpcStreamWrapper.takeMessage, if_neg (by rw [List.length_append]; omega)]
  simp only [m.u32At_frame]
  rw [if_neg (by rw [List.length_append]; omega), ← hlen, List.drop_left]
  have hbody : (m.frame ++ rest).drop 5 = m.message ++ rest := by
    show ((m.flag :: (toBeBytes 4 m.message.length ++ m.message)) ++ rest).drop 5 = _
    rw [← List.cons_append, List.append_assoc, List.drop_left' hhead]
  rw [hbody, List.take_left]

/-- A part of a message is not. -/
theorem Sent.takeMessage_part (m : Sent) {raw gap : List UInt8} (h : m.frame = raw ++ gap)
    (hgap : gap ≠ []) : GrpcStreamWrapper.takeMessage raw = none := by
  have hlen := congrArg List.length h
  have hpos := List.length_pos_iff.mpr hgap
  rw [m.length_frame, List.length_append] at hlen
  rw [GrpcStreamWrapper.takeMessage]
  split
  · rfl
  · rename_i hlong
    have hfield : u32At raw 1 = u32At (m.frame ++ []) 1 := by
      rw [List.append_nil, h, u32At, u32At, bytesAt_append_left gap (by omega)]
    rw [hfield]
    simp only [m.u32At_frame]
    rw [if_pos (by omega)]

variable {s : GrpcStreamWrapper}

/-- **The complete messages are unpacked**, and what is left is not one. -/
theorem unpack_frames {fuel : Nat} {ms : List Sent} {more : List UInt8}
    (h : s.rawRecvBuf ++ more = frames ms) (hfuel : s.rawRecvBuf.length ≤ fuel) :
    ∃ s' before after, GrpcStreamWrapper.unpack fuel s = some s' ∧ ms = before ++ after ∧
      s'.readBuf = s.readBuf ++ texts before ∧ s'.rawRecvBuf ++ more = frames after ∧
      (more = [] → after = []) := by
  induction fuel generalizing s ms with
  | zero =>
      have hempty := List.length_eq_zero_iff.mp (Nat.le_zero.mp hfuel)
      refine ⟨s, [], ms, rfl, rfl, (List.append_nil _).symm, h, ?_⟩
      rintro rfl
      cases ms with
      | nil => rfl
      | cons m ms =>
          rw [hempty] at h
          cases h
  | succ fuel ih =>
      rw [GrpcStreamWrapper.unpack]
      cases ms with
      | nil =>
          obtain ⟨hraw, hmore⟩ := List.append_eq_nil_iff.mp h
          refine ⟨s, [], [], ?_, rfl, (List.append_nil _).symm, h, fun _ => rfl⟩
          rw [hraw]
          rfl
      | cons m ms =>
          rw [frames, List.map_cons, List.flatten_cons] at h
          rcases Serving.torn_cases h with ⟨-, gap, hgap, hpart⟩ | ⟨raw, hraw, hrest⟩
          · rw [m.takeMessage_part hpart hgap]
            refine ⟨s, [], m :: ms, rfl, rfl, (List.append_nil _).symm, h, ?_⟩
            rintro rfl
            have hlen := congrArg List.length h
            have hpos := List.length_pos_iff.mpr hgap
            rw [hpart, List.append_nil, List.length_append, List.length_append] at hlen
            omega
          · have hlen := congrArg List.length hraw
            rw [List.length_append, m.length_frame] at hlen
            rw [hraw, m.takeMessage_frame]
            simp only [textOf_carries m.carries m.short]
            obtain ⟨s', before, after, hunpack, rfl, hread, hleft, hend⟩ :=
              @ih ⟨s.readBuf ++ m.text, raw⟩ ms hrest (show raw.length ≤ fuel by omega)
            refine ⟨s', m :: before, after, hunpack, rfl, ?_, hleft, hend⟩
            rw [hread]
            show s.readBuf ++ m.text ++ texts before = s.readBuf ++ texts (m :: before)
            rw [texts, texts, List.map_cons, List.flatten_cons, List.append_assoc]

/-! ### Reading -/

/-- The data of the stream. -/
def dataOf (stream : List Recv) : List UInt8 :=
  (stream.map fun
    | .chunk bytes => bytes
    | _ => []).flatten

def delays (stream : List Recv) : Nat := stream.count .pending

/-- What is left to hand out, where the data are whole messages. -/
def Holds (r : GrpcStreamWrapper × List Recv) (rest : List UInt8) (n : Nat) (e : Ending) : Prop :=
  Recv.error ∉ r.2 ∧ n = delays r.2 ∧ e = .eof ∧
    ∃ ms, r.1.rawRecvBuf ++ dataOf r.2 = frames ms ∧ (dataOf r.2 = [] → ms = []) ∧
      rest = r.1.readBuf ++ texts ms

/-- A panic ends the stream, as an error does. -/
def served (r : GrpcStreamWrapper × List Recv) (cap : Nat) :
    Result (List UInt8) × GrpcStreamWrapper × List Recv :=
  (GrpcStreamWrapper.pollRead r cap).getD (.error, r)

/-- What waits is handed out first. -/
theorem readLoop_buffered {cap : Nat} (hcap : 0 < cap) {stream : List Recv} {rest : List UInt8}
    {n : Nat} {e : Ending} (h : Holds (s, stream) rest n e) (hbuf : s.readBuf ≠ []) :
    ∃ answer, GrpcStreamWrapper.readLoop cap stream s = some answer ∧
      Answered Holds rest n e cap answer := by
  obtain ⟨herror, hn, he, ms, hraw, hend, rfl⟩ := h
  have hsome : (!s.readBuf.isEmpty) = true := by simpa using hbuf
  refine ⟨(.ready (s.readBuf.take cap), { s with readBuf := s.readBuf.drop cap }, stream), ?_, ?_⟩
  · rw [GrpcStreamWrapper.readLoop.eq_def, if_pos hsome]
  · exact answered_take hcap hbuf ⟨herror, hn, he, ms, hraw, hend, rfl⟩

/-- **What a poll answers**: what waits; or the text of the messages that have come,
of which there are some unless it waits or ends. -/
theorem readLoop_answered {cap : Nat} (hcap : 0 < cap) {stream : List Recv} {rest : List UInt8}
    {n : Nat} {e : Ending} (h : Holds (s, stream) rest n e) :
    ∃ answer, GrpcStreamWrapper.readLoop cap stream s = some answer ∧
      Answered Holds rest n e cap answer := by
  induction stream generalizing s with
  | nil =>
      by_cases hbuf : s.readBuf = []
      · obtain ⟨herror, hn, he, ms, hraw, hend, hrest⟩ := id h
        obtain rfl := hend rfl
        have hnil : rest = [] := by
          rw [hrest]
          show s.readBuf ++ texts [] = []
          rw [hbuf]
          rfl
        have hnone : ¬ (!s.readBuf.isEmpty) = true := by simp [hbuf]
        refine ⟨(.ready [], s, []), ?_, ?_⟩
        · rw [GrpcStreamWrapper.readLoop, if_neg hnone]
        · exact ⟨rest, n, Nat.le_refl _, rfl, Nat.zero_le _, h, fun _ _ => ⟨hnil, he, hn⟩⟩
      · exact readLoop_buffered hcap h hbuf
  | cons recv stream ih =>
      by_cases hbuf : s.readBuf = []
      · obtain ⟨herror, hn, he, ms, hraw, hend, hrest⟩ := id h
        have hnone : ¬ (!s.readBuf.isEmpty) = true := by simp [hbuf]
        have herror' : Recv.error ∉ stream := fun hmem => herror (List.mem_cons_of_mem _ hmem)
        rw [GrpcStreamWrapper.readLoop.eq_def, if_neg hnone]
        cases recv with
        | pending =>
            refine ⟨_, rfl, delays stream, ?_, herror', rfl, he, ms, hraw, hend, hrest⟩
            rw [hn]
            show delays stream < List.count Recv.pending (Recv.pending :: stream)
            rw [List.count_cons_self]
            exact Nat.lt_succ_self _
        | error => exact absurd List.mem_cons_self herror
        | chunk bytes =>
            have hdata : (s.rawRecvBuf ++ bytes) ++ dataOf stream = frames ms := by
              rw [List.append_assoc]
              exact hraw
            obtain ⟨s', before, after, hunpack, rfl, hread, hleft, hlast⟩ :=
              @unpack_frames { s with rawRecvBuf := s.rawRecvBuf ++ bytes } _ ms _ hdata
                (Nat.le_refl _)
            have hreceive : s.receive bytes = some s' := hunpack
            simp only [hreceive]
            apply ih
            refine ⟨herror', ?_, he, after, hleft, hlast, ?_⟩
            · rw [hn]
              show List.count Recv.pending (.chunk bytes :: stream) = _
              rw [List.count_cons_of_ne (by simp)]
              rfl
            · rw [hrest]
              show s.readBuf ++ texts (before ++ after) = s'.readBuf ++ texts after
              rw [hread, texts, texts, texts, List.map_append, List.flatten_append,
                List.append_assoc]
      · exact readLoop_buffered hcap h hbuf

/-- **Every poll answers rightly.** -/
theorem serves_pollRead : Serves served Holds := by
  intro r rest n e h cap
  obtain ⟨s, stream⟩ := r
  rw [served, GrpcStreamWrapper.pollRead]
  split
  · rename_i hzero
    subst hzero
    exact answered_zero h
  · rename_i hcap
    obtain ⟨answer, hloop, hanswer⟩ := readLoop_answered (Nat.pos_of_ne_zero hcap) h
    rw [hloop]
    exact hanswer

theorem frames_eq_nil {ms : List Sent} (h : frames ms = []) : ms = [] := by
  cases ms with
  | nil => rfl
  | cons m ms => cases h

theorem holds_new {stream : List Recv} {ms : List Sent} (herror : Recv.error ∉ stream)
    (hdata : dataOf stream = frames ms) :
    Holds (.new, stream) (texts ms) (delays stream) .eof :=
  ⟨herror, rfl, rfl, ms, hdata, fun hnil => frames_eq_nil (hdata.symm.trans hnil), rfl⟩

/-- **What the stream hands out of whole messages.**  However their bytes are cut,
and whatever room the caller has, no call fails, and what is handed out is the text
of the messages in order and then the end, for ever: of a Hunk the payload, and of
bytes in which there is none the bytes. -/
theorem grpc_stream_lossless (ms : List Sent) (stream : List Recv) (caps : List Nat)
    (herror : Recv.error ∉ stream) (hdata : dataOf stream = frames ms) :
    ∃ r, Run.exec (Serving.step served) ⟨(.new, stream), []⟩ caps = some r ∧
      r.delivered <+: texts ms ∧
      (∀ cap, 0 < cap → (served r.reader cap).1 = .ready [] → r.delivered = texts ms) ∧
      ((texts ms).length + delays stream ≤ caps.countP (0 < ·) → r.delivered = texts ms ∧
        ∀ cap, (served r.reader cap).1 = .ready []) :=
  run_clean serves_pollRead caps (holds_new herror hdata)

/-- A Hunk behind a number, and bytes that are none: cut inside the first length. -/
theorem hunk_then_bytes :
    ∃ r, Run.exec (Serving.step served) ⟨(.new, [.chunk [0, 0, 0], .pending,
        .chunk [0, 5, 16, 5, 10, 1, 65, 0, 0, 0, 0, 1, 7]]), []⟩ [4, 4, 1, 1] = some r ∧
      r.delivered = [65, 7] := by
  have htag : Varint [16] (8 * 2) := varint_byte (b := 16) (by decide)
  have hbefore : Message 1 [16, 5] [] :=
    .varint (by decide) htag (varint_byte (b := 5) (by decide)) .nil
  have hlen : Varint [1] [(65 : UInt8)].length := varint_byte (b := 1) (by decide)
  have hhunk : Carries ([16, 5] ++ 10 :: ([1] ++ ([65] ++ []))) [65] :=
    .hunk hbefore (by decide) hlen .nil
  have hbytes : Carries [7] [7] := .raw (opaque_of_not_mem (by decide))
  obtain ⟨r, hrun, -, -, hall⟩ := grpc_stream_lossless
    [⟨0, [16, 5, 10, 1, 65], [65], hhunk, by decide⟩, ⟨0, [7], [7], hbytes, by decide⟩]
    [.chunk [0, 0, 0], .pending, .chunk [0, 5, 16, 5, 10, 1, 65, 0, 0, 0, 0, 1, 7]] [4, 4, 1, 1]
    (by decide) (by simp [dataOf, frames, Sent.frame, toBeBytes])
  have henough : (2 : Nat) + 1 ≤ 4 := by decide
  exact ⟨r, hrun, (hall henough).1⟩

/-- Of two Hunks in one message the second is lost, and a message that is no encoding
at all is handed out. -/
theorem second_hunk_lost :
    Message 1 [10, 1, 65, 10, 1, 66] [[65], [66]] ∧ (¬ ∃ payloads, Message 1 [0] payloads) ∧
      ∃ r, Run.exec (Serving.step served)
          ⟨(.new, [.chunk [0, 0, 0, 0, 6, 10, 1, 65, 10, 1, 66, 0, 0, 0, 0, 1, 0]]), []⟩
          [9, 9] = some r ∧
        r.delivered = [65, 0] ∧ (served r.reader 9).1 = .ready [] := by
  refine ⟨?_, ?_, _, rfl, by decide, by decide⟩
  · have hlen : ∀ b : UInt8, Varint [1] [b].length := fun b => varint_byte (b := 1) (by decide)
    have hfirst : Message 1 [10, 1, 65] [[65]] :=
      .single (by decide) (by decide) (by decide) (hlen 65)
    have hsecond : Message 1 [10, 1, 66] [[66]] :=
      .single (by decide) (by decide) (by decide) (hlen 66)
    exact hfirst.append hsecond
  · rintro ⟨payloads, hmessage⟩
    obtain ⟨tag, rest, v, htag, hv, hbytes⟩ := hmessage.tag_of_ne_nil (by decide)
    obtain ⟨n, hn, rfl⟩ := htag.number
    cases hn with
    | last hb =>
        obtain ⟨rfl, -⟩ := List.cons.inj hbytes
        exact absurd hv (by decide)
    | more hb hmore =>
        obtain ⟨rfl, -⟩ := List.cons.inj hbytes
        exact absurd hb (by decide)

end Transport

end Elise
