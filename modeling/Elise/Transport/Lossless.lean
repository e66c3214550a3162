/-
Elise/Transport/Lossless.lean

When the camouflage as HTTP is lossless (src/transport/tcp.rs).

The length of the head is looked at between reads of up to 1024 bytes.  A head of up to
8192 bytes is always read (`headLoop_of_short`), one of more than 9215 bytes never
(`headLoop_of_long`); in between it depends on where the segments are cut
(`headLoop_split`).

What has been written is the head of the response, as far as its cursor goes, and behind it
the bytes of the callers (`Sent`).
-/
import Elise.Transport.Camouflage

namespace Elise

namespace Camouflage

open Lines

/-! ### Reading the head -/

section

variable {bytes header : List UInt8} {inner : ByteStream} {pos : Nat}

/-- One round that finds something. -/
theorem headLoop_found (hlen : header.length < maxHeaderLength) (hread : (inner.read 1024).1 ≠ [])
    (hfind : find doubleCrlf (header ++ (inner.read 1024).1) = some pos) :
    headLoop inner header = .ok (pos, header ++ (inner.read 1024).1, (inner.read 1024).2) := by
  rw [headLoop, dif_pos hlen]
  dsimp only
  rw [dif_neg hread, hfind]

/-- One round that finds nothing. -/
theorem headLoop_next (hlen : header.length < maxHeaderLength) (hread : (inner.read 1024).1 ≠ [])
    (hfind : find doubleCrlf (header ++ (inner.read 1024).1) = none) :
    headLoop inner header = headLoop (inner.read 1024).2 (header ++ (inner.read 1024).1) := by
  rw [headLoop, dif_pos hlen]
  dsimp only
  rw [dif_neg hread, hfind]

theorem headLoop_exceeded (hlen : maxHeaderLength ≤ header.length) :
    headLoop inner header = .error .exceeded := by
  rw [headLoop, dif_neg (Nat.not_lt.mpr hlen)]

/-- What the loop reads is a part of the stream from the front, and the head ends in it. -/
theorem headLoop_ok {found : Nat × List UInt8 × ByteStream} (h : headLoop inner header = .ok found) :
    find doubleCrlf found.2.1 = some found.1 ∧ found.2.1 ++ found.2.2.bytes = header ++ inner.bytes ∧
      found.2.1.length < maxHeaderLength + 1024 := by
  fun_induction headLoop inner header with
  | case1 => cases h
  | case2 inner header hlen read heof pos hfind =>
      obtain rfl := Except.ok.inj h
      refine ⟨hfind, ?_, ?_⟩
      · rw [List.append_assoc, ByteStream.read_append]
      · have hle : read.1.length ≤ 1024 := ByteStream.length_read_le inner 1024
        rw [List.length_append]
        omega
  | case3 inner header hlen read heof hfind ih =>
      obtain ⟨hpos, hbytes, hlt⟩ := ih h
      refine ⟨hpos, ?_, hlt⟩
      rw [hbytes, List.append_assoc, ByteStream.read_append]
  | case4 => cases h

theorem length_doubleCrlf : doubleCrlf.length = 4 := rfl

/-- A head that ends within the limit is read, however the segments are cut. -/
theorem headLoop_of_short (hfind : find doubleCrlf bytes = some pos) (hshort : pos + 4 ≤ maxHeaderLength)
    (hbytes : header ++ inner.bytes = bytes) (hnone : find doubleCrlf header = none) :
    ∃ found, headLoop inner header = .ok found := by
  have hlen := length_le_of_find hfind
  rw [length_doubleCrlf, ← hbytes, List.length_append] at hlen
  have hbefore : header.length < pos + 4 := by
    rw [← hbytes] at hfind
    rw [find_front (by decide) hfind, length_doubleCrlf] at hnone
    split at hnone
    · cases hnone
    · omega
  fun_induction headLoop inner header with
  | case1 inner header hlong read heof =>
      rw [ByteStream.read_eq_nil_iff (by decide)] at heof
      rw [heof, List.length_nil] at hlen
      omega
  | case2 => exact ⟨_, rfl⟩
  | case3 inner header hlong read heof hmore ih =>
      have hbytes' : header ++ read.1 ++ read.2.bytes = bytes := by
        rw [List.append_assoc, ByteStream.read_append, hbytes]
      have hfind' := hfind
      rw [← hbytes'] at hfind'
      have hmore' := hmore
      rw [find_front (by decide) hfind', length_doubleCrlf] at hmore'
      have hbefore' : (header ++ read.1).length < pos + 4 := by
        split at hmore'
        · cases hmore'
        · omega
      refine ih hbytes' hmore ?_ hbefore'
      rw [← List.length_append, hbytes', ← hbytes, List.length_append]
      exact hlen
  | case4 inner header hlong => exact absurd hbefore (by omega)

/-- A head that ends beyond the last read is never read. -/
theorem headLoop_of_long (hlong : ∀ pos, find doubleCrlf inner.bytes = some pos → maxHeaderLength + 1023 < pos + 4) :
    ∃ e, headLoop inner [] = .error e := by
  cases hloop : headLoop inner [] with
  | error e => exact ⟨e, rfl⟩
  | ok found =>
      obtain ⟨hfind, hbytes, hlt⟩ := headLoop_ok hloop
      have hlen := length_le_of_find hfind
      rw [length_doubleCrlf] at hlen
      have hwhole := find_append hfind found.2.2.bytes
      rw [hbytes, List.nil_append] at hwhole
      have hfar := hlong _ hwhole
      omega

/-- A segment within the limit that does not end the head is read to its end. -/
theorem headLoop_skip {segment : List UInt8} {rest : List (List UInt8)}
    (h : ∀ seg ∈ segment :: rest, seg ≠ []) (hlen : header.length + segment.length ≤ maxHeaderLength)
    (hnone : find doubleCrlf (header ++ segment) = none) :
    headLoop ⟨segment :: rest, h⟩ header =
      headLoop ⟨rest, ByteStream.nonempty_tail h⟩ (header ++ segment) := by
  -- on the length of the segment, of which one read takes a part
  induction hn : segment.length using Nat.strong_induction_on generalizing segment header with
  | _ n ih =>
      have hne : segment ≠ [] := h segment (List.mem_cons_self ..)
      have hpos := List.length_pos_iff.mpr hne
      have htake : (segment.take 1024) ≠ [] := by
        rw [Ne, List.take_eq_nil_iff]
        rintro (hzero | hnil)
        · cases hzero
        · exact hne hnil
      have hnone' : find doubleCrlf (header ++ segment.take 1024) = none := by
        apply Option.eq_none_iff_forall_ne_some.mpr
        intro pos hfind
        have hwhole := find_append hfind (segment.drop 1024)
        rw [List.append_assoc, List.take_append_drop, hnone] at hwhole
        cases hwhole
      have hnext : headLoop ⟨segment :: rest, h⟩ header =
          headLoop (ByteStream.push (segment.drop 1024) ⟨rest, ByteStream.nonempty_tail h⟩)
            (header ++ segment.take 1024) := headLoop_next (by omega) htake hnone'
      rw [hnext, ByteStream.push]
      split
      · rename_i hdrop
        have hall : segment.take 1024 = segment := by
          rw [List.take_eq_self_iff, ← List.drop_eq_nil_iff]
          exact hdrop
        rw [hall]
      · rename_i hdrop
        have hsum : header ++ segment.take 1024 ++ segment.drop 1024 = header ++ segment := by
          rw [List.append_assoc, List.take_append_drop]
        have hlens : (segment.drop 1024).length < n := by
          rw [List.length_drop]
          omega
        rw [ih _ hlens _ _ (by rw [hsum]; exact hnone) rfl, hsum]
        rw [← List.length_append, hsum, List.length_append]
        exact hlen

/-- In between it depends on the segments. -/
theorem headLoop_split (hfind : find doubleCrlf bytes = some pos) (hlong : maxHeaderLength < pos + 4)
    (hshort : pos + 4 ≤ maxHeaderLength + 1023) :
    ∃ s₁ s₂ : ByteStream, s₁.bytes = bytes ∧ s₂.bytes = bytes ∧ (∃ found, headLoop s₁ [] = .ok found) ∧
      ∃ e, headLoop s₂ [] = .error e := by
  have hmax : maxHeaderLength = 8192 := rfl
  have hlen := length_le_of_find hfind
  rw [length_doubleCrlf] at hlen
  have hcut : ∀ n, 0 < n → n ≤ maxHeaderLength → ∃ s : ByteStream, s.bytes = bytes ∧
      ∃ h, headLoop s [] = headLoop ⟨[bytes.drop n], h⟩ (bytes.take n) := by
    intro n hpos hle
    have hsegments : ∀ seg ∈ [bytes.take n, bytes.drop n], seg ≠ [] := by
      intro seg hmem
      apply List.ne_nil_of_length_pos
      rcases List.mem_cons.mp hmem with rfl | hmem
      · rw [List.length_take]
        omega
      · obtain rfl := List.mem_singleton.mp hmem
        rw [List.length_drop]
        omega
    have hnone : find doubleCrlf ([] ++ bytes.take n) = none := by
      have hwhole := hfind
      rw [← List.take_append_drop n bytes] at hwhole
      rw [List.nil_append, find_front (by decide) hwhole, length_doubleCrlf, List.length_take,
        if_neg (by omega)]
    have hshorter : ([] : List UInt8).length + (bytes.take n).length ≤ maxHeaderLength := by
      rw [List.length_nil, List.length_take]
      omega
    refine ⟨⟨[bytes.take n, bytes.drop n], hsegments⟩, ?_, ByteStream.nonempty_tail hsegments,
      headLoop_skip hsegments hshorter hnone⟩
    simp [ByteStream.bytes]
  obtain ⟨s₁, hs₁, h₁, hloop₁⟩ := hcut 8191 (by decide) (by decide)
  obtain ⟨s₂, hs₂, h₂, hloop₂⟩ := hcut 8192 (by decide) (by decide)
  refine ⟨s₁, s₂, hs₁, hs₂, ?_, .exceeded, ?_⟩
  · -- one more read takes 1024 bytes
    have hread : bytes.take 8191 ++ (bytes.drop 8191).take 1024 = bytes.take 9215 := by
      rw [← List.take_add]
    have hwhole := hfind
    rw [← List.take_append_drop 9215 bytes] at hwhole
    have hfound : find doubleCrlf (bytes.take 8191 ++ (bytes.drop 8191).take 1024) = some pos := by
      rw [hread, find_front (by decide) hwhole, length_doubleCrlf, List.length_take, if_pos (by omega)]
    have hne : (bytes.drop 8191).take 1024 ≠ [] := by
      apply List.ne_nil_of_length_pos
      rw [List.length_take, List.length_drop]
      omega
    rw [hloop₁]
    refine ⟨_, headLoop_found ?_ hne hfound⟩
    rw [List.length_take]
    omega
  · rw [hloop₂]
    apply headLoop_exceeded
    rw [List.length_take]
    omega

end

/-! ### What the reader is given -/

namespace HttpCamouflageStream

/-- The bytes that the reader has still to get. -/
def remaining (s : HttpCamouflageStream) : List UInt8 := s.unreadBuf.drop s.unreadCursor ++ s.inner.bytes

theorem pollRead_append (s : HttpCamouflageStream) (call : ReadCall) :
    (s.pollRead call).1 ++ (s.pollRead call).2.remaining = s.remaining := by
  rw [pollRead]
  split
  · rename_i hunread
    rw [remaining, remaining]
    dsimp only
    rw [← List.append_assoc, ← List.drop_drop, List.take_append_drop]
  · rename_i hunread
    have hdrop : s.unreadBuf.drop s.unreadCursor = [] := List.drop_eq_nil_of_le (Nat.not_lt.mp hunread)
    split
    · rw [remaining, remaining]
      dsimp only
      rw [hdrop, List.nil_append, List.nil_append, ByteStream.read_append]
    · rfl

theorem pollReads_append (s : HttpCamouflageStream) (calls : List ReadCall) :
    (s.pollReads calls).1 ++ (s.pollReads calls).2.remaining = s.remaining := by
  induction calls generalizing s with
  | nil => rfl
  | cons call calls ih =>
      simp only [pollReads]
      rw [List.append_assoc, ih, pollRead_append]

/-- A call with room that is answered with nothing comes at the end. -/
theorem remaining_of_pollRead_nil {s : HttpCamouflageStream} {call : ReadCall} (hcap : 0 < call.cap)
    (hready : call.ready = true) (h : (s.pollRead call).1 = []) : s.remaining = [] := by
  rw [pollRead] at h
  split at h
  · rename_i hunread
    have hlen := congrArg List.length h
    rw [List.length_take, List.length_drop, List.length_nil] at hlen
    omega
  · rename_i hunread
    rw [remaining, List.drop_eq_nil_of_le (Nat.not_lt.mp hunread), List.nil_append]
    exact (ByteStream.read_eq_nil_iff hcap).mp h

/-- The reads deliver these bytes, and say that they are at the end when they are. -/
def Delivers (s : HttpCamouflageStream) (rest : List UInt8) : Prop :=
  ∀ calls, (s.pollReads calls).1 <+: rest ∧
    ∀ call : ReadCall, 0 < call.cap → call.ready = true →
      ((s.pollReads calls).2.pollRead call).1 = [] → (s.pollReads calls).1 = rest

theorem delivers_remaining (s : HttpCamouflageStream) : s.Delivers s.remaining := by
  intro calls
  have happend := pollReads_append s calls
  refine ⟨⟨_, happend⟩, ?_⟩
  intro call hcap hready hnil
  rw [remaining_of_pollRead_nil hcap hready hnil, List.append_nil] at happend
  exact happend

end HttpCamouflageStream

/-! ### The handshake -/

section

variable {config : TcpTransportConfig} {nowSec : Nat} {bytes : List UInt8} {inner : ByteStream}

/-- Segments of the same bytes do not make a difference, and what comes behind the head is
delivered. -/
structure Transparent (config : TcpTransportConfig) (nowSec : Nat) (bytes : List UInt8) : Prop where
  same : ∀ s₁ s₂ : ByteStream, s₁.bytes = bytes → s₂.bytes = bytes →
    (serverHandshake s₁ config nowSec).isOk = (serverHandshake s₂ config nowSec).isOk
  delivers : ∀ (inner : ByteStream) (stream : HttpCamouflageStream), inner.bytes = bytes →
    serverHandshake inner config nowSec = .ok stream →
      ∃ pos, find doubleCrlf bytes = some pos ∧ stream.Delivers (bytes.drop (pos + 4))

/-- The head ends within the limit or beyond the last read, or the request is rejected. -/
def Settled (config : TcpTransportConfig) (bytes : List UInt8) : Prop :=
  ∀ pos, find doubleCrlf bytes = some pos → maxHeaderLength < pos + 4 → pos + 4 ≤ maxHeaderLength + 1023 →
    (validateHttpRequest (bytes.take (pos + 4)) config.request).isOk = false

/-- What the loop has found, in terms of all the bytes. -/
theorem found_of_headLoop {found : Nat × List UInt8 × ByteStream} (h : headLoop inner [] = .ok found) :
    find doubleCrlf inner.bytes = some found.1 ∧
      found.2.1.take (found.1 + 4) = inner.bytes.take (found.1 + 4) ∧
      found.2.1.drop (found.1 + 4) ++ found.2.2.bytes = inner.bytes.drop (found.1 + 4) := by
  obtain ⟨hfind, hbytes, -⟩ := headLoop_ok h
  have hlen := length_le_of_find hfind
  rw [length_doubleCrlf] at hlen
  rw [List.nil_append] at hbytes
  refine ⟨hbytes ▸ find_append hfind _, ?_, ?_⟩
  · rw [← hbytes, List.take_append_of_le_length hlen]
  · rw [← hbytes, List.drop_append_of_le_length hlen]

theorem isOk_serverHandshake_of_error {e : HandshakeError} (h : headLoop inner [] = .error e) :
    (serverHandshake inner config nowSec).isOk = false := by
  rw [serverHandshake, h]
  rfl

theorem isOk_serverHandshake_of_ok {found : Nat × List UInt8 × ByteStream} (h : headLoop inner [] = .ok found) :
    (serverHandshake inner config nowSec).isOk =
      (validateHttpRequest (inner.bytes.take (found.1 + 4)) config.request).isOk := by
  rw [← (found_of_headLoop h).2.1, serverHandshake, h]
  dsimp only
  split
  · rename_i hvalidate
    rw [hvalidate]
    rfl
  · rename_i hvalidate
    rw [hvalidate]
    rfl

theorem delivers_serverHandshake {stream : HttpCamouflageStream}
    (h : serverHandshake inner config nowSec = .ok stream) :
    ∃ pos, find doubleCrlf inner.bytes = some pos ∧ stream.Delivers (inner.bytes.drop (pos + 4)) := by
  rw [serverHandshake] at h
  cases hloop : headLoop inner [] with
  | error e =>
      rw [hloop] at h
      cases h
  | ok found =>
      obtain ⟨hfind, -, hdrop⟩ := found_of_headLoop hloop
      rw [hloop] at h
      dsimp only at h
      split at h
      · cases h
      · obtain rfl := Except.ok.inj h
        refine ⟨found.1, hfind, ?_⟩
        rw [← hdrop]
        exact HttpCamouflageStream.delivers_remaining _

/-- **The handshake is transparent exactly when the head is settled.** -/
theorem transparent_iff : Transparent config nowSec bytes ↔ Settled config bytes := by
  constructor
  · intro h pos hfind hlong hshort
    obtain ⟨s₁, s₂, hs₁, hs₂, ⟨found, hfound⟩, e, herror⟩ := headLoop_split hfind hlong hshort
    have hpos : found.1 = pos := by
      have hsame := (found_of_headLoop hfound).1
      rw [hs₁, hfind] at hsame
      exact (Option.some.inj hsame).symm
    have hsame := h.same s₁ s₂ hs₁ hs₂
    rw [isOk_serverHandshake_of_error herror, isOk_serverHandshake_of_ok hfound, hs₁, hpos] at hsame
    exact hsame
  · intro hsettled
    have hvalue : ∀ s : ByteStream, s.bytes = bytes → (serverHandshake s config nowSec).isOk =
        (find doubleCrlf bytes).elim false fun pos => decide (pos + 4 ≤ maxHeaderLength) &&
          (validateHttpRequest (bytes.take (pos + 4)) config.request).isOk := by
      rintro s rfl
      cases hfind : find doubleCrlf s.bytes with
      | none =>
          have hlong : ∀ pos, find doubleCrlf s.bytes = some pos → maxHeaderLength + 1023 < pos + 4 := by
            intro pos hpos
            rw [hfind] at hpos
            cases hpos
          obtain ⟨e, he⟩ := headLoop_of_long hlong
          exact isOk_serverHandshake_of_error he
      | some pos =>
          rw [Option.elim_some]
          by_cases hshort : pos + 4 ≤ maxHeaderLength
          · obtain ⟨found, hfound⟩ := headLoop_of_short hfind hshort (List.nil_append _) rfl
            have hpos := (found_of_headLoop hfound).1
            rw [hfind] at hpos
            rw [isOk_serverHandshake_of_ok hfound, decide_eq_true hshort, Bool.true_and,
              Option.some.inj hpos]
          · rw [decide_eq_false hshort, Bool.false_and]
            cases hloop : headLoop s [] with
            | error e => exact isOk_serverHandshake_of_error hloop
            | ok found =>
                obtain ⟨hsome, -, hlt⟩ := headLoop_ok hloop
                have hlen := length_le_of_find hsome
                rw [length_doubleCrlf] at hlen
                have hpos := (found_of_headLoop hloop).1
                rw [hfind] at hpos
                rw [isOk_serverHandshake_of_ok hloop, ← Option.some.inj hpos]
                apply hsettled pos hfind (by omega)
                rw [Option.some.inj hpos]
                omega
    exact
      { same := fun s₁ s₂ hs₁ hs₂ => (hvalue s₁ hs₁).trans (hvalue s₂ hs₂).symm
        delivers := fun inner stream hbytes hok => hbytes ▸ delivers_serverHandshake hok }

end

end Camouflage

end Elise
