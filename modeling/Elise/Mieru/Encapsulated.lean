/-
Elise/Mieru/Encapsulated.lean

Packets over a stream of Mieru (`handle_socks5_udp_associate` and
`read_mieru_encapsulated_packet` of src/protocol/mieru/relay.rs).

A packet stands between its length, with a marker in front, and another marker.  The reader
gives the length back, and no byte at all before the marker is length 0, too.  So the loop of the
relay takes an empty packet for the end of the association (`readLoop_frames_iff`).
-/
import Elise.Lib.ByteStream
import Elise.Lib.Wire

namespace Elise

namespace Mieru

open Net

def maxUdpPayloadSize : Nat := 65535

/-- Why a packet is refused, with what the message says. -/
inductive PacketError where
  | unexpectedEof
  | invalidPrefix (delim : UInt8)
  | tooLong (len limit : Nat)
  | invalidSuffix (delim : UInt8)
  deriving DecidableEq, Repr

/-- The packet and the marker behind it. -/
def readBody (len : Nat) (reader : ByteStream) : Except PacketError (List UInt8 × ByteStream) :=
  match reader.readExact len with
  | none => .error .unexpectedEof
  | some (packet, reader) =>
      match reader.readExact 1 with
      | none => .error .unexpectedEof
      | some (delim, reader) =>
          if byteAt delim 0 ≠ 0xFF then .error (.invalidSuffix (byteAt delim 0)) else .ok (packet, reader)

/-- The part of the buffer that is filled; nothing at the end of the stream. -/
def readMieruEncapsulatedPacket (limit : Nat) (reader : ByteStream) :
    Except PacketError (List UInt8 × ByteStream) :=
  match reader.readExact 1 with
  | none => .ok ([], .empty)
  | some (delim, reader) =>
      if byteAt delim 0 ≠ 0x00 then .error (.invalidPrefix (byteAt delim 0))
      else
        match reader.readExact 2 with
        | none => .error .unexpectedEof
        | some (lenBytes, reader) =>
            let len := (u16At lenBytes 0).toNat
            if limit < len then .error (.tooLong len limit) else readBody len reader

/-- How the loop over the packets is left. -/
inductive Ending where
  | done
  | failed (e : PacketError)
  deriving DecidableEq, Repr

/-- The loop of the relay, with the packets that it goes on with. -/
def readLoop : (fuel : Nat) → ByteStream → Option (List (List UInt8) × Ending)
  | 0, _ => none
  | fuel + 1, reader =>
      match readMieruEncapsulatedPacket maxUdpPayloadSize reader with
      | .error e => some ([], .failed e)
      | .ok (packet, reader) =>
          if packet.length = 0 then some ([], .done)
          else (readLoop fuel reader).map fun (packets, ending) => (packet :: packets, ending)

/-- What the writer makes of a packet; longer ones it leaves out. -/
def frame (packet : List UInt8) : List UInt8 := 0 :: (toBeBytes 2 packet.length ++ (packet ++ [0xff]))

/-! ### One packet -/

/-- A frame that is cut off or has a wrong marker. -/
inductive Torn : List UInt8 → Prop where
  | cut {packet : List UInt8} (h : packet.length ≤ 65535) {n : Nat} (hpos : 0 < n)
      (hlt : n < (frame packet).length) : Torn ((frame packet).take n)
  | front {delim : UInt8} (h : delim ≠ 0x00) (rest : List UInt8) : Torn (delim :: rest)
  | back {packet : List UInt8} (h : packet.length ≤ 65535) {delim : UInt8} (hdelim : delim ≠ 0xff)
      (rest : List UInt8) : Torn (0 :: (toBeBytes 2 packet.length ++ (packet ++ delim :: rest)))

variable {reader : ByteStream} {packet rest : List UInt8}

theorem length_frame (packet : List UInt8) : (frame packet).length = packet.length + 4 := by
  simp [frame, length_toBeBytes]
  omega

theorem readExact_one {b : UInt8} (h : reader.bytes = b :: rest) :
    ∃ reader', reader.readExact 1 = some ([b], reader') ∧ reader'.bytes = rest :=
  @ByteStream.readExact_append reader [b] rest h

theorem read_end (h : reader.bytes = []) :
    readMieruEncapsulatedPacket maxUdpPayloadSize reader = .ok ([], .empty) := by
  have hnone : reader.readExact 1 = none := ByteStream.readExact_eq_none (by rw [h]; exact Nat.one_pos)
  rw [readMieruEncapsulatedPacket, hnone]

theorem read_front {delim : UInt8} (h : reader.bytes = delim :: rest) (hne : delim ≠ 0x00) :
    readMieruEncapsulatedPacket maxUdpPayloadSize reader = .error (.invalidPrefix delim) := by
  obtain ⟨_, hdelim, -⟩ := readExact_one h
  rw [readMieruEncapsulatedPacket, hdelim]
  exact if_pos hne

/-- Behind the length only the body is left to read. -/
theorem read_length (hlen : packet.length ≤ 65535) (h : reader.bytes = 0 :: (toBeBytes 2 packet.length ++ rest)) :
    ∃ reader', reader'.bytes = rest ∧
      readMieruEncapsulatedPacket maxUdpPayloadSize reader = readBody packet.length reader' := by
  obtain ⟨middle, hdelim, hmiddle⟩ := readExact_one h
  obtain ⟨reader', hbytes, hrest⟩ := ByteStream.readExact_append hmiddle
  rw [length_toBeBytes] at hbytes
  have hvalue := toNat_u16At_toBeBytes (show packet.length < 2 ^ 16 by omega) []
  rw [List.append_nil] at hvalue
  refine ⟨reader', hrest, ?_⟩
  rw [readMieruEncapsulatedPacket, hdelim]
  simp only [byteAt, List.getD_cons_zero, ne_eq, not_true_eq_false, if_false, hbytes, hvalue]
  exact if_neg (Nat.not_lt.mpr hlen)

theorem readBody_append {delim : UInt8} (h : reader.bytes = packet ++ delim :: rest) : ∃ reader', reader'.bytes = rest ∧
    readBody packet.length reader = if delim ≠ 0xff then .error (.invalidSuffix delim) else .ok (packet, reader') := by
  obtain ⟨middle, hpacket, hmiddle⟩ := ByteStream.readExact_append h
  obtain ⟨reader', hdelim, hrest⟩ := readExact_one hmiddle
  refine ⟨reader', hrest, ?_⟩
  rw [readBody, hpacket]
  simp only [hdelim]
  rfl

theorem readBody_short (h : reader.bytes = packet.take n) (hlt : n ≤ packet.length) :
    readBody packet.length reader = .error .unexpectedEof := by
  rcases Nat.lt_or_eq_of_le hlt with hlt | rfl
  · have hnone : reader.readExact packet.length = none := ByteStream.readExact_eq_none (by
      rw [h, List.length_take]
      omega)
    rw [readBody, hnone]
  · rw [List.take_length] at h
    obtain ⟨middle, hpacket, hmiddle⟩ := ByteStream.readExact_append (h.trans (List.append_nil packet).symm)
    have hnone : middle.readExact 1 = none := ByteStream.readExact_eq_none (by rw [hmiddle]; exact Nat.one_pos)
    rw [readBody, hpacket]
    simp only [hnone]

theorem read_frame (hlen : packet.length ≤ 65535) (h : reader.bytes = frame packet ++ rest) : ∃ reader',
    reader'.bytes = rest ∧ readMieruEncapsulatedPacket maxUdpPayloadSize reader = .ok (packet, reader') := by
  rw [frame, List.cons_append, List.append_assoc, List.append_assoc] at h
  obtain ⟨middle, hmiddle, hread⟩ := read_length hlen h
  obtain ⟨reader', hrest, hbody⟩ := readBody_append hmiddle
  exact ⟨reader', hrest, by rw [hread, hbody, if_neg (not_not_intro rfl)]⟩

theorem read_torn (h : Torn reader.bytes) :
    ∃ e, readMieruEncapsulatedPacket maxUdpPayloadSize reader = .error e := by
  generalize hbytes : reader.bytes = bytes at h
  cases h with
  | front hne rest => exact ⟨_, read_front hbytes hne⟩
  | back hlen hdelim rest =>
      obtain ⟨middle, hmiddle, hread⟩ := read_length hlen hbytes
      obtain ⟨_, -, hbody⟩ := readBody_append hmiddle
      exact ⟨_, by rw [hread, hbody, if_pos hdelim]⟩
  | @cut packet hlen n hpos hlt =>
      rw [length_frame] at hlt
      obtain ⟨m, rfl⟩ : ∃ m, n = m + 1 := ⟨n - 1, by omega⟩
      rw [frame, List.take_succ_cons] at hbytes
      rcases Nat.lt_or_ge m 2 with hm | hm
      · -- inside the length
        obtain ⟨middle, hdelim, hmiddle⟩ := readExact_one hbytes
        have hnone : middle.readExact 2 = none := ByteStream.readExact_eq_none (by
          rw [hmiddle, List.length_take]
          omega)
        refine ⟨.unexpectedEof, ?_⟩
        rw [readMieruEncapsulatedPacket, hdelim]
        simp only [byteAt, List.getD_cons_zero, ne_eq, not_true_eq_false, if_false, hnone]
      · rw [List.take_append, List.take_of_length_le (by rwa [length_toBeBytes]), length_toBeBytes,
          List.take_append_of_le_length (by omega)] at hbytes
        obtain ⟨middle, hmiddle, hread⟩ := read_length hlen hbytes
        exact ⟨_, hread.trans (readBody_short hmiddle (by omega))⟩

/-! ### All packets -/

theorem readLoop_ok {fuel : Nat} {reader' : ByteStream} (hne : packet ≠ [])
    (h : readMieruEncapsulatedPacket maxUdpPayloadSize reader = .ok (packet, reader')) :
    readLoop (fuel + 1) reader = (readLoop fuel reader').map fun (packets, ending) => (packet :: packets, ending) := by
  rw [readLoop, h]
  exact if_neg (mt List.length_eq_zero_iff.mp hne)

theorem readLoop_empty {fuel : Nat} {reader' : ByteStream}
    (h : readMieruEncapsulatedPacket maxUdpPayloadSize reader = .ok ([], reader')) :
    readLoop (fuel + 1) reader = some ([], .done) := by
  rw [readLoop, h]
  rfl

variable {packets : List (List UInt8)} {tail : List UInt8}

/-- Packets with something in them all arrive, and then the end or what is wrong. -/
theorem readLoop_frames (hlen : ∀ packet ∈ packets, packet.length ≤ 65535) (hne : ∀ packet ∈ packets, packet ≠ [])
    (htail : tail = [] ∨ Torn tail) (h : reader.bytes = packets.flatMap frame ++ tail) {fuel : Nat}
    (hfuel : packets.length < fuel) :
    ∃ ending, readLoop fuel reader = some (packets, ending) ∧ (ending = .done ↔ tail = []) := by
  induction packets generalizing reader fuel with
  | nil =>
      obtain ⟨fuel, rfl⟩ : ∃ n, fuel = n + 1 := ⟨fuel - 1, by omega⟩
      rw [List.flatMap_nil, List.nil_append] at h
      rcases htail with rfl | htorn
      · exact ⟨.done, readLoop_empty (read_end h), by simp⟩
      · obtain ⟨e, hread⟩ := read_torn (h ▸ htorn)
        refine ⟨.failed e, by rw [readLoop, hread], by simp, ?_⟩
        rintro rfl
        rw [read_end h] at hread
        cases hread
  | cons packet packets ih =>
      obtain ⟨fuel, rfl⟩ : ∃ n, fuel = n + 1 := ⟨fuel - 1, by omega⟩
      rw [List.flatMap_cons, List.append_assoc] at h
      obtain ⟨reader', hrest, hread⟩ := read_frame (hlen packet List.mem_cons_self) h
      obtain ⟨ending, hloop, hending⟩ := ih (fun p hp => hlen p (List.mem_cons_of_mem packet hp))
        (fun p hp => hne p (List.mem_cons_of_mem packet hp)) hrest (Nat.lt_of_succ_lt_succ hfuel)
      exact ⟨ending, by rw [readLoop_ok (hne packet List.mem_cons_self) hread, hloop]; rfl, hending⟩

/-- At an empty packet the loop is done, whatever comes behind it. -/
theorem readLoop_stops (hlen : ∀ packet ∈ packets, packet.length ≤ 65535) (hempty : [] ∈ packets)
    (h : reader.bytes = packets.flatMap frame ++ tail) {fuel : Nat} (hfuel : packets.length < fuel) :
    readLoop fuel reader = some (packets.takeWhile (· ≠ []), .done) := by
  induction packets generalizing reader fuel with
  | nil => cases hempty
  | cons packet packets ih =>
      obtain ⟨fuel, rfl⟩ : ∃ n, fuel = n + 1 := ⟨fuel - 1, by omega⟩
      rw [List.flatMap_cons, List.append_assoc] at h
      obtain ⟨reader', hrest, hread⟩ := read_frame (hlen packet List.mem_cons_self) h
      rcases eq_or_ne packet [] with rfl | hne
      · exact readLoop_empty hread
      · have hmem : [] ∈ packets := (List.mem_cons.mp hempty).resolve_left hne.symm
        rw [readLoop_ok hne hread, ih (fun p hp => hlen p (List.mem_cons_of_mem packet hp)) hmem hrest
          (Nat.lt_of_succ_lt_succ hfuel), List.takeWhile_cons_of_pos (by simpa using hne)]
        rfl

/-- The framing is lossless exactly for packets that are not empty. -/
theorem readLoop_frames_iff (hlen : ∀ packet ∈ packets, packet.length ≤ 65535) (htail : tail = [] ∨ Torn tail)
    (h : reader.bytes = packets.flatMap frame ++ tail) {fuel : Nat} (hfuel : packets.length < fuel) :
    (∃ ending, readLoop fuel reader = some (packets, ending) ∧ (ending = .done ↔ tail = [])) ↔
      ∀ packet ∈ packets, packet ≠ [] := by
  refine ⟨?_, fun hne => readLoop_frames hlen hne htail h hfuel⟩
  rintro ⟨ending, hloop, -⟩ packet hmem rfl
  rw [readLoop_stops hlen hmem h hfuel] at hloop
  have hall := (Prod.mk.inj (Option.some_inj.mp hloop)).1
  have hne := List.mem_takeWhile_imp (hall ▸ hmem)
  simp at hne

/-- An empty packet between two others, in one segment. -/
def emptyBetween : ByteStream := .single (frame [1] ++ frame [] ++ frame [2]) (by simp [frame])

theorem readLoop_frames_iff_three :
    (∃ ending, readLoop 4 emptyBetween = some ([[1], [], [2]], ending) ∧ (ending = .done ↔ ([] : List UInt8) = [])) ↔
      ∀ packet ∈ [[1], [], ([2] : List UInt8)], packet ≠ [] :=
  readLoop_frames_iff (by decide) (.inl rfl) (by decide) (by decide)

/-- The packet behind the empty one is lost. -/
theorem readLoop_emptyBetween : readLoop 4 emptyBetween = some ([[1]], .done) ∧
    emptyBetween.bytes = [[1], [], [2]].flatMap frame := by decide

end Mieru

end Elise
