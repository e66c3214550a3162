/-
Elise/Anytls/Padding.lean

The padding of AnyTLS (src/protocol/anytls/padding.rs, and the task that writes in
src/protocol/anytls/session.rs).

A scheme says for each of the first frames in what sizes it is written.  Where a
size is larger than what is left of the frame, the rest of it is filled with frames
of their own, which the client throws away.  What is written of a frame is the
frame and then such waste (`padRecords_flatten`), so the client reads the frames in
their order, with complete waste frames between them (`padding_transparent`).

The sizes are random: a write is given the numbers that it draws.
-/
import Elise.Anytls.Session
import Elise.Lib.Text

namespace Elise

namespace Anytls

open Net

/-! ### Schemes -/

def cmdWaste : UInt8 := 0

inductive PaddingRange where
  | checkMark
  | range (min max : UInt16)
  | exact (size : UInt16)
  deriving DecidableEq, Repr

structure CompiledPaddingScheme where
  raw : List Char
  md5Bytes : List UInt8
  md5Hex : List Char
  stop : UInt32
  records : AssocMap UInt32 (List PaddingRange)

/-- What is wrong with a scheme, with the text that the message shows. -/
inductive PaddingError where
  /-- `Invalid padding scheme line, missing '=': {line}` -/
  | missingEquals (line : List Char)
  /-- `Invalid stop value '{value}': {e}` -/
  | invalidStop (value : List Char)
  /-- `Invalid negative stop value: {s}` -/
  | negativeStop (s : Int)
  /-- `Invalid packet id '{key}': {e}` -/
  | invalidPacketId (key : List Char)
  /-- `Invalid padding range item '{item}' in line: {line}` -/
  | invalidItem (item line : List Char)
  /-- `Invalid min size '{min_s}': {e}` -/
  | invalidMin (min : List Char)
  /-- `Invalid max size '{max_s}': {e}` -/
  | invalidMax (max : List Char)
  /-- `Missing 'stop' in padding scheme` -/
  | missingStop
  deriving DecidableEq, Repr

/-- `parse::<i64>()` -/
def parseI64 (cs : List Char) : Option Int :=
  match cs with
  | '-' :: digits =>
      if digits.head? = some '+' then none
      else (Text.parseUnsigned (2 ^ 63) digits).map fun n => -(n : Int)
  | _ => (Text.parseUnsigned (2 ^ 63 - 1) cs).map fun n => (n : Int)

/-- One item of a line, or none where it is passed over. -/
def parseItem (line item : List Char) : Except PaddingError (Option PaddingRange) :=
  let item := Text.trim item
  if item = ['c'] then .ok (some .checkMark)
  else
    match Text.splitOnce '-' item with
    | none => .error (.invalidItem item line)
    | some (minS, maxS) =>
        match Text.parseUnsigned (2 ^ 16 - 1) (Text.trim minS) with
        | none => .error (.invalidMin minS)
        | some min =>
            match Text.parseUnsigned (2 ^ 16 - 1) (Text.trim maxS) with
            | none => .error (.invalidMax maxS)
            | some max =>
                let (min, max) := if max < min then (max, min) else (min, max)
                if min = 0 ∨ max = 0 then .ok none
                else if min = max then .ok (some (.exact (UInt16.ofNat min)))
                else .ok (some (.range (UInt16.ofNat min) (UInt16.ofNat max)))

def parseItems (line : List Char) : List (List Char) → Except PaddingError (List PaddingRange)
  | [] => .ok []
  | item :: items => do
      let range ← parseItem line item
      let ranges ← parseItems line items
      pure (range.toList ++ ranges)

/-- What was read of a scheme. -/
structure PaddingLines where
  stop : Option UInt32
  records : AssocMap UInt32 (List PaddingRange)

def PaddingLines.readLine (read : PaddingLines) (line : List Char) : Except PaddingError PaddingLines :=
  let line := Text.trim line
  if line = [] ∨ line.head? = some '#' then .ok read
  else
    match Text.splitOnce '=' line with
    | none => .error (.missingEquals line)
    | some (key, value) =>
        let key := Text.trim key
        let value := Text.trim value
        if key = "stop".toList then
          match parseI64 value with
          | none => .error (.invalidStop value)
          | some s =>
              if s < 0 then .error (.negativeStop s)
              else .ok { read with stop := some (UInt32.ofNat s.toNat) }
        else
          match Text.parseUnsigned (2 ^ 32 - 1) key with
          | none => .error (.invalidPacketId key)
          | some packetId => do
              let ranges ← parseItems line (value.splitOn ',')
              if ranges = [] then pure read
              else pure { read with records := read.records.insert (UInt32.ofNat packetId) ranges }

def PaddingLines.readLines (read : PaddingLines) : List (List Char) → Except PaddingError PaddingLines
  | [] => .ok read
  | line :: lines => do
      let read ← read.readLine line
      read.readLines lines

namespace CompiledPaddingScheme

/-- `md5` is the digest. -/
def parse (md5 : List UInt8 → List UInt8) (raw : List Char) : Except PaddingError CompiledPaddingScheme := do
  let read ← PaddingLines.readLines ⟨none, ∅⟩ (Text.lines raw)
  match read.stop with
  | none => .error .missingStop
  | some stop =>
      let md5Bytes := md5 (Text.toUtf8 raw)
      pure ⟨raw, md5Bytes, Text.hexEncode md5Bytes, stop, read.records⟩

/-! ### Sizes -/

/-- An `i32`, from what is drawn; -1 is a check mark. -/
def payloadSize (random : UInt32) : PaddingRange → Int
  | .checkMark => -1
  | .exact size => size.toNat
  | .range min max =>
      let diff := max.toUInt32 - min.toUInt32
      let offset := if 0 < diff then random % diff else 0
      (min.toUInt32 + offset).toNat

/-- `random` is what is drawn for each of the ranges. -/
def generateRecordPayloadSizes (scheme : CompiledPaddingScheme) (packet : UInt32) (random : Nat → UInt32) :
    Option (List Int) :=
  match scheme.records.get packet with
  | none => none
  | some ranges =>
      if ranges = [] then none
      else some (ranges.mapIdx fun i range => payloadSize (random i) range)

end CompiledPaddingScheme

/-! ### Writing -/

/-- Of `wasteLen` zeros. -/
def wasteFrame (wasteLen : Nat) : List UInt8 :=
  cmdWaste :: (toBeBytes 4 0 ++ (toBeBytes 2 (UInt16.ofNat wasteLen).toNat ++ List.replicate wasteLen 0))

/-- The two loops that fill a record: behind data each waste frame counts with its
header, and in a record without data it counts without. -/
def wasteFrames (overhead remainingPad : Nat) : List UInt8 :=
  if overhead < remainingPad then
    let wasteLen := min (remainingPad - overhead) maxFrameSize
    wasteFrame wasteLen ++ wasteFrames overhead (remainingPad - (overhead + wasteLen))
  else []
  termination_by remainingPad
  decreasing_by
    simp only [maxFrameSize]
    omega

/-- What is written of a frame, one write after the other. -/
def padRecords : List Int → List UInt8 → List (List UInt8)
  | [], remaining => if remaining = [] then [] else [remaining]
  | size :: sizes, remaining =>
      if size = -1 then
        if remaining = [] then [] else padRecords sizes remaining
      else
        let target := size.toNat
        if target < remaining.length then remaining.take target :: padRecords sizes (remaining.drop target)
        else if remaining ≠ [] then
          (remaining ++ wasteFrames frameOverhead (target - remaining.length)) :: padRecords sizes []
        else wasteFrames 0 target :: padRecords sizes []

/-- What the task that writes remembers. -/
structure PaddingState where
  packetCount : UInt32
  sendPadding : Bool
  deriving DecidableEq, Repr

def PaddingState.new : PaddingState := ⟨0, true⟩

def writePaddedFrame (scheme : CompiledPaddingScheme) (st : PaddingState) (data : List UInt8)
    (random : Nat → UInt32) : PaddingState × List (List UInt8) :=
  let packetCount := st.packetCount + 1
  if scheme.stop ≤ packetCount then (⟨packetCount, false⟩, [data])
  else
    match scheme.generateRecordPayloadSizes packetCount random with
    | none => (⟨packetCount, st.sendPadding⟩, [data])
    | some sizes => (⟨packetCount, st.sendPadding⟩, padRecords sizes data)

/-- A turn of the task. -/
def writeFrame (scheme : CompiledPaddingScheme) (st : PaddingState) (frame : List UInt8)
    (random : Nat → UInt32) : PaddingState × List (List UInt8) :=
  if st.sendPadding then writePaddedFrame scheme st frame random else (st, [frame])

/-- A frame that is sent, and what is drawn for it. -/
structure Sent where
  frame : Frame
  random : Nat → UInt32

/-- All the writes of the task. -/
def writerTask (scheme : CompiledPaddingScheme) : PaddingState → List Sent → List (List UInt8)
  | _, [] => []
  | st, sent :: more =>
      let bytes := makeFrame sent.frame.command sent.frame.streamId sent.frame.payload
      let written := writeFrame scheme st bytes sent.random
      written.2 ++ writerTask scheme written.1 more

/-! ### Waste -/

def Frame.IsWaste (frame : Frame) : Prop := frame.command = cmdWaste ∧ frame.streamId = 0

/-- Frames in their order, with waste between them. -/
inductive Interleaved : List Frame → List Frame → Prop
  | nil : Interleaved [] []
  | frame {frames read : List Frame} (f : Frame) : Interleaved frames read → Interleaved (f :: frames) (f :: read)
  | waste {frames read : List Frame} {f : Frame} : f.IsWaste → Interleaved frames read →
      Interleaved frames (f :: read)

theorem Interleaved.wastes {frames read waste : List Frame} (hwaste : ∀ f ∈ waste, f.IsWaste)
    (h : Interleaved frames read) : Interleaved frames (waste ++ read) := by
  induction waste with
  | nil => exact h
  | cons f waste ih =>
      apply Interleaved.waste (hwaste f List.mem_cons_self)
      exact ih fun g hg => hwaste g (List.mem_cons_of_mem _ hg)

theorem Complete.append {bytes bytes' : List UInt8} {frames frames' : List Frame} (h : Complete bytes frames)
    (h' : Complete bytes' frames') : Complete (bytes ++ bytes') (frames ++ frames') := by
  intro rest
  rw [List.append_assoc, h, h', List.append_assoc]

/-- The bytes are waste frames. -/
def Waste (bytes : List UInt8) : Prop :=
  ∃ waste, Complete bytes waste ∧ ∀ f ∈ waste, f.IsWaste

theorem Waste.nil : Waste [] := ⟨[], Complete.nil, by rintro f ⟨⟩⟩

theorem Waste.append {bytes bytes' : List UInt8} (h : Waste bytes) (h' : Waste bytes') :
    Waste (bytes ++ bytes') := by
  obtain ⟨waste, hread, hwaste⟩ := h
  obtain ⟨waste', hread', hwaste'⟩ := h'
  refine ⟨waste ++ waste', hread.append hread', ?_⟩
  rw [List.forall_mem_append]
  exact ⟨hwaste, hwaste'⟩

/-- A waste frame is made as any other frame is. -/
theorem wasteFrame_eq (wasteLen : Nat) : wasteFrame wasteLen = makeFrame cmdWaste 0 (List.replicate wasteLen 0) := by
  rw [makeFrame, List.length_replicate]
  rfl

theorem waste_wasteFrame {wasteLen : Nat} (h : wasteLen ≤ maxFrameSize) : Waste (wasteFrame wasteLen) := by
  rw [wasteFrame_eq]
  refine ⟨_, complete_makeFrame cmdWaste 0 (by rwa [List.length_replicate]), ?_⟩
  rw [List.forall_mem_singleton]
  exact ⟨rfl, rfl⟩

theorem waste_wasteFrames (overhead remainingPad : Nat) : Waste (wasteFrames overhead remainingPad) := by
  induction remainingPad using Nat.strongRecOn with
  | _ remainingPad ih =>
      rw [wasteFrames]
      split
      · apply (waste_wasteFrame (Nat.min_le_right _ _)).append
        apply ih
        simp only [maxFrameSize]
        omega
      · exact Waste.nil

/-- **What is written of a frame is the frame, cut somewhere, and then waste.** -/
theorem padRecords_flatten (sizes : List Int) (data : List UInt8) :
    ∃ waste, Waste waste ∧ (padRecords sizes data).flatten = data ++ waste := by
  induction sizes generalizing data with
  | nil =>
      refine ⟨[], Waste.nil, ?_⟩
      rw [padRecords, List.append_nil]
      split
      · rename_i hnil
        exact hnil.symm
      · exact List.flatten_singleton
  | cons size sizes ih =>
      rw [padRecords]
      split
      · -- a check mark
        split
        · rename_i hnil
          exact ⟨[], Waste.nil, by rw [hnil]; rfl⟩
        · exact ih data
      · dsimp only
        split
        · -- the frame goes on behind the cut
          obtain ⟨waste, hwaste, heq⟩ := ih (data.drop size.toNat)
          refine ⟨waste, hwaste, ?_⟩
          rw [List.flatten_cons, heq, ← List.append_assoc, List.take_append_drop]
        · obtain ⟨waste, hwaste, heq⟩ := ih []
          rw [List.nil_append] at heq
          split
          · refine ⟨_, (waste_wasteFrames frameOverhead (size.toNat - data.length)).append hwaste, ?_⟩
            rw [List.flatten_cons, heq, List.append_assoc]
          · rename_i hne
            refine ⟨_, (waste_wasteFrames 0 size.toNat).append hwaste, ?_⟩
            rw [List.flatten_cons, heq, not_not.mp hne]
            rfl

theorem writeFrame_flatten (scheme : CompiledPaddingScheme) (st : PaddingState) (frame : List UInt8)
    (random : Nat → UInt32) :
    ∃ waste, Waste waste ∧ (writeFrame scheme st frame random).2.flatten = frame ++ waste := by
  have hplain : ∃ waste, Waste waste ∧ [frame].flatten = frame ++ waste :=
    ⟨[], Waste.nil, by rw [List.flatten_singleton, List.append_nil]⟩
  rw [writeFrame]
  split
  · rw [writePaddedFrame]
    split
    · exact hplain
    · split
      · exact hplain
      · exact padRecords_flatten _ frame
  · exact hplain

/-- From any state of the task. -/
theorem writerTask_complete (scheme : CompiledPaddingScheme) (st : PaddingState) {sent : List Sent}
    (hfit : ∀ s ∈ sent, s.frame.payload.length ≤ maxFrameSize) :
    ∃ read, Complete (writerTask scheme st sent).flatten read ∧ Interleaved (sent.map Sent.frame) read := by
  induction sent generalizing st with
  | nil => exact ⟨[], Complete.nil, Interleaved.nil⟩
  | cons s more ih =>
      let bytes := makeFrame s.frame.command s.frame.streamId s.frame.payload
      have hframe : Complete bytes [s.frame] :=
        complete_makeFrame s.frame.command s.frame.streamId (hfit s List.mem_cons_self)
      obtain ⟨waste, ⟨wasted, hwaste, hall⟩, heq⟩ := writeFrame_flatten scheme st bytes s.random
      obtain ⟨read, hread, hinterleaved⟩ := ih (writeFrame scheme st bytes s.random).1
        fun s' hs' => hfit s' (List.mem_cons_of_mem _ hs')
      refine ⟨[s.frame] ++ wasted ++ read, ?_, ?_⟩
      · show Complete ((writeFrame scheme st bytes s.random).2 ++ _).flatten _
        rw [List.flatten_append, heq]
        exact (hframe.append hwaste).append hread
      · exact Interleaved.frame s.frame (Interleaved.wastes hall hinterleaved)

/-! ### Accepted schemes -/

/-- What `parse` lets through. -/
def PaddingRange.Valid : PaddingRange → Prop
  | .checkMark => True
  | .exact size => 0 < size.toNat
  | .range min max => 0 < min.toNat ∧ min.toNat < max.toNat

theorem le_of_parseUnsigned {bound n : Nat} {cs : List Char} (h : Text.parseUnsigned bound cs = some n) :
    n ≤ bound := by
  rw [Text.parseUnsigned] at h
  dsimp only at h
  split_ifs at h with hdigits hle
  obtain rfl := Option.some.inj h
  exact hle

theorem valid_of_parseItem {line item : List Char} {range : PaddingRange}
    (h : parseItem line item = .ok (some range)) : range.Valid := by
  rw [parseItem] at h
  dsimp only at h
  split at h
  · obtain rfl := Option.some.inj (Except.ok.inj h)
    exact trivial
  split at h
  · cases h
  split at h
  · cases h
  rename_i min hmin
  split at h
  · cases h
  rename_i max hmax
  have hminle := le_of_parseUnsigned hmin
  have hmaxle := le_of_parseUnsigned hmax
  -- the sizes are exchanged if they stand in the wrong order
  obtain ⟨low, high, hle, hhigh, hpair⟩ : ∃ low high, low ≤ high ∧ high ≤ 2 ^ 16 - 1 ∧
      (if max < min then (max, min) else (min, max)) = (low, high) := by
    split_ifs with hlt
    · exact ⟨max, min, Nat.le_of_lt hlt, hminle, rfl⟩
    · exact ⟨min, max, Nat.le_of_not_lt hlt, hmaxle, rfl⟩
  rw [hpair] at h
  dsimp only at h
  have hofNat : ∀ n ≤ 2 ^ 16 - 1, (UInt16.ofNat n).toNat = n :=
    fun n hn => UInt16.toNat_ofNat_of_lt' (Nat.lt_of_le_of_lt hn (by decide))
  split_ifs at h with hzero heq
  · cases h
  · obtain rfl := Option.some.inj (Except.ok.inj h)
    show 0 < (UInt16.ofNat low).toNat
    rw [hofNat low (Nat.le_trans hle hhigh)]
    omega
  · obtain rfl := Option.some.inj (Except.ok.inj h)
    show 0 < (UInt16.ofNat low).toNat ∧ (UInt16.ofNat low).toNat < (UInt16.ofNat high).toNat
    rw [hofNat low (Nat.le_trans hle hhigh), hofNat high hhigh]
    omega

theorem valid_of_parseItems {line : List Char} {items : List (List Char)} {ranges : List PaddingRange}
    (h : parseItems line items = .ok ranges) : ∀ range ∈ ranges, range.Valid := by
  induction items generalizing ranges with
  | nil =>
      obtain rfl := Except.ok.inj h
      rintro range ⟨⟩
  | cons item items ih =>
      rw [parseItems] at h
      cases hitem : parseItem line item with
      | error e =>
          rw [hitem] at h
          cases h
      | ok first =>
          cases hitems : parseItems line items with
          | error e =>
              rw [hitem, hitems] at h
              cases h
          | ok more =>
              rw [hitem, hitems] at h
              obtain rfl := Except.ok.inj h
              rw [List.forall_mem_append]
              refine ⟨?_, ih hitems⟩
              intro range hrange
              obtain rfl := Option.mem_toList.mp hrange
              exact valid_of_parseItem hitem

/-- All the ranges of the records. -/
def PaddingLines.Valid (read : PaddingLines) : Prop :=
  ∀ packet ranges, read.records.get packet = some ranges → ∀ range ∈ ranges, range.Valid

theorem PaddingLines.Valid.readLine {read read' : PaddingLines} (hvalid : read.Valid) {line : List Char}
    (h : read.readLine line = .ok read') : read'.Valid := by
  rw [PaddingLines.readLine] at h
  dsimp only at h
  split at h
  · obtain rfl := Except.ok.inj h
    exact hvalid
  split at h
  · cases h
  split at h
  · split at h
    · cases h
    split at h
    · cases h
    · obtain rfl := Except.ok.inj h
      exact hvalid
  split at h
  · cases h
  rename_i key value _ _ _ packetId _
  cases hitems : parseItems (Text.trim line) ((Text.trim value).splitOn ',') with
  | error e =>
      rw [hitems] at h
      cases h
  | ok ranges =>
      rw [hitems] at h
      have hif : (if ranges = [] then Except.ok read
        else .ok { read with records := read.records.insert (UInt32.ofNat packetId) ranges }) = .ok read' := h
      split_ifs at hif with hnil
      · obtain rfl := Except.ok.inj hif
        exact hvalid
      · obtain rfl := Except.ok.inj hif
        intro packet found hget
        rcases AssocMap.get_insert_eq_some hget with ⟨-, rfl⟩ | ⟨-, hold⟩
        · exact valid_of_parseItems hitems
        · exact hvalid packet found hold

theorem PaddingLines.Valid.readLines {lines : List (List Char)} {read read' : PaddingLines}
    (hvalid : read.Valid) (h : read.readLines lines = .ok read') : read'.Valid := by
  induction lines generalizing read with
  | nil =>
      obtain rfl := Except.ok.inj h
      exact hvalid
  | cons line lines ih =>
      rw [PaddingLines.readLines] at h
      cases hline : read.readLine line with
      | error e =>
          rw [hline] at h
          cases h
      | ok next =>
          rw [hline] at h
          exact ih (hvalid.readLine hline) h

theorem CompiledPaddingScheme.valid_of_parse {md5 : List UInt8 → List UInt8} {raw : List Char}
    {scheme : CompiledPaddingScheme} (h : CompiledPaddingScheme.parse md5 raw = .ok scheme) {packet : UInt32}
    {ranges : List PaddingRange} (hget : scheme.records.get packet = some ranges) :
    ∀ range ∈ ranges, range.Valid := by
  rw [CompiledPaddingScheme.parse] at h
  cases hlines : PaddingLines.readLines ⟨none, ∅⟩ (Text.lines raw) with
  | error e =>
      rw [hlines] at h
      cases h
  | ok read =>
      rw [hlines] at h
      have hvalid : read.Valid := by
        apply PaddingLines.Valid.readLines ?_ hlines
        rintro packet ranges ⟨⟩
      obtain ⟨stop, records⟩ := read
      cases stop with
      | none => cases h
      | some stop =>
          obtain rfl := Except.ok.inj h
          exact hvalid packet ranges hget

/-- A size is drawn below the larger one of a range. -/
theorem CompiledPaddingScheme.payloadSize_of_valid {range : PaddingRange} (h : range.Valid) (random : UInt32) :
    payloadSize random range = -1 ∨ (1 ≤ payloadSize random range ∧ payloadSize random range ≤ 65535) := by
  cases range with
  | checkMark => exact Or.inl rfl
  | exact size =>
      have hlt := size.toNat_lt
      have hpos : 0 < size.toNat := h
      right
      show (1 : Int) ≤ (size.toNat : Int) ∧ (size.toNat : Int) ≤ 65535
      omega
  | range min max =>
      obtain ⟨hpos, hless⟩ := h
      have hmax := max.toNat_lt
      have hdiff : (max.toUInt32 - min.toUInt32).toNat = max.toNat - min.toNat := by
        rw [UInt32.toNat_sub_of_le]
        · rfl
        · exact Nat.le_of_lt hless
      have hif : 0 < max.toUInt32 - min.toUInt32 := by
        rw [UInt32.lt_iff_toNat_lt, hdiff]
        exact Nat.sub_pos_of_lt hless
      have hoffset : (random % (max.toUInt32 - min.toUInt32)).toNat < max.toNat - min.toNat := by
        rw [UInt32.toNat_mod, hdiff]
        exact Nat.mod_lt _ (Nat.sub_pos_of_lt hless)
      have hsum : (min.toUInt32 + random % (max.toUInt32 - min.toUInt32)).toNat =
          min.toNat + (random % (max.toUInt32 - min.toUInt32)).toNat := by
        rw [UInt32.toNat_add]
        apply Nat.mod_eq_of_lt
        show min.toNat + _ < 2 ^ 32
        omega
      right
      show (1 : Int) ≤ ((min.toUInt32 + if 0 < max.toUInt32 - min.toUInt32 then _ else 0).toNat : Int) ∧
        ((min.toUInt32 + if 0 < max.toUInt32 - min.toUInt32 then _ else 0).toNat : Int) ≤ 65535
      rw [if_pos hif, hsum]
      omega

/-- **Padding does not show**: what a client reads of the writes of the task is the
frames that were sent, in their order, with waste between them and nothing left
over.  A size of an accepted scheme is a check mark or a number of 16 bits, and
never zero. -/
theorem padding_transparent {md5 : List UInt8 → List UInt8} {raw : List Char} {scheme : CompiledPaddingScheme}
    (hparse : CompiledPaddingScheme.parse md5 raw = .ok scheme) {sent : List Sent}
    (hfit : ∀ s ∈ sent, s.frame.payload.length ≤ maxFrameSize) :
    (∃ read, Complete (writerTask scheme PaddingState.new sent).flatten read ∧
      Interleaved (sent.map Sent.frame) read) ∧
    ∀ packet random sizes, scheme.generateRecordPayloadSizes packet random = some sizes →
      ∀ size ∈ sizes, size = -1 ∨ (1 ≤ size ∧ size ≤ 65535) := by
  refine ⟨writerTask_complete scheme PaddingState.new hfit, ?_⟩
  intro packet random sizes hsizes size hmem
  rw [CompiledPaddingScheme.generateRecordPayloadSizes] at hsizes
  split at hsizes
  · cases hsizes
  rename_i ranges hget
  split_ifs at hsizes
  obtain rfl := Option.some.inj hsizes
  obtain ⟨i, hi, rfl⟩ := List.mem_mapIdx.mp hmem
  apply CompiledPaddingScheme.payloadSize_of_valid
  exact CompiledPaddingScheme.valid_of_parse hparse hget _ (List.getElem_mem hi)

/-- `DEFAULT_PADDING_SCHEME` -/
def defaultPaddingScheme : List Char :=
  ("stop=8\n0=30-30\n1=100-400\n2=400-500,c,500-1000,c,500-1000,c,500-1000,c,500-1000\n3=9-9,500-1000\n" ++
    "4=500-1000\n5=500-1000\n6=500-1000\n7=500-1000").toList

/-- Its digest. -/
def defaultMd5 : List UInt8 := [117, 207, 242, 173, 137, 170, 223, 94, 37, 112, 89, 238, 87, 30, 190, 17]

/-- Two frames under the default scheme. -/
theorem padding_transparent_default :
    ∃ scheme read, CompiledPaddingScheme.parse (fun _ => defaultMd5) defaultPaddingScheme = .ok scheme ∧
      Complete (writerTask scheme PaddingState.new
        [⟨⟨cmdPsh, 1, [1, 2, 3]⟩, fun _ => 7⟩, ⟨⟨cmdFin, 1, []⟩, fun _ => 0⟩]).flatten read ∧
      Interleaved [⟨cmdPsh, 1, [1, 2, 3]⟩, ⟨cmdFin, 1, []⟩] read := by
  have hok : (CompiledPaddingScheme.parse (fun _ => defaultMd5) defaultPaddingScheme).isOk = true := by
    decide +kernel
  have hfit : ∀ s ∈ ([⟨⟨cmdPsh, 1, [1, 2, 3]⟩, fun _ => 7⟩, ⟨⟨cmdFin, 1, []⟩, fun _ => 0⟩] : List Sent),
      s.frame.payload.length ≤ maxFrameSize := by
    rw [List.forall_mem_cons, List.forall_mem_singleton]
    decide
  cases hparse : CompiledPaddingScheme.parse (fun _ => defaultMd5) defaultPaddingScheme with
  | error e =>
      rw [hparse] at hok
      cases hok
  | ok scheme =>
      obtain ⟨read, hread, hinterleaved⟩ := (padding_transparent hparse hfit).1
      exact ⟨scheme, read, rfl, hread, hinterleaved⟩

end Anytls

end Elise
