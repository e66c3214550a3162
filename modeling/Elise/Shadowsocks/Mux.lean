/-
Elise/Shadowsocks/Mux.lean

The frames of the plugin mux (`Codec` and the writer of `serve` in
src/protocol/shadowsocks/mux.rs).

Two formats share one decoder: smux v1, and the mux of VMess with its metadata.  The decoder looks
into the buffer and takes nothing off it before a frame is complete.  `Follows` goes through it
line by line: no access is out of bounds, and an answer stays the same when more comes in behind.
-/
import Elise.Lib.Checked
import Elise.Lib.Decoder
import Elise.Lib.Wire

namespace Elise

namespace Shadowsocks

inductive Mux where
  | vmess
  | smux
  deriving DecidableEq, Repr

namespace Mux

open Net Checked Decoder

structure Frame where
  id : UInt32
  status : UInt8
  options : UInt8
  payload : List UInt8
  deriving DecidableEq, Repr

/-- The errors, with the texts of the source. -/
inductive Error where
  | unsupported (message : String)
  | invalid (message : String)
  deriving DecidableEq, Repr

abbrev Reply := Decoder.Answer Unit UInt8 Frame Error

/-! ### The buffer -/

/-- `u16::from_le_bytes([bytes[i], bytes[i + 1]])`. -/
def u16LeAt (bytes : List UInt8) (i : Nat) : Option Nat :=
  (index bytes i).bind fun lo => (index bytes (i + 1)).map fun hi => ofBeBytes [hi, lo]

/-- `u32::from_le_bytes` of four bytes in a row. -/
def u32LeAt (bytes : List UInt8) (i : Nat) : Option UInt32 :=
  (slice bytes i (i + 4)).map fun field => UInt32.ofNat (ofBeBytes field.reverse)

/-- `src.advance(n)`. -/
def advance (src : List UInt8) (n : Nat) : Option (List UInt8) :=
  if n ≤ src.length then some (src.drop n) else none

/-- `src.split_to(n)`, and what is left. -/
def splitTo (src : List UInt8) (n : Nat) : Option (List UInt8 × List UInt8) :=
  if n ≤ src.length then some (src.take n, src.drop n) else none

/-- The frame is taken off the buffer: what stands before the payload, and the payload. -/
def takeFrame (src : List UInt8) (before size : Nat) (id : UInt32) (status options : UInt8) :
    Option Reply :=
  (advance src before).bind fun src =>
    (splitTo src size).map fun p => .frame ⟨id, status, options, p.1⟩ () p.2

/-! ### The decoder -/

/-- The status that a command of smux stands for. -/
def smuxStatus (command : UInt8) : Option UInt8 :=
  match command with
  | 0 => some 1
  | 1 => some 3
  | 2 => some 2
  | 3 => some 4
  | _ => none

def decodeSmux (src : List UInt8) : Option Reply :=
  if src.length < 8 then some (.more () src)
  else
    (index src 0).bind fun version =>
      if version ≠ 1 then some (.failed (.unsupported "GOST requires smux v1") () src)
      else
        (u16LeAt src 2).bind fun length =>
          (u32LeAt src 4).bind fun id =>
            (index src 1).bind fun command =>
              match smuxStatus command with
              | none => some (.failed (.invalid "Invalid smux command") () src)
              | some status =>
                  if status ≠ 2 ∧ length ≠ 0 then
                    some (.failed (.invalid "smux control frame has payload") () src)
                  else if src.length < 8 + length then some (.more () src)
                  else takeFrame src 8 length id status (if status = 2 then 1 else 0)

/-- The length of an address in a header, by its kind. -/
def addressLen (header : List UInt8) : Option (Option Nat) :=
  (index header 3).bind fun kind =>
    if kind = 1 then some (some 8)
    else if kind = 3 then some (some 20)
    else if kind = 2 ∧ 5 ≤ header.length then
      (index header 4).map fun len => if len ≠ 0 then some (5 + len.toNat) else none
    else some none

/-- What is wrong with a destination, if anything is. -/
def checkDestination (header : List UInt8) : Option (Option Error) :=
  if header.length < 4 then some (some (.invalid "Truncated mux destination"))
  else
    (index header 0).bind fun network =>
      if network ≠ 1 then some (some (.unsupported "SS plugin mux requires TCP streams"))
      else
        (addressLen header).map fun
          | none => some (.invalid "Invalid mux address")
          | some len =>
              if header.length < len then some (.invalid "Truncated mux address") else none

/-- What is wrong with the destination of a header, which has one if it is longer than four bytes. -/
def destination (src : List UInt8) (length : Nat) : Option (Option Error) :=
  if 4 < length then (slice src 6 (length + 2)).bind checkDestination else some none

/-- The payload behind a header, which ends at `offset`. -/
def takePayload (src : List UInt8) (offset : Nat) (id : UInt32) (status options : UInt8) :
    Option Reply :=
  if options &&& 1 ≠ 0 then
    if src.length < offset + 2 then some (.more () src)
    else
      (u16BeAt src offset).bind fun size =>
        if src.length < offset + 2 + size then some (.more () src)
        else takeFrame src (offset + 2) size id status options
  else if src.length < offset + 0 then some (.more () src)
  else takeFrame src offset 0 id status options

def decodeVmess (src : List UInt8) : Option Reply :=
  if src.length < 2 then some (.more () src)
  else
    (u16BeAt src 0).bind fun length =>
      if ¬ (4 ≤ length ∧ length ≤ 512) then
        some (.failed (.invalid "Invalid mux header length") () src)
      else if src.length < length + 2 then some (.more () src)
      else
        (u16BeAt src 2).bind fun id =>
          (index src 4).bind fun status =>
            (index src 5).bind fun options =>
              if ¬ (1 ≤ status ∧ status ≤ 4) ∨ options &&& ~~~3 ≠ 0 then
                some (.failed (.invalid "Invalid mux status/options") () src)
              else if status = 1 ∧ length = 4 then
                some (.failed (.invalid "Mux New lacks destination") () src)
              else
                (destination src length).bind fun
                  | some e => some (.failed e () src)
                  | none => takePayload src (length + 2) (UInt32.ofNat id) status options

/-- `Codec::decode`; `none` is an access out of bounds. -/
def decode? : Mux → List UInt8 → Option Reply
  | .smux => decodeSmux
  | .vmess => decodeVmess

/-! ### The writer -/

/-- The command of smux for a status. -/
def smuxCommand (status : UInt8) : UInt8 :=
  match status with
  | 1 => 0
  | 2 => 2
  | 3 => 1
  | _ => 3

/-- The fields of a header without a destination. -/
def vmessFields (frame : Frame) : List UInt8 :=
  [0, 4, (frame.id >>> 8).toUInt8, frame.id.toUInt8, frame.status, frame.options]

def header (mux : Mux) (frame : Frame) : List UInt8 :=
  match mux with
  | .smux =>
      [1, smuxCommand frame.status] ++ toLeBytes 2 frame.payload.length ++
        toLeBytes 4 frame.id.toNat
  | .vmess =>
      if frame.options &&& 1 ≠ 0 then vmessFields frame ++ toBeBytes 2 frame.payload.length
      else vmessFields frame

def write (mux : Mux) (frame : Frame) : List UInt8 := header mux frame ++ frame.payload

/-- What `serve` sends: data, the end of a stream with or without an error, and keep-alives. -/
inductive Sends : Frame → Prop where
  | data (id : UInt32) (payload : List UInt8) (h : payload.length ≤ 16384) :
      Sends ⟨id, 2, 1, payload⟩
  | ended (id : UInt32) (failed : Bool) : Sends ⟨id, 3, if failed then 2 else 0, []⟩
  | keepAlive (id : UInt32) : Sends ⟨id, 4, 0, []⟩

/-- The identifier has room in the format. -/
def Fits (mux : Mux) (frame : Frame) : Prop := mux = .vmess → frame.id.toNat < 2 ^ 16

/-! ### Going through the decoder -/

/-- What is computed on a buffer, and on the buffer with more behind it: the first does not break;
it needs more and leaves everything as it is, or the second comes to the same.  A frame takes
something off. -/
def Follows (src ext : List UInt8) (c c' : Option Reply) : Prop :=
  ∃ a, c = some a ∧ (a = .more () src ∨ c' = some (a.extend ext)) ∧
    (∀ s rest, a = .more s rest → rest = src) ∧
    ∀ f s rest, a = .frame f s rest → rest.length < src.length

variable {src ext : List UInt8} {c c' : Option Reply}

theorem follows_more : Follows src ext (some (.more () src)) c' := by
  refine ⟨.more () src, rfl, .inl rfl, ?_, nofun⟩
  rintro s rest h
  injection h with _ h
  exact h.symm

theorem follows_failed (e : Error) :
    Follows src ext (some (.failed e () src)) (some (.failed e () (src ++ ext))) :=
  ⟨.failed e () src, rfl, .inr rfl, nofun, nofun⟩

/-- A value is read from the buffer. -/
theorem follows_bind {α : Type} {r r' : Option α} {k k' : α → Option Reply} (hsafe : Safe r)
    (hsame : r' = r) (hk : ∀ a, r = some a → Follows src ext (k a) (k' a)) :
    Follows src ext (r.bind k) (r'.bind k') := by
  obtain ⟨a, ha⟩ := hsafe
  rw [hsame, ha]
  exact hk a ha

theorem follows_ite {p : Prop} [Decidable p] {d d' : Option Reply}
    (hc : p → Follows src ext c c') (hd : ¬ p → Follows src ext d d') :
    Follows src ext (if p then c else d) (if p then c' else d') := by
  split
  · rename_i h
    exact hc h
  · rename_i h
    exact hd h

/-- The buffer must hold `n` bytes. -/
theorem follows_short {n : Nat} (hc : n ≤ src.length → Follows src ext c c') :
    Follows src ext (if src.length < n then some (.more () src) else c)
      (if (src ++ ext).length < n then some (.more () (src ++ ext)) else c') := by
  by_cases h : src.length < n
  · rw [if_pos h]
    exact follows_more
  · have h' : ¬ (src ++ ext).length < n := by
      rw [List.length_append]
      omega
    rw [if_neg h, if_neg h']
    exact hc (by omega)

theorem takeFrame_eq {before size : Nat} (h : before + size ≤ src.length) (id : UInt32)
    (status options : UInt8) :
    takeFrame src before size id status options =
      some (.frame ⟨id, status, options, (src.drop before).take size⟩ () (src.drop (before + size))) := by
  have hsize : size ≤ (src.drop before).length := by
    rw [List.length_drop]
    omega
  rw [takeFrame, advance, if_pos (by omega), Option.bind_some, splitTo, if_pos hsize,
    Option.map_some, List.drop_drop]

theorem follows_takeFrame {before size : Nat} (hpos : 0 < before) (h : before + size ≤ src.length)
    (id : UInt32) (status options : UInt8) :
    Follows src ext (takeFrame src before size id status options)
      (takeFrame (src ++ ext) before size id status options) := by
  have h' : before + size ≤ (src ++ ext).length := by
    rw [List.length_append]
    omega
  refine ⟨_, takeFrame_eq h id status options, .inr ?_, nofun, ?_⟩
  · rw [takeFrame_eq h', List.drop_append_of_le_length (by omega),
      List.drop_append_of_le_length h, List.take_append_of_le_length (by rw [List.length_drop]; omega)]
    rfl
  · rintro f s rest heq
    injection heq with _ _ heq
    rw [← heq, List.length_drop]
    omega

theorem safe_u16LeAt {bytes : List UInt8} {i : Nat} (h : i + 2 ≤ bytes.length) :
    Safe (u16LeAt bytes i) := by
  obtain ⟨lo, hlo⟩ := safe_index (show i < bytes.length by omega)
  obtain ⟨hi, hhi⟩ := safe_index (show i + 1 < bytes.length by omega)
  rw [u16LeAt, hlo, Option.bind_some, hhi]
  exact safe_some _

theorem safe_u32LeAt {bytes : List UInt8} {i : Nat} (h : i + 4 ≤ bytes.length) :
    Safe (u32LeAt bytes i) := by
  obtain ⟨field, hfield⟩ := safe_slice (show i ≤ i + 4 by omega) h
  rw [u32LeAt, hfield]
  exact safe_some _

theorem u16LeAt_append (ext : List UInt8) {bytes : List UInt8} {i : Nat}
    (h : i + 2 ≤ bytes.length) : u16LeAt (bytes ++ ext) i = u16LeAt bytes i := by
  rw [u16LeAt, u16LeAt, index_append ext (by omega), index_append ext (by omega)]

theorem u32LeAt_append (ext : List UInt8) {bytes : List UInt8} {i : Nat}
    (h : i + 4 ≤ bytes.length) : u32LeAt (bytes ++ ext) i = u32LeAt bytes i := by
  rw [u32LeAt, u32LeAt, slice_append ext h]

theorem follows_decodeSmux (src ext : List UInt8) :
    Follows src ext (decodeSmux src) (decodeSmux (src ++ ext)) := by
  rw [decodeSmux, decodeSmux]
  apply follows_short
  intro hheader
  apply follows_bind (safe_index (by omega)) (index_append ext (by omega))
  intro version _
  apply follows_ite
  · intro _
    exact follows_failed _
  intro _
  apply follows_bind (safe_u16LeAt (by omega)) (u16LeAt_append ext (by omega))
  intro length _
  apply follows_bind (safe_u32LeAt (by omega)) (u32LeAt_append ext (by omega))
  intro id _
  apply follows_bind (safe_index (by omega)) (index_append ext (by omega))
  intro command _
  cases smuxStatus command with
  | none => exact follows_failed _
  | some status =>
      apply follows_ite
      · intro _
        exact follows_failed _
      intro _
      apply follows_short
      intro hlen
      exact follows_takeFrame (by decide) hlen id status _

theorem safe_addressLen {header : List UInt8} (h : 4 ≤ header.length) : Safe (addressLen header) := by
  rw [addressLen]
  apply (safe_index (by omega)).bind
  intro kind _
  split
  · exact safe_some _
  · split
    · exact safe_some _
    · split
      · rename_i hfive
        obtain ⟨len, hlen⟩ := safe_index (show 4 < header.length by omega)
        rw [hlen]
        exact safe_some _
      · exact safe_some _

theorem safe_checkDestination (header : List UInt8) : Safe (checkDestination header) := by
  rw [checkDestination]
  split
  · exact safe_some _
  · apply (safe_index (by omega)).bind
    intro network _
    split
    · exact safe_some _
    · obtain ⟨len, hlen⟩ := safe_addressLen (show 4 ≤ header.length by omega)
      rw [hlen]
      exact safe_some _

theorem follows_takePayload {offset : Nat} (hpos : 0 < offset)
    (id : UInt32) (status options : UInt8) :
    Follows src ext (takePayload src offset id status options)
      (takePayload (src ++ ext) offset id status options) := by
  rw [takePayload, takePayload]
  apply follows_ite
  · intro _
    apply follows_short
    intro hsize
    apply follows_bind (safe_u16BeAt hsize) (u16BeAt_append ext hsize)
    intro size _
    apply follows_short
    intro hlen
    exact follows_takeFrame (by omega) hlen id status options
  · intro _
    apply follows_short
    intro hlen
    exact follows_takeFrame hpos hlen id status options

theorem safe_destination {length : Nat} (h : length + 2 ≤ src.length) :
    Safe (destination src length) := by
  rw [destination]
  split
  · apply (safe_slice (by omega) h).bind
    intro header _
    exact safe_checkDestination header
  · exact safe_some _

theorem destination_append (ext : List UInt8) {length : Nat} (h : length + 2 ≤ src.length) :
    destination (src ++ ext) length = destination src length := by
  rw [destination, destination, slice_append ext h]

theorem follows_decodeVmess (src ext : List UInt8) :
    Follows src ext (decodeVmess src) (decodeVmess (src ++ ext)) := by
  rw [decodeVmess, decodeVmess]
  apply follows_short
  intro hlength
  apply follows_bind (safe_u16BeAt (by omega)) (u16BeAt_append ext (by omega))
  intro length _
  apply follows_ite
  · intro _
    exact follows_failed _
  intro hrange
  apply follows_short
  intro hheader
  apply follows_bind (safe_u16BeAt (by omega)) (u16BeAt_append ext (by omega))
  intro id _
  apply follows_bind (safe_index (by omega)) (index_append ext (by omega))
  intro status _
  apply follows_bind (safe_index (by omega)) (index_append ext (by omega))
  intro options _
  apply follows_ite
  · intro _
    exact follows_failed _
  intro _
  apply follows_ite
  · intro _
    exact follows_failed _
  intro _
  apply follows_bind (safe_destination hheader) (destination_append ext hheader)
  intro wrong _
  cases wrong with
  | some e => exact follows_failed e
  | none => exact follows_takePayload (by omega) _ status options

theorem follows (mux : Mux) (src ext : List UInt8) :
    Follows src ext (decode? mux src) (decode? mux (src ++ ext)) := by
  cases mux with
  | smux => exact follows_decodeSmux src ext
  | vmess => exact follows_decodeVmess src ext

/-- **No access is out of bounds.** -/
theorem isSome_decode? (mux : Mux) (src : List UInt8) : (decode? mux src).isSome := by
  obtain ⟨a, ha, -⟩ := follows mux src []
  rw [ha]
  rfl

/-- What the decoder answers. -/
def decode (mux : Mux) (_ : Unit) (src : List UInt8) : Reply :=
  (decode? mux src).get (isSome_decode? mux src)

theorem decode_eq {mux : Mux} {a : Reply} (h : decode? mux src = some a) : decode mux () src = a :=
  Option.get_of_eq_some _ h

theorem incremental (mux : Mux) : Incremental (decode mux) := by
  apply Incremental.of_extend
  · intro _
    cases mux <;> rfl
  · intro _ src s rest h
    obtain ⟨a, ha, -, hmore, -⟩ := follows mux src []
    obtain rfl := decode_eq ha
    exact ⟨rfl, hmore s rest h⟩
  · intro _ src f s rest h
    obtain ⟨a, ha, -, -, hframe⟩ := follows mux src []
    obtain rfl := decode_eq ha
    exact hframe f s rest h
  · intro _ src ext h
    obtain ⟨a, ha, hext, -⟩ := follows mux src ext
    obtain rfl := decode_eq ha
    rcases hext with hmore | hext
    · exact absurd hmore (h () src)
    · exact decode_eq hext

/-! ### What the writer writes -/

theorem takeFrame_all (head payload : List UInt8) (id : UInt32) (status options : UInt8) :
    takeFrame (head ++ payload) head.length payload.length id status options =
      some (.frame ⟨id, status, options, payload⟩ () []) := by
  have hlen : head.length + payload.length = (head ++ payload).length :=
    (List.length_append).symm
  rw [takeFrame_eq hlen.le, List.drop_left, List.take_length, List.drop_of_length_le hlen.ge]

theorem u16LeAt_toLeBytes {pos n : Nat} {bytes rest : List UInt8}
    (h : StandsAt bytes pos (toLeBytes 2 n ++ rest)) (hn : n < 65536) :
    u16LeAt bytes pos = some n := by
  obtain ⟨lo, hi, htwo⟩ := List.length_eq_two.mp (length_toLeBytes 2 n)
  have hvalue : ofBeBytes [hi, lo] = n := by
    have hback : [hi, lo] = toBeBytes 2 n := by
      rw [← List.reverse_reverse (toBeBytes 2 n), show (toBeBytes 2 n).reverse = [lo, hi] from htwo]
      rfl
    rw [hback]
    exact ofBeBytes_toBeBytes hn
  rw [htwo] at h
  have hnext : StandsAt bytes (pos + [lo].length) (hi :: rest) :=
    StandsAt.skip (show StandsAt bytes pos ([lo] ++ hi :: rest) from h)
  rw [u16LeAt, StandsAt.index h, Option.bind_some, show pos + 1 = pos + [lo].length from rfl,
    hnext.index, Option.map_some, hvalue]

theorem u32LeAt_toLeBytes {pos : Nat} {id : UInt32} {bytes rest : List UInt8}
    (h : StandsAt bytes pos (toLeBytes 4 id.toNat ++ rest)) : u32LeAt bytes pos = some id := by
  have hslice := h.slice
  rw [length_toLeBytes] at hslice
  have hback : (toLeBytes 4 id.toNat).reverse = toBeBytes 4 id.toNat := List.reverse_reverse _
  rw [u32LeAt, hslice, Option.map_some, hback, ofBeBytes_toBeBytes id.toNat_lt, UInt32.ofNat_toNat]

theorem decodeSmux_write {frame : Frame} (hlen : frame.payload.length < 65536)
    (hcommand : smuxStatus (smuxCommand frame.status) = some frame.status)
    (hcontrol : frame.status ≠ 2 → frame.payload = []) :
    decodeSmux (write .smux frame) =
      some (.frame { frame with options := if frame.status = 2 then 1 else 0 } () []) := by
  obtain ⟨id, status, options, payload⟩ := frame
  simp only at hlen hcommand hcontrol ⊢
  have hhead : (header .smux ⟨id, status, options, payload⟩).length = 8 := by
    simp [header, length_toLeBytes]
  have hwrite : write .smux ⟨id, status, options, payload⟩ =
      header .smux ⟨id, status, options, payload⟩ ++ payload := rfl
  have hall : (write .smux ⟨id, status, options, payload⟩).length = 8 + payload.length := by
    rw [hwrite, List.length_append, hhead]
  have hversion : index (write .smux ⟨id, status, options, payload⟩) 0 = some 1 := rfl
  have hcmd : index (write .smux ⟨id, status, options, payload⟩) 1 = some (smuxCommand status) := rfl
  have hfields : write .smux ⟨id, status, options, payload⟩ =
      [1, smuxCommand status] ++ (toLeBytes 2 payload.length ++
        (toLeBytes 4 id.toNat ++ payload)) := by
    simp [write, header, List.append_assoc]
  have hsize : StandsAt (write .smux ⟨id, status, options, payload⟩) 2
      (toLeBytes 2 payload.length ++ (toLeBytes 4 id.toNat ++ payload)) := by
    rw [hfields]
    exact standsAt_append [1, smuxCommand status] _
  have hid := hsize.skip
  rw [length_toLeBytes] at hid
  have hok : ¬ (status ≠ 2 ∧ payload.length ≠ 0) := by
    rintro ⟨hne, hpayload⟩
    rw [hcontrol hne] at hpayload
    exact hpayload rfl
  rw [decodeSmux, if_neg (by omega), hversion, Option.bind_some, if_neg (not_not.mpr rfl),
    u16LeAt_toLeBytes hsize hlen, Option.bind_some, u32LeAt_toLeBytes hid, Option.bind_some, hcmd,
    Option.bind_some, hcommand]
  simp only
  rw [if_neg hok, if_neg (by omega), hwrite, ← hhead]
  exact takeFrame_all _ payload id status _

/-- The two bytes of an identifier. -/
theorem ofBeBytes_id {id : UInt32} (h : id.toNat < 2 ^ 16) :
    ofBeBytes [(id >>> 8).toUInt8, id.toUInt8] = id.toNat := by
  have hhi : (id >>> 8).toUInt8.toNat = id.toNat / 256 % 256 := by
    rw [UInt32.toNat_toUInt8, UInt32.toNat_shiftRight, Nat.shiftRight_eq_div_pow]
    rfl
  have hlo : id.toUInt8.toNat = id.toNat % 256 := UInt32.toNat_toUInt8 id
  show (0 * 256 + (id >>> 8).toUInt8.toNat) * 256 + id.toUInt8.toNat = id.toNat
  rw [hhi, hlo]
  omega

/-- A header without a destination. -/
theorem decodeVmess_short (hi lo status options : UInt8) (tail : List UInt8)
    (hstatus : 2 ≤ status ∧ status ≤ 4) (hoptions : options &&& ~~~3 = 0) :
    decodeVmess (0 :: 4 :: hi :: lo :: status :: options :: tail) =
      takePayload (0 :: 4 :: hi :: lo :: status :: options :: tail) 6
        (UInt32.ofNat (ofBeBytes [hi, lo])) status options := by
  have hlen : 6 ≤ (0 :: 4 :: hi :: lo :: status :: options :: tail).length := by
    simp only [List.length_cons]
    omega
  have hlength : u16BeAt (0 :: 4 :: hi :: lo :: status :: options :: tail) 0 = some 4 := rfl
  have hid : u16BeAt (0 :: 4 :: hi :: lo :: status :: options :: tail) 2 =
      some (ofBeBytes [hi, lo]) := rfl
  have hst : index (0 :: 4 :: hi :: lo :: status :: options :: tail) 4 = some status := rfl
  have hop : index (0 :: 4 :: hi :: lo :: status :: options :: tail) 5 = some options := rfl
  have hone : (1 : UInt8) ≤ status := by
    have := UInt8.le_iff_toNat_le.mp hstatus.1
    apply UInt8.le_iff_toNat_le.mpr
    simp at this ⊢
    omega
  have hgood : ¬ (¬ (1 ≤ status ∧ status ≤ 4) ∨ options &&& ~~~3 ≠ 0) := by
    rintro (hbad | hbad)
    · exact hbad ⟨hone, hstatus.2⟩
    · exact hbad hoptions
  have hnew : ¬ (status = 1 ∧ (4 : Nat) = 4) := by
    rintro ⟨rfl, -⟩
    exact absurd hstatus.1 (by decide)
  have hnone : destination (0 :: 4 :: hi :: lo :: status :: options :: tail) 4 = some none := rfl
  rw [decodeVmess, if_neg (by omega), hlength, Option.bind_some, if_neg (by decide),
    if_neg (by omega), hid, Option.bind_some, hst, Option.bind_some, hop, Option.bind_some,
    if_neg hgood, if_neg hnew, hnone]
  rfl

theorem takePayload_none (head : List UInt8) (id : UInt32) (status : UInt8) {options : UInt8}
    (h : options &&& 1 = 0) :
    takePayload head head.length id status options = some (.frame ⟨id, status, options, []⟩ () []) := by
  have hall := takeFrame_all head [] id status options
  rw [List.append_nil, List.length_nil] at hall
  rw [takePayload, if_neg (not_not.mpr h), Nat.add_zero, if_neg (Nat.lt_irrefl _), hall]

theorem takePayload_data (head : List UInt8) {payload : List UInt8} (id : UInt32) (status : UInt8)
    {options : UInt8} (h : options &&& 1 ≠ 0) (hlen : payload.length < 65536) :
    takePayload (head ++ toBeBytes 2 payload.length ++ payload) head.length id status options =
      some (.frame ⟨id, status, options, payload⟩ () []) := by
  have hsize : StandsAt (head ++ toBeBytes 2 payload.length ++ payload) head.length
      (toBeBytes 2 payload.length ++ payload) := by
    rw [List.append_assoc]
    exact standsAt_append head _
  have hhead : (head ++ toBeBytes 2 payload.length).length = head.length + 2 := by
    rw [List.length_append, length_toBeBytes]
  have hall : (head ++ toBeBytes 2 payload.length ++ payload).length =
      head.length + 2 + payload.length := by
    rw [List.length_append, hhead]
  rw [takePayload, if_pos h, if_neg (by omega), hsize.u16 hlen, Option.bind_some,
    if_neg (by omega), ← hhead]
  exact takeFrame_all _ payload id status options

theorem decodeVmess_write {frame : Frame} (hlen : frame.payload.length < 65536)
    (hid : frame.id.toNat < 2 ^ 16) (hstatus : 2 ≤ frame.status ∧ frame.status ≤ 4)
    (hoptions : frame.options &&& ~~~3 = 0)
    (hplain : frame.options &&& 1 = 0 → frame.payload = []) :
    decodeVmess (write .vmess frame) = some (.frame frame () []) := by
  obtain ⟨id, status, options, payload⟩ := frame
  simp only at hlen hid hstatus hoptions hplain ⊢
  have hback : UInt32.ofNat (ofBeBytes [(id >>> 8).toUInt8, id.toUInt8]) = id := by
    rw [ofBeBytes_id hid, UInt32.ofNat_toNat]
  by_cases hdata : options &&& 1 = 0
  · -- no payload
    have hwrite : write .vmess ⟨id, status, options, payload⟩ =
        vmessFields ⟨id, status, options, payload⟩ ++ payload := by
      rw [write, header]
      simp only
      rw [if_neg (not_not.mpr hdata)]
    obtain rfl := hplain hdata
    rw [hwrite, List.append_nil]
    show decodeVmess (0 :: 4 :: (id >>> 8).toUInt8 :: id.toUInt8 :: status :: options :: []) = _
    rw [decodeVmess_short _ _ _ _ _ hstatus hoptions, hback]
    exact takePayload_none (vmessFields ⟨id, status, options, []⟩) id status hdata
  · have hwrite : write .vmess ⟨id, status, options, payload⟩ =
        vmessFields ⟨id, status, options, payload⟩ ++ toBeBytes 2 payload.length ++ payload := by
      rw [write, header]
      simp only
      rw [if_pos hdata]
    rw [hwrite]
    show decodeVmess (0 :: 4 :: (id >>> 8).toUInt8 :: id.toUInt8 :: status :: options :: _) = _
    rw [decodeVmess_short _ _ _ _ _ hstatus hoptions, hback]
    exact takePayload_data (vmessFields ⟨id, status, options, payload⟩) id status hdata hlen

/-- What is sent is data, or it has no payload. -/
theorem Sends.shape {frame : Frame} (h : Sends frame) :
    frame.status = 2 ∧ frame.options = 1 ∧ frame.payload.length ≤ 16384 ∨
      (frame.status = 3 ∨ frame.status = 4) ∧ (frame.options = 0 ∨ frame.options = 2) ∧
        frame.payload = [] := by
  cases h with
  | data id payload h => exact .inl ⟨rfl, rfl, h⟩
  | ended id failed =>
      cases failed with
      | false => exact .inr ⟨.inl rfl, .inl rfl, rfl⟩
      | true => exact .inr ⟨.inl rfl, .inr rfl, rfl⟩
  | keepAlive id => exact .inr ⟨.inr rfl, .inl rfl, rfl⟩

theorem decode_write (mux : Mux) {frame : Frame} (hs : Sends frame) (hf : Fits mux frame) :
    ∃ options, decode mux () (write mux frame) =
      .frame { frame with options := options } () [] := by
  have hlen : frame.payload.length < 65536 := by
    rcases hs.shape with ⟨-, -, hle⟩ | ⟨-, -, hnone⟩
    · omega
    · rw [hnone]
      decide
  cases mux with
  | smux =>
      refine ⟨_, decode_eq (decodeSmux_write hlen ?_ ?_)⟩
      · rcases hs.shape with ⟨h, -⟩ | ⟨h | h, -⟩ <;> rw [h] <;> rfl
      · intro hne
        rcases hs.shape with ⟨h, -⟩ | ⟨-, -, hnone⟩
        · exact absurd h hne
        · exact hnone
  | vmess =>
      refine ⟨frame.options, decode_eq (decodeVmess_write hlen (hf rfl) ?_ ?_ ?_)⟩
      · rcases hs.shape with ⟨h, -⟩ | ⟨h | h, -⟩ <;> rw [h] <;> decide
      · rcases hs.shape with ⟨-, h, -⟩ | ⟨-, h | h, -⟩ <;> rw [h] <;> decide
      · intro hplain
        rcases hs.shape with ⟨-, h, -⟩ | ⟨-, -, hnone⟩
        · rw [h] at hplain
          exact absurd hplain (by decide)
        · exact hnone

/-- What a receiver makes of a frame. -/
def Frame.seen (frame : Frame) : UInt32 × UInt8 × List UInt8 :=
  (frame.id, frame.status, frame.payload)

/-- Frames that are written one after the other are decoded one after the other. -/
theorem decodes_writes (mux : Mux) {frames : List Frame} (hs : ∀ frame ∈ frames, Sends frame)
    (hf : ∀ frame ∈ frames, Fits mux frame) :
    ∃ decoded, Decodes (decode mux) () (frames.flatMap (write mux)) decoded () ∧
      decoded.map (fun p => p.1.seen) = frames.map Frame.seen := by
  induction frames with
  | nil => exact ⟨[], decodes_nil (), rfl⟩
  | cons frame frames ih =>
      obtain ⟨decoded, hdecoded, hseen⟩ := ih (fun f h => hs f (List.mem_cons_of_mem _ h))
        (fun f h => hf f (List.mem_cons_of_mem _ h))
      obtain ⟨options, hfirst⟩ := decode_write mux (hs frame List.mem_cons_self)
        (hf frame List.mem_cons_self)
      refine ⟨_, ((incremental mux).decodes_single hfirst).append hdecoded, ?_⟩
      rw [List.map_append, hseen]
      rfl

/-- **The codec of the mux**: the decoder stays within the buffer, the frames and the error do not
depend on how the bytes are cut, and what the writer sends is decoded, with nothing left over. -/
theorem codec (mux : Mux) :
    (∀ src, (decode? mux src).isSome) ∧
    (∀ pieces pieces' : List (List UInt8), pieces.flatten = pieces'.flatten →
      (feedAll (decode mux) () pieces).frames = (feedAll (decode mux) () pieces').frames ∧
      (feedAll (decode mux) () pieces).error = (feedAll (decode mux) () pieces').error) ∧
    ∀ frames : List Frame, (∀ frame ∈ frames, Sends frame) → (∀ frame ∈ frames, Fits mux frame) →
      ∀ pieces : List (List UInt8), pieces.flatten = frames.flatMap (write mux) →
        (feedAll (decode mux) () pieces).frames.map (fun p => p.1.seen) = frames.map Frame.seen ∧
        (feedAll (decode mux) () pieces).error = none ∧
        (feedAll (decode mux) () pieces).rest = [] := by
  refine ⟨isSome_decode? mux, ?_, ?_⟩
  · intro pieces pieces' h
    rw [(incremental mux).feedAll_congr () h]
    exact ⟨rfl, rfl⟩
  · intro frames hs hf pieces hpieces
    obtain ⟨decoded, hdecodes, hseen⟩ := decodes_writes mux hs hf
    rw [(incremental mux).feedAll_of_decodes hdecodes hpieces]
    exact ⟨hseen, rfl, rfl⟩

end Mux

end Shadowsocks

end Elise
