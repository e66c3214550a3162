/-
Elise/Hysteria/Obfs.lean

The obfuscation of packets (src/protocol/hysteria/obfs.rs).

A packet is masked with a digest of the password and a salt that is sent in front
of it.  Salamander takes BLAKE2b, which the source spells out; XPlus takes
SHA-256 of a library.  Gecko masks as Salamander does, but it takes a packet that
begins with a set bit for a fragment of its own and puts it aside, so it gives
back no packet of this kind (`deobfuscate_obfuscate_iff`); and those are the
packets with which each QUIC connection begins.
-/
import Elise.Lib.AssocMap
import Elise.Lib.Wire

namespace Elise

namespace Hysteria

open Net

/-! ### BLAKE2b -/

def blake2bIv : List UInt64 := [
  0x6a09e667f3bcc908, 0xbb67ae8584caa73b, 0x3c6ef372fe94f82b, 0xa54ff53a5f1d36f1,
  0x510e527fade682d1, 0x9b05688c2b3e6c1f, 0x1f83d9abfb41bd6b, 0x5be0cd19137e2179]

def sigma : List (List Nat) := [
  [0, 1, 2, 3, 4, 5, 6, 7, 8, 9, 10, 11, 12, 13, 14, 15],
  [14, 10, 4, 8, 9, 15, 13, 6, 1, 12, 0, 2, 11, 7, 5, 3],
  [11, 8, 12, 0, 5, 2, 15, 13, 10, 14, 3, 6, 7, 1, 9, 4],
  [7, 9, 3, 1, 13, 12, 11, 14, 2, 6, 5, 10, 4, 0, 15, 8],
  [9, 0, 5, 7, 2, 4, 10, 15, 14, 1, 11, 12, 6, 8, 3, 13],
  [2, 12, 6, 10, 0, 11, 8, 3, 4, 13, 7, 5, 15, 14, 1, 9],
  [12, 5, 1, 15, 14, 13, 4, 10, 0, 7, 6, 3, 9, 2, 8, 11],
  [13, 11, 7, 14, 12, 1, 3, 9, 5, 0, 15, 4, 8, 6, 2, 10],
  [6, 15, 14, 9, 11, 3, 0, 8, 12, 2, 13, 7, 1, 4, 10, 5],
  [10, 2, 8, 4, 7, 6, 1, 5, 15, 11, 9, 14, 3, 12, 13, 0]]

def wordAt (v : List UInt64) (i : Nat) : UInt64 := v.getD i 0

def rotateRight (x : UInt64) (n : UInt64) : UInt64 := x >>> n ||| x <<< (64 - n)

/-- `g` -/
def mixWords (v : List UInt64) (a b c d : Nat) (x y : UInt64) : List UInt64 :=
  let v := v.set a (wordAt v a + wordAt v b + x)
  let v := v.set d (rotateRight (wordAt v d ^^^ wordAt v a) 32)
  let v := v.set c (wordAt v c + wordAt v d)
  let v := v.set b (rotateRight (wordAt v b ^^^ wordAt v c) 24)
  let v := v.set a (wordAt v a + wordAt v b + y)
  let v := v.set d (rotateRight (wordAt v d ^^^ wordAt v a) 16)
  let v := v.set c (wordAt v c + wordAt v d)
  v.set b (rotateRight (wordAt v b ^^^ wordAt v c) 63)

def mixRound (m v : List UInt64) (round : Nat) : List UInt64 :=
  let word i := wordAt m ((sigma.getD (round % 10) []).getD i 0)
  let v := mixWords v 0 4 8 12 (word 0) (word 1)
  let v := mixWords v 1 5 9 13 (word 2) (word 3)
  let v := mixWords v 2 6 10 14 (word 4) (word 5)
  let v := mixWords v 3 7 11 15 (word 6) (word 7)
  let v := mixWords v 0 5 10 15 (word 8) (word 9)
  let v := mixWords v 1 6 11 12 (word 10) (word 11)
  let v := mixWords v 2 7 8 13 (word 12) (word 13)
  mixWords v 3 4 9 14 (word 14) (word 15)

/-- The counter `t` has 128 bits. -/
def blake2bCompress (h : List UInt64) (block : List UInt8) (t : Nat) (last : Bool) : List UInt64 :=
  let v := h ++ blake2bIv
  let v := v.set 12 (wordAt v 12 ^^^ UInt64.ofNat t)
  let v := v.set 13 (wordAt v 13 ^^^ UInt64.ofNat (t >>> 64))
  let v := if last then v.set 14 (~~~wordAt v 14) else v
  let m := (List.range 16).map fun i => UInt64.ofNat (ofBeBytes (bytesAt block (8 * i) 8).reverse)
  let v := (List.range 12).foldl (mixRound m) v
  (List.range 8).map fun i => wordAt h i ^^^ (wordAt v i ^^^ wordAt v (i + 8))

/-- The blocks but the last one. -/
def blake2bLoop : (fuel : Nat) → (h : List UInt64) → (t : Nat) → (data : List UInt8) →
    List UInt64 × Nat × List UInt8
  | 0, h, t, data => (h, t, data)
  | fuel + 1, h, t, data =>
      if 128 < data.length then
        blake2bLoop fuel (blake2bCompress h (data.take 128) (t + 128) false) (t + 128) (data.drop 128)
      else (h, t, data)

def blake2b256 (data : List UInt8) : List UInt8 :=
  let h := blake2bIv.set 0 (wordAt blake2bIv 0 ^^^ 0x01010020)
  let (h, t, data) := blake2bLoop data.length h 0 data
  let h := blake2bCompress h (data ++ List.replicate (128 - data.length) 0) (t + data.length) true
  (h.take 4).flatMap fun word => toLeBytes 8 word.toNat

/-- The digest of nothing. -/
example : blake2b256 [] = [
    0x0e, 0x57, 0x51, 0xc0, 0x26, 0xe5, 0x43, 0xb2, 0xe8, 0xab, 0x2e, 0xb0, 0x60, 0x99, 0xda, 0xa1,
    0xd1, 0xe5, 0xdf, 0x47, 0x77, 0x8f, 0x77, 0x87, 0xfa, 0xab, 0x45, 0xcd, 0xf1, 0x2f, 0xe3, 0xa8] := by
  decide +kernel

/-! ### Masks -/

/-- The mask repeats after 32 bytes. -/
def maskBytes (mask payload : List UInt8) : List UInt8 :=
  payload.mapIdx fun i b => b ^^^ byteAt mask (i % 32)

theorem maskBytes_maskBytes (mask payload : List UInt8) : maskBytes mask (maskBytes mask payload) = payload := by
  apply List.ext_getElem
  · rw [maskBytes, maskBytes, List.length_mapIdx, List.length_mapIdx]
  · intro i _ _
    simp only [maskBytes, List.getElem_mapIdx]
    rw [UInt8.xor_assoc, UInt8.xor_self, UInt8.xor_zero]

/-- The salt is made of the next random bytes. -/
def saltOf (len : Nat) (rng : Nat → UInt8) : List UInt8 := (List.range len).map rng

@[simp] theorem length_saltOf (len : Nat) (rng : Nat → UInt8) : (saltOf len rng).length = len := by
  rw [saltOf, List.length_map, List.length_range]

structure XPlusObfs where
  key : List UInt8
  deriving DecidableEq, Repr

namespace XPlusObfs

def saltLen : Nat := 16

def obfuscate (x : XPlusObfs) (sha256 : List UInt8 → List UInt8) (rng : Nat → UInt8) (payload : List UInt8) :
    List UInt8 :=
  let salt := saltOf saltLen rng
  salt ++ maskBytes (sha256 (x.key ++ salt)) payload

def deobfuscate (x : XPlusObfs) (sha256 : List UInt8 → List UInt8) (wire : List UInt8) :
    Option (List UInt8) :=
  if wire.length < saltLen then none
  else some (maskBytes (sha256 (x.key ++ wire.take saltLen)) (wire.drop saltLen))

theorem deobfuscate_obfuscate (x : XPlusObfs) (sha256 : List UInt8 → List UInt8) (rng : Nat → UInt8)
    (payload : List UInt8) : x.deobfuscate sha256 (x.obfuscate sha256 rng payload) = some payload := by
  have hsalt := length_saltOf saltLen rng
  rw [obfuscate, deobfuscate, if_neg (by rw [List.length_append]; omega)]
  rw [List.take_left' hsalt, List.drop_left' hsalt, maskBytes_maskBytes]

end XPlusObfs

structure SalamanderObfs where
  password : List UInt8
  deriving DecidableEq, Repr

namespace SalamanderObfs

def saltLen : Nat := 8

def obfuscate (s : SalamanderObfs) (rng : Nat → UInt8) (payload : List UInt8) : List UInt8 :=
  let salt := saltOf saltLen rng
  salt ++ maskBytes (blake2b256 (s.password ++ salt)) payload

/-- Something has to follow the salt. -/
def deobfuscate (s : SalamanderObfs) (wire : List UInt8) : Option (List UInt8) :=
  if wire.length ≤ saltLen then none
  else some (maskBytes (blake2b256 (s.password ++ wire.take saltLen)) (wire.drop saltLen))

theorem deobfuscate_obfuscate (s : SalamanderObfs) (rng : Nat → UInt8) (b : UInt8) (bs : List UInt8) :
    s.deobfuscate (s.obfuscate rng (b :: bs)) = some (b :: bs) := by
  have hsalt := length_saltOf saltLen rng
  have hmask : ∀ mask, (maskBytes mask (b :: bs)).length = bs.length + 1 := fun _ => List.length_mapIdx
  rw [obfuscate, deobfuscate, if_neg (by rw [List.length_append, hmask]; omega)]
  rw [List.take_left' hsalt, List.drop_left' hsalt, maskBytes_maskBytes]

end SalamanderObfs

/-! ### Fragments -/

def geckoFragmentFlag : UInt8 := 0x80
def geckoHeaderLen : Nat := 5

/-- Eight seconds, in nanoseconds. -/
def geckoLifetime : Nat := 8000000000

structure GeckoReassemblyEntry where
  chunks : List (Option (List UInt8))
  received : Nat
  total : UInt8
  /-- Nanoseconds. -/
  deadline : Nat
  deriving DecidableEq, Repr

/-- A fragment, without its padding. -/
structure GeckoFragment where
  msgId : UInt8
  index : Nat
  total : Nat
  data : List UInt8
  deriving DecidableEq, Repr

def GeckoFragment.parse (inner : List UInt8) : Option GeckoFragment :=
  if inner.length < geckoHeaderLen then none
  else
    let chunkIdx := (byteAt inner 2 >>> 4).toNat
    let totalChunks := (byteAt inner 2 &&& 0x0f).toNat
    let dataOffset := geckoHeaderLen + (u16At inner 3).toNat
    if totalChunks = 0 ∨ totalChunks ≤ chunkIdx ∨ inner.length < dataOffset then none
    else some ⟨byteAt inner 1, chunkIdx, totalChunks, inner.drop dataOffset⟩

abbrev GeckoTable := AssocMap (SocketAddr × UInt8) GeckoReassemblyEntry

/-- The entry for the first fragment of a message. -/
def GeckoReassemblyEntry.new (now total : Nat) : GeckoReassemblyEntry where
  chunks := List.replicate total none
  received := 0
  total := UInt8.ofNat total
  deadline := now + geckoLifetime

/-- A chunk is put in its place, unless one is there. -/
def GeckoReassemblyEntry.fill (entry : GeckoReassemblyEntry) (index : Nat) (data : List UInt8) :
    GeckoReassemblyEntry :=
  if entry.chunks.getD index none = none then
    { entry with chunks := entry.chunks.set index (some data), received := entry.received + 1 }
  else entry

/-- The chunks that are there, in order. -/
def GeckoReassemblyEntry.message (entry : GeckoReassemblyEntry) : List UInt8 :=
  (entry.chunks.filterMap id).flatten

namespace GeckoTable

/-- Entries past their deadline go when there are many. -/
def purge (table : GeckoTable) (now : Nat) : GeckoTable :=
  if 1024 < table.len then table.retain fun _ entry => now < entry.deadline else table

/-- The lookup of the entry, which is made if there is none. -/
def entryOr (table : GeckoTable) (key : SocketAddr × UInt8) (fresh : GeckoReassemblyEntry) :
    GeckoReassemblyEntry × GeckoTable :=
  match table.get key with
  | some entry => (entry, table)
  | none => (fresh, table.insert key fresh)

def push (table : GeckoTable) (now : Nat) (remote : SocketAddr) (f : GeckoFragment) :
    Option (List UInt8) × GeckoTable :=
  let key := (remote, f.msgId)
  let (entry, table) := (table.purge now).entryOr key (.new now f.total)
  if entry.total.toNat ≠ f.total ∨ entry.chunks.length ≤ f.index then (none, table)
  else
    let entry := entry.fill f.index f.data
    if entry.received = f.total then (some entry.message, (table.insert key entry).erase key)
    else (none, table.insert key entry)

end GeckoTable

/-- What is put aside is shorter than the packet, by its header. -/
theorem GeckoFragment.parse_spec {inner : List UInt8} {f : GeckoFragment} (h : parse inner = some f) :
    f.data.length < inner.length ∧ f.index < f.total ∧ f.total < 16 := by
  rw [parse] at h
  split at h
  · cases h
  · rename_i hlen
    dsimp only at h
    split at h
    · cases h
    · rename_i hright
      obtain rfl := Option.some.inj h
      rw [not_or, not_or] at hright
      refine ⟨?_, Nat.lt_of_not_le hright.2.1, ?_⟩
      · show (inner.drop (geckoHeaderLen + (u16At inner 3).toNat)).length < inner.length
        rw [List.length_drop]
        rw [geckoHeaderLen] at *
        omega
      · show (byteAt inner 2 &&& 0x0f).toNat < 16
        rw [UInt8.toNat_and]
        exact Nat.lt_succ_of_le Nat.and_le_right

namespace GeckoTable

theorem get_of_get_purge {table : GeckoTable} {now : Nat} {key : SocketAddr × UInt8}
    {entry : GeckoReassemblyEntry} (h : (table.purge now).get key = some entry) :
    table.get key = some entry := by
  rw [purge] at h
  split at h
  · rw [AssocMap.get_retain] at h
    exact (Option.filter_eq_some_iff.mp h).1
  · exact h

/-- A message that is given back and leaves the table as it was is the chunk that
has just come. -/
theorem message_of_push_eq {table : GeckoTable} {now : Nat} {remote : SocketAddr} {f : GeckoFragment}
    (hindex : f.index < f.total) {message : List UInt8}
    (h : table.push now remote f = (some message, table)) : message = f.data := by
  rw [push] at h
  dsimp only at h
  split at h
  · cases h
  · split at h
    · rename_i hfull
      obtain ⟨hmessage, htable⟩ := Prod.mk.inj h
      -- the entry is gone, so there was none before
      have hnone : table.get (remote, f.msgId) = none := by
        rw [← htable, AssocMap.get_erase_self]
      have hpurged : (table.purge now).get (remote, f.msgId) = none := by
        cases hget : (table.purge now).get (remote, f.msgId) with
        | none => rfl
        | some entry =>
            rw [get_of_get_purge hget] at hnone
            cases hnone
      have hentry : ((table.purge now).entryOr (remote, f.msgId) (.new now f.total)).1 = .new now f.total := by
        rw [entryOr, hpurged]
      have hslot : (List.replicate f.total (none : Option (List UInt8))).getD f.index none = none := by
        rw [List.getD_eq_getElem?_getD, List.getElem?_replicate_of_lt hindex]
        rfl
      rw [hentry, GeckoReassemblyEntry.fill, GeckoReassemblyEntry.new, if_pos hslot] at hfull hmessage
      have hone : f.total = 1 := hfull.symm
      have hzero : f.index = 0 := by omega
      rw [hone, hzero] at hmessage
      have hdata := Option.some.inj hmessage
      rw [← hdata]
      show [f.data].flatten = f.data
      exact List.flatten_singleton
    · cases h

end GeckoTable

structure GeckoObfs where
  salamander : SalamanderObfs
  reassembly : GeckoTable

namespace GeckoObfs

def obfuscate (g : GeckoObfs) (rng : Nat → UInt8) (payload : List UInt8) : List UInt8 :=
  g.salamander.obfuscate rng payload

/-- The packet, if there is one. -/
def deobfuscate (g : GeckoObfs) (now : Nat) (remote : SocketAddr) (wire : List UInt8) :
    Option (List UInt8) × GeckoObfs :=
  match g.salamander.deobfuscate wire with
  | none => (none, g)
  | some [] => (none, g)
  | some (b :: bs) =>
      if b &&& geckoFragmentFlag = 0 then (some (b :: bs), g)
      else
        match GeckoFragment.parse (b :: bs) with
        | none => (none, g)
        | some f =>
            let (message, table) := g.reassembly.push now remote f
            (message, { g with reassembly := table })

end GeckoObfs

/-! ### The obfuscators -/

inductive HysteriaObfuscator where
  | none
  | xplus (x : XPlusObfs)
  | salamander (s : SalamanderObfs)
  | gecko (g : GeckoObfs)

namespace HysteriaObfuscator

/-- SHA-256 is that of the crate `sha2`. -/
def obfuscate (o : HysteriaObfuscator) (sha256 : List UInt8 → List UInt8) (rng : Nat → UInt8)
    (payload : List UInt8) : List UInt8 :=
  match o with
  | none => payload
  | xplus x => x.obfuscate sha256 rng payload
  | salamander s => s.obfuscate rng payload
  | gecko g => g.obfuscate rng payload

/-- The packet, if there is one, and the obfuscator after it. -/
def deobfuscate (o : HysteriaObfuscator) (sha256 : List UInt8 → List UInt8) (now : Nat)
    (remote : SocketAddr) (wire : List UInt8) : Option (List UInt8) × HysteriaObfuscator :=
  match o with
  | none => (some wire, o)
  | xplus x => (x.deobfuscate sha256 wire, o)
  | salamander s => (s.deobfuscate wire, o)
  | gecko g =>
      let (packet, g) := g.deobfuscate now remote wire
      (packet, gecko g)

theorem gecko_deobfuscate (g : GeckoObfs) (sha256 : List UInt8 → List UInt8) (now : Nat)
    (remote : SocketAddr) (wire : List UInt8) :
    (gecko g).deobfuscate sha256 now remote wire =
      ((g.deobfuscate now remote wire).1, gecko (g.deobfuscate now remote wire).2) := rfl

theorem flag_eq_zero_iff : ∀ b : UInt8, b &&& geckoFragmentFlag = 0 ↔ b < 0x80 := by
  decide +kernel

/-- **What comes back is the packet, except from Gecko for a packet that begins
with a set bit.** -/
theorem deobfuscate_obfuscate_iff (o : HysteriaObfuscator) (sha256 : List UInt8 → List UInt8)
    (rng : Nat → UInt8) (now : Nat) (remote : SocketAddr) (b : UInt8) (bs : List UInt8) :
    o.deobfuscate sha256 now remote (o.obfuscate sha256 rng (b :: bs)) = (some (b :: bs), o) ↔
      ((∀ g, o ≠ gecko g) ∨ b < 0x80) := by
  cases o with
  | none => exact iff_of_true rfl (.inl fun g => by rintro ⟨⟩)
  | xplus x =>
      refine iff_of_true ?_ (.inl fun g => by rintro ⟨⟩)
      show (x.deobfuscate sha256 (x.obfuscate sha256 rng (b :: bs)), xplus x) = _
      rw [x.deobfuscate_obfuscate]
  | salamander s =>
      refine iff_of_true ?_ (.inl fun g => by rintro ⟨⟩)
      show (s.deobfuscate (s.obfuscate rng (b :: bs)), salamander s) = _
      rw [s.deobfuscate_obfuscate]
  | gecko g =>
      have hinner := g.salamander.deobfuscate_obfuscate rng b bs
      rw [gecko_deobfuscate]
      show ((g.deobfuscate now remote (g.obfuscate rng (b :: bs))).1,
        gecko (g.deobfuscate now remote (g.obfuscate rng (b :: bs))).2) = _ ↔ _
      rw [← flag_eq_zero_iff b, GeckoObfs.deobfuscate, GeckoObfs.obfuscate, hinner]
      dsimp only
      by_cases hplain : b &&& geckoFragmentFlag = 0
      · rw [if_pos hplain]
        exact iff_of_true rfl (.inr hplain)
      · rw [if_neg hplain]
        refine iff_of_false ?_ (by rintro (hgecko | hflag); exacts [hgecko g rfl, hplain hflag])
        cases hparse : GeckoFragment.parse (b :: bs) with
        | none =>
            intro heq
            cases (Prod.mk.inj heq).1
        | some f =>
            obtain ⟨hshort, hindex, _⟩ := GeckoFragment.parse_spec hparse
            intro heq
            obtain ⟨hmessage, hgecko⟩ := Prod.mk.inj heq
            have htable := congrArg GeckoObfs.reassembly (HysteriaObfuscator.gecko.inj hgecko)
            have hpush : g.reassembly.push now remote f = (some (b :: bs), g.reassembly) :=
              Prod.ext hmessage htable
            rw [← GeckoTable.message_of_push_eq hindex hpush] at hshort
            exact Nat.lt_irrefl _ hshort

/-! ### The first packet of a connection -/

/-- A packet of QUIC version 1 with a long header. -/
def initialPacket : List UInt8 := [0xc3, 0, 0, 0, 1, 8, 0x83, 0x94, 0xc8, 0xf0, 0x3e, 0x51, 0x57, 0x08]

def sampleGecko : GeckoObfs := ⟨⟨[112, 119]⟩, ∅⟩

def sampleRemote : SocketAddr := .v4 (.new 192 0 2 1) 443

/-- Its version is read as a message of no chunks. -/
theorem initialPacket_lost :
    (gecko sampleGecko).deobfuscate id 0 sampleRemote
      ((gecko sampleGecko).obfuscate id (fun _ => 0) initialPacket) = (Option.none, gecko sampleGecko) := by
  have hparse : GeckoFragment.parse (0xc3 :: initialPacket.tail) = Option.none := by decide
  have hflag : ¬ (0xc3 : UInt8) &&& geckoFragmentFlag = 0 := by decide
  have hinner := sampleGecko.salamander.deobfuscate_obfuscate (fun _ => 0) 0xc3 initialPacket.tail
  have hlost : sampleGecko.deobfuscate 0 sampleRemote (sampleGecko.obfuscate (fun _ => 0)
      (0xc3 :: initialPacket.tail)) = (Option.none, sampleGecko) := by
    rw [GeckoObfs.deobfuscate, GeckoObfs.obfuscate, hinner]
    dsimp only
    rw [if_neg hflag, hparse]
  rw [gecko_deobfuscate]
  show ((sampleGecko.deobfuscate 0 sampleRemote (sampleGecko.obfuscate (fun _ => 0)
    (0xc3 :: initialPacket.tail))).1, gecko (sampleGecko.deobfuscate 0 sampleRemote
      (sampleGecko.obfuscate (fun _ => 0) (0xc3 :: initialPacket.tail))).2) = _
  rw [hlost]

end HysteriaObfuscator

end Hysteria

end Elise
