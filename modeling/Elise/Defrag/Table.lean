/-
Elise/Defrag/Table.lean

The tables of half received packets.

Hysteria 1, Hysteria 2 and TUIC v5 split a UDP packet that is too long for a
QUIC datagram, and each has its own reassembler (`Hy1Defragmenter`,
`Hy2Defragmenter`, `V5Defragmenter`).  What they keep is the same: a map from
the ids of a packet to its `ReassemblyEntry`, and the number of bytes that all
entries hold.  An entry carries the proof that its two counters agree with its
fragments, so the functions that change one have to keep them so.

The types of the keys and of what an entry knows of the destination differ and
are parameters here.  Instants are in nanoseconds.
-/
import Elise.Lib.AssocMap
import Elise.Lib.Run

namespace Elise.Defrag

def nanosPerSec : Nat := 1000000000

/-- `MAX_DEFRAG_ENTRIES`. -/
def maxDefragEntries : Nat := 512

/-- `MAX_DEFRAG_MEMORY`. -/
def maxDefragMemory : Nat := 16 * 1024 * 1024

/-! ### Fragments and entries -/

/-- One call of a reassembler: the instant it is made at and its arguments. -/
structure Fragment (κ δ : Type*) where
  now : Nat
  /-- The session, or association, and the packet. -/
  key : κ
  fragId : UInt8
  fragTotal : UInt8
  dest : δ
  data : List UInt8
  deriving DecidableEq, Repr

/-- The length of a fragment, if it is there. -/
def lengthOf (fragment : Option (List UInt8)) : Nat := (fragment.map List.length).getD 0

/-- `Hy1ReassemblyEntry`, `Hy2ReassemblyEntry`, `V5DefragEntry`. -/
structure ReassemblyEntry (δ : Type*) where
  fragments : List (Option (List UInt8))
  receivedCount : Nat
  totalCount : Nat
  deadline : Nat
  /-- `(host, port)`, `dest` or `addr`. -/
  dest : δ
  totalBytes : Nat
  sized : fragments.length = totalCount
  counted : receivedCount = fragments.countP Option.isSome
  weighed : totalBytes = (fragments.map lengthOf).sum

namespace ReassemblyEntry

variable {δ : Type*}

/-- `vec![None; total]`, nothing received. -/
def blank (total deadline : Nat) (dest : δ) : ReassemblyEntry δ where
  fragments := List.replicate total none
  receivedCount := 0
  totalCount := total
  deadline := deadline
  dest := dest
  totalBytes := 0
  sized := List.length_replicate
  counted := by rw [List.countP_replicate]; rfl
  weighed := by simp [lengthOf]

/-- `fragments[index].is_none()`. -/
def Missing (entry : ReassemblyEntry δ) (index : Nat) : Prop :=
  entry.fragments[index]? = some none

instance (entry : ReassemblyEntry δ) (index : Nat) : Decidable (entry.Missing index) :=
  inferInstanceAs (Decidable (entry.fragments[index]? = some none))

/-- `fragments[index] = Some(data)`, with both counters. -/
def store (entry : ReassemblyEntry δ) (index : Nat) (data : List UInt8)
    (h : entry.Missing index) : ReassemblyEntry δ where
  fragments := entry.fragments.set index (some data)
  receivedCount := entry.receivedCount + 1
  totalCount := entry.totalCount
  deadline := entry.deadline
  dest := entry.dest
  totalBytes := entry.totalBytes + data.length
  sized := by rw [List.length_set, entry.sized]
  counted := by
    have := Agents.countP_set_add h (some data) Option.isSome
    simp [entry.counted] at this ⊢
    omega
  weighed := by
    have := Agents.sum_map_set_add h (some data) lengthOf
    simp [entry.weighed, lengthOf] at this ⊢
    omega

/-- The fragments that are there, one after the other. -/
def assembled (entry : ReassemblyEntry δ) : List UInt8 :=
  (entry.fragments.filterMap id).flatten

/-- All fragments are there. -/
def Complete (entry : ReassemblyEntry δ) : Prop := entry.receivedCount = entry.totalCount

instance (entry : ReassemblyEntry δ) : Decidable entry.Complete :=
  inferInstanceAs (Decidable (entry.receivedCount = entry.totalCount))

theorem missing_blank {total deadline index : Nat} {dest : δ} (h : index < total) :
    (blank total deadline dest).Missing index := by
  show (List.replicate total none)[index]? = some none
  rw [List.getElem?_replicate, if_pos h]

/-- A complete entry has every fragment. -/
theorem Complete.getElem? {entry : ReassemblyEntry δ} (h : entry.Complete) {i : Nat}
    (hi : i < entry.totalCount) : ∃ data, entry.fragments[i]? = some (some data) := by
  have hall : entry.fragments.countP Option.isSome = entry.fragments.length := by
    rw [← entry.counted, entry.sized]
    exact h
  have hlt : i < entry.fragments.length := entry.sized.symm ▸ hi
  have hsome := List.countP_eq_length.mp hall entry.fragments[i] (List.getElem_mem hlt)
  obtain ⟨data, hdata⟩ := Option.isSome_iff_exists.mp hsome
  exact ⟨data, by rw [List.getElem?_eq_getElem hlt, hdata]⟩

end ReassemblyEntry

/-! ### The table -/

/-- `entries` and `total_memory`. -/
structure Defragmenter (κ δ : Type*) where
  entries : AssocMap κ (ReassemblyEntry δ)
  totalMemory : Meter

namespace Defragmenter

variable {κ δ : Type*} [DecidableEq κ]

def new : Defragmenter κ δ := ⟨∅, Meter.zero⟩

/-- The entries whose deadline has not passed. -/
def live (now : Nat) (_ : κ) (entry : ReassemblyEntry δ) : Bool := decide (now < entry.deadline)

/-- `retain`: what an expired entry holds is taken off the counter. -/
def sweep (d : Defragmenter κ δ) (now : Nat) : Defragmenter κ δ where
  entries := d.entries.retain (live now)
  totalMemory :=
    ((d.entries.pairs.filter fun p => !live now p.1 p.2).map fun p => p.2.totalBytes).foldl
      Meter.saturatingSub d.totalMemory

/-- Remove an entry, and what it holds from the counter. -/
def remove (d : Defragmenter κ δ) (key : κ) (entry : ReassemblyEntry δ) : Defragmenter κ δ where
  entries := d.entries.erase key
  totalMemory := d.totalMemory.saturatingSub entry.totalBytes

/-- Put an entry that has gained `added` bytes. -/
def put (d : Defragmenter κ δ) (key : κ) (entry : ReassemblyEntry δ) (added : Nat) :
    Defragmenter κ δ where
  entries := d.entries.insert key entry
  totalMemory := d.totalMemory.add added

/-- The lengths of all stored fragments. -/
def storedBytes (d : Defragmenter κ δ) : Nat :=
  d.entries.weight fun entry => (entry.fragments.map lengthOf).sum

/-- The counter is exact and within its bound, and so is the table. -/
structure Sound (d : Defragmenter κ δ) : Prop where
  accounted : d.totalMemory.value = d.storedBytes
  within : d.totalMemory.value ≤ maxDefragMemory
  unsaturated : d.totalMemory.saturated = false
  few : d.entries.len ≤ maxDefragEntries

omit [DecidableEq κ] in
theorem storedBytes_eq (d : Defragmenter κ δ) :
    d.storedBytes = d.entries.weight ReassemblyEntry.totalBytes := by
  unfold storedBytes
  congr 1
  funext entry
  exact entry.weighed.symm

omit [DecidableEq κ] in
theorem sound_new : (new : Defragmenter κ δ).Sound := by
  refine ⟨rfl, Nat.zero_le _, rfl, Nat.zero_le _⟩

/-! ### What the operations do to the table -/

/-- An entry that has gained nothing need not be put back before it goes. -/
theorem remove_put_zero (d : Defragmenter κ δ) (key : κ) (entry : ReassemblyEntry δ) :
    (d.put key entry 0).remove key entry = d.remove key entry := by
  have hentries : (d.entries.insert key entry).erase key = d.entries.erase key := by
    apply AList.ext
    exact List.kerase_cons_eq rfl
  show Defragmenter.mk ((d.entries.insert key entry).erase key) _ = _
  rw [hentries]
  rfl

theorem get_sweep_eq_some {d : Defragmenter κ δ} {now : Nat} {k : κ} {entry : ReassemblyEntry δ} :
    (d.sweep now).entries.get k = some entry ↔
      d.entries.get k = some entry ∧ now < entry.deadline := by
  show (d.entries.retain (live now)).get k = some entry ↔ _
  rw [AssocMap.get_retain, Option.filter_eq_some_iff]
  simp [live]

omit [DecidableEq κ] in
/-- The sweep subtracts exactly what the expired entries hold. -/
theorem Sound.sweep_value {d : Defragmenter κ δ} (h : d.Sound) (now : Nat) :
    (d.sweep now).totalMemory = ⟨(d.sweep now).storedBytes, false⟩ := by
  have hsplit := AssocMap.weight_retain_add ReassemblyEntry.totalBytes d.entries (live now)
  have hvalue := h.accounted.trans d.storedBytes_eq
  show List.foldl Meter.saturatingSub d.totalMemory _ = _
  rw [Meter.foldl_saturatingSub _ _ (by omega), h.unsaturated, storedBytes_eq]
  congr 1
  show _ = (d.entries.retain (live now)).weight _
  omega

omit [DecidableEq κ] in
theorem sweep_le (d : Defragmenter κ δ) (now : Nat) :
    (d.sweep now).totalMemory.value ≤ d.totalMemory.value :=
  Meter.foldl_saturatingSub_le ..

omit [DecidableEq κ] in
theorem Sound.sweep {d : Defragmenter κ δ} (h : d.Sound) (now : Nat) : (d.sweep now).Sound where
  accounted := by rw [h.sweep_value]
  within := (d.sweep_le now).trans h.within
  unsaturated := by rw [h.sweep_value]
  few := (AssocMap.len_retain_le ..).trans h.few

theorem Sound.remove {d : Defragmenter κ δ} (h : d.Sound) {key : κ} {entry : ReassemblyEntry δ}
    (hget : d.entries.get key = some entry) : (d.remove key entry).Sound := by
  have hweight := AssocMap.weight_erase_add ReassemblyEntry.totalBytes hget
  have hvalue := h.accounted.trans d.storedBytes_eq
  have hmem : (d.remove key entry).totalMemory =
      ⟨d.totalMemory.value - entry.totalBytes, d.totalMemory.saturated⟩ :=
    Meter.saturatingSub_eq (by omega)
  have hlen := AssocMap.len_erase_add d.entries hget
  refine ⟨?_, ?_, ?_, ?_⟩
  · rw [hmem, storedBytes_eq]
    show _ = (d.entries.erase key).weight _
    show d.totalMemory.value - entry.totalBytes = _
    omega
  · rw [hmem]
    exact (Nat.sub_le ..).trans h.within
  · rw [hmem]
    exact h.unsaturated
  · show (d.entries.erase key).len ≤ _
    have := h.few
    omega

/-- An entry that has gained `added` bytes is put back, or a new one is put
where there is room. -/
theorem Sound.put {d : Defragmenter κ δ} (h : d.Sound) {key : κ} {entry : ReassemblyEntry δ}
    {added : Nat}
    (hold : (∃ old, d.entries.get key = some old ∧ entry.totalBytes = old.totalBytes + added) ∨
      d.entries.get key = none ∧ entry.totalBytes = added ∧ d.entries.len < maxDefragEntries)
    (hroom : d.totalMemory.value + added ≤ maxDefragMemory) : (d.put key entry added).Sound := by
  have hvalue := h.accounted.trans d.storedBytes_eq
  have hlen := AssocMap.len_insert d.entries key entry
  refine ⟨?_, hroom, h.unsaturated, ?_⟩
  · rw [storedBytes_eq]
    show d.totalMemory.value + added = (d.entries.insert key entry).weight _
    rw [AssocMap.weight_insert]
    rcases hold with ⟨old, hget, hbytes⟩ | ⟨hget, hbytes, -⟩
    · have := AssocMap.weight_erase_add ReassemblyEntry.totalBytes hget
      omega
    · rw [AssocMap.erase_of_get hget]
      omega
  · show (d.entries.insert key entry).len ≤ _
    rw [hlen]
    rcases hold with ⟨old, hget, -⟩ | ⟨-, -, hfew⟩
    · rw [if_pos (AssocMap.contains_iff.mpr ⟨old, hget⟩)]
      exact h.few
    · split
      · exact h.few
      · omega

end Defragmenter

end Elise.Defrag
