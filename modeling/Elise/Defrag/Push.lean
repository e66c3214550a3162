/-
Elise/Defrag/Push.lean

The three reassemblers, and what one call can do.

`push_fragment` of Hysteria 1 (`protocol/hysteria/v1.rs`) and of Hysteria 2
(`protocol/hysteria/v2.rs`) is one function with a destination of its own type.
`insert` of TUIC v5 (`protocol/tuic/v5.rs`) differs in four places: it checks
the memory first, before the sweep and whether or not the fragment is new; it
leaves an entry alone whose total differs from the fragment's; only the fragment
with index 0 tells the address; and its entries live ten seconds, not eight.

`Handled` lists what a call can do to the table, so that what holds of all
three is proved once.
-/
import Elise.Defrag.Table
import Elise.Tuic.Address

namespace Elise.Defrag

open Tuic

variable {κ δ ε : Type*} [DecidableEq κ]

/-! ### The functions -/

/-- `push_fragment`. -/
def Defragmenter.pushFragment [DecidableEq δ] (ttl : Nat) (d : Defragmenter κ δ)
    (f : Fragment κ δ) : Defragmenter κ δ × Option (δ × List UInt8) :=
  if f.fragTotal.toNat = 0 ∨ f.fragTotal.toNat ≤ f.fragId.toNat then (d, none)
  else if f.fragTotal.toNat = 1 then (d, some (f.dest, f.data))
  else
    let d := d.sweep f.now
    match d.entries.get f.key with
    | some entry =>
        -- an entry that a fragment contradicts is poisoned
        if entry.totalCount ≠ f.fragTotal.toNat ∨ entry.dest ≠ f.dest then
          (d.remove f.key entry, none)
        else if h : entry.Missing f.fragId.toNat then
          if maxDefragMemory < d.totalMemory.value + f.data.length then (d, none)
          else
            let entry := entry.store f.fragId.toNat f.data h
            let d := d.put f.key entry f.data.length
            if entry.Complete then (d.remove f.key entry, some (entry.dest, entry.assembled))
            else (d, none)
        else if entry.Complete then (d.remove f.key entry, some (entry.dest, entry.assembled))
        else (d, none)
    | none =>
        if maxDefragEntries ≤ d.entries.len ∨
            maxDefragMemory < d.totalMemory.value + f.data.length then (d, none)
        else
          let entry := ReassemblyEntry.blank f.fragTotal.toNat (f.now + ttl) f.dest
          if h : entry.Missing f.fragId.toNat then
            (d.put f.key (entry.store f.fragId.toNat f.data h) f.data.length, none)
          else (d, none)

/-- `Duration::from_secs(8)`. -/
def hyTtl : Nat := 8 * nanosPerSec

abbrev Hy1Defragmenter := Defragmenter (UInt32 × UInt16) (String × UInt16)

def Hy1Defragmenter.pushFragment (d : Hy1Defragmenter)
    (f : Fragment (UInt32 × UInt16) (String × UInt16)) :
    Hy1Defragmenter × Option ((String × UInt16) × List UInt8) :=
  Defragmenter.pushFragment hyTtl d f

abbrev Hy2Defragmenter := Defragmenter (UInt32 × UInt16) String

def Hy2Defragmenter.pushFragment (d : Hy2Defragmenter) (f : Fragment (UInt32 × UInt16) String) :
    Hy2Defragmenter × Option (String × List UInt8) :=
  Defragmenter.pushFragment hyTtl d f

/-- `Duration::from_secs(10)`. -/
def v5Ttl : Nat := 10 * nanosPerSec

abbrev V5Defragmenter := Defragmenter (UInt16 × UInt16) (Option TuicV5Address)

/-- The fragment with index 0 tells the address. -/
def ReassemblyEntry.addressed (entry : ReassemblyEntry (Option TuicV5Address))
    (f : Fragment κ TuicV5Address) : ReassemblyEntry (Option TuicV5Address) :=
  if f.fragId.toNat = 0 ∧ entry.dest = none then { entry with dest := some f.dest } else entry

/-- The end of `insert`: a complete entry leaves the table as a packet. -/
def V5Defragmenter.finish (d : V5Defragmenter) (key : UInt16 × UInt16)
    (entry : ReassemblyEntry (Option TuicV5Address)) :
    V5Defragmenter × Option (TuicV5Address × List UInt8) :=
  if entry.Complete then
    (d.remove key entry, some (entry.dest.getD TuicV5Address.none, entry.assembled))
  else (d, none)

/-- `V5Defragmenter::insert`. -/
def V5Defragmenter.insert (d : V5Defragmenter) (f : Fragment (UInt16 × UInt16) TuicV5Address) :
    V5Defragmenter × Option (TuicV5Address × List UInt8) :=
  let total := f.fragTotal.toNat
  let index := f.fragId.toNat
  if total = 0 ∨ total ≤ index then (d, none)
  else if total = 1 then (d, some (f.dest, f.data))
  else if maxDefragMemory < d.totalMemory.value + f.data.length then (d, none)
  else
    let d := d.sweep f.now
    if maxDefragEntries ≤ d.entries.len ∧ d.entries.contains f.key = false then (d, none)
    else
      let entry := (d.entries.get f.key).getD (.blank total (f.now + v5Ttl) none)
      if entry.totalCount ≠ total then (d, none)
      else
        let entry := entry.addressed f
        if h : entry.Missing index then
          let entry := entry.store index f.data h
          V5Defragmenter.finish (d.put f.key entry f.data.length) f.key entry
        else V5Defragmenter.finish (d.put f.key entry 0) f.key entry

/-! ### What a call can do -/

/-- What the reassemblers do not share. -/
structure Rules (κ ε δ : Type*) where
  ttl : Nat
  /-- What a fragment says of the destination is what the entry knows. -/
  Agrees : Fragment κ ε → δ → Prop
  /-- What the entry knows of the destination comes from its fragments. -/
  Knows : ReassemblyEntry δ → Prop

/-- `entry` is `old` with the fragment, or with what it says of the
destination; `added` bytes are new. -/
structure Grown (rules : Rules κ ε δ) (f : Fragment κ ε) (old entry : ReassemblyEntry δ)
    (added : Nat) : Prop where
  total : entry.totalCount = old.totalCount
  deadline : entry.deadline = old.deadline
  bytes : entry.totalBytes = old.totalBytes + added
  keeps : ∀ g, rules.Agrees g old.dest → rules.Agrees g entry.dest
  knows : rules.Knows old → rules.Knows entry
  fragment : ∀ {i : Nat} {data : List UInt8}, entry.fragments[i]? = some (some data) →
    old.fragments[i]? = some (some data) ∨
      i = f.fragId.toNat ∧ data = f.data ∧ (rules.Knows old → rules.Agrees f entry.dest)

/-- The table after a call, and the packet it returns. -/
inductive Handled (rules : Rules κ ε δ) (d : Defragmenter κ δ) (f : Fragment κ ε) :
    Defragmenter κ δ → Option (ε × List UInt8) → Prop
  | unchanged : Handled rules d f d none
  | whole (h : f.fragTotal.toNat = 1) : Handled rules d f d (some (f.dest, f.data))
  | swept : Handled rules d f (d.sweep f.now) none
  | dropped {entry} (h : (d.sweep f.now).entries.get f.key = some entry) :
      Handled rules d f ((d.sweep f.now).remove f.key entry) none
  | opened {dest entry} (hnone : (d.sweep f.now).entries.get f.key = none)
      (hfew : (d.sweep f.now).entries.len < maxDefragEntries)
      (hknows : rules.Knows (.blank f.fragTotal.toNat (f.now + rules.ttl) dest))
      (hgrown : Grown rules f (.blank f.fragTotal.toNat (f.now + rules.ttl) dest) entry
        f.data.length)
      (hroom : (d.sweep f.now).totalMemory.value + f.data.length ≤ maxDefragMemory) :
      Handled rules d f ((d.sweep f.now).put f.key entry f.data.length) none
  | stored {old entry added} (hold : (d.sweep f.now).entries.get f.key = some old)
      (htotal : old.totalCount = f.fragTotal.toNat) (hgrown : Grown rules f old entry added)
      (hroom : added = 0 ∨ (d.sweep f.now).totalMemory.value + added ≤ maxDefragMemory) :
      Handled rules d f ((d.sweep f.now).put f.key entry added) none
  | completed {old entry added dest} (hold : (d.sweep f.now).entries.get f.key = some old)
      (htotal : old.totalCount = f.fragTotal.toNat) (hgrown : Grown rules f old entry added)
      (hroom : added = 0 ∨ (d.sweep f.now).totalMemory.value + added ≤ maxDefragMemory)
      (hcomplete : entry.Complete)
      (hdest : ∀ g, g.fragId.toNat = 0 → rules.Agrees g entry.dest → g.dest = dest) :
      Handled rules d f (((d.sweep f.now).put f.key entry added).remove f.key entry)
        (some (dest, entry.assembled))

section Grown

omit [DecidableEq κ]

variable {rules : Rules κ ε δ} {f : Fragment κ ε}

/-- An entry that differs only in what it knows of the destination. -/
structure Readdressed (rules : Rules κ ε δ) (old entry : ReassemblyEntry δ) : Prop where
  total : entry.totalCount = old.totalCount
  deadline : entry.deadline = old.deadline
  bytes : entry.totalBytes = old.totalBytes
  fragments : entry.fragments = old.fragments
  keeps : ∀ g, rules.Agrees g old.dest → rules.Agrees g entry.dest

theorem Readdressed.refl (entry : ReassemblyEntry δ) : Readdressed rules entry entry :=
  ⟨rfl, rfl, rfl, rfl, fun _ h => h⟩

theorem Readdressed.kept {old entry : ReassemblyEntry δ} (h : Readdressed rules old entry)
    (hknows : rules.Knows old → rules.Knows entry) : Grown rules f old entry 0 where
  total := h.total
  deadline := h.deadline
  bytes := h.bytes
  keeps := h.keeps
  knows := hknows
  fragment := fun hdata => .inl (h.fragments ▸ hdata)

theorem Readdressed.store {old entry : ReassemblyEntry δ} (h : Readdressed rules old entry)
    (hmissing : entry.Missing f.fragId.toNat)
    (hagrees : rules.Knows old → rules.Agrees f entry.dest)
    (hknows : rules.Knows old → rules.Knows (entry.store f.fragId.toNat f.data hmissing)) :
    Grown rules f old (entry.store f.fragId.toNat f.data hmissing) f.data.length where
  total := h.total
  deadline := h.deadline
  bytes := by
    show entry.totalBytes + f.data.length = _
    rw [h.bytes]
  keeps := h.keeps
  knows := hknows
  fragment := by
    intro i data hdata
    rcases Agents.getElem?_set_some hdata with ⟨hi, heq⟩ | ⟨-, hdata⟩
    · exact .inr ⟨hi, Option.some.inj heq, hagrees⟩
    · exact .inl (h.fragments ▸ hdata)

end Grown

/-! ### Hysteria -/

/-- All fragments say the destination. -/
def hyRules (κ δ : Type*) (ttl : Nat) : Rules κ δ δ where
  ttl := ttl
  Agrees := fun f dest => f.dest = dest
  Knows := fun _ => True

theorem handled_pushFragment [DecidableEq δ] (ttl : Nat) (d : Defragmenter κ δ)
    (f : Fragment κ δ) :
    Handled (hyRules κ δ ttl) d f (d.pushFragment ttl f).1 (d.pushFragment ttl f).2 := by
  unfold Defragmenter.pushFragment
  by_cases hvalid : f.fragTotal.toNat = 0 ∨ f.fragTotal.toNat ≤ f.fragId.toNat
  · rw [if_pos hvalid]
    exact .unchanged
  rw [if_neg hvalid]
  by_cases hone : f.fragTotal.toNat = 1
  · rw [if_pos hone]
    exact .whole hone
  rw [if_neg hone]
  have htotal : 1 < f.fragTotal.toNat := by omega
  rcases hget : (d.sweep f.now).entries.get f.key with - | entry
  · simp only [hget]
    by_cases hfull : maxDefragEntries ≤ (d.sweep f.now).entries.len ∨
        maxDefragMemory < (d.sweep f.now).totalMemory.value + f.data.length
    · rw [if_pos hfull]
      exact .swept
    · rw [if_neg hfull]
      have hmissing : (ReassemblyEntry.blank f.fragTotal.toNat (f.now + ttl) f.dest).Missing
          f.fragId.toNat := ReassemblyEntry.missing_blank (by omega)
      rw [dif_pos hmissing]
      have hgrown : Grown (hyRules κ δ ttl) f
          (.blank f.fragTotal.toNat (f.now + (hyRules κ δ ttl).ttl) f.dest) _ f.data.length :=
        (Readdressed.refl _).store hmissing (fun _ => rfl) (fun _ => trivial)
      exact .opened hget (by omega) trivial hgrown (by omega)
  · simp only [hget]
    by_cases hpoison : entry.totalCount ≠ f.fragTotal.toNat ∨ entry.dest ≠ f.dest
    · rw [if_pos hpoison]
      exact .dropped hget
    rw [if_neg hpoison]
    obtain ⟨hcount, hdest⟩ := not_or.mp hpoison
    rw [not_not] at hcount hdest
    by_cases hmissing : entry.Missing f.fragId.toNat
    · rw [dif_pos hmissing]
      have hgrown : Grown (hyRules κ δ ttl) f entry
          (entry.store f.fragId.toNat f.data hmissing) f.data.length :=
        (Readdressed.refl _).store hmissing (fun _ => hdest.symm) (fun _ => trivial)
      by_cases hroom : maxDefragMemory < (d.sweep f.now).totalMemory.value + f.data.length
      · rw [if_pos hroom]
        exact .swept
      · rw [if_neg hroom]
        split
        · rename_i hcomplete
          exact .completed hget hcount hgrown (.inr (by omega)) hcomplete (fun g _ hg => hg)
        · exact .stored hget hcount hgrown (.inr (by omega))
    · rw [dif_neg hmissing]
      split
      · rename_i hcomplete
        rw [← Defragmenter.remove_put_zero]
        exact .completed hget hcount ((Readdressed.refl entry).kept fun h => h) (.inl rfl) hcomplete (fun g _ hg => hg)
      · exact .swept

/-! ### TUIC -/

/-- The fragment with index 0 says the address. -/
def v5Rules : Rules (UInt16 × UInt16) TuicV5Address (Option TuicV5Address) where
  ttl := v5Ttl
  Agrees := fun f dest => f.fragId.toNat = 0 → dest = some f.dest
  Knows := fun entry => entry.Missing 0 → entry.dest = none

section Addressed

variable {entry : ReassemblyEntry (Option TuicV5Address)}
  {f : Fragment (UInt16 × UInt16) TuicV5Address}

theorem missing_addressed {index : Nat} :
    (entry.addressed f).Missing index ↔ entry.Missing index := by
  unfold ReassemblyEntry.addressed
  split <;> rfl

theorem readdressed_addressed : Readdressed v5Rules entry (entry.addressed f) := by
  unfold ReassemblyEntry.addressed
  split
  · rename_i h
    exact ⟨rfl, rfl, rfl, rfl, fun g hg hzero => by cases h.2.symm.trans (hg hzero)⟩
  · exact Readdressed.refl entry

/-- A new entry with one fragment of several is not complete. -/
theorem not_complete_addressed_store {index : Nat} (htotal : 1 < entry.totalCount)
    (hcount : entry.receivedCount = 0) (h : (entry.addressed f).Missing index) :
    ¬ ((entry.addressed f).store index f.data h).Complete := by
  have hreceived : (entry.addressed f).receivedCount = entry.receivedCount := by
    unfold ReassemblyEntry.addressed
    split <;> rfl
  show ¬ (entry.addressed f).receivedCount + 1 = (entry.addressed f).totalCount
  rw [readdressed_addressed.total, hreceived]
  omega

/-- A fragment that is there already changes nothing of what is known. -/
theorem grown_addressed (h : ¬ entry.Missing f.fragId.toNat) :
    Grown v5Rules f entry (entry.addressed f) 0 := by
  refine readdressed_addressed.kept ?_
  intro hknows hmissing
  have hold := hknows (missing_addressed.mp hmissing)
  have hne : f.fragId.toNat ≠ 0 := by
    intro hzero
    exact h (hzero ▸ missing_addressed.mp hmissing)
  rw [ReassemblyEntry.addressed, if_neg fun h' => hne h'.1]
  exact hold

theorem grown_addressed_store (h : (entry.addressed f).Missing f.fragId.toNat) :
    Grown v5Rules f entry ((entry.addressed f).store f.fragId.toNat f.data h) f.data.length := by
  refine readdressed_addressed.store h ?_ ?_
  · intro hknows hzero
    have hnone : entry.dest = none := hknows (hzero ▸ missing_addressed.mp h)
    rw [ReassemblyEntry.addressed, if_pos ⟨hzero, hnone⟩]
  · intro hknows hmissing
    have hmissing : ((entry.addressed f).fragments.set f.fragId.toNat (some f.data))[0]? =
      some none := hmissing
    rcases Agents.getElem?_set_some hmissing with ⟨-, heq⟩ | ⟨hne, hmissing⟩
    · cases heq
    · have hold := hknows (missing_addressed.mp hmissing)
      show (entry.addressed f).dest = none
      rw [ReassemblyEntry.addressed, if_neg fun h' => hne h'.1.symm]
      exact hold

end Addressed

/-- A packet leaves only when its entry is complete. -/
theorem handled_finish {d : V5Defragmenter} {f : Fragment (UInt16 × UInt16) TuicV5Address}
    {old entry : ReassemblyEntry (Option TuicV5Address)} {added : Nat}
    (hold : (d.sweep f.now).entries.get f.key = some old)
    (htotal : old.totalCount = f.fragTotal.toNat) (hgrown : Grown v5Rules f old entry added)
    (hroom : added = 0 ∨ (d.sweep f.now).totalMemory.value + added ≤ maxDefragMemory) :
    Handled v5Rules d f
      (V5Defragmenter.finish ((d.sweep f.now).put f.key entry added) f.key entry).1
      (V5Defragmenter.finish ((d.sweep f.now).put f.key entry added) f.key entry).2 := by
  unfold V5Defragmenter.finish
  split
  · rename_i hcomplete
    refine .completed hold htotal hgrown hroom hcomplete ?_
    intro g hzero hagrees
    rw [hagrees hzero]
    rfl
  · exact .stored hold htotal hgrown hroom

theorem handled_insert (d : V5Defragmenter) (f : Fragment (UInt16 × UInt16) TuicV5Address) :
    Handled v5Rules d f (d.insert f).1 (d.insert f).2 := by
  unfold V5Defragmenter.insert
  by_cases hvalid : f.fragTotal.toNat = 0 ∨ f.fragTotal.toNat ≤ f.fragId.toNat
  · simp only [if_pos hvalid]
    exact .unchanged
  by_cases hone : f.fragTotal.toNat = 1
  · simp only [if_neg hvalid, if_pos hone]
    exact .whole hone
  by_cases hmemory : maxDefragMemory < d.totalMemory.value + f.data.length
  · simp only [if_neg hvalid, if_neg hone, if_pos hmemory]
    exact .unchanged
  simp only [if_neg hvalid, if_neg hone, if_neg hmemory]
  have hroom : (d.sweep f.now).totalMemory.value + f.data.length ≤ maxDefragMemory := by
    have := d.sweep_le f.now
    omega
  by_cases hfull : maxDefragEntries ≤ (d.sweep f.now).entries.len ∧
      (d.sweep f.now).entries.contains f.key = false
  · rw [if_pos hfull]
    exact .swept
  rw [if_neg hfull]
  rcases hget : (d.sweep f.now).entries.get f.key with - | old
  · have hfew : (d.sweep f.now).entries.len < maxDefragEntries := by
      by_contra hle
      exact hfull ⟨Nat.not_lt.mp hle, by simp [AssocMap.contains, hget]⟩
    set blank : ReassemblyEntry (Option TuicV5Address) :=
      .blank f.fragTotal.toNat (f.now + v5Ttl) none with hblank
    have hmissing : (blank.addressed f).Missing f.fragId.toNat :=
      missing_addressed.mpr (ReassemblyEntry.missing_blank (by omega))
    have hgrown := grown_addressed_store hmissing
    have hunfinished : ¬ ((blank.addressed f).store f.fragId.toNat f.data hmissing).Complete :=
      not_complete_addressed_store (by show 1 < f.fragTotal.toNat; omega) rfl hmissing
    have htotal : ¬ blank.totalCount ≠ f.fragTotal.toNat := not_not.mpr rfl
    rw [Option.getD_none, if_neg htotal, dif_pos hmissing, V5Defragmenter.finish,
      if_neg hunfinished]
    exact .opened hget hfew (fun _ => rfl) hgrown hroom
  · rw [Option.getD_some]
    by_cases htotal : old.totalCount = f.fragTotal.toNat
    · rw [if_neg (not_not.mpr htotal)]
      by_cases hmissing : (old.addressed f).Missing f.fragId.toNat
      · rw [dif_pos hmissing]
        exact handled_finish hget htotal (grown_addressed_store hmissing) (.inr hroom)
      · rw [dif_neg hmissing]
        have hold := fun h => hmissing (missing_addressed.mpr h)
        exact handled_finish hget htotal (grown_addressed hold) (.inl rfl)
    · rw [if_pos htotal]
      exact .swept

end Elise.Defrag
