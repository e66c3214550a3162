/-
Elise/Defrag/Recovery.lean

Whether a reassembler takes up work again once its entries have expired.

A fresh packet arrives after all deadlines have passed: its fragments come in
some order, one after the other, before the deadline that the first of them
sets.  The first call sweeps the table empty (`sweep_eq_new`), and from then on
the packet's entry is the only one; `Holding` says which fragments it has, and
each call adds one until the last completes it.  What a single call has to do
for this is `Stores`; both functions do it, under a condition of their own
(`Admits`).

Hysteria's condition is always met.  TUIC's `insert` looks at the counter before
the sweep, so the bytes of entries that have expired still count against the
first fragment; if it does not fit beside them, it is refused and the packet is
lost.  Nothing was swept, and the next packet fares no better: a table that has
filled up is only cleared by a fragment that is short enough.
-/
import Elise.Defrag.Runs

namespace Elise.Defrag

open Tuic

variable {κ δ ε : Type*} [DecidableEq κ]

/-! ### Sweeping all or nothing -/

namespace Defragmenter

theorem sweep_eq_self {d : Defragmenter κ δ} {now : Nat}
    (h : ∀ {k entry}, d.entries.get k = some entry → now < entry.deadline) : d.sweep now = d := by
  have hlive : ∀ p ∈ d.entries.entries, live now p.1 p.2 = true := by
    intro p hp
    exact decide_eq_true (h (AssocMap.get_eq_some_iff.mpr hp))
  have hentries : d.entries.retain (live now) = d.entries :=
    AList.ext (List.filter_eq_self.mpr hlive)
  have hnone : (d.entries.pairs.filter fun p => !live now p.1 p.2) = [] := by
    apply List.filter_eq_nil_iff.mpr
    intro p hp
    have hget : d.entries.get p.1 = some p.2 := AssocMap.mem_pairs.mp hp
    simp [live, h hget]
  unfold sweep
  rw [hentries, hnone]
  rfl

theorem Sound.sweep_eq_new {d : Defragmenter κ δ} (hd : d.Sound) {now : Nat}
    (h : ∀ {k entry}, d.entries.get k = some entry → entry.deadline ≤ now) :
    d.sweep now = new := by
  have hentries : (d.sweep now).entries = ∅ := by
    apply AssocMap.eq_empty_of_get
    intro k
    rcases hget : (d.sweep now).entries.get k with - | entry
    · rfl
    · obtain ⟨hbefore, hlive⟩ := get_sweep_eq_some.mp hget
      have := h hbefore
      omega
  have hmemory : (d.sweep now).totalMemory = Meter.zero := by
    rw [hd.sweep_value, storedBytes, hentries]
    rfl
  show Defragmenter.mk (d.sweep now).entries (d.sweep now).totalMemory = new
  rw [hentries, hmemory]
  rfl

end Defragmenter

/-! ### What a call has to do -/

/-- `entry` is `old` with one fragment more. -/
structure Extended (Suits : ReassemblyEntry δ → ε → Prop) (f : Fragment κ ε)
    (old entry : ReassemblyEntry δ) : Prop where
  fragments : entry.fragments = old.fragments.set f.fragId.toNat (some f.data)
  total : entry.totalCount = old.totalCount
  deadline : entry.deadline = old.deadline
  suits : Suits entry f.dest

/-- The end of a call that stored a fragment. -/
def settle (d : Defragmenter κ δ) (f : Fragment κ ε) (entry : ReassemblyEntry δ) :
    Defragmenter κ δ × Option (ε × List UInt8) :=
  let d := d.put f.key entry f.data.length
  if entry.Complete then (d.remove f.key entry, some (f.dest, entry.assembled)) else (d, none)

/-- A fragment that is missing is stored: in the entry of its packet if that has
the fragment's total and suits its destination, else in a new one. -/
structure Stores (push : Reassembler κ δ ε) (ttl : Nat)
    (Admits : Defragmenter κ δ → Fragment κ ε → Prop) (Suits : ReassemblyEntry δ → ε → Prop) :
    Prop where
  opens : ∀ {d : Defragmenter κ δ} {f : Fragment κ ε}, 1 < f.fragTotal.toNat →
    f.fragId.toNat < f.fragTotal.toNat → Admits d f →
    (d.sweep f.now).entries.get f.key = none →
    (d.sweep f.now).entries.len < maxDefragEntries →
    (d.sweep f.now).totalMemory.value + f.data.length ≤ maxDefragMemory →
    ∃ dest entry, Extended Suits f (.blank f.fragTotal.toNat (f.now + ttl) dest) entry ∧
      push d f = settle (d.sweep f.now) f entry
  adds : ∀ {d : Defragmenter κ δ} {f : Fragment κ ε} {old : ReassemblyEntry δ},
    1 < f.fragTotal.toNat → f.fragId.toNat < f.fragTotal.toNat → Admits d f →
    (d.sweep f.now).entries.get f.key = some old → old.totalCount = f.fragTotal.toNat →
    Suits old f.dest → old.Missing f.fragId.toNat →
    (d.sweep f.now).totalMemory.value + f.data.length ≤ maxDefragMemory →
    ∃ entry, Extended Suits f old entry ∧ push d f = settle (d.sweep f.now) f entry

/-- The entry is for the fragment's destination. -/
def HySuits (entry : ReassemblyEntry δ) (dest : δ) : Prop := entry.dest = dest

theorem stores_pushFragment [DecidableEq δ] (ttl : Nat) :
    Stores (Defragmenter.pushFragment ttl : Reassembler κ δ δ) ttl (fun _ _ => True) HySuits where
  opens := by
    intro d f hmany hindex _ hnone hfew hroom
    have hvalid : ¬ (f.fragTotal.toNat = 0 ∨ f.fragTotal.toNat ≤ f.fragId.toNat) := by omega
    have hone : ¬ f.fragTotal.toNat = 1 := by omega
    have hfull : ¬ (maxDefragEntries ≤ (d.sweep f.now).entries.len ∨
        maxDefragMemory < (d.sweep f.now).totalMemory.value + f.data.length) := by omega
    have hmissing : (ReassemblyEntry.blank f.fragTotal.toNat (f.now + ttl) f.dest).Missing
        f.fragId.toNat := ReassemblyEntry.missing_blank hindex
    have hunfinished : ¬ (ReassemblyEntry.store _ f.fragId.toNat f.data hmissing).Complete := by
      show ¬ 0 + 1 = f.fragTotal.toNat
      omega
    refine ⟨f.dest, ReassemblyEntry.store _ f.fragId.toNat f.data hmissing, ⟨rfl, rfl, rfl, rfl⟩, ?_⟩
    rw [Defragmenter.pushFragment, if_neg hvalid, if_neg hone]
    simp only [hnone, if_neg hfull, dif_pos hmissing]
    rw [settle, if_neg hunfinished]
  adds := by
    intro d f old hmany hindex _ hold htotal hsuits hmissing hroom
    have hvalid : ¬ (f.fragTotal.toNat = 0 ∨ f.fragTotal.toNat ≤ f.fragId.toNat) := by omega
    have hone : ¬ f.fragTotal.toNat = 1 := by omega
    have hpoison : ¬ (old.totalCount ≠ f.fragTotal.toNat ∨ old.dest ≠ f.dest) := by
      rintro (h | h)
      · exact h htotal
      · exact h hsuits
    have hfits : ¬ maxDefragMemory < (d.sweep f.now).totalMemory.value + f.data.length := by omega
    refine ⟨old.store f.fragId.toNat f.data hmissing, ⟨rfl, rfl, rfl, hsuits⟩, ?_⟩
    rw [Defragmenter.pushFragment, if_neg hvalid, if_neg hone]
    simp only [hold, if_neg hpoison, dif_pos hmissing, if_neg hfits]
    rw [settle]
    have hdest : (old.store f.fragId.toNat f.data hmissing).dest = f.dest := hsuits
    rw [hdest]

/-- The entry has no address yet, or the fragment's; it has one once fragment 0
is there. -/
def V5Suits (entry : ReassemblyEntry (Option TuicV5Address)) (dest : TuicV5Address) : Prop :=
  (entry.Missing 0 → entry.dest = none) ∧ (¬ entry.Missing 0 → entry.dest = some dest)

/-- The fragment fits beside all that is counted, expired or not. -/
def V5Admits (d : V5Defragmenter) (f : Fragment (UInt16 × UInt16) TuicV5Address) : Prop :=
  d.totalMemory.value + f.data.length ≤ maxDefragMemory

section V5

variable {d : V5Defragmenter} {f : Fragment (UInt16 × UInt16) TuicV5Address}
  {entry : ReassemblyEntry (Option TuicV5Address)}

theorem suits_addressed_store (h : V5Suits entry f.dest)
    (hmissing : (entry.addressed f).Missing f.fragId.toNat) :
    V5Suits ((entry.addressed f).store f.fragId.toNat f.data hmissing) f.dest := by
  have hold := missing_addressed.mp hmissing
  have hset : ((entry.addressed f).store f.fragId.toNat f.data hmissing).Missing 0 ↔
      f.fragId.toNat ≠ 0 ∧ entry.Missing 0 := by
    show ((entry.addressed f).fragments.set f.fragId.toNat (some f.data))[0]? = some none ↔ _
    rw [readdressed_addressed.fragments]
    constructor
    · intro hzero
      rcases Agents.getElem?_set_some hzero with ⟨-, heq⟩ | ⟨hne, hzero⟩
      · cases heq
      · exact ⟨hne.symm, hzero⟩
    · rintro ⟨hne, hzero⟩
      rw [List.getElem?_set_ne hne]
      exact hzero
  by_cases hzero : f.fragId.toNat = 0
  · -- the fragment tells the address
    have hnone : entry.dest = none := h.1 (hzero ▸ hold)
    have hdest : (entry.addressed f).dest = some f.dest := by
      rw [ReassemblyEntry.addressed, if_pos ⟨hzero, hnone⟩]
    exact ⟨fun hm => absurd hzero (hset.mp hm).1, fun _ => hdest⟩
  · have hdest : (entry.addressed f).dest = entry.dest := by
      rw [ReassemblyEntry.addressed, if_neg fun h' => hzero h'.1]
    constructor
    · intro hm
      exact hdest.trans (h.1 (hset.mp hm).2)
    · intro hm
      exact hdest.trans (h.2 fun hm' => hm (hset.mpr ⟨hzero, hm'⟩))

/-- A complete entry has the address of the packet. -/
theorem finish_eq_settle (htotal : 0 < entry.totalCount) (hsuits : V5Suits entry f.dest) :
    V5Defragmenter.finish (d.put f.key entry f.data.length) f.key entry = settle d f entry := by
  unfold V5Defragmenter.finish settle
  split
  · rename_i hcomplete
    have hdest : entry.dest = some f.dest := by
      apply hsuits.2
      intro hmissing
      obtain ⟨data, hdata⟩ := hcomplete.getElem? htotal
      cases (hmissing.symm.trans hdata)
    rw [hdest, Option.getD_some]
  · rfl

/-- The calls that `insert` does not refuse at once. -/
theorem insert_eq (hmany : 1 < f.fragTotal.toNat) (hindex : f.fragId.toNat < f.fragTotal.toNat)
    (hadmits : V5Admits d f)
    (hroom : ¬ (maxDefragEntries ≤ (d.sweep f.now).entries.len ∧
      (d.sweep f.now).entries.contains f.key = false))
    (hentry : ((d.sweep f.now).entries.get f.key).getD
      (.blank f.fragTotal.toNat (f.now + v5Ttl) none) = entry)
    (htotal : entry.totalCount = f.fragTotal.toNat) (hsuits : V5Suits entry f.dest)
    (hmissing : entry.Missing f.fragId.toNat) :
    ∃ after, Extended V5Suits f entry after ∧ d.insert f = settle (d.sweep f.now) f after := by
  have hvalid : ¬ (f.fragTotal.toNat = 0 ∨ f.fragTotal.toNat ≤ f.fragId.toNat) := by omega
  have hone : ¬ f.fragTotal.toNat = 1 := by omega
  have hmemory : ¬ maxDefragMemory < d.totalMemory.value + f.data.length := Nat.not_lt.mpr hadmits
  have hmissing' : (entry.addressed f).Missing f.fragId.toNat := missing_addressed.mpr hmissing
  have hafter := suits_addressed_store hsuits hmissing'
  refine ⟨(entry.addressed f).store f.fragId.toNat f.data hmissing', ⟨?_, ?_, ?_, hafter⟩, ?_⟩
  · show (entry.addressed f).fragments.set _ _ = _
    rw [readdressed_addressed.fragments]
  · exact readdressed_addressed.total
  · exact readdressed_addressed.deadline
  · rw [← finish_eq_settle _ hafter, V5Defragmenter.insert]
    · simp only [if_neg hvalid, if_neg hone, if_neg hmemory, if_neg hroom, hentry,
        if_neg (not_not.mpr htotal), dif_pos hmissing']
    · show 0 < (entry.addressed f).totalCount
      rw [readdressed_addressed.total]
      omega

end V5

theorem stores_insert : Stores V5Defragmenter.insert v5Ttl V5Admits V5Suits where
  opens := by
    intro d f hmany hindex hadmits hnone hfew _
    have hblank : (ReassemblyEntry.blank f.fragTotal.toNat (f.now + v5Ttl) none).Missing 0 :=
      ReassemblyEntry.missing_blank (δ := Option TuicV5Address) (by omega)
    refine ⟨none, insert_eq hmany hindex hadmits (fun h => by omega) ?_ rfl
      ⟨fun _ => rfl, fun h => absurd hblank h⟩ (ReassemblyEntry.missing_blank hindex)⟩
    rw [hnone, Option.getD_none]
  adds := by
    intro d f old hmany hindex hadmits hold htotal hsuits hmissing _
    refine insert_eq hmany hindex hadmits ?_ ?_ htotal hsuits hmissing
    · rintro ⟨-, habsent⟩
      rw [AssocMap.contains, hold] at habsent
      cases habsent
    · rw [hold, Option.getD_some]

/-! ### A fresh packet -/

/-- What the calls return. -/
def outputs (push : Reassembler κ δ ε) :
    Defragmenter κ δ → List (Fragment κ ε) → List (Option (ε × List UInt8))
  | _, [] => []
  | d, f :: fs => (push d f).2 :: outputs push (push d f).1 fs

/-- The fragment of a packet that comes at an instant, with its index. -/
def fragmentOf (key : κ) (dest : ε) (chunks : List (List UInt8)) (a : Nat × Nat) :
    Fragment κ ε where
  now := a.1
  key := key
  fragId := UInt8.ofNat a.2
  fragTotal := UInt8.ofNat chunks.length
  dest := dest
  data := chunks.getD a.2 []

/-- A packet of at least two fragments that fits into the memory.  They come in
some order, after all deadlines of the table have passed and before the deadline
that the first of them sets. -/
structure Fresh (ttl : Nat) (d : Defragmenter κ δ) (chunks : List (List UInt8))
    (first : Nat × Nat) (rest : List (Nat × Nat)) : Prop where
  many : 2 ≤ chunks.length
  few : chunks.length ≤ 255
  bytes : (chunks.map List.length).sum ≤ maxDefragMemory
  order : ((first :: rest).map Prod.snd).Perm (List.range chunks.length)
  expired : ∀ {k entry}, d.entries.get k = some entry → entry.deadline ≤ first.1
  times : (first :: rest).Pairwise fun a b => a.1 ≤ b.1
  inTime : ∀ a ∈ rest, a.1 < first.1 + ttl

section Packet

variable {chunks : List (List UInt8)}

/-- The entry has the fragments whose indices are in `done`. -/
structure Has (chunks : List (List UInt8)) (done : List Nat) (entry : ReassemblyEntry δ) :
    Prop where
  total : entry.totalCount = chunks.length
  fragments : ∀ i < chunks.length, entry.fragments[i]? =
    some (if i ∈ done then some (chunks.getD i []) else none)

theorem has_blank (deadline : Nat) (dest : δ) :
    Has chunks [] (ReassemblyEntry.blank chunks.length deadline dest) where
  total := rfl
  fragments := by
    intro i hi
    rw [if_neg List.not_mem_nil]
    exact ReassemblyEntry.missing_blank hi

theorem Has.missing {done : List Nat} {entry : ReassemblyEntry δ} (h : Has chunks done entry)
    {i : Nat} (hi : i < chunks.length) (hnew : i ∉ done) : entry.Missing i := by
  show entry.fragments[i]? = some none
  rw [h.fragments i hi, if_neg hnew]

theorem Has.complete_iff {done : List Nat} {entry : ReassemblyEntry δ}
    (h : Has chunks done entry) : entry.Complete ↔ ∀ i < chunks.length, i ∈ done := by
  constructor
  · intro hcomplete i hi
    obtain ⟨data, hdata⟩ := hcomplete.getElem? (h.total.symm ▸ hi)
    rw [h.fragments i hi] at hdata
    by_contra hnew
    rw [if_neg hnew] at hdata
    cases hdata
  · intro hall
    show entry.receivedCount = entry.totalCount
    rw [entry.counted, ← entry.sized, List.countP_eq_length]
    intro fragment hmem
    obtain ⟨i, hi, rfl⟩ := List.getElem_of_mem hmem
    have hlt : i < chunks.length := by
      rw [entry.sized, h.total] at hi
      exact hi
    have hget := h.fragments i hlt
    rw [if_pos (hall i hlt), List.getElem?_eq_getElem hi] at hget
    rw [Option.some.inj hget]
    rfl

theorem Has.assembled_eq {done : List Nat} {entry : ReassemblyEntry δ}
    (h : Has chunks done entry) (hall : ∀ i < chunks.length, i ∈ done) :
    entry.assembled = chunks.flatten := by
  have hfragments : entry.fragments = chunks.map some := by
    apply List.ext_getElem?
    intro i
    by_cases hi : i < chunks.length
    · rw [h.fragments i hi, if_pos (hall i hi), List.getElem?_map, List.getElem?_eq_getElem hi,
        Option.map_some, List.getD_eq_getElem _ _ hi]
    · have hle : chunks.length ≤ i := Nat.not_lt.mp hi
      rw [List.getElem?_eq_none (by rw [entry.sized, h.total]; exact hle),
        List.getElem?_eq_none (by rw [List.length_map]; exact hle)]
  rw [ReassemblyEntry.assembled, hfragments, List.filterMap_map]
  congr 1
  exact List.filterMap_some

omit [DecidableEq κ] in
theorem Has.extend {Suits : ReassemblyEntry δ → ε → Prop} {key : κ} {dest : ε} {done : List Nat}
    {old entry : ReassemblyEntry δ} {a : Nat × Nat} (h : Has chunks done old)
    (hsmall : a.2 < chunks.length) (hfew : chunks.length ≤ 255)
    (he : Extended Suits (fragmentOf key dest chunks a) old entry) :
    Has chunks (done ++ [a.2]) entry where
  total := he.total.trans h.total
  fragments := by
    intro i hi
    have hindex : (fragmentOf key dest chunks a).fragId.toNat = a.2 :=
      UInt8.toNat_ofNat_of_lt' (by show a.2 < 256; omega)
    rw [he.fragments, hindex]
    by_cases heq : i = a.2
    · subst heq
      have hlt : a.2 < old.fragments.length := by rw [old.sized, h.total]; exact hi
      rw [List.getElem?_set_self hlt, if_pos (by simp)]
      rfl
    · rw [List.getElem?_set_ne (Ne.symm heq), h.fragments i hi]
      simp [heq]

/-- The bytes of the fragments in `done`. -/
def bytesOf (chunks : List (List UInt8)) (done : List Nat) : Nat :=
  (done.map fun i => (chunks.getD i []).length).sum

theorem bytesOf_append (done : List Nat) (i : Nat) :
    bytesOf chunks (done ++ [i]) = bytesOf chunks done + (chunks.getD i []).length := by
  simp [bytesOf]

theorem bytesOf_of_perm {done : List Nat} (h : done.Perm (List.range chunks.length)) :
    bytesOf chunks done = (chunks.map List.length).sum := by
  rw [bytesOf, (h.map _).sum_eq]
  congr 1
  apply List.ext_getElem?
  intro i
  by_cases hi : i < chunks.length
  · simp [hi]
  · simp [Nat.not_lt.mp hi]

theorem bytesOf_le {done rest : List Nat} {i : Nat}
    (h : (done ++ i :: rest).Perm (List.range chunks.length)) :
    bytesOf chunks done + (chunks.getD i []).length ≤ (chunks.map List.length).sum := by
  rw [← bytesOf_of_perm h]
  simp only [bytesOf, List.map_append, List.map_cons, List.sum_append, List.sum_cons]
  omega

/-- The table holds the packet, with the fragments in `done`, and nothing else. -/
structure Holding (Suits : ReassemblyEntry δ → ε → Prop) (key : κ) (dest : ε)
    (chunks : List (List UInt8)) (deadline : Nat) (d : Defragmenter κ δ) (done : List Nat) :
    Prop where
  memory : d.totalMemory.value = bytesOf chunks done
  only : ∀ {k entry}, d.entries.get k = some entry → k = key
  entry : ∃ entry, d.entries.get key = some entry ∧ entry.deadline = deadline ∧
    Suits entry dest ∧ Has chunks done entry

variable {Suits : ReassemblyEntry δ → ε → Prop} {key : κ} {dest : ε} {deadline : Nat}
  {d : Defragmenter κ δ} {done : List Nat}

theorem Holding.sweep_eq (h : Holding Suits key dest chunks deadline d done) {now : Nat}
    (hnow : now < deadline) : d.sweep now = d := by
  apply Defragmenter.sweep_eq_self
  intro k entry hget
  obtain rfl := h.only hget
  obtain ⟨entry', hget', hdeadline, -⟩ := h.entry
  obtain rfl := Option.some.inj (hget.symm.trans hget')
  omega

/-- A fragment that is not the last is kept. -/
theorem settle_holding {a : Nat × Nat} {old entry : ReassemblyEntry δ} {next : Nat}
    {rest : List Nat} (hmemory : d.totalMemory.value = bytesOf chunks done)
    (honly : ∀ {k entry}, d.entries.get k = some entry → k = key)
    (horder : (done ++ a.2 :: next :: rest).Perm (List.range chunks.length))
    (hhas : Has chunks (done ++ [a.2]) entry)
    (he : Extended Suits (fragmentOf key dest chunks a) old entry) :
    (settle d (fragmentOf key dest chunks a) entry).2 = none ∧
      Holding Suits key dest chunks old.deadline
        (settle d (fragmentOf key dest chunks a) entry).1 (done ++ [a.2]) := by
  have hunfinished : ¬ entry.Complete := by
    intro hcomplete
    have hnext : next < chunks.length := by
      have : next ∈ List.range chunks.length := horder.mem_iff.mp (by simp)
      exact List.mem_range.mp this
    have hmem := hhas.complete_iff.mp hcomplete next hnext
    have hnodup := horder.nodup_iff.mpr List.nodup_range
    rw [List.append_cons, List.nodup_append] at hnodup
    exact hnodup.2.2 next hmem next (by simp) rfl
  rw [settle, if_neg hunfinished]
  refine ⟨rfl, ?_, ?_, entry, AssocMap.get_insert_self .., he.deadline, he.suits, hhas⟩
  · show d.totalMemory.value + (chunks.getD a.2 []).length = _
    rw [hmemory, bytesOf_append]
  · intro k entry' hget
    rcases AssocMap.get_insert_eq_some hget with ⟨rfl, -⟩ | ⟨-, hold⟩
    · rfl
    · exact honly hold

/-- The last fragment completes the packet. -/
theorem settle_complete {a : Nat × Nat} {entry : ReassemblyEntry δ}
    (horder : (done ++ [a.2]).Perm (List.range chunks.length))
    (hhas : Has chunks (done ++ [a.2]) entry) :
    (settle d (fragmentOf key dest chunks a) entry).2 = some (dest, chunks.flatten) := by
  have hall : ∀ i < chunks.length, i ∈ done ++ [a.2] :=
    fun i hi => horder.mem_iff.mpr (List.mem_range.mpr hi)
  rw [settle, if_pos (hhas.complete_iff.mpr hall)]
  show some (dest, entry.assembled) = _
  rw [hhas.assembled_eq hall]

variable {push : Reassembler κ δ ε} {ttl : Nat} {Admits : Defragmenter κ δ → Fragment κ ε → Prop}

omit [DecidableEq κ] in
theorem fragTotal_fragmentOf (key : κ) (dest : ε) (hfew : chunks.length ≤ 255) (a : Nat × Nat) :
    (fragmentOf key dest chunks a).fragTotal.toNat = chunks.length :=
  UInt8.toNat_ofNat_of_lt' (by show chunks.length < 256; omega)

omit [DecidableEq κ] in
theorem fragId_fragmentOf (key : κ) (dest : ε) (hfew : chunks.length ≤ 255) {a : Nat × Nat}
    (hsmall : a.2 < chunks.length) : (fragmentOf key dest chunks a).fragId.toNat = a.2 :=
  UInt8.toNat_ofNat_of_lt' (by show a.2 < 256; omega)

/-- One fragment more is stored. -/
theorem Holding.step (hpush : Stores push ttl Admits Suits)
    (hadmits : ∀ {d f}, d.totalMemory.value + f.data.length ≤ maxDefragMemory → Admits d f)
    (hmany : 2 ≤ chunks.length) (hfew : chunks.length ≤ 255)
    (hbytes : (chunks.map List.length).sum ≤ maxDefragMemory)
    (h : Holding Suits key dest chunks deadline d done) {a : Nat × Nat} {rest : List Nat}
    (horder : (done ++ a.2 :: rest).Perm (List.range chunks.length)) (htime : a.1 < deadline) :
    ∃ old entry, old.deadline = deadline ∧
      Extended Suits (fragmentOf key dest chunks a) old entry ∧ Has chunks (done ++ [a.2]) entry ∧
      push d (fragmentOf key dest chunks a) = settle d (fragmentOf key dest chunks a) entry := by
  obtain ⟨old, hget, hdeadline, hsuits, hhas⟩ := h.entry
  have hsmall : a.2 < chunks.length := List.mem_range.mp (horder.mem_iff.mp (by simp))
  have hnew : a.2 ∉ done := by
    have hnodup := horder.nodup_iff.mpr List.nodup_range
    rw [List.nodup_append] at hnodup
    exact fun hmem => hnodup.2.2 a.2 hmem a.2 (by simp) rfl
  have htotal := fragTotal_fragmentOf key dest hfew a
  have hindex := fragId_fragmentOf key dest hfew hsmall
  have hsweep : d.sweep (fragmentOf key dest chunks a).now = d := h.sweep_eq htime
  have hroom : d.totalMemory.value + (fragmentOf key dest chunks a).data.length ≤
      maxDefragMemory := by
    have := bytesOf_le horder
    rw [h.memory]
    exact this.trans hbytes
  obtain ⟨entry, he, heq⟩ := hpush.adds (d := d) (f := fragmentOf key dest chunks a)
    (by omega) (by omega) (hadmits hroom) (by rw [hsweep]; exact hget)
    (hhas.total.trans htotal.symm) hsuits (by rw [hindex]; exact hhas.missing hsmall hnew)
    (by rw [hsweep]; exact hroom)
  rw [hsweep] at heq
  exact ⟨old, entry, hdeadline, he, hhas.extend hsmall hfew he, heq⟩

/-- From the second fragment on: each one is stored, and the last completes the
packet. -/
theorem Holding.outputs_rest (hpush : Stores push ttl Admits Suits)
    (hadmits : ∀ {d f}, d.totalMemory.value + f.data.length ≤ maxDefragMemory → Admits d f)
    (hmany : 2 ≤ chunks.length) (hfew : chunks.length ≤ 255)
    (hbytes : (chunks.map List.length).sum ≤ maxDefragMemory)
    (h : Holding Suits key dest chunks deadline d done) {a : Nat × Nat} {rest : List (Nat × Nat)}
    (horder : (done ++ a.2 :: rest.map Prod.snd).Perm (List.range chunks.length))
    (htimes : ∀ b ∈ a :: rest, b.1 < deadline) :
    some (dest, chunks.flatten) ∈
      outputs push d ((a :: rest).map (fragmentOf key dest chunks)) := by
  -- on the fragments to come: each moves its index from the rest to `done`
  induction rest generalizing d done a with
  | nil =>
      obtain ⟨old, entry, -, -, hhas, heq⟩ :=
        h.step hpush hadmits hmany hfew hbytes horder (htimes a (by simp))
      show _ ∈ [(push d (fragmentOf key dest chunks a)).2]
      rw [heq, settle_complete horder hhas]
      simp
  | cons b rest ih =>
      obtain ⟨old, entry, rfl, he, hhas, heq⟩ :=
        h.step hpush hadmits hmany hfew hbytes horder (htimes a (by simp))
      obtain ⟨-, hnext⟩ := settle_holding h.memory h.only horder hhas he
      rw [← heq] at hnext
      refine List.mem_cons_of_mem _ (ih hnext ?_ ?_)
      · rw [List.append_cons] at horder
        exact horder
      · exact fun c hc => htimes c (List.mem_cons_of_mem _ hc)

/-- A fresh packet whose first fragment is admitted is put together. -/
theorem Fresh.reassembled (hpush : Stores push ttl Admits Suits)
    (hadmits : ∀ {d f}, d.totalMemory.value + f.data.length ≤ maxDefragMemory → Admits d f)
    (hd : d.Sound) {first : Nat × Nat} {rest : List (Nat × Nat)}
    (h : Fresh ttl d chunks first rest) (hfirst : Admits d (fragmentOf key dest chunks first)) :
    some (dest, chunks.flatten) ∈
      outputs push d ((first :: rest).map (fragmentOf key dest chunks)) := by
  have hsmall : first.2 < chunks.length := List.mem_range.mp (h.order.mem_iff.mp (by simp))
  have hmany := h.many
  have htotal := fragTotal_fragmentOf key dest h.few first
  have hindex := fragId_fragmentOf key dest h.few hsmall
  have hsweep : d.sweep (fragmentOf key dest chunks first).now = Defragmenter.new :=
    hd.sweep_eq_new h.expired
  have horder : ([] ++ first.2 :: rest.map Prod.snd).Perm (List.range chunks.length) := h.order
  have hroom : (chunks.getD first.2 []).length ≤ maxDefragMemory := by
    have := bytesOf_le horder
    have := h.bytes
    simp only [bytesOf, List.map_nil, List.sum_nil, Nat.zero_add] at *
    omega
  obtain ⟨dest₀, entry, he, heq⟩ := hpush.opens (d := d) (f := fragmentOf key dest chunks first)
    (by omega) (by omega) hfirst (by rw [hsweep]; rfl)
    (by rw [hsweep]; exact Nat.zero_lt_succ 511)
    (by rw [hsweep]; exact (Nat.zero_add _).trans_le hroom)
  rw [hsweep] at heq
  rw [htotal] at he
  have hhas := (has_blank _ dest₀).extend hsmall h.few he
  -- the packet has at least one more fragment
  rcases rest with - | ⟨second, rest⟩
  · have := h.order.length_eq
    simp at this
    omega
  obtain ⟨-, hholding⟩ := settle_holding (d := Defragmenter.new) rfl (fun hget => by cases hget)
    horder hhas he
  rw [← heq] at hholding
  refine List.mem_cons_of_mem _ (hholding.outputs_rest hpush hadmits hmany h.few h.bytes ?_ ?_)
  · exact horder
  · exact h.inTime

end Packet

/-! ### A packet that has lost its first fragment -/

/-- No entry of the packet that is still live has fragment `i`. -/
def Lacks (d : Defragmenter κ δ) (key : κ) (i now : Nat) : Prop :=
  ∀ {entry data}, d.entries.get key = some entry → now < entry.deadline →
    entry.fragments[i]? ≠ some (some data)

omit [DecidableEq κ] in
theorem Grown.lacks {rules : Rules κ ε δ} {f : Fragment κ ε} {old entry : ReassemblyEntry δ}
    {added i : Nat} {data : List UInt8} (h : Grown rules f old entry added)
    (hother : f.fragId.toNat ≠ i) (hold : ∀ data, old.fragments[i]? ≠ some (some data)) :
    entry.fragments[i]? ≠ some (some data) := by
  intro hdata
  rcases h.fragment hdata with hdata | ⟨hi, -⟩
  · exact hold data hdata
  · exact hother hi.symm

/-- Other fragments of the packet do not complete it. -/
theorem Handled.lacks {rules : Rules κ ε δ} {d d' : Defragmenter κ δ} {f : Fragment κ ε}
    {packet : Option (ε × List UInt8)} (h : Handled rules d f d' packet) {i : Nat}
    (hother : f.fragId.toNat ≠ i) (hmany : 1 < f.fragTotal.toNat) (hi : i < f.fragTotal.toNat)
    (hlacks : Lacks d f.key i f.now) : packet = none ∧ Lacks d' f.key i f.now := by
  have hswept : ∀ {entry}, (d.sweep f.now).entries.get f.key = some entry →
      ∀ data, entry.fragments[i]? ≠ some (some data) := by
    intro entry hget data
    obtain ⟨hget, hlive⟩ := Defragmenter.get_sweep_eq_some.mp hget
    exact hlacks hget hlive
  cases h with
  | unchanged => exact ⟨rfl, hlacks⟩
  | whole hone => omega
  | swept => exact ⟨rfl, fun hget _ => hswept hget _⟩
  | dropped =>
      refine ⟨rfl, fun hget _ => ?_⟩
      exact absurd rfl (AssocMap.get_erase_eq_some hget).1
  | @opened dest entry hnone hfew hknows hgrown hroom =>
      refine ⟨rfl, fun hget _ => ?_⟩
      obtain rfl := Option.some.inj ((AssocMap.get_insert_self ..).symm.trans hget)
      refine hgrown.lacks hother fun data hdata => ?_
      have hblank : (ReassemblyEntry.blank f.fragTotal.toNat (f.now + rules.ttl) dest).Missing i :=
        ReassemblyEntry.missing_blank hi
      cases hblank.symm.trans hdata
  | stored hold htotal hgrown hroom =>
      refine ⟨rfl, fun hget _ => ?_⟩
      obtain rfl := Option.some.inj ((AssocMap.get_insert_self ..).symm.trans hget)
      exact hgrown.lacks hother (hswept hold)
  | @completed _ _ _ _ hold htotal hgrown hroom hcomplete hdest =>
      have htotal' := hgrown.total.trans htotal
      obtain ⟨data, hdata⟩ := hcomplete.getElem? (htotal'.symm ▸ hi)
      exact absurd hdata (hgrown.lacks hother (hswept hold))

theorem Obeys.outputs_none {push : Reassembler κ δ ε} {rules : Rules κ ε δ} (h : Obeys push rules)
    (key : κ) {i n : Nat} (hmany : 1 < n) (hi : i < n) {fs : List (Fragment κ ε)}
    (hfs : ∀ f ∈ fs, f.key = key ∧ f.fragId.toNat ≠ i ∧ f.fragTotal.toNat = n)
    (htimes : fs.Pairwise fun f g => f.now ≤ g.now) {d : Defragmenter κ δ}
    (hlacks : ∀ f ∈ fs, Lacks d key i f.now) : ∀ packet ∈ outputs push d fs, packet = none := by
  induction fs generalizing d with
  | nil => exact fun _ hmem => absurd hmem List.not_mem_nil
  | cons f fs ih =>
      obtain ⟨rfl, hother, rfl⟩ := hfs f (by simp)
      obtain ⟨hnone, hnext⟩ := (h.handled d f).lacks hother hmany hi (hlacks f (by simp))
      obtain ⟨hlater, htimes⟩ := List.pairwise_cons.mp htimes
      intro packet hmem
      rcases List.mem_cons.mp hmem with rfl | hmem
      · exact hnone
      · refine ih (fun g hg => hfs g (List.mem_cons_of_mem _ hg)) htimes ?_ packet hmem
        intro g hg entry data hget hlive
        exact hnext hget ((hlater g hg).trans_lt hlive)

/-- The first fragment is refused when it does not fit beside what is counted. -/
theorem insert_eq_of_not_admits {d : V5Defragmenter}
    {f : Fragment (UInt16 × UInt16) TuicV5Address} (hmany : 1 < f.fragTotal.toNat)
    (hindex : f.fragId.toNat < f.fragTotal.toNat) (h : ¬ V5Admits d f) :
    d.insert f = (d, none) := by
  have hvalid : ¬ (f.fragTotal.toNat = 0 ∨ f.fragTotal.toNat ≤ f.fragId.toNat) := by omega
  have hone : ¬ f.fragTotal.toNat = 1 := by omega
  have hmemory : maxDefragMemory < d.totalMemory.value + f.data.length := Nat.lt_of_not_le h
  rw [V5Defragmenter.insert]
  simp only [if_neg hvalid, if_neg hone, if_pos hmemory]

theorem v5Admits_fragmentOf {d : V5Defragmenter} {key : UInt16 × UInt16} {dest : TuicV5Address}
    {chunks : List (List UInt8)} {a : Nat × Nat} :
    V5Admits d (fragmentOf key dest chunks a) ↔
      d.totalMemory.value + (chunks.getD a.2 []).length ≤ maxDefragMemory :=
  Iff.rfl

/-- A fresh packet whose first fragment is refused is lost. -/
theorem Fresh.lost {d : V5Defragmenter} {chunks : List (List UInt8)} {first : Nat × Nat}
    {rest : List (Nat × Nat)} (h : Fresh v5Ttl d chunks first rest) {key : UInt16 × UInt16}
    {dest : TuicV5Address} (hrefused : ¬ V5Admits d (fragmentOf key dest chunks first)) :
    ∀ packet ∈ outputs V5Defragmenter.insert d
      ((first :: rest).map (fragmentOf key dest chunks)), packet = none := by
  have hnodup := h.order.nodup_iff.mpr List.nodup_range
  obtain ⟨hfirst, -⟩ := List.nodup_cons.mp hnodup
  obtain ⟨hlater, htimes⟩ := List.pairwise_cons.mp h.times
  have hsmall : ∀ a ∈ first :: rest, a.2 < chunks.length := fun a ha =>
    List.mem_range.mp (h.order.mem_iff.mp (List.mem_map_of_mem ha))
  have hmany := h.many
  have htotal := fragTotal_fragmentOf key dest h.few first
  have hindex := fragId_fragmentOf key dest h.few (hsmall first (by simp))
  intro packet hmem
  rw [List.map_cons, outputs, insert_eq_of_not_admits (by omega)
    (by have := hsmall first (by simp); omega) hrefused] at hmem
  rcases List.mem_cons.mp hmem with rfl | hmem
  · rfl
  · refine obeys_insert.outputs_none key h.many (hsmall first (by simp)) ?_ ?_ ?_ packet hmem
    · intro f hf
      obtain ⟨a, ha, rfl⟩ := List.mem_map.mp hf
      refine ⟨rfl, ?_, fragTotal_fragmentOf key dest h.few a⟩
      rw [fragId_fragmentOf key dest h.few (hsmall a (List.mem_cons_of_mem _ ha))]
      exact fun heq => hfirst (heq ▸ List.mem_map_of_mem ha)
    · exact List.pairwise_map.mpr htimes
    · intro f hf entry data hget hlive
      obtain ⟨a, ha, rfl⟩ := List.mem_map.mp hf
      -- what is in the table has expired by then
      have hexpired := (h.expired hget).trans (hlater a ha)
      exact absurd hlive (Nat.not_lt.mpr hexpired)

/-! ### The reassemblers -/

/-- In every table that calls can lead to, the counter is exact and bounded, and
a packet that a call returns is put together from one entry. -/
def Accounts (push : Reassembler κ δ ε) (ttl : Nat) : Prop :=
  ∀ history : List (Fragment κ ε), (run push history).Sound ∧
    ∀ f dest bytes, 1 < f.fragTotal.toNat → (push (run push history) f).2 = some (dest, bytes) →
      AssembledFrom push ttl history f dest bytes

/-- The fragments come after the history, and the packet is returned. -/
def Reassembled (push : Reassembler κ δ ε) (history : List (Fragment κ ε)) (key : κ) (dest : ε)
    (chunks : List (List UInt8)) (arrivals : List (Nat × Nat)) : Prop :=
  some (dest, chunks.flatten) ∈
    outputs push (run push history) (arrivals.map (fragmentOf key dest chunks))

theorem Obeys.accounts {push : Reassembler κ δ ε} {rules : Rules κ ε δ} (h : Obeys push rules) :
    Accounts push rules.ttl :=
  fun history => ⟨h.run_sound history, fun _ _ _ hmany hpacket => h.assembled hmany hpacket⟩

theorem recovers_pushFragment [DecidableEq δ] {ttl : Nat} (httl : 0 < ttl)
    {history : List (Fragment κ δ)} {key : κ} {dest : δ} {chunks : List (List UInt8)}
    {first : Nat × Nat} {rest : List (Nat × Nat)}
    (h : Fresh ttl (run (Defragmenter.pushFragment ttl) history) chunks first rest) :
    Reassembled (Defragmenter.pushFragment ttl) history key dest chunks (first :: rest) :=
  h.reassembled (stores_pushFragment ttl) (fun _ => trivial)
    ((obeys_pushFragment httl).run_sound history) trivial

/-- The reassemblers account for their memory in every run, and Hysteria's
recover.  TUIC's recovers exactly when the first fragment of the packet fits
beside the bytes of the expired entries, which are still counted. -/
theorem defragmenters_account_and_recover (history : List (Fragment (UInt16 × UInt16) TuicV5Address))
    (key : UInt16 × UInt16) (dest : TuicV5Address) (chunks : List (List UInt8)) (first : Nat × Nat)
    (rest : List (Nat × Nat)) :
    (Accounts Hy1Defragmenter.pushFragment hyTtl ∧
      ∀ history key dest chunks first rest,
        Fresh hyTtl (run Hy1Defragmenter.pushFragment history) chunks first rest →
        Reassembled Hy1Defragmenter.pushFragment history key dest chunks (first :: rest)) ∧
    (Accounts Hy2Defragmenter.pushFragment hyTtl ∧
      ∀ history key dest chunks first rest,
        Fresh hyTtl (run Hy2Defragmenter.pushFragment history) chunks first rest →
        Reassembled Hy2Defragmenter.pushFragment history key dest chunks (first :: rest)) ∧
    (Accounts V5Defragmenter.insert v5Ttl ∧
      (Fresh v5Ttl (run V5Defragmenter.insert history) chunks first rest →
        (Reassembled V5Defragmenter.insert history key dest chunks (first :: rest) ↔
          (run V5Defragmenter.insert history).totalMemory.value +
            (chunks.getD first.2 []).length ≤ maxDefragMemory))) := by
  have hhy : 0 < hyTtl := by decide
  refine ⟨⟨(obeys_pushFragment hhy).accounts, ?_⟩, ⟨(obeys_pushFragment hhy).accounts, ?_⟩,
    obeys_insert.accounts, ?_⟩
  · intro history key dest chunks first rest h
    exact recovers_pushFragment hhy h
  · intro history key dest chunks first rest h
    exact recovers_pushFragment hhy h
  · intro h
    constructor
    · intro hreassembled
      by_contra hrefused
      cases h.lost (v5Admits_fragmentOf.not.mpr hrefused) _ hreassembled
    · intro hadmits
      exact h.reassembled stores_insert (fun hroom => hroom) (obeys_insert.run_sound history)
        hadmits

/-- Fragment 0 of 2 of packet `i`. -/
def filler (data : List UInt8) (i : Nat) : Fragment (UInt16 × UInt16) TuicV5Address :=
  ⟨0, (0, UInt16.ofNat i), 0, 2, .none, data⟩

/-- The first fragments of `n` packets, all at once. -/
def fillers (data : List UInt8) (n : Nat) : List (Fragment (UInt16 × UInt16) TuicV5Address) :=
  (List.range n).map (filler data)

/-- What the fillers leave in the table. -/
structure Filled (n : Nat) (d : V5Defragmenter) : Prop where
  memory : d.totalMemory.value = n * 65535
  len : d.entries.len = n
  entries : ∀ {k entry}, d.entries.get k = some entry → k.2.toNat < n ∧ entry.deadline = v5Ttl

theorem filled_fillers {data : List UInt8} (hdata : data.length = 65535) {n : Nat} (hn : n ≤ 256) :
    Filled n (run V5Defragmenter.insert (fillers data n)) := by
  induction n with
  | zero => exact ⟨rfl, rfl, fun hget => by cases hget⟩
  | succ n ih =>
      have hold := ih (by omega)
      set d := run V5Defragmenter.insert (fillers data n) with hd
      have hfillers : fillers data (n + 1) = fillers data n ++ [filler data n] := by
        rw [fillers, List.range_succ, List.map_append, List.map_singleton, fillers]
      have hnow : (filler data n).now = 0 := rfl
      have htotal : (filler data n).fragTotal.toNat = 2 := rfl
      have hid : (filler data n).fragId.toNat = 0 := rfl
      have hsweep : d.sweep (filler data n).now = d := by
        apply Defragmenter.sweep_eq_self
        intro k entry hget
        rw [(hold.entries hget).2, hnow]
        decide
      have hlength : (filler data n).data.length = 65535 := hdata
      have hindex : (filler data n).key.2.toNat = n :=
        UInt16.toNat_ofNat_of_lt' (by show n < 65536; omega)
      have hmemory : maxDefragMemory = 16777216 := rfl
      have hroom : d.totalMemory.value + (filler data n).data.length ≤ maxDefragMemory := by
        rw [hold.memory, hlength]
        omega
      have habsent : d.entries.get (filler data n).key = none := by
        rcases hget : d.entries.get (filler data n).key with - | entry
        · rfl
        · have := (hold.entries hget).1
          omega
      obtain ⟨dest, entry, he, heq⟩ := stores_insert.opens (d := d) (f := filler data n) (by omega)
        (by omega) hroom (by rw [hsweep]; exact habsent)
        (by rw [hsweep, hold.len]; show n < 512; omega) (by rw [hsweep]; exact hroom)
      have hunfinished : ¬ entry.Complete := by
        intro hcomplete
        have hsecond : 1 < entry.totalCount := by
          rw [he.total]
          show 1 < (filler data n).fragTotal.toNat
          omega
        obtain ⟨data, hdata⟩ := hcomplete.getElem? hsecond
        rw [he.fragments, htotal, hid] at hdata
        cases hdata
      rw [hfillers, run_append_singleton, ← hd, heq, hsweep, settle, if_neg hunfinished]
      refine ⟨?_, ?_, ?_⟩
      · show d.totalMemory.value + (filler data n).data.length = _
        rw [hold.memory, hlength]
        omega
      · show (d.entries.insert (filler data n).key entry).len = _
        rw [AssocMap.len_insert, AssocMap.contains, habsent, hold.len]
        rfl
      · intro k entry' hget
        rcases AssocMap.get_insert_eq_some hget with ⟨rfl, rfl⟩ | ⟨-, hget⟩
        · exact ⟨by omega, he.deadline.trans (Nat.zero_add v5Ttl)⟩
        · obtain ⟨hlt, hdeadline⟩ := hold.entries hget
          exact ⟨by omega, hdeadline⟩

/-- The packet of a caller whose first fragment has 257 bytes. -/
def shortPacket : List (List UInt8) := [List.replicate 257 1, [2]]

theorem length_first : (shortPacket.getD 0 []).length = 257 := List.length_replicate

theorem fresh_fillers {data : List UInt8} (hdata : data.length = 65535) {n : Nat} (hn : n ≤ 256) :
    Fresh v5Ttl (run V5Defragmenter.insert (fillers data n)) shortPacket (v5Ttl, 0) [(v5Ttl, 1)] where
  many := Nat.le_refl 2
  few := by show 2 ≤ 255; omega
  bytes := by
    have hsum : (shortPacket.map List.length).sum = 258 := by
      rw [shortPacket, List.map_cons, List.length_replicate]
      rfl
    rw [hsum]
    decide
  order := List.Perm.refl _
  expired := fun hget => by rw [((filled_fillers hdata hn).entries hget).2]
  times := by simp
  inTime := by decide

/-- As long as a fragment can be. -/
def longest : List UInt8 := List.replicate 65535 0

theorem length_longest : longest.length = 65535 := List.length_replicate

/-- An expired entry is swept away, and the packet is put together. -/
theorem reassembled_after_expiry :
    Fresh v5Ttl (run V5Defragmenter.insert (fillers longest 1)) shortPacket (v5Ttl, 0)
        [(v5Ttl, 1)] ∧
      Reassembled V5Defragmenter.insert (fillers longest 1) (7, 9) .none shortPacket
        [(v5Ttl, 0), (v5Ttl, 1)] := by
  have hone : 1 ≤ 256 := by decide
  have hfresh := fresh_fillers length_longest hone
  refine ⟨hfresh, ?_⟩
  refine ((defragmenters_account_and_recover _ _ _ _ _ _).2.2.2 hfresh).mpr ?_
  rw [(filled_fillers length_longest hone).memory, length_first]
  decide

/-- 256 long fragments fill the table.  Ten seconds later all of them have
expired, and a packet whose first fragment has 257 bytes is lost. -/
theorem full_table_stays_full :
    (fillers longest 256).Pairwise (fun f g => f.now ≤ g.now) ∧
      Fresh v5Ttl (run V5Defragmenter.insert (fillers longest 256)) shortPacket (v5Ttl, 0)
        [(v5Ttl, 1)] ∧
      ¬ Reassembled V5Defragmenter.insert (fillers longest 256) (7, 9) .none shortPacket
        [(v5Ttl, 0), (v5Ttl, 1)] := by
  have hall : 256 ≤ 256 := Nat.le_refl _
  have hfresh := fresh_fillers length_longest hall
  refine ⟨?_, hfresh, ?_⟩
  · exact List.pairwise_map.mpr (List.pairwise_of_forall fun _ _ => Nat.le_refl 0)
  · intro hreassembled
    refine Option.some_ne_none _ (hfresh.lost ?_ _ hreassembled)
    rw [v5Admits_fragmentOf, (filled_fillers length_longest hall).memory, length_first]
    decide

end Elise.Defrag
