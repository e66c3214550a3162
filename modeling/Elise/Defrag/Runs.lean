/-
Elise/Defrag/Runs.lean

What holds after every sequence of calls.

`Handled` says what one call can do; a reassembler is a function whose calls
are all `Handled`.  Two invariants follow, each from one step lemma:

* `Sound`: the counter is exact and bounded, and so is the table;
* `Provenance`: every entry was opened by one fragment and has been in the table
  since, and each of its fragments was stored in it by a call that came before
  its deadline.

A packet that is returned is then put together from the fragments of one entry
(`AssembledFrom`).
-/
import Elise.Defrag.Push

namespace Elise.Defrag

variable {κ δ ε : Type*} [DecidableEq κ]

/-- A reassembler: the table after a call, and the packet it returns. -/
abbrev Reassembler (κ δ ε : Type*) :=
  Defragmenter κ δ → Fragment κ ε → Defragmenter κ δ × Option (ε × List UInt8)

/-- The table after the calls. -/
def run (push : Reassembler κ δ ε) (fs : List (Fragment κ ε)) : Defragmenter κ δ :=
  fs.foldl (fun d f => (push d f).1) Defragmenter.new

omit [DecidableEq κ] in
theorem run_append_singleton (push : Reassembler κ δ ε) (fs : List (Fragment κ ε))
    (f : Fragment κ ε) : run push (fs ++ [f]) = (push (run push fs) f).1 :=
  List.foldl_append ..

/-! ### The counter and the table -/

theorem Defragmenter.Sound.put_grown {d : Defragmenter κ δ} (h : d.Sound) {rules : Rules κ ε δ}
    {f : Fragment κ ε} {old entry : ReassemblyEntry δ} {added : Nat}
    (hold : d.entries.get f.key = some old) (hgrown : Grown rules f old entry added)
    (hroom : added = 0 ∨ d.totalMemory.value + added ≤ maxDefragMemory) :
    (d.put f.key entry added).Sound := by
  refine h.put (.inl ⟨old, hold, hgrown.bytes⟩) ?_
  rcases hroom with rfl | hroom
  · exact h.within
  · exact hroom

theorem Handled.sound {rules : Rules κ ε δ} {d d' : Defragmenter κ δ} {f : Fragment κ ε}
    {packet : Option (ε × List UInt8)} (h : Handled rules d f d' packet) (hd : d.Sound) :
    d'.Sound := by
  have hswept := hd.sweep f.now
  cases h with
  | unchanged => exact hd
  | whole => exact hd
  | swept => exact hswept
  | dropped hget => exact hswept.remove hget
  | opened hnone hfew hknows hgrown hroom =>
      refine hswept.put (.inr ⟨hnone, ?_, hfew⟩) hroom
      rw [hgrown.bytes]
      exact Nat.zero_add _
  | stored hold htotal hgrown hroom => exact hswept.put_grown hold hgrown hroom
  | completed hold htotal hgrown hroom hcomplete hdest =>
      exact (hswept.put_grown hold hgrown hroom).remove (AssocMap.get_insert_self ..)

/-! ### Where the fragments come from -/

/-- The packet's entry was opened by `first` and has been in the table since. -/
structure Life (push : Reassembler κ δ ε) (ttl : Nat) (key : κ) (older : List (Fragment κ ε))
    (first : Fragment κ ε) (later : List (Fragment κ ε)) : Prop where
  opens : first.key = key
  opened : ((run push older).sweep first.now).entries.get key = none
  alive : ∀ mid, mid <+: later → ∃ entry,
    (run push (older ++ first :: mid)).entries.get key = some entry ∧
      entry.deadline = first.now + ttl

/-- `g` was stored as fragment `i` of the entry that `first` opened, before the
entry's deadline. -/
structure Piece (push : Reassembler κ δ ε) (ttl : Nat) (older : List (Fragment κ ε))
    (first : Fragment κ ε) (later : List (Fragment κ ε)) (total i : Nat) (g : Fragment κ ε) :
    Prop where
  key : g.key = first.key
  index : g.fragId.toNat = i
  total : g.fragTotal.toNat = total
  inTime : g.now < first.now + ttl
  stored : ∃ mid rest entry, first :: later = mid ++ g :: rest ∧
    (run push (older ++ mid ++ [g])).entries.get g.key = some entry ∧
      entry.fragments[i]? = some (some g.data)

/-- The fragment `f` that comes after `history` completes a packet. -/
def AssembledFrom (push : Reassembler κ δ ε) (ttl : Nat) (history : List (Fragment κ ε))
    (f : Fragment κ ε) (dest : ε) (bytes : List UInt8) : Prop :=
  ∃ older first later, history = older ++ first :: later ∧
    Life push ttl f.key older first later ∧ f.now < first.now + ttl ∧
    ∃ pieces : List (Fragment κ ε), pieces.length = f.fragTotal.toNat ∧
      bytes = (pieces.map Fragment.data).flatten ∧
      (∀ i g, pieces[i]? = some g →
        Piece push ttl older first later f.fragTotal.toNat i g ∨ g = f ∧ f.fragId.toNat = i) ∧
      ∀ g, pieces[0]? = some g → g.dest = dest

section Provenance

variable {push : Reassembler κ δ ε} {rules : Rules κ ε δ}

/-- Where an entry comes from. -/
structure Provenance (push : Reassembler κ δ ε) (rules : Rules κ ε δ)
    (history : List (Fragment κ ε)) (key : κ) (entry : ReassemblyEntry δ) : Prop where
  knows : rules.Knows entry
  life : ∃ older first later, history = older ++ first :: later ∧
    Life push rules.ttl key older first later ∧ entry.deadline = first.now + rules.ttl ∧
    ∀ {i : Nat} {data : List UInt8}, entry.fragments[i]? = some (some data) →
      ∃ g, Piece push rules.ttl older first later entry.totalCount i g ∧ g.data = data ∧
        rules.Agrees g entry.dest

theorem Life.extend {ttl : Nat} {key : κ} {older later : List (Fragment κ ε)}
    {first f : Fragment κ ε} {entry : ReassemblyEntry δ} (h : Life push ttl key older first later)
    (hget : (run push (older ++ first :: (later ++ [f]))).entries.get key = some entry)
    (hdeadline : entry.deadline = first.now + ttl) :
    Life push ttl key older first (later ++ [f]) where
  opens := h.opens
  opened := h.opened
  alive := by
    intro mid hmid
    rcases List.prefix_concat_iff.mp hmid with rfl | hmid
    · exact ⟨entry, hget, hdeadline⟩
    · exact h.alive mid hmid

theorem Piece.extend {ttl total i : Nat} {older later : List (Fragment κ ε)}
    {first g : Fragment κ ε} (h : Piece push ttl older first later total i g)
    (f : Fragment κ ε) : Piece push ttl older first (later ++ [f]) total i g where
  key := h.key
  index := h.index
  total := h.total
  inTime := h.inTime
  stored := by
    obtain ⟨mid, rest, entry, hsplit, hget, hdata⟩ := h.stored
    refine ⟨mid, rest ++ [f], entry, ?_, hget, hdata⟩
    rw [← List.cons_append, hsplit, List.append_assoc, List.cons_append]

/-- A call that keeps an entry keeps where it comes from. -/
theorem Provenance.keep {history : List (Fragment κ ε)} {key : κ} {entry : ReassemblyEntry δ}
    (h : Provenance push rules history key entry) {f : Fragment κ ε}
    (hget : (run push (history ++ [f])).entries.get key = some entry) :
    Provenance push rules (history ++ [f]) key entry := by
  obtain ⟨older, first, later, rfl, hlife, hdeadline, hpieces⟩ := h.life
  rw [List.append_assoc, List.cons_append] at hget ⊢
  refine ⟨h.knows, older, first, later ++ [f], rfl, hlife.extend hget hdeadline, hdeadline, ?_⟩
  intro i data hdata
  obtain ⟨g, hg, hrest⟩ := hpieces hdata
  exact ⟨g, hg.extend f, hrest⟩

/-- The entry that a fragment opens. -/
theorem Provenance.opened {history : List (Fragment κ ε)} {f : Fragment κ ε} {dest : δ}
    {entry : ReassemblyEntry δ} {added : Nat} (httl : 0 < rules.ttl)
    (hnone : ((run push history).sweep f.now).entries.get f.key = none)
    (hknows : rules.Knows (.blank f.fragTotal.toNat (f.now + rules.ttl) dest))
    (hgrown : Grown rules f (.blank f.fragTotal.toNat (f.now + rules.ttl) dest) entry added)
    (hget : (run push (history ++ [f])).entries.get f.key = some entry) :
    Provenance push rules (history ++ [f]) f.key entry := by
  refine ⟨hgrown.knows hknows, history, f, [], rfl, ⟨rfl, hnone, ?_⟩, hgrown.deadline, ?_⟩
  · intro mid hmid
    obtain rfl := List.prefix_nil.mp hmid
    exact ⟨entry, hget, hgrown.deadline⟩
  · intro i data hdata
    rcases hgrown.fragment hdata with hold | ⟨rfl, rfl, hagrees⟩
    · -- a new entry has no fragment before
      have hold : (List.replicate f.fragTotal.toNat none)[i]? = some (some data) := hold
      rw [List.getElem?_replicate] at hold
      split at hold
      · cases hold
      · cases hold
    · refine ⟨f, ⟨rfl, rfl, hgrown.total.symm, by omega, [], [], entry, rfl, ?_, hdata⟩, rfl,
        hagrees hknows⟩
      rw [List.append_nil]
      exact hget

/-- The entry that a fragment is added to. -/
theorem Provenance.grow {history : List (Fragment κ ε)} {f : Fragment κ ε}
    {old entry : ReassemblyEntry δ} {added : Nat}
    (h : Provenance push rules history f.key old) (hlive : f.now < old.deadline)
    (htotal : old.totalCount = f.fragTotal.toNat) (hgrown : Grown rules f old entry added)
    (hget : (run push (history ++ [f])).entries.get f.key = some entry) :
    Provenance push rules (history ++ [f]) f.key entry := by
  obtain ⟨older, first, later, rfl, hlife, hdeadline, hpieces⟩ := h.life
  have hentry : entry.deadline = first.now + rules.ttl := hgrown.deadline.trans hdeadline
  rw [List.append_assoc, List.cons_append] at hget ⊢
  refine ⟨hgrown.knows h.knows, older, first, later ++ [f], rfl, hlife.extend hget hentry, hentry, ?_⟩
  intro i data hdata
  rcases hgrown.fragment hdata with hold | ⟨rfl, rfl, hagrees⟩
  · obtain ⟨g, hg, hgdata, hgdest⟩ := hpieces hold
    rw [hgrown.total]
    exact ⟨g, hg.extend f, hgdata, hgrown.keeps g hgdest⟩
  · refine ⟨f, ⟨hlife.opens.symm, rfl, ?_, ?_, first :: later, [], entry, rfl, ?_, hdata⟩, rfl,
      hagrees h.knows⟩
    · rw [hgrown.total, htotal]
    · rw [← hdeadline]
      exact hlive
    · rw [List.append_assoc, List.cons_append]
      exact hget

/-- What one call does to where the entries come from. -/
theorem Handled.provenance {history : List (Fragment κ ε)} {f : Fragment κ ε}
    {packet : Option (ε × List UInt8)} (httl : 0 < rules.ttl)
    (h : Handled rules (run push history) f (run push (history ++ [f])) packet)
    (hprov : ∀ {key entry}, (run push history).entries.get key = some entry →
      Provenance push rules history key entry)
    {key : κ} {entry : ReassemblyEntry δ}
    (hget : (run push (history ++ [f])).entries.get key = some entry) :
    Provenance push rules (history ++ [f]) key entry := by
  have hkept : (run push history).entries.get key = some entry →
      Provenance push rules (history ++ [f]) key entry := fun hbefore => (hprov hbefore).keep hget
  have hswept : ((run push history).sweep f.now).entries.get key = some entry →
      Provenance push rules (history ++ [f]) key entry :=
    fun hbefore => hkept (Defragmenter.get_sweep_eq_some.mp hbefore).1
  generalize hafter : run push (history ++ [f]) = after at h
  have hget' := hget
  rw [hafter] at hget'
  cases h with
  | unchanged => exact hkept hget'
  | whole => exact hkept hget'
  | swept => exact hswept hget'
  | dropped => exact hswept (AssocMap.get_erase_eq_some hget').2
  | opened hnone hfew hknows hgrown hroom =>
      rcases AssocMap.get_insert_eq_some hget' with ⟨rfl, rfl⟩ | ⟨-, hbefore⟩
      · exact .opened httl hnone hknows hgrown hget
      · exact hswept hbefore
  | stored hold htotal hgrown hroom =>
      rcases AssocMap.get_insert_eq_some hget' with ⟨rfl, rfl⟩ | ⟨-, hbefore⟩
      · obtain ⟨hbefore, hlive⟩ := Defragmenter.get_sweep_eq_some.mp hold
        exact (hprov hbefore).grow hlive htotal hgrown hget
      · exact hswept hbefore
  | completed hold htotal hgrown hroom hcomplete hdest =>
      obtain ⟨hne, hbefore⟩ := AssocMap.get_erase_eq_some hget'
      rcases AssocMap.get_insert_eq_some hbefore with ⟨heq, -⟩ | ⟨-, hbefore⟩
      · exact absurd heq hne
      · exact hswept hbefore

end Provenance

/-! ### Packets -/

/-- What is known of each index gives a list. -/
theorem exists_pieces {α : Type*} {n : Nat} {P : Nat → α → Prop} (h : ∀ i < n, ∃ x, P i x) :
    ∃ xs : List α, xs.length = n ∧ ∀ i x, xs[i]? = some x → P i x := by
  choose f hf using h
  refine ⟨List.ofFn fun i : Fin n => f i i.isLt, List.length_ofFn, ?_⟩
  intro i x hx
  obtain ⟨hi, rfl⟩ := List.getElem?_eq_some_iff.mp hx
  rw [List.getElem_ofFn]
  exact hf i _

omit [DecidableEq κ] in
/-- The bytes of an entry whose fragments are those of the pieces. -/
theorem ReassemblyEntry.assembled_eq {entry : ReassemblyEntry δ} {pieces : List (Fragment κ ε)}
    (hlength : pieces.length = entry.totalCount)
    (h : ∀ (i : Nat) (g : Fragment κ ε), pieces[i]? = some g →
      entry.fragments[i]? = some (some g.data)) :
    entry.assembled = (pieces.map Fragment.data).flatten := by
  have hfragments : entry.fragments = pieces.map fun g => some g.data := by
    apply List.ext_getElem?
    intro i
    rcases hg : pieces[i]? with - | g
    · have hle : entry.fragments.length ≤ i := by
        rw [entry.sized, ← hlength]
        exact List.getElem?_eq_none_iff.mp hg
      rw [List.getElem?_eq_none hle, List.getElem?_map, hg, Option.map_none]
    · rw [h i g hg, List.getElem?_map, hg, Option.map_some]
  rw [ReassemblyEntry.assembled, hfragments, List.filterMap_map]
  congr 1
  exact congrFun List.filterMap_eq_map' pieces

theorem Handled.assembled {push : Reassembler κ δ ε} {rules : Rules κ ε δ}
    {history : List (Fragment κ ε)} {f : Fragment κ ε} {after : Defragmenter κ δ} {dest : ε}
    {bytes : List UInt8}
    (h : Handled rules (run push history) f after (some (dest, bytes)))
    (hprov : ∀ {key entry}, (run push history).entries.get key = some entry →
      Provenance push rules history key entry)
    (hmany : 1 < f.fragTotal.toNat) : AssembledFrom push rules.ttl history f dest bytes := by
  cases h with
  | whole hone => omega
  | @completed old entry _ _ hold htotal hgrown hroom hcomplete hdest =>
      obtain ⟨hbefore, hlive⟩ := Defragmenter.get_sweep_eq_some.mp hold
      have hp := hprov hbefore
      obtain ⟨older, first, later, rfl, hlife, hdeadline, hpieces⟩ := hp.life
      rw [hdeadline] at hlive
      have hcount : entry.totalCount = f.fragTotal.toNat := hgrown.total.trans htotal
      -- each fragment of the entry is a piece that came before, or `f` itself
      have hex : ∀ i < f.fragTotal.toNat, ∃ g, entry.fragments[i]? = some (some g.data) ∧
          (Piece push rules.ttl older first later f.fragTotal.toNat i g ∨
            g = f ∧ f.fragId.toNat = i) ∧ rules.Agrees g entry.dest := by
        intro i hi
        obtain ⟨data, hdata⟩ := hcomplete.getElem? (hcount.symm ▸ hi)
        rcases hgrown.fragment hdata with hold | ⟨rfl, rfl, hagrees⟩
        · obtain ⟨g, hg, rfl, hagrees⟩ := hpieces hold
          exact ⟨g, hdata, .inl (htotal ▸ hg), hgrown.keeps g hagrees⟩
        · exact ⟨f, hdata, .inr ⟨rfl, rfl⟩, hagrees hp.knows⟩
      obtain ⟨pieces, hlength, hall⟩ := exists_pieces hex
      refine ⟨older, first, later, rfl, hlife, hlive, pieces, hlength, ?_, ?_, ?_⟩
      · exact ReassemblyEntry.assembled_eq (hlength.trans hcount.symm) fun i g hg => (hall i g hg).1
      · exact fun i g hg => (hall i g hg).2.1
      · intro g hg
        obtain ⟨-, hpiece, hagrees⟩ := hall 0 g hg
        refine hdest g ?_ hagrees
        rcases hpiece with hpiece | ⟨rfl, hzero⟩
        · exact hpiece.index
        · exact hzero

/-! ### Runs -/

/-- Every call of the reassembler is `Handled`. -/
structure Obeys (push : Reassembler κ δ ε) (rules : Rules κ ε δ) : Prop where
  ttl_pos : 0 < rules.ttl
  handled : ∀ d f, Handled rules d f (push d f).1 (push d f).2

namespace Obeys

variable {push : Reassembler κ δ ε} {rules : Rules κ ε δ}

theorem run_sound (h : Obeys push rules) (fs : List (Fragment κ ε)) : (run push fs).Sound := by
  induction fs using List.reverseRecOn with
  | nil => exact Defragmenter.sound_new
  | append_singleton fs f ih =>
      rw [run_append_singleton]
      exact (h.handled _ f).sound ih

theorem run_provenance (h : Obeys push rules) (fs : List (Fragment κ ε)) {key : κ}
    {entry : ReassemblyEntry δ} (hget : (run push fs).entries.get key = some entry) :
    Provenance push rules fs key entry := by
  induction fs using List.reverseRecOn generalizing key entry with
  | nil => cases hget
  | append_singleton fs f ih =>
      have hstep := h.handled (run push fs) f
      rw [← run_append_singleton] at hstep
      exact hstep.provenance h.ttl_pos ih hget

theorem assembled (h : Obeys push rules) {history : List (Fragment κ ε)} {f : Fragment κ ε}
    {dest : ε} {bytes : List UInt8} (hmany : 1 < f.fragTotal.toNat)
    (hpacket : (push (run push history) f).2 = some (dest, bytes)) :
    AssembledFrom push rules.ttl history f dest bytes := by
  have hstep := h.handled (run push history) f
  rw [hpacket] at hstep
  exact hstep.assembled (h.run_provenance history) hmany

end Obeys

theorem obeys_pushFragment [DecidableEq δ] {ttl : Nat} (h : 0 < ttl) :
    Obeys (Defragmenter.pushFragment ttl) (hyRules κ δ ttl) :=
  ⟨h, handled_pushFragment ttl⟩

theorem obeys_insert : Obeys V5Defragmenter.insert v5Rules :=
  ⟨by decide, handled_insert⟩

end Elise.Defrag
