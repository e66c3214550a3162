/-
Elise/Hysteria/Gecko.lean

How Gecko puts fragments together (`GeckoObfs::deobfuscate` of
src/protocol/hysteria/obfs.rs), over runs.

The chunks of a message wait in an entry that has a deadline of eight seconds,
and the deadline is looked at only when there are more than 1024 entries.  So a
chunk may wait for ever, and be put together with one of a later message that has
the same number, or keep it out.  Neither happens in a run in which no fragment
finds an entry that is past its deadline (`Unexpired`, `gecko_never_mixes`).
-/
import Elise.Hysteria.Obfs
import Elise.Lib.Run

namespace Elise

namespace Hysteria

open Net

/-! ### Runs -/

structure GeckoDatagram where
  /-- Nanoseconds. -/
  time : Nat
  remote : SocketAddr
  wire : List UInt8
  deriving DecidableEq

/-- A fragment, when it came and from whom. -/
structure GeckoReceived where
  time : Nat
  remote : SocketAddr
  fragment : GeckoFragment
  deriving DecidableEq

def GeckoReceived.key (r : GeckoReceived) : SocketAddr × UInt8 := (r.remote, r.fragment.msgId)

/-- What a datagram holds if it is a fragment. -/
def fragmentOf (s : SalamanderObfs) (d : GeckoDatagram) : Option GeckoReceived :=
  match s.deobfuscate d.wire with
  | none => none
  | some [] => none
  | some (b :: bs) =>
      if b &&& geckoFragmentFlag = 0 then none
      else (GeckoFragment.parse (b :: bs)).map fun f => ⟨d.time, d.remote, f⟩

def fragmentsOf (s : SalamanderObfs) (ds : List GeckoDatagram) : List GeckoReceived :=
  ds.filterMap (fragmentOf s)

namespace GeckoObfs

def receive (g : GeckoObfs) (d : GeckoDatagram) : Option (List UInt8) × GeckoObfs :=
  g.deobfuscate d.time d.remote d.wire

/-- The state after some datagrams. -/
def after (g : GeckoObfs) (ds : List GeckoDatagram) : GeckoObfs := (Transducer.run receive g ds).2

/-- What is given back for each of some datagrams. -/
def outputs (g : GeckoObfs) (ds : List GeckoDatagram) : List (Option (List UInt8)) :=
  (Transducer.run receive g ds).1

def next (g : GeckoObfs) (d : GeckoDatagram) : Option GeckoObfs := some (g.receive d).2

/-- A fragment does not find an entry that is past its deadline. -/
def Unexpired (g : GeckoObfs) (d : GeckoDatagram) : Prop :=
  ∀ r ∈ fragmentOf g.salamander d, ∀ e ∈ (g.reassembly.purge r.time).get r.key, r.time < e.deadline

instance (g : GeckoObfs) (d : GeckoDatagram) : Decidable (Unexpired g d) :=
  inferInstanceAs (Decidable (∀ r ∈ fragmentOf g.salamander d,
    ∀ e ∈ (g.reassembly.purge r.time).get r.key, r.time < e.deadline))

theorem fragmentOf_spec {s : SalamanderObfs} {d : GeckoDatagram} {r : GeckoReceived}
    (h : fragmentOf s d = some r) :
    r.time = d.time ∧ r.fragment.index < r.fragment.total ∧ r.fragment.total < 16 := by
  rw [fragmentOf] at h
  split at h
  · cases h
  · cases h
  · split at h
    · cases h
    · obtain ⟨f, hparse, rfl⟩ := Option.map_eq_some_iff.mp h
      exact ⟨rfl, (GeckoFragment.parse_spec hparse).2⟩

theorem receive_of_fragment {g : GeckoObfs} {d : GeckoDatagram} {r : GeckoReceived}
    (h : fragmentOf g.salamander d = some r) :
    g.receive d = ((g.reassembly.push r.time r.remote r.fragment).1,
      { g with reassembly := (g.reassembly.push r.time r.remote r.fragment).2 }) := by
  rw [fragmentOf] at h
  rw [receive, deobfuscate]
  generalize g.salamander.deobfuscate d.wire = inner at h ⊢
  rcases inner with - | (- | ⟨b, bs⟩)
  · cases h
  · cases h
  · dsimp only at h ⊢
    by_cases hflag : b &&& geckoFragmentFlag = 0
    · rw [if_pos hflag] at h
      cases h
    · rw [if_neg hflag] at h ⊢
      obtain ⟨f, hparse, rfl⟩ := Option.map_eq_some_iff.mp h
      rw [hparse]

theorem receive_of_none {g : GeckoObfs} {d : GeckoDatagram} (h : fragmentOf g.salamander d = none) :
    (g.receive d).2 = g := by
  rw [fragmentOf] at h
  rw [receive, deobfuscate]
  generalize g.salamander.deobfuscate d.wire = inner at h ⊢
  rcases inner with - | (- | ⟨b, bs⟩)
  · rfl
  · rfl
  · dsimp only at h ⊢
    by_cases hflag : b &&& geckoFragmentFlag = 0
    · rw [if_pos hflag]
    · rw [if_neg hflag] at h ⊢
      rw [Option.map_eq_none_iff.mp h]

@[simp] theorem salamander_receive (g : GeckoObfs) (d : GeckoDatagram) :
    (g.receive d).2.salamander = g.salamander := by
  cases h : fragmentOf g.salamander d with
  | none => rw [receive_of_none h]
  | some r => rw [receive_of_fragment h]

end GeckoObfs

/-! ### One fragment -/

namespace GeckoTable

variable (table : GeckoTable) (now : Nat) (key : SocketAddr × UInt8) (fresh : GeckoReassemblyEntry)

theorem get_entryOr_self : (table.entryOr key fresh).2.get key = some (table.entryOr key fresh).1 := by
  rw [entryOr]
  split
  · assumption
  · rw [AssocMap.get_insert_self]

theorem get_entryOr_ne {key' : SocketAddr × UInt8} (h : key' ≠ key) :
    (table.entryOr key fresh).2.get key' = table.get key' := by
  rw [entryOr]
  split
  · rfl
  · rw [AssocMap.get_insert_ne _ _ h]

/-- The entry in which a fragment is put. -/
def entryFor (r : GeckoReceived) : GeckoReassemblyEntry :=
  ((table.purge r.time).entryOr r.key (.new r.time r.fragment.total)).1

variable {table} {now} {key} {fresh}

/-- Other entries stay, but for the purge. -/
theorem get_push_ne {r : GeckoReceived} (h : key ≠ r.key) :
    (table.push r.time r.remote r.fragment).2.get key = (table.purge r.time).get key := by
  have hother := get_entryOr_ne (table.purge r.time) r.key (.new r.time r.fragment.total) h
  rw [push]
  dsimp only
  split
  · exact hother
  · split
    · show (AssocMap.erase (AssocMap.insert _ r.key _) r.key).get key = _
      rw [AssocMap.get_erase_ne _ h, AssocMap.get_insert_ne _ _ h]
      exact hother
    · show (AssocMap.insert _ r.key _).get key = _
      rw [AssocMap.get_insert_ne _ _ h]
      exact hother

/-- A fragment does not fit, or it is put in its place, and the message is whole
or not. -/
theorem push_cases (table : GeckoTable) (r : GeckoReceived) :
    (((table.entryFor r).total.toNat ≠ r.fragment.total ∨
        (table.entryFor r).chunks.length ≤ r.fragment.index) ∧
      (table.push r.time r.remote r.fragment).1 = none ∧
      (table.push r.time r.remote r.fragment).2.get r.key = some (table.entryFor r)) ∨
    ((table.entryFor r).total.toNat = r.fragment.total ∧
      r.fragment.index < (table.entryFor r).chunks.length ∧
      ((((table.entryFor r).fill r.fragment.index r.fragment.data).received = r.fragment.total ∧
        (table.push r.time r.remote r.fragment).1 =
          some ((table.entryFor r).fill r.fragment.index r.fragment.data).message ∧
        (table.push r.time r.remote r.fragment).2.get r.key = none) ∨
      (((table.entryFor r).fill r.fragment.index r.fragment.data).received ≠ r.fragment.total ∧
        (table.push r.time r.remote r.fragment).1 = none ∧
        (table.push r.time r.remote r.fragment).2.get r.key =
          some ((table.entryFor r).fill r.fragment.index r.fragment.data)))) := by
  have hself := get_entryOr_self (table.purge r.time) r.key (.new r.time r.fragment.total)
  have hpush : table.push r.time r.remote r.fragment =
      if (table.entryFor r).total.toNat ≠ r.fragment.total ∨
          (table.entryFor r).chunks.length ≤ r.fragment.index then
        (none, ((table.purge r.time).entryOr r.key (.new r.time r.fragment.total)).2)
      else
        let entry := (table.entryFor r).fill r.fragment.index r.fragment.data
        let table := ((table.purge r.time).entryOr r.key (.new r.time r.fragment.total)).2
        if entry.received = r.fragment.total then
          (some entry.message, (table.insert r.key entry).erase r.key)
        else (none, table.insert r.key entry) := rfl
  rw [hpush]
  split
  · rename_i hunfit
    exact .inl ⟨hunfit, rfl, hself⟩
  · rename_i hfit
    rw [not_or, not_not, Nat.not_le] at hfit
    refine .inr ⟨hfit.1, hfit.2, ?_⟩
    dsimp only
    split
    · rename_i hwhole
      exact .inl ⟨hwhole, rfl, AssocMap.get_erase_self _ _⟩
    · rename_i hpart
      exact .inr ⟨hpart, rfl, AssocMap.get_insert_self _ _ _⟩

/-- The entry was there, or it is new. -/
theorem entryFor_cases (table : GeckoTable) (r : GeckoReceived) :
    (table.purge r.time).get r.key = some (table.entryFor r) ∨
      ((table.purge r.time).get r.key = none ∧ table.entryFor r = .new r.time r.fragment.total) := by
  rw [entryFor, entryOr]
  split
  · rename_i hget
    exact .inl hget
  · rename_i hget
    exact .inr ⟨hget, rfl⟩

/-- An entry that is not past its deadline is not purged. -/
theorem get_purge_of_lt {entry : GeckoReassemblyEntry} (h : table.get key = some entry)
    (hnow : now < entry.deadline) : (table.purge now).get key = some entry := by
  rw [purge]
  split
  · rw [AssocMap.get_retain, h, Option.filter_some, decide_eq_true hnow]
    rfl
  · exact h

end GeckoTable

/-! ### Entries -/

namespace GeckoReassemblyEntry

/-- The counter counts the chunks that are there. -/
structure Counted (e : GeckoReassemblyEntry) : Prop where
  length : e.chunks.length = e.total.toNat
  received : e.received = e.chunks.countP Option.isSome

theorem Counted.new {now total : Nat} (h : total < 16) : Counted (.new now total) where
  length := by
    show (List.replicate total none).length = (UInt8.ofNat total).toNat
    rw [List.length_replicate, UInt8.toNat_ofNat_of_lt' (by show total < 256; omega)]
  received := by
    show 0 = (List.replicate total none).countP Option.isSome
    rw [List.countP_replicate]
    rfl

variable {e : GeckoReassemblyEntry} {index : Nat} {data : List UInt8}

theorem fill_of_none (h : e.chunks[index]? = some none) :
    e.fill index data = { e with chunks := e.chunks.set index (some data), received := e.received + 1 } := by
  rw [fill, if_pos]
  rw [List.getD_eq_getElem?_getD, h]
  rfl

theorem fill_of_some {chunk : List UInt8} (h : e.chunks[index]? = some (some chunk)) :
    e.fill index data = e := by
  rw [fill, if_neg]
  rw [List.getD_eq_getElem?_getD, h]
  rintro ⟨⟩

theorem fill_total (index : Nat) (data : List UInt8) : (e.fill index data).total = e.total := by
  rw [fill]
  split
  · rfl
  · rfl

theorem fill_deadline (index : Nat) (data : List UInt8) : (e.fill index data).deadline = e.deadline := by
  rw [fill]
  split
  · rfl
  · rfl

theorem getElem?_eq_none_or_some (h : index < e.chunks.length) :
    e.chunks[index]? = some none ∨ ∃ chunk, e.chunks[index]? = some (some chunk) := by
  cases hc : e.chunks[index] with
  | none => exact .inl (by rw [List.getElem?_eq_getElem h, hc])
  | some chunk => exact .inr ⟨chunk, by rw [List.getElem?_eq_getElem h, hc]⟩

theorem Counted.fill (h : Counted e) (hindex : index < e.chunks.length) : Counted (e.fill index data) := by
  rcases getElem?_eq_none_or_some hindex with hnone | ⟨chunk, hsome⟩
  · rw [fill_of_none hnone]
    refine ⟨(List.length_set).trans h.length, ?_⟩
    show e.received + 1 = (e.chunks.set index (some data)).countP Option.isSome
    have hget : e.chunks[index] = none := by
      rw [List.getElem?_eq_getElem hindex] at hnone
      exact Option.some.inj hnone
    rw [List.countP_set hindex, hget, h.received]
    simp
  · rw [fill_of_some hsome]
    exact h

/-- When all were counted, all are there. -/
theorem Counted.whole (h : Counted e) (hall : e.received = e.total.toNat) {index : Nat}
    (hindex : index < e.total.toNat) : ∃ chunk, e.chunks[index]? = some (some chunk) := by
  have hcount : e.chunks.countP Option.isSome = e.chunks.length := by
    rw [← h.received, hall, h.length]
  have hlt : index < e.chunks.length := by
    rw [h.length]
    exact hindex
  have hsome := List.countP_eq_length.mp hcount e.chunks[index] (List.getElem_mem hlt)
  obtain ⟨chunk, hchunk⟩ := Option.isSome_iff_exists.mp hsome
  exact ⟨chunk, by rw [List.getElem?_eq_getElem hlt, hchunk]⟩

/-- The chunks of a message that is whole. -/
theorem message_of_chunks {chunks : List (List UInt8)} (h : e.chunks = chunks.map some) :
    e.message = chunks.flatten := by
  rw [message, h, List.filterMap_map]
  congr 1
  exact List.filterMap_some

end GeckoReassemblyEntry

/-! ### Chunks of one message -/

/-- The message is put together of chunks that came from one remote, with one
number and one total, within eight seconds of one another. -/
def Assembled (seen : List GeckoReceived) (r : GeckoReceived) (message : List UInt8) : Prop :=
  ∃ parts : List GeckoReceived, parts.length = r.fragment.total ∧
    (∀ p ∈ parts, p ∈ seen ∧ p.key = r.key ∧ p.fragment.total = r.fragment.total ∧
      ∀ q ∈ parts, p.time < q.time + geckoLifetime) ∧
    parts.map (·.fragment.index) = List.range parts.length ∧
    message = parts.flatMap (·.fragment.data)

/-- The chunks of an entry have come since it was made and before its deadline. -/
structure Traced (seen : List GeckoReceived) (now : Nat) (key : SocketAddr × UInt8)
    (e : GeckoReassemblyEntry) : Prop where
  counted : e.Counted
  started : e.deadline ≤ now + geckoLifetime
  chunks : ∀ index chunk, e.chunks[index]? = some (some chunk) → ∃ p ∈ seen, p.key = key ∧
    p.fragment.total = e.total.toNat ∧ p.fragment.index = index ∧ p.fragment.data = chunk ∧
    e.deadline ≤ p.time + geckoLifetime ∧ p.time < e.deadline

namespace Traced

variable {seen : List GeckoReceived} {now : Nat} {key : SocketAddr × UInt8} {e : GeckoReassemblyEntry}

theorem mono (h : Traced seen now key e) {more : List GeckoReceived} {later : Nat} (hmore : seen ⊆ more)
    (hlater : now ≤ later) : Traced more later key e where
  counted := h.counted
  started := Nat.le_trans h.started (Nat.add_le_add_right hlater _)
  chunks := by
    intro index chunk hchunk
    obtain ⟨p, hp, hrest⟩ := h.chunks index chunk hchunk
    exact ⟨p, hmore hp, hrest⟩

/-- A new entry has no chunks. -/
theorem new {total : Nat} (htotal : total < 16) : Traced seen now key (.new now total) where
  counted := .new htotal
  started := Nat.le_refl _
  chunks := by
    intro index chunk hchunk
    have hreplicate : (List.replicate total (none : Option (List UInt8)))[index]? = some (some chunk) := hchunk
    rw [List.getElem?_replicate] at hreplicate
    split at hreplicate
    · cases hreplicate
    · cases hreplicate

/-- One more chunk, before the deadline. -/
theorem fill {r : GeckoReceived} (h : Traced seen r.time r.key e) (hseen : r ∈ seen)
    (htotal : e.total.toNat = r.fragment.total) (hindex : r.fragment.index < e.chunks.length)
    (hdeadline : r.time < e.deadline) :
    Traced seen r.time r.key (e.fill r.fragment.index r.fragment.data) := by
  rcases e.getElem?_eq_none_or_some hindex with hnone | ⟨chunk, hsome⟩
  · refine ⟨h.counted.fill hindex, ?_, ?_⟩
    · rw [e.fill_deadline]
      exact h.started
    · rw [e.fill_deadline, e.fill_total, e.fill_of_none hnone]
      intro index chunk hchunk
      have hset : (e.chunks.set r.fragment.index (some r.fragment.data))[index]? = some (some chunk) := hchunk
      rw [List.getElem?_set] at hset
      split at hset
      · rename_i heq
        exact ⟨r, hseen, rfl, htotal.symm, heq, Option.some.inj (Option.some.inj hset), h.started, hdeadline⟩
      · exact h.chunks index chunk hset
  · rw [e.fill_of_some hsome]
    exact h

/-- What is whole was put together of chunks of one message. -/
theorem assembled {r : GeckoReceived} (h : Traced seen now r.key e) (htotal : e.received = e.total.toNat)
    (hsame : e.total.toNat = r.fragment.total) : Assembled seen r e.message := by
  have hparts : ∀ index < e.total.toNat, ∃ p, p ∈ seen ∧ p.key = r.key ∧
      p.fragment.total = e.total.toNat ∧ p.fragment.index = index ∧
      e.chunks[index]? = some (some p.fragment.data) ∧
      e.deadline ≤ p.time + geckoLifetime ∧ p.time < e.deadline := by
    intro index hindex
    obtain ⟨chunk, hchunk⟩ := h.counted.whole htotal hindex
    obtain ⟨p, hp, hkey, htotal, hplace, rfl, htimes⟩ := h.chunks index chunk hchunk
    exact ⟨p, hp, hkey, htotal, hplace, hchunk, htimes⟩
  have hsome : Nonempty GeckoReceived := ⟨r⟩
  choose! part hpart using hparts
  have hlen : ((List.range e.total.toNat).map part).length = e.total.toNat := by
    rw [List.length_map, List.length_range]
  refine ⟨(List.range e.total.toNat).map part, hlen.trans hsame, ?_, ?_, ?_⟩
  · intro p hp
    obtain ⟨index, hindex, rfl⟩ := List.mem_map.mp hp
    obtain ⟨hmem, hkey, htotal', _, _, _, hbefore⟩ := hpart index (List.mem_range.mp hindex)
    refine ⟨hmem, hkey, htotal'.trans hsame, ?_⟩
    intro q hq
    obtain ⟨other, hother, rfl⟩ := List.mem_map.mp hq
    obtain ⟨_, _, _, _, _, hsince, _⟩ := hpart other (List.mem_range.mp hother)
    exact Nat.lt_of_lt_of_le hbefore hsince
  · rw [hlen, List.map_map]
    conv_rhs => rw [← List.map_id (List.range e.total.toNat)]
    apply List.map_congr_left
    intro index hindex
    exact (hpart index (List.mem_range.mp hindex)).2.2.2.1
  · have hchunks : e.chunks = ((List.range e.total.toNat).map fun index => (part index).fragment.data).map some := by
      apply List.ext_getElem?
      intro index
      by_cases hindex : index < e.total.toNat
      · rw [(hpart index hindex).2.2.2.2.1, List.getElem?_map, List.getElem?_map,
          List.getElem?_range hindex]
        rfl
      · rw [List.getElem?_eq_none (by rw [h.counted.length]; omega), List.getElem?_eq_none
          (by rw [List.length_map, List.length_map, List.length_range]; omega)]
    rw [e.message_of_chunks hchunks, List.flatMap_def, List.map_map]
    rfl

end Traced

/-- All entries are traced. -/
def TracedTable (seen : List GeckoReceived) (now : Nat) (table : GeckoTable) : Prop :=
  ∀ key e, table.get key = some e → Traced seen now key e

theorem TracedTable.mono {seen more : List GeckoReceived} {now later : Nat} {table : GeckoTable}
    (h : TracedTable seen now table) (hmore : seen ⊆ more) (hlater : now ≤ later) :
    TracedTable more later table :=
  fun key e hget => (h key e hget).mono hmore hlater

section Push

variable {seen : List GeckoReceived} {table : GeckoTable} {r : GeckoReceived}
  (h : TracedTable seen r.time table) (hseen : r ∈ seen) (htotal : r.fragment.total < 16)
  (hfresh : ∀ e ∈ (table.purge r.time).get r.key, r.time < e.deadline)

include h hseen htotal hfresh

omit hseen in
/-- The entry in which a fragment is put is not past its deadline. -/
theorem TracedTable.entryFor :
    Traced seen r.time r.key (table.entryFor r) ∧ r.time < (table.entryFor r).deadline := by
  rcases table.entryFor_cases r with hget | ⟨_, hnew⟩
  · exact ⟨h r.key _ (GeckoTable.get_of_get_purge hget), hfresh _ hget⟩
  · rw [hnew]
    exact ⟨.new htotal, Nat.lt_add_of_pos_right (by decide)⟩

theorem TracedTable.push :
    TracedTable seen r.time (table.push r.time r.remote r.fragment).2 ∧
      ∀ message, (table.push r.time r.remote r.fragment).1 = some message → Assembled seen r message := by
  obtain ⟨hentry, hdeadline⟩ := h.entryFor htotal hfresh
  have hother : ∀ key e, key ≠ r.key →
      (table.push r.time r.remote r.fragment).2.get key = some e → Traced seen r.time key e := by
    intro key e hne hget
    rw [GeckoTable.get_push_ne hne] at hget
    exact h key e (GeckoTable.get_of_get_purge hget)
  -- what is left in the place of the fragment
  have htable : ∀ e', (∀ e, (table.push r.time r.remote r.fragment).2.get r.key = some e → e = e') →
      Traced seen r.time r.key e' → TracedTable seen r.time (table.push r.time r.remote r.fragment).2 := by
    intro e' hself htraced key e hget
    by_cases hkey : key = r.key
    · subst hkey
      rw [hself e hget]
      exact htraced
    · exact hother key e hkey hget
  rcases table.push_cases r with ⟨_, hout, hget⟩ | ⟨hsame, hindex, ⟨hwhole, hout, hget⟩ | ⟨_, hout, hget⟩⟩
  · refine ⟨htable _ (fun e he => ?_) hentry, ?_⟩
    · exact Option.some.inj (he.symm.trans hget)
    · intro message hmessage
      rw [hout] at hmessage
      cases hmessage
  · have hfilled := hentry.fill hseen hsame hindex hdeadline
    refine ⟨htable _ (fun e he => ?_) hfilled, ?_⟩
    · rw [hget] at he
      cases he
    · intro message hmessage
      rw [hout] at hmessage
      obtain rfl := Option.some.inj hmessage
      refine hfilled.assembled ?_ ?_
      · rw [hwhole, GeckoReassemblyEntry.fill_total]
        exact hsame.symm
      · rw [GeckoReassemblyEntry.fill_total]
        exact hsame
  · refine ⟨htable _ (fun e he => ?_) (hentry.fill hseen hsame hindex hdeadline), ?_⟩
    · exact Option.some.inj (he.symm.trans hget)
    · intro message hmessage
      rw [hout] at hmessage
      cases hmessage

end Push

namespace GeckoObfs

@[simp] theorem after_cons (g : GeckoObfs) (d : GeckoDatagram) (ds : List GeckoDatagram) :
    g.after (d :: ds) = (g.receive d).2.after ds := rfl

@[simp] theorem outputs_cons (g : GeckoObfs) (d : GeckoDatagram) (ds : List GeckoDatagram) :
    g.outputs (d :: ds) = (g.receive d).1 :: (g.receive d).2.outputs ds := rfl

theorem after_append (g : GeckoObfs) (ds later : List GeckoDatagram) :
    g.after (ds ++ later) = (g.after ds).after later := by
  rw [after, Transducer.run_append]
  rfl

@[simp] theorem salamander_after (g : GeckoObfs) (ds : List GeckoDatagram) :
    (g.after ds).salamander = g.salamander := by
  induction ds generalizing g with
  | nil => rfl
  | cons d ds ih => rw [after_cons, ih, salamander_receive]

/-- One datagram. -/
theorem tracedTable_receive {g : GeckoObfs} {d : GeckoDatagram} {seen : List GeckoReceived} {now : Nat}
    (h : TracedTable seen now g.reassembly) (hnow : now ≤ d.time) (hfresh : Unexpired g d) :
    TracedTable (seen ++ fragmentsOf g.salamander [d]) d.time (g.receive d).2.reassembly ∧
      ∀ r, fragmentOf g.salamander d = some r → ∀ message, (g.receive d).1 = some message →
        Assembled (seen ++ fragmentsOf g.salamander [d]) r message := by
  cases hfragment : fragmentOf g.salamander d with
  | none =>
      rw [receive_of_none hfragment]
      exact ⟨h.mono (List.subset_append_left _ _) hnow, by rintro r ⟨⟩⟩
  | some r =>
      obtain ⟨htime, _, htotal⟩ := fragmentOf_spec hfragment
      have hseen : seen ++ fragmentsOf g.salamander [d] = seen ++ [r] := by
        rw [fragmentsOf, List.filterMap_cons_some hfragment]
        rfl
      have hmore : TracedTable (seen ++ [r]) r.time g.reassembly :=
        h.mono (List.subset_append_left _ _) (by rw [htime]; exact hnow)
      have hpush := hmore.push (List.mem_append_right _ List.mem_cons_self) htotal (hfresh r hfragment)
      rw [receive_of_fragment hfragment, hseen, ← htime]
      refine ⟨hpush.1, ?_⟩
      rintro r' ⟨⟩
      exact hpush.2

/-- **What is given back was put together of one message**, in a run in which no
fragment finds an entry past its deadline. -/
theorem assembled_of_receive {before : List GeckoDatagram} {g : GeckoObfs} {d : GeckoDatagram}
    {rest : List GeckoDatagram} {seen : List GeckoReceived} {now : Nat}
    (h : TracedTable seen now g.reassembly) (hnow : ∀ d' ∈ before ++ d :: rest, now ≤ d'.time)
    (hsorted : (before ++ d :: rest).Pairwise fun d d' => d.time ≤ d'.time)
    (hfresh : Run.Along next Unexpired g (before ++ d :: rest)) {r : GeckoReceived}
    (hfragment : fragmentOf g.salamander d = some r) {message : List UInt8}
    (hmessage : ((g.after before).receive d).1 = some message) :
    Assembled (seen ++ fragmentsOf g.salamander (before ++ [d])) r message := by
  induction before generalizing g seen now with
  | nil =>
      exact (tracedTable_receive h (hnow d List.mem_cons_self) hfresh.1).2 r hfragment message hmessage
  | cons d' before ih =>
      have hstep := (tracedTable_receive h (hnow d' List.mem_cons_self) hfresh.1).1
      have hpairs := List.pairwise_cons.mp hsorted
      have hrest := ih hstep hpairs.1 hpairs.2 (hfresh.2 _ rfl) (by rw [salamander_receive]; exact hfragment)
        hmessage
      rw [salamander_receive, List.append_assoc] at hrest
      rw [List.cons_append, fragmentsOf, ← List.singleton_append, List.filterMap_append]
      exact hrest

end GeckoObfs

/-! ### A message that comes whole -/

/-- The fragments for a key are those of one message, all of them, within eight
seconds of one another. -/
structure SentWhole (s : SalamanderObfs) (key : SocketAddr × UInt8) (n : Nat) (chunk : Nat → List UInt8)
    (ds : List GeckoDatagram) : Prop where
  pos : 0 < n
  only : ∀ r ∈ fragmentsOf s ds, r.key = key → r.fragment.total = n ∧ r.fragment.data = chunk r.fragment.index
  all : ∀ k < n, ∃ r ∈ fragmentsOf s ds, r.key = key ∧ r.fragment.index = k
  soon : ∀ r ∈ fragmentsOf s ds, ∀ q ∈ fragmentsOf s ds, r.key = key → q.key = key →
    r.time < q.time + geckoLifetime

/-- The message. -/
def joined (n : Nat) (chunk : Nat → List UInt8) : List UInt8 := (List.range n).flatMap chunk

/-- The entry holds some of the chunks of a message, and not all. -/
structure Holding (n : Nat) (chunk : Nat → List UInt8) (held : Finset Nat) (e : GeckoReassemblyEntry) :
    Prop where
  total : e.total.toNat = n
  chunks : e.chunks = (List.range n).map fun k => if k ∈ held then some (chunk k) else none
  received : e.received = held.card
  subset : held ⊆ Finset.range n
  part : held.card < n

namespace Holding

variable {n : Nat} {chunk : Nat → List UInt8} {held : Finset Nat} {e : GeckoReassemblyEntry}

theorem new {now : Nat} (hpos : 0 < n) (hlt : n < 16) : Holding n chunk ∅ (.new now n) where
  total := by
    show (UInt8.ofNat n).toNat = n
    rw [UInt8.toNat_ofNat_of_lt' (by show n < 256; omega)]
  chunks := by
    show List.replicate n none = _
    simp
  received := rfl
  subset := Finset.empty_subset _
  part := hpos

theorem length_chunks (h : Holding n chunk held e) : e.chunks.length = n := by
  rw [h.chunks, List.length_map, List.length_range]

theorem getElem?_chunks (h : Holding n chunk held e) {k : Nat} (hk : k < n) :
    e.chunks[k]? = some (if k ∈ held then some (chunk k) else none) := by
  rw [h.chunks, List.getElem?_map, List.getElem?_range hk]
  rfl

/-- Something is missing. -/
theorem exists_missing (h : Holding n chunk held e) : ∃ k < n, k ∉ held := by
  by_contra hall
  have hsub : Finset.range n ⊆ held := by
    intro k hk
    by_contra hnot
    exact hall ⟨k, Finset.mem_range.mp hk, hnot⟩
  have hcard := Finset.card_le_card hsub
  rw [Finset.card_range] at hcard
  exact absurd h.part (Nat.not_lt.mpr hcard)

/-- A chunk is put in its place: one more is held, or the message is whole. -/
theorem fill (h : Holding n chunk held e) {k : Nat} (hk : k < n) :
    ((e.fill k (chunk k)).received = n → (e.fill k (chunk k)).message = joined n chunk) ∧
    ((e.fill k (chunk k)).received ≠ n → Holding n chunk (insert k held) (e.fill k (chunk k))) := by
  have hget := h.getElem?_chunks hk
  by_cases hheld : k ∈ held
  · rw [if_pos hheld] at hget
    rw [e.fill_of_some hget, Finset.insert_eq_of_mem hheld]
    refine ⟨fun hall => ?_, fun _ => h⟩
    have hpart := h.part
    rw [← h.received, hall] at hpart
    exact absurd hpart (Nat.lt_irrefl n)
  · rw [if_neg hheld] at hget
    rw [e.fill_of_none hget]
    have hchunks : e.chunks.set k (some (chunk k)) =
        (List.range n).map fun j => if j ∈ insert k held then some (chunk j) else none := by
      apply List.ext_getElem?
      intro j
      rw [List.getElem?_set]
      by_cases hj : j < n
      · rw [List.getElem?_map, List.getElem?_range hj, h.getElem?_chunks hj, h.length_chunks]
        by_cases hkj : k = j
        · subst hkj
          simp [hj]
        · have hjk : j ≠ k := fun heq => hkj heq.symm
          simp [hkj, hjk]
      · have hnone : e.chunks[j]? = none := List.getElem?_eq_none (by rw [h.length_chunks]; omega)
        have hkj : k ≠ j := by omega
        rw [if_neg hkj, hnone, List.getElem?_eq_none (by rw [List.length_map, List.length_range]; omega)]
    have hcard : (insert k held).card = held.card + 1 := Finset.card_insert_of_notMem hheld
    have hsubset : insert k held ⊆ Finset.range n :=
      Finset.insert_subset (Finset.mem_range.mpr hk) h.subset
    constructor
    · intro hall
      have hsum : held.card + 1 = n := by
        rw [← h.received]
        exact hall
      have hwhole : insert k held = Finset.range n :=
        Finset.eq_of_subset_of_card_le hsubset (by rw [Finset.card_range, hcard, hsum])
      have hsome : e.chunks.set k (some (chunk k)) = ((List.range n).map chunk).map some := by
        rw [hchunks, List.map_map]
        apply List.map_congr_left
        intro j hj
        rw [hwhole, if_pos (Finset.mem_range.mpr (List.mem_range.mp hj))]
        rfl
      rw [@GeckoReassemblyEntry.message_of_chunks _ ((List.range n).map chunk) hsome, joined,
        List.flatMap_def]
    · intro hpart
      have hne : e.received + 1 ≠ n := hpart
      refine ⟨h.total, hchunks, ?_, hsubset, ?_⟩
      · rw [hcard]
        show e.received + 1 = held.card + 1
        rw [h.received]
      · have hlt := h.part
        rw [h.received] at hne
        omega

/-- The fragment that comes next for the key. -/
theorem push {table : GeckoTable} {r : GeckoReceived} (h : Holding n chunk held (table.entryFor r))
    (htotal : r.fragment.total = n) (hdata : r.fragment.data = chunk r.fragment.index)
    (hindex : r.fragment.index < n) :
    (table.push r.time r.remote r.fragment).1 = some (joined n chunk) ∨
    ∃ e, (table.push r.time r.remote r.fragment).2.get r.key = some e ∧
      Holding n chunk (insert r.fragment.index held) e ∧ e.deadline = (table.entryFor r).deadline := by
  have hfill := h.fill hindex
  rw [← hdata] at hfill
  rcases table.push_cases r with ⟨hunfit, _⟩ | ⟨_, _, ⟨hwhole, hout, _⟩ | ⟨hpart, _, hget⟩⟩
  · exfalso
    rw [h.total, h.length_chunks, htotal] at hunfit
    rcases hunfit with hne | hle
    · exact hne rfl
    · omega
  · rw [htotal] at hwhole
    rw [hout, hfill.1 hwhole]
    exact .inl rfl
  · rw [htotal] at hpart
    exact .inr ⟨_, hget, hfill.2 hpart, GeckoReassemblyEntry.fill_deadline _ _⟩

end Holding

namespace GeckoObfs

variable {key : SocketAddr × UInt8} {n : Nat} {chunk : Nat → List UInt8}

theorem fragmentsOf_cons_none {s : SalamanderObfs} {d : GeckoDatagram} (h : fragmentOf s d = none)
    (ds : List GeckoDatagram) : fragmentsOf s (d :: ds) = fragmentsOf s ds := List.filterMap_cons_none h

theorem fragmentsOf_cons_some {s : SalamanderObfs} {d : GeckoDatagram} {r : GeckoReceived}
    (h : fragmentOf s d = some r) (ds : List GeckoDatagram) :
    fragmentsOf s (d :: ds) = r :: fragmentsOf s ds := List.filterMap_cons_some h

/-- Fragments come in the order of their times. -/
theorem time_le_of_mem {s : SalamanderObfs} {d : GeckoDatagram} {ds : List GeckoDatagram}
    (hsorted : (d :: ds).Pairwise fun d d' => d.time ≤ d'.time) {r : GeckoReceived}
    (h : r ∈ fragmentsOf s ds) : d.time ≤ r.time := by
  obtain ⟨d', hd', hfragment⟩ := List.mem_filterMap.mp h
  rw [(fragmentOf_spec hfragment).1]
  exact (List.pairwise_cons.mp hsorted).1 d' hd'

/-- **A message of which some chunks are held is given back** when the others
come before the deadline. -/
theorem mem_outputs_of_holding {ds : List GeckoDatagram} {g : GeckoObfs} {held : Finset Nat}
    {e : GeckoReassemblyEntry} (hget : g.reassembly.get key = some e) (hheld : Holding n chunk held e)
    (hsorted : ds.Pairwise fun d d' => d.time ≤ d'.time)
    (honly : ∀ r ∈ fragmentsOf g.salamander ds, r.key = key →
      r.fragment.total = n ∧ r.fragment.data = chunk r.fragment.index)
    (hsoon : ∀ r ∈ fragmentsOf g.salamander ds, r.key = key → r.time < e.deadline)
    (hall : ∀ k < n, k ∉ held → ∃ r ∈ fragmentsOf g.salamander ds, r.key = key ∧ r.fragment.index = k) :
    some (joined n chunk) ∈ g.outputs ds := by
  obtain ⟨missing, hmissing, hnot⟩ := hheld.exists_missing
  induction ds generalizing g held e missing with
  | nil =>
      obtain ⟨r, hr, _⟩ := hall missing hmissing hnot
      cases hr
  | cons d ds ih =>
      have htail := (List.pairwise_cons.mp hsorted).2
      rw [outputs_cons]
      cases hfragment : fragmentOf g.salamander d with
      | none =>
          rw [fragmentsOf_cons_none hfragment] at honly hsoon hall
          rw [receive_of_none hfragment]
          exact List.mem_cons_of_mem _ (ih hget hheld htail honly hsoon hall missing hmissing hnot)
      | some r =>
          rw [fragmentsOf_cons_some hfragment] at honly hsoon hall
          obtain ⟨htime, hindex, _⟩ := fragmentOf_spec hfragment
          rw [receive_of_fragment hfragment]
          by_cases hkey : r.key = key
          · -- the next chunk
            obtain ⟨htotal, hdata⟩ := honly r List.mem_cons_self hkey
            have hnow := hsoon r List.mem_cons_self hkey
            have hentry : g.reassembly.entryFor r = e := by
              have hpurged := GeckoTable.get_purge_of_lt hget hnow
              rw [← hkey] at hpurged
              rw [GeckoTable.entryFor, GeckoTable.entryOr, hpurged]
            rw [← hentry] at hheld
            rw [htotal] at hindex
            rcases hheld.push htotal hdata hindex with hout | ⟨e', hget', hheld', hdeadline⟩
            · rw [hout]
              exact List.mem_cons_self
            · refine List.mem_cons_of_mem _ ?_
              obtain ⟨missing', hmissing', hnot'⟩ := hheld'.exists_missing
              rw [hkey] at hget'
              refine ih (g := { g with
                reassembly := (g.reassembly.push r.time r.remote r.fragment).2 }) hget' hheld' htail
                (fun q hq => honly q (List.mem_cons_of_mem _ hq)) ?_ ?_ missing' hmissing' hnot'
              · intro q hq hqkey
                rw [hdeadline, hentry]
                exact hsoon q (List.mem_cons_of_mem _ hq) hqkey
              · intro k hk hknot
                rw [Finset.mem_insert, not_or] at hknot
                obtain ⟨q, hq, hqkey, hqindex⟩ := hall k hk hknot.2
                rcases List.mem_cons.mp hq with rfl | hq
                · exact absurd hqindex.symm hknot.1
                · exact ⟨q, hq, hqkey, hqindex⟩
          · -- a fragment of another message comes before one that is missing
            have hrest : ∀ k < n, k ∉ held → ∃ q ∈ fragmentsOf g.salamander ds,
                q.key = key ∧ q.fragment.index = k := by
              intro k hk hknot
              obtain ⟨q, hq, hqkey, hqindex⟩ := hall k hk hknot
              rcases List.mem_cons.mp hq with rfl | hq
              · exact absurd hqkey hkey
              · exact ⟨q, hq, hqkey, hqindex⟩
            obtain ⟨q, hq, hqkey, _⟩ := hrest missing hmissing hnot
            have hnow : r.time < e.deadline := by
              rw [htime]
              exact Nat.lt_of_le_of_lt (time_le_of_mem hsorted hq) (hsoon q (List.mem_cons_of_mem _ hq) hqkey)
            have hstays : (g.reassembly.push r.time r.remote r.fragment).2.get key = some e := by
              rw [GeckoTable.get_push_ne (Ne.symm hkey)]
              exact GeckoTable.get_purge_of_lt hget hnow
            refine List.mem_cons_of_mem _ ?_
            exact ih (g := { g with
              reassembly := (g.reassembly.push r.time r.remote r.fragment).2 }) hstays hheld htail
              (fun q hq => honly q (List.mem_cons_of_mem _ hq))
              (fun q hq => hsoon q (List.mem_cons_of_mem _ hq)) hrest missing hmissing hnot

/-- What is in the entry for a key is past its deadline when the next fragment
for the key comes. -/
def Stale (g : GeckoObfs) (key : SocketAddr × UInt8) (ds : List GeckoDatagram) : Prop :=
  ∀ e, g.reassembly.get key = some e →
    ∀ r ∈ fragmentsOf g.salamander ds, r.key = key → e.deadline ≤ r.time

/-- **A message that comes whole is given back**, whatever incomplete message was
there before, if no fragment finds an entry past its deadline. -/
theorem mem_outputs_of_stale {ds : List GeckoDatagram} {g : GeckoObfs}
    (hsent : SentWhole g.salamander key n chunk ds) (hstale : Stale g key ds)
    (hsorted : ds.Pairwise fun d d' => d.time ≤ d'.time) (hfresh : Run.Along next Unexpired g ds) :
    some (joined n chunk) ∈ g.outputs ds := by
  induction ds generalizing g with
  | nil =>
      obtain ⟨r, hr, _⟩ := hsent.all 0 hsent.pos
      cases hr
  | cons d ds ih =>
      have htail := (List.pairwise_cons.mp hsorted).2
      have hnext := hfresh.2 _ rfl
      rw [outputs_cons]
      cases hfragment : fragmentOf g.salamander d with
      | none =>
          have hsame := fragmentsOf_cons_none hfragment ds
          rw [Stale, hsame] at hstale
          rw [receive_of_none hfragment] at hnext ⊢
          refine List.mem_cons_of_mem _ (ih ?_ hstale htail hnext)
          exact ⟨hsent.pos, hsame ▸ hsent.only, hsame ▸ hsent.all, hsame ▸ hsent.soon⟩
      | some r =>
          have hsame := fragmentsOf_cons_some hfragment ds
          obtain ⟨htime, hindex, hlt⟩ := fragmentOf_spec hfragment
          have hmem : ∀ q ∈ fragmentsOf g.salamander ds, q ∈ fragmentsOf g.salamander (d :: ds) := by
            intro q hq
            rw [hsame]
            exact List.mem_cons_of_mem _ hq
          have hr : r ∈ fragmentsOf g.salamander (d :: ds) := by
            rw [hsame]
            exact List.mem_cons_self
          rw [receive_of_fragment hfragment] at hnext ⊢
          by_cases hkey : r.key = key
          · -- the first chunk finds no entry
            obtain ⟨htotal, hdata⟩ := hsent.only r hr hkey
            have hnone : (g.reassembly.purge r.time).get r.key = none := by
              cases hget : (g.reassembly.purge r.time).get r.key with
              | none => rfl
              | some e =>
                  have hlive := hfresh.1 r hfragment e hget
                  have hpast := hstale e (hkey ▸ GeckoTable.get_of_get_purge hget) r hr hkey
                  exact absurd hlive (Nat.not_lt.mpr hpast)
            have hentry : g.reassembly.entryFor r = .new r.time n := by
              rw [GeckoTable.entryFor, GeckoTable.entryOr, hnone, htotal]
            have hheld : Holding n chunk ∅ (g.reassembly.entryFor r) := by
              rw [hentry]
              rw [htotal] at hlt
              exact Holding.new hsent.pos hlt
            rw [htotal] at hindex
            rcases hheld.push htotal hdata hindex with hout | ⟨e, hget, hheld', hdeadline⟩
            · rw [hout]
              exact List.mem_cons_self
            · refine List.mem_cons_of_mem _ ?_
              rw [hkey] at hget
              refine mem_outputs_of_holding (g := { g with
                reassembly := (g.reassembly.push r.time r.remote r.fragment).2 }) hget hheld' htail
                (fun q hq => hsent.only q (hmem q hq)) ?_ ?_
              · intro q hq hqkey
                rw [hdeadline, hentry]
                exact hsent.soon q (hmem q hq) r hr hqkey hkey
              · intro k hk hknot
                obtain ⟨q, hq, hqkey, hqindex⟩ := hsent.all k hk
                rw [hsame] at hq
                rcases List.mem_cons.mp hq with rfl | hq
                · exact absurd (Finset.mem_insert.mpr (.inl hqindex.symm)) hknot
                · exact ⟨q, hq, hqkey, hqindex⟩
          · refine List.mem_cons_of_mem _ (ih (g := { g with
              reassembly := (g.reassembly.push r.time r.remote r.fragment).2 }) ?_ ?_ htail hnext)
            · refine ⟨hsent.pos, fun q hq => hsent.only q (hmem q hq), ?_,
                fun q hq q' hq' => hsent.soon q (hmem q hq) q' (hmem q' hq')⟩
              intro k hk
              obtain ⟨q, hq, hqkey, hqindex⟩ := hsent.all k hk
              rw [hsame] at hq
              rcases List.mem_cons.mp hq with rfl | hq
              · exact absurd hqkey hkey
              · exact ⟨q, hq, hqkey, hqindex⟩
            · intro e he q hq
              have hget : (g.reassembly.push r.time r.remote r.fragment).2.get key = some e := he
              rw [GeckoTable.get_push_ne (Ne.symm hkey)] at hget
              exact hstale e (GeckoTable.get_of_get_purge hget) q (hmem q hq)

theorem along_receive {g : GeckoObfs} {d : GeckoDatagram} {ds : List GeckoDatagram} (h : Unexpired g d)
    (hrest : Run.Along next Unexpired (g.receive d).2 ds) : Run.Along next Unexpired g (d :: ds) :=
  Run.along_cons h rfl hrest

theorem along_append {g : GeckoObfs} {ds later : List GeckoDatagram}
    (h : Run.Along next Unexpired g (ds ++ later)) : Run.Along next Unexpired (g.after ds) later := by
  induction ds generalizing g with
  | nil => exact h
  | cons d ds ih => exact ih (h.2 _ rfl)

theorem along_left {g : GeckoObfs} {ds later : List GeckoDatagram}
    (h : Run.Along next Unexpired g (ds ++ later)) : Run.Along next Unexpired g ds := by
  induction ds generalizing g with
  | nil => trivial
  | cons d ds ih => exact ⟨h.1, fun g' hg' => ih (h.2 g' hg')⟩

/-- **Messages are not mixed and not kept out**, in every run from the empty table
in which no fragment finds an entry past its deadline.  A message that is given
back is put together of chunks of one message, within eight seconds; and a
message that comes whole is given back, also where an incomplete one with its
number was older than that. -/
theorem gecko_never_mixes (s : SalamanderObfs) {ds : List GeckoDatagram}
    (hsorted : ds.Pairwise fun d d' => d.time ≤ d'.time)
    (hfresh : Run.Along next Unexpired ⟨s, ∅⟩ ds) :
    (∀ before d rest, ds = before ++ d :: rest → ∀ r, fragmentOf s d = some r →
      ∀ message, ((after ⟨s, ∅⟩ before).receive d).1 = some message →
        Assembled (fragmentsOf s (before ++ [d])) r message) ∧
    (∀ before later rest, ds = before ++ (later ++ rest) → ∀ key n chunk,
      SentWhole s key n chunk later → Stale (after ⟨s, ∅⟩ before) key later →
        some (joined n chunk) ∈ (after ⟨s, ∅⟩ before).outputs later) := by
  constructor
  · rintro before d rest rfl r hfragment message hmessage
    have hempty : TracedTable [] 0 (GeckoObfs.mk s ∅).reassembly := by
      intro key e hget
      cases hget
    exact assembled_of_receive hempty (fun _ _ => Nat.zero_le _) hsorted hfresh hfragment hmessage
  · rintro before later rest rfl key n chunk hsent hstale
    have hsalamander : (after ⟨s, ∅⟩ before).salamander = s := salamander_after _ before
    have hlater := (List.pairwise_append.mp (List.pairwise_append.mp hsorted).2.1).1
    refine mem_outputs_of_stale ?_ hstale hlater (along_left (along_append hfresh))
    rw [hsalamander]
    exact hsent

/-! ### Three runs -/

/-- What was obfuscated is read again. -/
theorem fragmentOf_obfuscate (s : SalamanderObfs) (rng : Nat → UInt8) (time : Nat) (remote : SocketAddr)
    {b : UInt8} {bs : List UInt8} (hflag : ¬ b &&& geckoFragmentFlag = 0) {f : GeckoFragment}
    (hparse : GeckoFragment.parse (b :: bs) = some f) :
    fragmentOf s ⟨time, remote, s.obfuscate rng (b :: bs)⟩ = some ⟨time, remote, f⟩ := by
  rw [fragmentOf, s.deobfuscate_obfuscate rng b bs]
  dsimp only
  rw [if_neg hflag, hparse, Option.map_some]

/-- Datagrams that are all fragments. -/
theorem run_fragments {s : SalamanderObfs} {ds : List GeckoDatagram} {rs : List GeckoReceived}
    (h : ds.map (fragmentOf s) = rs.map some) (table : GeckoTable) :
    fragmentsOf s ds = rs ∧
    outputs ⟨s, table⟩ ds =
      (Transducer.run (fun t (r : GeckoReceived) => GeckoTable.push t r.time r.remote r.fragment) table rs).1 ∧
    after ⟨s, table⟩ ds = ⟨s,
      (Transducer.run (fun t (r : GeckoReceived) => GeckoTable.push t r.time r.remote r.fragment) table rs).2⟩ := by
  induction ds generalizing rs table with
  | nil =>
      obtain rfl := List.map_eq_nil_iff.mp h.symm
      exact ⟨rfl, rfl, rfl⟩
  | cons d ds ih =>
      cases rs with
      | nil => cases h
      | cons r rs =>
          obtain ⟨hfragment, hrest⟩ := List.cons.inj h
          have hreceive := receive_of_fragment (g := ⟨s, table⟩) hfragment
          obtain ⟨hseen, hout, hafter⟩ := ih hrest (table.push r.time r.remote r.fragment).2
          rw [fragmentsOf_cons_some hfragment, outputs_cons, after_cons, hreceive, hseen, hout, hafter]
          exact ⟨rfl, rfl, rfl⟩

theorem unexpired_iff {g : GeckoObfs} {d : GeckoDatagram} {r : GeckoReceived}
    (h : fragmentOf g.salamander d = some r) :
    Unexpired g d ↔ ∀ e ∈ (g.reassembly.purge r.time).get r.key, r.time < e.deadline := by
  rw [Unexpired, h]
  exact ⟨fun hall => hall r rfl, by rintro hall _ ⟨⟩; exact hall⟩

def samplePassword : SalamanderObfs := ⟨[112, 119]⟩

def sampleSender : SocketAddr := .v4 (.new 192 0 2 1) 443

/-- A fragment of message 7, without padding. -/
def sampleFragment (time : Nat) (places : UInt8) (data : List UInt8) : GeckoDatagram where
  time := time
  remote := sampleSender
  wire := samplePassword.obfuscate (fun _ => 0) (0x80 :: 7 :: places :: 0 :: 0 :: data)

theorem fragmentOf_sample (time : Nat) {places : UInt8} {data : List UInt8} {f : GeckoFragment}
    (hparse : GeckoFragment.parse (0x80 :: 7 :: places :: 0 :: 0 :: data) = some f) :
    fragmentOf samplePassword (sampleFragment time places data) = some ⟨time, sampleSender, f⟩ :=
  fragmentOf_obfuscate samplePassword (fun _ => 0) time sampleSender (by decide) hparse

/-- Two chunks, the second after one second. -/
def promptRun : List GeckoDatagram :=
  [sampleFragment 0 0x02 [97, 98], sampleFragment 1000000000 0x12 [99]]

def promptFragments : List GeckoReceived :=
  [⟨0, sampleSender, ⟨7, 0, 2, [97, 98]⟩⟩, ⟨1000000000, sampleSender, ⟨7, 1, 2, [99]⟩⟩]

theorem promptRun_delivered :
    Assembled promptFragments ⟨1000000000, sampleSender, ⟨7, 1, 2, [99]⟩⟩ [97, 98, 99] ∧
    some [97, 98, 99] ∈ outputs ⟨samplePassword, ∅⟩ promptRun := by
  have hfirst : fragmentOf samplePassword (sampleFragment 0 0x02 [97, 98]) =
      some ⟨0, sampleSender, ⟨7, 0, 2, [97, 98]⟩⟩ := fragmentOf_sample 0 (by decide +kernel)
  have hsecond : fragmentOf samplePassword (sampleFragment 1000000000 0x12 [99]) =
      some ⟨1000000000, sampleSender, ⟨7, 1, 2, [99]⟩⟩ := fragmentOf_sample 1000000000 (by decide +kernel)
  have hone := @run_fragments samplePassword [sampleFragment 0 0x02 [97, 98]]
    [⟨0, sampleSender, ⟨7, 0, 2, [97, 98]⟩⟩]
    (by rw [List.map_cons, List.map_nil, hfirst, List.map_cons, List.map_nil]) ∅
  have hrun := @run_fragments samplePassword promptRun promptFragments
    (by rw [promptRun, List.map_cons, List.map_cons, List.map_nil, hfirst, hsecond]; rfl) ∅
  have hsorted : promptRun.Pairwise fun d d' => d.time ≤ d'.time := by
    simp [promptRun, sampleFragment]
  have hfresh : Run.Along next Unexpired ⟨samplePassword, ∅⟩ promptRun := by
    have hlater : Unexpired ((GeckoObfs.mk samplePassword ∅).receive (sampleFragment 0 0x02 [97, 98])).2
        (sampleFragment 1000000000 0x12 [99]) := by
      rw [receive_of_fragment (g := ⟨samplePassword, ∅⟩) hfirst]
      exact (unexpired_iff (g := ⟨samplePassword, _⟩) hsecond).mpr (by decide +kernel)
    refine along_receive ((unexpired_iff (g := ⟨samplePassword, ∅⟩) hfirst).mpr ?_) (along_receive hlater trivial)
    rintro e ⟨⟩
  have h := gecko_never_mixes samplePassword hsorted hfresh
  constructor
  · have hlast := h.1 [sampleFragment 0 0x02 [97, 98]] (sampleFragment 1000000000 0x12 [99]) [] rfl
      _ hsecond [97, 98, 99] (by rw [hone.2.2, receive_of_fragment (g := ⟨samplePassword, _⟩) hsecond]; decide +kernel)
    rw [← hrun.1]
    exact hlast
  · refine h.2 [] promptRun [] rfl (sampleSender, 7) 2 (fun k => if k = 0 then [97, 98] else [99])
      ⟨by decide, ?_, ?_, ?_⟩ ?_
    · rw [hrun.1]
      decide +kernel
    · rw [hrun.1]
      decide +kernel
    · rw [hrun.1]
      decide +kernel
    · rintro e ⟨⟩

/-- A chunk that was left over, and the second chunk of another message, after
100 s. -/
def mixedRun : List GeckoDatagram :=
  [sampleFragment 0 0x02 [97, 98], sampleFragment 100000000000 0x12 [99]]

/-- A chunk of a message of three, and after 100 s a message of two. -/
def blockedRun : List GeckoDatagram :=
  [sampleFragment 0 0x03 [97], sampleFragment 100000000000 0x02 [98], sampleFragment 100000000000 0x12 [99]]

/-- The old chunk is put together with the new one; and the old message keeps out
a new one that comes whole. -/
theorem stale_chunks :
    (outputs ⟨samplePassword, ∅⟩ mixedRun = [none, some [97, 98, 99]] ∧
      ∀ message, ¬ Assembled (fragmentsOf samplePassword mixedRun)
        ⟨100000000000, sampleSender, ⟨7, 1, 2, [99]⟩⟩ message) ∧
    (outputs ⟨samplePassword, ∅⟩ blockedRun = [none, none, none] ∧
      SentWhole samplePassword (sampleSender, 7) 2 (fun k => if k = 0 then [98] else [99]) blockedRun.tail ∧
      Stale (after ⟨samplePassword, ∅⟩ [sampleFragment 0 0x03 [97]]) (sampleSender, 7) blockedRun.tail) := by
  have hlast : fragmentOf samplePassword (sampleFragment 100000000000 0x12 [99]) =
      some ⟨100000000000, sampleSender, ⟨7, 1, 2, [99]⟩⟩ := fragmentOf_sample 100000000000 (by decide +kernel)
  constructor
  · have hfirst : fragmentOf samplePassword (sampleFragment 0 0x02 [97, 98]) =
        some ⟨0, sampleSender, ⟨7, 0, 2, [97, 98]⟩⟩ := fragmentOf_sample 0 (by decide +kernel)
    have hrun := @run_fragments samplePassword mixedRun
      [⟨0, sampleSender, ⟨7, 0, 2, [97, 98]⟩⟩, ⟨100000000000, sampleSender, ⟨7, 1, 2, [99]⟩⟩]
      (by rw [mixedRun, List.map_cons, List.map_cons, List.map_nil, hfirst, hlast]; rfl) ∅
    refine ⟨by rw [hrun.2.1]; decide +kernel, ?_⟩
    rintro message ⟨parts, hlen, hparts, hindices, _⟩
    rw [hrun.1] at hparts
    obtain ⟨p, q, rfl⟩ := List.length_eq_two.mp hlen
    have hplaces : p.fragment.index = 0 ∧ q.fragment.index = 1 := by
      simpa [List.range_succ] using hindices
    obtain ⟨hp, -⟩ := hparts p (by simp)
    obtain ⟨hq, -, -, htimes⟩ := hparts q (by simp)
    have hpq := htimes p (by simp)
    rcases List.mem_pair.mp hp with rfl | rfl
    · rcases List.mem_pair.mp hq with rfl | rfl
      · exact absurd hplaces.2 (by decide)
      · exact absurd hpq (by decide)
    · exact absurd hplaces.1 (by decide)
  · have hold : fragmentOf samplePassword (sampleFragment 0 0x03 [97]) =
        some ⟨0, sampleSender, ⟨7, 0, 3, [97]⟩⟩ := fragmentOf_sample 0 (by decide +kernel)
    have hnew : fragmentOf samplePassword (sampleFragment 100000000000 0x02 [98]) =
        some ⟨100000000000, sampleSender, ⟨7, 0, 2, [98]⟩⟩ := fragmentOf_sample 100000000000 (by decide +kernel)
    have hrun := @run_fragments samplePassword blockedRun
      [⟨0, sampleSender, ⟨7, 0, 3, [97]⟩⟩, ⟨100000000000, sampleSender, ⟨7, 0, 2, [98]⟩⟩,
        ⟨100000000000, sampleSender, ⟨7, 1, 2, [99]⟩⟩]
      (by rw [blockedRun, List.map_cons, List.map_cons, List.map_cons, List.map_nil, hold, hnew, hlast]; rfl) ∅
    have hone := @run_fragments samplePassword [sampleFragment 0 0x03 [97]]
      [⟨0, sampleSender, ⟨7, 0, 3, [97]⟩⟩]
      (by rw [List.map_cons, List.map_nil, hold, List.map_cons, List.map_nil]) ∅
    have htail := @run_fragments samplePassword blockedRun.tail
      [⟨100000000000, sampleSender, ⟨7, 0, 2, [98]⟩⟩, ⟨100000000000, sampleSender, ⟨7, 1, 2, [99]⟩⟩]
      (by rw [blockedRun, List.tail_cons, List.map_cons, List.map_cons, List.map_nil, hnew, hlast]; rfl) ∅
    refine ⟨by rw [hrun.2.1]; decide +kernel, ⟨by decide, ?_, ?_, ?_⟩, ?_⟩
    · rw [htail.1]
      decide +kernel
    · rw [htail.1]
      decide +kernel
    · rw [htail.1]
      decide +kernel
    · have hstale : ∀ e ∈ (after ⟨samplePassword, ∅⟩ [sampleFragment 0 0x03 [97]]).reassembly.get
          (sampleSender, 7), e.deadline ≤ 100000000000 := by
        rw [hone.2.2]
        decide +kernel
      intro e he r hr _
      rw [salamander_after, htail.1] at hr
      have htime : r.time = 100000000000 := by
        rcases List.mem_pair.mp hr with rfl | rfl
        · rfl
        · rfl
      rw [htime]
      exact hstale e he

end GeckoObfs

end Hysteria

end Elise
