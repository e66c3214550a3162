/-
Elise/Lib/AssocMap.lean

Finite maps with executable operations, and what is kept beside them: the non-dependent instance
of Mathlib's `AList`, with the operations a hash map of a systems language has (`get`, `insert`,
`erase`, `retain`, `len`, iteration).

A map is its list of entries with pairwise distinct keys.  Every statement below goes through
`get`, so nothing depends on the order of the entries; the iteration order of `pairs` is one of
the orders a hash map may use.

A table that must not grow without bound keeps a counter of its bytes: it adds to the counter
what an entry gains and subtracts what a removed entry held.  The subtraction is saturating, so
a counter that has got out of step stays silent about it; `Meter` is such a counter with the
event made visible.  The counter is in step when it is the sum of what the entries weigh
(`AssocMap.weight`).  Subtractions which fit together are exact, in whatever order they are made
(`Meter.foldl_saturatingSub`).

A table of last-seen times has a sliding window: at time `t` an entry is fresh if it is at most
`w` old, and `expire w t` drops the others.  Expiring at an earlier time changes nothing that a
later look sees (`expire_expire`), so a table may be expired at any time or never.
-/
import Mathlib

/-- Finite maps from `κ` to `ν`. -/
abbrev AssocMap (κ ν : Type*) := AList fun _ : κ => ν

namespace AssocMap

variable {κ ν : Type*}

/-! ### Operations -/

/-- The entries in iteration order. -/
def pairs (m : AssocMap κ ν) : List (κ × ν) := m.entries.map fun e => (e.1, e.2)

/-- The number of entries. -/
def len (m : AssocMap κ ν) : Nat := m.entries.length

def isEmpty (m : AssocMap κ ν) : Bool := m.entries.isEmpty

/-- Keep the entries that satisfy `p`. -/
def retain (m : AssocMap κ ν) (p : κ → ν → Bool) : AssocMap κ ν :=
  ⟨m.entries.filter fun e => p e.1 e.2, m.nodupKeys.sublist List.filter_sublist⟩

/-- An entry with its value replaced, or none. -/
def mapEntry (f : κ → ν → Option ν) (e : Σ _ : κ, ν) : Option (Σ _ : κ, ν) :=
  (f e.1 e.2).map fun v => ⟨e.1, v⟩

theorem keys_filterMap_sublist (f : κ → ν → Option ν) (es : List (Σ _ : κ, ν)) :
    (es.filterMap (mapEntry f)).keys.Sublist es.keys := by
  induction es with
  | nil => exact List.Sublist.refl _
  | cons e es ih =>
      rcases h : f e.1 e.2 with - | v
      · rw [List.filterMap_cons_none (by simp [mapEntry, h])]
        exact ih.cons _
      · have he : mapEntry f e = some ⟨e.1, v⟩ := by simp [mapEntry, h]
        rw [List.filterMap_cons_some he]
        exact ih.cons_cons _

/-- Replace each value or drop its entry. -/
def filterMap (m : AssocMap κ ν) (f : κ → ν → Option ν) : AssocMap κ ν :=
  ⟨m.entries.filterMap (mapEntry f), (keys_filterMap_sublist f m.entries).nodup m.nodupKeys⟩

variable [DecidableEq κ]

def get (m : AssocMap κ ν) (k : κ) : Option ν := AList.lookup k m

def contains (m : AssocMap κ ν) (k : κ) : Bool := (m.get k).isSome

def insert (m : AssocMap κ ν) (k : κ) (v : ν) : AssocMap κ ν := AList.insert k v m

def erase (m : AssocMap κ ν) (k : κ) : AssocMap κ ν := AList.erase k m

/-- Insert the pairs in order; a later pair replaces an earlier one. -/
def ofPairs (ps : List (κ × ν)) : AssocMap κ ν :=
  ps.foldl (fun m p => m.insert p.1 p.2) ∅

/-! ### `get` of each operation -/

@[simp] theorem get_empty (k : κ) : (∅ : AssocMap κ ν).get k = none := rfl

theorem get_insert (m : AssocMap κ ν) (k k' : κ) (v : ν) :
    (m.insert k v).get k' = if k' = k then some v else m.get k' := by
  by_cases h : k' = k
  · subst h
    rw [if_pos rfl]
    exact AList.lookup_insert m
  · rw [if_neg h]
    exact AList.lookup_insert_ne h

theorem get_erase (m : AssocMap κ ν) (k k' : κ) :
    (m.erase k).get k' = if k' = k then none else m.get k' := by
  by_cases h : k' = k
  · subst h
    rw [if_pos rfl]
    exact AList.lookup_erase k' m
  · rw [if_neg h]
    exact AList.lookup_erase_ne h

@[simp] theorem get_insert_self (m : AssocMap κ ν) (k : κ) (v : ν) :
    (m.insert k v).get k = some v := by
  rw [get_insert, if_pos rfl]

theorem get_insert_ne (m : AssocMap κ ν) {k k' : κ} (v : ν) (h : k' ≠ k) :
    (m.insert k v).get k' = m.get k' := by
  rw [get_insert, if_neg h]

@[simp] theorem get_erase_self (m : AssocMap κ ν) (k : κ) :
    (m.erase k).get k = none := by
  rw [get_erase, if_pos rfl]

theorem get_erase_ne (m : AssocMap κ ν) {k k' : κ} (h : k' ≠ k) :
    (m.erase k).get k' = m.get k' := by
  rw [get_erase, if_neg h]

theorem get_insert_eq_some {m : AssocMap κ ν} {k k' : κ} {v v' : ν}
    (h : (m.insert k v).get k' = some v') :
    (k' = k ∧ v' = v) ∨ (k' ≠ k ∧ m.get k' = some v') := by
  rw [get_insert] at h
  split at h
  · rename_i heq
    exact .inl ⟨heq, (Option.some.inj h).symm⟩
  · rename_i hne
    exact .inr ⟨hne, h⟩

theorem get_erase_eq_some {m : AssocMap κ ν} {k k' : κ} {v : ν}
    (h : (m.erase k).get k' = some v) : k' ≠ k ∧ m.get k' = some v := by
  rw [get_erase] at h
  split at h
  · cases h
  · rename_i hne
    exact ⟨hne, h⟩

theorem get_eq_some_iff {m : AssocMap κ ν} {k : κ} {v : ν} :
    m.get k = some v ↔ (⟨k, v⟩ : Σ _ : κ, ν) ∈ m.entries :=
  AList.mem_lookup_iff

theorem get_retain (m : AssocMap κ ν) (p : κ → ν → Bool) (k : κ) :
    (m.retain p).get k = (m.get k).filter (p k) := by
  ext v
  simp [get_eq_some_iff, retain, Option.filter_eq_some_iff]

theorem get_filterMap (m : AssocMap κ ν) (f : κ → ν → Option ν) (k : κ) :
    (m.filterMap f).get k = (m.get k).bind (f k) := by
  ext v
  simp only [get_eq_some_iff, filterMap, mapEntry, List.mem_filterMap, Option.map_eq_some_iff,
    Option.bind_eq_some_iff]
  constructor
  · rintro ⟨⟨k', v'⟩, hmem, w, hw, heq⟩
    obtain ⟨rfl, rfl⟩ := Sigma.mk.injEq .. ▸ heq
    exact ⟨v', hmem, hw⟩
  · rintro ⟨v', hmem, hv⟩
    exact ⟨⟨k, v'⟩, hmem, v, hv, rfl⟩

theorem contains_iff {m : AssocMap κ ν} {k : κ} :
    m.contains k = true ↔ ∃ v, m.get k = some v := by
  simp [contains, Option.isSome_iff_exists]

/-! ### Iteration -/

theorem mem_pairs {m : AssocMap κ ν} {k : κ} {v : ν} :
    (k, v) ∈ m.pairs ↔ m.get k = some v := by
  rw [get_eq_some_iff, pairs, List.mem_map]
  constructor
  · rintro ⟨⟨k', v'⟩, hmem, heq⟩
    obtain ⟨rfl, rfl⟩ := Prod.mk.injEq .. ▸ heq
    exact hmem
  · intro h
    exact ⟨⟨k, v⟩, h, rfl⟩

omit [DecidableEq κ] in
theorem map_fst_pairs (m : AssocMap κ ν) : m.pairs.map Prod.fst = m.keys := by
  simp [pairs, AList.keys, List.keys, Function.comp_def]

omit [DecidableEq κ] in
theorem nodup_map_fst_pairs (m : AssocMap κ ν) : (m.pairs.map Prod.fst).Nodup := by
  rw [map_fst_pairs]
  exact m.keys_nodup

theorem mem_keys_iff {m : AssocMap κ ν} {k : κ} :
    k ∈ AList.keys m ↔ ∃ v, m.get k = some v := by
  rw [← AList.mem_keys, ← AList.lookup_isSome]
  exact Option.isSome_iff_exists

omit [DecidableEq κ] in
@[simp] theorem isEmpty_iff {m : AssocMap κ ν} : m.isEmpty = true ↔ m = ∅ := by
  constructor
  · intro h
    exact AList.ext (List.isEmpty_iff.mp h)
  · rintro rfl
    rfl

theorem eq_empty_of_get {m : AssocMap κ ν} (h : ∀ k, m.get k = none) : m = ∅ := by
  apply AList.ext
  apply List.eq_nil_iff_forall_not_mem.mpr
  rintro ⟨k, v⟩ hmem
  have := get_eq_some_iff.mpr hmem
  simp [h k] at this

/-! ### Sizes -/

omit [DecidableEq κ] in
theorem len_eq_length_keys (m : AssocMap κ ν) : m.len = m.keys.length := by
  simp [len, AList.keys, List.keys]

theorem len_insert (m : AssocMap κ ν) (k : κ) (v : ν) :
    (m.insert k v).len = if m.contains k then m.len else m.len + 1 := by
  -- an inserted key comes first, and its old entry goes
  have hkeys : (m.insert k v).keys = k :: m.keys.erase k := AList.keys_insert m
  have hmem : k ∈ AList.keys m ↔ m.contains k = true := by
    rw [mem_keys_iff, contains_iff]
  rw [len_eq_length_keys, hkeys, len_eq_length_keys]
  by_cases h : m.contains k
  · have hin := hmem.mpr h
    rw [if_pos h, List.length_cons, List.length_erase_of_mem hin]
    have : 0 < m.keys.length := List.length_pos_of_mem hin
    omega
  · rw [if_neg h, List.length_cons, List.erase_of_not_mem (fun hin => h (hmem.mp hin))]

/-- Maps with the same keys have the same size. -/
theorem len_eq_of_get_isSome {μ : Type*} {m : AssocMap κ ν} {n : AssocMap κ μ}
    (h : ∀ k, (m.get k).isSome = (n.get k).isSome) : m.len = n.len := by
  rw [len_eq_length_keys, len_eq_length_keys]
  refine (List.Perm.length_eq ((List.perm_ext_iff_of_nodup m.keys_nodup n.keys_nodup).mpr ?_))
  intro k
  rw [mem_keys_iff, mem_keys_iff, ← Option.isSome_iff_exists, ← Option.isSome_iff_exists, h k]

/-! ### Maps built from a list of pairs -/

theorem ofPairs_append_singleton (ps : List (κ × ν)) (k : κ) (v : ν) :
    ofPairs (ps ++ [(k, v)]) = (ofPairs ps).insert k v := by
  simp [ofPairs]

/-- A key that occurs once is mapped to the value it occurs with. -/
theorem get_ofPairs_of_mem {ps : List (κ × ν)} (hnd : (ps.map Prod.fst).Nodup)
    {k : κ} {v : ν} (h : (k, v) ∈ ps) : (ofPairs ps).get k = some v := by
  induction ps using List.reverseRecOn with
  | nil => simp at h
  | append_singleton ps p ih =>
      obtain ⟨k', v'⟩ := p
      rw [ofPairs_append_singleton, get_insert]
      rw [List.map_append, List.nodup_append] at hnd
      obtain ⟨hnd, -, hdisj⟩ := hnd
      rcases List.mem_append.mp h with h | h
      · have hne : k ≠ k' :=
          hdisj k (List.mem_map_of_mem (f := Prod.fst) h) k' (by simp)
        rw [if_neg hne]
        exact ih hnd h
      · obtain ⟨rfl, rfl⟩ := Prod.mk.injEq .. ▸ List.mem_singleton.mp h
        rw [if_pos rfl]

/-- The keys of `ofPairs ps` are those of `ps`. -/
theorem get_ofPairs_eq_none {ps : List (κ × ν)} {k : κ} :
    (ofPairs ps).get k = none ↔ k ∉ ps.map Prod.fst := by
  induction ps using List.reverseRecOn with
  | nil => simp [ofPairs]
  | append_singleton ps p ih =>
      obtain ⟨k', v'⟩ := p
      rw [ofPairs_append_singleton, get_insert, List.map_append, List.mem_append]
      by_cases h : k = k'
      · simp [h]
      · simp [h, ih]

theorem mem_of_get_ofPairs {ps : List (κ × ν)} {k : κ} {v : ν}
    (h : (ofPairs ps).get k = some v) : (k, v) ∈ ps := by
  induction ps using List.reverseRecOn with
  | nil => simp [ofPairs] at h
  | append_singleton ps p ih =>
      obtain ⟨k', v'⟩ := p
      rw [ofPairs_append_singleton] at h
      rcases get_insert_eq_some h with ⟨rfl, rfl⟩ | ⟨-, hold⟩
      · simp
      · exact List.mem_append_left _ (ih hold)

end AssocMap

/-! ### A counter with saturating subtraction -/

structure Meter where
  value : Nat
  /-- Whether a subtraction has been cut off at zero. -/
  saturated : Bool
  deriving DecidableEq, Repr

namespace Meter

def zero : Meter := ⟨0, false⟩

def add (m : Meter) (n : Nat) : Meter := { m with value := m.value + n }

def saturatingSub (m : Meter) (n : Nat) : Meter :=
  ⟨m.value - n, m.saturated || decide (m.value < n)⟩

theorem saturatingSub_eq {m : Meter} {n : Nat} (h : n ≤ m.value) :
    m.saturatingSub n = ⟨m.value - n, m.saturated⟩ := by
  have hlt : ¬ m.value < n := Nat.not_lt.mpr h
  simp [saturatingSub, hlt]

/-- Subtractions that fit together are exact. -/
theorem foldl_saturatingSub (ns : List Nat) (m : Meter) (h : ns.sum ≤ m.value) :
    ns.foldl saturatingSub m = ⟨m.value - ns.sum, m.saturated⟩ := by
  induction ns generalizing m with
  | nil => simp
  | cons n ns ih =>
      rw [List.sum_cons] at h ⊢
      have hn : n ≤ m.value := by omega
      rw [List.foldl_cons, saturatingSub_eq hn, ih _ (by show ns.sum ≤ m.value - n; omega)]
      show (⟨m.value - n - ns.sum, m.saturated⟩ : Meter) = _
      rw [Nat.sub_sub]

theorem foldl_saturatingSub_le (ns : List Nat) (m : Meter) :
    (ns.foldl saturatingSub m).value ≤ m.value := by
  induction ns generalizing m with
  | nil => exact Nat.le_refl _
  | cons n ns ih => exact (ih _).trans (Nat.sub_le ..)

end Meter

/-! ### The weight of a table -/

namespace AssocMap

variable {κ ν : Type*}

/-- What the entries weigh together. -/
def weight (w : ν → Nat) (m : AssocMap κ ν) : Nat := (m.pairs.map fun p => w p.2).sum

@[simp] theorem weight_empty (w : ν → Nat) : (∅ : AssocMap κ ν).weight w = 0 := rfl

/-- What is kept and what is dropped are the table. -/
theorem weight_retain_add (w : ν → Nat) (m : AssocMap κ ν) (p : κ → ν → Bool) :
    (m.retain p).weight w + ((m.pairs.filter fun e => !p e.1 e.2).map fun e => w e.2).sum =
      m.weight w := by
  show ((m.entries.filter fun e => p e.1 e.2).map _ |>.map _).sum + _ = _
  unfold weight pairs
  induction m.entries with
  | nil => rfl
  | cons e es ih =>
      rcases h : p e.1 e.2 with - | -
      · simp [h] at ih ⊢
        omega
      · simp [h] at ih ⊢
        omega

theorem len_retain_le (m : AssocMap κ ν) (p : κ → ν → Bool) : (m.retain p).len ≤ m.len :=
  List.length_filter_le ..

variable [DecidableEq κ]

theorem entries_perm {m : AssocMap κ ν} {k : κ} {v : ν} (h : m.get k = some v) :
    m.entries.Perm (⟨k, v⟩ :: (m.erase k).entries) := by
  have hmem : k ∈ m.entries.keys := mem_keys_iff.mpr ⟨v, h⟩
  obtain ⟨b, before, after, -, hsplit, herase⟩ := List.exists_of_kerase hmem
  -- the entry that goes is the one that was looked up
  have hb : m.get k = some b := by
    rw [get_eq_some_iff, hsplit]
    simp
  obtain rfl := Option.some.inj (hb.symm.trans h)
  show m.entries.Perm (⟨k, b⟩ :: m.entries.kerase k)
  rw [herase, hsplit]
  exact List.perm_middle

theorem weight_erase_add (w : ν → Nat) {m : AssocMap κ ν} {k : κ} {v : ν}
    (h : m.get k = some v) : (m.erase k).weight w + w v = m.weight w := by
  have hperm := ((entries_perm h).map fun e => w e.2).sum_eq
  unfold weight pairs
  simp only [List.map_map, Function.comp_def, List.map_cons, List.sum_cons] at hperm ⊢
  omega

theorem len_erase_add (m : AssocMap κ ν) {k : κ} {v : ν} (h : m.get k = some v) :
    (m.erase k).len + 1 = m.len :=
  (entries_perm h).length_eq.symm

/-- An inserted entry replaces the one that was there. -/
theorem weight_insert (w : ν → Nat) (m : AssocMap κ ν) (k : κ) (v : ν) :
    (m.insert k v).weight w = w v + (m.erase k).weight w := rfl

theorem erase_of_get {m : AssocMap κ ν} {k : κ} (h : m.get k = none) : m.erase k = m := by
  apply AList.ext
  refine List.kerase_of_notMem_keys ?_
  intro hmem
  obtain ⟨v, hv⟩ := mem_keys_iff.mp hmem
  rw [h] at hv
  cases hv

end AssocMap

namespace Window

variable {κ : Type*}

/-- Seen at `s`, still within the window at `t`. -/
def fresh (w t s : Nat) : Bool := t - s ≤ w

theorem fresh_iff {w t s : Nat} : fresh w t s = true ↔ t - s ≤ w := by
  simp [fresh]

/-- What is fresh now was fresh before. -/
theorem fresh_of_le {w t₀ t s : Nat} (h : t₀ ≤ t) (hf : fresh w t s = true) :
    fresh w t₀ s = true := by
  rw [fresh_iff] at hf ⊢
  omega

theorem fresh_self (w t : Nat) : fresh w t t = true := by
  simp [fresh]

/-- The entries that are fresh at `t`. -/
def expire (w t : Nat) (m : AssocMap κ Nat) : AssocMap κ Nat :=
  m.retain fun _ s => fresh w t s

/-- **Expiring early is invisible later.** -/
theorem expire_expire {w t₀ t : Nat} (h : t₀ ≤ t) (m : AssocMap κ Nat) :
    expire w t (expire w t₀ m) = expire w t m := by
  apply AList.ext
  show (m.entries.filter _).filter _ = m.entries.filter _
  rw [List.filter_filter]
  congr 1
  funext e
  show (fresh w t e.2 && fresh w t₀ e.2) = fresh w t e.2
  cases hf : fresh w t e.2
  · rfl
  · exact fresh_of_le h hf

theorem expire_empty (w t : Nat) : expire w t (∅ : AssocMap κ Nat) = ∅ := rfl

variable [DecidableEq κ]

theorem get_expire (w t : Nat) (m : AssocMap κ Nat) (k : κ) :
    (expire w t m).get k = (m.get k).filter (fresh w t) :=
  AssocMap.get_retain m _ k

/-- A key seen at `now` is fresh until the window has passed; the others are
as they were. -/
theorem get_expire_insert {w now t : Nat} (m : AssocMap κ Nat) (k k' : κ) :
    (expire w t (m.insert k now)).get k' =
      if k' = k then (some now).filter (fresh w t) else (expire w t m).get k' := by
  rw [get_expire, AssocMap.get_insert]
  by_cases h : k' = k
  · rw [if_pos h, if_pos h]
  · rw [if_neg h, if_neg h, get_expire]

theorem get_expire_retain (w t : Nat) (m : AssocMap κ Nat) (p : κ → Nat → Bool) (k : κ) :
    (expire w t (m.retain p)).get k = ((expire w t m).get k).filter (p k) := by
  rw [get_expire, get_expire, AssocMap.get_retain, Option.filter_filter, Option.filter_filter]
  congr 1
  funext s
  exact Bool.and_comm _ _

omit [DecidableEq κ] in
theorem len_expire_le (w t : Nat) (m : AssocMap κ Nat) : (expire w t m).len ≤ m.len :=
  List.length_filter_le _ _

omit [DecidableEq κ] in
/-- Fresh entries only grow fewer. -/
theorem len_expire_anti {w t₀ t : Nat} (h : t₀ ≤ t) (m : AssocMap κ Nat) :
    (expire w t m).len ≤ (expire w t₀ m).len := by
  rw [← expire_expire h m]
  exact len_expire_le _ _ _

/-- Seeing a key makes one more fresh entry, unless the key was fresh. -/
theorem len_expire_insert_le {w now t : Nat} (h : now ≤ t) (m : AssocMap κ Nat) (k : κ) :
    (expire w t (m.insert k now)).len ≤
      if (expire w now m).contains k then (expire w now m).len else (expire w now m).len + 1 := by
  have hsame : (expire w now (m.insert k now)).len = ((expire w now m).insert k now).len := by
    apply AssocMap.len_eq_of_get_isSome
    intro k'
    rw [get_expire_insert, AssocMap.get_insert]
    by_cases hk : k' = k
    · rw [if_pos hk, if_pos hk, Option.filter_some, if_pos (fresh_self w now)]
    · rw [if_neg hk, if_neg hk]
  calc (expire w t (m.insert k now)).len
      ≤ (expire w now (m.insert k now)).len := len_expire_anti h _
    _ = ((expire w now m).insert k now).len := hsame
    _ = _ := AssocMap.len_insert _ _ _

end Window
