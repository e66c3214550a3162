/-
Elise/Geo/Dat.lean

The geo files (src/geo/dat.rs): `GeoIpFile` with the networks of the countries and `GeoSiteFile`
with the domains of the groups.

A file is a message of entries.  When it is loaded, the names of the entries are looked up and
their places put in an index; an entry is read when it is asked for, and the networks of a
country become ranges that are sorted and joined.  Joining changes nothing about which numbers
are covered (`covers_mergeRanges`) and leaves ranges that are apart: a number lies between any
two of them (`apart_mergeRanges`).  So the comparison with a number is in order, and the binary
search finds the range that covers it.

What breaks, or does not end, is `none`.  Parameters: what the crate for networks and the
unstable sort of the standard library give (`Outside`).
-/
import Elise.Geo.Scan
import Elise.Lib.AssocMap
import Elise.Lib.Search
import Elise.Security.Audit

namespace Elise

namespace Geo

open Net Checked

/-- The first and the last address of a network, and the sort. -/
structure Outside where
  network : (width addr len : Nat) → Nat
  broadcast : (width addr len : Nat) → Nat
  sortBy : {α : Type} → (le : α → α → Bool) → List α → List α
  network_eq : ∀ {width addr len}, len ≤ width → addr < 2 ^ width →
    network width addr len = addr / 2 ^ (width - len) * 2 ^ (width - len)
  broadcast_eq : ∀ {width addr len}, len ≤ width → addr < 2 ^ width →
    broadcast width addr len = addr / 2 ^ (width - len) * 2 ^ (width - len) + (2 ^ (width - len) - 1)
  sortBy_perm : ∀ {α : Type} (le : α → α → Bool) (l : List α), (sortBy le l).Perm l
  sortBy_sorted : ∀ {α : Type} (le : α → α → Bool) (l : List α),
    (∀ a b c, le a b = true → le b c = true → le a c = true) → (∀ a b, (le a b || le b a) = true) →
      (sortBy le l).Pairwise fun a b => le a b = true

/-- The arithmetic of networks, and a stable sort. -/
def Outside.standard : Outside where
  network width addr len := addr / 2 ^ (width - len) * 2 ^ (width - len)
  broadcast width addr len := addr / 2 ^ (width - len) * 2 ^ (width - len) + (2 ^ (width - len) - 1)
  sortBy le l := l.mergeSort le
  network_eq _ _ := rfl
  broadcast_eq _ _ := rfl
  sortBy_perm le l := List.mergeSort_perm l le
  sortBy_sorted _ l htrans htotal := List.pairwise_mergeSort htrans htotal l

/-! ### Loading a file -/

abbrev Index : Type := AssocMap (List Char) (Nat × Nat)

/-- `GeoIpFile` and `GeoSiteFile`: the content, and where the entries are. -/
structure DatFile where
  data : List UInt8
  index : Index

/-- Field 1 with a length is read, the others are skipped. -/
def wantFirst (tag : UInt32) (wire : UInt8) : Want := if tag = 1 ∧ wire = 2 then .bytes else .skip

/-- The name of an entry, which is its first field 1. -/
def nameLoop (key : List Char → List Char) (place : Nat × Nat) : Loop Index where
  want := wantFirst
  handle index field _ :=
    match field with
    | .bytes b =>
        match b.bind Text.fromUtf8 with
        | some name => some (index.insert (key name) place, false)
        | none => some (index, false)
    | _ => some (index, true)

/-- The entries of a file.  One that is cut off ends the list. -/
def entryLoop (key : List Char → List Char) : Loop Index where
  want := wantFirst
  handle index field r :=
    match field with
    | .bytes none => some (index, false)
    | .bytes (some entry) =>
        ((nameLoop key (r.pos - entry.length, entry.length)).scan entry index).map fun index =>
          (index, true)
    | _ => some (index, true)

def loadFromFile (key : List Char → List Char) (data : List UInt8) : Option DatFile :=
  ((entryLoop key).scan data ∅).map fun index => ⟨data, index⟩

def GeoIpFile.loadFromFile (env : Matching) (data : List UInt8) : Option DatFile :=
  Geo.loadFromFile env.upper data

def GeoSiteFile.loadFromFile (env : Matching) (data : List UInt8) : Option DatFile :=
  Geo.loadFromFile env.lower data

/-- The bytes of an entry; none if there is no such name. -/
def DatFile.entry (file : DatFile) (key : List Char) : Option (Option (List UInt8)) :=
  match file.index.get key with
  | none => some none
  | some (offset, len) => (slice file.data offset (offset + len)).map some

/-! ### Countries -/

/-- `CountryIpList`: ranges of addresses, as numbers, with both ends. -/
structure CountryIpList where
  ipv4Ranges : List (Nat × Nat)
  ipv6Ranges : List (Nat × Nat)

/-- The address in field 1 and the length in field 2; of several the last one counts. -/
def cidrLoop : Loop (Option (List UInt8) × UInt32) where
  want tag wire :=
    if tag = 1 ∧ wire = 2 then .bytes else if tag = 2 ∧ wire = 0 then .varint else .skip
  handle acc field _ :=
    match field with
    | .bytes b => some ((b, acc.2), true)
    | .varint v => some ((acc.1, (v.getD 0).toUInt32), true)
    | .skipped => some (acc, true)

section

variable (outside : Outside)

/-- The range of a network; `width` is the number of bits of its addresses. -/
def rangeOf (width addr len : Nat) : Nat × Nat :=
  (outside.network width addr (min len width), outside.broadcast width addr (min len width))

def CountryIpList.pushCidr (list : CountryIpList) (cidr : Option (List UInt8) × UInt32) :
    CountryIpList :=
  match cidr.1 with
  | none => list
  | some rawIp =>
      if rawIp.length = 4 then
        { list with
          ipv4Ranges := list.ipv4Ranges ++ [rangeOf outside 32 (ofBeBytes rawIp) cidr.2.toNat] }
      else if rawIp.length = 16 then
        { list with
          ipv6Ranges := list.ipv6Ranges ++ [rangeOf outside 128 (ofBeBytes rawIp) cidr.2.toNat] }
      else list

def countryLoop : Loop CountryIpList where
  want tag wire := if tag = 2 ∧ wire = 2 then .bytes else .skip
  handle list field _ :=
    match field with
    | .bytes none => some (list, false)
    | .bytes (some cidr) =>
        (cidrLoop.scan cidr (none, 0)).map fun cidr => (list.pushCidr outside cidr, true)
    | _ => some (list, true)

/-- `saturating_add(1)` with this greatest number. -/
def saturatingSucc (top n : Nat) : Nat := min (n + 1) top

/-- The loop that joins ranges: `cur` grows as long as the next one meets it. -/
def mergeLoop (top : Nat) (cur : Nat × Nat) : List (Nat × Nat) → List (Nat × Nat)
  | [] => [cur]
  | next :: ranges =>
      if next.1 ≤ saturatingSucc top cur.2 then mergeLoop top (cur.1, max cur.2 next.2) ranges
      else cur :: mergeLoop top next ranges

/-- `merge_and_sort` for one of the lists. -/
def mergeRanges (top : Nat) (ranges : List (Nat × Nat)) : List (Nat × Nat) :=
  match outside.sortBy (fun a b => a.1 ≤ b.1) ranges with
  | [] => []
  | cur :: ranges => mergeLoop top cur ranges

def CountryIpList.mergeAndSort (list : CountryIpList) : CountryIpList where
  ipv4Ranges := mergeRanges outside (2 ^ 32 - 1) list.ipv4Ranges
  ipv6Ranges := mergeRanges outside (2 ^ 128 - 1) list.ipv6Ranges

/-- How a range lies to a number. -/
def compareRange (val : Nat) (range : Nat × Nat) : Ordering :=
  if val < range.1 then .gt else if range.2 < val then .lt else .eq

/-- By `binary_search_by`. -/
def CountryIpList.contains (list : CountryIpList) : IpAddr → Bool
  | .v4 v4 => BinarySearch.isOk (compareRange v4.toNat) list.ipv4Ranges
  | .v6 v6 => BinarySearch.isOk (compareRange v6.toNat) list.ipv6Ranges

def loadCountry (env : Matching) (file : DatFile) (countryCode : List Char) :
    Option (Option CountryIpList) :=
  (file.entry (env.upper (Text.trim countryCode))).bind fun
    | none => some none
    | some entry =>
        ((countryLoop outside).scan entry ⟨[], []⟩).map fun list => some (list.mergeAndSort outside)

/-! ### Groups of sites -/

/-- The kind in field 1 and the value in field 2. -/
def domainLoop (env : Matching) : Loop (UInt32 × List Char) where
  want tag wire :=
    if tag = 1 ∧ wire = 0 then .varint else if tag = 2 ∧ wire = 2 then .bytes else .skip
  handle acc field _ :=
    match field with
    | .varint v => some (((v.getD 0).toUInt32, acc.2), true)
    | .bytes b =>
        match b.bind Text.fromUtf8 with
        | some s => some ((acc.1, env.lower s), true)
        | none => some (acc, true)
    | .skipped => some (acc, true)

/-- A domain is put in the list for its kind; a kind that is not known is that of suffixes. -/
def pushDomain {env : Matching} (group : SiteGroupList env) (domain : UInt32 × List Char) :
    SiteGroupList env :=
  let (dtype, dval) := domain
  if dval.isEmpty then group
  else if dtype = 0 then { group with keywords := group.keywords ++ [dval] }
  else if dtype = 1 then
    match env.regexNew dval with
    | some re => { group with regexes := group.regexes ++ [re] }
    | none => group
  else if dtype = 3 then { group with exactDomains := group.exactDomains.insert dval }
  else { group with domainSuffixes := group.domainSuffixes ++ [dval] }

def groupLoop (env : Matching) : Loop (SiteGroupList env) where
  want tag wire := if tag = 2 ∧ wire = 2 then .bytes else .skip
  handle group field _ :=
    match field with
    | .bytes none => some (group, false)
    | .bytes (some domain) =>
        ((domainLoop env).scan domain (0, [])).map fun domain => (pushDomain group domain, true)
    | _ => some (group, true)

/-- The longest suffixes go first, and neighbours that are equal become one. -/
def arrange {env : Matching} (group : SiteGroupList env) : SiteGroupList env :=
  { group with
    domainSuffixes :=
      (outside.sortBy (fun a b => b.length ≤ a.length) group.domainSuffixes).destutter (· ≠ ·)
    keywords := group.keywords.destutter (· ≠ ·) }

def loadGroup (env : Matching) (file : DatFile) (tag : List Char) :
    Option (Option (SiteGroupList env)) :=
  (file.entry (env.lower (Text.trim tag))).bind fun
    | none => some none
    | some entry =>
        ((groupLoop env).scan entry ⟨[], [], [], []⟩).map fun group => some (arrange outside group)

end

/-- A number is in one of the ranges. -/
def Covers (ranges : List (Nat × Nat)) (x : Nat) : Prop := ∃ range ∈ ranges, range.1 ≤ x ∧ x ≤ range.2

/-- Ranges of numbers up to `top`. -/
def Valid (top : Nat) (ranges : List (Nat × Nat)) : Prop :=
  ∀ range ∈ ranges, range.1 ≤ range.2 ∧ range.2 ≤ top

/-- Sorted, disjoint and not adjacent: behind each range a number is left out. -/
def Apart (ranges : List (Nat × Nat)) : Prop := ranges.Pairwise fun a b => a.2 + 1 < b.1

/-- By their starts. -/
def Sorted (ranges : List (Nat × Nat)) : Prop := ranges.Pairwise fun a b => a.1 ≤ b.1

theorem covers_cons {range : Nat × Nat} {ranges : List (Nat × Nat)} {x : Nat} :
    Covers (range :: ranges) x ↔ (range.1 ≤ x ∧ x ≤ range.2) ∨ Covers ranges x := by
  simp only [Covers, List.mem_cons, exists_eq_or_imp]

theorem covers_nil (x : Nat) : ¬ Covers [] x := fun ⟨_, h, _⟩ => nomatch h

section

variable {top : Nat} {cur next : Nat × Nat} {ranges : List (Nat × Nat)}

theorem Valid.tail (h : Valid top (cur :: ranges)) : Valid top ranges :=
  fun range hmem => h range (List.mem_cons_of_mem _ hmem)

/-- A range that meets the current one extends it. -/
theorem valid_join (h : Valid top (cur :: next :: ranges)) :
    Valid top ((cur.1, max cur.2 next.2) :: ranges) := by
  intro range hmem
  have hcur := h cur (by simp)
  have hnext := h next (by simp)
  rcases List.mem_cons.mp hmem with rfl | hmem
  · dsimp only
    omega
  · exact h range (by simp [hmem])

theorem sorted_join (h : Sorted (cur :: next :: ranges)) {stop : Nat} : Sorted ((cur.1, stop) :: ranges) := by
  obtain ⟨hcur, htail⟩ := List.pairwise_cons.mp h
  exact List.pairwise_cons.mpr ⟨fun range hmem => hcur range (by simp [hmem]),
    (List.pairwise_cons.mp htail).2⟩

theorem covers_join (hsorted : cur.1 ≤ next.1) (hmeets : next.1 ≤ saturatingSucc top cur.2) (x : Nat) :
    cur.1 ≤ x ∧ x ≤ max cur.2 next.2 ↔ (cur.1 ≤ x ∧ x ≤ cur.2) ∨ (next.1 ≤ x ∧ x ≤ next.2) := by
  rw [saturatingSucc] at hmeets
  omega

/-! ### Joining -/

theorem covers_mergeLoop (hvalid : Valid top (cur :: ranges)) (hsorted : Sorted (cur :: ranges)) (x : Nat) :
    Covers (mergeLoop top cur ranges) x ↔ Covers (cur :: ranges) x := by
  induction ranges generalizing cur with
  | nil => exact Iff.rfl
  | cons next ranges ih =>
      rw [mergeLoop]
      split
      · rename_i hmeets
        have hle : cur.1 ≤ next.1 := (List.pairwise_cons.mp hsorted).1 next (by simp)
        rw [ih (valid_join hvalid) (sorted_join hsorted), covers_cons, covers_cons, covers_cons,
          covers_join hle hmeets, or_assoc]
      · rw [covers_cons, ih hvalid.tail (List.pairwise_cons.mp hsorted).2, ← covers_cons]

/-- No range of the result starts before the current one. -/
theorem le_of_mem_mergeLoop (hsorted : Sorted (cur :: ranges)) {range : Nat × Nat}
    (hmem : range ∈ mergeLoop top cur ranges) : cur.1 ≤ range.1 := by
  induction ranges generalizing cur with
  | nil =>
      obtain rfl := List.mem_singleton.mp hmem
      exact Nat.le_refl _
  | cons next ranges ih =>
      rw [mergeLoop] at hmem
      split at hmem
      · have hjoined : Sorted ((cur.1, max cur.2 next.2) :: ranges) := sorted_join hsorted
        have hle := ih hjoined hmem
        exact hle
      · rcases List.mem_cons.mp hmem with rfl | hmem
        · exact Nat.le_refl _
        · obtain ⟨hcur, htail⟩ := List.pairwise_cons.mp hsorted
          exact (hcur next (by simp)).trans (ih htail hmem)

theorem apart_mergeLoop (hvalid : Valid top (cur :: ranges)) (hsorted : Sorted (cur :: ranges)) :
    Apart (mergeLoop top cur ranges) ∧ Valid top (mergeLoop top cur ranges) := by
  induction ranges generalizing cur with
  | nil => exact ⟨List.pairwise_singleton _ _, hvalid⟩
  | cons next ranges ih =>
      rw [mergeLoop]
      split
      · exact ih (valid_join hvalid) (sorted_join hsorted)
      · rename_i happart
        have htail := (List.pairwise_cons.mp hsorted).2
        obtain ⟨hrest, hvalid'⟩ := ih hvalid.tail htail
        have hcur := hvalid cur (by simp)
        have hnext := hvalid next (by simp)
        rw [saturatingSucc] at happart
        refine ⟨List.pairwise_cons.mpr ⟨?_, hrest⟩, ?_⟩
        · -- at the greatest number nothing can follow, so the sum was not cut
          intro range hmem
          have hle := le_of_mem_mergeLoop htail hmem
          omega
        · intro range hmem
          rcases List.mem_cons.mp hmem with rfl | hmem
          · exact hcur
          · exact hvalid' range hmem

/-- What is apart is sorted. -/
theorem sorted_of_apart (hvalid : Valid top ranges) (h : Apart ranges) : Sorted ranges := by
  refine List.Pairwise.imp_of_mem ?_ h
  intro a b ha _ hab
  have hle := (hvalid a ha).1
  omega

variable (outside : Outside)

theorem sorted_sortBy (ranges : List (Nat × Nat)) :
    Sorted (outside.sortBy (fun a b => a.1 ≤ b.1) ranges) := by
  have hsorted := outside.sortBy_sorted (fun a b : Nat × Nat => decide (a.1 ≤ b.1)) ranges
    (fun a b c hab hbc => decide_eq_true ((of_decide_eq_true hab).trans (of_decide_eq_true hbc)))
    (fun a b => by
      rcases Nat.le_total a.1 b.1 with h | h
      · rw [decide_eq_true h, Bool.true_or]
      · rw [decide_eq_true h, Bool.or_true])
  exact hsorted.imp of_decide_eq_true

theorem mem_sortBy (ranges : List (Nat × Nat)) {range : Nat × Nat} :
    range ∈ outside.sortBy (fun a b => a.1 ≤ b.1) ranges ↔ range ∈ ranges :=
  (outside.sortBy_perm _ ranges).mem_iff

theorem covers_mergeRanges (hvalid : Valid top ranges) (x : Nat) :
    Covers (mergeRanges outside top ranges) x ↔ Covers ranges x := by
  have hmem : ∀ range, _ ↔ _ := fun range => @mem_sortBy outside ranges range
  have hsorted := sorted_sortBy outside ranges
  have hcovers : Covers (outside.sortBy (fun a b => a.1 ≤ b.1) ranges) x ↔ Covers ranges x := by
    simp only [Covers, hmem]
  rw [← hcovers, mergeRanges]
  cases hsort : outside.sortBy (fun a b => a.1 ≤ b.1) ranges with
  | nil => rfl
  | cons cur rest =>
      rw [hsort] at hsorted hmem
      exact covers_mergeLoop (fun range h => hvalid range ((hmem range).mp h)) hsorted x

theorem apart_mergeRanges (hvalid : Valid top ranges) :
    Apart (mergeRanges outside top ranges) ∧ Valid top (mergeRanges outside top ranges) := by
  have hmem : ∀ range, _ ↔ _ := fun range => @mem_sortBy outside ranges range
  have hsorted := sorted_sortBy outside ranges
  rw [mergeRanges]
  cases hsort : outside.sortBy (fun a b => a.1 ≤ b.1) ranges with
  | nil => exact ⟨List.Pairwise.nil, fun _ h => nomatch h⟩
  | cons cur rest =>
      rw [hsort] at hsorted hmem
      exact apart_mergeLoop (fun range h => hvalid range ((hmem range).mp h)) hsorted

/-! ### Searching -/

theorem inOrder_compareRange (hvalid : Valid top ranges) (hapart : Apart ranges) (x : Nat) :
    BinarySearch.InOrder (compareRange x) ranges := by
  refine List.Pairwise.imp_of_mem ?_ hapart
  intro a b ha hb hab
  have hleft := hvalid a ha
  have hright := hvalid b hb
  constructor
  · intro hgt
    have hlt : x < a.1 := by
      by_contra hnot
      rw [compareRange, if_neg hnot] at hgt
      split at hgt <;> cases hgt
    rw [compareRange, if_pos (by omega)]
  · intro hless
    have hlt : b.2 < x := by
      by_contra hnot
      rw [compareRange] at hless
      split at hless
      · cases hless
      · cases hless
    rw [compareRange, if_neg (by omega), if_pos (by omega)]

theorem compareRange_eq {x : Nat} {range : Nat × Nat} :
    compareRange x range = .eq ↔ range.1 ≤ x ∧ x ≤ range.2 := by
  rw [compareRange]
  split
  · rename_i h
    exact iff_of_false (fun h => nomatch h) (by omega)
  · split
    · exact iff_of_false (fun h => nomatch h) (by omega)
    · exact iff_of_true rfl (by omega)

/-- The search in what has been joined finds what was covered. -/
theorem isOk_mergeRanges (hvalid : Valid top ranges) (x : Nat) :
    BinarySearch.isOk (compareRange x) (mergeRanges outside top ranges) = true ↔ Covers ranges x := by
  obtain ⟨hapart, hvalid'⟩ := apart_mergeRanges outside hvalid
  rw [BinarySearch.isOk_iff (inOrder_compareRange hvalid' hapart x), ← covers_mergeRanges outside hvalid x]
  simp only [compareRange_eq]
  rfl

end

end Geo

end Elise
