/-
Elise/Geo/Lookup.lean

The countries of a file and the networks they list (`load_country` and `contains` in
src/geo/dat.rs).

An entry lists networks in its fields 2, each of them a message with the octets of an
address and the length of the prefix.  The loops push one range for each network
(`scan_country`), and a range covers the addresses that begin like the network
(`covers_rangeOf`).
-/
import Elise.Geo.Dat
import Elise.Geo.Fields

namespace Elise

namespace Geo

open Net Protobuf Checked

/-! ### Networks -/

/-- A network: the octets of an address and how many bits of it count. -/
structure Cidr where
  ip : List UInt8
  len : Nat
  length_ip : ip.length = 4 ∨ ip.length = 16
  len_le : len ≤ 8 * ip.length

/-- The first `len` of the bits of an address are those of the network. -/
def Cidr.Agrees (cidr : Cidr) (x : Nat) : Prop :=
  x / 2 ^ (8 * cidr.ip.length - cidr.len) = ofBeBytes cidr.ip / 2 ^ (8 * cidr.ip.length - cidr.len)

/-- The address is of the family of the network and in it. -/
def Cidr.Contains (cidr : Cidr) : IpAddr → Prop
  | .v4 v4 => cidr.ip.length = 4 ∧ cidr.Agrees v4.toNat
  | .v6 v6 => cidr.ip.length = 16 ∧ cidr.Agrees v6.toNat

/-- The message of a network; of fields that are repeated the last one counts. -/
def Spells (bytes : List UInt8) (cidr : Cidr) : Prop :=
  ∃ fields, Fields bytes fields ∧ (fields.filterMap (sizedAs 1)).getLast? = some cidr.ip ∧
    (fields.filterMap (varintAs 2)).getLast?.getD 0 = cidr.len

/-- The message of an entry, with the networks it lists. -/
def Lists (bytes : List UInt8) (cidrs : List Cidr) : Prop :=
  ∃ fields, Fields bytes fields ∧ List.Forall₂ Spells (fields.filterMap (sizedAs 2)) cidrs

/-! ### Ranges of the two families -/

/-- All ranges go from a start to an end, within the addresses of the family. -/
def CountryIpList.Valid (list : CountryIpList) : Prop :=
  Geo.Valid (2 ^ 32 - 1) list.ipv4Ranges ∧ Geo.Valid (2 ^ 128 - 1) list.ipv6Ranges

/-- The address is in one of the ranges of its family. -/
def CountryIpList.Covers (list : CountryIpList) : IpAddr → Prop
  | .v4 v4 => Geo.Covers list.ipv4Ranges v4.toNat
  | .v6 v6 => Geo.Covers list.ipv6Ranges v6.toNat

section

variable (outside : Outside)

theorem contains_mergeAndSort {list : CountryIpList} (hvalid : list.Valid) (ip : IpAddr) :
    (list.mergeAndSort outside).contains ip = true ↔ list.Covers ip := by
  cases ip with
  | v4 v4 => exact isOk_mergeRanges outside hvalid.1 v4.toNat
  | v6 v6 => exact isOk_mergeRanges outside hvalid.2 v6.toNat

theorem covers_append {ranges : List (Nat × Nat)} {range : Nat × Nat} {x : Nat} :
    Covers (ranges ++ [range]) x ↔ Covers ranges x ∨ (range.1 ≤ x ∧ x ≤ range.2) := by
  simp only [Covers, List.mem_append, List.mem_singleton, or_and_right, exists_or, exists_eq_left]

/-- The numbers from a multiple up to the next are those with one quotient. -/
theorem within_iff_div_eq {x a m : Nat} (hm : 0 < m) :
    a / m * m ≤ x ∧ x ≤ a / m * m + (m - 1) ↔ x / m = a / m := by
  rw [Nat.div_eq_iff hm]
  constructor
  · rintro ⟨hstart, hstop⟩
    exact ⟨hstart, by omega⟩
  · rintro ⟨hstart, hstop⟩
    exact ⟨hstart, by omega⟩

/-- What a network of this width covers. -/
theorem covers_rangeOf {width addr len : Nat} (hlen : len ≤ width) (haddr : addr < 2 ^ width) (x : Nat) :
    (rangeOf outside width addr len).1 ≤ x ∧ x ≤ (rangeOf outside width addr len).2 ↔
      x / 2 ^ (width - len) = addr / 2 ^ (width - len) := by
  rw [rangeOf, Nat.min_eq_left hlen, outside.network_eq hlen haddr, outside.broadcast_eq hlen haddr]
  exact within_iff_div_eq (Nat.two_pow_pos _)

theorem valid_rangeOf {width addr len : Nat} (hlen : len ≤ width) (haddr : addr < 2 ^ width) :
    (rangeOf outside width addr len).1 ≤ (rangeOf outside width addr len).2 ∧
      (rangeOf outside width addr len).2 ≤ 2 ^ width - 1 := by
  rw [rangeOf, Nat.min_eq_left hlen, outside.network_eq hlen haddr, outside.broadcast_eq hlen haddr]
  dsimp only
  refine ⟨Nat.le_add_right _ _, ?_⟩
  -- the quotient is below the number of networks of this length
  have hpow : 2 ^ (width - len) * 2 ^ len = 2 ^ width := by
    rw [← pow_add, Nat.sub_add_cancel hlen]
  have hquot : addr / 2 ^ (width - len) < 2 ^ len := by
    rw [Nat.div_lt_iff_lt_mul (Nat.two_pow_pos _), mul_comm, hpow]
    exact haddr
  have hnext : (addr / 2 ^ (width - len) + 1) * 2 ^ (width - len) ≤ 2 ^ len * 2 ^ (width - len) :=
    Nat.mul_le_mul_right _ hquot
  rw [mul_comm (2 ^ len), hpow, Nat.succ_mul] at hnext
  have hpos := Nat.two_pow_pos (width - len)
  omega

/-! ### What is pushed for a network -/

/-- The state of the loop behind the message of a network. -/
def Cidr.read (cidr : Cidr) : Option (List UInt8) × UInt32 := (some cidr.ip, UInt32.ofNat cidr.len)

theorem Cidr.toNat_len (cidr : Cidr) : (UInt32.ofNat cidr.len).toNat = cidr.len := by
  apply UInt32.toNat_ofNat_of_lt'
  have hlen := cidr.len_le
  have hip := cidr.length_ip
  exact show cidr.len < 2 ^ 32 by omega

theorem Cidr.ofBeBytes_lt (cidr : Cidr) {width : Nat} (h : 8 * cidr.ip.length = width) :
    ofBeBytes cidr.ip < 2 ^ width := by
  have hlt := Net.ofBeBytes_lt cidr.ip
  rw [← h, pow_mul]
  exact hlt

/-- The list holds what is in these networks. -/
structure CountryIpList.Holds (list : CountryIpList) (cidrs : List Cidr) : Prop where
  valid : list.Valid
  covers : ∀ ip, list.Covers ip ↔ ∃ cidr ∈ cidrs, cidr.Contains ip

theorem holds_nil : CountryIpList.Holds ⟨[], []⟩ [] where
  valid := ⟨fun _ h => (nomatch h), fun _ h => (nomatch h)⟩
  covers ip := by
    refine iff_of_false ?_ (fun ⟨_, h, _⟩ => nomatch h)
    cases ip with
    | v4 v4 => exact covers_nil _
    | v6 v6 => exact covers_nil _

theorem valid_append {top : Nat} {ranges : List (Nat × Nat)} {range : Nat × Nat} (h : Valid top ranges)
    (hrange : range.1 ≤ range.2 ∧ range.2 ≤ top) : Valid top (ranges ++ [range]) := by
  intro r hr
  rcases List.mem_append.mp hr with hr | hr
  · exact h r hr
  · obtain rfl := List.mem_singleton.mp hr
    exact hrange

theorem exists_mem_append {cidrs : List Cidr} {cidr : Cidr} {ip : IpAddr} :
    (∃ c ∈ cidrs ++ [cidr], c.Contains ip) ↔ (∃ c ∈ cidrs, c.Contains ip) ∨ cidr.Contains ip := by
  simp only [List.mem_append, List.mem_singleton, or_and_right, exists_or, exists_eq_left]

/-- **One network is pushed.** -/
theorem CountryIpList.Holds.push {list : CountryIpList} {cidrs : List Cidr} (h : list.Holds cidrs)
    (cidr : Cidr) : (list.pushCidr outside cidr.read).Holds (cidrs ++ [cidr]) := by
  have hlen := cidr.len_le
  rcases cidr.length_ip with hfour | hsixteen
  · have hwidth : 8 * cidr.ip.length = 32 := by omega
    have haddr := cidr.ofBeBytes_lt hwidth
    have hpush : list.pushCidr outside cidr.read =
        { list with ipv4Ranges := list.ipv4Ranges ++ [rangeOf outside 32 (ofBeBytes cidr.ip) cidr.len] } := by
      rw [CountryIpList.pushCidr, Cidr.read]
      dsimp only
      rw [if_pos hfour, cidr.toNat_len]
    rw [hwidth] at hlen
    rw [hpush]
    refine ⟨⟨valid_append h.valid.1 (valid_rangeOf outside hlen haddr), h.valid.2⟩, ?_⟩
    intro ip
    rw [exists_mem_append, ← h.covers ip]
    cases ip with
    | v4 v4 =>
        refine covers_append.trans (or_congr_right ?_)
        rw [covers_rangeOf outside hlen haddr, Cidr.Contains, Cidr.Agrees, hwidth]
        exact (and_iff_right hfour).symm
    | v6 v6 =>
        refine (or_iff_left ?_).symm
        rintro ⟨hother, -⟩
        omega
  · have hwidth : 8 * cidr.ip.length = 128 := by omega
    have haddr := cidr.ofBeBytes_lt hwidth
    have hpush : list.pushCidr outside cidr.read =
        { list with ipv6Ranges := list.ipv6Ranges ++ [rangeOf outside 128 (ofBeBytes cidr.ip) cidr.len] } := by
      rw [CountryIpList.pushCidr, Cidr.read]
      dsimp only
      rw [if_neg (by omega), if_pos hsixteen, cidr.toNat_len]
    rw [hwidth] at hlen
    rw [hpush]
    refine ⟨⟨h.valid.1, valid_append h.valid.2 (valid_rangeOf outside hlen haddr)⟩, ?_⟩
    intro ip
    rw [exists_mem_append, ← h.covers ip]
    cases ip with
    | v4 v4 =>
        refine (or_iff_left ?_).symm
        rintro ⟨hother, -⟩
        omega
    | v6 v6 =>
        refine covers_append.trans (or_congr_right ?_)
        rw [covers_rangeOf outside hlen haddr, Cidr.Contains, Cidr.Agrees, hwidth]
        exact (and_iff_right hsixteen).symm

/-- One network after the other is pushed. -/
theorem CountryIpList.Holds.pushAll {list : CountryIpList} {before : List Cidr} (h : list.Holds before)
    (cidrs : List Cidr) :
    ((cidrs.map Cidr.read).foldl (CountryIpList.pushCidr outside) list).Holds (before ++ cidrs) := by
  induction cidrs generalizing list before with
  | nil =>
      rw [List.append_nil]
      exact h
  | cons cidr cidrs ih =>
      have hrest := ih (h.push outside cidr)
      rw [List.append_assoc] at hrest
      exact hrest

/-! ### The message of a network -/

theorem proper_cidrLoop : Proper cidrLoop.want := by
  intro tag wire
  dsimp only [cidrLoop]
  split
  · rename_i h
    exact ⟨fun _ => h.2, fun h => (nomatch h)⟩
  · split
    · rename_i h
      exact ⟨fun h => (nomatch h), fun _ => h.2⟩
    · exact ⟨fun h => (nomatch h), fun h => (nomatch h)⟩

theorem proper_countryLoop : Proper (countryLoop outside).want := by
  intro tag wire
  dsimp only [countryLoop]
  split
  · rename_i h
    exact ⟨fun _ => h.2, fun h => (nomatch h)⟩
  · exact ⟨fun h => (nomatch h), fun h => (nomatch h)⟩

theorem number_lt_of_mem {bytes : List UInt8} {fields : List (Nat × Value)} (h : Fields bytes fields)
    {field : Nat × Value} (hmem : field ∈ fields) : field.1 < 2 ^ 29 := by
  induction h with
  | nil => cases hmem
  | varint _ hnumber _ _ _ ih | fixed64 _ hnumber _ _ _ ih | sized _ hnumber _ _ _ ih
  | fixed32 _ hnumber _ _ _ ih =>
      rcases List.mem_cons.mp hmem with rfl | hmem
      · exact hnumber
      · exact ih hmem

section

variable {number : Nat} (hnumber : number < 2 ^ 29)

include hnumber

theorem ofNat_eq_iff {k : Nat} (hk : k < 2 ^ 29) : UInt32.ofNat number = UInt32.ofNat k ↔ number = k := by
  rw [← UInt32.toNat_inj, UInt32.toNat_ofNat_of_lt' (show number < 2 ^ 32 by omega),
    UInt32.toNat_ofNat_of_lt' (show k < 2 ^ 32 by omega)]

theorem want_cidrLoop_sized :
    cidrLoop.want (UInt32.ofNat number) 2 = if number = 1 then .bytes else .skip := by
  have hone : UInt32.ofNat number = 1 ↔ number = 1 := ofNat_eq_iff hnumber (by decide)
  dsimp only [cidrLoop]
  by_cases h : number = 1
  · rw [if_pos h, if_pos ⟨hone.mpr h, rfl⟩]
  · rw [if_neg h, if_neg (fun hand => h (hone.mp hand.1)), if_neg (fun hand => absurd hand.2 (by decide))]

theorem want_cidrLoop_varint :
    cidrLoop.want (UInt32.ofNat number) 0 = if number = 2 then .varint else .skip := by
  have htwo : UInt32.ofNat number = 2 ↔ number = 2 := ofNat_eq_iff hnumber (by decide)
  dsimp only [cidrLoop]
  rw [if_neg (fun hand => absurd hand.2 (by decide))]
  by_cases h : number = 2
  · rw [if_pos h, if_pos ⟨htwo.mpr h, rfl⟩]
  · rw [if_neg h, if_neg (fun hand => h (htwo.mp hand.1))]

theorem want_countryLoop_sized :
    (countryLoop outside).want (UInt32.ofNat number) 2 = if number = 2 then .bytes else .skip := by
  have htwo : UInt32.ofNat number = 2 ↔ number = 2 := ofNat_eq_iff hnumber (by decide)
  dsimp only [countryLoop]
  by_cases h : number = 2
  · rw [if_pos h, if_pos ⟨htwo.mpr h, rfl⟩]
  · rw [if_neg h, if_neg (fun hand => h (htwo.mp hand.1))]

end

/-- The later one counts. -/
def keepLast {α β : Type} (f : α → Option β) (last : Option β) (a : α) : Option β := (f a).or last

theorem foldl_keepLast {α β : Type} (f : α → Option β) (l : List α) (last : Option β) :
    l.foldl (keepLast f) last = (l.filterMap f).getLast?.or last := by
  induction l generalizing last with
  | nil => rfl
  | cons a l ih =>
      rw [List.foldl_cons, ih, keepLast]
      cases hf : f a with
      | none => rw [List.filterMap_cons_none hf, Option.none_or]
      | some b =>
          rw [List.filterMap_cons_some hf, List.getLast?_cons, Option.some_or, Option.some_or]
          cases (l.filterMap f).getLast? <;> rfl

/-- What one field does to the address and the length. -/
def readCidrField (acc : Option (List UInt8) × UInt32) (field : Nat × Value) :
    Option (List UInt8) × UInt32 :=
  (keepLast (sizedAs 1) acc.1 field, ((varintAs 2 field).map UInt32.ofNat).getD acc.2)

theorem handle_cidrLoop (acc : Option (List UInt8) × UInt32) {field : Nat × Value}
    (hnumber : field.1 < 2 ^ 29) (r : ProtoReader) :
    cidrLoop.handle acc (readOf cidrLoop.want field) r = some (readCidrField acc field, true) := by
  obtain ⟨number, value⟩ := field
  cases value with
  | varint v =>
      rw [readOf, want_cidrLoop_varint hnumber, readCidrField, keepLast, sizedAs_varint, varintAs]
      by_cases h : number = 2
      · rw [if_pos h, if_pos h, Option.map_some, ← UInt64.toUInt32_ofNat' v]
        rfl
      · rw [if_neg h, if_neg h]
        rfl
  | sized payload =>
      rw [readOf, want_cidrLoop_sized hnumber, readCidrField, keepLast, sizedAs, varintAs_sized]
      by_cases h : number = 1
      · rw [if_pos h, if_pos h]
        rfl
      · rw [if_neg h, if_neg h]
        rfl
  | fixed64 bytes => rfl
  | fixed32 bytes => rfl

theorem foldl_readCidrField (fields : List (Nat × Value)) (ip : Option (List UInt8)) (len : Option Nat) :
    fields.foldl readCidrField (ip, UInt32.ofNat (len.getD 0)) =
      (fields.foldl (keepLast (sizedAs 1)) ip,
        UInt32.ofNat ((fields.foldl (keepLast (varintAs 2)) len).getD 0)) := by
  induction fields generalizing ip len with
  | nil => rfl
  | cons field fields ih =>
      have hstep : readCidrField (ip, UInt32.ofNat (len.getD 0)) field =
          (keepLast (sizedAs 1) ip field, UInt32.ofNat ((keepLast (varintAs 2) len field).getD 0)) := by
        rw [readCidrField, keepLast, keepLast]
        cases varintAs 2 field <;> rfl
      rw [List.foldl_cons, List.foldl_cons, List.foldl_cons, hstep, ih]

/-- **The message of a network is read as what it says.** -/
theorem scan_cidrLoop {bytes : List UInt8} {cidr : Cidr} (hbytes : bytes.length < 2 ^ 64)
    (h : Spells bytes cidr) : cidrLoop.scan bytes (none, 0) = some cidr.read := by
  obtain ⟨fields, hfields, hip, hlen⟩ := h
  have hscan := Loop.scan_fields proper_cidrLoop hbytes hfields
    (fun acc field hmem r => handle_cidrLoop acc (number_lt_of_mem hfields hmem) r) (none, 0)
  have hfold := foldl_readCidrField fields none none
  rw [foldl_keepLast, foldl_keepLast, hip, Option.or_none, Option.or_none, hlen] at hfold
  rw [hscan]
  exact congrArg some hfold

/-! ### The entry of a country -/

/-- What one field of an entry does to the list. -/
def readEntryField (list : CountryIpList) (field : Nat × Value) : CountryIpList :=
  match sizedAs 2 field with
  | some payload => list.pushCidr outside ((cidrLoop.scan payload (none, 0)).getD (none, 0))
  | none => list

theorem handle_countryLoop (list : CountryIpList) {field : Nat × Value} (hnumber : field.1 < 2 ^ 29)
    (hread : ∀ payload, sizedAs 2 field = some payload → ∃ cidr, cidrLoop.scan payload (none, 0) = some cidr)
    (r : ProtoReader) :
    (countryLoop outside).handle list (readOf (countryLoop outside).want field) r =
      some (readEntryField outside list field, true) := by
  obtain ⟨number, value⟩ := field
  cases value with
  | varint v =>
      have hwant : (countryLoop outside).want (UInt32.ofNat number) 0 = .skip :=
        if_neg fun hand => absurd hand.2 (by decide)
      rw [readOf, hwant, readEntryField, sizedAs_varint]
      rfl
  | sized payload =>
      rw [readOf, want_countryLoop_sized outside hnumber]
      rw [sizedAs] at hread
      rw [readEntryField, sizedAs]
      by_cases h : number = 2
      · rw [if_pos h] at hread ⊢
        obtain ⟨cidr, hcidr⟩ := hread payload rfl
        rw [if_pos h]
        dsimp only [countryLoop]
        rw [hcidr]
        rfl
      · rw [if_neg h, if_neg h]
        rfl
  | fixed64 bytes => rfl
  | fixed32 bytes => rfl

theorem map_scan_cidrLoop {payloads : List (List UInt8)} {cidrs : List Cidr}
    (h : List.Forall₂ Spells payloads cidrs) (hpayloads : ∀ payload ∈ payloads, payload.length < 2 ^ 64) :
    payloads.map (fun payload => cidrLoop.scan payload (none, 0)) = cidrs.map fun cidr => some cidr.read := by
  induction h with
  | nil => rfl
  | @cons payload cidr _ _ hspells _ ih =>
      rw [List.map_cons, List.map_cons, scan_cidrLoop (hpayloads payload (List.mem_cons_self ..)) hspells,
        ih fun p hp => hpayloads p (List.mem_cons_of_mem _ hp)]

theorem foldl_readEntryField (fields : List (Nat × Value)) {cidrs : List Cidr} (list : CountryIpList)
    (h : (fields.filterMap (sizedAs 2)).map (fun payload => cidrLoop.scan payload (none, 0)) =
      cidrs.map fun cidr => some cidr.read) :
    fields.foldl (readEntryField outside) list =
      (cidrs.map Cidr.read).foldl (CountryIpList.pushCidr outside) list := by
  -- over the payloads, over what is read from them, and over the networks
  have hpayloads : fields.foldl (readEntryField outside) list =
      (fields.filterMap (sizedAs 2)).foldl (fun list payload =>
        list.pushCidr outside ((cidrLoop.scan payload (none, 0)).getD (none, 0))) list := by
    rw [List.foldl_filterMap]
    congr 1
    funext list field
    rw [readEntryField]
    cases sizedAs 2 field <;> rfl
  have hread := congrArg (List.foldl (fun (list : CountryIpList) cidr =>
    list.pushCidr outside (cidr.getD (none, 0))) list) h
  rw [List.foldl_map, List.foldl_map] at hread
  rw [hpayloads, hread, List.foldl_map]
  rfl

/-- A payload is no longer than the message around it. -/
theorem length_le_of_sizedAs {bytes : List UInt8} {fields : List (Nat × Value)} (h : Fields bytes fields)
    {k : Nat} {payload : List UInt8} (hmem : payload ∈ fields.filterMap (sizedAs k)) :
    payload.length ≤ bytes.length := by
  obtain ⟨field, hfield, hsized⟩ := List.mem_filterMap.mp hmem
  induction h with
  | nil => cases hfield
  | varint _ _ _ _ _ ih | fixed64 _ _ _ _ _ ih | fixed32 _ _ _ _ _ ih =>
      rcases List.mem_cons.mp hfield with rfl | hfield
      · cases hsized
      · have hrest := ih (List.mem_filterMap.mpr ⟨field, hfield, hsized⟩) hfield
        simp only [List.length_append]
        omega
  | sized _ _ _ _ _ ih =>
      rcases List.mem_cons.mp hfield with rfl | hfield
      · rw [sizedAs] at hsized
        split at hsized
        · obtain rfl := Option.some.inj hsized
          simp only [List.length_append]
          omega
        · cases hsized
      · have hrest := ih (List.mem_filterMap.mpr ⟨field, hfield, hsized⟩) hfield
        simp only [List.length_append]
        omega

/-- **The entry of a country is read as the networks it lists.** -/
theorem scan_country {entry : List UInt8} {cidrs : List Cidr} (hentry : entry.length < 2 ^ 64)
    (h : Lists entry cidrs) :
    (countryLoop outside).scan entry ⟨[], []⟩ =
      some ((cidrs.map Cidr.read).foldl (CountryIpList.pushCidr outside) ⟨[], []⟩) := by
  obtain ⟨fields, hfields, hspells⟩ := h
  have hpayloads : ∀ payload ∈ fields.filterMap (sizedAs 2), payload.length < 2 ^ 64 :=
    fun payload hmem => lt_of_le_of_lt (length_le_of_sizedAs hfields hmem) hentry
  have hmap := map_scan_cidrLoop hspells hpayloads
  have hread : ∀ payload ∈ fields.filterMap (sizedAs 2),
      ∃ cidr, cidrLoop.scan payload (none, 0) = some cidr := by
    intro payload hmem
    have hscan := List.mem_map_of_mem (f := fun p => cidrLoop.scan p (none, 0)) hmem
    rw [hmap] at hscan
    obtain ⟨cidr, -, hcidr⟩ := List.mem_map.mp hscan
    exact ⟨cidr.read, hcidr.symm⟩
  rw [Loop.scan_fields (proper_countryLoop outside) hentry hfields
    (fun list field hmem r => handle_countryLoop outside list (number_lt_of_mem hfields hmem)
      (fun payload hp => hread payload (List.mem_filterMap.mpr ⟨field, hmem, hp⟩)) r),
    foldl_readEntryField outside fields ⟨[], []⟩ hmap]

/-- **Looking up an address.**  Joining the ranges leaves them sorted, disjoint and not
adjacent, and the search finds an address if and only if one of the ranges has it.  An entry
that is well formed has an address if and only if one of its networks has. -/
theorem lookup_iff (env : Matching) :
    (∀ list : CountryIpList, list.Valid →
      (∀ ranges ∈ [(list.mergeAndSort outside).ipv4Ranges, (list.mergeAndSort outside).ipv6Ranges],
        Sorted ranges ∧ Apart ranges) ∧
      ∀ ip, (list.mergeAndSort outside).contains ip = true ↔ list.Covers ip) ∧
    ∀ (file : DatFile) (countryCode : List Char) (entry : List UInt8) (cidrs : List Cidr),
      file.entry (env.upper (Text.trim countryCode)) = some (some entry) → entry.length < 2 ^ 64 →
        Lists entry cidrs →
          ∃ list, loadCountry outside env file countryCode = some (some list) ∧
            ∀ ip, list.contains ip = true ↔ ∃ cidr ∈ cidrs, cidr.Contains ip := by
  refine ⟨fun list hvalid => ⟨?_, contains_mergeAndSort outside hvalid⟩, ?_⟩
  · have hfour := apart_mergeRanges outside hvalid.1
    have hsix := apart_mergeRanges outside hvalid.2
    intro ranges hmem
    rcases List.mem_cons.mp hmem with rfl | hmem
    · exact ⟨sorted_of_apart hfour.2 hfour.1, hfour.1⟩
    · obtain rfl := List.mem_singleton.mp hmem
      exact ⟨sorted_of_apart hsix.2 hsix.1, hsix.1⟩
  · intro file countryCode entry cidrs hfound hlen hlists
    have hholds := holds_nil.pushAll outside cidrs
    rw [List.nil_append] at hholds
    refine ⟨_, ?_, fun ip => (contains_mergeAndSort outside hholds.valid ip).trans (hholds.covers ip)⟩
    rw [loadCountry, hfound, Option.bind_some]
    dsimp only
    rw [scan_country outside hlen hlists]
    rfl

end

/-- The network 10.0.0.0/8. -/
def lanCidr : Cidr := ⟨[10, 0, 0, 0], 8, .inl rfl, by decide⟩

/-- An entry named A with this network. -/
def lanEntry : List UInt8 := [0x0A, 1, 0x41, 0x12, 8, 0x0A, 4, 10, 0, 0, 0, 0x10, 8]

/-- A file with this entry. -/
def lanFile : DatFile := ⟨[0x0A, 13] ++ lanEntry, (∅ : Index).insert ['A'] (2, 13)⟩

theorem lists_lanEntry : Lists lanEntry [lanCidr] := by
  have htag : ∀ b : UInt8, b.toNat < 128 → Varint [b] b.toNat := fun _ => varint_byte
  have hcidr : Fields [0x0A, 4, 10, 0, 0, 0, 0x10, 8] [(1, .sized [10, 0, 0, 0]), (2, .varint 8)] := by
    refine @Fields.sized 1 [0x0A] [4] [10, 0, 0, 0] _ _ (by decide) (by decide) (htag 0x0A (by decide))
      (htag 4 (by decide)) ?_
    exact @Fields.varint 2 8 [0x10] [8] [] _ (by decide) (by decide) (htag 0x10 (by decide))
      (htag 8 (by decide)) .nil
  have hentry : Fields lanEntry [(1, .sized [0x41]), (2, .sized [0x0A, 4, 10, 0, 0, 0, 0x10, 8])] := by
    refine @Fields.sized 1 [0x0A] [1] [0x41] _ _ (by decide) (by decide) (htag 0x0A (by decide))
      (htag 1 (by decide)) ?_
    exact @Fields.sized 2 [0x12] [8] [0x0A, 4, 10, 0, 0, 0, 0x10, 8] [] _ (by decide) (by decide)
      (htag 0x12 (by decide)) (htag 8 (by decide)) .nil
  have hspells : Spells [0x0A, 4, 10, 0, 0, 0, 0x10, 8] lanCidr := ⟨_, hcidr, rfl, rfl⟩
  exact ⟨_, hentry, .cons hspells .nil⟩

/-- Two ranges that touch, and an address in the network of the file. -/
theorem lookup_lan :
    ((CountryIpList.mergeAndSort .standard ⟨[(7, 9), (0, 6)], []⟩).contains (.v4 (.new 0 0 0 8)) = true) ∧
      ∃ list, loadCountry .standard (asciiMatching []) lanFile ['a'] = some (some list) ∧
        list.contains (.v4 (.new 10 1 2 3)) = true := by
  have hvalid : CountryIpList.Valid ⟨[(7, 9), (0, 6)], []⟩ :=
    ⟨by simp [Valid], fun _ h => (nomatch h)⟩
  obtain ⟨hranges, hfiles⟩ := lookup_iff .standard (asciiMatching [])
  refine ⟨((hranges _ hvalid).2 _).mpr ⟨(7, 9), by simp, by decide⟩, ?_⟩
  obtain ⟨list, hload, hlist⟩ := hfiles lanFile ['a'] lanEntry [lanCidr] (by decide) (by decide) lists_lanEntry
  have hagrees : lanCidr.Agrees (Ipv4Addr.new 10 1 2 3).toNat := by
    rw [Cidr.Agrees]
    decide
  exact ⟨list, hload, (hlist _).mpr ⟨lanCidr, List.mem_singleton.mpr rfl, rfl, hagrees⟩⟩

end Geo

end Elise
