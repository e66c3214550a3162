/-
Elise/Proxy/TrafficBuffer.lean

The traffic buffer of a node runner (src/proxy/node.rs): per user, the bytes
relayed in each direction and not yet acknowledged by the panel.

The counters are `u64` and the release build wraps.  The lemmas therefore
come in two kinds: equations on the 64-bit cells, which need nothing, and
equations on byte counts, each under the bound it needs:

* `bytes_onTraffic` - a callback adds its bytes unless the cell overflows;
* `bytes_acknowledge` - an acknowledgement takes away the bytes of the batch
  if the buffer holds them;
* `bytes_le_acknowledge_add` - it never takes away more, whatever the buffer
  holds.
-/
import Elise.Panel.Client

namespace Elise

/-! ### Items and their bytes -/

theorem itemBytes_cons (item : TrafficItem) (items : List TrafficItem) (user : UInt32)
    (dir : Direction) :
    itemBytes (item :: items) user dir =
      (if item.userId = user then item.bytes dir else 0) + itemBytes items user dir := by
  simp [itemBytes]

theorem itemBytes_eq_zero {items : List TrafficItem} {user : UInt32} {dir : Direction}
    (h : ∀ item ∈ items, item.userId ≠ user) : itemBytes items user dir = 0 := by
  induction items with
  | nil => rfl
  | cons item items ih =>
      rw [itemBytes_cons, if_neg (h item (by simp)), ih fun i hi => h i (by simp [hi])]

/-- Where no user has two items, a user's bytes are those of the user's item. -/
theorem itemBytes_eq_of_mem {items : List TrafficItem} {item : TrafficItem} {dir : Direction}
    (hnd : (items.map TrafficItem.userId).Nodup) (h : item ∈ items) :
    itemBytes items item.userId dir = item.bytes dir := by
  induction items with
  | nil => simp at h
  | cons head items ih =>
      rw [List.map_cons, List.nodup_cons] at hnd
      obtain ⟨hhead, hnd⟩ := hnd
      rw [itemBytes_cons]
      rcases List.mem_cons.mp h with rfl | h
      · have hrest : ∀ i ∈ items, i.userId ≠ item.userId := by
          intro i hi heq
          exact hhead (heq ▸ List.mem_map_of_mem hi)
        rw [if_pos rfl, itemBytes_eq_zero hrest, Nat.add_zero]
      · have hne : head.userId ≠ item.userId := by
          intro heq
          exact hhead (heq ▸ List.mem_map_of_mem h)
        rw [if_neg hne, Nat.zero_add, ih hnd h]

/-! ### The buffer -/

/-- Pending traffic per user: bytes up and bytes down. -/
abbrev TrafficBuffer := AssocMap UInt32 (UInt64 × UInt64)

namespace TrafficBuffer

/-- The counter of a user in one direction. -/
def cell (buf : TrafficBuffer) (user : UInt32) (dir : Direction) : UInt64 :=
  dir.pick ((buf.get user).getD (0, 0))

/-- The bytes pending for a user in one direction. -/
def bytes (buf : TrafficBuffer) (user : UInt32) (dir : Direction) : Nat :=
  (buf.cell user dir).toNat

/-- The traffic callback: `entry(user_id).or_insert((0, 0))`, then add. -/
def onTraffic (buf : TrafficBuffer) (userId : UInt32) (up down : UInt64) : TrafficBuffer :=
  let entry := (buf.get userId).getD (0, 0)
  buf.insert userId (entry.1 + up, entry.2 + down)

/-- The item of an entry that is due for a report. -/
def dueItem (force : Bool) (minTrafficBytes : UInt64) (entry : UInt32 × UInt64 × UInt64) :
    Option TrafficItem :=
  let total := entry.2.1 + entry.2.2
  if (force || minTrafficBytes ≤ total) && 0 < total then
    some ⟨entry.1, entry.2.1, entry.2.2⟩
  else none

/-- The batch of a report. -/
def batch (buf : TrafficBuffer) (force : Bool) (minTrafficBytes : UInt64) : List TrafficItem :=
  buf.pairs.filterMap (dueItem force minTrafficBytes)

/-- Every user of the buffer with the total of both directions. -/
def activeUsers (buf : TrafficBuffer) : AssocMap UInt32 UInt64 :=
  AssocMap.ofPairs (buf.pairs.map fun entry => (entry.1, entry.2.1 + entry.2.2))

/-- Acknowledge one item: subtract it, and drop the entry when it is spent. -/
def ackItem (buf : TrafficBuffer) (item : TrafficItem) : TrafficBuffer :=
  match buf.get item.userId with
  | none => buf
  | some pending =>
      let pending := (pending.1 - item.u, pending.2 - item.d)
      if pending = (0, 0) then buf.erase item.userId else buf.insert item.userId pending

/-- Acknowledge a batch. -/
def acknowledge (buf : TrafficBuffer) (items : List TrafficItem) : TrafficBuffer :=
  items.foldl ackItem buf

/-- No subtraction of `acknowledge buf items` underflows. -/
def AckSafe : TrafficBuffer → List TrafficItem → Prop
  | _, [] => True
  | buf, item :: items =>
      (∀ pending, buf.get item.userId = some pending →
        item.u ≤ pending.1 ∧ item.d ≤ pending.2) ∧ AckSafe (buf.ackItem item) items

/-! ### Callbacks -/

theorem cell_onTraffic (buf : TrafficBuffer) (userId user : UInt32) (up down : UInt64)
    (dir : Direction) :
    (buf.onTraffic userId up down).cell user dir =
      if user = userId then buf.cell user dir + dir.pick (up, down) else buf.cell user dir := by
  unfold cell onTraffic
  rw [AssocMap.get_insert]
  by_cases h : user = userId
  · subst h
    cases dir <;> simp [Direction.pick]
  · simp [h]

theorem bytes_onTraffic {buf : TrafficBuffer} {userId user : UInt32} {up down : UInt64}
    {dir : Direction}
    (h : user = userId → buf.bytes user dir + (dir.pick (up, down)).toNat < 2 ^ 64) :
    (buf.onTraffic userId up down).bytes user dir =
      buf.bytes user dir + if user = userId then (dir.pick (up, down)).toNat else 0 := by
  unfold bytes at h ⊢
  rw [cell_onTraffic]
  by_cases hu : user = userId
  · rw [if_pos hu, if_pos hu, UInt64.toNat_add, Nat.mod_eq_of_lt (h hu)]
  · rw [if_neg hu, if_neg hu, Nat.add_zero]

/-! ### Batches -/

theorem get_of_mem_batch {buf : TrafficBuffer} {force : Bool} {min : UInt64}
    {item : TrafficItem} (h : item ∈ buf.batch force min) :
    buf.get item.userId = some (item.u, item.d) := by
  obtain ⟨⟨userId, u, d⟩, hmem, hdue⟩ := List.mem_filterMap.mp h
  simp only [dueItem] at hdue
  split at hdue
  · obtain rfl := Option.some.inj hdue
    exact AssocMap.mem_pairs.mp hmem
  · cases hdue

/-- A batch has one item per user at most. -/
theorem nodup_batch (buf : TrafficBuffer) (force : Bool) (min : UInt64) :
    ((buf.batch force min).map TrafficItem.userId).Nodup := by
  -- the users of the batch are users of the buffer, in the same order
  have hsub : ((buf.batch force min).map TrafficItem.userId).Sublist
      (buf.pairs.map Prod.fst) := by
    rw [batch]
    induction buf.pairs with
    | nil => exact List.Sublist.refl _
    | cons entry entries ih =>
        rw [List.filterMap_cons]
        rcases hdue : dueItem force min entry with - | item
        · exact ih.cons _
        · have hid : item.userId = entry.1 := by
            simp only [dueItem] at hdue
            split at hdue
            · rw [← Option.some.inj hdue]
            · cases hdue
          simp only [List.map_cons, hid]
          exact ih.cons_cons _
  exact hsub.nodup (AssocMap.nodup_map_fst_pairs buf)

theorem item_bytes_of_mem_batch {buf : TrafficBuffer} {force : Bool} {min : UInt64}
    {item : TrafficItem} (h : item ∈ buf.batch force min) (dir : Direction) :
    item.bytes dir = buf.bytes item.userId dir := by
  simp [TrafficItem.bytes, bytes, cell, get_of_mem_batch h]

/-- The buffer holds what a batch takes from it. -/
theorem itemBytes_batch_le (buf : TrafficBuffer) (force : Bool) (min : UInt64)
    (user : UInt32) (dir : Direction) :
    itemBytes (buf.batch force min) user dir ≤ buf.bytes user dir := by
  by_cases h : ∃ item ∈ buf.batch force min, item.userId = user
  · obtain ⟨item, hmem, rfl⟩ := h
    rw [itemBytes_eq_of_mem (nodup_batch buf force min) hmem, item_bytes_of_mem_batch hmem]
  · rw [itemBytes_eq_zero fun item hmem heq => h ⟨item, hmem, heq⟩]
    exact Nat.zero_le _

/-! ### Acknowledgements -/

theorem cell_ackItem (buf : TrafficBuffer) (item : TrafficItem) (user : UInt32)
    (dir : Direction) :
    (buf.ackItem item).cell user dir =
      if item.userId = user ∧ (buf.get user).isSome then
        buf.cell user dir - dir.pick (item.u, item.d)
      else buf.cell user dir := by
  rw [ackItem]
  -- an entry that is spent is dropped, and reads as zero afterwards as before
  rcases hget : buf.get item.userId with - | ⟨u, d⟩
  · by_cases h : item.userId = user
    · subst h
      simp [hget]
    · simp [h]
  · by_cases h : item.userId = user
    · subst h
      by_cases hzero : (u - item.u, d - item.d) = (0, 0)
      · obtain ⟨hu, hd⟩ := Prod.mk.injEq .. ▸ hzero
        cases dir <;> simp [cell, hget, hu, hd, Direction.pick]
      · cases dir <;> simp [cell, hget, hzero, Direction.pick]
    · have hne : user ≠ item.userId := fun heq => h heq.symm
      by_cases hzero : (u - item.u, d - item.d) = (0, 0)
      · simp only [hzero, if_true, h, false_and, if_false, cell]
        rw [AssocMap.get_erase_ne _ hne]
      · simp only [hzero, if_false, h, false_and, cell]
        rw [AssocMap.get_insert_ne _ _ hne]

/-- Without an entry there is nothing pending. -/
theorem bytes_eq_zero_of_get {buf : TrafficBuffer} {user : UInt32} (dir : Direction)
    (h : buf.get user = none) : buf.bytes user dir = 0 := by
  cases dir <;> simp [bytes, cell, h, Direction.pick]

theorem bytes_ackItem {buf : TrafficBuffer} {item : TrafficItem} {user : UInt32}
    {dir : Direction} (h : item.userId = user → item.bytes dir ≤ buf.bytes user dir) :
    (buf.ackItem item).bytes user dir =
      buf.bytes user dir - if item.userId = user then item.bytes dir else 0 := by
  by_cases hu : item.userId = user
  · rcases hget : buf.get user with - | pending
    · have hzero := bytes_eq_zero_of_get dir hget
      have hcell : (buf.ackItem item).bytes user dir = buf.bytes user dir := by
        simp only [bytes, cell_ackItem, hget]
        simp
      rw [hcell, hzero, Nat.zero_sub]
    · have hle : dir.pick (item.u, item.d) ≤ buf.cell user dir := h hu
      have hcond : item.userId = user ∧ (buf.get user).isSome := ⟨hu, by simp [hget]⟩
      rw [if_pos hu]
      unfold bytes TrafficItem.bytes
      rw [cell_ackItem, if_pos hcond, UInt64.toNat_sub_of_le _ _ hle]
  · have hcell : (buf.ackItem item).bytes user dir = buf.bytes user dir := by
      simp only [bytes, cell_ackItem, hu, false_and, if_false]
    rw [hcell, if_neg hu, Nat.sub_zero]

/-- **Acknowledging a batch takes away exactly its bytes**, where the buffer
holds them. -/
theorem bytes_acknowledge {buf : TrafficBuffer} {items : List TrafficItem} {user : UInt32}
    {dir : Direction} (h : itemBytes items user dir ≤ buf.bytes user dir) :
    (buf.acknowledge items).bytes user dir = buf.bytes user dir - itemBytes items user dir := by
  induction items generalizing buf with
  | nil => rfl
  | cons item items ih =>
      rw [itemBytes_cons] at h ⊢
      have hitem : item.userId = user → item.bytes dir ≤ buf.bytes user dir := by
        intro hu
        rw [if_pos hu] at h
        omega
      have hhead := bytes_ackItem hitem
      have hrest : itemBytes items user dir ≤ (buf.ackItem item).bytes user dir := by
        rw [hhead]
        omega
      show ((buf.ackItem item).acknowledge items).bytes user dir = _
      rw [ih hrest, hhead]
      omega

theorem bytes_le_ackItem_add (buf : TrafficBuffer) (item : TrafficItem) (user : UInt32)
    (dir : Direction) :
    buf.bytes user dir ≤
      (buf.ackItem item).bytes user dir + if item.userId = user then item.bytes dir else 0 := by
  unfold bytes TrafficItem.bytes
  rw [cell_ackItem]
  by_cases hu : item.userId = user
  · by_cases hsome : (buf.get user).isSome = true
    · rw [if_pos ⟨hu, hsome⟩, if_pos hu, UInt64.toNat_sub]
      -- a subtraction that wraps leaves more, never less
      have hcell := (buf.cell user dir).toNat_lt
      have hitem := (dir.pick (item.u, item.d)).toNat_lt
      omega
    · rw [if_neg fun hc => hsome hc.2]
      exact Nat.le_add_right _ _
  · rw [if_neg fun hc => hu hc.1]
    exact Nat.le_add_right _ _

/-- An acknowledgement never takes away more than the batch holds. -/
theorem bytes_le_acknowledge_add (buf : TrafficBuffer) (items : List TrafficItem)
    (user : UInt32) (dir : Direction) :
    buf.bytes user dir ≤ (buf.acknowledge items).bytes user dir + itemBytes items user dir := by
  induction items generalizing buf with
  | nil => exact Nat.le_refl _
  | cons item items ih =>
      have hhead := bytes_le_ackItem_add buf item user dir
      have hrest := ih (buf.ackItem item)
      show _ ≤ ((buf.ackItem item).acknowledge items).bytes user dir + _
      rw [itemBytes_cons]
      omega

/-- A buffer that holds the bytes of a batch acknowledges it without underflow. -/
theorem ackSafe_of_le {buf : TrafficBuffer} {items : List TrafficItem}
    (h : ∀ user dir, itemBytes items user dir ≤ buf.bytes user dir) : AckSafe buf items := by
  -- the first subtraction leaves enough for the rest of the batch
  induction items generalizing buf with
  | nil => trivial
  | cons item items ih =>
      have hitem : ∀ dir, item.bytes dir ≤ buf.bytes item.userId dir := by
        intro dir
        have := h item.userId dir
        rw [itemBytes_cons, if_pos rfl] at this
        omega
      refine ⟨?_, ih ?_⟩
      · intro pending hget
        have hup := hitem .up
        have hdown := hitem .down
        simp only [TrafficItem.bytes, bytes, cell, hget, Direction.pick,
          Option.getD_some] at hup hdown
        exact ⟨hup, hdown⟩
      · intro user dir
        have htotal := h user dir
        rw [itemBytes_cons] at htotal
        rw [bytes_ackItem fun hu => hu ▸ hitem dir]
        omega

end TrafficBuffer

end Elise
