/-
Elise/Proxy/Durability.lean

Crash durability of reported traffic.

To count each byte once the model gives bytes an identity.  `Ledger` is a
ghost that follows the sets of bytes behind the counters: a callback mints
fresh bytes into the buffer, a snapshot copies a user's bytes into the batch,
a save copies the buffer into the file, an accepted batch leaves the buffer.
A byte is `handed` once a batch that contains it was given to
`report_traffic`, and `acked` once such a call returned `Ok`.

The invariant is a pair of inclusions,

    handed  ⊆  acked ∪ filed        handed  ⊆  acked ∪ buffered,

on the disk for the next crash and in memory for the next save.  The first
save of a report puts the batch on the disk before it is handed over, and
bytes leave the buffer only when they are acknowledged.

The ledger matches the counters as long as no callback overflows one
(`NoOverflow`).  The counters are `u64` and wrap: a callback that overflows
makes pending bytes disappear, and `lost_after_overflow` is a run that loses
a reported byte this way.
-/
import Elise.Proxy.Report

namespace Elise

variable {env : ReportEnv}

/-! ### The ledger -/

/-- Sets of bytes per user and direction. -/
abbrev ByteSets := UInt32 → Direction → Finset ℕ

structure Ledger where
  /-- How many bytes exist so far; the next byte gets this number. -/
  minted : UInt32 → Direction → Nat
  buffered : ByteSets
  filed : ByteSets
  /-- The clone held by the running save. -/
  copied : ByteSets
  /-- The batch that is out. -/
  batched : ByteSets
  handed : ByteSets
  acked : ByteSets
  /-- The sum of all batches whose report returned `Ok`. -/
  ackedBytes : UInt32 → Direction → Nat

/-- The bytes in the pending file. -/
def Host.fileBytes (h : Host env) (user : UInt32) (dir : Direction) : Nat :=
  match restorePending env.json h.disk with
  | some buf => buf.bytes user dir
  | none => 0

namespace Ledger

/-- The ledger of a host that has not run yet. -/
def opening (h : Host env) : Ledger where
  minted := h.fileBytes
  buffered _ _ := ∅
  filed user dir := Finset.range (h.fileBytes user dir)
  copied _ _ := ∅
  batched _ _ := ∅
  handed _ _ := ∅
  acked _ _ := ∅
  ackedBytes _ _ := 0

/-- Mint `n` fresh bytes into the buffer. -/
def mint (l : Ledger) (n : UInt32 → Direction → Nat) : Ledger :=
  { l with
    minted := fun user dir => l.minted user dir + n user dir
    buffered := fun user dir =>
      l.buffered user dir ∪ Finset.Ico (l.minted user dir) (l.minted user dir + n user dir) }

/-- Take the bytes of the users in `items` as the batch. -/
def takeBatch (l : Ledger) (items : List TrafficItem) : Ledger :=
  { l with
    batched := fun user dir =>
      if items.any fun item => item.userId = user then l.buffered user dir else ∅ }

/-- The batch goes to `report_traffic`. -/
def handOver (l : Ledger) : Ledger :=
  { l with handed := fun user dir => l.handed user dir ∪ l.batched user dir }

/-- The file is replaced by the clone. -/
def rename (l : Ledger) : Ledger := { l with filed := l.copied }

/-- The batch `items` is acknowledged. -/
def acknowledge (l : Ledger) (items : List TrafficItem) : Ledger :=
  { l with
    acked := fun user dir => l.acked user dir ∪ l.batched user dir
    buffered := fun user dir => l.buffered user dir \ l.batched user dir
    ackedBytes := fun user dir => l.ackedBytes user dir + itemBytes items user dir }

/-- Follow a step of the runner. -/
def follow (env : ReportEnv) (l : Ledger) (r : NodeRunner) : RunnerEvent → Ledger
  | .onTraffic userId up down =>
      l.mint fun user dir => if user = userId then (dir.pick (up, down)).toNat else 0
  | .snapshot force => l.takeBatch (r.trafficBuffer.batch force env.minTrafficBytes)
  | .saveBegin _ => { l with copied := l.buffered }
  | .saveEnd outcome =>
      let l := if outcome.renamed then l.rename else l
      match r.io, r.phase, outcome with
      | some (.report, _), .persisting _ _, .ok => l.handOver
      | _, _, _ => l
  | .resume =>
      match r.phase with
      | .reporting items _ (.done (.ok _)) => l.acknowledge items
      | _ => l
  | _ => l

/-- Follow a step of the process; a start fills the buffer from the file. -/
def post (h : Host env) (l : Ledger) : Event → Ledger
  | .start readable =>
      match (h.boot readable).runner with
      | some _ => { l with buffered := l.filed }
      | none => l
  | .crash => l
  | .run e =>
      match h.runner with
      | some r => l.follow env r e
      | none => l

end Ledger

/-! ### The invariant -/

/-- A batch is out. -/
def ReportPhase.hasBatch : ReportPhase → Bool
  | persisting _ _ | reporting _ _ _ => true
  | _ => false

/-- On the disk: the ledger matches the file, and every reported byte is
acknowledged or in it. -/
structure OnDisk (l : Ledger) (fileBytes : Nat) (user : UInt32) (dir : Direction) : Prop where
  card_filed : (l.filed user dir).card = fileBytes
  filed_minted : l.filed user dir ⊆ Finset.range (l.minted user dir)
  card_acked : (l.acked user dir).card ≤ l.ackedBytes user dir
  safe : l.handed user dir ⊆ l.acked user dir ∪ l.filed user dir

/-- In memory: the same for the buffer, for the clone of a running save, and
for the batch that is out. -/
structure InMemory (l : Ledger) (r : NodeRunner) (user : UInt32) (dir : Direction) : Prop where
  card_buffered : (l.buffered user dir).card = r.trafficBuffer.bytes user dir
  buffered_minted : l.buffered user dir ⊆ Finset.range (l.minted user dir)
  safe : l.handed user dir ⊆ l.acked user dir ∪ l.buffered user dir
  copy : ∀ saver copy, r.io = some (saver, copy) →
    (l.copied user dir).card = copy.bytes user dir ∧
    l.copied user dir ⊆ Finset.range (l.minted user dir) ∧
    l.handed user dir ⊆ l.acked user dir ∪ l.copied user dir
  batch : r.phase.hasBatch = true →
    l.batched user dir ⊆ l.buffered user dir ∧
    (l.batched user dir).card = itemBytes r.phase.items user dir
  own : ∀ copy, r.io = some (.report, copy) → r.phase.awaitsSave = true ∧
    (r.phase.hasBatch = true → l.batched user dir ⊆ l.copied user dir)

/-- No callback overflows a counter. -/
def NoOverflow (h : Host env) : Event → Prop
  | .run (.onTraffic userId up down) =>
      ∀ r, h.runner = some r → ∀ dir,
        r.trafficBuffer.bytes userId dir + (Direction.pick dir (up, down)).toNat < 2 ^ 64
  | _ => True

/-! ### What each operation of the ledger keeps -/

section Operations

variable {l : Ledger} {r : NodeRunner} {fileBytes : Nat} {user : UInt32} {dir : Direction}

/-- Minting leaves the disk alone. -/
theorem OnDisk.mint (h : OnDisk l fileBytes user dir) (n : UInt32 → Direction → Nat) :
    OnDisk (l.mint n) fileBytes user dir where
  card_filed := h.card_filed
  filed_minted := h.filed_minted.trans (Finset.range_subset_range.mpr (Nat.le_add_right _ _))
  card_acked := h.card_acked
  safe := h.safe

theorem InMemory.mint (h : InMemory l r user dir) {n : UInt32 → Direction → Nat}
    {buf : TrafficBuffer}
    (hbuf : buf.bytes user dir = r.trafficBuffer.bytes user dir + n user dir) :
    InMemory (l.mint n) { r with trafficBuffer := buf } user dir where
  card_buffered := by
    -- the minted bytes are new
    have hdisj : Disjoint (l.buffered user dir)
        (Finset.Ico (l.minted user dir) (l.minted user dir + n user dir)) := by
      rw [Finset.disjoint_left]
      intro x hx hx'
      have hlt := Finset.mem_range.mp (h.buffered_minted hx)
      have hge := (Finset.mem_Ico.mp hx').1
      omega
    show (l.buffered user dir ∪ Finset.Ico _ _).card = _
    rw [Finset.card_union_of_disjoint hdisj, h.card_buffered, Nat.card_Ico, hbuf]
    omega
  buffered_minted := by
    apply Finset.union_subset
    · exact h.buffered_minted.trans (Finset.range_subset_range.mpr (Nat.le_add_right _ _))
    · intro x hx
      exact Finset.mem_range.mpr (Finset.mem_Ico.mp hx).2
  safe := h.safe.trans (Finset.union_subset_union_right Finset.subset_union_left)
  copy saver copy hio := by
    obtain ⟨hcard, hminted, hsafe⟩ := h.copy saver copy hio
    exact ⟨hcard, hminted.trans (Finset.range_subset_range.mpr (Nat.le_add_right _ _)), hsafe⟩
  batch hphase := by
    obtain ⟨hsub, hcard⟩ := h.batch hphase
    exact ⟨hsub.trans Finset.subset_union_left, hcard⟩
  own := h.own

/-- A report's own save runs only while the report waits for it. -/
theorem InMemory.no_own_save (h : InMemory l r user dir) (hphase : r.phase.awaitsSave = false)
    {copy : TrafficBuffer} (hio : r.io = some (.report, copy)) : False := by
  have hwaits := (h.own copy hio).1
  rw [hphase] at hwaits
  cases hwaits

/-- The batch of a snapshot consists of all bytes of its users. -/
theorem card_takeBatch (hcard : (l.buffered user dir).card = r.trafficBuffer.bytes user dir)
    (force : Bool) (min : UInt64) :
    ((l.takeBatch (r.trafficBuffer.batch force min)).batched user dir).card
      = itemBytes (r.trafficBuffer.batch force min) user dir := by
  by_cases h : ∃ item ∈ r.trafficBuffer.batch force min, item.userId = user
  · obtain ⟨item, hmem, rfl⟩ := h
    have hany : ((r.trafficBuffer.batch force min).any fun i => i.userId = item.userId) = true :=
      List.any_eq_true.mpr ⟨item, hmem, by simp⟩
    rw [itemBytes_eq_of_mem (TrafficBuffer.nodup_batch _ _ _) hmem,
      TrafficBuffer.item_bytes_of_mem_batch hmem, ← hcard]
    simp only [Ledger.takeBatch, hany, if_true]
  · have hany : ((r.trafficBuffer.batch force min).any fun i => i.userId = user) = false := by
      rw [List.any_eq_false]
      intro item hmem heq
      exact h ⟨item, hmem, by simpa using heq⟩
    rw [itemBytes_eq_zero fun item hmem heq => h ⟨item, hmem, heq⟩]
    simp only [Ledger.takeBatch, hany, Bool.false_eq_true, if_false, Finset.card_empty]

theorem InMemory.snapshot (h : InMemory l r user dir) (hidle : r.phase = .idle) (force : Bool) :
    InMemory (l.takeBatch (r.trafficBuffer.batch force env.minTrafficBytes))
      (r.snapshot env force) user dir where
  card_buffered := h.card_buffered
  buffered_minted := h.buffered_minted
  safe := h.safe
  copy := h.copy
  batch _ := by
    refine ⟨?_, ?_⟩
    · show (if _ then l.buffered user dir else ∅) ⊆ l.buffered user dir
      split
      · exact Finset.Subset.refl _
      · exact Finset.empty_subset _
    · rw [NodeRunner.items_snapshot]
      exact card_takeBatch h.card_buffered force env.minTrafficBytes
  own copy hio := (h.no_own_save (by rw [hidle]; rfl) hio).elim

theorem InMemory.saveBegin (h : InMemory l r user dir) {saver : Saver}
    (hsaver : saver = .report → r.phase.awaitsSave = true) :
    InMemory { l with copied := l.buffered }
      { r with io := some (saver, r.trafficBuffer) } user dir where
  card_buffered := h.card_buffered
  buffered_minted := h.buffered_minted
  safe := h.safe
  copy saver' copy hio := by
    simp only [Option.some.injEq, Prod.mk.injEq] at hio
    obtain ⟨-, rfl⟩ := hio
    exact ⟨h.card_buffered, h.buffered_minted, h.safe⟩
  batch := h.batch
  own copy hio := by
    simp only [Option.some.injEq, Prod.mk.injEq] at hio
    obtain ⟨rfl, -⟩ := hio
    exact ⟨hsaver rfl, fun hphase => (h.batch hphase).1⟩

/-- A phase without a batch and without a running save asks nothing more. -/
theorem InMemory.rest (h : InMemory l r user dir) {r' : NodeRunner}
    (hbuf : r'.trafficBuffer = r.trafficBuffer) (hio : r'.io = none)
    (hphase : r'.phase.hasBatch = true →
      r.phase.hasBatch = true ∧ r'.phase.items = r.phase.items) :
    InMemory l r' user dir where
  card_buffered := by
    rw [hbuf]
    exact h.card_buffered
  buffered_minted := h.buffered_minted
  safe := h.safe
  copy saver copy hsome := by
    rw [hio] at hsome
    cases hsome
  batch hb := by
    obtain ⟨hold, hitems⟩ := hphase hb
    rw [hitems]
    exact h.batch hold
  own copy hsome := by
    rw [hio] at hsome
    cases hsome

theorem InMemory.rename (h : InMemory l r user dir) : InMemory l.rename r user dir :=
  ⟨h.card_buffered, h.buffered_minted, h.safe, h.copy, h.batch, h.own⟩

theorem InMemory.handOver (h : InMemory l r user dir) (hio : r.io = none)
    (hphase : r.phase.hasBatch = true) : InMemory l.handOver r user dir where
  card_buffered := h.card_buffered
  buffered_minted := h.buffered_minted
  safe := Finset.union_subset h.safe
    ((h.batch hphase).1.trans Finset.subset_union_right)
  copy saver copy hsome := by
    rw [hio] at hsome
    cases hsome
  batch := h.batch
  own copy hsome := by
    rw [hio] at hsome
    cases hsome

theorem InMemory.acknowledge (h : InMemory l r user dir) {items : List TrafficItem}
    {active : AssocMap UInt32 UInt64} {call : Sending ReportResult}
    (hphase : r.phase = .reporting items active call) :
    InMemory (l.acknowledge items)
      { r with
        trafficBuffer := r.trafficBuffer.acknowledge items
        phase := .flushing active } user dir where
  card_buffered := by
    obtain ⟨hsub, hcard⟩ := h.batch (by rw [hphase]; rfl)
    simp only [hphase, ReportPhase.items] at hcard
    have hheld : itemBytes items user dir ≤ r.trafficBuffer.bytes user dir := by
      rw [← hcard, ← h.card_buffered]
      exact Finset.card_le_card hsub
    show (l.buffered user dir \ l.batched user dir).card = _
    rw [TrafficBuffer.bytes_acknowledge hheld, Finset.card_sdiff_of_subset hsub, hcard,
      h.card_buffered]
  buffered_minted := Finset.sdiff_subset.trans h.buffered_minted
  safe := by
    -- a byte of the batch moves from the buffer to the acknowledged ones
    intro x hx
    show x ∈ (l.acked user dir ∪ l.batched user dir)
      ∪ (l.buffered user dir \ l.batched user dir)
    have := h.safe hx
    simp only [Finset.mem_union, Finset.mem_sdiff] at this ⊢
    tauto
  copy saver copy hsome := by
    obtain ⟨hcard, hminted, hsafe⟩ := h.copy saver copy hsome
    exact ⟨hcard, hminted, hsafe.trans (Finset.union_subset_union_left Finset.subset_union_left)⟩
  batch hb := by cases hb
  own copy hsome := (h.no_own_save (by rw [hphase]; rfl) hsome).elim

theorem OnDisk.acknowledge (h : OnDisk l fileBytes user dir) {items : List TrafficItem}
    (hcard : (l.batched user dir).card = itemBytes items user dir) :
    OnDisk (l.acknowledge items) fileBytes user dir where
  card_filed := h.card_filed
  filed_minted := h.filed_minted
  card_acked := by
    show (l.acked user dir ∪ l.batched user dir).card
      ≤ l.ackedBytes user dir + itemBytes items user dir
    have hunion := Finset.card_union_le (l.acked user dir) (l.batched user dir)
    have hacked := h.card_acked
    omega
  safe := h.safe.trans (Finset.union_subset_union_left Finset.subset_union_left)

theorem OnDisk.rename (h : OnDisk l fileBytes user dir) (hmem : InMemory l r user dir)
    {saver : Saver} {copy : TrafficBuffer} (hio : r.io = some (saver, copy)) :
    OnDisk l.rename (copy.bytes user dir) user dir := by
  obtain ⟨hcard, hminted, hsafe⟩ := hmem.copy saver copy hio
  exact ⟨hcard, hminted, h.card_acked, hsafe⟩

theorem OnDisk.handOver (h : OnDisk l fileBytes user dir)
    (hsub : l.batched user dir ⊆ l.filed user dir) : OnDisk l.handOver fileBytes user dir where
  card_filed := h.card_filed
  filed_minted := h.filed_minted
  card_acked := h.card_acked
  safe := Finset.union_subset h.safe (hsub.trans Finset.subset_union_right)

end Operations

/-! ### One step -/

theorem fileBytes_some (copy : TrafficBuffer) (runner : Option NodeRunner) (user : UInt32)
    (dir : Direction) :
    (⟨some (env.json.toVec copy), runner⟩ : Host env).fileBytes user dir
      = copy.bytes user dir := by
  obtain ⟨buf, hread, hget⟩ := env.json.fromSlice_toVec copy
  simp only [Host.fileBytes, restorePending, hread, TrafficBuffer.bytes, TrafficBuffer.cell, hget]

/-- The ledger matches the host for a user and direction. -/
structure Tallied (c : Host env × Ledger) (user : UInt32) (dir : Direction) : Prop where
  disk : OnDisk c.2 (c.1.fileBytes user dir) user dir
  memory : ∀ r, c.1.runner = some r → InMemory c.2 r user dir

section Step

variable {disk : Option env.json.Bytes} {l : Ledger} {r r' : NodeRunner} {user : UInt32}
  {dir : Direction}

/-- The end of a save: the disk may be renamed, and then a report may go out. -/
theorem saveEnd_tallied {outcome : SaveOutcome} (h : Tallied (⟨disk, some r⟩, l) user dir)
    (hadv : r.advance env (.saveEnd outcome) = some r') :
    Tallied ((⟨Host.diskAfter disk r (.saveEnd outcome), some r'⟩ : Host env),
      l.follow env r (.saveEnd outcome)) user dir := by
  have hmem := h.memory r rfl
  obtain ⟨saver, copy, hio⟩ : ∃ saver copy, r.io = some (saver, copy) := by
    rcases NodeRunner.advance_saveEnd hadv with ⟨copy, hio, -⟩ | ⟨copy, hio, -⟩
    exacts [⟨_, copy, hio⟩, ⟨_, copy, hio⟩]
  -- the ledger and the disk after the rename, before any hand-over
  have hrenamed : OnDisk (if outcome.renamed then l.rename else l)
      ((⟨Host.diskAfter disk r (.saveEnd outcome), some r'⟩ : Host env).fileBytes user dir)
      user dir := by
    by_cases hren : outcome.renamed = true
    · simp only [Host.diskAfter, hio, hren, if_true, fileBytes_some]
      exact h.disk.rename hmem hio
    · simp only [Host.diskAfter, hio, hren]
      exact h.disk
  have hkept : ∀ {q : NodeRunner}, InMemory l q user dir →
      InMemory (if outcome.renamed then l.rename else l) q user dir := by
    intro q hq
    split
    · exact hq.rename
    · exact hq
  rcases NodeRunner.advance_saveEnd hadv with ⟨copy', hio', rfl⟩ | ⟨copy', hio', rfl⟩
  · cases hphase : r.phase with
    | persisting items active =>
        cases outcome with
        | ok =>
            -- the batch is in the file before it is handed over
            have hown := (hmem.own copy' hio').2 (by rw [hphase]; rfl)
            have hrest : InMemory l.rename
                { r with
                  phase := .reporting items active (env.reportTraffic items).begin
                  io := none } user dir :=
              hmem.rename.rest rfl rfl fun _ => ⟨by rw [hphase]; rfl, by rw [hphase]; rfl⟩
            simp only [Ledger.follow, hio', hphase, SaveOutcome.renamed, if_true]
            refine ⟨hrenamed.handOver hown, ?_⟩
            intro q hq
            obtain rfl := Option.some.inj hq
            simp only [NodeRunner.afterSave]
            exact hrest.handOver rfl rfl
        | failed | syncFailed =>
            simp only [Ledger.follow, hio', hphase]
            refine ⟨hrenamed, ?_⟩
            intro q hq
            obtain rfl := Option.some.inj hq
            exact hkept (hmem.rest rfl rfl fun hb => by cases hb)
    | flushing active =>
        simp only [Ledger.follow, hio', hphase]
        refine ⟨hrenamed, ?_⟩
        intro q hq
        obtain rfl := Option.some.inj hq
        exact hkept (hmem.rest rfl rfl fun hb => by cases hb)
    | idle | reporting _ _ _ | closing _ =>
        exact (hmem.no_own_save (by rw [hphase]; rfl) hio').elim
  · simp only [Ledger.follow, hio']
    refine ⟨hrenamed, ?_⟩
    intro q hq
    obtain rfl := Option.some.inj hq
    exact hkept (hmem.rest rfl rfl fun hb => ⟨hb, rfl⟩)

/-- **One step of the runner keeps the ledger matched.** -/
theorem advance_tallied {e : RunnerEvent} (h : Tallied (⟨disk, some r⟩, l) user dir)
    (hfit : NoOverflow (⟨disk, some r⟩ : Host env) (.run e))
    (hadv : r.advance env e = some r') :
    Tallied ((⟨Host.diskAfter disk r e, some r'⟩ : Host env), l.follow env r e) user dir := by
  have hmem := h.memory r rfl
  -- every event but the end of a save leaves the file alone
  have keep : ∀ {l' : Ledger} {q : NodeRunner}, OnDisk l' ((⟨disk, some r⟩ : Host env).fileBytes
      user dir) user dir → InMemory l' q user dir →
      Tallied ((⟨disk, some q⟩ : Host env), l') user dir := by
    intro l' q hdisk hq
    refine ⟨hdisk, ?_⟩
    intro q' hq'
    obtain rfl := Option.some.inj hq'
    exact hq
  cases e with
  | onTraffic userId up down =>
      obtain rfl := Option.some.inj hadv
      refine keep (h.disk.mint _) (hmem.mint ?_)
      apply TrafficBuffer.bytes_onTraffic
      intro hu
      rw [hu]
      exact hfit r rfl dir
  | snapshot force =>
      obtain ⟨hidle, rfl⟩ := NodeRunner.advance_snapshot hadv
      exact keep ⟨h.disk.card_filed, h.disk.filed_minted, h.disk.card_acked, h.disk.safe⟩
        (hmem.snapshot hidle force)
  | saveBegin saver =>
      obtain ⟨-, hsaver, rfl⟩ := NodeRunner.advance_saveBegin hadv
      exact keep ⟨h.disk.card_filed, h.disk.filed_minted, h.disk.card_acked, h.disk.safe⟩
        (hmem.saveBegin hsaver)
  | saveEnd outcome => exact saveEnd_tallied h hadv
  | answer a =>
      obtain ⟨items, active, req, left, k, hphase, rfl⟩ := NodeRunner.advance_answer hadv
      refine keep h.disk ⟨hmem.card_buffered, hmem.buffered_minted, hmem.safe, hmem.copy, ?_, ?_⟩
      · intro _
        have hbatch := hmem.batch (by rw [hphase]; rfl)
        rw [hphase] at hbatch
        exact hbatch
      · intro copy hio
        exact (hmem.no_own_save (by rw [hphase]; rfl) hio).elim
  | resume =>
      rcases NodeRunner.advance_resume hadv with
        ⟨items, active, hphase, rfl⟩ | ⟨items, active, err, hphase, rfl⟩
      · have hcard := (hmem.batch (by rw [hphase]; rfl)).2
        simp only [hphase, ReportPhase.items] at hcard
        simp only [Ledger.follow, hphase]
        exact keep (h.disk.acknowledge hcard) (hmem.acknowledge hphase)
      · simp only [Ledger.follow, hphase]
        refine keep h.disk
          ⟨hmem.card_buffered, hmem.buffered_minted, hmem.safe, hmem.copy, ?_, ?_⟩
        · intro hb
          cases hb
        · intro copy hio
          exact (hmem.no_own_save (by rw [hphase]; rfl) hio).elim
  | close =>
      obtain ⟨⟨active, hphase⟩, rfl⟩ := NodeRunner.advance_close hadv
      refine keep h.disk ⟨hmem.card_buffered, hmem.buffered_minted, hmem.safe, hmem.copy, ?_, ?_⟩
      · intro hb
        cases hb
      · intro copy hio
        exact (hmem.no_own_save (by rw [hphase]; rfl) hio).elim
  | cancel =>
      obtain rfl := NodeRunner.advance_cancel hadv
      -- a save that was under way goes on as a detached one, with the same clone
      refine keep h.disk ⟨hmem.card_buffered, hmem.buffered_minted, hmem.safe, ?_, ?_, ?_⟩
      · intro saver copy hio
        obtain ⟨⟨saver', copy'⟩, hold, heq⟩ := Option.map_eq_some_iff.mp hio
        obtain ⟨-, rfl⟩ := Prod.mk.injEq .. ▸ heq
        exact hmem.copy saver' copy' hold
      · intro hb
        cases hb
      · intro copy hio
        obtain ⟨⟨saver', copy'⟩, -, heq⟩ := Option.map_eq_some_iff.mp hio
        cases heq

end Step

theorem tallied_step {user : UInt32} {dir : Direction} {c c' : Host env × Ledger} {e : Event}
    (h : Tallied c user dir) (hfit : NoOverflow c.1 e)
    (hs : Run.track Host.step Ledger.post c e = some c') : Tallied c' user dir := by
  obtain ⟨host, l⟩ := c
  obtain ⟨host', l'⟩ := c'
  obtain ⟨hstep, rfl⟩ := Run.track_eq_some.mp hs
  rcases Host.step_cases hstep with
    ⟨readable, rfl, hdown, rfl⟩ | ⟨r, rfl, hup, rfl⟩ | ⟨ev, r, r', rfl, hup, hadv, rfl⟩
  · -- a start reads the buffer back from the file
    dsimp only at hdown
    have hdisk : (host.boot readable).disk = host.disk := by
      cases readable <;> rfl
    have hbytes : (host.boot readable).fileBytes user dir = host.fileBytes user dir := by
      simp only [Host.fileBytes, hdisk]
    rcases hr : (host.boot readable).runner with - | r
    · simp only [Ledger.post, hr]
      refine ⟨by rw [hbytes]; exact h.disk, ?_⟩
      intro q hq
      rw [hr] at hq
      cases hq
    · obtain ⟨buf, hread, rfl⟩ := Host.boot_runner_eq_some hdown hr
      have hcard : (l.filed user dir).card = buf.bytes user dir := by
        have := h.disk.card_filed
        simpa only [Host.fileBytes, hread] using this
      simp only [Ledger.post, hr]
      refine ⟨?_, ?_⟩
      · rw [hbytes]
        exact ⟨h.disk.card_filed, h.disk.filed_minted, h.disk.card_acked, h.disk.safe⟩
      · intro q hq
        rw [hr] at hq
        obtain rfl := Option.some.inj hq
        refine ⟨hcard, h.disk.filed_minted, h.disk.safe, ?_, ?_, ?_⟩
        · intro _ _ hio
          cases hio
        · intro hb
          cases hb
        · intro _ hio
          cases hio
  · refine ⟨h.disk, ?_⟩
    intro q hq
    cases hq
  · obtain ⟨disk, runner⟩ := host
    dsimp only at hup
    subst hup
    exact advance_tallied h hfit hadv

/-! ### Durability over whole runs -/

theorem tallied_opening {h : Host env} (hdown : h.runner = none) (user : UInt32)
    (dir : Direction) : Tallied (h, Ledger.opening h) user dir where
  disk := by
    refine ⟨Finset.card_range _, Finset.Subset.refl _, Nat.zero_le _, Finset.empty_subset _⟩
  memory r hr := by
    simp [hdown] at hr

/-- **Crash durability of reported traffic.**  In every run of callbacks,
reports, crashes and restarts in which no callback overflows a counter, in
every state reached: per user and direction, the bytes of the acknowledged
batches and those in the file are at least as many as the different bytes
that were ever in a batch handed to `report_traffic`. -/
theorem reported_traffic_durable (env : ReportEnv) {h h' : Host env} {es : List Event}
    {l' : Ledger} (hdown : h.runner = none)
    (hfit : Run.Along (Run.track Host.step Ledger.post) (fun c e => NoOverflow c.1 e)
      (h, Ledger.opening h) es)
    (hrun : Run.exec (Run.track Host.step Ledger.post) (h, Ledger.opening h) es
      = some (h', l'))
    (user : UInt32) (dir : Direction) :
    (l'.handed user dir).card ≤ l'.ackedBytes user dir + h'.fileBytes user dir := by
  have htally : Tallied (h', l') user dir :=
    Run.exec_invariant tallied_step hrun hfit (tallied_opening hdown user dir)
  have hdisk := htally.disk
  calc (l'.handed user dir).card
      ≤ (l'.acked user dir ∪ l'.filed user dir).card := Finset.card_le_card hdisk.safe
    _ ≤ (l'.acked user dir).card + (l'.filed user dir).card := Finset.card_union_le _ _
    _ ≤ l'.ackedBytes user dir + h'.fileBytes user dir := by
        rw [hdisk.card_filed]
        exact Nat.add_le_add_right hdisk.card_acked _

/-- A node with a plain store whose panel may refuse. -/
def durableEnv : ReportEnv :=
  .ofClient .plain (.sspanel ⟨"http://127.0.0.1:1", "fixture"⟩) 1 0

/-- Before the first start: no file, no process. -/
def durableHost : Host durableEnv := ⟨none, none⟩

/-- A crash between the acknowledgement and the save after it. -/
def crashRun : List Event :=
  [.start true, .run (.onTraffic 42 100 500), .run (.snapshot false), .run (.saveBegin .report),
    .run (.saveEnd .ok), .run (.answer (.response .ok none none)), .run .resume, .crash]

theorem reported_traffic_durable_crash :
    ∃ (h' : Host durableEnv) (l' : Ledger),
      Run.exec (Run.track Host.step Ledger.post)
        (durableHost, Ledger.opening durableHost) crashRun = some (h', l') ∧
      (l'.handed 42 .up).card = 100 ∧ l'.ackedBytes 42 .up = 100 ∧ h'.fileBytes 42 .up = 100 ∧
      (l'.handed 42 .up).card ≤ l'.ackedBytes 42 .up + h'.fileBytes 42 .up := by
  refine ⟨_, _, rfl, rfl, rfl, rfl, ?_⟩
  refine @reported_traffic_durable durableEnv durableHost _ crashRun _ rfl ?_ rfl 42 .up
  refine Run.along_cons trivial rfl (Run.along_cons ?_ rfl ?_)
  · intro r hr dir
    obtain rfl := Option.some.inj hr
    cases dir <;> decide
  · exact Run.along_cons trivial rfl (Run.along_cons trivial rfl (Run.along_cons trivial rfl
      (Run.along_cons trivial rfl (Run.along_cons trivial rfl (Run.along_cons trivial rfl
        trivial)))))

/-! ### Overflow loses reported bytes -/

/-- The pending file of a node whose panel has not answered for very long. -/
def fullHost : Host durableEnv := ⟨some ((∅ : TrafficBuffer).insert 42 (0xFFFFFFFFFFFFFE0C, 0)), none⟩

/-- The restored bytes are reported and refused; a callback then overflows the counter,
the last save writes the wrapped value, and the process dies. -/
def overflowRun : List Event :=
  [.start true, .run (.snapshot true), .run (.saveBegin .report), .run (.saveEnd .ok),
    .run (.answer .error), .run .resume, .run (.onTraffic 42 500 0), .run (.saveBegin .report),
    .run (.saveEnd .ok), .crash]

theorem lost_after_overflow :
    ∃ (h' : Host durableEnv) (l' : Ledger),
      Run.exec (Run.track Host.step Ledger.post)
        (fullHost, Ledger.opening fullHost) overflowRun = some (h', l') ∧
      ¬ (l'.handed 42 .up).card ≤ l'.ackedBytes 42 .up + h'.fileBytes 42 .up := by
  refine ⟨_, _, rfl, ?_⟩
  intro hle
  -- the first byte of the file was handed over
  have hfirst : 0 ∈ Finset.range (fullHost.fileBytes 42 .up) := Finset.mem_range.mpr (by decide)
  have hpos := Finset.card_pos.mpr ⟨0, Finset.mem_union_right ∅ hfirst⟩
  exact absurd (hpos.trans_le hle) (Nat.lt_irrefl 0)

end Elise
