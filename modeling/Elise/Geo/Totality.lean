/-
Elise/Geo/Totality.lean

Whether the geo files are read to their end, whatever they hold (src/geo/dat.rs).

`EachLoop` says something of every loop that loading a file and reading its entries goes
through.  All of them are sound, and every call ends, exactly when no length wraps in a
round that is reached (`total_iff`).  A length near 2^64 does wrap: then a slice breaks,
or the reader goes back and the loop does not end.
-/
import Elise.Geo.Dat

namespace Elise

namespace Geo

open Checked ProtoReader

/-! ### What is said of the loops -/

/-- Every operation is good, and each round that another one follows goes forward. -/
def Loop.Sound {σ : Type} (l : Loop σ) (buf : List UInt8) (acc : σ) : Prop :=
  l.All Good buf acc ∧ ∀ s s', l.Reach buf acc s → l.Step s s' → s.1.pos < s'.1.pos

/-- No length wraps. -/
def Loop.Quiet {σ : Type} (l : Loop σ) (buf : List UInt8) (acc : σ) : Prop :=
  l.All (fun op r => ¬ ProtoReader.Wraps op r) buf acc

theorem Loop.sound_iff_quiet {σ : Type} {l : Loop σ} {buf : List UInt8} {acc : σ} :
    l.Sound buf acc ↔ l.Quiet buf acc := by
  constructor
  · intro h
    exact all_good_iff.mp h.1
  · intro h
    have hgood := all_good_iff.mpr h
    exact ⟨hgood, fun s s' hs hstep => hgood.forward hs hstep⟩

/-- What is said of the bytes that a loop hands to another. -/
def Loop.Hands {σ : Type} (l : Loop σ) (buf : List UInt8) (acc : σ)
    (Q : σ → List UInt8 → ProtoReader → Prop) : Prop :=
  ∀ s, l.Reach buf acc s → s.1.isEof = false → ∀ payload r,
    next l.want s.1 = some (some (.bytes (some payload)), r) → Q s.2 payload r

theorem Loop.Hands.congr {σ : Type} {l : Loop σ} {buf : List UInt8} {acc : σ}
    {Q Q' : σ → List UInt8 → ProtoReader → Prop} (h : ∀ acc payload r, Q acc payload r ↔ Q' acc payload r) :
    l.Hands buf acc Q ↔ l.Hands buf acc Q' := by
  constructor
  · intro hQ s hs heof payload r hnext
    exact (h _ _ _).mp (hQ s hs heof payload r hnext)
  · intro hQ s hs heof payload r hnext
    exact (h _ _ _).mpr (hQ s hs heof payload r hnext)

section

variable (C : {σ : Type} → Loop σ → List UInt8 → σ → Prop)

/-- The loops of `load_from_file`. -/
def LoadLoops (key : List Char → List Char) (data : List UInt8) : Prop :=
  C (entryLoop key) data ∅ ∧ (entryLoop key).Hands data ∅ fun index entry r =>
    C (nameLoop key (r.pos - entry.length, entry.length)) entry index

/-- The loops of `load_country`. -/
def CountryLoops (outside : Outside) (entry : List UInt8) : Prop :=
  C (countryLoop outside) entry ⟨[], []⟩ ∧
    (countryLoop outside).Hands entry ⟨[], []⟩ fun _ cidr _ => C cidrLoop cidr (none, 0)

/-- The loops of `load_group`. -/
def GroupLoops (env : Matching) (entry : List UInt8) : Prop :=
  C (groupLoop env) entry ⟨[], [], [], []⟩ ∧
    (groupLoop env).Hands entry ⟨[], [], [], []⟩ fun _ domain _ => C (domainLoop env) domain (0, [])

/-- All loops that a file goes through, in either of its kinds. -/
structure EachLoop (outside : Outside) (env : Matching) (data : List UInt8) : Prop where
  geoip : LoadLoops C env.upper data
  country : ∀ file, GeoIpFile.loadFromFile env data = some file → ∀ countryCode entry,
    file.entry (env.upper (Text.trim countryCode)) = some (some entry) → CountryLoops C outside entry
  geosite : LoadLoops C env.lower data
  group : ∀ file, GeoSiteFile.loadFromFile env data = some file → ∀ tag entry,
    file.entry (env.lower (Text.trim tag)) = some (some entry) → GroupLoops C env entry

end

/-- Every call returns. -/
structure Ends (outside : Outside) (env : Matching) (data : List UInt8) : Prop where
  geoip : ∃ file, GeoIpFile.loadFromFile env data = some file ∧
    ∀ countryCode, ∃ result, loadCountry outside env file countryCode = some result
  geosite : ∃ file, GeoSiteFile.loadFromFile env data = some file ∧
    ∀ tag, ∃ result, loadGroup outside env file tag = some result

/-! ### The places of the entries -/

/-- Bytes that were read end where the reader stands. -/
theorem le_of_next_bytes {want : UInt32 → UInt8 → Want} {r r' : ProtoReader} {payload : List UInt8}
    (h : next want r = some (some (.bytes (some payload)), r')) : payload.length ≤ r'.pos := by
  rw [next] at h
  obtain ⟨⟨t, r₁⟩, -, h⟩ := Option.bind_eq_some_iff.mp h
  cases t with
  | none => cases h
  | some t =>
      obtain ⟨tag, wire⟩ := t
      dsimp only at h
      cases hwant : want tag wire with
      | bytes =>
          rw [hwant] at h
          obtain ⟨⟨b, r₂⟩, hread, heq⟩ := Option.map_eq_some_iff.mp h
          cases heq
          rw [readBytes] at hread
          obtain ⟨⟨v, r₃⟩, -, hread⟩ := Option.bind_eq_some_iff.mp hread
          cases v with
          | none => cases hread
          | some len =>
              dsimp only at hread
              split at hread
              · cases hread
              · obtain ⟨field, hfield, heq⟩ := Option.map_eq_some_iff.mp hread
                cases heq
                rw [length_of_slice hfield]
                exact Nat.sub_le _ _
      | varint =>
          rw [hwant] at h
          obtain ⟨⟨b, r₂⟩, -, heq⟩ := Option.map_eq_some_iff.mp h
          cases heq
      | skip =>
          rw [hwant] at h
          obtain ⟨⟨b, r₂⟩, -, heq⟩ := Option.map_eq_some_iff.mp h
          cases heq

/-- What every handled field keeps, the result has. -/
theorem Loop.scan_invariant {σ : Type} {l : Loop σ} {buf : List UInt8} {acc acc' : σ} {I : σ → Prop}
    (hacc : I acc)
    (hstep : ∀ s, l.Reach buf acc s → I s.2 → ∀ field r acc' goes,
      next l.want s.1 = some (some field, r) → l.handle s.2 field r = some (acc', goes) → I acc')
    (h : l.scan buf acc = some acc') : I acc' := by
  have hall : ∀ fuel (s : ProtoReader × σ), l.Reach buf acc s → I s.2 →
      l.run fuel s.1 s.2 = some acc' → I acc' := by
    intro fuel
    induction fuel with
    | zero => exact fun s _ _ h => (nomatch h)
    | succ fuel ih =>
        intro s hs hI h
        rw [run] at h
        cases heof : s.1.isEof with
        | true =>
            rw [heof] at h
            exact Option.some.inj h ▸ hI
        | false =>
            rw [heof, if_neg Bool.false_ne_true] at h
            obtain ⟨⟨found, r⟩, hnext, h⟩ := Option.bind_eq_some_iff.mp h
            cases found with
            | none => exact Option.some.inj h ▸ hI
            | some field =>
                obtain ⟨⟨acc₁, goes⟩, hhandle, h⟩ := Option.bind_eq_some_iff.mp h
                have hI' := hstep s hs hI field r acc₁ goes hnext hhandle
                cases goes with
                | false => exact Option.some.inj h ▸ hI'
                | true => exact ih (r, acc₁) (hs.tail ⟨heof, field, hnext, hhandle⟩) hI' h
  exact hall (buf.length + 1) (.new buf, acc) .refl hacc h

/-- Each place is within the data. -/
def Within (data : List UInt8) (index : Index) : Prop :=
  ∀ name place, index.get name = some place → place.1 + place.2 ≤ data.length

theorem Within.insert {data : List UInt8} {index : Index} (h : Within data index) {name : List Char}
    {place : Nat × Nat} (hplace : place.1 + place.2 ≤ data.length) :
    Within data (AssocMap.insert index name place) := by
  intro name' place' hget
  rcases AssocMap.get_insert_eq_some hget with ⟨-, rfl⟩ | ⟨-, hold⟩
  · exact hplace
  · exact h name' place' hold

theorem within_nameLoop {key : List Char → List Char} {data entry : List UInt8} {place : Nat × Nat}
    {index index' : Index} (hindex : Within data index) (hplace : place.1 + place.2 ≤ data.length)
    (h : (nameLoop key place).scan entry index = some index') : Within data index' := by
  refine Loop.scan_invariant hindex ?_ h
  intro s _ hI field r acc' goes _ hhandle
  cases field with
  | bytes b =>
      simp only [nameLoop] at hhandle
      split at hhandle
      · obtain ⟨rfl, -⟩ := Prod.mk.injEq .. ▸ Option.some.inj hhandle
        exact hI.insert hplace
      · obtain ⟨rfl, -⟩ := Prod.mk.injEq .. ▸ Option.some.inj hhandle
        exact hI
  | varint v =>
      obtain ⟨rfl, -⟩ := Prod.mk.injEq .. ▸ Option.some.inj hhandle
      exact hI
  | skipped =>
      obtain ⟨rfl, -⟩ := Prod.mk.injEq .. ▸ Option.some.inj hhandle
      exact hI

theorem within_loadFromFile {key : List Char → List Char} {data : List UInt8} {file : DatFile}
    (h : loadFromFile key data = some file) : file.data = data ∧ Within data file.index := by
  obtain ⟨index, hscan, rfl⟩ := Option.map_eq_some_iff.mp h
  have hempty : Within data ∅ := by
    intro name place hplace
    rw [AssocMap.get_empty] at hplace
    cases hplace
  refine ⟨rfl, Loop.scan_invariant hempty ?_ hscan⟩
  intro s hs hI field r acc' goes hnext hhandle
  cases field with
  | bytes b =>
      cases b with
      | none =>
          obtain ⟨rfl, -⟩ := Prod.mk.injEq .. ▸ Option.some.inj hhandle
          exact hI
      | some entry =>
          obtain ⟨index', hname, heq⟩ := Option.map_eq_some_iff.mp hhandle
          cases heq
          refine within_nameLoop hI ?_ hname
          have hle := le_of_next_bytes hnext
          obtain ⟨hbuf, hpos⟩ := within_of_next hnext hs.within.2
          rw [hbuf, hs.within.1] at hpos
          show r.pos - entry.length + entry.length ≤ data.length
          omega
  | varint v =>
      obtain ⟨rfl, -⟩ := Prod.mk.injEq .. ▸ Option.some.inj hhandle
      exact hI
  | skipped =>
      obtain ⟨rfl, -⟩ := Prod.mk.injEq .. ▸ Option.some.inj hhandle
      exact hI

/-- An entry is within the file. -/
theorem exists_entry {key : List Char → List Char} {data : List UInt8} {file : DatFile}
    (h : loadFromFile key data = some file) (name : List Char) :
    ∃ entry, file.entry name = some entry := by
  obtain ⟨rfl, hwithin⟩ := within_loadFromFile h
  rw [DatFile.entry]
  cases hplace : file.index.get name with
  | none => exact ⟨none, rfl⟩
  | some place =>
      obtain ⟨bytes, hbytes⟩ := safe_slice (Nat.le_add_right place.1 place.2) (hwithin name place hplace)
      dsimp only
      rw [hbytes]
      exact ⟨some bytes, rfl⟩

/-! ### The loops end -/

theorem exists_loadFromFile {key : List Char → List Char} {data : List UInt8}
    (h : LoadLoops Loop.Sound key data) : ∃ file, loadFromFile key data = some file := by
  have hscan : ∃ index, (entryLoop key).scan data ∅ = some index := by
    refine h.1.1.exists_scan ?_
    intro s hs heof field r hnext
    cases field with
    | bytes b =>
        cases b with
        | none => exact ⟨_, rfl⟩
        | some entry =>
            have hinner := (h.2 s hs heof entry r hnext).1
            obtain ⟨index, hname⟩ := hinner.exists_scan fun s _ _ field r _ => by
              cases field with
              | bytes b =>
                  simp only [nameLoop]
                  split <;> exact ⟨_, rfl⟩
              | varint v => exact ⟨_, rfl⟩
              | skipped => exact ⟨_, rfl⟩
            refine ⟨(index, true), ?_⟩
            show ((nameLoop key (r.pos - entry.length, entry.length)).scan entry s.2).map _ = _
            rw [hname]
            rfl
    | varint v => exact ⟨_, rfl⟩
    | skipped => exact ⟨_, rfl⟩
  obtain ⟨index, hindex⟩ := hscan
  exact ⟨_, by rw [loadFromFile, hindex]; rfl⟩

theorem exists_country {outside : Outside} {entry : List UInt8}
    (h : CountryLoops Loop.Sound outside entry) :
    ∃ list, (countryLoop outside).scan entry ⟨[], []⟩ = some list := by
  refine h.1.1.exists_scan ?_
  intro s hs heof field r hnext
  cases field with
  | bytes b =>
      cases b with
      | none => exact ⟨_, rfl⟩
      | some cidr =>
          obtain ⟨acc, hcidr⟩ := (h.2 s hs heof cidr r hnext).1.exists_scan fun s _ _ field r _ => by
            cases field <;> exact ⟨_, rfl⟩
          refine ⟨(s.2.pushCidr outside acc, true), ?_⟩
          show (cidrLoop.scan cidr (none, 0)).map _ = _
          rw [hcidr]
          rfl
  | varint v => exact ⟨_, rfl⟩
  | skipped => exact ⟨_, rfl⟩

theorem exists_group {env : Matching} {entry : List UInt8} (h : GroupLoops Loop.Sound env entry) :
    ∃ group, (groupLoop env).scan entry ⟨[], [], [], []⟩ = some group := by
  refine h.1.1.exists_scan ?_
  intro s hs heof field r hnext
  cases field with
  | bytes b =>
      cases b with
      | none => exact ⟨_, rfl⟩
      | some domain =>
          obtain ⟨acc, hdomain⟩ := (h.2 s hs heof domain r hnext).1.exists_scan fun s _ _ field r _ => by
            cases field with
            | bytes b =>
                simp only [domainLoop]
                split <;> exact ⟨_, rfl⟩
            | varint v => exact ⟨_, rfl⟩
            | skipped => exact ⟨_, rfl⟩
          refine ⟨(pushDomain s.2 acc, true), ?_⟩
          show ((domainLoop env).scan domain (0, [])).map _ = _
          rw [hdomain]
          rfl
  | varint v => exact ⟨_, rfl⟩
  | skipped => exact ⟨_, rfl⟩

/-- Sound loops end. -/
theorem EachLoop.ends {outside : Outside} {env : Matching} {data : List UInt8}
    (h : EachLoop Loop.Sound outside env data) : Ends outside env data := by
  constructor
  · obtain ⟨file, hfile⟩ := exists_loadFromFile h.geoip
    refine ⟨file, hfile, fun countryCode => ?_⟩
    obtain ⟨found, hentry⟩ := exists_entry hfile (env.upper (Text.trim countryCode))
    rw [loadCountry, hentry, Option.bind_some]
    cases found with
    | none => exact ⟨none, rfl⟩
    | some entry =>
        obtain ⟨list, hlist⟩ := exists_country (h.country file hfile countryCode entry hentry)
        dsimp only
        rw [hlist]
        exact ⟨_, rfl⟩
  · obtain ⟨file, hfile⟩ := exists_loadFromFile h.geosite
    refine ⟨file, hfile, fun tag => ?_⟩
    obtain ⟨found, hentry⟩ := exists_entry hfile (env.lower (Text.trim tag))
    rw [loadGroup, hentry, Option.bind_some]
    cases found with
    | none => exact ⟨none, rfl⟩
    | some entry =>
        obtain ⟨group, hgroup⟩ := exists_group (h.group file hfile tag entry hentry)
        dsimp only
        rw [hgroup]
        exact ⟨_, rfl⟩

/-- What is said of each loop may be said in other words. -/
theorem EachLoop.congr {C C' : {σ : Type} → Loop σ → List UInt8 → σ → Prop}
    (hC : ∀ {σ : Type} (l : Loop σ) (buf : List UInt8) (acc : σ), C l buf acc ↔ C' l buf acc)
    {outside : Outside} {env : Matching} {data : List UInt8} (h : EachLoop C outside env data) :
    EachLoop C' outside env data where
  geoip := ⟨(hC _ _ _).mp h.geoip.1, (Loop.Hands.congr fun _ _ _ => hC _ _ _).mp h.geoip.2⟩
  country file hfile countryCode entry hentry :=
    have hold := h.country file hfile countryCode entry hentry
    ⟨(hC _ _ _).mp hold.1, (Loop.Hands.congr fun _ _ _ => hC _ _ _).mp hold.2⟩
  geosite := ⟨(hC _ _ _).mp h.geosite.1, (Loop.Hands.congr fun _ _ _ => hC _ _ _).mp h.geosite.2⟩
  group file hfile tag entry hentry :=
    have hold := h.group file hfile tag entry hentry
    ⟨(hC _ _ _).mp hold.1, (Loop.Hands.congr fun _ _ _ => hC _ _ _).mp hold.2⟩

/-- **The geo files are read to their end, and never beyond it or back, exactly when no length
wraps in a round that is reached.** -/
theorem total_iff (outside : Outside) (env : Matching) (data : List UInt8) :
    EachLoop Loop.Sound outside env data ∧ Ends outside env data ↔
      EachLoop Loop.Quiet outside env data := by
  constructor
  · intro h
    exact h.1.congr fun _ _ _ => Loop.sound_iff_quiet
  · intro h
    have hsound := h.congr fun l buf acc => (Loop.sound_iff_quiet (l := l)).symm
    exact ⟨hsound, hsound.ends⟩

/-! ### A length near 2^64 -/

/-- A field 2 whose length goes back to its tag. -/
def backwardFile : List UInt8 := [0x12, 0xF5, 0xFF, 0xFF, 0xFF, 0xFF, 0xFF, 0xFF, 0xFF, 0xFF, 0x01]

/-- An entry whose length ends before its start. -/
def brokenFile : List UInt8 := [0x0A, 0xFF, 0xFF, 0xFF, 0xFF, 0xFF, 0xFF, 0xFF, 0xFF, 0xFF, 0x01]

/-- The first file is read round and round, in the second a slice breaks. -/
theorem long_lengths_not_total :
    (∀ (outside : Outside) (env : Matching),
        (entryLoop env.upper).Step (.new backwardFile, ∅) (.new backwardFile, ∅) ∧
          ¬ EachLoop Loop.Sound outside env backwardFile) ∧
      ∀ (outside : Outside) (env : Matching),
        GeoIpFile.loadFromFile env brokenFile = none ∧ ¬ Ends outside env brokenFile := by
  have hnext : next wantFirst (.new backwardFile) = some (some .skipped, .new backwardFile) := by
    rfl
  have hbroken : next wantFirst (.new brokenFile) = none := by
    rfl
  have hstep : ∀ env : Matching, (entryLoop env.upper).Step (.new backwardFile, ∅) (.new backwardFile, ∅) :=
    fun _ => ⟨rfl, .skipped, hnext, rfl⟩
  have hload : ∀ env : Matching, GeoIpFile.loadFromFile env brokenFile = none := by
    intro env
    have hscan : (entryLoop env.upper).scan brokenFile ∅ = none := by
      rw [Loop.scan, Loop.run, show (ProtoReader.new brokenFile).isEof = false from rfl,
        show (entryLoop env.upper).want = wantFirst from rfl, hbroken]
      rfl
    rw [GeoIpFile.loadFromFile, loadFromFile, hscan]
    rfl
  refine ⟨fun outside env => ⟨hstep env, fun h => ?_⟩, fun outside env => ⟨hload env, fun h => ?_⟩⟩
  · exact Nat.lt_irrefl _ (h.geoip.1.2 _ _ .refl (hstep env))
  · obtain ⟨file, hfile, -⟩ := h.geoip
    rw [hload env] at hfile
    cases hfile

end Geo

end Elise
