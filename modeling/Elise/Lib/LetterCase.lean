/-
Elise/Lib/LetterCase.lean

Texts that differ in the case of their ASCII letters only, and lists of rules that are written so.

A rule of a list hits or not.  Most rules hit in every spelling or in none; what is said here of the
others is that they hit in lower case at most (`Sensitive`).  Then the answer of the list depends on
the spelling unless another rule hits anyway, or none of them would hit in lower case
(`any_eq_of_settled`, `settled_of_any_eq`).
-/
import Elise.Lib.Ascii

namespace Text

/-! ### Characters -/

theorem forall_char {P : Char → Prop} (hascii : ∀ n < 128, P (Char.ofNat n))
    (hother : ∀ c, 128 ≤ c.toNat → P c) (c : Char) : P c := by
  by_cases h : c.toNat < 128
  · rw [← Char.ofNat_toNat c]
    exact hascii c.toNat h
  · exact hother c (by omega)

theorem toLower_of_le {c : Char} (h : 128 ≤ c.toNat) : c.toLower = c := by
  rw [Char.toLower, dif_neg]
  rintro ⟨-, hle⟩
  have hnat : c.toNat ≤ 90 := UInt32.le_iff_toNat_le.mp hle
  omega

theorem toUpper_of_le {c : Char} (h : 128 ≤ c.toNat) : c.toUpper = c := by
  rw [Char.toUpper, dif_neg]
  rintro ⟨-, hle⟩
  have hnat : c.toNat ≤ 122 := UInt32.le_iff_toNat_le.mp hle
  omega

theorem isAlpha_of_le {c : Char} (h : 128 ≤ c.toNat) : c.isAlpha = false := by
  rw [Char.isAlpha, Bool.or_eq_false_iff]
  constructor
  · apply decide_eq_false
    rintro ⟨-, hle⟩
    have hnat : c.toNat ≤ 90 := UInt32.le_iff_toNat_le.mp hle
    omega
  · rw [Char.isLower, Bool.and_eq_false_iff]
    apply Or.inr
    apply decide_eq_false
    intro hle
    have hnat : c.toNat ≤ 122 := UInt32.le_iff_toNat_le.mp hle
    omega

@[simp] theorem toLower_toLower (c : Char) : c.toLower.toLower = c.toLower := by
  apply forall_char (P := fun c => c.toLower.toLower = c.toLower) (by decide)
  intro c h
  rw [toLower_of_le h, toLower_of_le h]

@[simp] theorem toLower_toUpper (c : Char) : c.toUpper.toLower = c.toLower := by
  apply forall_char (P := fun c => c.toUpper.toLower = c.toLower) (by decide)
  intro c h
  rw [toUpper_of_le h]

@[simp] theorem toUpper_toUpper (c : Char) : c.toUpper.toUpper = c.toUpper := by
  apply forall_char (P := fun c => c.toUpper.toUpper = c.toUpper) (by decide)
  intro c h
  rw [toUpper_of_le h, toUpper_of_le h]

@[simp] theorem isAlpha_toLower (c : Char) : c.toLower.isAlpha = c.isAlpha := by
  apply forall_char (P := fun c => c.toLower.isAlpha = c.isAlpha) (by decide)
  intro c h
  rw [toLower_of_le h]

theorem toLower_of_isAlpha {c : Char} (h : c.isAlpha = false) : c.toLower = c := by
  revert h
  apply forall_char (P := fun c => c.isAlpha = false → c.toLower = c) (by decide)
  intro c h _
  exact toLower_of_le h

/-- A letter has a spelling that is not in lower case. -/
theorem toLower_toUpper_ne {c : Char} (h : c.isAlpha = true) : c.toUpper.toLower ≠ c.toUpper := by
  revert h
  apply forall_char (P := fun c => c.isAlpha = true → c.toUpper.toLower ≠ c.toUpper) (by decide)
  intro c h halpha
  rw [isAlpha_of_le h] at halpha
  cases halpha

theorem toUpper_ne {c : Char} (h : c.isLower = true) : c.toUpper ≠ c := by
  revert h
  apply forall_char (P := fun c => c.isLower = true → c.toUpper ≠ c) (by decide)
  intro c h hlower
  have halpha := isAlpha_of_le h
  rw [Char.isAlpha, hlower, Bool.or_true] at halpha
  cases halpha

theorem isWhitespace_of_isAlpha {c : Char} (h : c.isAlpha = true) : isWhitespace c = false := by
  revert h
  apply forall_char (P := fun c => c.isAlpha = true → isWhitespace c = false) (by decide)
  intro c h halpha
  rw [isAlpha_of_le h] at halpha
  cases halpha

/-! ### Spellings -/

/-- `f` changes the case of ASCII letters only. -/
def Recases (f : Char → Char) : Prop := ∀ c, (f c).toLower = c.toLower

theorem recases_toLower : Recases Char.toLower := toLower_toLower

theorem recases_toUpper : Recases Char.toUpper := toLower_toUpper

namespace Recases

variable {f : Char → Char} (hf : Recases f)

include hf

theorem isAlpha (c : Char) : (f c).isAlpha = c.isAlpha := by
  rw [← isAlpha_toLower, hf, isAlpha_toLower]

theorem eq_iff {c d : Char} (hd : d.isAlpha = false) : f c = d ↔ c = d := by
  have hlower : ∀ c : Char, c.isAlpha = false → f c = c := by
    intro c hc
    rw [← toLower_of_isAlpha ((hf.isAlpha c).trans hc), hf, toLower_of_isAlpha hc]
  constructor
  · rintro rfl
    exact (hlower c ((hf.isAlpha c).symm.trans hd)).symm
  · rintro rfl
    exact hlower c hd

theorem isWhitespace (c : Char) : Text.isWhitespace (f c) = Text.isWhitespace c := by
  by_cases hc : c.isAlpha = true
  · rw [isWhitespace_of_isAlpha hc, isWhitespace_of_isAlpha ((hf.isAlpha c).trans hc)]
  · rw [(hf.eq_iff (Bool.not_eq_true _ ▸ hc)).mpr rfl]

end Recases

def toAsciiUppercase (cs : List Char) : List Char := cs.map Char.toUpper

/-- The texts differ in the case of their ASCII letters only. -/
def SameLetters (cs ds : List Char) : Prop := toAsciiLowercase cs = toAsciiLowercase ds

instance (cs ds : List Char) : Decidable (SameLetters cs ds) := inferInstanceAs (Decidable (_ = _))

@[simp] theorem sameLetters_map {f : Char → Char} (hf : Recases f) (cs : List Char) :
    SameLetters cs (cs.map f) := by
  rw [SameLetters, toAsciiLowercase, toAsciiLowercase, List.map_map]
  apply List.map_congr_left
  intro c _
  exact (hf c).symm

theorem mem_map_iff {f : Char → Char} (hf : Recases f) (cs : List Char) {d : Char}
    (hd : d.isAlpha = false) : d ∈ cs.map f ↔ d ∈ cs := by
  simp only [List.mem_map, hf.eq_iff hd, exists_eq_right]

theorem trim_map {f : Char → Char} (hf : Recases f) (cs : List Char) :
    trim (cs.map f) = (trim cs).map f := by
  have hspace : isWhitespace ∘ f = isWhitespace := funext hf.isWhitespace
  rw [trim, trim, trimMatches, trimMatches, List.rdropWhile, List.rdropWhile, List.dropWhile_map,
    hspace, ← List.map_reverse, List.dropWhile_map, hspace, List.map_reverse]

def HasLetter (cs : List Char) : Prop := cs.any Char.isAlpha = true

instance (cs : List Char) : Decidable (HasLetter cs) := inferInstanceAs (Decidable (_ = true))

theorem hasLetter_map {f : Char → Char} (hf : Recases f) (cs : List Char) :
    HasLetter (cs.map f) ↔ HasLetter cs := by
  have hletter : Char.isAlpha ∘ f = Char.isAlpha := funext hf.isAlpha
  rw [HasLetter, HasLetter, List.any_map, hletter]

theorem toAsciiLowercase_eq_self_iff {cs : List Char} :
    toAsciiLowercase cs = cs ↔ ∀ c ∈ cs, c.toLower = c := by
  have hmap := List.map_inj_left (l := cs) (f := Char.toLower) (g := id)
  rwa [List.map_id] at hmap

theorem toAsciiLowercase_of_no_letter {cs : List Char} (h : ¬ HasLetter cs) :
    toAsciiLowercase cs = cs := by
  rw [HasLetter, Bool.not_eq_true, List.any_eq_false] at h
  apply toAsciiLowercase_eq_self_iff.mpr
  intro c hc
  exact toLower_of_isAlpha (Bool.not_eq_true _ ▸ h c hc)

/-- A text with a letter is not in lower case when it is in upper case. -/
theorem lower_upper_ne {cs : List Char} (h : HasLetter cs) :
    toAsciiLowercase (toAsciiUppercase cs) ≠ toAsciiUppercase cs := by
  intro heq
  obtain ⟨c, hc, halpha⟩ := List.any_eq_true.mp h
  apply toLower_toUpper_ne halpha
  exact toAsciiLowercase_eq_self_iff.mp heq c.toUpper (List.mem_map_of_mem hc)

namespace SameLetters

variable {cs ds : List Char}

theorem refl (cs : List Char) : SameLetters cs cs := rfl

theorem symm (h : SameLetters cs ds) : SameLetters ds cs := Eq.symm h

theorem trim (h : SameLetters cs ds) : SameLetters (Text.trim cs) (Text.trim ds) := by
  rw [SameLetters, toAsciiLowercase, toAsciiLowercase, ← trim_map recases_toLower,
    ← trim_map recases_toLower]
  exact congrArg Text.trim h

theorem mem_iff (h : SameLetters cs ds) {d : Char} (hd : d.isAlpha = false) : d ∈ cs ↔ d ∈ ds := by
  rw [← mem_map_iff recases_toLower cs hd, ← mem_map_iff recases_toLower ds hd]
  exact iff_of_eq (congrArg (d ∈ ·) h)

theorem head?_iff (h : SameLetters cs ds) {d : Char} (hd : d.isAlpha = false) :
    cs.head? = some d ↔ ds.head? = some d := by
  have hlower : ∀ cs : List Char, (toAsciiLowercase cs).head? = some d ↔ cs.head? = some d := by
    intro cs
    cases cs with
    | nil => simp [toAsciiLowercase]
    | cons c cs => simp [toAsciiLowercase, recases_toLower.eq_iff hd]
  rw [← hlower cs, ← hlower ds]
  exact iff_of_eq (congrArg (List.head? · = some d) h)

theorem isEmpty (h : SameLetters cs ds) : cs.isEmpty = ds.isEmpty := by
  have hlower := congrArg List.isEmpty h
  simpa [toAsciiLowercase] using hlower

theorem hasLetter_iff (h : SameLetters cs ds) : HasLetter cs ↔ HasLetter ds := by
  rw [← hasLetter_map recases_toLower cs, ← hasLetter_map recases_toLower ds]
  exact iff_of_eq (congrArg HasLetter h)

/-- A text without letters has one spelling only. -/
theorem eq_of_no_letter (h : SameLetters cs ds) (hno : ¬ HasLetter cs) : ds = cs := by
  rw [← toAsciiLowercase_of_no_letter hno, h,
    toAsciiLowercase_of_no_letter (h.hasLetter_iff.not.mp hno)]

end SameLetters

/-! ### Lines -/

theorem trim_stripCr (cs : List Char) : trim (stripCr cs) = trim cs := by
  by_cases hcr : cs.getLast? = some '\r'
  · rw [stripCr, if_pos hcr]
    obtain ⟨front, rfl⟩ := List.getLast?_eq_some_iff.mp hcr
    have hspace : isWhitespace '\r' = true := by decide
    rw [List.dropLast_concat, trim, trim, trimMatches, trimMatches, List.dropWhile_append]
    by_cases hblank : (front.dropWhile isWhitespace).isEmpty = true
    · rw [if_pos hblank, List.isEmpty_iff.mp hblank]
      rfl
    · rw [if_neg hblank, List.rdropWhile_concat_pos _ _ _ hspace]
  · rw [stripCr, if_neg hcr]

theorem stripCr_map {f : Char → Char} (hf : Recases f) (cs : List Char) :
    stripCr (cs.map f) = (stripCr cs).map f := by
  have hlast : (cs.map f).getLast? = some '\r' ↔ cs.getLast? = some '\r' := by
    rw [List.getLast?_map]
    cases cs.getLast? with
    | none => rfl
    | some c => simp [hf.eq_iff (d := '\r') (by decide)]
  by_cases hcr : cs.getLast? = some '\r'
  · rw [stripCr, stripCr, if_pos hcr, if_pos (hlast.mpr hcr), List.map_dropLast]
  · rw [stripCr, stripCr, if_neg hcr, if_neg (hlast.not.mpr hcr)]

/-- A text of which the lines are spelled anew. -/
def mapLines (g : List Char → List Char) (cs : List Char) : List Char :=
  ['\n'].intercalate ((cs.splitOn '\n').map g)

theorem lines_mapLines {g : List Char → List Char} (hfeed : ∀ cs, '\n' ∉ cs → '\n' ∉ g cs)
    (hcr : ∀ cs, stripCr (g cs) = g (stripCr cs)) (hnil : ∀ cs, g cs = [] ↔ cs = [])
    (cs : List Char) : lines (mapLines g cs) = (lines cs).map g := by
  have hparts : (mapLines g cs).splitOn '\n' = (cs.splitOn '\n').map g := by
    rw [mapLines, List.splitOn_intercalate]
    · intro line hmem
      obtain ⟨part, hpart, rfl⟩ := List.mem_map.mp hmem
      apply hfeed
      intro hc
      rw [List.splitOn_eq_splitOnP] at hpart
      exact absurd (of_mem_splitOnP hpart '\n' hc) (by decide)
    · simp [List.splitOn_ne_nil]
  have hlast : ((cs.splitOn '\n').map g).getLast?.getD [] = g ((cs.splitOn '\n').getLast?.getD []) := by
    rw [List.getLast?_map]
    cases (cs.splitOn '\n').getLast? with
    | none => exact ((hnil []).mpr rfl).symm
    | some last => rfl
  have hstrip : ((cs.splitOn '\n').map g).dropLast.map stripCr =
      ((cs.splitOn '\n').dropLast.map stripCr).map g := by
    rw [← List.map_dropLast, List.map_map, List.map_map]
    exact List.map_congr_left fun part _ => hcr part
  rw [lines, lines, hparts]
  simp only [hlast, hstrip, List.map_append]
  by_cases hend : (cs.splitOn '\n').getLast?.getD [] = []
  · rw [hend, (hnil []).mpr rfl]
    rfl
  · have hend' : ¬ g ((cs.splitOn '\n').getLast?.getD []) = [] := (hnil _).not.mpr hend
    rw [if_neg (List.isEmpty_iff.not.mpr hend), if_neg (List.isEmpty_iff.not.mpr hend')]
    rfl

end Text

/-! ### Rules that hit in some spellings -/

namespace Spelling

variable {α : Type*}

/-- The wild rules hit in lower case at most, and not in upper case; the others hit in every spelling or
in none. -/
structure Sensitive (Same : α → α → Prop) (hit : α → Bool) (wild : α → Prop) (down up : α → α) :
    Prop where
  refl : ∀ r, Same r r
  same_down : ∀ {r}, wild r → Same r (down r)
  same_up : ∀ {r}, wild r → Same r (up r)
  tame : ∀ {r r'}, Same r r' → ¬ wild r → hit r' = hit r
  down : ∀ {r r'}, Same r r' → wild r → hit r' = true → hit (down r) = true
  up : ∀ {r}, wild r → hit (up r) = false

/-- The spelling of the wild rules does not count. -/
def Settled (hit : α → Bool) (wild : α → Prop) (down : α → α) (rules : List α) : Prop :=
  (∃ r ∈ rules, ¬ wild r ∧ hit r = true) ∨ ∀ r ∈ rules, wild r → hit (down r) = false

/-- The wild rules are spelled anew. -/
def respell (wild : α → Prop) [DecidablePred wild] (g : α → α) (r : α) : α :=
  if wild r then g r else r

variable {Same : α → α → Prop} {hit : α → Bool} {wild : α → Prop} {down up : α → α}
  (h : Sensitive Same hit wild down up) {rules rules' : List α}

theorem exists_spelling (hsame : List.Forall₂ Same rules rules') {r : α} (hmem : r ∈ rules) :
    ∃ r' ∈ rules', Same r r' := by
  induction hsame with
  | nil => cases hmem
  | cons hr _ ih =>
      rcases List.mem_cons.mp hmem with rfl | hmem
      · exact ⟨_, List.mem_cons_self, hr⟩
      · obtain ⟨r', hmem', hr'⟩ := ih hmem
        exact ⟨r', List.mem_cons_of_mem _ hmem', hr'⟩

theorem map_spelling {β : Type*} {f g : α → β} (hsame : List.Forall₂ Same rules rules')
    (hf : ∀ r ∈ rules, ∀ r', Same r r' → g r' = f r) : rules'.map g = rules.map f := by
  induction hsame with
  | nil => rfl
  | @cons r r' rules rules' hr _ ih =>
      rw [List.map_cons, List.map_cons, hf r List.mem_cons_self r' hr,
        ih fun r hmem => hf r (List.mem_cons_of_mem _ hmem)]

theorem any_spelling {f : α → Bool} (hsame : List.Forall₂ Same rules rules')
    (hf : ∀ r r', Same r r' → f r' = f r) : rules'.any f = rules.any f := by
  have hmap := congrArg (List.any · id) (map_spelling hsame fun r _ => hf r)
  rwa [List.any_map, List.any_map] at hmap

theorem isEmpty_spelling (hsame : List.Forall₂ Same rules rules') : rules'.isEmpty = rules.isEmpty := by
  cases hsame with
  | nil => rfl
  | cons => rfl

theorem forall₂_respell [DecidablePred wild] (hrefl : ∀ r, Same r r) {g : α → α}
    (hg : ∀ {r}, wild r → Same r (g r)) : List.Forall₂ Same rules (rules.map (respell wild g)) := by
  induction rules with
  | nil => exact .nil
  | cons r rules ih =>
      apply List.Forall₂.cons _ ih
      rw [respell]
      split
      · rename_i hwild
        exact hg hwild
      · exact hrefl r

include h

theorem any_eq_of_settled (hsettled : Settled hit wild down rules)
    (hsame : List.Forall₂ Same rules rules') : rules'.any hit = rules.any hit := by
  rcases hsettled with ⟨r, hmem, htame, hhit⟩ | hnone
  · obtain ⟨r', hmem', hr⟩ := exists_spelling hsame hmem
    rw [List.any_eq_true.mpr ⟨r, hmem, hhit⟩, List.any_eq_true]
    exact ⟨r', hmem', (h.tame hr htame).trans hhit⟩
  · induction hsame with
    | nil => rfl
    | @cons r r' rules rules' hr _ ih =>
        have hrest := ih fun r hmem => hnone r (List.mem_cons_of_mem _ hmem)
        rw [List.any_cons, List.any_cons, hrest]
        congr 1
        by_cases hwild : wild r
        · have hmiss := hnone r List.mem_cons_self hwild
          have hno : ∀ {r'}, Same r r' → hit r' = false := by
            intro r' hr'
            rw [← Bool.not_eq_true]
            intro hhit
            rw [h.down hr' hwild hhit] at hmiss
            cases hmiss
          rw [hno hr, hno (h.refl r)]
        · exact h.tame hr hwild

/-- If a list answers alike whether its wild rules are in lower case or in upper case, their spelling
does not count. -/
theorem settled_of_any_eq [DecidablePred wild]
    (heq : (rules.map (respell wild down)).any hit = (rules.map (respell wild up)).any hit) :
    Settled hit wild down rules := by
  rw [List.any_map, List.any_map] at heq
  by_contra hnot
  rw [Settled, not_or] at hnot
  obtain ⟨htame, hwild⟩ := hnot
  simp only [not_forall, Bool.not_eq_false] at hwild
  obtain ⟨r, hmem, hr, hhit⟩ := hwild
  have hlower : rules.any (hit ∘ respell wild down) = true := by
    apply List.any_eq_true.mpr
    refine ⟨r, hmem, ?_⟩
    rwa [Function.comp_apply, respell, if_pos hr]
  rw [hlower] at heq
  obtain ⟨s, hmem', hs⟩ := List.any_eq_true.mp heq.symm
  rw [Function.comp_apply, respell] at hs
  split at hs
  · rename_i hwild
    rw [h.up hwild] at hs
    cases hs
  · rename_i hwild
    exact htame ⟨s, hmem', hwild, hs⟩

end Spelling
