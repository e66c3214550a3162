/-
Elise/Lib/Lines.lean

Lines that end in two given symbols, as in carriage return and line feed.

A line is a list in which the two do not stand side by side.  `split` takes a list
apart at the ends, and joining puts it together again (`split_joined`,
`joined_split`), so lists of lines are told from their joined text (`joined_inj`).
A head is a list of lines that are not empty and an empty one behind them; where it
ends is where the two ends stand first (`find_headOf`), whatever comes behind it
(`headOf_append_inj`).
-/
import Mathlib

namespace Lines

variable {α : Type*} [DecidableEq α]

/-! ### Searching -/

/-- Where `needle`, which is not empty, stands first. -/
def find (needle : List α) : List α → Option Nat
  | [] => none
  | b :: haystack => if needle <+: b :: haystack then some 0 else (find needle haystack).map (· + 1)

theorem length_le_of_find {needle haystack : List α} {pos : Nat} (h : find needle haystack = some pos) :
    pos + needle.length ≤ haystack.length := by
  induction haystack generalizing pos with
  | nil => cases h
  | cons b haystack ih =>
      rw [find] at h
      split at h
      · rename_i hfront
        obtain rfl := Option.some.inj h
        rw [Nat.zero_add]
        exact hfront.length_le
      · obtain ⟨pos, hpos, rfl⟩ := Option.map_eq_some_iff.mp h
        have hle := ih hpos
        rw [List.length_cons]
        omega

theorem infix_of_find {needle haystack : List α} {pos : Nat} (h : find needle haystack = some pos) :
    needle <:+: haystack := by
  induction haystack generalizing pos with
  | nil => cases h
  | cons b haystack ih =>
      rw [find] at h
      by_cases hfront : needle <+: b :: haystack
      · exact hfront.isInfix
      · rw [if_neg hfront] at h
        obtain ⟨pos, hpos, -⟩ := Option.map_eq_some_iff.mp h
        exact List.infix_cons (ih hpos)

/-- Too short a list does not hold it. -/
theorem find_eq_none_of_lt {needle haystack : List α} (h : haystack.length < needle.length) :
    find needle haystack = none := by
  apply Option.eq_none_iff_forall_ne_some.mpr
  intro pos hfind
  have hlen := length_le_of_find hfind
  omega

/-- In a part from the front it is found if it is there with its end. -/
theorem find_front {needle buf more : List α} {pos : Nat} (hne : needle ≠ [])
    (h : find needle (buf ++ more) = some pos) :
    find needle buf = if pos + needle.length ≤ buf.length then some pos else none := by
  have hpos := List.length_pos_iff.mpr hne
  induction buf generalizing pos with
  | nil =>
      rw [List.length_nil, if_neg (by omega)]
      rfl
  | cons b buf ih =>
      rw [List.cons_append, find] at h
      split at h
      · rename_i hfront
        obtain rfl := Option.some.inj h
        by_cases hle : 0 + needle.length ≤ (b :: buf).length
        · have hfront' : needle <+: b :: buf :=
            List.prefix_of_prefix_length_le hfront (List.prefix_append (b :: buf) more) (by omega)
          rw [find, if_pos hfront', if_pos hle]
        · rw [if_neg hle, find_eq_none_of_lt (by omega)]
      · rename_i hfront
        have hnot : ¬ needle <+: b :: buf := fun hmem => hfront (hmem.trans (List.prefix_append _ more))
        obtain ⟨pos, hfind, rfl⟩ := Option.map_eq_some_iff.mp h
        rw [find, if_neg hnot, ih hfind, List.length_cons]
        by_cases hle : pos + needle.length ≤ buf.length
        · rw [if_pos hle, if_pos (by omega)]
          rfl
        · rw [if_neg hle, if_neg (by omega)]
          rfl

/-- What is found in front is found there in the whole. -/
theorem find_append {needle buf : List α} {pos : Nat} (h : find needle buf = some pos) (more : List α) :
    find needle (buf ++ more) = some pos := by
  induction buf generalizing pos with
  | nil => cases h
  | cons b buf ih =>
      rw [find] at h
      rw [List.cons_append, find]
      split at h
      · rename_i hfront
        have hwhole : needle <+: b :: (buf ++ more) := hfront.trans (List.prefix_append (b :: buf) more)
        rw [if_pos hwhole]
        exact h
      · rename_i hfront
        obtain ⟨pos, hfind, rfl⟩ := Option.map_eq_some_iff.mp h
        have hlen := length_le_of_find hfind
        have hnot : ¬ needle <+: b :: (buf ++ more) := fun hmem =>
          hfront (List.prefix_of_prefix_length_le hmem (List.prefix_append (b :: buf) more)
            (by rw [List.length_cons]; omega))
        rw [if_neg hnot, ih hfind]
        rfl

/-- What does not stand any earlier is found where it stands, when it is there with its
end. -/
theorem find_first {needle before rest buf more : List α} (hne : needle ≠ [])
    (hfirst : ¬ needle <:+: before ++ needle.dropLast) (h : buf ++ more = before ++ (needle ++ rest)) :
    find needle buf =
      if before.length + needle.length ≤ buf.length then some before.length else none := by
  have hpos := List.length_pos_iff.mpr hne
  -- on what is before, as far as it is in the buffer
  induction before generalizing buf with
  | nil =>
      simp only [List.length_nil, Nat.zero_add]
      by_cases hle : needle.length ≤ buf.length
      · rw [if_pos hle]
        have hfront : needle <+: buf :=
          List.prefix_of_prefix_length_le ⟨rest, h.symm⟩ (List.prefix_append buf more) hle
        cases buf with
        | nil =>
            rw [List.length_nil] at hle
            omega
        | cons b buf => rw [find, if_pos hfront]
      · rw [if_neg hle]
        apply Option.eq_none_iff_forall_ne_some.mpr
        intro pos hfind
        have hlen := length_le_of_find hfind
        omega
  | cons c before ih =>
      cases buf with
      | nil =>
          rw [List.length_nil, if_neg (by omega)]
          rfl
      | cons b buf =>
          obtain ⟨hb, htail⟩ := List.cons.inj h
          obtain rfl : b = c := hb
          have hnot : ¬ needle <+: b :: buf := by
            intro hfront
            apply hfirst
            apply List.IsPrefix.isInfix
            apply List.prefix_of_prefix_length_le (hfront.trans (List.prefix_append _ more))
            · rw [h]
              apply (List.prefix_append_right_inj _).mpr
              exact (List.dropLast_prefix needle).trans (List.prefix_append _ _)
            · rw [List.length_append, List.length_cons, List.length_dropLast]
              omega
          have hfind := ih (fun hmem => hfirst (hmem.trans (List.infix_cons (List.infix_refl _)))) htail
          rw [find, if_neg hnot, hfind]
          simp only [List.length_cons]
          by_cases hle : before.length + needle.length ≤ buf.length
          · rw [if_pos hle, if_pos (by omega)]
            rfl
          · rw [if_neg hle, if_neg (by omega)]
            rfl

/-! ### Lines -/

variable (cr lf : α)

/-- The two symbols do not stand side by side. -/
def IsLine (l : List α) : Prop := l.IsChain fun a b => ¬ (a = cr ∧ b = lf)

instance (l : List α) : Decidable (IsLine cr lf l) := inferInstanceAs (Decidable (List.IsChain _ l))

/-- The parts of a list between the ends. -/
def split : List α → List (List α)
  | [] => [[]]
  | [a] => [[a]]
  | a :: b :: rest =>
      if a = cr ∧ b = lf then [] :: split rest
      else
        match split (b :: rest) with
        | [] => [[a]]
        | l :: ls => (a :: l) :: ls

/-- The lines with an end between each two of them. -/
def joined (ls : List (List α)) : List α := [cr, lf].intercalate ls

variable {cr lf}

omit [DecidableEq α] in
theorem isLine_of_not_mem {l : List α} (h : cr ∉ l) : IsLine cr lf l := by
  induction l with
  | nil => exact .nil
  | cons a l ih =>
      apply List.isChain_cons.mpr
      refine ⟨?_, ih fun hmem => h (List.mem_cons_of_mem _ hmem)⟩
      rintro b - ⟨rfl, -⟩
      exact h List.mem_cons_self

omit [DecidableEq α] in
/-- Lines with a symbol between them that is none of an end. -/
theorem IsLine.append_cons {l l' : List α} {a : α} (hcr : a ≠ cr) (hlf : a ≠ lf) (h : IsLine cr lf l)
    (h' : IsLine cr lf l') : IsLine cr lf (l ++ a :: l') := by
  apply List.isChain_append.mpr
  refine ⟨h, ?_, ?_⟩
  · apply List.isChain_cons.mpr
    exact ⟨fun b _ hends => hcr hends.1, h'⟩
  · intro x _ y hy hends
    obtain rfl := Option.some.inj hy
    exact hlf hends.2

theorem split_ne_nil (l : List α) : split cr lf l ≠ [] := by
  fun_cases split cr lf l with
  | case5 => simp [*]
  | _ => simp

/-- A line has one part. -/
theorem split_of_isLine {l : List α} (h : IsLine cr lf l) : split cr lf l = [l] := by
  fun_induction split cr lf l with
  | case1 => rfl
  | case2 a => rfl
  | case3 a b rest hend ih => exact absurd hend (List.isChain_cons_cons.mp h).1
  | case4 a b rest hend hnil ih => exact absurd hnil (split_ne_nil _)
  | case5 a b rest hend l ls hsplit ih =>
      have htail := ih (List.isChain_cons_cons.mp h).2
      rw [hsplit] at htail
      obtain ⟨rfl, rfl⟩ := List.cons.inj htail
      rfl

omit [DecidableEq α] in
theorem joined_cons {l : List α} {ls : List (List α)} (hne : ls ≠ []) :
    joined cr lf (l :: ls) = l ++ cr :: lf :: joined cr lf ls := by
  obtain ⟨next, rest, rfl⟩ := List.exists_cons_of_ne_nil hne
  rw [joined, List.intercalate_cons_cons, List.append_assoc]
  rfl

variable (cr lf) in
/-- Parts are what they are parts of. -/
theorem joined_split (text : List α) : joined cr lf (split cr lf text) = text := by
  fun_induction split cr lf text with
  | case1 => rfl
  | case2 a => rfl
  | case3 a b rest hend ih =>
      rw [joined_cons (split_ne_nil _), ih, hend.1, hend.2]
      rfl
  | case4 a b rest hend hnil ih => exact absurd hnil (split_ne_nil _)
  | case5 a b rest hend l ls hsplit ih =>
      rw [hsplit] at ih
      cases ls with
      | nil =>
          rw [joined, List.intercalate_singleton] at ih ⊢
          rw [ih]
      | cons next ls =>
          rw [joined_cons (List.cons_ne_nil _ _)] at ih ⊢
          rw [← ih]
          rfl

theorem isLine_of_mem_split {text l : List α} (h : l ∈ split cr lf text) : IsLine cr lf l := by
  fun_induction split cr lf text generalizing l with
  | case1 =>
      obtain rfl := List.mem_singleton.mp h
      exact .nil
  | case2 a =>
      obtain rfl := List.mem_singleton.mp h
      exact .singleton a
  | case3 a b rest hend ih =>
      rcases List.mem_cons.mp h with rfl | hmem
      · exact .nil
      · exact ih hmem
  | case4 a b rest hend hnil ih => exact absurd hnil (split_ne_nil _)
  | case5 a b rest hend first ls hsplit ih =>
      rcases List.mem_cons.mp h with rfl | hmem
      · apply List.isChain_cons.mpr
        refine ⟨?_, ih (hsplit ▸ List.mem_cons_self)⟩
        intro c hc hends
        -- what the part begins with is what the list begins with
        have hjoined := joined_split cr lf (b :: rest)
        obtain ⟨others, rfl⟩ : ∃ others, first = c :: others := List.head?_eq_some_iff.mp hc
        rw [hsplit] at hjoined
        have hb : c = b := by
          cases ls with
          | nil =>
              rw [joined, List.intercalate_singleton] at hjoined
              exact (List.cons.inj hjoined).1
          | cons next ls =>
              rw [joined_cons (List.cons_ne_nil _ _)] at hjoined
              exact (List.cons.inj hjoined).1
        exact hend ⟨hends.1, hb ▸ hends.2⟩
      · exact ih (hsplit ▸ List.mem_cons_of_mem _ hmem)

/-- An end divides. -/
theorem split_append (hne : cr ≠ lf) (before after : List α) :
    split cr lf (before ++ cr :: lf :: after) = split cr lf before ++ split cr lf after := by
  fun_induction split cr lf before with
  | case1 => exact if_pos ⟨rfl, rfl⟩
  | case2 a =>
      have hnot : ¬ (a = cr ∧ cr = lf) := fun h => hne h.2
      show split cr lf (a :: cr :: lf :: after) = _
      rw [split, if_neg hnot, split, if_pos ⟨rfl, rfl⟩]
      rfl
  | case3 a b rest hend ih =>
      show split cr lf (a :: b :: (rest ++ cr :: lf :: after)) = _
      rw [split, if_pos hend, ih]
      rfl
  | case4 a b rest hend hnil ih => exact absurd hnil (split_ne_nil _)
  | case5 a b rest hend l ls hsplit ih =>
      show split cr lf (a :: b :: (rest ++ cr :: lf :: after)) = _
      rw [split, if_neg hend]
      rw [List.cons_append, hsplit] at ih
      rw [ih]
      rfl

/-- **Lines that were joined come back.** -/
theorem split_joined (hne : cr ≠ lf) {ls : List (List α)} (hls : ls ≠ [])
    (hlines : ∀ l ∈ ls, IsLine cr lf l) : split cr lf (joined cr lf ls) = ls := by
  induction ls with
  | nil => exact absurd rfl hls
  | cons l ls ih =>
      have hl := split_of_isLine (hlines l List.mem_cons_self)
      by_cases hrest : ls = []
      · subst hrest
        rw [joined, List.intercalate_singleton]
        exact hl
      · rw [joined_cons hrest, split_append hne, hl,
          ih hrest fun other hmem => hlines other (List.mem_cons_of_mem _ hmem)]
        rfl

theorem joined_inj (hne : cr ≠ lf) {ls ls' : List (List α)} (hls : ls ≠ []) (hls' : ls' ≠ [])
    (hlines : ∀ l ∈ ls, IsLine cr lf l) (hlines' : ∀ l ∈ ls', IsLine cr lf l)
    (h : joined cr lf ls = joined cr lf ls') : ls = ls' := by
  rw [← split_joined hne hls hlines, h, split_joined hne hls' hlines']

/-! ### Heads -/

variable (cr lf) in
/-- Lines with their ends, and an empty line behind them. -/
def headOf (ls : List (List α)) : List α := joined cr lf ls ++ [cr, lf, cr, lf]

omit [DecidableEq α] in
/-- A head is its lines, each with its end, and an end. -/
theorem flatMap_ends {ls : List (List α)} (hls : ls ≠ []) :
    ls.flatMap (· ++ [cr, lf]) ++ [cr, lf] = headOf cr lf ls := by
  rw [headOf]
  induction ls with
  | nil => exact absurd rfl hls
  | cons l ls ih =>
      by_cases hrest : ls = []
      · subst hrest
        simp [joined]
      · rw [List.flatMap_cons, List.append_assoc, ih hrest, joined_cons hrest]
        simp

variable (cr lf) in
/-- There are lines, and none of them is empty. -/
structure IsHead (ls : List (List α)) : Prop where
  ne_nil : ls ≠ []
  isLine : ∀ l ∈ ls, l ≠ [] ∧ IsLine cr lf l

/-- No empty line stands in a head, not even when it lacks its last symbol. -/
theorem not_infix_of_isHead (hne : cr ≠ lf) {ls : List (List α)} (h : IsHead cr lf ls) :
    ¬ [cr, lf, cr, lf] <:+: joined cr lf ls ++ [cr, lf, cr] := by
  rintro ⟨before, after, heq⟩
  -- an empty line is a part, but no part is empty
  have hparts := congrArg (split cr lf) heq
  have hright : split cr lf (joined cr lf ls ++ [cr, lf, cr]) = ls ++ [[cr]] := by
    rw [split_append hne, split_joined hne h.ne_nil fun l hmem => (h.isLine l hmem).2]
    rfl
  have hleft : split cr lf (before ++ [cr, lf, cr, lf] ++ after) =
      split cr lf before ++ [] :: split cr lf after := by
    rw [List.append_assoc]
    show split cr lf (before ++ cr :: lf :: ([] ++ cr :: lf :: after)) = _
    rw [split_append hne, split_append hne]
    rfl
  rw [hleft, hright] at hparts
  have hmem : ([] : List α) ∈ ls ++ [[cr]] := by
    rw [← hparts]
    exact List.mem_append_right _ List.mem_cons_self
  rcases List.mem_append.mp hmem with hmem | hmem
  · exact (h.isLine [] hmem).1 rfl
  · cases List.mem_singleton.mp hmem

/-- **The end of a head is found when it is there.** -/
theorem find_headOf (hne : cr ≠ lf) {ls : List (List α)} (h : IsHead cr lf ls) {rest buf more : List α}
    (hbuf : buf ++ more = headOf cr lf ls ++ rest) :
    find [cr, lf, cr, lf] buf =
      if (headOf cr lf ls).length ≤ buf.length then some (joined cr lf ls).length else none := by
  rw [headOf, List.append_assoc] at hbuf
  rw [find_first (List.cons_ne_nil _ _) (not_infix_of_isHead hne h) hbuf, headOf, List.length_append]

/-- Where one head ends, no other goes on. -/
theorem headOf_append_inj (hne : cr ≠ lf) {ls ls' : List (List α)} (h : IsHead cr lf ls)
    (h' : IsHead cr lf ls') {rest rest' : List α}
    (heq : headOf cr lf ls ++ rest = headOf cr lf ls' ++ rest') : ls = ls' ∧ rest = rest' := by
  have hfind := find_headOf hne h (List.append_nil (headOf cr lf ls ++ rest))
  have hfind' := find_headOf hne h' ((List.append_nil _).trans heq)
  rw [if_pos (by simp)] at hfind
  rw [if_pos (by simp [heq])] at hfind'
  have hlen := Option.some.inj (hfind.symm.trans hfind')
  rw [headOf, headOf, List.append_assoc, List.append_assoc] at heq
  obtain ⟨hjoined, hrest⟩ := List.append_inj heq hlen
  refine ⟨?_, List.append_cancel_left hrest⟩
  exact joined_inj hne h.ne_nil h'.ne_nil (fun l hmem => (h.isLine l hmem).2)
    (fun l hmem => (h'.isLine l hmem).2) hjoined

end Lines
