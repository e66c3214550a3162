/-
Elise/Lib/FirstMatch.lean

What decides when several things may: the first alternative that applies, and the last update
that sets a field.

A decision list has alternatives in order, of which the first that applies decides, and a
default for when none does.  `SameDecision` compares two questions put to one list.  At the
first alternative that applies to either of them they get the same answer if it applies to both
and answers alike, or if the question that it leaves out gets that answer from the rest
(`firstMatch_eq_iff`).  Where one question gets every answer of the other and more, only the
answers that it gets alone count (`firstMatch_or_eq_iff`); where both get some answers and each
gets more, only those that one of them gets alone (`firstMatch_beside_iff`).  Where the order is
arbitrary, as for the entries of a hash map, the first entry that applies has the same key in
every order if no other key has one that applies (`find?_perm_iff`).

Settings are replaced in place: each update may set a field or leave it, and `updated` is the
field after a list of updates.  It is the value of the last update that sets it
(`updated_eq`), so it depends on the last updates alone exactly if one of them sets the field or
what the others left there is what was there at the beginning (`updated_append_iff`).
-/
import Mathlib

namespace FirstMatch

variable {α β : Type*}

/-- The answer of the first alternative that has one. -/
def firstMatch (dflt : β) (f : α → Option β) (alts : List α) : β := (alts.findSome? f).getD dflt

variable {dflt : β} {f g : α → Option β}

@[simp] theorem firstMatch_nil : firstMatch dflt f [] = dflt := rfl

theorem firstMatch_cons (a : α) (alts : List α) :
    firstMatch dflt f (a :: alts) = (f a).getD (firstMatch dflt f alts) := by
  rw [firstMatch, List.findSome?_cons, firstMatch]
  cases f a <;> rfl

/-- What comes after the first list is its default. -/
theorem firstMatch_append (alts alts' : List α) :
    firstMatch dflt f (alts ++ alts') = firstMatch (firstMatch dflt f alts') f alts := by
  induction alts with
  | nil => rfl
  | cons a alts ih => rw [List.cons_append, firstMatch_cons, firstMatch_cons, ih]

theorem firstMatch_map {γ : Type*} (h : γ → α) (cs : List γ) :
    firstMatch dflt f (cs.map h) = firstMatch dflt (f ∘ h) cs := by
  rw [firstMatch, List.findSome?_map, firstMatch]

/-- What makes two questions to a list agree. -/
def SameDecision (dflt : β) (f g : α → Option β) : List α → Prop
  | [] => True
  | a :: alts =>
      match f a, g a with
      | some x, some y => x = y
      | some x, none => firstMatch dflt g alts = x
      | none, some y => firstMatch dflt f alts = y
      | none, none => SameDecision dflt f g alts

theorem firstMatch_eq_iff (alts : List α) :
    firstMatch dflt f alts = firstMatch dflt g alts ↔ SameDecision dflt f g alts := by
  induction alts with
  | nil => exact iff_of_true rfl trivial
  | cons a alts ih =>
      rw [firstMatch_cons, firstMatch_cons]
      simp only [SameDecision]
      cases f a with
      | none =>
          cases g a with
          | none => exact ih
          | some y => exact Iff.rfl
      | some x =>
          cases g a with
          | none => exact eq_comm
          | some y => exact Iff.rfl

/-- What makes it harmless that `k` answers where `g` has no answer: the first
such answer is the one that `g` has from the rest. -/
def Repeats (dflt : β) (g k : α → Option β) : List α → Prop
  | [] => True
  | a :: alts =>
      match g a, k a with
      | some _, _ => True
      | none, some x => firstMatch dflt g alts = x
      | none, none => Repeats dflt g k alts

theorem firstMatch_or_eq_iff {k : α → Option β} (h : ∀ a, f a = (g a).or (k a)) (alts : List α) :
    firstMatch dflt f alts = firstMatch dflt g alts ↔ Repeats dflt g k alts := by
  rw [firstMatch_eq_iff]
  induction alts with
  | nil => exact Iff.rfl
  | cons a alts ih =>
      simp only [SameDecision, Repeats, h a]
      cases g a with
      | some y => exact iff_of_true rfl trivial
      | none =>
          cases k a with
          | none => exact ih
          | some x => exact Iff.rfl

/-- What makes two questions agree that get the answers `g`, and `k` or `k'`
besides, where `k` and `k'` do not contradict each other.  The first alternative
that answers one of them answers both, or its answer is the one that the other
question gets from the rest. -/
def SameBeside (dflt : β) (g k k' : α → Option β) : List α → Prop
  | [] => True
  | a :: alts =>
      match g a, k a, k' a with
      | some _, _, _ => True
      | none, some _, some _ => True
      | none, some x, none => firstMatch dflt (fun b => (g b).or (k' b)) alts = x
      | none, none, some y => firstMatch dflt (fun b => (g b).or (k b)) alts = y
      | none, none, none => SameBeside dflt g k k' alts

theorem firstMatch_beside_iff {k k' : α → Option β} (hf : ∀ a, f a = (g a).or (k a))
    {f' : α → Option β} (hf' : ∀ a, f' a = (g a).or (k' a))
    (hsame : ∀ a x y, k a = some x → k' a = some y → x = y) (alts : List α) :
    firstMatch dflt f alts = firstMatch dflt f' alts ↔ SameBeside dflt g k k' alts := by
  obtain rfl : f = fun b => (g b).or (k b) := funext hf
  obtain rfl : f' = fun b => (g b).or (k' b) := funext hf'
  rw [firstMatch_eq_iff]
  induction alts with
  | nil => exact Iff.rfl
  | cons a alts ih =>
      simp only [SameDecision, SameBeside]
      cases g a with
      | some y => exact iff_of_true rfl trivial
      | none =>
          cases hk : k a with
          | none =>
              cases k' a with
              | none => exact ih
              | some y => exact Iff.rfl
          | some x =>
              cases hk' : k' a with
              | none => exact Iff.rfl
              | some y => exact iff_of_true (hsame a x y hk hk') trivial

/-! ### Any order -/

/-- **In every order the first entry that applies has the key `t`** if the keys with an entry that
applies are `t` and no other. -/
theorem find?_perm_iff {κ ν : Type*} (entries : List (κ × ν)) (p : κ × ν → Bool) (t : Option κ) :
    (∀ order : List (κ × ν), order.Perm entries → (order.find? p).map Prod.fst = t) ↔
      ∀ k, (∃ v, (k, v) ∈ entries ∧ p (k, v) = true) ↔ t = some k := by
  constructor
  · intro h k
    constructor
    · rintro ⟨v, hmem, hp⟩
      -- the order that has this entry in front
      obtain ⟨before, after, rfl⟩ := List.append_of_mem hmem
      have hfirst := h ((k, v) :: (before ++ after)) List.perm_middle.symm
      rw [List.find?_cons_of_pos hp] at hfirst
      exact hfirst.symm
    · rintro rfl
      obtain ⟨⟨k', v⟩, hfind, hkey⟩ := Option.map_eq_some_iff.mp (h entries (List.Perm.refl _))
      obtain rfl : k' = k := hkey
      exact ⟨v, List.mem_of_find?_eq_some hfind, List.find?_some hfind⟩
  · intro h order hperm
    rcases hfind : order.find? p with - | ⟨k, v⟩
    · rw [List.find?_eq_none] at hfind
      cases t with
      | none => rfl
      | some k =>
          obtain ⟨v, hmem, hp⟩ := (h k).mpr rfl
          exact absurd hp (hfind (k, v) (hperm.mem_iff.mpr hmem))
    · have hmem := hperm.mem_iff.mp (List.mem_of_find?_eq_some hfind)
      exact ((h k).mp ⟨v, hmem, List.find?_some hfind⟩).symm

end FirstMatch

namespace Override

variable {τ α : Type*}

/-- The field after the updates. -/
def updated (f : τ → Option α) (a : α) (ts : List τ) : α := ts.foldl (fun a t => (f t).getD a) a

/-- The value of the last update that sets the field. -/
def lastSet (f : τ → Option α) (ts : List τ) : Option α := (ts.filterMap f).getLast?

variable {f : τ → Option α}

theorem updated_append_singleton (a : α) (ts : List τ) (t : τ) :
    updated f a (ts ++ [t]) = (f t).getD (updated f a ts) := by
  simp [updated]

theorem lastSet_append (ts us : List τ) : lastSet f (ts ++ us) = (lastSet f us).or (lastSet f ts) := by
  rw [lastSet, List.filterMap_append, List.getLast?_append]
  rfl

theorem lastSet_singleton (t : τ) : lastSet f [t] = f t := by
  rw [lastSet]
  cases h : f t <;> simp [h]

theorem updated_eq (a : α) (ts : List τ) : updated f a ts = (lastSet f ts).getD a := by
  induction ts using List.reverseRecOn with
  | nil => rfl
  | append_singleton ts t ih =>
      rw [updated_append_singleton, lastSet_append, lastSet_singleton, ih]
      cases f t <;> rfl

/-- **When the first updates do not count.** -/
theorem updated_append_iff (a : α) (ts us : List τ) :
    updated f a (ts ++ us) = updated f a us ↔
      (lastSet f us).isSome ∨ ∀ v, lastSet f ts = some v → v = a := by
  rw [updated_eq, updated_eq, lastSet_append]
  rcases lastSet f us with - | v
  · rcases lastSet f ts with - | w
    · simp
    · simp
  · simp

/-- **When only the last update counts.** -/
theorem updated_last_iff (a : α) (ts : List τ) (t : τ) :
    updated f a (ts ++ [t]) = updated f a [t] ↔
      (f t).isSome ∨ ∀ v, lastSet f ts = some v → v = a := by
  rw [updated_append_iff, lastSet_singleton]

end Override
