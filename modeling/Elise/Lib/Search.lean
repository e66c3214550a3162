/-
Elise/Lib/Search.lean

Searching a list: with a hint, and by halving.

`f` is the trial of one element and `p` says which elements match the hint.  Where at most one
element answers, the order of the trials makes no difference, and a search is determined by
which elements it gets to:

* `hintedAll` tries all that match and then all others, and so gets to every element
  (`hintedAll_eq`);
* `hintedAgain` tries all that match and then all, those that match once more
  (`hintedAgain_eq`);
* `hintedFirst` tries only the first of those that match and then all others.  An element that
  matches the hint behind another one is not tried (`Reached`, `hintedFirst_eq_some_iff`).

A search by halving has a comparison, which says of each element whether it lies before what is
searched, is it, or lies behind.  The loop keeps a part of the list, behind which every element
compares as greater and whose first element does not, if it is not that of the list (`Inv`).
Where the elements compare in order, the one that remains is found if there is any (`isOk_iff`).
-/
import Mathlib

namespace Search

variable {α β : Type*} (f : α → Option β) (p : α → Bool)

/-- Those that match the hint first, then the others. -/
def hintedAll (l : List α) : Option β :=
  ((l.filter p).findSome? f).or ((l.filter fun a => !p a).findSome? f)

/-- Those that match the hint first, then all. -/
def hintedAgain (l : List α) : Option β := ((l.filter p).findSome? f).or (l.findSome? f)

/-- The first that matches the hint, then those that do not match it. -/
def hintedFirst (l : List α) : Option β :=
  ((l.find? p).bind f).or ((l.filter fun a => !p a).findSome? f)

/-- `hintedFirst` gets to the element. -/
def Reached (l : List α) (a : α) : Prop := p a = true → l.find? p = some a

instance [DecidableEq α] (l : List α) (a : α) : Decidable (Reached p l a) :=
  inferInstanceAs (Decidable (p a = true → l.find? p = some a))

/-- At most one element answers. -/
def AtMostOne (l : List α) : Prop :=
  ∀ a ∈ l, ∀ b ∈ l, (f a).isSome = true → (f b).isSome = true → a = b

variable {f p} {l : List α} {b : β}

theorem findSome?_eq_some_iff_exists (h : AtMostOne f l) :
    l.findSome? f = some b ↔ ∃ a ∈ l, f a = some b := by
  constructor
  · intro hb
    exact List.exists_of_findSome?_eq_some hb
  · rintro ⟨a, ha, hab⟩
    rcases hfound : l.findSome? f with - | b'
    · rw [List.findSome?_eq_none_iff.mp hfound a ha] at hab
      cases hab
    · obtain ⟨a', ha', hab'⟩ := List.exists_of_findSome?_eq_some hfound
      obtain rfl := h a ha a' ha' (by simp [hab]) (by simp [hab'])
      rw [← hab, hab']

theorem AtMostOne.filter (h : AtMostOne f l) (q : α → Bool) : AtMostOne f (l.filter q) :=
  fun a ha b hb => h a (List.mem_of_mem_filter ha) b (List.mem_of_mem_filter hb)

/-- Trying the hint first makes no difference. -/
theorem hintedAll_eq (h : AtMostOne f l) : hintedAll f p l = l.findSome? f := by
  apply Option.ext
  intro b
  rw [hintedAll, Option.or_eq_some_iff, findSome?_eq_some_iff_exists (h.filter p),
    findSome?_eq_some_iff_exists (h.filter _), findSome?_eq_some_iff_exists h]
  constructor
  · rintro (⟨a, ha, hab⟩ | ⟨-, a, ha, hab⟩)
    · exact ⟨a, List.mem_of_mem_filter ha, hab⟩
    · exact ⟨a, List.mem_of_mem_filter ha, hab⟩
  · rintro ⟨a, ha, hab⟩
    rcases hp : p a with - | -
    · right
      refine ⟨?_, a, List.mem_filter.mpr ⟨ha, by simp [hp]⟩, hab⟩
      -- only `a` answers, and it does not match
      rw [List.findSome?_eq_none_iff]
      intro a' ha'
      rcases hfa : f a' with - | b'
      · rfl
      · obtain ⟨hmem, hmatch⟩ := List.mem_filter.mp ha'
        obtain rfl := h a ha a' hmem (by simp [hab]) (by simp [hfa])
        rw [hp] at hmatch
        cases hmatch
    · exact .inl ⟨a, List.mem_filter.mpr ⟨ha, hp⟩, hab⟩

theorem hintedAgain_eq (h : AtMostOne f l) : hintedAgain f p l = l.findSome? f := by
  rw [hintedAgain]
  rcases hmatch : (l.filter p).findSome? f with - | b
  · exact Option.none_or
  · obtain ⟨a, ha, hab⟩ := (findSome?_eq_some_iff_exists (h.filter p)).mp hmatch
    rw [Option.some_or]
    exact ((findSome?_eq_some_iff_exists h).mpr ⟨a, List.mem_of_mem_filter ha, hab⟩).symm

/-- What the search with the first match finds: the one that answers, if the
search gets to it. -/
theorem hintedFirst_eq_some_iff (h : AtMostOne f l) :
    hintedFirst f p l = some b ↔ ∃ a ∈ l, Reached p l a ∧ f a = some b := by
  rw [hintedFirst, Option.or_eq_some_iff, findSome?_eq_some_iff_exists (h.filter _)]
  constructor
  · rintro (hfirst | ⟨-, a, ha, hab⟩)
    · obtain ⟨a, ha, hab⟩ := Option.bind_eq_some_iff.mp hfirst
      exact ⟨a, List.mem_of_find?_eq_some ha, fun _ => ha, hab⟩
    · obtain ⟨hmem, hmiss⟩ := List.mem_filter.mp ha
      refine ⟨a, hmem, ?_, hab⟩
      intro hmatch
      simp [hmatch] at hmiss
  · rintro ⟨a, ha, hreached, hab⟩
    rcases hp : p a with - | -
    · right
      refine ⟨?_, a, List.mem_filter.mpr ⟨ha, by simp [hp]⟩, hab⟩
      rcases hfind : l.find? p with - | a'
      · rfl
      · rcases hfa : f a' with - | b'
        · exact hfa
        · obtain rfl := h a ha a' (List.mem_of_find?_eq_some hfind) (by simp [hab]) (by simp [hfa])
          rw [List.find?_some hfind] at hp
          cases hp
    · left
      rw [hreached hp]
      exact hab

/-- Two hints find the same exactly if they get to the same elements that
answer. -/
theorem hintedFirst_eq_iff {q : α → Bool} (h : AtMostOne f l) :
    hintedFirst f p l = hintedFirst f q l ↔
      ∀ a ∈ l, (f a).isSome = true → (Reached p l a ↔ Reached q l a) := by
  have hreached : ∀ (r : α → Bool) {a : α} {b : β}, a ∈ l → f a = some b →
      (Reached r l a ↔ hintedFirst f r l = some b) := by
    intro r a b ha hab
    rw [hintedFirst_eq_some_iff h]
    constructor
    · exact fun hr => ⟨a, ha, hr, hab⟩
    · rintro ⟨a', ha', hr, hab'⟩
      obtain rfl := h a ha a' ha' (by simp [hab]) (by simp [hab'])
      exact hr
  constructor
  · intro heq a ha hsome
    obtain ⟨b, hab⟩ := Option.isSome_iff_exists.mp hsome
    rw [hreached p ha hab, hreached q ha hab, heq]
  · intro hall
    apply Option.ext
    intro b
    rw [hintedFirst_eq_some_iff h, hintedFirst_eq_some_iff h]
    constructor
    · rintro ⟨a, ha, hr, hab⟩
      exact ⟨a, ha, (hall a ha (by simp [hab])).mp hr, hab⟩
    · rintro ⟨a, ha, hr, hab⟩
      exact ⟨a, ha, (hall a ha (by simp [hab])).mpr hr, hab⟩

end Search

namespace BinarySearch

variable {α : Type*} (cmp : α → Ordering) (l : List α)

/-- How the element at a position compares, if there is one. -/
def compares (o : Ordering) (i : Nat) : Bool := (l[i]?).any fun a => cmp a == o

/-- The loop: `size` elements from `base` on are left. -/
def loop : (fuel base size : Nat) → Nat
  | 0, base, _ => base
  | fuel + 1, base, size =>
      if 1 < size then
        let half := size / 2
        let mid := base + half
        loop fuel (if compares cmp l .gt mid then base else mid) (size - half)
      else base

/-- Whether an element is found. -/
def isOk : Bool :=
  if l.isEmpty then false else compares cmp l .eq (loop cmp l l.length 0 l.length)

/-- What lies before the search comes first, then what it finds, then the rest. -/
def InOrder : Prop :=
  l.Pairwise fun a b => (cmp a = .gt → cmp b = .gt) ∧ (cmp b = .lt → cmp a = .lt)

/-- The invariant of the loop. -/
structure Inv (base size : Nat) : Prop where
  pos : 0 < size
  within : base + size ≤ l.length
  behind : ∀ i a, base + size ≤ i → l[i]? = some a → cmp a = .gt
  first : ∀ a, 0 < base → l[base]? = some a → cmp a ≠ .gt

variable {cmp l} {base size : Nat}

theorem compares_iff {o : Ordering} {i : Nat} {a : α} (h : l[i]? = some a) :
    compares cmp l o i = true ↔ cmp a = o := by
  rw [compares, h, Option.any_some, beq_iff_eq]

theorem InOrder.gt_of_lt (h : InOrder cmp l) {i j : Nat} {a b : α} (hlt : i < j) (ha : l[i]? = some a)
    (hb : l[j]? = some b) (hgt : cmp a = .gt) : cmp b = .gt := by
  obtain ⟨hi, rfl⟩ := List.getElem?_eq_some_iff.mp ha
  obtain ⟨hj, rfl⟩ := List.getElem?_eq_some_iff.mp hb
  exact (List.pairwise_iff_getElem.mp h i j hi hj hlt).1 hgt

theorem InOrder.lt_of_lt (h : InOrder cmp l) {i j : Nat} {a b : α} (hlt : i < j) (ha : l[i]? = some a)
    (hb : l[j]? = some b) (hless : cmp b = .lt) : cmp a = .lt := by
  obtain ⟨hi, rfl⟩ := List.getElem?_eq_some_iff.mp ha
  obtain ⟨hj, rfl⟩ := List.getElem?_eq_some_iff.mp hb
  exact (List.pairwise_iff_getElem.mp h i j hi hj hlt).2 hless

/-- One round. -/
theorem Inv.round (hord : InOrder cmp l) (h : Inv cmp l base size) (hsize : 1 < size) :
    Inv cmp l (if compares cmp l .gt (base + size / 2) then base else base + size / 2)
      (size - size / 2) := by
  have hwithin := h.within
  have hmid : base + size / 2 < l.length := by omega
  have hget : l[base + size / 2]? = some l[base + size / 2] := List.getElem?_eq_getElem hmid
  by_cases hgt : cmp l[base + size / 2] = .gt
  · -- all from the middle on are greater
    rw [if_pos ((compares_iff hget).mpr hgt)]
    refine ⟨by omega, by omega, ?_, h.first⟩
    intro i a hi ha
    rcases Nat.lt_or_ge (base + size / 2) i with hlt | hge
    · exact hord.gt_of_lt hlt hget ha hgt
    · obtain rfl : i = base + size / 2 := by omega
      rw [hget] at ha
      exact Option.some.inj ha ▸ hgt
  · rw [if_neg fun hcmp => hgt ((compares_iff hget).mp hcmp)]
    refine ⟨by omega, by omega, ?_, ?_⟩
    · intro i a hi ha
      exact h.behind i a (by omega) ha
    · intro a _ ha
      rw [hget] at ha
      exact Option.some.inj ha ▸ hgt

/-- The loop comes to one element. -/
theorem Inv.loop (hord : InOrder cmp l) {fuel : Nat} (h : Inv cmp l base size) (hfuel : size ≤ fuel + 1) :
    Inv cmp l (loop cmp l fuel base size) 1 := by
  induction fuel generalizing base size with
  | zero =>
      obtain rfl : size = 1 := Nat.le_antisymm hfuel h.pos
      exact h
  | succ fuel ih =>
      rw [BinarySearch.loop]
      split
      · rename_i hsize
        exact ih (h.round hord hsize) (by omega)
      · obtain rfl : size = 1 := by
          have hpos := h.pos
          omega
        exact h

/-- **An element is found exactly when there is one.** -/
theorem isOk_iff (hord : InOrder cmp l) : isOk cmp l = true ↔ ∃ a ∈ l, cmp a = .eq := by
  rw [isOk]
  cases hl : l with
  | nil => simp
  | cons b bs =>
      rw [← hl]
      have hpos : 0 < l.length := by simp [hl]
      rw [if_neg (by simp [hl])]
      have hstart : Inv cmp l 0 l.length := by
        refine ⟨hpos, by omega, ?_, fun _ h => absurd h (Nat.lt_irrefl 0)⟩
        intro i a hi ha
        rw [List.getElem?_eq_none (by omega)] at ha
        cases ha
      have hend := hstart.loop hord (Nat.le_succ l.length)
      generalize loop cmp l l.length 0 l.length = base at hend
      have hwithin := hend.within
      have hget : l[base]? = some l[base] := List.getElem?_eq_getElem (by omega)
      rw [compares_iff hget]
      constructor
      · intro heq
        exact ⟨_, List.getElem_mem _, heq⟩
      · rintro ⟨a, hmem, heq⟩
        obtain ⟨i, hi, rfl⟩ := List.getElem_of_mem hmem
        have hgeti : l[i]? = some l[i] := List.getElem?_eq_getElem hi
        -- it is not behind, and what remains is neither less nor greater
        rcases Nat.lt_trichotomy i base with hlt | rfl | hgt
        · cases hcmp : cmp l[base] with
          | lt => exact absurd (hord.lt_of_lt hlt hgeti hget hcmp) (by rw [heq]; decide)
          | eq => rfl
          | gt => exact absurd hcmp (hend.first _ (by omega) hget)
        · exact heq
        · exact absurd (hend.behind i _ hgt hgeti) (by rw [heq]; decide)

end BinarySearch
