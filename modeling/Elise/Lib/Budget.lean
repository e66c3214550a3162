/-
Elise/Lib/Budget.lean

A budget that refills at a constant rate up to a capacity.

`Move` says what an operation may do at a time: refill up to a time that is not after it,
and take an amount.  What is taken between two times is at most the capacity and what the
rate gives in between (`Within.taken_le`); `Within` is the invariant that each move keeps.
-/
import Mathlib

namespace Budget

variable {K : Type*} [Field K] [LinearOrder K] [IsStrictOrderedRing K]

/-- What is left, and when it was refilled. -/
structure Level (K : Type*) where
  left : K
  last : K

/-- At this time the level is refilled, and the amount is taken from it. -/
structure Move (capacity rate : K) (b b' : Level K) (now amount : K) : Prop where
  amount_nonneg : 0 ≤ amount
  left_nonneg : 0 ≤ b'.left
  le_capacity : b'.left + amount ≤ capacity
  le_refilled : b'.left + amount ≤ b.left + rate * (b'.last - b.last)
  forward : b.last ≤ b'.last
  /-- Who takes something refills up to now. -/
  last_eq : amount ≠ 0 → b'.last = now

/-- What of the amount counts for the interval. -/
def counted (start stop now amount : K) : K := if start ≤ now ∧ now ≤ stop then amount else 0

/-- So much has been taken within the interval. -/
structure Within (capacity rate start stop : K) (b : Level K) (taken : K) : Prop where
  left_nonneg : 0 ≤ b.left
  left_le : b.left ≤ capacity
  before : b.last < start → taken = 0
  spent : start ≤ b.last → taken + b.left ≤ capacity + rate * (b.last - start)
  taken_le : taken ≤ capacity + rate * (stop - start)

section

variable {capacity rate start stop now amount taken : K} {b b' : Level K}

omit [IsStrictOrderedRing K] in
theorem counted_of_nonneg (h : 0 ≤ amount) :
    0 ≤ counted start stop now amount ∧ counted start stop now amount ≤ amount := by
  rw [counted]
  split
  · exact ⟨h, le_refl _⟩
  · exact ⟨le_refl _, h⟩

/-- At the start nothing has been taken. -/
theorem within_zero (hrate : 0 ≤ rate) (hinterval : start ≤ stop) (hleft : 0 ≤ b.left)
    (hle : b.left ≤ capacity) : Within capacity rate start stop b 0 where
  left_nonneg := hleft
  left_le := hle
  before _ := rfl
  spent h := by
    have hgain : 0 ≤ rate * (b.last - start) := mul_nonneg hrate (sub_nonneg.mpr h)
    linarith
  taken_le := by
    have hgain : 0 ≤ rate * (stop - start) := mul_nonneg hrate (sub_nonneg.mpr hinterval)
    linarith

/-- **A move keeps the account.** -/
theorem Within.move (hrate : 0 ≤ rate) (h : Within capacity rate start stop b taken)
    (hmove : Move capacity rate b b' now amount) :
    Within capacity rate start stop b' (taken + counted start stop now amount) := by
  obtain ⟨hcounted, hle⟩ := @counted_of_nonneg K _ _ start stop now amount hmove.amount_nonneg
  have hcap := hmove.le_capacity
  have hrefilled := hmove.le_refilled
  have hspent : start ≤ b'.last →
      taken + counted start stop now amount + b'.left ≤ capacity + rate * (b'.last - start) := by
    intro hstart
    rcases lt_or_ge b.last start with hbefore | hbefore
    · -- what was left at the start of the interval is at most the capacity
      have hgain : 0 ≤ rate * (b'.last - start) := mul_nonneg hrate (sub_nonneg.mpr hstart)
      have hzero := h.before hbefore
      linarith
    · have hold := h.spent hbefore
      have hsum : rate * (b.last - start) + rate * (b'.last - b.last) = rate * (b'.last - start) := by ring
      linarith
  refine ⟨hmove.left_nonneg, by linarith [hmove.amount_nonneg], ?_, hspent, ?_⟩
  · intro hbefore
    have hold := h.before (lt_of_le_of_lt hmove.forward hbefore)
    rw [hold, zero_add, counted]
    split
    · rename_i hwithin
      by_contra hne
      rw [hmove.last_eq hne] at hbefore
      exact absurd hwithin.1 (not_le.mpr hbefore)
    · rfl
  · by_cases hzero : counted start stop now amount = 0
    · rw [hzero, add_zero]
      exact h.taken_le
    · have hwithin : start ≤ now ∧ now ≤ stop := by
        by_contra hnot
        exact hzero (if_neg hnot)
      have hne : amount ≠ 0 := by
        rintro rfl
        exact hzero (if_pos hwithin)
      have hlast := hmove.last_eq hne
      have hbound := hspent (hlast.symm ▸ hwithin.1)
      rw [hlast] at hbound
      have hgain : rate * (now - start) ≤ rate * (stop - start) :=
        mul_le_mul_of_nonneg_left (sub_le_sub_right hwithin.2 start) hrate
      have hleft := hmove.left_nonneg
      linarith

end

end Budget
