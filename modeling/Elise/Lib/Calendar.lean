/-
Elise/Lib/Calendar.lean

The Gregorian calendar, also for the years before it was made.

Days are counted from 1 January of the year 1, a Monday.  A date is known by its number
(`Date.number_inj`).
-/
import Mathlib.Algebra.BigOperators.Intervals
import Mathlib.Algebra.Order.BigOperators.Group.Finset

namespace Calendar

def Leap (year : Nat) : Prop := year % 4 = 0 ∧ (year % 100 ≠ 0 ∨ year % 400 = 0)

instance (year : Nat) : Decidable (Leap year) := inferInstanceAs (Decidable (_ ∧ _))

def yearLength (year : Nat) : Nat := if Leap year then 366 else 365

def monthLength (year month : Nat) : Nat :=
  if month = 2 then (if Leap year then 29 else 28)
  else if month = 4 ∨ month = 6 ∨ month = 9 ∨ month = 11 then 30 else 31

/-- The days before a year: every fourth year has one more, but of the hundredth ones only the fourth. -/
def yearStart (year : Nat) : Nat :=
  365 * (year - 1) + ((year - 1) / 4 + (year - 1) / 400 - (year - 1) / 100)

/-- The days of a year before a month. -/
def monthStart (year month : Nat) : Nat := ∑ m ∈ Finset.Ico 1 month, monthLength year m

structure Date where
  year : Nat
  month : Nat
  day : Nat
  year_pos : 1 ≤ year
  month_pos : 1 ≤ month
  month_le : month ≤ 12
  day_pos : 1 ≤ day
  day_le : day ≤ monthLength year month

def Date.number (d : Date) : Nat := yearStart d.year + monthStart d.year d.month + (d.day - 1)

def dayNames : List String := ["Mon", "Tue", "Wed", "Thu", "Fri", "Sat", "Sun"]

def dayName (n : Nat) : String := dayNames.getD (n % 7) ""

/-- 1 January 1970 -/
def epoch : Date := ⟨1970, 1, 1, by decide, by decide, by decide, by decide, by decide⟩

example : epoch.number = 719162 ∧ dayName epoch.number = "Thu" := by decide

theorem yearStart_succ {year : Nat} (h : 1 ≤ year) : yearStart (year + 1) = yearStart year + yearLength year := by
  rw [yearStart, yearStart, yearLength, Nat.add_sub_cancel]
  by_cases hleap : Leap year
  · rw [if_pos hleap]
    rw [Leap] at hleap
    omega
  · rw [if_neg hleap]
    rw [Leap] at hleap
    omega

theorem yearStart_mono {year year' : Nat} (h : 1 ≤ year) (hle : year ≤ year') : yearStart year ≤ yearStart year' := by
  induction year', hle using Nat.le_induction with
  | base => exact Nat.le_refl _
  | succ n hn ih =>
      rw [yearStart_succ (by omega)]
      omega

theorem monthStart_succ {month : Nat} (h : 1 ≤ month) (year : Nat) :
    monthStart year (month + 1) = monthStart year month + monthLength year month :=
  Finset.sum_Ico_succ_top h _

theorem monthStart_mono (year : Nat) {month month' : Nat} (hle : month ≤ month') :
    monthStart year month ≤ monthStart year month' :=
  Finset.sum_le_sum_of_subset (Finset.Ico_subset_Ico_right hle)

/-- The months make the year. -/
theorem monthStart_end (year : Nat) : monthStart year 13 = yearLength year := by
  rw [yearLength]
  by_cases hleap : Leap year
  · rw [if_pos hleap]
    simp [monthStart, Finset.sum_Ico_succ_top, monthLength, hleap]
  · rw [if_neg hleap]
    simp [monthStart, Finset.sum_Ico_succ_top, monthLength, hleap]

namespace Date

/-- A date comes before the next month. -/
theorem number_lt_month (d : Date) : d.number < yearStart d.year + monthStart d.year (d.month + 1) := by
  have hday := d.day_le
  have hpos := d.day_pos
  rw [number, monthStart_succ d.month_pos]
  omega

theorem number_lt_year (d : Date) : d.number < yearStart (d.year + 1) := by
  have hmonth := monthStart_mono d.year (show d.month + 1 ≤ 13 from Nat.succ_le_succ d.month_le)
  rw [monthStart_end] at hmonth
  have hlt := d.number_lt_month
  rw [yearStart_succ d.year_pos]
  omega

theorem year_le_of_number {d d' : Date} (h : d.number = d'.number) : d.year ≤ d'.year := by
  by_contra hlt
  have hmono := yearStart_mono (Nat.le_add_left 1 _) (show d'.year + 1 ≤ d.year by omega)
  have hbefore := d'.number_lt_year
  have hafter : yearStart d.year ≤ d.number := by rw [number]; omega
  omega

theorem month_le_of_number {d d' : Date} (h : d.number = d'.number) (hyear : d.year = d'.year) :
    d.month ≤ d'.month := by
  by_contra hlt
  have hmono := monthStart_mono d.year (show d'.month + 1 ≤ d.month by omega)
  have hbefore := d'.number_lt_month
  have hafter : yearStart d.year + monthStart d.year d.month ≤ d.number := by rw [number]; omega
  rw [← hyear] at hbefore
  omega

theorem number_inj {d d' : Date} (h : d.number = d'.number) : d = d' := by
  have hyear := Nat.le_antisymm (year_le_of_number h) (year_le_of_number h.symm)
  have hmonth := Nat.le_antisymm (month_le_of_number h hyear) (month_le_of_number h.symm hyear.symm)
  have hpos := d.day_pos
  have hpos' := d'.day_pos
  obtain ⟨year, month, day, _, _, _, _, _⟩ := d
  obtain ⟨year', month', day', _, _, _, _, _⟩ := d'
  subst hyear hmonth
  simp only [number] at h
  simp only [mk.injEq, true_and]
  omega

end Date

end Calendar
