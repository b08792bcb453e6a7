import Mathlib.Algebra.Order.Ring.Nat
import Mathlib.Order.Monotone.Basic
import Mathlib.Tactic.SplitIfs

/-!
# The calendar

Dates in years that are counted from zero, the day after one, and their number.
-/

namespace Pcsx2.Foundation

def leapYear (year : Nat) : Bool := year % 4 = 0 ∧ (year % 100 ≠ 0 ∨ year % 400 = 0)

def monthLength (year month : Nat) : Nat :=
  if month = 2 then if leapYear year then 29 else 28
  else if month = 4 ∨ month = 6 ∨ month = 9 ∨ month = 11 then 30
  else 31

def yearLength (year : Nat) : Nat := if leapYear year then 366 else 365

structure Date where
  year : Nat
  month : Nat
  day : Nat
  deriving DecidableEq

theorem monthLength_pos (year month : Nat) : 1 ≤ monthLength year month := by
  unfold monthLength
  split_ifs <;> decide

theorem monthLength_le (year month : Nat) : monthLength year month ≤ 31 := by
  unfold monthLength
  split_ifs <;> decide

/-! ## Days before -/

def daysBeforeYear : Nat → Nat
  | 0 => 0
  | year + 1 => daysBeforeYear year + yearLength year

def daysBeforeMonth (year : Nat) : Nat → Nat
  | 0 => 0
  | months + 1 => daysBeforeMonth year months + monthLength year (months + 1)

theorem daysBeforeMonth_twelve (year : Nat) : daysBeforeMonth year 12 = yearLength year := by
  cases leap : leapYear year <;> simp [daysBeforeMonth, monthLength, yearLength, leap]

theorem daysBeforeYear_monotone : Monotone daysBeforeYear :=
  monotone_nat_of_le_succ fun year => Nat.le_add_right _ (yearLength year)

theorem daysBeforeMonth_monotone (year : Nat) : Monotone (daysBeforeMonth year) :=
  monotone_nat_of_le_succ fun months => Nat.le_add_right _ (monthLength year (months + 1))

theorem step_unique {f : Nat → Nat} (mono : Monotone f) {n i j : Nat} (first : f i ≤ n) (last : n < f (i + 1))
    (first' : f j ≤ n) (last' : n < f (j + 1)) : i = j := by
  rcases lt_trichotomy i j with less | same | less
  · have := mono (show i + 1 ≤ j from less)
    omega
  · exact same
  · have := mono (show j + 1 ≤ i from less)
    omega

/-! ## The first century of four -/

section

variable {start : Nat} (four : start % 400 = 0)
include four

theorem leapYear_century {year : Nat} (below : year < 100) : leapYear (start + year) = decide (year % 4 = 0) := by
  unfold leapYear
  congr 1
  apply propext
  omega

theorem daysBeforeYear_fours {k : Nat} (below : k ≤ 25) :
    daysBeforeYear (start + 4 * k) = daysBeforeYear start + 1461 * k := by
  induction k with
  | zero => rfl
  | succ k ih =>
    have next : daysBeforeYear (start + 4 * (k + 1)) = daysBeforeYear (start + 4 * k) + yearLength (start + 4 * k) +
        yearLength (start + (4 * k + 1)) + yearLength (start + (4 * k + 2)) + yearLength (start + (4 * k + 3)) := rfl
    have leap : yearLength (start + 4 * k) = 366 := by
      rw [yearLength, leapYear_century four (by omega), if_pos (by simp)]
    have common (i : Nat) (positive : 1 ≤ i) (small : i ≤ 3) : yearLength (start + (4 * k + i)) = 365 := by
      rw [yearLength, leapYear_century four (by omega), if_neg]
      rw [decide_eq_true_eq]
      omega
    rw [next, ih (by omega), leap, common 1 (by decide) (by decide), common 2 (by decide) (by decide),
      common 3 (by decide) (by decide)]
    omega

theorem daysBeforeYear_century : daysBeforeYear (start + 100) = daysBeforeYear start + 36525 :=
  daysBeforeYear_fours four le_rfl

end

/-! ## Dates -/

namespace Date

variable {d e : Date}

structure Valid (d : Date) : Prop where
  month : 1 ≤ d.month ∧ d.month ≤ 12
  day : 1 ≤ d.day ∧ d.day ≤ monthLength d.year d.month

def number (d : Date) : Nat := daysBeforeYear d.year + daysBeforeMonth d.year (d.month - 1) + (d.day - 1)

def next (d : Date) : Date :=
  if d.day < monthLength d.year d.month then { d with day := d.day + 1 }
  else if d.month < 12 then ⟨d.year, d.month + 1, 1⟩
  else ⟨d.year + 1, 1, 1⟩

theorem Valid.next (valid : d.Valid) : d.next.Valid := by
  obtain ⟨⟨first, last⟩, begins, ends⟩ := valid
  unfold Date.next
  split_ifs with within before
  · exact ⟨⟨first, last⟩, Nat.le_add_left 1 d.day, within⟩
  · exact ⟨⟨Nat.le_add_left 1 d.month, before⟩, le_rfl, monthLength_pos _ _⟩
  · exact ⟨⟨le_rfl, Nat.le_add_left 1 11⟩, le_rfl, monthLength_pos _ _⟩

theorem daysBeforeMonth_step (positive : 1 ≤ d.month) :
    daysBeforeMonth d.year d.month = daysBeforeMonth d.year (d.month - 1) + monthLength d.year d.month := by
  obtain ⟨months, same⟩ := Nat.exists_eq_add_of_le' positive
  rw [same]
  rfl

theorem number_next (valid : d.Valid) : d.next.number = d.number + 1 := by
  obtain ⟨⟨first, last⟩, begins, ends⟩ := valid
  have month := daysBeforeMonth_step first
  unfold Date.next
  split_ifs with within before
  · simp only [number]
    omega
  · simp only [number, Nat.add_sub_cancel]
    omega
  · have december : d.month = 12 := by omega
    rw [december, daysBeforeMonth_twelve] at month
    have january : daysBeforeMonth (d.year + 1) 0 = 0 := rfl
    simp only [number, daysBeforeYear, Nat.sub_self, january, december]
    rw [december] at ends within
    omega

theorem Valid.below_month (valid : d.Valid) :
    daysBeforeMonth d.year (d.month - 1) + (d.day - 1) < daysBeforeMonth d.year d.month := by
  rw [daysBeforeMonth_step valid.month.1]
  have day := valid.day
  omega

theorem Valid.below_year (valid : d.Valid) : d.number < daysBeforeYear (d.year + 1) := by
  have below := valid.below_month
  have whole := daysBeforeMonth_monotone d.year valid.month.2
  rw [daysBeforeMonth_twelve] at whole
  simp only [number, daysBeforeYear]
  omega

theorem above_year (d : Date) : daysBeforeYear d.year ≤ d.number := by
  simp only [number]
  omega

theorem number_injective (dvalid : d.Valid) (evalid : e.Valid) (same : d.number = e.number) : d = e := by
  have year : d.year = e.year := step_unique daysBeforeYear_monotone d.above_year dvalid.below_year
    (same ▸ e.above_year) (same ▸ evalid.below_year)
  obtain ⟨y, m, k⟩ := d
  obtain ⟨y', m', k'⟩ := e
  obtain rfl : y = y' := year
  have dbelow := dvalid.below_month
  have ebelow := evalid.below_month
  obtain ⟨⟨dfirst, -⟩, dday, -⟩ := dvalid
  obtain ⟨⟨efirst, -⟩, eday, -⟩ := evalid
  simp only [number] at *
  have months : m - 1 = m' - 1 := by
    apply step_unique (daysBeforeMonth_monotone y) (n := daysBeforeMonth y (m - 1) + (k - 1)) (Nat.le_add_right _ _)
    · rwa [Nat.sub_add_cancel dfirst]
    · omega
    · rw [Nat.sub_add_cancel efirst]
      omega
  obtain rfl : m = m' := by omega
  obtain rfl : k = k' := by omega
  rfl

end Date

end Pcsx2.Foundation
