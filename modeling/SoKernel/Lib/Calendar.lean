import Mathlib.Tactic
import Mathlib.Algebra.BigOperators.Intervals

namespace SoKernel.Lib
open Finset

/-! ## The Gregorian calendar -/

/-- 1 in a leap year. -/
def leapDay (year : Nat) : Nat := if year % 4 = 0 ∧ year % 100 ≠ 0 ∨ year % 400 = 0 then 1 else 0

def monthLength (year month : Nat) : Nat :=
  if month = 2 then 28 + leapDay year
  else if month = 4 ∨ month = 6 ∨ month = 9 ∨ month = 11 then 30
  else 31

/-- The days of the year before a month. -/
def daysBefore (year month : Nat) : Nat := ∑ m ∈ Ico 1 month, monthLength year m

/-- The leap days before a year. -/
def leapDays (year : Nat) : Nat := ∑ y ∈ range year, leapDay y

@[ext] structure Date where
  year : Nat
  month : Nat
  day : Nat
  month_pos : 1 ≤ month
  month_le : month ≤ 12
  day_pos : 1 ≤ day
  day_le : day ≤ monthLength year month

/-- Days are counted from the beginning of year 0. -/
def Date.number (date : Date) : Nat :=
  365 * date.year + leapDays date.year + daysBefore date.year date.month + (date.day - 1)

structure Moment where
  date : Date
  hour : Nat
  minute : Nat
  second : Nat
  hour_lt : hour < 24
  minute_lt : minute < 60
  second_lt : second < 60

/-- Seconds are counted from the beginning of year 0. -/
def Moment.seconds (moment : Moment) : Nat :=
  86400 * moment.date.number + 3600 * moment.hour + 60 * moment.minute + moment.second

variable {year month more : Nat} {date earlier later : Date}

theorem leapDay_le : leapDay year ≤ 1 := by
  unfold leapDay
  split <;> omega

theorem monthLength_le : monthLength year month ≤ 31 := by
  have leap : leapDay year ≤ 1 := leapDay_le
  unfold monthLength
  split
  · omega
  · split <;> omega

theorem daysBefore_succ (positive : 1 ≤ month) :
    daysBefore year (month + 1) = daysBefore year month + monthLength year month :=
  sum_Ico_succ_top positive _

theorem leapDays_succ : leapDays (year + 1) = leapDays year + leapDay year := sum_range_succ _ _

theorem leapDays_add : leapDays year ≤ leapDays (year + more) ∧
    leapDays (year + more) ≤ leapDays year + more := by
  induction more with
  | zero => exact ⟨Nat.le_refl _, Nat.le_refl _⟩
  | succ more ih =>
    have leap : leapDay (year + more) ≤ 1 := leapDay_le
    rw [← Nat.add_assoc, leapDays_succ]
    omega

/-! ## Months of thirty days -/

/-- How many days the months before this one have more than 30 each. -/
def excess (year month : Nat) : Int := daysBefore year month - 30 * (month - 1 : Int)

theorem excess_one : excess year 1 = 0 := rfl

theorem excess_succ (positive : 1 ≤ month) :
    excess year (month + 1) = excess year month + monthLength year month - 30 := by
  unfold excess
  rw [daysBefore_succ positive]
  push_cast
  ring

theorem excess_bounds (positive : 1 ≤ month) (last : month ≤ 12) :
    -1 ≤ excess year month ∧ excess year month ≤ 4 + leapDay year := by
  interval_cases month <;> simp [excess_succ, excess_one, monthLength] <;> omega

theorem excess_late (late : 11 ≤ month) (last : month ≤ 12) :
    excess year month = 4 + leapDay year := by
  interval_cases month <;> simp [excess_succ, excess_one, monthLength] <;> ring

theorem excess_early (positive : 1 ≤ month) (early : month ≤ 2) : excess year month ≤ 1 := by
  interval_cases month <;> simp [excess_succ, excess_one, monthLength]

theorem Date.bounds (date : Date) : 1 ≤ date.month ∧ date.month ≤ 12 ∧ 1 ≤ date.day ∧
    date.day ≤ 31 :=
  ⟨date.month_pos, date.month_le, date.day_pos, date.day_le.trans monthLength_le⟩

/-- The number of a day, with the excess of its month. -/
theorem Date.number_eq (date : Date) : (date.number : Int) = 365 * date.year + leapDays date.year +
    30 * (date.month - 1) + excess date.year date.month + (date.day - 1) := by
  have positive := date.day_pos
  unfold number excess
  push_cast [positive]
  ring

theorem daysBefore_add (positive : 1 ≤ month) (later : month ≤ more) :
    daysBefore year more = daysBefore year month + ∑ m ∈ Ico month more, monthLength year m :=
  (sum_Ico_consecutive _ positive later).symm

/-- In one year an earlier day is in no later month. -/
theorem Date.month_le_of_number_le (same : earlier.year = later.year)
    (ordered : earlier.number ≤ later.number) : earlier.month ≤ later.month := by
  by_contra after
  have days := later.day_le
  have positive := later.bounds
  have month : daysBefore later.year (later.month + 1) = _ := daysBefore_succ positive.1
  have months : daysBefore later.year earlier.month =
      daysBefore later.year (later.month + 1) + _ := daysBefore_add (by omega) (by omega)
  unfold number at ordered
  rw [same, months, month] at ordered
  omega

/-- Two days within fifty are in one year where the years between them have 365 days, and the
months 30, taken together. -/
theorem Date.year_eq (ordered : earlier.number ≤ later.number)
    (near : later.number ≤ earlier.number + 50) (even : (leapDays earlier.year : Int) +
      excess earlier.year earlier.month = leapDays later.year + excess later.year later.month) :
    earlier.year = later.year := by
  have first := earlier.number_eq
  have second := later.number_eq
  have bounds := earlier.bounds
  have bounds' := later.bounds
  by_contra differ
  have next : later.year = earlier.year + 1 := by omega
  have late : excess earlier.year earlier.month = 4 + leapDay earlier.year :=
    excess_late (by omega) (by omega)
  have early : excess later.year later.month ≤ 1 := excess_early (by omega) (by omega)
  have leaps : leapDays (earlier.year + 1) = _ := leapDays_succ
  rw [next] at even early
  omega

end SoKernel.Lib
