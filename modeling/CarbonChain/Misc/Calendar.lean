import Mathlib.Order.Monotone.Basic
import Mathlib.Data.Nat.Find

/-!
# The Gregorian calendar

Years and days are counted from 1 January 1970, and the calendar year of a Unix time is the
last one that has started. A year of 365 days is never longer than a calendar year, so counting
in such years runs ahead of the calendar.
-/

namespace CarbonChain.Calendar

/-- The Gregorian rule. -/
def isLeap (year : Nat) : Bool :=
  year % 4 == 0 && (year % 100 != 0 || year % 400 == 0)

/-- The days of a year. -/
def daysIn (year : Nat) : Nat := if isLeap year then 366 else 365

/-- The day on which the `n`-th year after 1970 starts. -/
def firstDay : Nat → Nat
  | 0 => 0
  | n + 1 => firstDay n + daysIn (1970 + n)

example : firstDay 30 = 10957 := by decide

theorem daysIn_ge (year : Nat) : 365 ≤ daysIn year := by
  unfold daysIn
  split <;> omega

theorem firstDay_ge (n : Nat) : 365 * n ≤ firstDay n := by
  induction n with
  | zero => exact le_refl 0
  | succ n ih =>
      have year := daysIn_ge (1970 + n)
      show 365 * (n + 1) ≤ firstDay n + daysIn (1970 + n)
      omega

theorem firstDay_strictMono : StrictMono firstDay := by
  apply strictMono_nat_of_lt_succ
  intro n
  have year := daysIn_ge (1970 + n)
  show firstDay n < firstDay n + daysIn (1970 + n)
  omega

/-- The number of years that have ended before a day. -/
def yearsBefore (day : Nat) : Nat := Nat.findGreatest (fun n => firstDay n ≤ day) day

theorem le_yearsBefore_iff {n day : Nat} : n ≤ yearsBefore day ↔ firstDay n ≤ day := by
  have started : firstDay (yearsBefore day) ≤ day :=
    Nat.findGreatest_spec (P := fun n => firstDay n ≤ day) (Nat.zero_le day) (Nat.zero_le day)
  constructor
  · intro le
    exact (firstDay_strictMono.monotone le).trans started
  · intro first
    have days := firstDay_ge n
    exact Nat.le_findGreatest (by omega) first

/-- The calendar year, in UTC, of a Unix time in seconds. -/
def yearAt (timestamp : Nat) : Nat := 1970 + yearsBefore (timestamp / 86400)

theorem le_yearAt_iff {n timestamp : Nat} :
    1970 + n ≤ yearAt timestamp ↔ firstDay n * 86400 ≤ timestamp := by
  have day : firstDay n ≤ timestamp / 86400 ↔ firstDay n * 86400 ≤ timestamp :=
    Nat.le_div_iff_mul_le (by decide)
  rw [← day, ← le_yearsBefore_iff]
  unfold yearAt
  omega

theorem yearAt_eq_iff {n timestamp : Nat} :
    yearAt timestamp = 1970 + n ↔
      firstDay n * 86400 ≤ timestamp ∧ timestamp < firstDay (n + 1) * 86400 := by
  rw [← le_yearAt_iff, ← Nat.not_le, ← le_yearAt_iff]
  omega

/-- Years of 365 days run ahead of the calendar. -/
theorem yearAt_le (timestamp : Nat) : yearAt timestamp ≤ 1970 + timestamp / 31536000 := by
  have first : firstDay (yearsBefore (timestamp / 86400)) * 86400 ≤ timestamp := by
    rw [← le_yearAt_iff]
    exact le_refl _
  have days := firstDay_ge (yearsBefore (timestamp / 86400))
  unfold yearAt
  omega

end CarbonChain.Calendar
