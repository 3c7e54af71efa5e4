import Mathlib.Order.Monotone.Basic
import Mathlib.Algebra.Order.Group.Int
import Mathlib.Tactic.IntervalCases
import ShardQuery.Time.Calendar

/-!
# The order of dates

A month begins on the day after the last one of the month before it, so the number of days of a date
grows with its month and, within a month, with its day. For dates of the calendar the order by
number of days is therefore the order by year, month and day of the month.
-/

namespace ShardQuery.Date

/-- The earlier one of two dates: by year, then by month, then by day of the month. -/
def Before (a b : Date) : Prop :=
  a.year < b.year ∨ a.year = b.year ∧ (a.month < b.month ∨ a.month = b.month ∧ a.day < b.day)

theorem isValid_iff {d : Date} : d.isValid = true ↔
    (1 ≤ d.month ∧ d.month ≤ 12) ∧ 1 ≤ d.day ∧ d.day ≤ daysInMonth d.year d.month := by
  simp [isValid, and_assoc]

theorem daysInMonth_le (year : Int) (month : Nat) : daysInMonth year month ≤ 31 := by
  unfold daysInMonth
  split
  · split <;> decide
  all_goals decide

/-- Months counted on from March of the year zero. -/
def monthIndex (d : Date) : Int := 12 * d.year + d.month - 3

def monthStart (index : Int) : Int :=
  let y := index / 12
  y * 365 + y / 4 - y / 100 + y / 400 + (153 * (index % 12) + 2) / 5 - 719468

theorem toDays_eq {d : Date} (hd : d.isValid = true) :
    d.toDays = monthStart d.monthIndex + (d.day - 1) := by
  obtain ⟨⟨hlo, hhi⟩, -⟩ := isValid_iff.1 hd
  have hmonth : ((d.month : Int) + 9) % 12 = d.monthIndex % 12 := by
    rw [monthIndex]
    omega
  have hyear : (if d.month ≤ 2 then d.year - 1 else d.year) = d.monthIndex / 12 := by
    rw [monthIndex]
    split <;> omega
  simp only [toDays, monthStart, hmonth, hyear]
  omega

theorem monthStart_le_succ (index : Int) : monthStart index ≤ monthStart (index + 1) := by
  simp only [monthStart]
  omega

theorem monthStart_le_of_le {i j : Int} (h : i ≤ j) : monthStart i ≤ monthStart j :=
  monotone_int_of_le_succ monthStart_le_succ h

/-- The number of days of a month is the distance to the first day of the next one. -/
theorem monthStart_succ (year : Int) {month : Nat} (hlo : 1 ≤ month) (hhi : month ≤ 12) :
    monthStart (12 * year + month - 3 + 1) =
      monthStart (12 * year + month - 3) + daysInMonth year month := by
  -- March of a year opens the year that the formula counts, so only February depends on it
  have hmonth : month = 1 ∨ month = 2 ∨ 3 ≤ month := by omega
  rcases hmonth with rfl | rfl | hmonth
  · simp only [monthStart, daysInMonth]
    omega
  · have hleap : isLeap year = true ↔ year % 4 = 0 ∧ (year % 100 ≠ 0 ∨ year % 400 = 0) := by
      simp [isLeap]
    have hyear : (12 * year + (2 : Nat) - 3) / 12 = year - 1 := by omega
    have hnext : (12 * year + (2 : Nat) - 3 + 1) / 12 = year := by omega
    have hlast : (12 * year + (2 : Nat) - 3) % 12 = 11 := by omega
    have hfirst : (12 * year + (2 : Nat) - 3 + 1) % 12 = 0 := by omega
    simp only [monthStart, hyear, hnext, hlast, hfirst]
    by_cases h : isLeap year = true
    · have hdays : daysInMonth year 2 = 29 := if_pos h
      rw [hleap] at h
      omega
    · have hdays : daysInMonth year 2 = 28 := if_neg h
      rw [hleap] at h
      omega
  · have hyear : (12 * year + month - 3) / 12 = year := by omega
    have hnext : (12 * year + month - 3 + 1) / 12 = year := by omega
    simp only [monthStart, hyear, hnext]
    interval_cases month <;> simp only [daysInMonth] <;> omega

theorem toDays_lt_of_before {a b : Date} (ha : a.isValid = true) (hb : b.isValid = true)
    (h : a.Before b) : a.toDays < b.toDays := by
  obtain ⟨⟨halo, hahi⟩, hapos, haday⟩ := isValid_iff.1 ha
  obtain ⟨⟨hblo, hbhi⟩, hbpos, hbday⟩ := isValid_iff.1 hb
  rw [toDays_eq ha, toDays_eq hb]
  have hindex : a.monthIndex < b.monthIndex ∨ a.monthIndex = b.monthIndex ∧ a.day < b.day := by
    simp only [monthIndex, Before] at h ⊢
    omega
  rcases hindex with hindex | ⟨hindex, hday⟩
  · have hnext : monthStart (a.monthIndex + 1) = monthStart a.monthIndex + daysInMonth a.year a.month :=
      monthStart_succ a.year halo hahi
    have hmono := monthStart_le_of_le (Int.add_one_le_iff.2 hindex)
    omega
  · rw [hindex]
    omega

theorem toDays_lt_iff {a b : Date} (ha : a.isValid = true) (hb : b.isValid = true) :
    a.toDays < b.toDays ↔ a.Before b := by
  refine ⟨fun h => ?_, toDays_lt_of_before ha hb⟩
  -- dates that are not in this order are in the other one or equal
  by_contra hnot
  have hother : b.Before a ∨ a = b := by
    obtain ⟨y, m, d⟩ := a
    obtain ⟨y', m', d'⟩ := b
    simp only [Before, Date.mk.injEq] at hnot ⊢
    omega
  rcases hother with hother | rfl
  · exact absurd (toDays_lt_of_before hb ha hother) (by omega)
  · omega

end ShardQuery.Date
