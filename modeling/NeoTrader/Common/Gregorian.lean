import Mathlib.Algebra.Order.Ring.Int
import Mathlib.Order.SuccPred.IntervalSucc
import Mathlib.Tactic.Linarith

/-!
# Dates of the Gregorian calendar

Dates are counted in days, from the first day of year one on, and in weeks that begin on a Monday
and belong to the year that most of their days are in.

* **`ordinal_lt_iff`**: dates are in the order of their numbers;
* **`isoCalendar_mono`**: weeks are in the order of their dates.
-/

namespace Gregorian

/-! ## Years and months -/

def isLeap (year : ℤ) : Bool := year % 4 = 0 ∧ (year % 100 ≠ 0 ∨ year % 400 = 0)

def daysInMonth (leap : Bool) (month : ℕ) : ℕ :=
  if month = 2 then (if leap then 29 else 28)
  else if month ∈ [4, 6, 9, 11] then 30 else 31

def daysBeforeMonth (leap : Bool) (month : ℕ) : ℕ :=
  [0, 31, 59, 90, 120, 151, 181, 212, 243, 273, 304, 334].getD (month - 1) 0 +
    if 2 < month ∧ leap then 1 else 0

def daysBeforeYear (year : ℤ) : ℤ :=
  (year - 1) * 365 + (year - 1) / 4 - (year - 1) / 100 + (year - 1) / 400

def daysInYear (year : ℤ) : ℤ := if isLeap year then 366 else 365

theorem daysBeforeYear_succ (year : ℤ) :
    daysBeforeYear (year + 1) = daysBeforeYear year + daysInYear year := by
  have hleap : isLeap year = true ↔ year % 4 = 0 ∧ (year % 100 ≠ 0 ∨ year % 400 = 0) :=
    decide_eq_true_iff
  rw [daysInYear, daysBeforeYear, daysBeforeYear]
  split_ifs with h
  · rw [hleap] at h
    omega
  · rw [hleap] at h
    omega

theorem daysInYear_pos (year : ℤ) : 0 < daysInYear year := by
  rw [daysInYear]
  split_ifs <;> omega

theorem daysBeforeYear_lt {year year' : ℤ} (h : year < year') :
    daysBeforeYear year + daysInYear year ≤ daysBeforeYear year' := by
  have hmono : Monotone daysBeforeYear := monotone_int_of_le_succ fun y => by
    have hpos := daysInYear_pos y
    have hsucc := daysBeforeYear_succ y
    omega
  rw [← daysBeforeYear_succ]
  exact hmono h

/-- A month is over before the next ones begin. -/
theorem daysBeforeMonth_lt (leap : Bool) : ∀ month ≤ 12, ∀ month' ≤ 12, 1 ≤ month →
    month < month' →
    daysBeforeMonth leap month + daysInMonth leap month ≤ daysBeforeMonth leap month' := by
  cases leap <;> decide

/-- The months make up the year. -/
theorem daysBeforeMonth_add_le (leap : Bool) : ∀ month ≤ 12, 1 ≤ month →
    daysBeforeMonth leap month + daysInMonth leap month ≤ if leap then 366 else 365 := by
  cases leap <;> decide

/-! ## Dates -/

structure Date where
  year : ℤ
  month : ℕ
  day : ℕ
  month_pos : 1 ≤ month
  month_le : month ≤ 12
  day_pos : 1 ≤ day
  day_le : day ≤ daysInMonth (isLeap year) month
  deriving DecidableEq

/-- The date of a year, a month and a day, if there is one. -/
def Date.of? (year : ℤ) (month day : ℕ) : Option Date :=
  if h : (1 ≤ month ∧ month ≤ 12) ∧ 1 ≤ day ∧ day ≤ daysInMonth (isLeap year) month then
    some ⟨year, month, day, h.1.1, h.1.2, h.2.1, h.2.2⟩
  else none

namespace Date

variable {d d' : Date}

def yearDay (d : Date) : ℕ := daysBeforeMonth (isLeap d.year) d.month + d.day

/-- The number of a date, one for the first day of year one. -/
def ordinal (d : Date) : ℤ := daysBeforeYear d.year + d.yearDay

/-- A date is before another. -/
def Before (d d' : Date) : Prop :=
  d.year < d'.year ∨ d.year = d'.year ∧ (d.month < d'.month ∨ d.month = d'.month ∧ d.day < d'.day)

theorem yearDay_pos (d : Date) : 1 ≤ d.yearDay := d.day_pos.trans (Nat.le_add_left _ _)

theorem yearDay_le (d : Date) : (d.yearDay : ℤ) ≤ daysInYear d.year := by
  have hle := daysBeforeMonth_add_le (isLeap d.year) d.month d.month_le d.month_pos
  have hday := d.day_le
  rw [yearDay, daysInYear]
  split_ifs at hle ⊢ <;> omega

theorem ordinal_lt_of_before (h : d.Before d') : d.ordinal < d'.ordinal := by
  rw [ordinal, ordinal]
  rcases h with h | ⟨hyear, h | ⟨hmonth, h⟩⟩
  · have hyears := daysBeforeYear_lt h
    have hle := d.yearDay_le
    have hpos := d'.yearDay_pos
    omega
  · have hmonths := daysBeforeMonth_lt (isLeap d.year) d.month d.month_le d'.month d'.month_le
      d.month_pos h
    have hle := d.day_le
    have hpos := d'.day_pos
    rw [yearDay, yearDay, ← hyear]
    omega
  · rw [yearDay, yearDay, ← hyear, ← hmonth]
    omega

/-- **Dates are in the order of their numbers.** -/
theorem ordinal_lt_iff : d.ordinal < d'.ordinal ↔ d.Before d' := by
  refine ⟨fun h => ?_, ordinal_lt_of_before⟩
  by_contra hnot
  have hback : d = d' ∨ d'.Before d := by
    obtain ⟨year, month, day, _, _, _, _⟩ := d
    obtain ⟨year', month', day', _, _, _, _⟩ := d'
    simp only [Before, Date.mk.injEq] at hnot ⊢
    omega
  rcases hback with rfl | hback
  · exact lt_irrefl _ h
  · exact lt_asymm h (ordinal_lt_of_before hback)

theorem ordinal_injective : Function.Injective ordinal := by
  intro d d' h
  by_contra hne
  have hnot : ¬ d.Before d' := fun hb => (ordinal_lt_of_before hb).ne h
  have hnot' : ¬ d'.Before d := fun hb => (ordinal_lt_of_before hb).ne' h
  obtain ⟨year, month, day, _, _, _, _⟩ := d
  obtain ⟨year', month', day', _, _, _, _⟩ := d'
  simp only [Before, Date.mk.injEq] at hne hnot hnot'
  omega

/-- The day of the week, zero for a Monday. -/
def weekday (d : Date) : ℤ := (d.ordinal + 6) % 7

end Date

/-- The Monday of the first week of a year: the one with the first Thursday. -/
def isoWeek1Monday (year : ℤ) : ℤ :=
  let firstDay := daysBeforeYear year + 1
  let firstWeekday := (firstDay + 6) % 7
  if 3 < firstWeekday then firstDay - firstWeekday + 7 else firstDay - firstWeekday

/-- The year and the week of a date. -/
def Date.isoCalendar (d : Date) : ℤ × ℤ :=
  let week := (d.ordinal - isoWeek1Monday d.year) / 7
  if week < 0 then (d.year - 1, (d.ordinal - isoWeek1Monday (d.year - 1)) / 7 + 1)
  else if 52 ≤ week ∧ isoWeek1Monday (d.year + 1) ≤ d.ordinal then (d.year + 1, 1)
  else (d.year, week + 1)

theorem isoWeek1Monday_bounds (year : ℤ) : daysBeforeYear year - 2 ≤ isoWeek1Monday year ∧
    isoWeek1Monday year ≤ daysBeforeYear year + 4 ∧ (isoWeek1Monday year + 6) % 7 = 0 := by
  rw [isoWeek1Monday]
  split_ifs <;> omega

theorem isoWeek1Monday_succ (year : ℤ) : isoWeek1Monday year + 364 ≤ isoWeek1Monday (year + 1) := by
  have h := isoWeek1Monday_bounds year
  have h' := isoWeek1Monday_bounds (year + 1)
  have hsucc := daysBeforeYear_succ year
  have hdays : 365 ≤ daysInYear year := by
    rw [daysInYear]
    split_ifs <;> omega
  omega

theorem isoWeek1Monday_mono {year year' : ℤ} (h : year ≤ year') :
    isoWeek1Monday year ≤ isoWeek1Monday year' := by
  induction year', h using Int.le_induction with
  | base => exact Int.le_refl _
  | succ year' _ ih =>
    have hsucc := isoWeek1Monday_succ year'
    omega

/-- **The week of a date** is counted in the year whose weeks it is in. -/
theorem Date.isoCalendar_spec (d : Date) : isoWeek1Monday d.isoCalendar.1 ≤ d.ordinal ∧
    d.ordinal < isoWeek1Monday (d.isoCalendar.1 + 1) ∧
    d.isoCalendar.2 = (d.ordinal - isoWeek1Monday d.isoCalendar.1) / 7 + 1 := by
  have hthis := isoWeek1Monday_bounds d.year
  have hnext := isoWeek1Monday_bounds (d.year + 1)
  have hlast := isoWeek1Monday_bounds (d.year - 1)
  have hafter := isoWeek1Monday_succ (d.year + 1)
  have hweeks := isoWeek1Monday_succ d.year
  have hsucc := daysBeforeYear_succ d.year
  have hpred := daysBeforeYear_succ (d.year - 1)
  have hdays := daysInYear_pos (d.year - 1)
  have hpos := d.yearDay_pos
  have hle := d.yearDay_le
  have hordinal : d.ordinal = daysBeforeYear d.year + d.yearDay := rfl
  rw [sub_add_cancel] at hpred
  rw [isoCalendar]
  split_ifs with hearly hlate
  · dsimp only
    rw [sub_add_cancel]
    have hlong : 365 ≤ daysInYear (d.year - 1) := by
      rw [daysInYear]
      split_ifs <;> omega
    refine ⟨?_, ?_, rfl⟩ <;> omega
  · dsimp only
    refine ⟨hlate.2, ?_, ?_⟩ <;> omega
  · dsimp only
    refine ⟨?_, ?_, rfl⟩ <;> omega

/-- **Weeks are in the order of their dates.** -/
theorem Date.isoCalendar_mono {d d' : Date} (h : d.ordinal ≤ d'.ordinal) :
    d.isoCalendar.1 < d'.isoCalendar.1 ∨
      d.isoCalendar.1 = d'.isoCalendar.1 ∧ d.isoCalendar.2 ≤ d'.isoCalendar.2 := by
  obtain ⟨hlo, -, hweek⟩ := d.isoCalendar_spec
  obtain ⟨-, hhi', hweek'⟩ := d'.isoCalendar_spec
  rcases lt_trichotomy d.isoCalendar.1 d'.isoCalendar.1 with hlt | heq | hgt
  · exact Or.inl hlt
  · refine Or.inr ⟨heq, ?_⟩
    rw [hweek, hweek', heq]
    omega
  · have hmono := isoWeek1Monday_mono (Int.add_one_le_iff.2 hgt)
    omega

end Gregorian
