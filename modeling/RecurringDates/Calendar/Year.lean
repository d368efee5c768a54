/-!
# Years

The proleptic Gregorian year, numbered astronomically: year 0 comes before year 1, and negative
years before that. A *day number* counts the days since 0001-01-01, which is day 0 and a Monday.

The main statements say that years follow each other without a gap (`firstDay_succ`) and that
`Year.ofDay` names the one year that holds a day (`firstDay_ofDay_le`, `lt_firstDay_ofDay_succ`,
`ofDay_eq_of_mem`).
-/

namespace RecurringDates.Year

/-! ## §1 Leap years -/

/-- Every fourth year is a leap year, a century only if 400 divides it. -/
def IsLeap (year : Int) : Prop :=
  year % 4 = 0 ∧ (year % 100 ≠ 0 ∨ year % 400 = 0)

instance (year : Int) : Decidable (IsLeap year) := by
  unfold IsLeap
  infer_instance

/-- The one extra day of a leap year. -/
def leapDay (year : Int) : Int :=
  if IsLeap year then 1 else 0

/-- The number of days of a year. -/
def length (year : Int) : Int :=
  365 + leapDay year

/-! ## §2 First days -/

/-- The day number of January 1. -/
def firstDay (year : Int) : Int :=
  365 * (year - 1) + (year - 1) / 4 - (year - 1) / 100 + (year - 1) / 400

/-- A year begins where the one before it ends. -/
theorem firstDay_succ (year : Int) : firstDay (year + 1) = firstDay year + length year := by
  simp only [firstDay, length, leapDay]
  by_cases hleap : IsLeap year
  · rw [if_pos hleap]
    unfold IsLeap at hleap
    omega
  · rw [if_neg hleap]
    unfold IsLeap at hleap
    omega

theorem length_pos (year : Int) : 0 < length year := by
  simp only [length, leapDay]
  split <;> omega

/-! ## §3 The year of a day -/

/-- The year that holds a day. In 400 years there are 146097 days, so the quotient is the year
or the one before it. -/
def ofDay (day : Int) : Int :=
  let guess := 400 * day / 146097 + 1
  if day < firstDay (guess + 1) then guess else guess + 1

theorem firstDay_ofDay_le (day : Int) : firstDay (ofDay day) ≤ day := by
  simp only [ofDay]
  split
  · -- The quotient never overshoots: the mean year is at most two days off any actual one.
    simp only [firstDay] at *
    omega
  · omega

theorem lt_firstDay_ofDay_succ (day : Int) : day < firstDay (ofDay day + 1) := by
  simp only [ofDay]
  split
  · assumption
  · simp only [firstDay] at *
    omega

theorem firstDay_lt_of_lt {a b : Int} (h : a < b) : firstDay a < firstDay b := by
  simp only [firstDay]
  omega

theorem firstDay_le_of_le {a b : Int} (h : a ≤ b) : firstDay a ≤ firstDay b := by
  simp only [firstDay]
  omega

/-- **Years do not overlap**: a day between two first days belongs to that year. -/
theorem ofDay_eq_of_mem {year day : Int} (h : firstDay year ≤ day)
    (h' : day < firstDay (year + 1)) : ofDay day = year := by
  have hlow := firstDay_ofDay_le day
  have hhigh := lt_firstDay_ofDay_succ day
  rcases Int.lt_trichotomy (ofDay day) year with hlt | heq | hgt
  · have := firstDay_le_of_le (show ofDay day + 1 ≤ year by omega)
    omega
  · exact heq
  · have := firstDay_le_of_le (show year + 1 ≤ ofDay day by omega)
    omega

end RecurringDates.Year
