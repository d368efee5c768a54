import RecurringDates.Calendar.Month
import RecurringDates.Calendar.Weekday

/-!
# Dates

A date is a day number inside the calendar, which runs from January 1 of year -262143 to December
31 of year 262142. Its year, month, day of the month and weekday are read off the day number;
every way to make a date answers `none` where the calendar has no such day.

The main statements say that a date is known by its year, month and day
(`Date.ofYearMonthDay?_parts`) and that `Month.date?` answers exactly for the days of the month
inside the calendar (`Month.date?_eq_some_iff`).
-/

namespace RecurringDates

/-! ## §1 The calendar's bounds -/

namespace Calendar

/-- The first year of the calendar. -/
def firstYear : Int := -262143

/-- The last year of the calendar. -/
def lastYear : Int := 262142

/-- The day number of January 1 of the first year. -/
def firstDay : Int :=
  Year.firstDay firstYear

/-- The day number of December 31 of the last year. -/
def lastDay : Int :=
  Year.firstDay (lastYear + 1) - 1

theorem firstDay_eq : firstDay = -95746130 := by
  decide

theorem lastDay_eq : lastDay = 95745398 := by
  decide

end Calendar

/-! ## §2 Dates and their order -/

/-- A day of the calendar. -/
structure Date where
  /-- The days from 0001-01-01, negative before it. -/
  dayNumber : Int
  firstDay_le : Calendar.firstDay ≤ dayNumber
  le_lastDay : dayNumber ≤ Calendar.lastDay
deriving DecidableEq

namespace Date

instance : LE Date := ⟨fun a b => a.dayNumber ≤ b.dayNumber⟩

instance : LT Date := ⟨fun a b => a.dayNumber < b.dayNumber⟩

instance (a b : Date) : Decidable (a ≤ b) :=
  inferInstanceAs (Decidable (a.dayNumber ≤ b.dayNumber))

instance (a b : Date) : Decidable (a < b) :=
  inferInstanceAs (Decidable (a.dayNumber < b.dayNumber))

instance : Min Date := ⟨fun a b => if a ≤ b then a else b⟩

instance : Max Date := ⟨fun a b => if a ≤ b then b else a⟩

theorem le_def {a b : Date} : a ≤ b ↔ a.dayNumber ≤ b.dayNumber :=
  Iff.rfl

theorem lt_def {a b : Date} : a < b ↔ a.dayNumber < b.dayNumber :=
  Iff.rfl

theorem dayNumber_inj {a b : Date} (h : a.dayNumber = b.dayNumber) : a = b := by
  cases a
  cases b
  simp only at h
  subst h
  rfl

theorem dayNumber_min (a b : Date) : (min a b).dayNumber = min a.dayNumber b.dayNumber := by
  show (if a ≤ b then a else b).dayNumber = _
  split <;> simp only [le_def] at * <;> omega

theorem dayNumber_max (a b : Date) : (max a b).dayNumber = max a.dayNumber b.dayNumber := by
  show (if a ≤ b then b else a).dayNumber = _
  split <;> simp only [le_def] at * <;> omega

/-! ## §3 Dates from day numbers -/

/-- The date of a day number, if the calendar has that day. -/
def ofDayNumber? (day : Int) : Option Date :=
  if h : Calendar.firstDay ≤ day ∧ day ≤ Calendar.lastDay then some ⟨day, h.1, h.2⟩ else none

/-- The first day of the calendar. -/
def first : Date :=
  ⟨Calendar.firstDay, by decide, by decide⟩

/-- The last day of the calendar. -/
def last : Date :=
  ⟨Calendar.lastDay, by decide, by decide⟩

/-- The date a number of days later, or earlier if it is negative. -/
def addDays? (date : Date) (days : Int) : Option Date :=
  ofDayNumber? (date.dayNumber + days)

/-- The number of days from one date to another, negative if the other is earlier. -/
def daysTo (date other : Date) : Int :=
  other.dayNumber - date.dayNumber

theorem ofDayNumber?_eq_some_iff {day : Int} {date : Date} :
    ofDayNumber? day = some date ↔ date.dayNumber = day := by
  unfold ofDayNumber?
  constructor
  · intro h
    split at h
    · cases h
      rfl
    · cases h
  · intro h
    subst h
    rw [dif_pos ⟨date.firstDay_le, date.le_lastDay⟩]

theorem ofDayNumber?_dayNumber (date : Date) : ofDayNumber? date.dayNumber = some date :=
  ofDayNumber?_eq_some_iff.2 rfl

theorem ofDayNumber?_eq_none_iff {day : Int} :
    ofDayNumber? day = none ↔ day < Calendar.firstDay ∨ Calendar.lastDay < day := by
  unfold ofDayNumber?
  split
  · simp only [reduceCtorEq, false_iff]
    omega
  · simp only [true_iff]
    omega

theorem first_le (date : Date) : first ≤ date :=
  date.firstDay_le

theorem le_last (date : Date) : date ≤ last :=
  date.le_lastDay

/-! ## §4 Year, month, day and weekday -/

/-- The month that holds a date. -/
def month (date : Date) : Month :=
  Month.ofDay date.dayNumber

/-- The year of a date. -/
def year (date : Date) : Int :=
  date.month.year

/-- The day of the month, 1 for the first. -/
def day (date : Date) : Int :=
  date.dayNumber - date.month.firstDay + 1

/-- The weekday of a date. -/
def weekday (date : Date) : Weekday :=
  Weekday.ofDay date.dayNumber

theorem day_pos (date : Date) : 1 ≤ date.day := by
  have := Month.firstDay_ofDay_le date.dayNumber
  simp only [day, month]
  omega

theorem day_le (date : Date) : date.day ≤ date.month.length := by
  have := Month.lt_firstDay_ofDay_next date.dayNumber
  rw [Month.firstDay_next] at this
  simp only [day, month]
  omega

end Date

/-! ## §5 Dates from months -/

namespace Month

/-- The day with a number (1 for the first) of a month, if the month has it and the calendar too.
-/
def date? (month : Month) (day : Int) : Option Date :=
  if 1 ≤ day ∧ day ≤ month.length then Date.ofDayNumber? (month.firstDay + day - 1) else none

/-- The first day of a month, if the month lies in the calendar. -/
def start? (month : Month) : Option Date :=
  Date.ofDayNumber? month.firstDay

/-- **A date is known by its month and its day of the month.** -/
theorem date?_eq_some_iff {month : Month} {day : Int} {date : Date} :
    month.date? day = some date ↔ date.month = month ∧ date.day = day := by
  unfold date?
  constructor
  · intro h
    split at h
    · rename_i hbounds
      have hnumber := Date.ofDayNumber?_eq_some_iff.1 h
      have hmonth : Month.ofDay date.dayNumber = month := by
        -- The day lies between the first days of the month and of the next one.
        refine ofDay_eq_of_mem ?_ ?_
        · omega
        · rw [firstDay_next]
          omega
      refine ⟨hmonth, ?_⟩
      simp only [Date.day, Date.month, hmonth]
      omega
    · cases h
  · -- A date is a day of its own month.
    rintro ⟨rfl, rfl⟩
    rw [if_pos ⟨date.day_pos, date.day_le⟩, Date.ofDayNumber?_eq_some_iff]
    simp only [Date.day]
    omega

theorem date?_month_day (date : Date) : date.month.date? date.day = some date :=
  date?_eq_some_iff.2 ⟨rfl, rfl⟩

end Month

namespace Date

/-- The date with a year, a month's number and a day of the month, if the calendar has it. -/
def ofYearMonthDay? (year number day : Int) : Option Date :=
  if 1 ≤ number ∧ number ≤ 12 then (Month.ofYear year number).date? day else none

theorem ofYearMonthDay?_eq_some_iff {year number day : Int} {date : Date} :
    ofYearMonthDay? year number day = some date ↔
      date.year = year ∧ date.month.number = number ∧ date.day = day := by
  unfold ofYearMonthDay?
  constructor
  · intro h
    split at h
    · rename_i hbounds
      obtain ⟨hmonth, hday⟩ := Month.date?_eq_some_iff.1 h
      rw [Date.year, hmonth]
      exact ⟨Month.year_ofYear year hbounds.1 hbounds.2,
        Month.number_ofYear year hbounds.1 hbounds.2, hday⟩
    · cases h
  · rintro ⟨rfl, rfl, rfl⟩
    rw [if_pos ⟨date.month.number_pos, date.month.number_le⟩, Date.year,
      Month.ofYear_year_number]
    exact Month.date?_month_day date

/-- **A date is known by its year, its month's number and its day.** -/
theorem ofYearMonthDay?_parts (date : Date) :
    ofYearMonthDay? date.year date.month.number date.day = some date :=
  ofYearMonthDay?_eq_some_iff.2 ⟨rfl, rfl, rfl⟩

/-- The date with a year, a month's number and a day of the month that the calendar has. -/
def ofParts (year number day : Int)
    (hexists : (ofYearMonthDay? year number day).isSome = true := by decide) : Date :=
  (ofYearMonthDay? year number day).get hexists

end Date

end RecurringDates
