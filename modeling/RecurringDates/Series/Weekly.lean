import RecurringDates.Series.Cycle
import RecurringDates.Series.Interval
import RecurringDates.Series.MonthDays

/-!
# Weekly patterns

The chosen weekdays of every so many weeks, counted from the week of the anchor. A week begins on
the pattern's own first day and is numbered by the day number of that day. The week of the anchor
has its dates before the anchor too; they belong to the week but not to the series.
-/

namespace RecurringDates

/-- A pattern that repeats by weeks. Without weekdays it has the anchor's. -/
structure WeeklyPattern where
  interval : Interval
  weekStart : Weekday
  weekdays : List Weekday
  months : List Int32

namespace WeeklyPattern

/-- The number of days from one week of the series to the next. -/
def stride (pattern : WeeklyPattern) : Int :=
  7 * pattern.interval.value

/-- The number of days from the start of its week to a date. -/
def offsetOf (pattern : WeeklyPattern) (date : Date) : Int :=
  Weekday.daysAfter pattern.weekStart date.weekday

/-- The weekdays of the series. -/
def weekdaysFor (pattern : WeeklyPattern) (anchor : Date) : List Weekday :=
  if pattern.weekdays = [] then [anchor.weekday] else pattern.weekdays

/-- The numbers of days after the start of a week on which the series has dates, ascending. -/
def offsets (pattern : WeeklyPattern) (anchor : Date) : List Int :=
  [0, 1, 2, 3, 4, 5, 6].filter fun offset =>
    (pattern.weekdaysFor anchor).any fun weekday =>
      Weekday.daysAfter pattern.weekStart weekday == offset

/-- The dates of a week. A week that begins before the calendar has none, and a day after the
calendar is no date. -/
def datesOfWeek (pattern : WeeklyPattern) (anchor : Date) (week : Int) : List Date :=
  match Date.ofDayNumber? week with
  | none => []
  | some start =>
    ((pattern.offsets anchor).filterMap start.addDays?).filter fun date =>
      date.month.isIn pattern.months

/-- The weeks from the anchor's to the horizon's, as long as the anchor's weekday is in the
calendar. -/
def cycle (pattern : WeeklyPattern) (anchor horizon : Date) : Cycle where
  first := anchor.dayNumber - pattern.offsetOf anchor
  step := pattern.stride
  last := min horizon.dayNumber (Calendar.lastDay - pattern.offsetOf anchor)
  datesIn := pattern.datesOfWeek anchor
  step_pos := by
    have := pattern.interval.pos
    simp only [stride]
    omega

end WeeklyPattern

end RecurringDates
