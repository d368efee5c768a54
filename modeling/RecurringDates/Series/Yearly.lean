import RecurringDates.Series.Cycle
import RecurringDates.Series.Interval
import RecurringDates.Series.MonthDays

/-!
# Yearly patterns

The chosen days of the chosen months of every so many years, counted from the year of the anchor.
A February 29 that the series owes to its anchor becomes February 28 in a common year.
-/

namespace RecurringDates

/-- A pattern that repeats by years. Without months it has the anchor's, without days of the month
the anchor's day. -/
structure YearlyPattern where
  interval : Interval
  monthDays : List Int32
  months : List Int32

namespace YearlyPattern

/-- The numbers of the months of the series. -/
def monthsFor (pattern : YearlyPattern) (anchor : Date) : List Int :=
  if pattern.months = [] then [anchor.month.number] else pattern.months.map Int32.toInt

/-- Whether a date is a leap day. -/
def isLeapDay (date : Date) : Bool :=
  date.month.number == 2 && date.day == 29

/-- The anchor's day in a month, with February 28 in place of a leap day that the month does not
have. -/
def anchorDayIn? (anchor : Date) (month : Month) : Option Date :=
  match month.date? anchor.day with
  | some date => some date
  | none => if isLeapDay anchor ∧ month.number = 2 then month.date? 28 else none

/-- The days that a pattern chooses in a month. -/
def daysOfMonth (pattern : YearlyPattern) (anchor : Date) (month : Month) : List Date :=
  if pattern.monthDays = [] then (anchorDayIn? anchor month).toList
  else pattern.monthDays.filterMap fun day => month.resolve? day.toInt

/-- The dates of a year. A number that no month has chooses nothing. -/
def datesOfYear (pattern : YearlyPattern) (anchor : Date) (year : Int) : List Date :=
  (DateSet.ofList (((pattern.monthsFor anchor).filterMap (Month.ofNumber? year)).flatMap
    (pattern.daysOfMonth anchor))).toList

/-- The years from the anchor's to the horizon's. -/
def cycle (pattern : YearlyPattern) (anchor horizon : Date) : Cycle where
  first := anchor.year
  step := pattern.interval.value
  last := horizon.year
  datesIn := pattern.datesOfYear anchor
  step_pos := pattern.interval.pos

end YearlyPattern

end RecurringDates
