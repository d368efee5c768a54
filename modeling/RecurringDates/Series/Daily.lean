import RecurringDates.Series.Cycle
import RecurringDates.Series.Interval
import RecurringDates.Series.MonthDays

/-!
# Daily patterns

Every so many days, those that pass every filter.
-/

namespace RecurringDates

/-- A pattern that repeats by days. An empty list filters nothing. -/
structure DailyPattern where
  interval : Interval
  weekdays : List Weekday
  monthDays : List Int32
  months : List Int32

namespace DailyPattern

/-- Whether a date passes the filters on weekday, month and day of the month. -/
def accepts (pattern : DailyPattern) (date : Date) : Bool :=
  (pattern.weekdays.isEmpty || pattern.weekdays.contains date.weekday)
    && date.month.isIn pattern.months
    && (pattern.monthDays.isEmpty
      || pattern.monthDays.any fun day => date.month.resolve? day.toInt == some date)

/-- The dates of the day with a number: the day itself, if it passes the filters. -/
def datesOfDay (pattern : DailyPattern) (day : Int) : List Date :=
  (Date.ofDayNumber? day).toList.filter pattern.accepts

/-- The days from the anchor to the horizon. -/
def cycle (pattern : DailyPattern) (anchor horizon : Date) : Cycle where
  first := anchor.dayNumber
  step := pattern.interval.value
  last := horizon.dayNumber
  datesIn := pattern.datesOfDay
  step_pos := pattern.interval.pos

end DailyPattern

end RecurringDates
