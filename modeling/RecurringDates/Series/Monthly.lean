import RecurringDates.Series.Cycle
import RecurringDates.Series.Interval
import RecurringDates.Series.MonthDays

/-!
# Monthly patterns

The chosen days of every so many months, counted from the month of the anchor. Days of the month
come before weekdays and weekdays before the anchor's own day; positions then pick among the days
chosen.
-/

namespace RecurringDates

/-- A pattern that repeats by months. -/
structure MonthlyPattern where
  interval : Interval
  weekdays : List OrdinalWeekday
  monthDays : List Int32
  positions : List Int32
  months : List Int32

namespace MonthlyPattern

/-- The days that a pattern chooses in a month, before positions are looked at. A month without
the anchor's day has none where that is what counts. -/
def daysOfMonth (pattern : MonthlyPattern) (anchor : Date) (month : Month) : DateSet :=
  if pattern.monthDays ≠ [] then
    DateSet.ofList (pattern.monthDays.filterMap fun day => month.resolve? day.toInt)
  else if pattern.weekdays ≠ [] then
    DateSet.ofList (pattern.weekdays.flatMap fun day => (month.ordinalWeekdayDates day).toList)
  else DateSet.ofList (month.date? anchor.day).toList

/-- The days that are left when positions are looked at. -/
def selectedDays (pattern : MonthlyPattern) (anchor : Date) (month : Month) : DateSet :=
  if pattern.positions = [] then pattern.daysOfMonth anchor month
  else (pattern.daysOfMonth anchor month).select (pattern.positions.map Int32.toInt)

/-- The dates of the month with an index. -/
def datesOfMonth (pattern : MonthlyPattern) (anchor : Date) (index : Int) : List Date :=
  if (Month.mk index).isIn pattern.months then (pattern.selectedDays anchor ⟨index⟩).toList else []

/-- The months from the anchor's to the horizon's. -/
def cycle (pattern : MonthlyPattern) (anchor horizon : Date) : Cycle where
  first := anchor.month.index
  step := pattern.interval.value
  last := horizon.month.index
  datesIn := pattern.datesOfMonth anchor
  step_pos := pattern.interval.pos

end MonthlyPattern

end RecurringDates
