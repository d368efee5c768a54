import RecurringDates.Calendar.Date
import RecurringDates.Rule.OrdinalWeekday

/-!
# Recurrence rules

A rule says in which unit and at which interval something repeats, when it ends, and which days of
each period it picks. Its fields may hold any values of their types: a rule can be stored, written
and told apart from others before it is asked whether it is valid or has dates.
-/

namespace RecurringDates

/-- A recurrence rule. -/
structure Rule where
  frequency : Frequency
  /-- A period of the series comes every so many units. -/
  interval : Int64
  /-- The number of dates of the series, if it ends by number. -/
  count : Option Int64
  /-- The last day on which a date of the series may fall, if it ends by date. -/
  untilDate : Option Date
  /-- The tokens of ordinal weekdays, as they were given. -/
  byDay : List String
  /-- Days of the month, from the end if negative. -/
  byMonthDay : List Int32
  /-- Days of the year. -/
  byYearDay : List Int32
  /-- Weeks of the year. -/
  byWeekNo : List Int32
  /-- Numbers of months. -/
  byMonth : List Int32
  /-- Positions among the days of a period, from the end if negative. -/
  bySetPos : List Int32
  /-- The first day of a week. -/
  weekStart : Weekday
deriving DecidableEq

namespace Rule

/-- The rule that repeats in every unit without end. -/
def every (frequency : Frequency) : Rule where
  frequency
  interval := 1
  count := none
  untilDate := none
  byDay := []
  byMonthDay := []
  byYearDay := []
  byWeekNo := []
  byMonth := []
  bySetPos := []
  weekStart := .monday

/-- A rule is valid if its interval is positive, its count too if there is one, and it ends by
number or by date but not by both. -/
def IsValid (rule : Rule) : Prop :=
  0 < rule.interval.toInt ∧ (rule.count.all fun count => 0 < count.toInt) ∧
    (rule.count = none ∨ rule.untilDate = none)

instance (rule : Rule) : Decidable rule.IsValid := by
  unfold IsValid
  infer_instance

/-- The ordinal weekdays of a rule. -/
def weekdays (rule : Rule) : Except ExpansionError (List OrdinalWeekday) :=
  OrdinalWeekday.readAll rule.byDay

end Rule

end RecurringDates
