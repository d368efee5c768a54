import RecurringDates.Rule.Basic
import RecurringDates.Series.Daily
import RecurringDates.Series.Monthly
import RecurringDates.Series.Weekly
import RecurringDates.Series.Yearly

/-!
# Patterns of a rule

A rule whose parts have been checked repeats by days, weeks, months or years. A part that the
frequency cannot honour is refused rather than passed over, and the first fault in a fixed order
decides the error; it never depends on the anchor or on the dates asked for.
-/

namespace RecurringDates

/-- What a checked rule repeats by. -/
inductive Pattern where
  | daily (pattern : DailyPattern)
  | weekly (pattern : WeeklyPattern)
  | monthly (pattern : MonthlyPattern)
  | yearly (pattern : YearlyPattern)

namespace Pattern

/-- Refuses a part that is there. -/
def refuse {α : Type} (rule : Rule) (part : Key) (there : Bool)
    (otherwise : Except ExpansionError α) : Except ExpansionError α :=
  if there then .error (.unsupported part rule.frequency) else otherwise

/-- The pattern of a rule whose interval and weekdays have been checked. -/
def ofFrequency (rule : Rule) (interval : Interval) (weekdays : List OrdinalWeekday) :
    Except ExpansionError Pattern :=
  match rule.frequency with
  | .secondly | .minutely | .hourly => .error (.unsupported .frequency rule.frequency)
  | .daily =>
    refuse rule .bySetPos (!rule.bySetPos.isEmpty) <|
    .ok (.daily
      { interval
        weekdays := weekdays.map (·.weekday)
        monthDays := rule.byMonthDay
        months := rule.byMonth })
  | .weekly =>
    refuse rule .bySetPos (!rule.bySetPos.isEmpty) <|
    refuse rule .byMonthDay (!rule.byMonthDay.isEmpty) <|
    .ok (.weekly
      { interval
        weekStart := rule.weekStart
        weekdays := weekdays.map (·.weekday)
        months := rule.byMonth })
  | .monthly =>
    .ok (.monthly
      { interval
        weekdays
        monthDays := rule.byMonthDay
        positions := rule.bySetPos
        months := rule.byMonth })
  | .yearly =>
    refuse rule .bySetPos (!rule.bySetPos.isEmpty) <|
    refuse rule .byDay (!rule.byDay.isEmpty) <|
    .ok (.yearly
      { interval
        monthDays := rule.byMonthDay
        months := rule.byMonth })

/-- The pattern of a rule. -/
def ofRule (rule : Rule) : Except ExpansionError Pattern :=
  match Interval.ofInt? rule.interval.toInt with
  | none => .error (.invalidInterval rule.interval)
  | some interval =>
    refuse rule .byYearDay (!rule.byYearDay.isEmpty) <|
    refuse rule .byWeekNo (!rule.byWeekNo.isEmpty) <|
    match rule.weekdays with
    | .error cause => .error cause
    | .ok weekdays => ofFrequency rule interval weekdays

/-- The periods of a pattern from the anchor's to the horizon's. -/
def cycle : Pattern → Date → Date → Cycle
  | .daily pattern => pattern.cycle
  | .weekly pattern => pattern.cycle
  | .monthly pattern => pattern.cycle
  | .yearly pattern => pattern.cycle

end Pattern

end RecurringDates
