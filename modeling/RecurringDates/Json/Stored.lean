import RecurringDates.Event.Basic
import RecurringDates.Json.Field
import RecurringDates.Occurrences

/-!
# Stored objects

The JSON objects of rules, ordinal weekdays, events and options. Writing gives every field;
reading passes over fields it does not know and refuses an object with a field that does not fit or
is given twice.
-/

namespace RecurringDates

open Json

/-! ## §1 Rules and ordinal weekdays -/

namespace OrdinalWeekday

/-- The object of an ordinal weekday. -/
def toJson (day : OrdinalWeekday) : Json :=
  .object [("ordinal", ofOption ofInt8 day.ordinal), ("weekday", ofWeekday day.weekday)]

/-- The names of the fields of an ordinal weekday. -/
def fieldNames : List String :=
  ["ordinal", "weekday"]

/-- The ordinal weekday of an object. -/
def ofJson? (value : Json) : Option OrdinalWeekday := do
  let fields ← value.fields? fieldNames
  return {
    ordinal := ← optional? int8? "ordinal" fields
    weekday := ← required? weekday? "weekday" fields }

end OrdinalWeekday

namespace Rule

/-- The object of a rule. -/
def toJson (rule : Rule) : Json :=
  .object [
    ("frequency", ofFrequency rule.frequency),
    ("interval", ofInt64 rule.interval),
    ("count", ofOption ofInt64 rule.count),
    ("until", ofOption ofDate rule.untilDate),
    ("by_day", Json.ofList Json.string rule.byDay),
    ("by_month_day", Json.ofList ofInt32 rule.byMonthDay),
    ("by_year_day", Json.ofList ofInt32 rule.byYearDay),
    ("by_week_no", Json.ofList ofInt32 rule.byWeekNo),
    ("by_month", Json.ofList ofInt32 rule.byMonth),
    ("by_set_pos", Json.ofList ofInt32 rule.bySetPos),
    ("week_start", ofWeekday rule.weekStart)]

/-- The names of the fields of a rule. -/
def fieldNames : List String :=
  ["frequency", "interval", "count", "until", "by_day", "by_month_day", "by_year_day", "by_week_no",
    "by_month", "by_set_pos", "week_start"]

/-- The rule of an object. -/
def ofJson? (value : Json) : Option Rule := do
  let fields ← value.fields? fieldNames
  return {
    frequency := ← required? frequency? "frequency" fields
    interval := ← required? int64? "interval" fields
    count := ← optional? int64? "count" fields
    untilDate := ← optional? date? "until" fields
    byDay := ← required? (listOf? string?) "by_day" fields
    byMonthDay := ← required? (listOf? int32?) "by_month_day" fields
    byYearDay := ← required? (listOf? int32?) "by_year_day" fields
    byWeekNo := ← required? (listOf? int32?) "by_week_no" fields
    byMonth := ← required? (listOf? int32?) "by_month" fields
    bySetPos := ← required? (listOf? int32?) "by_set_pos" fields
    weekStart := ← required? weekday? "week_start" fields }

end Rule

/-! ## §2 Events -/

namespace Event

/-- The object of an event. -/
def toJson (event : Event) : Json :=
  .object [
    ("id", ofOption .string event.id),
    ("title", .string event.title),
    ("description", ofOption .string event.description),
    ("category", ofOption .string event.category),
    ("color", ofOption .string event.color),
    ("startDate", ofDate event.startDate),
    ("startTime", ofOption ofTime event.startTime),
    ("endDate", ofOption ofDate event.endDate),
    ("endTime", ofOption ofTime event.endTime),
    ("isAllDay", .bool event.isAllDay),
    ("isRecurring", .bool event.isRecurring),
    ("rule", ofOption .string event.rule),
    ("recurrenceId", ofOption .string event.recurrenceId),
    ("recurrenceMasterId", ofOption .string event.recurrenceMasterId),
    ("exceptionDates", Json.ofList ofDate event.exceptionDates.toList)]

/-- The names of the fields of an event. -/
def fieldNames : List String :=
  ["id", "title", "description", "category", "color", "startDate", "startTime", "endDate",
    "endTime", "isAllDay", "isRecurring", "rule", "recurrenceId", "recurrenceMasterId",
    "exceptionDates"]

/-- The event of an object. -/
def ofJson? (value : Json) : Option Event := do
  let fields ← value.fields? fieldNames
  return {
    id := ← optional? string? "id" fields
    title := ← required? string? "title" fields
    description := ← optional? string? "description" fields
    category := ← optional? string? "category" fields
    color := ← optional? string? "color" fields
    startDate := ← required? date? "startDate" fields
    startTime := ← optional? time? "startTime" fields
    endDate := ← optional? date? "endDate" fields
    endTime := ← optional? time? "endTime" fields
    isAllDay := ← defaulted? bool? false "isAllDay" fields
    isRecurring := ← defaulted? bool? false "isRecurring" fields
    rule := ← optional? string? "rule" fields
    recurrenceId := ← optional? string? "recurrenceId" fields
    recurrenceMasterId := ← optional? string? "recurrenceMasterId" fields
    exceptionDates := ← defaulted? dateSet? DateSet.empty "exceptionDates" fields }

end Event

/-! ## §3 Options -/

namespace Options

/-- The object of options. -/
def toJson (options : Options) : Json :=
  .object [
    ("max_occurrences", ofUInt64 options.maxOccurrences),
    ("lookahead_days", ofUInt64 options.lookaheadDays)]

/-- The names of the fields of options. -/
def fieldNames : List String :=
  ["max_occurrences", "lookahead_days"]

/-- The options of an object. -/
def ofJson? (value : Json) : Option Options := do
  let fields ← value.fields? fieldNames
  return {
    maxOccurrences := ← defaulted? uint64? 1000 "max_occurrences" fields
    lookaheadDays := ← defaulted? uint64? 365 "lookahead_days" fields }

end Options

end RecurringDates
