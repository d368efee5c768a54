import RecurringDates.Calendar.Date.Text
import RecurringDates.Calendar.DateSet
import RecurringDates.Calendar.TimeOfDay
import RecurringDates.Calendar.Weekday
import RecurringDates.Json.Value
import RecurringDates.Rule.Frequency
import RecurringDates.Word

/-!
# Fields of stored objects

How the values of fields are written and read: texts, switches, whole numbers of limited size,
dates, times, weekdays and frequencies. A value that does not fit its field is refused as a whole.

A field is required, or it may be missing and then has a default, or it may also be null and is
then absent.
-/

namespace RecurringDates.Json

/-! ## §1 Values -/

/-- The text of a value. -/
def string? : Json → Option String
  | .string value => some value
  | _ => none

/-- The switch of a value. -/
def bool? : Json → Option Bool
  | .bool value => some value
  | _ => none

/-- The whole number of a value. -/
def integer? : Json → Option Int
  | .integer value => some value
  | _ => none

/-- The signed 8-bit number of a value. -/
def int8? (value : Json) : Option Int8 :=
  value.integer?.bind Word.toInt8?

/-- The signed 32-bit number of a value. -/
def int32? (value : Json) : Option Int32 :=
  value.integer?.bind Word.toInt32?

/-- The signed 64-bit number of a value. -/
def int64? (value : Json) : Option Int64 :=
  value.integer?.bind Word.toInt64?

/-- The unsigned 64-bit number of a value. -/
def uint64? (value : Json) : Option UInt64 :=
  value.integer?.bind Word.toUInt64?

/-- The date of a value. -/
def date? (value : Json) : Option Date :=
  value.string?.bind Date.read?

/-- The time of day of a value. -/
def time? (value : Json) : Option TimeOfDay :=
  value.string?.bind TimeOfDay.read?

/-- The weekday of a value. -/
def weekday? (value : Json) : Option Weekday :=
  value.string?.bind Weekday.ofName?

/-- The frequency of a value: its name in exact spelling, or an object with that name as its one
field and nothing in it. -/
def frequency? : Json → Option Frequency
  | .string name => Frequency.ofName? name
  | .object [(name, .null)] => Frequency.ofName? name
  | _ => none

/-- The list of a value, if every entry fits. -/
def listOf? {α : Type} (read : Json → Option α) : Json → Option (List α)
  | .list values => values.mapM read
  | _ => none

/-- The set of dates of a value: a list in any order, repetitions or not. -/
def dateSet? (value : Json) : Option DateSet :=
  (value.listOf? date?).map DateSet.ofList

/-! ## §2 Fields -/

/-- A field that must be there. -/
def required? {α : Type} (read? : Json → Option α) (name : String)
    (fields : List (String × Json)) : Option α :=
  (find? name fields).bind read?

/-- A field that has a default if it is missing. -/
def defaulted? {α : Type} (read? : Json → Option α) (default : α) (name : String)
    (fields : List (String × Json)) : Option α :=
  match find? name fields with
  | none => some default
  | some value => read? value

/-- A field that is absent if it is missing or null. -/
def optional? {α : Type} (read? : Json → Option α) (name : String)
    (fields : List (String × Json)) : Option (Option α) :=
  match find? name fields with
  | none => some none
  | some .null => some none
  | some value => (read? value).map some

/-! ## §3 Writing -/

/-- A whole number of 8 bits. -/
def ofInt8 (n : Int8) : Json :=
  .integer n.toInt

/-- A whole number of 32 bits. -/
def ofInt32 (n : Int32) : Json :=
  .integer n.toInt

/-- A whole number of 64 bits. -/
def ofInt64 (n : Int64) : Json :=
  .integer n.toInt

/-- A whole number of 64 bits that is not negative. -/
def ofUInt64 (n : UInt64) : Json :=
  .integer n.toNat

/-- A date. -/
def ofDate (date : Date) : Json :=
  .string date.write

/-- A time of day. -/
def ofTime (time : TimeOfDay) : Json :=
  .string time.write

/-- A weekday. -/
def ofWeekday (weekday : Weekday) : Json :=
  .string weekday.shortName

/-- A frequency. -/
def ofFrequency (frequency : Frequency) : Json :=
  .string frequency.name

/-- A list of values. -/
def ofList {α : Type} (write : α → Json) (values : List α) : Json :=
  .list (values.map write)

/-- A value, null if it is absent. -/
def ofOption {α : Type} (write : α → Json) : Option α → Json
  | none => .null
  | some value => write value

end RecurringDates.Json
