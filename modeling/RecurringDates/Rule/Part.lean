import RecurringDates.Calendar.Date.Text
import RecurringDates.Rule.Basic

/-!
# Parts of a rule text

A rule text is a sequence of parts, each a key, `=` and a value. A part that is understood sets
one field of a rule; a part without `=`, with an unknown key, or with a week start that is no
weekday has no effect; a part whose frequency, number or last date is malformed is an error. A
list keeps its well-formed entries and drops the others.
-/

namespace RecurringDates

open RecurringDates.Text

/-- A part that sets a field of a rule. -/
inductive Part where
  | frequency (frequency : Frequency)
  | interval (interval : Int64)
  | count (count : Int64)
  | untilDate (date : Date)
  | byDay (tokens : List String)
  | byMonthDay (days : List Int32)
  | byYearDay (days : List Int32)
  | byWeekNo (weeks : List Int32)
  | byMonth (months : List Int32)
  | bySetPos (positions : List Int32)
  | weekStart (weekday : Weekday)
deriving DecidableEq

namespace Part

/-! ## §1 Values -/

/-- The integer of a part that takes one. -/
def readInt64 (key : Key) (value : List Char) : Except ReadError Int64 :=
  match (readInteger? value).bind Word.toInt64? with
  | some n => .ok n
  | none => .error (.invalidInteger key (String.ofList value))

/-- The last date of a series: eight digits for year, month and day. A `T` and what follows it,
the time of day, is passed over. -/
def readUntil (value : List Char) : Except ReadError Date :=
  match Date.readCompact? (value.takeWhile fun c => c != 'T' && c != 't') with
  | some date => .ok date
  | none => .error (.invalidUntil (String.ofList value))

/-- The entries of a list, without the blanks around them. Entries of blanks alone are left out.
-/
def entries (value : List Char) : List (List Char) :=
  ((value.splitOn ',').map trim).filter fun entry => !entry.isEmpty

/-- The integers of a list of integers. Entries that are none are left out. -/
def readInt32s (value : List Char) : List Int32 :=
  (entries value).filterMap fun entry => (readInteger? entry).bind Word.toInt32?

/-- The tokens of a list of weekdays. -/
def readTokens (value : List Char) : List String :=
  (entries value).map String.ofList

/-! ## §2 Parts -/

/-- What a value sets under a key. -/
def ofKey (key : Key) (value : List Char) : Except ReadError (Option Part) :=
  match key with
  | .frequency =>
    match Frequency.read? value with
    | some unit => .ok (some (.frequency unit))
    | none => .error (.invalidFrequency (String.ofList value))
  | .interval =>
    match readInt64 .interval value with
    | .ok n => .ok (some (.interval n))
    | .error cause => .error cause
  | .count =>
    match readInt64 .count value with
    | .ok n => .ok (some (.count n))
    | .error cause => .error cause
  | .untilDate =>
    match readUntil value with
    | .ok date => .ok (some (.untilDate date))
    | .error cause => .error cause
  | .byDay => .ok (some (.byDay (readTokens value)))
  | .byMonthDay => .ok (some (.byMonthDay (readInt32s value)))
  | .byYearDay => .ok (some (.byYearDay (readInt32s value)))
  | .byWeekNo => .ok (some (.byWeekNo (readInt32s value)))
  | .byMonth => .ok (some (.byMonth (readInt32s value)))
  | .bySetPos => .ok (some (.bySetPos (readInt32s value)))
  | .weekStart => .ok ((Weekday.ofCode? value).map .weekStart)

/-- The key and the value of a segment of text: what stands before and after its first `=`,
without the blanks around them. -/
def keyAndValue? (segment : List Char) : Option (List Char × List Char) :=
  match segment.dropWhile (· != '=') with
  | [] => none
  | _ :: value => some (trim (segment.takeWhile (· != '=')), trim value)

/-- The part that a segment of text gives, none if it has no effect. -/
def read (segment : List Char) : Except ReadError (Option Part) :=
  match keyAndValue? segment with
  | none => .ok none
  | some (name, value) =>
    match Key.read? name with
    | none => .ok none
    | some key => ofKey key value

/-- The parts that segments of text give. The first malformed one decides the error. -/
def readAll : List (List Char) → Except ReadError (List Part)
  | [] => .ok []
  | segment :: rest =>
    match read segment with
    | .error cause => .error cause
    | .ok part =>
      match readAll rest with
      | .error cause => .error cause
      | .ok parts => .ok (part.toList ++ parts)

/-- Whether a part gives the frequency. -/
def isFrequency : Part → Bool
  | .frequency _ => true
  | _ => false

/-- A rule with the field that a part is for set to its value. -/
def set (rule : Rule) : Part → Rule
  | .frequency unit => { rule with frequency := unit }
  | .interval n => { rule with interval := n }
  | .count n => { rule with count := some n }
  | .untilDate date => { rule with untilDate := some date }
  | .byDay tokens => { rule with byDay := tokens }
  | .byMonthDay days => { rule with byMonthDay := days }
  | .byYearDay days => { rule with byYearDay := days }
  | .byWeekNo weeks => { rule with byWeekNo := weeks }
  | .byMonth months => { rule with byMonth := months }
  | .bySetPos positions => { rule with bySetPos := positions }
  | .weekStart weekday => { rule with weekStart := weekday }

end Part

end RecurringDates
