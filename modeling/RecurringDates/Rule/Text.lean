import RecurringDates.Rule.Part

/-!
# Rules in text

A rule is written as `FREQ=WEEKLY;INTERVAL=2;BYDAY=MO,WE`: parts between semicolons, the frequency
first, and only those parts that say more than their absence. In reading, blanks, the order of
parts and the case of keys do not matter, a leading `RRULE:` is passed over, the last of several
parts for one field counts, and the frequency is the only part that must be there.
-/

namespace RecurringDates.Rule

open RecurringDates.Text

/-! ## §1 Reading -/

/-- The label that may stand before a rule. -/
def label : List Char :=
  ['R', 'R', 'U', 'L', 'E', ':']

/-- A text without the label at its front. -/
def dropLabel (text : List Char) : List Char :=
  if (text.take label.length).map Char.toUpper = label then text.drop label.length else text

/-- The rule that parts make together: each sets its field, later ones over earlier ones. Without
a frequency there is none. -/
def ofParts? (parts : List Part) : Option Rule :=
  if parts.any Part.isFrequency then some (parts.foldl Part.set (every .daily)) else none

/-- The rule of a text whose label has been dropped. -/
def readBody (text : List Char) : Except ReadError Rule :=
  if text = [] then .error .empty
  else
    match Part.readAll (text.splitOn ';') with
    | .error cause => .error cause
    | .ok parts =>
      match ofParts? parts with
      | some rule => .ok rule
      | none => .error .missingFrequency

/-- The rule that a text stands for. -/
def read (text : String) : Except ReadError Rule :=
  readBody (dropLabel (trim text.toList))

/-- Whether a text stands for a valid rule. -/
def isValidText (text : String) : Bool :=
  match read text with
  | .ok rule => rule.IsValid
  | .error _ => false

/-! ## §2 Writing -/

/-- The integers of a list with commas between them. -/
def writeInt32s (numbers : List Int32) : List Char :=
  [','].intercalate (numbers.map fun n => writeInteger n.toInt)

/-- A part of a rule text. -/
def writePart (key : Key) (value : List Char) : List Char :=
  key.name.toList ++ '=' :: value

/-- The part for a list of integers, none if the list is empty. -/
def writeInt32Part (key : Key) (numbers : List Int32) : List (List Char) :=
  if numbers = [] then [] else [writePart key (writeInt32s numbers)]

/-- The parts of a rule that say more than their absence, in order. -/
def writeParts (rule : Rule) : List (List Char) :=
  [writePart .frequency rule.frequency.name.toList]
    ++ (if rule.interval = 1 then [] else [writePart .interval (writeInteger rule.interval.toInt)])
    ++ (match rule.count with
      | none => []
      | some count => [writePart .count (writeInteger count.toInt)])
    ++ (match rule.untilDate with
      | none => []
      | some date => [writePart .untilDate (date.writeWith [])])
    ++ (if rule.byDay = [] then []
      else [writePart .byDay ([','].intercalate (rule.byDay.map String.toList))])
    ++ writeInt32Part .byMonthDay rule.byMonthDay
    ++ writeInt32Part .byYearDay rule.byYearDay
    ++ writeInt32Part .byWeekNo rule.byWeekNo
    ++ writeInt32Part .byMonth rule.byMonth
    ++ writeInt32Part .bySetPos rule.bySetPos
    ++ (if rule.weekStart = .monday then []
      else [writePart .weekStart rule.weekStart.code.toList])

/-- The text of a rule. -/
def write (rule : Rule) : String :=
  String.ofList ([';'].intercalate rule.writeParts)

end RecurringDates.Rule
