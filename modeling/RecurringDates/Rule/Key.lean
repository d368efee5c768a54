/-!
# Keys of a rule

The names of the parts of a rule text, the text before the `=` of each part.
-/

namespace RecurringDates

/-- The key of a part of a rule. -/
inductive Key where
  | frequency
  | interval
  | count
  | untilDate
  | byDay
  | byMonthDay
  | byYearDay
  | byWeekNo
  | byMonth
  | bySetPos
  | weekStart
deriving DecidableEq, Repr

namespace Key

/-- All keys, in the order in which a rule is written. -/
def all : List Key :=
  [frequency, interval, count, untilDate, byDay, byMonthDay, byYearDay, byWeekNo, byMonth, bySetPos,
    weekStart]

/-- The spelling of a key. -/
def name : Key → String
  | frequency => "FREQ"
  | interval => "INTERVAL"
  | count => "COUNT"
  | untilDate => "UNTIL"
  | byDay => "BYDAY"
  | byMonthDay => "BYMONTHDAY"
  | byYearDay => "BYYEARDAY"
  | byWeekNo => "BYWEEKNO"
  | byMonth => "BYMONTH"
  | bySetPos => "BYSETPOS"
  | weekStart => "WKST"

/-- The key with a spelling, in capital or small letters. -/
def read? (text : List Char) : Option Key :=
  let upper := text.map Char.toUpper
  all.find? fun key => key.name.toList == upper

theorem mem_all (key : Key) : key ∈ all := by
  cases key <;> decide

theorem read?_name (key : Key) : read? key.name.toList = some key := by
  cases key <;> decide

/-- A text names the key whose spelling it has in capital letters. -/
theorem read?_eq_some_iff {text : List Char} {key : Key} :
    read? text = some key ↔ text.map Char.toUpper = key.name.toList := by
  constructor
  · intro hread
    unfold read? at hread
    have hname := List.find?_some hread
    exact (eq_of_beq hname).symm
  · intro hupper
    have hname := read?_name key
    have hsame : key.name.toList.map Char.toUpper = key.name.toList := by
      cases key <;> decide
    unfold read? at hname ⊢
    rwa [hupper, ← hsame]

end Key

end RecurringDates
