import RecurringDates.Rule.Frequency
import RecurringDates.Rule.Key
import RecurringDates.Text.Quoted

/-!
# What can be wrong with a rule

A text may fail to be a rule (`ReadError`), and a rule may fail to have dates (`ExpansionError`).
Each cause has one wording, its `message`.
-/

namespace RecurringDates

/-! ## §1 Rule texts -/

/-- Why a text is no rule. -/
inductive ReadError where
  /-- Nothing is left of the text. -/
  | empty
  /-- No part gives the frequency. -/
  | missingFrequency
  /-- The value of the frequency part names none. -/
  | invalidFrequency (value : String)
  /-- The value of a part that takes an integer is none. -/
  | invalidInteger (key : Key) (value : String)
  /-- The value of the last date is no date. -/
  | invalidUntil (value : String)
deriving DecidableEq

/-- The wording of a cause. -/
def ReadError.message : ReadError → String
  | empty => "rule text is empty"
  | missingFrequency => "rule has no FREQ part"
  | invalidFrequency value => "unknown frequency: " ++ value
  | invalidInteger key value => key.name ++ " must be an integer, got " ++ Text.quote value
  | invalidUntil value => "invalid UNTIL value: " ++ value

/-! ## §2 Dates of a rule -/

/-- Why a rule, or an event with a rule, has no list of dates. -/
inductive ExpansionError where
  /-- The text of the rule could not be read. -/
  | unreadable (cause : ReadError)
  /-- The interval is not positive or beyond 32 bits. -/
  | invalidInterval (interval : Int64)
  /-- The number of dates is not positive. -/
  | invalidCount (count : Int64)
  /-- A token is no weekday. -/
  | invalidByDay (token : String)
  /-- A part has no meaning with the frequency of the rule. -/
  | unsupported (part : Key) (frequency : Frequency)
  /-- A date leaves the calendar. -/
  | dateOverflow
deriving DecidableEq

/-- The wording of a cause. -/
def ExpansionError.message : ExpansionError → String
  | unreadable cause => cause.message
  | invalidInterval interval => "interval must be positive, got " ++ toString interval.toInt
  | invalidCount count => "count must be positive, got " ++ toString count.toInt
  | invalidByDay token => "invalid BYDAY token: " ++ Text.quote token
  | unsupported part frequency =>
    part.name ++ " is not supported for " ++ frequency.name ++ " rules"
  | dateOverflow => "date arithmetic overflowed"

end RecurringDates
