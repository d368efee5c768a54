import RecurringDates.Calendar.DateSet
import RecurringDates.Calendar.TimeOfDay

/-!
# Events

An entry of a calendar. A *master* is an event that recurs: it carries the text of its rule and
the dates that it skips. An *occurrence* is one date of a master: it points back to the master and
carries no rule of its own.
-/

namespace RecurringDates

/-- An event of a calendar. -/
structure Event where
  id : Option String := none
  title : String
  description : Option String := none
  category : Option String := none
  color : Option String := none
  startDate : Date
  startTime : Option TimeOfDay := none
  endDate : Option Date := none
  endTime : Option TimeOfDay := none
  isAllDay : Bool := false
  isRecurring : Bool := false
  /-- The text of the rule of a master. -/
  rule : Option String := none
  /-- The name of an occurrence. -/
  recurrenceId : Option String := none
  /-- The identity of the master of an occurrence. -/
  recurrenceMasterId : Option String := none
  /-- The dates that a master skips. -/
  exceptionDates : DateSet := DateSet.empty
deriving DecidableEq

end RecurringDates
