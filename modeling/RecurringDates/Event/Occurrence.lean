import RecurringDates.Calendar.Date.Text
import RecurringDates.Event.Basic
import RecurringDates.Occurrences
import RecurringDates.Rule.Text

/-!
# Occurrences of an event

A master becomes one event for each date of its rule that it does not skip. Every such event has
the master's length in days and is named by the master's identity and its own date.
-/

namespace RecurringDates.Event

/-! ## §1 One occurrence -/

/-- The length of an event in days, if it has an end. It is negative if the end is before the
start. -/
def length? (event : Event) : Option Int :=
  event.endDate.map fun endDate => event.startDate.daysTo endDate

/-- The name of the occurrence on a date of the master with an identity. -/
def occurrenceId (masterId : String) (date : Date) : String :=
  masterId ++ "_" ++ date.writeCompact

/-- The occurrence of a master on a date that ends on another. -/
def occurrenceEnding (master : Event) (date : Date) (endDate : Option Date) : Event where
  title := master.title
  description := master.description
  category := master.category
  color := master.color
  startDate := date
  startTime := master.startTime
  endDate := endDate
  endTime := master.endTime
  isAllDay := master.isAllDay
  recurrenceId := master.id.map fun id => occurrenceId id date
  recurrenceMasterId := master.id

/-- The occurrence of a master on a date. It fails if its end leaves the calendar. -/
def occurrence (master : Event) (date : Date) : Except ExpansionError Event :=
  match master.length? with
  | none => .ok (master.occurrenceEnding date none)
  | some days =>
    match date.addDays? days with
    | none => .error .dateOverflow
    | some endDate => .ok (master.occurrenceEnding date (some endDate))

/-! ## §2 All occurrences -/

/-- The occurrences of a master on the dates of a list. The first that fails decides the error. -/
def occurrencesOn (master : Event) : List Date → Except ExpansionError (List Event)
  | [] => .ok []
  | date :: rest =>
    match master.occurrence date with
    | .error cause => .error cause
    | .ok event =>
      match master.occurrencesOn rest with
      | .error cause => .error cause
      | .ok events => .ok (event :: events)

/-- The occurrences of a master in a window that it does not skip. An event that does not recur,
or that has no rule, has none. -/
def expand (options : Options) (master : Event) (window : Window) :
    Except ExpansionError (List Event) :=
  match master.rule, master.isRecurring with
  | some text, true =>
    match Rule.read text with
    | .error cause => .error (.unreadable cause)
    | .ok rule =>
      match rule.occurrences options (some master.startDate) window with
      | .error cause => .error cause
      | .ok dates => master.occurrencesOn (master.exceptionDates.dropFrom dates)
  | _, _ => .ok []

/-- The occurrences of a master in a window, none if they fail. -/
def expandOrNil (options : Options) (master : Event) (window : Window) : List Event :=
  match master.expand options window with
  | .ok events => events
  | .error _ => []

end RecurringDates.Event
