import RecurringDates.Calendar.DateSet
import RecurringDates.Series.Window

/-!
# Occurrences of a rule

The questions that can be asked about the dates of a rule: which lie in a window, which comes next
after a day, and how many there are up to a day. Exceptions are dates that a series skips; they
still use up its count.

Each question has a second form that answers with nothing (`[]`, `none`, `0`) where the rule has
no dates because of a fault.
-/

namespace RecurringDates

/-- How far a question reaches. -/
structure Options where
  /-- The greatest number of dates that one question looks at. -/
  maxOccurrences : UInt64 := 1000
  /-- The number of days after a day in which the next date is sought. -/
  lookaheadDays : UInt64 := 365
deriving DecidableEq

/-- The dates of a list that are no exceptions, in the order of the list. -/
def DateSet.dropFrom (exceptions : DateSet) (dates : List Date) : List Date :=
  dates.filter fun date => date ∉ exceptions

namespace Rule

/-! ## §1 Dates in a window -/

/-- The dates of a rule from an anchor that lie in a window. Without an anchor there are none. -/
def occurrences (options : Options) (rule : Rule) (anchor : Option Date) (window : Window) :
    Except ExpansionError (List Date) :=
  match anchor with
  | none => .ok []
  | some anchor =>
    match Series.ofRule rule anchor with
    | .error cause => .error cause
    | .ok series => .ok (series.inWindow window options.maxOccurrences.toNat)

/-- The dates of a rule in a window, none if the rule is at fault. -/
def occurrencesOrNil (options : Options) (rule : Rule) (anchor : Option Date) (window : Window) :
    List Date :=
  match rule.occurrences options anchor window with
  | .ok dates => dates
  | .error _ => []

/-! ## §2 The next date -/

/-- The window in which the date after a day is sought. It ends with the calendar if the days to
look ahead go beyond it; there is none after the last day of the calendar. -/
def lookahead? (options : Options) (day : Date) : Option Window :=
  match day.addDays? 1 with
  | none => none
  | some first =>
    some ⟨first, (day.addDays? options.lookaheadDays.toNat).getD Date.last⟩

/-- The first date of a rule after a day that is no exception, as far as the options look ahead.
-/
def nextOccurrence (options : Options) (rule : Rule) (anchor : Option Date) (day : Date)
    (exceptions : DateSet) : Except ExpansionError (Option Date) :=
  match lookahead? options day with
  | none => .error .dateOverflow
  | some window =>
    match rule.occurrences options anchor window with
    | .error cause => .error cause
    | .ok dates => .ok (dates.find? fun date => date ∉ exceptions)

/-- The next date of a rule, none if the rule is at fault. -/
def nextOccurrenceOrNone (options : Options) (rule : Rule) (anchor : Option Date) (day : Date)
    (exceptions : DateSet) : Option Date :=
  match rule.nextOccurrence options anchor day exceptions with
  | .ok next => next
  | .error _ => none

/-- How a walk from date to date ended. -/
inductive WalkEnd where
  /-- The steps were used up. -/
  | stepsSpent
  /-- There was no next date. -/
  | noNext
  /-- The question for the next date failed. -/
  | failed (cause : ExpansionError)
deriving DecidableEq

/-- The dates found by asking for the next date after a day, then for the next one after that, and
so on for a number of steps, and how the walk ended. -/
def walk (options : Options) (rule : Rule) (anchor : Option Date) (exceptions : DateSet) :
    Nat → Date → List Date × WalkEnd
  | 0, _ => ([], .stepsSpent)
  | steps + 1, day =>
    match rule.nextOccurrence options anchor day exceptions with
    | .error cause => ([], .failed cause)
    | .ok none => ([], .noNext)
    | .ok (some next) =>
      let later := rule.walk options anchor exceptions steps next
      (next :: later.1, later.2)

/-! ## §3 The number of dates -/

/-- The number of dates of a rule from its anchor to a last day that are no exceptions. -/
def countOccurrences (options : Options) (rule : Rule) (anchor : Option Date) (last : Date)
    (exceptions : DateSet) : Except ExpansionError Nat :=
  match anchor with
  | none => .ok 0
  | some anchor =>
    match rule.occurrences options (some anchor) ⟨anchor, last⟩ with
    | .error cause => .error cause
    | .ok dates => .ok (exceptions.dropFrom dates).length

/-- The number of dates of a rule, 0 if the rule is at fault. -/
def countOccurrencesOrZero (options : Options) (rule : Rule) (anchor : Option Date) (last : Date)
    (exceptions : DateSet) : Nat :=
  match rule.countOccurrences options anchor last exceptions with
  | .ok n => n
  | .error _ => 0

end Rule

end RecurringDates
