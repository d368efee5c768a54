import RecurringDates.Calendar.Weekday
import RecurringDates.Rule.Frequency

/-!
# Phrases

The fragments from which the description of a rule is put together. Each has an identity, under
which its text in some language is looked up, and an English text for want of one.
-/

namespace RecurringDates

/-- A fragment of a description. -/
structure Phrase where
  /-- The name under which the fragment is looked up. -/
  id : String
  /-- The English text. -/
  fallback : String
deriving DecidableEq

namespace Phrase

/-! ## §1 Frequencies -/

/-- How often, for an interval of one. -/
def adverb : Frequency → Phrase
  | .secondly => ⟨"recurrence.frequency.secondly", "Secondly"⟩
  | .minutely => ⟨"recurrence.frequency.minutely", "Minutely"⟩
  | .hourly => ⟨"recurrence.frequency.hourly", "Hourly"⟩
  | .daily => ⟨"recurrence.frequency.daily", "Daily"⟩
  | .weekly => ⟨"recurrence.frequency.weekly", "Weekly"⟩
  | .monthly => ⟨"recurrence.frequency.monthly", "Monthly"⟩
  | .yearly => ⟨"recurrence.frequency.yearly", "Yearly"⟩

/-- The unit of a frequency, for several of them. -/
def unit : Frequency → Phrase
  | .secondly => ⟨"recurrence.unit.seconds", "seconds"⟩
  | .minutely => ⟨"recurrence.unit.minutes", "minutes"⟩
  | .hourly => ⟨"recurrence.unit.hours", "hours"⟩
  | .daily => ⟨"recurrence.unit.days", "days"⟩
  | .weekly => ⟨"recurrence.unit.weeks", "weeks"⟩
  | .monthly => ⟨"recurrence.unit.months", "months"⟩
  | .yearly => ⟨"recurrence.unit.years", "years"⟩

/-! ## §2 Weekdays and positions -/

/-- The name of a weekday. -/
def weekday : Weekday → Phrase
  | .monday => ⟨"recurrence.weekday.monday", "Monday"⟩
  | .tuesday => ⟨"recurrence.weekday.tuesday", "Tuesday"⟩
  | .wednesday => ⟨"recurrence.weekday.wednesday", "Wednesday"⟩
  | .thursday => ⟨"recurrence.weekday.thursday", "Thursday"⟩
  | .friday => ⟨"recurrence.weekday.friday", "Friday"⟩
  | .saturday => ⟨"recurrence.weekday.saturday", "Saturday"⟩
  | .sunday => ⟨"recurrence.weekday.sunday", "Sunday"⟩

/-- The word for a position, if there is one; other positions are given as numbers. -/
def ordinal? (position : Int) : Option Phrase :=
  if position = 1 then some ⟨"recurrence.ordinal.first", "first"⟩
  else if position = 2 then some ⟨"recurrence.ordinal.second", "second"⟩
  else if position = 3 then some ⟨"recurrence.ordinal.third", "third"⟩
  else if position = 4 then some ⟨"recurrence.ordinal.fourth", "fourth"⟩
  else if position = 5 then some ⟨"recurrence.ordinal.fifth", "fifth"⟩
  else if position = -1 then some ⟨"recurrence.ordinal.last", "last"⟩
  else if position = -2 then some ⟨"recurrence.ordinal.second_to_last", "second to last"⟩
  else none

/-! ## §3 Joints -/

/-- The word before an interval. -/
def every : Phrase :=
  ⟨"recurrence.every", "Every"⟩

/-- The word before the days that are picked. -/
def on : Phrase :=
  ⟨"recurrence.on", "on"⟩

/-- The article before a position. -/
def the : Phrase :=
  ⟨"recurrence.the", "the"⟩

/-- The word before a day of the month. -/
def day : Phrase :=
  ⟨"recurrence.day", "day"⟩

/-- The last day of the month. -/
def lastDay : Phrase :=
  ⟨"recurrence.last_day", "the last day"⟩

/-- The word before the number of dates. -/
def times : Phrase :=
  ⟨"recurrence.for", "for"⟩

/-- The unit of one date. -/
def occurrence : Phrase :=
  ⟨"recurrence.occurrence", "occurrence"⟩

/-- The unit of a number of dates other than one. -/
def occurrences : Phrase :=
  ⟨"recurrence.occurrences", "occurrences"⟩

/-- The word before the last day. -/
def untilWord : Phrase :=
  ⟨"recurrence.until", "until"⟩

/-- What stands between the members of a list. -/
def listSeparator : Phrase :=
  ⟨"recurrence.list_separator", ", "⟩

/-- What stands for a rule that cannot be described. -/
def invalidPattern : Phrase :=
  ⟨"recurrence.invalid_pattern", "Invalid pattern"⟩

end Phrase

end RecurringDates
