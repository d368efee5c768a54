import RecurringDates.Text.Blank

/-!
# Frequencies

The unit in which a rule repeats. Seven units have a name; those shorter than a day are named but
have no dates.
-/

namespace RecurringDates

/-- The unit in which a rule repeats. -/
inductive Frequency where
  | secondly
  | minutely
  | hourly
  | daily
  | weekly
  | monthly
  | yearly
deriving DecidableEq, Repr

namespace Frequency

/-- All frequencies, the shortest first. -/
def all : List Frequency :=
  [secondly, minutely, hourly, daily, weekly, monthly, yearly]

/-- The name of a frequency in a rule. -/
def name : Frequency → String
  | secondly => "SECONDLY"
  | minutely => "MINUTELY"
  | hourly => "HOURLY"
  | daily => "DAILY"
  | weekly => "WEEKLY"
  | monthly => "MONTHLY"
  | yearly => "YEARLY"

/-- The frequency with a name, in exactly its spelling. -/
def ofName? (text : String) : Option Frequency :=
  all.find? fun frequency => frequency.name == text

/-- The frequency that a text names, in capital or small letters and with blanks around it. -/
def read? (text : List Char) : Option Frequency :=
  let upper := (Text.trim text).map Char.toUpper
  all.find? fun frequency => frequency.name.toList == upper

theorem mem_all (frequency : Frequency) : frequency ∈ all := by
  cases frequency <;> decide

theorem ofName?_name (frequency : Frequency) : ofName? frequency.name = some frequency := by
  cases frequency <;> decide

/-- **A frequency reads back from its name.** -/
theorem read?_name (frequency : Frequency) : read? frequency.name.toList = some frequency := by
  cases frequency <;> decide

end Frequency

end RecurringDates
