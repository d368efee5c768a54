import RecurringDates.Rule.Text

/-!
# Bare repeat patterns

An event may be stored with a single word in place of a rule: how often it repeats. The word
becomes the rule that repeats in every such unit; a word that is not understood counts as daily.
-/

namespace RecurringDates.RepeatPattern

open RecurringDates.Text

/-- The frequencies that a word may name. -/
def frequencies : List Frequency :=
  [.daily, .weekly, .monthly, .yearly]

/-- The frequency of a word, in capital or small letters and with blanks around it. -/
def frequency (word : String) : Frequency :=
  let upper := (trim word.toList).map Char.toUpper
  (frequencies.find? fun frequency => frequency.name.toList == upper).getD .daily

/-- The rule text of a word. -/
def ruleText (word : String) : String :=
  "FREQ=" ++ (frequency word).name

end RecurringDates.RepeatPattern
