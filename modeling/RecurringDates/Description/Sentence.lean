import RecurringDates.Description.Localizer
import RecurringDates.Rule.Text

/-!
# Sentences

A rule said in words, as "Every 2 weeks on Monday, Friday, for 10 occurrences": how often, on
which days for weekly and monthly rules, and when it ends. A rule with a token that would have to
be named and is no weekday cannot be described.
-/

namespace RecurringDates.Rule

/-! ## §1 Words -/

/-- How often a rule repeats. -/
def frequencyWords (localizer : Localizer) (rule : Rule) : String :=
  if rule.interval = 1 then localizer.phrase (.adverb rule.frequency)
  else
    localizer.phrase .every ++ " " ++ localizer.number rule.interval.toInt ++ " "
      ++ localizer.phrase (.unit rule.frequency)

/-- The text of a position. -/
def ordinalWords (localizer : Localizer) (position : Int) : String :=
  match Phrase.ordinal? position with
  | some phrase => localizer.phrase phrase
  | none => localizer.number position

/-- The text of a day of the month. -/
def monthDayWords (localizer : Localizer) (day : Int32) : String :=
  if day = -1 then localizer.phrase .lastDay
  else localizer.phrase .day ++ " " ++ localizer.number day.toInt

/-- The names of weekdays in a list, without their positions. -/
def weekdayList (localizer : Localizer) (days : List OrdinalWeekday) : String :=
  localizer.list (days.map fun day => localizer.phrase (.weekday day.weekday))

/-- The text of an ordinal weekday. -/
def ordinalWeekdayWords (localizer : Localizer) (day : OrdinalWeekday) : String :=
  match day.ordinal with
  | some ordinal =>
    localizer.phrase .the ++ " " ++ ordinalWords localizer ordinal.toInt ++ " "
      ++ localizer.phrase (.weekday day.weekday)
  | none => localizer.phrase (.weekday day.weekday)

/-! ## §2 Clauses -/

/-- The days of a month that a rule names, none if it names no day. -/
def monthlyClause (localizer : Localizer) (rule : Rule) : Except ExpansionError (Option String) :=
  if rule.byMonthDay ≠ [] then
    .ok (some (localizer.list (rule.byMonthDay.map (monthDayWords localizer))))
  else if rule.byDay = [] then .ok none
  else
    match rule.weekdays with
    | .error cause => .error cause
    | .ok days =>
      if rule.bySetPos ≠ [] then
        .ok (some (localizer.phrase .the ++ " "
          ++ localizer.list (rule.bySetPos.map fun position =>
            ordinalWords localizer position.toInt)
          ++ " " ++ weekdayList localizer days))
      else .ok (some (localizer.list (days.map (ordinalWeekdayWords localizer))))

/-- The days that a rule names, none if it names no day or its frequency has no clause for them.
-/
def daysClause (localizer : Localizer) (rule : Rule) : Except ExpansionError (Option String) :=
  match rule.frequency with
  | .weekly =>
    if rule.byDay = [] then .ok none
    else
      match rule.weekdays with
      | .error cause => .error cause
      | .ok days => .ok (some (weekdayList localizer days))
  | .monthly => rule.monthlyClause localizer
  | _ => .ok none

/-- When a rule ends: by number, else by date, else not at all. -/
def endClause (localizer : Localizer) (rule : Rule) : String :=
  match rule.count, rule.untilDate with
  | some count, _ =>
    ", " ++ localizer.phrase .times ++ " " ++ localizer.number count.toInt ++ " "
      ++ localizer.phrase (if count = 1 then .occurrence else .occurrences)
  | none, some untilDate => ", " ++ localizer.phrase .untilWord ++ " " ++ untilDate.write
  | none, none => ""

/-! ## §3 Sentences -/

/-- The sentence for a rule. -/
def sentence (localizer : Localizer) (rule : Rule) : Except ExpansionError String :=
  match rule.daysClause localizer with
  | .error cause => .error cause
  | .ok none => .ok (rule.frequencyWords localizer ++ rule.endClause localizer)
  | .ok (some days) =>
    .ok (rule.frequencyWords localizer ++ " " ++ localizer.phrase .on ++ " " ++ days
      ++ rule.endClause localizer)

/-- The description of a rule: its sentence, or the text for a rule that has none. -/
def describe (localizer : Localizer) (rule : Rule) : String :=
  match rule.sentence localizer with
  | .ok sentence => sentence
  | .error _ => localizer.phrase .invalidPattern

/-- The description of the rule that a text stands for. -/
def describeText (localizer : Localizer) (text : String) : String :=
  match read text with
  | .ok rule => rule.describe localizer
  | .error _ => localizer.phrase .invalidPattern

end RecurringDates.Rule
