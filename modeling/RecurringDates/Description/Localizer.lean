import RecurringDates.Description.Phrase

/-!
# Localizers

Where the words and numbers of a description come from.
-/

namespace RecurringDates

/-- A source of words and numbers in some language. -/
structure Localizer where
  /-- The text of a fragment with an identity and an English text. -/
  lookup : String → String → String
  /-- The text of a number. -/
  number : Int → String

namespace Localizer

/-- Plain English: every fragment is its English text, every number its decimal digits. -/
def english : Localizer where
  lookup _ fallback := fallback
  number n := toString n

/-- The text of a phrase. -/
def phrase (localizer : Localizer) (phrase : Phrase) : String :=
  localizer.lookup phrase.id phrase.fallback

/-- The members of a list with separators between them. -/
def list (localizer : Localizer) (members : List String) : String :=
  String.intercalate (localizer.phrase .listSeparator) members

end Localizer

end RecurringDates
