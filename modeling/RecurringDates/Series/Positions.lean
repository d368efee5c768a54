import RecurringDates.Calendar.DateSet

/-!
# Positions in a set of dates

Dates picked out of a set by their place in it: 1 for the earliest, -1 for the latest. A place
that the set does not have picks nothing.
-/

namespace RecurringDates.DateSet

/-- How far after the earliest date a position lies in a set of a given size. No date has position
0. -/
def offset? (size position : Int) : Option Int :=
  if position = 0 then none
  else if 0 < position then some (position - 1)
  else some (size + position)

/-- The date at a position. -/
def at? (dates : DateSet) (position : Int) : Option Date :=
  match offset? dates.toList.length position with
  | none => none
  | some offset => if offset < 0 then none else dates.toList[offset.toNat]?

/-- The dates at positions. -/
def select (dates : DateSet) (positions : List Int) : DateSet :=
  ofList (positions.filterMap dates.at?)

end RecurringDates.DateSet
