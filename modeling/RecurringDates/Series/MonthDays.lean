import RecurringDates.Rule.OrdinalWeekday
import RecurringDates.Series.Positions

/-!
# Days of a month

The days of a month that a rule may ask for: a day counted from either end, every one of a
weekday, or the one at a position.
-/

namespace RecurringDates.Month

/-! ## §1 Days counted from either end -/

/-- The distance from the first day of a month to the first day of the next. The last month of the
calendar has no next one to measure against. -/
def measure? (month : Month) : Option Int :=
  match month.start?, month.next.start? with
  | some first, some next => some (first.daysTo next)
  | _, _ => none

/-- The number from the start of a month for a day that is counted from its end: -1 is the last.
-/
def dayFromEnd (length day : Int) : Int :=
  length + day + 1

/-- The date of a day of a month, from the start if it is positive and from the end if it is
negative. A day that the month does not have is no date, and neither is day 0. -/
def resolve? (month : Month) (day : Int) : Option Date :=
  match month.measure? with
  | none => none
  | some length =>
    if day = 0 then none
    else month.date? (if 0 < day then day else dayFromEnd length day)

/-! ## §2 Weekdays -/

/-- Every date of a month that falls on a weekday: the first one and those whole weeks after it.
-/
def weekdayDates (month : Month) (weekday : Weekday) : DateSet :=
  match month.start? with
  | none => DateSet.empty
  | some first =>
    let firstDay := Weekday.daysAfter first.weekday weekday + 1
    DateSet.ofList ((List.range 5).filterMap fun (week : Nat) => month.date? (firstDay + 7 * week))

/-- The dates of a month that an ordinal weekday means. -/
def ordinalWeekdayDates (month : Month) (day : OrdinalWeekday) : DateSet :=
  match day.ordinal with
  | none => month.weekdayDates day.weekday
  | some ordinal => (month.weekdayDates day.weekday).select [ordinal.toInt]

/-! ## §3 Months of a rule -/

/-- Whether a month's number is in a list, or the list is empty and asks for none. -/
def isIn (month : Month) (numbers : List Int32) : Bool :=
  numbers.isEmpty || numbers.any fun n => n.toInt == month.number

end RecurringDates.Month
