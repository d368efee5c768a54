/-!
# Weekdays

The seven days of a week, their names, and how far apart they are inside a week that may begin on
any of them.
-/

namespace RecurringDates

/-- A day of the week. -/
inductive Weekday where
  | monday
  | tuesday
  | wednesday
  | thursday
  | friday
  | saturday
  | sunday
deriving DecidableEq, Repr

namespace Weekday

/-! ## §1 Numbering -/

/-- The seven weekdays from Monday on. -/
def all : List Weekday :=
  [monday, tuesday, wednesday, thursday, friday, saturday, sunday]

/-- The number of days from Monday to a weekday of the same Monday-based week. -/
def index : Weekday → Int
  | monday => 0
  | tuesday => 1
  | wednesday => 2
  | thursday => 3
  | friday => 4
  | saturday => 5
  | sunday => 6

/-- The weekday of a day number. Day 0 is a Monday, and the weekdays come round every seven days.
-/
def ofDay (day : Int) : Weekday :=
  match (day % 7).toNat with
  | 0 => monday
  | 1 => tuesday
  | 2 => wednesday
  | 3 => thursday
  | 4 => friday
  | 5 => saturday
  | _ => sunday

theorem index_nonneg (weekday : Weekday) : 0 ≤ weekday.index := by
  cases weekday <;> decide

theorem index_lt (weekday : Weekday) : weekday.index < 7 := by
  cases weekday <;> decide

theorem mem_all (weekday : Weekday) : weekday ∈ all := by
  cases weekday <;> decide

theorem index_inj {a b : Weekday} (h : a.index = b.index) : a = b := by
  cases a <;> cases b <;> first | rfl | exact absurd h (by decide)

/-- **A day's weekday is its number modulo seven.** -/
theorem index_ofDay (day : Int) : (ofDay day).index = day % 7 := by
  have hlow := Int.emod_nonneg day (show (7 : Int) ≠ 0 by decide)
  have hhigh := Int.emod_lt_of_pos day (show (0 : Int) < 7 by decide)
  have hcases : day % 7 = 0 ∨ day % 7 = 1 ∨ day % 7 = 2 ∨ day % 7 = 3 ∨ day % 7 = 4
      ∨ day % 7 = 5 ∨ day % 7 = 6 := by omega
  rcases hcases with h | h | h | h | h | h | h <;> rw [ofDay, h] <;> rfl

/-! ## §2 Distance inside a week -/

/-- The difference of two weekday numbers, lifted by a week so that it is never negative. -/
def liftedDifference (start weekday : Weekday) : Int :=
  weekday.index + 7 - start.index

/-- The number of days from the start of a week to a weekday of it. -/
def daysAfter (start weekday : Weekday) : Int :=
  liftedDifference start weekday % 7

theorem liftedDifference_pos (start weekday : Weekday) : 0 < liftedDifference start weekday := by
  cases start <;> cases weekday <;> decide

theorem liftedDifference_lt (start weekday : Weekday) : liftedDifference start weekday < 14 := by
  cases start <;> cases weekday <;> decide

theorem daysAfter_nonneg (start weekday : Weekday) : 0 ≤ daysAfter start weekday :=
  Int.emod_nonneg _ (by decide)

theorem daysAfter_lt (start weekday : Weekday) : daysAfter start weekday < 7 :=
  Int.emod_lt_of_pos _ (by decide)

/-- A week begins on its first day. -/
theorem daysAfter_self (start : Weekday) : daysAfter start start = 0 := by
  cases start <;> decide

/-- Between two days whole weeks do not show. -/
theorem daysAfter_ofDay (a b : Int) : daysAfter (ofDay a) (ofDay b) = (b - a) % 7 := by
  simp only [daysAfter, liftedDifference, index_ofDay]
  omega

/-- Inside a week the distance from its start tells the weekday. -/
theorem daysAfter_inj {start a b : Weekday} (h : daysAfter start a = daysAfter start b) :
    a = b := by
  apply index_inj
  have hstart := start.index_lt
  have ha := a.index_nonneg
  have ha' := a.index_lt
  have hb := b.index_nonneg
  have hb' := b.index_lt
  simp only [daysAfter, liftedDifference] at h
  omega

/-! ## §3 Names -/

/-- The two capital letters that stand for a weekday in a rule. -/
def code : Weekday → String
  | monday => "MO"
  | tuesday => "TU"
  | wednesday => "WE"
  | thursday => "TH"
  | friday => "FR"
  | saturday => "SA"
  | sunday => "SU"

/-- The three-letter name under which a weekday is stored. -/
def shortName : Weekday → String
  | monday => "Mon"
  | tuesday => "Tue"
  | wednesday => "Wed"
  | thursday => "Thu"
  | friday => "Fri"
  | saturday => "Sat"
  | sunday => "Sun"

/-- The full English name. -/
def longName : Weekday → String
  | monday => "Monday"
  | tuesday => "Tuesday"
  | wednesday => "Wednesday"
  | thursday => "Thursday"
  | friday => "Friday"
  | saturday => "Saturday"
  | sunday => "Sunday"

/-- The weekday of a two-letter code in capital or small letters. -/
def ofCode? (text : List Char) : Option Weekday :=
  all.find? fun weekday => weekday.code.toList == text.map Char.toUpper

/-- The weekday of a short or full English name in capital or small letters. -/
def ofName? (text : String) : Option Weekday :=
  let upper := text.toList.map Char.toUpper
  all.find? fun weekday =>
    weekday.shortName.toList.map Char.toUpper == upper
      || weekday.longName.toList.map Char.toUpper == upper

theorem ofCode?_code (weekday : Weekday) : ofCode? weekday.code.toList = some weekday := by
  cases weekday <;> decide

theorem ofName?_shortName (weekday : Weekday) : ofName? weekday.shortName = some weekday := by
  cases weekday <;> decide

end Weekday

end RecurringDates
