import RecurringDates.Proofs.MonthSteps
import RecurringDates.Proofs.MonthWeekdays

/-!
# Days of a month in bounded numbers

A date is found by a handful of sums and differences, each of them in numbers of 32 or 64 bits. Here
every one of these steps is taken in its size and fails if the exact result does not fit. None ever
does: the length of a month, the number of a weekday and the size of a set of dates are small, and a
day counted from the end of a month is negative, so that adding to it goes towards zero.

The main statements say that each function has the result of the one in whole numbers, for all
values of its arguments (`Bounded.resolve?_eq`, `Bounded.select_eq`,
`Bounded.ordinalWeekdayDates_eq`, `Bounded.monthStart?_eq`).
-/

namespace RecurringDates

/-! ## §1 Numbers of a size -/

namespace Bounded

/-- The sizes of the numbers that dates are found with: 32 or 64 bits, with a sign or without. -/
inductive Size where
  | int32
  | int64
  | uint32
  | uint64
deriving DecidableEq

/-- A size holds the numbers that its bits tell apart. -/
def Size.Holds : Size → Int → Prop
  | int32, n => -2147483648 ≤ n ∧ n ≤ 2147483647
  | int64, n => -9223372036854775808 ≤ n ∧ n ≤ 9223372036854775807
  | uint32, n => 0 ≤ n ∧ n ≤ 4294967295
  | uint64, n => 0 ≤ n ∧ n ≤ 18446744073709551615

instance (size : Size) (n : Int) : Decidable (size.Holds n) := by
  cases size <;> exact inferInstanceAs (Decidable (_ ∧ _))

/-- An exact result that its size does not hold. -/
structure Overflow where
  size : Size
  result : Int
deriving DecidableEq

end Bounded

/-- What is computed in bounded numbers: a value, or the first result that did not fit. -/
abbrev Bounded : Type → Type :=
  Except Bounded.Overflow

namespace Bounded

/-- The exact result of one step, if the size of the step holds it. -/
def Size.fit (size : Size) (n : Int) : Bounded Int :=
  if size.Holds n then .ok n else .error ⟨size, n⟩

variable {α β : Type}

@[simp] theorem ok_bind (a : α) (f : α → Bounded β) : (Except.ok a : Bounded α) >>= f = f a :=
  rfl

@[simp] theorem pure_eq_ok (a : α) : (pure a : Bounded α) = .ok a :=
  rfl

theorem Size.fit_eq_ok_iff {size : Size} {n m : Int} :
    size.fit n = .ok m ↔ size.Holds n ∧ m = n := by
  unfold fit
  split
  · rename_i hholds
    simp only [Except.ok.injEq, hholds, true_and]
    exact eq_comm
  · rename_i hholds
    simp [hholds]

theorem Size.fit_eq_ok {size : Size} {n : Int} (hholds : size.Holds n) : size.fit n = .ok n :=
  fit_eq_ok_iff.mpr ⟨hholds, rfl⟩

/-- A list of steps that all fit gives what the steps give. -/
theorem filterMapM_ok {f : α → Bounded (Option β)} {g : α → Option β}
    (hfits : ∀ a, f a = .ok (g a)) (list : List α) :
    list.filterMapM f = .ok (list.filterMap g) := by
  induction list with
  | nil => rfl
  | cons a rest ih =>
    rw [List.filterMapM_cons, hfits, ok_bind, ih]
    cases hvalue : g a with
    | none => rw [List.filterMap_cons_none hvalue]
    | some b => rw [List.filterMap_cons_some hvalue]; rfl

theorem flatMapM_ok {f : α → Bounded (List β)} {g : α → List β} (hfits : ∀ a, f a = .ok (g a))
    (list : List α) : list.flatMapM f = .ok (list.flatMap g) := by
  induction list with
  | nil => rfl
  | cons a rest ih =>
    rw [List.flatMapM_cons, hfits, ok_bind, ih, ok_bind, pure_eq_ok, List.flatMap_cons]

theorem mapM_ok {f : α → Bounded β} {g : α → β} (hfits : ∀ a, f a = .ok (g a)) (list : List α) :
    list.mapM f = .ok (list.map g) := by
  obtain rfl : f = fun a => pure (g a) := funext hfits
  exact List.mapM_pure

theorem anyM_ok {f : α → Bounded Bool} {g : α → Bool} (hfits : ∀ a, f a = .ok (g a))
    (list : List α) : list.anyM f = .ok (list.any g) := by
  obtain rfl : f = fun a => pure (g a) := funext hfits
  exact List.anyM_pure

/-! ## §2 Weekdays -/

/-- The days from the start of a week to a weekday of it. A week is added before the start is taken
off, as a difference without a sign could not be negative. -/
def daysAfter (start weekday : Weekday) : Bounded Int := do
  let lifted ← Size.uint32.fit (weekday.index + 7)
  let difference ← Size.uint32.fit (lifted - start.index)
  return difference % 7

theorem daysAfter_eq (start weekday : Weekday) :
    daysAfter start weekday = .ok (Weekday.daysAfter start weekday) := by
  have hlow := weekday.index_nonneg
  have hhigh := weekday.index_lt
  have hpos := Weekday.liftedDifference_pos start weekday
  have hlt := Weekday.liftedDifference_lt start weekday
  unfold Weekday.liftedDifference at hpos hlt
  -- The week that is added keeps both numbers above zero.
  have hlifted : Size.uint32.Holds (weekday.index + 7) := by
    simp only [Size.Holds]
    omega
  have hdifference : Size.uint32.Holds (weekday.index + 7 - start.index) := by
    simp only [Size.Holds]
    omega
  rw [daysAfter, Size.fit_eq_ok hlifted, ok_bind, Size.fit_eq_ok hdifference, ok_bind]
  rfl

/-! ## §3 Days counted from either end -/

/-- The first day of a year, if the year takes 32 bits and the calendar has it. -/
def yearStart? (year : Int) : Option Date :=
  (Word.toInt32? year).bind fun word => Date.ofYearMonthDay? word.toInt 1 1

/-- The first day of the month after a month. -/
def nextStart? (month : Month) : Bounded (Option Date) :=
  if month.number = 12 then
    return yearStart? (month.year + 1)
  else do
    let number ← Size.uint32.fit (month.number + 1)
    return Date.ofYearMonthDay? month.year number 1

/-- The distance from the first day of a month to that of the next, as a number without a sign. -/
def measure? (month : Month) : Bounded (Option Int) :=
  match Date.ofYearMonthDay? month.year month.number 1 with
  | none => return none
  | some first => do
    let next ← nextStart? month
    return (next.map first.daysTo).filter (Size.uint32.Holds ·)

/-- The number from the start of a month for a day that is counted from its end. -/
def dayFromEnd (length day : Int) : Bounded Int := do
  let sum ← Size.int32.fit (length + day)
  Size.int32.fit (sum + 1)

/-- The date at a place of a month of a length. The place loses its sign once it is known to be in
the month. -/
def datePlaced? (month : Month) (length place : Int) : Bounded (Option Date) :=
  if place < 1 ∨ length < place then
    return none
  else do
    let day ← Size.uint32.fit place
    return Date.ofYearMonthDay? month.year month.number day

/-- The date of a day of a month, from the start if it is positive and from the end if it is
negative. -/
def resolve? (month : Month) (day : Int32) : Bounded (Option Date) := do
  match ← measure? month with
  | none => return none
  | some measured =>
    let length ← Size.int32.fit measured
    if day.toInt = 0 then
      return none
    else
      let place ← if 0 < day.toInt then pure day.toInt else dayFromEnd length day.toInt
      datePlaced? month length place

/-- A day of a month, found by the year and the number of the month. -/
theorem ofYearMonthDay?_eq (month : Month) (day : Int) :
    Date.ofYearMonthDay? month.year month.number day = month.date? day := by
  rw [Date.ofYearMonthDay?, if_pos ⟨month.number_pos, month.number_le⟩, Month.ofYear_year_number]

theorem ofYearMonthDay?_one (month : Month) :
    Date.ofYearMonthDay? month.year month.number 1 = month.start? := by
  ext start
  rw [ofYearMonthDay?_eq, Month.date?_eq_some_iff, Month.start?_eq_some_iff]

theorem ofYearMonthDay?_following (month : Month) :
    Date.ofYearMonthDay? (Month.following month.yearAndNumber).1
      (Month.following month.yearAndNumber).2 1 = month.next.start? := by
  rw [← Month.yearAndNumber_next]
  exact ofYearMonthDay?_one month.next

/-- The years of the calendar are far from the ends of 32 bits. -/
theorem year_bounds (date : Date) : -262143 ≤ date.year ∧ date.year ≤ 262142 := by
  have hfirst : Date.first.year = -262143 := by decide
  have hlast : Date.last.year = 262142 := by decide
  rw [← hfirst, ← hlast]
  exact ⟨Date.year_le date.first_le, Date.year_le date.le_last⟩

/-- A year beyond 32 bits is outside the calendar. -/
theorem ofYearMonthDay?_of_wide {year : Int} (hwide : Word.toInt32? year = none)
    (number day : Int) : Date.ofYearMonthDay? year number day = none := by
  rw [Option.eq_none_iff_forall_ne_some]
  intro date hdate
  have hyear := year_bounds date
  rw [(Date.ofYearMonthDay?_eq_some_iff.mp hdate).1] at hyear
  unfold Word.toInt32? at hwide
  rw [if_pos (by omega)] at hwide
  cases hwide

theorem yearStart?_eq (year : Int) : yearStart? year = Date.ofYearMonthDay? year 1 1 := by
  unfold yearStart?
  cases hword : Word.toInt32? year with
  | none => rw [Option.bind_none, ofYearMonthDay?_of_wide hword]
  | some word => rw [Option.bind_some, Word.toInt32?_eq_some_iff.mp hword]

/-- The month after a month is found whenever the calendar has it. -/
theorem nextStart?_eq (month : Month) : nextStart? month = .ok month.next.start? := by
  rw [← ofYearMonthDay?_following]
  unfold nextStart? Month.following Month.yearAndNumber
  by_cases hlast : month.number = 12
  · simp only [hlast, if_true, yearStart?_eq, pure_eq_ok]
  · have hpos := month.number_pos
    have hle := month.number_le
    have hnumber : Size.uint32.Holds (month.number + 1) := by
      simp only [Size.Holds]
      omega
    simp only [hlast, if_false, Size.fit_eq_ok hnumber, ok_bind, pure_eq_ok]

/-- **A month is measured without overflow.** -/
theorem measure?_eq (month : Month) : measure? month = .ok month.measure? := by
  unfold measure?
  rw [ofYearMonthDay?_one]
  cases hfirst : month.start? with
  -- A month without a first day has no length.
  | none => simp only [Month.measure?, hfirst, pure_eq_ok]
  | some first =>
    -- The length is the distance to the first day of the next month, if there is one.
    have hmeasure : month.measure? = month.next.start?.map first.daysTo := by
      unfold Month.measure?
      rw [hfirst]
      cases month.next.start? <;> rfl
    simp only [nextStart?_eq, ok_bind, pure_eq_ok, ← hmeasure]
    cases hlength : month.measure? with
    | none => rfl
    | some length =>
      -- A length is at most 31, so the range check lets it pass.
      have hge := month.length_ge
      have hle := month.length_le
      rw [(Month.measure?_eq_some_iff.mp hlength).2.2] at hge hle
      have hholds : Size.uint32.Holds length := by
        simp only [Size.Holds]
        omega
      simp only [Option.filter_some, hholds, decide_true, if_true]

/-- Counting from the end goes towards zero, as the day is negative. -/
theorem dayFromEnd_eq {length : Int} {day : Int32} (hlength : 0 ≤ length ∧ length ≤ 31)
    (hneg : day.toInt < 0) :
    dayFromEnd length day.toInt = .ok (Month.dayFromEnd length day.toInt) := by
  have hlow := day.le_toInt
  have hsum : Size.int32.Holds (length + day.toInt) := by
    simp only [Size.Holds]
    omega
  have hplace : Size.int32.Holds (length + day.toInt + 1) := by
    simp only [Size.Holds]
    omega
  rw [dayFromEnd, Size.fit_eq_ok hsum, ok_bind, Size.fit_eq_ok hplace]
  rfl

/-- It would not fit for a day counted from the start. -/
example : dayFromEnd 31 2147483647 = .error ⟨.int32, 2147483678⟩ := by
  decide

theorem datePlaced?_eq {month : Month} {length : Int} (hlength : month.length = length)
    (place : Int) : datePlaced? month length place = .ok (month.date? place) := by
  have hle := month.length_le
  unfold datePlaced?
  by_cases houtside : place < 1 ∨ length < place
  · -- Outside the month no number is asked for.
    have hnone : month.date? place = none := if_neg (by omega)
    rw [if_pos houtside, hnone, pure_eq_ok]
  · have hplace : Size.uint32.Holds place := by
      simp only [Size.Holds]
      omega
    rw [if_neg houtside, Size.fit_eq_ok hplace, ok_bind, ofYearMonthDay?_eq, pure_eq_ok]

/-- **A day of a month resolves without overflow**, whatever its number. -/
theorem resolve?_eq (month : Month) (day : Int32) :
    resolve? month day = .ok (month.resolve? day.toInt) := by
  unfold resolve? Month.resolve?
  rw [measure?_eq, ok_bind]
  cases hmeasure : month.measure? with
  | none => rfl
  | some length =>
    have hlength := (Month.measure?_eq_some_iff.mp hmeasure).2.2
    have hge := month.length_ge
    have hle := month.length_le
    have hholds : Size.int32.Holds length := by
      simp only [Size.Holds]
      omega
    simp only [Size.fit_eq_ok hholds, ok_bind]
    rcases Int.lt_trichotomy day.toInt 0 with hneg | hzero | hpos
    · -- A negative day is counted from the end of the month.
      rw [if_neg (Int.ne_of_lt hneg), if_neg (Int.lt_asymm hneg), if_neg (Int.ne_of_lt hneg),
        if_neg (Int.lt_asymm hneg), dayFromEnd_eq (by omega) hneg, ok_bind, datePlaced?_eq hlength]
    · -- Day 0 is no day.
      rw [if_pos hzero, if_pos hzero, pure_eq_ok]
    · -- A positive day is its own place.
      rw [if_neg (Int.ne_of_gt hpos), if_pos hpos, if_neg (Int.ne_of_gt hpos), if_pos hpos,
        pure_eq_ok, ok_bind, datePlaced?_eq hlength]

/-! ## §4 Positions in a set of dates -/

/-- How far after the earliest date a position lies in a set of a given size. -/
def offset? (size : Int) (position : Int32) : Bounded (Option Int) :=
  if position.toInt = 0 then
    return none
  else if 0 < position.toInt then do
    return some (← Size.int64.fit (position.toInt - 1))
  else do
    return some (← Size.int64.fit (size + position.toInt))

/-- The date at a position. -/
def at? (dates : List Date) (size : Int) (position : Int32) : Bounded (Option Date) := do
  match ← offset? size position with
  | none => return none
  | some offset => return if offset < 0 then none else dates[offset.toNat]?

/-- The dates at positions, in order. The number of dates takes on a sign first. -/
def select (dates : List Date) (positions : List Int32) : Bounded (List Date) := do
  let size ← Size.int64.fit dates.length
  let picked ← positions.filterMapM (at? dates size)
  return (DateSet.ofList picked).toList

/-- A set has no more dates than the calendar has days. -/
theorem length_toList_le (dates : DateSet) : dates.toList.length ≤ 191491529 := by
  have hle := Date.length_le_of_ascending dates.ascending (fun date _ => date.firstDay_le)
    (fun date _ => Int.lt_add_one_of_le date.le_lastDay)
  rw [Calendar.firstDay_eq, Calendar.lastDay_eq] at hle
  exact hle

theorem offset?_eq {size : Int} (hsize : 0 ≤ size ∧ size ≤ 191491529) (position : Int32) :
    offset? size position = .ok (DateSet.offset? size position.toInt) := by
  have hlow := position.le_toInt
  have hhigh := position.toInt_lt
  -- From the front one is taken off, from the back the size is added; both stay within 33 bits.
  have hforward : Size.int64.Holds (position.toInt - 1) := by
    simp only [Size.Holds]
    omega
  have hback : Size.int64.Holds (size + position.toInt) := by
    simp only [Size.Holds]
    omega
  unfold offset? DateSet.offset?
  rw [Size.fit_eq_ok hforward, Size.fit_eq_ok hback]
  split
  · rfl
  · split <;> rfl

/-- **Positions pick without overflow**, whatever they are. -/
theorem select_eq (dates : DateSet) (positions : List Int32) :
    select dates.toList positions = .ok (dates.select (positions.map Int32.toInt)).toList := by
  have hsize := length_toList_le dates
  have hholds : Size.int64.Holds dates.toList.length := by
    simp only [Size.Holds]
    omega
  have hat : ∀ position : Int32, at? dates.toList dates.toList.length position
      = .ok (dates.at? position.toInt) := by
    intro position
    rw [at?, offset?_eq (by omega), ok_bind, DateSet.at?]
    cases DateSet.offset? dates.toList.length position.toInt <;> rfl
  rw [select, Size.fit_eq_ok hholds, ok_bind, filterMapM_ok hat, ok_bind, DateSet.select,
    List.filterMap_map]
  rfl

/-! ## §5 Weekdays of a month -/

/-- The dates of a month on a weekday, from the first one on by weeks. -/
def weekdayWalk (month : Month) (weekday : Weekday) : Bounded (List Date) :=
  match Date.ofYearMonthDay? month.year month.number 1 with
  | none => return []
  | some first => do
    let offset ← daysAfter first.weekday weekday
    match first.addDays? offset with
    | none => return []
    | some date => return month.weeksFrom date

/-- The dates of a month that an ordinal weekday means. Its position takes the bits of any other. -/
def ordinalWeekdayDates (month : Month) (day : OrdinalWeekday) : Bounded (List Date) := do
  let dates ← weekdayWalk month day.weekday
  match day.ordinal with
  | none => return dates
  | some ordinal => select dates [ordinal.toInt32]

theorem weekdayWalk_eq (month : Month) (weekday : Weekday) :
    weekdayWalk month weekday = .ok (month.weekdayDates weekday).toList := by
  rw [← Month.weekdayWalk_eq]
  unfold weekdayWalk Month.weekdayWalk
  rw [ofYearMonthDay?_one]
  cases month.start? with
  | none => rfl
  | some first =>
    simp only [daysAfter_eq, ok_bind]
    cases first.addDays? (Weekday.daysAfter first.weekday weekday) <;> rfl

/-- **The weekdays of a month are found without overflow**, whatever the ordinal. -/
theorem ordinalWeekdayDates_eq (month : Month) (day : OrdinalWeekday) :
    ordinalWeekdayDates month day = .ok (month.ordinalWeekdayDates day).toList := by
  obtain ⟨ordinal, weekday⟩ := day
  unfold ordinalWeekdayDates Month.ordinalWeekdayDates
  rw [weekdayWalk_eq, ok_bind]
  cases ordinal with
  | none => rfl
  | some ordinal =>
    dsimp only
    rw [select_eq, List.map_singleton, Int8.toInt_toInt32]

/-! ## §6 Months by their index -/

/-- The months from January of year 0 to that of a date. -/
def monthIndex (date : Date) : Bounded Int := do
  let months ← Size.int64.fit (date.year * 12)
  Size.int64.fit (months + (date.month.number - 1))

/-- The first day of the month with an index, if its year takes 32 bits and the calendar has it. -/
def monthStart? (index : Int) : Bounded (Option Date) :=
  match Word.toInt32? (index / 12) with
  | none => return none
  | some year => do
    let number ← Size.uint32.fit (index % 12 + 1)
    return Date.ofYearMonthDay? year.toInt number 1

theorem monthIndex_eq (date : Date) : monthIndex date = .ok date.month.index := by
  have hyear := year_bounds date
  have hpos := date.month.number_pos
  have hle := date.month.number_le
  have hmonths : Size.int64.Holds (date.year * 12) := by
    simp only [Size.Holds]
    omega
  have hindex : Size.int64.Holds (date.year * 12 + (date.month.number - 1)) := by
    simp only [Size.Holds]
    omega
  rw [monthIndex, Size.fit_eq_ok hmonths, ok_bind, Size.fit_eq_ok hindex]
  unfold Date.year Month.year Month.number
  congr 1
  omega

/-- **Any index has its month without overflow.** -/
theorem monthStart?_eq (index : Int) : monthStart? index = .ok (Month.mk index).start? := by
  have hstart : Date.ofYearMonthDay? (index / 12) (index % 12 + 1) 1 = (Month.mk index).start? :=
    ofYearMonthDay?_one (Month.mk index)
  have hnumber : Size.uint32.Holds (index % 12 + 1) := by
    simp only [Size.Holds]
    omega
  rw [← hstart]
  unfold monthStart?
  cases hword : Word.toInt32? (index / 12) with
  | none => simp only [ofYearMonthDay?_of_wide hword, pure_eq_ok]
  | some year =>
    simp only [Size.fit_eq_ok hnumber, ok_bind, pure_eq_ok, Word.toInt32?_eq_some_iff.mp hword]

end Bounded

end RecurringDates
