import Mathlib.Data.List.Nodup
import RecurringDates.Proofs.CalendarMonths

/-!
# The weekdays of a month

A weekday falls on four or five dates of a month, whole weeks apart. An ordinal picks one of them by
its place from the start or from the end, and that place is told by the day of the month alone: the
days of a month go by sevens, and every seven days in a row have each weekday once.

The main statements are `DateSet.mem_select_iff_index` for places in any set of dates and
`Month.enumerates_ordinalWeekdayDates` for the weekdays of a month. The latter rests on a walk
through the month by weeks, which finds the same dates in order (`Month.weekdayWalk_eq`).
-/

namespace RecurringDates

/-! ## §1 Places in a set of dates -/

namespace DateSet

variable {dates : DateSet} {position : Int}

/-- A position picks nothing if it is zero or counts past the other end. -/
theorem at?_eq_none_iff :
    dates.at? position = none ↔ position = 0 ∨ dates.toList.length < position.natAbs := by
  unfold at?
  cases hoffset : offset? dates.toList.length position with
  | none =>
    -- Only position 0 has no offset.
    have hzero : position = 0 := by
      unfold offset? at hoffset
      split at hoffset
      · assumption
      · split at hoffset <;> cases hoffset
    simp [hzero]
  | some offset =>
    have hplace := offset?_eq_some_iff.mp hoffset
    by_cases hneg : offset < 0
    · -- A negative position counts further back than the set reaches.
      simp only [hneg, if_true, true_iff]
      omega
    · -- A position past the latest date picks nothing.
      simp only [hneg, if_false, List.getElem?_eq_none_iff]
      omega

/-- A single position picks at most one date. -/
theorem toList_select_singleton (dates : DateSet) (position : Int) :
    (dates.select [position]).toList = (dates.at? position).toList := by
  unfold select
  cases hfound : dates.at? position with
  | none => rw [List.filterMap_cons_none hfound]; rfl
  | some date => rw [List.filterMap_cons_some hfound]; rfl

/-- What positions pick stands in the set in the same order. -/
theorem select_sublist (dates : DateSet) (positions : List Int) :
    (dates.select positions).toList.Sublist dates.toList := by
  have hfilter : (dates.select positions).toList
      = dates.toList.filter (· ∈ dates.select positions) := by
    apply eq_of_ascending (dates.select positions).ascending (dates.ascending.filter _)
    intro date
    rw [List.mem_filter, decide_eq_true_eq]
    exact (and_iff_right_of_imp mem_select).symm
  rw [hfilter]
  exact List.filter_sublist

/-- **Positions pick by place.** Whatever positions are given, in whatever order and however often,
they pick dates of the set in ascending order, and they pick the date at a place, counted from 0,
exactly if one of them is the place counted from the earliest date as 1 or from the latest as -1. -/
theorem mem_select_iff_index (dates : DateSet) (positions : List Int) :
    (dates.select positions).toList.Pairwise (· < ·) ∧
      (dates.select positions).toList.Sublist dates.toList ∧
        ∀ i : Fin dates.toList.length, dates.toList[i] ∈ dates.select positions ↔
          ((i : Nat) : Int) + 1 ∈ positions ∨
            ((i : Nat) : Int) - dates.toList.length ∈ positions := by
  refine ⟨(dates.select positions).ascending, dates.select_sublist positions, fun i => ?_⟩
  have hnodup := Date.nodup_of_ascending dates.ascending
  -- As no date stands twice, the place of the picked date is the given one.
  have hplace : ∀ j : Nat, dates.toList[j]? = some dates.toList[i] ↔ j = i := by
    intro j
    constructor
    · intro hj
      obtain ⟨hlt, hsame⟩ := List.getElem?_eq_some_iff.mp hj
      exact (List.Nodup.getElem_inj_iff hnodup).mp hsame
    · rintro rfl
      exact List.getElem?_eq_getElem i.isLt
  rw [mem_select_iff]
  simp only [dates.enumerates.standsAt_iff, hplace, exists_eq_left]
  constructor
  · rintro ⟨position, hmem, rfl | rfl⟩
    · exact Or.inl hmem
    · exact Or.inr hmem
  · rintro (hmem | hmem)
    · exact ⟨_, hmem, Or.inl rfl⟩
    · exact ⟨_, hmem, Or.inr rfl⟩

/-- The middle one of three dates is the second from either end, and is picked once. -/
example :
    let dates := ofList [.ofParts 2024 1 8, .ofParts 2024 1 1, .ofParts 2024 1 15]
    (dates.select [2, -2147483648, 0, -2, 4, -3]).toList
      = [.ofParts 2024 1 1, .ofParts 2024 1 8] := by
  decide

end DateSet

/-! ## §2 A walk by weeks -/

namespace Month

variable {month : Month} {weekday : Weekday} {date other : Date}

/-- The dates from a date on, a week apart, as long as the number of the month stays the same and
the calendar has the next one. -/
def weeksFrom (month : Month) (date : Date) : List Date :=
  if date.month.number = month.number then
    match _h : date.addDays? 7 with
    | none => [date]
    | some next => date :: month.weeksFrom next
  else []
termination_by (Calendar.lastDay - date.dayNumber).toNat
decreasing_by
  have hlast := next.le_lastDay
  have hnext := Date.ofDayNumber?_eq_some_iff.mp _h
  omega

/-- The dates of a month on a weekday, found by going to the first of them and then on by weeks. -/
def weekdayWalk (month : Month) (weekday : Weekday) : List Date :=
  match month.start? with
  | none => []
  | some first =>
    match first.addDays? (Weekday.daysAfter first.weekday weekday) with
    | none => []
    | some date => month.weeksFrom date

/-- As far as a week past the end of a month, a day that has the month's number lies in it: the next
month is longer than a week and has another number. -/
theorem number_eq_iff (hlow : month.firstDay ≤ date.dayNumber)
    (hhigh : date.dayNumber < month.next.firstDay + 7) :
    date.month.number = month.number ↔ date.month = month := by
  constructor
  · intro hnumber
    by_cases hinside : date.dayNumber < month.next.firstDay
    · -- A day before the next month begins lies in the month.
      exact ofDay_eq_of_mem hlow hinside
    · -- Otherwise it lies in the next month, whose number differs.
      have hnext : date.month = month.next := by
        have hlength := month.next.length_ge
        have hend := month.next.firstDay_next
        exact ofDay_eq_of_mem (by omega) (by omega)
      rw [hnext] at hnumber
      simp only [next, add, number] at hnumber
      omega
  · rintro rfl
    rfl

/-- Helper: a date of a month is the one that no weeks lie before. -/
private theorem eq_iff_of_month (hmonth : date.month = month) :
    date = other ↔ other.dayNumber = date.dayNumber + 7 * (0 : Nat) ∧ other.month = month := by
  constructor
  · rintro rfl
    exact ⟨by omega, hmonth⟩
  · rintro ⟨hsame, _⟩
    exact Date.dayNumber_inj (by omega)

/-- **The walk goes by weeks to the end of the month.** Its dates are those of the month that lie a
number of weeks after its first one, each at the place of that number. -/
theorem getElem?_weeksFrom {i : Nat} (hlow : month.firstDay ≤ date.dayNumber)
    (hhigh : date.dayNumber < month.next.firstDay + 7) :
    (month.weeksFrom date)[i]? = some other ↔
      other.dayNumber = date.dayNumber + 7 * i ∧ other.month = month := by
  fun_induction weeksFrom month date generalizing i with
  | case1 date hnumber hnone =>
    -- The calendar ends within a week, so the walk has a single date.
    have hmonth := (number_eq_iff hlow hhigh).mp hnumber
    have hlast := other.le_lastDay
    rw [Date.addDays?, Date.ofDayNumber?_eq_none_iff] at hnone
    have hfirst := date.firstDay_le
    cases i with
    | zero =>
      rw [List.getElem?_cons_zero, Option.some.injEq, eq_iff_of_month hmonth]
    | succ i =>
      simp only [List.getElem?_cons_succ, List.getElem?_nil, reduceCtorEq, false_iff, not_and]
      omega
  | case2 date hnumber next hnext ih =>
    -- One step: the date itself, and then the dates of the walk from a week later.
    have hmonth := (number_eq_iff hlow hhigh).mp hnumber
    have hbelow : date.dayNumber < month.next.firstDay := by
      rw [← hmonth]
      exact lt_firstDay_ofDay_next date.dayNumber
    have hweek := Date.ofDayNumber?_eq_some_iff.mp hnext
    cases i with
    | zero =>
      rw [List.getElem?_cons_zero, Option.some.injEq, eq_iff_of_month hmonth]
    | succ i =>
      rw [List.getElem?_cons_succ, ih (by omega) (by omega)]
      apply and_congr_left
      intro _
      omega
  | case3 date hnumber =>
    -- The month is over, and whatever comes later lies after it too.
    simp only [List.getElem?_nil, reduceCtorEq, false_iff, not_and]
    rintro hlater rfl
    have hbelow : other.dayNumber < other.month.next.firstDay :=
      lt_firstDay_ofDay_next other.dayNumber
    exact hnumber ((number_eq_iff hlow hhigh).mpr (ofDay_eq_of_mem hlow (by omega)))

/-- **The walk has the dates on the weekday at their places**, counted from 0. -/
theorem getElem?_weekdayWalk {i : Nat} :
    (month.weekdayWalk weekday)[i]? = some date ↔
      date.month = month ∧ date.day = month.firstOn weekday + 7 * i := by
  unfold weekdayWalk
  cases hstart : month.start? with
  | none =>
    -- There are no dates in a month outside the calendar.
    simp only [List.getElem?_nil, reduceCtorEq, false_iff, not_and]
    rintro rfl
    have hinside := isSome_start?_month date
    rw [hstart] at hinside
    cases hinside
  | some start =>
    have hlow := month.firstOn_pos weekday
    have hhigh := month.firstOn_le weekday
    have hlength := month.length_ge
    have hend := month.firstDay_next
    have hwhole := bounds_of_start? (Option.isSome_of_eq_some hstart)
    have hnumber := Date.ofDayNumber?_eq_some_iff.mp hstart
    have hoffset : _ = month.firstOn weekday := firstOn_eq hstart
    dsimp only
    cases hfound : start.addDays? (Weekday.daysAfter start.weekday weekday) with
    | none =>
      -- A month of the calendar lies in it as a whole, so the first weekday is a date.
      rw [Date.addDays?, Date.ofDayNumber?_eq_none_iff] at hfound
      omega
    | some first =>
      -- The walk by weeks begins on the first date with the weekday.
      have hfirst := Date.ofDayNumber?_eq_some_iff.mp hfound
      dsimp only
      rw [getElem?_weeksFrom (by omega) (by omega), and_comm]
      apply and_congr_right
      rintro rfl
      unfold Date.day
      omega

/-- The walk has all dates of the month on the weekday, in order. -/
theorem enumerates_weekdayWalk (month : Month) (weekday : Weekday) :
    Date.Enumerates (month.weekdayWalk weekday)
      (fun date => date.month = month ∧ date.weekday = weekday) where
  ascending := by
    rw [List.pairwise_iff_getElem]
    intro i j hi hj hlt
    -- A later place is a later day of the same month.
    obtain ⟨hmonth, hday⟩ := getElem?_weekdayWalk.mp (List.getElem?_eq_getElem hi)
    obtain ⟨hmonth', hday'⟩ := getElem?_weekdayWalk.mp (List.getElem?_eq_getElem hj)
    rw [Date.day, hmonth] at hday
    rw [Date.day, hmonth'] at hday'
    rw [Date.lt_def]
    omega
  mem_iff date := by
    -- Standing at some place is lying some weeks after the first.
    rw [List.mem_iff_getElem?]
    simp only [getElem?_weekdayWalk, exists_and_left]
    apply and_congr_right
    rintro rfl
    exact weekday_eq_iff.symm

/-- **The walk finds the dates of the month on the weekday.** -/
theorem weekdayWalk_eq (month : Month) (weekday : Weekday) :
    month.weekdayWalk weekday = (month.weekdayDates weekday).toList :=
  (month.enumerates_weekdayWalk weekday).unique
    ⟨(month.weekdayDates weekday).ascending, fun _ => mem_weekdayDates_iff⟩

/-- A month of the calendar has a weekday once more as long as the week after is still in it. -/
theorem lt_length_weekdayWalk_iff (hstart : month.start?.isSome = true) (weekday : Weekday)
    (i : Nat) :
    i < (month.weekdayWalk weekday).length ↔
      month.firstOn weekday + 7 * i ≤ month.length := by
  have hpos := month.firstOn_pos weekday
  have hday := exists_date?_iff hstart (month.firstOn weekday + 7 * i)
  constructor
  · -- The date at the place is a day of the month.
    intro hlt
    obtain ⟨hmonth, hplace⟩ := getElem?_weekdayWalk.mp (List.getElem?_eq_getElem hlt)
    exact (hday.mp ⟨_, date?_eq_some_iff.mpr ⟨hmonth, hplace⟩⟩).2
  · -- The month has the day, and so the walk has it at its place.
    intro hle
    obtain ⟨date, hfound⟩ := hday.mpr ⟨by omega, hle⟩
    have hplace := getElem?_weekdayWalk.mpr (date?_eq_some_iff.mp hfound)
    exact (List.getElem?_eq_some_iff.mp hplace).1

/-- A month of the calendar has a weekday once in every seven days that are left from its first one
on. -/
theorem length_weekdayWalk (hstart : month.start?.isSome = true) (weekday : Weekday) :
    ((month.weekdayWalk weekday).length : Int)
      = (month.length - month.firstOn weekday) / 7 + 1 := by
  have hhigh := month.firstOn_le weekday
  have hlength := month.length_ge
  -- The place after the last one is past the end of the month, the last one is not.
  have hsome := lt_length_weekdayWalk_iff hstart weekday 0
  have hover := lt_length_weekdayWalk_iff hstart weekday (month.weekdayWalk weekday).length
  have hlast := lt_length_weekdayWalk_iff hstart weekday ((month.weekdayWalk weekday).length - 1)
  omega

end Month

/-! ## §3 The weekday at a place -/

/-- A date lies in the seven days of its month with a number, which are counted by sevens from the
first day on if the number is positive, and back from the last day if it is negative. -/
def Date.IsInSeven (date : Date) (n : Int) : Prop :=
  (0 < n ∧ 7 * (n - 1) < date.day ∧ date.day ≤ 7 * n) ∨
    (n < 0 ∧ 7 * (n.natAbs - 1) ≤ date.month.length - date.day ∧
      date.month.length - date.day < 7 * n.natAbs)

namespace Month

variable {month : Month} {weekday : Weekday} {date : Date}

/-- **The place of a date among those on its weekday** is told by the seven days of the month that
it lies in. -/
theorem standsAt_weekday_iff {n : Int} :
    date.StandsAt (fun other => other.month = month ∧ other.weekday = weekday) n ↔
      date.month = month ∧ date.weekday = weekday ∧ date.IsInSeven n := by
  rw [(month.enumerates_weekdayWalk weekday).standsAt_iff, weekday_eq_iff]
  simp only [getElem?_weekdayWalk, Date.IsInSeven]
  have hlow := month.firstOn_pos weekday
  have hhigh := month.firstOn_le weekday
  -- With the number of such dates known, both sides are about the day of the month.
  constructor
  · rintro ⟨i, ⟨rfl, hday⟩, hplace⟩
    have hlength := length_weekdayWalk (isSome_start?_month date) weekday
    have hle := date.day_le
    exact ⟨rfl, ⟨i, hday⟩, by omega⟩
  · rintro ⟨rfl, ⟨i, hday⟩, hseven⟩
    have hlength := length_weekdayWalk (isSome_start?_month date) weekday
    exact ⟨i, ⟨rfl, hday⟩, by omega⟩

theorem mem_ordinalWeekdayDates_nth_iff {ordinal : Int8} :
    date ∈ month.ordinalWeekdayDates (.nth ordinal weekday) ↔
      date.month = month ∧ date.weekday = weekday ∧ date.IsInSeven ordinal.toInt := by
  rw [mem_ordinalWeekdayDates_iff]
  unfold Date.IsOrdinalWeekday
  simp only [OrdinalWeekday.nth, standsAt_weekday_iff, true_and]

/-- **The weekdays of a month.** Without an ordinal they are all of its dates on the weekday, in
order. An ordinal picks at most one, that in the seven days of the month with the ordinal's number,
and it picks none exactly if it is zero or there are fewer such dates than it counts. -/
theorem enumerates_ordinalWeekdayDates (month : Month) (weekday : Weekday) (ordinal : Int8) :
    Date.Enumerates (month.ordinalWeekdayDates (.every weekday)).toList
        (fun date => date.month = month ∧ date.weekday = weekday) ∧
      Date.Enumerates (month.ordinalWeekdayDates (.nth ordinal weekday)).toList
        (fun date => date.month = month ∧ date.weekday = weekday ∧
          date.IsInSeven ordinal.toInt) ∧
      (month.ordinalWeekdayDates (.nth ordinal weekday)).toList.length ≤ 1 ∧
      ((month.ordinalWeekdayDates (.nth ordinal weekday)).toList = [] ↔
        ordinal.toInt = 0 ∨
          (month.ordinalWeekdayDates (.every weekday)).toList.length < ordinal.toInt.natAbs) := by
  -- An ordinal is a single position among the dates on the weekday.
  have hsingle : (month.ordinalWeekdayDates (.nth ordinal weekday)).toList
      = ((month.weekdayDates weekday).at? ordinal.toInt).toList :=
    DateSet.toList_select_singleton _ _
  refine ⟨⟨DateSet.ascending _, fun _ => mem_weekdayDates_iff⟩,
    ⟨DateSet.ascending _, fun _ => mem_ordinalWeekdayDates_nth_iff⟩, ?_, ?_⟩
  · rw [hsingle]
    exact Option.length_toList_le
  · rw [hsingle, Option.toList_eq_nil_iff]
    exact DateSet.at?_eq_none_iff

/-- A fifth Friday is also the last one, and most months have none. -/
example :
    ((Date.ofParts 2024 3 1).month.ordinalWeekdayDates (.nth 5 .friday)).toList
        = [.ofParts 2024 3 29] ∧
      ((Date.ofParts 2024 3 1).month.ordinalWeekdayDates (.nth (-1) .friday)).toList
        = [.ofParts 2024 3 29] ∧
      ((Date.ofParts 2024 4 1).month.ordinalWeekdayDates (.nth 5 .friday)).toList = [] := by
  decide

end Month

end RecurringDates
