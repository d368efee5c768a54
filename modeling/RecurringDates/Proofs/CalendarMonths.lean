import Mathlib.Data.List.OfFn
import RecurringDates.Proofs.MonthDays

/-!
# The months of the calendar

The calendar begins and ends with a whole year, so a month whose first day it has is in it with all
of its days. They are as many as the month is long, and a day number from either end names the one
that stands there. In one month no day number names any: the last of the calendar is measured
against a next month that there is none of.

The main statement is `Month.resolve?_eq_some_iff_standsAt`. It rests on the listing of a month,
`Month.enumerates_dates`.
-/

namespace RecurringDates.Month

variable {month : Month} {date : Date}

/-! ## §1 Whole months -/

theorem firstDay_month_first : Date.first.month.firstDay = Calendar.firstDay := by
  decide

theorem firstDay_next_month_last : Date.last.month.next.firstDay = Calendar.lastDay + 1 := by
  decide

/-- The months of the calendar run from that of its first day to that of its last. -/
theorem isSome_start?_iff :
    month.start?.isSome = true ↔
      Date.first.month.index ≤ month.index ∧ month.index ≤ Date.last.month.index := by
  have hfirst := firstDay_month_first
  have hlast := firstDay_next_month_last
  have hstart : month.start?.isSome = true ↔
      Calendar.firstDay ≤ month.firstDay ∧ month.firstDay ≤ Calendar.lastDay := by
    rw [Option.isSome_iff_ne_none, start?, Ne, Date.ofDayNumber?_eq_none_iff]
    omega
  rw [hstart]
  constructor
  · rintro ⟨hlow, hhigh⟩
    constructor
    · -- An earlier month would begin before the first day.
      refine Int.not_lt.mp fun hlt => ?_
      have hbefore := firstDay_lt_of_lt hlt
      omega
    · -- A later month would begin after the last day.
      refine Int.not_lt.mp fun hlt => ?_
      have hafter : Date.last.month.next.firstDay ≤ month.firstDay := firstDay_le_of_le hlt
      omega
  · rintro ⟨hlow, hhigh⟩
    -- Months in between begin in between.
    have hbegins := firstDay_le_of_le hlow
    have hends : month.firstDay < Date.last.month.next.firstDay :=
      firstDay_lt_of_lt (Int.lt_add_one_of_le hhigh)
    omega

/-- **A month that begins inside the calendar ends inside it.** -/
theorem bounds_of_start? (hstart : month.start?.isSome = true) :
    Calendar.firstDay ≤ month.firstDay ∧
      month.firstDay + month.length ≤ Calendar.lastDay + 1 := by
  have hfirst := firstDay_month_first
  have hlast := firstDay_next_month_last
  obtain ⟨hlow, hhigh⟩ := isSome_start?_iff.mp hstart
  have hbegins := firstDay_le_of_le hlow
  have hends : month.next.firstDay ≤ Date.last.month.next.firstDay :=
    firstDay_le_of_le (Int.add_le_add_right hhigh 1)
  rw [firstDay_next] at hends
  omega

/-- The month of a date begins inside the calendar. -/
theorem isSome_start?_month (date : Date) : date.month.start?.isSome = true := by
  obtain ⟨start, hstart, _⟩ := date.exists_month_start
  rw [hstart]
  rfl

/-- A month of the calendar has the days that its length allows. -/
theorem exists_date?_iff (hstart : month.start?.isSome = true) (day : Int) :
    (∃ date, month.date? day = some date) ↔ 1 ≤ day ∧ day ≤ month.length := by
  obtain ⟨hlow, hhigh⟩ := bounds_of_start? hstart
  unfold date?
  constructor
  · rintro ⟨date, hfound⟩
    split at hfound
    · assumption
    · cases hfound
  · intro hday
    rw [if_pos hday]
    exact ⟨⟨month.firstDay + day - 1, by omega, by omega⟩, Date.ofDayNumber?_eq_some_iff.mpr rfl⟩

/-! ## §2 The dates of a month -/

/-- The dates of a month of the calendar, from its first day to its last. -/
def dates (month : Month) (hstart : month.start?.isSome = true) : List Date :=
  List.ofFn fun i : Fin month.length.toNat =>
    { dayNumber := month.firstDay + (i : Nat)
      firstDay_le := by
        have hlow := (bounds_of_start? hstart).1
        omega
      le_lastDay := by
        have hhigh := (bounds_of_start? hstart).2
        omega }

theorem length_dates (hstart : month.start?.isSome = true) :
    ((month.dates hstart).length : Int) = month.length := by
  have hpos := month.length_ge
  rw [dates, List.length_ofFn]
  omega

/-- The places of a month's dates are their days of the month, counted from 0. -/
theorem getElem?_dates (hstart : month.start?.isSome = true) (i : Nat) :
    (month.dates hstart)[i]? = month.date? (i + 1) := by
  rw [dates, List.getElem?_ofFn, date?]
  by_cases hi : i < month.length.toNat
  · have hday : 1 ≤ (i : Int) + 1 ∧ (i : Int) + 1 ≤ month.length := by omega
    rw [dif_pos hi, if_pos hday, eq_comm, Date.ofDayNumber?_eq_some_iff]
    show month.firstDay + (i : Int) = _
    omega
  · have hday : ¬ (1 ≤ (i : Int) + 1 ∧ (i : Int) + 1 ≤ month.length) := by omega
    rw [dif_neg hi, if_neg hday]

/-- **The listing of a month** has exactly its dates, in order. -/
theorem enumerates_dates (hstart : month.start?.isSome = true) :
    Date.Enumerates (month.dates hstart) (fun date => date.month = month) where
  ascending := by
    rw [dates, List.pairwise_ofFn]
    -- The dates are listed by their day numbers.
    intro i j hlt
    rw [Date.lt_def]
    show month.firstDay + (i : Int) < month.firstDay + (j : Int)
    omega
  mem_iff date := by
    rw [List.mem_iff_getElem?]
    simp only [getElem?_dates, date?_eq_some_iff]
    constructor
    · rintro ⟨_, hmonth, _⟩
      exact hmonth
    · -- A date of the month stands at its day, counted from zero.
      intro hmonth
      have hpos := date.day_pos
      exact ⟨(date.day - 1).toNat, hmonth, by omega⟩

/-- A date stands in its month at its day, counted from the first, and at the days from there to the
end, counted from the last. -/
theorem standsAt_month_iff (hstart : month.start?.isSome = true) {n : Int} :
    date.StandsAt (fun other => other.month = month) n ↔
      date.month = month ∧ date.IsMonthDay n := by
  have hlength := length_dates hstart
  rw [(enumerates_dates hstart).standsAt_iff]
  simp only [getElem?_dates, date?_eq_some_iff, Date.IsMonthDay]
  constructor
  · rintro ⟨i, ⟨rfl, hday⟩, hplace⟩
    have hle := date.day_le
    exact ⟨rfl, by omega⟩
  · rintro ⟨rfl, hday⟩
    have hpos := date.day_pos
    exact ⟨(date.day - 1).toNat, ⟨rfl, by omega⟩, by omega⟩

/-! ## §3 Day numbers from either end -/

/-- A day number names a day of a month unless it is zero or counts past the other end. -/
theorem exists_isMonthDay_iff (hstart : month.start?.isSome = true) {n : Int} :
    (∃ date : Date, date.month = month ∧ date.IsMonthDay n) ↔
      n ≠ 0 ∧ (n.natAbs : Int) ≤ month.length := by
  constructor
  · -- A day of a month lies between its first and its last, so counted from either end it is not
    -- zero and not past the other.
    rintro ⟨date, rfl, hday⟩
    have hpos := date.day_pos
    have hle := date.day_le
    unfold Date.IsMonthDay at hday
    omega
  · rintro ⟨hzero, hle⟩
    -- The day from the start is the number itself or the length less what is counted back.
    obtain ⟨date, hfound⟩ :=
      (exists_date?_iff hstart (if 0 < n then n else month.length + n + 1)).mpr (by split <;> omega)
    obtain ⟨rfl, hday⟩ := date?_eq_some_iff.mp hfound
    refine ⟨date, rfl, ?_⟩
    unfold Date.IsMonthDay
    split at hday <;> omega

theorem index_lt_last_iff (hstart : month.start?.isSome = true) :
    month.index < Date.last.month.index ↔ month ≠ Date.last.month := by
  obtain ⟨_, hhigh⟩ := isSome_start?_iff.mp hstart
  constructor
  · rintro hlt rfl
    omega
  · intro hne
    have hindex : month.index ≠ Date.last.month.index := fun hsame => hne (congrArg Month.mk hsame)
    omega

/-- **Day numbers resolve in every month of the calendar but its last.** A month that begins inside
the calendar has as many dates as it is long. A day number resolves to the date that stands there
among them, from the first if it is positive and from the last if it is negative, and to none only
if it is zero or more than the length, or if the month is the last of the calendar. -/
theorem resolve?_eq_some_iff_standsAt (hstart : month.start?.isSome = true) (n : Int) :
    (∃ dates : List Date, Date.Enumerates dates (fun other => other.month = month) ∧
      (dates.length : Int) = month.length) ∧
    (∀ date, month.resolve? n = some date ↔
      month ≠ Date.last.month ∧ date.StandsAt (fun other => other.month = month) n) ∧
    (month.resolve? n = none ↔
      month = Date.last.month ∨ n = 0 ∨ month.length < (n.natAbs : Int)) := by
  have hresolve : ∀ date, month.resolve? n = some date ↔
      month ≠ Date.last.month ∧ date.month = month ∧ date.IsMonthDay n := by
    intro date
    rw [resolve?_eq_some_iff, index_lt_last_iff hstart, and_left_comm]
  refine ⟨⟨_, enumerates_dates hstart, length_dates hstart⟩, fun date => ?_, ?_⟩
  · rw [hresolve, standsAt_month_iff hstart]
  · rw [Option.eq_none_iff_forall_ne_some]
    simp only [ne_eq, hresolve, not_and]
    constructor
    · intro hnone
      by_cases hlast : month = Date.last.month
      · exact Or.inl hlast
      · -- In any other month a number in range would name a day.
        refine Or.inr (Classical.byContradiction fun hrange => ?_)
        have hinside : n ≠ 0 ∧ (n.natAbs : Int) ≤ month.length := by omega
        obtain ⟨date, hmonth, hday⟩ := (exists_isMonthDay_iff hstart).mpr hinside
        exact hnone date hlast hmonth hday
    · -- A number that is zero or past the other end names no day.
      intro hcases date hlast hmonth hday
      have hrange := (exists_isMonthDay_iff hstart).mp ⟨date, hmonth, hday⟩
      rcases hcases with hlast' | hzero | hlong
      · exact hlast hlast'
      · exact hrange.1 hzero
      · omega

/-- The twenty-ninth day from the end of a leap February is its first. -/
theorem resolve?_eq_some_iff_standsAt_february :
    (Date.ofParts 2024 2 1).month.start?.isSome = true ∧
      (Date.ofParts 2024 2 1).StandsAt
        (fun other => other.month = (Date.ofParts 2024 2 1).month) (-29) ∧
      (Date.ofParts 2024 2 1).month.resolve? (-30) = none := by
  have hstart : (Date.ofParts 2024 2 1).month.start?.isSome = true := by decide
  have hfound : (Date.ofParts 2024 2 1).month.resolve? (-29) = some (.ofParts 2024 2 1) := by decide
  obtain ⟨_, hsome, _⟩ := resolve?_eq_some_iff_standsAt hstart (-29)
  obtain ⟨_, _, hnone⟩ := resolve?_eq_some_iff_standsAt hstart (-30)
  exact ⟨hstart, ((hsome _).mp hfound).2, hnone.mpr (Or.inr (Or.inr (by decide)))⟩

/-- The last month of the calendar has a fifteenth day, and its number resolves to none. -/
theorem not_forall_resolve?_eq_none_iff :
    ¬ ∀ (month : Month) (n : Int32), month.start?.isSome = true →
      (∀ date, month.resolve? n.toInt = some date ↔
        date.StandsAt (fun other => other.month = month) n.toInt) ∧
      (month.resolve? n.toInt = none ↔
        n.toInt = 0 ∨ month.length < (n.toInt.natAbs : Int)) := by
  intro hresolves
  -- The month after the last one begins outside the calendar, so the last one is not measured.
  obtain ⟨_, hnone⟩ := hresolves Date.last.month 15 (by decide)
  have hmissed : Date.last.month.resolve? (15 : Int32).toInt = none := by decide
  exact absurd (hnone.mp hmissed) (by decide)

end RecurringDates.Month
