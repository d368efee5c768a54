import RecurringDates.Proofs.Horizon

/-!
# The days of a month that a rule may ask for

A day may be asked for by its number from either end of its month, by its weekday, or by its
position among other days. Each way is a property of the date itself, and the dates that a month
gives for it are exactly those with the property.

The main statements are `Month.resolve?_eq_some_iff`, `DateSet.mem_select_iff` and
`Month.mem_ordinalWeekdayDates_iff`.
-/

namespace RecurringDates

/-! ## §1 Months of the calendar -/

namespace Date

/-- The month of a date begins inside the calendar. -/
theorem firstDay_le_month (date : Date) : Calendar.firstDay ≤ date.month.firstDay := by
  have hfirst : first.month.firstDay = Calendar.firstDay := by decide
  rw [← hfirst]
  exact Month.firstDay_le_of_le (month_index_le date.first_le)

theorem exists_month_start (date : Date) :
    ∃ start, date.month.start? = some start ∧ start.dayNumber = date.month.firstDay := by
  have hfirst := date.firstDay_le_month
  have hbefore := Month.firstDay_ofDay_le date.dayNumber
  have hlast := date.le_lastDay
  simp only [Month.start?, Date.ofDayNumber?_eq_some_iff]
  exact ⟨⟨date.month.firstDay, hfirst, Int.le_trans hbefore hlast⟩, rfl, rfl⟩

/-- A date before the first day of a month lies in an earlier month. -/
theorem month_index_lt {date : Date} {month : Month} (hlt : date.dayNumber < month.firstDay) :
    date.month.index < month.index := by
  refine Int.not_le.mp fun hle => ?_
  have hfirst := Month.firstDay_le_of_le hle
  have hbefore : date.month.firstDay ≤ date.dayNumber := Month.firstDay_ofDay_le date.dayNumber
  omega

/-! ## §2 Days counted from either end -/

/-- A date is the day with a number of its month, counted from the first if the number is positive
and from the last if it is negative. -/
def IsMonthDay (date : Date) (n : Int) : Prop :=
  (0 < n ∧ date.day = n) ∨ (n < 0 ∧ date.day = date.month.length + n + 1)

end Date

namespace Month

variable {month : Month} {date : Date}

/-- The month after a month begins inside the calendar exactly if the month is not yet the last. -/
theorem firstDay_next_le_iff :
    month.next.firstDay ≤ Calendar.lastDay ↔ month.index < Date.last.month.index := by
  have hbefore : Date.last.month.firstDay ≤ Calendar.lastDay :=
    firstDay_ofDay_le Date.last.dayNumber
  have hafter : Calendar.lastDay < Date.last.month.next.firstDay :=
    lt_firstDay_ofDay_next Date.last.dayNumber
  constructor
  · intro hle
    refine Int.not_le.mp fun hindex => ?_
    have hnext : Date.last.month.next.firstDay ≤ month.next.firstDay :=
      firstDay_le_of_le (Int.add_le_add_right hindex 1)
    omega
  · intro hlt
    exact Int.le_trans (firstDay_le_of_le hlt) hbefore

/-- A month can be measured if it and the month after it begin inside the calendar. -/
theorem measure?_eq_some_iff {length : Int} :
    month.measure? = some length ↔
      Calendar.firstDay ≤ month.firstDay ∧ month.next.firstDay ≤ Calendar.lastDay ∧
        month.length = length := by
  have hnext := month.firstDay_next
  have hlength := month.length_ge
  unfold measure? start?
  cases hstart : Date.ofDayNumber? month.firstDay with
  | none =>
    -- A first day past the end of the calendar has the next one past it as well.
    have houtside := Date.ofDayNumber?_eq_none_iff.mp hstart
    simp only [reduceCtorEq, false_iff]
    omega
  | some start =>
    have hfirst := start.firstDay_le
    rw [Date.ofDayNumber?_eq_some_iff] at hstart
    cases hend : Date.ofDayNumber? month.next.firstDay with
    | none =>
      -- The month after the last one of the calendar has no first day.
      have houtside := Date.ofDayNumber?_eq_none_iff.mp hend
      simp only [reduceCtorEq, false_iff]
      omega
    | some next =>
      have hlast := next.le_lastDay
      rw [Date.ofDayNumber?_eq_some_iff] at hend
      simp only [Option.some.injEq, Date.daysTo]
      omega

/-- **A day number resolves to the date that it counts to**, in every month but the calendar's last,
which has no next month to measure against. -/
theorem resolve?_eq_some_iff {n : Int} :
    month.resolve? n = some date ↔
      date.month = month ∧ month.index < Date.last.month.index ∧ date.IsMonthDay n := by
  constructor
  · intro hresolve
    unfold resolve? at hresolve
    cases hmeasure : month.measure? with
    | none => simp [hmeasure] at hresolve
    | some length =>
      obtain ⟨_, hnext, rfl⟩ := measure?_eq_some_iff.mp hmeasure
      by_cases hzero : n = 0
      · simp [hmeasure, hzero] at hresolve
      · -- The number is turned into a day from the start, and the month has that day.
        simp only [hmeasure, hzero, if_false, date?_eq_some_iff] at hresolve
        obtain ⟨rfl, hday⟩ := hresolve
        refine ⟨rfl, firstDay_next_le_iff.mp hnext, ?_⟩
        unfold Date.IsMonthDay
        unfold dayFromEnd at hday
        split at hday <;> omega
  · -- The month of the date is measured, and the number is counted from either end.
    rintro ⟨rfl, hindex, hday⟩
    have hmeasure := measure?_eq_some_iff.mpr
      ⟨date.firstDay_le_month, firstDay_next_le_iff.mpr hindex, rfl⟩
    have hzero : n ≠ 0 := by
      rcases hday with ⟨hpos, _⟩ | ⟨hneg, _⟩ <;> omega
    unfold resolve?
    simp only [hmeasure, hzero, if_false, date?_eq_some_iff, true_and]
    unfold dayFromEnd
    rcases hday with ⟨hpos, hday⟩ | ⟨hneg, hday⟩
    · rw [if_pos hpos, hday]
    · rw [if_neg (by omega), hday]

end Month

/-! ## §3 Positions -/

namespace DateSet

variable {dates : DateSet} {date : Date}

theorem enumerates (dates : DateSet) : Date.Enumerates dates.toList (· ∈ dates) :=
  ⟨dates.ascending, fun _ => Iff.rfl⟩

theorem offset?_eq_some_iff {size position offset : Int} :
    offset? size position = some offset ↔
      (0 < position ∧ position = offset + 1) ∨ (position < 0 ∧ position = offset - size) := by
  unfold offset?
  split
  · simp only [reduceCtorEq, false_iff]
    omega
  · split
    · rw [Option.some.injEq]
      omega
    · rw [Option.some.injEq]
      omega

theorem at?_eq_some_iff_offset {position : Int} :
    dates.at? position = some date ↔
      ∃ i : Nat, offset? dates.toList.length position = some (i : Int) ∧
        dates.toList[i]? = some date := by
  unfold at?
  cases hoffset : offset? dates.toList.length position with
  | none => simp
  | some offset =>
    by_cases hneg : offset < 0
    · -- An offset before the first place picks nothing, and no place has one.
      simp only [hneg, if_true, reduceCtorEq, Option.some.injEq, false_iff]
      rintro ⟨i, rfl, _⟩
      omega
    · -- Any other offset is a place to look at.
      obtain ⟨i, rfl⟩ := Int.eq_ofNat_of_zero_le (Int.not_lt.mp hneg)
      simp only [hneg, if_false, Int.toNat_natCast, Option.some.injEq, Int.natCast_inj,
        exists_eq_left']

/-- **A position picks the date that stands there**, and nothing where none does. -/
theorem at?_eq_some_iff {position : Int} :
    dates.at? position = some date ↔ date.StandsAt (· ∈ dates) position := by
  -- Both sides name an index of the list; the positions that fit it are told by its length.
  rw [dates.enumerates.standsAt_iff, at?_eq_some_iff_offset]
  apply exists_congr
  intro i
  rw [and_comm]
  apply and_congr_right
  intro hi
  obtain ⟨hlt, _⟩ := List.getElem?_eq_some_iff.mp hi
  rw [offset?_eq_some_iff]
  omega

/-- **Positions pick the dates that stand at one of them.** -/
theorem mem_select_iff {positions : List Int} :
    date ∈ dates.select positions ↔
      ∃ position ∈ positions, date.StandsAt (· ∈ dates) position := by
  unfold select
  rw [mem_ofList, List.mem_filterMap]
  simp only [at?_eq_some_iff]

/-- Positions among the dates of one month are positions among the dates of the month that the
picked date itself lies in. -/
theorem mem_select_month_iff {month : Month} {property : Date → Prop} {positions : List Int}
    (hdates : ∀ other, other ∈ dates ↔ other.month = month ∧ property other) :
    date ∈ dates.select positions ↔ date.month = month ∧ ∃ position ∈ positions,
      date.StandsAt (fun other => other.month = date.month ∧ property other) position := by
  rw [mem_select_iff]
  simp only [Date.StandsAt.congr hdates]
  constructor
  · -- What stands among the dates of the month is one of them.
    rintro ⟨position, hposition, hstands⟩
    obtain ⟨rfl, _⟩ := hstands.property
    exact ⟨rfl, position, hposition, hstands⟩
  · rintro ⟨rfl, hpicked⟩
    exact hpicked

end DateSet

/-! ## §4 Weekdays of a month -/

/-- A date is one that an ordinal weekday means: it falls on the weekday, and if a position is given
it stands there among the dates of its month that do. -/
def Date.IsOrdinalWeekday (date : Date) (day : OrdinalWeekday) : Prop :=
  match day.ordinal with
  | none => date.weekday = day.weekday
  | some ordinal =>
    date.StandsAt (fun other => other.month = date.month ∧ other.weekday = day.weekday)
      ordinal.toInt

namespace Month

variable {month : Month} {date : Date}

/-- The day of a month on which a weekday falls for the first time. -/
def firstOn (month : Month) (weekday : Weekday) : Int :=
  Weekday.daysAfter (Weekday.ofDay month.firstDay) weekday + 1

theorem firstOn_pos (month : Month) (weekday : Weekday) : 1 ≤ month.firstOn weekday := by
  have hnonneg := Weekday.daysAfter_nonneg (Weekday.ofDay month.firstDay) weekday
  unfold firstOn
  omega

theorem firstOn_le (month : Month) (weekday : Weekday) : month.firstOn weekday ≤ 7 := by
  have hlt := Weekday.daysAfter_lt (Weekday.ofDay month.firstDay) weekday
  unfold firstOn
  omega

theorem firstOn_eq {weekday : Weekday} {start : Date} (hstart : month.start? = some start) :
    Weekday.daysAfter start.weekday weekday + 1 = month.firstOn weekday := by
  rw [firstOn, Date.weekday, Date.ofDayNumber?_eq_some_iff.mp hstart]

/-- A date falls on a weekday exactly if it lies a number of weeks after the first date of its month
that does. -/
theorem weekday_eq_iff {weekday : Weekday} :
    date.weekday = weekday ↔ ∃ week : Nat, date.day = date.month.firstOn weekday + 7 * week := by
  have hpos := date.day_pos
  have hdistance : Weekday.daysAfter (Weekday.ofDay date.month.firstDay) date.weekday
      = (date.day - 1) % 7 := by
    rw [Date.weekday, Weekday.daysAfter_ofDay, Date.day]
    omega
  constructor
  · -- The weeks are those that fit before the day.
    rintro rfl
    refine ⟨((date.day - 1) / 7).toNat, ?_⟩
    rw [firstOn, hdistance]
    omega
  · rintro ⟨week, hday⟩
    have hlow := date.month.firstOn_pos weekday
    have hhigh := date.month.firstOn_le weekday
    -- Two weekdays are the same if they follow the first of the month after as many days.
    apply Weekday.daysAfter_inj
    rw [hdistance]
    unfold firstOn at *
    omega

/-- **The dates of a month on a weekday** are all of its dates that fall on it. -/
theorem mem_weekdayDates_iff {weekday : Weekday} :
    date ∈ month.weekdayDates weekday ↔ date.month = month ∧ date.weekday = weekday := by
  rw [weekday_eq_iff]
  unfold weekdayDates
  cases hstart : month.start? with
  | none =>
    -- There are no dates in a month outside the calendar.
    refine iff_of_false List.not_mem_nil ?_
    rintro ⟨rfl, _⟩
    obtain ⟨start, hsome, _⟩ := date.exists_month_start
    rw [hstart] at hsome
    cases hsome
  | some start =>
    simp only [firstOn_eq hstart, DateSet.mem_ofList, List.mem_filterMap, List.mem_range,
      date?_eq_some_iff]
    constructor
    · rintro ⟨week, _, rfl, hday⟩
      exact ⟨rfl, week, hday⟩
    · rintro ⟨rfl, week, hday⟩
      have hpos := date.month.firstOn_pos weekday
      have hle := date.day_le
      have hlength := date.month.length_le
      -- No month has a sixth week, so the weeks before the date are among those looked at.
      exact ⟨week, by omega, rfl, hday⟩

/-- **The dates of a month that an ordinal weekday means.** -/
theorem mem_ordinalWeekdayDates_iff {day : OrdinalWeekday} :
    date ∈ month.ordinalWeekdayDates day ↔ date.month = month ∧ date.IsOrdinalWeekday day := by
  unfold ordinalWeekdayDates Date.IsOrdinalWeekday
  cases day.ordinal with
  | none => exact mem_weekdayDates_iff
  | some ordinal =>
    rw [DateSet.mem_select_month_iff fun _ => mem_weekdayDates_iff]
    simp only [List.mem_singleton, exists_eq_left]

end Month

end RecurringDates
