import RecurringDates.Proofs.Horizon

/-!
# The period of a date

A date of a daily, monthly or yearly pattern lies in the period that it was found in: its day, its
month, its year. So a pattern need not be stepped through to tell whether it has a date. It has to
choose the date in the date's own period, and the interval has to divide the distance to that period
from the anchor's.

The main statements are `DailyPattern.mem_cycle_iff`, `MonthlyPattern.mem_cycle_iff` and
`YearlyPattern.mem_cycle_iff`, all cases of `Cycle.mem_dates_iff_dvd`.
-/

namespace RecurringDates

/-! ## §1 Cycles -/

/-- **A cycle has the dates of the periods that its step divides the way to**, if every date tells
the period that it is found in. -/
theorem Cycle.mem_dates_iff_dvd {cycle : Cycle} {date : Date} {periodOf : Date → Int}
    (hperiod : ∀ period, ∀ other ∈ cycle.datesIn period, periodOf other = period)
    (hfirst : cycle.first ≤ periodOf date) (hlast : periodOf date ≤ cycle.last) :
    date ∈ cycle.dates ↔
      date ∈ cycle.datesIn (periodOf date) ∧ cycle.step ∣ periodOf date - cycle.first := by
  rw [mem_dates_iff]
  constructor
  · rintro ⟨k, _, hmem⟩
    have hsame := hperiod _ date hmem
    rw [hsame]
    exact ⟨hmem, k, by omega⟩
  · rintro ⟨hmem, hdvd⟩
    -- The period is not before the first one, so the steps to it are a number of steps.
    obtain ⟨k, hsteps⟩ := (Interval.dvd_iff_exists_steps cycle.step_pos (by omega)).mp hdvd
    have hsame : cycle.first + cycle.step * k = periodOf date := by omega
    rw [← hsame] at hmem hlast
    exact ⟨k, hlast, hmem⟩

/-! ## §2 Days -/

namespace DailyPattern

variable {pattern : DailyPattern} {anchor date : Date}

/-- A date is accepted if each list that is not empty allows it: its weekday, its month, and its day
in its month. -/
theorem accepts_iff :
    pattern.accepts date = true ↔
      (pattern.weekdays = [] ∨ date.weekday ∈ pattern.weekdays) ∧
        date.month.isIn pattern.months = true ∧
          (pattern.monthDays = [] ∨
            ∃ day ∈ pattern.monthDays, date.month.resolve? day.toInt = some date) := by
  simp [accepts, and_assoc]

theorem mem_datesOfDay_iff {day : Int} :
    date ∈ pattern.datesOfDay day ↔ date.dayNumber = day ∧ pattern.accepts date = true := by
  rw [datesOfDay, List.mem_filter, Option.mem_toList, Date.ofDayNumber?_eq_some_iff]

/-- **The dates of a daily pattern** are the accepted ones whose distance in days from the anchor is
a multiple of the interval. -/
theorem mem_cycle_iff (hle : anchor ≤ date) :
    date ∈ (pattern.cycle anchor Date.last).dates ↔
      pattern.accepts date = true ∧ pattern.interval.value ∣ anchor.daysTo date := by
  have hperiod : ∀ day, ∀ other ∈ (pattern.cycle anchor Date.last).datesIn day,
      other.dayNumber = day := fun _ _ hmem => dayNumber_of_mem hmem
  rw [Cycle.mem_dates_iff_dvd hperiod hle date.le_lastDay]
  show date ∈ pattern.datesOfDay date.dayNumber ∧ _ ↔ _
  rw [mem_datesOfDay_iff, eq_self, true_and]
  rfl

end DailyPattern

/-! ## §3 Months -/

namespace MonthlyPattern

variable {pattern : MonthlyPattern} {anchor date : Date}

/-- The dates of a month that a pattern allows are the days that it selects there. -/
theorem mem_datesOfMonth_iff {month : Month} :
    date ∈ pattern.datesOfMonth anchor month.index ↔
      month.isIn pattern.months = true ∧ date ∈ pattern.selectedDays anchor month := by
  unfold datesOfMonth
  rw [DateSet.mem_def]
  split
  · rename_i hallowed
    exact (and_iff_right hallowed).symm
  · -- A month that is not allowed has no dates.
    rename_i hrefused
    exact iff_of_false List.not_mem_nil fun hdate => hrefused hdate.1

/-- **The dates of a monthly pattern** are those that it has in their own month, where that month
lies a multiple of the interval after that of the anchor. -/
theorem mem_cycle_iff (hle : anchor ≤ date) :
    date ∈ (pattern.cycle anchor Date.last).dates ↔
      date ∈ pattern.datesOfMonth anchor date.month.index ∧
        pattern.interval.value ∣ date.month.index - anchor.month.index := by
  have hperiod : ∀ index, ∀ other ∈ (pattern.cycle anchor Date.last).datesIn index,
      other.month.index = index := fun _ _ hmem => congrArg Month.index (month_of_mem hmem)
  exact Cycle.mem_dates_iff_dvd hperiod (Date.month_index_le hle)
    (Date.month_index_le date.le_last)

end MonthlyPattern

/-! ## §4 Years -/

/-- A month has a number of a year exactly if it lies in that year and has that number. -/
theorem Month.ofNumber?_eq_some_iff {year number : Int} {month : Month} :
    ofNumber? year number = some month ↔ month.year = year ∧ month.number = number := by
  unfold ofNumber?
  constructor
  · intro hfound
    split at hfound
    · rename_i hbounds
      cases hfound
      exact ⟨year_ofYear year hbounds.1 hbounds.2, number_ofYear year hbounds.1 hbounds.2⟩
    · cases hfound
  · -- A month has one of the numbers 1 to 12.
    rintro ⟨rfl, rfl⟩
    rw [if_pos ⟨month.number_pos, month.number_le⟩, ofYear_year_number]

namespace YearlyPattern

variable {pattern : YearlyPattern} {anchor date : Date}

/-- The anchor's day in a month is a date of that month on the anchor's day, or February 28 where
the anchor is a leap day. -/
theorem of_anchorDayIn? {month : Month} (hfound : anchorDayIn? anchor month = some date) :
    date.month = month ∧ (date.day = anchor.day ∨ isLeapDay anchor = true ∧ date.day = 28) := by
  unfold anchorDayIn? at hfound
  split at hfound
  · -- The month has the day of the anchor itself.
    rename_i hown
    cases hfound
    obtain ⟨hmonth, hday⟩ := Month.date?_eq_some_iff.mp hown
    exact ⟨hmonth, .inl hday⟩
  · split at hfound
    · -- It has not, and February 28 takes the place of a leap day.
      rename_i hleap
      obtain ⟨hmonth, hday⟩ := Month.date?_eq_some_iff.mp hfound
      exact ⟨hmonth, .inr ⟨hleap.1, hday⟩⟩
    · cases hfound

/-- The days chosen in a month lie in it. -/
theorem month_of_mem_days {month : Month} (hmem : date ∈ pattern.daysOfMonth anchor month) :
    date.month = month := by
  unfold daysOfMonth at hmem
  split at hmem
  · -- Without day numbers only the anchor's day comes into question.
    exact (of_anchorDayIn? (Option.mem_toList.mp hmem)).1
  · obtain ⟨day, _, hresolved⟩ := List.mem_filterMap.mp hmem
    exact Month.month_of_resolve? hresolved

/-- The dates of a year are its days that are chosen in their own month, if that month is one of the
series. -/
theorem mem_datesOfYear_iff {year : Int} :
    date ∈ pattern.datesOfYear anchor year ↔
      date.year = year ∧ date.month.number ∈ pattern.monthsFor anchor ∧
        date ∈ pattern.daysOfMonth anchor date.month := by
  unfold datesOfYear
  rw [← DateSet.mem_def, DateSet.mem_ofList, List.mem_flatMap]
  simp only [List.mem_filterMap, Month.ofNumber?_eq_some_iff]
  constructor
  · -- The day was chosen in a month of the year, which is its own.
    rintro ⟨month, ⟨_, hlisted, rfl, rfl⟩, hdays⟩
    have hmonth := month_of_mem_days hdays
    subst hmonth
    exact ⟨rfl, hlisted, hdays⟩
  · rintro ⟨rfl, hlisted, hdays⟩
    exact ⟨date.month, ⟨_, hlisted, rfl, rfl⟩, hdays⟩

/-- **The dates of a yearly pattern** are those that it has in their own year, where that year lies
a multiple of the interval after that of the anchor. -/
theorem mem_cycle_iff (hle : anchor ≤ date) :
    date ∈ (pattern.cycle anchor Date.last).dates ↔
      date ∈ pattern.datesOfYear anchor date.year ∧
        pattern.interval.value ∣ date.year - anchor.year := by
  have hperiod : ∀ year, ∀ other ∈ (pattern.cycle anchor Date.last).datesIn year,
      other.year = year := fun _ _ hmem => year_of_mem hmem
  exact Cycle.mem_dates_iff_dvd hperiod (Date.year_le hle) (Date.year_le date.le_last)

end YearlyPattern

end RecurringDates
