import RecurringDates.Series.Window

/-!
# Series ascend

The dates of each period lie between its start and the start of the next, and inside a period they
ascend; so the dates of a whole series ascend too, and no more of them are before a day than there
are days from the anchor to it.

The main statements say that every series ascends (`Series.pairwise_candidates`) and what a query
answers (`Series.inWindow_eq`): the part of the series that lies in the window.
-/

namespace RecurringDates

/-! ## §1 Cycles whose periods follow each other -/

namespace Cycle

/-- The dates of every period ascend, and lie from a start on that belongs to the period up to the
start that belongs to the next. -/
structure Ascends (cycle : Cycle) (start : Int → Int) : Prop where
  pairwise : ∀ period, (cycle.datesIn period).Pairwise (· < ·)
  start_le : ∀ period, ∀ date ∈ cycle.datesIn period, start period ≤ date.dayNumber
  lt_start : ∀ period, ∀ date ∈ cycle.datesIn period, date.dayNumber < start (period + cycle.step)
  start_mono : ∀ period, start period ≤ start (period + cycle.step)

variable {cycle : Cycle} {start : Int → Int}

private theorem start_le_datesFrom (hasc : cycle.Ascends start) (left : Nat) (period : Int)
    (date : Date) (hmem : date ∈ cycle.datesFrom left period) : start period ≤ date.dayNumber := by
  induction left generalizing period with
  | zero => cases hmem
  | succ left ih =>
    rcases List.mem_append.1 hmem with hhere | hlater
    · exact hasc.start_le period date hhere
    · exact Int.le_trans (hasc.start_mono period) (ih (period + cycle.step) hlater)

/-- **The dates of a cycle ascend** if its periods follow each other. -/
theorem pairwise_datesFrom (hasc : cycle.Ascends start) (left : Nat) (period : Int) :
    (cycle.datesFrom left period).Pairwise (· < ·) := by
  induction left generalizing period with
  | zero => exact List.Pairwise.nil
  | succ left ih =>
    refine List.pairwise_append.2 ⟨hasc.pairwise period, ih (period + cycle.step), ?_⟩
    intro date hhere other hlater
    have hbelow := hasc.lt_start period date hhere
    have habove := start_le_datesFrom hasc left (period + cycle.step) other hlater
    rw [Date.lt_def]
    omega

end Cycle

/-! ## §2 Days of months -/

namespace DateSet

theorem mem_select {dates : DateSet} {positions : List Int} {date : Date}
    (hmem : date ∈ dates.select positions) : date ∈ dates := by
  obtain ⟨position, -, hfound⟩ := List.mem_filterMap.1 (mem_ofList.1 hmem)
  unfold at? at hfound
  split at hfound
  · cases hfound
  · split at hfound
    · cases hfound
    · exact List.mem_of_getElem? hfound

end DateSet

namespace Month

theorem month_of_date? {month : Month} {day : Int} {date : Date} (h : month.date? day = some date) :
    date.month = month :=
  (date?_eq_some_iff.1 h).1

theorem month_of_resolve? {month : Month} {day : Int} {date : Date}
    (h : month.resolve? day = some date) : date.month = month := by
  unfold resolve? at h
  split at h
  · cases h
  · split at h
    · cases h
    · exact month_of_date? h

theorem month_of_mem_weekdayDates {month : Month} {weekday : Weekday} {date : Date}
    (hmem : date ∈ month.weekdayDates weekday) : date.month = month := by
  unfold weekdayDates at hmem
  split at hmem
  · cases hmem
  · obtain ⟨week, -, hfound⟩ := List.mem_filterMap.1 (DateSet.mem_ofList.1 hmem)
    exact month_of_date? hfound

theorem month_of_mem_ordinalWeekdayDates {month : Month} {day : OrdinalWeekday} {date : Date}
    (hmem : date ∈ month.ordinalWeekdayDates day) : date.month = month := by
  unfold ordinalWeekdayDates at hmem
  split at hmem
  · exact month_of_mem_weekdayDates hmem
  · exact month_of_mem_weekdayDates (DateSet.mem_select hmem)

end Month

/-! ## §3 Patterns -/

namespace DailyPattern

theorem dayNumber_of_mem {pattern : DailyPattern} {day : Int} {date : Date}
    (hmem : date ∈ pattern.datesOfDay day) : date.dayNumber = day := by
  have hfound := (List.mem_filter.1 hmem).1
  rw [Option.mem_toList] at hfound
  exact Date.ofDayNumber?_eq_some_iff.1 hfound

/-- A day has at most one date. -/
theorem ascends (pattern : DailyPattern) (anchor horizon : Date) :
    (pattern.cycle anchor horizon).Ascends id where
  pairwise day := by
    refine List.Pairwise.filter _ ?_
    cases Date.ofDayNumber? day <;> simp
  start_le day date hmem := Int.le_of_eq (dayNumber_of_mem hmem).symm
  lt_start day date hmem := by
    have := dayNumber_of_mem hmem
    have := pattern.interval.pos
    simp only [id, cycle]
    omega
  start_mono day := by
    have := pattern.interval.pos
    simp only [id, cycle]
    omega

end DailyPattern

namespace WeeklyPattern

private theorem dayNumber_of_mem_week {pattern : WeeklyPattern} {anchor : Date} {week : Int}
    {date : Date} (hmem : date ∈ pattern.datesOfWeek anchor week) :
    week ≤ date.dayNumber ∧ date.dayNumber < week + 7 := by
  unfold datesOfWeek at hmem
  split at hmem
  · cases hmem
  · rename_i start hfound
    obtain ⟨offset, hchosen, hshifted⟩ := List.mem_filterMap.1 (List.mem_filter.1 hmem).1
    have hnumber := Date.ofDayNumber?_eq_some_iff.1 hshifted
    have hbegins := Date.ofDayNumber?_eq_some_iff.1 hfound
    -- Only the seven offsets of a week are looked at.
    have hbounds : 0 ≤ offset ∧ offset < 7 := by
      have hlisted := (List.mem_filter.1 hchosen).1
      simp only [List.mem_cons, List.not_mem_nil, or_false] at hlisted
      omega
    omega

/-- The offsets of a week ascend, and all are below seven. -/
theorem ascends (pattern : WeeklyPattern) (anchor horizon : Date) :
    (pattern.cycle anchor horizon).Ascends id where
  pairwise week := by
    show (pattern.datesOfWeek anchor week).Pairwise (· < ·)
    unfold datesOfWeek
    split
    · exact List.Pairwise.nil
    · refine List.Pairwise.filter _ (List.pairwise_filterMap.2 ?_)
      refine List.Pairwise.imp ?_ (List.Pairwise.filter _ (show
        ([0, 1, 2, 3, 4, 5, 6] : List Int).Pairwise (· < ·) by decide))
      -- The days of a week ascend with their offsets.
      intro offset other hbelow date hshifted date' hshifted'
      have hnumber := Date.ofDayNumber?_eq_some_iff.1 hshifted
      have hnumber' := Date.ofDayNumber?_eq_some_iff.1 hshifted'
      rw [Date.lt_def]
      omega
  start_le week date hmem := (dayNumber_of_mem_week hmem).1
  lt_start week date hmem := by
    have := (dayNumber_of_mem_week hmem).2
    have := pattern.interval.pos
    simp only [id, cycle, stride]
    omega
  start_mono week := by
    have := pattern.interval.pos
    simp only [id, cycle, stride]
    omega

end WeeklyPattern

namespace MonthlyPattern

private theorem month_of_mem_days {pattern : MonthlyPattern} {anchor : Date} {month : Month}
    {date : Date} (hmem : date ∈ pattern.daysOfMonth anchor month) : date.month = month := by
  unfold daysOfMonth at hmem
  split at hmem
  · obtain ⟨day, -, hfound⟩ := List.mem_filterMap.1 (DateSet.mem_ofList.1 hmem)
    exact Month.month_of_resolve? hfound
  · split at hmem
    · obtain ⟨day, -, hfound⟩ := List.mem_flatMap.1 (DateSet.mem_ofList.1 hmem)
      exact Month.month_of_mem_ordinalWeekdayDates hfound
    · have hfound := DateSet.mem_ofList.1 hmem
      rw [Option.mem_toList] at hfound
      exact Month.month_of_date? hfound

theorem month_of_mem {pattern : MonthlyPattern} {anchor : Date} {index : Int} {date : Date}
    (hmem : date ∈ pattern.datesOfMonth anchor index) : date.month = ⟨index⟩ := by
  unfold datesOfMonth at hmem
  split at hmem
  · have hselected : date ∈ pattern.selectedDays anchor ⟨index⟩ := hmem
    unfold selectedDays at hselected
    split at hselected
    · exact month_of_mem_days hselected
    · exact month_of_mem_days (DateSet.mem_select hselected)
  · cases hmem

private theorem bounds_of_month {date : Date} {month : Month} (h : date.month = month) :
    month.firstDay ≤ date.dayNumber ∧ date.dayNumber < month.next.firstDay := by
  rw [← h]
  exact ⟨Month.firstDay_ofDay_le _, Month.lt_firstDay_ofDay_next _⟩

/-- The dates of a month lie between its first day and that of the next. -/
theorem ascends (pattern : MonthlyPattern) (anchor horizon : Date) :
    (pattern.cycle anchor horizon).Ascends fun index => (Month.mk index).firstDay where
  pairwise index := by
    show (pattern.datesOfMonth anchor index).Pairwise (· < ·)
    unfold datesOfMonth
    split
    · exact (pattern.selectedDays anchor ⟨index⟩).ascending
    · exact List.Pairwise.nil
  start_le index date hmem := (bounds_of_month (month_of_mem hmem)).1
  lt_start index date hmem := by
    have hbelow := (bounds_of_month (month_of_mem hmem)).2
    have hstep := pattern.interval.pos
    -- A step leads to the next month or beyond it.
    refine Int.lt_of_lt_of_le hbelow (Month.firstDay_le_of_le ?_)
    show index + 1 ≤ index + pattern.interval.value
    omega
  start_mono index := by
    have hstep := pattern.interval.pos
    refine Month.firstDay_le_of_le ?_
    show index ≤ index + pattern.interval.value
    omega

end MonthlyPattern

namespace YearlyPattern

theorem year_of_mem {pattern : YearlyPattern} {anchor : Date} {year : Int} {date : Date}
    (hmem : date ∈ pattern.datesOfYear anchor year) : date.year = year := by
  have hchosen : date ∈ DateSet.ofList _ := hmem
  obtain ⟨month, hlisted, hfound⟩ := List.mem_flatMap.1 (DateSet.mem_ofList.1 hchosen)
  -- A date of a year is found in a month that is listed for the year.
  have hmonth : date.month = month := by
    unfold daysOfMonth at hfound
    split at hfound
    · -- It is the day of the anchor, or the last of February in its place.
      rw [Option.mem_toList] at hfound
      unfold anchorDayIn? at hfound
      split at hfound
      · rename_i hown
        cases hfound
        exact Month.month_of_date? hown
      · split at hfound
        · exact Month.month_of_date? hfound
        · cases hfound
    · -- It is a day of the month that the pattern names.
      obtain ⟨day, -, hresolved⟩ := List.mem_filterMap.1 hfound
      exact Month.month_of_resolve? hresolved
  obtain ⟨number, -, hnumbered⟩ := List.mem_filterMap.1 hlisted
  unfold Month.ofNumber? at hnumbered
  split at hnumbered
  · rename_i hbounds
    cases hnumbered
    rw [Date.year, hmonth]
    exact Month.year_ofYear year hbounds.1 hbounds.2
  · cases hnumbered

private theorem bounds_of_year {date : Date} {year : Int} (h : date.year = year) :
    Year.firstDay year ≤ date.dayNumber ∧ date.dayNumber < Year.firstDay (year + 1) := by
  rw [← h, Date.year, Date.month, Month.year_ofDay]
  exact ⟨Year.firstDay_ofDay_le _, Year.lt_firstDay_ofDay_succ _⟩

/-- The dates of a year lie between its first day and that of the next. -/
theorem ascends (pattern : YearlyPattern) (anchor horizon : Date) :
    (pattern.cycle anchor horizon).Ascends Year.firstDay where
  pairwise year := DateSet.ascending _
  start_le year date hmem := (bounds_of_year (year_of_mem hmem)).1
  lt_start year date hmem := by
    have hbelow := (bounds_of_year (year_of_mem hmem)).2
    have hstep := pattern.interval.pos
    -- A step leads to the next year or beyond it.
    refine Int.lt_of_lt_of_le hbelow (Year.firstDay_le_of_le ?_)
    show year + 1 ≤ year + pattern.interval.value
    omega
  start_mono year := by
    have hstep := pattern.interval.pos
    refine Year.firstDay_le_of_le ?_
    show year ≤ year + pattern.interval.value
    omega

end YearlyPattern

/-! ## §4 Series -/

namespace Date

/-- As many days as dates: an ascending list between two days is no longer than the days between.
-/
theorem length_le_of_ascending {dates : List Date} {low high : Int}
    (hasc : dates.Pairwise (· < ·)) (hlow : ∀ date ∈ dates, low ≤ date.dayNumber)
    (hhigh : ∀ date ∈ dates, date.dayNumber < high) : dates.length ≤ (high - low).toNat := by
  induction dates generalizing low with
  | nil => exact Nat.zero_le _
  | cons date rest ih =>
    rw [List.pairwise_cons] at hasc
    -- The first date takes up one day, and all others lie after it.
    have hafter : ∀ other ∈ rest, date.dayNumber + 1 ≤ other.dayNumber := by
      intro other hmem
      have := hasc.1 other hmem
      rw [Date.lt_def] at this
      omega
    have hbound := ih hasc.2 hafter fun other hmem =>
      hhigh other (List.mem_cons_of_mem date hmem)
    have hlow_le := hlow date List.mem_cons_self
    have hlt_high := hhigh date List.mem_cons_self
    rw [List.length_cons]
    omega

end Date

namespace Series

/-- **Every series ascends.** -/
theorem pairwise_candidates (series : Series) (horizon : Date) :
    (series.candidates horizon).Pairwise (· < ·) := by
  unfold candidates cycle
  rw [Cycle.dates_filter]
  refine List.Pairwise.filter _ ?_
  unfold Cycle.dates Pattern.cycle
  cases series.pattern with
  | daily pattern => exact Cycle.pairwise_datesFrom (pattern.ascends _ _) _ _
  | weekly pattern => exact Cycle.pairwise_datesFrom (pattern.ascends _ _) _ _
  | monthly pattern => exact Cycle.pairwise_datesFrom (pattern.ascends _ _) _ _
  | yearly pattern => exact Cycle.pairwise_datesFrom (pattern.ascends _ _) _ _

/-- A series has no date before its anchor. -/
theorem anchor_le_of_mem {series : Series} {horizon date : Date}
    (hmem : date ∈ series.candidates horizon) : series.anchor ≤ date := by
  unfold candidates cycle at hmem
  rw [Cycle.dates_filter] at hmem
  simpa using (List.mem_filter.1 hmem).2

/-- **A query answers with the part of the series in the window.** -/
theorem inWindow_eq (series : Series) (window : Window) (cap : Nat) :
    series.inWindow window cap
      = ((((series.dates (series.horizon window)).dropWhile (· < series.lower window)).takeWhile
          (· ≤ window.last)).take cap) := by
  unfold inWindow
  refine Source.inWindow_of_gives (Limits.gives_next (Cycle.gives_start _)) ?_
  have hsublist : ((series.dates (series.horizon window)).takeWhile
      (· < series.lower window)).Sublist (series.candidates (series.horizon window)) :=
    (List.takeWhile_sublist _).trans (Limits.cut_sublist _ _)
  -- The dates before the window lie between the anchor and its first day, so the search may skip as
  -- many as there are days.
  refine Date.length_le_of_ascending ((series.pairwise_candidates _).sublist hsublist) ?_ ?_
  · intro date hmem
    exact anchor_le_of_mem (hsublist.subset hmem)
  · intro date hmem
    have hbelow : ((series.dates (series.horizon window)).takeWhile
        (· < series.lower window)).all (· < series.lower window) = true := List.all_takeWhile
    rw [List.all_eq_true] at hbelow
    simpa [Date.lt_def] using hbelow date hmem

end Series

end RecurringDates
