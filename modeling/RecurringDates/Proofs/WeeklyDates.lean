import RecurringDates.Proofs.Endless

/-!
# The dates of weekly rules

A weekly rule steps from the anchor by whole weeks and goes back to the start of the week each time.
Its dates can be told without any stepping: a date has its weekday, its month and the number of
weeks that lie between its week and the anchor's.

The main statement is `Rule.weekly_occurrences`.
-/

namespace RecurringDates

/-! ## §1 Weeks -/

namespace Date

/-- The day number on which the week of a date begins, where weeks begin on a given weekday. -/
def weekStart (start : Weekday) (date : Date) : Int :=
  date.dayNumber - Weekday.daysAfter start date.weekday

/-- The number of weeks from the week of a date to that of another, negative if it is earlier. -/
def weeksTo (start : Weekday) (date other : Date) : Int :=
  (other.weekStart start - date.weekStart start) / 7

variable {start : Weekday} {date other : Date}

/-- A week begins on its first weekday, at most six days before any of its dates. -/
theorem weekStart_eq_iff {week : Int} :
    date.weekStart start = week ↔
      Weekday.ofDay week = start ∧ week ≤ date.dayNumber ∧ date.dayNumber < week + 7 := by
  have hnonneg := Weekday.daysAfter_nonneg start date.weekday
  have hlt := Weekday.daysAfter_lt start date.weekday
  have hindex := start.index_nonneg
  have hindex' := start.index_lt
  constructor
  · -- Going back by the days since the last `start` leads to a day with its index modulo seven.
    rintro rfl
    refine ⟨Weekday.index_inj ?_, ?_, ?_⟩
    · rw [Weekday.index_ofDay]
      simp only [weekStart, Weekday.daysAfter, Weekday.liftedDifference, weekday,
        Weekday.index_ofDay]
      omega
    · simp only [weekStart]
      omega
    · simp only [weekStart]
      omega
  · -- A day less than a week later has the days since then as its distance.
    rintro ⟨rfl, hle, hlt⟩
    simp only [weekStart, weekday, Weekday.daysAfter_ofDay]
    omega

theorem ofDay_weekStart (start : Weekday) (date : Date) :
    Weekday.ofDay (date.weekStart start) = start :=
  (weekStart_eq_iff.mp rfl).1

theorem weekStart_bounds (start : Weekday) (date : Date) :
    date.weekStart start ≤ date.dayNumber ∧ date.dayNumber < date.weekStart start + 7 :=
  (weekStart_eq_iff.mp rfl).2

/-- Weeks are seven days apart. -/
theorem seven_mul_weeksTo (start : Weekday) (date other : Date) :
    7 * date.weeksTo start other = other.weekStart start - date.weekStart start := by
  -- Both weeks begin on the same weekday, so their first days agree modulo seven.
  have hdate := Weekday.index_ofDay (date.weekStart start)
  have hother := Weekday.index_ofDay (other.weekStart start)
  rw [ofDay_weekStart] at hdate hother
  unfold weeksTo
  omega

theorem weeksTo_add (start : Weekday) (date other third : Date) :
    date.weeksTo start other + other.weeksTo start third = date.weeksTo start third := by
  have h₁ := seven_mul_weeksTo start date other
  have h₂ := seven_mul_weeksTo start other third
  have h₃ := seven_mul_weeksTo start date third
  omega

theorem weeksTo_nonneg (hle : date ≤ other) : 0 ≤ date.weeksTo start other := by
  have hweeks := seven_mul_weeksTo start date other
  have hdate := weekStart_bounds start date
  have hother := weekStart_bounds start other
  rw [le_def] at hle
  omega

/-- A later date lies in the same week or in a later one. -/
theorem weekStart_le_weekStart (hle : date ≤ other) :
    date.weekStart start ≤ other.weekStart start := by
  have hweeks := seven_mul_weeksTo start date other
  have hnonneg : 0 ≤ date.weeksTo start other := weeksTo_nonneg hle
  omega

/-- Whole weeks lie between two dates exactly if they fall on the same weekday. -/
theorem seven_dvd_daysTo_iff : 7 ∣ date.daysTo other ↔ other.weekday = date.weekday := by
  have hdate := Weekday.index_ofDay date.dayNumber
  have hother := Weekday.index_ofDay other.dayNumber
  -- Weekdays are day numbers modulo seven.
  unfold daysTo
  constructor
  · intro hweeks
    apply Weekday.index_inj
    rw [weekday, weekday]
    omega
  · intro hsame
    rw [weekday, weekday] at hsame
    rw [hsame] at hother
    omega

/-- Between two dates on the same weekday the weeks move as the dates do. -/
theorem weekStart_eq_add_iff (hsame : other.weekday = date.weekday) {days : Int} :
    other.weekStart start = date.weekStart start + days ↔ date.daysTo other = days := by
  unfold weekStart daysTo
  rw [hsame]
  omega

end Date

/-! ## §2 The dates of a week -/

namespace WeeklyPattern

variable {pattern : WeeklyPattern} {anchor date : Date}

theorem mem_offsets_iff {offset : Int} :
    offset ∈ pattern.offsets anchor ↔ ∃ weekday ∈ pattern.weekdaysFor anchor,
      Weekday.daysAfter pattern.weekStart weekday = offset := by
  simp only [offsets, List.mem_filter, List.any_eq_true, beq_iff_eq]
  constructor
  · rintro ⟨_, hasked⟩
    exact hasked
  · -- The distance from the start of the week is one of the seven that are looked at.
    rintro ⟨weekday, hasked, rfl⟩
    refine ⟨?_, weekday, hasked, rfl⟩
    have hnonneg := Weekday.daysAfter_nonneg pattern.weekStart weekday
    have hlt := Weekday.daysAfter_lt pattern.weekStart weekday
    simp only [List.mem_cons, List.not_mem_nil, or_false]
    omega

/-- **The dates of a week** are those of its seven days that have an asked weekday and month, if the
week begins inside the calendar. -/
theorem mem_datesOfWeek_iff {week : Int} (hweek : Weekday.ofDay week = pattern.weekStart) :
    date ∈ pattern.datesOfWeek anchor week ↔
      Calendar.firstDay ≤ week ∧ date.weekStart pattern.weekStart = week ∧
        date.weekday ∈ pattern.weekdaysFor anchor ∧ date.month.isIn pattern.months = true := by
  unfold datesOfWeek
  cases hfound : Date.ofDayNumber? week with
  | none =>
    -- A week from the calendar's first day on that begins outside begins after every date.
    have houtside := Date.ofDayNumber?_eq_none_iff.mp hfound
    simp only [List.not_mem_nil, false_iff]
    rintro ⟨hfirst, rfl, _⟩
    have hbounds := Date.weekStart_bounds pattern.weekStart date
    have hlast := date.le_lastDay
    omega
  | some first =>
    have hnumber := Date.ofDayNumber?_eq_some_iff.mp hfound
    have hfirst := first.firstDay_le
    simp only [List.mem_filter, List.mem_filterMap, mem_offsets_iff, Date.addDays?,
      Date.ofDayNumber?_eq_some_iff, hnumber]
    constructor
    · rintro ⟨⟨_, ⟨weekday, hasked, rfl⟩, hdate⟩, hmonth⟩
      have hnonneg := Weekday.daysAfter_nonneg pattern.weekStart weekday
      have hlt := Weekday.daysAfter_lt pattern.weekStart weekday
      have hstart : date.weekStart pattern.weekStart = week :=
        Date.weekStart_eq_iff.mpr ⟨hweek, by omega, by omega⟩
      -- The date lies as far into its week as the asked weekday does.
      have hsame : Weekday.daysAfter pattern.weekStart date.weekday
          = Weekday.daysAfter pattern.weekStart weekday := by
        unfold Date.weekStart at hstart
        omega
      exact ⟨by omega, hstart, Weekday.daysAfter_inj hsame ▸ hasked, hmonth⟩
    · rintro ⟨_, hstart, hasked, hmonth⟩
      -- The date is the day of the week that its own weekday asks for.
      refine ⟨⟨_, ⟨date.weekday, hasked, rfl⟩, ?_⟩, hmonth⟩
      unfold Date.weekStart at hstart
      omega

/-! ## §3 The dates of all weeks -/

/-- Every week that a pattern steps to begins on the same weekday. -/
theorem ofDay_step (pattern : WeeklyPattern) (anchor : Date) (k : Int) :
    Weekday.ofDay (anchor.weekStart pattern.weekStart + pattern.stride * k)
      = pattern.weekStart := by
  have hanchor := Weekday.index_ofDay (anchor.weekStart pattern.weekStart)
  rw [Date.ofDay_weekStart] at hanchor
  apply Weekday.index_inj
  rw [Weekday.index_ofDay, stride, Int.mul_assoc]
  omega

/-- **The dates of a pattern** are those with an asked weekday and month whose week lies a multiple
of the interval after that of the anchor, if that week begins inside the calendar and no week runs
past its end. -/
theorem mem_cycle_iff (hfirst : Calendar.firstDay ≤ anchor.weekStart pattern.weekStart)
    (hle : anchor ≤ date) (hlast : date.dayNumber + 6 ≤ Calendar.lastDay) :
    date ∈ (pattern.cycle anchor Date.last).dates ↔
      date.weekday ∈ pattern.weekdaysFor anchor ∧ date.month.isIn pattern.months = true ∧
        pattern.interval.value ∣ anchor.weeksTo pattern.weekStart date := by
  have hweeks := Date.seven_mul_weeksTo pattern.weekStart anchor date
  -- To step by strides to the date's week is to count the weeks to it by the interval.
  have hsteps : ∀ k : Int, date.weekStart pattern.weekStart
      = anchor.weekStart pattern.weekStart + pattern.stride * k ↔
        anchor.weeksTo pattern.weekStart date = pattern.interval.value * k := by
    intro k
    rw [stride, Int.mul_assoc]
    omega
  -- The week is not before the anchor's, so the distance is covered by a number of steps.
  rw [Cycle.mem_dates_iff, pattern.interval.value_dvd_iff (Date.weeksTo_nonneg hle)]
  show (∃ k : Nat, anchor.weekStart pattern.weekStart + pattern.stride * k
      ≤ min Calendar.lastDay (Calendar.lastDay - pattern.offsetOf anchor) ∧
        date ∈ pattern.datesOfWeek anchor (anchor.weekStart pattern.weekStart + pattern.stride * k))
    ↔ _
  simp only [mem_datesOfWeek_iff (pattern.ofDay_step anchor _), hsteps]
  constructor
  · rintro ⟨k, _, _, hk, hweekday, hmonth⟩
    exact ⟨hweekday, hmonth, k, hk⟩
  · rintro ⟨hweekday, hmonth, k, hk⟩
    -- The steps do not go past the last week that is looked at.
    have hafter : 0 ≤ anchor.weeksTo pattern.weekStart date := Date.weeksTo_nonneg hle
    have hbounds := Date.weekStart_bounds pattern.weekStart date
    have hoffset : pattern.offsetOf anchor < 7 := Weekday.daysAfter_lt _ _
    refine ⟨k, ?_, ?_, hk, hweekday, hmonth⟩
    · rw [← (hsteps k).mpr hk]
      omega
    · rw [← (hsteps k).mpr hk]
      omega

/-- **The dates of a pattern that leaves the weekday to the anchor** are those of an allowed month
that a multiple of the stride separates from the anchor and whose week begins inside the calendar.
The last week may run past the end of the calendar: its one date is inside or is none. -/
theorem mem_cycle_iff_of_bare (hbare : pattern.weekdays = []) (hle : anchor ≤ date) :
    date ∈ (pattern.cycle anchor Date.last).dates ↔
      Calendar.firstDay ≤ date.weekStart pattern.weekStart ∧
        date.month.isIn pattern.months = true ∧
          7 * pattern.interval.value ∣ anchor.daysTo date := by
  have hstep : 0 < pattern.stride := (pattern.cycle anchor Date.last).step_pos
  have hforward : 0 ≤ anchor.daysTo date := by
    rw [Date.le_def] at hle
    rw [Date.daysTo]
    omega
  have hweekday : date.weekday ∈ pattern.weekdaysFor anchor ↔ date.weekday = anchor.weekday := by
    rw [weekdaysFor, if_pos hbare, List.mem_singleton]
  rw [Cycle.mem_dates_iff]
  show (∃ k : Nat, anchor.weekStart pattern.weekStart + pattern.stride * k
      ≤ min Calendar.lastDay (Calendar.lastDay - pattern.offsetOf anchor) ∧
        date ∈ pattern.datesOfWeek anchor (anchor.weekStart pattern.weekStart + pattern.stride * k))
    ↔ _ ∧ _ ∧ pattern.stride ∣ _
  simp only [mem_datesOfWeek_iff (pattern.ofDay_step anchor _), hweekday]
  -- To step by strides is to go a multiple of the stride from the anchor.
  rw [Interval.dvd_iff_exists_steps hstep hforward]
  constructor
  · rintro ⟨k, _, hinside, hweek, hsame, hmonth⟩
    exact ⟨hweek ▸ hinside, hmonth, k, (Date.weekStart_eq_add_iff hsame).mp hweek⟩
  · rintro ⟨hinside, hmonth, k, hsteps⟩
    -- Strides are whole weeks, so the date falls on the anchor's weekday.
    have hsame : date.weekday = anchor.weekday := by
      rw [← Date.seven_dvd_daysTo_iff, hsteps, stride, Int.mul_assoc]
      exact Int.dvd_mul_right 7 _
    have hweek : date.weekStart pattern.weekStart
        = anchor.weekStart pattern.weekStart + pattern.stride * k :=
      (Date.weekStart_eq_add_iff hsame).mpr hsteps
    refine ⟨k, ?_, hweek ▸ hinside, hweek, hsame, hmonth⟩
    -- The week begins as long before the date as the anchor's does before the anchor.
    have hlast := date.le_lastDay
    have hbounds := Date.weekStart_bounds pattern.weekStart date
    have hoffset : date.weekStart pattern.weekStart = date.dayNumber - pattern.offsetOf anchor := by
      rw [Date.weekStart, hsame, offsetOf]
    omega

end WeeklyPattern

/-! ## §4 Weekly rules -/

namespace Rule

variable {rule : Rule} {days : List OrdinalWeekday} {anchor date : Date}

/-- A date falls on the weekday of a token, or on the anchor's if the rule has no tokens. -/
def AsksWeekday (rule : Rule) (days : List OrdinalWeekday) (anchor date : Date) : Prop :=
  (rule.byDay = [] ∧ date.weekday = anchor.weekday) ∨ ∃ day ∈ days, day.weekday = date.weekday

/-- The weekly pattern of a rule whose tokens stand for ordinal weekdays. -/
def weeklyPattern (rule : Rule) (interval : Interval) (days : List OrdinalWeekday) :
    WeeklyPattern where
  interval
  weekStart := rule.weekStart
  weekdays := days.map (·.weekday)
  months := rule.byMonth

theorem ofRule_weekly (hrule : rule.IsEndless .weekly days) (hpositions : rule.bySetPos = [])
    (hmonthDays : rule.byMonthDay = []) :
    Pattern.ofRule rule = .ok (.weekly (rule.weeklyPattern hrule.toInterval days)) := by
  rw [hrule.ofRule_eq]
  simp [Pattern.ofFrequency, hrule.frequency_eq, Pattern.refuse, hpositions, hmonthDays,
    weeklyPattern]

theorem mem_weekdaysFor_iff (hdays : rule.weekdays = .ok days) {interval : Interval} :
    date.weekday ∈ (rule.weeklyPattern interval days).weekdaysFor anchor ↔
      rule.AsksWeekday days anchor date := by
  unfold WeeklyPattern.weekdaysFor AsksWeekday weeklyPattern
  rw [← weekdays_eq_nil_iff hdays]
  -- Without tokens the anchor's weekday is asked for.
  by_cases hnil : days = []
  · simp [hnil]
  · simp only [hnil, List.map_eq_nil_iff, if_false, false_and, false_or, List.mem_map]

/-- A date on the same weekday is asked for as well. -/
theorem asksWeekday_congr {other : Date} (hsame : other.weekday = date.weekday) :
    rule.AsksWeekday days anchor other ↔ rule.AsksWeekday days anchor date := by
  unfold AsksWeekday
  rw [hsame]

/-- **The dates of a weekly rule.** A weekly rule without end whose first week begins inside the
calendar answers, up to six days before the end of the calendar, with exactly those dates of the
window that have an asked weekday, an allowed month, and a week that lies a multiple of the interval
after the anchor's. So from any date of the answer on, the weeks that are such a multiple away carry
a date on the same weekday, and no others do. -/
theorem weekly_occurrences (options : Options) (window : Window)
    (hrule : rule.IsEndless .weekly days) (hpositions : rule.bySetPos = [])
    (hmonthDays : rule.byMonthDay = [])
    (hfirst : Calendar.firstDay ≤ anchor.weekStart rule.weekStart)
    (hlast : window.last.dayNumber + 6 ≤ Calendar.lastDay) :
    ∃ dates : List Date,
      Date.Enumerates dates (fun date =>
        max anchor window.first ≤ date ∧ date ≤ window.last ∧
          rule.AsksWeekday days anchor date ∧ rule.AllowsMonth date ∧
            rule.interval.toInt ∣ anchor.weeksTo rule.weekStart date) ∧
      rule.occurrences options (some anchor) window
        = .ok (dates.take options.maxOccurrences.toNat) ∧
      ∀ date ∈ dates, ∀ other : Date,
        max anchor window.first ≤ other → other ≤ window.last →
        other.weekday = date.weekday → rule.AllowsMonth other →
        (other ∈ dates ↔ rule.interval.toInt ∣ date.weeksTo rule.weekStart other) := by
  have hmem : ∀ date : Date, anchor ≤ date → date ≤ window.last →
      (date ∈ ((rule.weeklyPattern hrule.toInterval days).cycle anchor Date.last).dates ↔
        rule.AsksWeekday days anchor date ∧ rule.AllowsMonth date ∧
          rule.interval.toInt ∣ anchor.weeksTo rule.weekStart date) := by
    -- The window ends early enough for the weeks of all its dates to be whole.
    intro date hle hle'
    rw [Date.le_def] at hle'
    rw [← mem_weekdaysFor_iff hrule.weekdays_eq, ← isIn_byMonth_iff]
    exact WeeklyPattern.mem_cycle_iff hfirst hle (by omega)
  obtain ⟨dates, hlisting, hanswer⟩ :=
    hrule.exists_listing (ofRule_weekly hrule hpositions hmonthDays) hmem
  refine ⟨dates, hlisting, hanswer, ?_⟩
  intro date hdate other hafter hbefore hsame hmonth
  obtain ⟨_, _, hasked, _, hweeks⟩ := (hlisting.mem_iff date).mp hdate
  -- The weeks to `other` are those to `date`, which are a multiple, and those from there on.
  rw [hlisting.mem_iff, ← Date.weeksTo_add rule.weekStart anchor date other,
    Int.dvd_add_right hweeks, asksWeekday_congr hsame]
  constructor
  · rintro ⟨_, _, _, _, hother⟩
    exact hother
  · intro hother
    exact ⟨hafter, hbefore, hasked, hmonth, hother⟩

/-- Tuesdays and Sundays of every second week in January and February, in weeks that begin on
Sunday. -/
def alternateWeeks : Rule :=
  { every .weekly with
    interval := 2
    byDay := ["TU", "1SU"]
    byMonth := [1, 2]
    weekStart := .sunday }

theorem weekly_occurrences_alternateWeeks :
    alternateWeeks.IsEndless .weekly [.every .tuesday, .nth 1 .sunday] ∧
      Calendar.firstDay ≤ (Date.ofParts 2024 1 3).weekStart .sunday ∧
      (Date.ofParts 2024 2 29).dayNumber + 6 ≤ Calendar.lastDay ∧
      ∃ dates : List Date,
        Date.Enumerates dates (fun date =>
          max (.ofParts 2024 1 3) (.ofParts 2024 1 1) ≤ date ∧ date ≤ .ofParts 2024 2 29 ∧
            alternateWeeks.AsksWeekday [.every .tuesday, .nth 1 .sunday] (.ofParts 2024 1 3) date ∧
              alternateWeeks.AllowsMonth date ∧
                2 ∣ (Date.ofParts 2024 1 3).weeksTo .sunday date) ∧
        alternateWeeks.occurrences {} (some (.ofParts 2024 1 3))
          ⟨.ofParts 2024 1 1, .ofParts 2024 2 29⟩ = .ok (dates.take 1000) := by
  have hrule : alternateWeeks.IsEndless .weekly [.every .tuesday, .nth 1 .sunday] :=
    ⟨rfl, by decide, by decide, rfl, rfl, rfl, rfl, rfl⟩
  have hfirst : Calendar.firstDay ≤ (Date.ofParts 2024 1 3).weekStart .sunday := by decide
  have hlast : (Date.ofParts 2024 2 29).dayNumber + 6 ≤ Calendar.lastDay := by decide
  obtain ⟨dates, hlisting, hanswer, _⟩ :=
    weekly_occurrences {} ⟨.ofParts 2024 1 1, .ofParts 2024 2 29⟩ hrule rfl rfl hfirst hlast
  exact ⟨hrule, hfirst, hlast, dates, hlisting, hanswer⟩

end Rule

end RecurringDates
