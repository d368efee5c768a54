import RecurringDates.Proofs.Continuation
import RecurringDates.Proofs.MonthlyDates

/-!
# The same dates in other units

What a rule asks for can often be said in more than one unit. All Mondays are the days that are
Mondays, the Mondays of every week, and the Mondays of every month; every twelfth month is the same
month of every year. The frequencies go about it in different ways, but the rules have the same
answers, also where a count or a last date ends them.

The main statements are `Rule.occurrences_monthDays_inUnits` (days, months and years on days of the
month), `Rule.occurrences_weekdays_inUnits` (days, weeks and months on weekdays),
`Rule.occurrences_years_inUnits` (months in place of years) and `Rule.occurrences_weeks_inUnits`
(days in place of weeks). All rest on `Rule.occurrences_inUnits_eq`.
-/

namespace RecurringDates

/-! ## §1 Rules in other units -/

/-- The shortest interval, which passes over no period. -/
def Interval.one : Interval :=
  ⟨1, by decide, by decide⟩

theorem Interval.value_one : one.value = (1 : Int64).toInt := by
  decide

theorem Interval.one_dvd (distance : Int) : one.value ∣ distance :=
  Int.one_dvd distance

/-- Patterns with the same dates from an anchor up to a last day have the same part of them up to
that day. -/
theorem Pattern.filter_datesFrom_congr {pattern other : Pattern} {anchor last : Date}
    (hsame : ∀ date, anchor ≤ date → date ≤ last →
      (date ∈ (pattern.cycle anchor Date.last).dates ↔
        date ∈ (other.cycle anchor Date.last).dates)) :
    (pattern.datesFrom anchor).filter (· ≤ last) = (other.datesFrom anchor).filter (· ≤ last) := by
  apply DateSet.eq_of_ascending
  · exact (pattern.pairwise_datesFrom anchor).filter _
  · exact (other.pairwise_datesFrom anchor).filter _
  · intro date
    simp only [List.mem_filter, mem_datesFrom_iff, decide_eq_true_eq]
    constructor
    · rintro ⟨⟨hdate, hle⟩, hlast⟩
      exact ⟨⟨(hsame date hle hlast).mp hdate, hle⟩, hlast⟩
    · rintro ⟨⟨hdate, hle⟩, hlast⟩
      exact ⟨⟨(hsame date hle hlast).mpr hdate, hle⟩, hlast⟩

namespace Rule

variable {options : Options} {rule : Rule} {anchor date : Date} {window : Window}
  {days : List OrdinalWeekday} {interval : Interval} {start start' : Weekday}

/-- A rule in another unit, at another interval and with weeks that begin on another day. When it
ends and what it asks for stay as they are. -/
def inUnits (rule : Rule) (frequency : Frequency) (interval : Int64) (weekStart : Weekday) : Rule :=
  { rule with frequency, interval, weekStart }

/-- **A rule has the same answer in other units** if its patterns have the same dates up to the last
day that is asked about. -/
theorem occurrences_inUnits_eq {frequency frequency' : Frequency} {n n' : Int64}
    {pattern pattern' : Pattern}
    (hpattern : Pattern.ofRule (rule.inUnits frequency n start) = .ok pattern)
    (hpattern' : Pattern.ofRule (rule.inUnits frequency' n' start') = .ok pattern')
    (hsame : ∀ date, anchor ≤ date → date ≤ window.last →
      (date ∈ (pattern.cycle anchor Date.last).dates ↔
        date ∈ (pattern'.cycle anchor Date.last).dates)) :
    (rule.inUnits frequency n start).occurrences options (some anchor) window
      = (rule.inUnits frequency' n' start').occurrences options (some anchor) window := by
  cases hlimits : Series.limitsOf rule with
  | error cause =>
    -- The count is refused before the unit is looked at.
    have hfail : ∀ frequency n start,
        Series.ofRule (rule.inUnits frequency n start) anchor = .error cause := by
      intro frequency n start
      have hsame : Series.limitsOf (rule.inUnits frequency n start) = .error cause := hlimits
      simp only [Series.ofRule, hsame]
    simp only [occurrences, hfail]
  | ok limits =>
    have hseries : Series.ofRule (rule.inUnits frequency n start) anchor
        = .ok ⟨anchor, pattern, limits⟩ :=
      ofRule_eq_ok_iff.mpr ⟨limits, pattern, hlimits, hpattern, rfl⟩
    have hseries' : Series.ofRule (rule.inUnits frequency' n' start') anchor
        = .ok ⟨anchor, pattern', limits⟩ :=
      ofRule_eq_ok_iff.mpr ⟨limits, pattern', hlimits, hpattern', rfl⟩
    -- Up to the last day the same limits are applied to the same dates.
    rw [occurrences_of_series hseries, occurrences_of_series hseries', ← Window.clip_filter_last,
      ← window.clip_filter_last anchor (Series.dates ⟨anchor, pattern', limits⟩ Date.last),
      Series.dates_last, Series.dates_last,
      Limits.filter_cut_le (pattern.pairwise_datesFrom anchor),
      Limits.filter_cut_le (pattern'.pairwise_datesFrom anchor),
      Pattern.filter_datesFrom_congr hsame]

/-! ## §2 Patterns in each unit -/

/-- A rule without days of the year, weeks of the year and positions, the parts that a daily rule
refuses. -/
structure IsSimple (rule : Rule) : Prop where
  byYearDay_eq : rule.byYearDay = []
  byWeekNo_eq : rule.byWeekNo = []
  bySetPos_eq : rule.bySetPos = []

theorem weekdays_eq_of_byDay (hnone : rule.byDay = []) : rule.weekdays = .ok [] := by
  rw [weekdays, hnone]
  rfl

/-- The daily pattern of a rule whose tokens stand for ordinal weekdays. -/
def dailyPattern (rule : Rule) (interval : Interval) (days : List OrdinalWeekday) :
    DailyPattern where
  interval
  weekdays := days.map (·.weekday)
  monthDays := rule.byMonthDay
  months := rule.byMonth

/-- The yearly pattern of a rule. -/
def yearlyPattern (rule : Rule) (interval : Interval) : YearlyPattern where
  interval
  monthDays := rule.byMonthDay
  months := rule.byMonth

namespace IsSimple

variable {n : Int64}

theorem ofRule_inUnits (hrule : rule.IsSimple) (hdays : rule.weekdays = .ok days)
    (hinterval : interval.value = n.toInt) (frequency : Frequency) :
    Pattern.ofRule (rule.inUnits frequency n start)
      = Pattern.ofFrequency (rule.inUnits frequency n start) interval days :=
  Pattern.ofRule_eq_ofFrequency hinterval hdays hrule.byYearDay_eq hrule.byWeekNo_eq

theorem ofRule_daily (hrule : rule.IsSimple) (hdays : rule.weekdays = .ok days)
    (hinterval : interval.value = n.toInt) :
    Pattern.ofRule (rule.inUnits .daily n start)
      = .ok (.daily (rule.dailyPattern interval days)) := by
  rw [hrule.ofRule_inUnits hdays hinterval]
  simp [Pattern.ofFrequency, inUnits, Pattern.refuse, hrule.bySetPos_eq, dailyPattern]

theorem ofRule_weekly (hrule : rule.IsSimple) (hdays : rule.weekdays = .ok days)
    (hinterval : interval.value = n.toInt) (hmonthDays : rule.byMonthDay = []) :
    Pattern.ofRule (rule.inUnits .weekly n start)
      = .ok (.weekly ((rule.inUnits .weekly n start).weeklyPattern interval days)) := by
  rw [hrule.ofRule_inUnits hdays hinterval]
  simp [Pattern.ofFrequency, inUnits, Pattern.refuse, hrule.bySetPos_eq, hmonthDays, weeklyPattern]

theorem ofRule_monthly (hrule : rule.IsSimple) (hdays : rule.weekdays = .ok days)
    (hinterval : interval.value = n.toInt) :
    Pattern.ofRule (rule.inUnits .monthly n start)
      = .ok (.monthly (rule.monthlyPattern interval days)) := by
  rw [hrule.ofRule_inUnits hdays hinterval]
  simp [Pattern.ofFrequency, inUnits, monthlyPattern]

theorem ofRule_yearly (hrule : rule.IsSimple) (hbyDay : rule.byDay = [])
    (hinterval : interval.value = n.toInt) :
    Pattern.ofRule (rule.inUnits .yearly n start)
      = .ok (.yearly (rule.yearlyPattern interval)) := by
  rw [hrule.ofRule_inUnits (weekdays_eq_of_byDay hbyDay) hinterval]
  simp [Pattern.ofFrequency, inUnits, Pattern.refuse, hrule.bySetPos_eq, hbyDay, yearlyPattern]

end IsSimple

/-! ## §3 Days, months and years on days of the month -/

/-- One of the days of the month that a rule names counts to a date. -/
def NamesDay (rule : Rule) (date : Date) : Prop :=
  ∃ n ∈ rule.byMonthDay, date.month.resolve? n.toInt = some date

/-- A date falls on one of the weekdays of a list, whatever positions it gives. -/
def FallsOn (days : List OrdinalWeekday) (date : Date) : Prop :=
  ∃ day ∈ days, day.weekday = date.weekday

theorem mem_dailyCycle_iff (hle : anchor ≤ date) :
    date ∈ ((rule.dailyPattern interval days).cycle anchor Date.last).dates ↔
      (days = [] ∨ FallsOn days date) ∧ rule.AllowsMonth date ∧
        (rule.byMonthDay = [] ∨ rule.NamesDay date) ∧ interval.value ∣ anchor.daysTo date := by
  rw [DailyPattern.mem_cycle_iff hle, DailyPattern.accepts_iff, ← isIn_byMonth_iff]
  simp [dailyPattern, NamesDay, FallsOn, and_assoc]

/-- Without positions, a monthly rule has the days that it chooses in each allowed month. -/
theorem mem_monthlyCycle_of_simple (hrule : rule.IsSimple) (hle : anchor ≤ date) :
    date ∈ ((rule.monthlyPattern interval days).cycle anchor Date.last).dates ↔
      rule.AllowsMonth date ∧
        date ∈ (rule.monthlyPattern interval days).daysOfMonth anchor date.month ∧
          interval.value ∣ anchor.monthsTo date := by
  have hpositions : (rule.monthlyPattern interval days).positions = [] := hrule.bySetPos_eq
  rw [MonthlyPattern.mem_cycle_iff hle, MonthlyPattern.mem_datesOfMonth_iff,
    MonthlyPattern.selectedDays, if_pos hpositions, ← isIn_byMonth_iff, and_assoc,
    Date.monthsTo_eq]
  rfl

theorem mem_yearlyCycle_iff (hle : anchor ≤ date) :
    date ∈ ((rule.yearlyPattern interval).cycle anchor Date.last).dates ↔
      date.month.number ∈ (rule.yearlyPattern interval).monthsFor anchor ∧
        date ∈ (rule.yearlyPattern interval).daysOfMonth anchor date.month ∧
          interval.value ∣ date.year - anchor.year := by
  rw [YearlyPattern.mem_cycle_iff hle, YearlyPattern.mem_datesOfYear_iff, eq_self, true_and,
    and_assoc]
  rfl

/-- Day numbers come before all else in a month. -/
theorem mem_monthlyDays_iff_of_ne_nil (hnumbers : rule.byMonthDay ≠ []) :
    date ∈ (rule.monthlyPattern interval days).daysOfMonth anchor date.month ↔
      rule.NamesDay date := by
  have hnumbers' : (rule.monthlyPattern interval days).monthDays ≠ [] := hnumbers
  rw [MonthlyPattern.daysOfMonth, if_pos hnumbers', DateSet.mem_ofList, List.mem_filterMap]
  rfl

/-- Day numbers come before the anchor's day in a year. -/
theorem mem_yearlyDays_iff_of_ne_nil (hnumbers : rule.byMonthDay ≠ []) :
    date ∈ (rule.yearlyPattern interval).daysOfMonth anchor date.month ↔ rule.NamesDay date := by
  have hnumbers' : ¬ (rule.yearlyPattern interval).monthDays = [] := hnumbers
  rw [YearlyPattern.daysOfMonth, if_neg hnumbers', List.mem_filterMap]
  rfl

/-- A yearly rule that names months has them whatever the anchor. -/
theorem mem_monthsFor_iff_of_ne_nil (hmonths : rule.byMonth ≠ []) :
    date.month.number ∈ (rule.yearlyPattern interval).monthsFor anchor ↔ rule.AllowsMonth date := by
  have hmonths' : ¬ (rule.yearlyPattern interval).months = [] := hmonths
  rw [YearlyPattern.monthsFor, if_neg hmonths', List.mem_map, AllowsMonth, or_iff_right hmonths]
  rfl

/-- **Days of the month in days, months and years.** A rule that names days of the month, and
nothing else than perhaps months, has the same answer whether each day is tested or each month is
gone through, and if it names months also if each year is. -/
theorem occurrences_monthDays_inUnits (options : Options) (anchor : Date) (window : Window)
    (hrule : rule.IsSimple) (hbyDay : rule.byDay = []) (hnumbers : rule.byMonthDay ≠ [])
    (start start' start'' : Weekday) :
    (rule.inUnits .daily 1 start).occurrences options (some anchor) window
        = (rule.inUnits .monthly 1 start').occurrences options (some anchor) window ∧
      (rule.byMonth ≠ [] →
        (rule.inUnits .monthly 1 start').occurrences options (some anchor) window
          = (rule.inUnits .yearly 1 start'').occurrences options (some anchor) window) := by
  have hdays := weekdays_eq_of_byDay hbyDay
  have hmonthly : ∀ date, anchor ≤ date →
      (date ∈ ((rule.monthlyPattern .one []).cycle anchor Date.last).dates ↔
        rule.AllowsMonth date ∧ rule.NamesDay date) := by
    intro date hle
    rw [mem_monthlyCycle_of_simple hrule hle, mem_monthlyDays_iff_of_ne_nil hnumbers,
      and_iff_left (Interval.one_dvd _)]
  constructor
  · -- A day that is tested has one of the numbers exactly if its month chooses it.
    refine occurrences_inUnits_eq (hrule.ofRule_daily hdays Interval.value_one)
      (hrule.ofRule_monthly hdays Interval.value_one) fun date hle _ => ?_
    show date ∈ ((rule.dailyPattern .one []).cycle anchor Date.last).dates ↔ _
    rw [mem_dailyCycle_iff hle, or_iff_right hnumbers, and_iff_left (Interval.one_dvd _),
      and_iff_right (Or.inl rfl)]
    exact (hmonthly date hle).symm
  · -- With months named, a year goes through the same months and days.
    intro hmonths
    refine occurrences_inUnits_eq (hrule.ofRule_monthly hdays Interval.value_one)
      (hrule.ofRule_yearly hbyDay Interval.value_one) fun date hle _ => ?_
    show _ ↔ date ∈ ((rule.yearlyPattern .one).cycle anchor Date.last).dates
    rw [mem_yearlyCycle_iff hle, mem_monthsFor_iff_of_ne_nil hmonths,
      mem_yearlyDays_iff_of_ne_nil hnumbers, and_iff_left (Interval.one_dvd _)]
    exact hmonthly date hle

/-- The first and the last days of February and December, told from either end of the month, among
days and months that there are none of. -/
def endsOfMonths : Rule :=
  { every .daily with
    byMonthDay := [31, -1, 0, -31, 40, -1]
    byMonth := [12, 2, 13, -2]
    count := some 5 }

theorem occurrences_monthDays_inUnits_endsOfMonths :
    endsOfMonths.IsSimple ∧ endsOfMonths.byDay = [] ∧ endsOfMonths.byMonthDay ≠ [] ∧
      endsOfMonths.byMonth ≠ [] ∧
      (endsOfMonths.inUnits .daily 1 .monday).occurrences {} (some (.ofParts 2023 2 28))
          ⟨.ofParts 2023 12 5, .ofParts 2030 1 1⟩
        = .ok [.ofParts 2023 12 31, .ofParts 2024 2 29, .ofParts 2024 12 1] ∧
      (endsOfMonths.inUnits .monthly 1 .sunday).occurrences {} (some (.ofParts 2023 2 28))
          ⟨.ofParts 2023 12 5, .ofParts 2030 1 1⟩
        = .ok [.ofParts 2023 12 31, .ofParts 2024 2 29, .ofParts 2024 12 1] := by
  have hrule : endsOfMonths.IsSimple := ⟨rfl, rfl, rfl⟩
  have hnumbers : endsOfMonths.byMonthDay ≠ [] := by decide
  have hmonths : endsOfMonths.byMonth ≠ [] := by decide
  obtain ⟨hdaily, hyearly⟩ := occurrences_monthDays_inUnits {} (.ofParts 2023 2 28)
    ⟨.ofParts 2023 12 5, .ofParts 2030 1 1⟩ hrule rfl hnumbers .monday .sunday .friday
  have hanswer : (endsOfMonths.inUnits .yearly 1 .friday).occurrences {}
      (some (.ofParts 2023 2 28)) ⟨.ofParts 2023 12 5, .ofParts 2030 1 1⟩
        = .ok [.ofParts 2023 12 31, .ofParts 2024 2 29, .ofParts 2024 12 1] := rfl
  have hmonthly := (hyearly hmonths).trans hanswer
  exact ⟨hrule, rfl, hnumbers, hmonths, hdaily.trans hmonthly, hmonthly⟩

/-! ## §4 Days, weeks and months on weekdays -/

/-- Weekdays without positions are chosen in a month wherever they fall. -/
theorem mem_monthlyDays_iff_of_bare (hnumbers : rule.byMonthDay = []) (hsome : days ≠ [])
    (hbare : ∀ day ∈ days, day.ordinal = none) :
    date ∈ (rule.monthlyPattern interval days).daysOfMonth anchor date.month ↔
      FallsOn days date := by
  -- Without day numbers the weekdays choose.
  have hnone : ¬ (rule.monthlyPattern interval days).monthDays ≠ [] := not_not_intro hnumbers
  have hsome' : (rule.monthlyPattern interval days).weekdays ≠ [] := hsome
  rw [MonthlyPattern.daysOfMonth, if_neg hnone, if_pos hsome', DateSet.mem_ofList,
    List.mem_flatMap]
  simp only [← DateSet.mem_def, Month.mem_ordinalWeekdayDates_iff, true_and]
  -- A token without a position means every date on its weekday.
  refine exists_congr fun day => and_congr_right fun hday => ?_
  rw [Date.IsOrdinalWeekday, hbare day hday]
  exact eq_comm

/-- A weekly rule that names weekdays has them in every week that the interval leads to. -/
theorem mem_weeklyCycle_iff (hdays : rule.weekdays = .ok days) (hbyDay : rule.byDay ≠ [])
    (hfirst : Calendar.firstDay ≤ anchor.weekStart rule.weekStart) (hle : anchor ≤ date)
    (hlast : date.dayNumber + 6 ≤ Calendar.lastDay) :
    date ∈ ((rule.weeklyPattern interval days).cycle anchor Date.last).dates ↔
      FallsOn days date ∧ rule.AllowsMonth date ∧
        interval.value ∣ anchor.weeksTo rule.weekStart date := by
  have hmem : date ∈ ((rule.weeklyPattern interval days).cycle anchor Date.last).dates ↔
      date.weekday ∈ (rule.weeklyPattern interval days).weekdaysFor anchor ∧
        date.month.isIn rule.byMonth = true ∧
          interval.value ∣ anchor.weeksTo rule.weekStart date :=
    WeeklyPattern.mem_cycle_iff hfirst hle hlast
  rw [hmem, mem_weekdaysFor_iff hdays, isIn_byMonth_iff, AsksWeekday,
    or_iff_right fun hnone => hbyDay hnone.1]
  rfl

/-- **Weekdays in days, weeks and months.** A rule that names weekdays without positions, and
nothing else than perhaps months, has the same answer whether each day is tested or each month is
gone through. Up to six days before the end of the calendar this is also its answer by weeks, on
whatever weekday they begin, as long as the first of them begins inside the calendar. -/
theorem occurrences_weekdays_inUnits (options : Options) (anchor : Date) (window : Window)
    (hrule : rule.IsSimple) (hnumbers : rule.byMonthDay = []) (hbyDay : rule.byDay ≠ [])
    (hdays : rule.weekdays = .ok days) (hbare : ∀ day ∈ days, day.ordinal = none)
    (start start' : Weekday) :
    (rule.inUnits .daily 1 start).occurrences options (some anchor) window
        = (rule.inUnits .monthly 1 start').occurrences options (some anchor) window ∧
      (window.last.dayNumber + 6 ≤ Calendar.lastDay →
        ∀ weekStart, Calendar.firstDay ≤ anchor.weekStart weekStart →
          (rule.inUnits .daily 1 start).occurrences options (some anchor) window
            = (rule.inUnits .weekly 1 weekStart).occurrences options (some anchor) window) := by
  have hsome : days ≠ [] := fun hnil => hbyDay ((weekdays_eq_nil_iff hdays).mp hnil)
  have hdaily : ∀ date, anchor ≤ date →
      (date ∈ ((rule.dailyPattern .one days).cycle anchor Date.last).dates ↔
        FallsOn days date ∧ rule.AllowsMonth date) := by
    intro date hle
    rw [mem_dailyCycle_iff hle, or_iff_right hsome, and_iff_left (Interval.one_dvd _),
      and_iff_left (Or.inl hnumbers)]
  constructor
  · -- A day that is tested falls on a weekday exactly if its month chooses it.
    refine occurrences_inUnits_eq (hrule.ofRule_daily hdays Interval.value_one)
      (hrule.ofRule_monthly hdays Interval.value_one) fun date hle _ => ?_
    show _ ↔ date ∈ ((rule.monthlyPattern .one days).cycle anchor Date.last).dates
    rw [mem_monthlyCycle_of_simple hrule hle, mem_monthlyDays_iff_of_bare hnumbers hsome hbare,
      and_iff_left (Interval.one_dvd _), and_comm]
    exact hdaily date hle
  · intro hlast weekStart hfirst
    refine occurrences_inUnits_eq (hrule.ofRule_daily hdays Interval.value_one)
      (hrule.ofRule_weekly hdays Interval.value_one hnumbers) fun date hle hle' => ?_
    -- The window ends early enough for the weeks of all its dates to be whole.
    have hdate : date.dayNumber + 6 ≤ Calendar.lastDay := by
      rw [Date.le_def] at hle'
      omega
    -- The week start is that of the weekly rule, and with every week it does not matter.
    have hweekly : date ∈ (((rule.inUnits .weekly 1 weekStart).weeklyPattern .one days).cycle anchor
        Date.last).dates ↔ FallsOn days date ∧ rule.AllowsMonth date ∧
          Interval.one.value ∣ anchor.weeksTo weekStart date :=
      mem_weeklyCycle_iff hdays hbyDay hfirst hle hdate
    rw [and_iff_left (Interval.one_dvd _)] at hweekly
    exact (hdaily date hle).trans hweekly.symm

/-- Mondays and Thursdays in February and March, three times. -/
def twiceAWeek : Rule :=
  { every .daily with
    byDay := ["mo", " TH ", "MO"]
    byMonth := [3, 2]
    count := some 3 }

theorem occurrences_weekdays_inUnits_twiceAWeek :
    twiceAWeek.IsSimple ∧ twiceAWeek.byMonthDay = [] ∧ twiceAWeek.byDay ≠ [] ∧
      twiceAWeek.weekdays = .ok [.every .monday, .every .thursday, .every .monday] ∧
      (∀ day ∈ [OrdinalWeekday.every .monday, .every .thursday, .every .monday],
        day.ordinal = none) ∧
      (Date.ofParts 2025 12 31).dayNumber + 6 ≤ Calendar.lastDay ∧
      Calendar.firstDay ≤ (Date.ofParts 2024 2 28).weekStart .wednesday ∧
      (twiceAWeek.inUnits .monthly 1 .monday).occurrences {} (some (.ofParts 2024 2 28))
          ⟨.ofParts 2024 1 1, .ofParts 2025 12 31⟩
        = .ok [.ofParts 2024 2 29, .ofParts 2024 3 4, .ofParts 2024 3 7] ∧
      (twiceAWeek.inUnits .weekly 1 .wednesday).occurrences {} (some (.ofParts 2024 2 28))
          ⟨.ofParts 2024 1 1, .ofParts 2025 12 31⟩
        = .ok [.ofParts 2024 2 29, .ofParts 2024 3 4, .ofParts 2024 3 7] := by
  have hrule : twiceAWeek.IsSimple := ⟨rfl, rfl, rfl⟩
  have hbyDay : twiceAWeek.byDay ≠ [] := by decide
  have hdays : twiceAWeek.weekdays = .ok [.every .monday, .every .thursday, .every .monday] := rfl
  have hbare : ∀ day ∈ [OrdinalWeekday.every .monday, .every .thursday, .every .monday],
      day.ordinal = none := by decide
  have hlast : (Date.ofParts 2025 12 31).dayNumber + 6 ≤ Calendar.lastDay := by decide
  have hfirst : Calendar.firstDay ≤ (Date.ofParts 2024 2 28).weekStart .wednesday := by decide
  obtain ⟨hmonthly, hweekly⟩ := occurrences_weekdays_inUnits {} (.ofParts 2024 2 28)
    ⟨.ofParts 2024 1 1, .ofParts 2025 12 31⟩ hrule rfl hbyDay hdays hbare .monday .monday
  have hanswer : (twiceAWeek.inUnits .daily 1 .monday).occurrences {} (some (.ofParts 2024 2 28))
      ⟨.ofParts 2024 1 1, .ofParts 2025 12 31⟩
        = .ok [.ofParts 2024 2 29, .ofParts 2024 3 4, .ofParts 2024 3 7] := rfl
  exact ⟨hrule, rfl, hbyDay, hdays, hbare, hlast, hfirst, hmonthly.symm.trans hanswer,
    (hweekly hlast .wednesday hfirst).symm.trans hanswer⟩

/-! ## §5 Months in place of years -/

/-- Whole years lie between two dates of the same month exactly if whole multiples of twelve months
do. -/
theorem twelve_mul_dvd_monthsTo_iff {years : Int} :
    12 * years ∣ anchor.monthsTo date ↔
      date.month.number = anchor.month.number ∧ years ∣ date.year - anchor.year := by
  have hlow := anchor.month.number_pos
  have hhigh := anchor.month.number_le
  have hlow' := date.month.number_pos
  have hhigh' := date.month.number_le
  unfold Date.monthsTo
  constructor
  · -- The numbers of two months of a year are less than twelve apart.
    rintro ⟨steps, hsteps⟩
    rw [Int.mul_assoc] at hsteps
    exact ⟨by omega, steps, by omega⟩
  · rintro ⟨hsame, steps, hsteps⟩
    refine ⟨steps, ?_⟩
    rw [Int.mul_assoc]
    omega

/-- The anchor's day in its own month of another year, where no leap day is in question. -/
theorem anchorDayIn?_eq_some_iff (hleap : YearlyPattern.isLeapDay anchor = false) :
    YearlyPattern.anchorDayIn? anchor date.month = some date ↔ date.day = anchor.day := by
  constructor
  · -- February 28 takes the place of leap days only.
    intro hfound
    obtain ⟨_, hsame | ⟨hleap', _⟩⟩ := YearlyPattern.of_anchorDayIn? hfound
    · exact hsame
    · rw [hleap] at hleap'
      cases hleap'
  · intro hsame
    unfold YearlyPattern.anchorDayIn?
    rw [← hsame, Month.date?_month_day]

/-- Months and years choose the same days in a month: those named, or else the anchor's. -/
theorem mem_monthlyDays_iff_mem_yearlyDays {other : Interval}
    (hleap : rule.byMonthDay = [] → YearlyPattern.isLeapDay anchor = false) :
    date ∈ (rule.monthlyPattern interval []).daysOfMonth anchor date.month ↔
      date ∈ (rule.yearlyPattern other).daysOfMonth anchor date.month := by
  by_cases hnumbers : rule.byMonthDay = []
  · -- Both leave the day to the anchor.
    have hnone : ¬ (rule.monthlyPattern interval []).monthDays ≠ [] := not_not_intro hnumbers
    have hnone' : (rule.yearlyPattern other).monthDays = [] := hnumbers
    have hbare : ¬ (rule.monthlyPattern interval []).weekdays ≠ [] := not_not_intro rfl
    rw [MonthlyPattern.daysOfMonth, if_neg hnone, if_neg hbare, DateSet.mem_ofList,
      YearlyPattern.daysOfMonth, if_pos hnone', Option.mem_toList, Option.mem_toList,
      Month.date?_eq_some_iff, anchorDayIn?_eq_some_iff (hleap hnumbers), eq_self, true_and]
  · rw [mem_monthlyDays_iff_of_ne_nil hnumbers, mem_yearlyDays_iff_of_ne_nil hnumbers]

/-- **Months in place of years.** A rule that names at most days of the month has the same answer
every so many years and every twelve times as many months, unless it leaves the day to an anchor
that is a leap day. -/
theorem occurrences_years_inUnits (options : Options) {anchor : Date} (window : Window)
    (hrule : rule.IsSimple) (hbyDay : rule.byDay = []) (hmonths : rule.byMonth = [])
    (hleap : rule.byMonthDay = [] → YearlyPattern.isLeapDay anchor = false)
    {years months : Int64} (hpos : 0 < years.toInt) (htwelve : months.toInt = 12 * years.toInt)
    (hlt : months.toInt < 4294967296) (start start' : Weekday) :
    (rule.inUnits .monthly months start).occurrences options (some anchor) window
      = (rule.inUnits .yearly years start').occurrences options (some anchor) window := by
  have hdays := weekdays_eq_of_byDay hbyDay
  obtain ⟨everyMonths, hmonthsValue⟩ : ∃ interval : Interval, interval.value = months.toInt :=
    ⟨⟨months.toInt, by omega, hlt⟩, rfl⟩
  obtain ⟨everyYears, hyearsValue⟩ : ∃ interval : Interval, interval.value = years.toInt :=
    ⟨⟨years.toInt, hpos, by omega⟩, rfl⟩
  refine occurrences_inUnits_eq (hrule.ofRule_monthly hdays hmonthsValue)
    (hrule.ofRule_yearly hbyDay hyearsValue) fun date hle _ => ?_
  have hallowed : rule.AllowsMonth date := Or.inl hmonths
  -- Without months named, a year has dates in the month of the anchor only.
  have hmonth : date.month.number ∈ (rule.yearlyPattern everyYears).monthsFor anchor ↔
      date.month.number = anchor.month.number := by
    rw [YearlyPattern.monthsFor, if_pos (show (rule.yearlyPattern everyYears).months = [] from
      hmonths), List.mem_singleton]
  calc date ∈ ((rule.monthlyPattern everyMonths []).cycle anchor Date.last).dates
      ↔ date ∈ (rule.monthlyPattern everyMonths []).daysOfMonth anchor date.month ∧
          months.toInt ∣ anchor.monthsTo date := by
        rw [mem_monthlyCycle_of_simple hrule hle, and_iff_right hallowed, hmonthsValue]
    _ ↔ date ∈ (rule.yearlyPattern everyYears).daysOfMonth anchor date.month ∧
          date.month.number = anchor.month.number ∧ years.toInt ∣ date.year - anchor.year := by
        rw [mem_monthlyDays_iff_mem_yearlyDays hleap, htwelve, twelve_mul_dvd_monthsTo_iff]
    _ ↔ date ∈ ((rule.yearlyPattern everyYears).cycle anchor Date.last).dates := by
        rw [mem_yearlyCycle_iff hle, hmonth, hyearsValue, and_left_comm]

/-- The anchor's day, until the last day of year 4. -/
def untilYearFour : Rule :=
  { every .yearly with
    untilDate := some (.ofParts 4 12 31) }

/-- Every second year from the last day of August in year -1 on is every twenty-fourth month. -/
theorem occurrences_years_inUnits_untilYearFour :
    untilYearFour.IsSimple ∧ untilYearFour.byDay = [] ∧ untilYearFour.byMonth = [] ∧
      (untilYearFour.byMonthDay = [] → YearlyPattern.isLeapDay (.ofParts (-1) 8 31) = false) ∧
      0 < (2 : Int64).toInt ∧ (24 : Int64).toInt = 12 * (2 : Int64).toInt ∧
      (24 : Int64).toInt < 4294967296 ∧
      (untilYearFour.inUnits .monthly 24 .monday).occurrences {} (some (.ofParts (-1) 8 31))
          ⟨.ofParts 0 1 1, .ofParts 2024 12 31⟩
        = .ok [.ofParts 1 8 31, .ofParts 3 8 31] := by
  have hrule : untilYearFour.IsSimple := ⟨rfl, rfl, rfl⟩
  have hleap : untilYearFour.byMonthDay = [] →
      YearlyPattern.isLeapDay (.ofParts (-1) 8 31) = false := by decide
  have hpos : 0 < (2 : Int64).toInt := by decide
  have htwelve : (24 : Int64).toInt = 12 * (2 : Int64).toInt := by decide
  have hlt : (24 : Int64).toInt < 4294967296 := by decide
  have hsame := occurrences_years_inUnits {} ⟨.ofParts 0 1 1, .ofParts 2024 12 31⟩ hrule rfl rfl
    hleap hpos htwelve hlt .monday .sunday
  have hanswer : (untilYearFour.inUnits .yearly 2 .sunday).occurrences {}
      (some (.ofParts (-1) 8 31)) ⟨.ofParts 0 1 1, .ofParts 2024 12 31⟩
        = .ok [.ofParts 1 8 31, .ofParts 3 8 31] := rfl
  exact ⟨hrule, rfl, rfl, hleap, hpos, htwelve, hlt, hsame.trans hanswer⟩

/-! ## §6 Days in place of weeks -/

/-- A weekly rule that leaves the weekday to the anchor counts days as well as weeks. -/
theorem mem_weeklyCycle_iff_of_bare
    (hfirst : Calendar.firstDay ≤ anchor.weekStart rule.weekStart) (hle : anchor ≤ date) :
    date ∈ ((rule.weeklyPattern interval []).cycle anchor Date.last).dates ↔
      rule.AllowsMonth date ∧ 7 * interval.value ∣ anchor.daysTo date := by
  have hinside : Calendar.firstDay ≤ date.weekStart rule.weekStart :=
    Int.le_trans hfirst (Date.weekStart_le_weekStart hle)
  rw [← isIn_byMonth_iff, WeeklyPattern.mem_cycle_iff_of_bare rfl hle]
  exact and_iff_right hinside

/-- An interval out of range is refused in every unit for the same cause. -/
theorem occurrences_inUnits_of_none {frequency : Frequency} {n : Int64}
    (hnone : Interval.ofInt? n.toInt = none) :
    (rule.inUnits frequency n start).occurrences options (some anchor) window
      = (rule.inUnits frequency n start').occurrences options (some anchor) window := by
  have hrefused : ∀ start, Pattern.ofRule (rule.inUnits frequency n start)
      = .error (.invalidInterval n) := by
    intro start
    simp only [Pattern.ofRule, inUnits, hnone]
  have hlimits : Series.limitsOf (rule.inUnits frequency n start)
      = Series.limitsOf (rule.inUnits frequency n start') := rfl
  simp only [occurrences, Series.ofRule, hrefused, hlimits]

/-- **Days in place of weeks.** A rule that names at most months has the same answer every so many
weeks and every seven times as many days, as long as the anchor's week begins inside the calendar.
So it does not matter on which weekday weeks begin, whatever the interval. -/
theorem occurrences_weeks_inUnits (options : Options) {anchor : Date} (window : Window)
    (hrule : rule.IsSimple) (hbyDay : rule.byDay = []) (hmonthDays : rule.byMonthDay = [])
    (hfirst : Calendar.firstDay ≤ anchor.weekStart start) :
    (∀ weeks days : Int64, 0 < weeks.toInt → days.toInt = 7 * weeks.toInt →
      days.toInt < 4294967296 → ∀ start',
        (rule.inUnits .weekly weeks start).occurrences options (some anchor) window
          = (rule.inUnits .daily days start').occurrences options (some anchor) window) ∧
    ∀ weeks start', Calendar.firstDay ≤ anchor.weekStart start' →
      (rule.inUnits .weekly weeks start).occurrences options (some anchor) window
        = (rule.inUnits .weekly weeks start').occurrences options (some anchor) window := by
  have hdays := weekdays_eq_of_byDay hbyDay
  -- What a weekly rule of any interval has, told without its week start.
  have hweekly : ∀ (weeks : Int64) (interval : Interval) (start : Weekday) (date : Date),
      Calendar.firstDay ≤ anchor.weekStart start → anchor ≤ date →
        (date ∈ (((rule.inUnits .weekly weeks start).weeklyPattern interval []).cycle anchor
          Date.last).dates ↔ rule.AllowsMonth date ∧ 7 * interval.value ∣ anchor.daysTo date) :=
    fun weeks interval start date hfirst hle => mem_weeklyCycle_iff_of_bare hfirst hle
  constructor
  · -- Days: the distance is a multiple of the same number in both units.
    intro weeks days hpos hseven hlt start'
    obtain ⟨everyWeeks, hweeksValue⟩ : ∃ interval : Interval, interval.value = weeks.toInt :=
      ⟨⟨weeks.toInt, hpos, by omega⟩, rfl⟩
    obtain ⟨everyDays, hdaysValue⟩ : ∃ interval : Interval, interval.value = days.toInt :=
      ⟨⟨days.toInt, by omega, hlt⟩, rfl⟩
    refine occurrences_inUnits_eq (hrule.ofRule_weekly hdays hweeksValue hmonthDays)
      (hrule.ofRule_daily hdays hdaysValue) fun date hle _ => ?_
    calc date ∈ (((rule.inUnits .weekly weeks start).weeklyPattern everyWeeks []).cycle anchor
          Date.last).dates
        ↔ rule.AllowsMonth date ∧ 7 * everyWeeks.value ∣ anchor.daysTo date :=
          hweekly weeks everyWeeks start date hfirst hle
      _ ↔ rule.AllowsMonth date ∧ everyDays.value ∣ anchor.daysTo date := by
          rw [hweeksValue, hdaysValue, hseven]
      _ ↔ date ∈ ((rule.dailyPattern everyDays []).cycle anchor Date.last).dates := by
          rw [mem_dailyCycle_iff hle, and_iff_right (Or.inl rfl), and_iff_right (Or.inl hmonthDays)]
  · -- Week starts: an interval out of range is refused, and any other one gives the same dates.
    intro weeks start' hfirst'
    cases hinterval : Interval.ofInt? weeks.toInt with
    | none => exact occurrences_inUnits_of_none hinterval
    | some everyWeeks =>
      have hvalue := Interval.ofInt?_eq_some_iff.mp hinterval
      refine occurrences_inUnits_eq (hrule.ofRule_weekly hdays hvalue hmonthDays)
        (hrule.ofRule_weekly hdays hvalue hmonthDays) fun date hle _ => ?_
      exact (hweekly weeks everyWeeks start date hfirst hle).trans
        (hweekly weeks everyWeeks start' date hfirst' hle).symm

/-- The anchor's weekday in the first quarter, five times. -/
def firstQuarter : Rule :=
  { every .weekly with
    byMonth := [1, 3, 2]
    count := some 5 }

/-- Every second Wednesday from the second week of 2024 on is every fourteenth day, whether weeks
begin on Sunday or on Thursday, the weekday after the anchor's. -/
theorem occurrences_weeks_inUnits_firstQuarter :
    firstQuarter.IsSimple ∧ firstQuarter.byDay = [] ∧ firstQuarter.byMonthDay = [] ∧
      Calendar.firstDay ≤ (Date.ofParts 2024 1 10).weekStart .thursday ∧
      Calendar.firstDay ≤ (Date.ofParts 2024 1 10).weekStart .sunday ∧
      0 < (2 : Int64).toInt ∧ (14 : Int64).toInt = 7 * (2 : Int64).toInt ∧
      (14 : Int64).toInt < 4294967296 ∧
      (firstQuarter.inUnits .weekly 2 .thursday).occurrences {} (some (.ofParts 2024 1 10))
          ⟨.ofParts 2024 2 1, .ofParts 2024 12 31⟩
        = .ok [.ofParts 2024 2 7, .ofParts 2024 2 21, .ofParts 2024 3 6] ∧
      (firstQuarter.inUnits .weekly 2 .sunday).occurrences {} (some (.ofParts 2024 1 10))
          ⟨.ofParts 2024 2 1, .ofParts 2024 12 31⟩
        = .ok [.ofParts 2024 2 7, .ofParts 2024 2 21, .ofParts 2024 3 6] := by
  have hrule : firstQuarter.IsSimple := ⟨rfl, rfl, rfl⟩
  have hthursday : Calendar.firstDay ≤ (Date.ofParts 2024 1 10).weekStart .thursday := by decide
  have hsunday : Calendar.firstDay ≤ (Date.ofParts 2024 1 10).weekStart .sunday := by decide
  have hpos : 0 < (2 : Int64).toInt := by decide
  have hseven : (14 : Int64).toInt = 7 * (2 : Int64).toInt := by decide
  have hlt : (14 : Int64).toInt < 4294967296 := by decide
  obtain ⟨hdaily, hweekly⟩ := occurrences_weeks_inUnits {}
    ⟨.ofParts 2024 2 1, .ofParts 2024 12 31⟩ hrule rfl rfl hthursday
  have hanswer : (firstQuarter.inUnits .daily 14 .monday).occurrences {}
      (some (.ofParts 2024 1 10)) ⟨.ofParts 2024 2 1, .ofParts 2024 12 31⟩
        = .ok [.ofParts 2024 2 7, .ofParts 2024 2 21, .ofParts 2024 3 6] := rfl
  have hsame := (hdaily 2 14 hpos hseven hlt .monday).trans hanswer
  exact ⟨hrule, rfl, rfl, hthursday, hsunday, hpos, hseven, hlt, hsame,
    (hweekly 2 .sunday hsunday).symm.trans hsame⟩

end Rule

end RecurringDates
