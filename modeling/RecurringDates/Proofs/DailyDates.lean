import RecurringDates.Proofs.Units

/-!
# The dates of daily rules

A daily rule steps from its anchor by whole days and keeps the days that pass its filters. Its dates
can be told without any stepping: by the number of days from the anchor, and by what each date is by
itself, its weekday, its month and its place in its month.

The main statement is `Rule.daily_occurrences`.
-/

namespace RecurringDates.Rule

variable {rule : Rule} {interval : Interval} {days : List OrdinalWeekday} {anchor date : Date}

/-! ## §1 Filters -/

/-- A rule names the day of a date in its month, by its number from the first or from the last. -/
def NamesMonthDay (rule : Rule) (date : Date) : Prop :=
  ∃ n ∈ rule.byMonthDay, date.IsMonthDay n.toInt

/-- A date passes each filter of a rule that is not empty: its weekday is that of a token, its month
is named, and its day in the month is named. -/
structure Passes (rule : Rule) (days : List OrdinalWeekday) (date : Date) : Prop where
  weekday : rule.byDay = [] ∨ FallsOn days date
  month : rule.AllowsMonth date
  monthDay : rule.byMonthDay = [] ∨ rule.NamesMonthDay date

/-- Before the calendar's last month, a day number that is a date's place in its month also resolves
to the date. -/
theorem namesDay_iff (hmonth : date.month.index < Date.last.month.index) :
    rule.NamesDay date ↔ rule.NamesMonthDay date := by
  unfold NamesDay NamesMonthDay
  simp only [Month.resolve?_eq_some_iff, hmonth, true_and]

/-- **The dates of a daily pattern** before the calendar's last month are those that pass the
filters of the rule a multiple of the interval after the anchor. -/
theorem mem_dailyCycle_iff_passes (hdays : rule.weekdays = .ok days) (hle : anchor ≤ date)
    (hmonth : date.month.index < Date.last.month.index) :
    date ∈ ((rule.dailyPattern interval days).cycle anchor Date.last).dates ↔
      rule.Passes days date ∧ interval.value ∣ anchor.daysTo date := by
  rw [mem_dailyCycle_iff hle, weekdays_eq_nil_iff hdays, namesDay_iff hmonth]
  constructor
  · rintro ⟨hweekday, hallowed, hmonthDay, hsteps⟩
    exact ⟨⟨hweekday, hallowed, hmonthDay⟩, hsteps⟩
  · rintro ⟨⟨hweekday, hallowed, hmonthDay⟩, hsteps⟩
    exact ⟨hweekday, hallowed, hmonthDay, hsteps⟩

/-! ## §2 Daily rules -/

theorem ofRule_daily (hrule : rule.IsEndless .daily days) (hpositions : rule.bySetPos = []) :
    Pattern.ofRule rule = .ok (.daily (rule.dailyPattern hrule.toInterval days)) := by
  rw [hrule.ofRule_eq]
  simp [Pattern.ofFrequency, hrule.frequency_eq, Pattern.refuse, hpositions, dailyPattern]

/-- **The dates of a daily rule.** A daily rule without end answers, up to the last day of November
of the calendar's last year, with exactly those dates of the window that lie a multiple of the
interval after the anchor, in days, and that pass the filters of the rule. -/
theorem daily_occurrences (options : Options) (window : Window)
    (hrule : rule.IsEndless .daily days) (hpositions : rule.bySetPos = [])
    (hlast : window.last < Date.ofParts 262142 12 1) :
    ∃ dates : List Date,
      Date.Enumerates dates (fun date =>
        max anchor window.first ≤ date ∧ date ≤ window.last ∧
          rule.Passes days date ∧ rule.interval.toInt ∣ anchor.daysTo date) ∧
      rule.occurrences options (some anchor) window
        = .ok (dates.take options.maxOccurrences.toNat) := by
  -- The window ends before the last month of the calendar, where no filter on days passes.
  have hmem : ∀ date : Date, anchor ≤ date → date ≤ window.last →
      (date ∈ ((rule.dailyPattern hrule.toInterval days).cycle anchor Date.last).dates ↔
        rule.Passes days date ∧ rule.interval.toInt ∣ anchor.daysTo date) := by
    intro date hle hle'
    exact mem_dailyCycle_iff_passes hrule.weekdays_eq hle (month_index_lt_last hle' hlast)
  exact hrule.exists_listing (ofRule_daily hrule hpositions) hmem

/-- Mondays and Fridays among every third day that open or close a month, in summer and in a month
that there is none of. -/
def thirdDays : Rule :=
  { every .daily with
    interval := 3
    byDay := [" mo", "-1FR", "MO"]
    byMonthDay := [1, -1, 0, 40]
    byMonth := [7, 6, 13, 8] }

theorem daily_occurrences_thirdDays :
    thirdDays.IsEndless .daily [.every .monday, .nth (-1) .friday, .every .monday] ∧
      Date.ofParts 2031 12 31 < Date.ofParts 262142 12 1 ∧
      ∃ dates : List Date,
        Date.Enumerates dates (fun date =>
          max (.ofParts 2023 12 31) (.ofParts 2024 1 1) ≤ date ∧ date ≤ .ofParts 2031 12 31 ∧
            thirdDays.Passes [.every .monday, .nth (-1) .friday, .every .monday] date ∧
              3 ∣ (Date.ofParts 2023 12 31).daysTo date) ∧
        thirdDays.occurrences {} (some (.ofParts 2023 12 31))
          ⟨.ofParts 2024 1 1, .ofParts 2031 12 31⟩ = .ok (dates.take 1000) := by
  have hrule : thirdDays.IsEndless .daily [.every .monday, .nth (-1) .friday, .every .monday] :=
    ⟨rfl, by decide, by decide, rfl, rfl, rfl, rfl, rfl⟩
  have hlast : Date.ofParts 2031 12 31 < Date.ofParts 262142 12 1 := by decide
  obtain ⟨dates, hlisting, hanswer⟩ :=
    daily_occurrences {} ⟨.ofParts 2024 1 1, .ofParts 2031 12 31⟩ hrule rfl hlast
  exact ⟨hrule, hlast, dates, hlisting, hanswer⟩

end RecurringDates.Rule
