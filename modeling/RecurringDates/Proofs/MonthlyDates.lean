import RecurringDates.Proofs.Endless
import RecurringDates.Proofs.MonthDays
import RecurringDates.Proofs.Periods

/-!
# The dates of monthly rules

A monthly rule steps from the anchor's month by whole months, chooses days in each, and may then
pick some of these by their position. Its dates can be told without any stepping: by the number of
months from the anchor's, and by what the date is among the days of its own month.

The main statement is `Rule.monthly_occurrences`.
-/

namespace RecurringDates

/-! ## §1 Months between dates -/

namespace Date

/-- The number of months from the month of a date to that of another, negative if it is earlier. -/
def monthsTo (date other : Date) : Int :=
  (12 * other.year + other.month.number) - (12 * date.year + date.month.number)

theorem monthsTo_eq (date other : Date) :
    date.monthsTo other = other.month.index - date.month.index := by
  have hindex : ∀ day : Date, day.month.index = 12 * day.year + day.month.number - 1 := by
    intro day
    simp only [year, Month.year, Month.number]
    omega
  rw [monthsTo, hindex, hindex]
  omega

end Date

/-! ## §2 The days that a rule chooses in a month -/

namespace Rule

variable {rule : Rule} {interval : Interval} {days : List OrdinalWeekday} {anchor date : Date}
  {month : Month}

/-- A date is one of the days that a rule chooses in a month: by their numbers if it names any, else
by its weekdays if it names any, else by the number of the anchor's day. -/
def ChoosesDay (rule : Rule) (days : List OrdinalWeekday) (anchor date : Date) : Prop :=
  if rule.byMonthDay ≠ [] then ∃ n ∈ rule.byMonthDay, date.IsMonthDay n.toInt
  else if rule.byDay ≠ [] then ∃ day ∈ days, date.IsOrdinalWeekday day
  else date.day = anchor.day

/-- A date is chosen, and if the rule names positions it stands at one of them among the dates of
its month that are chosen. -/
def SelectsDay (rule : Rule) (days : List OrdinalWeekday) (anchor date : Date) : Prop :=
  if rule.bySetPos = [] then rule.ChoosesDay days anchor date
  else ∃ position ∈ rule.bySetPos,
    date.StandsAt (fun other => other.month = date.month ∧ rule.ChoosesDay days anchor other)
      position.toInt

/-- The monthly pattern of a rule whose tokens stand for ordinal weekdays. -/
def monthlyPattern (rule : Rule) (interval : Interval) (days : List OrdinalWeekday) :
    MonthlyPattern where
  interval
  weekdays := days
  monthDays := rule.byMonthDay
  positions := rule.bySetPos
  months := rule.byMonth

/-- **The days of a month before positions are looked at** are the dates of the month that the rule
chooses, in every month but the calendar's last. -/
theorem mem_daysOfMonth_iff (hdays : rule.weekdays = .ok days)
    (hmonth : month.index < Date.last.month.index) :
    date ∈ (rule.monthlyPattern interval days).daysOfMonth anchor month ↔
      date.month = month ∧ rule.ChoosesDay days anchor date := by
  unfold MonthlyPattern.daysOfMonth ChoosesDay
  by_cases hnumbers : rule.byMonthDay ≠ []
  · -- Day numbers come before all else.
    have hnumbers' : (rule.monthlyPattern interval days).monthDays ≠ [] := hnumbers
    rw [if_pos hnumbers, if_pos hnumbers', DateSet.mem_ofList, List.mem_filterMap]
    simp only [Month.resolve?_eq_some_iff, hmonth, true_and]
    constructor
    · rintro ⟨n, hn, hdate, hday⟩
      exact ⟨hdate, n, hn, hday⟩
    · rintro ⟨hdate, n, hn, hday⟩
      exact ⟨n, hn, hdate, hday⟩
  · have hnumbers' : ¬ (rule.monthlyPattern interval days).monthDays ≠ [] := hnumbers
    rw [if_neg hnumbers, if_neg hnumbers']
    by_cases htokens : rule.byDay ≠ []
    · -- Weekdays come next.
      have htokens' : (rule.monthlyPattern interval days).weekdays ≠ [] :=
        fun hnil => htokens ((weekdays_eq_nil_iff hdays).mp hnil)
      rw [if_pos htokens, if_pos htokens', DateSet.mem_ofList, List.mem_flatMap]
      simp only [← DateSet.mem_def, Month.mem_ordinalWeekdayDates_iff]
      constructor
      · rintro ⟨day, hday, hdate, hweekday⟩
        exact ⟨hdate, day, hday, hweekday⟩
      · rintro ⟨hdate, day, hday, hweekday⟩
        exact ⟨day, hday, hdate, hweekday⟩
    · -- What is left is the number of the anchor's day.
      have htokens' : ¬ (rule.monthlyPattern interval days).weekdays ≠ [] :=
        fun hsome => htokens fun hnil => hsome ((weekdays_eq_nil_iff hdays).mpr hnil)
      rw [if_neg htokens, if_neg htokens', DateSet.mem_ofList, Option.mem_toList,
        Month.date?_eq_some_iff]

/-- **The days of a month when positions have been looked at.** -/
theorem mem_selectedDays_iff (hdays : rule.weekdays = .ok days)
    (hmonth : month.index < Date.last.month.index) :
    date ∈ (rule.monthlyPattern interval days).selectedDays anchor month ↔
      date.month = month ∧ rule.SelectsDay days anchor date := by
  unfold MonthlyPattern.selectedDays SelectsDay
  by_cases hpositions : rule.bySetPos = []
  · -- Without positions all days that are chosen are selected.
    have hnone : (rule.monthlyPattern interval days).positions = [] := hpositions
    rw [if_pos hnone, if_pos hpositions]
    exact mem_daysOfMonth_iff hdays hmonth
  · -- Positions count among the days of the month that are chosen.
    have hsome : ¬ (rule.monthlyPattern interval days).positions = [] := hpositions
    rw [if_neg hsome, if_neg hpositions,
      DateSet.mem_select_month_iff fun _ => mem_daysOfMonth_iff hdays hmonth]
    apply and_congr_right
    intro _
    constructor
    · rintro ⟨_, hmem, hstands⟩
      obtain ⟨position, hposition, rfl⟩ := List.mem_map.mp hmem
      exact ⟨position, hposition, hstands⟩
    · rintro ⟨position, hposition, hstands⟩
      exact ⟨position.toInt, List.mem_map_of_mem hposition, hstands⟩

/-! ## §3 The dates of all months -/

theorem mem_datesOfMonth_iff (hdays : rule.weekdays = .ok days)
    (hmonth : month.index < Date.last.month.index) :
    date ∈ (rule.monthlyPattern interval days).datesOfMonth anchor month.index ↔
      date.month = month ∧ rule.AllowsMonth date ∧ rule.SelectsDay days anchor date := by
  rw [MonthlyPattern.mem_datesOfMonth_iff, mem_selectedDays_iff hdays hmonth, ← isIn_byMonth_iff]
  -- The months are those of the rule, and a date is asked about its own.
  show month.isIn rule.byMonth = true ∧ _ ↔ _
  constructor
  · rintro ⟨hallowed, rfl, hselects⟩
    exact ⟨rfl, hallowed, hselects⟩
  · rintro ⟨rfl, hallowed, hselects⟩
    exact ⟨hallowed, rfl, hselects⟩

/-- **The dates of a monthly pattern** before the calendar's last month are those in an allowed
month that the rule selects there, where that month lies a multiple of the interval after that of
the anchor. -/
theorem mem_monthlyCycle_iff (hdays : rule.weekdays = .ok days) (hle : anchor ≤ date)
    (hlast : date.month.index < Date.last.month.index) :
    date ∈ ((rule.monthlyPattern interval days).cycle anchor Date.last).dates ↔
      rule.AllowsMonth date ∧ rule.SelectsDay days anchor date ∧
        interval.value ∣ anchor.monthsTo date := by
  rw [MonthlyPattern.mem_cycle_iff hle, mem_datesOfMonth_iff hdays hlast, eq_self, true_and,
    and_assoc, Date.monthsTo_eq]
  rfl

/-! ## §4 Monthly rules -/

theorem ofRule_monthly (hrule : rule.IsEndless .monthly days) :
    Pattern.ofRule rule = .ok (.monthly (rule.monthlyPattern hrule.toInterval days)) := by
  rw [hrule.ofRule_eq]
  simp [Pattern.ofFrequency, hrule.frequency_eq, monthlyPattern]

/-- A date before the first day of the calendar's last month lies in an earlier month. -/
theorem month_index_lt_last {last : Date} (hle : date ≤ last)
    (hlast : last < Date.ofParts 262142 12 1) : date.month.index < Date.last.month.index := by
  have hfirst : Date.last.month.firstDay = (Date.ofParts 262142 12 1).dayNumber := by decide
  rw [Date.le_def] at hle
  rw [Date.lt_def] at hlast
  apply Date.month_index_lt
  omega

/-- **The dates of a monthly rule.** A monthly rule without end answers, up to the last day of
November of the calendar's last year, with exactly those dates of the window that lie in an allowed
month a multiple of the interval after the anchor's, and that the rule selects among the days of
their month. -/
theorem monthly_occurrences (options : Options) (window : Window)
    (hrule : rule.IsEndless .monthly days) (hlast : window.last < Date.ofParts 262142 12 1) :
    ∃ dates : List Date,
      Date.Enumerates dates (fun date =>
        max anchor window.first ≤ date ∧ date ≤ window.last ∧
          rule.AllowsMonth date ∧ rule.SelectsDay days anchor date ∧
            rule.interval.toInt ∣ anchor.monthsTo date) ∧
      rule.occurrences options (some anchor) window
        = .ok (dates.take options.maxOccurrences.toNat) := by
  have hmem : ∀ date : Date, anchor ≤ date → date ≤ window.last →
      (date ∈ ((rule.monthlyPattern hrule.toInterval days).cycle anchor Date.last).dates ↔
        rule.AllowsMonth date ∧ rule.SelectsDay days anchor date ∧
          rule.interval.toInt ∣ anchor.monthsTo date) := by
    -- The window ends before the last month, so every date of it lies in an earlier one.
    intro date hle hle'
    exact mem_monthlyCycle_iff hrule.weekdays_eq hle (month_index_lt_last hle' hlast)
  exact hrule.exists_listing (ofRule_monthly hrule) hmem

/-- The last day but one among the Mondays, the second Friday and the last Friday of every third
month, in spring and autumn. -/
def lastButOne : Rule :=
  { every .monthly with
    interval := 3
    byDay := ["MO", "2FR", "-1FR"]
    bySetPos := [-2]
    byMonth := [4, 10] }

theorem monthly_occurrences_lastButOne :
    lastButOne.IsEndless .monthly [.every .monday, .nth 2 .friday, .nth (-1) .friday] ∧
      Date.ofParts 2027 12 31 < Date.ofParts 262142 12 1 ∧
      ∃ dates : List Date,
        Date.Enumerates dates (fun date =>
          max (.ofParts 2024 1 31) (.ofParts 2024 4 1) ≤ date ∧ date ≤ .ofParts 2027 12 31 ∧
            lastButOne.AllowsMonth date ∧
              lastButOne.SelectsDay [.every .monday, .nth 2 .friday, .nth (-1) .friday]
                (.ofParts 2024 1 31) date ∧
                3 ∣ (Date.ofParts 2024 1 31).monthsTo date) ∧
        lastButOne.occurrences {} (some (.ofParts 2024 1 31))
          ⟨.ofParts 2024 4 1, .ofParts 2027 12 31⟩ = .ok (dates.take 1000) := by
  have hrule : lastButOne.IsEndless .monthly [.every .monday, .nth 2 .friday, .nth (-1) .friday] :=
    ⟨rfl, by decide, by decide, rfl, rfl, rfl, rfl, rfl⟩
  have hlast : Date.ofParts 2027 12 31 < Date.ofParts 262142 12 1 := by decide
  obtain ⟨dates, hlisting, hanswer⟩ :=
    monthly_occurrences {} ⟨.ofParts 2024 4 1, .ofParts 2027 12 31⟩ hrule hlast
  exact ⟨hrule, hlast, dates, hlisting, hanswer⟩

end Rule

end RecurringDates
