import RecurringDates.Proofs.Horizon

/-!
# Rules without end

A rule without a count and a last date has no end of its own: its answer is whatever its pattern has
in the window. For such rules the dates can be told by a property of each date alone.

The main statement is `Rule.IsEndless.exists_listing`: if membership in the pattern is a property of
the date, the answer lists the dates of the window with that property.
-/

namespace RecurringDates

/-! ## §1 Sound rules without end -/

/-- A rule whose interval is in range and whose tokens stand for ordinal weekdays passes all checks
but those of its frequency, if it has no part that every frequency refuses. -/
theorem Pattern.ofRule_eq_ofFrequency {rule : Rule} {interval : Interval}
    {days : List OrdinalWeekday} (hinterval : interval.value = rule.interval.toInt)
    (hdays : rule.weekdays = .ok days) (hyearDays : rule.byYearDay = [])
    (hweeks : rule.byWeekNo = []) : ofRule rule = ofFrequency rule interval days := by
  have hfound := Interval.ofInt?_eq_some_iff.mpr hinterval
  unfold ofRule refuse
  simp [hfound, hdays, hyearDays, hweeks]

/-- A rule of a frequency without count and last date, whose interval is in range, whose weekday
tokens stand for ordinal weekdays, and which has no part that every frequency refuses. -/
structure Rule.IsEndless (rule : Rule) (frequency : Frequency) (days : List OrdinalWeekday) :
    Prop where
  frequency_eq : rule.frequency = frequency
  interval_pos : 0 < rule.interval.toInt
  interval_lt : rule.interval.toInt < 4294967296
  weekdays_eq : rule.weekdays = .ok days
  count_eq : rule.count = none
  untilDate_eq : rule.untilDate = none
  byYearDay_eq : rule.byYearDay = []
  byWeekNo_eq : rule.byWeekNo = []

namespace Rule

variable {rule : Rule} {frequency : Frequency} {days : List OrdinalWeekday}

/-- Tokens that all stand for ordinal weekdays stand for none only if there are none. -/
theorem weekdays_eq_nil_iff (hdays : rule.weekdays = .ok days) : days = [] ↔ rule.byDay = [] := by
  unfold weekdays at hdays
  cases htokens : rule.byDay with
  | nil =>
    rw [htokens] at hdays
    cases hdays
    simp
  | cons token rest =>
    -- Reading fails or gives one weekday for each token.
    rw [htokens] at hdays
    unfold OrdinalWeekday.readAll at hdays
    split at hdays
    · cases hdays
    · split at hdays
      · cases hdays
      · cases hdays
        simp

/-- The month of a date is among the months of a rule, or the rule names none. -/
def AllowsMonth (rule : Rule) (date : Date) : Prop :=
  rule.byMonth = [] ∨ ∃ n ∈ rule.byMonth, n.toInt = date.month.number

theorem isIn_byMonth_iff {date : Date} :
    date.month.isIn rule.byMonth = true ↔ rule.AllowsMonth date := by
  simp [Month.isIn, AllowsMonth]

namespace IsEndless

/-- The interval of a rule, which is in range. -/
def toInterval (hrule : rule.IsEndless frequency days) : Interval :=
  ⟨rule.interval.toInt, hrule.interval_pos, hrule.interval_lt⟩

/-- The checks that all frequencies share pass, and only those of the frequency are left. -/
theorem ofRule_eq (hrule : rule.IsEndless frequency days) :
    Pattern.ofRule rule = Pattern.ofFrequency rule hrule.toInterval days :=
  Pattern.ofRule_eq_ofFrequency rfl hrule.weekdays_eq hrule.byYearDay_eq hrule.byWeekNo_eq

variable {options : Options} {anchor : Date} {window : Window} {pattern : Pattern}

/-- A rule without end answers with the dates of its pattern in the window. -/
theorem occurrences_eq (hrule : rule.IsEndless frequency days)
    (hpattern : Pattern.ofRule rule = .ok pattern) :
    rule.occurrences options (some anchor) window
      = .ok ((window.clip anchor (pattern.datesFrom anchor)).take
          options.maxOccurrences.toNat) := by
  have hlimits : Series.limitsOf rule = .ok ⟨none, none⟩ := by
    simp [Series.limitsOf, hrule.count_eq, hrule.untilDate_eq]
  have hseries : Series.ofRule rule anchor = .ok ⟨anchor, pattern, ⟨none, none⟩⟩ :=
    ofRule_eq_ok_iff.mpr ⟨_, pattern, hlimits, hpattern, rfl⟩
  rw [occurrences_of_series hseries, dates_last_eq hlimits]
  simp only [untilCut, countCut, hrule.count_eq, hrule.untilDate_eq]

/-- **A rule without end answers with the dates that have its property**, if its pattern has exactly
these in the window. -/
theorem exists_listing {property : Date → Prop} (hrule : rule.IsEndless frequency days)
    (hpattern : Pattern.ofRule rule = .ok pattern)
    (hmem : ∀ date, anchor ≤ date → date ≤ window.last →
      (date ∈ (pattern.cycle anchor Date.last).dates ↔ property date)) :
    ∃ dates : List Date,
      Date.Enumerates dates (fun date =>
        max anchor window.first ≤ date ∧ date ≤ window.last ∧ property date) ∧
      rule.occurrences options (some anchor) window
        = .ok (dates.take options.maxOccurrences.toNat) := by
  have hasc := pattern.pairwise_datesFrom anchor
  refine ⟨_, ⟨hasc.filter _, fun date => ?_⟩, hrule.occurrences_eq hpattern⟩
  rw [← Window.clip, Window.mem_clip_iff, Pattern.datesFrom, List.mem_filter, decide_eq_true_eq]
  constructor
  · -- Each date of the pattern in the window has the property.
    rintro ⟨⟨hcycle, hanchor⟩, hfirst, hlast⟩
    exact ⟨hfirst, hlast, (hmem date hanchor hlast).mp hcycle⟩
  · rintro ⟨hfirst, hlast, hproperty⟩
    -- The window starts at the anchor at the earliest.
    have hanchor : anchor ≤ date := by
      rw [Date.le_def, Date.dayNumber_max] at *
      omega
    exact ⟨⟨(hmem date hanchor hlast).mpr hproperty, hanchor⟩, hfirst, hlast⟩

end IsEndless

end Rule

end RecurringDates
