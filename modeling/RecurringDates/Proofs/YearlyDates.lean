import RecurringDates.Proofs.CalendarMonths
import RecurringDates.Proofs.DailyDates

/-!
# The dates of yearly rules

A yearly rule steps from the anchor's year by whole years and chooses days in the months that it
names. Where it leaves the day to its anchor, it repeats the number of the anchor's day, with
February 28 in place of a February 29 that a common year does not have. So a rule that leaves both
month and day to its anchor has one date in every year that it comes to.

The main statement is `Rule.yearly_occurrences`. It rests on
`YearlyPattern.anchorDayIn?_month_eq_some_iff` (which dates stand for the anchor's day) and on
`Date.exists_anniversary` (every year has one).
-/

namespace RecurringDates

/-! ## §1 The anchor's day in other months -/

namespace Date

variable {anchor date : Date}

/-- A date stands for the day of an anchor: it has the same number in its month, or it is the
February 28 of a common year and the anchor is a February 29. -/
def RepeatsDay (anchor date : Date) : Prop :=
  date.day = anchor.day ∨
    ((anchor.month.number = 2 ∧ anchor.day = 29) ∧ ¬ Year.IsLeap date.year ∧
      date.month.number = 2 ∧ date.day = 28)

theorem length_february (hfebruary : date.month.number = 2) :
    date.month.length = 28 + Year.leapDay date.year :=
  if_pos hfebruary

theorem length_february_of_common (hfebruary : date.month.number = 2)
    (hcommon : ¬ Year.IsLeap date.year) : date.month.length = 28 := by
  rw [length_february hfebruary, Year.leapDay, if_neg hcommon, Int.add_zero]

/-- A date that stands for the anchor's day is on it, or on the last day of a shorter month. -/
theorem RepeatsDay.day_eq_min (h : anchor.RepeatsDay date) :
    date.day = min anchor.day date.month.length := by
  have hle := date.day_le
  -- A common February is the only month that is too short.
  rcases h with hsame | ⟨⟨_, hleap⟩, hcommon, hfebruary, hday⟩
  · omega
  · have hlength := length_february_of_common hfebruary hcommon
    omega

/-- The anchor's day is missing in a month of the calendar only if it is past its end. -/
theorem date?_month_eq_none_iff (date : Date) :
    date.month.date? anchor.day = none ↔ date.month.length < anchor.day := by
  have hpos := anchor.day_pos
  have hexists := Month.exists_date?_iff (Month.isSome_start?_month date) anchor.day
  rw [Option.eq_none_iff_forall_ne_some, ← not_exists, hexists]
  omega

end Date

/-- **The day that stands for the anchor's** in the month of a date. -/
theorem YearlyPattern.anchorDayIn?_month_eq_some_iff {anchor date : Date} :
    anchorDayIn? anchor date.month = some date ↔ anchor.RepeatsDay date := by
  unfold anchorDayIn?
  cases hown : date.month.date? anchor.day with
  | some other =>
    -- The month has the anchor's day, so nothing takes its place.
    obtain ⟨hmonth, hday⟩ := Month.date?_eq_some_iff.mp hown
    have hle := other.day_le
    rw [hmonth, hday] at hle
    simp only [Option.some.injEq]
    constructor
    · rintro rfl
      exact Or.inl hday
    · intro hrepeats
      have hsame : date.day = anchor.day := by
        rw [hrepeats.day_eq_min]
        omega
      rw [← hsame, Month.date?_month_day, Option.some.injEq] at hown
      exact hown.symm
  | none =>
    -- The month ends before the anchor's day, so only February 28 can stand for it.
    have hlong := (Date.date?_month_eq_none_iff date).mp hown
    have hle := date.day_le
    simp only [isLeapDay_iff, Date.RepeatsDay]
    constructor
    · intro hfound
      split at hfound
      · rename_i hleap
        obtain ⟨_, hday⟩ := Month.date?_eq_some_iff.mp hfound
        refine Or.inr ⟨hleap.1, fun hyear => ?_, hleap.2, hday⟩
        -- A leap February would have the anchor's day.
        have hlength := Date.length_february hleap.2
        rw [Year.leapDay, if_pos hyear] at hlength
        omega
      · cases hfound
    · rintro (hsame | ⟨hleap, _, hfebruary, hday⟩)
      · omega
      · rw [if_pos ⟨hleap, hfebruary⟩, Month.date?_eq_some_iff]
        exact ⟨rfl, hday⟩

/-! ## §2 One date in every year -/

namespace Date

variable {anchor date other : Date}

/-- A month is known by its year and its number. -/
theorem month_eq_of_year_eq (hyear : date.year = other.year)
    (hnumber : date.month.number = other.month.number) : date.month = other.month := by
  rw [← Month.ofYear_year_number date.month, ← Month.ofYear_year_number other.month, hnumber]
  exact congrArg (Month.ofYear · _) hyear

/-- Two dates of one month that stand for the same day are the same. -/
theorem RepeatsDay.unique (hdate : anchor.RepeatsDay date) (hother : anchor.RepeatsDay other)
    (hmonth : date.month = other.month) : date = other := by
  have hday : date.day = other.day := by
    rw [hdate.day_eq_min, hother.day_eq_min, hmonth]
  have hfound := Month.date?_month_day date
  rw [hmonth, hday, Month.date?_month_day, Option.some.injEq] at hfound
  exact hfound.symm

/-- A month has the anchor's day in every year, but for a February 29 in a common one. -/
theorem day_le_length_ofYear_or (anchor : Date) (year : Int) :
    anchor.day ≤ (Month.ofYear year anchor.month.number).length ∨
      (anchor.month.number = 2 ∧ anchor.day = 29 ∧ ¬ Year.IsLeap year) := by
  have hlow := anchor.month.number_pos
  have hhigh := anchor.month.number_le
  have hle := anchor.day_le
  have hnumber := Month.number_ofYear year hlow hhigh
  have hyear := Month.year_ofYear year hlow hhigh
  by_cases hfebruary : anchor.month.number = 2
  · -- A February has 28 days or 29, and no anchor lies past that.
    have hlength : (Month.ofYear year anchor.month.number).length = 28 + Year.leapDay year := by
      rw [Month.length, hnumber, if_pos hfebruary, hyear]
    have hshort : anchor.day ≤ 29 := by
      rw [length_february hfebruary, Year.leapDay] at hle
      split at hle <;> omega
    rw [hlength, Year.leapDay]
    split
    · exact Or.inl (by omega)
    · rename_i hcommon
      rcases Int.lt_or_eq_of_le hshort with hlt | hleap
      · exact Or.inl (by omega)
      · exact Or.inr ⟨hfebruary, hleap, hcommon⟩
  · -- Any other month is as long in every year.
    have hlength : (Month.ofYear year anchor.month.number).length = anchor.month.length := by
      rw [Month.length, Month.length, hnumber, if_neg hfebruary, if_neg hfebruary]
    omega

/-- **Every year of the calendar has a date that stands for the anchor**, in the anchor's month. -/
theorem exists_anniversary (anchor : Date) {year : Int} (hfirst : Calendar.firstYear ≤ year)
    (hlast : year ≤ Calendar.lastYear) :
    ∃ date : Date, date.year = year ∧ date.month.number = anchor.month.number ∧
      anchor.RepeatsDay date := by
  have hlow := anchor.month.number_pos
  have hhigh := anchor.month.number_le
  have hpos := anchor.day_pos
  have hnumber := Month.number_ofYear year hlow hhigh
  have hyear := Month.year_ofYear year hlow hhigh
  -- The month lies between the first and the last one of the calendar.
  have hstart : (Month.ofYear year anchor.month.number).start?.isSome = true := by
    rw [Month.isSome_start?_iff]
    have hbegins : first.month.index = 12 * Calendar.firstYear := by decide
    have hends : last.month.index = 12 * Calendar.lastYear + 11 := by decide
    simp only [Month.ofYear]
    omega
  have hdate : ∀ day, 1 ≤ day → day ≤ (Month.ofYear year anchor.month.number).length →
      ∃ date : Date, date.year = year ∧ date.month.number = anchor.month.number ∧
        date.day = day := by
    intro day hday hle
    obtain ⟨date, hfound⟩ := (Month.exists_date?_iff hstart day).mpr ⟨hday, hle⟩
    obtain ⟨hmonth, hsame⟩ := Month.date?_eq_some_iff.mp hfound
    exact ⟨date, by rw [Date.year, hmonth, hyear], by rw [hmonth, hnumber], hsame⟩
  -- The month has the day itself, or else its day 28.
  rcases anchor.day_le_length_ofYear_or year with hle | ⟨hfebruary, hleap, hcommon⟩
  · obtain ⟨date, hsame, hmonth, hday⟩ := hdate anchor.day hpos hle
    exact ⟨date, hsame, hmonth, Or.inl hday⟩
  · obtain ⟨date, hsame, hmonth, hday⟩ := hdate 28 (by omega) (Month.length_ge _)
    refine ⟨date, hsame, hmonth, Or.inr ⟨⟨hfebruary, hleap⟩, ?_, ?_, hday⟩⟩
    · rwa [hsame]
    · rwa [hmonth]

end Date

/-! ## §3 Yearly rules -/

namespace Rule

variable {rule : Rule} {interval : Interval} {days : List OrdinalWeekday} {anchor date : Date}

/-- A date lies in a month that a yearly rule names, or in the anchor's month if it names none. -/
def AsksMonth (rule : Rule) (anchor date : Date) : Prop :=
  if rule.byMonth ≠ [] then ∃ n ∈ rule.byMonth, n.toInt = date.month.number
  else date.month.number = anchor.month.number

/-- A date is on a day of the month that a yearly rule names, or stands for the anchor's day if it
names none. -/
def AsksDay (rule : Rule) (anchor date : Date) : Prop :=
  if rule.byMonthDay ≠ [] then rule.NamesMonthDay date else anchor.RepeatsDay date

theorem mem_monthsFor_iff :
    date.month.number ∈ (rule.yearlyPattern interval).monthsFor anchor ↔
      rule.AsksMonth anchor date := by
  unfold AsksMonth
  by_cases hmonths : rule.byMonth ≠ []
  · rw [if_pos hmonths, mem_monthsFor_iff_of_ne_nil hmonths, AllowsMonth, or_iff_right hmonths]
  · -- The anchor's month is the only one.
    have hnone : (rule.yearlyPattern interval).months = [] := not_not.mp hmonths
    rw [if_neg hmonths, YearlyPattern.monthsFor, if_pos hnone, List.mem_singleton]

theorem mem_yearlyDays_iff (hmonth : date.month.index < Date.last.month.index) :
    date ∈ (rule.yearlyPattern interval).daysOfMonth anchor date.month ↔
      rule.AsksDay anchor date := by
  unfold AsksDay
  by_cases hnumbers : rule.byMonthDay ≠ []
  · rw [if_pos hnumbers, mem_yearlyDays_iff_of_ne_nil hnumbers, namesDay_iff hmonth]
  · -- The day is left to the anchor.
    have hnone : (rule.yearlyPattern interval).monthDays = [] := not_not.mp hnumbers
    rw [if_neg hnumbers, YearlyPattern.daysOfMonth, if_pos hnone, Option.mem_toList,
      YearlyPattern.anchorDayIn?_month_eq_some_iff]

theorem ofRule_yearly (hrule : rule.IsEndless .yearly days) (hpositions : rule.bySetPos = [])
    (hbyDay : rule.byDay = []) :
    Pattern.ofRule rule = .ok (.yearly (rule.yearlyPattern hrule.toInterval)) := by
  rw [hrule.ofRule_eq]
  simp [Pattern.ofFrequency, hrule.frequency_eq, Pattern.refuse, hpositions, hbyDay, yearlyPattern]

/-- The one date that a year has of a rule which leaves month and day to its anchor. -/
theorem exists_anniversary (hmonths : rule.byMonth = []) (hnumbers : rule.byMonthDay = [])
    (anchor : Date) {year : Int} (hfirst : anchor.year ≤ year) (hlast : year ≤ Calendar.lastYear) :
    ∃ date : Date, date.year = year ∧ anchor ≤ date ∧ ∀ other : Date, other.year = year →
      (rule.AsksMonth anchor other ∧ rule.AsksDay anchor other ↔ other = date) := by
  have hbegins : Date.first.year = Calendar.firstYear := by decide
  have hyears := Date.year_le anchor.first_le
  obtain ⟨date, hyear, hnumber, hday⟩ := anchor.exists_anniversary (by omega) hlast
  have hmonthly : ∀ other, rule.AsksMonth anchor other ↔
      other.month.number = anchor.month.number := by
    intro other
    rw [AsksMonth, if_neg (not_not_intro hmonths)]
  have hdaily : ∀ other, rule.AsksDay anchor other ↔ anchor.RepeatsDay other := by
    intro other
    rw [AsksDay, if_neg (not_not_intro hnumbers)]
  refine ⟨date, hyear, ?_, fun other hother => ?_⟩
  · rcases Int.lt_or_eq_of_le hfirst with hlater | hsame
    · -- A date before the anchor would lie in the anchor's year at the latest.
      refine Int.not_lt.mp fun hbefore => ?_
      have hle := Date.year_le (a := date) (b := anchor) (Int.le_of_lt hbefore)
      omega
    · -- In its own year the anchor stands for itself.
      have hmonth := Date.month_eq_of_year_eq (hsame.trans hyear.symm) hnumber.symm
      have heq : anchor = date := Date.RepeatsDay.unique (Or.inl rfl) hday hmonth
      rw [← heq]
      exact Int.le_refl _
  · rw [hmonthly, hdaily]
    constructor
    · rintro ⟨hmonth, hrepeats⟩
      exact hrepeats.unique hday
        (Date.month_eq_of_year_eq (hother.trans hyear.symm) (hmonth.trans hnumber.symm))
    · rintro rfl
      exact ⟨hnumber, hday⟩

/-- **The dates of a yearly rule.** A yearly rule without end answers, up to the last day of
November of the calendar's last year, with exactly those dates of the window that lie in an asked
month of a year a multiple of the interval after the anchor's, on an asked day. So if it names
neither months nor days, each such year of the calendar has one date, and the answer has of the year
that date alone, unless the window leaves it out. -/
theorem yearly_occurrences (options : Options) (window : Window)
    (hrule : rule.IsEndless .yearly days) (hpositions : rule.bySetPos = [])
    (hbyDay : rule.byDay = []) (hlast : window.last < Date.ofParts 262142 12 1) :
    ∃ dates : List Date,
      Date.Enumerates dates (fun date =>
        max anchor window.first ≤ date ∧ date ≤ window.last ∧
          rule.AsksMonth anchor date ∧ rule.AsksDay anchor date ∧
            rule.interval.toInt ∣ date.year - anchor.year) ∧
      rule.occurrences options (some anchor) window
        = .ok (dates.take options.maxOccurrences.toNat) ∧
      (rule.byMonth = [] → rule.byMonthDay = [] → ∀ year, anchor.year ≤ year →
        year ≤ Calendar.lastYear → rule.interval.toInt ∣ year - anchor.year →
        ∃ date : Date, date.year = year ∧ anchor ≤ date ∧ ∀ other : Date, other.year = year →
          (other ∈ dates ↔ other = date ∧ window.first ≤ date ∧ date ≤ window.last)) := by
  have hmem : ∀ date : Date, anchor ≤ date → date ≤ window.last →
      (date ∈ ((rule.yearlyPattern hrule.toInterval).cycle anchor Date.last).dates ↔
        rule.AsksMonth anchor date ∧ rule.AsksDay anchor date ∧
          rule.interval.toInt ∣ date.year - anchor.year) := by
    intro date hle hle'
    rw [mem_yearlyCycle_iff hle, mem_monthsFor_iff,
      mem_yearlyDays_iff (month_index_lt_last hle' hlast)]
    rfl
  obtain ⟨dates, hlisting, hanswer⟩ :=
    hrule.exists_listing (ofRule_yearly hrule hpositions hbyDay) hmem
  refine ⟨dates, hlisting, hanswer, ?_⟩
  -- A rule that names nothing has one date in the year, which the window holds or not.
  intro hmonths hnumbers year hfirst hbound hsteps
  obtain ⟨date, hyear, hle, honly⟩ := exists_anniversary hmonths hnumbers anchor hfirst hbound
  refine ⟨date, hyear, hle, fun other hother => ?_⟩
  have hwithin : max anchor window.first ≤ date ↔ window.first ≤ date := by
    rw [Date.le_def, Date.le_def, Date.dayNumber_max]
    rw [Date.le_def] at hle
    omega
  rw [hlisting.mem_iff, hother, ← and_assoc (a := rule.AsksMonth anchor other),
    honly other hother, and_iff_left hsteps]
  constructor
  · rintro ⟨hlower, hupper, rfl⟩
    exact ⟨rfl, hwithin.mp hlower, hupper⟩
  · rintro ⟨rfl, hlower, hupper⟩
    exact ⟨hwithin.mpr hlower, hupper, rfl⟩

/-- The anchor's date in every fourth year. -/
def everyFourYears : Rule :=
  { every .yearly with
    interval := 4 }

/-- A leap day every four years is a February 28 in 2100, which is a common year. -/
theorem yearly_occurrences_everyFourYears :
    everyFourYears.IsEndless .yearly [] ∧
      Date.ofParts 2110 12 31 < Date.ofParts 262142 12 1 ∧
      ∃ dates : List Date,
        Date.Enumerates dates (fun date =>
          max (.ofParts 2024 2 29) (.ofParts 2025 1 1) ≤ date ∧ date ≤ .ofParts 2110 12 31 ∧
            everyFourYears.AsksMonth (.ofParts 2024 2 29) date ∧
              everyFourYears.AsksDay (.ofParts 2024 2 29) date ∧
                4 ∣ date.year - (Date.ofParts 2024 2 29).year) ∧
        everyFourYears.occurrences {} (some (.ofParts 2024 2 29))
          ⟨.ofParts 2025 1 1, .ofParts 2110 12 31⟩ = .ok (dates.take 1000) ∧
        ∃ date : Date, date.year = 2100 ∧ Date.ofParts 2024 2 29 ≤ date ∧
          ∀ other : Date, other.year = 2100 →
            (other ∈ dates ↔ other = date ∧ .ofParts 2025 1 1 ≤ date ∧
              date ≤ .ofParts 2110 12 31) := by
  have hrule : everyFourYears.IsEndless .yearly [] :=
    ⟨rfl, by decide, by decide, rfl, rfl, rfl, rfl, rfl⟩
  have hlast : Date.ofParts 2110 12 31 < Date.ofParts 262142 12 1 := by decide
  obtain ⟨dates, hlisting, hanswer, hyears⟩ :=
    yearly_occurrences {} ⟨.ofParts 2025 1 1, .ofParts 2110 12 31⟩ hrule rfl rfl hlast
  exact ⟨hrule, hlast, dates, hlisting, hanswer,
    hyears rfl rfl 2100 (by decide) (by decide) (by decide)⟩

end Rule

end RecurringDates
