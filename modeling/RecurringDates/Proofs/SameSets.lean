import RecurringDates.Proofs.Endless
import RecurringDates.Proofs.Faults

/-!
# Lists of a rule as sets

A rule names its months, its days, its positions and its weekdays in lists, and a weekday may be
spelled in several ways. None of this can be seen in the dates: neither the order of a list nor how
often it says the same, and of a token only the weekday that it stands for.

The main statement is `Rule.occurrences_eq_of_sameSets`, assembled from one statement for each kind
of pattern (`DailyPattern.cycle_congr` and so on): patterns with the same sets have the same periods
with the same dates.
-/

namespace RecurringDates

/-! ## §1 Lists with the same members -/

/-- Two lists have the same members, in whatever order and however often. -/
def SameMembers {α : Type} (xs ys : List α) : Prop :=
  ∀ x, x ∈ xs ↔ x ∈ ys

namespace SameMembers

variable {α β : Type} {xs ys : List α}

theorem iff_subset : SameMembers xs ys ↔ (∀ x ∈ xs, x ∈ ys) ∧ ∀ x ∈ ys, x ∈ xs := by
  constructor
  · intro h
    exact ⟨fun x => (h x).mp, fun x => (h x).mpr⟩
  · intro h x
    exact ⟨h.1 x, h.2 x⟩

instance [DecidableEq α] (xs ys : List α) : Decidable (SameMembers xs ys) :=
  decidable_of_iff _ iff_subset.symm

theorem eq_nil_iff (h : SameMembers xs ys) : xs = [] ↔ ys = [] := by
  simp only [List.eq_nil_iff_forall_not_mem, h _]

theorem isEmpty_eq (h : SameMembers xs ys) : xs.isEmpty = ys.isEmpty := by
  rw [Bool.eq_iff_iff, List.isEmpty_iff, List.isEmpty_iff, h.eq_nil_iff]

theorem any_eq (h : SameMembers xs ys) (test : α → Bool) : xs.any test = ys.any test := by
  rw [Bool.eq_iff_iff, List.any_eq_true, List.any_eq_true]
  simp only [h _]

theorem contains_eq [BEq α] (h : SameMembers xs ys) (x : α) : xs.contains x = ys.contains x := by
  rw [List.contains_eq_any_beq, List.contains_eq_any_beq, h.any_eq]

theorem map (h : SameMembers xs ys) (f : α → β) : SameMembers (xs.map f) (ys.map f) := by
  intro y
  simp only [List.mem_map, h _]

theorem filterMap (h : SameMembers xs ys) (f : α → Option β) :
    SameMembers (xs.filterMap f) (ys.filterMap f) := by
  intro y
  simp only [List.mem_filterMap, h _]

/-- Lists whose members become lists with the same members each. -/
theorem flatMap {f g : α → List β} (h : SameMembers xs ys)
    (hsame : ∀ x, SameMembers (f x) (g x)) :
    SameMembers (xs.flatMap f) (ys.flatMap g) := by
  intro y
  simp only [List.mem_flatMap, h _, hsame _ y]

/-- Whether something else takes the place of a list depends on the list being empty only. -/
theorem ite_nil {instead given given' : List β} [Decidable (xs = [])] [Decidable (ys = [])]
    (h : SameMembers xs ys) (hgiven : SameMembers given given') :
    SameMembers (if xs = [] then instead else given) (if ys = [] then instead else given') := by
  intro y
  simp only [h.eq_nil_iff]
  split
  · rfl
  · exact hgiven y

end SameMembers

/-- A set of dates does not tell the list that it was made of. -/
theorem DateSet.ofList_congr {dates dates' : List Date} (h : SameMembers dates dates') :
    ofList dates = ofList dates' := by
  apply DateSet.ext
  intro date
  rw [mem_ofList, mem_ofList, h]

theorem DateSet.select_congr {positions positions' : List Int}
    (h : SameMembers positions positions') (dates : DateSet) :
    dates.select positions = dates.select positions' :=
  ofList_congr (h.filterMap _)

theorem Month.isIn_congr {numbers numbers' : List Int32} (h : SameMembers numbers numbers')
    (month : Month) : month.isIn numbers = month.isIn numbers' := by
  rw [isIn, isIn, h.isEmpty_eq, h.any_eq]

/-! ## §2 Patterns with the same sets -/

section Patterns

variable {interval : Interval} {monthDays monthDays' months months' : List Int32}

/-- Daily patterns only ask whether something is in a list. -/
theorem DailyPattern.cycle_congr {weekdays weekdays' : List Weekday}
    (hweekdays : SameMembers weekdays weekdays') (hmonthDays : SameMembers monthDays monthDays')
    (hmonths : SameMembers months months') :
    cycle ⟨interval, weekdays, monthDays, months⟩
      = cycle ⟨interval, weekdays', monthDays', months'⟩ := by
  have haccepts : accepts ⟨interval, weekdays, monthDays, months⟩
      = accepts ⟨interval, weekdays', monthDays', months'⟩ := by
    funext date
    simp only [accepts, hweekdays.isEmpty_eq, hweekdays.contains_eq, hmonthDays.isEmpty_eq,
      hmonthDays.any_eq, Month.isIn_congr hmonths]
  have hdates : datesOfDay ⟨interval, weekdays, monthDays, months⟩
      = datesOfDay ⟨interval, weekdays', monthDays', months'⟩ := by
    funext day
    rw [datesOfDay, datesOfDay, haccepts]
  funext anchor horizon
  simp only [cycle, hdates]

/-- Weekly patterns look at each day of a week once, in the order of the week. -/
theorem WeeklyPattern.cycle_congr {weekStart : Weekday} {weekdays weekdays' : List Weekday}
    (hweekdays : SameMembers weekdays weekdays') (hmonths : SameMembers months months') :
    cycle ⟨interval, weekStart, weekdays, months⟩
      = cycle ⟨interval, weekStart, weekdays', months'⟩ := by
  -- Without weekdays of its own a pattern takes that of the anchor, whatever the other lists.
  have hweekdaysFor : ∀ anchor,
      SameMembers (weekdaysFor ⟨interval, weekStart, weekdays, months⟩ anchor)
        (weekdaysFor ⟨interval, weekStart, weekdays', months'⟩ anchor) :=
    fun anchor => hweekdays.ite_nil hweekdays
  have hdates : datesOfWeek ⟨interval, weekStart, weekdays, months⟩
      = datesOfWeek ⟨interval, weekStart, weekdays', months'⟩ := by
    funext anchor week
    simp only [datesOfWeek, offsets, (hweekdaysFor anchor).any_eq, Month.isIn_congr hmonths]
  funext anchor horizon
  simp only [cycle, stride, offsetOf, hdates]

/-- Monthly patterns collect the days of a month in a set before they look at positions. -/
theorem MonthlyPattern.cycle_congr {weekdays weekdays' : List OrdinalWeekday}
    {positions positions' : List Int32} (hweekdays : SameMembers weekdays weekdays')
    (hmonthDays : SameMembers monthDays monthDays') (hpositions : SameMembers positions positions')
    (hmonths : SameMembers months months') :
    cycle ⟨interval, weekdays, monthDays, positions, months⟩
      = cycle ⟨interval, weekdays', monthDays', positions', months'⟩ := by
  -- What positions count is the set of the days chosen, and so they may be looked at last.
  have hdays : daysOfMonth ⟨interval, weekdays, monthDays, positions, months⟩
      = daysOfMonth ⟨interval, weekdays', monthDays', positions', months'⟩ := by
    funext anchor month
    simp only [daysOfMonth, Ne, hmonthDays.eq_nil_iff, hweekdays.eq_nil_iff,
      DateSet.ofList_congr (hmonthDays.filterMap _),
      DateSet.ofList_congr (hweekdays.flatMap fun _ _ => Iff.rfl)]
  have hdates : datesOfMonth ⟨interval, weekdays, monthDays, positions, months⟩
      = datesOfMonth ⟨interval, weekdays', monthDays', positions', months'⟩ := by
    funext anchor index
    simp only [datesOfMonth, selectedDays, hdays, hpositions.eq_nil_iff,
      DateSet.select_congr (hpositions.map _), Month.isIn_congr hmonths]
  funext anchor horizon
  simp only [cycle, hdates]

/-- Yearly patterns collect the days of a year in a set. -/
theorem YearlyPattern.cycle_congr (hmonthDays : SameMembers monthDays monthDays')
    (hmonths : SameMembers months months') :
    cycle ⟨interval, monthDays, months⟩ = cycle ⟨interval, monthDays', months'⟩ := by
  -- Months and days that are left out are taken from the anchor alike.
  have hmonthsFor : ∀ anchor, SameMembers (monthsFor ⟨interval, monthDays, months⟩ anchor)
      (monthsFor ⟨interval, monthDays', months'⟩ anchor) :=
    fun anchor => hmonths.ite_nil (hmonths.map Int32.toInt)
  have hdays : ∀ anchor month,
      SameMembers (daysOfMonth ⟨interval, monthDays, months⟩ anchor month)
        (daysOfMonth ⟨interval, monthDays', months'⟩ anchor month) :=
    fun anchor month => hmonthDays.ite_nil (hmonthDays.filterMap _)
  have hdates : datesOfYear ⟨interval, monthDays, months⟩
      = datesOfYear ⟨interval, monthDays', months'⟩ := by
    funext anchor year
    have hmonthsOfYear := (hmonthsFor anchor).filterMap (Month.ofNumber? year)
    rw [datesOfYear, datesOfYear, DateSet.ofList_congr (hmonthsOfYear.flatMap (hdays anchor))]
  funext anchor horizon
  simp only [cycle, hdates]

end Patterns

/-- A query sees no more of a pattern than its periods. -/
theorem Series.inWindow_congr {anchor : Date} {pattern pattern' : Pattern} {limits : Limits}
    (hcycle : pattern.cycle = pattern'.cycle) (window : Window) (cap : Nat) :
    inWindow ⟨anchor, pattern, limits⟩ window cap
      = inWindow ⟨anchor, pattern', limits⟩ window cap := by
  simp only [inWindow, cycle, hcycle, lower, horizon]

/-- Nor does it see more of a rule than its limits and its periods. -/
theorem Rule.occurrences_congr {rule other : Rule}
    (hlimits : Series.limitsOf rule = Series.limitsOf other)
    (hcycle : (Pattern.ofRule rule).map Pattern.cycle = (Pattern.ofRule other).map Pattern.cycle)
    (options : Options) (anchor : Option Date) (window : Window) :
    rule.occurrences options anchor window = other.occurrences options anchor window := by
  cases anchor with
  | none => rfl
  | some anchor =>
    simp only [occurrences, Series.ofRule, hlimits]
    cases Series.limitsOf other with
    | error cause => rfl
    | ok limits =>
      -- Both rules have a pattern or both are refused one, or else the two sides would differ.
      cases hrule : Pattern.ofRule rule with
      | error cause =>
        rw [hrule] at hcycle
        cases hother : Pattern.ofRule other with
        | error cause' =>
          rw [hother] at hcycle
          cases hcycle
          rfl
        | ok pattern' =>
          rw [hother] at hcycle
          cases hcycle
      | ok pattern =>
        rw [hrule] at hcycle
        cases hother : Pattern.ofRule other with
        | error cause' =>
          rw [hother] at hcycle
          cases hcycle
        | ok pattern' =>
          rw [hother] at hcycle
          have hperiods := Except.ok.inj hcycle
          exact congrArg Except.ok (Series.inWindow_congr hperiods window _)

/-! ## §3 Rules with the same sets -/

theorem OrdinalWeekday.readAll_eq_ok_iff {tokens : List String} {days : List OrdinalWeekday} :
    readAll tokens = .ok days ↔ tokens.map read = days.map .ok := by
  induction tokens generalizing days with
  | nil =>
    cases days <;> simp [readAll]
  | cons token tokens ih =>
    rw [readAll]
    cases days with
    | nil =>
      cases read token with
      | error fault => simp
      | ok day => cases readAll tokens <;> simp
    | cons first later =>
      -- Both the first token and the later ones must be read as told.
      rw [List.map_cons, List.map_cons, List.cons.injEq, ← ih]
      cases read token with
      | error fault => simp
      | ok day => cases readAll tokens <;> simp

/-- Tokens that can be read one by one can be read together. -/
theorem OrdinalWeekday.exists_readAll {tokens : List String}
    (hreadable : ∀ token ∈ tokens, (read token).isOk = true) :
    ∃ days, readAll tokens = .ok days := by
  cases hread : readAll tokens with
  | ok days => exact ⟨days, rfl⟩
  | error cause =>
    -- The token at fault could not be read alone either.
    obtain ⟨token, hmem, hfails⟩ := (readAll_eq_error_iff.mp hread).exists_mem
    have hok := hreadable token hmem
    rw [read_eq_error_iff.mpr hfails] at hok
    cases hok

namespace Rule

/-- A rule names an ordinal weekday if one of its tokens stands for it. -/
def Names (rule : Rule) (day : OrdinalWeekday) : Prop :=
  ∃ token ∈ rule.byDay, OrdinalWeekday.read token = .ok day

theorem names_iff {rule : Rule} {days : List OrdinalWeekday} (hdays : rule.weekdays = .ok days)
    (day : OrdinalWeekday) : rule.Names day ↔ day ∈ days := by
  rw [Names, ← List.mem_map, OrdinalWeekday.readAll_eq_ok_iff.mp hdays]
  simp

/-- Two rules agree in everything that is no list, and their lists have the same members. Of the
tokens, which must all stand for ordinal weekdays, that is said of the weekdays. -/
structure SameSets (rule other : Rule) : Prop where
  frequency_eq : rule.frequency = other.frequency
  interval_eq : rule.interval = other.interval
  count_eq : rule.count = other.count
  untilDate_eq : rule.untilDate = other.untilDate
  weekStart_eq : rule.weekStart = other.weekStart
  readable : ∀ token ∈ rule.byDay ++ other.byDay, (OrdinalWeekday.read token).isOk = true
  names_iff : ∀ day, rule.Names day ↔ other.Names day
  byMonthDay : SameMembers rule.byMonthDay other.byMonthDay
  byYearDay : SameMembers rule.byYearDay other.byYearDay
  byWeekNo : SameMembers rule.byWeekNo other.byWeekNo
  byMonth : SameMembers rule.byMonth other.byMonth
  bySetPos : SameMembers rule.bySetPos other.bySetPos

namespace SameSets

variable {rule other : Rule}

/-- The tokens of both rules stand for ordinal weekdays, and these are the same. -/
theorem exists_weekdays (h : rule.SameSets other) :
    ∃ days days', rule.weekdays = .ok days ∧ other.weekdays = .ok days' ∧
      SameMembers days days' := by
  obtain ⟨hreadable, hreadable'⟩ := List.forall_mem_append.mp h.readable
  obtain ⟨days, hdays⟩ := OrdinalWeekday.exists_readAll hreadable
  obtain ⟨days', hdays'⟩ := OrdinalWeekday.exists_readAll hreadable'
  refine ⟨days, days', hdays, hdays', fun day => ?_⟩
  rw [← Rule.names_iff hdays, ← Rule.names_iff hdays', h.names_iff]

theorem limitsOf_eq (h : rule.SameSets other) : Series.limitsOf rule = Series.limitsOf other := by
  rw [Series.limitsOf, Series.limitsOf, h.count_eq, h.untilDate_eq]

/-- What is refused does not depend on what else there is. -/
theorem map_refuse_eq {α β : Type} (h : rule.SameSets other) {part : Key} {there there' : Bool}
    {otherwise otherwise' : Except ExpansionError α} (f : α → β) (hthere : there = there')
    (hotherwise : otherwise.map f = otherwise'.map f) :
    (Pattern.refuse rule part there otherwise).map f
      = (Pattern.refuse other part there' otherwise').map f := by
  subst hthere
  cases there with
  | true => simp only [Pattern.refuse, if_true, h.frequency_eq]
  | false => simpa only [Pattern.refuse, Bool.false_eq_true, if_false] using hotherwise

theorem map_ofFrequency_eq (h : rule.SameSets other) {interval : Interval}
    {days days' : List OrdinalWeekday} (hdays : rule.weekdays = .ok days)
    (hdays' : other.weekdays = .ok days') (hsame : SameMembers days days') :
    (Pattern.ofFrequency rule interval days).map Pattern.cycle
      = (Pattern.ofFrequency other interval days').map Pattern.cycle := by
  -- There are no tokens exactly if they stand for no weekdays.
  have htokens : rule.byDay.isEmpty = other.byDay.isEmpty := by
    rw [Bool.eq_iff_iff, List.isEmpty_iff, List.isEmpty_iff, ← weekdays_eq_nil_iff hdays,
      ← weekdays_eq_nil_iff hdays', hsame.eq_nil_iff]
  have hweekdays := hsame.map (·.weekday)
  unfold Pattern.ofFrequency
  rw [h.frequency_eq]
  cases other.frequency with
  | secondly | minutely | hourly => rfl
  | daily =>
    -- What is refused in days is refused in both rules, and otherwise the periods are the same.
    apply h.map_refuse_eq _ (congrArg not h.bySetPos.isEmpty_eq)
    exact congrArg Except.ok (DailyPattern.cycle_congr hweekdays h.byMonthDay h.byMonth)
  | weekly =>
    apply h.map_refuse_eq _ (congrArg not h.bySetPos.isEmpty_eq)
    apply h.map_refuse_eq _ (congrArg not h.byMonthDay.isEmpty_eq)
    rw [h.weekStart_eq]
    exact congrArg Except.ok (WeeklyPattern.cycle_congr hweekdays h.byMonth)
  | monthly =>
    -- Months refuse nothing, and they use the ordinals too.
    exact congrArg Except.ok (MonthlyPattern.cycle_congr hsame h.byMonthDay h.bySetPos h.byMonth)
  | yearly =>
    apply h.map_refuse_eq _ (congrArg not h.bySetPos.isEmpty_eq)
    apply h.map_refuse_eq _ (congrArg not htokens)
    exact congrArg Except.ok (YearlyPattern.cycle_congr h.byMonthDay h.byMonth)

/-- **Rules with the same sets repeat by the same periods** or are refused for the same cause. -/
theorem map_ofRule_eq (h : rule.SameSets other) :
    (Pattern.ofRule rule).map Pattern.cycle = (Pattern.ofRule other).map Pattern.cycle := by
  obtain ⟨days, days', hdays, hdays', hsame⟩ := h.exists_weekdays
  unfold Pattern.ofRule
  rw [h.interval_eq, hdays, hdays']
  -- The checks are made in the same order and have the same outcomes.
  cases Interval.ofInt? other.interval.toInt with
  | none => rfl
  | some interval =>
    apply h.map_refuse_eq _ (congrArg not h.byYearDay.isEmpty_eq)
    apply h.map_refuse_eq _ (congrArg not h.byWeekNo.isEmpty_eq)
    exact h.map_ofFrequency_eq hdays hdays' hsame

end SameSets

/-- **Lists are sets.** Two rules that agree in everything that is no list, and whose lists have the
same members, have the same dates in every window, or none for the same cause. The tokens must stand
for ordinal weekdays, and they need only stand for the same. -/
theorem occurrences_eq_of_sameSets {rule other : Rule} (h : rule.SameSets other) (options : Options)
    (anchor : Option Date) (window : Window) :
    rule.occurrences options anchor window = other.occurrences options anchor window :=
  occurrences_congr h.limitsOf_eq h.map_ofRule_eq options anchor window

/-- The first and the last Friday or first Monday of January and March, three dates in all. -/
def threeDates : Rule :=
  { every .monthly with
    count := some 3
    byDay := ["FR", "1MO"]
    byMonth := [1, 3]
    bySetPos := [1, -1] }

/-- The same rule in other words. -/
def threeDatesReworded : Rule :=
  { threeDates with
    byDay := ["+1mo", "fr ", " FR", "01MO"]
    byMonth := [3, 1, 3]
    bySetPos := [-1, 1, -1, -1] }

/-- The two have the same sets, and so the dates of the one are those of the other. -/
theorem occurrences_eq_of_sameSets_threeDates :
    threeDates.SameSets threeDatesReworded ∧
      threeDatesReworded.occurrences {} (some (.ofParts 2024 1 1))
          ⟨.ofParts 2024 1 1, .ofParts 2024 12 31⟩
        = .ok [.ofParts 2024 1 1, .ofParts 2024 1 26, .ofParts 2024 3 1] := by
  -- The tokens are read, and what they stand for is compared.
  have hnames : ∀ day, threeDates.Names day ↔ threeDatesReworded.Names day := by
    intro day
    rw [names_iff (rfl : threeDates.weekdays = .ok [.every .friday, .nth 1 .monday]),
      names_iff (rfl : threeDatesReworded.weekdays
        = .ok [.nth 1 .monday, .every .friday, .every .friday, .nth 1 .monday])]
    exact (by decide : SameMembers _ _) day
  have hsame : threeDates.SameSets threeDatesReworded :=
    ⟨rfl, rfl, rfl, rfl, rfl, by decide, hnames, by decide, by decide, by decide, by decide,
      by decide⟩
  refine ⟨hsame, ?_⟩
  rw [← occurrences_eq_of_sameSets hsame]
  rfl

end Rule

end RecurringDates
