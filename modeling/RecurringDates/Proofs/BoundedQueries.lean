import RecurringDates.Occurrences
import RecurringDates.Proofs.BoundedWalks
import RecurringDates.Proofs.WeeklyDates

/-!
# Queries in bounded numbers

A query walks from period to period of a pattern and looks for the dates of each one as it is
reached. Here it does so in bounded numbers and fails at the first exact result that its size does
not hold. Such steps are taken

- where weekdays are told apart (`daysAfter`) and a week of an interval is made of days
  (`weeklyWalk`);
- where a month is measured (`nextStart?`, `resolve?`) and a day counted from its end and placed in
  it (`dayFromEnd`, `datePlaced?`);
- where positions are counted in a set of dates (`select`, `offset?`);
- where months are numbered and found again (`monthIndex`, `monthStart?`);
- where the count is taken over from the rule (`limitsOf`) and a date taken off it (`spend`).

The main statement is `Bounded.never_overflows`: a query in bounded numbers has the answer of the
query in whole numbers, for every rule, valid or not, and for every pattern. It is assembled from
one statement for each unit, that the walk by that unit goes along the cycle of the pattern.
-/

namespace RecurringDates.Bounded

/-! ## §1 Periods -/

/-- What is found from a date on, nothing if there is no such date. -/
def fromDate (date : Option Date) (look : Date → Bounded (Option (List Date))) :
    Bounded (Option (List Date)) :=
  match date with
  | none => return none
  | some date => look date

/-- The dates of a period that begins at a date, unless that is past the horizon. -/
def upTo (horizon start : Date) (dates : Bounded (List Date)) : Bounded (Option (List Date)) :=
  if start ≤ horizon then do
    return some (← dates)
  else
    return none

variable {horizon : Date}

/-- No number of steps leads back. -/
theorem le_after_steps (first : Int) {step : Int} (hpos : 0 < step) (k : Nat) :
    first ≤ first + step * k :=
  Int.le_add_of_nonneg_right (Int.mul_nonneg (Int.le_of_lt hpos) (Int.natCast_nonneg k))

theorem exists_of_fromDate {date : Option Date} {look : Date → Bounded (Option (List Date))}
    {dates : List Date} (hlook : fromDate date look = .ok (some dates)) :
    ∃ start, date = some start := by
  cases date with
  | none => cases hlook
  | some start => exact ⟨start, rfl⟩

theorem le_lastDay_of_fromDate {day : Int} {look : Date → Bounded (Option (List Date))}
    {dates : List Date} (hlook : fromDate (Date.ofDayNumber? day) look = .ok (some dates)) :
    day ≤ Calendar.lastDay := by
  obtain ⟨date, hdate⟩ := exists_of_fromDate hlook
  rw [← Date.ofDayNumber?_eq_some_iff.mp hdate]
  exact date.le_lastDay

/-- A period is looked at exactly if it begins by the horizon. -/
theorem fromDate_upTo {date : Option Date} {dates : Date → Bounded (List Date)} {inside : Prop}
    [Decidable inside] {expected : List Date}
    (hinside : (∃ start, date = some start ∧ start ≤ horizon) ↔ inside)
    (hdates : ∀ start, date = some start → dates start = .ok expected) :
    fromDate date (fun start => upTo horizon start (dates start))
      = .ok (if inside then some expected else none) := by
  cases date with
  | none =>
    -- A period without a first date is not looked at, and none is inside.
    rw [if_neg]
    · rfl
    · rw [← hinside]
      rintro ⟨start, hstart, _⟩
      cases hstart
  | some start =>
    -- Whether its first date is by the horizon decides.
    simp only [Option.some.injEq, exists_eq_left'] at hinside
    unfold fromDate upTo
    simp only [hinside, hdates start rfl, ok_bind, pure_eq_ok]
    split <;> rfl

/-! ## §2 Days -/

/-- Whether a date passes the filters of a pattern, the one on days of the month last. -/
def accepts (pattern : DailyPattern) (date : Date) : Bounded Bool :=
  if (pattern.weekdays.isEmpty || pattern.weekdays.contains date.weekday)
      && date.month.isIn pattern.months then
    if pattern.monthDays.isEmpty then
      return true
    else
      pattern.monthDays.anyM fun day => do
        return (← resolve? date.month day) == some date
  else
    return false

/-- The walk of a daily pattern. -/
def dailyWalk (pattern : DailyPattern) (anchor horizon : Date) : Walk where
  first := anchor.dayNumber
  step := pattern.interval.value
  bound := Calendar.lastDay
  look day := fromDate (Date.ofDayNumber? day) fun date =>
    upTo horizon date do
      return if ← accepts pattern date then [date] else []
  step_pos := (pattern.cycle anchor horizon).step_pos
  le_bound hlook := le_lastDay_of_fromDate hlook

theorem accepts_eq (pattern : DailyPattern) (date : Date) :
    accepts pattern date = .ok (pattern.accepts date) := by
  have hday : ∀ day : Int32, (do return (← resolve? date.month day) == some date : Bounded Bool)
      = .ok (date.month.resolve? day.toInt == some date) := by
    intro day
    rw [resolve?_eq, ok_bind, pure_eq_ok]
  unfold accepts DailyPattern.accepts
  rw [anyM_ok hday]
  split
  · rename_i hpasses
    rw [hpasses, Bool.true_and]
    cases pattern.monthDays.isEmpty <;> rfl
  · rename_i hrefused
    rw [Bool.eq_false_of_not_eq_true hrefused, Bool.false_and, pure_eq_ok]

/-- A day that is not before the calendar is a date up to the horizon exactly if it is not past the
horizon. -/
theorem exists_day_le_iff {day : Int} (hfirst : Calendar.firstDay ≤ day) :
    (∃ date, Date.ofDayNumber? day = some date ∧ date ≤ horizon) ↔ day ≤ horizon.dayNumber := by
  constructor
  · rintro ⟨date, hdate, hle⟩
    rw [← Date.ofDayNumber?_eq_some_iff.mp hdate]
    exact hle
  · intro hle
    have hlast := Int.le_trans hle horizon.le_lastDay
    exact ⟨⟨day, hfirst, hlast⟩, Date.ofDayNumber?_eq_some_iff.mpr rfl, hle⟩

/-- What the walk finds on a day. -/
theorem look_dailyWalk (pattern : DailyPattern) (anchor horizon : Date) {day : Int}
    (hfirst : Calendar.firstDay ≤ day) :
    (dailyWalk pattern anchor horizon).look day
      = .ok (if day ≤ horizon.dayNumber then some (pattern.datesOfDay day) else none) := by
  refine fromDate_upTo (exists_day_le_iff hfirst) ?_
  intro date hdate
  rw [DailyPattern.datesOfDay, hdate, accepts_eq, ok_bind, pure_eq_ok, Option.toList_some,
    List.filter_singleton]
  cases pattern.accepts date <;> rfl

/-- **The walk of a daily pattern goes along its cycle.** -/
theorem dailyWalk_goesAlong (pattern : DailyPattern) (anchor horizon : Date) :
    (dailyWalk pattern anchor horizon).GoesAlong (pattern.cycle anchor horizon) := by
  intro k
  have hfirst : Calendar.firstDay ≤ anchor.dayNumber + pattern.interval.value * k :=
    Int.le_trans anchor.firstDay_le (le_after_steps _ pattern.interval.pos k)
  exact look_dailyWalk pattern anchor horizon hfirst

/-! ## §3 Weeks -/

/-- The numbers of days after the start of a week on which a pattern has dates. -/
def weekOffsets (pattern : WeeklyPattern) (anchor : Date) : Bounded (List Int) := do
  let asked ← (pattern.weekdaysFor anchor).mapM (daysAfter pattern.weekStart)
  return [0, 1, 2, 3, 4, 5, 6].filter fun offset => asked.any (· == offset)

/-- The dates of the week that holds a day, found from the day. A week that begins before the
calendar has none, and the walk goes on after it. -/
def lookWeek (pattern : WeeklyPattern) (horizon : Date) (offsets : List Int) (day : Int) :
    Bounded (Option (List Date)) :=
  fromDate (Date.ofDayNumber? day) fun base => do
    let back ← daysAfter pattern.weekStart base.weekday
    match base.addDays? (-back) with
    | none => return some []
    | some start =>
      upTo horizon start do
        return (offsets.filterMap start.addDays?).filter fun date =>
          date.month.isIn pattern.months

/-- The walk of a weekly pattern. Its periods are told by the days of the anchor's weekday. -/
def weeklyWalk (pattern : WeeklyPattern) (anchor horizon : Date) : Bounded Walk := do
  let offsets ← weekOffsets pattern anchor
  match hstep : Size.uint64.fit (7 * pattern.interval.value) with
  | .error overflow => .error overflow
  | .ok step =>
    return {
      first := anchor.dayNumber
      step
      bound := Calendar.lastDay
      look := lookWeek pattern horizon offsets
      step_pos := by
        have hpos := pattern.interval.pos
        rw [(Size.fit_eq_ok_iff.mp hstep).2]
        omega
      le_bound := fun hlook => le_lastDay_of_fromDate hlook }

theorem weekOffsets_eq (pattern : WeeklyPattern) (anchor : Date) :
    weekOffsets pattern anchor = .ok (pattern.offsets anchor) := by
  unfold weekOffsets WeeklyPattern.offsets
  rw [mapM_ok (daysAfter_eq pattern.weekStart), ok_bind, pure_eq_ok]
  simp only [List.any_map]
  rfl

/-- What the walk finds from a day that lies whole weeks after the anchor. The week begins as long
before the day as the anchor's does before the anchor. -/
theorem lookWeek_eq (pattern : WeeklyPattern) (anchor horizon : Date) {day : Int}
    (hfirst : Calendar.firstDay ≤ day) (hweeks : 7 ∣ day - anchor.dayNumber) :
    lookWeek pattern horizon (pattern.offsets anchor) day
      = .ok (if day - pattern.offsetOf anchor
            ≤ min horizon.dayNumber (Calendar.lastDay - pattern.offsetOf anchor)
          then some (pattern.datesOfWeek anchor (day - pattern.offsetOf anchor)) else none) := by
  unfold lookWeek fromDate
  cases hbase : Date.ofDayNumber? day with
  | none =>
    -- The day is no date. It is not before the calendar, so it is after its end.
    have hpast := Date.ofDayNumber?_eq_none_iff.mp hbase
    rw [if_neg (by omega)]
    rfl
  | some base =>
    obtain rfl := Date.ofDayNumber?_eq_some_iff.mp hbase
    have hsame : base.weekday = anchor.weekday := Date.seven_dvd_daysTo_iff.mp hweeks
    have hstart : base.addDays? (-pattern.offsetOf anchor)
        = Date.ofDayNumber? (base.dayNumber - pattern.offsetOf anchor) := by
      rw [Date.addDays?, Int.sub_eq_add_neg]
    have hlast := base.le_lastDay
    dsimp only
    rw [daysAfter_eq, ok_bind, hsame, ← WeeklyPattern.offsetOf, hstart, WeeklyPattern.datesOfWeek]
    cases hfound : Date.ofDayNumber? (base.dayNumber - pattern.offsetOf anchor) with
    | none =>
      -- The week does not begin after its day, so it begins before the calendar.
      have hnonneg : 0 ≤ pattern.offsetOf anchor := Weekday.daysAfter_nonneg _ _
      have hhorizon := horizon.firstDay_le
      have houtside := Date.ofDayNumber?_eq_none_iff.mp hfound
      rw [if_pos (by omega)]
      rfl
    | some start =>
      -- Week and day begin in the calendar, and the walk asks whether the week begins by the
      -- horizon.
      have hnumber := Date.ofDayNumber?_eq_some_iff.mp hfound
      have hinside : start ≤ horizon ↔ base.dayNumber - pattern.offsetOf anchor
          ≤ min horizon.dayNumber (Calendar.lastDay - pattern.offsetOf anchor) := by
        rw [Date.le_def]
        omega
      simp only [upTo, hinside, pure_eq_ok, ok_bind]
      split <;> rfl

/-- **The walk of a weekly pattern goes along its cycle**, and seven times the interval fits. -/
theorem exists_weeklyWalk (pattern : WeeklyPattern) (anchor horizon : Date) :
    ∃ walk, weeklyWalk pattern anchor horizon = .ok walk ∧
      walk.GoesAlong (pattern.cycle anchor horizon) := by
  have hpos := pattern.interval.pos
  have hlt := pattern.interval.lt
  have hholds : Size.uint64.Holds (7 * pattern.interval.value) := by
    simp only [Size.Holds]
    omega
  unfold weeklyWalk
  rw [weekOffsets_eq, ok_bind]
  split
  · -- Seven times an interval of 32 bits does not overflow.
    rename_i overflow hstep
    rw [Size.fit_eq_ok hholds] at hstep
    cases hstep
  · rename_i step hstep
    obtain ⟨_, rfl⟩ := Size.fit_eq_ok_iff.mp hstep
    refine ⟨_, rfl, fun k => ?_⟩
    -- After k steps both are k strides further, and the week still begins as far before its day.
    have hfirst : Calendar.firstDay ≤ anchor.dayNumber + pattern.stride * k :=
      Int.le_trans anchor.firstDay_le (le_after_steps _ (pattern.cycle anchor horizon).step_pos k)
    have hweeks : 7 ∣ anchor.dayNumber + pattern.stride * k - anchor.dayNumber := by
      rw [WeeklyPattern.stride, Int.mul_assoc]
      omega
    have hperiod : anchor.dayNumber + pattern.stride * k - pattern.offsetOf anchor
        = anchor.dayNumber - pattern.offsetOf anchor + pattern.stride * k := by omega
    have hlook := lookWeek_eq pattern anchor horizon hfirst hweeks
    rw [hperiod] at hlook
    exact hlook

/-! ## §4 Months -/

/-- The days that a pattern chooses in a month, before positions are looked at. -/
def chosenDays (pattern : MonthlyPattern) (anchor : Date) (month : Month) : Bounded DateSet :=
  if pattern.monthDays ≠ [] then do
    return DateSet.ofList (← pattern.monthDays.filterMapM (resolve? month))
  else if pattern.weekdays ≠ [] then do
    return DateSet.ofList (← pattern.weekdays.flatMapM (ordinalWeekdayDates month))
  else
    return DateSet.ofList (Date.ofYearMonthDay? month.year month.number anchor.day).toList

/-- The days that are left when positions are looked at. -/
def selectedDays (pattern : MonthlyPattern) (anchor : Date) (month : Month) :
    Bounded (List Date) := do
  let days ← chosenDays pattern anchor month
  if pattern.positions = [] then return days.toList else select days.toList pattern.positions

/-- The dates of the month with an index, found from its first day. -/
def lookMonth (pattern : MonthlyPattern) (anchor horizon : Date) (index : Int) :
    Bounded (Option (List Date)) := do
  fromDate (← monthStart? index) fun start =>
    upTo horizon start do
      if start.month.isIn pattern.months then selectedDays pattern anchor start.month else return []

/-- The walk of a monthly pattern. -/
def monthlyWalk (pattern : MonthlyPattern) (anchor horizon : Date) : Bounded Walk := do
  let first ← monthIndex anchor
  return {
    first
    step := pattern.interval.value
    bound := Date.last.month.index
    look := lookMonth pattern anchor horizon
    step_pos := (pattern.cycle anchor horizon).step_pos
    le_bound := by
      intro index dates hlook
      unfold lookMonth at hlook
      rw [monthStart?_eq, ok_bind] at hlook
      obtain ⟨start, hstart⟩ := exists_of_fromDate hlook
      have hmonth := (Month.start?_eq_some_iff.mp hstart).1
      have hle := Date.month_index_le start.le_last
      rwa [hmonth] at hle }

theorem chosenDays_eq (pattern : MonthlyPattern) (anchor : Date) (month : Month) :
    chosenDays pattern anchor month = .ok (pattern.daysOfMonth anchor month) := by
  unfold chosenDays MonthlyPattern.daysOfMonth
  rw [filterMapM_ok (resolve?_eq month), flatMapM_ok (ordinalWeekdayDates_eq month),
    ofYearMonthDay?_eq]
  split
  · rfl
  · split <;> rfl

theorem selectedDays_eq (pattern : MonthlyPattern) (anchor : Date) (month : Month) :
    selectedDays pattern anchor month = .ok (pattern.selectedDays anchor month).toList := by
  unfold selectedDays MonthlyPattern.selectedDays
  rw [chosenDays_eq, ok_bind, select_eq]
  split <;> rfl

/-- What the walk finds in a month. -/
theorem lookMonth_eq (pattern : MonthlyPattern) (anchor horizon : Date) {index : Int}
    (hfirst : Date.first.month.index ≤ index) :
    lookMonth pattern anchor horizon index
      = .ok (if index ≤ horizon.month.index then some (pattern.datesOfMonth anchor index)
          else none) := by
  rw [lookMonth, monthStart?_eq, ok_bind]
  refine fromDate_upTo (Month.exists_start_le_iff hfirst) ?_
  intro start hstart
  rw [(Month.start?_eq_some_iff.mp hstart).1, selectedDays_eq, MonthlyPattern.datesOfMonth]
  split <;> rfl

/-- **The walk of a monthly pattern goes along its cycle**, and the index of its first month fits.
-/
theorem exists_monthlyWalk (pattern : MonthlyPattern) (anchor horizon : Date) :
    ∃ walk, monthlyWalk pattern anchor horizon = .ok walk ∧
      walk.GoesAlong (pattern.cycle anchor horizon) := by
  rw [monthlyWalk, monthIndex_eq, ok_bind]
  refine ⟨_, rfl, fun k => ?_⟩
  have hfirst : Date.first.month.index ≤ anchor.month.index + pattern.interval.value * k :=
    Int.le_trans (Date.month_index_le anchor.first_le) (le_after_steps _ pattern.interval.pos k)
  exact lookMonth_eq pattern anchor horizon hfirst

/-! ## §5 Years -/

/-- The days that a pattern chooses in a month. -/
def yearlyDays (pattern : YearlyPattern) (anchor : Date) (month : Month) : Bounded (List Date) :=
  if pattern.monthDays = [] then
    return (YearlyPattern.anchorDayIn? anchor month).toList
  else
    pattern.monthDays.filterMapM (resolve? month)

/-- The dates of a year. -/
def datesOfYear (pattern : YearlyPattern) (anchor : Date) (year : Int) : Bounded (List Date) := do
  let days ← ((pattern.monthsFor anchor).filterMap (Month.ofNumber? year)).flatMapM
    (yearlyDays pattern anchor)
  return (DateSet.ofList days).toList

/-- The walk of a yearly pattern. Its step is cut to 32 bits with a sign, which no two years of the
calendar are apart. -/
def yearlyWalk (pattern : YearlyPattern) (anchor horizon : Date) : Walk where
  first := anchor.year
  step := min pattern.interval.value 2147483647
  bound := Date.last.year
  look year := fromDate (yearStart? year) fun start =>
    upTo horizon start (datesOfYear pattern anchor start.year)
  step_pos := by
    have hpos := pattern.interval.pos
    omega
  le_bound := by
    intro year dates hlook
    obtain ⟨start, hstart⟩ := exists_of_fromDate hlook
    rw [yearStart?_eq] at hstart
    have hle := Date.year_le start.le_last
    rwa [(Date.ofYearMonthDay?_eq_some_iff.mp hstart).1] at hle

theorem datesOfYear_eq (pattern : YearlyPattern) (anchor : Date) (year : Int) :
    datesOfYear pattern anchor year = .ok (pattern.datesOfYear anchor year) := by
  have hdays : ∀ month, yearlyDays pattern anchor month
      = .ok (pattern.daysOfMonth anchor month) := by
    intro month
    unfold yearlyDays YearlyPattern.daysOfMonth
    rw [filterMapM_ok (resolve?_eq month)]
    split <;> rfl
  rw [datesOfYear, flatMapM_ok hdays, ok_bind, pure_eq_ok, YearlyPattern.datesOfYear]

/-- A year that is not before the calendar begins by the horizon exactly if it is not after the year
of the horizon. -/
theorem exists_yearStart_le_iff {year : Int} (hfirst : Calendar.firstYear ≤ year) :
    (∃ start, yearStart? year = some start ∧ start ≤ horizon) ↔ year ≤ horizon.year := by
  have hstart : yearStart? year = (Month.ofYear year 1).start? := by
    rw [yearStart?_eq, ← ofYearMonthDay?_one, Month.year_ofYear year (by decide) (by decide),
      Month.number_ofYear year (by decide) (by decide)]
  have hindex : Date.first.month.index = 12 * Calendar.firstYear := by decide
  rw [hstart, Month.exists_start_le_iff (by simp only [Month.ofYear]; omega), Date.year, Month.year,
    Month.ofYear]
  dsimp only
  omega

/-- What the walk finds in a year, whichever step led to it. -/
theorem look_yearlyWalk (pattern : YearlyPattern) (anchor horizon : Date) {year : Int}
    (hfirst : Calendar.firstYear ≤ year) :
    (yearlyWalk pattern anchor horizon).look year
      = .ok (if year ≤ horizon.year then some (pattern.datesOfYear anchor year) else none) := by
  refine fromDate_upTo (exists_yearStart_le_iff hfirst) ?_
  intro start hstart
  rw [yearStart?_eq] at hstart
  rw [(Date.ofYearMonthDay?_eq_some_iff.mp hstart).1, datesOfYear_eq]

/-- Where the cut of the step makes a difference, both steps lead past the horizon. -/
theorem cut_step (interval : Interval) (anchor horizon : Date) (k : Nat) :
    min interval.value 2147483647 * k = interval.value * k ∨
      horizon.year < anchor.year + min interval.value 2147483647 * k ∧
        horizon.year < anchor.year + interval.value * k := by
  by_cases hshort : interval.value ≤ 2147483647
  · exact Or.inl (by rw [Int.min_eq_left hshort])
  · rw [Int.min_eq_right (by omega)]
    cases k with
    -- Without a step there is no difference.
    | zero => exact Or.inl (by rw [Int.natCast_zero, Int.mul_zero, Int.mul_zero])
    | succ k =>
      -- One step that is cut leads past the last year of the calendar already.
      have hanchor := year_bounds anchor
      have hhorizon := year_bounds horizon
      have hsteps := Int.mul_nonneg (Int.le_of_lt interval.pos) (Int.natCast_nonneg k)
      have hstep : interval.value * (k + 1 : Nat) = interval.value * k + interval.value := by
        rw [Int.natCast_add, Int.mul_add, Int.natCast_one, Int.mul_one]
      exact Or.inr ⟨by omega, by omega⟩

/-- **The walk of a yearly pattern goes along its cycle.** -/
theorem yearlyWalk_goesAlong (pattern : YearlyPattern) (anchor horizon : Date) :
    (yearlyWalk pattern anchor horizon).GoesAlong (pattern.cycle anchor horizon) := by
  intro k
  have hanchor : Calendar.firstYear ≤ anchor.year := (year_bounds anchor).1
  have hyear : Calendar.firstYear ≤ anchor.year + min pattern.interval.value 2147483647 * k :=
    Int.le_trans hanchor (le_after_steps _ (yearlyWalk pattern anchor horizon).step_pos k)
  refine (look_yearlyWalk pattern anchor horizon hyear).trans (congrArg Except.ok ?_)
  -- Both look at the same year, or both look at none.
  rcases cut_step pattern.interval anchor horizon k with hsame | ⟨hcut, hwhole⟩
  · rw [hsame]
    rfl
  · exact (if_neg (Int.not_le.mpr hcut)).trans (if_neg (Int.not_le.mpr hwhole)).symm

/-! ## §6 Queries -/

/-- The walk of a pattern. -/
def walkOf (pattern : Pattern) (anchor horizon : Date) : Bounded Walk :=
  match pattern with
  | .daily pattern => return dailyWalk pattern anchor horizon
  | .weekly pattern => weeklyWalk pattern anchor horizon
  | .monthly pattern => monthlyWalk pattern anchor horizon
  | .yearly pattern => return yearlyWalk pattern anchor horizon

/-- The dates of a series in a window, at most a number of them. -/
def datesInWindow (series : Series) (window : Window) (cap : Nat) : Bounded (List Date) := do
  let walk ← walkOf series.pattern series.anchor (series.horizon window)
  let candidates := walk.filter fun date => series.anchor ≤ date
  Source.inWindow (next candidates.pull) (series.lower window) window.last
    (series.anchor.daysTo (series.lower window)).toNat cap (series.limits, candidates.start)

/-- The limits that a rule sets. The count loses its sign once it is known to be positive. -/
def limitsOf (rule : Rule) : Bounded (Except ExpansionError Limits) :=
  match rule.count with
  | none => return .ok ⟨none, rule.untilDate⟩
  | some count =>
    if 0 < count.toInt then do
      let remaining ← Size.uint64.fit count.toInt
      return .ok ⟨some remaining.toNat, rule.untilDate⟩
    else
      return .error (.invalidCount count)

/-- The dates of a rule from an anchor that lie in a window. -/
def occurrences (options : Options) (rule : Rule) (anchor : Option Date) (window : Window) :
    Bounded (Except ExpansionError (List Date)) :=
  match anchor with
  | none => return .ok []
  | some anchor => do
    match ← limitsOf rule with
    | .error cause => return .error cause
    | .ok limits =>
      match Pattern.ofRule rule with
      | .error cause => return .error cause
      | .ok pattern =>
        return .ok (← datesInWindow ⟨anchor, pattern, limits⟩ window options.maxOccurrences.toNat)

theorem exists_walkOf (pattern : Pattern) (anchor horizon : Date) :
    ∃ walk, walkOf pattern anchor horizon = .ok walk ∧
      walk.GoesAlong (pattern.cycle anchor horizon) := by
  cases pattern with
  | daily pattern => exact ⟨_, rfl, dailyWalk_goesAlong pattern anchor horizon⟩
  | weekly pattern => exact exists_weeklyWalk pattern anchor horizon
  | monthly pattern => exact exists_monthlyWalk pattern anchor horizon
  | yearly pattern => exact ⟨_, rfl, yearlyWalk_goesAlong pattern anchor horizon⟩

/-- A series whose count has 64 bits is searched without overflow. -/
theorem datesInWindow_eq (anchor : Date) (pattern : Pattern) {limits : Limits}
    (hfits : CountFits limits) (window : Window) (cap : Nat) :
    datesInWindow ⟨anchor, pattern, limits⟩ window cap
      = .ok (Series.inWindow ⟨anchor, pattern, limits⟩ window cap) := by
  obtain ⟨walk, hwalk, halong⟩ :=
    exists_walkOf pattern anchor (Series.horizon ⟨anchor, pattern, limits⟩ window)
  have hfollows := (Walk.follows_pull (halong.filter fun date => anchor ≤ date)).next
  unfold datesInWindow Series.inWindow
  rw [hwalk, ok_bind]
  exact hfollows.inWindow_eq _ _ _ _ ⟨rfl, hfits, Walk.together_start _ _⟩

/-- A positive count of a rule has 64 bits without a sign too. -/
theorem limitsOf_eq (rule : Rule) : limitsOf rule = .ok (Series.limitsOf rule) ∧
    ∀ limits, Series.limitsOf rule = .ok limits → CountFits limits := by
  unfold limitsOf Series.limitsOf
  cases rule.count with
  | none =>
    -- Without a count there is nothing to convert.
    refine ⟨rfl, ?_⟩
    rintro limits ⟨⟩ count ⟨⟩
  | some count =>
    have hlt := count.toInt_lt
    by_cases hpos : 0 < count.toInt
    · -- A positive count keeps its value without a sign.
      have hholds : Size.uint64.Holds count.toInt := by
        simp only [Size.Holds]
        omega
      simp only [hpos, if_true, Size.fit_eq_ok hholds, ok_bind, pure_eq_ok, true_and]
      rintro limits ⟨⟩ remaining ⟨⟩
      rwa [Int.toNat_of_nonneg (Int.le_of_lt hpos)]
    · -- Any other count is refused before it is converted.
      simp only [hpos, if_false, pure_eq_ok, true_and]
      rintro limits ⟨⟩

theorem occurrences_eq (options : Options) (rule : Rule) (anchor : Option Date) (window : Window) :
    occurrences options rule anchor window = .ok (rule.occurrences options anchor window) := by
  unfold occurrences Rule.occurrences Series.ofRule
  cases anchor with
  -- Without an anchor there is nothing to compute.
  | none => rfl
  | some anchor =>
    obtain ⟨hlimits, hfits⟩ := limitsOf_eq rule
    simp only [hlimits, ok_bind]
    cases hread : Series.limitsOf rule with
    -- A fault of the count is found in either way.
    | error cause => rfl
    | ok limits =>
      cases Pattern.ofRule rule with
      | error cause => rfl
      | ok pattern =>
        have hdates := datesInWindow_eq anchor pattern (hfits limits hread) window
        simp only [hdates, ok_bind, pure_eq_ok]

/-- **No query overflows.** In bounded numbers a query has the answer that it has in whole numbers,
whatever the fields of the rule hold, and whether the answer is a list of dates or the fault of the
rule. The second part asks patterns without a rule, and so for what no rule can bring in: ordinal
weekdays of every position of 8 bits and counts of every number of 64 bits without a sign. -/
theorem never_overflows :
    (∀ (options : Options) (rule : Rule) (anchor : Option Date) (window : Window),
      occurrences options rule anchor window = .ok (rule.occurrences options anchor window)) ∧
    (∀ (anchor : Date) (pattern : Pattern) (count : Option UInt64) (untilDate : Option Date)
        (window : Window) (cap : Nat),
      datesInWindow ⟨anchor, pattern, ⟨count.map UInt64.toNat, untilDate⟩⟩ window cap
        = .ok (Series.inWindow ⟨anchor, pattern, ⟨count.map UInt64.toNat, untilDate⟩⟩ window
            cap)) := by
  refine ⟨occurrences_eq, ?_⟩
  intro anchor pattern count untilDate window cap
  -- All that is asked of a pattern and its limits is that the count has 64 bits.
  refine datesInWindow_eq anchor pattern ?_ window cap
  intro remaining hremaining
  obtain ⟨word, _, rfl⟩ := Option.map_eq_some_iff.mp hremaining
  have hlt := word.toNat_lt
  simp only [Size.Holds]
  omega

end RecurringDates.Bounded
