import RecurringDates.Proofs.Answers
import RecurringDates.Proofs.Periods
import RecurringDates.Proofs.WeeklyDates

/-!
# Going on from a date of the series

A series goes on from any of its own dates: a rule that is anchored at that date and has the count
that is left asks for the same dates from there on. What a rule takes from its anchor, each of its
dates gives back: the period to step from, and the weekday, the day of the month or the month that
the rule leaves open. Only a leap day gives back more than it was chosen for, since a yearly rule
that is anchored on one has a date in common years too.

The main statements are `Pattern.filter_datesFrom` (the dates of a pattern go on),
`Limits.drop_cut` (and so does the count) and `Rule.occurrences_resume`.
-/

namespace RecurringDates

/-! ## §1 Cycles that go on -/

namespace Cycle

variable {cycle later : Cycle} {start : Int → Int} {date next last : Date}

/-- Steps add up. -/
theorem step_add (cycle : Cycle) (period : Int) (k m : Nat) :
    period + cycle.step * k + cycle.step * m = period + cycle.step * (k + m : Nat) := by
  rw [Int.natCast_add, Int.mul_add, Int.add_assoc]

/-- No period begins before one that is fewer steps away. -/
theorem Ascends.start_le_start (hasc : cycle.Ascends start) (period : Int) (k : Nat) :
    start period ≤ start (period + cycle.step * k) := by
  induction k with
  | zero => simp
  | succ k ih =>
    have hstep := hasc.start_mono (period + cycle.step * k)
    rw [← cycle.step_add, Int.natCast_one, Int.mul_one]
    exact Int.le_trans ih hstep

/-- A period that is fewer steps away has only earlier dates. -/
theorem Ascends.lt_of_lt (hasc : cycle.Ascends start) {k m : Nat} (hlt : m < k)
    (hdate : date ∈ cycle.datesIn (cycle.first + cycle.step * m))
    (hnext : next ∈ cycle.datesIn (cycle.first + cycle.step * k)) : date < next := by
  -- The other period is the one that follows the date's, or some steps after it.
  obtain ⟨n, rfl⟩ := Nat.exists_eq_add_of_le hlt
  rw [← cycle.step_add, Nat.succ_eq_add_one, ← cycle.step_add, Int.natCast_one,
    Int.mul_one] at hnext
  have hbelow := hasc.lt_start _ date hdate
  have hbetween := hasc.start_le_start (cycle.first + cycle.step * m + cycle.step) n
  have habove := hasc.start_le _ next hnext
  exact Int.lt_of_lt_of_le hbelow (Int.le_trans hbetween habove)

/-- A cycle that begins with a period of another one, the period of a given date, and has the same
dates in every period. Both reach every period that has a date up to a last day. -/
structure Continues (later cycle : Cycle) (next last : Date) : Prop where
  steps : ∃ k : Nat, later.first = cycle.first + cycle.step * k
  step_eq : later.step = cycle.step
  datesIn_eq : later.datesIn = cycle.datesIn
  mem_first : next ∈ cycle.datesIn later.first
  reaches : ∀ period, ∀ date ∈ cycle.datesIn period, date ≤ last →
    period ≤ cycle.last ∧ period ≤ later.last

/-- **A cycle that goes on has the same dates** from the given date up to the last day. -/
theorem Continues.mem_dates_iff (hcont : later.Continues cycle next last)
    (hasc : cycle.Ascends start) (hle : next ≤ date) (hlast : date ≤ last) :
    date ∈ later.dates ↔ date ∈ cycle.dates := by
  obtain ⟨k, hfirst⟩ := hcont.steps
  have hmem := hcont.mem_first
  rw [hfirst] at hmem
  rw [Cycle.mem_dates_iff, Cycle.mem_dates_iff, hcont.step_eq, hcont.datesIn_eq, hfirst]
  simp only [cycle.step_add]
  constructor
  · -- The m-th period from the given date on is the one m steps after its own.
    rintro ⟨m, _, hdate⟩
    exact ⟨k + m, (hcont.reaches _ date hdate hlast).1, hdate⟩
  · rintro ⟨m, _, hdate⟩
    -- A period before the given date's has only dates before it.
    have hkm : k ≤ m := by
      refine Nat.not_lt.mp fun hlt => ?_
      have hbefore := hasc.lt_of_lt hlt hdate hmem
      rw [Date.lt_def] at hbefore
      rw [Date.le_def] at hle
      omega
    obtain ⟨n, rfl⟩ := Nat.exists_eq_add_of_le hkm
    exact ⟨n, (hcont.reaches _ date hdate hlast).2, hdate⟩

end Cycle

/-! ## §2 What a date gives back -/

section Patterns

variable {anchor next last : Date}

/-- A day is its own period, and a daily pattern takes nothing else from its anchor. -/
theorem DailyPattern.continues {pattern : DailyPattern}
    (hmem : next ∈ (pattern.cycle anchor Date.last).dates) :
    (pattern.cycle next Date.last).Continues (pattern.cycle anchor Date.last) next last := by
  obtain ⟨k, _, hnext⟩ := Cycle.mem_dates_iff.mp hmem
  have hday := dayNumber_of_mem hnext
  exact {
    steps := ⟨k, hday⟩
    step_eq := rfl
    datesIn_eq := rfl
    mem_first := by rwa [← hday] at hnext
    -- A day that has a date is not after the last one, whatever the anchor.
    reaches := fun day date hdate _ => by
      have hsame := dayNumber_of_mem hdate
      have hlast := date.le_lastDay
      subst hsame
      exact ⟨hlast, hlast⟩ }

namespace WeeklyPattern

/-- Without weekdays of its own, a pattern has only dates on the weekday of its anchor. -/
theorem weekdaysFor_eq {pattern : WeeklyPattern}
    (hmem : next.weekday ∈ pattern.weekdaysFor anchor) :
    pattern.weekdaysFor next = pattern.weekdaysFor anchor := by
  unfold weekdaysFor at hmem ⊢
  split
  · -- The date is on the weekday of the anchor.
    rename_i hnone
    rw [if_pos hnone, List.mem_singleton] at hmem
    rw [hmem]
  · rfl

/-- A date gives back the start of its week and, where it matters, the anchor's weekday. -/
theorem continues {pattern : WeeklyPattern} (hlast : last.dayNumber + 7 ≤ Calendar.lastDay)
    (hmem : next ∈ (pattern.cycle anchor Date.last).dates) :
    (pattern.cycle next Date.last).Continues (pattern.cycle anchor Date.last) next last := by
  obtain ⟨k, _, hnext⟩ := Cycle.mem_dates_iff.mp hmem
  obtain ⟨_, hstart, hweekday, _⟩ := (mem_datesOfWeek_iff (pattern.ofDay_step anchor k)).mp hnext
  exact {
    steps := ⟨k, hstart⟩
    step_eq := rfl
    datesIn_eq := by
      funext week
      show pattern.datesOfWeek next week = pattern.datesOfWeek anchor week
      simp only [datesOfWeek, offsets, weekdaysFor_eq hweekday]
    mem_first := by
      show next ∈ pattern.datesOfWeek anchor (next.weekStart pattern.weekStart)
      rw [hstart]
      exact hnext
    reaches := fun week date hdate hle => by
      -- A week begins on or before its dates, and they leave a whole week to the end.
      have hweek : week ≤ date.dayNumber :=
        (pattern.ascends anchor Date.last).start_le week date hdate
      have hanchor := Weekday.daysAfter_lt pattern.weekStart anchor.weekday
      have hnext := Weekday.daysAfter_lt pattern.weekStart next.weekday
      rw [Date.le_def] at hle
      simp only [cycle, Date.last, offsetOf]
      omega }

end WeeklyPattern

namespace MonthlyPattern

/-- Positions pick among the days chosen in a month. -/
theorem mem_daysOfMonth_of_mem {pattern : MonthlyPattern} {index : Int}
    (hmem : next ∈ pattern.datesOfMonth anchor index) :
    next ∈ pattern.daysOfMonth anchor ⟨index⟩ := by
  unfold datesOfMonth at hmem
  split at hmem
  · have hselected : next ∈ pattern.selectedDays anchor ⟨index⟩ := hmem
    unfold selectedDays at hselected
    split at hselected
    · exact hselected
    · exact DateSet.mem_select hselected
  · cases hmem

/-- Without days and weekdays of its own, a pattern has only dates on the day of its anchor. -/
theorem daysOfMonth_eq {pattern : MonthlyPattern} {index : Int}
    (hmem : next ∈ pattern.daysOfMonth anchor ⟨index⟩) :
    pattern.daysOfMonth next = pattern.daysOfMonth anchor := by
  funext month
  unfold daysOfMonth at hmem ⊢
  split
  · rfl
  · rename_i hdays
    split
    · rfl
    · -- Only the day of the anchor is left, and the date has it.
      rename_i hweekdays
      rw [if_neg hdays, if_neg hweekdays, DateSet.mem_ofList, Option.mem_toList,
        Month.date?_eq_some_iff] at hmem
      rw [hmem.2]

/-- A date gives back its month and, where it matters, the anchor's day. -/
theorem continues {pattern : MonthlyPattern}
    (hmem : next ∈ (pattern.cycle anchor Date.last).dates) :
    (pattern.cycle next Date.last).Continues (pattern.cycle anchor Date.last) next last := by
  obtain ⟨k, _, hnext⟩ := Cycle.mem_dates_iff.mp hmem
  have hmonth : next.month.index = anchor.month.index + pattern.interval.value * k :=
    congrArg Month.index (month_of_mem hnext)
  exact {
    steps := ⟨k, hmonth⟩
    step_eq := rfl
    datesIn_eq := by
      funext index
      show pattern.datesOfMonth next index = pattern.datesOfMonth anchor index
      simp only [datesOfMonth, selectedDays, daysOfMonth_eq (mem_daysOfMonth_of_mem hnext)]
    mem_first := by
      show next ∈ pattern.datesOfMonth anchor next.month.index
      rw [hmonth]
      exact hnext
    -- A month that has a date is not after the last one, whatever the anchor.
    reaches := fun index date hdate _ => by
      have hindex := Date.month_index_le date.le_last
      rw [month_of_mem hdate] at hindex
      exact ⟨hindex, hindex⟩ }

end MonthlyPattern

namespace YearlyPattern

variable {pattern : YearlyPattern}

theorem isLeapDay_iff {date : Date} :
    isLeapDay date = true ↔ date.month.number = 2 ∧ date.day = 29 := by
  simp [isLeapDay]

/-- Without months of its own, a pattern has only dates in the month of its anchor. -/
theorem monthsFor_eq (hnumber : next.month.number ∈ pattern.monthsFor anchor) :
    pattern.monthsFor next = pattern.monthsFor anchor := by
  unfold monthsFor at hnumber ⊢
  split
  · rename_i hnone
    rw [if_pos hnone, List.mem_singleton] at hnumber
    rw [hnumber]
  · rfl

/-- Without days of its own, a pattern has only dates on the day of its anchor. February 28 is none
of them if it comes from a leap day, which it is not itself. -/
theorem daysOfMonth_eq {month : Month} (hmem : next ∈ pattern.daysOfMonth anchor month)
    (hleap : pattern.monthDays = [] → isLeapDay next = isLeapDay anchor) :
    pattern.daysOfMonth next = pattern.daysOfMonth anchor := by
  funext other
  unfold daysOfMonth at hmem ⊢
  split
  · -- Only the day of the anchor is left, and the date has it.
    rename_i hnone
    rw [if_pos hnone, Option.mem_toList] at hmem
    have hday : next.day = anchor.day := by
      obtain ⟨_, hsame | ⟨hanchor, hday⟩⟩ := of_anchorDayIn? hmem
      · exact hsame
      · -- February 28 in place of a leap day would have to be a leap day as well.
        rw [← hleap hnone, isLeapDay_iff] at hanchor
        omega
    simp only [anchorDayIn?, hday, hleap hnone]
  · rfl

/-- A date gives back its year and, where they matter, the anchor's month and day, a leap day only
if it is one itself. -/
theorem continues (hleap : pattern.monthDays = [] → isLeapDay next = isLeapDay anchor)
    (hmem : next ∈ (pattern.cycle anchor Date.last).dates) :
    (pattern.cycle next Date.last).Continues (pattern.cycle anchor Date.last) next last := by
  obtain ⟨k, _, hnext⟩ := Cycle.mem_dates_iff.mp hmem
  obtain ⟨hyear, hnumber, hdays⟩ := mem_datesOfYear_iff.mp hnext
  -- The months and days that are taken from the anchor are those of the date.
  have hmonths := monthsFor_eq hnumber
  exact {
    steps := ⟨k, hyear⟩
    step_eq := rfl
    datesIn_eq := by
      funext year
      show pattern.datesOfYear next year = pattern.datesOfYear anchor year
      simp only [datesOfYear, hmonths, daysOfMonth_eq hdays hleap]
    mem_first := by
      show next ∈ pattern.datesOfYear anchor next.year
      rw [hyear]
      exact hnext
    reaches := fun year date hdate _ => by
      have hle := Date.year_le date.le_last
      rw [year_of_mem hdate] at hle
      exact ⟨hle, hle⟩ }

end YearlyPattern

end Patterns

namespace Pattern

variable {pattern : Pattern} {rule : Rule} {anchor next last : Date}

theorem refuse_eq_ok_iff {α : Type} {part : Key} {there : Bool}
    {otherwise : Except ExpansionError α} {result : α} :
    refuse rule part there otherwise = .ok result ↔ there = false ∧ otherwise = .ok result := by
  unfold refuse
  cases there <;> simp

/-- A pattern of a rule is the pattern of its frequency, once the other parts have been checked. -/
theorem exists_ofFrequency (hpattern : ofRule rule = .ok pattern) :
    ∃ interval weekdays, ofFrequency rule interval weekdays = .ok pattern := by
  unfold ofRule at hpattern
  split at hpattern
  · cases hpattern
  · rw [refuse_eq_ok_iff, refuse_eq_ok_iff] at hpattern
    obtain ⟨_, _, hchecked⟩ := hpattern
    split at hchecked
    · cases hchecked
    · exact ⟨_, _, hchecked⟩

/-- Only yearly rules have yearly patterns, with the days of the month of the rule. -/
theorem of_ofRule_yearly {yearly : YearlyPattern} (hpattern : ofRule rule = .ok (.yearly yearly)) :
    rule.frequency = .yearly ∧ yearly.monthDays = rule.byMonthDay := by
  obtain ⟨interval, weekdays, hfrequency⟩ := exists_ofFrequency hpattern
  unfold ofFrequency at hfrequency
  -- Every other frequency has a pattern of its own, or none.
  cases hcase : rule.frequency <;> simp only [hcase, refuse_eq_ok_iff, reduceCtorEq,
    Except.ok.injEq, Pattern.yearly.injEq, and_false] at hfrequency
  obtain ⟨_, _, rfl⟩ := hfrequency
  exact ⟨rfl, rfl⟩

/-- A pattern goes on from each of its dates, if it is no leap day or the anchor is one as well. -/
theorem continues (hpattern : ofRule rule = .ok pattern)
    (hleap : rule.frequency = .yearly → rule.byMonthDay = [] →
      YearlyPattern.isLeapDay next = YearlyPattern.isLeapDay anchor)
    (hlast : last.dayNumber + 7 ≤ Calendar.lastDay)
    (hmem : next ∈ (pattern.cycle anchor Date.last).dates) :
    (pattern.cycle next Date.last).Continues (pattern.cycle anchor Date.last) next last := by
  cases pattern with
  | daily pattern => exact DailyPattern.continues hmem
  | weekly pattern => exact WeeklyPattern.continues hlast hmem
  | monthly pattern => exact MonthlyPattern.continues hmem
  | yearly pattern =>
    obtain ⟨hyearly, hdays⟩ := of_ofRule_yearly hpattern
    exact YearlyPattern.continues (fun hnone => hleap hyearly (hdays ▸ hnone)) hmem

theorem exists_ascends (pattern : Pattern) (anchor horizon : Date) :
    ∃ start, (pattern.cycle anchor horizon).Ascends start := by
  cases pattern with
  | daily pattern => exact ⟨_, pattern.ascends anchor horizon⟩
  | weekly pattern => exact ⟨_, pattern.ascends anchor horizon⟩
  | monthly pattern => exact ⟨_, pattern.ascends anchor horizon⟩
  | yearly pattern => exact ⟨_, pattern.ascends anchor horizon⟩

theorem mem_datesFrom_iff {date : Date} :
    date ∈ pattern.datesFrom anchor ↔
      date ∈ (pattern.cycle anchor Date.last).dates ∧ anchor ≤ date := by
  unfold datesFrom
  rw [List.mem_filter, decide_eq_true_eq]

/-- **The dates of a pattern go on** from each of them. -/
theorem filter_datesFrom (hpattern : ofRule rule = .ok pattern)
    (hleap : rule.frequency = .yearly → rule.byMonthDay = [] →
      YearlyPattern.isLeapDay next = YearlyPattern.isLeapDay anchor)
    (hlast : last.dayNumber + 7 ≤ Calendar.lastDay) (hmem : next ∈ pattern.datesFrom anchor) :
    (pattern.datesFrom next).filter (· ≤ last)
      = ((pattern.datesFrom anchor).filter (next ≤ ·)).filter (· ≤ last) := by
  obtain ⟨hnext, hanchor⟩ := mem_datesFrom_iff.mp hmem
  obtain ⟨start, hasc⟩ := pattern.exists_ascends anchor Date.last
  have hcont := continues hpattern hleap hlast hnext
  apply DateSet.eq_of_ascending
  · -- Both sides ascend, so they are the same if they have the same members.
    exact (pattern.pairwise_datesFrom next).filter _
  · exact ((pattern.pairwise_datesFrom anchor).filter _).filter _
  · intro date
    simp only [List.mem_filter, mem_datesFrom_iff, decide_eq_true_eq]
    constructor
    · rintro ⟨⟨hdate, hle⟩, hreach⟩
      have hsame := (hcont.mem_dates_iff hasc hle hreach).mp hdate
      exact ⟨⟨⟨hsame, Int.le_trans hanchor hle⟩, hle⟩, hreach⟩
    · rintro ⟨⟨⟨hdate, _⟩, hle⟩, hreach⟩
      exact ⟨⟨(hcont.mem_dates_iff hasc hle hreach).mpr hdate, hle⟩, hreach⟩

end Pattern

/-! ## §3 The count that is left -/

/-- In an ascending list, what is left from a place on are the dates from the one at that place. -/
theorem Date.drop_eq_filter {dates : List Date} {place : Nat} {next : Date}
    (hasc : dates.Pairwise (· < ·)) (hnext : dates[place]? = some next) :
    dates.drop place = dates.filter (next ≤ ·) := by
  induction dates generalizing place with
  | nil => simp at hnext
  | cons date rest ih =>
    obtain ⟨hhead, hrest⟩ := List.pairwise_cons.mp hasc
    cases place with
    | zero =>
      -- The head itself is the date, and all others are later.
      rw [List.getElem?_cons_zero, Option.some.injEq] at hnext
      subst hnext
      symm
      rw [List.drop_zero, List.filter_eq_self]
      intro other hother
      rcases List.mem_cons.mp hother with rfl | hlater
      · exact decide_eq_true (Int.le_refl _)
      · exact decide_eq_true (Int.le_of_lt (hhead other hlater))
    | succ place =>
      -- The head is before the date, so it goes on both sides.
      rw [List.getElem?_cons_succ] at hnext
      have hbefore := hhead next (List.mem_of_getElem? hnext)
      rw [List.drop_succ_cons, ih hrest hnext, List.filter_cons_of_neg]
      exact fun hle => Int.not_le.mpr hbefore (of_decide_eq_true hle)

namespace Limits

variable {limits : Limits} {dates : List Date} {next : Date}

/-- What is left after a number of dates. -/
def spendMany (limits : Limits) (dates : Nat) : Limits :=
  { limits with remaining := limits.remaining.map (· - dates) }

theorem spendMany_zero (limits : Limits) : limits.spendMany 0 = limits := by
  cases limits with
  | mk remaining untilDate => cases remaining <;> rfl

theorem spendMany_succ (limits : Limits) (place : Nat) :
    limits.spendMany (place + 1) = limits.spend.spendMany place := by
  simp only [spendMany, spend, Option.map_map]
  congr 2
  funext count
  simp only [Function.comp]
  omega

/-- **What limits leave of the rest** is the rest of what they leave, once they are spent on the
dates before it. -/
theorem drop_cut {place : Nat} (hnext : (limits.cut dates)[place]? = some next) :
    dates[place]? = some next ∧
      (limits.spendMany place).cut (dates.drop place) = (limits.cut dates).drop place := by
  induction dates generalizing limits place with
  | nil => simp [cut_nil] at hnext
  | cons date rest ih =>
    -- As there is a date at the place, the limits are not spent and allow the first one.
    by_cases hspent : limits.remaining = some 0
    · simp [cut_of_spent _ hspent] at hnext
    by_cases hallowed : limits.allows date = true
    · rw [cut_cons date rest hspent, if_pos hallowed] at hnext ⊢
      cases place with
      | zero =>
        -- Nothing is spent yet.
        rw [spendMany_zero, List.drop_zero, List.drop_zero, cut_cons date rest hspent,
          if_pos hallowed]
        exact ⟨hnext, rfl⟩
      | succ place =>
        -- One date is spent, and the rest is what is left of it.
        rw [spendMany_succ]
        exact ih hnext
    · simp [cut_cons date rest hspent, hallowed] at hnext

/-- A last day cuts the same off before and after the limits do. -/
theorem filter_cut_le (hasc : dates.Pairwise (· < ·)) (last : Date) :
    (limits.cut dates).filter (· ≤ last) = limits.cut (dates.filter (· ≤ last)) := by
  have hasc' := hasc.filter (· ≤ last)
  unfold cut
  cases limits.remaining with
  | none =>
    -- Both cuts are by a day, and filters commute.
    rw [takeWhile_allows hasc, takeWhile_allows hasc', List.filter_filter, List.filter_filter]
    simp only [Bool.and_comm]
  | some count =>
    -- The last day is a cut of an ascending list, which commutes with that of the count.
    have htake := hasc.sublist (List.take_sublist count dates)
    have hcount : (dates.take count).filter (· ≤ last) = (dates.filter (· ≤ last)).take count := by
      rw [← Date.takeWhile_le_eq_filter htake, ← List.take_takeWhile,
        Date.takeWhile_le_eq_filter hasc]
    dsimp only
    rw [takeWhile_allows htake, takeWhile_allows (hasc'.sublist (List.take_sublist count _)),
      ← hcount, List.filter_filter, List.filter_filter]
    simp only [Bool.and_comm]

end Limits

namespace Series

theorem dates_last (series : Series) :
    series.dates Date.last = series.limits.cut (series.pattern.datesFrom series.anchor) := by
  unfold dates
  rw [candidates_last]

/-- **The dates of a series go on** from each of them, with the limits that it leaves. -/
theorem filter_dates_spendMany {rule : Rule} {pattern : Pattern} {limits : Limits}
    {anchor next last : Date} {place : Nat} (hpattern : Pattern.ofRule rule = .ok pattern)
    (hnext : (dates ⟨anchor, pattern, limits⟩ Date.last)[place]? = some next)
    (hleap : rule.frequency = .yearly → rule.byMonthDay = [] →
      YearlyPattern.isLeapDay next = YearlyPattern.isLeapDay anchor)
    (hlast : last.dayNumber + 7 ≤ Calendar.lastDay) :
    (dates ⟨next, pattern, limits.spendMany place⟩ Date.last).filter (· ≤ last)
      = ((dates ⟨anchor, pattern, limits⟩ Date.last).filter (next ≤ ·)).filter (· ≤ last) := by
  have hasc := pattern.pairwise_datesFrom anchor
  have hwhole := pairwise_dates ⟨anchor, pattern, limits⟩ Date.last
  rw [dates_last] at hnext hwhole
  obtain ⟨hplace, hrest⟩ := Limits.drop_cut hnext
  rw [dates_last, dates_last]
  calc ((limits.spendMany place).cut (pattern.datesFrom next)).filter (· ≤ last)
      = (limits.spendMany place).cut ((pattern.datesFrom next).filter (· ≤ last)) :=
        Limits.filter_cut_le (pattern.pairwise_datesFrom next) last
    _ = (limits.spendMany place).cut
          (((pattern.datesFrom anchor).filter (next ≤ ·)).filter (· ≤ last)) := by
        rw [Pattern.filter_datesFrom hpattern hleap hlast (List.mem_of_getElem? hplace)]
    _ = ((limits.spendMany place).cut ((pattern.datesFrom anchor).filter (next ≤ ·))).filter
          (· ≤ last) := (Limits.filter_cut_le (hasc.filter _) last).symm
    _ = ((limits.cut (pattern.datesFrom anchor)).filter (next ≤ ·)).filter (· ≤ last) := by
        -- The dates from `next` on are those from its place on, before the limits and after.
        rw [← Date.drop_eq_filter hasc hplace, hrest, Date.drop_eq_filter hwhole hnext]

end Series

/-! ## §4 Rules that go on -/

/-- The part of a list that lies in a window is in the part from a date on that is not after the
window's first day. -/
theorem Window.clip_filter_first {window : Window} {anchor next : Date} {dates : List Date}
    (hanchor : anchor ≤ next) (hfirst : next ≤ window.first) :
    window.clip next (dates.filter (next ≤ ·)) = window.clip anchor dates := by
  unfold clip
  rw [List.filter_filter]
  apply List.filter_congr
  intro date _
  rw [← Bool.decide_and, decide_eq_decide, Date.le_def, Date.le_def, Date.le_def, Date.le_def,
    Date.dayNumber_max, Date.dayNumber_max]
  rw [Date.le_def] at hanchor hfirst
  omega

namespace Rule

variable {options : Options} {rule : Rule} {anchor next : Date} {window : Window} {series : Series}
  {place : Nat}

/-- A rule with the count that is left after a number of dates. -/
def spend (rule : Rule) (dates : Nat) : Rule :=
  { rule with count := rule.count.map fun count => Int64.ofInt (count.toInt - dates) }

theorem limitsOf_spend {limits : Limits} (hlimits : Series.limitsOf rule = .ok limits)
    (hleft : ∀ count, rule.count = some count → (place : Int) < count.toInt) :
    Series.limitsOf (rule.spend place) = .ok (limits.spendMany place) := by
  obtain ⟨_, rfl⟩ := limitsOf_eq_ok_iff.mp hlimits
  rw [limitsOf_eq_ok_iff]
  unfold spend Limits.spendMany
  cases hcount : rule.count with
  -- There is no count to spend.
  | none => exact ⟨rfl, rfl⟩
  | some count =>
    -- The dates are fewer than the count, so what is left is positive and fits.
    have hplace := hleft count hcount
    have hlow := count.minValue_le_toInt
    have hhigh := count.toInt_lt
    have hspent : (Int64.ofInt (count.toInt - place)).toInt = count.toInt - place :=
      Int64.toInt_ofInt_of_le (by omega) (by omega)
    simp only [Option.map_some, Option.all_some, decide_eq_true_eq, hspent, Limits.mk.injEq,
      Option.some.injEq, and_true]
    omega

/-- A series goes on as the series of the rule with the count that is left. -/
theorem ofRule_spend (hseries : Series.ofRule rule anchor = .ok series)
    (hnext : (series.dates Date.last)[place]? = some next) :
    Series.ofRule (rule.spend place) next
      = .ok ⟨next, series.pattern, series.limits.spendMany place⟩ := by
  obtain ⟨limits, pattern, hlimits, hpattern, rfl⟩ := ofRule_eq_ok_iff.mp hseries
  have hleft : ∀ count, rule.count = some count → (place : Int) < count.toInt := by
    intro count hcount
    -- The date has its place among as many dates as the count allows.
    obtain ⟨hpos, hremaining⟩ := count_of_series hseries hcount
    have hplace := (List.getElem?_eq_some_iff.mp hnext).1
    have hlength := Nat.lt_of_lt_of_le hplace (Series.length_dates_le hremaining)
    omega
  exact ofRule_eq_ok_iff.mpr ⟨_, pattern, limitsOf_spend hlimits hleft, hpattern, rfl⟩

/-- **A rule goes on from each of its dates.** Anchored at a date of its series, and with the count
that is left, it answers with the same dates for every window from that date on that ends a week
before the calendar. For a yearly rule that leaves the day of the month open, the date has to be a
leap day if the anchor is one and must not be one otherwise. -/
theorem occurrences_resume {whole : List Date}
    (hwhole : rule.occurrences .unlimited (some anchor) ⟨anchor, Date.last⟩ = .ok whole)
    (hnext : whole[place]? = some next)
    (hleap : rule.frequency = .yearly → rule.byMonthDay = [] →
      YearlyPattern.isLeapDay next = YearlyPattern.isLeapDay anchor)
    (hfirst : next ≤ window.first) (hlast : window.last.dayNumber + 7 ≤ Calendar.lastDay) :
    ∃ dates, rule.occurrences options (some anchor) window = .ok dates ∧
      (rule.spend place).occurrences options (some next) window = .ok dates := by
  obtain ⟨series, hseries, rfl⟩ := occurrences_unlimited_eq_ok_iff.mp hwhole
  refine ⟨_, occurrences_of_series hseries, ?_⟩
  rw [occurrences_of_series (ofRule_spend hseries hnext)]
  have hanchor := Series.anchor_le_of_mem_dates (List.mem_of_getElem? hnext)
  rw [anchor_of_series hseries] at hanchor
  obtain ⟨limits, pattern, _, hpattern, rfl⟩ := ofRule_eq_ok_iff.mp hseries
  -- The window ends before the calendar does, and from the date on both series are the same.
  rw [← Window.clip_filter_last, Series.filter_dates_spendMany hpattern hnext hleap hlast,
    Window.clip_filter_last, Window.clip_filter_first hanchor hfirst]

/-- The last Monday or Friday of every second month, six times. -/
def lastMeetings : Rule :=
  { every .monthly with
    interval := 2
    byDay := ["MO", "FR"]
    bySetPos := [-1]
    count := some 6 }

theorem occurrences_resume_lastMeetings :
    lastMeetings.occurrences .unlimited (some (.ofParts 2024 1 15)) ⟨.ofParts 2024 1 15, Date.last⟩
      = .ok [.ofParts 2024 1 29, .ofParts 2024 3 29, .ofParts 2024 5 31, .ofParts 2024 7 29,
          .ofParts 2024 9 30, .ofParts 2024 11 29] ∧
    [Date.ofParts 2024 1 29, .ofParts 2024 3 29, .ofParts 2024 5 31, .ofParts 2024 7 29,
      .ofParts 2024 9 30, .ofParts 2024 11 29][2]? = some (.ofParts 2024 5 31) ∧
    (lastMeetings.frequency = .yearly → lastMeetings.byMonthDay = [] →
      YearlyPattern.isLeapDay (.ofParts 2024 5 31) = YearlyPattern.isLeapDay (.ofParts 2024 1 15)) ∧
    Date.ofParts 2024 5 31 ≤ .ofParts 2024 6 1 ∧
    (Date.ofParts 2026 12 31).dayNumber + 7 ≤ Calendar.lastDay ∧
    ∃ dates, lastMeetings.occurrences {} (some (.ofParts 2024 1 15))
        ⟨.ofParts 2024 6 1, .ofParts 2026 12 31⟩ = .ok dates ∧
      (lastMeetings.spend 2).occurrences {} (some (.ofParts 2024 5 31))
        ⟨.ofParts 2024 6 1, .ofParts 2026 12 31⟩ = .ok dates := by
  have hwhole : lastMeetings.occurrences .unlimited (some (.ofParts 2024 1 15))
      ⟨.ofParts 2024 1 15, Date.last⟩
        = .ok [.ofParts 2024 1 29, .ofParts 2024 3 29, .ofParts 2024 5 31, .ofParts 2024 7 29,
            .ofParts 2024 9 30, .ofParts 2024 11 29] := rfl
  have hleap : lastMeetings.frequency = .yearly → lastMeetings.byMonthDay = [] →
      YearlyPattern.isLeapDay (.ofParts 2024 5 31)
        = YearlyPattern.isLeapDay (.ofParts 2024 1 15) := by decide
  have hfirst : Date.ofParts 2024 5 31 ≤ .ofParts 2024 6 1 := by decide
  have hlast : (Date.ofParts 2026 12 31).dayNumber + 7 ≤ Calendar.lastDay := by decide
  exact ⟨hwhole, rfl, hleap, hfirst, hlast, occurrences_resume hwhole rfl hleap hfirst hlast⟩

/-- The anchor's day in January and February, four times. -/
def firstTwoMonths : Rule :=
  { every .yearly with
    byMonth := [1, 2]
    count := some 4 }

/-- It is not enough that the anchor is no leap day: a rule that is anchored on January 29 comes to
February 29 in a leap year and has no such date in the next, while from February 29 on it has
February 28. -/
theorem not_forall_occurrences_resume :
    ¬ ∀ (options : Options) (rule : Rule) (anchor next : Date) (place : Nat) (window : Window)
        (whole : List Date),
      rule.occurrences .unlimited (some anchor) ⟨anchor, Date.last⟩ = .ok whole →
      whole[place]? = some next →
      ¬ (rule.frequency = .yearly ∧ rule.byMonthDay = [] ∧
        YearlyPattern.isLeapDay anchor = true) →
      next ≤ window.first → window.last.dayNumber + 7 ≤ Calendar.lastDay →
      rule.occurrences options (some anchor) window
        = (rule.spend place).occurrences options (some next) window := by
  intro hall
  have hwhole : firstTwoMonths.occurrences .unlimited (some (.ofParts 2024 1 29))
      ⟨.ofParts 2024 1 29, Date.last⟩
        = .ok [.ofParts 2024 1 29, .ofParts 2024 2 29, .ofParts 2025 1 29, .ofParts 2026 1 29] :=
    rfl
  -- Neither anchor is a leap day of a rule that leaves the day open.
  have hsame := hall {} firstTwoMonths (.ofParts 2024 1 29) (.ofParts 2024 2 29) 1
    ⟨.ofParts 2024 2 29, .ofParts 2025 12 31⟩ _ hwhole rfl (by decide) (by decide) (by decide)
  have hanchored : firstTwoMonths.occurrences {} (some (.ofParts 2024 1 29))
      ⟨.ofParts 2024 2 29, .ofParts 2025 12 31⟩
        = .ok [.ofParts 2024 2 29, .ofParts 2025 1 29] := rfl
  have hresumed : (firstTwoMonths.spend 1).occurrences {} (some (.ofParts 2024 2 29))
      ⟨.ofParts 2024 2 29, .ofParts 2025 12 31⟩
        = .ok [.ofParts 2024 2 29, .ofParts 2025 1 29, .ofParts 2025 2 28] := rfl
  rw [hanchored, hresumed, Except.ok.injEq] at hsame
  exact absurd (congrArg List.length hsame) (by decide)

end Rule

end RecurringDates
