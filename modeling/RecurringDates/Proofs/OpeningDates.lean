import RecurringDates.Proofs.Answers
import RecurringDates.Proofs.Units

/-!
# The date that opens a series

A rule that picks no days repeats its anchor, and so its series begins with the anchor: on every day
of the calendar, at every interval, with any limits that leave a date at all. The one exception are
weeks that begin before the calendar. A week is passed over whole if its first day is no date, and
with it goes an anchor that lies in it, although the anchor is a date.

The main statement is `Rule.occurrences_opening_iff`. It rests on `Rule.IsBare.exists_pattern`
(which patterns have their anchor) and on `Rule.exists_occurrences_cons` (what an answer does with a
date that no other precedes).
-/

namespace RecurringDates

/-! ## §1 The first of a list -/

/-- A date that no date of an ascending list precedes is the first, if it is in the list at all. -/
theorem Date.exists_eq_cons_of_mem {dates : List Date} {first : Date}
    (hasc : dates.Pairwise (· < ·)) (hle : ∀ date ∈ dates, first ≤ date) (hmem : first ∈ dates) :
    ∃ later, dates = first :: later := by
  cases dates with
  | nil => cases hmem
  | cons date later =>
    rcases List.mem_cons.mp hmem with rfl | hlater
    · exact ⟨later, rfl⟩
    · -- The head would be before the date and not before it.
      have hbefore := (List.pairwise_cons.mp hasc).1 first hlater
      have hafter := hle date List.mem_cons_self
      rw [lt_def] at hbefore
      rw [le_def] at hafter
      omega

namespace Rule

variable {options : Options} {rule : Rule} {anchor : Date} {window : Window} {interval : Interval}

/-! ## §2 Patterns that repeat their anchor -/

/-- A rule without any part that picks days. -/
structure IsBare (rule : Rule) : Prop extends rule.IsSimple where
  byDay_eq : rule.byDay = []
  byMonthDay_eq : rule.byMonthDay = []
  byMonth_eq : rule.byMonth = []

/-- If a rule goes by weeks, the week of its anchor begins inside the calendar. -/
def BeginsInside (rule : Rule) (anchor : Date) : Prop :=
  rule.frequency = .weekly → Calendar.firstDay ≤ anchor.weekStart rule.weekStart

instance (rule : Rule) (anchor : Date) : Decidable (rule.BeginsInside anchor) :=
  inferInstanceAs (Decidable (_ → _))

/-- Only weeks can begin before the calendar when a date of theirs does not. -/
theorem beginsInside_of_ne (hunit : rule.frequency ≠ .weekly) : rule.BeginsInside anchor :=
  fun hweekly => absurd hweekly hunit

theorem inUnits_self {frequency : Frequency} (hunit : rule.frequency = frequency) :
    rule.inUnits frequency rule.interval rule.weekStart = rule := by
  subst hunit
  rfl

namespace IsBare

theorem anchor_mem_dailyCycle (hrule : rule.IsBare) :
    anchor ∈ ((rule.dailyPattern interval []).cycle anchor Date.last).dates := by
  rw [mem_dailyCycle_iff (Int.le_refl _)]
  refine ⟨Or.inl rfl, Or.inl hrule.byMonth_eq, Or.inl hrule.byMonthDay_eq, ?_⟩
  rw [Date.daysTo, Int.sub_self]
  exact Int.dvd_zero _

/-- Only the week of the anchor can keep it out of its own series. -/
theorem anchor_mem_weeklyCycle_iff (hrule : rule.IsBare) :
    anchor ∈ ((rule.weeklyPattern interval []).cycle anchor Date.last).dates ↔
      Calendar.firstDay ≤ anchor.weekStart rule.weekStart := by
  have hmonth : anchor.month.isIn rule.byMonth = true :=
    isIn_byMonth_iff.mpr (Or.inl hrule.byMonth_eq)
  have hdistance : 7 * interval.value ∣ anchor.daysTo anchor := by
    rw [Date.daysTo, Int.sub_self]
    exact Int.dvd_zero _
  rw [WeeklyPattern.mem_cycle_iff_of_bare rfl (Int.le_refl _)]
  exact and_iff_left ⟨hmonth, hdistance⟩

/-- The anchor's month has the anchor's day. -/
theorem anchor_mem_monthlyCycle (hrule : rule.IsBare) :
    anchor ∈ ((rule.monthlyPattern interval []).cycle anchor Date.last).dates := by
  have hnumbers : ¬ (rule.monthlyPattern interval []).monthDays ≠ [] :=
    not_not_intro hrule.byMonthDay_eq
  have htokens : ¬ (rule.monthlyPattern interval []).weekdays ≠ [] := not_not_intro rfl
  rw [mem_monthlyCycle_of_simple hrule.toIsSimple (Int.le_refl _)]
  refine ⟨Or.inl hrule.byMonth_eq, ?_, ?_⟩
  · -- Neither day numbers nor weekdays are given, so the day of the anchor is chosen.
    rw [MonthlyPattern.daysOfMonth, if_neg hnumbers, if_neg htokens, DateSet.mem_ofList,
      Option.mem_toList]
    exact Month.date?_month_day anchor
  · rw [Date.monthsTo, Int.sub_self]
    exact Int.dvd_zero _

/-- A leap day stands in its own February, so that no other day takes its place. -/
theorem anchor_mem_yearlyCycle (hrule : rule.IsBare) :
    anchor ∈ ((rule.yearlyPattern interval).cycle anchor Date.last).dates := by
  have hmonths : (rule.yearlyPattern interval).months = [] := hrule.byMonth_eq
  have hnumbers : (rule.yearlyPattern interval).monthDays = [] := hrule.byMonthDay_eq
  rw [mem_yearlyCycle_iff (Int.le_refl _)]
  refine ⟨?_, ?_, ?_⟩
  · -- Without months the year is asked about the anchor's month only.
    rw [YearlyPattern.monthsFor, if_pos hmonths]
    exact List.mem_singleton_self _
  · rw [YearlyPattern.daysOfMonth, if_pos hnumbers, Option.mem_toList, YearlyPattern.anchorDayIn?,
      Month.date?_month_day]
  · rw [Int.sub_self]
    exact Int.dvd_zero _

/-- **A rule that picks no days passes every check, and its pattern has the anchor** unless the week
of the anchor begins before the calendar. -/
theorem exists_pattern (hrule : rule.IsBare)
    (hunit : rule.frequency ∈ [.daily, .weekly, .monthly, .yearly])
    (hinterval : 1 ≤ rule.interval.toInt ∧ rule.interval.toInt ≤ 4294967295) (anchor : Date) :
    ∃ pattern, Pattern.ofRule rule = .ok pattern ∧
      (anchor ∈ pattern.datesFrom anchor ↔ rule.BeginsInside anchor) := by
  have hdays := weekdays_eq_of_byDay hrule.byDay_eq
  obtain ⟨interval, hvalue⟩ : ∃ interval : Interval, interval.value = rule.interval.toInt :=
    ⟨⟨rule.interval.toInt, by omega, by omega⟩, rfl⟩
  -- From the anchor on, a pattern has what its periods have.
  have hdates : ∀ pattern : Pattern, anchor ∈ pattern.datesFrom anchor ↔
      anchor ∈ (pattern.cycle anchor Date.last).dates := by
    intro pattern
    rw [Pattern.mem_datesFrom_iff]
    exact and_iff_left (Int.le_refl _)
  simp only [hdates]
  -- Each unit has its own cycle, and only that of weeks depends on where one begins.
  cases hfrequency : rule.frequency with
  | secondly | minutely | hourly =>
    -- The rule goes by none of these units.
    rw [hfrequency] at hunit
    simp at hunit
  | daily =>
    have hpattern : Pattern.ofRule (rule.inUnits .daily rule.interval rule.weekStart) = _ :=
      hrule.toIsSimple.ofRule_daily hdays hvalue
    rw [inUnits_self hfrequency] at hpattern
    exact ⟨_, hpattern,
      iff_of_true hrule.anchor_mem_dailyCycle (beginsInside_of_ne (by simp [hfrequency]))⟩
  | weekly =>
    have hpattern : Pattern.ofRule (rule.inUnits .weekly rule.interval rule.weekStart) = _ :=
      hrule.toIsSimple.ofRule_weekly hdays hvalue hrule.byMonthDay_eq
    rw [inUnits_self hfrequency] at hpattern
    refine ⟨_, hpattern, hrule.anchor_mem_weeklyCycle_iff.trans ?_⟩
    exact ⟨fun hinside _ => hinside, fun hinside => hinside hfrequency⟩
  | monthly =>
    have hpattern : Pattern.ofRule (rule.inUnits .monthly rule.interval rule.weekStart) = _ :=
      hrule.toIsSimple.ofRule_monthly hdays hvalue
    rw [inUnits_self hfrequency] at hpattern
    exact ⟨_, hpattern,
      iff_of_true hrule.anchor_mem_monthlyCycle (beginsInside_of_ne (by simp [hfrequency]))⟩
  | yearly =>
    have hpattern : Pattern.ofRule (rule.inUnits .yearly rule.interval rule.weekStart) = _ :=
      hrule.toIsSimple.ofRule_yearly hrule.byDay_eq hvalue
    rw [inUnits_self hfrequency] at hpattern
    exact ⟨_, hpattern,
      iff_of_true hrule.anchor_mem_yearlyCycle (beginsInside_of_ne (by simp [hfrequency]))⟩

end IsBare

/-! ## §3 Answers that begin with the anchor -/

theorem count_all_pos (hcount : ∀ count, rule.count = some count → 1 ≤ count.toInt) :
    (rule.count.all fun count => 0 < count.toInt) = true := by
  cases hcounted : rule.count with
  | none => rfl
  | some count => exact decide_eq_true (Int.lt_of_lt_of_le Int.one_pos (hcount count hcounted))

/-- Limits that leave a date leave the first one. -/
theorem exists_untilCut_countCut_cons (later : List Date)
    (hcount : ∀ count, rule.count = some count → 1 ≤ count.toInt)
    (huntil : ∀ untilDate, rule.untilDate = some untilDate → anchor ≤ untilDate) :
    ∃ rest, rule.untilCut (rule.countCut (anchor :: later)) = anchor :: rest := by
  have hkept : ∃ kept, rule.countCut (anchor :: later) = anchor :: kept := by
    unfold countCut
    cases hcounted : rule.count with
    | none => exact ⟨later, rfl⟩
    | some count =>
      have hpos := hcount count hcounted
      obtain ⟨n, hn⟩ : ∃ n, count.toInt.toNat = n + 1 := ⟨count.toInt.toNat - 1, by omega⟩
      exact ⟨later.take n, by simp only [hn, List.take_succ_cons]⟩
  -- The count has left the anchor, and the last date allows it.
  obtain ⟨kept, hkept⟩ := hkept
  rw [hkept]
  unfold untilCut
  cases hends : rule.untilDate with
  | none => exact ⟨kept, rfl⟩
  | some untilDate =>
    exact ⟨_, List.filter_cons_of_pos (decide_eq_true (huntil untilDate hends))⟩

/-- Limits only take dates away. -/
theorem limits_sublist (dates : List Date) :
    (rule.untilCut (rule.countCut dates)).Sublist dates := by
  have hcounted : (rule.countCut dates).Sublist dates := by
    unfold countCut
    split
    · exact List.Sublist.refl _
    · exact List.take_sublist _ _
  refine List.Sublist.trans ?_ hcounted
  unfold untilCut
  split
  · exact List.Sublist.refl _
  · exact List.filter_sublist

/-- **An answer begins with the anchor** if the pattern of the rule has it, the limits and the
window allow it and the cap leaves a date. -/
theorem exists_occurrences_cons {pattern : Pattern} (hpattern : Pattern.ofRule rule = .ok pattern)
    (hmem : anchor ∈ pattern.datesFrom anchor)
    (hcount : ∀ count, rule.count = some count → 1 ≤ count.toInt)
    (huntil : ∀ untilDate, rule.untilDate = some untilDate → anchor ≤ untilDate)
    (hfirst : window.first ≤ anchor) (hlast : anchor ≤ window.last)
    (hcap : 1 ≤ options.maxOccurrences.toNat) :
    ∃ later, rule.occurrences options (some anchor) window = .ok (anchor :: later) := by
  have hanchor : ∀ date ∈ pattern.datesFrom anchor, anchor ≤ date :=
    fun date hdate => (Pattern.mem_datesFrom_iff.mp hdate).2
  have hwithin : max anchor window.first ≤ anchor ∧ anchor ≤ window.last := by
    refine ⟨?_, hlast⟩
    rw [Date.le_def] at *
    rw [Date.dayNumber_max]
    omega
  -- The anchor stays in front through the limits, the window and the cap.
  obtain ⟨later, hseries⟩ :=
    Date.exists_eq_cons_of_mem (pattern.pairwise_datesFrom anchor) hanchor hmem
  obtain ⟨rest, hlimits⟩ := exists_untilCut_countCut_cons later hcount huntil
  obtain ⟨n, hn⟩ : ∃ n, options.maxOccurrences.toNat = n + 1 :=
    ⟨options.maxOccurrences.toNat - 1, by omega⟩
  refine ⟨(window.clip anchor rest).take n,
    occurrences_eq_ok_iff.mpr ⟨count_all_pos hcount, pattern, hpattern, ?_⟩⟩
  have hclip : window.clip anchor (anchor :: rest) = anchor :: window.clip anchor rest :=
    List.filter_cons_of_pos (decide_eq_true hwithin)
  rw [hseries, hlimits, hclip, hn, List.take_succ_cons]

/-- **The anchor opens the series, unless its week begins before the calendar.** A rule that picks
no days, with an interval in range and limits that allow the anchor, answers for every window that
holds the anchor with no earlier date, and with the anchor itself exactly if its week does not begin
before the calendar where the rule goes by weeks. -/
theorem occurrences_opening_iff (options : Options) {anchor : Date} {window : Window}
    (hrule : rule.IsBare) (hunit : rule.frequency ∈ [.daily, .weekly, .monthly, .yearly])
    (hinterval : 1 ≤ rule.interval.toInt ∧ rule.interval.toInt ≤ 4294967295)
    (hcount : ∀ count, rule.count = some count → 1 ≤ count.toInt)
    (huntil : ∀ untilDate, rule.untilDate = some untilDate → anchor ≤ untilDate)
    (hfirst : window.first ≤ anchor) (hlast : anchor ≤ window.last)
    (hcap : 1 ≤ options.maxOccurrences.toNat) :
    ∃ dates, rule.occurrences options (some anchor) window = .ok dates ∧
      (∀ date ∈ dates, anchor ≤ date) ∧ (anchor ∈ dates ↔ rule.BeginsInside anchor) := by
  obtain ⟨pattern, hpattern, hopens⟩ := hrule.exists_pattern hunit hinterval anchor
  have hanswer : rule.occurrences options (some anchor) window = _ :=
    occurrences_eq_ok_iff.mpr ⟨count_all_pos hcount, pattern, hpattern, rfl⟩
  refine ⟨_, hanswer, ?_, ?_⟩
  · -- No answer has a date before its anchor.
    intro date hdate
    have hbounds := (occurrences_within hanswer).2.1 date hdate
    have hlower := hbounds.1
    rw [Date.le_def, Date.dayNumber_max] at hlower
    rw [Date.le_def]
    omega
  · rw [← hopens]
    constructor
    · -- Limits, window and cap add no date that the pattern lacks.
      intro hmem
      have hclipped := (Window.mem_clip_iff.mp (List.mem_of_mem_take hmem)).1
      exact (limits_sublist _).subset hclipped
    · -- A pattern that has its anchor begins with it, and so does the answer.
      intro hmem
      obtain ⟨later, hcons⟩ := exists_occurrences_cons hpattern hmem hcount huntil hfirst hlast hcap
      have hsame := Except.ok.inj (hanswer.symm.trans hcons)
      rw [hsame]
      exact List.mem_cons_self

/-- The first day of the calendar alone, in the one week that begins there. -/
def calendarOpening : Rule :=
  { every .weekly with
    interval := 4294967295
    count := some 1
    untilDate := some Date.first
    weekStart := .thursday }

theorem occurrences_opening_iff_firstDay :
    ∃ dates, calendarOpening.occurrences { maxOccurrences := 1 } (some Date.first)
        ⟨Date.first, Date.first⟩ = .ok dates ∧
      (∀ date ∈ dates, Date.first ≤ date) ∧
        (Date.first ∈ dates ↔ calendarOpening.BeginsInside Date.first) :=
  calendarOpening.occurrences_opening_iff { maxOccurrences := 1 }
    ⟨⟨rfl, rfl, rfl⟩, rfl, rfl, rfl⟩ (by decide) (by decide)
    (fun count hset => by cases hset; decide) (fun untilDate hset => by cases hset; decide)
    (by decide) (by decide) (by decide)

/-- The week of the first day of the calendar begins on a Monday that is no date, and so a plain
weekly rule passes over its own anchor. -/
theorem not_forall_anchor_mem_occurrences :
    ¬ ∀ (options : Options) (rule : Rule) (anchor : Date) (window : Window), rule.IsBare →
      rule.frequency ∈ [.daily, .weekly, .monthly, .yearly] →
      1 ≤ rule.interval.toInt ∧ rule.interval.toInt ≤ 4294967295 →
      (∀ count, rule.count = some count → 1 ≤ count.toInt) →
      (∀ untilDate, rule.untilDate = some untilDate → anchor ≤ untilDate) →
      window.first ≤ anchor → anchor ≤ window.last → 1 ≤ options.maxOccurrences.toNat →
      ∃ dates, rule.occurrences options (some anchor) window = .ok dates ∧
        anchor ∈ dates ∧ ∀ date ∈ dates, anchor ≤ date := by
  intro hopens
  obtain ⟨dates, hanswer, hmem, _⟩ := hopens {} (every .weekly) Date.first
    ⟨Date.first, .ofParts (-262143) 1 31⟩ ⟨⟨rfl, rfl, rfl⟩, rfl, rfl, rfl⟩ (by decide)
    (by decide) (fun count hset => by cases hset) (fun untilDate hset => by cases hset)
    (by decide) (by decide) (by decide)
  have hcomputed : (every .weekly).occurrences {} (some Date.first)
      ⟨Date.first, .ofParts (-262143) 1 31⟩
        = .ok [.ofParts (-262143) 1 8, .ofParts (-262143) 1 15, .ofParts (-262143) 1 22,
          .ofParts (-262143) 1 29] := rfl
  rw [hcomputed, Except.ok.injEq] at hanswer
  subst hanswer
  revert hmem
  decide

end Rule

end RecurringDates
