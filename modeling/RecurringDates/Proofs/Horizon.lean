import RecurringDates.Occurrences
import RecurringDates.Proofs.Listing
import RecurringDates.Series.Ascending

/-!
# A horizon only cuts

A query looks at the periods of a series up to a horizon, the earlier of the last day of its window
and the last day of the series. Its answer is nevertheless a part of the one series that only the
end of the calendar cuts, and whose count is spent from the anchor on.

The main statements say that a series has the same dates up to a horizon whichever horizon it is
computed for (`Series.mem_candidates_iff`), that a query answers with a part of the whole series
(`Series.inWindow_eq_clip`), and when a rule has an answer and which (`Rule.occurrences_eq_ok_iff`).
-/

namespace RecurringDates

/-! ## §1 The periods of a cycle -/

namespace Cycle

variable {cycle further : Cycle} {date : Date}

/-- The dates of a number of periods are those of one after the other. -/
theorem datesFrom_eq_flatMap (cycle : Cycle) (left : Nat) (period : Int) :
    cycle.datesFrom left period
      = (List.range left).flatMap fun k : Nat => cycle.datesIn (period + cycle.step * k) := by
  induction left generalizing period with
  | zero => rfl
  | succ left ih =>
    have hshift : ∀ k : Nat, period + cycle.step + cycle.step * k
        = period + cycle.step * (k + 1 : Nat) := by
      intro k
      rw [Int.natCast_add, Int.mul_add]
      omega
    -- The first step is the period itself; all others are steps from the next one.
    rw [datesFrom, ih, List.range_succ_eq_map, List.flatMap_cons, List.flatMap_map]
    simp only [hshift, Int.natCast_zero, Int.mul_zero, Int.add_zero]

theorem mem_datesFrom_iff {left : Nat} {period : Int} :
    date ∈ cycle.datesFrom left period ↔
      ∃ k : Nat, k < left ∧ date ∈ cycle.datesIn (period + cycle.step * k) := by
  rw [datesFrom_eq_flatMap, List.mem_flatMap]
  simp only [List.mem_range]

/-- A cycle has a period after so many steps if that period is not past its last one. -/
theorem lt_size_iff {k : Nat} : k < cycle.size ↔ cycle.first + cycle.step * k ≤ cycle.last := by
  have hstep : ((k : Int) + 1) * cycle.step = cycle.step * k + cycle.step := by
    rw [Int.add_mul, Int.mul_comm, Int.one_mul]
  unfold size
  rw [Int.lt_toNat, ← Int.add_one_le_iff, Int.le_ediv_iff_mul_le cycle.step_pos, hstep]
  omega

/-- **A cycle has the dates of the periods it steps to**, up to its last one. -/
theorem mem_dates_iff : date ∈ cycle.dates ↔ ∃ k : Nat,
    cycle.first + cycle.step * k ≤ cycle.last ∧
      date ∈ cycle.datesIn (cycle.first + cycle.step * k) := by
  unfold dates
  rw [mem_datesFrom_iff]
  simp only [lt_size_iff]

/-- A cycle that stops earlier than another one and is otherwise the same, but not before a period
that has a date up to the horizon. -/
structure CutsAt (cycle further : Cycle) (horizon : Date) : Prop where
  first_eq : cycle.first = further.first
  step_eq : cycle.step = further.step
  datesIn_eq : cycle.datesIn = further.datesIn
  last_le : cycle.last ≤ further.last
  reaches : ∀ period ≤ further.last, ∀ date ∈ further.datesIn period, date ≤ horizon →
    period ≤ cycle.last

/-- What is cut off lies past the horizon. -/
theorem CutsAt.mem_dates_iff {horizon : Date} (hcut : cycle.CutsAt further horizon)
    (hle : date ≤ horizon) : date ∈ cycle.dates ↔ date ∈ further.dates := by
  rw [Cycle.mem_dates_iff, Cycle.mem_dates_iff, hcut.first_eq, hcut.step_eq, hcut.datesIn_eq]
  constructor
  · rintro ⟨k, hlast, hmem⟩
    exact ⟨k, Int.le_trans hlast hcut.last_le, hmem⟩
  · rintro ⟨k, hlast, hmem⟩
    exact ⟨k, hcut.reaches _ hlast date hmem hle, hmem⟩

end Cycle

/-! ## §2 The horizon of a pattern -/

namespace Date

theorem month_index_le {a b : Date} (hle : a ≤ b) : a.month.index ≤ b.month.index := by
  refine Int.not_lt.mp fun hlt => ?_
  -- A later month would begin no earlier than the month after that of `b`, and so after `b`.
  have hnext : b.month.next.firstDay ≤ a.month.firstDay := by
    apply Month.firstDay_le_of_le
    simp only [Month.next, Month.add]
    omega
  have hbelow := Month.lt_firstDay_ofDay_next b.dayNumber
  have habove := Month.firstDay_ofDay_le a.dayNumber
  rw [le_def] at hle
  simp only [month] at hnext
  omega

theorem year_le {a b : Date} (hle : a ≤ b) : a.year ≤ b.year := by
  have hindex := month_index_le hle
  simp only [year, Month.year]
  omega

end Date

theorem DailyPattern.cutsAt (pattern : DailyPattern) (anchor horizon : Date) :
    (pattern.cycle anchor horizon).CutsAt (pattern.cycle anchor Date.last) horizon where
  first_eq := rfl
  step_eq := rfl
  datesIn_eq := rfl
  last_le := horizon.le_lastDay
  reaches day _ date hmem hle := by
    have hday := dayNumber_of_mem hmem
    rw [Date.le_def] at hle
    simp only [cycle]
    omega

theorem WeeklyPattern.cutsAt (pattern : WeeklyPattern) (anchor horizon : Date) :
    (pattern.cycle anchor horizon).CutsAt (pattern.cycle anchor Date.last) horizon where
  first_eq := rfl
  step_eq := rfl
  datesIn_eq := rfl
  last_le := by
    have hlast := horizon.le_lastDay
    simp only [cycle, Date.last]
    omega
  reaches week hweek date hmem hle := by
    -- A week has no date before its first day.
    have hstart := (pattern.ascends anchor Date.last).start_le week date hmem
    rw [Date.le_def] at hle
    simp only [cycle, id] at *
    omega

theorem MonthlyPattern.cutsAt (pattern : MonthlyPattern) (anchor horizon : Date) :
    (pattern.cycle anchor horizon).CutsAt (pattern.cycle anchor Date.last) horizon where
  first_eq := rfl
  step_eq := rfl
  datesIn_eq := rfl
  last_le := Date.month_index_le horizon.le_last
  reaches index _ date hmem hle := by
    have hindex := Date.month_index_le hle
    rw [month_of_mem hmem] at hindex
    exact hindex

theorem YearlyPattern.cutsAt (pattern : YearlyPattern) (anchor horizon : Date) :
    (pattern.cycle anchor horizon).CutsAt (pattern.cycle anchor Date.last) horizon where
  first_eq := rfl
  step_eq := rfl
  datesIn_eq := rfl
  last_le := Date.year_le horizon.le_last
  reaches year _ date hmem hle := by
    have hyear := Date.year_le hle
    rw [year_of_mem hmem] at hyear
    exact hyear

theorem Pattern.cutsAt (pattern : Pattern) (anchor horizon : Date) :
    (pattern.cycle anchor horizon).CutsAt (pattern.cycle anchor Date.last) horizon := by
  cases pattern with
  | daily pattern => exact pattern.cutsAt anchor horizon
  | weekly pattern => exact pattern.cutsAt anchor horizon
  | monthly pattern => exact pattern.cutsAt anchor horizon
  | yearly pattern => exact pattern.cutsAt anchor horizon

/-- The dates of a pattern from an anchor on, as far as the calendar goes. -/
def Pattern.datesFrom (pattern : Pattern) (anchor : Date) : List Date :=
  (pattern.cycle anchor Date.last).dates.filter (anchor ≤ ·)

theorem Series.candidates_last (series : Series) :
    series.candidates Date.last = series.pattern.datesFrom series.anchor :=
  Cycle.dates_filter _ _

theorem Pattern.pairwise_datesFrom (pattern : Pattern) (anchor : Date) :
    (pattern.datesFrom anchor).Pairwise (· < ·) := by
  have hasc := Series.pairwise_candidates ⟨anchor, pattern, Limits.ended⟩ Date.last
  rwa [Series.candidates_last] at hasc

/-! ## §3 The limits of a series -/

namespace Limits

variable {limits : Limits}

/-- A last date allows whatever is earlier than a date that it allows. -/
theorem allows_of_lt {a b : Date} (hlt : a < b) (hallowed : limits.allows b = true) :
    limits.allows a = true := by
  unfold allows at *
  split at hallowed
  · rfl
  · simp only [decide_eq_true_eq, Date.lt_def, Date.le_def] at *
    omega

theorem takeWhile_allows {dates : List Date} (hasc : dates.Pairwise (· < ·)) :
    dates.takeWhile limits.allows = dates.filter limits.allows :=
  Date.takeWhile_eq_filter hasc fun _ _ => allows_of_lt

theorem filter_allows_endless (remaining : Option Nat) (dates : List Date) :
    dates.filter (allows ⟨remaining, none⟩) = dates :=
  List.filter_eq_self.mpr fun _ _ => rfl

/-- Up to a last day, limits leave what their count leaves of the dates up to the horizon. -/
private theorem filter_cut {dates : List Date} {horizon last : Date}
    (hasc : dates.Pairwise (· < ·))
    (hhorizon : ∀ date : Date, date ≤ horizon ↔ limits.allows date = true ∧ date ≤ last) :
    (limits.cut dates).filter (· ≤ last)
      = Limits.cut ⟨limits.remaining, none⟩ (dates.filter (· ≤ horizon)) := by
  have hboth : (fun date => decide (date ≤ last) && limits.allows date)
      = fun date => decide (date ≤ horizon) := by
    funext date
    rw [Bool.eq_iff_iff, Bool.and_eq_true, decide_eq_true_eq, decide_eq_true_eq, hhorizon, and_comm]
  have hasc' := hasc.filter (· ≤ horizon)
  unfold cut
  cases limits.remaining with
  | none =>
    -- Without a count the limits are a filter, and filters commute.
    rw [takeWhile_allows hasc, List.filter_filter, hboth, takeWhile_allows hasc',
      filter_allows_endless]
  | some count =>
    -- With a count the horizon is a cut of an ascending list, which commutes with the count's.
    have htake := hasc.sublist (List.take_sublist count dates)
    have htake' := hasc'.sublist (List.take_sublist count _)
    dsimp only
    rw [takeWhile_allows htake, List.filter_filter, hboth, takeWhile_allows htake',
      filter_allows_endless, ← Date.takeWhile_le_eq_filter htake, ← List.take_takeWhile,
      Date.takeWhile_le_eq_filter hasc]

end Limits

namespace Series

variable (series : Series)

/-- **The horizon loses no date**: up to it, a series has the dates that it has without it. -/
theorem mem_candidates_iff {horizon date : Date} (hle : date ≤ horizon) :
    date ∈ series.candidates horizon ↔ date ∈ series.candidates Date.last := by
  unfold candidates cycle
  rw [Cycle.dates_filter, Cycle.dates_filter, List.mem_filter, List.mem_filter,
    (series.pattern.cutsAt series.anchor horizon).mem_dates_iff hle]

theorem filter_candidates (horizon : Date) :
    (series.candidates horizon).filter (· ≤ horizon)
      = (series.candidates Date.last).filter (· ≤ horizon) := by
  apply DateSet.eq_of_ascending
  · exact (series.pairwise_candidates horizon).filter _
  · exact (series.pairwise_candidates Date.last).filter _
  · intro date
    simp only [List.mem_filter, decide_eq_true_eq]
    exact and_congr_left series.mem_candidates_iff

theorem pairwise_dates (horizon : Date) : (series.dates horizon).Pairwise (· < ·) :=
  (series.pairwise_candidates horizon).sublist (Limits.cut_sublist _ _)

/-- A date is within the horizon of a query exactly if the series may have it and the window does
not end before it. -/
theorem le_horizon_iff {window : Window} {date : Date} :
    date ≤ series.horizon window ↔ series.limits.allows date = true ∧ date ≤ window.last := by
  unfold horizon Limits.allows
  cases series.limits.untilDate with
  | none => simp
  | some untilDate =>
    simp only [decide_eq_true_eq, Date.le_def, Date.dayNumber_min]
    omega

/-- Up to the last day of a window, the limits leave the same of the series whether or not the
query's horizon has cut it before. -/
theorem filter_dates_horizon (window : Window) :
    (series.dates (series.horizon window)).filter (· ≤ window.last)
      = (series.dates Date.last).filter (· ≤ window.last) := by
  have hhorizon : ∀ date, date ≤ series.horizon window ↔
      series.limits.allows date = true ∧ date ≤ window.last := fun _ => series.le_horizon_iff
  unfold dates
  rw [Limits.filter_cut (series.pairwise_candidates _) hhorizon,
    Limits.filter_cut (series.pairwise_candidates _) hhorizon, filter_candidates]

end Series

/-! ## §4 Answers -/

/-- The dates of a list that lie in a window and not before an anchor. -/
def Window.clip (window : Window) (anchor : Date) (dates : List Date) : List Date :=
  dates.filter fun date => max anchor window.first ≤ date ∧ date ≤ window.last

theorem Window.mem_clip_iff {window : Window} {anchor date : Date} {dates : List Date} :
    date ∈ window.clip anchor dates ↔
      date ∈ dates ∧ max anchor window.first ≤ date ∧ date ≤ window.last := by
  simp [clip]

/-- A cut after the window's last day changes nothing in the window. -/
theorem Window.clip_filter_last (window : Window) (anchor : Date) (dates : List Date) :
    window.clip anchor (dates.filter (· ≤ window.last)) = window.clip anchor dates := by
  unfold clip
  rw [List.filter_filter]
  apply List.filter_congr
  intro date _
  simp only [Bool.decide_and, Bool.and_assoc, Bool.and_self]

/-- **A query answers with a part of the whole series**, cut to its cap. -/
theorem Series.inWindow_eq_clip (series : Series) (window : Window) (cap : Nat) :
    series.inWindow window cap
      = (window.clip series.anchor (series.dates Date.last)).take cap := by
  have hasc := series.pairwise_dates (series.horizon window)
  -- On an ascending list the query's skip and its cut are filters.
  have hquery : ((series.dates (series.horizon window)).dropWhile
      (· < series.lower window)).takeWhile (· ≤ window.last)
        = window.clip series.anchor (series.dates (series.horizon window)) := by
    rw [Date.dropWhile_lt_eq_filter hasc, Date.takeWhile_le_eq_filter (hasc.filter _),
      List.filter_filter]
    apply List.filter_congr
    intro date _
    rw [Bool.and_comm, Bool.decide_and]
    rfl
  rw [inWindow_eq, hquery, ← Window.clip_filter_last, filter_dates_horizon,
    Window.clip_filter_last]

namespace Rule

variable {options : Options} {rule : Rule} {anchor : Date} {window : Window}

/-- The dates that are left of a list when the count of a rule is spent on its first ones. -/
def countCut (rule : Rule) (dates : List Date) : List Date :=
  match rule.count with
  | none => dates
  | some count => dates.take count.toInt.toNat

/-- The dates of a list that are not past the last date of a rule. -/
def untilCut (rule : Rule) (dates : List Date) : List Date :=
  match rule.untilDate with
  | none => dates
  | some untilDate => dates.filter (· ≤ untilDate)

theorem limitsOf_eq_ok_iff {limits : Limits} :
    Series.limitsOf rule = .ok limits ↔ (rule.count.all fun count => 0 < count.toInt) = true ∧
      limits = ⟨rule.count.map fun count => count.toInt.toNat, rule.untilDate⟩ := by
  unfold Series.limitsOf
  cases rule.count with
  | none => simp [eq_comm]
  | some count =>
    -- A number of dates is a limit only if it is positive.
    by_cases hpos : 0 < count.toInt
    · simp [hpos, eq_comm]
    · simp [hpos]

theorem ofRule_eq_ok_iff {series : Series} :
    Series.ofRule rule anchor = .ok series ↔
      ∃ limits pattern, Series.limitsOf rule = .ok limits ∧ Pattern.ofRule rule = .ok pattern ∧
        series = ⟨anchor, pattern, limits⟩ := by
  unfold Series.ofRule
  cases Series.limitsOf rule with
  | error cause => simp
  | ok limits =>
    cases Pattern.ofRule rule with
    | error cause => simp
    | ok pattern => simp [eq_comm]

theorem occurrences_of_series {series : Series} (hseries : Series.ofRule rule anchor = .ok series) :
    rule.occurrences options (some anchor) window
      = .ok ((window.clip anchor (series.dates Date.last)).take options.maxOccurrences.toNat) := by
  obtain ⟨limits, pattern, _, _, rfl⟩ := ofRule_eq_ok_iff.mp hseries
  simp only [occurrences, hseries, Series.inWindow_eq_clip]

theorem untilCut_eq_filter (remaining : Option Nat) (dates : List Date) :
    rule.untilCut dates = dates.filter (Limits.allows ⟨remaining, rule.untilDate⟩) := by
  unfold untilCut
  cases rule.untilDate with
  | none => exact (Limits.filter_allows_endless remaining dates).symm
  | some untilDate => rfl

/-- The whole series of a rule: its count is spent from the anchor on, and then its last date
ends it. -/
theorem dates_last_eq {limits : Limits} {pattern : Pattern}
    (hlimits : Series.limitsOf rule = .ok limits) :
    Series.dates ⟨anchor, pattern, limits⟩ Date.last
      = rule.untilCut (rule.countCut (pattern.datesFrom anchor)) := by
  obtain ⟨_, rfl⟩ := limitsOf_eq_ok_iff.mp hlimits
  have hasc := pattern.pairwise_datesFrom anchor
  unfold Series.dates
  rw [Series.candidates_last, untilCut_eq_filter]
  unfold countCut Limits.cut
  cases rule.count with
  | none => exact Limits.takeWhile_allows hasc
  | some count => exact Limits.takeWhile_allows (hasc.sublist (List.take_sublist _ _))

/-- **When a rule has an answer, and which.** A rule whose count is positive and whose parts can be
checked answers with its dates from the anchor to the end of the calendar, of which the count
leaves the first ones, the last date those up to it, the window those inside, and the cap the
first ones again. Every other rule fails. -/
theorem occurrences_eq_ok_iff {dates : List Date} :
    rule.occurrences options (some anchor) window = .ok dates ↔
      (rule.count.all fun count => 0 < count.toInt) = true ∧
        ∃ pattern, Pattern.ofRule rule = .ok pattern ∧
          dates = (window.clip anchor
            (rule.untilCut (rule.countCut (pattern.datesFrom anchor)))).take
              options.maxOccurrences.toNat := by
  constructor
  · -- A rule that answers has a series, and the series tells which dates those are.
    intro hanswer
    cases hseries : Series.ofRule rule anchor with
    | error cause => simp [occurrences, hseries] at hanswer
    | ok series =>
      obtain ⟨limits, pattern, hlimits, hpattern, rfl⟩ := ofRule_eq_ok_iff.mp hseries
      rw [occurrences_of_series hseries, Except.ok.injEq, dates_last_eq hlimits] at hanswer
      exact ⟨(limitsOf_eq_ok_iff.mp hlimits).1, pattern, hpattern, hanswer.symm⟩
  · -- The limits and the pattern that can be made are those of a series.
    rintro ⟨hcount, pattern, hpattern, rfl⟩
    have hlimits := limitsOf_eq_ok_iff.mpr ⟨hcount, rfl⟩
    have hseries : Series.ofRule rule anchor = .ok ⟨anchor, pattern, _⟩ :=
      ofRule_eq_ok_iff.mpr ⟨_, pattern, hlimits, hpattern, rfl⟩
    rw [occurrences_of_series hseries, dates_last_eq hlimits]

end Rule

end RecurringDates
