import RecurringDates.Proofs.Horizon

/-!
# Bounds on answers

Whatever a rule asks for, its answers are in order and within bounds: no date comes twice, none lies
outside the window, before the anchor or past the rule's last date, and there are no more of them
than the cap and the count allow. A series as a whole has at most one date for every day of the
calendar, so there is a cap that no series reaches.

The main statements are `Rule.occurrences_within` (the bounds on every answer) and
`Rule.occurrences_unlimited` (the answer that is the whole series).
-/

namespace RecurringDates

/-! ## §1 Dates that the limits let through -/

namespace Series

variable {series : Series} {horizon date : Date}

/-- A series has no date that its limits forbid. -/
theorem allows_of_mem (hmem : date ∈ series.dates horizon) : series.limits.allows date = true := by
  unfold dates Limits.cut at hmem
  split at hmem
  · exact List.all_eq_true.mp List.all_takeWhile date hmem
  · exact List.all_eq_true.mp List.all_takeWhile date hmem

/-- A series has no more dates than its limits leave. -/
theorem length_dates_le {count : Nat} (hcount : series.limits.remaining = some count) :
    (series.dates horizon).length ≤ count := by
  unfold dates Limits.cut
  rw [hcount]
  exact Nat.le_trans (List.takeWhile_sublist _).length_le (List.length_take_le _ _)

/-- A series has no date before its anchor, whatever its limits. -/
theorem anchor_le_of_mem_dates (hmem : date ∈ series.dates horizon) : series.anchor ≤ date :=
  anchor_le_of_mem ((Limits.cut_sublist _ _).subset hmem)

end Series

/-! ## §2 Every answer -/

namespace Rule

variable {options : Options} {rule : Rule} {anchor : Date} {window : Window} {series : Series}

/-- Every answer is the answer of a series. -/
theorem exists_series {dates : List Date}
    (hanswer : rule.occurrences options (some anchor) window = .ok dates) :
    ∃ series, Series.ofRule rule anchor = .ok series ∧
      dates = (window.clip anchor (series.dates Date.last)).take options.maxOccurrences.toNat := by
  cases hseries : Series.ofRule rule anchor with
  | error cause => simp [occurrences, hseries] at hanswer
  | ok series =>
    rw [occurrences_of_series hseries, Except.ok.injEq] at hanswer
    exact ⟨series, rfl, hanswer.symm⟩

theorem anchor_of_series (hseries : Series.ofRule rule anchor = .ok series) :
    series.anchor = anchor := by
  obtain ⟨limits, pattern, _, _, rfl⟩ := ofRule_eq_ok_iff.mp hseries
  rfl

theorem untilDate_of_series (hseries : Series.ofRule rule anchor = .ok series) :
    series.limits.untilDate = rule.untilDate := by
  obtain ⟨limits, pattern, hlimits, _, rfl⟩ := ofRule_eq_ok_iff.mp hseries
  obtain ⟨_, rfl⟩ := limitsOf_eq_ok_iff.mp hlimits
  rfl

/-- A count that is no number of dates has no series. -/
theorem count_of_series {count : Int64} (hseries : Series.ofRule rule anchor = .ok series)
    (hcount : rule.count = some count) :
    0 < count.toInt ∧ series.limits.remaining = some count.toInt.toNat := by
  obtain ⟨limits, pattern, hlimits, _, rfl⟩ := ofRule_eq_ok_iff.mp hseries
  obtain ⟨hpos, rfl⟩ := limitsOf_eq_ok_iff.mp hlimits
  simp only [hcount, Option.all_some, decide_eq_true_eq] at hpos
  refine ⟨hpos, ?_⟩
  rw [hcount]
  rfl

/-- **Every answer is in order and within bounds.** Its dates ascend strictly, lie in the window and
neither before the anchor nor past the last date of the rule, and are at most as many as the cap and
the count allow. -/
theorem occurrences_within {dates : List Date}
    (hanswer : rule.occurrences options (some anchor) window = .ok dates) :
    dates.Pairwise (· < ·) ∧
      (∀ date ∈ dates, max anchor window.first ≤ date ∧ date ≤ window.last ∧
        ∀ untilDate, rule.untilDate = some untilDate → date ≤ untilDate) ∧
      dates.length ≤ options.maxOccurrences.toNat ∧
      ∀ count, rule.count = some count → (dates.length : Int) ≤ count.toInt := by
  obtain ⟨series, hseries, rfl⟩ := exists_series hanswer
  -- The answer is a part of the whole series, in the same order.
  have hpart : ((window.clip anchor (series.dates Date.last)).take
      options.maxOccurrences.toNat).Sublist (series.dates Date.last) :=
    (List.take_sublist _ _).trans List.filter_sublist
  refine ⟨(series.pairwise_dates Date.last).sublist hpart, fun date hmem => ?_,
    List.length_take_le _ _, fun count hcount => ?_⟩
  · obtain ⟨hdate, hfirst, hlast⟩ := Window.mem_clip_iff.mp (List.mem_of_mem_take hmem)
    refine ⟨hfirst, hlast, fun untilDate huntil => ?_⟩
    have hallowed := Series.allows_of_mem hdate
    simp only [Limits.allows, untilDate_of_series hseries, huntil] at hallowed
    exact of_decide_eq_true hallowed
  · obtain ⟨hpos, hremaining⟩ := count_of_series hseries hcount
    have hlength := Nat.le_trans hpart.length_le (Series.length_dates_le hremaining)
    omega

/-- The middle and the last day of every month, asked for among days that no month has, and the last
day asked for a second time. -/
def crowdedMonths : Rule :=
  { every .monthly with
    byMonthDay := [-1, 40, 0, 15, -1, -60]
    count := some 5
    untilDate := some (.ofParts 2024 3 20) }

theorem occurrences_within_crowdedMonths :
    crowdedMonths.occurrences { maxOccurrences := 3 } (some (.ofParts 2024 1 20))
        ⟨.ofParts 2024 1 1, .ofParts 2024 12 31⟩
      = .ok [.ofParts 2024 1 31, .ofParts 2024 2 15, .ofParts 2024 2 29] ∧
    [Date.ofParts 2024 1 31, .ofParts 2024 2 15, .ofParts 2024 2 29].Pairwise (· < ·) ∧
      (∀ date ∈ [Date.ofParts 2024 1 31, .ofParts 2024 2 15, .ofParts 2024 2 29],
        max (.ofParts 2024 1 20) (.ofParts 2024 1 1) ≤ date ∧ date ≤ .ofParts 2024 12 31 ∧
          ∀ untilDate, some (.ofParts 2024 3 20) = some untilDate → date ≤ untilDate) ∧
      3 ≤ 3 ∧ ∀ count, some (5 : Int64) = some count → (3 : Int) ≤ count.toInt := by
  have hanswer : crowdedMonths.occurrences { maxOccurrences := 3 } (some (.ofParts 2024 1 20))
      ⟨.ofParts 2024 1 1, .ofParts 2024 12 31⟩
        = .ok [.ofParts 2024 1 31, .ofParts 2024 2 15, .ofParts 2024 2 29] := rfl
  exact ⟨hanswer, occurrences_within hanswer⟩

end Rule

/-! ## §3 The whole series -/

/-- The options under which a question looks at all dates of a series. -/
def Options.unlimited : Options where
  maxOccurrences := 18446744073709551615

/-- The window from the anchor to a last day holds the dates of a series up to that day. -/
theorem Series.clip_from_anchor (series : Series) (last : Date) :
    Window.clip ⟨series.anchor, last⟩ series.anchor (series.dates Date.last)
      = (series.dates Date.last).filter (· ≤ last) := by
  unfold Window.clip
  apply List.filter_congr
  intro date hmem
  have hanchor := Series.anchor_le_of_mem_dates hmem
  rw [decide_eq_decide]
  apply and_iff_right
  rw [Date.le_def] at hanchor
  rw [Date.le_def, Date.dayNumber_max]
  exact Int.max_le.mpr ⟨hanchor, hanchor⟩

/-- **The whole series** is the answer for the window from the anchor to the end of the calendar,
without a cap. -/
theorem Rule.occurrences_unlimited {rule : Rule} {anchor : Date} {series : Series}
    (hseries : Series.ofRule rule anchor = .ok series) :
    rule.occurrences .unlimited (some anchor) ⟨anchor, Date.last⟩
      = .ok (series.dates Date.last) := by
  -- There are no more dates than days in the calendar, and far fewer days than the cap.
  have hlength : (series.dates Date.last).length ≤ Options.unlimited.maxOccurrences.toNat :=
    Nat.le_trans (Date.length_le_of_ascending (series.pairwise_dates Date.last)
      (fun date _ => date.firstDay_le) fun date _ => Int.lt_add_one_of_le date.le_lastDay)
        (by decide)
  have hanchor := anchor_of_series hseries
  subst hanchor
  have hall : (series.dates Date.last).filter (· ≤ Date.last) = series.dates Date.last :=
    List.filter_eq_self.mpr fun date _ => decide_eq_true date.le_last
  rw [occurrences_of_series hseries, Series.clip_from_anchor, hall, List.take_of_length_le hlength]

theorem Rule.occurrences_unlimited_eq_ok_iff {rule : Rule} {anchor : Date} {whole : List Date} :
    rule.occurrences .unlimited (some anchor) ⟨anchor, Date.last⟩ = .ok whole ↔
      ∃ series, Series.ofRule rule anchor = .ok series ∧ whole = series.dates Date.last := by
  constructor
  · intro hwhole
    obtain ⟨series, hseries, _⟩ := exists_series hwhole
    rw [occurrences_unlimited hseries, Except.ok.injEq] at hwhole
    exact ⟨series, hseries, hwhole.symm⟩
  · rintro ⟨series, hseries, rfl⟩
    exact occurrences_unlimited hseries

end RecurringDates
