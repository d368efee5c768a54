import RecurringDates.Proofs.Walk

/-!
# How many dates there are

The number of dates up to a last day leaves the exceptions out, but only after the cap has been put
on. So it is the number of all dates that are no exceptions, as far as the cap goes, only where no
exception uses up the cap. Below the cap it is always that number, and it goes up by one from each
date to the next.

The main statements are `Rule.countOccurrences_eq_min_iff` (what the number is, and when it is the
one expected) and `Rule.nextOccurrence_countOccurrences` (the next date and the number of dates see
the same series).
-/

namespace RecurringDates

/-! ## §1 Exceptions among the first dates -/

namespace DateSet

variable {exceptions : DateSet} {dates : List Date} {cap : Nat}

/-- The dates that are no exceptions are those among the first ones and those among the others. -/
theorem length_dropFrom_take_add_drop (exceptions : DateSet) (dates : List Date) (cap : Nat) :
    (exceptions.dropFrom dates).length
      = (exceptions.dropFrom (dates.take cap)).length
        + (exceptions.dropFrom (dates.drop cap)).length := by
  unfold dropFrom
  rw [← List.length_append, ← List.filter_append, List.take_append_drop]

theorem length_dropFrom_le (exceptions : DateSet) (dates : List Date) :
    (exceptions.dropFrom dates).length ≤ dates.length :=
  List.length_filter_le _ _

theorem length_dropFrom_eq_iff :
    (exceptions.dropFrom dates).length = dates.length ↔ ∀ date ∈ dates, date ∉ exceptions := by
  simp [dropFrom, List.length_filter_eq_length_iff]

theorem length_dropFrom_eq_zero_iff :
    (exceptions.dropFrom dates).length = 0 ↔ ∀ date ∈ dates, date ∈ exceptions := by
  simp [dropFrom, List.filter_eq_nil_iff]

/-- What is dropped from a list and what is left of it make up the list. -/
theorem length_dropFrom_add_filter (exceptions : DateSet) (dates : List Date) :
    (exceptions.dropFrom dates).length + (dates.filter (· ∈ exceptions)).length = dates.length := by
  have hsplit : dates.length = _ :=
    List.length_eq_length_filter_add fun date => decide (date ∉ exceptions)
  simp only [decide_not, Bool.not_not] at hsplit
  simp only [dropFrom, decide_not]
  exact hsplit.symm

/-- **The first dates hold as many as expected** that are no exceptions exactly if none of them is
one, or if no date after them is left to make up for it. -/
theorem length_dropFrom_take_eq_min_iff :
    (exceptions.dropFrom (dates.take cap)).length = min cap (exceptions.dropFrom dates).length ↔
      (∀ date ∈ dates.take cap, date ∉ exceptions) ∨
        ∀ date ∈ dates.drop cap, date ∈ exceptions := by
  have hsplit := length_dropFrom_take_add_drop exceptions dates cap
  have hfront := length_dropFrom_le exceptions (dates.take cap)
  have hback := length_dropFrom_le exceptions (dates.drop cap)
  have htake := List.length_take_le cap dates
  rw [← length_dropFrom_eq_iff, ← length_dropFrom_eq_zero_iff]
  -- What is left is arithmetic on the lengths of the two parts and of what they keep.
  rw [List.length_take, List.length_drop] at *
  omega

/-- A cut after a last day and exceptions leave the same of a list in either order. -/
theorem dropFrom_filter (exceptions : DateSet) (dates : List Date) (test : Date → Bool) :
    exceptions.dropFrom (dates.filter test) = (exceptions.dropFrom dates).filter test :=
  List.filter_comm _ _ _

end DateSet

/-! ## §2 Dates up to a last day -/

namespace Date

variable {dates : List Date} {day last next : Date}

/-- Up to a later day there are the dates up to the earlier one and those in between. -/
theorem length_filter_le_eq_add (dates : List Date) (hle : day ≤ last) :
    (dates.filter (· ≤ last)).length
      = (dates.filter (· ≤ day)).length
        + (dates.filter fun date => day < date ∧ date ≤ last).length := by
  -- The dates up to the later day are those up to the earlier one and those after it.
  have hfront : (dates.filter (· ≤ last)).filter (· ≤ day) = dates.filter (· ≤ day) := by
    rw [List.filter_filter]
    apply List.filter_congr
    intro date _
    rw [← Bool.decide_and, decide_eq_decide]
    exact and_iff_left_of_imp fun hday => Int.le_trans hday hle
  have hback : (dates.filter (· ≤ last)).filter (fun date => !decide (date ≤ day))
      = dates.filter fun date => day < date ∧ date ≤ last := by
    rw [List.filter_filter]
    apply List.filter_congr
    intro date _
    rw [← decide_not, ← Bool.decide_and, decide_eq_decide]
    exact and_congr_left' Int.not_le
  rw [List.length_eq_length_filter_add (fun date : Date => decide (date ≤ day)), hfront, hback]

/-- The first date after a day is the only one after the day and up to it. -/
theorem filter_eq_singleton_of_head? (hasc : dates.Pairwise (· < ·))
    (hnext : (dates.filter fun date => day < date ∧ date ≤ last).head? = some next) :
    dates.filter (fun date => day < date ∧ date ≤ next) = [next] := by
  obtain ⟨later, hlater⟩ := List.head?_eq_some_iff.mp hnext
  have hasc' := hasc.filter fun date => day < date ∧ date ≤ last
  have hmem := List.mem_filter.mp (List.mem_of_head? hnext)
  rw [hlater, List.pairwise_cons] at hasc'
  apply DateSet.eq_of_ascending (hasc.filter _) (List.pairwise_singleton _ _)
  intro date
  simp only [List.mem_filter, List.mem_singleton, decide_eq_true_eq] at hmem ⊢
  constructor
  · rintro ⟨hdate, hday, hle⟩
    -- The next date is itself within the last day, so nothing up to it lies beyond.
    have hsought : date ∈ next :: later := by
      rw [← hlater, List.mem_filter]
      exact ⟨hdate, decide_eq_true ⟨hday, Int.le_trans hle hmem.2.2⟩⟩
    -- All others that are sought come after the first.
    rcases List.mem_cons.mp hsought with rfl | hother
    · rfl
    · exact absurd (hasc'.1 date hother) (Int.not_lt.mpr hle)
  · rintro rfl
    exact ⟨hmem.1, hmem.2.1, Int.le_refl _⟩

end Date

/-! ## §3 Numbers of dates -/

namespace Rule

variable {options : Options} {rule : Rule} {anchor day last : Date} {series : Series}
  {exceptions : DateSet}

/-- The number of dates is that of the first ones up to the last day, as many as the cap allows,
less the exceptions among these. -/
theorem countOccurrences_of_series (hseries : Series.ofRule rule anchor = .ok series) :
    rule.countOccurrences options (some anchor) last exceptions
      = .ok (exceptions.dropFrom (((series.dates Date.last).filter (· ≤ last)).take
          options.maxOccurrences.toNat)).length := by
  have hanchor := anchor_of_series hseries
  subst hanchor
  simp only [countOccurrences, occurrences_of_series hseries, Series.clip_from_anchor]

/-- Where the cap is not reached, the number of dates is that of all dates up to the last day that
are no exceptions. -/
theorem countOccurrences_of_uncut (hseries : Series.ofRule rule anchor = .ok series)
    (hcap : ((series.dates Date.last).filter (· ≤ last)).length ≤ options.maxOccurrences.toNat) :
    rule.countOccurrences options (some anchor) last exceptions
      = .ok ((exceptions.dropFrom (series.dates Date.last)).filter (· ≤ last)).length := by
  rw [countOccurrences_of_series hseries, List.take_of_length_le hcap, DateSet.dropFrom_filter]

/-- **The number of dates, and when it is the one expected.** Up to a last day a series has a number
of dates that are no exceptions. The answer is never more than that number and never more than the
cap. It is the smaller of the two exactly if none of the dates that the cap lets through is an
exception, or if every date after these is one; for it counts, of the dates that the cap lets
through, those that are no exceptions. -/
theorem countOccurrences_eq_min_iff {whole : List Date}
    (hwhole : rule.occurrences .unlimited (some anchor) ⟨anchor, Date.last⟩ = .ok whole)
    (options : Options) (last : Date) (exceptions : DateSet) :
    let reached := whole.filter (· ≤ last)
    let cap := options.maxOccurrences.toNat
    ∃ count, rule.countOccurrences options (some anchor) last exceptions = .ok count ∧
      count + ((reached.take cap).filter (· ∈ exceptions)).length = min cap reached.length ∧
      count ≤ min cap (exceptions.dropFrom reached).length ∧
      (count = min cap (exceptions.dropFrom reached).length ↔
        (∀ date ∈ reached.take cap, date ∉ exceptions) ∨
          ∀ date ∈ reached.drop cap, date ∈ exceptions) := by
  obtain ⟨series, hseries, rfl⟩ := occurrences_unlimited_eq_ok_iff.mp hwhole
  intro reached cap
  refine ⟨_, countOccurrences_of_series hseries, ?_, ?_, DateSet.length_dropFrom_take_eq_min_iff⟩
  · -- What the cap lets through is counted or an exception.
    rw [DateSet.length_dropFrom_add_filter, List.length_take]
  · -- What is counted is among what the cap lets through, and among what is no exception.
    have hcap := DateSet.length_dropFrom_le exceptions (reached.take cap)
    have hsplit := DateSet.length_dropFrom_take_add_drop exceptions reached cap
    have htake := List.length_take_le cap reached
    exact Nat.le_min.mpr ⟨Nat.le_trans hcap htake, Nat.le.intro hsplit.symm⟩

/-- Every day, five times. -/
def fiveDays : Rule :=
  { every .daily with count := some 5 }

theorem fiveDays_occurrences :
    fiveDays.occurrences .unlimited (some (.ofParts 2024 1 1)) ⟨.ofParts 2024 1 1, Date.last⟩
      = .ok [.ofParts 2024 1 1, .ofParts 2024 1 2, .ofParts 2024 1 3, .ofParts 2024 1 4,
          .ofParts 2024 1 5] :=
  rfl

/-- Of five days the second is an exception. Under a cap of three the number is two, although three
of the other four would be within the cap. -/
theorem countOccurrences_eq_min_iff_fiveDays :
    fiveDays.occurrences .unlimited (some (.ofParts 2024 1 1)) ⟨.ofParts 2024 1 1, Date.last⟩
      = .ok [.ofParts 2024 1 1, .ofParts 2024 1 2, .ofParts 2024 1 3, .ofParts 2024 1 4,
          .ofParts 2024 1 5] ∧
    ∃ count, fiveDays.countOccurrences { maxOccurrences := 3 } (some (.ofParts 2024 1 1))
        (.ofParts 2024 1 31) (.ofList [.ofParts 2024 1 2]) = .ok count ∧ count + 1 = 3 := by
  obtain ⟨count, hcount, hfirst, _⟩ := countOccurrences_eq_min_iff fiveDays_occurrences
    { maxOccurrences := 3 } (.ofParts 2024 1 31) (.ofList [.ofParts 2024 1 2])
  exact ⟨fiveDays_occurrences, count, hcount, hfirst⟩

/-- The exceptions are not left out before the cap is put on, so the number is not always the
smaller one of the cap and the number of dates that are no exceptions. -/
theorem not_forall_countOccurrences_eq_min :
    ¬ ∀ (options : Options) (rule : Rule) (anchor last : Date) (exceptions : DateSet)
        (whole : List Date),
      rule.occurrences .unlimited (some anchor) ⟨anchor, Date.last⟩ = .ok whole →
      rule.countOccurrences options (some anchor) last exceptions
        = .ok (min options.maxOccurrences.toNat
            (exceptions.dropFrom (whole.filter (· ≤ last))).length) := by
  intro hall
  have hthree := hall { maxOccurrences := 3 } fiveDays (.ofParts 2024 1 1) (.ofParts 2024 1 31)
    (.ofList [.ofParts 2024 1 2]) _ fiveDays_occurrences
  have htwo : fiveDays.countOccurrences { maxOccurrences := 3 } (some (.ofParts 2024 1 1))
      (.ofParts 2024 1 31) (.ofList [.ofParts 2024 1 2]) = .ok 2 := rfl
  rw [htwo, Except.ok.injEq] at hthree
  exact absurd hthree (by decide)

/-! ## §4 The next date and the number of dates -/

/-- The next date is not sought before the day itself. -/
theorem day_le_lastSought (options : Options) (day : Date) : day ≤ lastSought options day := by
  rw [le_lastSought_iff, Date.daysTo, Int.sub_self]
  exact Int.natCast_nonneg _

/-- There is a window to look ahead at after every day but the last. -/
theorem exists_lookahead? (options : Options) (hday : day < Date.last) :
    ∃ window, lookahead? options day = some window := by
  refine Option.ne_none_iff_exists'.mp fun hnone => ?_
  rw [lookahead?_eq_none_iff.mp hnone] at hday
  exact Int.lt_irrefl _ hday

/-- Where the cap is not reached, the next date is the first one after a day, and up to the last day
on which it is sought, that is no exception. -/
theorem nextOccurrence_of_length_le (hseries : Series.ofRule rule anchor = .ok series)
    (hday : day < Date.last)
    (hcap : ((series.dates Date.last).filter (· ≤ lastSought options day)).length
      ≤ options.maxOccurrences.toNat) :
    rule.nextOccurrence options (some anchor) day exceptions
      = .ok ((exceptions.dropFrom (series.dates Date.last)).filter
          fun date => day < date ∧ date ≤ lastSought options day).head? := by
  obtain ⟨window, hwindow⟩ := exists_lookahead? options hday
  have hlast := (lookahead?_eq_some_iff.mp hwindow).2
  -- The window has no more dates than there are up to its last day.
  have hpage : (window.clip anchor (series.dates Date.last)).length
      ≤ options.maxOccurrences.toNat := by
    rw [← Window.clip_filter_last, hlast]
    exact Nat.le_trans (List.length_filter_le _ _) hcap
  rw [nextOccurrence_of_uncut hseries hwindow (by rw [List.take_of_length_le hpage]),
    List.filter_filter]
  congr 3
  funext date
  rw [← Bool.decide_and, decide_eq_decide, le_lastSought_iff, and_comm]

/-- **The next date and the number of dates agree**, as long as the cap is not reached up to the
last day on which the next date is sought. The next date lies after the day and is the only one more
that there is up to it; if there is none, the number of dates stays the same up to that last day. -/
theorem nextOccurrence_countOccurrences {whole : List Date}
    (hwhole : rule.occurrences .unlimited (some anchor) ⟨anchor, Date.last⟩ = .ok whole)
    (hday : day < Date.last)
    (hcap : (whole.filter (· ≤ lastSought options day)).length ≤ options.maxOccurrences.toNat)
    (exceptions : DateSet) :
    ∃ next count, rule.nextOccurrence options (some anchor) day exceptions = .ok next ∧
      rule.countOccurrences options (some anchor) day exceptions = .ok count ∧
      (∀ date, next = some date → day < date ∧ date ≤ lastSought options day ∧
        rule.countOccurrences options (some anchor) date exceptions = .ok (count + 1)) ∧
      (next = none → rule.countOccurrences options (some anchor) (lastSought options day) exceptions
        = .ok count) := by
  obtain ⟨series, hseries, rfl⟩ := occurrences_unlimited_eq_ok_iff.mp hwhole
  have hasc := exceptions.pairwise_dropFrom (series.pairwise_dates Date.last)
  -- No number of dates that is asked for comes to the cap.
  have hcount : ∀ last, last ≤ lastSought options day →
      rule.countOccurrences options (some anchor) last exceptions
        = .ok ((exceptions.dropFrom (series.dates Date.last)).filter (· ≤ last)).length := by
    intro last hle
    have hfewer := Nat.le.intro
      (Date.length_filter_le_eq_add (series.dates Date.last) hle).symm
    exact countOccurrences_of_uncut hseries (Nat.le_trans hfewer hcap)
  refine ⟨_, _, nextOccurrence_of_length_le hseries hday hcap,
    hcount day (day_le_lastSought options day), ?_, ?_⟩
  · -- Between the day and the date there is only the date itself, so the number grows by one.
    intro date hnext
    obtain ⟨hlater, hreach⟩ := of_decide_eq_true (List.mem_filter.mp (List.mem_of_head? hnext)).2
    refine ⟨hlater, hreach, ?_⟩
    rw [hcount date hreach, Date.length_filter_le_eq_add _ (Int.le_of_lt hlater),
      Date.filter_eq_singleton_of_head? hasc hnext, List.length_singleton]
  · -- Nothing lies between the day and the last one, so the number stays the same.
    intro hnone
    rw [hcount _ (Int.le_refl _), Date.length_filter_le_eq_add _ (day_le_lastSought options day),
      List.head?_eq_none_iff.mp hnone, List.length_nil, Nat.add_zero]

/-- The anchor's weekday, four times. -/
def fourTimes : Rule :=
  { every .weekly with count := some 4 }

/-- Before the anchor there is no date yet, and the first one is an exception. The next one is the
second, and up to it there is one. -/
theorem nextOccurrence_countOccurrences_fourTimes :
    fourTimes.occurrences .unlimited (some (.ofParts 2024 1 10)) ⟨.ofParts 2024 1 10, Date.last⟩
      = .ok [.ofParts 2024 1 10, .ofParts 2024 1 17, .ofParts 2024 1 24, .ofParts 2024 1 31] ∧
    Date.ofParts 2024 1 1 < Date.last ∧
    ([Date.ofParts 2024 1 10, .ofParts 2024 1 17, .ofParts 2024 1 24, .ofParts 2024 1 31].filter
      (· ≤ lastSought ⟨2, 20⟩ (.ofParts 2024 1 1))).length
        ≤ (⟨2, 20⟩ : Options).maxOccurrences.toNat ∧
    fourTimes.nextOccurrence ⟨2, 20⟩ (some (.ofParts 2024 1 10)) (.ofParts 2024 1 1)
      (.ofList [.ofParts 2024 1 10]) = .ok (some (.ofParts 2024 1 17)) ∧
    fourTimes.countOccurrences ⟨2, 20⟩ (some (.ofParts 2024 1 10)) (.ofParts 2024 1 17)
      (.ofList [.ofParts 2024 1 10]) = .ok (0 + 1) := by
  have hwhole : fourTimes.occurrences .unlimited (some (.ofParts 2024 1 10))
      ⟨.ofParts 2024 1 10, Date.last⟩
        = .ok [.ofParts 2024 1 10, .ofParts 2024 1 17, .ofParts 2024 1 24, .ofParts 2024 1 31] :=
    rfl
  have hday : Date.ofParts 2024 1 1 < Date.last := by decide
  have hcap : ([Date.ofParts 2024 1 10, .ofParts 2024 1 17, .ofParts 2024 1 24,
      .ofParts 2024 1 31].filter (· ≤ lastSought ⟨2, 20⟩ (.ofParts 2024 1 1))).length
        ≤ (⟨2, 20⟩ : Options).maxOccurrences.toNat := by decide
  have hfound : fourTimes.nextOccurrence ⟨2, 20⟩ (some (.ofParts 2024 1 10)) (.ofParts 2024 1 1)
      (.ofList [.ofParts 2024 1 10]) = .ok (some (.ofParts 2024 1 17)) := rfl
  have hnone : fourTimes.countOccurrences ⟨2, 20⟩ (some (.ofParts 2024 1 10)) (.ofParts 2024 1 1)
      (.ofList [.ofParts 2024 1 10]) = .ok 0 := rfl
  -- What the theorem finds is what both queries answer.
  obtain ⟨next, count, hnext, hcount, hone, _⟩ :=
    nextOccurrence_countOccurrences hwhole hday hcap (.ofList [.ofParts 2024 1 10])
  rw [hfound, Except.ok.injEq] at hnext
  rw [hnone, Except.ok.injEq] at hcount
  subst hcount
  exact ⟨hwhole, hday, hcap, hfound, (hone _ hnext.symm).2.2⟩

end Rule

end RecurringDates
