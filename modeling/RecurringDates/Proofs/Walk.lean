import Mathlib.Data.List.Perm.Basic
import RecurringDates.Proofs.Answers

/-!
# Walking from date to date

Asking for the next date after a day, and then for the one after that, goes through a series step by
step. Every step is a query of its own, over a window that begins with the day and under a cap, and
exceptions are dropped only afterwards; a cap above the number of exceptions still leaves a date
that is none, if the window has one.

The main statements are `Rule.nextOccurrence_eq` (what one step finds) and `Rule.walk_eq` (what a
walk of any length finds, and how it ends).
-/

namespace RecurringDates

/-! ## §1 The first date after a day -/

namespace Date

variable {dates : List Date} {day next : Date}

/-- If earlier dates pass a test whenever later ones do, the first date to pass it can only be the
first date of all. -/
theorem head?_filter_eq {test : Date → Bool} (hasc : dates.Pairwise (· < ·))
    (hdown : ∀ a b, a < b → test b = true → test a = true) :
    (dates.filter test).head? = dates.head?.filter test := by
  rw [← takeWhile_eq_filter hasc hdown, List.head?_takeWhile]

/-- After the first date that is later than a day come the dates that are later than that one. -/
theorem filter_lt_of_cons {rest : List Date} (hasc : dates.Pairwise (· < ·))
    (hnext : dates.filter (day < ·) = next :: rest) : dates.filter (next < ·) = rest := by
  have hasc' := hasc.filter (day < ·)
  have hday := List.of_mem_filter (hnext ▸ List.mem_cons_self : next ∈ dates.filter (day < ·))
  rw [hnext] at hasc'
  -- Whatever is later than `next` is later than the day, so the filter can be made in two steps.
  have htwice : dates.filter (next < ·) = (dates.filter (day < ·)).filter (next < ·) := by
    rw [List.filter_filter]
    apply List.filter_congr
    intro other _
    simp only [decide_eq_true_eq, lt_def] at hday
    rw [← Bool.decide_and, decide_eq_decide, lt_def, lt_def]
    omega
  rw [htwice, hnext, List.filter_cons_of_neg (by simp [lt_def]), List.filter_eq_self]
  intro other hmem
  exact decide_eq_true ((List.pairwise_cons.mp hasc').1 other hmem)

/-- There is a next day exactly if the day is not the last of the calendar. -/
theorem addDays?_one_eq_none_iff : day.addDays? 1 = none ↔ day = last := by
  have hlast := day.le_lastDay
  have hfirst := day.firstDay_le
  unfold addDays?
  rw [ofDayNumber?_eq_none_iff]
  -- The calendar has no gaps, so a next day is missing at its end only.
  constructor
  · intro houtside
    apply dayNumber_inj
    simp only [last]
    omega
  · rintro rfl
    simp only [last]
    omega

end Date

/-! ## §2 Exceptions under a cap -/

namespace DateSet

variable {dates : List Date} {exceptions : DateSet} {cap : Nat}

/-- More dates than exceptions cannot all be exceptions. -/
theorem length_le_of_forall_mem (hasc : dates.Pairwise (· < ·))
    (hall : ∀ date ∈ dates, date ∈ exceptions) : dates.length ≤ exceptions.toList.length :=
  (List.subperm_of_subset (Date.nodup_of_ascending hasc) hall).length_le

/-- **A cap above the number of exceptions hides no first date.** -/
theorem find?_take (hasc : dates.Pairwise (· < ·)) (hcap : exceptions.toList.length < cap) :
    (dates.take cap).find? (fun date => date ∉ exceptions)
      = dates.find? (fun date => date ∉ exceptions) := by
  by_cases hshort : dates.length ≤ cap
  · -- All dates fit on the page.
    rw [List.take_of_length_le hshort]
  · -- A full page is longer than the exceptions, so the first date is on it.
    cases hfound : (dates.take cap).find? (fun date => date ∉ exceptions) with
    | none =>
      -- All dates of the page are exceptions, and there would be more of them than there are.
      have hall : ∀ date ∈ dates.take cap, date ∈ exceptions := by
        simpa using hfound
      have hlength := length_le_of_forall_mem (hasc.sublist (List.take_sublist cap dates)) hall
      rw [List.length_take] at hlength
      omega
    | some date =>
      -- What is found on the page is found first.
      conv_rhs => rw [← List.take_append_drop cap dates]
      rw [List.find?_append, hfound, Option.some_or]

theorem pairwise_dropFrom (exceptions : DateSet) (hasc : dates.Pairwise (· < ·)) :
    (exceptions.dropFrom dates).Pairwise (· < ·) :=
  hasc.filter _

theorem mem_dropFrom_iff {date : Date} :
    date ∈ exceptions.dropFrom dates ↔ date ∈ dates ∧ date ∉ exceptions := by
  simp [dropFrom]

end DateSet

/-! ## §3 One step -/

namespace Rule

variable {options : Options} {rule : Rule} {anchor day : Date} {series : Series}
  {exceptions : DateSet}

theorem lookahead?_eq_none_iff : lookahead? options day = none ↔ day = Date.last := by
  unfold lookahead?
  rw [← Date.addDays?_one_eq_none_iff]
  cases day.addDays? 1 <;> simp

/-- The last day on which the next date after a day is sought: as many days later as the options
look ahead, or the end of the calendar if that goes beyond it. -/
def lastSought (options : Options) (day : Date) : Date :=
  (day.addDays? options.lookaheadDays.toNat).getD Date.last

/-- A date is sought as far as the days to look ahead reach it. -/
theorem le_lastSought_iff {date : Date} :
    date ≤ lastSought options day ↔ day.daysTo date ≤ options.lookaheadDays.toNat := by
  have hlast := date.le_lastDay
  unfold lastSought
  simp only [Date.le_def, Date.daysTo]
  cases hahead : day.addDays? options.lookaheadDays.toNat with
  | none =>
    -- The days to look ahead go beyond the calendar, so no date is too late.
    have houtside := Date.ofDayNumber?_eq_none_iff.mp hahead
    have hday := day.firstDay_le
    simp only [Option.getD_none, Date.last]
    omega
  | some last =>
    have hnumber := Date.ofDayNumber?_eq_some_iff.mp hahead
    simp only [Option.getD_some]
    omega

/-- A window is looked ahead at from the next day on. -/
theorem lookahead?_eq_some_iff {window : Window} :
    lookahead? options day = some window ↔
      window.first.dayNumber = day.dayNumber + 1 ∧ window.last = lastSought options day := by
  unfold lookahead?
  rw [← Date.ofDayNumber?_eq_some_iff, ← Date.addDays?]
  cases day.addDays? 1 with
  | none => simp
  | some first =>
    obtain ⟨first', last'⟩ := window
    simp [lastSought, eq_comm]

/-- The window after a day holds the dates that are later, as far as the days to look ahead go. -/
theorem mem_lookahead?_iff {window : Window} (hwindow : lookahead? options day = some window)
    {date : Date} : (window.first ≤ date ∧ date ≤ window.last) ↔
      day < date ∧ day.daysTo date ≤ options.lookaheadDays.toNat := by
  obtain ⟨hfirst, hlast⟩ := lookahead?_eq_some_iff.mp hwindow
  rw [hlast, le_lastSought_iff]
  apply and_congr_left'
  rw [Date.le_def, Date.lt_def]
  omega

/-- The dates of a series that are no exceptions, in the window after a day, are those of its later
dates that the days to look ahead reach. -/
theorem filter_clip_lookahead? {window : Window} (hseries : Series.ofRule rule anchor = .ok series)
    (hwindow : lookahead? options day = some window) :
    (window.clip anchor (series.dates Date.last)).filter (fun date => date ∉ exceptions)
      = ((exceptions.dropFrom (series.dates Date.last)).filter (day < ·)).filter
          (fun date => day.daysTo date ≤ options.lookaheadDays.toNat) := by
  obtain ⟨limits, pattern, _, _, rfl⟩ := ofRule_eq_ok_iff.mp hseries
  unfold Window.clip DateSet.dropFrom
  rw [List.filter_filter, List.filter_filter, List.filter_filter]
  apply List.filter_congr
  intro date hmem
  -- The series has no date before its anchor, so the window alone decides.
  have hanchor : anchor ≤ date := Series.anchor_le_of_mem_dates hmem
  have hlower : max anchor window.first ≤ date ↔ window.first ≤ date := by
    rw [Date.le_def] at hanchor
    rw [Date.le_def, Date.le_def, Date.dayNumber_max]
    omega
  rw [Bool.eq_iff_iff]
  simp only [Bool.and_eq_true, decide_eq_true_eq, hlower, mem_lookahead?_iff hwindow]
  constructor
  · rintro ⟨hkept, hlater, hreach⟩
    exact ⟨⟨hreach, hlater⟩, hkept⟩
  · rintro ⟨⟨hreach, hlater⟩, hkept⟩
    exact ⟨hkept, hlater, hreach⟩

/-- What one step looks at, if the cap hides no first date from it: the later dates of the series
that are no exceptions, as far as the days to look ahead reach. -/
theorem nextOccurrence_of_uncut {window : Window} (hseries : Series.ofRule rule anchor = .ok series)
    (hwindow : lookahead? options day = some window)
    (huncut : ((window.clip anchor (series.dates Date.last)).take
        options.maxOccurrences.toNat).find? (fun date => date ∉ exceptions)
      = (window.clip anchor (series.dates Date.last)).find? (fun date => date ∉ exceptions)) :
    rule.nextOccurrence options (some anchor) day exceptions
      = .ok (((exceptions.dropFrom (series.dates Date.last)).filter (day < ·)).filter
          fun next => day.daysTo next ≤ options.lookaheadDays.toNat).head? := by
  unfold nextOccurrence
  simp only [hwindow, occurrences_of_series hseries]
  rw [huncut, ← List.head?_filter, filter_clip_lookahead? hseries hwindow]

/-- **One step** finds the first date of the series after a day that is no exception, if the days to
look ahead reach it. It fails only after the last day of the calendar. -/
theorem nextOccurrence_eq (hseries : Series.ofRule rule anchor = .ok series)
    (hcap : exceptions.toList.length < options.maxOccurrences.toNat) :
    rule.nextOccurrence options (some anchor) day exceptions
      = if day = Date.last then .error .dateOverflow
        else .ok (((exceptions.dropFrom (series.dates Date.last)).filter (day < ·)).head?.filter
          fun next => day.daysTo next ≤ options.lookaheadDays.toNat) := by
  have hasc := series.pairwise_dates Date.last
  cases hwindow : lookahead? options day with
  | none =>
    rw [if_pos (lookahead?_eq_none_iff.mp hwindow), nextOccurrence, hwindow]
  | some window =>
    have hday : day ≠ Date.last := fun hlast => by
      rw [lookahead?_eq_none_iff.mpr hlast] at hwindow
      cases hwindow
    have hclip : (window.clip anchor (series.dates Date.last)).Pairwise (· < ·) := hasc.filter _
    -- The cap hides nothing, and what is left of the window is asked for its first date.
    rw [if_neg hday, nextOccurrence_of_uncut hseries hwindow (DateSet.find?_take hclip hcap),
      Date.head?_filter_eq]
    · exact (exceptions.pairwise_dropFrom hasc).filter _
    · -- What the days to look ahead reach, they reach earlier.
      intro a b hlt hreach
      have hnear := of_decide_eq_true hreach
      rw [Date.lt_def] at hlt
      apply decide_eq_true
      simp only [Date.daysTo] at hnear ⊢
      omega

/-! ## §4 Walks of any length -/

variable {start next : Date} {steps : Nat}

theorem walk_of_error {cause : ExpansionError}
    (hstep : rule.nextOccurrence options (some anchor) day exceptions = .error cause) :
    rule.walk options (some anchor) exceptions (steps + 1) day = ([], .failed cause) := by
  simp only [walk, hstep]

theorem walk_of_none
    (hstep : rule.nextOccurrence options (some anchor) day exceptions = .ok none) :
    rule.walk options (some anchor) exceptions (steps + 1) day = ([], .noNext) := by
  simp only [walk, hstep]

theorem walk_of_some
    (hstep : rule.nextOccurrence options (some anchor) day exceptions = .ok (some next)) :
    rule.walk options (some anchor) exceptions (steps + 1) day
      = (next :: (rule.walk options (some anchor) exceptions steps next).1,
          (rule.walk options (some anchor) exceptions steps next).2) := by
  simp only [walk, hstep]

/-- A walk that finds nothing ends at once. It fails exactly at the last day of the calendar. -/
theorem walk_eq_nil
    (hstep : rule.nextOccurrence options (some anchor) day exceptions
      = if day = Date.last then .error .dateOverflow else .ok none) :
    rule.walk options (some anchor) exceptions steps day
      = ([], if steps = 0 then .stepsSpent
          else if day = Date.last then .failed .dateOverflow
          else .noNext) := by
  cases steps with
  | zero => rfl
  | succ steps =>
    rw [if_neg (Nat.succ_ne_zero steps)]
    split at hstep
    · rename_i hlast
      rw [walk_of_error hstep, if_pos hlast]
    · rename_i hlast
      rw [walk_of_none hstep, if_neg hlast]

/-- Run: from a day on, a walk takes one later date after the other, as long as each can be reached
from the one before it. -/
theorem walk_eq_of_later (hseries : Series.ofRule rule anchor = .ok series)
    (hcap : exceptions.toList.length < options.maxOccurrences.toNat) {later : List Date}
    (hlater : (exceptions.dropFrom (series.dates Date.last)).filter (start < ·) = later) :
    ∃ found rest : List Date, later = found ++ rest ∧
      (start :: found).IsChain (fun day next =>
        day.daysTo next ≤ (options.lookaheadDays.toNat : Int)) ∧
      (∀ next, rest.head? = some next →
        (options.lookaheadDays.toNat : Int) < (found.getLastD start).daysTo next) ∧
      ∀ steps, rule.walk options (some anchor) exceptions steps start
        = (found.take steps,
            if steps ≤ found.length then .stepsSpent
            else if found.getLastD start = Date.last then .failed .dateOverflow
            else .noNext) := by
  have hasc := exceptions.pairwise_dropFrom (series.pairwise_dates Date.last)
  -- The start moves along with the dates still to be found.
  induction later generalizing start with
  | nil =>
    have hstep : rule.nextOccurrence options (some anchor) start exceptions = _ :=
      nextOccurrence_eq hseries hcap
    rw [hlater] at hstep
    -- Nothing is left to find, and the walk ends where it begins.
    refine ⟨[], [], rfl, .singleton start, by simp, fun steps => ?_⟩
    rw [walk_eq_nil hstep, List.take_nil, List.length_nil, List.getLastD_nil]
    simp only [Nat.le_zero]
  | cons next later ih =>
    have hstep : rule.nextOccurrence options (some anchor) start exceptions = _ :=
      nextOccurrence_eq hseries hcap
    rw [hlater, List.head?_cons, Option.filter_some] at hstep
    by_cases hreach : start.daysTo next ≤ (options.lookaheadDays.toNat : Int)
    · -- The next date is reached, and the walk goes on from there.
      have hmem : next ∈ (exceptions.dropFrom (series.dates Date.last)).filter (start < ·) := by
        rw [hlater]
        exact List.mem_cons_self
      have hnotLast : start ≠ Date.last := by
        rintro rfl
        have hday := of_decide_eq_true (List.mem_filter.mp hmem).2
        have hlast := next.le_last
        rw [Date.lt_def] at hday
        rw [Date.le_def] at hlast
        omega
      rw [if_neg hnotLast, if_pos (decide_eq_true hreach)] at hstep
      obtain ⟨found, rest, hsplit, hchain, hstop, hwalk⟩ :=
        ih (Date.filter_lt_of_cons hasc hlater)
      refine ⟨next :: found, rest, by rw [hsplit]; rfl, .cons_cons hreach hchain, ?_, ?_⟩
      · rw [List.getLastD_cons]
        exact hstop
      · intro steps
        cases steps with
        | zero => rfl
        | succ steps =>
          rw [walk_of_some hstep, hwalk, List.take_succ_cons, List.length_cons, List.getLastD_cons]
          simp only [Nat.add_le_add_iff_right]
    · -- The next date is too far away, so nothing is found at all.
      have hfar : ¬ decide (start.daysTo next ≤ (options.lookaheadDays.toNat : Int)) = true :=
        fun h => hreach (of_decide_eq_true h)
      rw [if_neg hfar] at hstep
      refine ⟨[], next :: later, rfl, .singleton start, ?_, fun steps => ?_⟩
      · rintro other hother
        cases hother
        exact Int.not_le.mp hreach
      · rw [walk_eq_nil hstep, List.take_nil, List.length_nil, List.getLastD_nil]
        simp only [Nat.le_zero]

/-- **A walk finds the dates of the series one by one.** Whatever the exceptions, as long as the cap
is above their number, the dates later than the start that are no exceptions split into those that
the walk finds and a rest that it does not reach: between one date and the next there are never more
days than the days to look ahead, and the rest begins after a longer gap. A walk of more steps than
that finds the same dates and then has no next date, or fails if it has come to the last day of the
calendar. -/
theorem walk_eq {whole : List Date}
    (hwhole : rule.occurrences .unlimited (some anchor) ⟨anchor, Date.last⟩ = .ok whole)
    (hcap : exceptions.toList.length < options.maxOccurrences.toNat) (start : Date) :
    ∃ found rest : List Date,
      Date.Enumerates (found ++ rest)
        (fun date => date ∈ whole ∧ date ∉ exceptions ∧ start < date) ∧
      (start :: found).IsChain (fun day next =>
        day.daysTo next ≤ (options.lookaheadDays.toNat : Int)) ∧
      (∀ next, rest.head? = some next →
        (options.lookaheadDays.toNat : Int) < (found.getLastD start).daysTo next) ∧
      ∀ steps, rule.walk options (some anchor) exceptions steps start
        = (found.take steps,
            if steps ≤ found.length then .stepsSpent
            else if found.getLastD start = Date.last then .failed .dateOverflow
            else .noNext) := by
  obtain ⟨series, hseries, rfl⟩ := occurrences_unlimited_eq_ok_iff.mp hwhole
  obtain ⟨found, rest, hsplit, hchain, hstop, hwalk⟩ :=
    walk_eq_of_later hseries hcap
      (rfl : (exceptions.dropFrom (series.dates Date.last)).filter (start < ·) = _)
  refine ⟨found, rest, ⟨?_, fun date => ?_⟩, hchain, hstop, hwalk⟩
  · -- What is found and what is not are the later dates of the series together.
    rw [← hsplit]
    exact (exceptions.pairwise_dropFrom (series.pairwise_dates Date.last)).filter _
  · rw [← hsplit, List.mem_filter, DateSet.mem_dropFrom_iff, decide_eq_true_eq, and_assoc]

/-- Four Mondays with the second one an exception: under a cap of two, the walk still finds the
third and the fourth. -/
theorem walk_eq_fourMondays :
    occurrences .unlimited { every .weekly with count := some 4 } (some (.ofParts 2024 1 1))
        ⟨.ofParts 2024 1 1, Date.last⟩
      = .ok [.ofParts 2024 1 1, .ofParts 2024 1 8, .ofParts 2024 1 15, .ofParts 2024 1 22] ∧
    (DateSet.ofList [.ofParts 2024 1 8]).toList.length
      < (⟨2, 14⟩ : Options).maxOccurrences.toNat ∧
    ∃ found rest : List Date,
      Date.Enumerates (found ++ rest) (fun date =>
        date ∈ [Date.ofParts 2024 1 1, .ofParts 2024 1 8, .ofParts 2024 1 15, .ofParts 2024 1 22] ∧
          date ∉ DateSet.ofList [.ofParts 2024 1 8] ∧ .ofParts 2024 1 1 < date) ∧
      (.ofParts 2024 1 1 :: found).IsChain (fun day next => day.daysTo next ≤ 14) ∧
      (∀ next, rest.head? = some next → 14 < (found.getLastD (.ofParts 2024 1 1)).daysTo next) ∧
      ∀ steps, walk ⟨2, 14⟩ { every .weekly with count := some 4 } (some (.ofParts 2024 1 1))
          (.ofList [.ofParts 2024 1 8]) steps (.ofParts 2024 1 1)
        = (found.take steps,
            if steps ≤ found.length then .stepsSpent
            else if found.getLastD (.ofParts 2024 1 1) = Date.last then .failed .dateOverflow
            else .noNext) := by
  have hwhole : occurrences .unlimited { every .weekly with count := some 4 }
      (some (.ofParts 2024 1 1)) ⟨.ofParts 2024 1 1, Date.last⟩
        = .ok [.ofParts 2024 1 1, .ofParts 2024 1 8, .ofParts 2024 1 15, .ofParts 2024 1 22] := rfl
  have hcap : (DateSet.ofList [.ofParts 2024 1 8]).toList.length
      < (⟨2, 14⟩ : Options).maxOccurrences.toNat := by decide
  exact ⟨hwhole, hcap, walk_eq hwhole hcap _⟩

example :
    walk ⟨2, 14⟩ { every .weekly with count := some 4 } (some (.ofParts 2024 1 1))
        (.ofList [.ofParts 2024 1 8]) 3 (.ofParts 2024 1 1)
      = ([.ofParts 2024 1 15, .ofParts 2024 1 22], .noNext) := rfl

end Rule

end RecurringDates
