import Mathlib.Logic.Function.Iterate
import RecurringDates.Proofs.CalendarMonths
import RecurringDates.Series.Monthly

/-!
# Steps from month to month

Adding to the index of a month is the same as going on month by month in the way that people do:
to the next number of the year, and from December to January of the year after. The first day of
the month arrived at is a date until the calendar has ended, so a walk that steps by an interval and
stops at the first month that has no such date, or one past the horizon, meets every month that it
should.

The main statement is `MonthlyPattern.gives_months`. It rests on what one step of the walk does
(`Month.walk_step`) and on the months that stand at its places (`Month.getElem?_walk`).
-/

namespace RecurringDates

/-! ## §1 Months one after the other -/

namespace Month

variable {month : Month} {start horizon : Date}

/-- The year and the number of the month after the one with a year and a number. -/
def following : Int × Int → Int × Int
  | (year, number) => if number = 12 then (year + 1, 1) else (year, number + 1)

/-- The year of a month and its number in that year. -/
def yearAndNumber (month : Month) : Int × Int :=
  (month.year, month.number)

/-- A month is known by its year and its number. -/
theorem yearAndNumber_inj {other : Month} :
    month.yearAndNumber = other.yearAndNumber ↔ month = other := by
  constructor
  · intro hsame
    simp only [yearAndNumber, Prod.mk.injEq] at hsame
    rw [← ofYear_year_number month, ← ofYear_year_number other, hsame.1, hsame.2]
  · rintro rfl
    rfl

theorem yearAndNumber_next (month : Month) :
    month.next.yearAndNumber = following month.yearAndNumber := by
  unfold yearAndNumber following
  -- December is followed by the January of the next year, any other month within its year.
  by_cases hlast : month.number = 12
  · simp only [hlast, if_true, Prod.mk.injEq]
    simp only [number, year, next, add] at *
    omega
  · simp only [hlast, if_false, Prod.mk.injEq]
    simp only [number, year, next, add] at *
    omega

/-- **Adding to the index goes on month by month.** -/
theorem yearAndNumber_add (month : Month) (k : Nat) :
    (month.add k).yearAndNumber = Nat.iterate following k month.yearAndNumber := by
  induction k with
  | zero =>
    rw [add, Int.natCast_zero, Int.add_zero]
    rfl
  | succ k ih =>
    -- The last step goes from the month that the others have led to.
    have hstep : month.add (k + 1 : Nat) = (month.add k).next := by
      simp only [add, next, mk.injEq]
      omega
    rw [hstep, yearAndNumber_next, ih, Function.iterate_succ_apply']

/-! ## §2 First days -/

/-- The first day of a month is its day 1. -/
theorem start?_eq_some_iff : month.start? = some start ↔ start.month = month ∧ start.day = 1 := by
  have hlength := month.length_ge
  have hfirst : month.date? 1 = month.start? := by
    rw [date?, if_pos ⟨Int.le_refl 1, by omega⟩, start?]
    congr 1
    omega
  rw [← hfirst, date?_eq_some_iff]

/-- A month that is not before the calendar has no first day exactly if its year is after it. -/
theorem start?_eq_none_iff (hfirst : Date.first.month.index ≤ month.index) :
    month.start? = none ↔ Calendar.lastYear < month.year := by
  have hlast : Date.last.month.index = 12 * Calendar.lastYear + 11 := by decide
  rw [← Option.not_isSome_iff_eq_none, isSome_start?_iff, year]
  omega

/-- A month that is not before the calendar begins by a date exactly if it is not after the month of
that date. -/
theorem exists_start_le_iff (hfirst : Date.first.month.index ≤ month.index) :
    (∃ start, month.start? = some start ∧ start ≤ horizon) ↔
      month.index ≤ horizon.month.index := by
  constructor
  · rintro ⟨start, hstart, hle⟩
    rw [← (start?_eq_some_iff.mp hstart).1]
    exact Date.month_index_le hle
  · -- The calendar has the first day, which is no later than that of the horizon's month.
    intro hle
    have hlast := Date.month_index_le horizon.le_last
    obtain ⟨start, hstart⟩ := Option.isSome_iff_exists.mp
      (isSome_start?_iff.mpr ⟨hfirst, Int.le_trans hle hlast⟩)
    have hnumber := Date.ofDayNumber?_eq_some_iff.mp hstart
    have hbegins := firstDay_le_of_le hle
    have hwithin : horizon.month.firstDay ≤ horizon.dayNumber :=
      firstDay_ofDay_le horizon.dayNumber
    refine ⟨start, hstart, ?_⟩
    rw [Date.le_def]
    omega

/-! ## §3 A walk by an interval -/

/-- The months from a month on, an interval apart, as long as the calendar has the first day of the
month and that day is not past the horizon. -/
def walk (month : Month) (interval : Interval) (horizon : Date) : List Month :=
  match _h : month.start? with
  | none => []
  | some start =>
    if start ≤ horizon then month :: (month.add interval.value).walk interval horizon else []
termination_by (horizon.month.index + 1 - month.index).toNat
decreasing_by
  have hwithin := Date.month_index_le ‹start ≤ horizon›
  rw [(start?_eq_some_iff.mp _h).1] at hwithin
  have hstep := interval.pos
  simp only [add]
  omega

variable {interval : Interval} {other : Month}

/-- One step of the walk. It ends at the horizon and never before, as no first day up to the horizon
is missing in the calendar. -/
theorem walk_step (hfirst : Date.first.month.index ≤ month.index) :
    month.walk interval horizon
      = if month.index ≤ horizon.month.index
        then month :: (month.add interval.value).walk interval horizon else [] := by
  fun_cases walk month interval horizon with
  | case1 hnone =>
    -- The calendar has no first day of the month, so the month is past the horizon.
    rw [if_neg]
    rw [← exists_start_le_iff hfirst, hnone]
    rintro ⟨start, hsome, _⟩
    cases hsome
  | case2 start hstart hle =>
    rw [if_pos ((exists_start_le_iff hfirst).mp ⟨start, hstart, hle⟩)]
  | case3 start hstart hpast =>
    -- The first day is past the horizon.
    rw [if_neg]
    rw [← exists_start_le_iff hfirst, hstart]
    rintro ⟨other, hsome, hle⟩
    cases hsome
    exact hpast hle

/-- **The walk has the months that it steps to**, each at the place of its number of steps, up to
the horizon's. -/
theorem getElem?_walk {k : Nat} (hfirst : Date.first.month.index ≤ month.index) :
    (month.walk interval horizon)[k]? = some other ↔
      other = month.add (interval.value * k) ∧ other.index ≤ horizon.month.index := by
  have hpos := interval.pos
  induction k generalizing month with
  | zero =>
    have hsame : month.add (interval.value * (0 : Nat)) = month := by
      rw [Int.natCast_zero, Int.mul_zero, add, Int.add_zero]
    rw [walk_step hfirst, hsame]
    split
    · -- The walk begins at the month, with no step made.
      rename_i hle
      rw [List.getElem?_cons_zero, Option.some.injEq]
      constructor
      · rintro rfl
        exact ⟨rfl, hle⟩
      · rintro ⟨rfl, _⟩
        rfl
    · rename_i hpast
      -- The month itself is past the horizon.
      simp only [List.getElem?_nil, reduceCtorEq, false_iff, not_and]
      rintro rfl
      exact hpast
  | succ k ih =>
    -- The walk goes on from the next month, which is not before the calendar either.
    have hlater : Date.first.month.index ≤ (month.add interval.value).index := by
      simp only [add]
      omega
    have hsteps : (month.add interval.value).add (interval.value * k)
        = month.add (interval.value * (k + 1 : Nat)) := by
      rw [Int.natCast_add, Int.mul_add]
      simp only [add, mk.injEq]
      omega
    rw [walk_step hfirst, ← hsteps]
    split
    · rw [List.getElem?_cons_succ]
      exact ih hlater
    · rename_i hpast
      -- Months only get later, so none of them is up to the horizon.
      have hforward := Int.mul_nonneg (Int.le_of_lt hpos) (Int.natCast_nonneg k)
      simp only [List.getElem?_nil, reduceCtorEq, false_iff, not_and]
      rintro rfl
      simp only [add]
      omega

end Month

/-! ## §4 The months of a pattern -/

namespace MonthlyPattern

/-- The walk by the interval has a month for each period of the cycle. -/
theorem walk_eq_map (pattern : MonthlyPattern) (anchor horizon : Date) :
    anchor.month.walk pattern.interval horizon
      = (List.range (pattern.cycle anchor horizon).size).map fun k : Nat =>
          anchor.month.add (pattern.interval.value * k) := by
  apply List.ext_getElem?
  intro k
  have hfirst := Date.month_index_le anchor.first_le
  have hinside : k < (pattern.cycle anchor horizon).size ↔
      (anchor.month.add (pattern.interval.value * k)).index ≤ horizon.month.index :=
    Cycle.lt_size_iff
  rw [List.getElem?_map]
  by_cases hk : k < (pattern.cycle anchor horizon).size
  · -- Inside the cycle the walk has the month with the number of the period.
    rw [List.getElem?_range hk, Option.map_some, Month.getElem?_walk hfirst]
    exact ⟨rfl, hinside.mp hk⟩
  · -- Past the cycle the walk would be past the horizon too.
    have hpast : (List.range (pattern.cycle anchor horizon).size).length ≤ k := by
      rw [List.length_range]
      exact Nat.le_of_not_lt hk
    rw [List.getElem?_eq_none hpast, Option.map_none, Option.eq_none_iff_forall_ne_some]
    intro month hmonth
    obtain ⟨rfl, hle⟩ := (Month.getElem?_walk hfirst).mp hmonth
    exact hk (hinside.mpr hle)

/-- **A monthly pattern meets every month that its interval leads to**, up to its horizon. The month
that lies a number of months after a date's has as its first day the day 1 of the month that is
reached from there one by one, and it has none exactly if its year is past the calendar. The walk
from the anchor's month has the months that lie multiples of the interval after it, one after the
other, and they are all of those that begin by the horizon. The pattern gives the dates of these
months in this order. -/
theorem gives_months (pattern : MonthlyPattern) (anchor horizon : Date) :
    (∀ k : Nat,
      (∀ start, (anchor.month.add k).start? = some start ↔
        start.month.yearAndNumber = Nat.iterate Month.following k anchor.month.yearAndNumber ∧
          start.day = 1) ∧
      ((anchor.month.add k).start? = none ↔
        Calendar.lastYear < (Nat.iterate Month.following k anchor.month.yearAndNumber).1)) ∧
    (∀ (k : Nat) (month : Month),
      (anchor.month.walk pattern.interval horizon)[k]? = some month ↔
        month = anchor.month.add (pattern.interval.value * k) ∧
          ∃ start, month.start? = some start ∧ start ≤ horizon) ∧
    Source.Gives (pattern.cycle anchor horizon).pull (pattern.cycle anchor horizon).start
      ((anchor.month.walk pattern.interval horizon).flatMap fun month =>
        pattern.datesOfMonth anchor month.index) := by
  have hfirst := Date.month_index_le anchor.first_le
  refine ⟨?_, ?_, ?_⟩
  · -- Single steps lead to no month before the calendar.
    intro k
    have hlater : Date.first.month.index ≤ (anchor.month.add k).index := by
      simp only [Month.add]
      omega
    rw [← Month.yearAndNumber_add]
    refine ⟨fun start => ?_, Month.start?_eq_none_iff hlater⟩
    rw [Month.start?_eq_some_iff, Month.yearAndNumber_inj]
  · -- Steps of the interval, as far as a month begins by the horizon.
    intro k month
    rw [Month.getElem?_walk hfirst]
    apply and_congr_right
    rintro rfl
    have hsteps := Int.mul_nonneg (Int.le_of_lt pattern.interval.pos) (Int.natCast_nonneg k)
    have hlater : Date.first.month.index
        ≤ (anchor.month.add (pattern.interval.value * k)).index :=
      Int.le_trans hfirst (Int.le_add_of_nonneg_right hsteps)
    exact (Month.exists_start_le_iff hlater).symm
  · -- The walk has the months of the periods of the cycle, which gives their dates.
    rw [walk_eq_map, List.flatMap_map]
    have hgives := (pattern.cycle anchor horizon).gives_start
    rwa [Cycle.dates, Cycle.datesFrom_eq_flatMap] at hgives

end MonthlyPattern

end RecurringDates
