import RecurringDates.Series.Source

/-!
# Cycles

A cycle is a sequence of evenly spaced periods, each with its own dates. Days, weeks, months and
years all repeat this way; they differ in what numbers a period and in which dates it has.

The main statement says that the cursor, which looks at one period after the other and only as far
as it must, gives exactly the dates of the cycle (`Cycle.gives_start`).
-/

namespace RecurringDates

/-- Evenly spaced periods from a first to a last, and the dates of each. -/
structure Cycle where
  /-- The number of the first period. -/
  first : Int
  /-- The distance from one period to the next. -/
  step : Int
  /-- No period has a greater number. -/
  last : Int
  /-- The dates of the period with a number. -/
  datesIn : Int → List Date
  step_pos : 0 < step

namespace Cycle

/-! ## §1 Dates -/

/-- The number of periods. -/
def size (cycle : Cycle) : Nat :=
  ((cycle.last - cycle.first + cycle.step) / cycle.step).toNat

/-- The dates of a number of periods, from a given one on. -/
def datesFrom (cycle : Cycle) : Nat → Int → List Date
  | 0, _ => []
  | left + 1, period => cycle.datesIn period ++ cycle.datesFrom left (period + cycle.step)

/-- The dates of all periods, one period after the other. -/
def dates (cycle : Cycle) : List Date :=
  cycle.datesFrom cycle.size cycle.first

/-- The same periods with only those of their dates that pass a test. -/
def filter (cycle : Cycle) (test : Date → Bool) : Cycle :=
  { cycle with datesIn := fun period => (cycle.datesIn period).filter test }

/-! ## §2 Cursor -/

/-- A place in a cycle. -/
structure Cursor where
  /-- The dates of the current period that are still to come. -/
  pending : List Date
  /-- The number of the period after it. -/
  period : Int
  /-- The number of periods after the current one. -/
  left : Nat

/-- The place before the first period. -/
def start (cycle : Cycle) : Cursor :=
  ⟨[], cycle.first, cycle.size⟩

/-- The next date, sought period by period, and the place after it. -/
def seek (cycle : Cycle) : Nat → Int → List Date → Option Date × Cursor
  | left, period, date :: pending => (some date, ⟨pending, period, left⟩)
  | 0, period, [] => (none, ⟨[], period, 0⟩)
  | left + 1, period, [] => cycle.seek left (period + cycle.step) (cycle.datesIn period)

/-- A cycle as a source of its dates. -/
def pull (cycle : Cycle) : Source Cursor := fun cursor =>
  cycle.seek cursor.left cursor.period cursor.pending

/-! ## §3 The cursor gives the dates -/

theorem datesFrom_filter (cycle : Cycle) (test : Date → Bool) (left : Nat) (period : Int) :
    (cycle.filter test).datesFrom left period = (cycle.datesFrom left period).filter test := by
  induction left generalizing period with
  | zero => rfl
  | succ left ih =>
    show (cycle.datesIn period).filter test ++ (cycle.filter test).datesFrom left _ = _
    rw [ih, datesFrom, List.filter_append]
    rfl

theorem dates_filter (cycle : Cycle) (test : Date → Bool) :
    (cycle.filter test).dates = cycle.dates.filter test :=
  datesFrom_filter cycle test cycle.size cycle.first

/-- The dates that are still to come at a place. -/
def Cursor.dates (cycle : Cycle) (cursor : Cursor) : List Date :=
  cursor.pending ++ cycle.datesFrom cursor.left cursor.period

private theorem seek_fst (cycle : Cycle) (left : Nat) (period : Int) (pending : List Date) :
    (cycle.seek left period pending).1 = (pending ++ cycle.datesFrom left period).head? ∧
      Cursor.dates cycle (cycle.seek left period pending).2
        = (pending ++ cycle.datesFrom left period).tail := by
  induction left generalizing period pending with
  | zero =>
    cases pending with
    | nil => exact ⟨rfl, rfl⟩
    | cons date pending => exact ⟨rfl, rfl⟩
  | succ left ih =>
    cases pending with
    | nil =>
      -- Nothing is left of the current period, so the next one is looked into.
      rw [List.nil_append, datesFrom]
      exact ih (period + cycle.step) (cycle.datesIn period)
    | cons date pending => exact ⟨rfl, rfl⟩

/-- **A cursor gives what is still to come.** -/
theorem gives_dates (cycle : Cycle) (cursor : Cursor) :
    Source.Gives cycle.pull cursor (cursor.dates cycle) := by
  generalize heq : cursor.dates cycle = dates
  induction dates generalizing cursor with
  | nil =>
    have := (seek_fst cycle cursor.left cursor.period cursor.pending).1
    unfold Cursor.dates at heq
    rw [heq] at this
    exact this
  | cons date dates ih =>
    have hparts := seek_fst cycle cursor.left cursor.period cursor.pending
    unfold Cursor.dates at heq
    rw [heq] at hparts
    exact ⟨hparts.1, ih _ hparts.2⟩

/-- **A cycle gives its dates** from the start. -/
theorem gives_start (cycle : Cycle) : Source.Gives cycle.pull cycle.start cycle.dates :=
  gives_dates cycle cycle.start

end Cycle

end RecurringDates
