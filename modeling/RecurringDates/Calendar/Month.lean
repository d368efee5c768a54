import RecurringDates.Calendar.Year

/-!
# Months

A calendar month is told by a single number, its index: the months counted from January of year 0.
Adding to the index steps from month to month across year ends, year 0 and negative years alike.

The main statements say that months follow each other without a gap (`firstDay_next`) and that
`Month.ofDay` names the one month that holds a day (`firstDay_ofDay_le`, `lt_firstDay_ofDay_next`,
`ofDay_eq_of_mem`).
-/

namespace RecurringDates

/-- A month of a year. -/
structure Month where
  /-- The months from January of year 0 on. -/
  index : Int
deriving DecidableEq, Repr

namespace Month

/-! ## §1 Year and number -/

/-- The month with a number (1 for January) of a year. -/
def ofYear (year number : Int) : Month :=
  ⟨12 * year + (number - 1)⟩

/-- The year of a month. -/
def year (month : Month) : Int :=
  month.index / 12

/-- The number of a month in its year, 1 for January and 12 for December. -/
def number (month : Month) : Int :=
  month.index % 12 + 1

/-- The month a number of months later. -/
def add (month : Month) (months : Int) : Month :=
  ⟨month.index + months⟩

/-- The month that follows. -/
def next (month : Month) : Month :=
  month.add 1

theorem number_pos (month : Month) : 1 ≤ month.number := by
  simp only [number]
  omega

theorem number_le (month : Month) : month.number ≤ 12 := by
  simp only [number]
  omega

/-- The month with a number of a year, if there is a month of that number. -/
def ofNumber? (year number : Int) : Option Month :=
  if 1 ≤ number ∧ number ≤ 12 then some (ofYear year number) else none

theorem ofYear_year_number (month : Month) : ofYear month.year month.number = month := by
  cases month
  simp only [ofYear, year, number, mk.injEq]
  omega

theorem year_ofYear {number : Int} (year : Int) (hlow : 1 ≤ number) (hhigh : number ≤ 12) :
    (ofYear year number).year = year := by
  simp only [ofYear, Month.year]
  omega

theorem number_ofYear {number : Int} (year : Int) (hlow : 1 ≤ number) (hhigh : number ≤ 12) :
    (ofYear year number).number = number := by
  simp only [ofYear, Month.number]
  omega

/-! ## §2 Days -/

/-- The days of the year before a month: 31 before February, 59 or 60 before March, and from there
on five months have 153 days. -/
def daysBefore (month : Month) : Int :=
  if month.number = 1 then 0
  else if month.number = 2 then 31
  else 59 + Year.leapDay month.year + (153 * (month.number - 3) + 2) / 5

/-- The day number of the first of a month. -/
def firstDay (month : Month) : Int :=
  Year.firstDay month.year + month.daysBefore

/-- The number of days of a month: thirty for April, June, September and November, 28 for February
or 29 in leap years, and 31 for the others. -/
def length (month : Month) : Int :=
  if month.number = 2 then 28 + Year.leapDay month.year
  else if month.number = 4 ∨ month.number = 6 ∨ month.number = 9 ∨ month.number = 11 then 30
  else 31

theorem length_ge (month : Month) : 28 ≤ month.length := by
  simp only [length, Year.leapDay]
  split
  · split <;> omega
  · split <;> omega

theorem length_le (month : Month) : month.length ≤ 31 := by
  simp only [length, Year.leapDay]
  split
  · split <;> omega
  · split <;> omega

private theorem leapDay_bounds (year : Int) : 0 ≤ Year.leapDay year ∧ Year.leapDay year ≤ 1 := by
  simp only [Year.leapDay]
  split <;> omega

/-- **A month begins where the one before it ends.** -/
theorem firstDay_next (month : Month) : month.next.firstDay = month.firstDay + month.length := by
  by_cases hdecember : month.number = 12
  · -- The month after December opens the next year.
    have hnumber : month.next.number = 1 := by
      simp only [number, next, add] at *
      omega
    have hyear : month.next.year = month.year + 1 := by
      simp only [number, year, next, add] at *
      omega
    simp only [firstDay, daysBefore, length, hnumber, hyear, hdecember, Year.firstDay_succ,
      Year.length]
    simp
    omega
  · -- Any other month is followed by one of the same year, so the two tables can be compared.
    have hnumber : month.next.number = month.number + 1 := by
      simp only [number, next, add] at *
      omega
    have hyear : month.next.year = month.year := by
      simp only [number, year, next, add] at *
      omega
    have hlow := month.number_pos
    have hhigh := month.number_le
    simp only [firstDay, daysBefore, length, hnumber, hyear]
    generalize month.number = k at *
    have hk : k = 1 ∨ k = 2 ∨ k = 3 ∨ k = 4 ∨ k = 5 ∨ k = 6 ∨ k = 7 ∨ k = 8 ∨ k = 9
        ∨ k = 10 ∨ k = 11 := by omega
    rcases hk with h | h | h | h | h | h | h | h | h | h | h <;> subst h <;> simp <;> omega

/-! ## §3 The month of a day -/

/-- The month that holds a day. After February the days since March 1 give the month by the same
rule of 153 days in five months. -/
def ofDay (day : Int) : Month :=
  let year := Year.ofDay day
  let rest := day - Year.firstDay year
  let number :=
    if rest < 31 then 1
    else if rest < 59 + Year.leapDay year then 2
    else (5 * (rest - 59 - Year.leapDay year) + 2) / 153 + 3
  ofYear year number

private theorem ofDay_bounds (day : Int) :
    (ofDay day).firstDay ≤ day ∧ day < (ofDay day).firstDay + (ofDay day).length := by
  have hlow := Year.firstDay_ofDay_le day
  have hhigh := Year.lt_firstDay_ofDay_succ day
  rw [Year.firstDay_succ, Year.length] at hhigh
  have hleap := leapDay_bounds (Year.ofDay day)
  simp only [ofDay]
  -- Only the year's first day and its leap day matter from here on.
  generalize Year.ofDay day = year at *
  generalize hnumber : (if day - Year.firstDay year < 31 then (1 : Int)
    else if day - Year.firstDay year < 59 + Year.leapDay year then 2
    else (5 * (day - Year.firstDay year - 59 - Year.leapDay year) + 2) / 153 + 3) = number
  have hbounds : 1 ≤ number ∧ number ≤ 12 := by
    split at hnumber
    · omega
    · split at hnumber <;> omega
  simp only [firstDay, daysBefore, length, year_ofYear year hbounds.1 hbounds.2,
    number_ofYear year hbounds.1 hbounds.2]
  split at hnumber
  · subst hnumber
    simp
    omega
  · split at hnumber
    · subst hnumber
      simp
      omega
    · -- After February each number fixes an interval of days, by the rule of 153 days.
      have hcases : number = 3 ∨ number = 4 ∨ number = 5 ∨ number = 6 ∨ number = 7
          ∨ number = 8 ∨ number = 9 ∨ number = 10 ∨ number = 11 ∨ number = 12 := by omega
      rcases hcases with h | h | h | h | h | h | h | h | h | h <;> subst h <;> simp <;> omega

theorem firstDay_ofDay_le (day : Int) : (ofDay day).firstDay ≤ day :=
  (ofDay_bounds day).1

theorem lt_firstDay_ofDay_next (day : Int) : day < (ofDay day).next.firstDay := by
  rw [firstDay_next]
  exact (ofDay_bounds day).2

/-- Later months begin later. -/
theorem firstDay_add_lt (month : Month) (k : Nat) :
    month.firstDay < (month.add (k + 1)).firstDay := by
  induction k with
  | zero =>
    -- The next month begins at least 28 days later.
    have := firstDay_next month
    have := month.length_ge
    simp only [next] at *
    simp only [Int.natCast_zero, Int.zero_add]
    omega
  | succ k ih =>
    -- The month after the later one begins later still.
    have hstep := firstDay_next (month.add (k + 1))
    have := (month.add (k + 1)).length_ge
    simp only [next, add] at *
    rw [show month.index + ((k : Int) + 1) + 1 = month.index + (((k + 1 : Nat) : Int) + 1) by
      omega] at hstep
    omega

theorem firstDay_lt_of_lt {a b : Month} (h : a.index < b.index) : a.firstDay < b.firstDay := by
  have := firstDay_add_lt a (b.index - a.index - 1).toNat
  have heq : a.add ((b.index - a.index - 1).toNat + 1) = b := by
    cases b
    simp only [add, mk.injEq]
    simp only at h
    omega
  rwa [heq] at this

theorem firstDay_le_of_le {a b : Month} (h : a.index ≤ b.index) : a.firstDay ≤ b.firstDay := by
  rcases Int.lt_or_eq_of_le h with hlt | heq
  · exact Int.le_of_lt (firstDay_lt_of_lt hlt)
  · cases a
    cases b
    simp only at heq
    subst heq
    exact Int.le_refl _

/-- **Months do not overlap**: a day between two first days belongs to that month. -/
theorem ofDay_eq_of_mem {month : Month} {day : Int} (h : month.firstDay ≤ day)
    (h' : day < month.next.firstDay) : ofDay day = month := by
  have hlow := firstDay_ofDay_le day
  have hhigh := lt_firstDay_ofDay_next day
  rcases Int.lt_trichotomy (ofDay day).index month.index with hlt | heq | hgt
  · -- In an earlier month the day would lie before the first of this one.
    have := firstDay_le_of_le (a := (ofDay day).next) (b := month) (by
      simp only [next, add]
      omega)
    omega
  · cases month
    generalize ofDay day = other at *
    cases other
    simp only at heq
    rw [heq]
  · -- In a later month it would not lie before the first of the next one.
    have := firstDay_le_of_le (a := month.next) (b := ofDay day) (by
      simp only [next, add]
      omega)
    omega

/-- The month of a day lies in the year of the day. -/
theorem year_ofDay (day : Int) : (ofDay day).year = Year.ofDay day := by
  have hlow := Year.firstDay_ofDay_le day
  have hhigh := Year.lt_firstDay_ofDay_succ day
  rw [Year.firstDay_succ, Year.length] at hhigh
  have hleap := leapDay_bounds (Year.ofDay day)
  simp only [ofDay]
  refine year_ofYear _ ?_ ?_
  · split
    · omega
    · split <;> omega
  · split
    · omega
    · split <;> omega

end Month

end RecurringDates
