import RecurringDates.Calendar.Date

/-!
# Sources of dates

A source gives its dates one at a time: pulling answers the next date, or none, together with the
state to pull from next. Nothing is computed before it is pulled, so that a search may stop early
in a series that goes on for a long time.

The main statements say what the searches find in a source that is known to give a certain list
(`firstFrom_of_gives`, `takeThrough_of_gives`, `inWindow_of_gives`).
-/

namespace RecurringDates

/-- A way to pull the next date out of a state. -/
abbrev Source (σ : Type) := σ → Option Date × σ

namespace Source

variable {σ : Type}

/-! ## §1 What a source gives -/

/-- From a state a source gives exactly the dates of a list, one after the other, and then none.
-/
def Gives (pull : Source σ) : σ → List Date → Prop
  | state, [] => (pull state).1 = none
  | state, date :: rest => (pull state).1 = some date ∧ Gives pull (pull state).2 rest

/-! ## §2 Searches -/

/-- The first date that is not before a bound, and the state after it, where at most a number of
dates are before it. -/
def firstFrom (pull : Source σ) (bound : Date) : Nat → σ → Option Date × σ
  | 0, state => pull state
  | skips + 1, state =>
    match pull state with
    | (some date, rest) =>
      if date < bound then firstFrom pull bound skips rest else (some date, rest)
    | (none, rest) => (none, rest)

/-- The dates already found, latest first, and then those up to a last day, at most a number of
them. -/
def takeThrough (pull : Source σ) (last : Date) : Nat → σ → List Date → List Date
  | 0, _, found => found.reverse
  | cap + 1, state, found =>
    match pull state with
    | (some date, rest) =>
      if date ≤ last then takeThrough pull last cap rest (date :: found) else found.reverse
    | (none, _) => found.reverse

/-- The dates from a first to a last day, at most a number of them, where at most a number of
dates are before the first day. -/
def inWindow (pull : Source σ) (first last : Date) (skips : Nat) : Nat → σ → List Date
  | 0, _ => []
  | cap + 1, state =>
    match firstFrom pull first skips state with
    | (some date, rest) => if date ≤ last then takeThrough pull last cap rest [date] else []
    | (none, _) => []

/-! ## §3 What the searches find -/

theorem firstFrom_of_gives {pull : Source σ} {bound : Date} {skips : Nat} {state : σ}
    {dates : List Date} (hgives : Gives pull state dates)
    (hfew : (dates.takeWhile (· < bound)).length ≤ skips) :
    (firstFrom pull bound skips state).1 = (dates.dropWhile (· < bound)).head? ∧
      ((dates.dropWhile (· < bound)) ≠ [] →
        Gives pull (firstFrom pull bound skips state).2 (dates.dropWhile (· < bound)).tail) := by
  induction dates generalizing skips state with
  | nil =>
    cases skips with
    | zero => exact ⟨hgives, fun h => absurd rfl h⟩
    | succ skips =>
      unfold Gives at hgives
      unfold firstFrom
      cases hpulled : pull state with
      | mk found rest =>
        rw [hpulled] at hgives
        simp only at hgives
        subst hgives
        exact ⟨rfl, fun h => absurd rfl h⟩
  | cons date dates ih =>
    obtain ⟨hhead, htail⟩ := hgives
    rw [List.takeWhile_cons] at hfew
    rw [List.dropWhile_cons]
    by_cases hbelow : date < bound
    · -- The date is before the bound: it is skipped and uses up one skip.
      rw [if_pos (decide_eq_true hbelow)] at hfew ⊢
      cases skips with
      | zero => simp at hfew
      | succ skips =>
        have hstep : firstFrom pull bound (skips + 1) state
            = firstFrom pull bound skips (pull state).2 := by
          conv => lhs; unfold firstFrom
          cases hpulled : pull state with
          | mk found rest =>
            rw [hpulled] at hhead
            simp only at hhead
            subst hhead
            simp [hbelow]
        rw [hstep]
        exact ih htail (by simpa using hfew)
    · -- The date is the one sought, however many skips are left.
      rw [if_neg (by simpa using hbelow)]
      have hhere : firstFrom pull bound skips state = pull state := by
        cases skips with
        | zero => rfl
        | succ skips =>
          unfold firstFrom
          cases hpulled : pull state with
          | mk found rest =>
            rw [hpulled] at hhead
            simp only at hhead
            subst hhead
            simp [hbelow]
      rw [hhere]
      exact ⟨hhead, fun _ => htail⟩

theorem takeThrough_of_gives {pull : Source σ} {last : Date} {cap : Nat} {state : σ}
    {dates found : List Date} (hgives : Gives pull state dates) :
    takeThrough pull last cap state found
      = found.reverse ++ (dates.takeWhile (· ≤ last)).take cap := by
  induction dates generalizing cap state found with
  | nil =>
    -- The source has ended, and what was found is all.
    cases cap with
    | zero => simp [takeThrough]
    | succ cap =>
      unfold Gives at hgives
      unfold takeThrough
      cases hpulled : pull state with
      | mk head rest =>
        rw [hpulled] at hgives
        simp only at hgives
        subst hgives
        simp
  | cons date dates ih =>
    cases cap with
    | zero => simp [takeThrough]
    | succ cap =>
      obtain ⟨hhead, htail⟩ := hgives
      unfold takeThrough
      cases hpulled : pull state with
      | mk next rest =>
        rw [hpulled] at hhead htail
        simp only at hhead htail
        subst hhead
        rw [List.takeWhile_cons]
        by_cases hwithin : date ≤ last
        · -- Up to the last day the date is found and the search goes on.
          simp [hwithin, ih htail]
        · -- After the last day nothing more is found.
          simp [hwithin]

/-- **A window search finds what lies in the window**: the dates from the first day on, up to the
last day, cut to the cap. -/
theorem inWindow_of_gives {pull : Source σ} {first last : Date} {skips cap : Nat} {state : σ}
    {dates : List Date} (hgives : Gives pull state dates)
    (hfew : (dates.takeWhile (· < first)).length ≤ skips) :
    inWindow pull first last skips cap state
      = (((dates.dropWhile (· < first)).takeWhile (· ≤ last)).take cap) := by
  cases cap with
  | zero => simp [inWindow]
  | succ cap =>
    have hfound := firstFrom_of_gives hgives hfew
    obtain ⟨hhead, htail⟩ := hfound
    unfold inWindow
    cases hsearched : firstFrom pull first skips state with
    | mk next rest =>
      rw [hsearched] at hhead htail
      simp only at hhead htail
      cases hkept : dates.dropWhile (· < first) with
      | nil =>
        -- No date is left from the first day on.
        rw [hkept] at hhead
        subst hhead
        simp [hsearched]
      | cons date later =>
        -- The first date that is left begins what is found, if it is not after the last day.
        rw [hkept] at hhead htail
        simp only [List.head?_cons, List.tail_cons] at hhead htail
        subst hhead
        have hafter := htail (List.cons_ne_nil _ _)
        rw [List.takeWhile_cons]
        by_cases hwithin : date ≤ last
        · simp [hsearched, hwithin, takeThrough_of_gives hafter]
        · simp [hsearched, hwithin]

end Source

end RecurringDates
