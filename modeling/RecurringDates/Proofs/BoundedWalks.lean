import RecurringDates.Proofs.BoundedNumbers
import RecurringDates.Series.Limits

/-!
# Walks in bounded numbers

A bounded source gives its dates one at a time and may overflow at any pull. It follows a source in
whole numbers if it never does and answers the same, pull by pull; what is found in the one is then
found in the other, and nothing is computed that is not asked for. A limited source follows a
limited source as long as its count has 64 bits, because a count is not zero when one is taken off
it. A walk from period to period follows a cycle if it finds the dates of the same periods.

The main statements are `Bounded.Follows.inWindow_eq`, `Bounded.Follows.next` and
`Bounded.Walk.follows_pull`.
-/

namespace RecurringDates.Bounded

/-! ## §1 Bounded sources -/

/-- A way to pull the next date out of a state in bounded numbers. -/
abbrev Source (σ : Type) :=
  σ → Bounded (Option Date × σ)

namespace Source

variable {σ : Type}

/-- The first date that is not before a bound, where at most a number of dates are before it. -/
def firstFrom (pull : Source σ) (bound : Date) : Nat → Source σ
  | 0, state => pull state
  | skips + 1, state => do
    match ← pull state with
    | (some date, rest) =>
      if date < bound then firstFrom pull bound skips rest else return (some date, rest)
    | (none, rest) => return (none, rest)

/-- The dates already found, latest first, and then those up to a last day, at most a number of
them. -/
def takeThrough (pull : Source σ) (last : Date) : Nat → σ → List Date → Bounded (List Date)
  | 0, _, found => return found.reverse
  | cap + 1, state, found => do
    match ← pull state with
    | (some date, rest) =>
      if date ≤ last then takeThrough pull last cap rest (date :: found) else return found.reverse
    | (none, _) => return found.reverse

/-- The dates from a first to a last day, at most a number of them, where at most a number of dates
are before the first day. -/
def inWindow (pull : Source σ) (first last : Date) (skips : Nat) : Nat → σ → Bounded (List Date)
  | 0, _ => return []
  | cap + 1, state => do
    match ← firstFrom pull first skips state with
    | (some date, rest) => if date ≤ last then takeThrough pull last cap rest [date] else return []
    | (none, _) => return []

end Source

variable {σ τ : Type}

/-- A bounded source follows a source in whole numbers: from states that belong together it answers
the same without overflow, and leaves states that belong together. -/
def Follows (bounded : Source σ) (pull : RecurringDates.Source τ)
    (together : σ → τ → Prop) : Prop :=
  ∀ state other, together state other →
    ∃ rest, bounded state = .ok ((pull other).1, rest) ∧ together rest (pull other).2

namespace Follows

variable {bounded : Source σ} {pull : RecurringDates.Source τ} {together : σ → τ → Prop}

/-- Skipping follows skipping. -/
theorem firstFrom (hfollows : Follows bounded pull together) (bound : Date) (skips : Nat) :
    Follows (bounded.firstFrom bound skips) (pull.firstFrom bound skips) together := by
  induction skips with
  | zero => exact hfollows
  | succ skips ih =>
    intro state other htogether
    obtain ⟨rest, hpull, hrest⟩ := hfollows state other htogether
    unfold Source.firstFrom RecurringDates.Source.firstFrom
    rw [hpull, ok_bind]
    generalize pull other = answer at hrest ⊢
    -- The source has ended, or it has given a date that is skipped or not.
    rcases answer with ⟨_ | date, later⟩
    · exact ⟨rest, rfl, hrest⟩
    · dsimp only
      split
      · exact ih rest later hrest
      · exact ⟨rest, rfl, hrest⟩

theorem takeThrough_eq (hfollows : Follows bounded pull together) (last : Date) {cap : Nat}
    {state : σ} {other : τ} (htogether : together state other) (found : List Date) :
    bounded.takeThrough last cap state found = .ok (pull.takeThrough last cap other found) := by
  induction cap generalizing state other found with
  | zero => rfl
  | succ cap ih =>
    obtain ⟨rest, hpull, hrest⟩ := hfollows state other htogether
    unfold Source.takeThrough RecurringDates.Source.takeThrough
    rw [hpull, ok_bind]
    generalize pull other = answer at hrest ⊢
    -- The source has ended, or it has given a date, after which the search goes on or not.
    rcases answer with ⟨_ | date, later⟩
    · rfl
    · dsimp only
      split
      · exact ih hrest (date :: found)
      · rfl

/-- **A search of a bounded source finds the same without overflow.** -/
theorem inWindow_eq (hfollows : Follows bounded pull together) (first last : Date) (skips cap : Nat)
    {state : σ} {other : τ} (htogether : together state other) :
    bounded.inWindow first last skips cap state
      = .ok (pull.inWindow first last skips cap other) := by
  cases cap with
  | zero => rfl
  | succ cap =>
    -- The first date is sought with skips, and the others follow it without any.
    obtain ⟨rest, hfirst, hrest⟩ := hfollows.firstFrom first skips state other htogether
    rw [Source.inWindow, RecurringDates.Source.inWindow, hfirst, ok_bind]
    generalize pull.firstFrom first skips other = answer at hrest ⊢
    rcases answer with ⟨_ | date, later⟩
    · rfl
    · dsimp only
      split
      · exact hfollows.takeThrough_eq last hrest [date]
      · rfl

end Follows

/-! ## §2 Limits -/

/-- What is left after one more date. -/
def spend (limits : Limits) : Bounded Limits :=
  match limits.remaining with
  | none => return limits
  | some count => do
    let left ← Size.uint64.fit (count - 1)
    return { limits with remaining := some left.toNat }

/-- The next date of a bounded source within limits. -/
def next (pull : Source σ) : Source (Limits × σ) := fun (limits, state) =>
  if limits.remaining = some 0 then
    return (none, (limits, state))
  else do
    match ← pull state with
    | (none, rest) => return (none, (Limits.ended, rest))
    | (some date, rest) =>
      if limits.allows date then
        return (some date, (← spend limits, rest))
      else
        return (none, (Limits.ended, rest))

/-- The number of dates that may still come is one of 64 bits. -/
def CountFits (limits : Limits) : Prop :=
  ∀ count ∈ limits.remaining, Size.uint64.Holds (count : Nat)

theorem countFits_ended : CountFits Limits.ended := by
  rintro count ⟨⟩
  decide

/-- A count can be taken one off unless it is spent. -/
theorem spend_eq {limits : Limits} (hfits : CountFits limits) (hleft : limits.remaining ≠ some 0) :
    spend limits = .ok limits.spend ∧ CountFits limits.spend := by
  obtain ⟨_ | count, untilDate⟩ := limits
  case none => exact ⟨rfl, hfits⟩
  case some =>
    -- A count that is not spent is at least one, so one less has no sign.
    have hcount := hfits count rfl
    have hpos : count ≠ 0 := fun hzero => hleft (congrArg some hzero)
    simp only [Size.Holds] at hcount
    have hholds : Size.uint64.Holds ((count : Int) - 1) := by
      simp only [Size.Holds]
      omega
    have hnat : ((count : Int) - 1).toNat = count - 1 := by omega
    refine ⟨?_, ?_⟩
    · simp only [spend, Size.fit_eq_ok hholds, ok_bind, pure_eq_ok, hnat, Limits.spend,
        Option.map_some]
    · rintro left ⟨⟩
      simp only [Size.Holds]
      omega

/-- It could not be taken off a count that is spent. -/
example : spend Limits.ended = .error ⟨.uint64, -1⟩ := by
  decide

/-- **A limited source follows a limited source**, if its count has 64 bits. -/
theorem Follows.next {bounded : Source σ} {pull : RecurringDates.Source τ}
    {together : σ → τ → Prop} (hfollows : Follows bounded pull together) :
    Follows (next bounded) (Limits.next pull) fun held other =>
      held.1 = other.1 ∧ CountFits held.1 ∧ together held.2 other.2 := by
  rintro ⟨limits, state⟩ ⟨_, other⟩ ⟨rfl, hfits, htogether⟩
  obtain ⟨rest, hpull, hrest⟩ := hfollows state other htogether
  dsimp only at hfits htogether
  unfold Bounded.next
  dsimp only
  rcases Limits.next_cases pull limits other with
    ⟨hspent, hnext⟩ | ⟨hleft, ⟨date, hdate, hallowed⟩, hnext⟩ | ⟨hleft, hrefused, hnext⟩
  · -- Nothing is pulled in either source.
    rw [if_pos hspent, hnext]
    exact ⟨_, rfl, rfl, hfits, htogether⟩
  · -- Both pull the same date, and both take one off the count.
    obtain ⟨hspend, hspent⟩ := spend_eq hfits hleft
    rw [if_neg hleft, hpull, ok_bind, hnext, hdate]
    dsimp only
    rw [if_pos hallowed, hspend]
    exact ⟨_, rfl, rfl, hspent, hrest⟩
  · -- Both pull once and end.
    rw [if_neg hleft, hpull, ok_bind, hnext]
    refine ⟨(Limits.ended, rest), ?_, rfl, countFits_ended, hrest⟩
    cases hanswer : (pull other).1 with
    | none => rfl
    | some date => exact if_neg fun hallowed => hrefused ⟨date, hanswer, hallowed⟩

/-! ## §3 Walks -/

/-- A walk from period to period by a step, as long as it does not come to its end. -/
structure Walk where
  /-- The number of the first period. -/
  first : Int
  /-- The distance from one period to the next. -/
  step : Int
  /-- No period has a greater number. -/
  bound : Int
  /-- The dates of the period with a number, none if the walk ends before it. -/
  look : Int → Bounded (Option (List Date))
  step_pos : 0 < step
  le_bound : ∀ {period dates}, look period = .ok (some dates) → period ≤ bound

namespace Walk

/-- The next date from a period on after those that are pending, and the place after it. -/
def seek (walk : Walk) (period : Int) : List Date → Bounded (Option Date × Int × List Date)
  | date :: pending => .ok (some date, period, pending)
  | [] =>
    match _h : walk.look period with
    | .error overflow => .error overflow
    | .ok none => .ok (none, period, [])
    | .ok (some dates) => walk.seek (period + walk.step) dates
termination_by (walk.bound + 1 - period).toNat
decreasing_by
  have hbound := walk.le_bound _h
  have hpos := walk.step_pos
  omega

/-- A walk as a bounded source of its dates. Its places are the number of the next period and the
dates of the current one that are still to come. -/
def pull (walk : Walk) : Source (Int × List Date) := fun (period, pending) =>
  walk.seek period pending

/-- The place before the first period. -/
def start (walk : Walk) : Int × List Date :=
  (walk.first, [])

/-- The same walk with only those of its dates that pass a test. -/
def filter (walk : Walk) (test : Date → Bool) : Walk where
  first := walk.first
  step := walk.step
  bound := walk.bound
  look period := do return (← walk.look period).map (List.filter test)
  step_pos := walk.step_pos
  le_bound := by
    intro period dates hlook
    cases hfound : walk.look period with
    | error overflow =>
      rw [hfound] at hlook
      cases hlook
    | ok found =>
      rw [hfound, ok_bind, pure_eq_ok, Except.ok.injEq] at hlook
      obtain ⟨all, rfl, _⟩ := Option.map_eq_some_iff.mp hlook
      exact walk.le_bound hfound

/-- A walk goes along a cycle if after any number of steps both are at periods with the same dates
or both at an end. -/
def GoesAlong (walk : Walk) (cycle : Cycle) : Prop :=
  ∀ k : Nat, walk.look (walk.first + walk.step * k)
    = .ok (if cycle.first + cycle.step * k ≤ cycle.last
        then some (cycle.datesIn (cycle.first + cycle.step * k)) else none)

variable {walk : Walk} {cycle : Cycle}

theorem GoesAlong.filter (halong : walk.GoesAlong cycle) (test : Date → Bool) :
    (walk.filter test).GoesAlong (cycle.filter test) := by
  intro k
  show (walk.look (walk.first + walk.step * k) >>= fun found =>
    pure (found.map (List.filter test))) = _
  rw [halong k, ok_bind, pure_eq_ok, apply_ite (Option.map (List.filter test))]
  rfl

theorem seek_cons (period : Int) (date : Date) (pending : List Date) :
    walk.seek period (date :: pending) = .ok (some date, period, pending) := by
  rw [seek]

theorem seek_of_end {period : Int} (hlook : walk.look period = .ok none) :
    walk.seek period [] = .ok (none, period, []) := by
  rw [seek]
  split
  · rename_i overflow hfound
    rw [hlook] at hfound
    cases hfound
  · rfl
  · rename_i dates hfound
    rw [hlook] at hfound
    cases hfound

theorem seek_of_dates {period : Int} {dates : List Date}
    (hlook : walk.look period = .ok (some dates)) :
    walk.seek period [] = walk.seek (period + walk.step) dates := by
  -- Only what was looked up can be found.
  rw [seek]
  split
  · rename_i overflow hfound
    rw [hlook] at hfound
    cases hfound
  · rename_i hfound
    rw [hlook] at hfound
    cases hfound
  · rename_i found hfound
    rw [hlook] at hfound
    cases hfound
    rfl

/-- A place of a walk and one of a cycle belong together if the same dates are pending and the same
number of steps has been made. -/
def Together (walk : Walk) (cycle : Cycle) (place : Int × List Date)
    (cursor : Cycle.Cursor) : Prop :=
  place.2 = cursor.pending ∧ ∃ k : Nat, k + cursor.left = cycle.size ∧
    place.1 = walk.first + walk.step * k ∧ cursor.period = cycle.first + cycle.step * k

theorem together_start (walk : Walk) (cycle : Cycle) :
    walk.Together cycle walk.start cycle.start := by
  refine ⟨rfl, 0, Nat.zero_add _, ?_, ?_⟩
  · rw [Int.natCast_zero, Int.mul_zero, Int.add_zero]
    rfl
  · rw [Int.natCast_zero, Int.mul_zero, Int.add_zero]
    rfl

/-- **A walk along a cycle follows it**, from the first period to the end. -/
theorem follows_pull (halong : walk.GoesAlong cycle) :
    Follows walk.pull cycle.pull (walk.Together cycle) := by
  rintro ⟨_, pending⟩ ⟨_, _, left⟩ ⟨rfl, k, hsize, rfl, rfl⟩
  unfold pull Cycle.pull
  dsimp only at hsize ⊢
  -- The induction is on the periods that are left, with the number of steps made generalized.
  induction left generalizing k pending with
  | zero =>
    cases pending with
    | cons date pending => exact ⟨(_, pending), seek_cons _ date pending, rfl, k, hsize, rfl, rfl⟩
    | nil =>
      -- No period is left, and the walk is past its bound as well.
      have hover : ¬ cycle.first + cycle.step * k ≤ cycle.last := by
        rw [← Cycle.lt_size_iff]
        omega
      have hlook := halong k
      rw [if_neg hover] at hlook
      rw [seek_of_end hlook]
      exact ⟨_, rfl, rfl, k, hsize, rfl, rfl⟩
  | succ left ih =>
    cases pending with
    | cons date pending => exact ⟨(_, pending), seek_cons _ date pending, rfl, k, hsize, rfl, rfl⟩
    | nil =>
      -- A period is left, so the walk looks at it too and makes the same step.
      have hinside : cycle.first + cycle.step * k ≤ cycle.last := by
        rw [← Cycle.lt_size_iff]
        omega
      have hlook := halong k
      rw [if_pos hinside] at hlook
      have hwalk : walk.first + walk.step * k + walk.step
          = walk.first + walk.step * (k + 1 : Nat) := by
        rw [Int.natCast_add, Int.mul_add]
        omega
      have hcycle : cycle.first + cycle.step * k + cycle.step
          = cycle.first + cycle.step * (k + 1 : Nat) := by
        rw [Int.natCast_add, Int.mul_add]
        omega
      rw [seek_of_dates hlook, Cycle.seek, hwalk, hcycle]
      exact ih _ (k + 1) (by omega)

end Walk

end RecurringDates.Bounded
