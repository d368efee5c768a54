import RecurringDates.Series.Source

/-!
# Limits of a series

A series ends once its number of dates is spent or a date lies past its last day, whichever comes
first. Once it has ended it stays ended, and nothing more is pulled.

The main statements say what one call of a limited source does (`Limits.next_cases`) and which dates
of a source it gives (`Limits.gives_next`).
-/

namespace RecurringDates

/-- What is left of a series. -/
structure Limits where
  /-- The number of dates that may still come, if the series ends by number. -/
  remaining : Option Nat
  /-- The last day on which a date may fall, if the series ends by date. -/
  untilDate : Option Date
deriving DecidableEq

namespace Limits

/-- The limits of a series that has ended. -/
def ended : Limits :=
  ⟨some 0, none⟩

/-- Whether a date may fall on a day. -/
def allows (limits : Limits) (date : Date) : Bool :=
  match limits.untilDate with
  | none => true
  | some untilDate => date ≤ untilDate

/-- What is left after one more date. -/
def spend (limits : Limits) : Limits :=
  { limits with remaining := limits.remaining.map (· - 1) }

/-- The initial part of a list of dates that the limits leave. -/
def cut (limits : Limits) (dates : List Date) : List Date :=
  match limits.remaining with
  | none => dates.takeWhile limits.allows
  | some count => (dates.take count).takeWhile limits.allows

/-- The next date of a source within limits. -/
def next {σ : Type} (pull : Source σ) : Source (Limits × σ) := fun (limits, state) =>
  if limits.remaining = some 0 then (none, (limits, state))
  else
    match pull state with
    | (none, rest) => (none, (ended, rest))
    | (some date, rest) =>
      if limits.allows date then (some date, (limits.spend, rest)) else (none, (ended, rest))

theorem cut_nil (limits : Limits) : limits.cut [] = [] := by
  unfold cut
  split <;> simp

/-- The limits take nothing out of the middle. -/
theorem cut_sublist (limits : Limits) (dates : List Date) : (limits.cut dates).Sublist dates := by
  unfold Limits.cut
  split
  · exact List.takeWhile_sublist _
  · exact (List.takeWhile_sublist _).trans (List.take_sublist _ _)

theorem cut_of_spent {limits : Limits} (dates : List Date)
    (hspent : limits.remaining = some 0) : limits.cut dates = [] := by
  simp [cut, hspent]

theorem cut_cons {limits : Limits} (date : Date) (dates : List Date)
    (hunspent : limits.remaining ≠ some 0) :
    limits.cut (date :: dates)
      = if limits.allows date then date :: limits.spend.cut dates else [] := by
  have hsame : limits.spend.allows = limits.allows := rfl
  unfold cut
  cases hremaining : limits.remaining with
  | none => simp only [spend, hremaining, Option.map_none, List.takeWhile_cons]; rfl
  | some count =>
    cases count with
    | zero => exact absurd hremaining hunspent
    | succ count =>
      -- The date is one of those that the count leaves, and the others are one fewer.
      simp only [spend, hremaining, Option.map_some, Nat.add_sub_cancel, List.take_succ_cons,
        List.takeWhile_cons]
      rfl

/-- **What one call does.** It pulls nothing and changes nothing if the count is spent. Otherwise it
pulls once: an allowed date is given and counted, and anything else ends the series. -/
theorem next_cases {σ : Type} (pull : Source σ) (limits : Limits) (state : σ) :
    (limits.remaining = some 0 ∧ next pull (limits, state) = (none, (limits, state))) ∨
      (limits.remaining ≠ some 0 ∧
        (∃ date, (pull state).1 = some date ∧ limits.allows date = true) ∧
          next pull (limits, state) = ((pull state).1, (limits.spend, (pull state).2))) ∨
      (limits.remaining ≠ some 0 ∧
        (¬ ∃ date, (pull state).1 = some date ∧ limits.allows date = true) ∧
          next pull (limits, state) = (none, (ended, (pull state).2))) := by
  by_cases hspent : limits.remaining = some 0
  · -- The count is spent, and nothing is pulled.
    exact Or.inl ⟨hspent, by simp only [next, hspent, if_true]⟩
  · refine Or.inr ?_
    simp only [next, hspent, if_false]
    rcases pull state with ⟨_ | date, rest⟩
    · -- The source that is pulled has nothing more.
      exact Or.inr ⟨hspent, by simp, rfl⟩
    · by_cases hallowed : limits.allows date = true
      · exact Or.inl ⟨hspent, ⟨date, rfl, hallowed⟩, if_pos hallowed⟩
      · refine Or.inr ⟨hspent, ?_, if_neg hallowed⟩
        rintro ⟨other, hsame, hfollows⟩
        cases hsame
        exact hallowed hfollows

/-- **A limited source gives the initial part that its limits leave.** -/
theorem gives_next {σ : Type} {pull : Source σ} {limits : Limits} {state : σ} {dates : List Date}
    (hgives : Source.Gives pull state dates) :
    Source.Gives (next pull) (limits, state) (limits.cut dates) := by
  induction dates generalizing limits state with
  | nil =>
    rw [cut_nil]
    unfold Source.Gives at hgives ⊢
    rcases next_cases pull limits state with ⟨_, hstep⟩ | ⟨_, _, hstep⟩ | ⟨_, _, hstep⟩
    · rw [hstep]
    · rw [hstep]
      exact hgives
    · rw [hstep]
  | cons date dates ih =>
    obtain ⟨hhead, htail⟩ := hgives
    rcases next_cases pull limits state with
      ⟨hspent, hstep⟩ | ⟨hunspent, ⟨other, hgiven, hallowed⟩, hstep⟩ | ⟨hunspent, hrefused, hstep⟩
    · -- Nothing may come any more, so nothing is pulled.
      rw [cut_of_spent _ hspent]
      show (next pull (limits, state)).1 = none
      rw [hstep]
    · -- The date that is pulled is given, and the rest is up to what the limits leave after it.
      obtain rfl : date = other := Option.some.inj (hhead.symm.trans hgiven)
      rw [cut_cons date dates hunspent, if_pos hallowed]
      refine ⟨?_, ?_⟩
      · rw [hstep]
        exact hhead
      · rw [hstep]
        exact ih htail
    · -- The date that is pulled ends the series.
      rw [cut_cons date dates hunspent, if_neg fun hallowed => hrefused ⟨date, hhead, hallowed⟩]
      show (next pull (limits, state)).1 = none
      rw [hstep]

end Limits

end RecurringDates
