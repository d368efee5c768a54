import Mathlib.Data.Nat.Count
import RecurringDates.Proofs.Continuation

/-!
# Sources within limits

A source within limits may be called any number of times, also after it has answered none. The
source that it pulls from may be any at all: its dates may come in any order, and it may go on
after it has answered none. What is given is nevertheless the longest run of dates at its front
that the limits leave, and nothing is pulled once that run is over.

The main statement is `Limits.answer_next`, for any source, any limits and any call. It rests on
what one call does (`Limits.next_cases`) and on the state that a number of calls leave behind
(`Limits.stateAfter_of_isRun`, `Limits.spent_iff_not_asks`).
-/

namespace RecurringDates

/-! ## §1 Calls of a source -/

namespace Source

variable {σ : Type}

/-- The state after a number of pulls. -/
def stateAfter (pull : Source σ) (state : σ) : Nat → σ
  | 0 => state
  | pulls + 1 => (pull (stateAfter pull state pulls)).2

/-- The answer to the pull with a number, counted from 0. -/
def answer (pull : Source σ) (state : σ) (place : Nat) : Option Date :=
  (pull (pull.stateAfter state place)).1

/-- The source with given answers, which keeps the number of pulls. -/
def ofAnswers (answers : Nat → Option Date) : Source Nat := fun pulls =>
  (answers pulls, pulls + 1)

/-- Any sequence of answers is that of a source. -/
theorem answer_ofAnswers (answers : Nat → Option Date) :
    (ofAnswers answers).answer 0 = answers := by
  have hstate : ∀ place, (ofAnswers answers).stateAfter 0 place = place := by
    intro place
    induction place with
    | zero => rfl
    | succ place ih => exact congrArg (· + 1) ih
  funext place
  rw [answer, hstate]
  rfl

end Source

/-! ## §2 Runs within limits -/

namespace Limits

variable {limits : Limits} {answers : Nat → Option Date} {length place : Nat}

/-- The first answers, as many as the length says, are a run of dates within limits: there are no
more of them than may come, and each is a date on an allowed day. -/
structure IsRun (limits : Limits) (answers : Nat → Option Date) (length : Nat) : Prop where
  within_count : ∀ count, limits.remaining = some count → length ≤ count
  allowed : ∀ place < length, ∃ date, answers place = some date ∧ limits.allows date = true

instance (limits : Limits) (answers : Nat → Option Date) (length : Nat) :
    Decidable (limits.IsRun answers length) :=
  decidable_of_iff ((limits.remaining.all fun count => length ≤ count) = true ∧
      ∀ place < length, (answers place).any limits.allows = true)
    ⟨fun h => ⟨by simpa [Option.all_eq_true] using h.1, by simpa [Option.any_eq_true] using h.2⟩,
      fun h => ⟨by simpa [Option.all_eq_true] using h.within_count,
        by simpa [Option.any_eq_true] using h.allowed⟩⟩

/-- A call pulls if all calls before it have given a date and the count is not spent on them. -/
def Asks (limits : Limits) (answers : Nat → Option Date) (call : Nat) : Prop :=
  limits.IsRun answers call ∧ limits.remaining ≠ some call

instance (limits : Limits) (answers : Nat → Option Date) (call : Nat) :
    Decidable (limits.Asks answers call) :=
  inferInstanceAs (Decidable (_ ∧ _))

/-- The number of pulls that a number of calls make. -/
def pulls (limits : Limits) (answers : Nat → Option Date) (calls : Nat) : Nat :=
  Nat.count (limits.Asks answers) calls

theorem isRun_zero : limits.IsRun answers 0 :=
  ⟨fun _ _ => Nat.zero_le _, fun _ hplace => absurd hplace (Nat.not_lt_zero _)⟩

/-- A run begins with every shorter one. -/
theorem IsRun.mono {shorter : Nat} (hrun : limits.IsRun answers length)
    (hle : shorter ≤ length) : limits.IsRun answers shorter where
  within_count count hcount := Nat.le_trans hle (hrun.within_count count hcount)
  allowed place hplace := hrun.allowed place (Nat.lt_of_lt_of_le hplace hle)

/-- A run goes on with an allowed date that is asked for. -/
theorem isRun_succ_iff :
    limits.IsRun answers (length + 1) ↔ limits.Asks answers length ∧
      ∃ date, answers length = some date ∧ limits.allows date = true := by
  constructor
  · -- The last date of a longer run was still asked for.
    intro hrun
    have hleft : limits.remaining ≠ some length := fun hcount =>
      absurd (hrun.within_count length hcount) (Nat.not_succ_le_self length)
    exact ⟨⟨hrun.mono (Nat.le_succ length), hleft⟩, hrun.allowed length (Nat.lt_succ_self length)⟩
  · rintro ⟨⟨hrun, hleft⟩, hlast⟩
    constructor
    · -- The count is no less than the run and not just as long.
      intro count hcount
      refine Nat.lt_of_le_of_ne (hrun.within_count count hcount) ?_
      rintro rfl
      exact hleft hcount
    · -- Every date but the last is one of the shorter run.
      intro place hplace
      rcases Nat.lt_succ_iff_lt_or_eq.mp hplace with hlt | rfl
      · exact hrun.allowed place hlt
      · exact hlast

theorem Asks.lt_count {call count : Nat} (hasks : limits.Asks answers call)
    (hcount : limits.remaining = some count) : call < count := by
  refine Nat.lt_of_le_of_ne (hasks.1.within_count count hcount) ?_
  rintro rfl
  exact hasks.2 hcount

/-- As long as a run goes on, every call has pulled. -/
theorem IsRun.pulls_eq (hrun : limits.IsRun answers length) :
    limits.pulls answers length = length := by
  rw [pulls, Nat.count_iff_forall]
  exact fun place hplace => (isRun_succ_iff.mp (hrun.mono hplace)).1

/-- No more pulls are made than there are calls that may pull. -/
theorem pulls_le {most : Nat} (hmost : ∀ call, limits.Asks answers call → call < most)
    (calls : Nat) : limits.pulls answers calls ≤ most := by
  induction calls with
  | zero => exact Nat.zero_le most
  | succ call ih =>
    rw [pulls, Nat.count_succ]
    split
    · -- A call that pulls is itself below the bound, and so are all before it.
      rename_i hasks
      exact Nat.le_trans (Nat.succ_le_succ (Nat.count_le _)) (hmost call hasks)
    · exact ih

/-! ## §3 One call -/

variable {σ : Type} {pull : Source σ}

theorem next_of_spent {held : Limits × σ} (hspent : held.1.remaining = some 0) :
    next pull held = (none, held) := by
  rw [next, if_pos hspent]

/-- A call pulls once if the count is not spent. -/
theorem next_snd_snd {limits : Limits} {state : σ} (hleft : limits.remaining ≠ some 0) :
    (next pull (limits, state)).2.2 = (pull state).2 := by
  rcases next_cases pull limits state with ⟨hspent, _⟩ | ⟨_, _, hnext⟩ | ⟨_, _, hnext⟩
  · exact absurd hspent hleft
  · rw [hnext]
  · rw [hnext]

/-- A call that gives a date takes one off a count that is not zero. -/
theorem remaining_of_answer {limits : Limits} {state : σ}
    (hgiven : (next pull (limits, state)).1.isSome = true) :
    limits.remaining = (next pull (limits, state)).2.1.remaining.map (· + 1) := by
  rcases next_cases pull limits state with ⟨_, hnext⟩ | ⟨hleft, _, hnext⟩ | ⟨_, _, hnext⟩
  · simp [hnext] at hgiven
  · rw [hnext]
    unfold spend
    cases hremaining : limits.remaining with
    | none => rfl
    | some count =>
      have hpos : count ≠ 0 := fun hzero => hleft (by rw [hremaining, hzero])
      simp only [Option.map_some, Option.some.injEq]
      omega
  · simp [hnext] at hgiven

/-! ## §4 Any number of calls -/

variable {state : σ} {calls : Nat}

theorem spend_spendMany (limits : Limits) (dates : Nat) :
    (limits.spendMany dates).spend = limits.spendMany (dates + 1) := by
  simp only [spendMany, spend, Option.map_map]
  congr 2

/-- The count that a run has left is spent exactly if the next call may not pull. -/
theorem remaining_spendMany_eq_zero_iff (hrun : limits.IsRun answers length) :
    (limits.spendMany length).remaining = some 0 ↔ limits.remaining = some length := by
  unfold spendMany
  cases hremaining : limits.remaining with
  | none => simp
  | some count =>
    have hle := hrun.within_count count hremaining
    simp only [Option.map_some, Option.some.injEq]
    omega

/-- **As long as a run goes on**, each call has pulled once and has been counted. -/
theorem stateAfter_of_isRun (hrun : limits.IsRun (pull.answer state) calls) :
    (next pull).stateAfter (limits, state) calls
      = (limits.spendMany calls, pull.stateAfter state calls) := by
  induction calls with
  | zero =>
    rw [Source.stateAfter, spendMany_zero]
    rfl
  | succ calls ih =>
    -- The invariant: after each call of a run, as many dates are spent as calls are made.
    obtain ⟨⟨hbefore, hleft⟩, hgiven⟩ := isRun_succ_iff.mp hrun
    have hunspent := mt (remaining_spendMany_eq_zero_iff hbefore).mp hleft
    rw [Source.stateAfter, ih hbefore]
    -- The limits have spent some of their count, but they allow the same days.
    rcases next_cases pull (limits.spendMany calls) (pull.stateAfter state calls) with
      ⟨hspent, _⟩ | ⟨_, _, hnext⟩ | ⟨_, hrefused, _⟩
    · exact absurd hspent hunspent
    · rw [hnext, spend_spendMany]
      rfl
    · exact absurd hgiven hrefused

/-- Once a run is over, the limits are spent. -/
theorem spent_of_not_isRun (hover : ¬ limits.IsRun (pull.answer state) calls) :
    ((next pull).stateAfter (limits, state) calls).1.remaining = some 0 := by
  induction calls with
  | zero => exact absurd isRun_zero hover
  | succ calls ih =>
    rw [Source.stateAfter]
    by_cases hrun : limits.IsRun (pull.answer state) calls
    · -- This call is the one that ends the run, by its count or by its answer.
      rw [stateAfter_of_isRun hrun]
      rcases next_cases pull (limits.spendMany calls) (pull.stateAfter state calls) with
        ⟨hspent, hnext⟩ | ⟨hleft, hgiven, _⟩ | ⟨_, _, hnext⟩
      · rwa [hnext]
      · have hasks := mt (remaining_spendMany_eq_zero_iff hrun).mpr hleft
        exact absurd (isRun_succ_iff.mpr ⟨⟨hrun, hasks⟩, hgiven⟩) hover
      · rw [hnext]
        rfl
    · -- The run was over before, and a spent source stays as it is.
      rw [next_of_spent (ih hrun)]
      exact ih hrun

/-- **A call pulls exactly if the limits are not spent** on the calls before it. -/
theorem spent_iff_not_asks :
    ((next pull).stateAfter (limits, state) calls).1.remaining = some 0 ↔
      ¬ limits.Asks (pull.answer state) calls := by
  by_cases hrun : limits.IsRun (pull.answer state) calls
  · rw [stateAfter_of_isRun hrun, remaining_spendMany_eq_zero_iff hrun, Asks]
    simp only [hrun, true_and, ne_eq, not_not]
  · exact iff_of_true (spent_of_not_isRun hrun) fun hasks => hrun hasks.1

/-- The source that is pulled from has moved on by as many pulls as calls have made. -/
theorem stateAfter_snd (pull : Source σ) (limits : Limits) (state : σ) (calls : Nat) :
    ((next pull).stateAfter (limits, state) calls).2
      = pull.stateAfter state (limits.pulls (pull.answer state) calls) := by
  induction calls with
  | zero => rfl
  | succ calls ih =>
    rw [Source.stateAfter, pulls, Nat.count_succ]
    by_cases hasks : limits.Asks (pull.answer state) calls
    · -- A call that pulls comes after as many pulls as calls.
      have hleft := mt (remaining_spendMany_eq_zero_iff hasks.1).mp hasks.2
      have hpulls : Nat.count (limits.Asks (pull.answer state)) calls = calls := hasks.1.pulls_eq
      rw [if_pos hasks, hpulls, stateAfter_of_isRun hasks.1, next_snd_snd hleft]
      rfl
    · -- A call that does not pull leaves the source where it was.
      rw [if_neg hasks, next_of_spent (spent_iff_not_asks.mpr hasks)]
      exact ih

theorem answer_eq (pull : Source σ) (limits : Limits) (state : σ) (call : Nat) :
    (next pull).answer (limits, state) call
      = if limits.IsRun (pull.answer state) (call + 1) then pull.answer state call else none := by
  rw [Source.answer]
  by_cases hasks : limits.Asks (pull.answer state) call
  · rw [stateAfter_of_isRun hasks.1]
    rcases next_cases pull (limits.spendMany call) (pull.stateAfter state call) with
      ⟨hspent, _⟩ | ⟨_, hgiven, hnext⟩ | ⟨_, hrefused, hnext⟩
    · -- A call that may pull finds some of the count left.
      exact absurd ((remaining_spendMany_eq_zero_iff hasks.1).mp hspent) hasks.2
    · -- The run goes on by the date that is pulled.
      rw [if_pos (isRun_succ_iff.mpr ⟨hasks, hgiven⟩), hnext]
      rfl
    · -- What is pulled is not allowed, or nothing is.
      rw [if_neg fun hrun => hrefused (isRun_succ_iff.mp hrun).2, hnext]
  · -- The run is over, by its count or by an earlier answer.
    rw [if_neg fun hrun => hasks (isRun_succ_iff.mp hrun).1,
      next_of_spent (spent_iff_not_asks.mpr hasks)]

/-- **A limited source gives the longest run within its limits**, whatever the source that it pulls
from does. Each call answers with the next date of the run, and with none for ever once the run is
over. The calls move the source on by the pulls that they make: no more than the dates that may
come, and none after the first answer that is not in the run. A call that gives a date takes one
off a count that is not zero. -/
theorem answer_next (pull : Source σ) (limits : Limits) (state : σ) (call : Nat) :
    ((next pull).answer (limits, state) call
      = if limits.IsRun (pull.answer state) (call + 1) then pull.answer state call else none) ∧
    ((next pull).stateAfter (limits, state) call).2
      = pull.stateAfter state (limits.pulls (pull.answer state) call) ∧
    (∀ count, limits.remaining = some count → limits.pulls (pull.answer state) call ≤ count) ∧
    (∀ place, ¬ limits.IsRun (pull.answer state) (place + 1) →
      limits.pulls (pull.answer state) call ≤ place + 1) ∧
    (((next pull).answer (limits, state) call).isSome = true →
      ((next pull).stateAfter (limits, state) call).1.remaining
        = ((next pull).stateAfter (limits, state) (call + 1)).1.remaining.map (· + 1)) := by
  refine ⟨answer_eq pull limits state call, stateAfter_snd pull limits state call, ?_, ?_,
    remaining_of_answer⟩
  · -- Every call that pulls comes while some of the count is left.
    exact fun count hcount => pulls_le (fun _ hasks => hasks.lt_count hcount) call
  · -- No call after the end of the run pulls.
    intro place hover
    refine pulls_le (fun other hasks => ?_) call
    exact Nat.lt_of_not_le fun hlater => hover (hasks.1.mono hlater)

/-- A source that goes on after it has answered none, and a date past the last allowed day before
one that is not. -/
example :
    let answers : Nat → Option Date := fun place =>
      ([some (.ofParts 2024 1 5), some (.ofParts 2024 1 1), none,
        some (.ofParts 2024 1 2)][place]?).join
    let given := fun limits : Limits =>
      (List.range 4).map ((next (Source.ofAnswers answers)).answer (limits, 0))
    given ⟨some 3, none⟩ = [some (.ofParts 2024 1 5), some (.ofParts 2024 1 1), none, none] ∧
      given ⟨none, some (.ofParts 2024 1 3)⟩ = [none, none, none, none] := by
  decide

end Limits

end RecurringDates
