import RecurringDates.Occurrences
import RecurringDates.Rule.Text

/-!
# What is wrong with a rule

Before a rule has dates it is checked, part by part and in a fixed order. The first check that it
fails decides the error, and nothing else does: not the anchor, not the dates asked for, not the
cap. Once all checks are passed no arithmetic on dates can fail any more.

The main statement is `Rule.occurrences_eq_error_iff`, assembled from one statement for each
function that checks something (`OrdinalWeekday.readAll_eq_error_iff`, `Rule.limitsOf_eq_error_iff`,
`Pattern.ofFrequency_eq_error_iff`, `Pattern.ofRule_eq_error_iff`, `Rule.ofRule_eq_error_iff`).
`Rule.occurrences_validNumbers` compares the checks of numbers with the validity of a rule: they
agree but for intervals that 32 bits do not hold.
-/

namespace RecurringDates

/-! ## §1 The first that fails -/

/-- A cause says why the first of some members that fail does so. -/
def FirstFails {α ε : Type} (fails : α → ε → Prop) (members : List α) (cause : ε) : Prop :=
  ∃ earlier member later, members = earlier ++ member :: later ∧ fails member cause ∧
    ∀ passed ∈ earlier, ∀ other, ¬ fails passed other

section FirstFails

variable {α ε : Type} {fails : α → ε → Prop} {member : α} {members : List α} {cause : ε}

@[simp]
theorem not_firstFails_nil : ¬ FirstFails fails [] cause := by
  rintro ⟨earlier, member, later, hmembers, _⟩
  simp at hmembers

/-- Either the first member fails, or it does not and the others decide. -/
@[simp]
theorem firstFails_cons_iff :
    FirstFails fails (member :: members) cause ↔
      fails member cause ∨ (∀ other, ¬ fails member other) ∧ FirstFails fails members cause := by
  constructor
  · rintro ⟨earlier, failed, later, hmembers, hfails, hpassed⟩
    -- The first to fail is the head exactly if nothing comes before it.
    cases earlier with
    | nil =>
      cases hmembers
      exact Or.inl hfails
    | cons first earlier =>
      cases hmembers
      refine Or.inr ⟨hpassed _ List.mem_cons_self, earlier, failed, later, rfl, hfails, ?_⟩
      exact fun passed hmem => hpassed passed (List.mem_cons_of_mem _ hmem)
  · rintro (hfails | ⟨hpass, earlier, failed, later, rfl, hfails, hpassed⟩)
    · -- The head fails, and nothing comes before it.
      exact ⟨[], member, members, rfl, hfails, fun _ hmem => absurd hmem List.not_mem_nil⟩
    · -- The head passes and becomes one of those before the first that fails.
      refine ⟨member :: earlier, failed, later, rfl, hfails, fun passed hmem => ?_⟩
      rcases List.mem_cons.mp hmem with rfl | hmem
      · exact hpass
      · exact hpassed passed hmem

/-- The first member that fails is one that fails. -/
theorem FirstFails.exists_mem (h : FirstFails fails members cause) :
    ∃ member ∈ members, fails member cause := by
  obtain ⟨earlier, member, later, rfl, hfails, _⟩ := h
  exact ⟨member, List.mem_append_right _ List.mem_cons_self, hfails⟩

/-- If any member fails, one of them is the first. -/
theorem exists_firstFails_iff :
    (∃ cause, FirstFails fails members cause) ↔
      ∃ member ∈ members, ∃ cause, fails member cause := by
  induction members with
  | nil => simp
  | cons member members ih =>
    simp only [firstFails_cons_iff, exists_or, exists_and_left, ih, List.mem_cons,
      exists_eq_or_imp]
    -- What comes after the first member counts only if that one does not fail.
    by_cases hfails : ∃ cause, fails member cause
    · simp [hfails]
    · have hpass : ∀ other, ¬ fails member other := not_exists.mp hfails
      simp [hpass]

end FirstFails

/-! ## §2 Checks -/

/-- What is checked about a rule. -/
inductive Check where
  /-- The number of dates is positive, if it is given. -/
  | count
  /-- The interval is positive and no more than 32 bits hold. -/
  | interval
  /-- No days of the year are named. -/
  | yearDays
  /-- No weeks of the year are named. -/
  | yearWeeks
  /-- Every token stands for an ordinal weekday. -/
  | tokens
  /-- The unit is no shorter than a day. -/
  | unit
  /-- Positions are named only in months. -/
  | positions
  /-- Days of the month are not named in weeks. -/
  | monthDays
  /-- Weekdays are not named in years. -/
  | weekdays

/-- The checks in the order in which they decide the error. -/
def Check.inOrder : List Check :=
  [count, interval, yearDays, yearWeeks, tokens, unit, positions, monthDays, weekdays]

theorem Check.mem_inOrder (check : Check) : check ∈ inOrder := by
  cases check <;> simp [inOrder]

/-- A token fails to stand for an ordinal weekday. -/
def OrdinalWeekday.Fails (token : String) (cause : ExpansionError) : Prop :=
  (¬ ∃ day, read token = .ok day) ∧ cause = .invalidByDay token

/-- A rule fails a check, and a cause says why. -/
def Rule.Fails (rule : Rule) : Check → ExpansionError → Prop
  | .count, cause => ∃ n, rule.count = some n ∧ n.toInt ≤ 0 ∧ cause = .invalidCount n
  | .interval, cause =>
    ¬ (1 ≤ rule.interval.toInt ∧ rule.interval.toInt ≤ 4294967295) ∧
      cause = .invalidInterval rule.interval
  | .yearDays, cause => rule.byYearDay ≠ [] ∧ cause = .unsupported .byYearDay rule.frequency
  | .yearWeeks, cause => rule.byWeekNo ≠ [] ∧ cause = .unsupported .byWeekNo rule.frequency
  | .tokens, cause => FirstFails OrdinalWeekday.Fails rule.byDay cause
  | .unit, cause =>
    rule.frequency ∈ [.secondly, .minutely, .hourly] ∧
      cause = .unsupported .frequency rule.frequency
  | .positions, cause =>
    rule.frequency ∈ [.daily, .weekly, .yearly] ∧ rule.bySetPos ≠ [] ∧
      cause = .unsupported .bySetPos rule.frequency
  | .monthDays, cause =>
    rule.frequency = .weekly ∧ rule.byMonthDay ≠ [] ∧
      cause = .unsupported .byMonthDay rule.frequency
  | .weekdays, cause =>
    rule.frequency = .yearly ∧ rule.byDay ≠ [] ∧ cause = .unsupported .byDay rule.frequency

/-- The check that a cause is about. That a text is no rule and that a date leaves the calendar are
no matters of a check. -/
def ExpansionError.check? : ExpansionError → Option Check
  | .invalidCount _ => some .count
  | .invalidInterval _ => some .interval
  | .unsupported .byYearDay _ => some .yearDays
  | .unsupported .byWeekNo _ => some .yearWeeks
  | .invalidByDay _ => some .tokens
  | .unsupported .frequency _ => some .unit
  | .unsupported .bySetPos _ => some .positions
  | .unsupported .byMonthDay _ => some .monthDays
  | .unsupported .byDay _ => some .weekdays
  | .unsupported _ _ | .unreadable _ | .dateOverflow => none

/-- **A cause tells which check is failed.** -/
theorem Rule.Fails.check?_eq {rule : Rule} {check : Check} {cause : ExpansionError}
    (hfails : rule.Fails check cause) : cause.check? = some check := by
  cases check with
  | tokens =>
    -- The cause is that of the first token that is none.
    obtain ⟨_, token, _, _, ⟨_, rfl⟩, _⟩ := hfails
    rfl
  | count =>
    -- The cause carries the number that is not positive.
    obtain ⟨_, _, _, rfl⟩ := hfails
    rfl
  | interval | yearDays | yearWeeks | unit =>
    obtain ⟨_, rfl⟩ := hfails
    rfl
  | positions | monthDays | weekdays =>
    obtain ⟨_, _, rfl⟩ := hfails
    rfl

/-! ## §3 What each function refuses -/

theorem Interval.ofInt?_eq_none_iff {n : Int} :
    ofInt? n = none ↔ ¬ (1 ≤ n ∧ n ≤ 4294967295) := by
  unfold ofInt?
  split <;> simp <;> omega

namespace OrdinalWeekday

variable {token : String} {tokens : List String} {cause : ExpansionError}

theorem read_eq_error_iff : read token = .error cause ↔ Fails token cause := by
  unfold Fails read
  cases ofTrimmed? (Text.trim token.toList) <;> simp [eq_comm]

theorem read_eq_ok_iff : (∃ day, read token = .ok day) ↔ ∀ other, ¬ Fails token other := by
  simp only [← read_eq_error_iff]
  cases read token <;> simp

/-- **The first token that is none** decides the error. -/
theorem readAll_eq_error_iff : readAll tokens = .error cause ↔ FirstFails Fails tokens cause := by
  induction tokens with
  | nil => simp [readAll]
  | cons token tokens ih =>
    rw [firstFails_cons_iff, ← ih, ← read_eq_ok_iff, ← read_eq_error_iff, readAll]
    cases read token with
    | error fault => simp
    | ok day => cases readAll tokens <;> simp

end OrdinalWeekday

namespace Rule

variable {rule : Rule} {cause : ExpansionError}

theorem weekdays_eq_error_iff : rule.weekdays = .error cause ↔ rule.Fails .tokens cause :=
  OrdinalWeekday.readAll_eq_error_iff

theorem limitsOf_eq_error_iff :
    Series.limitsOf rule = .error cause ↔ rule.Fails .count cause := by
  unfold Series.limitsOf Fails
  cases rule.count with
  | none => simp
  | some count =>
    by_cases hpos : 0 < count.toInt
    · simp [hpos, Int.not_le.mpr hpos]
    · simp [hpos, Int.not_lt.mp hpos, eq_comm]

end Rule

namespace Pattern

variable {rule : Rule} {interval : Interval} {days : List OrdinalWeekday} {cause : ExpansionError}

theorem refuse_eq_error_iff {α : Type} {part : Key} {there : Bool}
    {otherwise : Except ExpansionError α} :
    refuse rule part there otherwise = .error cause ↔
      there = true ∧ cause = .unsupported part rule.frequency ∨
        there = false ∧ otherwise = .error cause := by
  unfold refuse
  cases there <;> simp [eq_comm]

/-- What depends on the unit is checked last. -/
theorem ofFrequency_eq_error_iff :
    ofFrequency rule interval days = .error cause ↔
      FirstFails rule.Fails [.unit, .positions, .monthDays, .weekdays] cause := by
  unfold ofFrequency
  -- Units shorter than a day are refused outright, the others by the parts that they do not take.
  cases hfrequency : rule.frequency with
  | secondly | minutely | hourly => simp [Rule.Fails, hfrequency, eq_comm]
  | daily | weekly | monthly | yearly => simp [refuse_eq_error_iff, Rule.Fails, hfrequency]

/-- Refusing a part is a check before all that is checked otherwise. -/
theorem refuse_eq_error_iff_of_check {α : Type} {part : Key} {there : Bool}
    {otherwise : Except ExpansionError α} {check : Check} {checks : List Check}
    (hcheck : ∀ other, rule.Fails check other ↔
      there = true ∧ other = .unsupported part rule.frequency)
    (hotherwise : otherwise = .error cause ↔ FirstFails rule.Fails checks cause) :
    refuse rule part there otherwise = .error cause ↔
      FirstFails rule.Fails (check :: checks) cause := by
  rw [refuse_eq_error_iff, firstFails_cons_iff, hotherwise]
  simp only [hcheck]
  cases there <;> simp

/-- What is checked once the number of dates has been. -/
theorem ofRule_eq_error_iff :
    ofRule rule = .error cause ↔
      FirstFails rule.Fails
        [.interval, .yearDays, .yearWeeks, .tokens, .unit, .positions, .monthDays, .weekdays]
        cause := by
  unfold ofRule
  -- Without an interval nothing else is looked at.
  cases hinterval : Interval.ofInt? rule.interval.toInt with
  | none =>
    have hfails : ∀ other, rule.Fails .interval other ↔ other = .invalidInterval rule.interval :=
      fun other => and_iff_right (Interval.ofInt?_eq_none_iff.mp hinterval)
    rw [firstFails_cons_iff]
    simp [hfails, eq_comm]
  | some interval =>
    have hpass : ∀ other, ¬ rule.Fails .interval other := by
      rintro other ⟨hrange, _⟩
      rw [Interval.ofInt?_eq_none_iff.mpr hrange] at hinterval
      cases hinterval
    rw [firstFails_cons_iff, or_iff_right (hpass cause), and_iff_right hpass]
    refine refuse_eq_error_iff_of_check (by simp [Rule.Fails]) ?_
    refine refuse_eq_error_iff_of_check (by simp [Rule.Fails]) ?_
    -- The tokens are read before the unit is looked at.
    rw [firstFails_cons_iff]
    simp only [← Rule.weekdays_eq_error_iff]
    cases rule.weekdays with
    | error fault => simp
    | ok days =>
      rw [ofFrequency_eq_error_iff]
      simp only [reduceCtorEq, not_false_eq_true, implies_true, true_and, false_or]

end Pattern

/-! ## §4 What an answer refuses -/

namespace Rule

variable {rule : Rule} {anchor : Date} {cause : ExpansionError}

/-- The anchor is not among what is checked. -/
theorem ofRule_eq_error_iff :
    Series.ofRule rule anchor = .error cause ↔ FirstFails rule.Fails Check.inOrder cause := by
  rw [Check.inOrder, firstFails_cons_iff, ← Pattern.ofRule_eq_error_iff]
  simp only [← limitsOf_eq_error_iff]
  unfold Series.ofRule
  cases Series.limitsOf rule with
  | error fault => simp
  | ok limits => cases Pattern.ofRule rule <;> simp

/-- A rule with an anchor is refused an answer for the reason that it is refused a series. -/
theorem occurrences_eq_error_iff_of_series {options : Options} {window : Window} :
    rule.occurrences options (some anchor) window = .error cause ↔
      Series.ofRule rule anchor = .error cause := by
  cases hseries : Series.ofRule rule anchor <;> simp [occurrences, hseries]

/-- A rule is never refused an answer for a cause that no check is about. -/
theorem occurrences_ne_error_of_check? {options : Options} {window : Window}
    (hcause : cause.check? = none) :
    rule.occurrences options (some anchor) window ≠ .error cause := by
  intro hrefused
  rw [occurrences_eq_error_iff_of_series, ofRule_eq_error_iff] at hrefused
  obtain ⟨check, _, hfails⟩ := hrefused.exists_mem
  rw [hfails.check?_eq] at hcause
  cases hcause

/-- No check is failed because a date leaves the calendar. -/
theorem not_fails_dateOverflow (check : Check) : ¬ rule.Fails check .dateOverflow := by
  intro hfails
  have hcheck := hfails.check?_eq
  simp [ExpansionError.check?] at hcheck

/-- **When a rule is refused an answer, and for which cause.** With an anchor it is refused exactly
if it fails a check, for the cause of the first check in order that it fails, whatever the anchor,
the window and the options. That a date leaves the calendar is never the cause. Without an anchor
there is always an answer, with no dates. -/
theorem occurrences_eq_error_iff (rule : Rule) (options : Options) (anchor : Date)
    (window : Window) :
    (∀ cause, rule.occurrences options (some anchor) window = .error cause ↔
      FirstFails rule.Fails Check.inOrder cause) ∧
    ((∃ dates, rule.occurrences options (some anchor) window = .ok dates) ↔
      ∀ check cause, ¬ rule.Fails check cause) ∧
    (∀ (options' : Options) (anchor' : Date) (window' : Window) (cause : ExpansionError),
      rule.occurrences options' (some anchor') window' = .error cause ↔
        rule.occurrences options (some anchor) window = .error cause) ∧
    rule.occurrences options (some anchor) window ≠ .error .dateOverflow ∧
    rule.occurrences options none window = .ok [] := by
  have herror : ∀ options anchor window cause,
      rule.occurrences options (some anchor) window = .error cause ↔
        FirstFails rule.Fails Check.inOrder cause := by
    intro options anchor window cause
    rw [occurrences_eq_error_iff_of_series, ofRule_eq_error_iff]
  refine ⟨herror options anchor window, ?_, ?_, ?_, rfl⟩
  · -- There is an answer where there is no error, and all that can fail is in the order.
    have hok : (∃ dates, rule.occurrences options (some anchor) window = .ok dates) ↔
        ¬ ∃ cause, rule.occurrences options (some anchor) window = .error cause := by
      cases rule.occurrences options (some anchor) window <;> simp
    rw [hok]
    simp only [herror, exists_firstFails_iff]
    simp [Check.mem_inOrder]
  · intro options' anchor' window' cause
    rw [herror, herror]
  · rw [Ne, herror]
    rintro ⟨_, check, _, _, hfails, _⟩
    exact not_fails_dateOverflow check hfails

/-- Of tokens, a position and a day of the month that are all at fault, the first token decides. -/
example :
    occurrences {}
        { every .weekly with byDay := ["MO", "8 TU", "XX"], byMonthDay := [1], bySetPos := [1] }
        (some (.ofParts 2024 1 1)) ⟨.ofParts 2024 1 1, .ofParts 2024 1 31⟩
      = .error (.invalidByDay "8 TU") := rfl

/-! ## §5 Valid numbers -/

/-- A text is valid exactly if it stands for a valid rule. -/
theorem isValidText_iff {text : String} :
    isValidText text = true ↔ ∃ rule, read text = .ok rule ∧ rule.IsValid := by
  unfold isValidText
  cases read text <;> simp

/-- The number of dates of a valid rule is positive, if it has one. -/
theorem IsValid.not_fails_count (hvalid : rule.IsValid) (other : ExpansionError) :
    ¬ rule.Fails .count other := by
  rintro ⟨n, hcount, hle, _⟩
  have hpos := hvalid.2.1
  simp only [hcount, Option.all_some, decide_eq_true_eq] at hpos
  exact Int.not_lt.mpr hle hpos

/-- The interval of a valid rule is positive, so that it can only be too long. -/
theorem IsValid.fails_interval_iff (hvalid : rule.IsValid) :
    rule.Fails .interval cause ↔
      4294967295 < rule.interval.toInt ∧ cause = .invalidInterval rule.interval := by
  have hpos : 0 < rule.interval.toInt := hvalid.1
  apply and_congr_left'
  omega

/-- A rule whose interval or number of dates is not positive fails a check. -/
theorem exists_fails_of_nonpos (hnonpos : rule.interval.toInt ≤ 0 ∨
    ∃ count, rule.count = some count ∧ count.toInt ≤ 0) :
    ∃ check cause, rule.Fails check cause := by
  rcases hnonpos with hinterval | ⟨count, hcount, hle⟩
  · have hrange : ¬ (1 ≤ rule.interval.toInt ∧ rule.interval.toInt ≤ 4294967295) := by omega
    exact ⟨.interval, _, hrange, rfl⟩
  · exact ⟨.count, _, count, hcount, hle, rfl⟩

/-- No number of dates is the first fault of a valid rule. -/
theorem IsValid.not_firstFails_invalidCount (hvalid : rule.IsValid) {n : Int64} :
    ¬ FirstFails rule.Fails Check.inOrder (.invalidCount n) := by
  intro hfirst
  obtain ⟨check, _, hfails⟩ := hfirst.exists_mem
  -- The cause says that it is the check of the number of dates that is failed.
  cases hfails.check?_eq
  exact hvalid.not_fails_count _ hfails

/-- An interval is the first fault of a valid rule exactly if it is too long. -/
theorem IsValid.firstFails_invalidInterval_iff (hvalid : rule.IsValid) {n : Int64} :
    FirstFails rule.Fails Check.inOrder (.invalidInterval n) ↔
      4294967295 < rule.interval.toInt ∧ n = rule.interval := by
  have hinterval : rule.Fails .interval (.invalidInterval n) ↔
      4294967295 < rule.interval.toInt ∧ n = rule.interval := by
    rw [hvalid.fails_interval_iff, ExpansionError.invalidInterval.injEq]
  rw [← hinterval]
  constructor
  · intro hfirst
    obtain ⟨check, _, hfails⟩ := hfirst.exists_mem
    -- The cause says that it is the check of the interval that is failed.
    cases hfails.check?_eq
    exact hfails
  · intro hfails
    -- Nothing is checked before the interval but the number of dates.
    rw [Check.inOrder, firstFails_cons_iff, firstFails_cons_iff]
    exact Or.inr ⟨hvalid.not_fails_count, Or.inl hfails⟩

/-- **Valid numbers and numbers that are refused.** A text is valid exactly if it stands for a valid
rule. A valid rule is never refused an answer for its number of dates, but for its interval it is,
if it has an anchor and 32 bits do not hold the interval. A rule whose interval or number of dates
is not positive has no answer from any anchor. -/
theorem occurrences_validNumbers (options : Options) (window : Window) :
    (∀ text, isValidText text = true ↔ ∃ rule, read text = .ok rule ∧ rule.IsValid) ∧
    (∀ rule : Rule, rule.IsValid → ∀ anchor n,
      rule.occurrences options anchor window ≠ .error (.invalidCount n) ∧
      (rule.occurrences options anchor window = .error (.invalidInterval n) ↔
        anchor.isSome = true ∧ 4294967295 < rule.interval.toInt ∧ n = rule.interval)) ∧
    ∀ rule : Rule, (rule.interval.toInt ≤ 0 ∨ ∃ count, rule.count = some count ∧ count.toInt ≤ 0) →
      ∀ anchor dates, rule.occurrences options (some anchor) window ≠ .ok dates := by
  refine ⟨fun text => isValidText_iff, ?_, ?_⟩
  · intro rule hvalid anchor n
    cases anchor with
    | none => simp [occurrences]
    | some anchor =>
      constructor
      · -- With an anchor an answer is refused for the first check that is failed.
        rw [Ne, occurrences_eq_error_iff_of_series, ofRule_eq_error_iff]
        exact hvalid.not_firstFails_invalidCount
      · rw [occurrences_eq_error_iff_of_series, ofRule_eq_error_iff,
          hvalid.firstFails_invalidInterval_iff]
        simp
  · intro rule hnonpos anchor dates hanswer
    obtain ⟨check, cause, hfails⟩ := exists_fails_of_nonpos hnonpos
    -- Some check is failed, so one is the first, and its cause is the answer.
    obtain ⟨first, hfirst⟩ :=
      exists_firstFails_iff.mpr ⟨check, check.mem_inOrder, cause, hfails⟩
    have hrefused : rule.occurrences options (some anchor) window = .error first := by
      rw [occurrences_eq_error_iff_of_series, ofRule_eq_error_iff]
      exact hfirst
    rw [hanswer] at hrefused
    cases hrefused

/-- The rule that repeats every so many days. -/
def everyDays (interval : Int64) : Rule :=
  { every .daily with interval }

/-- The longest interval that is not refused, the next one, and one that is not valid. -/
theorem occurrences_validNumbers_longestInterval :
    (everyDays 4294967295).IsValid ∧
      (∀ n, (everyDays 4294967295).occurrences {} (some (.ofParts 2024 1 1))
        ⟨.ofParts 2024 1 1, .ofParts 2024 12 31⟩ ≠ .error (.invalidInterval n)) ∧
      (everyDays 4294967296).IsValid ∧
      (everyDays 4294967296).occurrences {} (some (.ofParts 2024 1 1))
        ⟨.ofParts 2024 1 1, .ofParts 2024 12 31⟩ = .error (.invalidInterval 4294967296) ∧
      (everyDays 0).interval.toInt ≤ 0 ∧
      ∀ dates, (everyDays 0).occurrences {} (some (.ofParts 2024 1 1))
        ⟨.ofParts 2024 1 1, .ofParts 2024 12 31⟩ ≠ .ok dates := by
  obtain ⟨_, hvalid, hnonpos⟩ :=
    occurrences_validNumbers {} ⟨.ofParts 2024 1 1, .ofParts 2024 12 31⟩
  have hlongest : (everyDays 4294967295).IsValid := by decide
  have hlonger : (everyDays 4294967296).IsValid := by decide
  have hzero : (everyDays 0).interval.toInt ≤ 0 := by decide
  refine ⟨hlongest, fun n hrefused => ?_, hlonger, ?_, hzero, ?_⟩
  · have hlong := ((hvalid _ hlongest _ n).2.mp hrefused).2.1
    exact absurd hlong (by decide)
  · exact (hvalid _ hlonger _ _).2.mpr ⟨rfl, by decide, rfl⟩
  · exact hnonpos _ (Or.inl hzero) _

/-- Not every valid rule has an interval that is accepted. -/
theorem not_forall_isValid_ne_invalidInterval :
    ¬ ∀ (options : Options) (rule : Rule) (anchor : Option Date) (window : Window) (n : Int64),
      rule.IsValid → rule.occurrences options anchor window ≠ .error (.invalidInterval n) := by
  intro hall
  exact hall {} (everyDays 4294967296) (some (.ofParts 2024 1 1))
    ⟨.ofParts 2024 1 1, .ofParts 2024 12 31⟩ 4294967296 (by decide) rfl

/-- The wording of the refusal does not fit a positive interval. -/
example : (ExpansionError.invalidInterval 4294967296).message
    = "interval must be positive, got 4294967296" := by decide

end Rule

end RecurringDates
