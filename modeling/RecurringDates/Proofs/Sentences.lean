import RecurringDates.Description.Sentence
import RecurringDates.Proofs.Faults

/-!
# Rules without a sentence

A rule is put in words even if it has no dates, as long as the words can be found. They cannot where
a token would have to be named and stands for no weekday. The text given instead is never a
sentence, whatever numbers, dates and days stand in it, since no sentence begins with its letter.

The main statement is `Rule.describe_eq_invalidPattern_iff`, assembled from
`Rule.sentence_eq_error_iff` (which rules have no sentence, and why, in any language) and
`Rule.sentence_ne_invalidPattern` (English sentences are told from the text given instead).
-/

namespace RecurringDates.Rule

variable {localizer : Localizer} {rule : Rule} {text : String} {cause : ExpansionError}

/-! ## §1 Rules that cannot be put in words -/

/-- A sentence names weekdays for weekly rules, and for monthly rules that name no days of the month
instead. -/
def PutsTokensInWords (rule : Rule) : Prop :=
  rule.frequency = .weekly ∨ rule.frequency = .monthly ∧ rule.byMonthDay = []

theorem not_fails_tokens_of_nil (hnone : rule.byDay = []) : ¬ rule.Fails .tokens cause := by
  simp [Fails, hnone]

theorem monthlyClause_eq_error_iff :
    rule.monthlyClause localizer = .error cause ↔
      rule.byMonthDay = [] ∧ rule.Fails .tokens cause := by
  unfold monthlyClause
  by_cases hnumbers : rule.byMonthDay = []
  · by_cases hnone : rule.byDay = []
    · simp [hnumbers, hnone, not_fails_tokens_of_nil]
    · rw [if_neg (not_not_intro hnumbers), if_neg hnone, and_iff_right hnumbers,
        ← weekdays_eq_error_iff]
      cases rule.weekdays with
      | error fault => simp
      | ok days => by_cases hpositions : rule.bySetPos = [] <;> simp [hpositions]
  · -- With days of the month the tokens are not looked at.
    simp [hnumbers]

/-- The days of a rule cannot be put in words if a token stands for no weekday and the tokens are
what is put in words. -/
theorem daysClause_eq_error_iff :
    rule.daysClause localizer = .error cause ↔
      rule.PutsTokensInWords ∧ rule.Fails .tokens cause := by
  unfold daysClause PutsTokensInWords
  -- Only weekly and monthly rules have their days put in words.
  cases hfrequency : rule.frequency with
  | secondly | minutely | hourly | daily | yearly => simp
  | weekly =>
    rw [or_iff_left (by simp), and_iff_right rfl]
    by_cases hnone : rule.byDay = []
    · simp [hnone, not_fails_tokens_of_nil]
    · rw [if_neg hnone, ← weekdays_eq_error_iff]
      cases rule.weekdays <;> simp
  | monthly =>
    rw [or_iff_right (by simp), and_iff_right rfl]
    exact monthlyClause_eq_error_iff

/-- **A rule has no sentence exactly if a token that it would have to name stands for no weekday.**
The first such token is the cause, in every language. -/
theorem sentence_eq_error_iff :
    rule.sentence localizer = .error cause ↔
      rule.PutsTokensInWords ∧ rule.Fails .tokens cause := by
  have hclause : rule.sentence localizer = .error cause ↔
      rule.daysClause localizer = .error cause := by
    unfold sentence
    cases rule.daysClause localizer with
    | error fault => simp
    | ok days => cases days <;> simp
  exact hclause.trans daysClause_eq_error_iff

theorem exists_sentence_of_not_fails (hreadable : ∀ cause, ¬ rule.Fails .tokens cause) :
    ∃ text, rule.sentence localizer = .ok text := by
  cases hsentence : rule.sentence localizer with
  | ok text => exact ⟨text, rfl⟩
  | error cause => exact absurd (sentence_eq_error_iff.mp hsentence).2 (hreadable cause)

/-- A token is at fault exactly if one of them stands for no weekday. -/
theorem exists_fails_tokens_iff :
    (∃ cause, rule.Fails .tokens cause) ↔
      ∃ token ∈ rule.byDay, ¬ ∃ day, OrdinalWeekday.read token = .ok day := by
  simp only [Fails, exists_firstFails_iff, OrdinalWeekday.Fails, exists_and_left, exists_eq,
    and_true]

/-! ## §2 What is given in place of a sentence -/

theorem describe_of_sentence (hsentence : rule.sentence localizer = .ok text) :
    rule.describe localizer = text := by
  rw [describe, hsentence]

/-- A sentence begins with how often the rule repeats. -/
theorem exists_sentence_eq_append (hsentence : rule.sentence localizer = .ok text) :
    ∃ rest, text = rule.frequencyWords localizer ++ rest := by
  unfold sentence at hsentence
  split at hsentence
  · cases hsentence
  · cases hsentence
    exact ⟨_, rfl⟩
  · cases hsentence
    simp only [String.append_assoc]
    exact ⟨_, rfl⟩

/-- How often an English rule repeats is said in words that begin with another letter than that of
the text given instead. -/
theorem frequencyWords_english_eq_cons (rule : Rule) :
    ∃ c rest, (rule.frequencyWords .english).toList = c :: rest ∧ c ≠ 'I' := by
  unfold frequencyWords
  split
  · -- Every unit has a word of its own.
    cases rule.frequency <;> exact ⟨_, _, rfl, by decide⟩
  · -- Any other interval is told behind the word for each.
    simp only [String.append_assoc, String.toList_append]
    exact ⟨'E', ['v', 'e', 'r', 'y'] ++ _, rfl, by decide⟩

/-- **No English sentence is the text given in place of one.** -/
theorem sentence_ne_invalidPattern (hsentence : rule.sentence .english = .ok text) :
    text ≠ "Invalid pattern" := by
  obtain ⟨rest, rfl⟩ := exists_sentence_eq_append hsentence
  obtain ⟨c, later, hwords, hother⟩ := rule.frequencyWords_english_eq_cons
  intro hsame
  have hlists := congrArg String.toList hsame
  rw [String.toList_append, hwords, List.cons_append] at hlists
  exact hother (List.cons.inj hlists).1

/-- Only a rule without a sentence has the description of one. -/
theorem describe_english_eq_invalidPattern_iff :
    rule.describe .english = "Invalid pattern" ↔
      ∃ cause, rule.sentence .english = .error cause := by
  unfold describe
  cases hsentence : rule.sentence .english with
  | ok text => simp [sentence_ne_invalidPattern hsentence]
  | error cause => simp [Localizer.phrase, Localizer.english, Phrase.invalidPattern]

/-- **Descriptions and dates agree on what is broken.** The English description says that a rule is
broken exactly if one of its tokens stands for no weekday and the rule is weekly, or monthly without
days of the month. No sentence says that, and every rule with dates has a sentence. -/
theorem describe_eq_invalidPattern_iff :
    (∀ rule : Rule, rule.describe .english = "Invalid pattern" ↔
      (∃ token ∈ rule.byDay, ¬ ∃ day, OrdinalWeekday.read token = .ok day) ∧
        (rule.frequency = .weekly ∨ rule.frequency = .monthly ∧ rule.byMonthDay = [])) ∧
    (∀ (rule : Rule) (text : String), rule.sentence .english = .ok text →
      text ≠ "Invalid pattern") ∧
    ∀ (rule : Rule) (options : Options) (anchor : Date) (window : Window) (dates : List Date),
      rule.occurrences options (some anchor) window = .ok dates →
        ∃ text, rule.sentence .english = .ok text ∧ rule.describe .english = text ∧
          text ≠ "Invalid pattern" := by
  refine ⟨fun rule => ?_, fun rule text => sentence_ne_invalidPattern, ?_⟩
  · -- There is no sentence exactly if the tokens are put in words and one is at fault.
    rw [describe_english_eq_invalidPattern_iff, ← exists_fails_tokens_iff]
    simp only [sentence_eq_error_iff, exists_and_left]
    exact and_comm
  · intro rule options anchor window dates hanswer
    -- A rule with dates passes every check, that of its tokens too.
    have hpasses := (rule.occurrences_eq_error_iff options anchor window).2.1.mp ⟨dates, hanswer⟩
    obtain ⟨text, hsentence⟩ : ∃ text, rule.sentence .english = .ok text :=
      exists_sentence_of_not_fails (hpasses .tokens)
    exact ⟨text, hsentence, describe_of_sentence hsentence, sentence_ne_invalidPattern hsentence⟩

/-- Weeks on a day that is none. -/
def unknownDay (frequency : Frequency) : Rule :=
  { every frequency with
    interval := 2
    byDay := ["MO", "MONDAY"] }

/-- An unknown day breaks a weekly rule. A monthly one that names a day of the month as well has a
sentence but no dates, and Mondays alone have both. -/
theorem describe_eq_invalidPattern_iff_unknownDay :
    (unknownDay .weekly).describe .english = "Invalid pattern" ∧
      { unknownDay .monthly with byMonthDay := [-1] }.sentence .english
          = .ok "Every 2 months on the last day" ∧
      "Every 2 months on the last day" ≠ "Invalid pattern" ∧
      { unknownDay .weekly with byDay := ["MO"] }.occurrences {} (some (.ofParts 2024 1 1))
          ⟨.ofParts 2024 1 1, .ofParts 2024 1 31⟩
        = .ok [.ofParts 2024 1 1, .ofParts 2024 1 15, .ofParts 2024 1 29] ∧
      ∃ text, { unknownDay .weekly with byDay := ["MO"] }.sentence .english = .ok text ∧
        { unknownDay .weekly with byDay := ["MO"] }.describe .english = text ∧
        text ≠ "Invalid pattern" := by
  obtain ⟨hbroken, hsentences, hdates⟩ := describe_eq_invalidPattern_iff
  have hunknown : ¬ ∃ day, OrdinalWeekday.read "MONDAY" = .ok day := by
    rintro ⟨day, hread⟩
    cases hread
  have hsentence : { unknownDay .monthly with byMonthDay := [-1] }.sentence .english
      = .ok "Every 2 months on the last day" := rfl
  have hanswer : { unknownDay .weekly with byDay := ["MO"] }.occurrences {}
      (some (.ofParts 2024 1 1)) ⟨.ofParts 2024 1 1, .ofParts 2024 1 31⟩
        = .ok [.ofParts 2024 1 1, .ofParts 2024 1 15, .ofParts 2024 1 29] := rfl
  exact ⟨(hbroken _).mpr ⟨⟨_, List.mem_cons_of_mem _ List.mem_cons_self, hunknown⟩, Or.inl rfl⟩,
    hsentence, hsentences _ _ hsentence, hanswer, hdates _ _ _ _ _ hanswer⟩

end RecurringDates.Rule
