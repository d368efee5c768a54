import Mathlib.Tactic.SplitIfs
import RecurringDates.Proofs.Endless
import RecurringDates.Proofs.SentenceWords
import RecurringDates.Proofs.Sentences

/-!
# The parts of a monthly sentence

From the English sentence of a valid monthly rule can be read off how often it repeats, what it says
of its days and when it ends. The ending is cut off from the back, where it stops with a word that
no other part stops with, and how often from the front, where its number ends at a blank.

The main statement is `Rule.monthlySentence_inj`, assembled from `Rule.append_ending_inj`,
`Rule.SaysDays.stopsPlainly` and `Rule.frequencyWords_append_inj`.
-/

namespace RecurringDates

open RecurringDates.Text

/-! ## §1 Endings -/

namespace Date

variable {date other : Date}

theorem write_inj (hsame : date.write = other.write) : date = other := by
  have hread := congrArg read? hsame
  rw [read?_write, read?_write] at hread
  exact Option.some.inj hread

/-- The text of a date has digits and signs. -/
theorem isNumeral_or_of_mem_write {c : Char} (hmem : c ∈ date.write.toList) :
    IsNumeral c ∨ c = '+' := by
  have hpadded : ∀ width n, c ∈ writePadded width n → IsNumeral c := fun width n hc =>
    Or.inl (List.all_eq_true.mp (all_isDigit_writePadded width n) c hc)
  have hyear : c ∈ writeYear date.year → IsNumeral c ∨ c = '+' := by
    intro hc
    unfold writeYear at hc
    split_ifs at hc
    · -- A year before 0, behind a minus sign.
      rcases List.mem_cons.mp hc with rfl | hc
      · exact Or.inl (Or.inr rfl)
      · exact Or.inl (hpadded _ _ hc)
    · -- A year of four digits, without a sign.
      exact Or.inl (hpadded _ _ hc)
    · -- A year after 9999, behind a plus sign.
      rcases List.mem_cons.mp hc with rfl | hc
      · exact Or.inr rfl
      · exact Or.inl (hpadded _ _ hc)
  rw [write, String.toList_ofList, writeWith] at hmem
  simp only [List.mem_append, List.mem_singleton] at hmem
  -- The year, the month and the day, with a dash between each two of them.
  rcases hmem with (((hc | rfl) | hc) | rfl) | hc
  · exact hyear hc
  · exact Or.inl (Or.inr rfl)
  · exact Or.inl (hpadded _ _ hc)
  · exact Or.inl (Or.inr rfl)
  · exact Or.inl (hpadded _ _ hc)

theorem not_mem_write {c : Char} (hdigit : c.isDigit = false) (hminus : c ≠ '-') (hplus : c ≠ '+') :
    c ∉ date.write.toList := by
  intro hmem
  rcases isNumeral_or_of_mem_write hmem with hnumeral | hsign
  · exact hnumeral.ne_of_not hdigit hminus rfl
  · exact hplus hsign

end Date

namespace Rule

/-- When a rule ends, as a text that stands behind the other words. -/
inductive IsEnding : Option Int64 → Option Date → List Char → Prop
  /-- A rule without an end has no such text. -/
  | never : IsEnding none none []
  /-- The number of dates stands before a word in the singular or the plural. -/
  | times (count : Int64) {unit : List Char}
      (hunit : unit = "occurrence".toList ∨ unit = "occurrences".toList) :
      IsEnding (some count) none (", for".toList ++ ' ' :: writeInteger count.toInt ++ ' ' :: unit)
  /-- The last day stands behind a word of its own. -/
  | byDate (untilDate : Date) :
      IsEnding none (some untilDate) (", until".toList ++ ' ' :: untilDate.write.toList)

/-- A valid rule ends by number or by date, but not by both. -/
theorem isEnding_endClause {rule : Rule} (hvalid : rule.IsValid) :
    IsEnding rule.count rule.untilDate (rule.endClause .english).toList := by
  unfold endClause
  cases hcount : rule.count with
  | none =>
    cases huntil : rule.untilDate with
    | none => exact .never
    | some untilDate =>
      simp only [String.toList_append, List.append_assoc]
      exact .byDate untilDate
  | some count =>
    -- A valid rule with a number of dates has no last date.
    have huntil : rule.untilDate = none := by simpa [hcount] using hvalid.2.2
    have htimes := fun unit => @IsEnding.times count unit
    rw [huntil]
    simp only [String.toList_append, Localizer.toList_number, List.append_assoc, List.cons_append]
      at htimes ⊢
    by_cases hone : count = 1
    · rw [if_pos hone]
      exact htimes _ (.inl rfl)
    · rw [if_neg hone]
      exact htimes _ (.inr rfl)

/-- How the words before an ending may stop: without a comma anywhere, with the letter y, or with
the number of a day. -/
inductive StopsPlainly : List Char → Prop
  | noComma {text : List Char} (hcomma : ',' ∉ text) : StopsPlainly text
  | letter (front : List Char) : StopsPlainly (front ++ ['y'])
  | number (front : List Char) (n : Int) :
      StopsPlainly (front ++ "day".toList ++ ' ' :: writeInteger n)

variable {front front' ending ending' : List Char} {count count' : Option Int64}
  {untilDate untilDate' : Option Date}

/-- The unit of a number of dates is one word, and no number or date. -/
theorem unit_text {unit : List Char}
    (hunit : unit = "occurrence".toList ∨ unit = "occurrences".toList) :
    ' ' ∉ unit ∧ 'y' ∉ unit ∧ 'o' ∈ unit := by
  rcases hunit with rfl | rfl <;> decide

/-- The last character of a text is one of the last part. -/
theorem mem_of_concat_eq_append {c : Char} {back : List Char} (hsome : back ≠ [])
    (hsame : front ++ [c] = front' ++ back) : c ∈ back := by
  have hlast := congrArg List.getLast? hsame
  rw [List.getLast?_append, List.getLast?_append, List.getLast?_eq_some_getLast hsome] at hlast
  have hc : c = back.getLast hsome := Option.some.inj hlast
  rw [hc]
  exact List.getLast_mem hsome

/-- The last word of an ending has no y. -/
theorem IsEnding.exists_lastWord (hending : IsEnding count untilDate ending) (hsome : ending ≠ []) :
    ∃ before word, ending = before ++ ' ' :: word ∧ 'y' ∉ word := by
  cases hending with
  | never => exact absurd rfl hsome
  | times count hunit => exact ⟨_, _, rfl, (unit_text hunit).2.1⟩
  | byDate untilDate =>
    exact ⟨_, _, rfl, Date.not_mem_write (by decide) (by decide) (by decide)⟩

/-- **What stops plainly has no ending.** -/
theorem StopsPlainly.ne_append (hstops : StopsPlainly front)
    (hending : IsEnding count untilDate ending) (hsome : ending ≠ []) :
    front ≠ front' ++ ending := by
  intro hsame
  cases hstops with
  | noComma hcomma =>
    -- Every ending begins with a comma.
    rw [hsame] at hcomma
    cases hending with
    | never => exact hsome rfl
    | times | byDate => simp at hcomma
  | letter front =>
    -- The last letter would be one of the last word of the ending, which has no y.
    obtain ⟨before, word, rfl, hword⟩ := hending.exists_lastWord hsome
    rw [← List.append_assoc] at hsame
    rcases List.mem_cons.mp (mem_of_concat_eq_append (List.cons_ne_nil _ _) hsame) with
      hspace | hlast
    · exact absurd hspace (by decide)
    · exact hword hlast
  | number front n =>
    have hnumber : ' ' ∉ writeInteger n := not_mem_writeInteger (by decide) (by decide) n
    cases hending with
    | never => exact hsome rfl
    | times count hunit =>
      -- The last word would be a number and a unit at once.
      rw [← List.append_assoc, append_separator_inj hnumber (unit_text hunit).1] at hsame
      have hletter := (unit_text hunit).2.2
      rw [← hsame.2] at hletter
      exact not_mem_writeInteger (by decide) (by decide) n hletter
    | byDate untilDate =>
      -- The words before the last one end differently.
      rw [← List.append_assoc, append_separator_inj hnumber
        (Date.not_mem_write (by decide) (by decide) (by decide))] at hsame
      have hword : front ++ "da".toList ++ ['y'] = front' ++ ", until".toList :=
        (List.append_assoc _ _ _).trans hsame.1
      exact absurd (mem_of_concat_eq_append (by decide) hword) (by decide)

/-- The last word of a text is not both a unit and a date. -/
theorem append_unit_ne_append_write {unit : List Char}
    (hunit : unit = "occurrence".toList ∨ unit = "occurrences".toList) (date : Date) :
    front ++ ' ' :: unit ≠ front' ++ ' ' :: date.write.toList := by
  obtain ⟨hspace, _, hletter⟩ := unit_text hunit
  rw [Ne, append_separator_inj hspace (Date.not_mem_write (by decide) (by decide) (by decide))]
  rintro ⟨_, rfl⟩
  exact Date.not_mem_write (by decide) (by decide) (by decide) hletter

/-- **An ending is told by the text** that it stands behind. -/
theorem append_ending_inj (hfront : StopsPlainly front) (hfront' : StopsPlainly front')
    (hending : IsEnding count untilDate ending) (hending' : IsEnding count' untilDate' ending')
    (hsame : front ++ ending = front' ++ ending') :
    front = front' ∧ count = count' ∧ untilDate = untilDate' := by
  have hnumber : ∀ n, ' ' ∉ writeInteger n := not_mem_writeInteger (by decide) (by decide)
  have hdate : ∀ date : Date, ' ' ∉ date.write.toList := fun date =>
    Date.not_mem_write (by decide) (by decide) (by decide)
  -- Endings of one kind are told by their last words, and no two kinds go together.
  cases hending with
  | never =>
    cases hending' with
    | never => exact ⟨by simpa using hsame, rfl, rfl⟩
    | times count' hunit' =>
      rw [List.append_nil] at hsame
      exact absurd hsame (hfront.ne_append (.times count' hunit') (by simp))
    | byDate untilDate' =>
      rw [List.append_nil] at hsame
      exact absurd hsame (hfront.ne_append (.byDate untilDate') (by simp))
  | times count hunit =>
    cases hending' with
    | never =>
      rw [List.append_nil] at hsame
      exact absurd hsame.symm (hfront'.ne_append (.times count hunit) (by simp))
    | times count' hunit' =>
      -- The unit is the last word and the number the one before it.
      simp only [← List.append_assoc] at hsame
      rw [append_separator_inj (unit_text hunit).1 (unit_text hunit').1,
        append_separator_inj (hnumber _) (hnumber _), List.append_cancel_right_eq] at hsame
      obtain ⟨⟨hwords, hcount⟩, _⟩ := hsame
      rw [Int64.toInt_inj.mp (writeInteger_inj hcount)]
      exact ⟨hwords, rfl, rfl⟩
    | byDate untilDate' =>
      simp only [← List.append_assoc] at hsame
      exact absurd hsame (append_unit_ne_append_write hunit untilDate')
  | byDate untilDate =>
    cases hending' with
    | never =>
      rw [List.append_nil] at hsame
      exact absurd hsame.symm (hfront'.ne_append (.byDate untilDate) (by simp))
    | times count' hunit' =>
      simp only [← List.append_assoc] at hsame
      exact absurd hsame.symm (append_unit_ne_append_write hunit' untilDate)
    | byDate untilDate' =>
      simp only [← List.append_assoc] at hsame
      rw [append_separator_inj (hdate _) (hdate _), List.append_cancel_right_eq,
        String.toList_inj] at hsame
      obtain ⟨hwords, huntil⟩ := hsame
      rw [Date.write_inj huntil]
      exact ⟨hwords, rfl, rfl⟩

/-! ## §2 Sentences -/

variable {rule other : Rule} {days days' : List OrdinalWeekday} {clause clause' : Option String}

/-- How often a monthly rule repeats. -/
theorem frequencyWords_cases (hmonthly : rule.frequency = .monthly) :
    rule.interval = 1 ∧ (rule.frequencyWords .english).toList = "Monthly".toList ∨
      (rule.frequencyWords .english).toList
        = "Every ".toList ++ writeInteger rule.interval.toInt ++ ' ' :: "months".toList := by
  unfold frequencyWords
  rw [hmonthly]
  by_cases hone : rule.interval = 1
  · rw [if_pos hone]
    exact Or.inl ⟨hone, rfl⟩
  · rw [if_neg hone]
    refine Or.inr ?_
    simp only [String.toList_append, Localizer.toList_number, List.append_assoc]
    rfl

theorem comma_not_mem_frequencyWords (hmonthly : rule.frequency = .monthly) :
    ',' ∉ (rule.frequencyWords .english).toList := by
  have hnumber : ',' ∉ writeInteger rule.interval.toInt :=
    not_mem_writeInteger (by decide) (by decide) _
  rcases frequencyWords_cases hmonthly with ⟨_, hwords⟩ | hwords
  · rw [hwords]
    decide
  · rw [hwords]
    simp [hnumber]

/-- **The interval is told by the text** that begins with it. -/
theorem frequencyWords_append_inj {back back' : List Char} (hmonthly : rule.frequency = .monthly)
    (hmonthly' : other.frequency = .monthly)
    (hsame : (rule.frequencyWords .english).toList ++ back
      = (other.frequencyWords .english).toList ++ back') :
    rule.interval = other.interval ∧ back = back' := by
  have hnumber : ∀ n, ' ' ∉ writeInteger n := not_mem_writeInteger (by decide) (by decide)
  rcases frequencyWords_cases hmonthly with ⟨hone, hwords⟩ | hwords
  · rcases frequencyWords_cases hmonthly' with ⟨hone', hwords'⟩ | hwords'
    · -- Both repeat every month.
      rw [hwords, hwords', List.append_cancel_left_eq] at hsame
      exact ⟨hone.trans hone'.symm, hsame⟩
    · rw [hwords, hwords'] at hsame
      simp at hsame
  · rcases frequencyWords_cases hmonthly' with ⟨hone', hwords'⟩ | hwords'
    · rw [hwords, hwords'] at hsame
      simp at hsame
    · -- The number ends at the first blank behind it.
      rw [hwords, hwords'] at hsame
      simp only [List.append_assoc, List.cons_append] at hsame
      rw [List.append_cancel_left_eq, separator_append_inj (hnumber _) (hnumber _),
        List.append_cancel_left_eq] at hsame
      exact ⟨Int64.toInt_inj.mp (writeInteger_inj hsame.1), hsame.2⟩

/-- What the sentence of a monthly rule says of its days, by the way in which it picks them. -/
inductive SaysDays (rule : Rule) (days : List OrdinalWeekday) : Option String → Prop
  /-- Days of the month come first. -/
  | numbers (hnumbers : rule.byMonthDay ≠ []) :
      SaysDays rule days
        (some (Localizer.english.list (rule.byMonthDay.map (monthDayWords .english))))
  /-- Without them and without weekdays nothing is said of the anchor's day. -/
  | anchor (hnumbers : rule.byMonthDay = []) (hdays : days = []) : SaysDays rule days none
  /-- Positions stand before the weekdays that they count. -/
  | positions (hnumbers : rule.byMonthDay = []) (hdays : days ≠ [])
      (hpositions : rule.bySetPos ≠ []) :
      SaysDays rule days (some (positionsWords rule.bySetPos days))
  /-- Without positions every weekday has its own. -/
  | weekdays (hnumbers : rule.byMonthDay = []) (hdays : days ≠ [])
      (hpositions : rule.bySetPos = []) :
      SaysDays rule days (some (Localizer.english.list (days.map (ordinalWeekdayWords .english))))

theorem exists_saysDays (hdays : rule.weekdays = .ok days) :
    ∃ clause, rule.monthlyClause .english = .ok clause ∧ rule.SaysDays days clause := by
  unfold monthlyClause
  by_cases hnumbers : rule.byMonthDay = []
  · -- Without days of the month the weekdays and positions decide.
    rw [if_neg (not_not_intro hnumbers)]
    by_cases hnone : days = []
    · rw [if_pos ((weekdays_eq_nil_iff hdays).mp hnone)]
      exact ⟨none, rfl, .anchor hnumbers hnone⟩
    · rw [if_neg (mt (weekdays_eq_nil_iff hdays).mpr hnone), hdays]
      by_cases hpositions : rule.bySetPos = []
      · exact ⟨_, if_neg (not_not_intro hpositions), .weekdays hnumbers hnone hpositions⟩
      · exact ⟨_, if_pos hpositions, .positions hnumbers hnone hpositions⟩
  · rw [if_pos hnumbers]
    exact ⟨_, rfl, .numbers hnumbers⟩

/-- The words for the days with the word that stands before them. -/
def clauseText : Option String → List Char
  | none => []
  | some clause => " on ".toList ++ clause.toList

theorem clauseText_inj (hsame : clauseText clause = clauseText clause') : clause = clause' := by
  cases clause with
  | none =>
    cases clause' with
    | none => rfl
    | some words' => simp [clauseText] at hsame
  | some words =>
    cases clause' with
    | none => simp [clauseText] at hsame
    | some words' =>
      rw [clauseText, clauseText, List.append_cancel_left_eq, String.toList_inj] at hsame
      rw [hsame]

/-- A list stops as one of its members does. -/
theorem exists_list_eq_append {members : List String} (hne : members ≠ []) :
    ∃ front, ∃ m ∈ members, (Localizer.english.list members).toList = front ++ m.toList := by
  obtain ⟨front, piece, hpiece, hends⟩ : ∃ front, ∃ piece ∈ members.map String.toList,
      [',', ' '].intercalate (members.map String.toList) = front ++ piece :=
    exists_intercalate_eq_append (by simpa using hne)
  obtain ⟨m, hm, rfl⟩ := List.mem_map.mp hpiece
  exact ⟨front, m, hm, (Localizer.toList_list members).trans hends⟩

theorem ordinalWeekdayList_stops (hne : days ≠ []) (front : List Char) :
    StopsPlainly (front
      ++ (Localizer.english.list (days.map (ordinalWeekdayWords .english))).toList) := by
  have hmembers : days.map (ordinalWeekdayWords .english) ≠ [] := by simpa using hne
  obtain ⟨before, m, hm, hends⟩ := exists_list_eq_append hmembers
  obtain ⟨day, _, rfl⟩ := List.mem_map.mp hm
  obtain ⟨name, hname⟩ := (weekdayName_text day.weekday).2.1
  rw [hends, toList_ordinalWeekdayWords, hname]
  simp only [← List.append_assoc]
  exact .letter _

/-- **The words before an ending stop plainly**, whatever they say of the days. -/
theorem SaysDays.stopsPlainly (hmonthly : rule.frequency = .monthly)
    (hwording : rule.SaysDays days clause) :
    StopsPlainly ((rule.frequencyWords .english).toList ++ clauseText clause) := by
  cases hwording with
  | numbers hnumbers =>
    -- A list of days of the month ends with the last day or with a number.
    have hmembers : rule.byMonthDay.map (monthDayWords .english) ≠ [] := by simpa using hnumbers
    obtain ⟨before, m, hm, hends⟩ := exists_list_eq_append hmembers
    obtain ⟨n, _, rfl⟩ := List.mem_map.mp hm
    rw [clauseText, hends]
    rcases monthDayWords_cases n with ⟨_, hlast⟩ | hnumber
    · rw [hlast]
      simp only [← List.append_assoc]
      exact .letter _
    · rw [hnumber]
      simp only [← List.append_assoc]
      exact .number _ _
  | anchor =>
    -- Nothing is said of the days.
    rw [clauseText, List.append_nil]
    exact .noComma (comma_not_mem_frequencyWords hmonthly)
  | positions hnumbers hdays =>
    -- Both lists of weekdays end with the name of one.
    rw [clauseText, toList_positionsWords, weekdayList_eq]
    simp only [← List.append_assoc]
    exact ordinalWeekdayList_stops (by simpa using hdays) _
  | weekdays hnumbers hdays =>
    rw [clauseText]
    simp only [← List.append_assoc]
    exact ordinalWeekdayList_stops hdays _

/-- The parts of a monthly sentence: how often, on which days, and when it ends. -/
theorem toList_describe_of_saysDays (hmonthly : rule.frequency = .monthly)
    (hclause : rule.monthlyClause .english = .ok clause) :
    (rule.describe .english).toList
      = (rule.frequencyWords .english).toList ++ clauseText clause
        ++ (rule.endClause .english).toList := by
  have hdays : rule.daysClause .english = .ok clause := by
    rw [daysClause, hmonthly]
    exact hclause
  unfold describe sentence
  rw [hdays]
  cases clause with
  | none => simp [clauseText]
  | some words => simp [clauseText, Localizer.phrase, Localizer.english, Phrase.on]

/-- **The parts of a sentence are told by it**: two valid monthly rules with the same sentence have
the same interval, say the same of their days and end alike. -/
theorem monthlySentence_inj (hmonthly : rule.frequency = .monthly)
    (hmonthly' : other.frequency = .monthly) (hvalid : rule.IsValid) (hvalid' : other.IsValid)
    (hclause : rule.monthlyClause .english = .ok clause)
    (hclause' : other.monthlyClause .english = .ok clause')
    (hwording : rule.SaysDays days clause) (hwording' : other.SaysDays days' clause')
    (hsame : rule.describe .english = other.describe .english) :
    rule.interval = other.interval ∧ clause = clause' ∧ rule.count = other.count ∧
      rule.untilDate = other.untilDate := by
  -- The ending is taken off the back first, and then the interval off the front.
  have hlists := congrArg String.toList hsame
  rw [toList_describe_of_saysDays hmonthly hclause,
    toList_describe_of_saysDays hmonthly' hclause'] at hlists
  obtain ⟨hfront, hcount, huntil⟩ := append_ending_inj (hwording.stopsPlainly hmonthly)
    (hwording'.stopsPlainly hmonthly') (isEnding_endClause hvalid) (isEnding_endClause hvalid')
    hlists
  obtain ⟨hinterval, hwords⟩ := frequencyWords_append_inj hmonthly hmonthly' hfront
  exact ⟨hinterval, clauseText_inj hwords, hcount, huntil⟩

end Rule

end RecurringDates
