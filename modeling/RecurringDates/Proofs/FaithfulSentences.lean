import RecurringDates.Proofs.MonthlyDates
import RecurringDates.Proofs.MonthlySentences
import RecurringDates.Proofs.SameSets

/-!
# Sentences that tell the dates

Two monthly rules with the same English sentence have the same dates, as long as they agree in what
a sentence passes over. It passes over positions among days of the month and on the anchor's day; of
weekdays behind positions it passes over their own; and one position before weekdays may belong to
all of them or to the first one.

The main statement is `Rule.occurrences_eq_of_describe_eq`, assembled from
`Rule.monthlySentence_inj` (what a sentence tells) and `Rule.SaysDays.cycle_eq` (what that makes of
the dates).
-/

namespace RecurringDates

/-! ## §1 Patterns that select the same days -/

namespace MonthlyPattern

variable {interval : Interval} {weekdays weekdays' : List OrdinalWeekday}
  {monthDays positions positions' months : List Int32}

/-- A monthly pattern repeats the days that it selects. -/
theorem cycle_eq_of_selectedDays
    (hdays : selectedDays ⟨interval, weekdays, monthDays, positions, months⟩
      = selectedDays ⟨interval, weekdays', monthDays, positions', months⟩) :
    cycle ⟨interval, weekdays, monthDays, positions, months⟩
      = cycle ⟨interval, weekdays', monthDays, positions', months⟩ := by
  have hdates : datesOfMonth ⟨interval, weekdays, monthDays, positions, months⟩
      = datesOfMonth ⟨interval, weekdays', monthDays, positions', months⟩ := by
    funext anchor index
    simp only [datesOfMonth, hdays]
  funext anchor horizon
  simp only [cycle, hdates]

/-- Where days of the month are named, weekdays do not count. -/
theorem cycle_eq_of_monthDays (hnumbers : monthDays ≠ [])
    (hpositions : SameMembers positions positions') :
    cycle ⟨interval, weekdays, monthDays, positions, months⟩
      = cycle ⟨interval, weekdays', monthDays, positions', months⟩ := by
  apply cycle_eq_of_selectedDays
  funext anchor month
  simp only [selectedDays, daysOfMonth, if_pos hnumbers, hpositions.eq_nil_iff,
    DateSet.select_congr (hpositions.map _)]

/-- The weekday at a position is the same whether the position is its own or that of the rule. -/
theorem cycle_position {position : Int32} {ordinal : Int8} (hsame : position.toInt = ordinal.toInt)
    (weekday : Weekday) :
    cycle ⟨interval, [.every weekday], [], [position], months⟩
      = cycle ⟨interval, [.nth ordinal weekday], [], [], months⟩ := by
  apply cycle_eq_of_selectedDays
  funext anchor month
  simp only [selectedDays, daysOfMonth, Month.ordinalWeekdayDates, OrdinalWeekday.every,
    OrdinalWeekday.nth, List.flatMap_cons, List.flatMap_nil, List.append_nil, DateSet.ofList_toList]
  simp [hsame]

end MonthlyPattern

namespace Rule

variable {rule other : Rule} {days days' : List OrdinalWeekday} {clause : Option String}

/-! ## §2 What a sentence passes over -/

/-- A monthly sentence names weekdays if there are some and no days of the month before them. -/
def SaysWeekdays (rule : Rule) : Prop :=
  rule.byMonthDay = [] ∧ rule.byDay ≠ []

/-- Two monthly rules agree in what their sentences pass over. -/
structure AgreeUnsaid (rule other : Rule) : Prop where
  /-- Positions are passed over where no weekdays are named. -/
  positions : ¬ rule.SaysWeekdays → SameMembers rule.bySetPos other.bySetPos
  /-- What is passed over of weekdays behind positions is whether only some of them are meant. -/
  weekdays : rule.SaysWeekdays → rule.bySetPos ≠ [] → other.bySetPos ≠ [] →
    ∀ day, rule.Names day ↔ other.Names day
  /-- Only a single weekday, every one of which is meant, reads the same with a position before it
  and with a position of its own. -/
  single : rule.SaysWeekdays → rule.bySetPos ≠ [] → other.bySetPos = [] →
    ∃ weekday, rule.weekdays = .ok [.every weekday]
  single' : other.SaysWeekdays → other.bySetPos ≠ [] → rule.bySetPos = [] →
    ∃ weekday, other.weekdays = .ok [.every weekday]

theorem saysWeekdays_iff (hdays : rule.weekdays = .ok days) :
    rule.SaysWeekdays ↔ rule.byMonthDay = [] ∧ days ≠ [] := by
  rw [SaysWeekdays, Ne, Ne, weekdays_eq_nil_iff hdays]

/-! ## §3 What the same words make of the dates -/

/-- One position reads the same before a weekday and as the weekday's own. -/
theorem cycle_eq_of_positionsWords_eq (hpositions : rule.bySetPos ≠ []) (hsome : days ≠ [])
    (hsome' : days' ≠ []) (hsingle : ∃ weekday, days = [.every weekday])
    (hnumbers : rule.byMonthDay = []) (hnumbers' : other.byMonthDay = [])
    (hnone : other.bySetPos = []) (hmonths : rule.byMonth = other.byMonth)
    (hsame : positionsWords rule.bySetPos days
      = Localizer.english.list (days'.map (ordinalWeekdayWords .english))) (interval : Interval) :
    (rule.monthlyPattern interval days).cycle = (other.monthlyPattern interval days').cycle := by
  -- The words have two readings only for a single position before a single weekday.
  obtain ⟨position, ordinal, day, later, hposition, hday, rfl, hvalue⟩ :=
    of_positionsWords_eq hpositions hsome hsome' hsame
  obtain ⟨weekday, hweekday⟩ := hsingle
  rw [hday, List.cons.injEq] at hweekday
  obtain ⟨rfl, rfl⟩ := hweekday
  unfold monthlyPattern
  rw [hday, hnumbers, hnumbers', hnone, hmonths, hposition]
  exact MonthlyPattern.cycle_position hvalue weekday

/-- **The same words for the days make the same dates**, if what is passed over is the same. -/
theorem SaysDays.cycle_eq (hwording : rule.SaysDays days clause)
    (hwording' : other.SaysDays days' clause) (hdays : rule.weekdays = .ok days)
    (hdays' : other.weekdays = .ok days') (hmonths : rule.byMonth = other.byMonth)
    (hunsaid : rule.AgreeUnsaid other) (interval : Interval) :
    (rule.monthlyPattern interval days).cycle = (other.monthlyPattern interval days').cycle := by
  have hweekdays := saysWeekdays_iff hdays
  have hweekdays' := saysWeekdays_iff hdays'
  cases hwording with
  | numbers hnumbers =>
    -- The first rule names days of the month.
    have hpositions := hunsaid.positions fun hnames => hnumbers hnames.1
    generalize hclause : some _ = clause at hwording'
    cases hwording' with
    | numbers hnumbers' =>
      -- Two lists of days read the same only if they are the same.
      have hsame := monthDayList_inj hnumbers hnumbers' (Option.some.inj hclause)
      unfold monthlyPattern
      rw [← hsame, ← hmonths]
      exact MonthlyPattern.cycle_eq_of_monthDays hnumbers hpositions
    | anchor => cases hclause
    | positions _ hsome' =>
      -- No list of days reads like positions among weekdays.
      exact absurd (Option.some.inj hclause) (monthDayList_ne_positionsWords hsome')
    | weekdays _ hsome' =>
      -- No list of days reads like weekdays.
      exact absurd (Option.some.inj hclause) (monthDayList_ne_ordinalWeekdayList hsome')
  | anchor hnumbers hnone =>
    -- The first rule names no days, so both fall on the day of the anchor, and only the positions
    -- are passed over.
    have hpositions := hunsaid.positions fun hnames => (hweekdays.mp hnames).2 hnone
    cases hwording' with
    | anchor hnumbers' hnone' =>
      unfold monthlyPattern
      rw [hnumbers, hnumbers', hnone, hnone', hmonths]
      exact MonthlyPattern.cycle_congr (fun _ => Iff.rfl) (fun _ => Iff.rfl) hpositions
        fun _ => Iff.rfl
  | positions hnumbers hsome hpositions =>
    -- The first rule names positions among weekdays.
    generalize hclause : some _ = clause at hwording'
    cases hwording' with
    | numbers hnumbers' =>
      -- No list of days reads like positions among weekdays.
      exact absurd (Option.some.inj hclause).symm (monthDayList_ne_positionsWords hsome)
    | anchor => cases hclause
    | positions hnumbers' hsome' hpositions' =>
      -- The positions are told. Which of a weekday are meant is passed over, and the rules agree in
      -- it.
      obtain ⟨hsame, _⟩ := positionsWords_inj hpositions hpositions' hsome hsome'
        (Option.some.inj hclause)
      have hnames := hunsaid.weekdays (hweekdays.mpr ⟨hnumbers, hsome⟩) hpositions hpositions'
      have hmembers : SameMembers days days' := fun day => by
        rw [← names_iff hdays, ← names_iff hdays', hnames]
      unfold monthlyPattern
      rw [hnumbers, hnumbers', hsame, hmonths]
      exact MonthlyPattern.cycle_congr hmembers (fun _ => Iff.rfl) (fun _ => Iff.rfl)
        fun _ => Iff.rfl
    | weekdays hnumbers' hsome' hpositions' =>
      -- The words have two readings, which come to the same for a bare weekday.
      have hsingle := hunsaid.single (hweekdays.mpr ⟨hnumbers, hsome⟩) hpositions hpositions'
      simp only [hdays, Except.ok.injEq] at hsingle
      exact cycle_eq_of_positionsWords_eq hpositions hsome hsome' hsingle hnumbers hnumbers'
        hpositions' hmonths (Option.some.inj hclause) interval
  | weekdays hnumbers hsome hpositions =>
    -- The first rule names weekdays and no positions.
    generalize hclause : some _ = clause at hwording'
    cases hwording' with
    | numbers hnumbers' =>
      -- No list of days reads like weekdays.
      exact absurd (Option.some.inj hclause).symm (monthDayList_ne_ordinalWeekdayList hsome)
    | anchor => cases hclause
    | positions hnumbers' hsome' hpositions' =>
      -- These are the same two readings, with the rules in the other order.
      have hsingle := hunsaid.single' (hweekdays'.mpr ⟨hnumbers', hsome'⟩) hpositions' hpositions
      simp only [hdays', Except.ok.injEq] at hsingle
      exact (cycle_eq_of_positionsWords_eq hpositions' hsome' hsome hsingle hnumbers' hnumbers
        hpositions hmonths.symm (Option.some.inj hclause).symm interval).symm
    | weekdays hnumbers' hsome' hpositions' =>
      -- Two lists of weekdays read the same only if they are the same.
      have hsame := ordinalWeekdayList_inj hsome hsome' (Option.some.inj hclause)
      unfold monthlyPattern
      rw [hnumbers, hnumbers', hpositions, hpositions', hsame, hmonths]

/-! ## §4 Sentences and dates -/

/-- A monthly rule with dates has passed every check. -/
theorem exists_monthlyPattern {options : Options} {anchor : Date} {window : Window}
    {dates : List Date} (hmonthly : rule.frequency = .monthly)
    (hanswer : rule.occurrences options (some anchor) window = .ok dates) :
    ∃ interval days, rule.weekdays = .ok days ∧ interval.value = rule.interval.toInt ∧
      Pattern.ofRule rule = .ok (.monthly (rule.monthlyPattern interval days)) := by
  have hpasses := (rule.occurrences_eq_error_iff options anchor window).2.1.mp ⟨dates, hanswer⟩
  -- Each part that could be refused is in order, as the rule has an answer.
  have hrange : 1 ≤ rule.interval.toInt ∧ rule.interval.toInt ≤ 4294967295 := by
    by_contra hrange
    exact hpasses .interval _ ⟨hrange, rfl⟩
  have hyearDays : rule.byYearDay = [] := by
    by_contra hsome
    exact hpasses .yearDays _ ⟨hsome, rfl⟩
  have hyearWeeks : rule.byWeekNo = [] := by
    by_contra hsome
    exact hpasses .yearWeeks _ ⟨hsome, rfl⟩
  cases hdays : rule.weekdays with
  | error cause => exact absurd (weekdays_eq_error_iff.mp hdays) (hpasses .tokens cause)
  | ok days =>
    obtain ⟨interval, hvalue⟩ : ∃ interval : Interval, interval.value = rule.interval.toInt :=
      ⟨⟨rule.interval.toInt, by omega, by omega⟩, rfl⟩
    refine ⟨interval, days, rfl, hvalue, ?_⟩
    rw [Pattern.ofRule_eq_ofFrequency hvalue hdays hyearDays hyearWeeks, Pattern.ofFrequency,
      hmonthly]
    rfl

/-- A rule that has an answer from one anchor has one from every anchor. -/
theorem exists_occurrences_of_ok {options : Options} {anchor : Date} {window : Window}
    {dates : List Date} (hanswer : rule.occurrences options (some anchor) window = .ok dates)
    (options' : Options) (anchor' : Option Date) (window' : Window) :
    ∃ dates', rule.occurrences options' anchor' window' = .ok dates' := by
  cases anchor' with
  | none => exact ⟨[], rfl⟩
  | some anchor' =>
    rw [(rule.occurrences_eq_error_iff options' anchor' window').2.1]
    exact (rule.occurrences_eq_error_iff options anchor window).2.1.mp ⟨dates, hanswer⟩

/-- **Monthly sentences tell the dates**, but for what they pass over. -/
theorem occurrences_eq_of_describe_eq (hmonthly : rule.frequency = .monthly)
    (hmonthly' : other.frequency = .monthly) (hmonths : rule.byMonth = [])
    (hmonths' : other.byMonth = []) (hvalid : rule.IsValid) (hvalid' : other.IsValid)
    (hexpands : ∃ options anchor window dates,
      rule.occurrences options (some anchor) window = .ok dates)
    (hexpands' : ∃ options anchor window dates,
      other.occurrences options (some anchor) window = .ok dates)
    (hunsaid : rule.AgreeUnsaid other) (hsame : rule.describe .english = other.describe .english)
    (options : Options) (anchor : Option Date) (window : Window) :
    ∃ dates, rule.occurrences options anchor window = .ok dates ∧
      other.occurrences options anchor window = .ok dates := by
  obtain ⟨_, start, _, _, hanswer⟩ := hexpands
  obtain ⟨_, start', _, _, hanswer'⟩ := hexpands'
  -- Rules with dates have patterns, and their sentences have clauses for the days.
  obtain ⟨interval, days, hdays, hvalue, hpattern⟩ := exists_monthlyPattern hmonthly hanswer
  obtain ⟨interval', days', hdays', hvalue', hpattern'⟩ := exists_monthlyPattern hmonthly' hanswer'
  obtain ⟨clause, hclause, hwording⟩ := exists_saysDays hdays
  obtain ⟨clause', hclause', hwording'⟩ := exists_saysDays hdays'
  -- The sentence tells the interval, the clause for the days, the count and the last day.
  obtain ⟨hintervals, rfl, hcount, huntil⟩ := monthlySentence_inj hmonthly hmonthly' hvalid hvalid'
    hclause hclause' hwording hwording' hsame
  have hsameInterval : interval = interval' := by
    rw [← Interval.ofInt?_eq_some_iff] at hvalue hvalue'
    rw [hintervals, hvalue'] at hvalue
    exact (Option.some.inj hvalue).symm
  subst hsameInterval
  -- Hence the limits are the same, and the patterns have the same dates in every period.
  have hlimits : Series.limitsOf rule = Series.limitsOf other := by
    rw [Series.limitsOf, Series.limitsOf, hcount, huntil]
  have hcycle : (Pattern.ofRule rule).map Pattern.cycle
      = (Pattern.ofRule other).map Pattern.cycle := by
    rw [hpattern, hpattern']
    exact congrArg Except.ok (hwording.cycle_eq hwording' hdays hdays' (hmonths.trans hmonths'.symm)
      hunsaid interval)
  obtain ⟨dates, hdates⟩ := exists_occurrences_of_ok hanswer options anchor window
  rw [← occurrences_congr hlimits hcycle]
  exact ⟨dates, hdates, hdates⟩

/-- The last Monday of every other month, by a position of the rule. -/
def lastMondays : Rule :=
  { every .monthly with
    interval := 2
    count := some 3
    byDay := ["MO"]
    bySetPos := [-1] }

/-- The same Mondays, by a position of the weekday. -/
def lastMondaysReworded : Rule :=
  { lastMondays with
    byDay := [" -1mo"]
    bySetPos := [] }

theorem agreeUnsaid_lastMondays : lastMondays.AgreeUnsaid lastMondaysReworded where
  positions hother := absurd ⟨rfl, List.cons_ne_nil _ _⟩ hother
  weekdays _ _ hpositions := absurd rfl hpositions
  single _ _ _ := ⟨.monday, rfl⟩
  single' _ hpositions _ := absurd rfl hpositions

/-- The two read the same and have the same dates. -/
theorem occurrences_eq_of_describe_eq_lastMondays :
    lastMondays.describe .english = "Every 2 months on the last Monday, for 3 occurrences" ∧
      ∃ dates, lastMondays.occurrences {} (some (.ofParts 2024 1 1))
          ⟨.ofParts 2024 1 1, .ofParts 2024 12 31⟩ = .ok dates ∧
        lastMondaysReworded.occurrences {} (some (.ofParts 2024 1 1))
          ⟨.ofParts 2024 1 1, .ofParts 2024 12 31⟩ = .ok dates := by
  have hanswer : lastMondays.occurrences {} (some (.ofParts 2024 1 1))
      ⟨.ofParts 2024 1 1, .ofParts 2024 12 31⟩
        = .ok [.ofParts 2024 1 29, .ofParts 2024 3 25, .ofParts 2024 5 27] := rfl
  have hanswer' : lastMondaysReworded.occurrences {} (some (.ofParts 2024 1 1))
      ⟨.ofParts 2024 1 1, .ofParts 2024 12 31⟩
        = .ok [.ofParts 2024 1 29, .ofParts 2024 3 25, .ofParts 2024 5 27] := rfl
  exact ⟨rfl, occurrences_eq_of_describe_eq rfl rfl rfl rfl (by decide) (by decide)
    ⟨_, _, _, _, hanswer⟩ ⟨_, _, _, _, hanswer'⟩ agreeUnsaid_lastMondays rfl _ _ _⟩

/-- Two days of every month, of which only the second may be meant. -/
def twoDays (positions : List Int32) : Rule :=
  { every .monthly with
    byMonthDay := [13, 20]
    bySetPos := positions }

/-- A sentence that passes over positions does not tell the dates alone. -/
theorem not_forall_occurrences_eq_of_describe_eq :
    ¬ ∀ rule other : Rule, rule.frequency = .monthly → other.frequency = .monthly →
      rule.byMonth = [] → other.byMonth = [] → rule.IsValid → other.IsValid →
      (∃ options anchor window dates, rule.occurrences options (some anchor) window = .ok dates) →
      (∃ options anchor window dates, other.occurrences options (some anchor) window = .ok dates) →
      rule.describe .english = other.describe .english →
      ∀ options anchor window,
        rule.occurrences options anchor window = other.occurrences options anchor window := by
  intro htells
  have hanswer : (twoDays []).occurrences {} (some (.ofParts 2024 1 1))
      ⟨.ofParts 2024 1 1, .ofParts 2024 1 31⟩
        = .ok [.ofParts 2024 1 13, .ofParts 2024 1 20] := rfl
  have hanswer' : (twoDays [2]).occurrences {} (some (.ofParts 2024 1 1))
      ⟨.ofParts 2024 1 1, .ofParts 2024 1 31⟩ = .ok [.ofParts 2024 1 20] := rfl
  have hsame := htells (twoDays []) (twoDays [2]) rfl rfl rfl rfl (by decide) (by decide)
    ⟨_, _, _, _, hanswer⟩ ⟨_, _, _, _, hanswer'⟩ rfl {} (some (.ofParts 2024 1 1))
    ⟨.ofParts 2024 1 1, .ofParts 2024 1 31⟩
  rw [hanswer, hanswer', Except.ok.injEq] at hsame
  cases hsame

/-- Nor does one that passes over which of a weekday are meant, or one with two readings. -/
example :
    describe .english { every .monthly with byDay := ["2MO"], bySetPos := [1] }
        = describe .english { every .monthly with byDay := ["MO"], bySetPos := [1] } ∧
      describe .english { every .monthly with byDay := ["MO", "FR"], bySetPos := [1] }
        = describe .english { every .monthly with byDay := ["1MO", "FR"] } :=
  ⟨rfl, rfl⟩

end Rule

end RecurringDates
