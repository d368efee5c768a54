import RecurringDates.Event.Occurrence
import RecurringDates.Proofs.Faults
import RecurringDates.Proofs.Walk

/-!
# What becomes of a master

A master becomes one event for every date of its rule that it does not skip: the same event moved to
that date, as many days long, without a rule of its own. Either all these events lie in the calendar
or there are none at all.

The main statement is `Event.expand_eq`, assembled from one statement for an occurrence
(`Event.occurrence_eq_ok_iff`, `Event.occurrence_eq_error_iff`) and one for a list of dates
(`Event.occurrencesOn_eq_ok_iff`, `Event.occurrencesOn_eq_error_iff`).
-/

namespace RecurringDates

namespace Date

variable {date other : Date} {days : Int}

/-- A date lies a number of days after another exactly if that is the distance between them. -/
theorem addDays?_eq_some_iff : date.addDays? days = some other ↔ date.daysTo other = days := by
  rw [addDays?, ofDayNumber?_eq_some_iff, daysTo]
  omega

theorem addDays?_eq_none_iff : date.addDays? days = none ↔ ∀ other, date.daysTo other ≠ days := by
  simp only [Option.eq_none_iff_forall_ne_some, Ne, addDays?_eq_some_iff]

end Date

namespace Event

variable {master event : Event} {date : Date} {dates : List Date} {events : List Event}
  {cause : ExpansionError}

/-! ## §1 One occurrence -/

/-- An event is an occurrence of a master: it says the same about what happens and at what times, is
as many days long (with an end only if the master has one), is named by the master's identity and
its own date, and neither recurs nor has an identity itself. -/
structure IsOccurrenceOf (event master : Event) : Prop where
  id_eq : event.id = none
  title_eq : event.title = master.title
  description_eq : event.description = master.description
  category_eq : event.category = master.category
  color_eq : event.color = master.color
  startTime_eq : event.startTime = master.startTime
  length?_eq : event.length? = master.length?
  endTime_eq : event.endTime = master.endTime
  isAllDay_eq : event.isAllDay = master.isAllDay
  isRecurring_eq : event.isRecurring = false
  rule_eq : event.rule = none
  recurrenceId_eq : event.recurrenceId = master.id.map fun id => occurrenceId id event.startDate
  recurrenceMasterId_eq : event.recurrenceMasterId = master.id
  exceptionDates_eq : event.exceptionDates = DateSet.empty

/-- The occurrence of a master on a date would leave the calendar: no day lies as far from the date
as the end of the master from its start. -/
def LeavesCalendar (master : Event) (date : Date) : Prop :=
  ∃ days, master.length? = some days ∧ ∀ last : Date, date.daysTo last ≠ days

/-- An occurrence is known by its start and its end. -/
theorem IsOccurrenceOf.eq_occurrenceEnding (h : event.IsOccurrenceOf master) :
    event = master.occurrenceEnding event.startDate event.endDate := by
  obtain ⟨hid, htitle, hdescription, hcategory, hcolor, hstartTime, _, hendTime, hallDay,
    hrecurring, hrule, hrecurrenceId, hmasterId, hexceptions⟩ := h
  cases event
  simp only at *
  subst hid htitle hdescription hcategory hcolor hstartTime hendTime hallDay hrecurring hrule
    hrecurrenceId hmasterId hexceptions
  rfl

/-- A master moved to a date is an occurrence of it if it stays as long. -/
theorem isOccurrenceOf_occurrenceEnding {endDate : Option Date}
    (hlength : endDate.map date.daysTo = master.length?) :
    (master.occurrenceEnding date endDate).IsOccurrenceOf master :=
  ⟨rfl, rfl, rfl, rfl, rfl, rfl, hlength, rfl, rfl, rfl, rfl, rfl, rfl, rfl⟩

/-- **A master becomes its occurrence on a date**, and that is the only one there. -/
theorem occurrence_eq_ok_iff :
    master.occurrence date = .ok event ↔ event.IsOccurrenceOf master ∧ event.startDate = date := by
  unfold occurrence
  constructor
  · intro hevent
    split at hevent
    · -- A master without an end becomes an occurrence without one.
      rename_i hlength
      cases hevent
      exact ⟨isOccurrenceOf_occurrenceEnding hlength.symm, rfl⟩
    · rename_i days hlength
      split at hevent
      · -- There is no date for the end, and so no occurrence.
        cases hevent
      · rename_i endDate hend
        cases hevent
        -- The end lies as many days after the date as the master is long.
        have hdays := Date.addDays?_eq_some_iff.mp hend
        refine ⟨isOccurrenceOf_occurrenceEnding ?_, rfl⟩
        rw [hlength, Option.map_some, hdays]
  · -- The occurrence has an end exactly if the master has one, as far from its start.
    rintro ⟨hoccurrence, rfl⟩
    have hlength := hoccurrence.length?_eq
    have hevent := hoccurrence.eq_occurrenceEnding
    cases hend : event.endDate with
    | none =>
      rw [hend] at hevent
      rw [length?, hend, Option.map_none] at hlength
      simp only [← hlength, ← hevent]
    | some endDate =>
      rw [hend] at hevent
      rw [length?, hend, Option.map_some] at hlength
      have hmoved := Date.addDays?_eq_some_iff.mpr (rfl : event.startDate.daysTo endDate = _)
      simp only [← hlength, hmoved, ← hevent]

/-- **A master has no occurrence on a date** exactly if that one would leave the calendar. -/
theorem occurrence_eq_error_iff :
    master.occurrence date = .error cause ↔ master.LeavesCalendar date ∧ cause = .dateOverflow := by
  unfold occurrence LeavesCalendar
  -- Without an end there is nothing that could leave the calendar.
  cases hlength : master.length? with
  | none => simp
  | some days =>
    cases hend : date.addDays? days with
    | none =>
      have houtside := Date.addDays?_eq_none_iff.mp hend
      simpa [hend, houtside] using eq_comm
    | some endDate =>
      have hinside : ¬ ∀ last : Date, date.daysTo last ≠ days :=
        fun houtside => houtside endDate (Date.addDays?_eq_some_iff.mp hend)
      simp only [hend, Option.some.injEq, exists_eq_left', hinside, false_and, reduceCtorEq]

/-- Whether the occurrence on a date leaves the calendar can be found out by moving the end. -/
theorem leavesCalendar_iff :
    master.LeavesCalendar date ↔
      (master.length?.any fun days => (date.addDays? days).isNone) = true := by
  simp [LeavesCalendar, Option.any_eq_true, Date.addDays?_eq_none_iff]

instance (master : Event) (date : Date) : Decidable (master.LeavesCalendar date) :=
  decidable_of_iff _ leavesCalendar_iff.symm

/-! ## §2 Occurrences on a list of dates -/

/-- **A list of dates becomes one occurrence for each date**, in the same order. -/
theorem occurrencesOn_eq_ok_iff :
    master.occurrencesOn dates = .ok events ↔
      events.map (·.startDate) = dates ∧ ∀ event ∈ events, event.IsOccurrenceOf master := by
  induction dates generalizing events with
  | nil =>
    cases events with
    | nil => simp [occurrencesOn]
    | cons event events => simp [occurrencesOn]
  | cons date dates ih =>
    rw [occurrencesOn]
    constructor
    · -- Both the first date and the others have their occurrences, or there are none.
      intro hevents
      split at hevents
      · cases hevents
      · rename_i first hfirst
        split at hevents
        · cases hevents
        · rename_i later hlater
          cases hevents
          obtain ⟨hoccurrence, rfl⟩ := occurrence_eq_ok_iff.mp hfirst
          obtain ⟨rfl, hall⟩ := ih.mp hlater
          exact ⟨rfl, List.forall_mem_cons.mpr ⟨hoccurrence, hall⟩⟩
    · -- The first event starts on the first date, and the others on the others.
      rintro ⟨hdates, hall⟩
      cases events with
      | nil => cases hdates
      | cons first later =>
        rw [List.map_cons, List.cons.injEq] at hdates
        obtain ⟨hoccurrence, hall⟩ := List.forall_mem_cons.mp hall
        have hfirst := occurrence_eq_ok_iff.mpr ⟨hoccurrence, hdates.1⟩
        have hlater := ih.mpr ⟨hdates.2, hall⟩
        simp only [hfirst, hlater]

/-- **All or nothing**: there are no occurrences at all exactly if one of them would leave the
calendar. -/
theorem occurrencesOn_eq_error_iff :
    master.occurrencesOn dates = .error cause ↔
      (∃ date ∈ dates, master.LeavesCalendar date) ∧ cause = .dateOverflow := by
  induction dates with
  | nil => simp [occurrencesOn]
  | cons date dates ih =>
    rw [occurrencesOn, List.exists_mem_cons_iff]
    cases hfirst : master.occurrence date with
    | error fault =>
      -- The first date leaves the calendar, and the others are not looked at.
      obtain ⟨hleaves, rfl⟩ := occurrence_eq_error_iff.mp hfirst
      simpa [hleaves] using eq_comm
    | ok event =>
      -- The first date is inside the calendar, so the others decide.
      have hstays : ¬ master.LeavesCalendar date := fun hleaves => by
        rw [occurrence_eq_error_iff.mpr ⟨hleaves, rfl⟩] at hfirst
        cases hfirst
      rw [or_iff_right hstays, ← ih]
      cases master.occurrencesOn dates <;> simp

/-! ## §3 All occurrences -/

variable {options : Options} {window : Window} {text : String} {rule : Rule}

/-- An event recurs by a text if it is marked as recurring and has that text as its rule. -/
def RecursBy (master : Event) (text : String) : Prop :=
  master.isRecurring = true ∧ master.rule = some text

/-- Events are what becomes of a master on some dates: one occurrence for each date that it does not
skip, the earliest first. -/
structure AreOccurrencesOf (events : List Event) (master : Event) (dates : List Date) : Prop where
  startDates : Date.Enumerates (events.map (·.startDate)) fun date =>
    date ∈ dates ∧ date ∉ master.exceptionDates
  isOccurrenceOf : ∀ event ∈ events, event.IsOccurrenceOf master

theorem expand_of_not_recursBy (hnot : ∀ text, ¬ master.RecursBy text) :
    master.expand options window = .ok [] := by
  unfold expand
  split
  · rename_i text htext hrecurring
    exact absurd ⟨hrecurring, htext⟩ (hnot text)
  · rfl

theorem expand_of_unreadable {fault : ReadError} (hrecurs : master.RecursBy text)
    (hread : Rule.read text = .error fault) :
    master.expand options window = .error (.unreadable fault) := by
  simp only [expand, hrecurs.1, hrecurs.2, hread]

theorem expand_of_refused (hrecurs : master.RecursBy text) (hread : Rule.read text = .ok rule)
    (hrefused : rule.occurrences options (some master.startDate) window = .error cause) :
    master.expand options window = .error cause := by
  simp only [expand, hrecurs.1, hrecurs.2, hread, hrefused]

/-- Once the rule has dates, only the calendar can stand in the way. -/
theorem expand_of_dates (hrecurs : master.RecursBy text) (hread : Rule.read text = .ok rule)
    (hdates : rule.occurrences options (some master.startDate) window = .ok dates) :
    master.expand options window = master.occurrencesOn (master.exceptionDates.dropFrom dates) := by
  simp only [expand, hrecurs.1, hrecurs.2, hread, hdates]

/-- Some date that is not skipped leaves the calendar, or none does. -/
theorem occurrencesOn_dropFrom_eq_error_iff :
    master.occurrencesOn (master.exceptionDates.dropFrom dates) = .error cause ↔
      (∃ date ∈ dates, date ∉ master.exceptionDates ∧ master.LeavesCalendar date) ∧
        cause = .dateOverflow := by
  rw [occurrencesOn_eq_error_iff]
  simp only [DateSet.mem_dropFrom_iff, and_assoc]

/-- On an ascending list of dates, the occurrences are those on the dates that are not skipped. -/
theorem occurrencesOn_dropFrom_eq_ok_iff (hasc : dates.Pairwise (· < ·)) :
    master.occurrencesOn (master.exceptionDates.dropFrom dates) = .ok events ↔
      AreOccurrencesOf events master dates := by
  have hlisting : Date.Enumerates (master.exceptionDates.dropFrom dates) fun date =>
      date ∈ dates ∧ date ∉ master.exceptionDates :=
    ⟨master.exceptionDates.pairwise_dropFrom hasc, fun _ => DateSet.mem_dropFrom_iff⟩
  rw [occurrencesOn_eq_ok_iff]
  constructor
  · -- The start dates are the listing of the dates that are kept.
    rintro ⟨hstarts, hall⟩
    exact ⟨hstarts ▸ hlisting, hall⟩
  · -- Ascending lists with the same members are the same.
    rintro ⟨hstarts, hall⟩
    exact ⟨hstarts.unique hlisting, hall⟩

/-- Every answer of a rule from an anchor ascends. -/
theorem pairwise_of_occurrences {anchor : Date}
    (hdates : rule.occurrences options (some anchor) window = .ok dates) :
    dates.Pairwise (· < ·) := by
  obtain ⟨series, _, rfl⟩ := Rule.exists_series hdates
  have hclip : (window.clip anchor (series.dates Date.last)).Pairwise (· < ·) :=
    (series.pairwise_dates Date.last).filter _
  exact hclip.sublist (List.take_sublist _ _)

/-- The calendar is the one fault that shows only after the rule has dates. -/
theorem expand_eq_error_iff (hrecurs : master.RecursBy text) (hread : Rule.read text = .ok rule)
    (hcause : cause ≠ .dateOverflow) :
    master.expand options window = .error cause ↔
      rule.occurrences options (some master.startDate) window = .error cause := by
  cases hdates : rule.occurrences options (some master.startDate) window with
  | error refusal =>
    rw [expand_of_refused hrecurs hread hdates]
    simp
  | ok dates =>
    rw [expand_of_dates hrecurs hread hdates, occurrencesOn_dropFrom_eq_error_iff]
    simp [hcause]

theorem expand_eq_dateOverflow_iff (hrecurs : master.RecursBy text)
    (hread : Rule.read text = .ok rule) :
    master.expand options window = .error .dateOverflow ↔
      ∃ dates, rule.occurrences options (some master.startDate) window = .ok dates ∧
        ∃ date ∈ dates, date ∉ master.exceptionDates ∧ master.LeavesCalendar date := by
  cases hdates : rule.occurrences options (some master.startDate) window with
  | error refusal =>
    -- A rule is refused dates for other reasons only.
    have hcalendar : refusal ≠ .dateOverflow := by
      rintro rfl
      exact Rule.occurrences_ne_error_of_check? rfl hdates
    rw [expand_of_refused hrecurs hread hdates]
    simp [hcalendar]
  | ok dates =>
    rw [expand_of_dates hrecurs hread hdates, occurrencesOn_dropFrom_eq_error_iff]
    simp

theorem expand_eq_unreadable_iff {fault : ReadError} (hrecurs : master.RecursBy text) :
    master.expand options window = .error (.unreadable fault) ↔
      Rule.read text = .error fault := by
  cases hread : Rule.read text with
  | error other =>
    rw [expand_of_unreadable hrecurs hread]
    simp
  | ok rule =>
    -- A rule that is read is refused dates for other reasons only.
    rw [expand_eq_error_iff hrecurs hread (by simp)]
    simp [Rule.occurrences_ne_error_of_check? (rfl : (ExpansionError.unreadable fault).check? = _)]

/-- Where nothing stands in the way there are occurrences. -/
theorem exists_areOccurrencesOf (hrecurs : master.RecursBy text)
    (hread : Rule.read text = .ok rule)
    (hdates : rule.occurrences options (some master.startDate) window = .ok dates)
    (hstays : ∀ date ∈ dates, date ∉ master.exceptionDates → ¬ master.LeavesCalendar date) :
    ∃ events, master.expand options window = .ok events ∧ AreOccurrencesOf events master dates := by
  rw [expand_of_dates hrecurs hread hdates]
  cases hevents : master.occurrencesOn (master.exceptionDates.dropFrom dates) with
  | error fault =>
    -- A fault would be a date that leaves the calendar, against the assumption.
    obtain ⟨⟨date, hdate, hkept, hleaves⟩, _⟩ := occurrencesOn_dropFrom_eq_error_iff.mp hevents
    exact absurd hleaves (hstays date hdate hkept)
  | ok events =>
    have hasc := pairwise_of_occurrences hdates
    exact ⟨events, rfl, (occurrencesOn_dropFrom_eq_ok_iff hasc).mp hevents⟩

/-- Whatever events a master becomes, they are its occurrences on some dates. -/
theorem areOccurrencesOf_of_expand (hevents : master.expand options window = .ok events) :
    ∃ dates, AreOccurrencesOf events master dates := by
  by_cases hrecurs : ∃ text, master.RecursBy text
  · -- Only the last of the three cases, a rule with dates, has an answer.
    obtain ⟨text, hrecurs⟩ := hrecurs
    cases hread : Rule.read text with
    | error fault =>
      rw [expand_of_unreadable hrecurs hread] at hevents
      cases hevents
    | ok rule =>
      cases hdates : rule.occurrences options (some master.startDate) window with
      | error refusal =>
        rw [expand_of_refused hrecurs hread hdates] at hevents
        cases hevents
      | ok dates =>
        rw [expand_of_dates hrecurs hread hdates] at hevents
        have hasc := pairwise_of_occurrences hdates
        exact ⟨dates, (occurrencesOn_dropFrom_eq_ok_iff hasc).mp hevents⟩
  · -- An event that does not recur becomes no events, which are its occurrences on no dates.
    rw [expand_of_not_recursBy (not_exists.mp hrecurs)] at hevents
    cases hevents
    exact ⟨[], ⟨.nil, by simp⟩, by simp⟩

/-- **What becomes of a master.** An event that does not recur, or has no rule, becomes no events,
whatever its rule says. Any other one becomes none because of a fault exactly in these three cases:
its text is no rule, or the rule is refused dates from the start of the master, or the occurrence on
some date of the rule that the master does not skip would leave the calendar. In all other cases
there is one occurrence for each date of the rule that the master does not skip, the earliest first.
-/
theorem expand_eq (options : Options) (master : Event) (window : Window) :
    (master.isRecurring = false ∨ master.rule = none → master.expand options window = .ok []) ∧
    ∀ text, master.isRecurring = true → master.rule = some text →
      (∀ fault, master.expand options window = .error (.unreadable fault) ↔
        Rule.read text = .error fault) ∧
      ∀ rule, Rule.read text = .ok rule →
        (∀ cause, cause ≠ .dateOverflow → (master.expand options window = .error cause ↔
          rule.occurrences options (some master.startDate) window = .error cause)) ∧
        (master.expand options window = .error .dateOverflow ↔
          ∃ dates, rule.occurrences options (some master.startDate) window = .ok dates ∧
            ∃ date ∈ dates, date ∉ master.exceptionDates ∧ master.LeavesCalendar date) ∧
        ∀ dates, rule.occurrences options (some master.startDate) window = .ok dates →
          (∀ date ∈ dates, date ∉ master.exceptionDates → ¬ master.LeavesCalendar date) →
          ∃ events, master.expand options window = .ok events ∧
            AreOccurrencesOf events master dates := by
  constructor
  · -- Being marked as recurring and having a rule are both needed.
    intro hnone
    apply expand_of_not_recursBy
    rintro text ⟨hrecurring, htext⟩
    rcases hnone with hnot | hnot
    · simp [hnot] at hrecurring
    · simp [hnot] at htext
  · -- Each of the remaining parts is about one stage: reading, dates, and the calendar.
    intro text hrecurring htext
    have hrecurs : master.RecursBy text := ⟨hrecurring, htext⟩
    refine ⟨fun fault => expand_eq_unreadable_iff hrecurs, fun rule hread => ⟨?_, ?_, ?_⟩⟩
    · intro cause hcause
      exact expand_eq_error_iff hrecurs hread hcause
    · exact expand_eq_dateOverflow_iff hrecurs hread
    · intro dates hdates hstays
      exact exists_areOccurrencesOf hrecurs hread hdates hstays

/-- Mondays and Wednesdays, to the next morning, but for one Monday. -/
def nightShift : Event where
  id := some "42"
  title := "Night shift"
  startDate := .ofParts 2024 1 1
  endDate := some (.ofParts 2024 1 2)
  isRecurring := true
  rule := some "RRULE:FREQ=WEEKLY;BYDAY=MO,WE"
  exceptionDates := .ofList [.ofParts 2024 1 8]

/-- Every night, from the last but one of the calendar on. -/
def lastNights : Event where
  title := "Last nights"
  startDate := .ofParts 262142 12 30
  endDate := some (.ofParts 262142 12 31)
  isRecurring := true
  rule := some "FREQ=DAILY"

/-- The night shift becomes three events out of four dates. Of the last nights the second one has no
morning any more, and so the first one becomes no event either. -/
theorem expand_eq_nightShift :
    (∃ events, nightShift.expand {} ⟨.ofParts 2024 1 1, .ofParts 2024 1 10⟩ = .ok events ∧
      AreOccurrencesOf events nightShift
        [.ofParts 2024 1 1, .ofParts 2024 1 3, .ofParts 2024 1 8, .ofParts 2024 1 10]) ∧
    lastNights.expand {} ⟨.ofParts 262142 12 30, .ofParts 262142 12 31⟩
      = .error .dateOverflow ∧
    { lastNights with isRecurring := false }.expand {}
        ⟨.ofParts 262142 12 30, .ofParts 262142 12 31⟩
      = .ok [] := by
  refine ⟨?_, ?_, ?_⟩
  · -- Monday the 8th is skipped, and the other three mornings are dates.
    obtain ⟨_, hrecurs⟩ := expand_eq {} nightShift ⟨.ofParts 2024 1 1, .ofParts 2024 1 10⟩
    obtain ⟨_, hread⟩ := hrecurs "RRULE:FREQ=WEEKLY;BYDAY=MO,WE" rfl rfl
    obtain ⟨_, _, hdates⟩ := hread { Rule.every .weekly with byDay := ["MO", "WE"] } rfl
    exact hdates _ rfl (by decide)
  · -- The night that starts on the last day would end after it.
    obtain ⟨_, hrecurs⟩ := expand_eq {} lastNights ⟨.ofParts 262142 12 30, .ofParts 262142 12 31⟩
    obtain ⟨_, hread⟩ := hrecurs "FREQ=DAILY" rfl rfl
    obtain ⟨_, hcalendar, _⟩ := hread (.every .daily) rfl
    refine hcalendar.mpr ⟨[.ofParts 262142 12 30, .ofParts 262142 12 31], rfl, ?_⟩
    exact ⟨.ofParts 262142 12 31, by decide, by decide, by decide⟩
  · exact (expand_eq {} _ _).1 (Or.inl rfl)

end Event

end RecurringDates
