import RecurringDates.Proofs.PartText

/-!
# Rules in text

A rule is written part by part, without those parts that say no more than their absence. Reading
puts the same rule together again whenever each part can be told from its text, and every rule that
was read out of any text at all is of this kind.

The main statement is `Rule.read_write_eq_ok_iff`.
-/

namespace RecurringDates

open RecurringDates.Text

/-! ## §1 Texts of parts -/

namespace Part

variable {parts : List Part}

/-- Plain parts read back from their texts, one by one. -/
theorem readAll_map_write (hplain : ∀ part ∈ parts, part.IsPlain) :
    readAll (parts.map write) = .ok parts := by
  induction parts with
  | nil => rfl
  | cons part rest ih =>
    have hrest := ih fun other hother => hplain other (List.mem_cons_of_mem part hother)
    rw [List.map_cons, readAll, read_write (hplain part List.mem_cons_self), hrest]
    rfl

/-- All parts that were read are plain. -/
theorem isPlain_of_mem_readAll {segments : List (List Char)}
    (hsegments : ∀ segment ∈ segments, ';' ∉ segment) (hread : readAll segments = .ok parts)
    {part : Part} (hmem : part ∈ parts) : part.IsPlain := by
  induction segments generalizing parts with
  | nil =>
    cases hread
    cases hmem
  | cons segment rest ih =>
    have hfirst := hsegments segment List.mem_cons_self
    have hrest := fun other hother => hsegments other (List.mem_cons_of_mem segment hother)
    unfold readAll at hread
    split at hread
    · cases hread
    · rename_i found hfound
      split at hread
      · cases hread
      · rename_i later hlater
        cases hread
        -- A part comes from the first segment, if that has an effect, or from a later one.
        rcases List.mem_append.mp hmem with hhere | hmem
        · rw [Option.mem_toList] at hhere
          exact isPlain_of_read hfirst (hhere ▸ hfound)
        · exact ih hrest hlater hmem

end Part

/-! ## §2 Parts of a rule -/

namespace Rule

variable {rule : Rule}

/-- A rule that its text gives back: its tokens are plain, and so is the year of its last date if it
has one. -/
structure IsPlain (rule : Rule) : Prop where
  byDay : ∀ token ∈ rule.byDay, IsPlainToken token
  untilDate : ∀ date, rule.untilDate = some date → date.HasPlainYear

theorem isPlain_every (frequency : Frequency) : (every frequency).IsPlain where
  byDay _ hmem := absurd hmem List.not_mem_nil
  untilDate _ hdate := by cases hdate

/-- A plain part leaves a plain rule plain. -/
theorem IsPlain.set {part : Part} (hrule : rule.IsPlain) (hpart : part.IsPlain) :
    (Part.set rule part).IsPlain := by
  -- Of the fields that a part may set, two can fail to be plain.
  cases part with
  | untilDate date =>
    refine ⟨hrule.byDay, fun other hother => ?_⟩
    cases hother
    exact hpart
  | byDay tokens => exact ⟨hpart, hrule.untilDate⟩
  | _ => exact ⟨hrule.byDay, hrule.untilDate⟩

/-- Plain parts make a plain rule together. -/
theorem isPlain_of_ofParts? {parts : List Part} (hplain : ∀ part ∈ parts, part.IsPlain)
    (hrule : ofParts? parts = some rule) : rule.IsPlain := by
  have hfold : ∀ start : Rule, start.IsPlain → (parts.foldl Part.set start).IsPlain := by
    clear hrule
    -- Invariant: the rule that the parts so far have made is plain.
    induction parts with
    | nil => exact fun start hstart => hstart
    | cons part rest ih =>
      intro start hstart
      rw [List.foldl_cons]
      exact ih (fun other hother => hplain other (List.mem_cons_of_mem part hother)) _
        (hstart.set (hplain part List.mem_cons_self))
  unfold ofParts? at hrule
  split at hrule
  · cases hrule
    exact hfold _ (isPlain_every .daily)
  · cases hrule

/-- A part, unless it says no more than its absence. -/
def partUnless (absent : Prop) [Decidable absent] (part : Part) : List Part :=
  if absent then [] else [part]

/-- The parts of a rule that say more than their absence, in order. -/
def parts (rule : Rule) : List Part :=
  [.frequency rule.frequency]
    ++ partUnless (rule.interval = 1) (.interval rule.interval)
    ++ (rule.count.map Part.count).toList
    ++ (rule.untilDate.map Part.untilDate).toList
    ++ partUnless (rule.byDay = []) (.byDay rule.byDay)
    ++ partUnless (rule.byMonthDay = []) (.byMonthDay rule.byMonthDay)
    ++ partUnless (rule.byYearDay = []) (.byYearDay rule.byYearDay)
    ++ partUnless (rule.byWeekNo = []) (.byWeekNo rule.byWeekNo)
    ++ partUnless (rule.byMonth = []) (.byMonth rule.byMonth)
    ++ partUnless (rule.bySetPos = []) (.bySetPos rule.bySetPos)
    ++ partUnless (rule.weekStart = .monday) (.weekStart rule.weekStart)

theorem map_write_partUnless (absent : Prop) [Decidable absent] (part : Part) :
    (partUnless absent part).map Part.write
      = if absent then [] else [writePart part.key part.value] := by
  unfold partUnless
  split <;> rfl

/-- The texts of a rule's parts are what is written for it. -/
theorem writeParts_eq (rule : Rule) : rule.writeParts = rule.parts.map Part.write := by
  unfold writeParts parts writeInt32Part
  simp only [List.map_append, map_write_partUnless]
  cases rule.count <;> cases rule.untilDate <;> rfl

theorem isPlain_of_mem_partUnless {absent : Prop} [Decidable absent] {part : Part}
    (hpart : part.IsPlain) : ∀ other ∈ partUnless absent part, other.IsPlain := by
  unfold partUnless
  split
  · exact List.forall_mem_nil _
  · exact List.forall_mem_singleton.mpr hpart

/-- The parts of a plain rule are plain. -/
theorem IsPlain.parts (hrule : rule.IsPlain) : ∀ part ∈ rule.parts, part.IsPlain := by
  unfold Rule.parts
  simp only [List.forall_mem_append, and_assoc]
  refine ⟨List.forall_mem_singleton.mpr True.intro, isPlain_of_mem_partUnless True.intro,
    fun part hmem => ?_, fun part hmem => ?_, isPlain_of_mem_partUnless hrule.byDay,
    isPlain_of_mem_partUnless True.intro, isPlain_of_mem_partUnless True.intro,
    isPlain_of_mem_partUnless True.intro, isPlain_of_mem_partUnless True.intro,
    isPlain_of_mem_partUnless True.intro, isPlain_of_mem_partUnless True.intro⟩
  · -- A number of dates is always plain.
    obtain ⟨count, _, rfl⟩ := Option.map_eq_some_iff.mp (Option.mem_toList.mp hmem)
    exact True.intro
  · -- A last date is plain because the rule is.
    obtain ⟨date, hdate, rfl⟩ := Option.map_eq_some_iff.mp (Option.mem_toList.mp hmem)
    exact hrule.untilDate date hdate

/-! ## §3 Rules of parts -/

/-- A part that is left out would set what is set already. -/
theorem foldl_set_partUnless {α : Type} [DecidableEq α] {absent given : α} (part : α → Part)
    (hsame : Part.set rule (part absent) = rule) :
    (partUnless (given = absent) (part given)).foldl Part.set rule
      = Part.set rule (part given) := by
  unfold partUnless
  split
  · rename_i habsent
    rw [habsent]
    exact hsame.symm
  · rfl

theorem foldl_set_count (hnone : rule.count = none) (count : Option Int64) :
    (count.map Part.count).toList.foldl Part.set rule = { rule with count } := by
  cases count with
  | none =>
    cases rule
    cases hnone
    rfl
  | some count => rfl

theorem foldl_set_untilDate (hnone : rule.untilDate = none) (untilDate : Option Date) :
    (untilDate.map Part.untilDate).toList.foldl Part.set rule = { rule with untilDate } := by
  cases untilDate with
  | none =>
    cases rule
    cases hnone
    rfl
  | some date => rfl

/-- **The parts of a rule make the rule together**, those left out included. -/
theorem ofParts?_parts (rule : Rule) : ofParts? rule.parts = some rule := by
  have hfrequency : rule.parts.any Part.isFrequency = true := by
    simp [Rule.parts, Part.isFrequency]
  unfold ofParts?
  rw [if_pos hfrequency, Option.some.injEq]
  cases rule
  unfold Rule.parts
  simp only [List.foldl_append, List.foldl_cons, List.foldl_nil]
  -- Each part in turn sets its field, or the field holds what it would set.
  rw [foldl_set_partUnless Part.interval rfl, foldl_set_count rfl, foldl_set_untilDate rfl,
    foldl_set_partUnless Part.byDay rfl, foldl_set_partUnless Part.byMonthDay rfl,
    foldl_set_partUnless Part.byYearDay rfl, foldl_set_partUnless Part.byWeekNo rfl,
    foldl_set_partUnless Part.byMonth rfl, foldl_set_partUnless Part.bySetPos rfl,
    foldl_set_partUnless Part.weekStart rfl]
  rfl

/-! ## §4 Texts of rules -/

/-- The text of a rule is put together from solid pieces without semicolons. -/
theorem writeParts_pieces (hrule : rule.IsPlain) :
    ∀ piece ∈ rule.writeParts, IsSolid piece ∧ ';' ∉ piece := by
  intro piece hpiece
  rw [writeParts_eq] at hpiece
  obtain ⟨part, hpart, rfl⟩ := List.mem_map.mp hpiece
  have hplain := hrule.parts part hpart
  exact ⟨Part.isSolid_write hplain, Part.semicolon_not_mem_write hplain⟩

theorem writeParts_ne_nil (rule : Rule) : rule.writeParts ≠ [] := by
  rw [writeParts_eq]
  exact List.cons_ne_nil _ _

/-- The text of a rule begins with its frequency, and so with no label. -/
theorem dropLabel_intercalate (rule : Rule) :
    dropLabel ([';'].intercalate rule.writeParts) = [';'].intercalate rule.writeParts := by
  have hparts : ∃ first others, rule.writeParts = ('F' :: first) :: others := ⟨_, _, rfl⟩
  obtain ⟨first, others, hparts⟩ := hparts
  obtain ⟨rest, hrest⟩ := intercalate_cons_cons_eq 'F' ';' first others
  rw [hparts, hrest]
  unfold dropLabel
  rw [if_neg]
  exact fun hlabel => absurd (List.cons.inj hlabel).1 (by decide)

/-- **A plain rule reads back from its text.** -/
theorem read_write (hrule : rule.IsPlain) : read rule.write = .ok rule := by
  have hsolid : IsSolid ([';'].intercalate rule.writeParts) :=
    isSolid_intercalate (writeParts_ne_nil rule) fun piece hpiece =>
      (writeParts_pieces hrule piece hpiece).1
  -- The text is trimmed of nothing, and split where its parts were joined.
  have hsplit : ([';'].intercalate rule.writeParts).splitOn ';' = rule.parts.map Part.write := by
    rw [List.splitOn_intercalate ';' (fun piece hpiece => (writeParts_pieces hrule piece hpiece).2)
      (writeParts_ne_nil rule), writeParts_eq]
  unfold read write readBody
  rw [String.toList_ofList, hsolid.trim_eq, dropLabel_intercalate, if_neg hsolid.1, hsplit,
    Part.readAll_map_write hrule.parts]
  simp only [ofParts?_parts]

/-- **A rule that was read is plain**, whatever its text. -/
theorem isPlain_of_read {text : String} (hread : read text = .ok rule) : rule.IsPlain := by
  unfold read readBody at hread
  split at hread
  · cases hread
  · split at hread
    · cases hread
    · rename_i parts hparts
      split at hread
      · -- Only this case reads a rule: a text that is not empty, no faults, and a frequency.
        rename_i found hfound
        cases hread
        exact isPlain_of_ofParts? (fun part hmem => Part.isPlain_of_mem_readAll
          (fun segment hsegment => not_mem_of_mem_splitOn hsegment) hparts hmem) hfound
      · cases hread

/-- **Which rules their text gives back.** A rule reads back from its text exactly if its tokens
and the year of its last date are plain. Every rule that was read out of a text is of this kind, so
that writing it and reading it again changes nothing. -/
theorem read_write_eq_ok_iff (rule : Rule) :
    (read rule.write = .ok rule ↔ rule.IsPlain) ∧
      ∀ text, read text = .ok rule → rule.IsPlain ∧ read rule.write = read text := by
  refine ⟨⟨isPlain_of_read, read_write⟩, fun text hread => ?_⟩
  have hplain := isPlain_of_read hread
  exact ⟨hplain, (read_write hplain).trans hread.symm⟩

/-- The second Monday of January and February through 9999, beside a token that is no weekday. -/
def toTheLastYear : Rule :=
  { every .monthly with
    untilDate := some (.ofParts 9999 12 31)
    byDay := ["2MO", "- 1 =fr"]
    byMonth := [1, 2] }

/-- Written with a label, blanks, an entry that is no month and a time of day, it is still the rule
that its own text gives back. -/
theorem read_write_eq_ok_iff_toTheLastYear :
    read " rrule: freq = monthly ;;BYDAY= 2MO,, - 1 =fr ;until=99991231T235959Z;bymonth=1,x,+2"
        = .ok toTheLastYear ∧
      toTheLastYear.IsPlain ∧
      read "FREQ=MONTHLY;UNTIL=99991231;BYDAY=2MO,- 1 =fr;BYMONTH=1,2" = .ok toTheLastYear := by
  have hread : read
      " rrule: freq = monthly ;;BYDAY= 2MO,, - 1 =fr ;until=99991231T235959Z;bymonth=1,x,+2"
        = .ok toTheLastYear := rfl
  have hwrite : toTheLastYear.write
      = "FREQ=MONTHLY;UNTIL=99991231;BYDAY=2MO,- 1 =fr;BYMONTH=1,2" := rfl
  obtain ⟨hplain, hagain⟩ := (read_write_eq_ok_iff toTheLastYear).2 _ hread
  rw [hwrite] at hagain
  exact ⟨hread, hplain, hagain.trans hread⟩

end Rule

end RecurringDates
