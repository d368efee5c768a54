import RecurringDates.Proofs.Masters
import RecurringDates.Proofs.SolidText

/-!
# The names of occurrences

An occurrence is named by the identity of its master and its own date. The identity may be any text,
and the date takes more characters the further its year lies from the present; nevertheless the name
tells both. What stands after its last `_` is the date, since no date holds that character, and the
last four characters of the date are its month and its day.

The main statement is `Event.recurrenceId_inj`, assembled from `Date.IsCompactText.unique` (a text
stands for one date) and `Event.occurrenceId_inj_iff` (a name tells its master and its date).
-/

namespace RecurringDates

open RecurringDates.Text

/-! ## §1 Digits -/

namespace Text

variable {text : List Char} {n m width : Nat}

/-- A text of digits that stand for a number, with or without zeros in front. -/
structure AreDigitsOf (text : List Char) (n : Nat) : Prop where
  all_isDigit : text.all Char.isDigit = true
  value_eq : digitsValue text = n

theorem areDigitsOf_writePadded (width n : Nat) : AreDigitsOf (writePadded width n) n :=
  ⟨all_isDigit_writePadded width n, digitsValue_writePadded width n⟩

theorem le_length_writePadded (width n : Nat) : width ≤ (writePadded width n).length := by
  simp only [writePadded, List.length_append, List.length_replicate]
  omega

theorem AreDigitsOf.readDigits?_eq (h : AreDigitsOf text n) (hne : text ≠ []) :
    readDigits? text = some n := by
  unfold readDigits?
  rw [if_pos ⟨hne, h.all_isDigit⟩, h.value_eq]

theorem AreDigitsOf.not_mem {c : Char} (h : AreDigitsOf text n) (hother : c.isDigit = false) :
    c ∉ text := by
  intro hmem
  have hdigit := List.all_eq_true.mp h.all_isDigit c hmem
  rw [hother] at hdigit
  cases hdigit

theorem AreDigitsOf.unique (h : AreDigitsOf text n) (h' : AreDigitsOf text m) : n = m :=
  h.value_eq.symm.trans h'.value_eq

end Text

/-! ## §2 Dates in text -/

namespace Date

variable {text : List Char} {year year' : Int} {date date' : Date}

/-- A text stands for a year. -/
inductive IsYearText : Int → List Char → Prop
  /-- The years 0 to 9999 have four digits and no sign. -/
  | unsigned {n : Nat} {digits : List Char} (hdigits : AreDigitsOf digits n)
      (hlength : digits.length = 4) : IsYearText n digits
  /-- The years before 0 have a minus sign and at least four digits. -/
  | minus {n : Nat} {digits : List Char} (hdigits : AreDigitsOf digits n)
      (hlength : 4 ≤ digits.length) (hpos : 0 < n) : IsYearText (-n) ('-' :: digits)
  /-- The years after 9999 have a plus sign and at least four digits. -/
  | plus {n : Nat} {digits : List Char} (hdigits : AreDigitsOf digits n)
      (hlength : 4 ≤ digits.length) (hlarge : 9999 < n) : IsYearText n ('+' :: digits)

theorem isYearText_writeYear (year : Int) : IsYearText year (writeYear year) := by
  unfold writeYear
  obtain ⟨n, rfl | rfl⟩ := Int.eq_nat_or_neg year
  · have hdigits := areDigitsOf_writePadded 4 n
    rw [if_neg (by omega), Int.natAbs_natCast]
    -- A year from 0 on has a sign exactly if it has more than four digits.
    split
    · exact .unsigned hdigits (length_writePadded (length_writeDigits_le_four (by omega)))
    · exact .plus hdigits (le_length_writePadded 4 n) (by omega)
  · have hdigits := areDigitsOf_writePadded 4 n
    rw [Int.natAbs_neg, Int.natAbs_natCast]
    split
    · exact .minus hdigits (le_length_writePadded 4 n) (by omega)
    · -- What is not before 0 with a minus sign is the year 0.
      obtain rfl : n = 0 := by omega
      exact .unsigned hdigits (length_writePadded (length_writeDigits_le_four (by decide)))

/-- The text of a year reads as the integer that it is. -/
theorem IsYearText.readInteger?_eq (h : IsYearText year text) : readInteger? text = some year := by
  cases h with
  | unsigned hdigits hlength =>
    have hne : text ≠ [] := List.ne_nil_of_length_pos (by omega)
    rw [readInteger?_digits hdigits.all_isDigit, hdigits.readDigits?_eq hne]
    rfl
  | minus hdigits hlength =>
    -- A sign is taken off before the digits are read.
    rw [readInteger?, hdigits.readDigits?_eq (List.ne_nil_of_length_pos (by omega))]
    rfl
  | plus hdigits hlength =>
    rw [readInteger?, hdigits.readDigits?_eq (List.ne_nil_of_length_pos (by omega))]
    rfl

theorem IsYearText.unique (h : IsYearText year text) (h' : IsYearText year' text) :
    year = year' :=
  Option.some.inj (h.readInteger?_eq.symm.trans h'.readInteger?_eq)

theorem IsYearText.underscore_not_mem (h : IsYearText year text) : '_' ∉ text := by
  cases h with
  | unsigned hdigits => exact hdigits.not_mem (by decide)
  | minus hdigits | plus hdigits =>
    have hrest := hdigits.not_mem (c := '_') (by decide)
    simp [hrest]

/-- A text stands for a date: for its year, and after that for its month and its day with two digits
each. -/
inductive IsCompactText (date : Date) : List Char → Prop
  | intro {year number day : List Char} (hyear : IsYearText date.year year)
      (hnumber : AreDigitsOf number date.month.number.toNat) (hnumberLength : number.length = 2)
      (hday : AreDigitsOf day date.day.toNat) (hdayLength : day.length = 2) :
      IsCompactText date (year ++ number ++ day)

theorem isCompactText_writeCompact (date : Date) : date.IsCompactText date.writeCompact.toList := by
  have hnumber := date.month.number_le
  have hday := date.day_le
  have hlength := date.month.length_le
  unfold writeCompact writeWith
  rw [String.toList_ofList, List.append_nil, List.append_nil]
  refine .intro (isYearText_writeYear _) (areDigitsOf_writePadded 2 _) ?_
    (areDigitsOf_writePadded 2 _) ?_
  · exact length_writePadded (length_writeDigits_le_two (by omega))
  · exact length_writePadded (length_writeDigits_le_two (by omega))

/-- The year, the month and the day of a date can be read off a text that stands for it. -/
theorem IsCompactText.parts_eq (h : date.IsCompactText text) (h' : date'.IsCompactText text) :
    date.year = date'.year ∧ date.month.number = date'.month.number ∧ date.day = date'.day := by
  have hpos := date.month.number_pos
  have hpos' := date'.month.number_pos
  have hday := date.day_pos
  have hday' := date'.day_pos
  cases h with
  | @intro year number day hyear hnumber hnumberLength hdayText hdayLength =>
    generalize htext : year ++ number ++ day = text at h'
    cases h' with
    | @intro year' number' day' hyear' hnumber' hnumberLength' hdayText' hdayLength' =>
      -- The day takes the last two characters of the text and the month the two before them.
      obtain ⟨hfront, rfl⟩ := List.append_inj' htext (hdayLength.trans hdayLength'.symm)
      obtain ⟨rfl, rfl⟩ := List.append_inj' hfront (hnumberLength.trans hnumberLength'.symm)
      have hsameNumber := hnumber.unique hnumber'
      have hsameDay := hdayText.unique hdayText'
      exact ⟨hyear.unique hyear', by omega, by omega⟩

/-- **A text stands for at most one date.** -/
theorem IsCompactText.unique (h : date.IsCompactText text) (h' : date'.IsCompactText text) :
    date = date' := by
  obtain ⟨hyear, hnumber, hday⟩ := h.parts_eq h'
  -- A date is known by its year, its month and its day.
  have hparts := ofYearMonthDay?_parts date
  rw [hyear, hnumber, hday, ofYearMonthDay?_parts date'] at hparts
  exact (Option.some.inj hparts).symm

theorem IsCompactText.underscore_not_mem (h : date.IsCompactText text) : '_' ∉ text := by
  cases h with
  | intro hyear hnumber _ hday _ =>
    have hyear := hyear.underscore_not_mem
    have hnumber := hnumber.not_mem (c := '_') (by decide)
    have hday := hday.not_mem (c := '_') (by decide)
    simp [hyear, hnumber, hday]

end Date

/-! ## §3 Names -/

namespace Event

variable {id id' : String} {date date' : Date} {master : Event}

theorem toList_occurrenceId (id : String) (date : Date) :
    (occurrenceId id date).toList = id.toList ++ '_' :: date.writeCompact.toList := by
  simp [occurrenceId]

/-- **The name of an occurrence tells the identity of its master and its date.** -/
theorem occurrenceId_inj_iff :
    occurrenceId id date = occurrenceId id' date' ↔ id = id' ∧ date = date' := by
  constructor
  · intro hsame
    have hdate := Date.isCompactText_writeCompact date
    have hdate' := Date.isCompactText_writeCompact date'
    have htexts := congrArg String.toList hsame
    rw [toList_occurrenceId, toList_occurrenceId,
      append_separator_inj hdate.underscore_not_mem hdate'.underscore_not_mem] at htexts
    obtain ⟨hid, htext⟩ := htexts
    -- Both dates have the same text.
    rw [← htext] at hdate'
    exact ⟨String.toList_inj.mp hid, hdate.unique hdate'⟩
  · rintro ⟨rfl, rfl⟩
    rfl

/-- The occurrences of a master with an identity have different names. -/
theorem AreOccurrencesOf.nodup_recurrenceId {events : List Event} {dates : List Date}
    (h : AreOccurrencesOf events master dates) (hid : master.id = some id) :
    (events.map (·.recurrenceId)).Nodup := by
  -- The names are told by the dates, and no date comes twice.
  have hnames : events.map (·.recurrenceId)
      = (events.map (·.startDate)).map fun date => some (occurrenceId id date) := by
    rw [List.map_map]
    apply List.map_congr_left
    intro event hevent
    rw [(h.isOccurrenceOf event hevent).recurrenceId_eq, hid]
    rfl
  rw [hnames, List.Nodup, List.pairwise_map]
  apply (Date.nodup_of_ascending h.startDates.ascending).imp
  intro date date' hne hsame
  exact hne (occurrenceId_inj_iff.mp (Option.some.inj hsame)).2

/-- **Names never collide.** The occurrence of a master with an identity is named by the identity, a
`_` and a text that stands for its date. Another occurrence, of this or another master, has the same
name exactly if its master has the same identity and its date is the same. Thus the events that a
master becomes have different names. -/
theorem recurrenceId_inj (hid : master.id = some id) :
    (∀ date event, master.occurrence date = .ok event →
      (∃ text : String, event.recurrenceId = some (id ++ "_" ++ text) ∧
        date.IsCompactText text.toList) ∧
      ∀ (master' : Event) id' date' event', master'.id = some id' →
        master'.occurrence date' = .ok event' →
        (event.recurrenceId = event'.recurrenceId ↔ id = id' ∧ date = date')) ∧
    ∀ options window events, master.expand options window = .ok events →
      (events.map (·.recurrenceId)).Nodup := by
  constructor
  · -- An occurrence is named by its own start, which is the date asked for.
    intro date event hevent
    obtain ⟨hoccurrence, rfl⟩ := occurrence_eq_ok_iff.mp hevent
    have hname := hoccurrence.recurrenceId_eq
    rw [hid, Option.map_some] at hname
    refine ⟨⟨_, hname, Date.isCompactText_writeCompact _⟩, ?_⟩
    intro master' id' date' event' hid' hevent'
    obtain ⟨hoccurrence', rfl⟩ := occurrence_eq_ok_iff.mp hevent'
    rw [hname, hoccurrence'.recurrenceId_eq, hid', Option.map_some, Option.some.injEq]
    exact occurrenceId_inj_iff
  · -- What a master becomes are its occurrences on different dates.
    intro options window events hevents
    obtain ⟨dates, hoccurrences⟩ := areOccurrencesOf_of_expand hevents
    exact hoccurrences.nodup_recurrenceId hid

/-- An event whose identity ends like the name of an occurrence. -/
def lookAlike : Event where
  id := some "42_20240101"
  title := "Look-alike"
  startDate := .ofParts 0 2 29

/-- The night shift on the first of January has another name than the look-alike in any year, and
the events that it becomes in ten days have three different ones. -/
theorem recurrenceId_inj_lookAlike :
    (∃ event event', nightShift.occurrence (.ofParts 2024 1 1) = .ok event ∧
      lookAlike.occurrence (.ofParts 12024 1 1) = .ok event' ∧
      event.recurrenceId = some "42_20240101" ∧
      event'.recurrenceId = some "42_20240101_+120240101" ∧
      event.recurrenceId ≠ event'.recurrenceId) ∧
    ∃ events, nightShift.expand {} ⟨.ofParts 2024 1 1, .ofParts 2024 1 10⟩ = .ok events ∧
      events.length = 3 ∧ (events.map (·.recurrenceId)).Nodup := by
  obtain ⟨hnames, hexpansions⟩ := recurrenceId_inj (rfl : nightShift.id = some "42")
  constructor
  · refine ⟨_, _, rfl, rfl, rfl, rfl, ?_⟩
    obtain ⟨_, hothers⟩ := hnames (.ofParts 2024 1 1) _ rfl
    have hsame := hothers lookAlike "42_20240101" (.ofParts 12024 1 1) _ rfl rfl
    rw [Ne, hsame]
    decide
  · exact ⟨_, rfl, rfl, hexpansions {} ⟨.ofParts 2024 1 1, .ofParts 2024 1 10⟩ _ rfl⟩

end Event

end RecurringDates
