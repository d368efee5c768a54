import Mathlib.Data.List.Basic
import RecurringDates.Description.Sentence
import RecurringDates.Proofs.SolidText

/-!
# Words for days

The English words for the days of the month, the weekdays and the positions of a rule tell what they
stand for, alone and in lists. Weekdays alone have capital letters, and so a text can be cut before
the first of them. Only one wording has two readings: "the first Monday, Friday" stands for the
first of all Mondays and Fridays as well as for the first Monday and every Friday.

The main statements are one for each pair of wordings: `Rule.monthDayList_inj`,
`Rule.ordinalWeekdayList_inj`, `Rule.positionsWords_inj` for two of a kind,
`Rule.monthDayList_ne_ordinalWeekdayList` and `Rule.monthDayList_ne_positionsWords` for two that
never are the same, and `Rule.of_positionsWords_eq` for two that may be.
-/

namespace RecurringDates

open RecurringDates.Text

/-! ## §1 Words -/

/-- A text without capital letters. -/
def HasNoCapital (text : List Char) : Prop :=
  ∀ c ∈ text, c.isUpper = false

theorem HasNoCapital.append {front back : List Char} (hfront : HasNoCapital front)
    (hback : HasNoCapital back) : HasNoCapital (front ++ back) := by
  intro c hmem
  rcases List.mem_append.mp hmem with hmem | hmem
  · exact hfront c hmem
  · exact hback c hmem

theorem hasNoCapital_of_all {text : List Char} (hall : (text.all fun c => !c.isUpper) = true) :
    HasNoCapital text := by
  intro c hmem
  have hc := List.all_eq_true.mp hall c hmem
  exact Bool.not_eq_true' _ ▸ hc

/-- A text whose first character is a capital letter. -/
def BeginsWithCapital (text : List Char) : Prop :=
  ∃ c rest, text = c :: rest ∧ c.isUpper = true

theorem BeginsWithCapital.append {front : List Char} (hfront : BeginsWithCapital front)
    (back : List Char) : BeginsWithCapital (front ++ back) := by
  obtain ⟨c, rest, rfl, hcapital⟩ := hfront
  exact ⟨c, rest ++ back, rfl, hcapital⟩

theorem BeginsWithCapital.head? {text : List Char} (htext : BeginsWithCapital text) (c : Char)
    (hhead : text.head? = some c) : c.isUpper = true := by
  obtain ⟨d, rest, rfl, hcapital⟩ := htext
  rw [List.head?_cons, Option.some.injEq] at hhead
  rwa [← hhead]

/-- **A text is cut before its first capital letter.** -/
theorem append_inj_of_capital {front front' back back' : List Char} (hfront : HasNoCapital front)
    (hfront' : HasNoCapital front') (hback : BeginsWithCapital back)
    (hback' : BeginsWithCapital back') :
    front ++ back = front' ++ back' ↔ front = front' ∧ back = back' :=
  append_inj_of_head hfront hfront' hback.head? hback'.head?

theorem HasNoCapital.ne_append {text front back : List Char} (htext : HasNoCapital text)
    (hback : BeginsWithCapital back) : text ≠ front ++ back := by
  rintro rfl
  obtain ⟨c, rest, rfl, hcapital⟩ := hback
  rw [htext c (List.mem_append_right _ List.mem_cons_self)] at hcapital
  cases hcapital

/-- No digit is a capital letter. -/
theorem isUpper_of_isDigit {c : Char} (hdigit : c.isDigit = true) : c.isUpper = false := by
  have hrange : 48 ≤ c.toNat ∧ c.toNat ≤ 57 := isDigit_iff.mp hdigit
  rw [Bool.eq_false_iff, Ne, isUpper_iff]
  omega

theorem hasNoCapital_writeInteger (n : Int) : HasNoCapital (writeInteger n) := by
  intro c hmem
  rcases isNumeral_of_mem_writeInteger hmem with hdigit | rfl
  · exact isUpper_of_isDigit hdigit
  · decide

theorem writeInteger_inj {n m : Int} (hsame : writeInteger n = writeInteger m) : n = m := by
  have hread := congrArg readInteger? hsame
  rw [readInteger?_writeInteger, readInteger?_writeInteger] at hread
  exact Option.some.inj hread

theorem not_mem_writeInteger {c : Char} (hdigit : c.isDigit = false) (hminus : c ≠ '-') (n : Int) :
    c ∉ writeInteger n :=
  fun hmem => (isNumeral_of_mem_writeInteger hmem).ne_of_not hdigit hminus rfl

namespace Localizer

/-- English numbers are written with the digits of integers. -/
theorem toList_number (n : Int) : (english.number n).toList = writeInteger n := by
  show (toString n).toList = writeInteger n
  rw [Int.toString_eq_repr, Int.repr_eq_if, writeInteger]
  -- A negative number is a minus sign before the digits of its absolute value.
  by_cases hneg : n < 0
  · have habs : (-n).toNat = n.natAbs := by omega
    rw [if_pos hneg, if_neg (Int.not_le.mpr hneg), String.toList_append, habs]
    exact congrArg ('-' :: ·) String.toList_ofList
  · have habs : n.toNat = n.natAbs := by omega
    rw [if_neg hneg, if_pos (Int.not_lt.mp hneg), habs]
    exact String.toList_ofList

theorem toList_list (members : List String) :
    (english.list members).toList = [',', ' '].intercalate (members.map String.toList) :=
  String.toList_intercalate

/-- **An English list tells its members**, if none of them holds a comma. -/
theorem list_inj {members members' : List String} (hmembers : ∀ m ∈ members, ',' ∉ m.toList)
    (hmembers' : ∀ m ∈ members', ',' ∉ m.toList) (hne : members ≠ []) (hne' : members' ≠ [])
    (hsame : english.list members = english.list members') : members = members' := by
  have hlists := congrArg String.toList hsame
  rw [toList_list, toList_list] at hlists
  -- Every member ends at the first comma behind it.
  have hpieces := intercalate_inj (by simpa using hmembers) (by simpa using hmembers')
    (by simpa using hne) (by simpa using hne') hlists
  exact List.map_injective_iff.mpr (fun _ _ => String.toList_inj.mp) hpieces

/-- Texts that tell what they stand for do so in a list. -/
theorem list_map_inj {α : Type} {text : α → String} {values values' : List α}
    (hcomma : ∀ value, ',' ∉ (text value).toList)
    (hinj : ∀ value value', text value = text value' → value = value') (hne : values ≠ [])
    (hne' : values' ≠ [])
    (hsame : english.list (values.map text) = english.list (values'.map text)) :
    values = values' := by
  have hmembers : ∀ values : List α, ∀ m ∈ values.map text, ',' ∉ m.toList := by
    intro values m hmem
    obtain ⟨value, _, rfl⟩ := List.mem_map.mp hmem
    exact hcomma value
  have htexts := list_inj (hmembers values) (hmembers values') (by simpa using hne)
    (by simpa using hne') hsame
  exact List.map_injective_iff.mpr hinj htexts

/-- A list begins with its first member. -/
theorem exists_list_cons_eq (first : String) (later : List String) :
    ∃ rest, (english.list (first :: later)).toList = first.toList ++ rest := by
  rw [toList_list, List.map_cons]
  exact exists_intercalate_cons_eq _ _

theorem hasNoCapital_list {members : List String}
    (hmembers : ∀ m ∈ members, HasNoCapital m.toList) :
    HasNoCapital (english.list members).toList := by
  rw [toList_list]
  intro c hmem
  -- A character stands in a separator or in a member.
  rcases mem_or_mem_of_mem_intercalate hmem with hseparator | ⟨piece, hpiece, hmem⟩
  · exact hasNoCapital_of_all (by decide) c hseparator
  · obtain ⟨m, hm, rfl⟩ := List.mem_map.mp hpiece
    exact hmembers m hm c hmem

end Localizer

/-! ## §2 Positions and weekdays -/

namespace Phrase

/-- The positions that have a word, with their words. -/
def ordinals : List (Int × String) :=
  [(1, "first"), (2, "second"), (3, "third"), (4, "fourth"), (5, "fifth"), (-1, "last"),
    (-2, "second to last")]

theorem mem_ordinals_of_ordinal? {position : Int} {phrase : Phrase}
    (hword : ordinal? position = some phrase) : (position, phrase.fallback) ∈ ordinals := by
  unfold ordinal? at hword
  split_ifs at hword <;> cases hword <;> simp [ordinals, *]

/-- The word of a position tells the position, and no word looks like a number. -/
theorem ordinals_inj : ∀ entry ∈ ordinals, (∀ other ∈ ordinals, entry.2 = other.2 → entry = other) ∧
    (entry.2.toList.any fun c => !c.isDigit && c != '-') = true := by
  decide

end Phrase

namespace Rule

/-- A position is written as its word or as a number. -/
theorem ordinalWords_cases (position : Int) :
    (position, ordinalWords .english position) ∈ Phrase.ordinals ∨
      (ordinalWords .english position).toList = writeInteger position := by
  unfold ordinalWords
  cases hword : Phrase.ordinal? position with
  | some phrase => exact Or.inl (Phrase.mem_ordinals_of_ordinal? hword)
  | none => exact Or.inr (Localizer.toList_number position)

theorem ordinalWords_inj {position other : Int}
    (hsame : ordinalWords .english position = ordinalWords .english other) : position = other := by
  -- A word is no number.
  have hword : ∀ n m, (n, ordinalWords .english n) ∈ Phrase.ordinals →
      (ordinalWords .english m).toList = writeInteger m →
      ordinalWords .english n ≠ ordinalWords .english m := by
    intro n m hn hm hwords
    obtain ⟨c, hmem, hc⟩ := List.any_eq_true.mp (Phrase.ordinals_inj _ hn).2
    simp only [Bool.and_eq_true, Bool.not_eq_true', bne_iff_ne] at hc
    rw [hwords, hm] at hmem
    exact not_mem_writeInteger hc.1 hc.2 m hmem
  -- Two words are looked up in the table, and two numbers are read back.
  rcases ordinalWords_cases position with hposition | hposition
  · rcases ordinalWords_cases other with hother | hother
    · exact congrArg Prod.fst ((Phrase.ordinals_inj _ hposition).1 _ hother hsame)
    · exact absurd hsame (hword _ _ hposition hother)
  · rcases ordinalWords_cases other with hother | hother
    · exact absurd hsame.symm (hword _ _ hother hposition)
    · exact writeInteger_inj (hposition.symm.trans ((congrArg String.toList hsame).trans hother))

/-- No position has a comma or a capital letter in its text. -/
theorem ordinalWords_text (position : Int) :
    ',' ∉ (ordinalWords .english position).toList ∧
      HasNoCapital (ordinalWords .english position).toList := by
  rcases ordinalWords_cases position with hposition | hposition
  · -- No word of the table has either.
    have hwords : ∀ entry ∈ Phrase.ordinals, ',' ∉ entry.2.toList ∧
        (entry.2.toList.all fun c => !c.isUpper) = true := by decide
    exact ⟨(hwords _ hposition).1, hasNoCapital_of_all (hwords _ hposition).2⟩
  · rw [hposition]
    exact ⟨not_mem_writeInteger (by decide) (by decide) position,
      hasNoCapital_writeInteger position⟩

/-- The name of a weekday begins with a capital letter, ends with the letter y and has no comma. -/
theorem weekdayName_text (weekday : Weekday) :
    BeginsWithCapital (Localizer.english.phrase (.weekday weekday)).toList ∧
    (∃ front, (Localizer.english.phrase (.weekday weekday)).toList = front ++ ['y']) ∧
    ',' ∉ (Localizer.english.phrase (.weekday weekday)).toList := by
  refine ⟨?_, ?_, ?_⟩
  · cases weekday <;> exact ⟨_, _, rfl, by decide⟩
  · rw [← List.getLast?_eq_some_iff]
    cases weekday <;> decide
  · cases weekday <;> decide

theorem weekdayName_inj {weekday other : Weekday}
    (hsame : Localizer.english.phrase (.weekday weekday)
      = Localizer.english.phrase (.weekday other)) :
    weekday = other := by
  revert hsame
  cases weekday <;> cases other <;> decide

/-- What stands before the name of an ordinal weekday. -/
def articleText (day : OrdinalWeekday) : List Char :=
  match day.ordinal with
  | some ordinal => "the ".toList ++ (ordinalWords .english ordinal.toInt).toList ++ [' ']
  | none => []

theorem toList_ordinalWeekdayWords (day : OrdinalWeekday) :
    (ordinalWeekdayWords .english day).toList
      = articleText day ++ (Localizer.english.phrase (.weekday day.weekday)).toList := by
  unfold ordinalWeekdayWords articleText
  cases day.ordinal with
  | some ordinal => simp only [String.toList_append, List.append_assoc]; rfl
  | none => rfl

theorem articleText_text (day : OrdinalWeekday) :
    ',' ∉ articleText day ∧ HasNoCapital (articleText day) := by
  unfold articleText
  cases day.ordinal with
  | none => exact ⟨List.not_mem_nil, fun c hmem => absurd hmem List.not_mem_nil⟩
  | some ordinal =>
    obtain ⟨hcomma, hcapital⟩ := ordinalWords_text ordinal.toInt
    constructor
    · simp [hcomma]
    · exact ((hasNoCapital_of_all (by decide)).append hcapital).append
        (hasNoCapital_of_all (by decide))

theorem articleText_inj {day other : OrdinalWeekday} (hsame : articleText day = articleText other) :
    day.ordinal = other.ordinal := by
  unfold articleText at hsame
  cases hday : day.ordinal with
  | none =>
    cases hother : other.ordinal with
    | none => rfl
    | some ordinal' => simp [hday, hother] at hsame
  | some ordinal =>
    cases hother : other.ordinal with
    | none => simp [hday, hother] at hsame
    | some ordinal' =>
      -- Between the article and the blank stands the word of the position.
      simp only [hday, hother, List.append_cancel_right_eq, List.append_cancel_left_eq,
        String.toList_inj] at hsame
      exact congrArg some (Int8.toInt_inj.mp (ordinalWords_inj hsame))

/-- **An ordinal weekday is told by its text**: what stands before the first capital letter is its
position, and what follows its weekday. -/
theorem ordinalWeekdayWords_inj {day other : OrdinalWeekday}
    (hsame : ordinalWeekdayWords .english day = ordinalWeekdayWords .english other) :
    day = other := by
  have hlists := congrArg String.toList hsame
  rw [toList_ordinalWeekdayWords, toList_ordinalWeekdayWords,
    append_inj_of_capital (articleText_text day).2 (articleText_text other).2
      (weekdayName_text day.weekday).1 (weekdayName_text other.weekday).1] at hlists
  -- The position is told by the front and the weekday by the back.
  obtain ⟨harticle, hname⟩ := hlists
  have hordinal := articleText_inj harticle
  have hweekday := weekdayName_inj (String.toList_inj.mp hname)
  cases day
  cases other
  cases hordinal
  cases hweekday
  rfl

theorem comma_not_mem_ordinalWeekdayWords (day : OrdinalWeekday) :
    ',' ∉ (ordinalWeekdayWords .english day).toList := by
  rw [toList_ordinalWeekdayWords, List.mem_append, not_or]
  exact ⟨(articleText_text day).1, (weekdayName_text day.weekday).2.2⟩

/-! ## §3 Days of the month -/

/-- A day of the month is written as the last day or as a number. -/
theorem monthDayWords_cases (day : Int32) :
    day = -1 ∧ (monthDayWords .english day).toList = "the last da".toList ++ ['y'] ∨
      (monthDayWords .english day).toList = "day".toList ++ ' ' :: writeInteger day.toInt := by
  unfold monthDayWords
  by_cases hlast : day = -1
  · rw [if_pos hlast]
    exact Or.inl ⟨hlast, rfl⟩
  · rw [if_neg hlast]
    refine Or.inr ?_
    rw [String.toList_append, String.toList_append, Localizer.toList_number]
    rfl

theorem monthDayWords_inj {day other : Int32}
    (hsame : monthDayWords .english day = monthDayWords .english other) : day = other := by
  have hlists := congrArg String.toList hsame
  rcases monthDayWords_cases day with ⟨rfl, hday⟩ | hday
  · rcases monthDayWords_cases other with ⟨rfl, _⟩ | hother
    · rfl
    · -- The last day is never written as a number.
      rw [hday, hother] at hlists
      simp at hlists
  · rcases monthDayWords_cases other with ⟨rfl, hother⟩ | hother
    · rw [hday, hother] at hlists
      simp at hlists
    · -- Two numbers are the same if they are written alike.
      rw [hday, hother, List.append_cancel_left_eq, List.cons.injEq] at hlists
      exact Int32.toInt_inj.mp (writeInteger_inj hlists.2)

theorem monthDayWords_text (day : Int32) :
    ',' ∉ (monthDayWords .english day).toList ∧
      HasNoCapital (monthDayWords .english day).toList := by
  rcases monthDayWords_cases day with ⟨_, hday⟩ | hday
  · rw [hday]
    exact ⟨by decide, hasNoCapital_of_all (by decide)⟩
  · have hnumber : ',' ∉ writeInteger day.toInt := not_mem_writeInteger (by decide) (by decide) _
    rw [hday]
    constructor
    · simp [hnumber]
    · exact (hasNoCapital_of_all (by decide : _ = true)).append (HasNoCapital.append
        (hasNoCapital_of_all (by decide : [' '].all _ = true)) (hasNoCapital_writeInteger _))

/-! ## §4 Wordings of the days -/

variable {numbers numbers' positions positions' : List Int32}
  {days days' : List OrdinalWeekday}

/-- **A list of days of the month is told by its text.** -/
theorem monthDayList_inj (hne : numbers ≠ []) (hne' : numbers' ≠ [])
    (hsame : Localizer.english.list (numbers.map (monthDayWords .english))
      = Localizer.english.list (numbers'.map (monthDayWords .english))) : numbers = numbers' := by
  exact Localizer.list_map_inj (fun n => (monthDayWords_text n).1) (fun _ _ => monthDayWords_inj)
    hne hne' hsame

/-- **A list of ordinal weekdays is told by its text.** -/
theorem ordinalWeekdayList_inj (hne : days ≠ []) (hne' : days' ≠ [])
    (hsame : Localizer.english.list (days.map (ordinalWeekdayWords .english))
      = Localizer.english.list (days'.map (ordinalWeekdayWords .english))) : days = days' := by
  exact Localizer.list_map_inj comma_not_mem_ordinalWeekdayWords
    (fun _ _ => ordinalWeekdayWords_inj) hne hne' hsame

/-- The text of positions and weekdays, as in "the first, last Monday, Friday". -/
def positionsWords (positions : List Int32) (days : List OrdinalWeekday) : String :=
  Localizer.english.phrase .the ++ " "
    ++ Localizer.english.list (positions.map fun position => ordinalWords .english position.toInt)
    ++ " " ++ weekdayList .english days

/-- The names of weekdays are the words for all of them. -/
theorem weekdayList_eq (days : List OrdinalWeekday) :
    weekdayList .english days
      = Localizer.english.list
          ((days.map fun day => .every day.weekday).map (ordinalWeekdayWords .english)) := by
  rw [weekdayList, List.map_map]
  rfl

/-- What stands before the weekdays. -/
def positionsText (positions : List Int32) : List Char :=
  "the ".toList
    ++ (Localizer.english.list
      (positions.map fun position => ordinalWords .english position.toInt)).toList ++ [' ']

theorem toList_positionsWords (positions : List Int32) (days : List OrdinalWeekday) :
    (positionsWords positions days).toList
      = positionsText positions ++ (weekdayList .english days).toList := by
  simp only [positionsWords, positionsText, String.toList_append, List.append_assoc]
  rfl

theorem hasNoCapital_positionsText (positions : List Int32) :
    HasNoCapital (positionsText positions) := by
  -- Neither the article nor the positions nor the blanks have a capital letter.
  refine ((hasNoCapital_of_all (by decide)).append ?_).append (hasNoCapital_of_all (by decide))
  apply Localizer.hasNoCapital_list
  intro m hmem
  obtain ⟨position, _, rfl⟩ := List.mem_map.mp hmem
  exact (ordinalWords_text position.toInt).2

theorem positionsText_inj (hne : positions ≠ []) (hne' : positions' ≠ [])
    (hsame : positionsText positions = positionsText positions') : positions = positions' := by
  rw [positionsText, positionsText, List.append_cancel_right_eq, List.append_cancel_left_eq,
    String.toList_inj] at hsame
  exact Localizer.list_map_inj (fun position => (ordinalWords_text position.toInt).1)
    (fun _ _ hword => Int32.toInt_inj.mp (ordinalWords_inj hword)) hne hne' hsame

/-- Positions that read like the one of an ordinal weekday are no more than that one. -/
theorem of_positionsText_eq {ordinal : Int8} {weekday : Weekday} (hne : positions ≠ [])
    (hsame : positionsText positions = articleText (.nth ordinal weekday)) :
    ∃ position, positions = [position] ∧ position.toInt = ordinal.toInt := by
  unfold positionsText articleText OrdinalWeekday.nth at hsame
  rw [List.append_cancel_right_eq, List.append_cancel_left_eq, String.toList_inj] at hsame
  -- A single text is the list that has it alone.
  have hlists : Localizer.english.list ((positions.map Int32.toInt).map (ordinalWords .english))
      = Localizer.english.list ([ordinal.toInt].map (ordinalWords .english)) := by
    rw [List.map_map]
    exact hsame
  have hvalues := Localizer.list_map_inj (fun value => (ordinalWords_text value).1)
    (fun _ _ => ordinalWords_inj) (by simpa using hne) (by simp) hlists
  exact List.map_eq_singleton_iff.mp hvalues

/-- A list of ordinal weekdays is cut where its first weekday begins. -/
theorem toList_list_cons (day : OrdinalWeekday) (later : List String) :
    (Localizer.english.list (ordinalWeekdayWords .english day :: later)).toList
      = articleText day
        ++ (Localizer.english.list
          (Localizer.english.phrase (.weekday day.weekday) :: later)).toList := by
  rw [Localizer.toList_list, Localizer.toList_list, List.map_cons, List.map_cons,
    toList_ordinalWeekdayWords, intercalate_append_cons]

/-- A list that begins with a weekday begins with a capital letter. -/
theorem beginsWithCapital_list (weekday : Weekday) (later : List String) :
    BeginsWithCapital (Localizer.english.list
      (Localizer.english.phrase (.weekday weekday) :: later)).toList := by
  obtain ⟨rest, hrest⟩ := Localizer.exists_list_cons_eq
    (Localizer.english.phrase (.weekday weekday)) later
  rw [hrest]
  exact (weekdayName_text weekday).1.append rest

theorem beginsWithCapital_weekdayList (hne : days ≠ []) :
    BeginsWithCapital (weekdayList .english days).toList := by
  obtain ⟨day, later, rfl⟩ := List.exists_cons_of_ne_nil hne
  exact beginsWithCapital_list day.weekday _

/-- **Positions and weekdays are told by their text**, but not what else the weekdays are. -/
theorem positionsWords_inj (hne : positions ≠ []) (hne' : positions' ≠ []) (hdays : days ≠ [])
    (hdays' : days' ≠ [])
    (hsame : positionsWords positions days = positionsWords positions' days') :
    positions = positions' ∧ days.map (·.weekday) = days'.map (·.weekday) := by
  have hlists := congrArg String.toList hsame
  rw [toList_positionsWords, toList_positionsWords,
    append_inj_of_capital (hasNoCapital_positionsText _) (hasNoCapital_positionsText _)
      (beginsWithCapital_weekdayList hdays) (beginsWithCapital_weekdayList hdays')] at hlists
  refine ⟨positionsText_inj hne hne' hlists.1, ?_⟩
  -- The list of names is one of weekdays without ordinals, which it tells.
  have hweekdays := String.toList_inj.mp hlists.2
  rw [weekdayList_eq, weekdayList_eq] at hweekdays
  have hevery := ordinalWeekdayList_inj (by simpa using hdays) (by simpa using hdays') hweekdays
  have hnames := congrArg (List.map OrdinalWeekday.weekday) hevery
  rw [List.map_map, List.map_map] at hnames
  exact hnames

/-- **When positions and weekdays read like ordinal weekdays.** There is a single position, the
first weekday has it as its own in the second reading, and the others mean every one of them. -/
theorem of_positionsWords_eq (hne : positions ≠ []) (hdays : days ≠ []) (hdays' : days' ≠ [])
    (hsame : positionsWords positions days
      = Localizer.english.list (days'.map (ordinalWeekdayWords .english))) :
    ∃ position ordinal day later, positions = [position] ∧ days = day :: later ∧
      days' = .nth ordinal day.weekday :: later.map (fun other => .every other.weekday) ∧
      position.toInt = ordinal.toInt := by
  obtain ⟨day', later', rfl⟩ := List.exists_cons_of_ne_nil hdays'
  obtain ⟨day, later, rfl⟩ := List.exists_cons_of_ne_nil hdays
  have hlists := congrArg String.toList hsame
  -- Both texts are cut before their first weekday.
  rw [toList_positionsWords, List.map_cons, toList_list_cons,
    append_inj_of_capital (hasNoCapital_positionsText _) (articleText_text day').2
      (beginsWithCapital_weekdayList hdays) (beginsWithCapital_list day'.weekday _)] at hlists
  obtain ⟨hfront, hback⟩ := hlists
  obtain ⟨ordinal', weekday'⟩ := day'
  -- The names of the weekdays are the words for all of them.
  have hlater : weekdayList .english (day :: later) = Localizer.english.list
      ((OrdinalWeekday.every weekday' :: later').map (ordinalWeekdayWords .english)) :=
    String.toList_inj.mp hback
  rw [weekdayList_eq] at hlater
  have hevery := ordinalWeekdayList_inj (by simp) (by simp) hlater
  rw [List.map_cons, List.cons.injEq] at hevery
  obtain ⟨hfirst, rfl⟩ := hevery
  cases hfirst
  -- The first weekday has an ordinal, for something stands before its name.
  cases ordinal' with
  | none => simp [positionsText, articleText] at hfront
  | some ordinal =>
    obtain ⟨position, rfl, hvalue⟩ := of_positionsText_eq hne hfront
    exact ⟨position, ordinal, day, later, rfl, rfl, rfl, hvalue⟩

theorem hasNoCapital_monthDayList (numbers : List Int32) :
    HasNoCapital (Localizer.english.list (numbers.map (monthDayWords .english))).toList := by
  apply Localizer.hasNoCapital_list
  intro m hm
  obtain ⟨n, _, rfl⟩ := List.mem_map.mp hm
  exact (monthDayWords_text n).2

/-- **Days of the month are told from weekdays.** -/
theorem monthDayList_ne_ordinalWeekdayList (hne : days ≠ []) :
    Localizer.english.list (numbers.map (monthDayWords .english))
      ≠ Localizer.english.list (days.map (ordinalWeekdayWords .english)) := by
  obtain ⟨day, later, rfl⟩ := List.exists_cons_of_ne_nil hne
  intro hsame
  -- A list of weekdays has a capital letter.
  have hlists := congrArg String.toList hsame
  rw [List.map_cons, toList_list_cons] at hlists
  exact (hasNoCapital_monthDayList numbers).ne_append (beginsWithCapital_list _ _) hlists

/-- **Days of the month are told from positions and weekdays.** -/
theorem monthDayList_ne_positionsWords (hne : days ≠ []) :
    Localizer.english.list (numbers.map (monthDayWords .english))
      ≠ positionsWords positions days := by
  intro hsame
  have hlists := congrArg String.toList hsame
  rw [toList_positionsWords] at hlists
  exact (hasNoCapital_monthDayList numbers).ne_append (beginsWithCapital_weekdayList hne) hlists

end Rule

end RecurringDates
