import RecurringDates.Proofs.Reading
import RecurringDates.Proofs.WeekdayTokens

/-!
# What values stand for

The value of a setting is a name, a number, a date, a list or a code, and each kind has a small
grammar of its own. A frequency and a code are words of capital or small letters, a number is digits
with or without a sign, and a last date is eight digits, with or without a time of day behind them.
A list is its entries with commas between them, where the blanks around an entry do not count and an
entry that tells nothing is passed over.

The grammars do not mention how a value is read. For each kind of value there is one statement that
it is read exactly where its grammar has one: `Frequency.read?_eq_some_iff`,
`Setting.int64?_eq_some_iff`, `Setting.lastDate?_eq_some_iff`, `Setting.int32s_eq_iff` and
`Part.readTokens_eq_iff`. The one of codes is `Weekday.ofCode?_eq_some_iff`.
-/

namespace RecurringDates

open RecurringDates.Text

/-! ## §1 Frequencies -/

namespace Frequency

variable {text : List Char} {frequency : Frequency}

/-- A text is the name of a frequency, with each of its letters a capital or a small one, and with
blanks around it or not. -/
def IsNamedBy (text : List Char) (frequency : Frequency) : Prop :=
  ∃ body, HasBlanksAround text body ∧ Spells body frequency.name.toList

theorem isSolid_of_spells_name (h : Spells text frequency.name.toList) : IsSolid text := by
  have hletters : (frequency.name.toList.all fun letter =>
      decide (isBlank letter = false ∧ isBlank letter.toLower = false)) = true := by
    cases frequency <;> decide
  refine isSolid_of_forall ?_ fun c hmem => ?_
  · rintro rfl
    cases frequency <;> cases h
  · obtain ⟨letter, hletter, rfl | rfl⟩ := h.exists_letter hmem
    · exact (of_decide_eq_true (List.all_eq_true.mp hletters c hletter)).1
    · exact (of_decide_eq_true (List.all_eq_true.mp hletters letter hletter)).2

/-- **Frequencies are read exactly where a text names one.** -/
theorem read?_eq_some_iff : read? text = some frequency ↔ IsNamedBy text frequency := by
  have hcapitals : frequency.name.toList.all Char.isUpper = true := by
    cases frequency <;> decide
  unfold IsNamedBy
  rw [exists_hasBlanksAround_iff fun _ => isSolid_of_spells_name,
    ← map_toUpper_eq_iff (List.all_eq_true.mp hcapitals)]
  unfold read?
  constructor
  · intro hread
    have hname := List.find?_some hread
    exact (eq_of_beq hname).symm
  · intro hsame
    rw [hsame]
    cases frequency <;> decide

end Frequency

/-! ## §2 Last dates -/

namespace Date

variable {text : List Char} {date : Date}

/-- Eight digits stand for a date: four for its year, two for its month and two for its day. -/
inductive IsEightDigitsOf : List Char → Date → Prop
  | intro {years months days : List Char} {year number day : Nat} {date : Date}
      (hyear : IsNumeralOf years year) (hnumber : IsNumeralOf months number)
      (hday : IsNumeralOf days day)
      (hlengths : years.length = 4 ∧ months.length = 2 ∧ days.length = 2)
      (hdate : date.year = year ∧ date.month.number = number ∧ date.day = day) :
      IsEightDigitsOf (years ++ months ++ days) date

/-- What stands for the last date of a series. -/
inductive IsLastDateOf : List Char → Date → Prop
  /-- Its eight digits. -/
  | date {digits : List Char} {date : Date} (hdigits : IsEightDigitsOf digits date) :
      IsLastDateOf digits date
  /-- Its eight digits and a time of day, which may be any text behind a `T`. -/
  | dateTime {digits time : List Char} {c : Char} {date : Date}
      (hdigits : IsEightDigitsOf digits date) (hletter : c = 'T' ∨ c = 't') :
      IsLastDateOf (digits ++ c :: time) date

/-- **Dates without dashes are read exactly where eight digits stand for one.** -/
theorem readCompact?_eq_some_iff : readCompact? text = some date ↔ IsEightDigitsOf text date := by
  rw [readCompact?_eq_some_iff_pieces]
  constructor
  · -- Each of the three pieces is a numeral of its value.
    rintro ⟨years, months, days, rfl, hlengths, hall, hdate⟩
    rw [List.all_append, List.all_append, Bool.and_eq_true, Bool.and_eq_true] at hall
    obtain ⟨⟨hyears, hmonths⟩, hdays⟩ := hall
    exact .intro (isNumeralOf_digitsValue (List.ne_nil_of_length_pos (by omega)) hyears)
      (isNumeralOf_digitsValue (List.ne_nil_of_length_pos (by omega)) hmonths)
      (isNumeralOf_digitsValue (List.ne_nil_of_length_pos (by omega)) hdays) hlengths hdate
  · intro hdigits
    cases hdigits with
    | @intro years months days _ _ _ _ hyear hnumber hday hlengths hdate =>
      obtain ⟨⟨_, hyears⟩, rfl⟩ := isNumeralOf_iff.mp hyear
      obtain ⟨⟨_, hmonths⟩, rfl⟩ := isNumeralOf_iff.mp hnumber
      obtain ⟨⟨_, hdays⟩, rfl⟩ := isNumeralOf_iff.mp hday
      refine ⟨years, months, days, rfl, hlengths, ?_, hdate⟩
      rw [List.all_append, List.all_append, hyears, hmonths, hdays]
      rfl

/-- Digits alone hold no letter that a time of day begins with. -/
theorem IsEightDigitsOf.all_ne (h : IsEightDigitsOf text date) :
    ∀ c ∈ text, (c != 'T' && c != 't') = true := by
  obtain ⟨hyear, hnumber, hday, -, -⟩ := h
  intro c hmem
  rw [List.mem_append, List.mem_append] at hmem
  rcases hmem with (hmem | hmem) | hmem
  · exact Part.bne_of_isDigit (List.all_eq_true.mp hyear.all_isDigit c hmem)
  · exact Part.bne_of_isDigit (List.all_eq_true.mp hnumber.all_isDigit c hmem)
  · exact Part.bne_of_isDigit (List.all_eq_true.mp hday.all_isDigit c hmem)

end Date

namespace Setting

/-- **Last dates are read exactly where the grammar has one.** -/
theorem lastDate?_eq_some_iff {value : List Char} {date : Date} :
    lastDate? value = some date ↔ Date.IsLastDateOf value date := by
  unfold lastDate?
  rw [Date.readCompact?_eq_some_iff]
  constructor
  · intro hdigits
    rw [← List.takeWhile_append_dropWhile (p := fun c => c != 'T' && c != 't') (l := value)]
    have hhead := List.head?_dropWhile_not (fun c => c != 'T' && c != 't') value
    cases hrest : value.dropWhile fun c => c != 'T' && c != 't' with
    | nil =>
      -- Nothing is behind the digits.
      rw [List.append_nil]
      exact .date hdigits
    | cons c time =>
      -- What is behind the digits begins with the letter that ended them.
      rw [hrest, List.head?_cons] at hhead
      refine .dateTime hdigits ?_
      simpa [imp_iff_not_or] using hhead
  · intro hdate
    cases hdate with
    | date hdigits => rwa [List.takeWhile_eq_self_iff.mpr hdigits.all_ne]
    | dateTime hdigits hletter =>
      rw [List.takeWhile_append_of_pos hdigits.all_ne, List.takeWhile_cons_of_neg, List.append_nil]
      · exact hdigits
      · rcases hletter with rfl | rfl <;> decide

end Setting

/-! ## §3 Lists -/

namespace Text

variable {α : Type} {tells : List Char → α → Prop} {tells? : List Char → Option α}
variable {entries : List (List Char)} {value : List Char} {told : List α}

/-- What entries tell, one after the other. Some of them may tell nothing. -/
inductive TellTogether (tells : List Char → α → Prop) : List (List Char) → List α → Prop
  | nil : TellTogether tells [] []
  /-- An entry that tells something is followed by what the others tell. -/
  | told {entry : List Char} {x : α} {entries : List (List Char)} {told : List α}
      (hentry : tells entry x) (hrest : TellTogether tells entries told) :
      TellTogether tells (entry :: entries) (x :: told)
  /-- An entry that tells nothing is passed over. -/
  | silent {entry : List Char} {entries : List (List Char)} {told : List α}
      (hentry : ∀ x, ¬tells entry x) (hrest : TellTogether tells entries told) :
      TellTogether tells (entry :: entries) told

/-- A list is its entries with commas between them, and stands for what they tell. -/
def IsListOf (tells : List Char → α → Prop) (value : List Char) (told : List α) : Prop :=
  ∃ entries, entries ≠ [] ∧ (∀ entry ∈ entries, ',' ∉ entry) ∧
    value = [','].intercalate entries ∧ TellTogether tells entries told

theorem filterMap_eq_iff_tellTogether (htells : ∀ entry x, tells? entry = some x ↔ tells entry x) :
    entries.filterMap tells? = told ↔ TellTogether tells entries told := by
  induction entries generalizing told with
  | nil =>
    constructor
    · rintro rfl
      exact .nil
    · rintro ⟨⟩
      rfl
  | cons entry rest ih =>
    cases hentry : tells? entry with
    | none =>
      -- The entry tells nothing, so it can only have been passed over.
      have hsilent : ∀ x, ¬tells entry x := fun x hx => by
        rw [← htells, hentry] at hx
        cases hx
      rw [List.filterMap_cons_none hentry, ih]
      constructor
      · exact .silent hsilent
      · rintro (_ | ⟨htold, _⟩ | ⟨_, hrest⟩)
        · exact absurd htold (hsilent _)
        · exact hrest
    | some x =>
      -- The entry tells something, and nothing else than that.
      rw [List.filterMap_cons_some hentry]
      constructor
      · rintro rfl
        exact .told ((htells entry x).mp hentry) (ih.mp rfl)
      · intro htogether
        cases htogether with
        | told hx hrest =>
          obtain rfl : x = _ := Option.some.inj (hentry.symm.trans ((htells _ _).mpr hx))
          rw [ih.mpr hrest]
        | silent hsilent => exact absurd ((htells entry x).mp hentry) (hsilent x)

/-- **Lists are read exactly as the grammar has them** if their entries are. -/
theorem filterMap_splitOn_eq_iff (htells : ∀ entry x, tells? entry = some x ↔ tells entry x) :
    (value.splitOn ',').filterMap tells? = told ↔ IsListOf tells value told := by
  constructor
  · intro htold
    exact ⟨_, List.splitOn_ne_nil ',' value, fun _ hmem => not_mem_of_mem_splitOn hmem,
      (List.intercalate_splitOn ',').symm, (filterMap_eq_iff_tellTogether htells).mp htold⟩
  · rintro ⟨entries, hne, hcommas, rfl, htogether⟩
    rw [List.splitOn_intercalate ',' hcommas hne, filterMap_eq_iff_tellTogether htells]
    exact htogether

/-- An entry tells a number, which may have blanks around it. -/
def TellsNumber (entry : List Char) (n : Int32) : Prop :=
  ∃ body, HasBlanksAround entry body ∧ IsIntegerOf body n.toInt

/-- An entry tells a token, which may have blanks around it and is not empty. -/
def TellsToken (entry : List Char) (token : String) : Prop :=
  ∃ body, HasBlanksAround entry body ∧ IsSolid body ∧ token.toList = body

end Text

namespace Setting

/-- **Numbers are read exactly where the grammar has one.** -/
theorem int64?_eq_some_iff {value : List Char} {n : Int64} :
    int64? value = some n ↔ IsIntegerOf value n.toInt := by
  simp only [int64?, Option.bind_eq_some_iff, readInteger?_eq_some_iff, Word.toInt64?_eq_some_iff,
    exists_eq_right']

/-- **Lists of numbers are read exactly as the grammar has them.** -/
theorem int32s_eq_iff {value : List Char} {numbers : List Int32} :
    int32s value = numbers ↔ IsListOf TellsNumber value numbers := by
  apply filterMap_splitOn_eq_iff
  intro entry n
  unfold TellsNumber
  rw [exists_hasBlanksAround_iff fun _ hinteger =>
    isSolid_of_forall hinteger.ne_nil fun _ hmem => hinteger.not_blank hmem]
  simp only [Option.bind_eq_some_iff, readInteger?_eq_some_iff, Word.toInt32?_eq_some_iff,
    exists_eq_right']

example : int32s " 1,x,,+2, -3".toList = [1, 2, -3] := by decide

end Setting

namespace Part

/-- **Lists of tokens are read exactly as the grammar has them.** -/
theorem readTokens_eq_iff {value : List Char} {tokens : List String} :
    readTokens value = tokens ↔ IsListOf TellsToken value tokens := by
  have hread : readTokens value = (value.splitOn ',').filterMap fun entry =>
      if trim entry = [] then none else some (String.ofList (trim entry)) := by
    unfold readTokens Part.entries
    rw [← List.filterMap_eq_map, List.filterMap_filter, List.filterMap_map]
    refine List.filterMap_congr fun entry _ => ?_
    rw [Function.comp_apply]
    cases trim entry <;> rfl
  rw [hread]
  apply filterMap_splitOn_eq_iff
  intro entry token
  unfold TellsToken
  rw [exists_hasBlanksAround_iff fun _ hbody => hbody.1]
  split
  · -- Nothing but blanks is no token, since a token is not empty.
    rename_i hblank
    simp only [reduceCtorEq, false_iff, hblank]
    exact fun hsolid => hsolid.1.1 rfl
  · rename_i hsome
    rw [Option.some.injEq]
    constructor
    · rintro rfl
      exact ⟨⟨hsome, isTrimmed_trim entry⟩, String.toList_ofList⟩
    · rintro ⟨-, htoken⟩
      rw [← htoken, String.ofList_toList]

end Part

end RecurringDates
