import Mathlib.Data.List.TakeWhile
import RecurringDates.Proofs.SolidText
import RecurringDates.Rule.Text

/-!
# Parts in text

Each part of a rule has a text, its key, `=` and its value. A part can be told from its text again
unless a separator got into a token or a year does not fit into four digits; parts that were read
out of a text have neither fault.

The main statements are `Part.read_write` (a plain part reads back from its text) and
`Part.isPlain_of_read` (a part that was read is plain).
-/

namespace RecurringDates

open RecurringDates.Text

/-! ## §1 Values -/

/-- A token that a list of tokens gives back: blanks may stand inside it but not at its ends, and it
holds no separator. -/
def IsPlainToken (token : String) : Prop :=
  IsSolid token.toList ∧ ',' ∉ token.toList ∧ ';' ∉ token.toList

/-- A date whose year has four digits and no sign in text. -/
def Date.HasPlainYear (date : Date) : Prop :=
  0 ≤ date.year ∧ date.year ≤ 9999

namespace Date

variable {date : Date}

theorem writeWith_nil_eq (hyear : date.HasPlainYear) :
    date.writeWith [] = writePadded 4 date.year.toNat
      ++ (writePadded 2 date.month.number.toNat ++ writePadded 2 date.day.toNat) := by
  obtain ⟨hlow, hhigh⟩ := hyear
  unfold writeWith writeYear
  rw [if_neg (Int.not_lt.mpr hlow), if_pos hhigh]
  simp only [List.append_nil, List.append_assoc]
  congr 2
  omega

theorem isDigit_of_mem_writeWith_nil (hyear : date.HasPlainYear) {c : Char}
    (hmem : c ∈ date.writeWith []) : c.isDigit = true := by
  have hdigits : ∀ width n, ∀ c ∈ writePadded width n, c.isDigit = true := fun width n =>
    List.all_eq_true.mp (all_isDigit_writePadded width n)
  rw [writeWith_nil_eq hyear, List.mem_append, List.mem_append] at hmem
  rcases hmem with hmem | hmem | hmem
  · exact hdigits _ _ c hmem
  · exact hdigits _ _ c hmem
  · exact hdigits _ _ c hmem

/-- **A date reads back from its eight digits.** -/
theorem readCompact?_writeWith (hyear : date.HasPlainYear) :
    readCompact? (date.writeWith []) = some date := by
  have hall : (date.writeWith []).all Char.isDigit = true :=
    List.all_eq_true.mpr fun _ hmem => isDigit_of_mem_writeWith_nil hyear hmem
  obtain ⟨hlow, hhigh⟩ := id hyear
  have hnumber := date.month.number_pos
  have hnumber' := date.month.number_le
  have hday := date.day_pos
  have hday' := date.day_le
  have hlength := date.month.length_le
  -- Year, month and day fill four, two and two characters, so each is cut out as it was written.
  have hyears : (writePadded 4 date.year.toNat).length = 4 :=
    length_writePadded (length_writeDigits_le_four (by omega))
  have hmonths : (writePadded 2 date.month.number.toNat).length = 2 :=
    length_writePadded (length_writeDigits_le_two (by omega))
  have hdays : (writePadded 2 date.day.toNat).length = 2 :=
    length_writePadded (length_writeDigits_le_two (by omega))
  refine readCompact?_eq_some_iff_pieces.mpr ⟨_, _, _, ?_, ⟨hyears, hmonths, hdays⟩, hall, ?_⟩
  · rw [writeWith_nil_eq hyear, List.append_assoc]
  · simp only [digitsValue_writePadded]
    omega

/-- Eight digits name no other years than those of four digits. -/
theorem hasPlainYear_of_readCompact? {text : List Char} (hread : readCompact? text = some date) :
    date.HasPlainYear := by
  obtain ⟨years, months, days, rfl, ⟨hyears, _⟩, hall, hyear, _⟩ :=
    readCompact?_eq_some_iff_pieces.mp hread
  -- The year is what the first four digits say.
  have hvalue : digitsValue years ≤ 9999 := by
    apply digitsValue_le_of_length_four hyears
    intro c hc
    exact List.all_eq_true.mp hall c (List.mem_append_left _ (List.mem_append_left _ hc))
  rw [HasPlainYear, hyear]
  omega

end Date

namespace Part

theorem readInt64_writeInteger (key : Key) (n : Int64) :
    readInt64 key (writeInteger n.toInt) = .ok n := by
  unfold readInt64
  rw [readInteger?_writeInteger, Option.bind_some, Word.toInt64?_eq_some_iff.mpr rfl]

/-- No digit is the letter that a time of day begins with. -/
theorem bne_of_isDigit {c : Char} (hdigit : c.isDigit = true) :
    (c != 'T' && c != 't') = true := by
  rw [Bool.and_eq_true, bne_iff_ne, bne_iff_ne]
  constructor
  · rintro rfl
    exact absurd hdigit (by decide)
  · rintro rfl
    exact absurd hdigit (by decide)

theorem readUntil_writeWith {date : Date} (hyear : date.HasPlainYear) :
    readUntil (date.writeWith []) = .ok date := by
  -- Digits alone hold no time of day that would be cut off.
  have hwhole : (date.writeWith []).takeWhile (fun c => c != 'T' && c != 't')
      = date.writeWith [] := by
    rw [List.takeWhile_eq_self_iff]
    exact fun _ hmem => bne_of_isDigit (Date.isDigit_of_mem_writeWith_nil hyear hmem)
  unfold readUntil
  rw [hwhole, Date.readCompact?_writeWith hyear]

theorem hasPlainYear_of_readUntil {value : List Char} {date : Date}
    (hread : readUntil value = .ok date) : date.HasPlainYear := by
  unfold readUntil at hread
  split at hread
  · rename_i found hfound
    cases hread
    exact Date.hasPlainYear_of_readCompact? hfound
  · cases hread

/-- The entries of a list are the pieces that it was put together from. -/
theorem entries_intercalate {pieces : List (List Char)}
    (hall : ∀ piece ∈ pieces, IsSolid piece ∧ ',' ∉ piece) :
    entries ([','].intercalate pieces) = pieces := by
  by_cases hne : pieces = []
  · rw [hne]
    rfl
  · -- The pieces are split where they were joined, and neither trimming nor dropping touches them.
    unfold entries
    rw [List.splitOn_intercalate ',' (fun piece hpiece => (hall piece hpiece).2) hne,
      List.map_congr_left fun piece hpiece => (hall piece hpiece).1.trim_eq, List.map_id',
      List.filter_eq_self]
    intro piece hpiece
    simpa using (hall piece hpiece).1.1

theorem readInt32s_writeInt32s (numbers : List Int32) :
    readInt32s (Rule.writeInt32s numbers) = numbers := by
  have hentries : entries (Rule.writeInt32s numbers)
      = numbers.map fun n => writeInteger n.toInt := by
    apply entries_intercalate
    intro piece hpiece
    obtain ⟨n, _, rfl⟩ := List.mem_map.mp hpiece
    refine ⟨isSolid_writeInteger n.toInt, fun hcomma => ?_⟩
    exact (isNumeral_of_mem_writeInteger hcomma).ne_of_not (by decide) (by decide) rfl
  unfold readInt32s
  rw [hentries, List.filterMap_map]
  have hread : ∀ n : Int32,
      (readInteger? (writeInteger n.toInt)).bind Word.toInt32? = some n := by
    intro n
    rw [readInteger?_writeInteger, Option.bind_some, Word.toInt32?_eq_some_iff.mpr rfl]
  simp only [Function.comp_def, hread, List.filterMap_some]

theorem readTokens_intercalate {tokens : List String}
    (hplain : ∀ token ∈ tokens, IsPlainToken token) :
    readTokens ([','].intercalate (tokens.map String.toList)) = tokens := by
  -- A plain token is solid and has no comma, so its text is an entry.
  have hentries : entries ([','].intercalate (tokens.map String.toList))
      = tokens.map String.toList := by
    apply entries_intercalate
    intro piece hpiece
    obtain ⟨token, htoken, rfl⟩ := List.mem_map.mp hpiece
    exact ⟨(hplain token htoken).1, (hplain token htoken).2.1⟩
  unfold readTokens
  rw [hentries, List.map_map]
  simp only [Function.comp_def, String.ofList_toList, List.map_id']

/-- The tokens of a list that was read are plain if no semicolon stood in its text. -/
theorem isPlainToken_of_mem_readTokens {value : List Char} {token : String}
    (hvalue : ';' ∉ value) (hmem : token ∈ readTokens value) : IsPlainToken token := by
  obtain ⟨entry, hentry, rfl⟩ := List.mem_map.mp hmem
  obtain ⟨hentry, hsome⟩ := List.mem_filter.mp hentry
  -- The token is a piece between commas without the blanks at its ends.
  obtain ⟨piece, hpiece, rfl⟩ := List.mem_map.mp hentry
  rw [IsPlainToken, String.toList_ofList]
  refine ⟨⟨by simpa using hsome, isTrimmed_trim piece⟩, fun hcomma => ?_, fun hsemicolon => ?_⟩
  · exact not_mem_of_mem_splitOn hpiece (mem_of_mem_trim hcomma)
  · exact hvalue (mem_of_mem_splitOn hpiece (mem_of_mem_trim hsemicolon))

/-! ## §2 Parts -/

/-- The key under which a part stands. -/
def key : Part → Key
  | .frequency _ => .frequency
  | .interval _ => .interval
  | .count _ => .count
  | .untilDate _ => .untilDate
  | .byDay _ => .byDay
  | .byMonthDay _ => .byMonthDay
  | .byYearDay _ => .byYearDay
  | .byWeekNo _ => .byWeekNo
  | .byMonth _ => .byMonth
  | .bySetPos _ => .bySetPos
  | .weekStart _ => .weekStart

/-- The text of what a part sets. -/
def value : Part → List Char
  | .frequency unit => unit.name.toList
  | .interval n => writeInteger n.toInt
  | .count n => writeInteger n.toInt
  | .untilDate date => date.writeWith []
  | .byDay tokens => [','].intercalate (tokens.map String.toList)
  | .byMonthDay days => Rule.writeInt32s days
  | .byYearDay days => Rule.writeInt32s days
  | .byWeekNo weeks => Rule.writeInt32s weeks
  | .byMonth months => Rule.writeInt32s months
  | .bySetPos positions => Rule.writeInt32s positions
  | .weekStart weekday => weekday.code.toList

/-- The text of a part. -/
def write (part : Part) : List Char :=
  Rule.writePart part.key part.value

/-- A part that its text gives back. -/
def IsPlain : Part → Prop
  | .untilDate date => date.HasPlainYear
  | .byDay tokens => ∀ token ∈ tokens, IsPlainToken token
  | _ => True

variable {part : Part}

theorem ofKey_value (hplain : part.IsPlain) : ofKey part.key part.value = .ok (some part) := by
  cases part with
  | frequency unit => simp only [key, value, ofKey, Frequency.read?_name]
  | interval n => simp only [key, value, ofKey, readInt64_writeInteger]
  | count n => simp only [key, value, ofKey, readInt64_writeInteger]
  | untilDate date => simp only [key, value, ofKey, readUntil_writeWith hplain]
  | byDay tokens => simp only [key, value, ofKey, readTokens_intercalate hplain]
  | byMonthDay days => simp only [key, value, ofKey, readInt32s_writeInt32s]
  | byYearDay days => simp only [key, value, ofKey, readInt32s_writeInt32s]
  | byWeekNo weeks => simp only [key, value, ofKey, readInt32s_writeInt32s]
  | byMonth months => simp only [key, value, ofKey, readInt32s_writeInt32s]
  | bySetPos positions => simp only [key, value, ofKey, readInt32s_writeInt32s]
  | weekStart weekday => simp only [key, value, ofKey, Weekday.ofCode?_code, Option.map_some]

/-- The value of a part is empty or has no blank at its ends. -/
theorem value_eq_nil_or_isSolid (hplain : part.IsPlain) :
    part.value = [] ∨ IsSolid part.value := by
  have hnumbers : ∀ numbers,
      Rule.writeInt32s numbers = [] ∨ IsSolid (Rule.writeInt32s numbers) := by
    intro numbers
    cases numbers with
    | nil => exact Or.inl rfl
    | cons n rest =>
      refine Or.inr (isSolid_intercalate (List.cons_ne_nil _ _) fun piece hpiece => ?_)
      obtain ⟨m, _, rfl⟩ := List.mem_map.mp hpiece
      exact isSolid_writeInteger m.toInt
  cases part with
  | frequency unit =>
    refine Or.inr (isSolid_of_all ?_ ?_) <;> cases unit <;> decide
  | interval n => exact Or.inr (isSolid_writeInteger n.toInt)
  | count n => exact Or.inr (isSolid_writeInteger n.toInt)
  | untilDate date =>
    -- A text of digits has no blank in it at all.
    refine Or.inr (isSolid_of_forall ?_ fun c hmem => ?_)
    · rw [Part.value, Date.writeWith_nil_eq hplain]
      exact List.append_ne_nil_of_left_ne_nil (writePadded_ne_nil _ _) _
    · exact isDigit_not_blank (Date.isDigit_of_mem_writeWith_nil hplain hmem)
  | byDay tokens =>
    cases tokens with
    | nil => exact Or.inl rfl
    | cons token rest =>
      refine Or.inr (isSolid_intercalate (List.cons_ne_nil _ _) fun piece hpiece => ?_)
      obtain ⟨other, hother, rfl⟩ := List.mem_map.mp hpiece
      exact (hplain other hother).1
  | byMonthDay days => exact hnumbers days
  | byYearDay days => exact hnumbers days
  | byWeekNo weeks => exact hnumbers weeks
  | byMonth months => exact hnumbers months
  | bySetPos positions => exact hnumbers positions
  | weekStart weekday =>
    refine Or.inr (isSolid_of_all ?_ ?_) <;> cases weekday <;> decide

/-- The value of a part holds no separator of parts. -/
theorem semicolon_not_mem_value (hplain : part.IsPlain) : ';' ∉ part.value := by
  -- Neither a number nor the commas between numbers are semicolons.
  have hinteger : ∀ n, ';' ∉ writeInteger n := fun n hmem =>
    (isNumeral_of_mem_writeInteger hmem).ne_of_not (by decide) (by decide) rfl
  have hnumbers : ∀ numbers, ';' ∉ Rule.writeInt32s numbers := by
    intro numbers hmem
    rcases mem_or_mem_of_mem_intercalate hmem with hseparator | ⟨piece, hpiece, hmem⟩
    · exact absurd hseparator (by decide)
    · obtain ⟨n, _, rfl⟩ := List.mem_map.mp hpiece
      exact hinteger n.toInt hmem
  cases part with
  | frequency unit => cases unit <;> decide
  | interval n => exact hinteger n.toInt
  | count n => exact hinteger n.toInt
  | untilDate date =>
    intro hmem
    exact absurd (Date.isDigit_of_mem_writeWith_nil hplain hmem) (by decide)
  | byDay tokens =>
    intro hmem
    rcases mem_or_mem_of_mem_intercalate hmem with hseparator | ⟨piece, hpiece, hmem⟩
    · exact absurd hseparator (by decide)
    · -- A plain token has no semicolon.
      obtain ⟨token, htoken, rfl⟩ := List.mem_map.mp hpiece
      exact (hplain token htoken).2.2 hmem
  | byMonthDay days => exact hnumbers days
  | byYearDay days => exact hnumbers days
  | byWeekNo weeks => exact hnumbers weeks
  | byMonth months => exact hnumbers months
  | bySetPos positions => exact hnumbers positions
  | weekStart weekday => cases weekday <;> decide

theorem isSolid_name (key : Key) : IsSolid key.name.toList := by
  refine isSolid_of_all ?_ ?_ <;> cases key <;> decide

theorem isSolid_write (hplain : part.IsPlain) : IsSolid part.write := by
  rcases value_eq_nil_or_isSolid hplain with hvalue | hvalue
  · -- Without a value the text ends with `=`.
    have hequals : IsSolid ['='] := isSolid_of_all (by decide) (by decide)
    have hsolid := (isSolid_name part.key).append hequals []
    rwa [write, Rule.writePart, hvalue, ← List.append_nil part.key.name.toList]
  · have hsolid := (isSolid_name part.key).append hvalue ['=']
    rwa [List.append_assoc] at hsolid

theorem semicolon_not_mem_write (hplain : part.IsPlain) : ';' ∉ part.write := by
  have hname : ∀ key : Key, ';' ∉ key.name.toList := by
    intro key
    cases key <;> decide
  rw [write, Rule.writePart, List.mem_append, List.mem_cons]
  rintro (hmem | heq | hmem)
  · exact hname part.key hmem
  · exact absurd heq (by decide)
  · exact semicolon_not_mem_value hplain hmem

private theorem bne_of_not_mem {c : Char} {text : List Char} (habsent : c ∉ text) :
    ∀ d ∈ text, (d != c) = true := by
  intro d hmem
  rw [bne_iff_ne]
  rintro rfl
  exact habsent hmem

/-- A segment is split at its first `=`. -/
theorem keyAndValue?_append_equals {front : List Char} (hfront : '=' ∉ front) (back : List Char) :
    keyAndValue? (front ++ '=' :: back) = some (trim front, trim back) := by
  unfold keyAndValue?
  rw [List.dropWhile_append_of_pos (bne_of_not_mem hfront),
    List.takeWhile_append_of_pos (bne_of_not_mem hfront)]
  simp

theorem keyAndValue?_of_equals_not_mem {segment : List Char} (hsegment : '=' ∉ segment) :
    keyAndValue? segment = none := by
  unfold keyAndValue?
  rw [List.dropWhile_eq_nil_iff.mpr (bne_of_not_mem hsegment)]

/-- The name stands before the first `=` of a segment and the value behind it, each with or without
blanks around it. -/
theorem keyAndValue?_eq_some_iff {segment name value : List Char} :
    keyAndValue? segment = some (name, value) ↔ ∃ front back, segment = front ++ '=' :: back ∧
      '=' ∉ front ∧ trim front = name ∧ trim back = value := by
  constructor
  · intro hsplit
    by_cases hmem : '=' ∈ segment
    · -- The first `=` is where the segment is split.
      obtain ⟨front, back, rfl, hfront⟩ := List.eq_append_cons_of_mem hmem
      rw [keyAndValue?_append_equals hfront, Option.some.injEq, Prod.mk.injEq] at hsplit
      exact ⟨front, back, rfl, hfront, hsplit⟩
    · rw [keyAndValue?_of_equals_not_mem hmem] at hsplit
      cases hsplit
  · rintro ⟨front, back, rfl, hfront, rfl, rfl⟩
    exact keyAndValue?_append_equals hfront back

/-- No key contains `=`. -/
theorem keyAndValue?_writePart (key : Key) {value : List Char} (hvalue : trim value = value) :
    keyAndValue? (Rule.writePart key value) = some (key.name.toList, value) := by
  have hname : '=' ∉ key.name.toList := by
    cases key <;> decide
  rw [Rule.writePart, keyAndValue?_append_equals hname, (isSolid_name key).trim_eq, hvalue]

/-- **A plain part reads back from its text.** -/
theorem read_write (hplain : part.IsPlain) : read part.write = .ok (some part) := by
  -- The name is trimmed of nothing, and so is the value.
  have hvalue : trim part.value = part.value := by
    rcases value_eq_nil_or_isSolid hplain with hnil | hsolid
    · rw [hnil]
      rfl
    · exact hsolid.trim_eq
  unfold read write
  rw [keyAndValue?_writePart part.key hvalue]
  simp only [Key.read?_name]
  exact ofKey_value hplain

/-- A value holds only characters of the segment that it stands in. -/
theorem mem_of_keyAndValue? {segment name value : List Char}
    (hsplit : keyAndValue? segment = some (name, value)) {c : Char} (hmem : c ∈ value) :
    c ∈ segment := by
  unfold keyAndValue? at hsplit
  split at hsplit
  · cases hsplit
  · rename_i equals rest hrest
    cases hsplit
    -- The value stands behind the first `=`, at the end of the segment.
    have hsuffix : rest <:+ segment :=
      (List.suffix_cons equals rest).trans (hrest ▸ List.dropWhile_suffix _)
    exact hsuffix.subset (mem_of_mem_trim hmem)

/-- What a value sets is plain if no semicolon stands in it: eight digits name a plain year, and a
list of tokens is split at every comma. -/
theorem isPlain_of_ofKey {key : Key} {value : List Char} (hvalue : ';' ∉ value)
    (hread : ofKey key value = .ok (some part)) : part.IsPlain := by
  -- Only dates and tokens can fail to be plain.
  cases key with
  | untilDate =>
    simp only [ofKey] at hread
    split at hread
    · rename_i date hdate
      cases hread
      exact hasPlainYear_of_readUntil hdate
    · cases hread
  | byDay =>
    cases hread
    exact fun token hmem => isPlainToken_of_mem_readTokens hvalue hmem
  | frequency | interval | count =>
    -- These values are read or refused, and no text of theirs is kept.
    simp only [ofKey] at hread
    split at hread <;> cases hread
    exact True.intro
  | byMonthDay | byYearDay | byWeekNo | byMonth | bySetPos =>
    cases hread
    exact True.intro
  | weekStart =>
    -- Of a week start only the weekday is kept.
    obtain ⟨weekday, _, rfl⟩ := Option.map_eq_some_iff.mp (Except.ok.inj hread)
    exact True.intro

/-- **What is read is plain.** -/
theorem isPlain_of_read {segment : List Char} (hsegment : ';' ∉ segment)
    (hread : read segment = .ok (some part)) : part.IsPlain := by
  unfold read at hread
  split at hread
  · cases hread
  · rename_i name value hsplit
    split at hread
    · cases hread
    · exact isPlain_of_ofKey (fun hmem => hsegment (mem_of_keyAndValue? hsplit hmem)) hread

end Part

end RecurringDates
