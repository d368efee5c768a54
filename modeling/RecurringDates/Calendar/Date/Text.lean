import RecurringDates.Calendar.Date
import RecurringDates.Text.Decimal

/-!
# Dates in text

A date is written year, month, day: `2024-01-05` with dashes, `20240105` without. The years 0 to
9999 have four digits and no sign, all others a sign and at least four digits.

Reading is more generous than writing: blanks may stand before each number and each dash and after
the day, a month and a day may have one digit, and a year may have fewer digits than four or,
after a sign, any number of them.

The main statement says that a written date reads back (`Date.read?_write`).
-/

namespace RecurringDates.Date

open RecurringDates.Text

/-! ## §1 Writing -/

/-- The text of a year. -/
def writeYear (year : Int) : List Char :=
  if year < 0 then '-' :: writePadded 4 year.natAbs
  else if year ≤ 9999 then writePadded 4 year.natAbs
  else '+' :: writePadded 4 year.natAbs

/-- The text of a date with a separator between year, month and day. -/
def writeWith (separator : List Char) (date : Date) : List Char :=
  writeYear date.year ++ separator ++ writePadded 2 date.month.number.toNat ++ separator
    ++ writePadded 2 date.day.toNat

/-- The text of a date with dashes. -/
def write (date : Date) : String :=
  String.ofList (date.writeWith ['-'])

/-- The text of a date without dashes. -/
def writeCompact (date : Date) : String :=
  String.ofList (date.writeWith [])

/-! ## §2 Reading -/

/-- The year at the front of a text and what follows it: after a sign any number of digits,
without one at most four. -/
def scanYear? (text : List Char) : Option (Int × List Char) :=
  match trimFront text with
  | '+' :: digits =>
    match spanDigits digits.length digits with
    | ([], _) => none
    | (year, rest) => some ((digitsValue year : Int), rest)
  | '-' :: digits =>
    match spanDigits digits.length digits with
    | ([], _) => none
    | (year, rest) => some (-(digitsValue year : Int), rest)
  | digits =>
    match spanDigits 4 digits with
    | ([], _) => none
    | (year, rest) => some ((digitsValue year : Int), rest)

/-- The date that a text with dashes stands for. -/
def read? (text : String) : Option Date :=
  match scanYear? text.toList with
  | none => none
  | some (year, rest) =>
  match scanChar? '-' rest with
  | none => none
  | some rest =>
  match scanNumber? 2 rest with
  | none => none
  | some (number, rest) =>
  match scanChar? '-' rest with
  | none => none
  | some rest =>
  match scanNumber? 2 rest with
  | none => none
  | some (day, rest) =>
    if trimFront rest = [] then ofYearMonthDay? year number day else none

/-- The date that a text without dashes stands for, if it has exactly eight digits. -/
def readCompact? (text : List Char) : Option Date :=
  if text.length = 8 ∧ text.all Char.isDigit then
    ofYearMonthDay? (digitsValue (text.take 4)) (digitsValue ((text.drop 4).take 2))
      (digitsValue (text.drop 6))
  else none

/-- A text without dashes is read in three pieces, each of its own width. -/
theorem readCompact?_eq_some_iff_pieces {text : List Char} {date : Date} :
    readCompact? text = some date ↔ ∃ years months days, text = years ++ months ++ days ∧
      (years.length = 4 ∧ months.length = 2 ∧ days.length = 2) ∧
      text.all Char.isDigit = true ∧
      date.year = digitsValue years ∧ date.month.number = digitsValue months ∧
        date.day = digitsValue days := by
  constructor
  · intro hread
    unfold readCompact? at hread
    split at hread
    · rename_i hdigits
      refine ⟨text.take 4, (text.drop 4).take 2, text.drop 6, ?_, ?_, hdigits.2,
        ofYearMonthDay?_eq_some_iff.mp hread⟩
      · have hdays : text.drop (4 + 2) = (text.drop 4).drop 2 := List.drop_drop.symm
        rw [List.append_assoc, hdays, List.take_append_drop, List.take_append_drop]
      · simp only [List.length_take, List.length_drop, hdigits.1]
        decide
    · cases hread
  · rintro ⟨years, months, days, rfl, ⟨hyears, hmonths, hdays⟩, hall, hdate⟩
    have hfront : (years ++ months).length = 6 := by
      rw [List.length_append, hyears, hmonths]
    have hlength : (years ++ months ++ days).length = 8 := by
      rw [List.length_append, hfront, hdays]
    unfold readCompact?
    -- Each piece is cut out as it stands.
    rw [if_pos ⟨hlength, hall⟩, List.drop_left' hfront, List.append_assoc, List.take_left' hyears,
      List.drop_left' hyears, List.take_left' hmonths]
    exact ofYearMonthDay?_eq_some_iff.mpr hdate

/-! ## §3 Reading what was written -/

private theorem spanDigits_year {digits rest : List Char} (limit : Nat)
    (hdigits : digits.all Char.isDigit = true) (hfits : digits.length ≤ limit) :
    spanDigits limit (digits ++ '-' :: rest) = (digits, '-' :: rest) := by
  refine spanDigits_append hdigits hfits (Or.inr ?_)
  intro c h
  cases h
  decide

private theorem scanYear?_writeYear (year : Int) (rest : List Char) :
    scanYear? (writeYear year ++ '-' :: rest) = some (year, '-' :: rest) := by
  have hdigits := all_isDigit_writePadded 4 year.natAbs
  have hne := writePadded_ne_nil 4 year.natAbs
  have hvalue := digitsValue_writePadded 4 year.natAbs
  have hsize : year.natAbs < 10000 → (writePadded 4 year.natAbs).length = 4 :=
    fun h => length_writePadded (length_writeDigits_le_four h)
  unfold writeYear
  generalize writePadded 4 year.natAbs = text at *
  split
  · -- A year before 0 has a minus sign, after which every digit counts.
    unfold scanYear?
    rw [List.cons_append, trimFront_of_head (by decide)]
    simp only
    rw [spanDigits_year _ hdigits (by simp only [List.length_append]; omega)]
    cases text with
    | nil => exact absurd rfl hne
    | cons c text =>
      simp only [hvalue, Option.some.injEq, Prod.mk.injEq, and_true]
      omega
  · split
    · -- A year of four digits has no sign, and the dash stands right after them.
      have hlength := hsize (by omega)
      unfold scanYear?
      rw [trimFront_digits hdigits hne]
      cases text with
      | nil => exact absurd rfl hne
      | cons c text =>
        have hdigit : c.isDigit = true := by simp at hdigits; exact hdigits.1
        have hspan : spanDigits 4 ((c :: text) ++ '-' :: rest) = (c :: text, '-' :: rest) :=
          spanDigits_year 4 hdigits (by omega)
        rw [List.cons_append] at hspan ⊢
        split
        · rename_i heq
          cases heq
          exact absurd hdigit (by decide)
        · rename_i heq
          cases heq
          exact absurd hdigit (by decide)
        · rw [hspan]
          simp only [hvalue, Option.some.injEq, Prod.mk.injEq, and_true]
          omega
    · -- A later year has a plus sign.
      unfold scanYear?
      rw [List.cons_append, trimFront_of_head (by decide)]
      simp only
      rw [spanDigits_year _ hdigits (by simp only [List.length_append]; omega)]
      cases text with
      | nil => exact absurd rfl hne
      | cons c text =>
        simp only [hvalue, Option.some.injEq, Prod.mk.injEq, and_true]
        omega

/-- **A written date reads back.** -/
theorem read?_write (date : Date) : read? date.write = some date := by
  have hnumber_pos := date.month.number_pos
  have hnumber_le := date.month.number_le
  have hday_pos := date.day_pos
  have hday_le := date.day_le
  have hlength_le := date.month.length_le
  have hparts : ofYearMonthDay? date.year (date.month.number.toNat : Int) (date.day.toNat : Int)
      = some date := by
    rw [Int.toNat_of_nonneg (by omega), Int.toNat_of_nonneg (by omega)]
    exact ofYearMonthDay?_parts date
  have hsecond : writePadded 2 date.day.toNat = writePadded 2 date.day.toNat ++ [] := by simp
  -- Year, dash, month, dash and day are scanned off the front one after the other.
  unfold read? write writeWith
  rw [String.toList_ofList, hsecond]
  simp only [List.append_assoc, List.cons_append, List.nil_append]
  rw [scanYear?_writeYear]
  simp only [scanChar?_cons (show isBlank '-' = false by decide)]
  rw [scanNumber?_writePadded (length_writeDigits_le_two (by omega))]
  simp only [scanChar?_cons (show isBlank '-' = false by decide)]
  rw [scanNumber?_writePadded (length_writeDigits_le_two (by omega))]
  simp only [trimFront, List.dropWhile_nil]
  exact hparts

end RecurringDates.Date
