import RecurringDates.Text.Decimal

/-!
# Times of day

A time of day has hours, minutes, seconds and billionths of a second; second 60 is a leap second.
It is written `23:00:00`, with a fraction of three, six or nine digits where there is one: the
fewest that lose nothing.

Reading is more generous than writing: blanks may stand before each number, before each colon and
at the end, a number may have one digit, the seconds may be missing, and a fraction of any length
is cut after nine digits.

The main statement says that a written time reads back (`TimeOfDay.read?_write`).
-/

namespace RecurringDates

open RecurringDates.Text

/-- A time of day. A leap second comes after second 59 of a minute and nowhere else. A fraction of a
whole second or more at another second, which has the text of a time in the next second, is left
out. -/
structure TimeOfDay where
  hour : Nat
  minute : Nat
  /-- The second, 60 for a leap second. -/
  second : Nat
  /-- The billionths of a second. -/
  nanosecond : Nat
  hour_lt : hour < 24
  minute_lt : minute < 60
  second_le : second ≤ 60
  nanosecond_lt : nanosecond < 1000000000
deriving DecidableEq

namespace TimeOfDay

/-- The time with the given parts, if they are in range. -/
def ofParts? (hour minute second nanosecond : Nat) : Option TimeOfDay :=
  if h : hour < 24 ∧ minute < 60 ∧ second ≤ 60 ∧ nanosecond < 1000000000 then
    some ⟨hour, minute, second, nanosecond, h.1, h.2.1, h.2.2.1, h.2.2.2⟩
  else none

/-! ## §1 Writing -/

/-- The text of a fraction of a second. -/
def writeFraction (nanosecond : Nat) : List Char :=
  if nanosecond = 0 then []
  else if nanosecond % 1000000 = 0 then '.' :: writePadded 3 (nanosecond / 1000000)
  else if nanosecond % 1000 = 0 then '.' :: writePadded 6 (nanosecond / 1000)
  else '.' :: writePadded 9 nanosecond

/-- The text of a time of day. -/
def write (time : TimeOfDay) : String :=
  String.ofList (writePadded 2 time.hour ++ ':' :: (writePadded 2 time.minute ++
    ':' :: (writePadded 2 time.second ++ writeFraction time.nanosecond)))

/-! ## §2 Reading -/

/-- The billionths of a second that the digits of a fraction stand for, at most nine of them. -/
def fractionValue (digits : List Char) : Nat :=
  digitsValue (digits ++ List.replicate (9 - digits.length) '0')

/-- The billionths of a second at the front of a text, none if no point stands there, and what
follows them. -/
def scanFraction? : List Char → Option (Nat × List Char)
  | '.' :: text =>
    match spanDigits 9 text with
    | ([], _) => none
    | (digits, rest) => some (fractionValue digits, rest.dropWhile Char.isDigit)
  | text => some (0, text)

/-- The seconds and billionths at the front of a text, with the colon before them, if nothing but
blanks follows them. -/
def readSeconds? (text : List Char) : Option (Nat × Nat) :=
  match scanChar? ':' text with
  | none => none
  | some rest =>
  match scanNumber? 2 rest with
  | none => none
  | some (second, rest) =>
  match scanFraction? rest with
  | none => none
  | some (nanosecond, rest) =>
    if trimFront rest = [] then some (second, nanosecond) else none

/-- The time of day that a text stands for. -/
def read? (text : String) : Option TimeOfDay :=
  match scanNumber? 2 text.toList with
  | none => none
  | some (hour, rest) =>
  match scanChar? ':' rest with
  | none => none
  | some rest =>
  match scanNumber? 2 rest with
  | none => none
  | some (minute, rest) =>
    if trimFront rest = [] then ofParts? hour minute 0 0
    else match readSeconds? rest with
      | none => none
      | some (second, nanosecond) => ofParts? hour minute second nanosecond

/-! ## §3 Reading what was written -/

private theorem scanFraction?_padded {width n value : Nat}
    (hfits : (writeDigits n).length ≤ width) (htotal : width ≤ 9)
    (hscaled : digitsValue (writePadded width n ++ List.replicate (9 - width) '0') = value) :
    scanFraction? ('.' :: writePadded width n) = some (value, []) := by
  have hdigits := all_isDigit_writePadded width n
  have hne := writePadded_ne_nil width n
  have hsize := length_writePadded hfits
  generalize writePadded width n = text at *
  -- The digits end with the text, so all of them are taken.
  have hspan : spanDigits 9 (text ++ []) = (text, []) :=
    spanDigits_append hdigits (by omega) (Or.inr (by intro c h; cases h))
  rw [List.append_nil] at hspan
  have hwhole : fractionValue text = value := by
    rw [← hscaled, fractionValue, hsize]
  simp only [scanFraction?, hspan]
  cases text with
  | nil => exact absurd rfl hne
  | cons c text => simp [hwhole]

private theorem digitsValue_scaled (width zeros n : Nat) :
    digitsValue (writePadded width n ++ List.replicate zeros '0') = Nat.pow 10 zeros * n := by
  have hvalue := digitsValue_writePadded width n
  unfold digitsValue at hvalue ⊢
  rw [Nat.ofDigitChars_append, hvalue, Nat.ofDigitChars_replicate_zero]
  rfl

private theorem scanFraction?_writeFraction {n : Nat} (h : n < 1000000000) :
    scanFraction? (writeFraction n) = some (n, []) := by
  have hfits {m width : Nat} (hpos : 0 < width) (hsmall : m < Nat.pow 10 width) :
      (writeDigits m).length ≤ width :=
    (Nat.length_toDigits_le_iff (by decide) hpos).2 hsmall
  unfold writeFraction
  split
  · rename_i hzero
    subst hzero
    rfl
  · split
    · -- Whole thousandths of a second have three digits.
      refine scanFraction?_padded (hfits (by decide) ?_) (by decide) ?_
      · show n / 1000000 < 1000
        omega
      · rw [digitsValue_scaled]
        show 1000000 * (n / 1000000) = n
        omega
    · split
      · -- Whole millionths have six.
        refine scanFraction?_padded (hfits (by decide) ?_) (by decide) ?_
        · show n / 1000 < 1000000
          omega
        · rw [digitsValue_scaled]
          show 1000 * (n / 1000) = n
          omega
      · -- All others have nine.
        refine scanFraction?_padded (hfits (by decide) ?_) (by decide) ?_
        · exact h
        · rw [digitsValue_scaled]
          show 1 * n = n
          omega

/-- **A written time reads back.** -/
theorem read?_write (time : TimeOfDay) : read? time.write = some time := by
  have hhour := time.hour_lt
  have hminute := time.minute_lt
  have hsecond := time.second_le
  have hcolon : isBlank ':' = false := by decide
  -- Each number is scanned off the front, with the colon behind it.
  unfold read? write
  rw [String.toList_ofList, scanNumber?_writePadded (length_writeDigits_le_two (by omega))]
  simp only [scanChar?_cons hcolon]
  rw [scanNumber?_writePadded (length_writeDigits_le_two (by omega))]
  simp only [trimFront_of_head hcolon, reduceCtorEq, if_false]
  unfold readSeconds?
  simp only [scanChar?_cons hcolon]
  rw [scanNumber?_writePadded (length_writeDigits_le_two (by omega))]
  simp only [scanFraction?_writeFraction time.nanosecond_lt, trimFront, List.dropWhile_nil, if_true]
  unfold ofParts?
  rw [dif_pos ⟨time.hour_lt, time.minute_lt, time.second_le, time.nanosecond_lt⟩]

end TimeOfDay

end RecurringDates
