import RecurringDates.Text.Blank

/-!
# Decimal numbers

Whole numbers in text. An integer is an optional single sign and then one or more ASCII digits,
leading zeros allowed; a number inside a longer text is a run of digits that may be limited in
length. Numbers are written with the fewest digits or padded with zeros to a width.

The main statements say that what is written reads back (`readInteger?_writeInteger`), and that a
run of digits ends where its limit or a character that is no digit stands (`spanDigits_append`).
-/

namespace RecurringDates.Text

/-! ## §1 Digits -/

/-- The number that a run of digits stands for. -/
def digitsValue (digits : List Char) : Nat :=
  Nat.ofDigitChars 10 digits 0

/-- The number that a text stands for which holds one or more digits and nothing else. -/
def readDigits? (text : List Char) : Option Nat :=
  if text ≠ [] ∧ text.all Char.isDigit then some (digitsValue text) else none

/-- The digits of a number, without leading zeros. -/
def writeDigits (n : Nat) : List Char :=
  Nat.toDigits 10 n

/-- The digits of a number, with zeros in front up to a width. -/
def writePadded (width n : Nat) : List Char :=
  List.replicate (width - (writeDigits n).length) '0' ++ writeDigits n

theorem all_isDigit_writeDigits (n : Nat) : (writeDigits n).all Char.isDigit = true := by
  rw [List.all_eq_true]
  intro c h
  exact Nat.isDigit_of_mem_toDigits (by decide) (by decide) h

theorem writeDigits_ne_nil (n : Nat) : writeDigits n ≠ [] :=
  Nat.toDigits_ne_nil

theorem digitsValue_writeDigits (n : Nat) : digitsValue (writeDigits n) = n :=
  Nat.ofDigitChars_ten_toDigits

theorem readDigits?_writeDigits (n : Nat) : readDigits? (writeDigits n) = some n := by
  unfold readDigits?
  rw [if_pos ⟨writeDigits_ne_nil n, all_isDigit_writeDigits n⟩, digitsValue_writeDigits]

theorem all_isDigit_writePadded (width n : Nat) :
    (writePadded width n).all Char.isDigit = true := by
  unfold writePadded
  rw [List.all_append, all_isDigit_writeDigits, Bool.and_true, List.all_replicate]
  split
  · rfl
  · decide

theorem digitsValue_writePadded (width n : Nat) : digitsValue (writePadded width n) = n := by
  unfold writePadded digitsValue
  rw [Nat.ofDigitChars_append, Nat.ofDigitChars_replicate_zero, Nat.mul_zero]
  exact digitsValue_writeDigits n

/-! ## §2 Integers -/

/-- The integer that a text stands for: an optional `+` or `-`, then digits. -/
def readInteger? : List Char → Option Int
  | '+' :: digits => (readDigits? digits).map fun n : Nat => (n : Int)
  | '-' :: digits => (readDigits? digits).map fun n : Nat => -(n : Int)
  | digits => (readDigits? digits).map fun n : Nat => (n : Int)

/-- An integer with a sign only if it is negative. -/
def writeInteger (n : Int) : List Char :=
  if n < 0 then '-' :: writeDigits n.natAbs else writeDigits n.natAbs

/-- Digits alone stand for what they stand for without a sign. -/
theorem readInteger?_digits {text : List Char} (hdigits : text.all Char.isDigit = true) :
    readInteger? text = (readDigits? text).map fun n : Nat => (n : Int) := by
  unfold readInteger?
  split
  · simp at hdigits
  · simp at hdigits
  · rfl

/-- **Integers read back as they were written.** -/
theorem readInteger?_writeInteger (n : Int) : readInteger? (writeInteger n) = some n := by
  unfold writeInteger
  split
  · simp only [readInteger?, readDigits?_writeDigits, Option.map_some, Option.some.injEq]
    omega
  · rw [readInteger?_digits (all_isDigit_writeDigits _), readDigits?_writeDigits, Option.map_some,
      Option.some.injEq]
    omega

/-! ## §3 Numbers inside a text -/

/-- The run of digits at the front of a text, at most a number of them, and what follows it. -/
def spanDigits : Nat → List Char → List Char × List Char
  | 0, text => ([], text)
  | _ + 1, [] => ([], [])
  | limit + 1, c :: rest =>
    if c.isDigit then ((c :: (spanDigits limit rest).1), (spanDigits limit rest).2)
    else ([], c :: rest)

/-- The number at the front of a text, of at least one digit and at most a number of them, and
what follows it. Blanks may stand before it. -/
def scanNumber? (limit : Nat) (text : List Char) : Option (Nat × List Char) :=
  match spanDigits limit (trimFront text) with
  | ([], _) => none
  | (digits, rest) => some (digitsValue digits, rest)

/-- What follows a character at the front of a text. Blanks may stand before it. -/
def scanChar? (c : Char) (text : List Char) : Option (List Char) :=
  match trimFront text with
  | [] => none
  | d :: rest => if d = c then some rest else none

/-- **A run of digits ends where its limit or a character that is no digit stands.** -/
theorem spanDigits_append {limit : Nat} {digits rest : List Char}
    (hdigits : digits.all Char.isDigit = true) (hfits : digits.length ≤ limit)
    (hstops : digits.length = limit ∨ ∀ c, rest.head? = some c → c.isDigit = false) :
    spanDigits limit (digits ++ rest) = (digits, rest) := by
  induction digits generalizing limit with
  | nil =>
    -- Without digits the run ends at once: no place is left, or no digit follows.
    cases limit with
    | zero => rfl
    | succ limit =>
      rcases hstops with h | h
      · simp at h
      · cases rest with
        | nil => rfl
        | cons c rest => simp [spanDigits, h c rfl]
  | cons c digits ih =>
    -- A digit takes up one place of the limit.
    cases limit with
    | zero => simp at hfits
    | succ limit =>
      simp only [List.all_cons, Bool.and_eq_true] at hdigits
      simp only [List.length_cons, Nat.add_le_add_iff_right, Nat.add_right_cancel_iff]
        at hfits hstops
      have htail := ih hdigits.2 hfits hstops
      simp [spanDigits, hdigits.1, htail]

/-! ## §4 Reading what was written -/

theorem isDigit_not_blank {c : Char} (h : c.isDigit = true) : isBlank c = false := by
  have hsame : c.toNat = c.val.toNat := rfl
  simp only [Char.isDigit, Bool.and_eq_true, decide_eq_true_eq, ge_iff_le, UInt32.le_iff_toNat_le]
    at h
  simp only [isBlank, Bool.or_eq_false_iff, Bool.and_eq_false_iff, decide_eq_false_iff_not,
    beq_eq_false_iff_ne, ne_eq]
  simp at h
  omega

theorem trimFront_of_head {c : Char} {rest : List Char} (h : isBlank c = false) :
    trimFront (c :: rest) = c :: rest := by
  simp [trimFront, h]

theorem trimFront_digits {digits rest : List Char} (hdigits : digits.all Char.isDigit = true)
    (hne : digits ≠ []) : trimFront (digits ++ rest) = digits ++ rest := by
  cases digits with
  | nil => exact absurd rfl hne
  | cons c digits =>
    simp only [List.all_cons, Bool.and_eq_true] at hdigits
    exact trimFront_of_head (isDigit_not_blank hdigits.1)

theorem writePadded_ne_nil (width n : Nat) : writePadded width n ≠ [] := by
  simp [writePadded, writeDigits_ne_nil]

theorem length_writePadded {width n : Nat} (hfits : (writeDigits n).length ≤ width) :
    (writePadded width n).length = width := by
  simp only [writePadded, List.length_append, List.length_replicate]
  omega

theorem length_writeDigits_le_two {n : Nat} (h : n < 100) : (writeDigits n).length ≤ 2 :=
  (Nat.length_toDigits_le_iff (by decide) (by decide)).2 h

theorem length_writeDigits_le_four {n : Nat} (h : n < 10000) : (writeDigits n).length ≤ 4 :=
  (Nat.length_toDigits_le_iff (by decide) (by decide)).2 h

/-- **A padded number reads back** by a limit equal to its width, whatever follows it. -/
theorem scanNumber?_writePadded {width n : Nat} {rest : List Char}
    (hfits : (writeDigits n).length ≤ width) :
    scanNumber? width (writePadded width n ++ rest) = some (n, rest) := by
  have hdigits := all_isDigit_writePadded width n
  have hne := writePadded_ne_nil width n
  have hsize := length_writePadded hfits
  have hvalue := digitsValue_writePadded width n
  generalize writePadded width n = text at *
  unfold scanNumber?
  rw [trimFront_digits hdigits hne, spanDigits_append hdigits (Nat.le_of_eq hsize) (Or.inl hsize)]
  cases text with
  | nil => exact absurd rfl hne
  | cons c text => simp [hvalue]

theorem scanChar?_cons {c : Char} {rest : List Char} (h : isBlank c = false) :
    scanChar? c (c :: rest) = some rest := by
  unfold scanChar?
  rw [trimFront_of_head h]
  simp

end RecurringDates.Text
