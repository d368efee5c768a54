/-!
# Blanks

The white space of Unicode, and text without it at either end.

The main statements say that trimming leaves no blank at an end (`isTrimmed_trim`) and changes
nothing where there is none (`trim_eq_self`).
-/

namespace RecurringDates.Text

/-! ## §1 White space -/

/-- Whether a character has the property White_Space. -/
def isBlank (c : Char) : Bool :=
  let n := c.toNat
  (9 ≤ n && n ≤ 13) || n == 0x20 || n == 0x85 || n == 0xA0 || n == 0x1680
    || (0x2000 ≤ n && n ≤ 0x200A) || n == 0x2028 || n == 0x2029 || n == 0x202F || n == 0x205F
    || n == 0x3000

/-! ## §2 Trimming -/

/-- Text without the blanks at its front. -/
def trimFront (text : List Char) : List Char :=
  text.dropWhile isBlank

/-- Text without the blanks at its front and at its back. -/
def trim (text : List Char) : List Char :=
  (trimFront (trimFront text).reverse).reverse

/-- A text with no blank at its front or its back. -/
def IsTrimmed (text : List Char) : Prop :=
  (∀ c, text.head? = some c → isBlank c = false) ∧
    (∀ c, text.getLast? = some c → isBlank c = false)

private theorem head?_trimFront {text : List Char} {c : Char}
    (h : (trimFront text).head? = some c) : isBlank c = false := by
  induction text with
  | nil => cases h
  | cons d rest ih =>
    unfold trimFront at h ih
    rw [List.dropWhile_cons] at h
    split at h
    · exact ih h
    · rename_i hsolid
      cases h
      simpa using hsolid

private theorem trimFront_eq_self {text : List Char}
    (h : ∀ c, text.head? = some c → isBlank c = false) : trimFront text = text := by
  cases text with
  | nil => rfl
  | cons c rest =>
    unfold trimFront
    rw [List.dropWhile_cons, h c rfl]
    simp

/-- **Trimming leaves no blank at an end.** -/
theorem isTrimmed_trim (text : List Char) : IsTrimmed (trim text) := by
  constructor
  · -- What is taken away at the back leaves the first character as it was.
    intro c h
    simp only [trim, List.head?_reverse] at h
    have hsuffix : trimFront (trimFront text).reverse <:+ (trimFront text).reverse :=
      List.dropWhile_suffix _
    obtain ⟨front, hfront⟩ := hsuffix
    have hlast : (trimFront text).reverse.getLast? = some c := by
      rw [← hfront, List.getLast?_append, h]
      rfl
    rw [List.getLast?_reverse] at hlast
    exact head?_trimFront hlast
  · intro c h
    simp only [trim, List.getLast?_reverse] at h
    exact head?_trimFront h

/-- **Trimming changes nothing where no blank stands at an end.** -/
theorem trim_eq_self {text : List Char} (h : IsTrimmed text) : trim text = text := by
  unfold trim
  rw [trimFront_eq_self h.1, trimFront_eq_self, List.reverse_reverse]
  intro c hlast
  rw [List.head?_reverse] at hlast
  exact h.2 c hlast

theorem trim_trim (text : List Char) : trim (trim text) = trim text :=
  trim_eq_self (isTrimmed_trim text)

end RecurringDates.Text
