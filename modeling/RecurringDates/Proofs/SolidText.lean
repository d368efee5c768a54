import RecurringDates.Rule.OrdinalWeekday

/-!
# Pieces of a text

A list in text is a number of pieces with a separator between them. Splitting at the separator gives
the pieces back, and no other characters than those of the text; what stands at the ends of the
pieces decides whether trimming changes anything.

The main statements are `Text.not_mem_of_mem_splitOn`, `Text.mem_of_mem_splitOn`,
`Text.intercalate_inj` and `Text.isSolid_intercalate`.
-/

namespace RecurringDates.Text

/-! ## §1 Pieces between separators -/

variable {c d : Char} {text piece : List Char} {pieces : List (List Char)}

/-- No piece of a split holds the separator. -/
theorem not_mem_of_mem_splitOn (hpiece : piece ∈ text.splitOn c) : c ∉ piece := by
  induction text generalizing piece with
  | nil =>
    rw [List.splitOn_nil, List.mem_singleton] at hpiece
    rw [hpiece]
    exact List.not_mem_nil
  | cons d rest ih =>
    rw [List.splitOn_cons_eq_if_modifyHead] at hpiece
    split at hpiece
    · -- The separator ends an empty piece.
      rcases List.mem_cons.mp hpiece with rfl | hlater
      · exact List.not_mem_nil
      · exact ih hlater
    · -- Any other character goes to the front of the first piece.
      rename_i hother
      cases hsplit : rest.splitOn c with
      | nil => exact absurd hsplit (List.splitOn_ne_nil c rest)
      | cons first others =>
        rw [hsplit] at hpiece ih
        rcases List.mem_cons.mp hpiece with rfl | hlater
        · intro hmem
          rcases List.mem_cons.mp hmem with rfl | hmem
          · exact hother (beq_self_eq_true c)
          · exact ih List.mem_cons_self hmem
        · exact ih (List.mem_cons_of_mem first hlater)

/-- What stands before the first separator goes to the front of the first piece. -/
theorem splitOn_append_of_not_mem {front : List Char} (hfront : c ∉ front) (text : List Char) :
    (front ++ text).splitOn c = (text.splitOn c).modifyHead (front ++ ·) := by
  induction front with
  | nil =>
    rw [List.nil_append]
    cases text.splitOn c <;> rfl
  | cons d front ih =>
    have hother : ¬(d == c) = true := by
      rintro heq
      exact hfront (eq_of_beq heq ▸ List.mem_cons_self)
    rw [List.cons_append, List.splitOn_cons_eq_if_modifyHead, if_neg hother,
      ih fun hmem => hfront (List.mem_cons_of_mem d hmem), List.modifyHead_modifyHead]
    rfl

/-- A character at the end of a text goes to the end of the last piece. -/
theorem splitOn_concat_of_ne (hother : d ≠ c) (text : List Char) :
    ∃ others last, text.splitOn c = others ++ [last] ∧
      (text ++ [d]).splitOn c = others ++ [last ++ [d]] := by
  induction text with
  | nil => exact ⟨[], [], List.splitOn_nil c, by simp [List.splitOn_cons_eq_if_modifyHead, hother]⟩
  | cons e rest ih =>
    obtain ⟨others, last, hrest, hconcat⟩ := ih
    rw [List.cons_append, List.splitOn_cons_eq_if_modifyHead, List.splitOn_cons_eq_if_modifyHead,
      hrest, hconcat]
    split
    · -- A separator in front adds an empty piece before the others.
      exact ⟨[] :: others, last, rfl, rfl⟩
    · -- Any other character goes to the first piece, which may be the last one too.
      cases others with
      | nil => exact ⟨[], e :: last, rfl, rfl⟩
      | cons first others => exact ⟨(e :: first) :: others, last, rfl, rfl⟩

theorem mem_intercalate_of_mem (hpiece : piece ∈ pieces) (hmem : d ∈ piece) :
    d ∈ [c].intercalate pieces := by
  induction pieces with
  | nil => cases hpiece
  | cons first others ih =>
    cases others with
    | nil =>
      rw [List.mem_singleton] at hpiece
      rw [List.intercalate_singleton, ← hpiece]
      exact hmem
    | cons second others =>
      rw [List.intercalate_cons_cons, List.mem_append]
      rcases List.mem_cons.mp hpiece with rfl | hlater
      · -- The first piece stands in front of the separator.
        exact Or.inl (List.mem_append_left _ hmem)
      · exact Or.inr (ih hlater)

theorem mem_or_mem_of_mem_intercalate {separator : List Char}
    (hmem : d ∈ separator.intercalate pieces) : d ∈ separator ∨ ∃ piece ∈ pieces, d ∈ piece := by
  induction pieces with
  | nil => cases hmem
  | cons first others ih =>
    cases others with
    | nil =>
      rw [List.intercalate_singleton] at hmem
      exact Or.inr ⟨first, List.mem_cons_self, hmem⟩
    | cons second others =>
      rw [List.intercalate_cons_cons, List.mem_append, List.mem_append] at hmem
      -- In the first piece, in the separator behind it, or later.
      rcases hmem with (hfirst | hseparator) | hlater
      · exact Or.inr ⟨first, List.mem_cons_self, hfirst⟩
      · exact Or.inl hseparator
      · rcases ih hlater with hseparator | ⟨piece, hpiece, hmem⟩
        · exact Or.inl hseparator
        · exact Or.inr ⟨piece, List.mem_cons_of_mem first hpiece, hmem⟩

/-- A list in text begins as its first piece does. -/
theorem intercalate_cons_cons_eq (d c : Char) (first : List Char) (others : List (List Char)) :
    ∃ rest, [c].intercalate ((d :: first) :: others) = d :: rest := by
  cases others with
  | nil => exact ⟨first, List.intercalate_singleton⟩
  | cons second others => exact ⟨_, List.intercalate_cons_cons⟩

/-- A piece of a split holds only characters of the text. -/
theorem mem_of_mem_splitOn (hpiece : piece ∈ text.splitOn c) (hmem : d ∈ piece) : d ∈ text := by
  have hall := mem_intercalate_of_mem (c := c) hpiece hmem
  rwa [List.intercalate_splitOn] at hall

theorem mem_of_mem_trim (hmem : d ∈ trim text) : d ∈ text := by
  unfold trim trimFront at hmem
  have hback := (List.dropWhile_suffix isBlank).subset (List.mem_reverse.mp hmem)
  exact (List.dropWhile_suffix isBlank).subset (List.mem_reverse.mp hback)

/-! ## §2 Where a text is cut -/

section Cuts

variable {front front' back back' separator : List Char} {pieces' : List (List Char)}

/-- A text with a first character of some kind is known by what stands before it and by what it
begins. -/
theorem append_inj_of_head {kind : Char → Bool} (hfront : ∀ c ∈ front, kind c = false)
    (hfront' : ∀ c ∈ front', kind c = false) (hback : ∀ c, back.head? = some c → kind c = true)
    (hback' : ∀ c, back'.head? = some c → kind c = true) :
    front ++ back = front' ++ back' ↔ front = front' ∧ back = back' := by
  constructor
  · intro hsame
    -- One front is a beginning of the other, and the question is by how much.
    rcases List.append_eq_append_iff.mp hsame with ⟨middle, rfl, rfl⟩ | ⟨middle, rfl, rfl⟩
    · cases middle with
      | nil => simp
      | cons c middle =>
        -- Otherwise the second part would begin before the first one ends.
        have hkind := hback c rfl
        rw [hfront' c (List.mem_append_right _ List.mem_cons_self)] at hkind
        cases hkind
    · cases middle with
      | nil => simp
      | cons c middle =>
        have hkind := hback' c rfl
        rw [hfront c (List.mem_append_right _ List.mem_cons_self)] at hkind
        cases hkind
  · rintro ⟨rfl, rfl⟩
    rfl

/-- A text with a first separator is known by what stands before and after it. -/
theorem separator_append_inj (hfront : c ∉ front) (hfront' : c ∉ front') :
    front ++ c :: back = front' ++ c :: back' ↔ front = front' ∧ back = back' := by
  have hkind : ∀ text : List Char, c ∉ text → ∀ d ∈ text, (d == c) = false := by
    intro text habsent d hmem
    exact beq_eq_false_iff_ne.mpr fun hsame => habsent (hsame ▸ hmem)
  have hhead : ∀ (text : List Char) (d : Char), (c :: text).head? = some d → (d == c) = true := by
    intro text d hd
    rw [List.head?_cons, Option.some.injEq] at hd
    exact beq_iff_eq.mpr hd.symm
  rw [append_inj_of_head (hkind front hfront) (hkind front' hfront') (hhead back) (hhead back'),
    List.cons.injEq, and_iff_right rfl]

/-- A text with a last separator is known by what stands before and after it. -/
theorem append_separator_inj (hback : c ∉ back) (hback' : c ∉ back') :
    front ++ c :: back = front' ++ c :: back' ↔ front = front' ∧ back = back' := by
  -- From the end the last separator is the first.
  have hreverse : back.reverse ++ c :: front.reverse = back'.reverse ++ c :: front'.reverse ↔
      back.reverse = back'.reverse ∧ front.reverse = front'.reverse :=
    separator_append_inj (mt List.mem_reverse.mp hback) (mt List.mem_reverse.mp hback')
  rw [← List.reverse_inj]
  simpa [and_comm] using hreverse

/-- **A list in text is known by its pieces**, if none of them holds the character that the
separator begins with. -/
theorem intercalate_inj (hpieces : ∀ piece ∈ pieces, c ∉ piece)
    (hpieces' : ∀ piece ∈ pieces', c ∉ piece) (hne : pieces ≠ []) (hne' : pieces' ≠ [])
    (hsame : (c :: separator).intercalate pieces = (c :: separator).intercalate pieces') :
    pieces = pieces' := by
  induction pieces generalizing pieces' with
  | nil => exact absurd rfl hne
  | cons first others ih =>
    obtain ⟨first', others', rfl⟩ := List.exists_cons_of_ne_nil hne'
    have hfirst := hpieces first List.mem_cons_self
    have hfirst' := hpieces' first' List.mem_cons_self
    cases others with
    | nil =>
      cases others' with
      | nil => simpa using hsame
      | cons second' others' =>
        rw [List.intercalate_singleton, List.intercalate_cons_cons] at hsame
        -- A single piece would hold the separator between two.
        exact absurd (by simp [hsame]) hfirst
    | cons second others =>
      cases others' with
      | nil =>
        rw [List.intercalate_singleton, List.intercalate_cons_cons] at hsame
        exact absurd (by simp [← hsame]) hfirst'
      | cons second' others' =>
        -- The first pieces end at the first separators, and the rest is shorter.
        simp only [List.intercalate_cons_cons, List.append_assoc, List.cons_append] at hsame
        rw [separator_append_inj hfirst hfirst', List.append_cancel_left_eq] at hsame
        obtain ⟨rfl, hlater⟩ := hsame
        rw [ih (fun piece hmem => hpieces piece (List.mem_cons_of_mem _ hmem))
          (fun piece hmem => hpieces' piece (List.mem_cons_of_mem _ hmem))
          (List.cons_ne_nil _ _) (List.cons_ne_nil _ _) hlater]

/-- A list in text ends as one of its pieces does. -/
theorem exists_intercalate_eq_append (hne : pieces ≠ []) :
    ∃ front, ∃ piece ∈ pieces, separator.intercalate pieces = front ++ piece := by
  induction pieces with
  | nil => exact absurd rfl hne
  | cons first others ih =>
    cases others with
    | nil => exact ⟨[], first, List.mem_cons_self, List.intercalate_singleton⟩
    | cons second others =>
      obtain ⟨front, piece, hpiece, hends⟩ := ih (List.cons_ne_nil _ _)
      refine ⟨first ++ separator ++ front, piece, List.mem_cons_of_mem first hpiece, ?_⟩
      simp only [List.intercalate_cons_cons, hends, List.append_assoc]

/-- A list in text begins with its first piece. -/
theorem exists_intercalate_cons_eq (first : List Char) (others : List (List Char)) :
    ∃ rest, separator.intercalate (first :: others) = first ++ rest := by
  cases others with
  | nil => exact ⟨[], by rw [List.intercalate_singleton, List.append_nil]⟩
  | cons second others => exact ⟨_, List.intercalate_cons_cons.trans (List.append_assoc ..)⟩

/-- What stands before the first piece stands before the list. -/
theorem intercalate_append_cons (front first : List Char) (others : List (List Char)) :
    separator.intercalate ((front ++ first) :: others)
      = front ++ separator.intercalate (first :: others) := by
  cases others with
  | nil => rw [List.intercalate_singleton, List.intercalate_singleton]
  | cons second others =>
    simp only [List.intercalate_cons_cons, List.append_assoc]

end Cuts

/-! ## §3 Digits and letters -/

/-- The digits are the characters from 48 to 57. -/
theorem isDigit_iff : c.isDigit = true ↔ 48 ≤ c.toNat ∧ c.toNat ≤ 57 := by
  simp only [Char.isDigit, Bool.and_eq_true, decide_eq_true_eq, ge_iff_le, UInt32.le_iff_toNat_le]
  exact Iff.rfl

/-- The capital letters are the characters from 65 to 90. -/
theorem isUpper_iff {c : Char} : c.isUpper = true ↔ 65 ≤ c.toNat ∧ c.toNat ≤ 90 := by
  have hcapital : c.isUpper = true ↔ 'A'.val ≤ c.val ∧ c.val ≤ 'Z'.val := decide_eq_true_iff
  rw [hcapital, UInt32.le_iff_toNat_le, UInt32.le_iff_toNat_le]
  exact Iff.rfl

/-- A small letter stands 32 places behind its capital, and any other character is its own. -/
theorem toNat_toUpper (c : Char) :
    c.toUpper.toNat = if 97 ≤ c.toNat ∧ c.toNat ≤ 122 then c.toNat - 32 else c.toNat := by
  have hsmall : 'a'.val ≤ c.val ∧ c.val ≤ 'z'.val ↔ 97 ≤ c.toNat ∧ c.toNat ≤ 122 := by
    rw [UInt32.le_iff_toNat_le, UInt32.le_iff_toNat_le]
    exact Iff.rfl
  -- The shift to the front is an addition that wraps around.
  have hshift : ('A'.val - 'a'.val).toNat = 2 ^ 32 - 32 := by decide
  unfold Char.toUpper
  split
  · rename_i hlower
    rw [hsmall] at hlower
    rw [if_pos hlower, ← Char.toNat_val, UInt32.toNat_add, hshift, Char.toNat_val]
    omega
  · rename_i hother
    rw [hsmall] at hother
    rw [if_neg hother]

theorem toNat_toLower {c : Char} (hcapital : c.isUpper = true) :
    c.toLower.toNat = c.toNat + 32 := by
  have hrange : 65 ≤ c.toNat ∧ c.toNat ≤ 90 := isUpper_iff.mp hcapital
  have hshift : ('a'.val - 'A'.val).toNat = 32 := by decide
  unfold Char.toLower
  split
  · rw [← Char.toNat_val, UInt32.toNat_add, hshift, Char.toNat_val]
    omega
  · rename_i hother
    exact absurd ⟨UInt32.le_iff_toNat_le.mpr hrange.1, UInt32.le_iff_toNat_le.mpr hrange.2⟩ hother

/-- Only a capital letter and its small one have that capital. -/
theorem toUpper_eq_iff {c letter : Char} (hcapital : letter.isUpper = true) :
    c.toUpper = letter ↔ c = letter ∨ c = letter.toLower := by
  have hrange : 65 ≤ letter.toNat ∧ letter.toNat ≤ 90 := isUpper_iff.mp hcapital
  simp only [← Char.toNat_inj, toNat_toUpper, toNat_toLower hcapital]
  split <;> omega

/-! ## §4 Blanks at the ends of a text -/

theorem ne_of_isBlank (hblank : isBlank c = true) (hother : isBlank d = false) : c ≠ d := by
  rintro rfl
  rw [hblank] at hother
  cases hother

/-- Blanks are no letters. -/
theorem toUpper_of_isBlank (hblank : isBlank c = true) : c.toUpper = c := by
  simp only [isBlank, Bool.or_eq_true, Bool.and_eq_true, decide_eq_true_eq, beq_iff_eq] at hblank
  have hother : ¬ (97 ≤ c.toNat ∧ c.toNat ≤ 122) := by omega
  rw [← Char.toNat_inj, toNat_toUpper, if_neg hother]

theorem trimFront_cons_of_isBlank (hblank : isBlank c = true) (text : List Char) :
    trimFront (c :: text) = trimFront text := by
  rw [trimFront, List.dropWhile_cons_of_pos hblank, trimFront]

theorem trim_cons_of_isBlank (hblank : isBlank c = true) (text : List Char) :
    trim (c :: text) = trim text := by
  rw [trim, trimFront_cons_of_isBlank hblank, trim]

theorem trim_concat_of_isBlank (hblank : isBlank c = true) (text : List Char) :
    trim (text ++ [c]) = trim text := by
  induction text with
  | nil => rw [List.nil_append, trim_cons_of_isBlank hblank]
  | cons d rest ih =>
    cases hfirst : isBlank d with
    | true => rw [List.cons_append, trim_cons_of_isBlank hfirst, ih, trim_cons_of_isBlank hfirst]
    | false =>
      -- The first character stays, so only the end of the text is trimmed.
      unfold trim
      rw [List.cons_append, trimFront_of_head hfirst, trimFront_of_head hfirst,
        ← List.cons_append, List.reverse_append, List.reverse_singleton, List.singleton_append,
        trimFront_cons_of_isBlank hblank]

theorem trimFront_eq_self_of_forall (hall : ∀ d ∈ text, isBlank d = false) :
    trimFront text = text := by
  cases text with
  | nil => rfl
  | cons d rest => exact trimFront_of_head (hall d List.mem_cons_self)

/-- A front without blanks is left as it is, whatever comes behind it. -/
theorem prefix_trim_append {front : List Char} (hne : front ≠ [])
    (hall : ∀ d ∈ front, isBlank d = false) (back : List Char) :
    front <+: trim (front ++ back) := by
  obtain ⟨d, rest, rfl⟩ := List.exists_cons_of_ne_nil hne
  have hfront : trimFront (d :: rest ++ back) = d :: rest ++ back :=
    trimFront_of_head (hall d List.mem_cons_self)
  have hreverse : trimFront (d :: rest).reverse = (d :: rest).reverse :=
    trimFront_eq_self_of_forall fun e he => hall e (List.mem_reverse.mp he)
  unfold trim
  rw [hfront, List.reverse_append, trimFront, List.dropWhile_append, ← trimFront, ← trimFront,
    hreverse]
  -- What is trimmed from the end is all of the back or a part of it.
  split
  · simp only [List.reverse_reverse, List.prefix_rfl]
  · rw [List.reverse_append, List.reverse_reverse]
    exact List.prefix_append _ _

/-- A text that begins and ends with a character that is no blank. -/
def IsSolid (text : List Char) : Prop :=
  text ≠ [] ∧ IsTrimmed text

theorem IsSolid.trim_eq (h : IsSolid text) : trim text = text :=
  trim_eq_self h.2

theorem isSolid_of_forall (hne : text ≠ []) (hall : ∀ d ∈ text, isBlank d = false) :
    IsSolid text := by
  refine ⟨hne, fun d hd => hall d ?_, fun d hd => hall d ?_⟩
  · exact List.mem_of_mem_head? hd
  · exact List.mem_of_getLast? hd

/-- A text is solid if a look at each of its characters finds no blank. -/
theorem isSolid_of_all (hne : text ≠ []) (hall : text.all (fun d => !isBlank d) = true) :
    IsSolid text :=
  isSolid_of_forall hne fun d hd => Bool.not_eq_true' _ ▸ List.all_eq_true.mp hall d hd

/-- What stands between two solid texts does not matter. -/
theorem IsSolid.append {front back : List Char} (hfront : IsSolid front) (hback : IsSolid back)
    (middle : List Char) : IsSolid (front ++ middle ++ back) := by
  obtain ⟨first, front, rfl⟩ := List.exists_cons_of_ne_nil hfront.1
  refine ⟨by simp, hfront.2.1, fun d hd => hback.2.2 d ?_⟩
  -- The second text has a last character, which is the last of all.
  rw [List.getLast?_append, List.getLast?_eq_some_getLast hback.1] at hd
  rwa [List.getLast?_eq_some_getLast hback.1]

theorem isSolid_intercalate (hne : pieces ≠ []) (hall : ∀ piece ∈ pieces, IsSolid piece) :
    IsSolid ([c].intercalate pieces) := by
  induction pieces with
  | nil => exact absurd rfl hne
  | cons first others ih =>
    have hfirst := hall first List.mem_cons_self
    cases others with
    | nil => rwa [List.intercalate_singleton]
    | cons second others =>
      -- The list begins with its first piece and ends as the others do.
      rw [List.intercalate_cons_cons]
      refine hfirst.append (ih (List.cons_ne_nil _ _) ?_) [c]
      exact fun piece hpiece => hall piece (List.mem_cons_of_mem first hpiece)

/-! ## §5 Characters of numbers -/

/-- A digit or a minus sign. -/
def IsNumeral (c : Char) : Prop :=
  c.isDigit = true ∨ c = '-'

theorem isNumeral_of_mem_writeInteger {n : Int} (hmem : c ∈ writeInteger n) : IsNumeral c := by
  have hdigits := List.all_eq_true.mp (all_isDigit_writeDigits n.natAbs)
  unfold writeInteger at hmem
  split at hmem
  · rcases List.mem_cons.mp hmem with rfl | hmem
    · exact Or.inr rfl
    · exact Or.inl (hdigits c hmem)
  · exact Or.inl (hdigits c hmem)

theorem IsNumeral.not_blank (h : IsNumeral c) : isBlank c = false := by
  rcases h with hdigit | rfl
  · exact isDigit_not_blank hdigit
  · decide

/-- No separator of a rule text is part of a number. -/
theorem IsNumeral.ne_of_not (h : IsNumeral c) (hdigit : d.isDigit = false) (hminus : d ≠ '-') :
    c ≠ d := by
  rintro rfl
  rcases h with hc | hc
  · rw [hdigit] at hc
    cases hc
  · exact hminus hc

private theorem digit_le {c : Char} (hdigit : c.isDigit = true) : c.toNat - '0'.toNat ≤ 9 := by
  have hrange : 48 ≤ c.toNat ∧ c.toNat ≤ 57 := isDigit_iff.mp hdigit
  have hzero : '0'.toNat = 48 := rfl
  omega

theorem digitsValue_le_of_length_four {digits : List Char} (hlength : digits.length = 4)
    (hall : ∀ c ∈ digits, c.isDigit = true) : digitsValue digits ≤ 9999 := by
  match digits, hlength with
  | [a, b, c, d], _ =>
  have ha := digit_le (hall a (by simp))
  have hb := digit_le (hall b (by simp))
  have hc := digit_le (hall c (by simp))
  have hd := digit_le (hall d (by simp))
  simp only [digitsValue, Nat.ofDigitChars_cons, Nat.ofDigitChars_nil]
  omega

theorem isSolid_writeInteger (n : Int) : IsSolid (writeInteger n) :=
  isSolid_of_forall (OrdinalWeekday.writeInteger_ne_nil n) fun _ hmem =>
    (isNumeral_of_mem_writeInteger hmem).not_blank

end RecurringDates.Text
