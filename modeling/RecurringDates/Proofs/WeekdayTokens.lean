import Mathlib.Data.List.Forall2
import Mathlib.Data.List.Induction
import RecurringDates.Proofs.SolidText

/-!
# The tokens of ordinal weekdays

A token is read by cutting the code off its end. The tokens that can be read are those of a small
grammar: the code of a weekday in capital or small letters, with an integer from 1 to 53 in front if
only one of the weekdays is meant, with or without a sign, and blanks around all of it. What is read
is what the grammar says, and every other token is refused with its text as it was given.

The cut may as well be made by bytes. The letters of a code have one byte each, so a place two bytes
before the end is between two characters wherever there is a code to find, and a place inside a
character is where there is none.

The main statement is `OrdinalWeekday.read_eq_ok_iff_denotes`. It rests on one statement for each
part of a token (`Text.readInteger?_eq_some_iff`, `Weekday.ofCode?_eq_some_iff`) and on the two ways
to cut (`OrdinalWeekday.ofTrimmed?_eq_some_iff`, `OrdinalWeekday.ofBytes?_eq_some_iff`).
-/

namespace RecurringDates

/-! ## §1 Numerals -/

namespace Text

variable {text : List Char} {c : Char}

/-- One of the ten ASCII digits, with its value. -/
def IsDigitOf (c : Char) (value : Nat) : Prop :=
  value < 10 ∧ c.toNat = '0'.toNat + value

/-- One or more digits stand for a number, to the base ten. The first of them may be zeros. -/
inductive IsNumeralOf : List Char → Nat → Prop
  /-- One digit stands for its value. -/
  | digit {c : Char} {value : Nat} (hdigit : IsDigitOf c value) : IsNumeralOf [c] value
  /-- One more digit shifts the others up by one place. -/
  | append {front : List Char} {n : Nat} {c : Char} {value : Nat} (hfront : IsNumeralOf front n)
      (hdigit : IsDigitOf c value) : IsNumeralOf (front ++ [c]) (10 * n + value)

/-- A numeral with at most one sign stands for an integer. -/
inductive IsIntegerOf : List Char → Int → Prop
  /-- Without a sign it is positive. -/
  | unsigned {text : List Char} {n : Nat} (hnumeral : IsNumeralOf text n) : IsIntegerOf text n
  /-- A plus sign changes nothing. -/
  | plus {text : List Char} {n : Nat} (hnumeral : IsNumeralOf text n) : IsIntegerOf ('+' :: text) n
  /-- A minus sign makes it negative. -/
  | minus {text : List Char} {n : Nat} (hnumeral : IsNumeralOf text n) :
      IsIntegerOf ('-' :: text) (-(n : Int))

theorem isDigitOf_iff {value : Nat} :
    IsDigitOf c value ↔ c.isDigit = true ∧ c.toNat - '0'.toNat = value := by
  have hzero : '0'.toNat = 48 := rfl
  rw [isDigit_iff, IsDigitOf]
  omega

theorem digitsValue_concat (text : List Char) (c : Char) :
    digitsValue (text ++ [c]) = 10 * digitsValue text + (c.toNat - '0'.toNat) := by
  simp only [digitsValue, Nat.ofDigitChars_append, Nat.ofDigitChars_cons, Nat.ofDigitChars_nil]

/-- A text of digits is a numeral of its value. -/
theorem isNumeralOf_digitsValue (hne : text ≠ []) (hdigits : text.all Char.isDigit = true) :
    IsNumeralOf text (digitsValue text) := by
  -- The last digit counts one, and what stands before it ten times its value.
  induction text using List.reverseRecOn with
  | nil => exact absurd rfl hne
  | append_singleton front c ih =>
    rw [List.all_append, Bool.and_eq_true] at hdigits
    have hlast : IsDigitOf c (c.toNat - '0'.toNat) :=
      isDigitOf_iff.mpr ⟨by simpa using hdigits.2, rfl⟩
    rw [digitsValue_concat]
    by_cases hfront : front = []
    · subst hfront
      simpa [digitsValue] using IsNumeralOf.digit hlast
    · exact .append (ih hfront hdigits.1) hlast

/-- The numerals of a number are the texts of digits, one or more, with that value. -/
theorem isNumeralOf_iff {n : Nat} :
    IsNumeralOf text n ↔
      (text ≠ [] ∧ text.all Char.isDigit = true) ∧ digitsValue text = n := by
  constructor
  · intro hnumeral
    induction hnumeral with
    | digit hdigit =>
      obtain ⟨hall, hvalue⟩ := isDigitOf_iff.mp hdigit
      refine ⟨⟨List.cons_ne_nil _ _, by simpa using hall⟩, ?_⟩
      rw [← List.nil_append [_], digitsValue_concat, hvalue]
      exact Nat.zero_add _
    | append hfront hdigit ih =>
      obtain ⟨hall, hvalue⟩ := isDigitOf_iff.mp hdigit
      obtain ⟨⟨_, hdigits⟩, hnumber⟩ := ih
      refine ⟨⟨by simp, ?_⟩, ?_⟩
      · rw [List.all_append, hdigits, Bool.true_and]
        simpa using hall
      · rw [digitsValue_concat, hnumber, hvalue]
  · rintro ⟨⟨hne, hdigits⟩, rfl⟩
    exact isNumeralOf_digitsValue hne hdigits

/-- **Digits are read exactly where they are a numeral.** -/
theorem readDigits?_eq_some_iff {n : Nat} : readDigits? text = some n ↔ IsNumeralOf text n := by
  rw [isNumeralOf_iff]
  unfold readDigits?
  split
  · rename_i hdigits
    rw [Option.some.injEq, and_iff_right hdigits]
  · rename_i hother
    simp only [reduceCtorEq, hother, false_and]

theorem IsNumeralOf.all_isDigit {n : Nat} (h : IsNumeralOf text n) :
    text.all Char.isDigit = true :=
  (isNumeralOf_iff.mp h).1.2

theorem IsNumeralOf.not_blank {n : Nat} (h : IsNumeralOf text n) (hmem : c ∈ text) :
    isBlank c = false :=
  isDigit_not_blank (List.all_eq_true.mp h.all_isDigit c hmem)

/-- **Integers are read exactly where the grammar has one.** -/
theorem readInteger?_eq_some_iff {n : Int} : readInteger? text = some n ↔ IsIntegerOf text n := by
  constructor
  · intro hread
    unfold readInteger? at hread
    split at hread
    -- In all three cases the digits behind the sign decide.
    all_goals
      obtain ⟨number, hdigits, rfl⟩ := Option.map_eq_some_iff.mp hread
      rw [readDigits?_eq_some_iff] at hdigits
    · exact .plus hdigits
    · exact .minus hdigits
    · exact .unsigned hdigits
  · intro hinteger
    cases hinteger with
    | unsigned hnumeral =>
      rw [readInteger?_digits hnumeral.all_isDigit, readDigits?_eq_some_iff.mpr hnumeral,
        Option.map_some]
    | plus hnumeral | minus hnumeral =>
      simp only [readInteger?, readDigits?_eq_some_iff.mpr hnumeral, Option.map_some]

theorem IsIntegerOf.ne_nil {n : Int} (h : IsIntegerOf text n) : text ≠ [] := by
  rintro rfl
  have hread := readInteger?_eq_some_iff.mpr h
  cases hread

/-- Neither digits nor signs are blanks. -/
theorem IsIntegerOf.not_blank {n : Int} (h : IsIntegerOf text n) (hmem : c ∈ text) :
    isBlank c = false := by
  cases h with
  | unsigned hnumeral => exact hnumeral.not_blank hmem
  | plus hnumeral | minus hnumeral =>
    rcases List.mem_cons.mp hmem with rfl | hdigits
    · decide
    · exact hnumeral.not_blank hdigits

end Text

/-! ## §2 Codes -/

namespace Text

variable {text letters : List Char} {c : Char}

/-- A text spells a word of capital letters, with each letter a capital or a small one. -/
def Spells (text letters : List Char) : Prop :=
  List.Forall₂ (fun c letter => c = letter ∨ c = letter.toLower) text letters

/-- Capitals are compared letter by letter. -/
theorem map_toUpper_eq_iff (hcapitals : ∀ letter ∈ letters, letter.isUpper = true) :
    text.map Char.toUpper = letters ↔ Spells text letters := by
  unfold Spells
  induction letters generalizing text with
  | nil => rw [List.map_eq_nil_iff, List.forall₂_nil_right_iff]
  | cons letter letters ih =>
    obtain ⟨hletter, hletters⟩ := List.forall_mem_cons.mp hcapitals
    cases text with
    | nil => simp
    | cons c text =>
      -- Only a letter and its small one have the letter as their capital.
      rw [List.map_cons, List.cons.injEq, List.forall₂_cons, toUpper_eq_iff hletter, ih hletters]

/-- Each character of a spelling is a letter of the word, a capital or a small one. -/
theorem Spells.exists_letter (h : Spells text letters) (hmem : c ∈ text) :
    ∃ letter ∈ letters, c = letter ∨ c = letter.toLower := by
  induction h with
  | nil => cases hmem
  | cons hfirst _ ih =>
    rcases List.mem_cons.mp hmem with rfl | hrest
    · exact ⟨_, List.mem_cons_self, hfirst⟩
    · obtain ⟨letter, hletter, hsame⟩ := ih hrest
      exact ⟨letter, List.mem_cons_of_mem _ hletter, hsame⟩

end Text

namespace Weekday

open Text

variable {text : List Char} {weekday : Weekday}

/-- A text is the code of a weekday, with each of its letters a capital or a small one. -/
def IsCodeOf (text : List Char) (weekday : Weekday) : Prop :=
  Spells text weekday.code.toList

/-- **Codes are read exactly where the grammar has one.** -/
theorem ofCode?_eq_some_iff : ofCode? text = some weekday ↔ IsCodeOf text weekday := by
  have hcapitals : weekday.code.toList.all Char.isUpper = true := by
    cases weekday <;> decide
  rw [IsCodeOf, ← map_toUpper_eq_iff (List.all_eq_true.mp hcapitals)]
  unfold ofCode?
  constructor
  · intro hfound
    have hsame := List.find?_some hfound
    exact (eq_of_beq hsame).symm
  · intro hsame
    rw [hsame]
    cases weekday <;> decide

theorem IsCodeOf.length (h : IsCodeOf text weekday) : text.length = 2 := by
  rw [h.length_eq]
  cases weekday <;> rfl

/-- A letter of a code is no blank and has one byte. -/
theorem IsCodeOf.plain {c : Char} (h : IsCodeOf text weekday) (hmem : c ∈ text) :
    isBlank c = false ∧ c.utf8Size = 1 := by
  have hletters : (weekday.code.toList.all fun letter =>
      decide ((isBlank letter = false ∧ letter.utf8Size = 1) ∧
        isBlank letter.toLower = false ∧ letter.toLower.utf8Size = 1)) = true := by
    cases weekday <;> decide
  obtain ⟨letter, hletter, hsame⟩ := Spells.exists_letter h hmem
  obtain ⟨hcapital, hsmall⟩ := of_decide_eq_true (List.all_eq_true.mp hletters letter hletter)
  rcases hsame with rfl | rfl
  · exact hcapital
  · exact hsmall

theorem IsCodeOf.utf8ByteSize (h : IsCodeOf text weekday) :
    (String.ofList text).utf8ByteSize = 2 := by
  obtain ⟨first, second, rfl⟩ := List.length_eq_two.mp h.length
  have hfirst := (h.plain List.mem_cons_self).2
  have hsecond := (h.plain (List.mem_cons_of_mem _ List.mem_cons_self)).2
  simp [hfirst, hsecond]

end Weekday

/-! ## §3 Tokens without blanks -/

namespace OrdinalWeekday

open Text Weekday

variable {front code token : List Char} {day : OrdinalWeekday}

/-- What stands in front of a code. -/
inductive IsOrdinalOf : List Char → Option Int8 → Prop
  /-- Nothing, if every one of the weekday is meant. -/
  | nothing : IsOrdinalOf [] none
  /-- An integer that is a position, if only one is meant. -/
  | position {front : List Char} {ordinal : Int8} (hinteger : IsIntegerOf front ordinal.toInt)
      (hposition : IsPosition ordinal.toInt) : IsOrdinalOf front (some ordinal)

/-- A text is a token of an ordinal weekday: its code, behind what tells which one is meant. -/
def IsToken (token : List Char) (day : OrdinalWeekday) : Prop :=
  ∃ front code, token = front ++ code ∧ IsOrdinalOf front day.ordinal ∧ IsCodeOf code day.weekday

/-- The ordinal weekday of the two pieces of a token. -/
def ofPieces? (front code : List Char) : Option OrdinalWeekday :=
  match Weekday.ofCode? code with
  | none => none
  | some weekday =>
    if front = [] then some (every weekday)
    else match (readInteger? front).bind Word.toInt8? with
      | none => none
      | some ordinal => if IsPosition ordinal.toInt then some (nth ordinal weekday) else none

/-- **Two pieces are read exactly where each is what the grammar has in its place.** -/
theorem ofPieces?_eq_some_iff :
    ofPieces? front code = some day ↔
      IsOrdinalOf front day.ordinal ∧ IsCodeOf code day.weekday := by
  unfold ofPieces?
  constructor
  · intro hread
    split at hread
    · cases hread
    · rename_i weekday hcode
      rw [ofCode?_eq_some_iff] at hcode
      split at hread
      · -- Nothing stands before the code.
        rename_i hfront
        cases hread
        rw [hfront]
        exact ⟨.nothing, hcode⟩
      · split at hread
        · cases hread
        · rename_i ordinal hordinal
          -- An integer stands there, which 8 bits must hold.
          obtain ⟨n, hinteger, hword⟩ := Option.bind_eq_some_iff.mp hordinal
          rw [Word.toInt8?_eq_some_iff] at hword
          rw [← hword, readInteger?_eq_some_iff] at hinteger
          split at hread
          · rename_i hposition
            cases hread
            exact ⟨.position hinteger hposition, hcode⟩
          · cases hread
  · obtain ⟨ordinal, weekday⟩ := day
    rintro ⟨hordinal, hcode⟩
    rw [ofCode?_eq_some_iff.mpr hcode]
    -- What the grammar has in front of a code is accepted.
    cases hordinal with
    | nothing => rfl
    | position hinteger hposition =>
      simp only [if_neg hinteger.ne_nil, readInteger?_eq_some_iff.mpr hinteger, Option.bind_some,
        Word.toInt8?_eq_some_iff.mpr rfl, if_pos hposition, nth]

/-- **Tokens without blanks around them are read exactly where the grammar has one.** -/
theorem ofTrimmed?_eq_some_iff : ofTrimmed? token = some day ↔ IsToken token day := by
  have hpieces : ofTrimmed? token =
      ofPieces? (token.take (token.length - 2)) (token.drop (token.length - 2)) := rfl
  rw [hpieces, ofPieces?_eq_some_iff]
  constructor
  · rintro ⟨hordinal, hcode⟩
    exact ⟨_, _, (List.take_append_drop _ token).symm, hordinal, hcode⟩
  · rintro ⟨front, code, rfl, hordinal, hcode⟩
    -- The code has two characters, so the token is cut in front of it.
    have hsplit : (front ++ code).length - 2 = front.length := by
      rw [List.length_append, hcode.length, Nat.add_sub_cancel]
    rw [hsplit, List.take_left, List.drop_left]
    exact ⟨hordinal, hcode⟩

theorem IsOrdinalOf.not_blank {ordinal : Option Int8} {c : Char} (h : IsOrdinalOf front ordinal)
    (hmem : c ∈ front) : isBlank c = false := by
  cases h with
  | nothing => cases hmem
  | position hinteger _ => exact hinteger.not_blank hmem

theorem IsToken.isSolid (h : IsToken token day) : IsSolid token := by
  obtain ⟨front, code, rfl, hordinal, hcode⟩ := h
  -- The code is not empty, and no character of a token is a blank.
  refine isSolid_of_forall (fun hempty => ?_) fun c hmem => ?_
  · have hlength := hcode.length
    rw [(List.append_eq_nil_iff.mp hempty).2] at hlength
    cases hlength
  · rcases List.mem_append.mp hmem with hfront | hback
    · exact hordinal.not_blank hfront
    · exact (hcode.plain hback).1

end OrdinalWeekday

/-! ## §4 Blanks around a token -/

namespace Text

variable {text body : List Char}

/-- A text is a body with nothing but blanks before and behind it. -/
def HasBlanksAround (text body : List Char) : Prop :=
  ∃ front back, text = front ++ body ++ back ∧ (∀ c ∈ front, isBlank c = true) ∧
    ∀ c ∈ back, isBlank c = true

/-- What trimming takes away at the front is blank. -/
theorem exists_blanks_append_trimFront (text : List Char) :
    ∃ front, text = front ++ trimFront text ∧ ∀ c ∈ front, isBlank c = true :=
  ⟨text.takeWhile isBlank, List.takeWhile_append_dropWhile.symm,
    List.all_eq_true.mp List.all_takeWhile⟩

theorem hasBlanksAround_trim (text : List Char) : HasBlanksAround text (trim text) := by
  obtain ⟨front, hfront, hblanks⟩ := exists_blanks_append_trimFront text
  obtain ⟨back, hback, hblanks'⟩ := exists_blanks_append_trimFront (trimFront text).reverse
  refine ⟨front, back.reverse, ?_, hblanks, fun c hmem => hblanks' c (List.mem_reverse.mp hmem)⟩
  rw [List.append_assoc, trim, ← List.reverse_append, ← hback, List.reverse_reverse, ← hfront]

theorem trim_append_of_blanks {front : List Char} (hblanks : ∀ c ∈ front, isBlank c = true) :
    trim (front ++ text) = trim text := by
  induction front with
  | nil => rfl
  | cons c front ih =>
    obtain ⟨hfirst, hrest⟩ := List.forall_mem_cons.mp hblanks
    rw [List.cons_append, trim_cons_of_isBlank hfirst, ih hrest]

theorem trim_append_blanks {back : List Char} (hblanks : ∀ c ∈ back, isBlank c = true) :
    trim (text ++ back) = trim text := by
  induction back using List.reverseRecOn with
  | nil => rw [List.append_nil]
  | append_singleton back c ih =>
    obtain ⟨hrest, hlast⟩ := List.forall_mem_append.mp hblanks
    rw [← List.append_assoc, trim_concat_of_isBlank (hlast c List.mem_cons_self), ih hrest]

/-- A body without blanks at its ends is what trimming leaves. -/
theorem HasBlanksAround.eq_trim (h : HasBlanksAround text body) (hbody : IsSolid body) :
    body = trim text := by
  obtain ⟨front, back, rfl, hfront, hback⟩ := h
  rw [trim_append_blanks hback, trim_append_of_blanks hfront, hbody.trim_eq]

/-- What a grammar has between the blanks around a text is what trimming leaves. -/
theorem exists_hasBlanksAround_iff {grammar : List Char → Prop}
    (hsolid : ∀ body, grammar body → IsSolid body) :
    (∃ body, HasBlanksAround text body ∧ grammar body) ↔ grammar (trim text) := by
  constructor
  · rintro ⟨body, hblanks, hbody⟩
    rwa [← hblanks.eq_trim (hsolid body hbody)]
  · intro hbody
    exact ⟨_, hasBlanksAround_trim text, hbody⟩

end Text

namespace OrdinalWeekday

/-- A text stands for an ordinal weekday: a token of it, with blanks around it or not. -/
def Denotes (token : String) (day : OrdinalWeekday) : Prop :=
  ∃ body, Text.HasBlanksAround token.toList body ∧ IsToken body day

theorem denotes_iff {token : String} {day : OrdinalWeekday} :
    Denotes token day ↔ IsToken (Text.trim token.toList) day :=
  Text.exists_hasBlanksAround_iff fun _ htoken => htoken.isSolid

/-! ## §5 Cutting by bytes -/

/-- Cuts a text two bytes before its end, if there are as many and that place is between two
characters. -/
def cutCode? (text : String) : Option (String × String) :=
  if h : 2 ≤ text.utf8ByteSize ∧ String.Pos.Raw.IsValid text ⟨text.utf8ByteSize - 2⟩ then
    some ((text.sliceTo (text.pos _ h.2)).copy, (text.sliceFrom (text.pos _ h.2)).copy)
  else none

/-- **The cut leaves every character whole**, and it is made wherever two bytes stand behind a
character. -/
theorem cutCode?_eq_some_iff {text front code : String} :
    cutCode? text = some (front, code) ↔ text = front ++ code ∧ code.utf8ByteSize = 2 := by
  unfold cutCode?
  constructor
  · intro hcut
    split at hcut
    · rename_i hplace
      -- The place of the cut is known by the bytes before it.
      have hsplits := (text.pos _ hplace.2).splits
      rw [Option.some.injEq, Prod.mk.injEq] at hcut
      rw [hcut.1, hcut.2] at hsplits
      have hoffset := hsplits.offset_eq_rawEndPos
      rw [String.offset_pos] at hoffset
      have hsize : text.utf8ByteSize = front.utf8ByteSize + code.utf8ByteSize := by
        rw [hsplits.eq_append, String.utf8ByteSize_append]
      have hfront : text.utf8ByteSize - 2 = front.utf8ByteSize :=
        congrArg String.Pos.Raw.byteIdx hoffset
      refine ⟨hsplits.eq_append, ?_⟩
      omega
    · cases hcut
  · rintro ⟨rfl, hcode⟩
    -- Two bytes before the end is where the first piece ends, between two characters.
    have hsize : (front ++ code).utf8ByteSize = front.utf8ByteSize + 2 := by
      rw [String.utf8ByteSize_append, hcode]
    have hoffset : (⟨(front ++ code).utf8ByteSize - 2⟩ : String.Pos.Raw) = front.rawEndPos := by
      rw [hsize, Nat.add_sub_cancel]
      rfl
    have hplace : 2 ≤ (front ++ code).utf8ByteSize ∧
        String.Pos.Raw.IsValid (front ++ code) ⟨(front ++ code).utf8ByteSize - 2⟩ :=
      ⟨by omega, String.Pos.Raw.isValid_iff_exists_append.mpr ⟨front, code, rfl, hoffset⟩⟩
    have hsplits : ((front ++ code).pos _ hplace.2).Splits front code :=
      ⟨rfl, by rw [String.offset_pos, hoffset]⟩
    obtain ⟨hfront, hback⟩ := ((front ++ code).pos _ hplace.2).splits.eq hsplits
    rw [dif_pos hplace, hfront, hback]

example : cutCode? "1ñ" = some ("1", "ñ") :=
  cutCode?_eq_some_iff.mpr ⟨by decide, by decide⟩

/-- The ordinal weekday of a token without blanks around it, cut by bytes. -/
def ofBytes? (token : String) : Option OrdinalWeekday :=
  (cutCode? token).bind fun pieces => ofPieces? pieces.1.toList pieces.2.toList

/-- **Cut by bytes, the same tokens are read.** -/
theorem ofBytes?_eq_some_iff {token : String} {day : OrdinalWeekday} :
    ofBytes? token = some day ↔ IsToken token.toList day := by
  unfold ofBytes?
  rw [Option.bind_eq_some_iff]
  constructor
  · rintro ⟨⟨front, code⟩, hcut, hpieces⟩
    obtain ⟨rfl, _⟩ := cutCode?_eq_some_iff.mp hcut
    rw [String.toList_append]
    exact ⟨_, _, rfl, ofPieces?_eq_some_iff.mp hpieces⟩
  · rintro ⟨front, code, htoken, hordinal, hcode⟩
    -- The letters of a code have a byte each, so the cut is made in front of it.
    refine ⟨(String.ofList front, String.ofList code), cutCode?_eq_some_iff.mpr ⟨?_, ?_⟩, ?_⟩
    · rw [← String.ofList_append, ← htoken, String.ofList_toList]
    · exact hcode.utf8ByteSize
    · rw [ofPieces?_eq_some_iff, String.toList_ofList, String.toList_ofList]
      exact ⟨hordinal, hcode⟩

/-- The ordinal weekday that a token stands for, where tokens are cut by bytes. -/
def readByBytes (token : String) : Except ExpansionError OrdinalWeekday :=
  match ofBytes? (String.ofList (Text.trim token.toList)) with
  | some day => .ok day
  | none => .error (.invalidByDay token)

theorem read_eq_readByBytes (token : String) : read token = readByBytes token := by
  have hsame : ofTrimmed? (Text.trim token.toList) =
      ofBytes? (String.ofList (Text.trim token.toList)) := by
    refine Option.ext fun day => ?_
    rw [ofTrimmed?_eq_some_iff, ofBytes?_eq_some_iff, String.toList_ofList]
  cases hday : ofBytes? (String.ofList (Text.trim token.toList)) <;>
    simp only [read, readByBytes, hsame, hday]

/-! ## §6 What is read and what is refused -/

/-- **Tokens are read exactly by their grammar.** A token is read as the ordinal weekday it stands
for, and refused with its own text if it stands for none. A cut two bytes before the end of what the
blanks leave reads the same, and it leaves every character whole. -/
theorem read_eq_ok_iff_denotes (token : String) :
    (∀ day, read token = .ok day ↔ Denotes token day) ∧
      (∀ cause, read token = .error cause ↔
        cause = .invalidByDay token ∧ ∀ day, ¬ Denotes token day) ∧
      read token = readByBytes token ∧
      ∀ front code, cutCode? (String.ofList (Text.trim token.toList)) = some (front, code) ↔
        String.ofList (Text.trim token.toList) = front ++ code ∧ code.utf8ByteSize = 2 := by
  have hdenotes : ∀ day,
      Denotes token day ↔ ofTrimmed? (Text.trim token.toList) = some day := fun day => by
    rw [denotes_iff, ofTrimmed?_eq_some_iff]
  refine ⟨fun day => ?_, fun cause => ?_, read_eq_readByBytes token,
    fun front code => cutCode?_eq_some_iff⟩
  · rw [hdenotes, read]
    cases ofTrimmed? (Text.trim token.toList) <;> simp
  · simp only [hdenotes, ← Option.eq_none_iff_forall_ne_some, read]
    cases ofTrimmed? (Text.trim token.toList) <;> simp [eq_comm]

end OrdinalWeekday

end RecurringDates
