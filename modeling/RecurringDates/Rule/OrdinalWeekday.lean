import RecurringDates.Calendar.Weekday
import RecurringDates.Rule.Error
import RecurringDates.Text.Decimal
import RecurringDates.Word

/-!
# Ordinal weekdays

A weekday of a month, either every one (`MO`) or only the one at a position, counted from the
start (`2TU`) or from the end (`-1FR`). Its text is a token: an optional integer, then the
weekday's code.

The main statement says that an ordinal weekday with an admissible position reads back from its
text (`OrdinalWeekday.read_write`).
-/

namespace RecurringDates

open RecurringDates.Text

/-- A weekday, with a position if only one of a month is meant. -/
structure OrdinalWeekday where
  /-- The position: from the start if positive, from the end if negative, none for every one. -/
  ordinal : Option Int8
  weekday : Weekday
deriving DecidableEq

namespace OrdinalWeekday

/-- Every one of a weekday. -/
def every (weekday : Weekday) : OrdinalWeekday :=
  ⟨none, weekday⟩

/-- The weekday at a position. -/
def nth (ordinal : Int8) (weekday : Weekday) : OrdinalWeekday :=
  ⟨some ordinal, weekday⟩

/-! ## §1 Text -/

/-- A position that a token may give: a year has at most 53 of any weekday. -/
def IsPosition (ordinal : Int) : Prop :=
  ordinal ≠ 0 ∧ -53 ≤ ordinal ∧ ordinal ≤ 53

instance (ordinal : Int) : Decidable (IsPosition ordinal) := by
  unfold IsPosition
  infer_instance

/-- The ordinal weekday of a token without blanks around it. -/
def ofTrimmed? (token : List Char) : Option OrdinalWeekday :=
  let split := token.length - 2
  match Weekday.ofCode? (token.drop split) with
  | none => none
  | some weekday =>
    if token.take split = [] then some (every weekday)
    else match (readInteger? (token.take split)).bind Word.toInt8? with
      | none => none
      | some ordinal => if IsPosition ordinal.toInt then some (nth ordinal weekday) else none

/-- The ordinal weekday that a token stands for, with blanks around it or not. -/
def read (token : String) : Except ExpansionError OrdinalWeekday :=
  match ofTrimmed? (trim token.toList) with
  | some day => .ok day
  | none => .error (.invalidByDay token)

/-- The ordinal weekdays of tokens. The first token that is none decides the error. -/
def readAll : List String → Except ExpansionError (List OrdinalWeekday)
  | [] => .ok []
  | token :: rest =>
    match read token with
    | .error cause => .error cause
    | .ok day =>
      match readAll rest with
      | .error cause => .error cause
      | .ok days => .ok (day :: days)

/-- The token of an ordinal weekday. -/
def write (day : OrdinalWeekday) : String :=
  match day.ordinal with
  | none => day.weekday.code
  | some ordinal => String.ofList (writeInteger ordinal.toInt) ++ day.weekday.code

/-! ## §2 Reading what was written -/

private theorem length_code (weekday : Weekday) : weekday.code.toList.length = 2 := by
  cases weekday <;> decide

/-- A token splits two characters before its end. -/
theorem ofTrimmed?_append_code (front : List Char) (weekday : Weekday) :
    ofTrimmed? (front ++ weekday.code.toList) =
      if front = [] then some (every weekday)
      else match (readInteger? front).bind Word.toInt8? with
        | none => none
        | some ordinal =>
          if IsPosition ordinal.toInt then some (nth ordinal weekday) else none := by
  have hsplit : (front ++ weekday.code.toList).length - 2 = front.length := by
    rw [List.length_append, length_code]
    omega
  unfold ofTrimmed?
  simp only [hsplit, List.drop_left, List.take_left, Weekday.ofCode?_code]

private theorem head_code_not_blank (weekday : Weekday) (c : Char)
    (h : weekday.code.toList.head? = some c) : isBlank c = false := by
  cases weekday <;> cases h <;> decide

private theorem last_code_not_blank (weekday : Weekday) (c : Char)
    (h : weekday.code.toList.getLast? = some c) : isBlank c = false := by
  cases weekday <;> cases h <;> decide

private theorem head_writeInteger_not_blank (n : Int) (c : Char)
    (h : (writeInteger n).head? = some c) : isBlank c = false := by
  unfold writeInteger at h
  split at h
  · cases h
    decide
  · refine isDigit_not_blank (List.all_eq_true.1 (all_isDigit_writeDigits n.natAbs) c ?_)
    exact List.mem_of_mem_head? (Option.mem_def.2 h)

theorem writeInteger_ne_nil (n : Int) : writeInteger n ≠ [] := by
  unfold writeInteger
  split
  · exact List.cons_ne_nil _ _
  · exact writeDigits_ne_nil _

private theorem isTrimmed_append_code {front : List Char} (weekday : Weekday)
    (h : ∀ c, front.head? = some c → isBlank c = false) :
    IsTrimmed (front ++ weekday.code.toList) := by
  constructor
  · intro c hhead
    rw [List.head?_append] at hhead
    cases front with
    | nil => exact head_code_not_blank weekday c hhead
    | cons d rest => exact h c hhead
  · intro c hlast
    rw [List.getLast?_append] at hlast
    refine last_code_not_blank weekday c ?_
    cases weekday <;> exact hlast

/-- **An ordinal weekday reads back from its token**, if its position is one a token may give. -/
theorem read_write {day : OrdinalWeekday}
    (hadmissible : ∀ ordinal, day.ordinal = some ordinal → IsPosition ordinal.toInt) :
    read day.write = .ok day := by
  obtain ⟨ordinal, weekday⟩ := day
  cases ordinal with
  | none =>
    -- The token is the bare code.
    have hbare : IsTrimmed ([] ++ weekday.code.toList) :=
      isTrimmed_append_code weekday (by intro c h; cases h)
    have htrimmed : trim weekday.code.toList = weekday.code.toList := trim_eq_self hbare
    have htail := ofTrimmed?_append_code [] weekday
    rw [List.nil_append, if_pos rfl] at htail
    simp only [read, write, htrimmed, htail, every]
  | some ordinal =>
    -- The token is the position and the code, and the split falls between them.
    have htrimmed := trim_eq_self
      (isTrimmed_append_code weekday (head_writeInteger_not_blank ordinal.toInt))
    have htail := ofTrimmed?_append_code (writeInteger ordinal.toInt) weekday
    rw [if_neg (writeInteger_ne_nil _), readInteger?_writeInteger, Option.bind_some,
      Word.toInt8?_eq_some_iff.2 rfl] at htail
    simp only [if_pos (hadmissible ordinal rfl)] at htail
    simp only [read, write, String.toList_append, String.toList_ofList, htrimmed, htail, nth]

end OrdinalWeekday

end RecurringDates
