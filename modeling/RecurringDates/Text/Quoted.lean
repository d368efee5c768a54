import RecurringDates.Text.Unprintable

/-!
# Quoted text

Text inside quotation marks, as error messages show it. A quotation mark and a backslash get a
backslash, the usual control characters have letters, every other character that does not show by
itself is given by its code point, and all else stands as it is.
-/

namespace RecurringDates.Text

/-- The hexadecimal digits of a number in small letters. -/
def writeHex (n : Nat) : List Char :=
  Nat.toDigits 16 n

/-- One character of a quoted text. -/
def quoteChar (c : Char) : List Char :=
  if c = '"' then ['\\', '"']
  else if c = '\\' then ['\\', '\\']
  else if c = '\x00' then ['\\', '0']
  else if c = '\t' then ['\\', 't']
  else if c = '\n' then ['\\', 'n']
  else if c = '\r' then ['\\', 'r']
  else if isUnprintable c then ['\\', 'u', '\x7b'] ++ writeHex c.toNat ++ ['\x7d']
  else [c]

/-- A text between quotation marks. -/
def quote (text : String) : String :=
  String.ofList ('"' :: text.toList.flatMap quoteChar ++ ['"'])

end RecurringDates.Text
