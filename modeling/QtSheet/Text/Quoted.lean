import QtSheet.Text.Printable

namespace QtSheet.Text

/-!
# Quoted text

Messages show a piece of text between quotation marks, with the characters that
would not be seen written as escapes. The mark is the apostrophe, unless the
text holds an apostrophe and no double quote.
-/

/-- The mark that stands around a quoted text. -/
def quotationMark (text : List Char) : Char :=
  if text.contains '\x27' && !text.contains '"' then '"' else '\x27'

/-- One hexadecimal digit, in lower case. -/
def hexDigit (value : Nat) : Char :=
  if value < 10 then Char.ofNat (48 + value) else Char.ofNat (87 + value)

/-- The last `width` hexadecimal digits of a number. -/
def hexDigits : Nat → Nat → List Char
  | 0, _ => []
  | width + 1, value => hexDigits width (value / 16) ++ [hexDigit (value % 16)]

/-- An escape that names a character by its code point, in two, four or eight digits. -/
def codePointEscape (c : Char) : List Char :=
  if c.toNat < 0x100 then
    '\\' :: 'x' :: hexDigits 2 c.toNat
  else if c.toNat < 0x10000 then
    '\\' :: 'u' :: hexDigits 4 c.toNat
  else
    '\\' :: 'U' :: hexDigits 8 c.toNat

/-- How one character is written between the given marks. -/
def escaped (mark c : Char) : List Char :=
  if c = mark || c = '\\' then
    ['\\', c]
  else if c = '\t' then
    ['\\', 't']
  else if c = '\n' then
    ['\\', 'n']
  else if c = '\r' then
    ['\\', 'r']
  else if isPrintable c then
    [c]
  else
    codePointEscape c

/-- A text between quotation marks, as a list of characters. -/
def quotedCharacters (text : List Char) : List Char :=
  let mark := quotationMark text
  mark :: text.flatMap (escaped mark) ++ [mark]

/-- A text between quotation marks. -/
def quoted (text : String) : String :=
  String.ofList (quotedCharacters text.toList)

end QtSheet.Text
