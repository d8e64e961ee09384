import QtSheet.Text.Blank
import QtSheet.Text.DecimalDigit

namespace QtSheet.Text

/-!
# Integers

How an integer is written: decimal digits of any script with single low lines
between them where they are wanted, a possible sign in front, and blanks around
all of it. The information separators do not count as blanks here, and there is
a limit to the number of digits.
-/

/-- Whether a character may stand around an integer. -/
def isIntegerPadding (c : Char) : Bool :=
  isBlank c && !(0x1C ≤ c.toNat && c.toNat ≤ 0x1F)

/-- A text without the padding around an integer. -/
def withoutPadding (text : List Char) : List Char :=
  ((text.dropWhile isIntegerPadding).reverse.dropWhile isIntegerPadding).reverse

/-- The values of digits with single low lines between them. -/
def digitValues? : List Char → Option (List Nat)
  | [] => none
  | [c] => (digitValue? c).map fun value => [value]
  | c :: '_' :: rest =>
      (digitValue? c).bind fun value => (digitValues? rest).map fun values => value :: values
  | c :: rest =>
      (digitValue? c).bind fun value => (digitValues? rest).map fun values => value :: values

/-- The number of digits that an integer may have. -/
def digitLimit : Nat :=
  4300

/-- The number that is written in digits. -/
def magnitude? (text : List Char) : Option Nat :=
  (digitValues? text).bind fun values =>
    if values.length ≤ digitLimit then
      some (values.foldl (fun number value => number * 10 + value) 0)
    else
      none

/-- The integer that is written with a possible sign. -/
def signedInteger? : List Char → Option Int
  | '-' :: rest => (magnitude? rest).map fun number => -(number : Int)
  | '+' :: rest => (magnitude? rest).map Int.ofNat
  | text => (magnitude? text).map Int.ofNat

/-- The integer that a text is. -/
def integer? (text : String) : Option Int :=
  signedInteger? (withoutPadding text.toList)

end QtSheet.Text
