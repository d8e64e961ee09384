import QtSheet.Text.Ranges

namespace QtSheet.Text

/-!
# Blanks

White space in two senses. *Layout* is what a style sheet may hold between its
tokens: space, tab, line feed, form feed and carriage return. *Blank* is the
wider class of white space of every script, with the separators of Unicode 14.
-/

/-- Whether a character is white space between the tokens of a style sheet. -/
def isLayout (c : Char) : Bool :=
  c == ' ' || c == '\t' || c == '\r' || c == '\n' || c == '\x0c'

/-- White space of Unicode 14, in ascending order. -/
def blankRanges : List Range :=
   [⟨0x9, 0xD⟩, ⟨0x1C, 0x20⟩, ⟨0x85, 0x85⟩, ⟨0xA0, 0xA0⟩, ⟨0x1680, 0x1680⟩, ⟨0x2000, 0x200A⟩,
    ⟨0x2028, 0x2029⟩, ⟨0x202F, 0x202F⟩, ⟨0x205F, 0x205F⟩, ⟨0x3000, 0x3000⟩]

/-- Whether a character is white space of any script. -/
def isBlank (c : Char) : Bool :=
  covers blankRanges c.toNat

end QtSheet.Text
