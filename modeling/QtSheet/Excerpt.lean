import QtSheet.Position

namespace QtSheet

/-!
# Excerpts

An excerpt is a stretch of a text together with its place. The tokens of a
style sheet and the findings about it are both excerpts with something added.
The numbers are integers: a token list may come from elsewhere than a text, and
its places are then taken as they are.
-/

/-- A stretch of text and its place. -/
structure Excerpt where
  /-- The characters themselves. -/
  text : String
  /-- The offset of the first character. -/
  start : Int
  /-- The number of characters covered. -/
  length : Int
  /-- The line of the first character, counted from one. -/
  line : Int
  /-- The column of the first character, counted from one. -/
  column : Int
  deriving Repr, DecidableEq

namespace Excerpt

/-- The offset just past the last character. -/
def stop (excerpt : Excerpt) : Int :=
  excerpt.start + excerpt.length

/-- No text, at the beginning. -/
def empty : Excerpt where
  text := ""
  start := 0
  length := 0
  line := 1
  column := 1

/-- The excerpt of a text that begins at a given position. -/
def ofPosition (position : Position) (text : List Char) : Excerpt where
  text := String.ofList text
  start := position.offset
  length := text.length
  line := position.line
  column := position.column

end Excerpt

end QtSheet
