namespace QtSheet

/-!
# Positions

A position counts the characters before a point of a text, and gives the line
and the column of the point. Lines and columns begin at one, and only a line
feed ends a line.
-/

/-- A point of a text. -/
structure Position where
  offset : Nat
  line : Nat
  column : Nat
  deriving Repr, DecidableEq

namespace Position

/-- The point before the first character. -/
def first : Position where
  offset := 0
  line := 1
  column := 1

/-- The point after one more character. -/
def next (position : Position) (c : Char) : Position :=
  if c = '\n' then
    ⟨position.offset + 1, position.line + 1, 1⟩
  else
    ⟨position.offset + 1, position.line, position.column + 1⟩

/-- The point after a stretch of text. -/
def after (position : Position) (text : List Char) : Position :=
  text.foldl next position

@[simp] theorem after_nil (position : Position) :
    position.after [] = position :=
  rfl

@[simp] theorem after_cons (position : Position) (c : Char) (text : List Char) :
    position.after (c :: text) = (position.next c).after text :=
  rfl

@[simp] theorem after_append (position : Position) (front back : List Char) :
    position.after (front ++ back) = (position.after front).after back :=
  List.foldl_append

/-- A character takes the position on by one. -/
@[simp] theorem offset_next (position : Position) (c : Char) :
    (position.next c).offset = position.offset + 1 := by
  unfold next
  split <;> rfl

/-- The offset grows by the length of the text passed. -/
@[simp] theorem offset_after (position : Position) (text : List Char) :
    (position.after text).offset = position.offset + text.length := by
  induction text generalizing position with
  | nil =>
      rfl
  | cons c rest inductionHypothesis =>
      simp only [after_cons, inductionHypothesis, offset_next, List.length_cons]
      omega

end Position

end QtSheet
