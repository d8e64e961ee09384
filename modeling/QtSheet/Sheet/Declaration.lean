import QtSheet.Sheet
import QtSheet.Sheet.Reading
import QtSheet.Text.Lowercase

namespace QtSheet

/-!
# Reading declarations

A declaration is the name of a property, a colon, values with single commas and
slashes between them where they are wanted, and a possible `!important`. It
ends with a semicolon, or in front of what closes the block.
-/

/-- Whether a token of a kind may stand between two values. -/
def Kind.separatesValues : Kind → Bool
  | .comma | .slash => true
  | _ => false

/--
The values at the front of the tokens, and the tokens after them. A separator
only follows a value.
-/
def cutValues (afterValue : Bool) : List Token → List Token × List Token
  | [] => ([], [])
  | token :: rest =>
      if token.kind.isValue || (afterValue && token.kind.separatesValues) then
        let cut := cutValues token.kind.isValue rest
        (token :: cut.1, cut.2)
      else
        ([], token :: rest)

/-- Cutting values loses nothing. -/
theorem append_cutValues (afterValue : Bool) (tokens : List Token) :
    (cutValues afterValue tokens).1 ++ (cutValues afterValue tokens).2 = tokens := by
  induction tokens generalizing afterValue with
  | nil =>
      rfl
  | cons token rest inductionHypothesis =>
      rw [cutValues]
      split
      · simp [inductionHypothesis]
      · rfl

/-- The tokens after the values are the end of the tokens. -/
theorem suffix_cutValues (afterValue : Bool) (tokens : List Token) :
    (cutValues afterValue tokens).2 <:+ tokens :=
  ⟨_, append_cutValues afterValue tokens⟩

namespace Declaration

/-- Read the value of a property; its last token is a value itself. -/
def readValues (property : String) (tokens : List Token) : Reading (List Token × Token) :=
  let cut := cutValues false tokens
  match cut.1.getLast? with
  | some last =>
      if last.kind.isValue then
        .done (cut.1, last) cut.2
      else
        .stuck (.propertyValue property) cut.2
  | none => .stuck (.propertyValue property) cut.2

/-- Whether a token is the word that makes a declaration important. -/
def isImportance (word : Token) : Bool :=
  word.kind = .identifier && Text.lowercase word.text = "important"

/-- Read the word after an exclamation mark. -/
def readImportanceWord : List Token → Reading Token
  | [] => .stuck .importance []
  | word :: rest =>
      if isImportance word then
        .done word rest
      else
        .stuck .importance (word :: rest)

/-- Read a possible `!important`: whether it is there, and the last token read. -/
def readImportance (last : Token) : List Token → Reading (Bool × Token)
  | [] => .done (false, last) []
  | mark :: rest =>
      if mark.kind = .exclamation then
        (readImportanceWord rest).map fun word => (true, word)
      else
        .done (false, last) (mark :: rest)

/-- Read the end of a declaration: a semicolon, or nothing in front of the end of the block. -/
def readEnd (property : String) : List Token → Reading Unit
  | [] => .done () []
  | token :: rest =>
      if token.kind = .semicolon then
        .done () rest
      else if token.kind = .closeBrace then
        .done () (token :: rest)
      else
        .stuck (.declarationEnd property) (token :: rest)

/-- Read a declaration after the name of its property. -/
def read (name : Token) (tokens : List Token) : Reading Declaration :=
  (expect .propertySeparator (.propertySeparator name.text) tokens).andThen fun _ rest =>
    (readValues name.text rest).andThen fun (values, lastValue) rest =>
      (readImportance lastValue rest).andThen fun (important, last) rest =>
        (readEnd name.text rest).map fun _ =>
          {
            property := name.text
            values := values
            start := name.start
            length := last.stop - name.start
            propertyToken? := some name
            important := important
          }

theorem rest_readValues (property : String) (tokens : List Token) :
    (readValues property tokens).rest <:+ tokens := by
  unfold readValues
  dsimp only
  split
  · split <;> exact suffix_cutValues false tokens
  · exact suffix_cutValues false tokens

theorem rest_readImportanceWord (tokens : List Token) :
    (readImportanceWord tokens).rest <:+ tokens := by
  cases tokens with
  | nil =>
      exact List.suffix_rfl
  | cons word rest =>
      rw [readImportanceWord]
      split
      · exact List.suffix_cons word rest
      · exact List.suffix_rfl

theorem rest_readImportance (last : Token) (tokens : List Token) :
    (readImportance last tokens).rest <:+ tokens := by
  cases tokens with
  | nil =>
      exact List.suffix_rfl
  | cons mark rest =>
      rw [readImportance]
      split
      · rw [Reading.rest_map]
        exact (rest_readImportanceWord rest).trans (List.suffix_cons mark rest)
      · exact List.suffix_rfl

theorem rest_readEnd (property : String) (tokens : List Token) :
    (readEnd property tokens).rest <:+ tokens := by
  cases tokens with
  | nil =>
      exact List.suffix_rfl
  | cons token rest =>
      rw [readEnd]
      split
      · exact List.suffix_cons token rest
      · split <;> exact List.suffix_rfl

/-- Reading a declaration leaves the end of the tokens. -/
theorem rest_read (name : Token) (tokens : List Token) :
    (read name tokens).rest <:+ tokens := by
  unfold read
  refine Reading.rest_andThen (rest_expect _ _ _) fun _ rest _ => ?_
  refine Reading.rest_andThen (rest_readValues _ _) fun _ rest _ => ?_
  refine Reading.rest_andThen (rest_readImportance _ _) fun _ rest _ => ?_
  rw [Reading.rest_map]
  exact rest_readEnd _ _

/-- A declaration read leaves no more tokens than were given. -/
theorem length_of_read
    {name : Token}
    {tokens rest : List Token}
    {declaration : Declaration}
    (done : read name tokens = .done declaration rest) :
    rest.length ≤ tokens.length := by
  have within := rest_read name tokens
  rw [done] at within
  exact within.length_le

/-- A fault in a declaration leaves no more tokens than were given. -/
theorem length_of_stuck
    {name : Token}
    {tokens rest : List Token}
    {reason : Reason}
    (stuck : read name tokens = .stuck reason rest) :
    rest.length ≤ tokens.length := by
  have within := rest_read name tokens
  rw [stuck] at within
  exact within.length_le

end Declaration

end QtSheet
