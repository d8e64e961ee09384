import QtSheet.Piece

namespace QtSheet

/-!
# Token streams

The pieces of a text become tokens and lexical findings, each with its place.
Gaps are dropped, except that a gap between two parts of a selector becomes one
token, the descendant combinator. The stream ends with the end of the input.
-/

open Text

/-- A piece and the position where it begins. -/
structure PlacedPiece where
  position : Position
  piece : Piece
  deriving Repr, DecidableEq

namespace PlacedPiece

/-- The characters of a placed piece, with their place. -/
def excerpt (placed : PlacedPiece) : Excerpt :=
  Excerpt.ofPosition placed.position placed.piece.text

/-- The finding that a piece gives rise to. -/
def diagnostic? (placed : PlacedPiece) : Option Diagnostic :=
  match placed.piece with
  | .stray character =>
      some {
        toExcerpt := placed.excerpt
        severity := .lexical
        message := "unexpected character " ++ quoted (String.singleton character)
      }
  | .unterminated construct _ =>
      some {
        toExcerpt := placed.excerpt
        severity := .lexical
        message := "unterminated " ++ construct.label
      }
  | _ => none

/-- A finding is about a stray character or a construct without its end. -/
theorem exists_message_of_diagnostic?
    {placed : PlacedPiece}
    {finding : Diagnostic}
    (isFinding : placed.diagnostic? = some finding) :
    ∃ message,
      finding = { toExcerpt := placed.excerpt, severity := .lexical, message := message } ∧
        ((∃ character,
            placed.piece = .stray character ∧
              message = "unexpected character " ++ quoted (String.singleton character)) ∨
          ∃ construct text,
            placed.piece = .unterminated construct text ∧
              message = "unterminated " ++ construct.label) := by
  revert isFinding
  fun_cases diagnostic? placed with
  | case1 character isStray =>
      rintro ⟨⟩
      exact ⟨_, rfl, .inl ⟨character, isStray, rfl⟩⟩
  | case2 construct text isOpen =>
      rintro ⟨⟩
      exact ⟨_, rfl, .inr ⟨construct, text, isOpen, rfl⟩⟩
  | case3 =>
      rintro ⟨⟩

end PlacedPiece

/-- Place pieces one after another, from a position on. -/
def place (position : Position) : List Piece → List PlacedPiece
  | [] => []
  | piece :: rest => ⟨position, piece⟩ :: place (position.after piece.text) rest

/-- What the pieces so far leave open. -/
structure Joint where
  /-- The number of open braces. -/
  depth : Nat
  /-- The kind of the last token. -/
  last? : Option Kind
  /-- The gap since the last token, when it stands outside of all braces. -/
  gap? : Option (Position × List Char)
  deriving Repr, DecidableEq

namespace Joint

/-- Nothing has been read. -/
def first : Joint where
  depth := 0
  last? := none
  gap? := none

/-- The gap with one more stretch of white space or comment. -/
def widen (joint : Joint) (position : Position) (text : List Char) : Position × List Char :=
  match joint.gap? with
  | none => (position, text)
  | some (start, before) => (start, before ++ text)

/-- The descendant combinator that the gap before a token stands for. -/
def combinator? (joint : Joint) (kind : Kind) : Option Token :=
  match joint.gap?, joint.last? with
  | some (position, text), some last =>
      if kind.startsSelector && last.endsSelectorPart then
        some { toExcerpt := Excerpt.ofPosition position text, kind := .combinator }
      else
        none
  | _, _ => none

/-- What is left open after one more piece. -/
def next (joint : Joint) (placed : PlacedPiece) : Joint :=
  match placed.piece with
  | .gap text =>
      if joint.depth = 0 then
        { joint with gap? := some (joint.widen placed.position text) }
      else
        joint
  | .token kind _ =>
      { depth := placed.piece.depthAfter joint.depth, last? := some kind, gap? := none }
  | .stray _ => { joint with gap? := none }
  | .unterminated _ _ => joint

/-- The tokens that one more piece adds. -/
def emitted (joint : Joint) (placed : PlacedPiece) : List Token :=
  match placed.piece with
  | .token kind _ =>
      (joint.combinator? kind).toList ++ [{ toExcerpt := placed.excerpt, kind := kind }]
  | _ => []

/-- The tokens of placed pieces, after what has been read before. -/
def tokens (joint : Joint) : List PlacedPiece → List Token
  | [] => []
  | placed :: rest => joint.emitted placed ++ (joint.next placed).tokens rest

end Joint

/-- The token at the end of a text. -/
def endToken (text : List Char) : Token where
  toExcerpt := Excerpt.ofPosition (Position.first.after text) []
  kind := .endOfInput

/-- The pieces of a style sheet, each in its place. -/
def placedPieces (text : List Char) : List PlacedPiece :=
  place Position.first (pieces 0 text)

/-- The tokens of a style sheet and the findings about its characters. -/
structure TokenStream where
  tokens : List Token
  diagnostics : List Diagnostic
  deriving Repr, DecidableEq

/-- Split a style sheet into tokens. -/
def tokenize (source : String) : TokenStream where
  tokens := Joint.first.tokens (placedPieces source.toList) ++ [endToken source.toList]
  diagnostics := (placedPieces source.toList).filterMap PlacedPiece.diagnostic?

end QtSheet
