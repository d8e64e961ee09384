import QtSheet.Property
import QtSheet.Token
import QtSheet.Value.Grammar

namespace QtSheet

/-!
# Values and shapes

A value fits a shape by its words, when the shape is some words, and otherwise
by the terms of its text.
-/

namespace Value

/-- Whether the text of a value is terms that pass a test. -/
def hasTerms (test : List Term → Bool) (tokens : List Token) : Bool :=
  (terms? (Token.joined tokens).toList).any test

/-- Whether a token is one of some words. -/
def isKeyword (words : List String) (token : Token) : Bool :=
  (token.kind = .identifier || token.kind = .number) &&
    words.contains (Text.lowercase token.text)

end Value

/-- Whether the value made of some tokens has a shape. -/
def Shape.fits (shape : Shape) (tokens : List Token) : Bool :=
  match shape with
  | .any => true
  | .keyword words most =>
      1 ≤ tokens.length && tokens.length ≤ most && tokens.all (Value.isKeyword words)
  | .color => Value.hasTerms Value.color.isWhole tokens
  | .brush => Value.hasTerms Value.brush.isWhole tokens
  | .colors => Value.hasTerms Value.isColors tokens
  | .length => Value.hasTerms Value.length.isWhole tokens
  | .box => Value.hasTerms Value.isBox tokens
  | .border => Value.hasTerms Value.isBorder tokens
  | .font => Value.hasTerms Value.isFont tokens
  | .fontFamily => Value.hasTerms Value.isFamilies tokens
  | .url => Value.hasTerms Value.isUrl tokens
  | .number => Value.hasTerms Value.isNumber tokens

end QtSheet
