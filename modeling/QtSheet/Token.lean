import QtSheet.Excerpt
import QtSheet.Text.Quoted

namespace QtSheet

/-!
# Tokens

A token is an excerpt of a style sheet with a kind. Outside of the braces a
sheet is made of selector tokens, inside of them of declaration tokens; white
space between two parts of a selector is a token too, the descendant
combinator.
-/

/-- What an excerpt of a style sheet is. -/
inductive Kind where
  | identifier
  | hash
  | dot
  | colon
  | doubleColon
  | comma
  | slash
  | star
  | combinator
  | openBrace
  | closeBrace
  | semicolon
  | propertySeparator
  | exclamation
  | openBracket
  | closeBracket
  | attributeOperator
  | string
  | number
  | color
  | url
  | function
  | endOfInput
  deriving Repr, DecidableEq

/-- The short name of a kind. -/
def Kind.label : Kind → String
  | .identifier => "identifier"
  | .hash => "hash-id"
  | .dot => "."
  | .colon => ":"
  | .doubleColon => "::"
  | .comma => ","
  | .slash => "/"
  | .star => "*"
  | .combinator => "combinator"
  | .openBrace => "\x7b"
  | .closeBrace => "\x7d"
  | .semicolon => ";"
  | .propertySeparator => "property-separator"
  | .exclamation => "!"
  | .openBracket => "["
  | .closeBracket => "]"
  | .attributeOperator => "attribute-operator"
  | .string => "string"
  | .number => "number"
  | .color => "color"
  | .url => "url"
  | .function => "function"
  | .endOfInput => "end of input"

/-- Whether a token of a kind is itself a value, rather than what joins values. -/
def Kind.isValue : Kind → Bool
  | .identifier | .string | .number | .color | .url | .function => true
  | _ => false

/-- Whether a selector may begin with a token of a kind. -/
def Kind.startsSelector : Kind → Bool
  | .identifier | .hash | .star | .dot | .colon | .doubleColon | .openBracket => true
  | _ => false

/-- Whether a part of a selector may end with a token of a kind. -/
def Kind.endsSelectorPart : Kind → Bool
  | .identifier | .hash | .star | .closeBracket => true
  | _ => false

/-- How one selector of a chain is related to the next. -/
inductive Combinator where
  | descendant
  | child
  | adjacentSibling
  | generalSibling
  deriving Repr, DecidableEq

/-- How a combinator is written. -/
def Combinator.symbol : Combinator → String
  | .descendant => " "
  | .child => ">"
  | .adjacentSibling => "+"
  | .generalSibling => "~"

/-- The combinator of a written form; whatever is not a sign is a descendant. -/
def Combinator.ofText (text : String) : Combinator :=
  if text = ">" then .child
  else if text = "+" then .adjacentSibling
  else if text = "~" then .generalSibling
  else .descendant

/-- An excerpt of a style sheet with its kind. -/
structure Token extends Excerpt where
  kind : Kind
  deriving Repr, DecidableEq

namespace Token

/-- The combinator that a token stands for. -/
def combinator? (token : Token) : Option Combinator :=
  if token.kind = .combinator then
    some (Combinator.ofText token.text)
  else
    none

/-- How a token is named in a message. -/
def describe (token : Token) : String :=
  if token.kind = .endOfInput then
    "end of input"
  else if token.combinator? = some .descendant then
    "whitespace"
  else
    Text.quoted token.text

/-- The texts of some tokens, with one space between them. -/
def joined (tokens : List Token) : String :=
  " ".intercalate (tokens.map fun token => token.text)

end Token

end QtSheet
