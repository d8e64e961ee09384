import QtSheet.Token

namespace QtSheet

/-!
# Style sheets

A style sheet is a list of rules. A rule names what it styles, by one or more
chains of selectors, and says how, by declarations. The parts keep their place
in the text and the tokens that later checks point at.
-/

/-- A pseudo-state of a selector, as in `:hover` or `:!hover`. -/
structure PseudoState where
  name : String
  negated : Bool
  token : Token
  deriving Repr, DecidableEq

/-- How a pseudo-state is written after its colon. -/
def PseudoState.text (state : PseudoState) : String :=
  if state.negated then "!" ++ state.name else state.name

/-- An attribute test of a selector, as in `[flat]` or `[flat="true"]`. -/
structure AttributeTest where
  name : String
  operator? : Option String
  value? : Option String
  deriving Repr, DecidableEq

/-- One selector, as in `QPushButton#ok.primary:hover`. -/
structure Selector where
  typeName? : Option String
  id? : Option String
  classes : List String
  pseudoStates : List PseudoState
  subControl? : Option Token
  attributes : List AttributeTest
  /-- The relation to the next selector of the chain; the last one has none. -/
  combinator? : Option Combinator
  start : Int
  length : Int
  deriving Repr, DecidableEq

/-- A selector without any part. -/
def Selector.bare (start : Int) : Selector where
  typeName? := none
  id? := none
  classes := []
  pseudoStates := []
  subControl? := none
  attributes := []
  combinator? := none
  start := start
  length := 0

/-- Selectors joined by combinators. -/
abbrev Chain := List Selector

/-- The selector of a chain that its rule styles, the last one. -/
def Chain.subject? (chain : Chain) : Option Selector :=
  chain.getLast?

/-- A property and the value it is given. -/
structure Declaration where
  property : String
  /-- The tokens of the value, with the commas and slashes between them. -/
  values : List Token
  start : Int
  length : Int
  propertyToken? : Option Token
  important : Bool
  deriving Repr, DecidableEq

/-- The value of a declaration as text, one space between its tokens. -/
def Declaration.valueText (declaration : Declaration) : String :=
  Token.joined declaration.values

/-- What is styled and how. -/
structure Rule where
  chains : List Chain
  declarations : List Declaration
  start : Int
  length : Int
  deriving Repr, DecidableEq

/-- A style sheet. -/
structure Sheet where
  rules : List Rule
  deriving Repr, DecidableEq

namespace Sheet

/-- All declarations of a sheet, in order. -/
def declarations (sheet : Sheet) : List Declaration :=
  sheet.rules.flatMap fun rule => rule.declarations

/-- All selectors of a sheet, in order. -/
def selectors (sheet : Sheet) : List Selector :=
  sheet.rules.flatMap fun rule => rule.chains.flatten

end Sheet

end QtSheet
