import QtSheet.Sheet.Source

namespace QtSheet.Grammar

/-!
# The grammar of style sheets

Which tokens form a style sheet, and which sheet they form. Each relation below
is one rule of the grammar: it relates a list of tokens to what the list stands
for. The relations do not say how a list is to be read, and nothing in them
speaks of faults; that reading finds exactly these sheets is shown elsewhere.

```text
sheet       = rule*
rule        = chain (',' chain)* '{' block '}'
block       = (declaration ';' | ';')* declaration?
chain       = selector (combinator selector | selector that begins with a type)*
selector    = type? qualifier*
qualifier   = id | '.' name | ':' '!'? name | '::' name
            | '[' name (operator (string | name))? ']'
declaration = name ':' value ((',' | '/')? value)* ('!' 'important')?
```
-/

/-- What one qualifier says about a selector. -/
inductive Part where
  | id (name : String)
  | className (name : String)
  | pseudoState (state : PseudoState)
  | subControl (name : Token)
  | attributeTest (test : AttributeTest)
  deriving Repr, DecidableEq

namespace Part

/-- The id that a part gives. -/
def id? : Part → Option String
  | .id name => some name
  | _ => none

/-- The class that a part gives. -/
def className? : Part → Option String
  | .className name => some name
  | _ => none

/-- The pseudo-state that a part gives. -/
def pseudoState? : Part → Option PseudoState
  | .pseudoState state => some state
  | _ => none

/-- The sub-control that a part gives. -/
def subControl? : Part → Option Token
  | .subControl name => some name
  | _ => none

/-- The attribute test that a part gives. -/
def attributeTest? : Part → Option AttributeTest
  | .attributeTest test => some test
  | _ => none

end Part

/--
Tokens that form one qualifier. A name stands directly after its mark, and so
does the exclamation mark of a negated pseudo-state; an attribute test may have
gaps.
-/
inductive QualifierForm : List Token → Part → Prop where
  | id {hash : Token} :
      hash.kind = .hash →
      QualifierForm [hash]
        (.id (String.ofList (hash.text.toList.drop 1)))
  | className {dot name : Token} :
      dot.kind = .dot →
      name.kind = .identifier →
      name.start = dot.stop →
      QualifierForm [dot, name] (.className name.text)
  | pseudoState {colon name : Token} :
      colon.kind = .colon →
      name.kind = .identifier →
      name.start = colon.stop →
      QualifierForm [colon, name]
        (.pseudoState ⟨name.text, false, name⟩)
  | negatedPseudoState {colon mark name : Token} :
      colon.kind = .colon →
      mark.kind = .exclamation →
      mark.start = colon.stop →
      name.kind = .identifier →
      name.start = mark.stop →
      QualifierForm [colon, mark, name]
        (.pseudoState ⟨name.text, true, name⟩)
  | subControl {colons name : Token} :
      colons.kind = .doubleColon →
      name.kind = .identifier →
      name.start = colons.stop →
      QualifierForm [colons, name] (.subControl name)
  | attributeTest {opening name closing : Token} :
      opening.kind = .openBracket →
      name.kind = .identifier →
      closing.kind = .closeBracket →
      QualifierForm [opening, name, closing]
        (.attributeTest ⟨name.text, none, none⟩)
  | attributeStringTest {opening name operator value closing : Token} :
      opening.kind = .openBracket →
      name.kind = .identifier →
      operator.kind = .attributeOperator →
      value.kind = .string →
      closing.kind = .closeBracket →
      QualifierForm [opening, name, operator, value, closing]
        (.attributeTest ⟨name.text, some operator.text,
          some (String.ofList (value.text.toList.drop 1).dropLast)⟩)
  | attributeWordTest {opening name operator value closing : Token} :
      opening.kind = .openBracket →
      name.kind = .identifier →
      operator.kind = .attributeOperator →
      value.kind = .identifier →
      closing.kind = .closeBracket →
      QualifierForm [opening, name, operator, value, closing]
        (.attributeTest ⟨name.text, some operator.text, some value.text⟩)

/-- Tokens that form qualifiers, one after another. -/
inductive QualifiersForm : List Token → List Part → Prop where
  | nil :
      QualifiersForm [] []
  | cons
      {tokens rest : List Token}
      {part : Part}
      {parts : List Part} :
      QualifierForm tokens part →
      QualifiersForm rest parts →
      QualifiersForm (tokens ++ rest) (part :: parts)

/--
The selector that parts make up, from its first token to its last one. A class
that is named twice counts once.
-/
def assemble
    (first last : Token)
    (typeName? : Option String)
    (parts : List Part) :
    Selector where
  typeName? := typeName?
  id? := (parts.filterMap Part.id?).head?
  classes := (parts.filterMap Part.className?).eraseDups
  pseudoStates := parts.filterMap Part.pseudoState?
  subControl? := (parts.filterMap Part.subControl?).head?
  attributes := parts.filterMap Part.attributeTest?
  combinator? := none
  start := first.start
  length := last.stop - first.start

/-- Tokens that form a selector: a type or a star, then qualifiers, and not nothing at all. -/
inductive SelectorForm : List Token → Selector → Prop where
  | intro
      {type? : Option Token}
      {qualifiers : List Token}
      {parts : List Part}
      {first last : Token} :
      (∀ type ∈ type?, type.kind = .identifier ∨ type.kind = .star) →
      QualifiersForm qualifiers parts →
      (parts.filterMap Part.id?).length ≤ 1 →
      (parts.filterMap Part.subControl?).length ≤ 1 →
      (type?.toList ++ qualifiers).head? = some first →
      (type?.toList ++ qualifiers).getLast? = some last →
      SelectorForm (type?.toList ++ qualifiers)
        (assemble first last (type?.map fun type => type.text) parts)

/-- A type or a star and qualifiers behind it form a selector. -/
theorem SelectorForm.typed
    {type last : Token}
    {qualifiers : List Token}
    {parts : List Part}
    (isType : type.kind = .identifier ∨ type.kind = .star)
    (form : QualifiersForm qualifiers parts)
    (oneId : (parts.filterMap Part.id?).length ≤ 1)
    (oneControl : (parts.filterMap Part.subControl?).length ≤ 1)
    (isLast : (type :: qualifiers).getLast? = some last) :
    SelectorForm (type :: qualifiers) (assemble type last (some type.text) parts) := by
  change SelectorForm ((some type).toList ++ qualifiers)
    (assemble type last ((some type).map fun type => type.text) parts)
  refine .intro ?_ form oneId oneControl rfl isLast
  rintro other ⟨⟩
  exact isType

/-- Qualifiers form a selector without a type. -/
theorem SelectorForm.untyped
    {first last : Token}
    {others : List Token}
    {parts : List Part}
    (form : QualifiersForm (first :: others) parts)
    (oneId : (parts.filterMap Part.id?).length ≤ 1)
    (oneControl : (parts.filterMap Part.subControl?).length ≤ 1)
    (isLast : (first :: others).getLast? = some last) :
    SelectorForm (first :: others) (assemble first last none parts) := by
  change SelectorForm ((none : Option Token).toList ++ first :: others)
    (assemble first last ((none : Option Token).map fun type => type.text) parts)
  exact .intro (by simp) form oneId oneControl rfl isLast

/--
Tokens that form a chain. Without a combinator, the next selector begins with a
type or a star and is a descendant.
-/
inductive ChainForm : List Token → Chain → Prop where
  | last
      {tokens : List Token}
      {selector : Selector} :
      SelectorForm tokens selector →
      ChainForm tokens [selector]
  | combined
      {tokens rest : List Token}
      {selector : Selector}
      {sign : Token}
      {chain : Chain} :
      SelectorForm tokens selector →
      sign.kind = .combinator →
      ChainForm rest chain →
      ChainForm (tokens ++ sign :: rest)
        ({ selector with
            combinator? := some (Combinator.ofText sign.text) } :: chain)
  | direct
      {tokens rest : List Token}
      {selector : Selector}
      {type : Token}
      {chain : Chain} :
      SelectorForm tokens selector →
      type.kind = .identifier ∨ type.kind = .star →
      ChainForm (type :: rest) chain →
      ChainForm (tokens ++ type :: rest)
        ({ selector with combinator? := some .descendant } :: chain)

/-- Tokens that form chains with commas between them. -/
inductive ChainsForm : List Token → List Chain → Prop where
  | last
      {tokens : List Token}
      {chain : Chain} :
      ChainForm tokens chain →
      ChainsForm tokens [chain]
  | cons
      {tokens rest : List Token}
      {chain : Chain}
      {comma : Token}
      {chains : List Chain} :
      ChainForm tokens chain →
      comma.kind = .comma →
      ChainsForm rest chains →
      ChainsForm (tokens ++ comma :: rest) (chain :: chains)

/-- Tokens that form a value: at least one value, and single commas or slashes only between two. -/
inductive ValuesForm : List Token → Prop where
  | last {value : Token} :
      value.kind.isValue →
      ValuesForm [value]
  | next
      {value : Token}
      {rest : List Token} :
      value.kind.isValue →
      ValuesForm rest →
      ValuesForm (value :: rest)
  | separated
      {value separator : Token}
      {rest : List Token} :
      value.kind.isValue →
      separator.kind = .comma ∨ separator.kind = .slash →
      ValuesForm rest →
      ValuesForm (value :: separator :: rest)

/-- Tokens that make a declaration important, or none. -/
inductive ImportanceForm : List Token → Bool → Prop where
  | absent :
      ImportanceForm [] false
  | present {mark word : Token} :
      mark.kind = .exclamation →
      word.kind = .identifier →
      Text.lowercase word.text = "important" →
      ImportanceForm [mark, word] true

/-- Tokens that form a declaration, without a semicolon after it. -/
inductive DeclarationForm : List Token → Declaration → Prop where
  | intro
      {name colon last : Token}
      {values importance : List Token}
      {important : Bool} :
      name.kind = .identifier →
      colon.kind = .propertySeparator →
      ValuesForm values →
      ImportanceForm importance important →
      (values ++ importance).getLast? = some last →
      DeclarationForm (name :: colon :: (values ++ importance))
        {
          property := name.text
          values := values
          start := name.start
          length := last.stop - name.start
          propertyToken? := some name
          important := important
        }

/-- Tokens that form the inside of a block. -/
inductive BlockForm : List Token → List Declaration → Prop where
  | nil :
      BlockForm [] []
  | last
      {tokens : List Token}
      {declaration : Declaration} :
      DeclarationForm tokens declaration →
      BlockForm tokens [declaration]
  | semicolon
      {semicolon : Token}
      {rest : List Token}
      {declarations : List Declaration} :
      semicolon.kind = .semicolon →
      BlockForm rest declarations →
      BlockForm (semicolon :: rest) declarations
  | cons
      {tokens rest : List Token}
      {declaration : Declaration}
      {semicolon : Token}
      {declarations : List Declaration} :
      DeclarationForm tokens declaration →
      semicolon.kind = .semicolon →
      BlockForm rest declarations →
      BlockForm (tokens ++ semicolon :: rest) (declaration :: declarations)

/-- Tokens that form a rule. -/
inductive RuleForm : List Token → Rule → Prop where
  | intro
      {group block : List Token}
      {first opening closing : Token}
      {chains : List Chain}
      {declarations : List Declaration} :
      ChainsForm group chains →
      group.head? = some first →
      opening.kind = .openBrace →
      BlockForm block declarations →
      closing.kind = .closeBrace →
      RuleForm (group ++ opening :: (block ++ [closing]))
        {
          chains := chains
          declarations := declarations
          start := first.start
          length := closing.stop - first.start
        }

/-- Tokens that form the rules of a sheet. -/
inductive RulesForm : List Token → List Rule → Prop where
  | nil :
      RulesForm [] []
  | cons
      {tokens rest : List Token}
      {rule : Rule}
      {rules : List Rule} :
      RuleForm tokens rule →
      RulesForm rest rules →
      RulesForm (tokens ++ rest) (rule :: rules)

end QtSheet.Grammar
