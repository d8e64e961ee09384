import QtSheet.Diagnostic

namespace QtSheet

/-!
# Faults

A fault is a token at which the reading of a style sheet cannot go on, with the
reason: what should have stood there, or what the token repeats.
-/

/-- The parts of a selector that are a mark and a name. -/
inductive Qualifier where
  | className
  | pseudoState
  | subControl
  deriving Repr, DecidableEq

/-- How the name of a qualifier is called in a message. -/
def Qualifier.label : Qualifier → String
  | .className => "class name"
  | .pseudoState => "pseudo-state"
  | .subControl => "sub-control"

/-- Why a token cannot stand where it stands. -/
inductive Reason where
  /-- Only a selector may stand outside of a rule. -/
  | outsideRule
  /-- The block of a rule is not closed. -/
  | unclosedBlock
  /-- A declaration begins with the name of a property. -/
  | propertyName
  /-- A colon follows the name of a property. -/
  | propertySeparator (property : String)
  /-- A property has a value, which ends in more than a comma or slash. -/
  | propertyValue (property : String)
  /-- Only one word may follow an exclamation mark. -/
  | importance
  /-- A declaration ends with its value. -/
  | declarationEnd (property : String)
  /-- A selector has at least one part. -/
  | selector
  /-- Only a comma or the block may follow a chain of selectors. -/
  | chainEnd
  /-- A selector has at most one id. -/
  | repeatedId (id : String)
  /-- A selector has at most one sub-control. -/
  | repeatedSubControl (name : String)
  /-- The name of a qualifier stands directly after its mark. -/
  | qualifierName (qualifier : Qualifier) (mark : String)
  /-- An attribute test begins with a name. -/
  | attributeName
  /-- A word or a string follows the operator of an attribute test. -/
  | attributeValue
  /-- An attribute test is closed. -/
  | attributeEnd
  deriving Repr, DecidableEq

/-- The message of a fault, with the description of the token found. -/
def Reason.message (found : String) : Reason → String
  | .outsideRule => s!"unexpected {found} outside of a rule"
  | .unclosedBlock => "expected '\x7d' before end of input"
  | .propertyName => s!"expected property name, found {found}"
  | .propertySeparator property =>
      "expected ':' after property " ++ Text.quoted property ++ ", found " ++ found
  | .propertyValue property =>
      "expected value for property " ++ Text.quoted property ++ ", found " ++ found
  | .importance => s!"expected 'important' after '!', found {found}"
  | .declarationEnd property =>
      "expected ';' or '\x7d' after value of " ++ Text.quoted property ++ ", found " ++ found
  | .selector => s!"expected selector, found {found}"
  | .chainEnd => "expected ',' or '\x7b' after selector, found " ++ found
  | .repeatedId id => s!"selector already has id '#{id}'"
  | .repeatedSubControl name => s!"selector already has sub-control '::{name}'"
  | .qualifierName qualifier mark =>
      "expected " ++ qualifier.label ++ " immediately after " ++ Text.quoted mark ++
        ", found " ++ found
  | .attributeName => s!"expected attribute name, found {found}"
  | .attributeValue => s!"expected attribute value, found {found}"
  | .attributeEnd => s!"expected ']', found {found}"

/-- A token at which reading cannot go on; no token stands for the end of the input. -/
structure Fault where
  reason : Reason
  token? : Option Token
  deriving Repr, DecidableEq

namespace Fault

/-- The token to blame, given the one at the end of the input. -/
def blamed (last : Token) (fault : Fault) : Token :=
  fault.token?.getD last

/-- The finding about a fault, given the token at the end of the input. -/
def diagnostic (last : Token) (fault : Fault) : Diagnostic :=
  let blamed := fault.blamed last
  Diagnostic.ofToken .syntactic (fault.reason.message blamed.describe) blamed

end Fault

end QtSheet
