import QtSheet.Token

namespace QtSheet

/-!
# Diagnostics

A diagnostic is a finding about a style sheet: a message, the stage that found
it and the excerpt it is about.
-/

/-- The stage that made a finding. -/
inductive Severity where
  /-- Characters that form no token. -/
  | lexical
  /-- Tokens that form no rule. -/
  | syntactic
  /-- Names and values that the widgets do not know. -/
  | semantic
  /-- A file that cannot be read. -/
  | unreadable
  deriving Repr, DecidableEq

namespace Severity

/-- How a severity is written. -/
def label : Severity → String
  | .lexical => "LEXICAL"
  | .syntactic => "SYNTAX"
  | .semantic => "SEMANTIC"
  | .unreadable => "IO"

/-- All severities. -/
def all : List Severity :=
  [.lexical, .syntactic, .semantic, .unreadable]

/-- The severity that is written in a given way. -/
def ofLabel? (text : String) : Option Severity :=
  all.find? fun severity => severity.label == text

end Severity

/-- A finding about a style sheet. -/
structure Diagnostic extends Excerpt where
  severity : Severity
  message : String
  deriving Repr, DecidableEq

namespace Diagnostic

/-- A finding about a token. -/
def ofToken
    (severity : Severity)
    (message : String)
    (token : Token) :
    Diagnostic where
  toExcerpt := token.toExcerpt
  severity := severity
  message := message

/-- Whether a finding fails a style sheet in every mode. -/
def isFatal (diagnostic : Diagnostic) : Bool :=
  diagnostic.severity ≠ .semantic

/-- A finding in one line, without the name of the file. -/
def summary (diagnostic : Diagnostic) : String :=
  s!"{diagnostic.line}:{diagnostic.column}: {diagnostic.severity.label}: {diagnostic.message}"

end Diagnostic

end QtSheet
