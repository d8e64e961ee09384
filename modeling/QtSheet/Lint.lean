import QtSheet.Check
import QtSheet.Sheet.Source

namespace QtSheet

/-!
# Linting

To lint a text is to split it into tokens, to read the tokens and, when neither
finds anything, to check the sheet. Findings about the characters do not keep
the tokens from being read, so that one run reports both.
-/

/-- How much of a style sheet is looked at. -/
inductive Mode where
  /-- The names and values are checked too. -/
  | full
  /-- Only the form counts. -/
  | syntaxOnly
  deriving Repr, DecidableEq

namespace Mode

/-- How a mode is written. -/
def label : Mode → String
  | .full => "full"
  | .syntaxOnly => "syntax-only"

/-- The mode that is written in a given way. -/
def ofLabel? (text : String) : Option Mode :=
  [Mode.full, Mode.syntaxOnly].find? fun mode => mode.label == text

/-- Whether a finding fails a style sheet in a mode. -/
def fails (mode : Mode) (diagnostic : Diagnostic) : Bool :=
  diagnostic.isFatal || mode = .full

/-- Whether a style sheet with some findings passes in a mode. -/
def passes (mode : Mode) (diagnostics : List Diagnostic) : Bool :=
  diagnostics.all fun diagnostic => !mode.fails diagnostic

end Mode

/-- What comes of linting one text. -/
structure Outcome where
  /-- The name of the file, or another name for the text. -/
  file : String
  success : Bool
  diagnostics : List Diagnostic
  /-- The text itself. -/
  source : String
  deriving Repr, DecidableEq

namespace Outcome

/-- The findings that fail a style sheet in every mode. -/
def errors (outcome : Outcome) : List Diagnostic :=
  outcome.diagnostics.filter Diagnostic.isFatal

/-- The other findings. -/
def warnings (outcome : Outcome) : List Diagnostic :=
  outcome.diagnostics.filter fun diagnostic => !diagnostic.isFatal

end Outcome

/-- The findings about the form of a text: about its characters, then about its tokens. -/
def formFindings (source : String) : List Diagnostic :=
  let stream := tokenize source
  stream.diagnostics ++ findings (Sheet.ofTokens stream.tokens)

/-- The sheet of a text that is to be checked: none when the form has findings, or alone counts. -/
def checkedSheet? (source : String) (mode : Mode) : Option Sheet :=
  if mode = .full && (formFindings source).isEmpty then
    (Sheet.ofTokens (tokenize source).tokens).toOption
  else
    none

/-- Lint a text. -/
def lint (file source : String) (mode : Mode) : Outcome :=
  let checked := (checkedSheet? source mode).toList.flatMap fun sheet => sheet.validate []
  let diagnostics := formFindings source ++ checked
  {
    file := file
    success := mode.passes diagnostics
    diagnostics := diagnostics
    source := source
  }

/-- How a truth value is written in the log. -/
def truthLabel (value : Bool) : String :=
  if value then "True" else "False"

/-- What the log says about linting a text. -/
def lintLog (file source : String) (mode : Mode) : List LogEntry :=
  let outcome := lint file source mode
  let checks :=
    (checkedSheet? source mode).toList.flatMap fun sheet => sheet.validationLog []
  [⟨.debug, s!"linting {file} ({source.length} chars, mode={mode.label})"⟩] ++ checks ++
    [⟨.debug, s!"linted {file}: success={truthLabel outcome.success} " ++
      s!"errors={outcome.errors.length} warnings={outcome.warnings.length}"⟩]

end QtSheet
