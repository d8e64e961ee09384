import QtSheet.File.Source
import QtSheet.Lint

namespace QtSheet

/-!
# Linting files

Each file of a run is read and linted by itself. A file that cannot be read
gives an outcome too, a failed one with a single finding, and the run goes on.
Only a path that cannot be one ends the run.
-/

/-- What comes of linting one file, with what the log says about it. -/
structure LintedFile where
  outcome : Outcome
  log : List LogEntry
  deriving Repr, DecidableEq

/-- The outcome for a file that cannot be read. -/
def unreadable (file : String) (fault : ReadFault) : LintedFile where
  outcome :=
    {
      file := file
      success := false
      diagnostics :=
        [{
          toExcerpt := Excerpt.empty
          severity := .unreadable
          message := "cannot read file: " ++ fault.message
        }]
      source := ""
    }
  log := [⟨.warning, s!"cannot read {file}: {fault.message}"⟩]

/-- Lint the file that a path leads to. -/
def lintPath (read : FileReader) (mode : Mode) (file : String) : Except ReadFault LintedFile :=
  match readSource read file with
  | .ok source => .ok ⟨lint file source mode, lintLog file source mode⟩
  | .error fault => if fault.endsRun then .error fault else .ok (unreadable file fault)

/-- Lint the files that some paths lead to, in order. -/
def lintPaths
    (read : FileReader)
    (mode : Mode) :
    List String → Except ReadFault (List LintedFile)
  | [] => .ok []
  | file :: files =>
      match lintPath read mode file, lintPaths read mode files with
      | .error fault, _ => .error fault
      | .ok _, .error fault => .error fault
      | .ok linted, .ok others => .ok (linted :: others)

end QtSheet
