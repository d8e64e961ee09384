import QtSheet.CommandLine.Option
import QtSheet.File.Lint
import QtSheet.Report
import QtSheet.Text.Escape
import QtSheet.Text.Integer

namespace QtSheet.CommandLine

/-!
# The command line

A command line asks for help, for the version, or for some files to be linted.
A run over files writes what the log has to say, then the report of each file,
and exits with the status of all files together.
-/

/-- How files are linted and reported. -/
structure Settings where
  mode : Mode
  verbose : Bool
  /-- Whether the whole log is written. -/
  debug : Bool
  /-- How many files may be read at the same time. -/
  jobs : Nat
  deriving Repr, DecidableEq

/-- What a command line asks for. -/
inductive Request where
  | help
  | version
  /-- No file is given. -/
  | nothing
  | lint (settings : Settings) (files : List String)
  deriving Repr, DecidableEq

namespace Given

/-- The request that an option makes by itself. -/
def request? : Given → Option Request
  | .switch .help => some .help
  | .switch .version => some .version
  | _ => none

/-- The number of jobs that an option gives. -/
def jobs? : Given → Option String
  | .jobs value => some value
  | _ => none

/-- What an option says about the log. -/
def debug? : Given → Option Bool
  | .switch .debug => some true
  | .switch .noDebug => some false
  | _ => none

end Given

/-- The number of jobs that is written in a given way, one at least. -/
def readJobs (value : String) : Except UsageFault Nat :=
  match Text.integer? value with
  | none => .error (.jobsNotInteger value)
  | some number => if number < 1 then .error (.jobsTooFew number) else .ok number.toNat

/-- The settings that some options make. Of options that contradict each other the last counts. -/
def Settings.ofGiven (given : List Given) : Except UsageFault Settings :=
  let settings (jobs : Nat) : Settings :=
    {
      mode := if given.contains (.switch .syntaxOnly) then .syntaxOnly else .full
      verbose := given.contains (.switch .verbose)
      debug := ((given.filterMap Given.debug?).getLast?).getD false
      jobs := jobs
    }
  match (given.filterMap Given.jobs?).getLast? with
  | none => .ok (settings 1)
  | some value => (readJobs value).map settings

/--
What a command line asks for. Help and version come before all other options.
Only the arguments themselves are looked at, not the files that they name: a file
that is not readable is found when it is linted, and is no wrong argument.
-/
def Request.ofArguments (arguments : List String) : Except UsageFault Request :=
  match Arguments.read arguments with
  | .error fault => .error fault
  | .ok ⟨given, files⟩ =>
      match given.findSome? Given.request? with
      | some request => .ok request
      | none =>
          match Settings.ofGiven given with
          | .error fault => .error fault
          | .ok settings => .ok (if files.isEmpty then .nothing else .lint settings files)

/-- The files that a command line asks to be linted. -/
def Request.files : Request → List String
  | .lint _ files => files
  | _ => []

/-- The name of the program. -/
def programName : String :=
  "qsslint"

/-- How the program is called. -/
def usageLine : String :=
  s!"Usage: {programName} [OPTIONS] [FILES]..."

/-- The help text. -/
def helpLines : List String :=
  [usageLine,
   "",
   "  Qt stylesheet syntax verifier.",
   "",
   "  Checks every FILES argument and exits with code 0 if all of them are valid, or",
   "  code 1 if any of them is not.",
   "",
   "Options:",
   "  --version                    Show the version and exit.",
   "  -s, --syntax-only            Only validate syntax, not semantics.",
   "  -e, --verbose-error-message  Report errors with failing lexeme, position and",
   "                               context.",
   "  -j, --jobs INTEGER RANGE     Number of files to lint in parallel.  [default:",
   "                               1; x>=1]",
   "  --debug / --no-debug         Enable debug logging.",
   "  --help                       Show this message and exit.",
   "",
   "  NOTE: Avoid using Qt style sheets where a QStyle or QProxyStyle would do.",
   "  Style sheets are often not flexible enough for complex styles, and you only",
   "  find out when it is too late to rewrite them."]

/-- The line about the version. -/
def versionLine : String :=
  s!"{programName}, version 1.0"

namespace UsageFault

/-- The options that may have been meant, in a message. -/
def hint : List String → String
  | [] => ""
  | [name] => s!" Did you mean {name}?"
  | names => " (Possible options: " ++ ", ".intercalate names ++ ")"

/-- The message of a fault. -/
def message : UsageFault → String
  | .unknownOption name close => s!"No such option: {name}" ++ hint close
  | .unexpectedValue name => s!"Option '{name}' does not take a value."
  | .missingValue name => s!"Option '{name}' requires an argument."
  | .jobsNotInteger value =>
      "Invalid value for '-j' / '--jobs': " ++ Text.quoted value ++
        " is not a valid integer range."
  | .jobsTooFew value =>
      s!"Invalid value for '-j' / '--jobs': {value} is not in the range x>=1."

/-- Whether the usage of the program is shown with the message. -/
def showsUsage : UsageFault → Bool
  | .unexpectedValue _ | .missingValue _ => false
  | _ => true

/-- The lines about a fault. -/
def lines (fault : UsageFault) : List String :=
  (if fault.showsUsage then
    [usageLine, s!"Try '{programName} --help' for help.", ""]
  else
    []) ++ ["Error: " ++ fault.message]

end UsageFault

/-- What a run writes, and how it exits. -/
structure Transcript where
  exitStatus : Nat
  output : List String
  errors : List String
  deriving Repr, DecidableEq

/-- A run that only writes some lines to the error output. -/
def Transcript.ofErrors (exitStatus : Nat) (lines : List String) : Transcript where
  exitStatus := exitStatus
  output := []
  errors := lines.map Text.withoutEscapes

/-- The line about an entry of the log, if it is written. -/
def logLine? (debug : Bool) (entry : LogEntry) : Option String :=
  if debug then
    some s!"{entry.level.label} {programName}: {entry.message}"
  else if entry.level = .warning then
    some entry.message
  else
    none

/-- The run over files that have been linted. -/
def Transcript.ofFiles (settings : Settings) (files : List LintedFile) : Transcript :=
  let outcomes := files.map fun file => file.outcome
  let style := { ReportStyle.standard with verbose := settings.verbose }
  let log := (files.flatMap fun file => file.log).filterMap (logLine? settings.debug)
  let report := outcomes.flatMap fun outcome => outcome.report style
  {
    exitStatus := QtSheet.exitStatus outcomes
    output := []
    errors := log ++ report.map Text.withoutEscapes
  }

/-- Do what a command line asks for. -/
def Request.run (read : FileReader) : Request → Except ReadFault Transcript
  | .help => .ok ⟨0, helpLines, []⟩
  | .version => .ok ⟨0, [versionLine], []⟩
  | .nothing => .ok (.ofErrors 2 helpLines)
  | .lint settings files => (lintPaths read settings.mode files).map (Transcript.ofFiles settings)

/-- Run the program with some arguments. -/
def run (read : FileReader) (arguments : List String) : Except ReadFault Transcript :=
  match Request.ofArguments arguments with
  | .error fault => .ok (.ofErrors 2 fault.lines)
  | .ok request => request.run read

/-- Lines as text. -/
def textOfLines (lines : List String) : String :=
  String.join (lines.map fun line => line ++ "\n")

end QtSheet.CommandLine
