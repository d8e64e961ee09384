import QtSheet.Text.Similarity

namespace QtSheet.CommandLine

/-!
# Options

The options of the command line and how they are written. Options in one letter
may be joined behind one hyphen. The only option with a value takes it from the
same argument, after an equals sign or directly after the letter, or else from
the next argument.
-/

/-- The options that have no value. -/
inductive Switch where
  | version
  | syntaxOnly
  | verbose
  | debug
  | noDebug
  | help
  deriving Repr, DecidableEq

/-- An option as it is written, without its value. -/
inductive OptionName where
  | switch (switch : Switch)
  | jobs
  deriving Repr, DecidableEq

namespace OptionName

/-- The options by their long names. -/
def longNames : List (String × OptionName) :=
  [("--version", .switch .version),
   ("--syntax-only", .switch .syntaxOnly),
   ("--verbose-error-message", .switch .verbose),
   ("--jobs", .jobs),
   ("--debug", .switch .debug),
   ("--no-debug", .switch .noDebug),
   ("--help", .switch .help)]

/-- The options by their letters. -/
def letters : List (Char × OptionName) :=
  [('s', .switch .syntaxOnly), ('e', .switch .verbose), ('j', .jobs)]

end OptionName

/-- An option that has been given. -/
inductive Given where
  | switch (switch : Switch)
  | jobs (value : String)
  deriving Repr, DecidableEq

/-- What is wrong with the arguments. -/
inductive UsageFault where
  /-- There is no such option; some options with close names may have been meant. -/
  | unknownOption (name : String) (close : List String)
  /-- An option without a value is given one. -/
  | unexpectedValue (name : String)
  /-- An option with a value is given none. -/
  | missingValue (name : String)
  /-- The number of jobs is no integer. -/
  | jobsNotInteger (value : String)
  /-- The number of jobs is too small. -/
  | jobsTooFew (value : Int)
  deriving Repr, DecidableEq

/--
The options of one argument, and the name of an option that takes the next
argument as its value.
-/
structure ArgumentOptions where
  given : List Given
  pending? : Option String
  deriving Repr, DecidableEq

/-- The options with one more switch in front. -/
def ArgumentOptions.addSwitch (switch : Switch) (options : ArgumentOptions) : ArgumentOptions :=
  { options with given := .switch switch :: options.given }

/-- The options of letters behind one hyphen. -/
def readLetters : List Char → Except UsageFault ArgumentOptions
  | [] => .ok ⟨[], none⟩
  | letter :: rest =>
      match OptionName.letters.lookup letter with
      | none => .error (.unknownOption (String.ofList ['-', letter]) [])
      | some (.switch switch) => (readLetters rest).map (ArgumentOptions.addSwitch switch)
      | some .jobs =>
          if rest.isEmpty then
            .ok ⟨[], some (String.ofList ['-', letter])⟩
          else
            .ok ⟨[.jobs (String.ofList rest)], none⟩

/-- A long option with what stands after its equals sign. -/
def readLong (name : String) (value? : Option String) :
    OptionName → Except UsageFault ArgumentOptions
  | .jobs =>
      match value? with
      | some value => .ok ⟨[.jobs value], none⟩
      | none => .ok ⟨[], some name⟩
  | .switch switch =>
      match value? with
      | some _ => .error (.unexpectedValue name)
      | none => .ok ⟨[.switch switch], none⟩

/-- The name of a long option and what stands after its equals sign. -/
def splitLong (argument : List Char) : String × Option String :=
  let name := String.ofList (argument.takeWhile fun c => c != '=')
  match argument.dropWhile fun c => c != '=' with
  | [] => (name, none)
  | _ :: value => (name, some (String.ofList value))

/-- The options of an argument that begins with a hyphen. -/
def readOptions (argument : String) : Except UsageFault ArgumentOptions :=
  let (name, value?) := splitLong argument.toList
  match OptionName.longNames.lookup name with
  | some option => readLong name value? option
  | none =>
      if ['-', '-'].isPrefixOf argument.toList then
        .error (.unknownOption name
          (Text.closeWords name (OptionName.longNames.map fun entry => entry.1)))
      else
        readLetters (argument.toList.drop 1)

/-- The options and files of a command line. -/
structure Arguments where
  given : List Given
  files : List String
  deriving Repr, DecidableEq

namespace Arguments

/-- The arguments with options in front. -/
def addOptions (given : List Given) (arguments : Arguments) : Arguments :=
  { arguments with given := given ++ arguments.given }

/-- The arguments with a file in front. -/
def addFile (file : String) (arguments : Arguments) : Arguments :=
  { arguments with files := file :: arguments.files }

/-- Whether an argument is options: a hyphen and more. -/
def isOptions (argument : String) : Bool :=
  argument.toList.head? = some '-' && argument.length ≠ 1

/-- Read the arguments of a command line. Two hyphens end the options. -/
def read : List String → Except UsageFault Arguments
  | [] => .ok ⟨[], []⟩
  | argument :: rest =>
      if argument = "--" then
        .ok ⟨[], rest⟩
      else if isOptions argument then
        match readOptions argument with
        | .error fault => .error fault
        | .ok ⟨given, none⟩ => (read rest).map (addOptions given)
        | .ok ⟨given, some name⟩ =>
            match rest with
            | [] => .error (.missingValue name)
            | value :: rest => (read rest).map (addOptions (given ++ [.jobs value]))
      else
        (read rest).map (addFile argument)

end Arguments

end QtSheet.CommandLine
