import QtSheet.CommandLine

namespace QtSheet.Main

/-!
# The program

The outer layer: it reads the files that the command line names and writes what
the run has to say. A path is followed by the system, which also tells why it
leads to no file.
-/

/-- The errors that the runtime does not call as the system does. -/
def knownFaults : List PathFault :=
  [.notFound, .notDirectory, .isDirectory, .nameTooLong, ⟨13, "Permission denied"⟩]

/-- What keeps a file from being read, from the code of an error and its description. -/
def pathFault (code : UInt32) (description : String) : PathFault :=
  -- The runtime gives some numbers with the opposite sign.
  let number := if code.toNat < 0x80000000 then code.toNat else 0x100000000 - code.toNat
  (knownFaults.find? fun fault => fault.number = number).getD ⟨number, description⟩

/-- What keeps a file from being read, from the error that was raised. -/
def pathFaultOf : IO.Error → PathFault
  | .alreadyExists _ code description
  | .interrupted _ code description
  | .noFileOrDirectory _ code description
  | .invalidArgument _ code description
  | .permissionDenied _ code description
  | .resourceExhausted _ code description
  | .inappropriateType _ code description
  | .noSuchThing _ code description
  | .otherError code description
  | .resourceBusy code description
  | .resourceVanished code description
  | .unsupportedOperation code description
  | .hardwareFault code description
  | .unsatisfiedConstraints code description
  | .illegalOperation code description
  | .protocolError code description
  | .timeExpired code description => pathFault code description
  | .unexpectedEof => pathFault 5 "Input/output error"
  | .userError description => pathFault 5 description

/-- Read the file that a path leads to. -/
def readFile (path : Path) : IO (Except PathFault (List UInt8)) := do
  try
    return .ok (← IO.FS.readBinFile path.text).toList
  catch problem =>
    return .error (pathFaultOf problem)

/-- Read some files, so many at the same time. -/
def readFiles (jobs : Nat) (paths : List Path) :
    IO (List (Path × Except PathFault (List UInt8))) := do
  let mut contents := []
  let mut waiting := paths
  for _ in paths do
    let tasks ← (waiting.take jobs).mapM fun path => return (path, ← IO.asTask (readFile path))
    for (path, task) in tasks do
      match task.get with
      | .ok content => contents := contents ++ [(path, content)]
      | .error problem => throw problem
    waiting := waiting.drop jobs
  return contents

/-- A reader that knows what has been read. -/
def knownFiles (contents : List (Path × Except PathFault (List UInt8))) : FileReader :=
  fun path => (contents.lookup path).getD (.error .notFound)

end QtSheet.Main

open QtSheet in
/-- Lint the files that are named by the arguments. -/
def main (arguments : List String) : IO UInt32 := do
  let contents ← match CommandLine.Request.ofArguments arguments with
    | .ok (.lint settings files) => Main.readFiles settings.jobs (files.map Path.ofText)
    | _ => pure []
  match CommandLine.run (Main.knownFiles contents) arguments with
  | .error fault => throw (IO.userError fault.message)
  | .ok transcript =>
      (← IO.getStdout).putStr (CommandLine.textOfLines transcript.output)
      (← IO.getStderr).putStr (CommandLine.textOfLines transcript.errors)
      return UInt32.ofNat transcript.exitStatus
