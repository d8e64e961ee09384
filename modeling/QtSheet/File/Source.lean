import QtSheet.File.Path
import QtSheet.File.Tree
import QtSheet.Text.Quoted
import QtSheet.Text.Utf8

namespace QtSheet

/-!
# The text of a file

A style sheet file is read as UTF-8. A byte order mark at its front is left
out, and the three ways to end a line all become a line feed, so that neither
shows in the positions of findings.
-/

/-- Why there is no text to lint. -/
inductive ReadFault where
  /-- The path leads to no file. -/
  | noFile (fault : PathFault) (path : Path)
  /-- The bytes of the file are no text. -/
  | encoding (fault : Text.Utf8.Fault)
  /-- The path holds a null character, which no path can. -/
  | nullInPath
  deriving Repr, DecidableEq

/--
The bytes of a fault in a message: the byte itself when there is only one, else
their positions.
-/
def Text.Utf8.Fault.place (fault : Text.Utf8.Fault) : String :=
  if fault.continuations = 0 then
    "byte 0x" ++ String.ofList (Text.hexDigits 2 fault.lead.toNat) ++
      s!" in position {fault.position}"
  else
    s!"bytes in position {fault.position}-{fault.position + fault.continuations}"

namespace ReadFault

/-- The message of a fault. -/
def message : ReadFault → String
  | .noFile fault path => s!"[Errno {fault.number}] {fault.label}: " ++ Text.quoted path.text
  | .encoding fault => s!"'utf-8' codec can't decode {fault.place}: {fault.defect.label}"
  | .nullInPath => "embedded null byte"

/-- Whether a fault ends the whole run, and is not only reported for its file. -/
def endsRun : ReadFault → Bool
  | .nullInPath => true
  | _ => false

end ReadFault

/-- The byte order mark. -/
def byteOrderMark : List UInt8 :=
  [0xEF, 0xBB, 0xBF]

/-- The bytes after a byte order mark. A file that ends within the mark has none. -/
def withoutMark (bytes : List UInt8) : List UInt8 :=
  if bytes.isPrefixOf byteOrderMark then
    []
  else if byteOrderMark.isPrefixOf bytes then
    bytes.drop byteOrderMark.length
  else
    bytes

/-- A text with all line ends as line feeds. -/
def withLineFeeds : List Char → List Char
  | [] => []
  | '\r' :: '\n' :: rest => '\n' :: withLineFeeds rest
  | c :: rest => (if c = '\r' then '\n' else c) :: withLineFeeds rest

/-- The text of the bytes of a file. -/
def decodeSource (bytes : List UInt8) : Except Text.Utf8.Fault String :=
  (Text.Utf8.decode (withoutMark bytes)).map fun characters =>
    String.ofList (withLineFeeds characters)

/-- What gives the bytes of the file that a path leads to. -/
abbrev FileReader := Path → Except PathFault (List UInt8)

/-- The text of the file that a written path leads to. -/
def readSource (read : FileReader) (text : String) : Except ReadFault String :=
  let path := Path.ofText text
  if text.toList.contains '\x00' then
    .error .nullInPath
  else
    match read path with
    | .error fault => .error (.noFile fault path)
    | .ok bytes =>
        match decodeSource bytes with
        | .error fault => .error (.encoding fault)
        | .ok source => .ok source

end QtSheet
