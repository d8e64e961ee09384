import QtSheet.File.Path

namespace QtSheet

/-!
# File trees

The files and folders below a working directory, and how a path is followed
among them. A name is looked up in the folder reached so far; two dots lead to
the folder around it. Outside of the working directory nothing is known but the
folders around it.
-/

/-- Why a path does not lead to a file, as the operating system tells it. -/
structure PathFault where
  /-- The number of the error. -/
  number : Nat
  /-- How the error is called. -/
  label : String
  deriving Repr, DecidableEq

namespace PathFault

/-- There is nothing of this name. -/
def notFound : PathFault :=
  ⟨2, "No such file or directory"⟩

/-- A name in front of others leads to a file. -/
def notDirectory : PathFault :=
  ⟨20, "Not a directory"⟩

/-- The path leads to a folder. -/
def isDirectory : PathFault :=
  ⟨21, "Is a directory"⟩

/-- A name, or the path as a whole, is too long. -/
def nameTooLong : PathFault :=
  ⟨36, "File name too long"⟩

end PathFault

/-- What a name stands for. -/
inductive FileEntry where
  | file (bytes : List UInt8)
  | folder
  deriving Repr, DecidableEq

/-- Files and folders, each with the names that lead to it. -/
structure FileTree where
  entries : List (List String × FileEntry)
  deriving Repr, DecidableEq

/-- Where a path has led so far. -/
inductive Place where
  /-- A file or folder, by the names that lead to it. -/
  | inside (parts : List String)
  /-- A folder around the working directory. -/
  | outside
  deriving Repr, DecidableEq

namespace FileTree

/-- No files. -/
def empty : FileTree where
  entries := []

/-- What some names lead to. The working directory is always there. -/
def entry? (tree : FileTree) (parts : List String) : Option FileEntry :=
  if parts.isEmpty then some .folder else tree.entries.lookup parts

/-- The folders around what some names lead to, as far as they are not there. -/
def missingFolders (tree : FileTree) (parts : List String) : List (List String) :=
  ((List.range parts.length).map fun count => parts.take count).filter fun front =>
    (tree.entry? front).isNone

/-- Add a file or folder, and the folders around it that are not there. -/
def add (tree : FileTree) (parts : List String) (entry : FileEntry) : FileTree where
  entries :=
    (parts, entry) :: (tree.missingFolders parts).map (fun front => (front, .folder)) ++
      tree.entries

/-- The number of bytes that a name may have. -/
def nameLimit : Nat :=
  255

/-- The number of bytes that a whole path may have. -/
def pathLimit : Nat :=
  4095

/-- Follow two dots. -/
def leave : Place → Place
  | .inside [] => .outside
  | .inside parts => .inside parts.dropLast
  | .outside => .outside

/-- What stands at a place. -/
def entryAt? (tree : FileTree) : Place → Option FileEntry
  | .inside parts => tree.entry? parts
  | .outside => some .folder

/-- Look a name up at a place. -/
def lookUp (tree : FileTree) (place : Place) (name : String) : Except PathFault Place :=
  if nameLimit < name.utf8ByteSize then
    .error .nameTooLong
  else
    match place with
    | .outside => .error .notFound
    | .inside parts =>
        match tree.entry? (parts ++ [name]) with
        | none => .error .notFound
        | some _ => .ok (.inside (parts ++ [name]))

/-- Follow one name of a path. -/
def step (tree : FileTree) (place : Place) (name : String) : Except PathFault Place :=
  match tree.entryAt? place with
  | none => .error .notFound
  | some (.file _) => .error .notDirectory
  | some .folder => if name = ".." then .ok (leave place) else tree.lookUp place name

/-- Follow the names of a path. -/
def follow (tree : FileTree) (place : Place) : List String → Except PathFault Place
  | [] => .ok place
  | name :: names =>
      match tree.step place name with
      | .error fault => .error fault
      | .ok next => tree.follow next names

/-- The place that a path leads to. -/
def locate (tree : FileTree) (path : Path) : Except PathFault Place :=
  if pathLimit < path.text.utf8ByteSize then
    .error .nameTooLong
  else
    tree.follow (if path.root = "" then .inside [] else .outside) path.parts

/-- The bytes of the file that a path leads to. -/
def read (tree : FileTree) (path : Path) : Except PathFault (List UInt8) :=
  match tree.locate path with
  | .error fault => .error fault
  | .ok place =>
      match tree.entryAt? place with
      | none => .error .notFound
      | some .folder => .error .isDirectory
      | some (.file bytes) => .ok bytes

end FileTree

end QtSheet
