namespace QtSheet

/-!
# Paths

A path names a file by the names to follow from the working directory, or from
the root of all files. Doubled slashes and single dots mean nothing and are
left out; double dots are kept, as they may lead elsewhere than back.
-/

/-- A path of a file. -/
structure Path where
  /-- The slashes at the front, of which two are not the same as one. -/
  root : String
  /-- The names to follow. -/
  parts : List String
  deriving Repr, DecidableEq

namespace Path

/-- The stretches of a text between its slashes. -/
def segments : List Char → List (List Char)
  | [] => [[]]
  | c :: rest =>
      if c = '/' then
        [] :: segments rest
      else
        match segments rest with
        | [] => [[c]]
        | segment :: others => (c :: segment) :: others

/-- The root that a text begins with. -/
def rootOf : List Char → String
  | ['/', '/'] => "//"
  | '/' :: '/' :: c :: _ => if c = '/' then "/" else "//"
  | '/' :: _ => "/"
  | _ => ""

/-- The path that is written in a given way. -/
def ofText (text : String) : Path where
  root := rootOf text.toList
  parts :=
    ((segments text.toList).map String.ofList).filter fun name => name != "" && name != "."

/-- How a path is written. -/
def text (path : Path) : String :=
  if path.root = "" && path.parts.isEmpty then
    "."
  else
    path.root ++ "/".intercalate path.parts

end Path

end QtSheet
