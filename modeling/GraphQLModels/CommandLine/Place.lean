import GraphQLModels.Endpoint.Session
import GraphQLModels.Text.Affix

/-!
# Places

Where a command runs: a directory with files, and the replies of a server. Files are named by
paths, which are absolute or start at the directory.
-/

namespace GraphQLModels.CommandLine

/-- What a path leads to. -/
inductive Entry where
  | missing
  | directory
  | file (content : String)
deriving DecidableEq, Repr

/-- The place where a command runs. -/
structure Place where
  directory : String
  entry : String → Entry
  replies : List Endpoint.Reply := []

/-- The content of a file, if there is one. -/
def Place.content? (place : Place) (path : String) : Option String :=
  match place.entry path with
  | .file content => some content
  | _ => none

namespace Path

/-- The texts between slashes, with what was read of the current one so far, in reverse. -/
def splitFrom (current : List Char) : List Char → List (List Char)
  | [] => [current.reverse]
  | c :: rest =>
    if c == '/' then current.reverse :: splitFrom [] rest else splitFrom (c :: current) rest

/-- The parts of a path between its slashes, without empty parts and single points. -/
def parts (path : String) : List String :=
  ((splitFrom [] path.toList).map String.ofList).filter fun part => !part.isEmpty && part != "."

/-- The parts with every double point taking back the part before it, the last part first. -/
def settle (done : List String) : List String → List String
  | [] => done
  | part :: rest => if part == ".." then settle (done.drop 1) rest else settle (part :: done) rest

/-- Whether a path does not start at the directory. -/
def isAbsolute (path : String) : Bool := Text.beginsWith path "/"

/-- A path from the root of the directory, with every double point taken away. -/
def resolve (directory path : String) : String :=
  let start := if isAbsolute path then [] else settle [] (parts directory)
  let slash := if isAbsolute path || isAbsolute directory then "/" else ""
  slash ++ "/".intercalate (settle start (parts path)).reverse

/-- The path up to the slash before its last part, if there is one. -/
def parent? (path : String) : Option String := (Text.splitLast '/' path).map (·.1)

/-- The path of something in a directory. -/
def join (directory name : String) : String :=
  if Text.endsWith directory "/" then directory ++ name else directory ++ "/" ++ name

/-- The paths of the directories that hold a path, the nearest first. -/
def ancestors : Nat → String → List String
  | 0, _ => []
  | n + 1, path =>
    match parent? path with
    | some above => if above.isEmpty then [] else above :: ancestors n above
    | none => []

end Path

/-- The files of a directory by the parts of their paths. -/
abbrev FileTree := List (List String × String)

namespace FileTree

/-- The tree of files that are named by relative paths. -/
def ofFiles (files : List (String × String)) : FileTree :=
  files.map fun (path, content) => (Path.parts path, content)

/-- What the parts of a path lead to. -/
def lookUp (tree : FileTree) (place : List String) : Entry :=
  match findKey? place tree with
  | some content => .file content
  | none =>
    let holds := tree.any fun (path, _) => place.isPrefixOf path
    if place.isEmpty || holds then .directory else .missing

/-- Follows the parts of a path from a place whose parts stand in reverse. -/
def walk (tree : FileTree) (above : List String) : List String → Entry
  | [] => tree.lookUp above.reverse
  | part :: rest =>
    match tree.lookUp above.reverse with
    | .directory => walk tree (if part == ".." then above.drop 1 else part :: above) rest
    | _ => .missing

/-- What a path leads to. Outside of the directory nothing is known. A slash at the end asks for a
directory. -/
def entry (directory : String) (tree : FileTree) (path : String) : Entry :=
  let within :=
    if path == directory then "."
    else if Text.beginsWith path (directory ++ "/") then
      String.ofList (path.toList.drop (directory.length + 1))
    else path
  if path.isEmpty || Path.isAbsolute within then .missing
  else
    match tree.walk [] (Path.parts within) with
    | .file content => if Text.endsWith path "/" then .missing else .file content
    | found => found

def place (directory : String) (tree : FileTree) (replies : List Endpoint.Reply) : Place where
  directory
  entry := tree.entry directory
  replies

end FileTree

end GraphQLModels.CommandLine
