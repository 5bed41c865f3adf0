/-!
# File paths

A path is a list of names under a root: the working directory, or the top of the file system. It is
written with single slashes, and without the empty names and the single dots that change nothing; a
path that says nothing is written as a dot. Two dots stay, since they depend on what is there.

A path leads over a sequence of locations. A location is given by names from the working directory,
from one of the directories above it, or from the top of the file system; two dots lead from a
location to the one above it.
-/

namespace ProtoSchema.CommandLine

/-- A path to a file or directory. -/
structure FilePath where
  /-- The slashes in front of an absolute path. -/
  root : String
  /-- The names along the path. -/
  names : List String
  deriving DecidableEq

namespace FilePath

/-- The parts of a text between slashes. -/
def segments : List Char → List (List Char)
  | [] => [[]]
  | c :: rest =>
    if c = '/' then [] :: segments rest
    else
      match segments rest with
      | [] => [[c]]
      | first :: others => (c :: first) :: others

/-- The root of a path. Exactly two slashes make a root of their own. -/
def rootOf : List Char → String
  | '/' :: '/' :: '/' :: _ => "/"
  | '/' :: '/' :: _ => "//"
  | '/' :: _ => "/"
  | _ => ""

/-- The path that a text names. -/
def ofText (text : String) : FilePath where
  root := rootOf text.toList
  names := ((segments text.toList).map String.ofList).filter fun name => name ≠ "" && name ≠ "."

/-- The text of a path. -/
def text (path : FilePath) : String :=
  if path.root = "" ∧ path.names = [] then "."
  else path.root ++ "/".intercalate path.names

/-- Whether the name of the path ends as that of a source file does. -/
def isSource (path : FilePath) : Bool :=
  path.text.endsWith ".py"

/-- Whether the name of the path ends as that of a file of compiled code does. -/
def isCompiled (path : FilePath) : Bool :=
  path.text.endsWith ".pyc"

end FilePath

/-- Where the names of a location start. -/
inductive Anchor where
  /-- So many levels above the working directory. -/
  | above (levels : Nat)
  /-- The top of the file system. -/
  | top
  deriving DecidableEq

/-- A location in the file system. -/
structure Location where
  /-- Where the names start. -/
  anchor : Anchor
  /-- The names from there. -/
  names : List String
  deriving DecidableEq

namespace Location

/-- The working directory. -/
def working : Location := ⟨.above 0, []⟩

/-- The location above. The top has none but itself. -/
def parent (location : Location) : Location :=
  match location.names, location.anchor with
  | [], .above levels => ⟨.above (levels + 1), []⟩
  | [], .top => location
  | names, anchor => ⟨anchor, names.dropLast⟩

/-- The location that a name leads to. -/
def next (location : Location) (name : String) : Location :=
  if name = ".." then location.parent else ⟨location.anchor, location.names ++ [name]⟩

/-- The locations that a list of names leads over, both ends included. -/
def walk (location : Location) : List String → List Location
  | [] => [location]
  | name :: rest => location :: (location.next name).walk rest

/-- A path to the location. -/
def path (location : Location) : FilePath :=
  match location.anchor with
  | .above levels => ⟨"", List.replicate levels ".." ++ location.names⟩
  | .top => ⟨"/", location.names⟩

end Location

namespace FilePath

/-- The location where the path starts. -/
def start (path : FilePath) : Location :=
  if path.root = "" then Location.working else ⟨.top, []⟩

/-- The location that the path leads to, if all names on the way lead to directories. -/
def location (path : FilePath) : Location :=
  path.names.foldl Location.next path.start

end FilePath

end ProtoSchema.CommandLine
