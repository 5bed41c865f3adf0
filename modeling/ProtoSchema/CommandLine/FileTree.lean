import ProtoSchema.CommandLine.FilePath
import ProtoSchema.SourceFile
import ProtoSchema.Text.Quoted

/-!
# Files and directories

Source files and texts are known by their locations, and so are the directories that lead to them.
Paths are followed name by name: every name but the last has to lead to a directory, and no name and
no path may be too long. What is not known is not there.

A text can be written to a path whose directory is there, unless the path leads to a directory.
-/

namespace ProtoSchema.CommandLine

/-- What a file holds. -/
inductive FileContent where
  /-- A source file: its text, and what it defines. -/
  | source (text : String) (file : SourceFile)
  /-- A text. -/
  | text (content : String)

/-- The first four bytes of a file, which tell compiled code apart. -/
def FileContent.mark : FileContent → List UInt8
  | .source content _ => content.toUTF8.toList.take 4
  | .text content => content.toUTF8.toList.take 4

/-- Files and directories by their locations. -/
structure FileTree where
  /-- The files. -/
  files : List (Location × FileContent)
  /-- The directories. The starts of paths are directories whether listed or not. -/
  directories : List Location := []

/-- What a path leads to. -/
inductive FileEntry where
  /-- A directory. -/
  | directory
  /-- A file. -/
  | file (content : FileContent)

/-- Why a path leads nowhere, or a text cannot be written to it. -/
inductive PathFault where
  /-- A name on the way is not there. -/
  | missing
  /-- A name on the way is that of a file. -/
  | notDirectory
  /-- The path leads to a directory. -/
  | isDirectory
  /-- The path or a name on the way is too long. -/
  | nameTooLong
  /-- The path holds the null character. -/
  | nullCharacter
  deriving DecidableEq

/-- The text that reports a fault of a path. -/
def PathFault.message (fault : PathFault) (path : String) : String :=
  match fault with
  | .missing => "[Errno 2] No such file or directory: " ++ Text.Quoted.text path
  | .notDirectory => "[Errno 20] Not a directory: " ++ Text.Quoted.text path
  | .isDirectory => "[Errno 21] Is a directory: " ++ Text.Quoted.text path
  | .nameTooLong => "[Errno 36] File name too long: " ++ Text.Quoted.text path
  | .nullCharacter => "embedded null byte"

namespace FileTree

/-- The number of bytes that a name can have. -/
def maxNameSize : Nat := 255

/-- The number of bytes that a path can have. -/
def maxPathSize : Nat := 4095

/-- The tree of files that paths lead to, together with all directories on the way. Of two files at
one location, the later one counts. -/
def ofFiles (files : List (FilePath × FileContent)) : FileTree where
  files := (files.map fun file => (file.1.location, file.2)).reverse
  directories := files.flatMap fun file => (file.1.start.walk file.1.names).dropLast

/-- What is at a location. -/
def entryAt (tree : FileTree) (location : Location) : Except PathFault FileEntry :=
  match tree.files.lookup location with
  | some content => .ok (.file content)
  | none =>
    if location.names = [] ∨ tree.directories.contains location then .ok .directory
    else .error .missing

/-- The location that a name leads to from a location, which has to be a directory. -/
def step (tree : FileTree) (location : Location) (name : String) : Except PathFault Location := do
  match ← tree.entryAt location with
  | .file _ => .error .notDirectory
  | .directory =>
    if name.utf8ByteSize ≤ maxNameSize then return location.next name else .error .nameTooLong

/-- The location that a list of names leads to. -/
def follow (tree : FileTree) (location : Location) : List String → Except PathFault Location
  | [] => return location
  | name :: rest => do tree.follow (← tree.step location name) rest

/-- The location that a path leads to, whether or not something is there. -/
def locate (tree : FileTree) (path : FilePath) : Except PathFault Location :=
  if path.text.contains '\x00' then .error .nullCharacter
  else if maxPathSize < path.text.utf8ByteSize then .error .nameTooLong
  else tree.follow path.start path.names

/-- What a path leads to. -/
def entry (tree : FileTree) (path : FilePath) : Except PathFault FileEntry := do
  tree.entryAt (← tree.locate path)

/-- Whether a path leads to something. -/
def exists? (tree : FileTree) (path : FilePath) : Bool :=
  (tree.entry path).isOk

/-- The fault of a path that is refused, whatever is wanted of it. -/
def refusal? (tree : FileTree) (path : FilePath) : Option PathFault :=
  match tree.entry path with
  | .error .nameTooLong => some .nameTooLong
  | _ => none

/-- The files after a text is written to a path. -/
def write (tree : FileTree) (path : FilePath) (content : String) : Except PathFault FileTree := do
  let location ← tree.locate path
  match tree.entryAt location with
  | .ok .directory => .error .isDirectory
  | _ => return { tree with
      files := (location, .text content) :: tree.files.filter (·.1 ≠ location) }

/-- The text at a path, if one was written there. -/
def textAt (tree : FileTree) (path : FilePath) : Option String :=
  match tree.entry path with
  | .ok (.file (.text content)) => some content
  | _ => none

/-- Load the models of the file at a path. -/
def load (tree : FileTree) (path : FilePath) : Except LoadError LoadedModels :=
  if path.isSource || path.isCompiled then
    match tree.entry path with
    | .ok (.file content) =>
      if path.isCompiled then .error (.unmarked path.text content.mark)
      else
        match content with
        | .source _ file => file.load path.text
        | .text _ => .error (.failed path.text "invalid syntax")
    | .ok .directory => .error (.noModule path.text)
    | .error fault => .error (.failed path.text (fault.message path.text))
  else .error (.noModule path.text)

end FileTree

end ProtoSchema.CommandLine
