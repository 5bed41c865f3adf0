import ProtoSchema.Entries
import ProtoSchema.Log
import ProtoSchema.Model.Basic
import ProtoSchema.Text.Quoted

/-!
# Source files

A source file defines variables, among them models, or it fails while it is loaded. The models of a
file are those that its variables hold, in the order of the variables; models that were imported
into the file do not count, and one that two variables hold counts twice. Some variables are there
before the file is loaded; a file that sets one of them leaves it in its place.

A file of compiled code is told apart by a mark in front, which no text begins with.
-/

namespace ProtoSchema

/-- A source file. -/
inductive SourceFile where
  /-- A file that defines variables over a family of models. -/
  | defining {k : Nat} (family : Family k) (bindings : List (String × TypeForm k))
  /-- A file that fails with a text while it is loaded. -/
  | failing (reason : String)

/-- The models of a source file. -/
structure LoadedModels where
  /-- The number of models in the family. -/
  size : Nat
  /-- The family. -/
  family : Family size
  /-- The models that the file defines. -/
  models : List (Fin size)

/-- Why a file cannot be loaded. -/
inductive LoadError where
  /-- The file is no source file. -/
  | noModule (path : String)
  /-- The file fails while it is loaded. -/
  | failed (path : String) (reason : String)
  /-- The file begins with these bytes, and not with the mark of compiled code. -/
  | unmarked (path : String) (start : List UInt8)
  deriving DecidableEq

/-- The name under which a file is loaded. -/
def moduleName : String := "pyd2proto_user_module"

/-- The text that reports why a file cannot be loaded. -/
def LoadError.message : LoadError → String
  | .noModule path => "Could not load module from " ++ path
  | .failed path reason => "Could not import " ++ path ++ ": " ++ reason
  | .unmarked path start =>
    "Could not import " ++ path ++ ": bad magic number in " ++ Text.Quoted.text moduleName ++ ": " ++
      Text.Quoted.bytes start

namespace SourceFile

/-- The variables that are there before a file is loaded. None of them holds a model. -/
def initialVariables : List String :=
  ["__name__", "__doc__", "__package__", "__loader__", "__spec__", "__file__", "__cached__",
   "__builtins__"]

/-- The models that variables hold, those that were imported left out. -/
def models {k : Nat} (family : Family k) (bindings : List (String × TypeForm k)) : List (Fin k) :=
  (Entries.ofList (initialVariables.map (·, .any) ++ bindings)).filterMap fun entry =>
    match entry.2 with
    | .model i => if (family i).imported then none else some i
    | _ => none

/-- The models of the file that is loaded from a path. -/
def load (path : String) : SourceFile → Except LoadError LoadedModels
  | .defining family bindings => .ok ⟨_, family, models family bindings⟩
  | .failing reason => .error (.failed path reason)

/-- What is logged when models were loaded from a path. -/
def loadedEntry (path : String) (loaded : LoadedModels) : LogEntry :=
  .modelsFound loaded.models.length path

end SourceFile

end ProtoSchema
