/-!
# The log

What a program reports on its way is a list of entries. Each entry belongs to the part of the
program that reports it, and is either a warning or a detail that is shown on demand alone. A
warning tells that a name was defined a second time.
-/

namespace ProtoSchema

/-- How much an entry matters. -/
inductive Level where
  /-- A detail. -/
  | debug
  /-- A warning. -/
  | warning
  deriving DecidableEq

/-- The word for a level. -/
def Level.word : Level → String
  | .debug => "DEBUG"
  | .warning => "WARNING"

/-- An entry of the log. -/
inductive LogEntry where
  /-- A message is defined under a name that had a definition. -/
  | messageRedefined (name : String)
  /-- A message is defined with so many fields. -/
  | messageDefined (name : String) (fieldCount : Nat)
  /-- An enum is defined under a name that had a definition. -/
  | enumRedefined (name : String)
  /-- An enum is defined. -/
  | enumDefined (name : String)
  /-- An object is compiled into so many fields. -/
  | objectCompiled (label : String) (fieldCount : Nat)
  /-- A document is generated for a package. -/
  | generated (messageCount enumCount : Nat) (package : String)
  /-- So many models are found in a file. -/
  | modelsFound (modelCount : Nat) (path : String)
  deriving DecidableEq

namespace LogEntry

/-- Redefinitions are warnings, all else is detail. -/
def level : LogEntry → Level
  | .messageRedefined _ => .warning
  | .enumRedefined _ => .warning
  | _ => .debug

/-- The part of the program that reports the entry. -/
def source : LogEntry → String
  | .messageRedefined _ => "pyd2proto.protobuf.registry"
  | .messageDefined _ _ => "pyd2proto.protobuf.registry"
  | .enumRedefined _ => "pyd2proto.protobuf.registry"
  | .enumDefined _ => "pyd2proto.protobuf.registry"
  | .objectCompiled _ _ => "pyd2proto.protobuf.compiler"
  | .generated _ _ _ => "pyd2proto.protobuf.convert"
  | .modelsFound _ _ => "pyd2proto.cli.loader"

/-- The wording of the entry. -/
def text : LogEntry → String
  | .messageRedefined name =>
    "Message " ++ name ++ " defined more than once; the last definition wins"
  | .messageDefined name fieldCount =>
    "Registered message " ++ name ++ " with " ++ toString fieldCount ++ " fields"
  | .enumRedefined name =>
    "Enum " ++ name ++ " defined more than once; the last definition wins"
  | .enumDefined name => "Registered enum " ++ name
  | .objectCompiled label fieldCount =>
    "Compiled object " ++ label ++ " into " ++ toString fieldCount ++ " fields"
  | .generated messageCount enumCount package =>
    "Generated " ++ toString messageCount ++ " messages and " ++ toString enumCount ++
      " enums for package " ++ package
  | .modelsFound modelCount path =>
    "Found " ++ toString modelCount ++ " models in " ++ path

/-- Whether the entry is a warning. -/
def isWarning (entry : LogEntry) : Bool :=
  entry.level = .warning

/-- The entries that are shown: all of them, or the warnings alone. -/
def shown (verbose : Bool) (entries : List LogEntry) : List LogEntry :=
  if verbose then entries else entries.filter (·.isWarning)

/-- The line that shows the entry. -/
def line (entry : LogEntry) : String :=
  entry.level.word ++ " " ++ entry.source ++ ": " ++ entry.text

theorem shown_verbose (entries : List LogEntry) : shown true entries = entries := rfl

theorem shown_append (verbose : Bool) (entries more : List LogEntry) :
    shown verbose (entries ++ more) = shown verbose entries ++ shown verbose more := by
  cases verbose <;> simp [shown]

end LogEntry

end ProtoSchema
