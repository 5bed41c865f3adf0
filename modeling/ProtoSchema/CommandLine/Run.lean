import ProtoSchema.CommandLine.Arguments
import ProtoSchema.CommandLine.FileTree
import ProtoSchema.CommandLine.Usage
import ProtoSchema.Selection
import ProtoSchema.Source

/-!
# Running the program

A run compiles one model of a file. Its stages are taken in order, and the first that fails decides
what is reported: the path of the file is accepted, the file is there, it can be loaded, a model is selected, the options are valid,
the model has a schema, the schema compiles. On success the document is written to the output file,
if one is named, and otherwise to the standard output. The log goes to the standard error.
-/

namespace ProtoSchema.CommandLine

/-- Why a run fails. -/
inductive RunError where
  /-- There is no such file. -/
  | noFile (path : String)
  /-- The file cannot be loaded. -/
  | load (cause : LoadError)
  /-- No model is selected. -/
  | selection (cause : SelectionError)
  /-- The options are not valid. -/
  | options (cause : OptionError)
  /-- The model is refused. -/
  | schema (cause : SchemaError)

/-- The text that reports why a run fails. -/
def RunError.message : RunError → String
  | .noFile path => "File not found: " ++ path
  | .load cause => cause.message
  | .selection cause => cause.message
  | .options cause => cause.message
  | .schema cause => cause.message

/-- The options that the arguments describe. -/
def Arguments.options (arguments : Arguments) : Except OptionError Options :=
  Options.check arguments.package.content arguments.rootMessage.content arguments.typeLead.shown
    arguments.qualifyNames

/-- What a compilation yields. -/
structure Attempt where
  /-- What is logged. -/
  log : List LogEntry
  /-- The document, or why there is none. -/
  document : Except RunError String

/-- The model that the arguments select; no model is named by the empty list. -/
def selectModel {α : Type} (nameOf : α → String) (candidates : List α) :
    Option OptionValue → Except SelectionError α
  | none => select nameOf candidates none
  | some (.text name) => select nameOf candidates (some name)
  | some .emptyList => .error (.noneNamed OptionValue.emptyList.shown)

/-- Compile the selected model of loaded models. -/
def compileLoaded (loaded : LoadedModels) (arguments : Arguments) : Attempt :=
  match selectModel (fun i => (loaded.family i).name) loaded.models arguments.model with
  | .error cause => ⟨[], .error (.selection cause)⟩
  | .ok index =>
    match arguments.options with
    | .error cause => ⟨[], .error (.options cause)⟩
    | .ok options =>
      let generation := (Source.model loaded.family index).generate options
      ⟨generation.log, generation.document.mapError .schema⟩

/-- Compile what the arguments name. -/
def attempt (tree : FileTree) (arguments : Arguments) : Attempt :=
  let path := FilePath.ofText arguments.file
  if !tree.exists? path then ⟨[], .error (.noFile path.text)⟩
  else
    match tree.load path with
    | .error cause => ⟨[], .error (.load cause)⟩
    | .ok loaded =>
      let attempt := compileLoaded loaded arguments
      { attempt with log := SourceFile.loadedEntry path.text loaded :: attempt.log }

/-- How a run ends. -/
inductive Ending where
  /-- With an exit code. -/
  | exit (code : Nat)
  /-- With a path that cannot be read from or written to. -/
  | refused (fault : PathFault) (path : String)

/-- What a run leaves behind. -/
structure Report where
  /-- How the run ends. -/
  ending : Ending
  /-- What is on the standard output. -/
  stdout : String := ""
  /-- What is on the standard error. -/
  stderr : String := ""
  /-- The files afterwards. -/
  files : FileTree

/-- The lines that show the log. -/
def shownLog (verbose : Bool) (log : List LogEntry) : String :=
  String.join ((LogEntry.shown verbose log).map fun entry => entry.line ++ "\n")

/-- Run a compilation of a file that can be asked for. -/
def runAttempt (tree : FileTree) (arguments : Arguments) : Report :=
  let attempt := attempt tree arguments
  let log := shownLog arguments.verbose attempt.log
  match attempt.document with
  | .error cause =>
    { ending := .exit 1, stderr := log ++ "Error: " ++ cause.message ++ "\n", files := tree }
  | .ok document =>
    match (arguments.output.map OptionValue.content).filter (· ≠ "") with
    | none => { ending := .exit 0, stdout := document ++ "\n", stderr := log, files := tree }
    | some output =>
      let path := FilePath.ofText output
      match tree.write path (document ++ "\n") with
      | .ok files => { ending := .exit 0, stderr := log, files }
      | .error fault => { ending := .refused fault path.text, stderr := log, files := tree }

/-- Run a compilation. -/
def runCompilation (tree : FileTree) (arguments : Arguments) : Report :=
  let path := FilePath.ofText arguments.file
  match tree.refusal? path with
  | some fault => { ending := .refused fault path.text, files := tree }
  | none => runAttempt tree arguments

/-- Run the program in a working directory with the given arguments. -/
def run (tree : FileTree) (arguments : List String) : Report :=
  match parse arguments with
  | .error cause => { ending := .exit 2, stderr := usageError cause.message, files := tree }
  | .ok .help => { ending := .exit 0, stdout := help, files := tree }
  | .ok .version => { ending := .exit 0, stdout := versionLine, files := tree }
  | .ok (.compile arguments) => runCompilation tree arguments

end ProtoSchema.CommandLine
