import Mathlib
import ProtoSchema.CommandLine.Run
import ProtoSchema.Proofs.CommandLine.FileTree
import ProtoSchema.Proofs.Introspection.Derived
import ProtoSchema.TypeForm.Standard

/-!
# The stages of a run

A compilation that the arguments ask for goes through its stages in order: the file has to be there
and to load, a model has to be selected, the options have to be valid, and the model has to have a
schema that compiles. Either all of them succeed, with a document, or there is a first one that
fails, with its cause; never both. From this follows all that a run leaves behind. A cause is
reported on the standard error, with nothing on the standard output and all files as they were; a
document is written with a line feed behind it, to the output file alone, if one is named, and to
the standard output alone otherwise.

Outside of the stages stand the paths that the file system itself refuses: a file whose name is too
long, which is neither there nor missing, and an output that cannot be written. They end a run
without a report.
-/

namespace ProtoSchema.CommandLine

section Selection

variable {α : Type} {nameOf : α → String} {candidates : List α}

/-- That a value of the model option selects a candidate: the first of the name, or without a name
the only one. -/
inductive Selects (nameOf : α → String) (candidates : List α) : Option OptionValue → α → Prop where
  | first {name : String} {before after : List α} {candidate : α} :
    candidates = before ++ candidate :: after → nameOf candidate = name →
    (∀ other ∈ before, nameOf other ≠ name) →
    Selects nameOf candidates (some (.text name)) candidate
  | only {candidate : α} :
    candidates = [candidate] → Selects nameOf candidates none candidate

/-- Why a value of the model option selects no candidate. -/
inductive Rejects (nameOf : α → String) (candidates : List α) :
    Option OptionValue → SelectionError → Prop where
  | noneNamed {name : String} :
    (∀ candidate ∈ candidates, nameOf candidate ≠ name) →
    Rejects nameOf candidates (some (.text name)) (.noneNamed name)
  | emptyList : Rejects nameOf candidates (some .emptyList) (.noneNamed "[]")
  | noCandidates :
    candidates = [] → Rejects nameOf candidates none .noCandidates
  | several :
    2 ≤ candidates.length →
    Rejects nameOf candidates none (.several (candidates.map nameOf))

/-- The model that is selected is the one that the option selects. -/
theorem selectModel_eq_ok_iff {wanted : Option OptionValue} {candidate : α} :
    selectModel nameOf candidates wanted = .ok candidate ↔
      Selects nameOf candidates wanted candidate := by
  rcases wanted with - | name | -
  · simp only [selectModel, select]
    constructor
    · intro h
      split at h
      · cases h
      · cases h
        exact .only rfl
      · cases h
    · intro h
      cases h with
      | only hone => rw [hone]
  · have hfind : selectModel nameOf candidates (some (.text name)) = .ok candidate ↔
        candidates.find? (nameOf · = name) = some candidate := by
      simp only [selectModel, select]
      cases candidates.find? (nameOf · = name) <;> simp
    rw [hfind, List.find?_eq_some_iff_append]
    constructor
    · rintro ⟨hname, before, after, heq, hbefore⟩
      exact .first heq (by simpa using hname) (by simpa using hbefore)
    · rintro ⟨heq, hname, hbefore⟩
      exact ⟨by simpa using hname, _, _, heq, by simpa using hbefore⟩
  · constructor
    · intro h
      cases h
    · intro h
      cases h

/-- No model is selected exactly for the cause for which the option selects none. -/
theorem selectModel_eq_error_iff {wanted : Option OptionValue} {cause : SelectionError} :
    selectModel nameOf candidates wanted = .error cause ↔
      Rejects nameOf candidates wanted cause := by
  rcases wanted with - | name | -
  · simp only [selectModel, select]
    constructor
    · intro h
      split at h
      · cases h
        exact .noCandidates rfl
      · cases h
      · rename_i hnil hone
        cases h
        refine .several ?_
        rcases candidates with - | ⟨only, - | _⟩
        · exact absurd rfl hnil
        · exact absurd rfl (hone only)
        · simp
    · intro h
      cases h with
      | noCandidates hnil => rw [hnil]
      | several hlength =>
        rcases candidates with - | ⟨only, - | _⟩
        · cases hlength
        · exact absurd hlength (by simp)
        · rfl
  · have hfind : selectModel nameOf candidates (some (.text name)) = .error cause ↔
        candidates.find? (nameOf · = name) = none ∧ .noneNamed name = cause := by
      simp only [selectModel, select]
      cases candidates.find? (nameOf · = name) <;> simp
    rw [hfind, List.find?_eq_none]
    constructor
    · rintro ⟨hnone, rfl⟩
      exact .noneNamed (by simpa using hnone)
    · rintro ⟨hnone⟩
      exact ⟨by simpa using hnone, rfl⟩
  · constructor
    · intro h
      cases h
      exact .emptyList
    · rintro ⟨⟩
      rfl

end Selection

/-- That the file is there and loads. -/
structure Loads (tree : FileTree) (request : Arguments) (loaded : LoadedModels) : Prop where
  exists_eq : tree.exists? (FilePath.ofText request.file) = true
  load_eq : tree.load (FilePath.ofText request.file) = .ok loaded

/-- That a model of the loaded file is selected, and the options are valid. -/
structure Prepares (tree : FileTree) (request : Arguments) (loaded : LoadedModels)
    (index : Fin loaded.size) (options : Options) : Prop extends Loads tree request loaded where
  selects : Selects (fun i => (loaded.family i).name) loaded.models request.model index
  options_eq : request.options = .ok options

/-- What is logged when the file of a request is loaded. -/
def loadedEntry (request : Arguments) (loaded : LoadedModels) : LogEntry :=
  SourceFile.loadedEntry (FilePath.ofText request.file).text loaded

/-- That all stages succeed, with what is logged and with the document. -/
inductive Succeeds (tree : FileTree) (request : Arguments) : List LogEntry → String → Prop where
  | intro {loaded : LoadedModels} {index : Fin loaded.size} {options : Options} {text : String} :
    Prepares tree request loaded index options →
    ((Source.model loaded.family index).generate options).document = .ok text →
    Succeeds tree request
      (loadedEntry request loaded :: ((Source.model loaded.family index).generate options).log) text

/-- That one of the stages fails after all before it have succeeded, with what is logged until then
and with the cause. -/
inductive Fails (tree : FileTree) (request : Arguments) : List LogEntry → RunError → Prop where
  | existence :
    tree.exists? (FilePath.ofText request.file) = false →
    Fails tree request [] (.noFile (FilePath.ofText request.file).text)
  | load {cause : LoadError} :
    tree.exists? (FilePath.ofText request.file) = true →
    tree.load (FilePath.ofText request.file) = .error cause →
    Fails tree request [] (.load cause)
  | selection {loaded : LoadedModels} {cause : SelectionError} :
    Loads tree request loaded →
    Rejects (fun i => (loaded.family i).name) loaded.models request.model cause →
    Fails tree request [loadedEntry request loaded] (.selection cause)
  | options {loaded : LoadedModels} {index : Fin loaded.size} {cause : OptionError} :
    Loads tree request loaded →
    Selects (fun i => (loaded.family i).name) loaded.models request.model index →
    request.options = .error cause →
    Fails tree request [loadedEntry request loaded] (.options cause)
  | introspection {loaded : LoadedModels} {index : Fin loaded.size} {options : Options}
      {cause : SchemaError} :
    Prepares tree request loaded index options →
    modelSchema loaded.family index = .error cause →
    Fails tree request [loadedEntry request loaded] (.schema cause)
  | compilation {loaded : LoadedModels} {index : Fin loaded.size} {options : Options}
      {schema : Schema 0} {cause : SchemaError} :
    Prepares tree request loaded index options →
    modelSchema loaded.family index = .ok schema →
    (generate Schema.noObjects schema options).document = .error cause →
    Fails tree request
      (loadedEntry request loaded :: (generate Schema.noObjects schema options).log)
      (.schema cause)

section Stages

variable {tree : FileTree} {request : Arguments} {log : List LogEntry}

theorem Loads.attempt_eq {loaded : LoadedModels} (h : Loads tree request loaded) :
    attempt tree request =
      { compileLoaded loaded request with
        log := loadedEntry request loaded :: (compileLoaded loaded request).log } := by
  simp [attempt, h.exists_eq, h.load_eq, loadedEntry]

theorem Prepares.compileLoaded_eq {loaded : LoadedModels} {index : Fin loaded.size}
    {options : Options} (h : Prepares tree request loaded index options) :
    compileLoaded loaded request =
      ⟨((Source.model loaded.family index).generate options).log,
        ((Source.model loaded.family index).generate options).document.mapError .schema⟩ := by
  simp [compileLoaded, selectModel_eq_ok_iff.2 h.selects, h.options_eq]

/-- Where all stages succeed, the document is what is attempted. -/
theorem Succeeds.attempt_eq {text : String} (h : Succeeds tree request log text) :
    attempt tree request = ⟨log, .ok text⟩ := by
  cases h with
  | intro hprepares hdocument =>
    rw [hprepares.toLoads.attempt_eq, hprepares.compileLoaded_eq, hdocument]
    rfl

/-- Where a stage fails, its cause is what comes of the attempt. -/
theorem Fails.attempt_eq {cause : RunError} (h : Fails tree request log cause) :
    attempt tree request = ⟨log, .error cause⟩ := by
  cases h with
  | existence hexists => simp [attempt, hexists]
  | load hexists hload => simp [attempt, hexists, hload]
  | selection hloads hrejects =>
    rw [hloads.attempt_eq, compileLoaded, selectModel_eq_error_iff.2 hrejects]
  | options hloads hselects hoptions =>
    rw [hloads.attempt_eq, compileLoaded, selectModel_eq_ok_iff.2 hselects, hoptions]
  | introspection hprepares hschema =>
    rw [hprepares.toLoads.attempt_eq, hprepares.compileLoaded_eq, Source.generate, Source.graph,
      hschema]
    rfl
  | compilation hprepares hschema hdocument =>
    rw [hprepares.toLoads.attempt_eq, hprepares.compileLoaded_eq,
      Source.generate_of_model hschema, hdocument]
    rfl

/-- All stages succeed, or there is one that fails first. -/
theorem succeeds_or_fails (tree : FileTree) (request : Arguments) :
    (∃ log text, Succeeds tree request log text) ∨ ∃ log cause, Fails tree request log cause := by
  cases hexists : tree.exists? (FilePath.ofText request.file) with
  | false => exact .inr ⟨_, _, .existence hexists⟩
  | true =>
  cases hload : tree.load (FilePath.ofText request.file) with
  | error cause => exact .inr ⟨_, _, .load hexists hload⟩
  | ok loaded =>
  have hloads : Loads tree request loaded := ⟨hexists, hload⟩
  cases hselect : selectModel (fun i => (loaded.family i).name) loaded.models request.model with
  | error cause => exact .inr ⟨_, _, .selection hloads (selectModel_eq_error_iff.1 hselect)⟩
  | ok index =>
  have hselects := selectModel_eq_ok_iff.1 hselect
  cases hoptions : request.options with
  | error cause => exact .inr ⟨_, _, .options hloads hselects hoptions⟩
  | ok options =>
  have hprepares : Prepares tree request loaded index options := ⟨hloads, hselects, hoptions⟩
  cases hschema : modelSchema loaded.family index with
  | error cause => exact .inr ⟨_, _, .introspection hprepares hschema⟩
  | ok schema =>
  cases hdocument : (generate Schema.noObjects schema options).document with
  | error cause => exact .inr ⟨_, _, .compilation hprepares hschema hdocument⟩
  | ok text =>
    have hgenerate := Source.generate_of_model hschema options
    exact .inl ⟨_, text, .intro hprepares (hgenerate ▸ hdocument)⟩

/-- Where a stage fails, the stages do not all succeed. -/
theorem Fails.not_succeeds {cause : RunError} (h : Fails tree request log cause) :
    ¬∃ other text, Succeeds tree request other text := by
  rintro ⟨other, text, hsucceeds⟩
  have heq := hsucceeds.attempt_eq
  rw [h.attempt_eq] at heq
  cases heq

/-- Never both: what is attempted has a document or a cause. -/
theorem succeeds_xor_fails (tree : FileTree) (request : Arguments) :
    Xor (∃ log text, Succeeds tree request log text)
      (∃ log cause, Fails tree request log cause) := by
  rcases succeeds_or_fails tree request with hsucceeds | ⟨log, cause, hfails⟩
  · refine .inl ⟨hsucceeds, ?_⟩
    rintro ⟨log, cause, hfails⟩
    exact hfails.not_succeeds hsucceeds
  · exact .inr ⟨⟨log, cause, hfails⟩, hfails.not_succeeds⟩

end Stages

/-- The name of the output file. An empty name is none. -/
def Arguments.outputName? (request : Arguments) : Option String :=
  (request.output.map OptionValue.content).filter (· ≠ "")

section Report

variable {tree : FileTree} {request : Arguments} {log : List LogEntry}

/-- A path that is refused ends the run at once. -/
theorem runCompilation_of_refusal {fault : PathFault}
    (h : tree.refusal? (FilePath.ofText request.file) = some fault) :
    runCompilation tree request =
      { ending := .refused fault (FilePath.ofText request.file).text, files := tree } := by
  simp [runCompilation, h]

/-- A stage that fails is reported, and nothing else is done. -/
theorem Fails.runCompilation_eq {cause : RunError} (h : Fails tree request log cause)
    (hfile : tree.refusal? (FilePath.ofText request.file) = none) :
    runCompilation tree request =
      { ending := .exit 1
        stderr := shownLog request.verbose log ++ "Error: " ++ cause.message ++ "\n"
        files := tree } := by
  simp [runCompilation, hfile, runAttempt, h.attempt_eq]

/-- Without an output file the document goes to the standard output. -/
theorem Succeeds.runCompilation_printed {text : String} (h : Succeeds tree request log text)
    (hfile : tree.refusal? (FilePath.ofText request.file) = none)
    (houtput : request.outputName? = none) :
    runCompilation tree request =
      { ending := .exit 0, stdout := text ++ "\n", stderr := shownLog request.verbose log,
        files := tree } := by
  unfold Arguments.outputName? at houtput
  simp only [runCompilation, hfile, runAttempt, h.attempt_eq, houtput]

/-- With an output file the document is written there, if it can be. -/
theorem Succeeds.runCompilation_written {text name : String} {files : FileTree}
    (h : Succeeds tree request log text)
    (hfile : tree.refusal? (FilePath.ofText request.file) = none)
    (houtput : request.outputName? = some name)
    (hwrite : tree.write (FilePath.ofText name) (text ++ "\n") = .ok files) :
    runCompilation tree request =
      { ending := .exit 0, stderr := shownLog request.verbose log, files } := by
  unfold Arguments.outputName? at houtput
  simp only [runCompilation, hfile, runAttempt, h.attempt_eq, houtput, hwrite]

/-- An output file that cannot be written ends the run. -/
theorem Succeeds.runCompilation_unwritten {text name : String} {fault : PathFault}
    (h : Succeeds tree request log text)
    (hfile : tree.refusal? (FilePath.ofText request.file) = none)
    (houtput : request.outputName? = some name)
    (hwrite : tree.write (FilePath.ofText name) (text ++ "\n") = .error fault) :
    runCompilation tree request =
      { ending := .refused fault (FilePath.ofText name).text
        stderr := shownLog request.verbose log
        files := tree } := by
  unfold Arguments.outputName? at houtput
  simp only [runCompilation, hfile, runAttempt, h.attempt_eq, houtput, hwrite]

/-- Only a run whose stages succeed, and whose document can be written, ends with the code zero. -/
theorem exit_zero_iff :
    (runCompilation tree request).ending = .exit 0 ↔
      tree.refusal? (FilePath.ofText request.file) = none ∧
        (∃ log text, Succeeds tree request log text) ∧
        ∀ name ∈ request.outputName?, tree.IsWritable (FilePath.ofText name) := by
  cases hfile : tree.refusal? (FilePath.ofText request.file) with
  | some fault => simp [runCompilation_of_refusal hfile]
  | none =>
  rcases succeeds_or_fails tree request with ⟨log, text, hsucceeds⟩ | ⟨log, cause, hfails⟩
  · cases houtput : request.outputName? with
    | none =>
      rw [hsucceeds.runCompilation_printed hfile houtput]
      simpa using ⟨log, text, hsucceeds⟩
    | some name =>
      simp only [Option.mem_def, Option.some.injEq, forall_eq']
      rw [← FileTree.exists_write_iff (text ++ "\n")]
      cases hwrite : tree.write (FilePath.ofText name) (text ++ "\n") with
      | ok files =>
        rw [hsucceeds.runCompilation_written hfile houtput hwrite]
        simpa using ⟨log, text, hsucceeds⟩
      | error fault =>
        rw [hsucceeds.runCompilation_unwritten hfile houtput hwrite]
        simp
  · rw [hfails.runCompilation_eq hfile]
    constructor
    · intro hcode
      cases hcode
    · rintro ⟨-, hsucceeds, -⟩
      exact absurd hsucceeds hfails.not_succeeds

/-- A run that does not end with the code zero prints no document and leaves all files as they
were. -/
theorem quiet_of_ending_ne (h : (runCompilation tree request).ending ≠ .exit 0) :
    (runCompilation tree request).stdout = "" ∧ (runCompilation tree request).files = tree := by
  cases hfile : tree.refusal? (FilePath.ofText request.file) with
  | some fault => simp [runCompilation_of_refusal hfile]
  | none =>
  rcases succeeds_or_fails tree request with ⟨log, text, hsucceeds⟩ | ⟨log, cause, hfails⟩
  · cases houtput : request.outputName? with
    | none => simp [hsucceeds.runCompilation_printed hfile houtput] at h
    | some name =>
      cases hwrite : tree.write (FilePath.ofText name) (text ++ "\n") with
      | ok files => simp [hsucceeds.runCompilation_written hfile houtput hwrite] at h
      | error fault => simp [hsucceeds.runCompilation_unwritten hfile houtput hwrite]
  · simp [hfails.runCompilation_eq hfile]

end Report

/-- A run that compiles, from its stages. Either all stages succeed or one fails first, never both.
If the path of the file is not refused, a stage that fails ends the run with the code one: its cause
is reported on the standard error, nothing is printed and all files are as they were. If all
succeed, the document and a line feed are what is printed, with all files as they were, or what
stands in the output file, with nothing printed and all else as it was; then the run ends with the
code zero, and it never does otherwise. A path that the file system refuses, that of the file or
that of an output that cannot be written, ends the run without an exit code and without a report,
but neither prints anything nor changes a file. -/
theorem run_of_compile {tree : FileTree} {arguments : List String} {request : Arguments}
    (h : parse arguments = .ok (.compile request)) :
    Xor (∃ log text, Succeeds tree request log text) (∃ log cause, Fails tree request log cause) ∧
      (tree.refusal? (FilePath.ofText request.file) = none →
        (∀ log cause, Fails tree request log cause →
          run tree arguments =
            { ending := .exit 1
              stderr := shownLog request.verbose log ++ "Error: " ++ cause.message ++ "\n"
              files := tree }) ∧
        ∀ log text, Succeeds tree request log text →
          (request.outputName? = none →
            run tree arguments =
              { ending := .exit 0, stdout := text ++ "\n",
                stderr := shownLog request.verbose log, files := tree }) ∧
          ∀ name ∈ request.outputName?,
            (tree.IsWritable (FilePath.ofText name) →
              ∃ files, run tree arguments =
                  { ending := .exit 0, stderr := shownLog request.verbose log, files } ∧
                tree.IsWritten files (FilePath.ofText name) (text ++ "\n") ∧
                files.textAt (FilePath.ofText name) = some (text ++ "\n")) ∧
            (¬tree.IsWritable (FilePath.ofText name) →
              ∃ fault, run tree arguments =
                { ending := .refused fault (FilePath.ofText name).text
                  stderr := shownLog request.verbose log
                  files := tree })) ∧
      (∀ fault, tree.refusal? (FilePath.ofText request.file) = some fault →
        run tree arguments =
          { ending := .refused fault (FilePath.ofText request.file).text, files := tree }) ∧
      ((run tree arguments).ending = .exit 0 ↔
        tree.refusal? (FilePath.ofText request.file) = none ∧
          (∃ log text, Succeeds tree request log text) ∧
          ∀ name ∈ request.outputName?, tree.IsWritable (FilePath.ofText name)) ∧
      ((run tree arguments).ending ≠ .exit 0 →
        (run tree arguments).stdout = "" ∧ (run tree arguments).files = tree) := by
  have hrun : run tree arguments = runCompilation tree request := by rw [run, h]
  rw [hrun]
  refine ⟨succeeds_xor_fails tree request, fun hfile => ⟨?_, ?_⟩,
    fun fault => runCompilation_of_refusal, exit_zero_iff, quiet_of_ending_ne⟩
  · exact fun log cause hfails => hfails.runCompilation_eq hfile
  · intro log text hsucceeds
    refine ⟨hsucceeds.runCompilation_printed hfile, fun name hname => ⟨?_, ?_⟩⟩
    · intro hwritable
      obtain ⟨files, hwrite⟩ := (FileTree.exists_write_iff (text ++ "\n")).2 hwritable
      have hwritten := FileTree.isWritten_of_write hwrite
      exact ⟨files, hsucceeds.runCompilation_written hfile hname hwrite, hwritten,
        hwritten.textAt_eq⟩
    · intro hunwritable
      cases hwrite : tree.write (FilePath.ofText name) (text ++ "\n") with
      | ok files =>
        exact absurd ((FileTree.exists_write_iff (text ++ "\n")).1 ⟨files, hwrite⟩) hunwritable
      | error fault => exact ⟨fault, hsucceeds.runCompilation_unwritten hfile hname hwrite⟩

/-- A model with a number. -/
def pingFamily : Family 1 := fun _ =>
  { name := "Ping", fields := [("id", { form := some (.plain (PlainClass.named "int")) })] }

/-- A working directory with a file that defines the model, and with a text. -/
def pings : FileTree :=
  .ofFiles
    [(FilePath.ofText "ping.py",
        .source "import pydantic" (.defining pingFamily [("Ping", .model ⟨0, Nat.zero_lt_one⟩)])),
     (FilePath.ofText "ping.proto", .text "none yet")]

/-- The request to compile the model in place of the text. -/
def pingRequest : Arguments :=
  { file := "ping.py", output := some (.text "ping.proto") }

theorem modelSchema_pingFamily :
    modelSchema pingFamily 0 = .ok (.object [("id", .number true)]) := by
  have hdepth : Visit.unvisited ([] : List (Fin 1)) < 2 := by decide
  simp only [modelSchema, ← Introspection.modelWithin_eq (fun _ _ => .ok .string) hdepth]
  rfl

/-- All stages of the request succeed. -/
theorem succeeds_pingRequest :
    ∃ log text, Succeeds pings pingRequest log text ∧
      ((Source.model pingFamily 0).generate {}).document = .ok text := by
  have hprepares : Prepares pings pingRequest ⟨1, pingFamily, [0]⟩ (0 : Fin 1) {} :=
    { exists_eq := by cbv, load_eq := by cbv, selects := .only rfl, options_eq := rfl }
  have hdocument : ∃ text, ((Source.model pingFamily 0).generate {}).document = .ok text := by
    rw [Source.generate_of_model modelSchema_pingFamily]
    exact ⟨_, rfl⟩
  obtain ⟨text, htext⟩ := hdocument
  exact ⟨_, text, .intro hprepares htext, htext⟩

/-- The text is replaced by the document. -/
theorem run_of_compile_pings :
    parse ["ping.py", "-o", "ping.proto"] = .ok (.compile pingRequest) ∧
      ∃ text, ((Source.model pingFamily 0).generate {}).document = .ok text ∧
        (run pings ["ping.py", "-o", "ping.proto"]).ending = .exit 0 ∧
        (run pings ["ping.py", "-o", "ping.proto"]).stdout = "" ∧
        (run pings ["ping.py", "-o", "ping.proto"]).files.textAt (FilePath.ofText "ping.proto") =
          some (text ++ "\n") := by
  have hparse : parse ["ping.py", "-o", "ping.proto"] = .ok (.compile pingRequest) := by cbv
  have hfile : pings.refusal? (FilePath.ofText pingRequest.file) = none := by cbv
  have hwritable : pings.IsWritable (FilePath.ofText "ping.proto") := by
    refine ⟨⟨.above 0, ["ping.proto"]⟩, by cbv, ?_⟩
    have hentry : pings.entryAt ⟨.above 0, ["ping.proto"]⟩ = .ok (.file (.text "none yet")) := by
      cbv
    rw [hentry]
    rintro ⟨⟩
  obtain ⟨log, text, hsucceeds, hdocument⟩ := succeeds_pingRequest
  obtain ⟨files, hrun, -, htext⟩ := (((run_of_compile hparse).2.1 hfile).2 log text hsucceeds).2
    "ping.proto" (by decide) |>.1 hwritable
  exact ⟨hparse, text, hdocument, by rw [hrun], by rw [hrun], by rw [hrun]; exact htext⟩

/-- A single argument that does not begin with a dash is the file of a compilation. -/
theorem parse_file {file : String} (h : "-".isPrefixOf file = false) :
    parse [file] = .ok (.compile { file }) := by
  have hne : file ≠ "--" := by
    intro heq
    rw [heq] at h
    exact absurd h (by decide +kernel)
  simp [parse, Token.ofArguments, Token.ofArgument, hne, h, takeTokens, Progress.finish, bind,
    Except.bind, pure, Except.pure]

/-- A name of so many letters. -/
def nameOfSize (size : Nat) : String := String.ofList (List.replicate size 'x')

theorem mem_nameOfSize {size : Nat} {c : Char} (h : c ∈ (nameOfSize size).toList) : c = 'x' := by
  rw [nameOfSize, String.toList_ofList] at h
  exact List.eq_of_mem_replicate h

theorem utf8ByteSize_nameOfSize (size : Nat) : (nameOfSize size).utf8ByteSize = size := by
  induction size with
  | zero => rfl
  | succ size ih =>
    rw [nameOfSize, List.replicate_succ, String.ofList_cons, String.utf8ByteSize_append,
      ← nameOfSize, ih, String.utf8ByteSize_singleton, Nat.add_comm]
    rfl

theorem ofText_nameOfSize {size : Nat} (h : 1 < size) :
    FilePath.ofText (nameOfSize size) = ⟨"", [nameOfSize size]⟩ := by
  have hsize := utf8ByteSize_nameOfSize size
  refine FilePath.ofText_of_not_mem (fun hmem => ?_) (fun hempty => ?_) (fun hdot => ?_)
  · exact absurd (mem_nameOfSize hmem) (by decide)
  · rw [hempty] at hsize
    exact absurd hsize (by simp; omega)
  · rw [hdot] at hsize
    exact absurd hsize (by rw [show ".".utf8ByteSize = 1 from rfl]; omega)

/-- There is no file with a name of 300 letters, so that the first stage fails, but the run ends
without an exit code and reports nothing. -/
theorem run_longName :
    parse [nameOfSize 300] = .ok (.compile { file := nameOfSize 300 }) ∧
      Fails pings { file := nameOfSize 300 } [] (.noFile (nameOfSize 300)) ∧
      (run pings [nameOfSize 300]).ending = .refused .nameTooLong (nameOfSize 300) ∧
      (run pings [nameOfSize 300]).stderr = "" := by
  have hparse : parse [nameOfSize 300] = .ok (.compile { file := nameOfSize 300 }) :=
    parse_file (by decide +kernel)
  have htext : (FilePath.ofText (nameOfSize 300)).text = nameOfSize 300 := by
    rw [ofText_nameOfSize (by decide), FilePath.text_single]
  have hentry : pings.entry (FilePath.ofText (nameOfSize 300)) = .error .nameTooLong := by
    rw [ofText_nameOfSize (by decide)]
    refine FileTree.entry_of_long (by cbv) (fun hmem => ?_) ?_ ?_
    · exact absurd (mem_nameOfSize hmem) (by decide)
    · rw [utf8ByteSize_nameOfSize]
      decide
    · rw [utf8ByteSize_nameOfSize]
      decide
  have hfile : pings.refusal? (FilePath.ofText (nameOfSize 300)) = some .nameTooLong := by
    rw [FileTree.refusal?, hentry]
  have hexists : pings.exists? (FilePath.ofText (nameOfSize 300)) = false := by
    rw [FileTree.exists?, hentry]
    rfl
  have hfails : Fails pings { file := nameOfSize 300 } [] (.noFile (nameOfSize 300)) := by
    have h := @Fails.existence pings { file := nameOfSize 300 } hexists
    rwa [htext] at h
  have hrun : run pings [nameOfSize 300] =
      { ending := .refused .nameTooLong (nameOfSize 300), files := pings } := by
    have h := @runCompilation_of_refusal pings { file := nameOfSize 300 } _ hfile
    rw [htext] at h
    rw [run, hparse]
    exact h
  exact ⟨hparse, hfails, by rw [hrun], by rw [hrun]⟩

end ProtoSchema.CommandLine
