import ProtoSchema.Generation
import ProtoSchema.Proofs.Compilation

/-!
# What generating a document comes down to

The compilation behind a document is that of the root object, with the definition of the root
message at the end. The document is there exactly if the compilation succeeds, and it is rendered
from what the compilation defines.
-/

namespace ProtoSchema.Generation

variable {n : Nat} {objects : Objects n} {schema : Schema n} {options : Options}

/-- The compilation of a document ends as that of its root object. -/
theorem outcome_compilation (objects : Objects n) (schema : Schema n) (options : Options) :
    (compilation objects schema options).outcome =
      (compileObject objects options.namer [] [] schema.strip).outcome.map fun _ => () := by
  rw [compilation]
  cases h : (compileObject objects options.namer [] [] schema.strip).outcome with
  | error cause =>
    rw [Compilation.bind_of_error h]
    rfl
  | ok fields =>
    rw [Compilation.bind_of_ok h]
    rfl

/-- The root message is defined after all else. -/
theorem events_compilation {fields : List NumberedField}
    (h : (compileObject objects options.namer [] [] schema.strip).outcome = .ok fields) :
    (compilation objects schema options).events =
      (compileObject objects options.namer [] [] schema.strip).events ++
        [.message (options.namer.rootName options.rootMessage) fields] := by
  rw [compilation, Compilation.bind_of_ok h]
  rfl

/-- The definitions are what the events of the compilation define, also if it fails. -/
theorem definitions_eq (objects : Objects n) (schema : Schema n) (options : Options) :
    (generate objects schema options).definitions =
      (Definitions.empty.recordAll (compilation objects schema options).events).1 := by
  cases h : (compilation objects schema options).outcome <;> simp only [generate, h]

/-- What is logged is what is logged about the events, and the sizes of a document if there is one. -/
theorem log_eq (objects : Objects n) (schema : Schema n) (options : Options) :
    (generate objects schema options).log =
      (Definitions.empty.recordAll (compilation objects schema options).events).2 ++
        match (compilation objects schema options).outcome with
        | .error _ => []
        | .ok () =>
          [.generated (generate objects schema options).definitions.messages.size
            (generate objects schema options).definitions.enums.size options.package] := by
  cases h : (compilation objects schema options).outcome with
  | error cause =>
    simp only [generate, h]
    exact (List.append_nil _).symm
  | ok value => simp only [generate, h]

/-- A document is there or not as the compilation ends, and is the rendering of the definitions. -/
theorem document_eq (objects : Objects n) (schema : Schema n) (options : Options) :
    (generate objects schema options).document =
      (compilation objects schema options).outcome.map fun _ =>
        Document.render (generate objects schema options).definitions options.package := by
  cases h : (compilation objects schema options).outcome <;> simp only [generate, h] <;> rfl

/-- A document is generated exactly if the compilation succeeds, and refused for its cause. -/
theorem outcome_document (objects : Objects n) (schema : Schema n) (options : Options) :
    ((generate objects schema options).document.map fun _ => ()) =
      (compilation objects schema options).outcome := by
  rw [document_eq]
  cases (compilation objects schema options).outcome <;> rfl

/-- Where a document is generated, its root object is compiled into fields. -/
theorem exists_fields_of_document {text : String}
    (h : (generate objects schema options).document = .ok text) :
    ∃ fields, (compileObject objects options.namer [] [] schema.strip).outcome = .ok fields := by
  have houtcome := outcome_document objects schema options
  rw [outcome_compilation, h] at houtcome
  cases hobject : (compileObject objects options.namer [] [] schema.strip).outcome with
  | error cause =>
    rw [hobject] at houtcome
    cases houtcome
  | ok fields => exact ⟨fields, rfl⟩

/-- The warnings are those of recording the events of the compilation, also if it fails. -/
theorem shown_log (objects : Objects n) (schema : Schema n) (options : Options) :
    LogEntry.shown false (generate objects schema options).log =
      LogEntry.shown false
        (Definitions.empty.recordAll (compilation objects schema options).events).2 := by
  rw [log_eq, LogEntry.shown_append]
  cases (compilation objects schema options).outcome <;> exact List.append_nil _

/-- A document is the rendering of the definitions. -/
theorem eq_render_of_document {text : String}
    (h : (generate objects schema options).document = .ok text) :
    text = Document.render (generate objects schema options).definitions options.package := by
  rw [document_eq] at h
  cases hcompilation : (compilation objects schema options).outcome with
  | error cause =>
    rw [hcompilation] at h
    cases h
  | ok value =>
    rw [hcompilation] at h
    exact (Except.ok.inj h).symm

end ProtoSchema.Generation
