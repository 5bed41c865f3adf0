import ProtoSchema.Compile
import ProtoSchema.Document
import ProtoSchema.Options

/-!
# Generating a document from a schema

A document is generated from an object, which may be wrapped in layers of optionality. The object
is compiled, its fields become the root message, and everything that was defined on the way is
rendered. The root message is defined last, so it replaces a definition of its name.
-/

namespace ProtoSchema

variable {n : Nat}

/-- What generating a document yields. -/
structure Generation where
  /-- The definitions that were made. -/
  definitions : Definitions
  /-- What is logged. -/
  log : List LogEntry
  /-- The document, or why there is none. -/
  document : Except SchemaError String

namespace Generation

/-- The compilation that defines the root message and all that it refers to. -/
def compilation (objects : Objects n) (schema : Schema n) (options : Options) :
    Compilation Unit := do
  let fields ← compileObject objects options.namer [] [] schema.strip
  Compilation.emit (.message (options.namer.rootName options.rootMessage) fields)

end Generation

/-- Generate the document of a schema. -/
def generate (objects : Objects n) (schema : Schema n) (options : Options) : Generation :=
  let compilation := Generation.compilation objects schema options
  let (definitions, log) := Definitions.empty.recordAll compilation.events
  match compilation.outcome with
  | .error cause => ⟨definitions, log, .error cause⟩
  | .ok () =>
    { definitions
      log := log ++
        [.generated definitions.messages.size definitions.enums.size options.package]
      document := .ok (Document.render definitions options.package) }

end ProtoSchema
