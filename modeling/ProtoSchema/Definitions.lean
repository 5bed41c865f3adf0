import ProtoSchema.Compilation
import ProtoSchema.Entries
import ProtoSchema.Log

/-!
# Definitions

The definitions of a document are its messages and its enums, each known by a name that is used
once among the messages and once among the enums. They stand in the order in which their names were
first defined; defining a name again replaces the body, leaves the place, and is worth a warning.
The events of a compilation are recorded one after the other.
-/

namespace ProtoSchema

/-- Named definitions of one kind, in the order in which their names were first defined. -/
structure Catalogue (α : Type) where
  /-- The names and bodies, in order. -/
  entries : List (String × α)
  /-- No name is used twice. -/
  distinct : (Entries.names entries).Nodup

namespace Catalogue

variable {α : Type}

/-- No definitions. -/
def empty : Catalogue α :=
  ⟨[], List.nodup_nil⟩

/-- The names in use, in order. -/
def names (catalogue : Catalogue α) : List String :=
  Entries.names catalogue.entries

/-- The number of definitions. -/
def size (catalogue : Catalogue α) : Nat :=
  catalogue.entries.length

/-- Whether the name is in use. -/
def holds (catalogue : Catalogue α) (name : String) : Bool :=
  Entries.holds catalogue.entries name

/-- The catalogue with the body defined under the name. -/
def define (catalogue : Catalogue α) (name : String) (body : α) : Catalogue α where
  entries := Entries.put catalogue.entries name body
  distinct := Entries.nodup_names_put catalogue.distinct name body

theorem holds_iff {catalogue : Catalogue α} {name : String} :
    catalogue.holds name = true ↔ name ∈ catalogue.names :=
  Entries.holds_iff

/-- A new name comes last; a name in use keeps every name in its place. -/
theorem names_define (catalogue : Catalogue α) (name : String) (body : α) :
    (catalogue.define name body).names =
      if name ∈ catalogue.names then catalogue.names else catalogue.names ++ [name] :=
  Entries.names_put catalogue.entries name body

theorem nodup_names (catalogue : Catalogue α) : catalogue.names.Nodup :=
  catalogue.distinct

end Catalogue

/-- The definitions of a document. -/
structure Definitions where
  /-- The messages, each with the lines that declare its fields. -/
  messages : Catalogue (List String)
  /-- The enums, each with its whole text. -/
  enums : Catalogue String

namespace Definitions

/-- No definitions. -/
def empty : Definitions :=
  ⟨.empty, .empty⟩

/-- The indentation of a line inside a definition. -/
def indent : String := "    "

/-- The lines of the values of an enum, numbered from a start. -/
def enumLines (start : Nat) : List String → List String
  | [] => []
  | option :: rest => (indent ++ option ++ " = " ++ toString start ++ ";") :: enumLines (start + 1) rest

/-- The text of an enum whose values have the spellings of the options, numbered from zero. -/
def enumText (name : String) (options : List String) : String :=
  "enum " ++ name ++ " \x7b\n" ++ "\n".intercalate (enumLines 0 options) ++ "\n\x7d"

/-- The text of a message with the given lines. -/
def messageText (name : String) (lines : List String) : String :=
  "message " ++ name ++ " \x7b\n" ++ "\n".intercalate (lines.map (indent ++ ·)) ++ "\n\x7d"

/-- The definitions with a message defined, and what is logged about it. -/
def defineMessage (definitions : Definitions) (name : String) (lines : List String) :
    Definitions × List LogEntry :=
  ({ definitions with messages := definitions.messages.define name lines },
    (if definitions.messages.holds name then [.messageRedefined name] else []) ++
      [.messageDefined name lines.length])

/-- The definitions with an enum defined by its text, and what is logged about it. -/
def defineEnum (definitions : Definitions) (name : String) (text : String) :
    Definitions × List LogEntry :=
  ({ definitions with enums := definitions.enums.define name text },
    (if definitions.enums.holds name then [.enumRedefined name] else []) ++ [.enumDefined name])

/-- The definitions after an event, and what is logged about it. -/
def record (definitions : Definitions) : Event → Definitions × List LogEntry
  | .message name fields => definitions.defineMessage name (fields.map (·.line))
  | .enumeration name options => definitions.defineEnum name (enumText name options)
  | .objectCompiled label fieldCount => (definitions, [.objectCompiled label fieldCount])

/-- The definitions after a list of events, and what is logged about them. -/
def recordAll (definitions : Definitions) : List Event → Definitions × List LogEntry
  | [] => (definitions, [])
  | event :: rest =>
    let (next, logged) := definitions.record event
    let (last, more) := next.recordAll rest
    (last, logged ++ more)

theorem recordAll_nil (definitions : Definitions) : definitions.recordAll [] = (definitions, []) :=
  rfl

/-- Recording two lists of events is recording the one after the other. -/
theorem recordAll_append (definitions : Definitions) (events more : List Event) :
    definitions.recordAll (events ++ more) =
      (((definitions.recordAll events).1.recordAll more).1,
        (definitions.recordAll events).2 ++ ((definitions.recordAll events).1.recordAll more).2) := by
  induction events generalizing definitions with
  | nil => rfl
  | cons event rest ih => simp [recordAll, ih]

end Definitions

end ProtoSchema
