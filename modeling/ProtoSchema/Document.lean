import ProtoSchema.Definitions
import ProtoSchema.Text.Blank

/-!
# Documents

A document opens with the version of the language and the package, and goes on with the enums and
then the messages, each in the order of the definitions, with an empty line between any two parts.
Blank characters at the end of the document are dropped.
-/

namespace ProtoSchema.Document

/-- The opening of a document. -/
def header (package : String) : String :=
  "syntax = \"proto3\";\npackage " ++ package ++ ";"

/-- The texts of all definitions: enums first, then messages. -/
def parts (definitions : Definitions) : List String :=
  definitions.enums.entries.map (·.2) ++
    definitions.messages.entries.map fun message => Definitions.messageText message.1 message.2

/-- The document of the definitions for a package. -/
def render (definitions : Definitions) (package : String) : String :=
  Text.Blank.trim
    (header package ++ "\n\n" ++ "\n\n".intercalate (parts definitions) ++ "\n")

end ProtoSchema.Document
