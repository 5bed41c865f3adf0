/-!
# Why a schema is refused

A schema is refused for one of two causes: something in it has no mapping, or an object contains
itself. The first is reported by the kind that has no mapping, the second by the chain of names
that leads from the outermost object back to one that is already open.
-/

namespace ProtoSchema

/-- The cause for which a schema is refused. -/
inductive SchemaError where
  /-- The kind has no mapping. -/
  | unsupported (kind : String)
  /-- The last of the named objects is one of those before it. -/
  | cyclic (path : List String)
  deriving DecidableEq

/-- The text that reports the cause. -/
def SchemaError.message : SchemaError → String
  | .unsupported kind => "Unsupported type: " ++ kind
  | .cyclic path => "Cyclic schema: " ++ " -> ".intercalate path

end ProtoSchema
