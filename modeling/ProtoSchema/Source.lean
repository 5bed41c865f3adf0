import ProtoSchema.Generation
import ProtoSchema.Introspection
import ProtoSchema.Schema.Sharing

/-!
# What a document can be generated from

A document is generated from a schema, or from a model, whose schema is found first. A value that is
no schema is refused.
-/

namespace ProtoSchema

/-- A schema with the shared objects that it is over. -/
structure SchemaGraph where
  /-- The number of shared objects. -/
  size : Nat
  /-- The shared objects. -/
  objects : Objects size
  /-- The schema. -/
  root : Schema size

/-- Something that a document can be asked for. -/
inductive Source where
  /-- A schema, or a value in its place. -/
  | schema (graph : SchemaGraph)
  /-- A model of a family. -/
  | model {k : Nat} (family : Family k) (index : Fin k)

namespace Source

/-- The schema of the source. -/
def graph : Source → Except SchemaError SchemaGraph
  | .schema graph =>
    match graph.root with
    | .foreign value => .error (.unsupported value.kind)
    | _ => .ok graph
  | .model family index =>
    (modelSchema family index).map fun schema => ⟨0, Schema.noObjects, schema⟩

/-- Generate the document of the source. -/
def generate (source : Source) (options : Options) : Generation :=
  match source.graph with
  | .error cause => ⟨.empty, [], .error cause⟩
  | .ok graph => ProtoSchema.generate graph.objects graph.root options

end Source

end ProtoSchema
