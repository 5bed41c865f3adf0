import ProtoSchema.Main
import ProtoSchema.Model.Declaration
import ProtoSchema.Schema.Equality
import ProtoSchema.Session
import ProtoSchema.TypeForm.Formation
import ProtoSchema.Proofs.Outline
import ProtoSchema.Proofs.Compilation
import ProtoSchema.Proofs.Compile.Steps
import ProtoSchema.Proofs.Compile.Expansion
import ProtoSchema.Proofs.Compile.Tree
import ProtoSchema.Proofs.Compile.Acceptance
import ProtoSchema.Proofs.Definitions
import ProtoSchema.Proofs.Compile.Reference
import ProtoSchema.Proofs.Schema.ObjectGraph
import ProtoSchema.Proofs.Compile.Cycles
import ProtoSchema.Proofs.Introspection.Cycles
import ProtoSchema.Proofs.Compile.Resolution
import ProtoSchema.Proofs.Redefinition
import ProtoSchema.Proofs.Compile.Clashes
import ProtoSchema.Proofs.Compile.Precedence
import ProtoSchema.Proofs.Naming
import ProtoSchema.Proofs.Singular
import ProtoSchema.Proofs.WordPaths
import ProtoSchema.Proofs.Compile.Qualified
import ProtoSchema.Proofs.Address
import ProtoSchema.Proofs.Compile.Stops
import ProtoSchema.Proofs.Compile.Numbering
import ProtoSchema.Proofs.Compile.Calls
import ProtoSchema.Proofs.Compile.InTurn
import ProtoSchema.Proofs.Compile.Independence
import ProtoSchema.Proofs.Compile.Failure
import ProtoSchema.Proofs.Compile.Normalization
import ProtoSchema.Proofs.Compile.Sharing
import ProtoSchema.Proofs.Compile.Lead
import ProtoSchema.Proofs.Reading
import ProtoSchema.Proofs.Inventory
import ProtoSchema.Proofs.Compile.Conservation
import ProtoSchema.Proofs.Introspection.Derived
import ProtoSchema.Proofs.Introspection.Presence
import ProtoSchema.Proofs.Identifier
import ProtoSchema.Proofs.Compile.FieldTypes
import ProtoSchema.Proofs.Compile.TypeNames
import ProtoSchema.Proofs.Compile.Shape
import ProtoSchema.Proofs.Introspection.Width
import ProtoSchema.Proofs.CommandLine.FileTree
import ProtoSchema.Proofs.CommandLine.Run
import ProtoSchema.Proofs.Schema.Alike
import ProtoSchema.Proofs.Schema.Equality
import ProtoSchema.Proofs.Compile.Interchange
import ProtoSchema.Proofs.Introspection.AdmittedRange
import ProtoSchema.Proofs.Introspection.Placement
import ProtoSchema.Proofs.Introspection.CyclePath
import ProtoSchema.Proofs.Quoted
import ProtoSchema.Proofs.EnumClass
import ProtoSchema.Proofs.Literal
import ProtoSchema.Proofs.Introspection.EnumValues
import ProtoSchema.Proofs.Uppercase
import ProtoSchema.Proofs.TypeName
import ProtoSchema.Proofs.Compile.Nesting
import ProtoSchema.Proofs.Compile.WordTrees
