import ProtoSchema.TypeForm.Basic

/-!
# Models

A model is a class with typed fields. A field has an annotation, a description that gathers its
constraints, and it may be required. The models that can refer to each other form a family, in
which each is known by its number.
-/

namespace ProtoSchema

/-- A field of a model in a family of `k` models. -/
structure ModelField (k : Nat) where
  /-- The type of the field, without constraints of its own; missing if the field has none. -/
  form : Option (TypeForm k)
  /-- The constraints of the field. -/
  info : FieldInfo := {}
  /-- Whether a value has to be given. -/
  required : Bool := true

/-- A model in a family of `k` models. -/
structure Model (k : Nat) where
  /-- The name of the class. -/
  name : String
  /-- The fields in the order in which they are declared. -/
  fields : List (String × ModelField k)
  /-- Whether the class comes from elsewhere than the file that names it. -/
  imported : Bool := false

/-- A family of `k` models. -/
abbrev Family (k : Nat) := Fin k → Model k

end ProtoSchema
