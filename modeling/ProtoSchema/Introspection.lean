import ProtoSchema.IntegerWidth
import ProtoSchema.Model.Basic
import ProtoSchema.Schema.Basic
import ProtoSchema.SchemaError
import ProtoSchema.Visit

/-!
# The schema of a model

The schema of a model is an object with a field for each field of the model. Its schema follows
from the annotation: scalars from the class that an annotation names or is derived from, sequences,
sets, tuples and dictionaries from generic types, an enumeration from literals or an enum class, and
a nullable schema from a union of one type and null. Any other annotation is of unknown kind. A field
that need not be given is optional, unless its schema is nullable already.

Models that an annotation leads to are put in its place. A model that leads back to itself is the
error of a cyclic schema. The search ends because no path of models holds one twice.
-/

namespace ProtoSchema

open ProtoSchema.Visit (unvisited unvisited_lt)

namespace Introspection

variable {k : Nat}

/-- The schema of a plain class with constraints. -/
def plainSchema (type : PlainClass) (constraints : List Constraint) : Schema 0 :=
  match type.lineage with
  | .boolean => .boolean
  | .integer => if IntegerWidth.needs64 constraints then .bigInt else .number true
  | .float => .number false
  | .text => .string
  | .date => .date
  | .other => .unknown type.name

/-- The kind of the type of the null value. -/
def nullKind : String := "NoneType"

mutual

/-- The schema of an annotation with constraints, given the schemas of the models. -/
def formSchema (model : Fin k → Except SchemaError (Schema 0)) (constraints : List Constraint) :
    TypeForm k → Except SchemaError (Schema 0)
  | .annotated inner more => formSchema model (constraints ++ more) inner
  | .any => return .unknown "Any"
  | .none => return .unknown nullKind
  | .nullValue => return .unknown "None"
  | .ellipsis => return .unknown "Ellipsis"
  | .plain type => return plainSchema type constraints
  | .enumeration type => return .enumeration (type.members.map .text)
  | .model i => model i
  | .literal options => return .enumeration options
  | .union members => unionSchema model constraints members
  | .generic type arguments =>
    match type.role with
    | .sequence => return .array (← elementSchema model arguments)
    | .set => return .set (← elementSchema model arguments)
    | .tuple => tupleSchema model arguments
    | .dictionary => dictionarySchema model arguments
    | .other => return .unknown type.name
  | .named name _ => return .unknown name
termination_by structural form => form

/-- The schema of a union: nullable, if it is a union of one type and null. -/
def unionSchema (model : Fin k → Except SchemaError (Schema 0)) (constraints : List Constraint) :
    List (TypeForm k) → Except SchemaError (Schema 0)
  | [first, second] =>
    if first.isNone && !second.isNone then return .nullable (← formSchema model constraints second)
    else if second.isNone && !first.isNone then
      return .nullable (← formSchema model constraints first)
    else return .unknown "Union"
  | _ => return .unknown "Union"
termination_by structural members => members

/-- The schema of the elements of a sequence or set: that of the first argument. -/
def elementSchema (model : Fin k → Except SchemaError (Schema 0)) :
    List (TypeForm k) → Except SchemaError (Schema 0)
  | [] => return .unknown "Any"
  | first :: _ => formSchema model [] first
termination_by structural arguments => arguments

/-- The schema of a tuple, which is a sequence if dots follow its only type. -/
def tupleSchema (model : Fin k → Except SchemaError (Schema 0)) :
    List (TypeForm k) → Except SchemaError (Schema 0)
  | [] => return .unknown "tuple"
  | [first, .ellipsis] => return .array (← formSchema model [] first)
  | first :: rest => do
    let element ← formSchema model [] first
    let elements ← elementSchemas model rest
    return .tuple (element :: elements)
termination_by structural arguments => arguments

/-- The schema of a dictionary, which has exactly two arguments. -/
def dictionarySchema (model : Fin k → Except SchemaError (Schema 0)) :
    List (TypeForm k) → Except SchemaError (Schema 0)
  | [key, value] => do
    let keySchema ← formSchema model [] key
    let valueSchema ← formSchema model [] value
    return .map keySchema valueSchema
  | _ => return .unknown "dict"
termination_by structural arguments => arguments

/-- The schemas of the elements of a tuple. -/
def elementSchemas (model : Fin k → Except SchemaError (Schema 0)) :
    List (TypeForm k) → Except SchemaError (List (Schema 0))
  | [] => return []
  | first :: rest => do
    let element ← formSchema model [] first
    let elements ← elementSchemas model rest
    return element :: elements
termination_by structural arguments => arguments

end

/-- The schema of a field by its type, its constraints standing in front of their markers. -/
def typeSchema (model : Fin k → Except SchemaError (Schema 0)) (field : ModelField k) :
    Except SchemaError (Schema 0) :=
  match field.form with
  | none => return .unknown "None"
  | some form =>
    formSchema model (.field field.info :: field.info.markers.map .marker) form

/-- The schema with a layer of optionality, unless it has such a layer or need not have one. -/
def presence (required : Bool) (schema : Schema 0) : Schema 0 :=
  if required || schema.isWrapped then schema else .optional schema

/-- The schemas of the fields of a model. -/
def fieldSchemas (model : Fin k → Except SchemaError (Schema 0)) :
    List (String × ModelField k) → Except SchemaError (List (String × Schema 0))
  | [] => return []
  | (name, field) :: rest => do
    let schema ← typeSchema model field
    let schemas ← fieldSchemas model rest
    return (name, presence field.required schema) :: schemas

/-- The schema of a model that is reached from inside the models of a path. -/
def modelSchemaFrom (family : Family k) (path : List (Fin k)) (i : Fin k) :
    Except SchemaError (Schema 0) :=
  if _entered : i ∈ path then .error (.cyclic ((path ++ [i]).map fun j => (family j).name))
  else do
    let fields ← fieldSchemas (fun j => modelSchemaFrom family (path ++ [i]) j) (family i).fields
    return .object fields
termination_by unvisited path
decreasing_by
  exact unvisited_lt (i := i) (fun j hj => by simp [hj]) (by simp) _entered

end Introspection

/-- The schema of a model of a family. -/
def modelSchema {k : Nat} (family : Family k) (i : Fin k) : Except SchemaError (Schema 0) :=
  Introspection.modelSchemaFrom family [] i

/-- The schema of an annotation with constraints. -/
def formSchema {k : Nat} (family : Family k) (form : TypeForm k)
    (constraints : List Constraint) : Except SchemaError (Schema 0) :=
  Introspection.formSchema (modelSchema family) constraints form

end ProtoSchema
