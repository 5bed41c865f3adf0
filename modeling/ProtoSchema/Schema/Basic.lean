import ProtoSchema.Entries
import ProtoSchema.Literal

/-!
# Schemas

A schema describes the shape of a value: an object with named fields, a scalar, an enumeration, or
a composite of other schemas. The kinds of schema are closed: what has no kind of its own is
unknown, and a value that is no schema at all can still stand where a schema should.

Objects may be shared. A schema over `n` shared objects refers to them by number, and the table
`Objects n` holds their fields; references may lead back to where they come from. A schema over no
shared objects is a finite tree.
-/

namespace ProtoSchema

/-- A value that is no schema. -/
inductive Foreign where
  /-- A plain value, known by the name of its type. -/
  | plain (typeName : String)
  /-- A model class. -/
  | modelClass (name : String)
  /-- An instance of a model. -/
  | modelInstance (name : String)
  deriving DecidableEq

/-- The name of the type of the value. -/
def Foreign.kind : Foreign → String
  | .plain typeName => typeName
  | .modelClass _ => "ModelMetaclass"
  | .modelInstance name => name

/-- A schema over `n` shared objects. -/
inductive Schema (n : Nat) where
  /-- An object that occurs here alone, with its fields in declaration order. -/
  | object (fields : List (String × Schema n))
  /-- The shared object of that number. -/
  | shared (index : Fin n)
  /-- A text. -/
  | string
  /-- A truth value. -/
  | boolean
  /-- A date, with or without a time. -/
  | date
  /-- An integer that needs 64 bits. -/
  | bigInt
  /-- A number, integral or not. -/
  | number (integral : Bool)
  /-- One of the listed literals. -/
  | enumeration (options : List Literal)
  /-- A sequence of elements. -/
  | array (element : Schema n)
  /-- A set of elements. -/
  | set (element : Schema n)
  /-- A sequence of fixed length, with a schema for each element. -/
  | tuple (elements : List (Schema n))
  /-- A dictionary. -/
  | map (key value : Schema n)
  /-- A value that may be absent. -/
  | optional (inner : Schema n)
  /-- A value that may be null. -/
  | nullable (inner : Schema n)
  /-- A kind that has no mapping, known by its name. -/
  | unknown (kind : String)
  /-- Something that is no schema. -/
  | foreign (value : Foreign)

/-- The fields of the shared objects. -/
abbrev Objects (n : Nat) := Fin n → List (String × Schema n)

namespace Schema

variable {n : Nat}

/-- The name of the kind of a schema, as error messages give it. -/
def kind : Schema n → String
  | .object _ => "ObjectNode"
  | .shared _ => "ObjectNode"
  | .string => "StringNode"
  | .boolean => "BooleanNode"
  | .date => "DateNode"
  | .bigInt => "BigIntNode"
  | .number _ => "NumberNode"
  | .enumeration _ => "EnumNode"
  | .array _ => "ArrayNode"
  | .set _ => "SetNode"
  | .tuple _ => "TupleNode"
  | .map _ _ => "MapNode"
  | .optional _ => "OptionalNode"
  | .nullable _ => "NullableNode"
  | .unknown kind => kind
  | .foreign value => value.kind

/-- The number of the shared object that this is, if it is one. -/
def index? : Schema n → Option (Fin n)
  | .shared index => some index
  | _ => none

/-- Whether this is a schema and no foreign value. -/
def isSchema : Schema n → Bool
  | .foreign _ => false
  | _ => true

/-- The schema under one layer of optionality or nullability. -/
def unwrap : Schema n → Schema n
  | .optional inner => inner
  | .nullable inner => inner
  | schema => schema

/-- The schema under all layers of optionality and nullability. -/
def strip : Schema n → Schema n
  | .optional inner => inner.strip
  | .nullable inner => inner.strip
  | schema => schema

/-- Whether the outermost layer is one of optionality or nullability. -/
def isWrapped : Schema n → Bool
  | .optional _ => true
  | .nullable _ => true
  | _ => false

/-- Nothing is left to strip from a stripped schema. -/
theorem isWrapped_strip (schema : Schema n) : schema.strip.isWrapped = false := by
  induction schema using strip.induct with
  | case1 inner ih => simpa [strip] using ih
  | case2 inner ih => simpa [strip] using ih
  | case3 schema h1 h2 =>
    cases schema with
    | optional inner => exact absurd rfl (h1 inner)
    | nullable inner => exact absurd rfl (h2 inner)
    | _ => rfl

/-- A schema that is not wrapped is its own stripped form. -/
theorem strip_of_not_isWrapped {schema : Schema n} (h : schema.isWrapped = false) :
    schema.strip = schema := by
  cases schema with
  | optional inner => cases h
  | nullable inner => cases h
  | _ => rfl

/-- The object with the given fields. A repeated name keeps its first place and takes the last
schema. -/
def record (fields : List (String × Schema n)) : Schema n :=
  .object (Entries.ofList fields)

end Schema

end ProtoSchema
