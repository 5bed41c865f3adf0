import ProtoSchema.TypeForm.Normal
import ProtoSchema.TypeForm.Standard

/-!
# Annotations that cannot be formed

Some annotations are refused when they are written down: a union without members, constraints that
are none or that are put on dots, and a generic type with the wrong number of arguments. Only the
names for annotations alone count their arguments, and a tuple has as many as it likes. Whatever is
not refused is formed as usual.
-/

namespace ProtoSchema

/-- Why an annotation cannot be formed. -/
inductive FormError where
  /-- A union has no members. -/
  | emptyUnion
  /-- Two null values are combined. -/
  | combinedNulls
  /-- There are no constraints to put on a type. -/
  | noConstraints
  /-- Constraints are put on dots. -/
  | constrainedEllipsis
  /-- A generic type has the wrong number of arguments. -/
  | wrongArity (name : String) (actual expected : Nat)
  deriving DecidableEq

/-- The text that reports why an annotation cannot be formed. -/
def FormError.message : FormError → String
  | .emptyUnion => "Cannot take a Union of no types."
  | .combinedNulls => "unsupported operand type(s) for |: 'NoneType' and 'NoneType'"
  | .noConstraints =>
    "Annotated[...] should be used with at least two arguments (a type and an annotation)."
  | .constrainedEllipsis => "'ellipsis' object has no attribute '__module__'"
  | .wrongArity name actual expected =>
    "Too " ++ (if expected < actual then "many" else "few") ++ " arguments for typing." ++ name ++
      "; actual " ++ toString actual ++ ", expected " ++ toString expected

namespace Generic

/-- The names for annotations alone that have two arguments. -/
def binary : List String :=
  ["Dict", "Mapping", "MutableMapping", "DefaultDict", "OrderedDict"]

/-- The number of arguments that a generic type has to have, if it is fixed. -/
def arity? (type : Generic) : Option Nat :=
  match type.origin with
  | .typing =>
    if type.role = .tuple then none else some (if binary.contains type.name then 2 else 1)
  | _ => none

end Generic

namespace TypeForm

variable {k : Nat}

/-- The union of types, of which there has to be one. -/
def formUnion (types : List (TypeForm k)) : Except FormError (TypeForm k) :=
  if types.length = 0 then .error .emptyUnion else .ok (ofUnion types)

/-- The union of types that are combined one after the other. A single one stays as it is. -/
def formCombination : List (TypeForm k) → Except FormError (TypeForm k)
  | [] => .error .emptyUnion
  | [only] => .ok only
  | .nullValue :: .nullValue :: _ => .error .combinedNulls
  | types => .ok (ofUnion types)

/-- The type with constraints, of which there has to be one. -/
def formConstrained (type : TypeForm k) (constraints : List Constraint) :
    Except FormError (TypeForm k) :=
  if constraints.length = 0 then .error .noConstraints
  else
    match type with
    | .ellipsis => .error .constrainedEllipsis
    | type => .ok (type.withConstraints constraints)

/-- The generic type with arguments, as many as it has to have. -/
def formGeneric (type : Generic) (arguments : List (TypeForm k)) :
    Except FormError (TypeForm k) :=
  match type.arity? with
  | some expected =>
    if arguments.length = expected then .ok (ofGeneric type arguments)
    else .error (.wrongArity type.name arguments.length expected)
  | _ => .ok (ofGeneric type arguments)

/-- A union with members is never refused. -/
theorem formUnion_cons (type : TypeForm k) (types : List (TypeForm k)) :
    formUnion (type :: types) = .ok (ofUnion (type :: types)) := by
  simp [formUnion]

end TypeForm

end ProtoSchema
