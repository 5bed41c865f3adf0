import ProtoSchema.TypeForm.Basic

/-!
# Forming annotations

Annotations are kept in a normal form. A union holds no union and no member twice, and has at least
two members; a union that would have one is that member. Constraints that are put on a type with
constraints join those that are there. A choice of literals holds none twice.
-/

namespace ProtoSchema.TypeForm

variable {k : Nat}

/-- The type that an annotation means where a type is wanted: the null value means its type. -/
def asType : TypeForm k → TypeForm k
  | .nullValue => .none
  | form => form

/-- The members that an annotation contributes to a union. -/
def members : TypeForm k → List (TypeForm k)
  | .union members => members
  | form => [form.asType]

/-- The annotations without those that are equal to an earlier one. -/
def distinct : List (TypeForm k) → List (TypeForm k)
  | [] => []
  | first :: rest => first :: (distinct rest).filter (!first.same ·)

/-- The union of types. -/
def ofUnion (types : List (TypeForm k)) : TypeForm k :=
  match distinct (types.flatMap members) with
  | [only] => only
  | members => .union members

/-- The type or null. -/
def ofOptional (type : TypeForm k) : TypeForm k :=
  ofUnion [type, .none]

/-- The choice of literals. -/
def ofLiterals (options : List Literal) : TypeForm k :=
  .literal (Literal.distinct options)

/-- The type with constraints, which come after those that it has. -/
def withConstraints (type : TypeForm k) (constraints : List Constraint) : TypeForm k :=
  match type.asType with
  | .annotated inner earlier => .annotated inner (earlier ++ constraints)
  | inner => .annotated inner constraints

/-- The generic type with arguments. A name for annotations alone takes the null
value for its type. -/
def ofGeneric (type : Generic) (arguments : List (TypeForm k)) : TypeForm k :=
  match type.origin with
  | .typing => .generic type (arguments.map asType)
  | _ => .generic type arguments

/-- The type and its constraints, taken apart. -/
def split (form : TypeForm k) : TypeForm k × List Constraint :=
  match form with
  | .annotated inner constraints => (inner, constraints)
  | form => (form, [])

theorem split_annotated (inner : TypeForm k) (constraints : List Constraint) :
    (TypeForm.annotated inner constraints).split = (inner, constraints) := rfl

/-- A union of one type is that type. -/
theorem ofUnion_singleton {type : TypeForm k} (h : type.members = [type]) :
    ofUnion [type] = type := by
  simp [ofUnion, h, distinct]

end ProtoSchema.TypeForm
