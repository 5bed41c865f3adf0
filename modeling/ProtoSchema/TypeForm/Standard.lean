import ProtoSchema.TypeForm.Basic

/-!
# Standard classes and generic types

The classes and generic types that every file can name. A date with a time counts as a date. The
names for annotations alone stand for the concrete or abstract type of the same meaning. Further
classes can be derived from most of the standard ones.
-/

namespace ProtoSchema

/-- The standard classes that decide the type of a field. -/
def PlainClass.lineages : List (String × Lineage) :=
  [("bool", .boolean), ("int", .integer), ("float", .float), ("str", .text), ("date", .date),
   ("datetime", .date)]

/-- The standard class of that name. -/
def PlainClass.named (name : String) : PlainClass :=
  ⟨name, (lineages.lookup name).getD .other, true⟩

/-- Why a class cannot be derived. -/
inductive ClassError where
  /-- No class can be derived from the base. -/
  | finalBase (name : String)
  deriving DecidableEq

/-- The text that reports why a class cannot be derived. -/
def ClassError.message : ClassError → String
  | .finalBase name => "type " ++ Text.Quoted.text name ++ " is not an acceptable base type"

/-- The class of that name that is derived from a base. It is none of the standard classes, even if
it has the name of one. -/
def PlainClass.derived (name : String) (base : PlainClass) : PlainClass :=
  ⟨name, base.lineage, false⟩

/-- The standard classes from which no class can be derived. -/
def PlainClass.finals : List String := ["bool", "NoneType"]

/-- The class of that name that is derived from a base, if a class can be derived from it. -/
def PlainClass.derive (name : String) (base : PlainClass) : Except ClassError PlainClass :=
  if base.standard && finals.contains base.name then .error (.finalBase base.name)
  else .ok (derived name base)

namespace Generic

/-- What the arguments of the standard generic types mean. -/
def roles : GenericOrigin → List (String × GenericRole)
  | .concrete =>
    [("list", .sequence), ("set", .set), ("frozenset", .set), ("tuple", .tuple),
     ("dict", .dictionary)]
  | .interface =>
    [("Sequence", .sequence), ("MutableSequence", .sequence), ("Set", .set), ("MutableSet", .set),
     ("Mapping", .dictionary), ("MutableMapping", .dictionary)]
  | .typing =>
    [("List", .sequence), ("Sequence", .sequence), ("MutableSequence", .sequence), ("Set", .set),
     ("FrozenSet", .set), ("AbstractSet", .set), ("MutableSet", .set), ("Tuple", .tuple),
     ("Dict", .dictionary), ("Mapping", .dictionary), ("MutableMapping", .dictionary)]

/-- The standard generic type of that name. -/
def standard (origin : GenericOrigin) (name : String) : Generic :=
  ⟨name, origin, ((roles origin).lookup name).getD .other⟩

end Generic

/-- The standard generic type without arguments. A name for annotations alone is still a generic
type then, any other name is that of a plain class. -/
def TypeForm.bare {k : Nat} (origin : GenericOrigin) (name : String) : TypeForm k :=
  match origin with
  | .typing => .generic (Generic.standard origin name) []
  | _ => .plain (PlainClass.named name)

end ProtoSchema
