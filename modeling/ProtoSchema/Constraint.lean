import ProtoSchema.Literal

/-!
# Constraints

A type annotation can carry constraint objects. What matters here of such an object are its bounds,
lower or upper, inclusive or exclusive, and the width in bits that the extra part of its schema may
declare. A field description gathers constraints: it has an extra part of its own and a list of
markers, but no bounds. Descriptions are merged from left to right: the markers accumulate, and the
extra parts are merged key by key, a later key winning. A function has no keys to merge: it gives
way to a dictionary, whichever comes first.
-/

namespace ProtoSchema

/-- The four kinds of bound. -/
inductive BoundKind where
  /-- At least. -/
  | ge
  /-- More than. -/
  | gt
  /-- At most. -/
  | le
  /-- Less than. -/
  | lt
  deriving DecidableEq

/-- The bounds of a constraint object. -/
structure Bounds where
  /-- At least. -/
  ge : Option Literal := none
  /-- More than. -/
  gt : Option Literal := none
  /-- At most. -/
  le : Option Literal := none
  /-- Less than. -/
  lt : Option Literal := none
  deriving DecidableEq

namespace Bounds

/-- The bounds that consist of a single one. -/
def single (kind : BoundKind) (value : Literal) : Bounds :=
  match kind with
  | .ge => { ge := some value }
  | .gt => { gt := some value }
  | .le => { le := some value }
  | .lt => { lt := some value }

/-- Whether two optional bounds are both missing or agree in value. -/
def sameBound : Option Literal → Option Literal → Bool
  | none, none => true
  | some a, some b => a.sameValue b
  | _, _ => false

/-- Whether two objects have the same bounds. -/
def same (a b : Bounds) : Bool :=
  sameBound a.ge b.ge && sameBound a.gt b.gt && sameBound a.le b.le && sameBound a.lt b.lt

end Bounds

/-- The extra part of a schema, as far as it can declare a width. -/
inductive Extra where
  /-- There is none. -/
  | absent
  /-- A dictionary, with what it holds as the width. -/
  | dictionary (bits : Option Literal)
  /-- A function that would change the schema. -/
  | function
  /-- Something else. -/
  | other
  deriving DecidableEq

namespace Extra

/-- The width that the extra part declares, if it is an integer. -/
def declaredBits : Extra → Option Literal
  | .dictionary (some bits) => if bits.integer?.isSome then some bits else none
  | _ => none

/-- The extra part of two descriptions, the second of which wins. -/
def merge : Extra → Extra → Extra
  | first, .absent => first
  | .dictionary first, .dictionary second => .dictionary (second <|> first)
  | .dictionary first, .function => .dictionary first
  | _, second => second

theorem merge_absent (first : Extra) : merge first .absent = first := by
  cases first <;> rfl

end Extra

/-- A constraint object that is no field description. -/
inductive Marker where
  /-- A single bound. -/
  | bound (kind : BoundKind) (value : Literal)
  /-- An interval, which can have several bounds. -/
  | interval (bounds : Bounds)
  /-- An object of any other type, with bounds and an extra part of its own. -/
  | object (bounds : Bounds) (extra : Extra)
  /-- A text, which constrains nothing. -/
  | text (value : String)
  deriving DecidableEq

namespace Marker

/-- The bounds of the marker. -/
def bounds : Marker → Bounds
  | .bound kind value => Bounds.single kind value
  | .interval bounds => bounds
  | .object bounds _ => bounds
  | .text _ => {}

/-- The extra part of the marker. -/
def extra : Marker → Extra
  | .object _ extra => extra
  | _ => .absent

/-- Whether two markers of different origin are equal. Bounds, intervals and texts are compared by
value; an object of any other type equals nothing but itself. -/
def same : Marker → Marker → Bool
  | .bound kind a, .bound other b => kind == other && a.sameValue b
  | .interval a, .interval b => a.same b
  | .text a, .text b => a == b
  | _, _ => false

end Marker

/-- A description of a field. -/
structure FieldInfo where
  /-- The extra part of the schema of the field. -/
  extra : Extra := .absent
  /-- The markers of the field. -/
  markers : List Marker := []
  deriving DecidableEq

namespace FieldInfo

/-- The description with the given bounds, each a marker of its own, and the given extra part. -/
def ofBounds (bounds : Bounds) (extra : Extra) : FieldInfo where
  extra
  markers :=
    (bounds.gt.map (.bound .gt)).toList ++ (bounds.ge.map (.bound .ge)).toList ++
      (bounds.lt.map (.bound .lt)).toList ++ (bounds.le.map (.bound .le)).toList

/-- The description that has all that two descriptions have; the second wins. -/
def merge (first second : FieldInfo) : FieldInfo where
  extra := first.extra.merge second.extra
  markers := first.markers ++ second.markers

end FieldInfo

/-- A constraint object. -/
inductive Constraint where
  /-- A description of a field. -/
  | field (info : FieldInfo)
  /-- Any other object. -/
  | marker (mark : Marker)
  deriving DecidableEq

/-- Why a constraint object cannot be made. -/
inductive ConstraintError where
  /-- The description of a 64-bit integer has its extra part already. -/
  | extraGiven
  deriving DecidableEq

/-- The text that reports why a constraint object cannot be made. -/
def ConstraintError.message : ConstraintError → String
  | .extraGiven => "pydantic.fields.Field() got multiple values for keyword argument 'json_schema_extra'"

namespace Constraint

/-- The description of an integer of 64 bits. Its extra part declares the width, so no other can be
given. -/
def int64 (bounds : Bounds) (extra : Extra) : Except ConstraintError FieldInfo :=
  match extra with
  | .absent => .ok (FieldInfo.ofBounds bounds (.dictionary (some (.int 64))))
  | _ => .error .extraGiven

/-- The bounds of the object itself. -/
def bounds : Constraint → Bounds
  | .field _ => {}
  | .marker mark => mark.bounds

/-- The width that the object declares, if any. -/
def declaredBits : Constraint → Option Literal
  | .field info => info.extra.declaredBits
  | .marker mark => mark.extra.declaredBits

/-- The object, and the markers that it gathers. -/
def parts : Constraint → List Constraint
  | .field info => .field info :: info.markers.map .marker
  | .marker mark => [.marker mark]

/-- The description that a list of constraint objects amounts to. -/
def gather (constraints : List Constraint) : FieldInfo :=
  constraints.foldl
    (fun info constraint =>
      match constraint with
      | .field other => info.merge other
      | .marker mark => { info with markers := info.markers ++ [mark] })
    {}

/-- Whether two constraint objects of different origin are equal. -/
def same : Constraint → Constraint → Bool
  | .marker a, .marker b => a.same b
  | _, _ => false

end Constraint

end ProtoSchema
