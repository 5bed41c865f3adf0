import ProtoSchema.Schema.Basic
import ProtoSchema.Visit

/-!
# Expanding shared objects

A schema over shared objects that never leads from an object back into itself stands for a finite
tree: every reference is replaced by a copy of the object that it names. The expansion follows
references depth first and gives up when it would enter an object it is already inside of.
-/

namespace ProtoSchema.Schema

open ProtoSchema.Visit (unvisited unvisited_lt)

variable {n : Nat}

mutual

/-- The tree of a schema, given the trees of the shared objects. -/
def expandWith (tree? : Fin n → Option (Schema 0)) : Schema n → Option (Schema 0)
  | .object fields => (expandFields tree? fields).map .object
  | .shared i => tree? i
  | .string => some .string
  | .boolean => some .boolean
  | .date => some .date
  | .bigInt => some .bigInt
  | .number integral => some (.number integral)
  | .enumeration options => some (.enumeration options)
  | .array element => (expandWith tree? element).map .array
  | .set element => (expandWith tree? element).map .set
  | .tuple elements => (expandElements tree? elements).map .tuple
  | .map key value => do
    let key ← expandWith tree? key
    let value ← expandWith tree? value
    return .map key value
  | .optional inner => (expandWith tree? inner).map .optional
  | .nullable inner => (expandWith tree? inner).map .nullable
  | .unknown kind => some (.unknown kind)
  | .foreign value => some (.foreign value)
termination_by structural schema => schema

/-- The trees of a list of fields. -/
def expandFields (tree? : Fin n → Option (Schema 0)) :
    List (String × Schema n) → Option (List (String × Schema 0))
  | [] => some []
  | (name, schema) :: rest => do
    let tree ← expandWith tree? schema
    let trees ← expandFields tree? rest
    return (name, tree) :: trees
termination_by structural fields => fields

/-- The trees of a list of elements. -/
def expandElements (tree? : Fin n → Option (Schema 0)) : List (Schema n) → Option (List (Schema 0))
  | [] => some []
  | schema :: rest => do
    let tree ← expandWith tree? schema
    let trees ← expandElements tree? rest
    return tree :: trees
termination_by structural elements => elements

end

/-- The tree of a shared object that is entered from inside the objects of `path`. -/
def expandShared (objects : Objects n) (path : List (Fin n)) (i : Fin n) : Option (Schema 0) :=
  if _entered : i ∈ path then none
  else (expandFields (fun j => expandShared objects (i :: path) j) (objects i)).map .object
termination_by unvisited path
decreasing_by
  exact unvisited_lt (fun j hj => List.mem_cons_of_mem _ hj) List.mem_cons_self _entered

/-- The tree of a schema, if no object that it reaches leads back into itself. -/
def expand (objects : Objects n) (schema : Schema n) : Option (Schema 0) :=
  expandWith (expandShared objects []) schema

/-- The table of no shared objects. -/
def noObjects : Objects 0 := fun i => i.elim0

end ProtoSchema.Schema
