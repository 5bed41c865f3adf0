import ProtoSchema.Compilation
import ProtoSchema.Naming
import ProtoSchema.Singular.Basic
import ProtoSchema.Visit

/-!
# Compiling schemas into fields

A field of an object compiles to a descriptor. Objects, tuples and enumerations are hoisted: they
become definitions of their own, named after the key of the field, and each is defined after
everything that it refers to. A sequence is compiled as its element under the singular of the key;
a map as its two parts under the key followed by `Key` and `Value`; the elements of a tuple under
the key followed by their position. Optionality is dropped inside a sequence.

Shared objects are compiled where they are referred to. The objects that a compilation is inside of
form its path; entering a shared object that is on the path is the error of a cyclic schema. The
compilation ends because no path holds a shared object twice.
-/

namespace ProtoSchema

open ProtoSchema.Visit (unvisited unvisited_lt)

variable {n : Nat}

/-- An object that a compilation is inside of. -/
structure OpenObject (n : Nat) where
  /-- The number of the object, if it is shared. -/
  index : Option (Fin n)
  /-- The label under which it was entered. -/
  label : String
  deriving DecidableEq

namespace OpenObject

/-- The shared objects on a path. -/
def indices (path : List (OpenObject n)) : List (Fin n) :=
  path.filterMap (·.index)

/-- The labels along a path. -/
def labels (path : List (OpenObject n)) : List String :=
  path.map (·.label)

/-- The label of an object: the keys that lead to it, or a fixed text where they are empty. -/
def labelOf (scope : List String) : String :=
  let joined := ".".intercalate scope
  if joined = "" then "<root>" else joined

/-- An object that is not shared, entered under a label. -/
def unshared (label : String) : OpenObject n :=
  ⟨none, label⟩

theorem indices_map_unshared (trail : List String) :
    indices (trail.map (unshared (n := n))) = [] := by
  induction trail with
  | nil => rfl
  | cons label rest ih => simp [indices, unshared]

theorem indices_append (path more : List (OpenObject n)) :
    indices (path ++ more) = indices path ++ indices more := by
  simp [indices]

end OpenObject

/-- Where a schema stands in a message. -/
structure Place where
  /-- The key of the field. -/
  key : String
  /-- The keys of the enclosing objects, outermost first. -/
  scope : List String := []
  /-- Whether a layer of optionality was stripped off. -/
  isOptional : Bool := false
  /-- Whether this is the element of a sequence. -/
  inArray : Bool := false

namespace Place

/-- The modifiers of a field that is no sequence and no map. -/
def modifiers (place : Place) : List String :=
  if place.isOptional && !place.inArray then [FieldDescriptor.optionalKeyword] else []

/-- The keys that lead to what the field holds. -/
def inner (place : Place) : List String :=
  place.scope ++ [place.key]

end Place

namespace Compile

open Compilation (emit fail)

/-- Compiling a shared object that is entered under a scope, below the unshared objects of a trail
that are open inside the last shared one. -/
abbrev SharedCompiler (n : Nat) :=
  List String → List String → Fin n → Compilation (List NumberedField)

/-- The field that refers to a definition just made for a place. -/
def reference (namer : Namer) (place : Place) : List FieldDescriptor :=
  [⟨.defined (namer.nameFor place.key place.scope), place.key, place.modifiers⟩]

/-- Define a message for a place, and refer to it. -/
def hoistMessage (namer : Namer) (place : Place) (fields : List NumberedField) :
    Compilation (List FieldDescriptor) := do
  emit (.message (namer.nameFor place.key place.scope) fields)
  return reference namer place

/-- Define an enum for a place, and refer to it. -/
def hoistEnum (namer : Namer) (place : Place) (options : List Literal) :
    Compilation (List FieldDescriptor) := do
  emit (.enumeration (namer.nameFor place.key place.scope) (options.map (·.spelling)))
  return reference namer place

/-- Number the fields of an object and report that it is compiled. -/
def finishObject (scope : List String) (fields : List FieldDescriptor) :
    Compilation (List NumberedField) := do
  emit (.objectCompiled (OpenObject.labelOf scope) fields.length)
  return NumberedField.consecutive 1 fields

/-- The type of a part of a map, which has to be a single field without modifiers. -/
def partType (part : Schema n) : List FieldDescriptor → Compilation FieldType
  | [⟨type, _, []⟩] => pure type
  | _ => fail (.unsupported part.kind)

mutual

/-- Compile a schema at a place, given the compiler of shared objects. -/
def field (shared : SharedCompiler n) (namer : Namer) (trail : List String) (place : Place) :
    Schema n → Compilation (List FieldDescriptor)
  | .optional inner => field shared namer trail { place with isOptional := true } inner
  | .nullable inner => field shared namer trail { place with isOptional := true } inner
  | .array element => do
    let singular := Singular.singular place.key
    let fields ← field shared namer trail ⟨singular, place.scope, false, true⟩ element
    return fields.map (·.asRepeated singular place.key)
  | .set element => do
    let singular := Singular.singular place.key
    let fields ← field shared namer trail ⟨singular, place.scope, false, true⟩ element
    return fields.map (·.asRepeated singular place.key)
  | .map key value => do
    let keyFields ← field shared namer trail ⟨place.key ++ "Key", place.scope, false, false⟩ key
    let keyType ← partType key keyFields
    let valueFields ← field shared namer trail ⟨place.key ++ "Value", place.scope, false, false⟩ value
    let valueType ← partType value valueFields
    return [⟨.map keyType valueType, place.key, []⟩]
  | .object members => do
    let trail := trail ++ [OpenObject.labelOf place.inner]
    let fields ← objectFields shared namer trail place.inner members
    let numbered ← finishObject place.inner fields
    hoistMessage namer place numbered
  | .shared i => do
    let numbered ← shared trail place.inner i
    hoistMessage namer place numbered
  | .tuple elements => do
    let numbered ← tupleFields shared namer trail place 0 elements
    hoistMessage namer place numbered
  | .enumeration options => hoistEnum namer place options
  | .string => return [⟨.scalar .string, place.key, place.modifiers⟩]
  | .date => return [⟨.scalar .string, place.key, place.modifiers⟩]
  | .boolean => return [⟨.scalar .bool, place.key, place.modifiers⟩]
  | .bigInt => return [⟨.scalar .int64, place.key, place.modifiers⟩]
  | .number integral =>
    return [⟨.scalar (if integral then .int32 else .double), place.key, place.modifiers⟩]
  | .unknown kind => fail (.unsupported kind)
  | .foreign value => fail (.unsupported value.kind)
termination_by structural schema => schema

/-- Compile the fields of an object, one after the other. -/
def objectFields (shared : SharedCompiler n) (namer : Namer) (trail : List String)
    (scope : List String) : List (String × Schema n) → Compilation (List FieldDescriptor)
  | [] => return []
  | (key, schema) :: rest => do
    let fields ← field shared namer trail ⟨key, scope, false, false⟩ schema
    let more ← objectFields shared namer trail scope rest
    return fields ++ more
termination_by structural members => members

/-- Compile the elements of a tuple from a position on; an element's number is one more than its
position. -/
def tupleFields (shared : SharedCompiler n) (namer : Namer) (trail : List String) (place : Place)
    (position : Nat) : List (Schema n) → Compilation (List NumberedField)
  | [] => return []
  | element :: rest => do
    let key := place.key ++ "_" ++ toString position
    let fields ← field shared namer trail ⟨key, place.scope, false, place.inArray⟩ element
    let more ← tupleFields shared namer trail place (position + 1) rest
    return fields.map (⟨·, position + 1⟩) ++ more
termination_by structural elements => elements

end

/-- Compile a shared object that is entered under a scope from inside the objects of a path. -/
def sharedObject (objects : Objects n) (namer : Namer) (path : List (OpenObject n))
    (scope : List String) (i : Fin n) : Compilation (List NumberedField) :=
  if h : i ∈ OpenObject.indices path then
    fail (.cyclic (OpenObject.labels path ++ [OpenObject.labelOf scope]))
  else do
    let here : OpenObject n := ⟨some i, OpenObject.labelOf scope⟩
    let fields ← objectFields
      (fun trail scope j =>
        sharedObject objects namer (path ++ [here] ++ trail.map OpenObject.unshared) scope j)
      namer [] scope (objects i)
    finishObject scope fields
termination_by unvisited (OpenObject.indices path)
decreasing_by
  rw [OpenObject.indices_append, OpenObject.indices_append, OpenObject.indices_map_unshared]
  exact unvisited_lt (i := i) (fun j hj => by simp [hj]) (by simp [OpenObject.indices]) h

end Compile

/-- Compile a schema at a place from inside the objects of a path. -/
def compileField (objects : Objects n) (namer : Namer) (path : List (OpenObject n)) (place : Place)
    (schema : Schema n) : Compilation (List FieldDescriptor) :=
  Compile.field
    (fun trail scope i =>
      Compile.sharedObject objects namer (path ++ trail.map OpenObject.unshared) scope i)
    namer [] place schema

/-- Compile the fields of an object that is entered under a scope from inside the objects of a
path. Anything but an object is refused. -/
def compileObject (objects : Objects n) (namer : Namer) (path : List (OpenObject n))
    (scope : List String) : Schema n → Compilation (List NumberedField)
  | .object members => do
    let fields ← Compile.objectFields
      (fun trail scope i =>
        Compile.sharedObject objects namer (path ++ trail.map OpenObject.unshared) scope i)
      namer [OpenObject.labelOf scope] scope members
    Compile.finishObject scope fields
  | .shared i => Compile.sharedObject objects namer path scope i
  | schema => Compilation.fail (.unsupported schema.kind)

end ProtoSchema
