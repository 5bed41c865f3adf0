import ProtoSchema.Compile
import ProtoSchema.Proofs.Schema.Position

/-!
# The outline of a schema

The outline says what compiling a schema amounts to, without compiling it: the field that a schema
becomes at a place, the enums, objects and tuples that occur in it, and the definition that each of
these occurrences leads to. The occurrences are listed in post-order, so that everything inside an
occurrence comes before it. References to shared objects are not followed.
-/

namespace ProtoSchema.Outline

variable {n : Nat}

/-- The number of sequences that a schema begins with, its layers of optionality left out. -/
def repetitions : Schema n → Nat
  | .array element => repetitions element + 1
  | .set element => repetitions element + 1
  | .optional inner => repetitions inner
  | .nullable inner => repetitions inner
  | _ => 0

/-- The type of the field that a schema becomes under a key, inside the objects of a scope. -/
def fieldType (namer : Namer) (scope : List String) (key : String) : Schema n → FieldType
  | .optional inner => fieldType namer scope key inner
  | .nullable inner => fieldType namer scope key inner
  | .array element => fieldType namer scope (Singular.singular key) element
  | .set element => fieldType namer scope (Singular.singular key) element
  | .map keys values =>
    .map (fieldType namer scope (key ++ "Key") keys) (fieldType namer scope (key ++ "Value") values)
  | schema =>
    match schema.scalar? with
    | some type => .scalar type
    | none => .defined (namer.nameFor key scope)

/-- The modifiers of the field that a schema becomes, given whether a layer of optionality is around
it and whether it is the element of a sequence. -/
def modifiers (isOptional inArray : Bool) (schema : Schema n) : List String :=
  if schema.strip.isSequence then
    List.replicate (repetitions schema) FieldDescriptor.repeatedKeyword
  else if schema.strip.isMap then []
  else if (isOptional || schema.isWrapped) && !inArray then [FieldDescriptor.optionalKeyword]
  else []

/-- The field that a schema becomes at a place. -/
def descriptor (namer : Namer) (place : Place) (schema : Schema n) : FieldDescriptor :=
  ⟨fieldType namer place.scope place.key schema, place.key,
    modifiers place.isOptional place.inArray schema⟩

/-- A schema that is no sequence under its layers of optionality begins with none. -/
theorem repetitions_of_not_isSequence {schema : Schema n} (h : schema.strip.isSequence = false) :
    repetitions schema = 0 := by
  induction schema using Schema.strip.induct with
  | case1 inner ih => exact ih h
  | case2 inner ih => exact ih h
  | case3 schema h1 h2 =>
    cases schema with
    | array element => cases h
    | set element => cases h
    | optional inner => exact absurd rfl (h1 inner)
    | nullable inner => exact absurd rfl (h2 inner)
    | _ => rfl

/-- A schema that is a sequence under its layers of optionality begins with one. -/
theorem repetitions_pos {schema : Schema n} (h : schema.strip.isSequence = true) :
    0 < repetitions schema := by
  induction schema using Schema.strip.induct with
  | case1 inner ih => exact ih h
  | case2 inner ih => exact ih h
  | case3 schema h1 h2 =>
    cases schema with
    | array element => exact Nat.succ_pos _
    | set element => exact Nat.succ_pos _
    | optional inner => exact absurd rfl (h1 inner)
    | nullable inner => exact absurd rfl (h2 inner)
    | _ => cases h

/-- Inside a sequence, the only modifiers are those of further sequences. -/
theorem modifiers_inArray (isOptional : Bool) (schema : Schema n) :
    modifiers isOptional true schema =
      List.replicate (repetitions schema) FieldDescriptor.repeatedKeyword := by
  unfold modifiers
  cases h : schema.strip.isSequence with
  | true => rfl
  | false => simp [repetitions_of_not_isSequence h]

/-- A part of a map has modifiers exactly if it is unfit to be one. -/
theorem modifiers_eq_nil_iff (schema : Schema n) :
    modifiers false false schema = [] ↔ schema.isUnfitPart = false := by
  unfold modifiers Schema.isUnfitPart
  cases hsequence : schema.strip.isSequence with
  | true =>
    have hpos := repetitions_pos hsequence
    simp only [if_true, List.replicate_eq_nil_iff, Bool.true_or]
    constructor
    · intro hzero
      omega
    · intro h
      cases h
  | false =>
    cases schema.strip.isMap <;> cases schema.isWrapped <;> simp

/-- A layer of optionality only tells that there is one. -/
theorem descriptor_optional (namer : Namer) (place : Place) (inner : Schema n) :
    descriptor namer place (.optional inner) =
      descriptor namer { place with isOptional := true } inner := by
  simp [descriptor, fieldType, modifiers, Schema.strip, repetitions, Schema.isWrapped]

/-- A layer of nullability counts as one of optionality. -/
theorem descriptor_nullable (namer : Namer) (place : Place) (inner : Schema n) :
    descriptor namer place (.nullable inner) =
      descriptor namer { place with isOptional := true } inner := by
  simp [descriptor, fieldType, modifiers, Schema.strip, repetitions, Schema.isWrapped]

/-- An array is its element under the singular key, repeated, with its own key given back. -/
theorem descriptor_array (namer : Namer) (place : Place) (element : Schema n) :
    descriptor namer place (.array element) =
      (descriptor namer ⟨Singular.singular place.key, place.scope, false, true⟩
        element).asRepeated (Singular.singular place.key) place.key := by
  have hmodifiers : modifiers place.isOptional place.inArray (.array element) =
      FieldDescriptor.repeatedKeyword :: modifiers false true element := by
    rw [modifiers_inArray]
    rfl
  simp [descriptor, fieldType, FieldDescriptor.asRepeated, hmodifiers]

/-- A set is its element under the singular key, repeated, with its own key given back. -/
theorem descriptor_set (namer : Namer) (place : Place) (element : Schema n) :
    descriptor namer place (.set element) =
      (descriptor namer ⟨Singular.singular place.key, place.scope, false, true⟩
        element).asRepeated (Singular.singular place.key) place.key :=
  descriptor_array namer place element

/-- Whether the schema is neither wrapped nor a sequence nor a map. -/
def isPlain : Schema n → Bool
  | .optional _ => false
  | .nullable _ => false
  | .array _ => false
  | .set _ => false
  | .map _ _ => false
  | _ => true

/-- Whether the schema is given a definition of its own. -/
def isHoisted : Schema n → Bool
  | .object _ => true
  | .shared _ => true
  | .tuple _ => true
  | .enumeration _ => true
  | _ => false

theorem isPlain_of_scalar {schema : Schema n} {type : Scalar} (h : schema.scalar? = some type) :
    isPlain schema = true := by
  cases schema <;> first | rfl | cases h

theorem isPlain_of_isHoisted {schema : Schema n} (h : isHoisted schema = true) :
    isPlain schema = true := by
  cases schema <;> first | rfl | cases h

theorem scalar_of_isHoisted {schema : Schema n} (h : isHoisted schema = true) :
    schema.scalar? = none := by
  cases schema <;> first | rfl | cases h

/-- The modifiers of a plain schema depend on its place alone. -/
theorem modifiers_plain (place : Place) {schema : Schema n} (h : isPlain schema = true) :
    modifiers place.isOptional place.inArray schema = place.modifiers := by
  have hwrapped : schema.isWrapped = false := by cases schema <;> first | rfl | cases h
  have hsequence : schema.isSequence = false := by cases schema <;> first | rfl | cases h
  have hmap : schema.isMap = false := by cases schema <;> first | rfl | cases h
  rw [modifiers, Schema.strip_of_not_isWrapped hwrapped, hsequence, hmap, hwrapped]
  simp [Place.modifiers]

/-- The type of a plain schema is a scalar or the name of a definition. -/
theorem fieldType_plain (namer : Namer) (scope : List String) (key : String) {schema : Schema n}
    (h : isPlain schema = true) :
    fieldType namer scope key schema =
      match schema.scalar? with
      | some type => .scalar type
      | none => .defined (namer.nameFor key scope) := by
  cases schema <;> first | rfl | cases h

/-- A scalar becomes a field of its scalar type. -/
theorem descriptor_scalar (namer : Namer) (place : Place) {schema : Schema n} {type : Scalar}
    (h : schema.scalar? = some type) :
    descriptor namer place schema = ⟨.scalar type, place.key, place.modifiers⟩ := by
  have hplain := isPlain_of_scalar h
  rw [descriptor, modifiers_plain place hplain, fieldType_plain _ _ _ hplain, h]

/-- A schema with a definition of its own becomes a field that refers to the definition. -/
theorem descriptor_hoisted (namer : Namer) (place : Place) {schema : Schema n}
    (h : isHoisted schema = true) :
    [descriptor namer place schema] = Compile.reference namer place := by
  have hplain := isPlain_of_isHoisted h
  rw [descriptor, modifiers_plain place hplain, fieldType_plain _ _ _ hplain,
    scalar_of_isHoisted h, Compile.reference]

/-- The place of an element of a tuple. -/
def elementPlace (place : Place) (position : Nat) : Place :=
  ⟨place.key ++ "_" ++ toString position, place.scope, false, place.inArray⟩

/-- The fields of an object that is entered under a scope. -/
def objectFields (namer : Namer) (scope : List String) (members : List (String × Schema n)) :
    List FieldDescriptor :=
  members.map fun member => descriptor namer ⟨member.1, scope, false, false⟩ member.2

/-- The fields of a tuple from a position on. -/
def tupleFields (namer : Namer) (place : Place) (position : Nat) :
    List (Schema n) → List FieldDescriptor
  | [] => []
  | element :: rest =>
    descriptor namer (elementPlace place position) element ::
      tupleFields namer place (position + 1) rest

/-- An enum, an object or a tuple at a place in a schema. -/
inductive Occurrence (n : Nat) where
  /-- An object with its fields. -/
  | object (place : Place) (members : List (String × Schema n))
  /-- A tuple with its elements. -/
  | tuple (place : Place) (elements : List (Schema n))
  /-- An enum with its options. -/
  | enumeration (place : Place) (options : List Literal)

namespace Occurrence

/-- What is reported of the occurrence when everything inside it is compiled. -/
def events (namer : Namer) : Occurrence n → List Event
  | .object place members =>
    [.objectCompiled (OpenObject.labelOf place.inner) members.length,
      .message (namer.nameFor place.key place.scope)
        (NumberedField.consecutive 1 (objectFields namer place.inner members))]
  | .tuple place elements =>
    [.message (namer.nameFor place.key place.scope)
      (NumberedField.consecutive 1 (tupleFields namer place 0 elements))]
  | .enumeration place options =>
    [.enumeration (namer.nameFor place.key place.scope) (options.map (·.spelling))]

end Occurrence

mutual

/-- The occurrences in a schema at a place, each after those inside it. -/
def occurrences (place : Place) : Schema n → List (Occurrence n)
  | .optional inner => occurrences { place with isOptional := true } inner
  | .nullable inner => occurrences { place with isOptional := true } inner
  | .array element => occurrences ⟨Singular.singular place.key, place.scope, false, true⟩ element
  | .set element => occurrences ⟨Singular.singular place.key, place.scope, false, true⟩ element
  | .map key value =>
    occurrences ⟨place.key ++ "Key", place.scope, false, false⟩ key ++
      occurrences ⟨place.key ++ "Value", place.scope, false, false⟩ value
  | .object members => memberOccurrences place.inner members ++ [.object place members]
  | .tuple elements => elementOccurrences place 0 elements ++ [.tuple place elements]
  | .enumeration options => [.enumeration place options]
  | _ => []
termination_by structural schema => schema

/-- The occurrences in the fields of an object that is entered under a scope. -/
def memberOccurrences (scope : List String) : List (String × Schema n) → List (Occurrence n)
  | [] => []
  | (key, schema) :: rest =>
    occurrences ⟨key, scope, false, false⟩ schema ++ memberOccurrences scope rest
termination_by structural members => members

/-- The occurrences in the elements of a tuple from a position on. -/
def elementOccurrences (place : Place) (position : Nat) : List (Schema n) → List (Occurrence n)
  | [] => []
  | element :: rest =>
    occurrences (elementPlace place position) element ++
      elementOccurrences place (position + 1) rest
termination_by structural elements => elements

end

theorem occurrences_map (place : Place) (key value : Schema n) :
    occurrences place (.map key value) =
      occurrences ⟨place.key ++ "Key", place.scope, false, false⟩ key ++
        occurrences ⟨place.key ++ "Value", place.scope, false, false⟩ value := rfl

theorem occurrences_object (place : Place) (members : List (String × Schema n)) :
    occurrences place (.object members) =
      memberOccurrences place.inner members ++ [.object place members] := rfl

theorem occurrences_tuple (place : Place) (elements : List (Schema n)) :
    occurrences place (.tuple elements) =
      elementOccurrences place 0 elements ++ [.tuple place elements] := rfl

end ProtoSchema.Outline
