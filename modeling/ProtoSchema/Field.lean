import ProtoSchema.Schema.Basic

/-!
# Compiled fields

A field of a message has modifiers, a type, a name and a number, and is written as one line. The
type is a scalar, a message or enum known by its name, or a map between two types. Compiling a
schema yields descriptors, which are fields without a number; they are numbered where they are put
into a message.
-/

namespace ProtoSchema

/-- The scalar types that are generated. -/
inductive Scalar where
  /-- Text, and dates as text. -/
  | string
  /-- An integer of 32 bits. -/
  | int32
  /-- An integer of 64 bits. -/
  | int64
  /-- A number with a fraction. -/
  | double
  /-- A truth value. -/
  | bool
  deriving DecidableEq

/-- The keyword of a scalar type. -/
def Scalar.keyword : Scalar → String
  | .string => "string"
  | .int32 => "int32"
  | .int64 => "int64"
  | .double => "double"
  | .bool => "bool"

/-- The scalar type of a schema, if the schema is a scalar. A date has no type of its own. -/
def Schema.scalar? {n : Nat} : Schema n → Option Scalar
  | .string => some .string
  | .number true => some .int32
  | .number false => some .double
  | .boolean => some .bool
  | .date => some .string
  | .bigInt => some .int64
  | _ => none

/-- The type of a field. -/
inductive FieldType where
  /-- A scalar type. -/
  | scalar (type : Scalar)
  /-- The message or enum of that name. -/
  | defined (name : String)
  /-- A map from one type to another. -/
  | map (key value : FieldType)
  deriving DecidableEq

/-- How a type is written in a field. -/
def FieldType.text : FieldType → String
  | .scalar type => type.keyword
  | .defined name => name
  | .map key value => "map<" ++ key.text ++ ", " ++ value.text ++ ">"

/-- A field before it is numbered. -/
structure FieldDescriptor where
  /-- The type of the field. -/
  type : FieldType
  /-- The name of the field in its message. -/
  name : String
  /-- The keywords in front of the type. -/
  modifiers : List String := []
  deriving DecidableEq

namespace FieldDescriptor

/-- The modifier of a field that may be absent. -/
def optionalKeyword : String := "optional"

/-- The modifier of a field that holds a sequence. -/
def repeatedKeyword : String := "repeated"

/-- The modifiers and the type, separated by spaces. -/
def typeText (field : FieldDescriptor) : String :=
  " ".intercalate (field.modifiers ++ [field.type.text])

/-- The line that declares the field under a number. -/
def line (field : FieldDescriptor) (number : Int) : String :=
  field.typeText ++ " " ++ field.name ++ " = " ++ toString number ++ ";"

/-- The descriptor of a sequence, made from that of its element. The element was compiled under the
singular of the key and gets the key itself back. -/
def asRepeated (singular key : String) (element : FieldDescriptor) : FieldDescriptor :=
  { element with
    name := if element.name = singular then key else element.name
    modifiers := repeatedKeyword :: element.modifiers }

end FieldDescriptor

/-- A field with its number in a message. -/
structure NumberedField where
  /-- The field. -/
  field : FieldDescriptor
  /-- Its number. -/
  number : Nat
  deriving DecidableEq

namespace NumberedField

/-- The line that declares the field. -/
def line (numbered : NumberedField) : String :=
  numbered.field.line numbered.number

/-- The fields with consecutive numbers. -/
def consecutive (start : Nat) : List FieldDescriptor → List NumberedField
  | [] => []
  | field :: rest => ⟨field, start⟩ :: consecutive (start + 1) rest

theorem length_consecutive (start : Nat) (fields : List FieldDescriptor) :
    (consecutive start fields).length = fields.length := by
  induction fields generalizing start with
  | nil => rfl
  | cons field rest ih => simp [consecutive, ih]

/-- Numbering neither drops nor reorders fields. -/
theorem map_field_consecutive (start : Nat) (fields : List FieldDescriptor) :
    (consecutive start fields).map (·.field) = fields := by
  induction fields generalizing start with
  | nil => rfl
  | cons field rest ih => simp [consecutive, ih]

/-- The numbers run from the start without a gap. -/
theorem map_number_consecutive (start : Nat) (fields : List FieldDescriptor) :
    (consecutive start fields).map (·.number) = List.range' start fields.length := by
  induction fields generalizing start with
  | nil => rfl
  | cons field rest ih => simp [consecutive, ih, List.range'_succ]

end NumberedField

end ProtoSchema
