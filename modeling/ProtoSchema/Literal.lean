import ProtoSchema.Binary64.Text
import ProtoSchema.Text.Quoted

/-!
# Literal values

A literal is a value that an enumeration lists or that a constraint holds: a text, an integer, a
truth value, the null value, a binary64 number, a byte string, or a member of an enum class.
Every literal has a spelling, which becomes the name of an enum value. Two literals have the same
value when they agree as numbers, as texts, as byte strings, or as members: truth values and the
members of integer enums count as integers, and the members of text enums as texts.
-/

namespace ProtoSchema

/-- What a member of an enum class stands for. -/
inductive MemberValue where
  /-- Nothing but itself. -/
  | itself
  /-- An integer, with which it can be compared. -/
  | integer (value : Int)
  /-- A text, with which it can be compared. -/
  | text (value : String)
  deriving DecidableEq

/-- A member of an enum class. -/
structure EnumMember where
  /-- The name of the class. -/
  enumName : String
  /-- The name of the member in its class. -/
  name : String
  /-- What the member stands for. -/
  value : MemberValue
  deriving DecidableEq

/-- A literal value. -/
inductive Literal where
  /-- A text. -/
  | text (value : String)
  /-- An integer of any size. -/
  | int (value : Int)
  /-- A truth value. -/
  | bool (value : Bool)
  /-- The null value. -/
  | null
  /-- A binary64 number. -/
  | float (value : Binary64)
  /-- A byte string. -/
  | bytes (value : List UInt8)
  /-- A member of an enum class. -/
  | member (value : EnumMember)
  deriving DecidableEq

namespace Literal

/-- Numbers are positional from `0.0001` to below `10 ^ 16`, and exponents have two digits. -/
def floatStyle : Binary64.Style := ⟨-4, 15, 2⟩

/-- The text under which a literal appears as an enum value. -/
def spelling : Literal → String
  | .text value => value
  | .int value => toString value
  | .bool true => "True"
  | .bool false => "False"
  | .null => "None"
  | .float value => value.text floatStyle
  | .bytes value => Text.Quoted.bytes value
  | .member ⟨enumName, name, .itself⟩ => enumName ++ "." ++ name
  | .member ⟨_, _, .integer value⟩ => toString value
  | .member ⟨_, _, .text value⟩ => value

/-- A literal as a report shows it: texts stand in quotes. -/
def quoted : Literal → String
  | .text value => Text.Quoted.text value
  | literal => literal.spelling

/-- What a literal is compared by. -/
inductive Content where
  /-- An exact integer. -/
  | integer (value : Int)
  /-- A binary64 number. -/
  | float (value : Binary64)
  /-- A text. -/
  | text (value : String)
  /-- A byte string. -/
  | bytes (value : List UInt8)
  /-- The null value. -/
  | null
  /-- A member that stands for itself alone. -/
  | member (enumName name : String)

/-- The content of a literal. -/
def content : Literal → Content
  | .text value => .text value
  | .int value => .integer value
  | .bool value => .integer value.toInt
  | .null => .null
  | .float value => .float value
  | .bytes value => .bytes value
  | .member ⟨enumName, name, .itself⟩ => .member enumName name
  | .member ⟨_, _, .integer value⟩ => .integer value
  | .member ⟨_, _, .text value⟩ => .text value

/-- Whether two contents are equal; numbers are compared by exact value. -/
def Content.same : Content → Content → Bool
  | .integer a, .integer b => a == b
  | .integer a, .float b => b.equalsInt a
  | .float a, .integer b => a.equalsInt b
  | .float a, .float b => a.sameValue b
  | .text a, .text b => a == b
  | .bytes a, .bytes b => a == b
  | .null, .null => true
  | .member c a, .member d b => c == d && a == b
  | _, _ => false

/-- Whether two literals have the same value. -/
def sameValue (a b : Literal) : Bool :=
  a.content.same b.content

/-- Whether two literals are of the same type. -/
def sameType : Literal → Literal → Bool
  | .text _, .text _ => true
  | .int _, .int _ => true
  | .bool _, .bool _ => true
  | .null, .null => true
  | .float _, .float _ => true
  | .bytes _, .bytes _ => true
  | .member a, .member b => a.enumName == b.enumName
  | _, _ => false

/-- Whether two literals agree in type and value. -/
def identical (a b : Literal) : Bool :=
  a.sameType b && a.sameValue b

/-- The literals of a list without those that agree with an earlier one in type and value. -/
def distinct : List Literal → List Literal
  | [] => []
  | first :: rest => first :: (distinct rest).filter (!first.identical ·)

/-- The number that a literal is, if it is one. -/
def integer? (literal : Literal) : Option Int :=
  match literal.content with
  | .integer value => some value
  | _ => none

/-- Whether the literal is a number below the integer. -/
def isBelow (literal : Literal) (limit : Int) : Bool :=
  match literal.content with
  | .integer value => value < limit
  | .float value => value.belowInt limit
  | _ => false

/-- Whether the literal is a number above the integer. -/
def isAbove (literal : Literal) (limit : Int) : Bool :=
  match literal.content with
  | .integer value => limit < value
  | .float value => value.aboveInt limit
  | _ => false

theorem isBelow_int (value limit : Int) : (Literal.int value).isBelow limit = (value < limit) := by
  simp [isBelow, content]

theorem isAbove_int (value limit : Int) : (Literal.int value).isAbove limit = (limit < value) := by
  simp [isAbove, content]

end Literal

end ProtoSchema
