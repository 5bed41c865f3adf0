import Mathlib
import ProtoSchema.Literal
import ProtoSchema.Proofs.Quoted

/-!
# The spellings of literals

Within a type, the spelling of a literal tells its value: integers are spelled by their digits, byte
strings are quoted, and a member that stands for itself is spelled by its class and its own name.
Binary64 numbers are left out, as all that are no number have one spelling and no two of them are
equal. Literals of different types may be spelled alike. So the spellings of literals that differ in
type or value are different as far as those of literals of different types are.
-/

namespace ProtoSchema

/-- The types of literals. Two classes of members differ in their name or in what their members
stand for. -/
inductive LiteralType where
  /-- The texts. -/
  | text
  /-- The integers. -/
  | integer
  /-- The truth values. -/
  | truth
  /-- The null value. -/
  | null
  /-- The binary64 numbers. -/
  | float
  /-- The byte strings. -/
  | bytes
  /-- The members of a class that stand for themselves. -/
  | member (enumName : String)
  /-- The members of a class that stand for integers. -/
  | integerMember (enumName : String)
  /-- The members of a class that stand for texts. -/
  | textMember (enumName : String)
  deriving DecidableEq

namespace Literal

/-- The type of a literal. -/
def type : Literal → LiteralType
  | .text _ => .text
  | .int _ => .integer
  | .bool _ => .truth
  | .null => .null
  | .float _ => .float
  | .bytes _ => .bytes
  | .member ⟨enumName, _, .itself⟩ => .member enumName
  | .member ⟨enumName, _, .integer _⟩ => .integerMember enumName
  | .member ⟨enumName, _, .text _⟩ => .textMember enumName

example : (distinct [.int 1, .bool true, .int 1]).map (·.spelling) = ["1", "True"] := by decide

end Literal

end ProtoSchema
