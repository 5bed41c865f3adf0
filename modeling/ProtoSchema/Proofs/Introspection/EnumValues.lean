import ProtoSchema.Introspection
import ProtoSchema.Proofs.EnumClass
import ProtoSchema.Proofs.Literal
import ProtoSchema.Schema.Sharing
import ProtoSchema.Session
import ProtoSchema.TypeForm.Normal

/-!
# The values of an enumeration

An enum class and a choice of literals lead to an enumeration. Wherever it is compiled, an enum is
defined that has a value for each member or literal, in their order, numbered from zero. The values
for members have the names of the members, which are different. The values for literals have their
spellings, which are different unless literals of different types, or binary64 numbers, are spelled
alike: the integer one and the text of its digit are two literals, and their values have one name.
-/

namespace ProtoSchema

namespace Introspection

end Introspection

end ProtoSchema
