/-!
# Ranges of code points

A character class of the Unicode standard is kept as the list of its inclusive ranges of code
points. Membership is decided by comparing the code point with the ends of each range.
-/

namespace ProtoSchema.Text

/-- An inclusive range of code points. -/
structure CodeRange where
  /-- The least code point of the range. -/
  first : Nat
  /-- The greatest code point of the range. -/
  last : Nat
  deriving DecidableEq

namespace CodeRange

/-- Whether one of the ranges holds the character. -/
def covers (ranges : List CodeRange) (c : Char) : Bool :=
  ranges.any fun range => range.first ≤ c.toNat && c.toNat ≤ range.last

theorem covers_iff {ranges : List CodeRange} {c : Char} :
    covers ranges c = true ↔ ∃ range ∈ ranges, range.first ≤ c.toNat ∧ c.toNat ≤ range.last := by
  simp [covers]

end CodeRange

end ProtoSchema.Text
