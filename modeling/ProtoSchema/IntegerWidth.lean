import ProtoSchema.Constraint

/-!
# The width of an integer

An integer is given 32 bits unless its constraints call for more: a declared width above 32, or a
bound that lies outside the signed range of 32 bits. Each bound is looked at by itself. An exclusive
bound may lie one further out than an inclusive one. A bound that is no number is not looked at.
-/

namespace ProtoSchema.IntegerWidth

/-- The least integer of 32 bits. -/
def least : Int := -2147483648

/-- The greatest integer of 32 bits. -/
def greatest : Int := 2147483647

/-- Whether one of the bounds lies outside the range of 32 bits. -/
def exceeds (bounds : Bounds) : Bool :=
  bounds.ge.any (·.isBelow least) || bounds.gt.any (·.isBelow (least - 1)) ||
    bounds.le.any (·.isAbove greatest) || bounds.lt.any (·.isAbove (greatest + 1))

/-- Whether the constraint calls for 64 bits by itself. -/
def callsFor64 (constraint : Constraint) : Bool :=
  constraint.declaredBits.any (·.isAbove 32) || exceeds constraint.bounds

/-- Whether a list of constraints calls for 64 bits. -/
def needs64 (constraints : List Constraint) : Bool :=
  (constraints.flatMap (·.parts)).any callsFor64

/-- One constraint that calls for 64 bits decides; the others do not matter. -/
theorem needs64_append (constraints more : List Constraint) :
    needs64 (constraints ++ more) = (needs64 constraints || needs64 more) := by
  simp [needs64]

theorem needs64_nil : needs64 [] = false := rfl

end ProtoSchema.IntegerWidth
