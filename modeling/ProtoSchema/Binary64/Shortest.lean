import ProtoSchema.Binary64.Basic

/-!
# The shortest decimal of a binary64 number

The text of a finite number has the fewest decimal digits that still read back as that number; of
several such decimals it is the nearest, and of two equally near ones the even one. The numbers
that read back are those between the midpoints to the two neighbours, the midpoints included when
the mantissa is even. For one digit, two digits, and so on, only the two neighbours of the value on
that decimal grid have to be tried.
-/

namespace ProtoSchema.Binary64

/-- A decimal number `digits * 10 ^ exponent`. -/
structure Decimal where
  /-- All the digits as one number. -/
  digits : Nat
  /-- The power of ten of the last digit. -/
  exponent : Int
  deriving DecidableEq

/-- The values that round to one number, as multiples of `1 / unit`. -/
structure Neighbourhood where
  /-- The midpoint to the neighbour below. -/
  low : Nat
  /-- The number itself. -/
  value : Nat
  /-- The midpoint to the neighbour above. -/
  high : Nat
  /-- The common denominator. -/
  unit : Nat
  /-- Whether the midpoints round to the number too. -/
  closed : Bool

/-- The values that round to `mantissa * 2 ^ exponent`. -/
def neighbourhood (mantissa : Nat) (exponent : Int) : Neighbourhood :=
  let quarter := exponent - 2
  let scale := Nat.pow 2 quarter.toNat
  let below := if mantissa = Nat.pow 2 52 ∧ leastExponent < exponent then 1 else 2
  { low := (4 * mantissa - below) * scale
    value := 4 * mantissa * scale
    high := (4 * mantissa + 2) * scale
    unit := Nat.pow 2 (-quarter).toNat
    closed := mantissa % 2 == 0 }

namespace Neighbourhood

/-- The power of ten of the first digit of the value. -/
def leadingExponent (around : Neighbourhood) : Int :=
  ((Nat.toDigits 10 (around.value * Nat.pow 10 400 / around.unit)).length : Int) - 401

/-- A decimal as a multiple of `1 / unit`, both sides scaled to integers. -/
def scaled (around : Neighbourhood) (decimal : Decimal) : Nat :=
  decimal.digits * Nat.pow 10 decimal.exponent.toNat * around.unit

/-- A multiple of `1 / unit` brought to the scale of decimals with that exponent. -/
def onScale (exponent : Int) (multiple : Nat) : Nat :=
  multiple * Nat.pow 10 (-exponent).toNat

/-- Whether the decimal reads back as the number. -/
def holds (around : Neighbourhood) (decimal : Decimal) : Bool :=
  let point := around.scaled decimal
  let low := onScale decimal.exponent around.low
  let high := onScale decimal.exponent around.high
  if around.closed then low ≤ point && point ≤ high else low < point && point < high

/-- The decimal with that exponent just below the value, or equal to it. -/
def floorAt (around : Neighbourhood) (exponent : Int) : Decimal :=
  ⟨onScale exponent around.value / (Nat.pow 10 exponent.toNat * around.unit), exponent⟩

/-- The decimal with that exponent that reads back, the nearer one if two do. -/
def nearestAt? (around : Neighbourhood) (exponent : Int) : Option Decimal :=
  let below := around.floorAt exponent
  let above : Decimal := ⟨below.digits + 1, exponent⟩
  let value := onScale exponent around.value
  let down := value - around.scaled below
  let up := around.scaled above - value
  match around.holds below, around.holds above with
  | true, true =>
    if down < up then some below
    else if up < down then some above
    else if below.digits % 2 = 0 then some below else some above
  | true, false => some below
  | false, true => some above
  | false, false => none

/-- The shortest decimal that reads back; seventeen digits are always enough. -/
def shortest (around : Neighbourhood) : Decimal :=
  let leading := around.leadingExponent
  ((List.range 17).findSome? fun (more : Nat) => around.nearestAt? (leading - more)).getD
    (around.floorAt (leading - 16))

end Neighbourhood

end ProtoSchema.Binary64
