/-!
# Binary64 numbers

The numbers of the 64-bit binary format with their exact values: a mantissa of at most 53 bits times
a power of two, with a sign that zero has too, and the infinities and the value that is no number.
A quotient is rounded to the nearest number, a tie to the one with the even mantissa. Comparison is
by exact value; nothing compares with the value that is no number.
-/

namespace ProtoSchema

/-- A number of the 64-bit binary format. -/
inductive Binary64 where
  /-- No number. -/
  | nan
  /-- One of the two infinities. -/
  | infinite (negative : Bool)
  /-- The number `mantissa * 2 ^ exponent` with a sign. -/
  | finite (negative : Bool) (mantissa : Nat) (exponent : Int)
  deriving DecidableEq

namespace Binary64

/-- The number of bits of a mantissa. -/
def mantissaBits : Nat := 53

/-- The least exponent, which the numbers next to zero share. -/
def leastExponent : Int := -1074

/-- The greatest exponent. -/
def greatestExponent : Int := 971

/-- The integer nearest to a quotient; a tie goes to the even one. -/
def roundQuotient (num den : Nat) : Nat :=
  let quotient := num / den
  let rest := num % den
  if 2 * rest < den then quotient
  else if den < 2 * rest then quotient + 1
  else quotient + quotient % 2

/-- A rounded quotient is at most half a unit away from the quotient. -/
theorem roundQuotient_near {num den : Nat} (h : 0 < den) :
    2 * num ≤ 2 * (roundQuotient num den * den) + den ∧
      2 * (roundQuotient num den * den) ≤ 2 * num + den := by
  have hdiv := Nat.div_add_mod num den
  have hmod := Nat.mod_lt num h
  rw [Nat.mul_comm] at hdiv
  dsimp only [roundQuotient]
  split
  · omega
  · split
    · rw [Nat.add_mul]; omega
    · rcases Nat.mod_two_eq_zero_or_one (num / den) with he | he <;> rw [he]
      · rw [Nat.add_zero]; omega
      · rw [Nat.add_mul]; omega

/-- The exponent at which the quotient has a mantissa of full width, or the least exponent. -/
def exponentOf (num den : Nat) : Int :=
  let guess : Int := (num.log2 : Int) - den.log2 - 52
  let full := Nat.pow 2 52 * den * Nat.pow 2 guess.toNat ≤ num * Nat.pow 2 (-guess).toNat
  max leastExponent (if full then guess else guess - 1)

/-- The number nearest to `num / den`, with the given sign. -/
def ofRatio (negative : Bool) (num den : Nat) : Binary64 :=
  if num = 0 then .finite negative 0 leastExponent
  else
    let exponent := exponentOf num den
    let mantissa :=
      roundQuotient (num * Nat.pow 2 (-exponent).toNat) (den * Nat.pow 2 exponent.toNat)
    let (mantissa, exponent) :=
      if mantissa = Nat.pow 2 mantissaBits then (Nat.pow 2 52, exponent + 1)
      else (mantissa, exponent)
    if greatestExponent < exponent then .infinite negative
    else .finite negative mantissa exponent

/-- The exact value of a finite number. -/
def rational (negative : Bool) (mantissa : Nat) (exponent : Int) : Rat :=
  let magnitude := mkRat (mantissa * Nat.pow 2 exponent.toNat : Nat) (Nat.pow 2 (-exponent).toNat)
  if negative then -magnitude else magnitude

/-- A finite number without its fraction. -/
def truncated (negative : Bool) (mantissa : Nat) (exponent : Int) : Int :=
  let magnitude : Nat :=
    mantissa * Nat.pow 2 exponent.toNat / Nat.pow 2 (-exponent).toNat
  if negative then -magnitude else magnitude

/-- Whether two numbers are equal in value; the two zeros are. -/
def sameValue : Binary64 → Binary64 → Bool
  | .infinite s, .infinite t => s == t
  | .finite s m e, .finite t n f => rational s m e == rational t n f
  | _, _ => false

/-- Whether the number equals the integer. -/
def equalsInt : Binary64 → Int → Bool
  | .finite s m e, k => rational s m e == (k : Rat)
  | _, _ => false

/-- Whether the number is less than the integer. -/
def belowInt : Binary64 → Int → Bool
  | .nan, _ => false
  | .infinite negative, _ => negative
  | .finite s m e, k => rational s m e < (k : Rat)

/-- Whether the number is greater than the integer. -/
def aboveInt : Binary64 → Int → Bool
  | .nan, _ => false
  | .infinite negative, _ => !negative
  | .finite s m e, k => (k : Rat) < rational s m e

end Binary64

end ProtoSchema
