import ProtoSchema.Binary64.Shortest
import ProtoSchema.Text.Digit

/-!
# The text of a binary64 number

A number is written with the digits of its shortest decimal. A style says which powers of ten are
written in positional notation, which always has a fraction, and how many digits an exponent has at
least. The reader takes a decimal with or without fraction and exponent, low lines between digits,
and the names of the infinities and of the value that is no number; its digits may be of any script.
-/

namespace ProtoSchema.Binary64

/-- The choices that a number format makes. -/
structure Style where
  /-- The least power of ten of a first digit in positional notation. -/
  leastPositional : Int
  /-- The greatest power of ten of a first digit in positional notation. -/
  greatestPositional : Int
  /-- The least number of digits of an exponent. -/
  exponentWidth : Nat

/-- The digits without the zeros at their end. -/
def significant (digits : List Char) : List Char :=
  (digits.reverse.dropWhile (· = '0')).reverse

/-- Digits in positional notation; the first of them counts `10 ^ leading`. -/
def positional (digits : List Char) (leading : Int) : String :=
  if leading < 0 then
    "0." ++ String.ofList (List.replicate (-leading - 1).toNat '0' ++ digits)
  else
    let whole := leading.toNat + 1
    let integral := digits.take whole ++ List.replicate (whole - digits.length) '0'
    let fraction := if digits.length ≤ whole then ['0'] else digits.drop whole
    String.ofList integral ++ "." ++ String.ofList fraction

/-- Digits with an exponent; the first of them counts `10 ^ leading`. -/
def scientific (style : Style) (digits : List Char) (leading : Int) : String :=
  let fraction := digits.drop 1
  let power := Nat.toDigits 10 leading.natAbs
  String.ofList (digits.take 1) ++ (if fraction = [] then "" else "." ++ String.ofList fraction) ++
    (if leading < 0 then "e-" else "e+") ++
    String.ofList (List.replicate (style.exponentWidth - power.length) '0' ++ power)

/-- The text of a finite number without its sign. -/
def magnitudeText (style : Style) (mantissa : Nat) (exponent : Int) : String :=
  if mantissa = 0 then "0.0"
  else
    let decimal := (neighbourhood mantissa exponent).shortest
    let written := Nat.toDigits 10 decimal.digits
    let leading := decimal.exponent + written.length - 1
    if style.leastPositional ≤ leading ∧ leading ≤ style.greatestPositional then
      positional (significant written) leading
    else scientific style (significant written) leading

/-- The text of a number. -/
def text (style : Style) : Binary64 → String
  | .nan => "nan"
  | .infinite negative => if negative then "-inf" else "inf"
  | .finite negative mantissa exponent =>
    (if negative then "-" else "") ++ magnitudeText style mantissa exponent

/-- The digits at the front of a text, and what follows them. A low line may stand between two
digits. -/
def digitRun (afterDigit : Bool) : List Char → List Char × List Char
  | [] => ([], [])
  | c :: rest =>
    if Text.Digit.isDigit c then
      let (digits, tail) := digitRun true rest
      (c :: digits, tail)
    else if c = '_' ∧ afterDigit = true ∧ rest.head?.any Text.Digit.isDigit = true then digitRun false rest
    else ([], c :: rest)

/-- The number that a list of digits writes. -/
def number (digits : List Char) : Nat :=
  digits.foldl (fun value c => 10 * value + (Text.Digit.value? c).getD 0) 0

/-- A sign at the front of a text, and what follows it. -/
def signed : List Char → Bool × List Char
  | '-' :: rest => (true, rest)
  | '+' :: rest => (false, rest)
  | text => (false, text)

/-- The number nearest to a decimal. Far beyond the range of the format the powers are not built. -/
def ofDecimal (negative : Bool) (decimal : Decimal) : Binary64 :=
  let size : Int := (Nat.toDigits 10 decimal.digits).length + decimal.exponent
  if decimal.digits = 0 ∨ size < -400 then ofRatio negative 0 1
  else if 400 < size then .infinite negative
  else
    ofRatio negative (decimal.digits * Nat.pow 10 decimal.exponent.toNat)
      (Nat.pow 10 (-decimal.exponent).toNat)

/-- The exponent part of a decimal text, which has to be all of the text. -/
def exponentPart? : List Char → Option Int
  | [] => some 0
  | c :: rest =>
    if c = 'e' ∨ c = 'E' then
      let (negative, unsigned) := signed rest
      match digitRun false unsigned with
      | ([], _) => none
      | (digits, []) => some (if negative then -(number digits : Int) else number digits)
      | _ => none
    else none

/-- The decimal that a text without sign writes. -/
def decimal? (text : List Char) : Option Decimal :=
  let (integral, tail) := digitRun false text
  let (fraction, tail) :=
    match tail with
    | '.' :: rest => digitRun false rest
    | _ => ([], tail)
  if integral = [] ∧ fraction = [] then none
  else
    (exponentPart? tail).map fun exponent =>
      ⟨number (integral ++ fraction), exponent - fraction.length⟩

/-- The number that a text writes, if it is the text of a number. -/
def ofText? (text : String) : Option Binary64 :=
  let (negative, unsigned) := signed text.toList
  let word := String.ofList (unsigned.map Char.toLower)
  if word = "nan" then some .nan
  else if word = "inf" ∨ word = "infinity" then some (.infinite negative)
  else (decimal? unsigned).map (ofDecimal negative)

end ProtoSchema.Binary64
