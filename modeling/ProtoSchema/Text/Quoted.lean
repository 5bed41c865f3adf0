import ProtoSchema.Text.Printable

/-!
# Quoted text

A text in quotes stands between apostrophes, or between double quotes if it holds an apostrophe and
no double quote. The backslash, the quote in use and the characters that cannot stand for
themselves are written as escapes. Of a byte string, only the bytes of printable ASCII characters
stand for themselves, and a `b` precedes it.
-/

namespace ProtoSchema.Text.Quoted

open ProtoSchema.Text.Printable (isPrintable)

/-- The quote that surrounds a text with these characters. -/
def quoteFor (cs : List Char) : Char :=
  if cs.contains '\'' && !cs.contains '"' then '"' else '\''

/-- A number in lower hexadecimal digits, filled up with zeros to a width. -/
def hex (width n : Nat) : List Char :=
  let digits := Nat.toDigits 16 n
  List.replicate (width - digits.length) '0' ++ digits

/-- A code point as an escape, in the shortest of the three fixed widths that holds it. -/
def numeric (code : Nat) : List Char :=
  if code < 0x100 then '\\' :: 'x' :: hex 2 code
  else if code < 0x10000 then '\\' :: 'u' :: hex 4 code
  else '\\' :: 'U' :: hex 8 code

/-- How a character is written between quotes, given which characters stand for themselves. -/
def written (plain : Char → Bool) (quote c : Char) : List Char :=
  if c = quote ∨ c = '\\' then ['\\', c]
  else if c = '\t' then ['\\', 't']
  else if c = '\n' then ['\\', 'n']
  else if c = '\r' then ['\\', 'r']
  else if plain c then [c]
  else numeric c.toNat

/-- The characters between quotes. -/
def enclose (plain : Char → Bool) (cs : List Char) : List Char :=
  let quote := quoteFor cs
  quote :: cs.flatMap (written plain quote) ++ [quote]

/-- A text in quotes. -/
def text (s : String) : String :=
  String.ofList (enclose isPrintable s.toList)

/-- Whether the character is a printable one of ASCII. -/
def isPlainAscii (c : Char) : Bool :=
  ' ' ≤ c && c ≤ '~'

/-- A byte string in quotes. -/
def bytes (bs : List UInt8) : String :=
  "b" ++ String.ofList (enclose isPlainAscii (bs.map fun b => Char.ofNat b.toNat))

theorem written_quote (plain : Char → Bool) (quote : Char) :
    written plain quote quote = ['\\', quote] := by
  simp [written]

theorem written_backslash (plain : Char → Bool) (quote : Char) :
    written plain quote '\\' = ['\\', '\\'] := by
  simp [written]

end ProtoSchema.Text.Quoted
