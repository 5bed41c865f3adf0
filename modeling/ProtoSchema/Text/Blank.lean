import ProtoSchema.Text.CodeRange

/-!
# Blank characters

Blank are the ASCII controls that move the print position or separate records, the space, and the
spaces and line separators of Unicode. The space of zero width is not blank. Trimming takes the
blank characters away at both ends of a text and leaves its inside alone.
-/

namespace ProtoSchema.Text.Blank

open ProtoSchema.Text (CodeRange)

/-- The blank characters, as ascending ranges of code points. -/
def ranges : List CodeRange :=
  [⟨0x09, 0x0D⟩, ⟨0x1C, 0x20⟩, ⟨0x85, 0x85⟩, ⟨0xA0, 0xA0⟩, ⟨0x1680, 0x1680⟩, ⟨0x2000, 0x200A⟩,
   ⟨0x2028, 0x2029⟩, ⟨0x202F, 0x202F⟩, ⟨0x205F, 0x205F⟩, ⟨0x3000, 0x3000⟩]

/-- Whether `c` is blank. -/
def isBlank (c : Char) : Bool :=
  CodeRange.covers ranges c

/-- The characters that are left when the blank ones at the end are dropped. -/
def trimRight (cs : List Char) : List Char :=
  (cs.reverse.dropWhile isBlank).reverse

/-- The characters that are left when the blank ones at both ends are dropped. -/
def trimChars (cs : List Char) : List Char :=
  trimRight (cs.dropWhile isBlank)

/-- The text without the blank characters at both ends. -/
def trim (text : String) : String :=
  String.ofList (trimChars text.toList)

theorem toList_trim (text : String) : (trim text).toList = trimChars text.toList := by
  simp [trim]

/-- A blank character at the end does not change what is left. -/
theorem trimRight_concat_blank {c : Char} (h : isBlank c = true) (cs : List Char) :
    trimRight (cs ++ [c]) = trimRight cs := by
  simp [trimRight, h]

/-- A text that ends in a character that is not blank is its own trimmed form. -/
theorem trimRight_concat_solid {c : Char} (h : isBlank c = false) (cs : List Char) :
    trimRight (cs ++ [c]) = cs ++ [c] := by
  simp [trimRight, h]

end ProtoSchema.Text.Blank
