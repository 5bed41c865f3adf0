import ProtoSchema.Singular.Pattern

/-!
# Rules of the singular

A rule looks at the end of a word. The end is the last character, or the one before a single line
feed that closes the word; that line feed stays where it is. A rule keeps the first part of what it
matched, drops the rest, and adds a fixed text. One rule looks at the opening of the word instead
and keeps whatever follows.
-/

namespace ProtoSchema.Singular

/-- A shape of word end: what is kept, followed by what is dropped. -/
structure Shape where
  /-- The part of the match that stays. -/
  kept : List Position
  /-- The part of the match that goes. -/
  dropped : List Position
  deriving DecidableEq

/-- The number of characters that the shape matches. -/
def Shape.size (shape : Shape) : Nat :=
  shape.kept.length + shape.dropped.length

/-- The word without the dropped part, if the word ends in the shape. -/
def Shape.strip? (shape : Shape) (word : List Char) : Option (List Char) :=
  if shape.size ≤ word.length ∧
      fits (shape.kept ++ shape.dropped) (word.drop (word.length - shape.size)) = true then
    some (word.take (word.length - shape.dropped.length))
  else none

/-- What is left begins the word: stripping changes no character that it keeps. -/
theorem Shape.strip?_begins {shape : Shape} {word rest : List Char}
    (h : shape.strip? word = some rest) : ∃ tail, word = rest ++ tail := by
  unfold Shape.strip? at h
  split at h
  · cases h
    exact ⟨_, (List.take_append_drop _ word).symm⟩
  · cases h

/-- A rule of the singular. -/
inductive Rule where
  /-- The word ends in one of the shapes; the dropped part gives way to the added text. -/
  | ending (shapes : List Shape) (added : String)
  /-- The whole word has one of the shapes; the dropped part gives way to the added text. -/
  | whole (shapes : List Shape) (added : String)
  /-- The word opens with the shape, whose dropped part goes. -/
  | opening (shape : Shape)
  deriving DecidableEq

/-- The word in front of a closing line feed, and that line feed where there is one. -/
def splitLineEnd (word : List Char) : List Char × List Char :=
  if word.getLast? = some '\n' then (word.dropLast, ['\n']) else (word, [])

theorem splitLineEnd_append (word : List Char) :
    (splitLineEnd word).1 ++ (splitLineEnd word).2 = word := by
  unfold splitLineEnd
  split
  · rename_i h
    obtain ⟨front, rfl⟩ := List.getLast?_eq_some_iff.1 h
    simp
  · simp

/-- The singular of the word, if the rule applies to it. -/
def Rule.singular? : Rule → List Char → Option (List Char)
  | .ending shapes added, word =>
    let (body, lineEnd) := splitLineEnd word
    (shapes.findSome? (·.strip? body)).map (· ++ added.toList ++ lineEnd)
  | .whole shapes added, word =>
    let (body, lineEnd) := splitLineEnd word
    ((shapes.filter (·.size = body.length)).findSome? (·.strip? body)).map
      (· ++ added.toList ++ lineEnd)
  | .opening shape, word =>
    if shape.size ≤ word.length ∧ fits (shape.kept ++ shape.dropped) (word.take shape.size) = true then
      some (word.take shape.kept.length ++ word.drop shape.size)
    else none

end ProtoSchema.Singular
