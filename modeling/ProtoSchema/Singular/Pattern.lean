/-!
# Spelling patterns

A pattern is a list of letter positions, each of which says which characters may stand there.
Case is ignored where a position says so; a small letter then also accepts the few characters
outside ASCII that share its small form: the long s, and the dotted and dotless i.
Matching compares a pattern with a text of exactly the same length.
-/

namespace ProtoSchema.Singular

/-- The small form under which two letters that differ in case alone agree. -/
def fold (c : Char) : Char :=
  if 'A' ≤ c ∧ c ≤ 'Z' then Char.ofNat (c.toNat + 32)
  else if c = '\u017F' then 's'
  else if c = '\u212A' then 'k'
  else if c = '\u0130' ∨ c = '\u0131' then 'i'
  else c

/-- What may stand at one position of a word. -/
inductive Position where
  /-- One of these characters, case included. -/
  | exactly (choices : List Char)
  /-- One of these small letters in any case. -/
  | letter (choices : List Char)
  /-- Any character that is none of these small letters in any case. -/
  | other (choices : List Char)
  deriving DecidableEq

/-- Whether the character may stand at the position. -/
def Position.accepts : Position → Char → Bool
  | .exactly choices, c => choices.contains c
  | .letter choices, c => choices.contains (fold c)
  | .other choices, c => !choices.contains (fold c)

/-- The pattern that spells a word of small letters in any case. -/
def spell (word : String) : List Position :=
  word.toList.map fun c => .letter [c]

/-- Whether each character of the text may stand at the position in its place. -/
def fits : List Position → List Char → Bool
  | [], [] => true
  | position :: pattern, c :: text => position.accepts c && fits pattern text
  | _, _ => false

theorem fits_nil_iff (text : List Char) : fits [] text = true ↔ text = [] := by
  cases text <;> simp [fits]

theorem fits_cons_iff (position : Position) (pattern : List Position) (text : List Char) :
    fits (position :: pattern) text = true ↔
      ∃ c rest, text = c :: rest ∧ position.accepts c = true ∧ fits pattern rest = true := by
  cases text with
  | nil => simp [fits]
  | cons c rest =>
    constructor
    · intro h
      exact ⟨c, rest, rfl, by simpa [fits] using h⟩
    · rintro ⟨d, tail, he, h⟩
      obtain ⟨rfl, rfl⟩ := List.cons.inj he
      simpa [fits] using h

/-- A text that fits a pattern has its length. -/
theorem length_eq_of_fits {pattern : List Position} {text : List Char}
    (h : fits pattern text = true) : text.length = pattern.length := by
  induction pattern generalizing text with
  | nil => simp [(fits_nil_iff text).1 h]
  | cons position pattern ih =>
    obtain ⟨c, rest, rfl, _, hrest⟩ := (fits_cons_iff position pattern text).1 h
    simp [ih hrest]

end ProtoSchema.Singular
