import ProtoSchema.Proofs.Naming
import ProtoSchema.Singular.Basic

/-!
# What the singular leaves of a key

No rule of the singular touches a word that ends in a digit, except for the one that looks at the
opening of a word. An identifier of small letters becomes another one, or nothing is left of it.
-/

namespace ProtoSchema.Singular

open ProtoSchema.Naming (IsSnake isUpper_of_isIdentifierChar)

/-- The last character of a text is accepted by the last position of a pattern that it fits. -/
theorem accepts_of_fits_concat {pattern : List Position} {text : List Char} {c : Char}
    (h : fits pattern (text ++ [c]) = true) :
    ∃ position, pattern.getLast? = some position ∧ position.accepts c = true := by
  induction text generalizing pattern with
  | nil =>
    cases pattern with
    | nil => cases h
    | cons position rest =>
      obtain ⟨d, tail, heq, haccepts, hrest⟩ := (fits_cons_iff position rest [c]).1 h
      cases heq
      cases rest with
      | nil => exact ⟨position, rfl, haccepts⟩
      | cons next more => cases hrest
  | cons d text ih =>
    cases pattern with
    | nil => cases h
    | cons position rest =>
      obtain ⟨e, tail, heq, -, hrest⟩ := (fits_cons_iff position rest (d :: (text ++ [c]))).1 h
      cases heq
      obtain ⟨last, hlast, haccepts⟩ := ih hrest
      refine ⟨last, ?_, haccepts⟩
      cases rest with
      | nil => cases hlast
      | cons next more => rwa [List.getLast?_cons_cons]

/-- Every position of a pattern accepts a character of a text that fits. -/
theorem exists_accepts_of_fits {pattern : List Position} {text : List Char}
    (h : fits pattern text = true) {position : Position} (hmem : position ∈ pattern) :
    ∃ c ∈ text, position.accepts c = true := by
  induction pattern generalizing text with
  | nil => cases hmem
  | cons first rest ih =>
    obtain ⟨c, tail, rfl, haccepts, hrest⟩ := (fits_cons_iff first rest text).1 h
    rcases List.mem_cons.1 hmem with rfl | hlater
    · exact ⟨c, List.mem_cons_self, haccepts⟩
    · obtain ⟨d, hd, haccepts⟩ := ih hrest hlater
      exact ⟨d, List.mem_cons_of_mem _ hd, haccepts⟩

/-- Every character of a text is accepted by some position of a pattern that it fits. -/
theorem exists_position_of_fits {pattern : List Position} {text : List Char}
    (h : fits pattern text = true) {c : Char} (hmem : c ∈ text) :
    ∃ position ∈ pattern, position.accepts c = true := by
  induction pattern generalizing text with
  | nil =>
    rw [(fits_nil_iff text).1 h] at hmem
    cases hmem
  | cons first rest ih =>
    obtain ⟨d, tail, rfl, haccepts, hrest⟩ := (fits_cons_iff first rest text).1 h
    rcases List.mem_cons.1 hmem with rfl | hlater
    · exact ⟨first, List.mem_cons_self, haccepts⟩
    · obtain ⟨position, hposition, haccepts⟩ := ih hrest hlater
      exact ⟨position, List.mem_cons_of_mem _ hposition, haccepts⟩

/-- The whole pattern of a shape. -/
def Shape.pattern (shape : Shape) : List Position :=
  shape.kept ++ shape.dropped

/-- The shapes of which one has to be met at the end of a word. -/
def Rule.shapes : Rule → List Shape
  | .ending shapes _ => shapes
  | .whole shapes _ => shapes
  | .opening _ => []

/-- The shapes of which one has to be met at the opening of a word. -/
def Rule.openings : Rule → List Shape
  | .opening shape => [shape]
  | _ => []

/-- Whether no digit can stand at the last position of the pattern. -/
def rejectsDigit (pattern : List Position) : Bool :=
  pattern.getLast?.any fun position => "0123456789".toList.all (!position.accepts ·)

section Digits

variable {word : List Char} {c : Char}

/-- The digits are the ten characters that are listed. -/
theorem mem_digits (h : c.isDigit = true) : c ∈ "0123456789".toList := by
  obtain ⟨hlow, hhigh⟩ := Char.isDigit_iff_toNat.1 h
  have hall : ∀ code < 58, 48 ≤ code → Char.ofNat code ∈ "0123456789".toList := by decide
  have hc := hall c.toNat (Nat.lt_succ_of_le hhigh) hlow
  rwa [Char.ofNat_toNat] at hc

/-- A text that ends in a digit does not fit a pattern that rejects digits. -/
theorem fits_eq_false_of_digit {pattern : List Position} (hrejects : rejectsDigit pattern = true)
    (hlast : word.getLast? = some c) (hdigit : c.isDigit = true) (start : Nat) :
    fits pattern (word.drop start) = false := by
  rw [Bool.eq_false_iff]
  intro hfits
  rw [rejectsDigit] at hrejects
  by_cases hshort : word.length ≤ start
  · rw [List.drop_eq_nil_of_le hshort] at hfits
    cases pattern with
    | nil => cases hrejects
    | cons position rest => cases hfits
  · have hdrop : (word.drop start).getLast? = some c := by
      rw [List.getLast?_drop, if_neg hshort, hlast]
    obtain ⟨front, hfront⟩ := List.getLast?_eq_some_iff.1 hdrop
    rw [hfront] at hfits
    obtain ⟨position, hposition, haccepts⟩ := accepts_of_fits_concat hfits
    rw [hposition, Option.any_some, List.all_eq_true] at hrejects
    have hreject := hrejects c (mem_digits hdigit)
    rw [haccepts] at hreject
    cases hreject

/-- A shape that rejects digits is not met at the end of a word that ends in one. -/
theorem strip?_eq_none_of_digit {shape : Shape} (hrejects : rejectsDigit shape.pattern = true)
    (hlast : word.getLast? = some c) (hdigit : c.isDigit = true) : shape.strip? word = none := by
  have hfits := fits_eq_false_of_digit hrejects hlast hdigit (word.length - shape.size)
  rw [Shape.pattern] at hfits
  simp [Shape.strip?, hfits]

/-- Nothing is split off a word that does not end in a line feed. -/
theorem splitLineEnd_of_ne (h : word.getLast? ≠ some '\n') : splitLineEnd word = (word, []) := by
  simp [splitLineEnd, h]

/-- A rule whose shapes reject digits does not apply to a word that ends in one. -/
theorem singular?_eq_none_of_digit {rule : Rule}
    (hrejects : ∀ shape ∈ rule.shapes, rejectsDigit shape.pattern = true)
    (hopening : ∀ shape ∈ rule.openings, fits shape.pattern (word.take shape.size) = false)
    (hlast : word.getLast? = some c) (hdigit : c.isDigit = true) : rule.singular? word = none := by
  have hne : word.getLast? ≠ some '\n' := by
    rw [hlast]
    rintro ⟨⟩
    cases hdigit
  have hsplit := splitLineEnd_of_ne hne
  cases rule with
  | ending shapes added =>
    have hnone : shapes.findSome? (·.strip? word) = none :=
      List.findSome?_eq_none_iff.2 fun shape hshape =>
        strip?_eq_none_of_digit (hrejects shape hshape) hlast hdigit
    simp [Rule.singular?, hsplit, hnone]
  | whole shapes added =>
    have hnone : (shapes.filter (·.size = word.length)).findSome? (·.strip? word) = none :=
      List.findSome?_eq_none_iff.2 fun shape hshape =>
        strip?_eq_none_of_digit (hrejects shape (List.mem_filter.1 hshape).1) hlast hdigit
    simp only [Rule.singular?, hsplit, hnone]
    rfl
  | opening shape =>
    have hfits := hopening shape List.mem_cons_self
    rw [Shape.pattern] at hfits
    simp [Rule.singular?, hfits]

/-- The noun is not met at the end of a word that ends in a digit. -/
theorem isUncountable_eq_false_of_digit (hlast : word.getLast? = some c)
    (hdigit : c.isDigit = true) : isUncountable word = false := by
  have hrejects : ∀ noun ∈ uncountables, rejectsDigit (spell noun) = true := by decide
  rw [isUncountable, List.any_eq_false]
  intro noun hnoun
  have hfits := fits_eq_false_of_digit (hrejects noun hnoun) hlast hdigit
    (word.length - noun.length)
  simp [endsInNoun, hfits]

/-- Whether the word opens with `oxen`, which makes a singular of its own. -/
def opensOxen (word : List Char) : Bool :=
  fits (spell "oxen") (word.take 4)

/-- A word that does not open with `oxen` does not do so with a text behind it either, if the text
begins with none of these letters. -/
theorem opensOxen_append {d : Char} {tail : List Char} (h : opensOxen word = false)
    (hd : ∀ position ∈ spell "oxen", position.accepts d = false) :
    opensOxen (word ++ d :: tail) = false := by
  by_cases hlength : 4 ≤ word.length
  · rwa [opensOxen, List.take_append_of_le_length hlength]
  · rw [opensOxen, Bool.eq_false_iff]
    intro hfits
    have hmem : d ∈ (word ++ d :: tail).take 4 := by
      obtain ⟨more, hmore⟩ : ∃ more, 4 - word.length = more + 1 := ⟨3 - word.length, by omega⟩
      rw [List.take_append, hmore, List.take_succ_cons]
      exact List.mem_append_right _ List.mem_cons_self
    obtain ⟨position, hposition, haccepts⟩ := exists_position_of_fits hfits hmem
    rw [hd position hposition] at haccepts
    cases haccepts

/-- A word that ends in a digit is its own singular, unless it opens with `oxen`. -/
theorem singularChars_of_digit (hlast : word.getLast? = some c) (hdigit : c.isDigit = true)
    (hopening : opensOxen word = false) : singularChars word = word := by
  have hrejects : ∀ rule ∈ rules, ∀ shape ∈ rule.shapes, rejectsDigit shape.pattern = true := by
    decide
  have hoxen : ∀ rule ∈ rules, ∀ opening ∈ rule.openings, opening = shape "ox" "en" := by decide
  have hnone : rules.findSome? (·.singular? word) = none := by
    rw [List.findSome?_eq_none_iff]
    intro rule hrule
    refine singular?_eq_none_of_digit (hrejects rule hrule) (fun shape hshape => ?_) hlast hdigit
    rw [hoxen rule hrule shape hshape]
    exact hopening
  rw [singularChars_of_countable (isUncountable_eq_false_of_digit hlast hdigit), hnone,
    Option.getD_none]

end Digits

/-- The text that a rule puts in the place of what it drops. -/
def Rule.added : Rule → String
  | .ending _ added => added
  | .whole _ added => added
  | .opening _ => ""

/-- What a rule makes of a word that does not end in a line feed: the text in the place of what a
shape drops at the end of the word, or the word without what a shape drops at its opening. -/
theorem Rule.exists_of_singular? {rule : Rule} {word result : List Char}
    (hne : word.getLast? ≠ some '\n') (h : rule.singular? word = some result) :
    (∃ shape ∈ rule.shapes, ∃ rest, shape.strip? word = some rest ∧
      result = rest ++ rule.added.toList) ∨
      ∃ shape ∈ rule.openings, shape.size ≤ word.length ∧
        result = word.take shape.kept.length ++ word.drop shape.size := by
  have hsplit := splitLineEnd_of_ne hne
  cases rule with
  | ending shapes added =>
    simp only [Rule.singular?, hsplit, List.append_nil] at h
    obtain ⟨rest, hfound, rfl⟩ := Option.map_eq_some_iff.1 h
    obtain ⟨shape, hshape, hstrip⟩ := List.exists_of_findSome?_eq_some hfound
    exact .inl ⟨shape, hshape, rest, hstrip, rfl⟩
  | whole shapes added =>
    simp only [Rule.singular?, hsplit, List.append_nil] at h
    obtain ⟨rest, hfound, rfl⟩ := Option.map_eq_some_iff.1 h
    obtain ⟨shape, hshape, hstrip⟩ := List.exists_of_findSome?_eq_some hfound
    exact .inl ⟨shape, (List.mem_filter.1 hshape).1, rest, hstrip, rfl⟩
  | opening shape =>
    simp only [Rule.singular?, Option.ite_none_right_eq_some, Option.some.injEq] at h
    obtain ⟨⟨hsize, -⟩, rfl⟩ := h
    exact .inr ⟨shape, List.mem_cons_self, hsize, rfl⟩

/-- A word is its own singular, or a rule makes its singular of it. -/
theorem singularChars_cases (word : List Char) :
    singularChars word = word ∨
      ∃ rule ∈ rules, rule.singular? word = some (singularChars word) := by
  unfold singularChars
  split
  · exact .inl rfl
  · cases hfound : rules.findSome? (·.singular? word) with
    | none => exact .inl rfl
    | some result => exact .inr (List.exists_of_findSome?_eq_some hfound)

/-- Whether a capital has to stand somewhere in the shape. -/
def Shape.needsCapital (shape : Shape) : Bool :=
  shape.pattern.any fun
    | .exactly choices => choices.all Char.isUpper
    | _ => false

section Identifiers

variable {word : List Char}

/-- An identifier does not end in a shape that needs a capital. -/
theorem strip?_eq_none_of_needsCapital {shape : Shape} (hneeds : shape.needsCapital = true)
    (hword : IsSnake word) : shape.strip? word = none := by
  obtain ⟨position, hposition, hcapital⟩ := List.any_eq_true.1 hneeds
  have hfits : fits shape.pattern (word.drop (word.length - shape.size)) = false := by
    rw [Bool.eq_false_iff]
    intro hfits
    obtain ⟨c, hc, haccepts⟩ := exists_accepts_of_fits hfits hposition
    have hsmall := isUpper_of_isIdentifierChar (hword.all c (List.mem_of_mem_drop hc))
    cases position with
    | exactly choices =>
      have hupper := List.all_eq_true.1 hcapital c (List.contains_iff_mem.1 haccepts)
      rw [hsmall] at hupper
      cases hupper
    | letter choices => cases hcapital
    | other choices => cases hcapital
  rw [Shape.pattern] at hfits
  simp [Shape.strip?, hfits]

/-- A rule makes an identifier of an identifier, or leaves nothing of it. -/
theorem isSnake_of_singular? {rule : Rule} {result : List Char}
    (hadded : rule.added.toList.all Char.isLower = true ∨
      ∀ shape ∈ rule.shapes, shape.needsCapital = true)
    (hopening : ∀ opening ∈ rule.openings, opening.kept ≠ [])
    (hword : IsSnake word) (h : rule.singular? word = some result) : IsSnake result := by
  have hne : word.getLast? ≠ some '\n' := by
    intro hlast
    exact absurd (hword.all _ (List.mem_of_getLast? hlast)) (by decide)
  rcases Rule.exists_of_singular? hne h with
    ⟨shape, hshape, rest, hstrip, rfl⟩ | ⟨opening, hmem, -, rfl⟩
  · rcases hadded with hsmall | hcapital
    · obtain ⟨tail, rfl⟩ := Shape.strip?_begins hstrip
      exact hword.of_append.append (.of_isLower (List.all_eq_true.1 hsmall))
    · rw [strip?_eq_none_of_needsCapital (hcapital shape hshape) hword] at hstrip
      cases hstrip
  · have hkept : opening.kept.length ≠ 0 := mt List.length_eq_zero_iff.1 (hopening opening hmem)
    exact hword.take_append_drop hkept _

/-- The singular of an identifier is an identifier, or nothing. -/
theorem isSnake_singularChars (hword : IsSnake word) : IsSnake (singularChars word) := by
  have hadded : ∀ rule ∈ rules, rule.added.toList.all Char.isLower = true ∨
      ∀ shape ∈ rule.shapes, shape.needsCapital = true := by decide
  have hopening : ∀ rule ∈ rules, ∀ opening ∈ rule.openings, opening.kept ≠ [] := by decide
  rcases singularChars_cases word with hsame | ⟨rule, hrule, hresult⟩
  · rwa [hsame]
  · exact isSnake_of_singular? (hadded rule hrule) (hopening rule hrule) hword hresult

end Identifiers

end ProtoSchema.Singular
