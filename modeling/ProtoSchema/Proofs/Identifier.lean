import ProtoSchema.Proofs.WordPaths

/-!
# Names that are identifiers

An identifier is made of letters, digits and underscores, and it does not begin with a digit. The
singular of an identifier is one, too, and so is all else that is made of keys that are identifiers,
as far as anything is left of it. The only identifiers of which the singular leaves nothing are `s`
and `S`, and no other identifier has one of these two as its singular.
-/

namespace ProtoSchema

namespace Naming

open ProtoSchema.Text.Uppercase (upper)

/-- Whether a character may stand in a name: a letter, a digit or the underscore. -/
def isNameChar (c : Char) : Bool :=
  c.isAlphanum || c == '_'

/-- Whether a name is an identifier: letters, digits and underscores, with no digit at the start. -/
def isName (name : String) : Bool :=
  name.toList.head?.any (!·.isDigit) && name.toList.all isNameChar

/-- Nothing but the characters of names, with no digit at the start, if there is one. -/
structure IsNameOrEmpty (chars : List Char) : Prop where
  /-- The first character, if there is one, is no digit. -/
  opens : ∀ c ∈ chars.head?, c.isDigit = false
  /-- All characters may stand in a name. -/
  all : ∀ c ∈ chars, isNameChar c = true

theorem isName_iff {name : String} :
    isName name = true ↔ name ≠ "" ∧ IsNameOrEmpty name.toList := by
  rw [isName, Bool.and_eq_true, List.all_eq_true, ne_eq, ← String.toList_eq_nil_iff]
  cases hname : name.toList with
  | nil => simp
  | cons c rest =>
    constructor
    · rintro ⟨hfirst, hall⟩
      refine ⟨List.cons_ne_nil _ _, fun d hd => ?_, hall⟩
      rw [← Option.some.inj hd]
      simpa using hfirst
    · rintro ⟨-, hname⟩
      refine ⟨?_, hname.all⟩
      simpa using hname.opens c rfl

namespace IsNameOrEmpty

variable {chars more : List Char}

theorem nil : IsNameOrEmpty [] where
  opens := by
    intro c hc
    cases hc
  all := List.forall_mem_nil _

theorem of_append (h : IsNameOrEmpty (chars ++ more)) : IsNameOrEmpty chars where
  opens := by
    intro c hc
    refine h.opens c ?_
    rw [List.head?_append, Option.mem_def.1 hc]
    rfl
  all c hc := h.all c (List.mem_append_left _ hc)

theorem append (h : IsNameOrEmpty chars) (hmore : IsNameOrEmpty more) :
    IsNameOrEmpty (chars ++ more) where
  opens := by
    intro c hc
    rw [List.head?_append, Option.mem_def, Option.or_eq_some_iff] at hc
    exact hc.elim (h.opens c) fun hc => hmore.opens c hc.2
  all c hc := (List.mem_append.1 hc).elim (h.all c) (hmore.all c)

/-- Letters alone make a name, or nothing. -/
theorem of_isAlpha (h : ∀ c ∈ chars, c.isAlpha = true) : IsNameOrEmpty chars where
  opens := by
    intro c hc
    have halpha := h c (List.mem_of_mem_head? hc)
    cases hdigit : c.isDigit with
    | false => rfl
    | true =>
      have hcodes : ∀ code < 58, (Char.ofNat code).isDigit = true →
          (Char.ofNat code).isAlpha = false := by decide
      have hlow := Nat.lt_succ_of_le (Char.isDigit_iff_toNat.1 hdigit).2
      have hcode := hcodes c.toNat hlow
      rw [Char.ofNat_toNat, halpha] at hcode
      cases hcode hdigit
  all c hc := by simp [isNameChar, Char.isAlphanum, h c hc]

/-- Characters may be left out behind the first one. -/
theorem take_append_drop (h : IsNameOrEmpty chars) {kept : Nat} (hkept : kept ≠ 0) (start : Nat) :
    IsNameOrEmpty (chars.take kept ++ chars.drop start) where
  opens := by
    intro c hc
    cases chars with
    | nil => simp at hc
    | cons first rest =>
      obtain ⟨more, rfl⟩ := Nat.exists_eq_succ_of_ne_zero hkept
      exact h.opens c hc
  all c hc := h.all c ((List.mem_append.1 hc).elim List.mem_of_mem_take List.mem_of_mem_drop)

end IsNameOrEmpty

/-- The characters of names are among the first ones. -/
theorem toNat_lt_of_isNameChar {c : Char} (h : isNameChar c = true) : c.toNat < 123 := by
  have hkinds : isNameChar c = (c.isUpper || c.isLower || c.isDigit || c == '_') := rfl
  rw [hkinds, Bool.or_eq_true, Bool.or_eq_true, Bool.or_eq_true, beq_iff_eq] at h
  rcases h with ((hupper | hlower) | hdigit) | rfl
  · have hrange : c.val ≤ 90 := (of_decide_eq_true hupper).2
    exact Nat.lt_of_le_of_lt (UInt32.le_iff_toNat_le.1 hrange) (by decide)
  · exact (isLower_iff_toNat.1 hlower).2
  · exact Nat.lt_of_le_of_lt (Char.isDigit_iff_toNat.1 hdigit).2 (by decide)
  · decide

/-- What holds of all codes of characters of names holds of the characters. -/
theorem forall_isNameChar {P : Char → Prop}
    (h : ∀ code < 123, isNameChar (Char.ofNat code) = true → P (Char.ofNat code)) {c : Char}
    (hc : isNameChar c = true) : P c := by
  have hcode := h c.toNat (toNat_lt_of_isNameChar hc)
  rw [Char.ofNat_toNat] at hcode
  exact hcode hc

/-- The uppercase form of a character of a name is such a character, and a digit only if it is one
itself. -/
theorem upper_of_isNameChar {c : Char} (h : isNameChar c = true) :
    ∃ d, upper c = [d] ∧ isNameChar d = true ∧ d.isDigit = c.isDigit := by
  have hupper : (upper c).length = 1 ∧ (upper c).all isNameChar = true ∧
      (upper c).any Char.isDigit = c.isDigit :=
    forall_isNameChar (P := fun c => (upper c).length = 1 ∧ (upper c).all isNameChar = true ∧
      (upper c).any Char.isDigit = c.isDigit) (by decide +kernel) h
  obtain ⟨hlength, hall, hdigit⟩ := hupper
  obtain ⟨d, hd⟩ := List.length_eq_one_iff.1 hlength
  rw [hd] at hall hdigit
  exact ⟨d, hd, by simpa using hall, by simpa using hdigit⟩

namespace IsNameOrEmpty

variable {chars : List Char}

/-- A name stands in another one with its first character in its uppercase form. -/
theorem exists_pascal {c : Char} {rest : List Char} (h : IsNameOrEmpty (c :: rest)) :
    ∃ d, Naming.pascal true (c :: rest) = d :: rest ∧ isNameChar d = true ∧ d.isDigit = false := by
  have hdot : '.' ∉ c :: rest := fun hmem => absurd (h.all _ hmem) (by decide)
  obtain ⟨hc, hrest⟩ := not_or.1 (mt List.mem_cons.2 hdot)
  obtain ⟨d, hd, hchar, hdigit⟩ := upper_of_isNameChar (h.all c List.mem_cons_self)
  refine ⟨d, ?_, hchar, hdigit.trans (h.opens c rfl)⟩
  rw [pascal_first (Ne.symm hc), pascal_false_of_not_mem hrest, hd, List.singleton_append]

/-- What a name is spelled as is a name again. -/
theorem pascal (h : IsNameOrEmpty chars) : IsNameOrEmpty (Naming.pascal true chars) := by
  cases chars with
  | nil => exact .nil
  | cons c rest =>
    obtain ⟨d, hpascal, hchar, hdigit⟩ := h.exists_pascal
    rw [hpascal]
    refine ⟨fun first hfirst => ?_, List.forall_mem_cons.2 ⟨hchar, (List.forall_mem_cons.1 h.all).2⟩⟩
    rw [← Option.some.inj hfirst]
    exact hdigit

/-- Spelling a name leaves something of it. -/
theorem pascal_eq_nil_iff (h : IsNameOrEmpty chars) : Naming.pascal true chars = [] ↔ chars = [] := by
  cases chars with
  | nil => exact iff_of_true rfl rfl
  | cons c rest =>
    obtain ⟨d, hpascal, -, -⟩ := h.exists_pascal
    rw [hpascal]
    exact iff_of_false (List.cons_ne_nil _ _) (List.cons_ne_nil _ _)

/-- Several names spell one name, or nothing. -/
theorem spell {keys : List String} (h : ∀ key ∈ keys, IsNameOrEmpty key.toList) :
    IsNameOrEmpty (Naming.spell keys) := by
  induction keys with
  | nil => exact .nil
  | cons key rest ih =>
    obtain ⟨hkey, hrest⟩ := List.forall_mem_cons.1 h
    rw [spell_cons]
    exact hkey.pascal.append (ih hrest)

/-- Several names spell nothing only if there is nothing in any of them. -/
theorem spell_eq_nil_iff {keys : List String} (h : ∀ key ∈ keys, IsNameOrEmpty key.toList) :
    Naming.spell keys = [] ↔ ∀ key ∈ keys, key = "" := by
  induction keys with
  | nil => exact iff_of_true rfl (List.forall_mem_nil _)
  | cons key rest ih =>
    obtain ⟨hkey, hrest⟩ := List.forall_mem_cons.1 h
    rw [spell_cons, List.append_eq_nil_iff, hkey.pascal_eq_nil_iff, String.toList_eq_nil_iff,
      ih hrest, List.forall_mem_cons]

end IsNameOrEmpty

end Naming

namespace Namer

open Naming (IsNameOrEmpty)

variable {namer : Namer} {key : String} {scope : List String}

/-- A generated name consists of the characters of names, if what it is made of does. -/
theorem isNameOrEmpty_nameFor (hlead : IsNameOrEmpty namer.lead.toList)
    (hkey : IsNameOrEmpty key.toList) (hscope : ∀ outer ∈ scope, IsNameOrEmpty outer.toList) :
    IsNameOrEmpty (namer.nameFor key scope).toList := by
  cases hqualify : namer.qualify with
  | false =>
    rw [nameFor_unqualified hqualify, String.toList_append, Naming.toList_typeName]
    exact hlead.append hkey.pascal
  | true =>
    rw [toList_nameFor_of_qualify hqualify]
    refine hlead.append (.spell fun outer houter => ?_)
    rcases List.mem_append.1 houter with hmem | hlast
    · exact hscope outer hmem
    · rwa [List.mem_singleton.1 hlast]

/-- A generated name is empty only if there is nothing in front of it and nothing in any of the keys
that it is made of. -/
theorem nameFor_eq_empty_iff (hkey : IsNameOrEmpty key.toList)
    (hscope : ∀ outer ∈ scope, IsNameOrEmpty outer.toList) :
    namer.nameFor key scope = "" ↔
      namer.lead = "" ∧ key = "" ∧ (namer.qualify = true → ∀ outer ∈ scope, outer = "") := by
  rw [← String.toList_eq_nil_iff]
  cases hqualify : namer.qualify with
  | false =>
    rw [nameFor_unqualified hqualify, String.toList_append, Naming.toList_typeName,
      List.append_eq_nil_iff, hkey.pascal_eq_nil_iff, String.toList_eq_nil_iff,
      String.toList_eq_nil_iff]
    simp
  | true =>
    have hkeys : ∀ part ∈ scope ++ [key], IsNameOrEmpty part.toList :=
      List.forall_mem_append.2 ⟨hscope, List.forall_mem_singleton.2 hkey⟩
    rw [toList_nameFor_of_qualify hqualify, List.append_eq_nil_iff, String.toList_eq_nil_iff,
      IsNameOrEmpty.spell_eq_nil_iff hkeys, List.forall_mem_append, List.forall_mem_singleton,
      and_comm (b := key = "")]
    simp

end Namer

namespace Singular

open Naming (IsNameOrEmpty isNameChar)

/-- A text that fits one pattern after another is made of two texts that fit them. -/
theorem exists_of_fits_append {first second : List Position} {text : List Char}
    (h : fits (first ++ second) text = true) :
    ∃ front back, text = front ++ back ∧ fits first front = true ∧ fits second back = true := by
  induction first generalizing text with
  | nil => exact ⟨[], text, rfl, rfl, h⟩
  | cons position rest ih =>
    obtain ⟨c, tail, rfl, haccepts, hrest⟩ := (fits_cons_iff position _ text).1 h
    obtain ⟨front, back, rfl, hfront, hback⟩ := ih hrest
    exact ⟨c :: front, back, rfl, by simp [fits, haccepts, hfront], hback⟩

/-- A word that a shape is stripped off ends in a text that fits the shape, and what is dropped of it
is the second part of the text. -/
theorem Shape.exists_of_strip? {shape : Shape} {word rest : List Char}
    (h : shape.strip? word = some rest) :
    ∃ front kept dropped, word = front ++ kept ++ dropped ∧ rest = front ++ kept ∧
      fits shape.kept kept = true ∧ fits shape.dropped dropped = true := by
  unfold Shape.strip? at h
  split at h
  · rename_i hmet
    cases h
    obtain ⟨kept, dropped, hdrop, hkept, hdropped⟩ := exists_of_fits_append hmet.2
    obtain ⟨front, rfl⟩ : ∃ front, word = front ++ kept ++ dropped :=
      ⟨word.take (word.length - shape.size), by
        rw [List.append_assoc, ← hdrop, List.take_append_drop]⟩
    refine ⟨front, kept, dropped, rfl, ?_, hkept, hdropped⟩
    rw [← length_eq_of_fits hdropped, List.length_append, Nat.add_sub_cancel]
    exact List.take_left
  · cases h

/-- The words that the singular leaves nothing of. -/
def lone : List (List Char) :=
  [['s'], ['S']]

/-- Whether a shape leaves something, with the text behind it, that is not one of these words: two
characters at least, or one that is no `s`. -/
def Shape.isSafe (shape : Shape) (added : String) : Bool :=
  2 ≤ shape.kept.length + added.toList.length ||
    (added.isEmpty && match shape.kept with
      | [position] => !position.accepts 's' && !position.accepts 'S'
      | _ => false)

section Words

variable {word result : List Char}

/-- A word of the characters of names does not end in a line feed. -/
theorem getLast?_ne_of_isNameOrEmpty (h : IsNameOrEmpty word) : word.getLast? ≠ some '\n' :=
  fun hlast => absurd (h.all _ (List.mem_of_getLast? hlast)) (by decide)

/-- The singular of a name is a name, or nothing is left of it. -/
theorem isNameOrEmpty_singularChars (h : IsNameOrEmpty word) :
    IsNameOrEmpty (singularChars word) := by
  have hadded : ∀ rule ∈ rules, rule.added.toList.all Char.isAlpha = true := by decide
  have hopening : ∀ rule ∈ rules, ∀ opening ∈ rule.openings, opening.kept.length ≠ 0 := by decide
  rcases singularChars_cases word with hsame | ⟨rule, hrule, hresult⟩
  · rwa [hsame]
  · rcases Rule.exists_of_singular? (getLast?_ne_of_isNameOrEmpty h) hresult with
      ⟨shape, -, rest, hstrip, heq⟩ | ⟨opening, hmem, -, heq⟩
    · obtain ⟨tail, rfl⟩ := Shape.strip?_begins hstrip
      rw [heq]
      exact h.of_append.append (.of_isAlpha (List.all_eq_true.1 (hadded rule hrule)))
    · rw [heq]
      exact h.take_append_drop (hopening rule hrule opening hmem) _

/-- A text of two characters or more is neither empty nor one of these words. -/
theorem ne_of_two_le {text : List Char} (h : 2 ≤ text.length) : text ≠ [] ∧ text ∉ lone := by
  have hshort : ∀ word ∈ lone, word.length = 1 := by decide
  constructor
  · rintro rfl
    cases h
  · intro hmem
    rw [hshort text hmem] at h
    omega

/-- The last character of such a word is `s` or `S`. -/
theorem eq_of_concat_mem_lone {front : List Char} {c : Char} (h : front ++ [c] ∈ lone) :
    c = 's' ∨ c = 'S' := by
  have hlast : ∀ word ∈ lone, word.getLast? = some 's' ∨ word.getLast? = some 'S' := by decide
  have hc := hlast _ h
  rw [List.getLast?_concat] at hc
  exact hc.imp Option.some.inj Option.some.inj

/-- What a safe shape leaves is not empty and none of the words that the singular leaves nothing
of. -/
theorem Shape.ne_of_isSafe {shape : Shape} {added : String} {front kept : List Char}
    (hsafe : shape.isSafe added = true) (hkept : fits shape.kept kept = true) :
    front ++ kept ++ added.toList ≠ [] ∧ front ++ kept ++ added.toList ∉ lone := by
  have hlength := length_eq_of_fits hkept
  rw [Shape.isSafe, Bool.or_eq_true, decide_eq_true_eq] at hsafe
  rcases hsafe with htwo | hone
  · refine ne_of_two_le ?_
    rw [List.length_append, List.length_append]
    omega
  · obtain ⟨hempty, hposition⟩ := Bool.and_eq_true_iff.1 hone
    have hnone : added.toList = [] := by
      rw [String.isEmpty_iff.1 hempty]
      rfl
    split at hposition
    · rename_i position hpattern
      rw [hpattern] at hkept
      obtain ⟨c, rest, rfl, haccepts, hrest⟩ := (fits_cons_iff position [] kept).1 hkept
      rw [(fits_nil_iff rest).1 hrest, hnone, List.append_nil]
      refine ⟨List.append_ne_nil_of_right_ne_nil _ (List.cons_ne_nil _ _), fun hmem => ?_⟩
      simp only [Bool.and_eq_true, Bool.not_eq_true'] at hposition
      rcases eq_of_concat_mem_lone hmem with rfl | rfl
      · rw [hposition.1] at haccepts
        cases haccepts
      · rw [hposition.2] at haccepts
        cases haccepts
    · cases hposition

/-- The only characters of names that a closing `s` accepts are `s` and `S`. -/
theorem mem_lone_of_fits {dropped : List Char} (h : ∀ c ∈ dropped, isNameChar c = true)
    (hfits : fits (spell "s") dropped = true) : dropped ∈ lone := by
  obtain ⟨c, rest, rfl, haccepts, hrest⟩ := (fits_cons_iff (.letter ['s']) [] dropped).1 hfits
  obtain rfl := (fits_nil_iff rest).1 hrest
  have hcodes : ∀ code < 123, isNameChar (Char.ofNat code) = true →
      (Position.letter ['s']).accepts (Char.ofNat code) = true → [Char.ofNat code] ∈ lone := by
    decide
  exact Naming.forall_isNameChar (P := fun c => (Position.letter ['s']).accepts c = true →
    [c] ∈ lone) hcodes (h c List.mem_cons_self) haccepts

/-- The singular leaves something of a name that is neither empty nor `s` nor `S`, and what it leaves
is neither `s` nor `S`. -/
theorem singularChars_ne (h : IsNameOrEmpty word) (hne : word ≠ []) (hlone : word ∉ lone) :
    singularChars word ≠ [] ∧ singularChars word ∉ lone := by
  have hrules : ∀ rule ∈ rules, ∀ shape ∈ rule.shapes, shape.isSafe rule.added = true ∨
      (shape = ⟨[], spell "s"⟩ ∧ rule.added = "") := by decide
  have hopening : ∀ rule ∈ rules, ∀ opening ∈ rule.openings, opening = shape "ox" "en" := by decide
  have hdouble : ∀ first ∈ lone, ∀ second ∈ lone,
      singularChars (first ++ second) = first ++ second := by decide
  rcases singularChars_cases word with hsame | ⟨rule, hrule, hresult⟩
  · rw [hsame]
    exact ⟨hne, hlone⟩
  · rcases Rule.exists_of_singular? (getLast?_ne_of_isNameOrEmpty h) hresult with
      ⟨shape, hshape, rest, hstrip, heq⟩ | ⟨opening, hmem, hsize, heq⟩
    · obtain ⟨front, kept, dropped, hword, rfl, hkept, hdropped⟩ := Shape.exists_of_strip? hstrip
      rcases hrules rule hrule shape hshape with hsafe | ⟨rfl, hadded⟩
      · rw [heq]
        exact Shape.ne_of_isSafe hsafe hkept
      · -- the last rule has dropped a closing `s`, and the rule for two of them has not applied
        have hfront : singularChars word = front := by
          rw [heq, (fits_nil_iff kept).1 hkept, hadded]
          simp
        rw [(fits_nil_iff kept).1 hkept, List.append_nil] at hword
        have hclosing : dropped ∈ lone := mem_lone_of_fits (fun c hc => h.all c (by
          rw [hword]
          exact List.mem_append_right _ hc)) hdropped
        rw [hfront]
        constructor
        · rintro rfl
          exact hlone (hword ▸ hclosing)
        · intro hmem
          have hsame := hdouble front hmem dropped hclosing
          rw [← hword, hfront, hword] at hsame
          rw [List.self_eq_append_right.1 hsame] at hclosing
          exact absurd hclosing (by decide)
    · have hkept : (shape "ox" "en").kept.length = 2 := by decide
      have hfour : (shape "ox" "en").size = 4 := by decide
      rw [hopening rule hrule opening hmem, hfour] at hsize
      rw [hopening rule hrule opening hmem, hkept] at heq
      refine ne_of_two_le ?_
      rw [heq, List.length_append, List.length_take]
      omega

end Words

section Keys

variable {key : String}

/-- The singular of a key that is a name is a name, or nothing is left of it. -/
theorem isNameOrEmpty_singular (h : IsNameOrEmpty key.toList) :
    IsNameOrEmpty (singular key).toList := by
  rw [toList_singular]
  exact isNameOrEmpty_singularChars h

/-- The singular leaves something of a key that is a name other than `s` and `S`, and what it leaves
is another name, too. -/
theorem singular_ne (h : IsNameOrEmpty key.toList) (hne : key ≠ "") (hlone : key.toList ∉ lone) :
    singular key ≠ "" ∧ (singular key).toList ∉ lone := by
  rw [ne_eq, ← String.toList_eq_nil_iff, toList_singular]
  exact singularChars_ne h (mt String.toList_eq_nil_iff.1 hne) hlone

end Keys

end Singular

end ProtoSchema
