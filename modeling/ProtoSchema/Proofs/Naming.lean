import ProtoSchema.Naming

/-!
# Reading qualified names back

A qualified name spells the keys that lead to a field, each with a capital at its start and nothing
between them. Where the keys are words, which begin with a small letter and have no capital of their
own, the capitals in the name are where words begin, and the words can be read back from the name.
-/

namespace ProtoSchema.Naming

open ProtoSchema.Text.Uppercase (upper)

/-- The text of several keys, one after the other, each as it stands in a name. -/
def spell (keys : List String) : List Char :=
  keys.flatMap fun key => pascal true key.toList

@[simp] theorem spell_nil : spell [] = [] := rfl

@[simp] theorem spell_cons (key : String) (rest : List String) :
    spell (key :: rest) = pascal true key.toList ++ spell rest := rfl

@[simp] theorem spell_append (keys more : List String) :
    spell (keys ++ more) = spell keys ++ spell more := by
  simp [spell]

/-- A dot ends one segment and begins another. -/
theorem pascal_append_dot (atStart : Bool) (front back : List Char) :
    pascal atStart (front ++ '.' :: back) = pascal atStart front ++ pascal true back := by
  induction front generalizing atStart with
  | nil => exact pascal_dot atStart back
  | cons c rest ih =>
    rw [List.cons_append]
    by_cases hdot : c = '.'
    · subst hdot
      rw [pascal_dot, pascal_dot, ih]
    · cases atStart with
      | true => rw [pascal_first hdot, pascal_first hdot, ih, List.append_assoc]
      | false => rw [pascal_later hdot, pascal_later hdot, ih, List.cons_append]

/-- Inside a segment nothing changes. -/
theorem pascal_false_of_not_mem {chars : List Char} (h : '.' ∉ chars) :
    pascal false chars = chars := by
  induction chars with
  | nil => rfl
  | cons c rest ih =>
    obtain ⟨hc, hrest⟩ := not_or.1 (mt List.mem_cons.2 h)
    rw [pascal_later (Ne.symm hc), ih hrest]

/-- What follows a segment is part of it as long as there is no dot. -/
theorem pascal_append_of_not_mem {front back : List Char} (hne : front ≠ [])
    (hfront : '.' ∉ front) (hback : '.' ∉ back) :
    pascal true (front ++ back) = pascal true front ++ back := by
  obtain ⟨c, rest, rfl⟩ := List.exists_cons_of_ne_nil hne
  obtain ⟨hc, hrest⟩ := not_or.1 (mt List.mem_cons.2 hfront)
  have hboth : '.' ∉ rest ++ back := by
    rw [List.mem_append]
    exact fun h => h.elim hrest hback
  rw [List.cons_append, pascal_first (Ne.symm hc), pascal_first (Ne.symm hc),
    pascal_false_of_not_mem hboth, pascal_false_of_not_mem hrest, List.append_assoc]

/-- The dotted key of a field spells the keys that lead to it. -/
theorem pascal_intercalate (scope : List String) (key : String) :
    pascal true (".".intercalate (scope ++ [key])).toList = spell (scope ++ [key]) := by
  induction scope with
  | nil => simp
  | cons first rest ih =>
    have hrest : rest ++ [key] ≠ [] := by simp
    have hdot : ".".toList = ['.'] := rfl
    rw [List.cons_append, String.intercalate_cons_of_ne_nil hrest, String.toList_append,
      String.toList_append, hdot, List.append_assoc, List.singleton_append, pascal_append_dot, ih,
      spell_cons]

/-- The small letters are the characters from `a` to `z`. -/
theorem isLower_iff_toNat {c : Char} : c.isLower = true ↔ 97 ≤ c.toNat ∧ c.toNat < 123 := by
  have hrange : c.isLower = (decide (97 ≤ c.val) && decide (c.val ≤ 122)) := rfl
  rw [hrange, Bool.and_eq_true, decide_eq_true_eq, decide_eq_true_eq, UInt32.le_iff_toNat_le,
    UInt32.le_iff_toNat_le]
  exact and_congr_right fun _ => Nat.lt_succ_iff.symm

/-- The capital of a small letter. -/
def capitalOf (c : Char) : Char :=
  Char.ofNat (c.toNat - 32)

/-- What holds of all codes of small letters holds of the small letters. -/
theorem forall_isLower {P : Char → Prop} (h : ∀ code < 123, 97 ≤ code → P (Char.ofNat code))
    {c : Char} (hc : c.isLower = true) : P c := by
  obtain ⟨hlow, hhigh⟩ := isLower_iff_toNat.1 hc
  have hcode := h c.toNat hhigh hlow
  rwa [Char.ofNat_toNat] at hcode

/-- The uppercase form of a small letter is its capital. -/
theorem upper_of_isLower {c : Char} (h : c.isLower = true) : upper c = [capitalOf c] :=
  forall_isLower (P := fun c => upper c = [capitalOf c]) (by decide) h

/-- The capital of a small letter is a capital. -/
theorem isUpper_capitalOf {c : Char} (h : c.isLower = true) : (capitalOf c).isUpper = true :=
  forall_isLower (P := fun c => (capitalOf c).isUpper = true) (by decide) h

/-- Small letters with one capital are the same. -/
theorem capitalOf_injective {c d : Char} (hc : c.isLower = true) (hd : d.isLower = true)
    (h : capitalOf c = capitalOf d) : c = d := by
  have hcode : ∀ {e : Char}, e.isLower = true → (capitalOf e).toNat + 32 = e.toNat :=
    forall_isLower (P := fun e => (capitalOf e).toNat + 32 = e.toNat) (by decide)
  exact Char.toNat_inj.1 (by rw [← hcode hc, ← hcode hd, h])

/-- A key that can be read back from a name: it begins with a small letter and has neither a dot nor
a capital. -/
structure IsWord (word : String) : Prop where
  /-- It begins with a small letter. -/
  opens : ∃ c rest, word.toList = c :: rest ∧ c.isLower = true
  /-- It has no dot. -/
  noDot : '.' ∉ word.toList
  /-- It has no capital. -/
  noCapital : ∀ c ∈ word.toList, c.isUpper = false

instance (word : String) : Decidable (IsWord word) :=
  decidable_of_iff
    ((word.toList.head?.any Char.isLower && !word.toList.contains '.' &&
      word.toList.all fun c => !c.isUpper) = true) <| by
    rw [Bool.and_eq_true, Bool.and_eq_true, Option.any_eq_true, Bool.not_eq_true',
      List.contains_eq_mem, decide_eq_false_iff_not, List.all_eq_true]
    constructor
    · rintro ⟨⟨⟨c, hc, hlower⟩, hdot⟩, hcapital⟩
      obtain ⟨rest, hword⟩ := List.head?_eq_some_iff.1 hc
      exact ⟨⟨c, rest, hword, hlower⟩, hdot, fun d hd => by simpa using hcapital d hd⟩
    · rintro ⟨⟨c, rest, hword, hlower⟩, hdot, hcapital⟩
      exact ⟨⟨⟨c, by rw [hword]; rfl, hlower⟩, hdot⟩, fun d hd => by rw [hcapital d hd]; rfl⟩

theorem IsWord.toList_ne_nil {word : String} (h : IsWord word) : word.toList ≠ [] := by
  obtain ⟨c, rest, hword, -⟩ := h.opens
  rw [hword]
  exact List.cons_ne_nil _ _

/-- Whether a character may stand in an identifier of small letters. -/
def isIdentifierChar (c : Char) : Bool :=
  c.isLower || c.isDigit || c == '_'

/-- Nothing but the characters of identifiers, with a small letter at the start, if there is one. -/
structure IsSnake (chars : List Char) : Prop where
  /-- The first character, if there is one, is a small letter. -/
  opens : ∀ c ∈ chars.head?, c.isLower = true
  /-- All characters may stand in an identifier. -/
  all : ∀ c ∈ chars, isIdentifierChar c = true

namespace IsSnake

variable {chars more : List Char}

theorem of_append (h : IsSnake (chars ++ more)) : IsSnake chars where
  opens := by
    intro c hc
    refine h.opens c ?_
    rw [List.head?_append, Option.mem_def.1 hc]
    rfl
  all c hc := h.all c (List.mem_append_left _ hc)

theorem append (h : IsSnake chars) (hmore : IsSnake more) : IsSnake (chars ++ more) where
  opens := by
    intro c hc
    rw [List.head?_append, Option.mem_def, Option.or_eq_some_iff] at hc
    exact hc.elim (h.opens c) fun hc => hmore.opens c hc.2
  all c hc := (List.mem_append.1 hc).elim (h.all c) (hmore.all c)

/-- Characters may be left out behind the first one. -/
theorem take_append_drop (h : IsSnake chars) {kept : Nat} (hkept : kept ≠ 0) (start : Nat) :
    IsSnake (chars.take kept ++ chars.drop start) where
  opens := by
    intro c hc
    cases chars with
    | nil => simp at hc
    | cons first rest =>
      obtain ⟨more, rfl⟩ := Nat.exists_eq_succ_of_ne_zero hkept
      exact h.opens c hc
  all c hc := h.all c ((List.mem_append.1 hc).elim List.mem_of_mem_take List.mem_of_mem_drop)

/-- Small letters alone make an identifier, or nothing. -/
theorem of_isLower (h : ∀ c ∈ chars, c.isLower = true) : IsSnake chars where
  opens c hc := h c (List.mem_of_mem_head? hc)
  all c hc := by simp [isIdentifierChar, h c hc]

end IsSnake

/-- Whether a key is an identifier: small letters, digits and underscores after a small letter. -/
def isIdentifier (key : String) : Bool :=
  key.toList.head?.any Char.isLower && key.toList.all isIdentifierChar

theorem isIdentifier_iff {key : String} :
    isIdentifier key = true ↔ key ≠ "" ∧ IsSnake key.toList := by
  rw [isIdentifier, Bool.and_eq_true, List.all_eq_true, ne_eq, ← String.toList_eq_nil_iff]
  cases hkey : key.toList with
  | nil => simp
  | cons c rest =>
    constructor
    · rintro ⟨hfirst, hall⟩
      exact ⟨List.cons_ne_nil _ _, fun d hd => Option.some.inj hd ▸ hfirst, hall⟩
    · rintro ⟨-, hsnake⟩
      exact ⟨hsnake.opens c rfl, hsnake.all⟩

/-- No character of an identifier is a capital. -/
theorem isUpper_of_isIdentifierChar {c : Char} (h : isIdentifierChar c = true) :
    c.isUpper = false := by
  have hcode : c.toNat < 123 := by
    simp only [isIdentifierChar, Bool.or_eq_true, beq_iff_eq, isLower_iff_toNat,
      Char.isDigit_iff_toNat] at h
    rcases h with (⟨-, h⟩ | ⟨-, h⟩) | rfl
    · exact h
    · exact Nat.lt_of_le_of_lt h (by decide)
    · decide
  have hall : ∀ code < 123, isIdentifierChar (Char.ofNat code) = true →
      (Char.ofNat code).isUpper = false := by decide
  have hc := hall c.toNat hcode
  rw [Char.ofNat_toNat] at hc
  exact hc h

/-- An identifier is a word. -/
theorem isWord_of_isIdentifier {key : String} (h : isIdentifier key = true) : IsWord key := by
  obtain ⟨hne, hsnake⟩ := isIdentifier_iff.1 h
  obtain ⟨c, rest, hkey⟩ := List.exists_cons_of_ne_nil (mt String.toList_eq_nil_iff.1 hne)
  refine ⟨⟨c, rest, hkey, hsnake.opens c (by rw [hkey]; rfl)⟩, fun hdot => ?_,
    fun d hd => isUpper_of_isIdentifierChar (hsnake.all d hd)⟩
  exact absurd (hsnake.all _ hdot) (by decide)

/-- A word stands in a name with the capital of its first letter. -/
theorem IsWord.pascal {word : String} (h : IsWord word) :
    ∃ c rest, word.toList = c :: rest ∧ c.isLower = true ∧
      Naming.pascal true word.toList = capitalOf c :: rest ∧
        ∀ d ∈ rest, (!d.isUpper) = true := by
  obtain ⟨c, rest, hword, hlower⟩ := h.opens
  obtain ⟨hc, hrest⟩ := not_or.1 (mt List.mem_cons.2 (hword ▸ h.noDot))
  refine ⟨c, rest, hword, hlower, ?_, ?_⟩
  · rw [hword, pascal_first (Ne.symm hc), pascal_false_of_not_mem hrest,
      upper_of_isLower hlower, List.singleton_append]
  · intro d hd
    rw [h.noCapital d (hword ▸ List.mem_cons_of_mem _ hd)]
    rfl

/-- Words spell a text that is empty or begins with a capital. -/
theorem takeWhile_spell {words : List String} (h : ∀ word ∈ words, IsWord word) :
    (spell words).takeWhile (!·.isUpper) = [] := by
  cases words with
  | nil => rfl
  | cons word rest =>
    obtain ⟨c, tail, -, hlower, hpascal, -⟩ := (h word List.mem_cons_self).pascal
    rw [spell_cons, hpascal, List.cons_append, List.takeWhile_cons, isUpper_capitalOf hlower]
    rfl

/-- Words can be read back from the text that they spell. -/
theorem spell_injective {words others : List String} (h : ∀ word ∈ words, IsWord word)
    (h' : ∀ word ∈ others, IsWord word) (heq : spell words = spell others) : words = others := by
  induction words generalizing others with
  | nil =>
    cases others with
    | nil => rfl
    | cons other more =>
      obtain ⟨c, tail, -, -, hpascal, -⟩ := (h' other List.mem_cons_self).pascal
      rw [spell_nil, spell_cons, hpascal] at heq
      cases heq
  | cons word rest ih =>
    obtain ⟨c, tail, hword, hlower, hpascal, htail⟩ := (h word List.mem_cons_self).pascal
    cases others with
    | nil =>
      rw [spell_nil, spell_cons, hpascal] at heq
      cases heq
    | cons other more =>
      obtain ⟨d, back, hother, hlower', hpascal', hback⟩ := (h' other List.mem_cons_self).pascal
      have hrest : ∀ word ∈ rest, IsWord word := fun w hw => h w (List.mem_cons_of_mem _ hw)
      have hmore : ∀ word ∈ more, IsWord word := fun w hw => h' w (List.mem_cons_of_mem _ hw)
      rw [spell_cons, spell_cons, hpascal, hpascal', List.cons_append, List.cons_append] at heq
      obtain ⟨hcapital, hlater⟩ := List.cons.inj heq
      have hfirst : c = d := capitalOf_injective hlower hlower' hcapital
      -- the next capital is where the first word ends, in both texts
      have hsame : tail = back := by
        have hread := congrArg (List.takeWhile (!·.isUpper)) hlater
        rwa [List.takeWhile_append_of_pos htail, List.takeWhile_append_of_pos hback,
          takeWhile_spell hrest, takeWhile_spell hmore, List.append_nil, List.append_nil] at hread
      subst hfirst hsame
      have hwords : word = other := String.toList_injective (hword.trans hother.symm)
      rw [hwords, ih hrest hmore (List.append_cancel_left hlater)]

end ProtoSchema.Naming

namespace ProtoSchema.Namer

/-- A qualified name spells the keys of the enclosing objects and then the key itself. -/
theorem toList_nameFor_of_qualify {namer : Namer} (h : namer.qualify = true) (key : String)
    (scope : List String) :
    (namer.nameFor key scope).toList = namer.lead.toList ++ Naming.spell (scope ++ [key]) := by
  rw [nameFor, dottedKey, if_pos h, String.toList_append, Naming.toList_typeName,
    Naming.pascal_intercalate]

end ProtoSchema.Namer
