import ProtoSchema.Proofs.Naming
import ProtoSchema.Proofs.Uppercase

/-!
# Laws of type names

The type name of a dotted key is that of its front followed by that of its back, wherever the key is
cut at a dot. It has no dot, and it is its own type name: the texts that are their own type names are
those without a dot whose first character is its own uppercase form. Nothing is asked of the key.
Segments may be empty, and a first character may have an uppercase form of several characters.

Main statements: `typeName_append_dot`, `typeName_eq_self_iff` and `typeName_typeName`. For qualified
names, `Namer.nameFor_append`: the name of what is inside an object goes on from the name of the
object, and `Namer.eq_of_nameFor_eq`: the keys can be read back if all of them are words.
-/

namespace ProtoSchema.Naming

open ProtoSchema.Text.Uppercase (upper exists_upper dot_not_mem_upper)

/-- No dot of a key is left, and none is added. -/
theorem dot_not_mem_pascal (atStart : Bool) (chars : List Char) : '.' ∉ pascal atStart chars := by
  induction chars generalizing atStart with
  | nil => exact List.not_mem_nil
  | cons c rest ih =>
    by_cases hdot : c = '.'
    · subst hdot
      rw [pascal_dot]
      exact ih true
    · cases atStart with
      | true =>
        rw [pascal_first hdot, List.mem_append]
        exact fun hmem => hmem.elim (dot_not_mem_upper hdot) (ih false)
      | false =>
        rw [pascal_later hdot, List.mem_cons]
        exact fun hmem => hmem.elim (Ne.symm hdot) (ih false)

/-- What is spelled begins with a character that is its own uppercase form, if anything is left of the
key. Empty segments in front are passed over. -/
theorem upper_of_mem_head_pascal (chars : List Char) :
    ∀ c ∈ (pascal true chars).head?, upper c = [c] := by
  induction chars with
  | nil =>
    intro c hc
    cases hc
  | cons first rest ih =>
    by_cases hdot : first = '.'
    · subst hdot
      rwa [pascal_dot]
    · obtain ⟨d, more, hupper, hsettled⟩ := exists_upper first
      rw [pascal_first hdot, hupper]
      intro c hc
      rwa [← Option.some.inj hc]

/-- A text is spelled as itself exactly if it has no dot and begins with a character that is its own
uppercase form, if it has a first character. -/
theorem pascal_eq_self_iff {chars : List Char} :
    pascal true chars = chars ↔ '.' ∉ chars ∧ ∀ c ∈ chars.head?, upper c = [c] := by
  constructor
  · intro hsame
    rw [← hsame]
    exact ⟨dot_not_mem_pascal true chars, upper_of_mem_head_pascal chars⟩
  · rintro ⟨hdot, hfirst⟩
    cases chars with
    | nil => rfl
    | cons c rest =>
      obtain ⟨hc, hrest⟩ := not_or.1 (mt List.mem_cons.2 hdot)
      rw [pascal_first (Ne.symm hc), pascal_false_of_not_mem hrest, hfirst c rfl,
        List.singleton_append]

/-- A key that is cut at a dot is spelled in two parts. -/
theorem typeName_append_dot (front back : String) :
    typeName (front ++ "." ++ back) = typeName front ++ typeName back := by
  have hdot : ".".toList = ['.'] := rfl
  refine String.toList_injective ?_
  rw [toList_typeName, String.toList_append, String.toList_append, hdot, List.append_assoc,
    List.singleton_append, pascal_append_dot, String.toList_append, toList_typeName, toList_typeName]

/-- A type name has no dot. -/
theorem dot_not_mem_typeName (key : String) : '.' ∉ (typeName key).toList := by
  rw [toList_typeName]
  exact dot_not_mem_pascal true key.toList

/-- The texts that are their own type names. -/
theorem typeName_eq_self_iff {name : String} :
    typeName name = name ↔ '.' ∉ name.toList ∧ ∀ c ∈ name.toList.head?, upper c = [c] := by
  rw [← String.toList_inj, toList_typeName]
  exact pascal_eq_self_iff

/-- A type name is its own type name. -/
theorem typeName_typeName (key : String) : typeName (typeName key) = typeName key := by
  rw [typeName_eq_self_iff, toList_typeName]
  exact ⟨dot_not_mem_pascal true key.toList, upper_of_mem_head_pascal key.toList⟩

example : typeName ".ﬁx..ŉb.ßc" = "FIxʼNbSSc" := by decide +kernel

end ProtoSchema.Naming

namespace ProtoSchema.Namer

open ProtoSchema.Naming (typeName spell spell_append pascal_intercalate IsWord spell_injective)

variable {namer : Namer}

/-- The qualified name of a field goes on from that of any object that it is inside of, with the type
name of the keys that lead there from the object. -/
theorem nameFor_append (h : namer.qualify = true) (scope : List String) (outer : String)
    (between : List String) (key : String) :
    namer.nameFor key (scope ++ [outer] ++ between) =
      namer.nameFor outer scope ++ typeName (".".intercalate (between ++ [key])) := by
  refine String.toList_injective ?_
  rw [String.toList_append, toList_nameFor_of_qualify h, toList_nameFor_of_qualify h,
    Naming.toList_typeName, pascal_intercalate, List.append_assoc, spell_append, List.append_assoc]

/-- The keys can be read back from a qualified name if all of them are words. -/
theorem eq_of_nameFor_eq (h : namer.qualify = true) {scope others : List String} {key other : String}
    (hwords : ∀ word ∈ scope ++ [key], IsWord word) (hothers : ∀ word ∈ others ++ [other], IsWord word)
    (hsame : namer.nameFor key scope = namer.nameFor other others) :
    scope = others ∧ key = other := by
  have hspell : spell (scope ++ [key]) = spell (others ++ [other]) := by
    have hchars := congrArg String.toList hsame
    rw [toList_nameFor_of_qualify h, toList_nameFor_of_qualify h] at hchars
    exact List.append_cancel_left hchars
  obtain ⟨hscope, hkey⟩ := List.append_inj' (spell_injective hwords hothers hspell) rfl
  exact ⟨hscope, List.singleton_inj.1 hkey⟩

end ProtoSchema.Namer
