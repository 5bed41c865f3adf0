import ProtoSchema.Proofs.Compile.Qualified
import ProtoSchema.Proofs.TypeName

/-!
# Names of nested types

What occurs inside an object has keys that go on from those of the object, whatever sequences, maps
and tuples lie between, so that with qualified names the name of its definition goes on from that of
the object. Main statement: the laws of type names, for all keys.
-/

namespace ProtoSchema

open ProtoSchema.Naming (typeName)

variable {n : Nat}

namespace Outline

section Scopes

mutual

/-- What occurs in a schema is inside the objects that the schema is inside of. -/
theorem isPrefix_scope_of_mem_occurrences (place : Place) : ∀ schema : Schema n,
    ∀ occurrence ∈ occurrences place schema, place.scope <+: occurrence.place.scope
  | .optional inner =>
    isPrefix_scope_of_mem_occurrences { place with isOptional := true } inner
  | .nullable inner =>
    isPrefix_scope_of_mem_occurrences { place with isOptional := true } inner
  | .array element =>
    isPrefix_scope_of_mem_occurrences ⟨Singular.singular place.key, place.scope, false, true⟩ element
  | .set element =>
    isPrefix_scope_of_mem_occurrences ⟨Singular.singular place.key, place.scope, false, true⟩ element
  | .map key value =>
    List.forall_mem_append.2
      ⟨isPrefix_scope_of_mem_occurrences ⟨place.key ++ "Key", place.scope, false, false⟩ key,
        isPrefix_scope_of_mem_occurrences ⟨place.key ++ "Value", place.scope, false, false⟩ value⟩
  | .object members => by
    refine List.forall_mem_append.2 ⟨fun occurrence hoccurrence => ?_,
      List.forall_mem_singleton.2 (List.prefix_refl _)⟩
    have hinner := isPrefix_scope_of_mem_memberOccurrences place.inner members occurrence hoccurrence
    exact (List.prefix_append place.scope [place.key]).trans hinner
  | .tuple elements =>
    List.forall_mem_append.2 ⟨isPrefix_scope_of_mem_elementOccurrences place 0 elements,
      List.forall_mem_singleton.2 (List.prefix_refl _)⟩
  | .enumeration _ => List.forall_mem_singleton.2 (List.prefix_refl _)
  | .shared _ => List.forall_mem_nil _
  | .string => List.forall_mem_nil _
  | .boolean => List.forall_mem_nil _
  | .date => List.forall_mem_nil _
  | .bigInt => List.forall_mem_nil _
  | .number _ => List.forall_mem_nil _
  | .unknown _ => List.forall_mem_nil _
  | .foreign _ => List.forall_mem_nil _
termination_by structural schema => schema

/-- What occurs in the fields of an object is inside the object. -/
theorem isPrefix_scope_of_mem_memberOccurrences (scope : List String) :
    ∀ members : List (String × Schema n), ∀ occurrence ∈ memberOccurrences scope members,
      scope <+: occurrence.place.scope
  | [] => List.forall_mem_nil _
  | (key, schema) :: rest =>
    List.forall_mem_append.2
      ⟨isPrefix_scope_of_mem_occurrences ⟨key, scope, false, false⟩ schema,
        isPrefix_scope_of_mem_memberOccurrences scope rest⟩
termination_by structural members => members

/-- What occurs in the elements of a tuple is inside the objects that the tuple is inside of. -/
theorem isPrefix_scope_of_mem_elementOccurrences (place : Place) :
    ∀ (position : Nat) (elements : List (Schema n)),
      ∀ occurrence ∈ elementOccurrences place position elements,
        place.scope <+: occurrence.place.scope
  | _, [] => List.forall_mem_nil _
  | position, element :: rest =>
    List.forall_mem_append.2
      ⟨isPrefix_scope_of_mem_occurrences (elementPlace place position) element,
        isPrefix_scope_of_mem_elementOccurrences place (position + 1) rest⟩
termination_by structural _ elements => elements

end

/-- The qualified name of what occurs inside an object is that of the object and then the type name of
the keys that lead on from the object. -/
theorem name_definition_of_mem_memberOccurrences {namer : Namer} (hqualify : namer.qualify = true)
    (place : Place) (members : List (String × Schema n)) {occurrence : Occurrence n}
    (h : occurrence ∈ memberOccurrences place.inner members) :
    ∃ between, occurrence.place.scope = place.inner ++ between ∧
      (occurrence.definition namer).name =
        ((Occurrence.object place members).definition namer).name ++
          typeName (".".intercalate (between ++ [occurrence.place.key])) := by
  obtain ⟨between, hscope⟩ := isPrefix_scope_of_mem_memberOccurrences place.inner members _ h
  refine ⟨between, hscope.symm, ?_⟩
  rw [Occurrence.name_definition, ← hscope]
  exact Namer.nameFor_append hqualify place.scope place.key between occurrence.place.key

end Scopes

/-- The keys that lead to an occurrence, its own included. -/
def Occurrence.keys (occurrence : Occurrence n) : List String :=
  occurrence.place.inner

/-- More keys lead to what occurs in the fields of an object than to the object. -/
theorem keys_ne_of_mem_memberOccurrences {scope : List String} {members : List (String × Schema n)}
    {occurrence : Occurrence n} (h : occurrence ∈ memberOccurrences scope members) :
    occurrence.keys ≠ scope := by
  intro hkeys
  have hlength := (isPrefix_scope_of_mem_memberOccurrences scope members occurrence h).length_le
  rw [← hkeys, Occurrence.keys, Place.inner, List.length_append, List.length_singleton] at hlength
  omega

end Outline

namespace Naming

open Outline (Occurrence memberOccurrences)

/-- Laws of type names, whatever the keys are. A key that is cut at a dot is spelled in two parts, so
that with qualified names the name of a field goes on from that of the object around it, and the name
of anything that is defined inside an object goes on from that of the object. No type name has a dot,
and every type name is its own type name. -/
theorem typeName_laws (front back key : String) :
    typeName (front ++ "." ++ back) = typeName front ++ typeName back ∧
      (∀ (lead outer inner : String) (scope : List String),
        (⟨lead, true⟩ : Namer).nameFor inner (scope ++ [outer]) =
          (⟨lead, true⟩ : Namer).nameFor outer scope ++ typeName inner) ∧
      (∀ {n : Nat} (lead : String) (place : Place) (members : List (String × Schema n)),
        ∀ occurrence ∈ memberOccurrences place.inner members,
          ∃ between, occurrence.place.scope = place.inner ++ between ∧
            (occurrence.definition ⟨lead, true⟩).name =
              ((Occurrence.object place members).definition ⟨lead, true⟩).name ++
                typeName (".".intercalate (between ++ [occurrence.place.key]))) ∧
      '.' ∉ (typeName key).toList ∧
      typeName (typeName key) = typeName key := by
  refine ⟨typeName_append_dot front back, ?_, ?_, dot_not_mem_typeName key, typeName_typeName key⟩
  · intro lead outer inner scope
    have hqualify : (⟨lead, true⟩ : Namer).qualify = true := rfl
    simpa using Namer.nameFor_append hqualify scope outer [] inner
  · intro n lead place members occurrence hoccurrence
    exact Outline.name_definition_of_mem_memberOccurrences rfl place members hoccurrence

/-- The fields of a lead, with enums under a key that begins with a ligature. -/
def leadFields : List (String × Schema 0) :=
  [("ﬁelds", .set (.enumeration [.text "ART", .text "LAW"]))]

/-- Ligatures and sharp letters at the start of a segment are written out, once. -/
theorem typeName_laws_ligature :
    typeName "ŉah..ßig" = "ʼNahSSig" ∧ typeName "ʼNahSSig" = "ʼNahSSig" ∧
      '.' ∉ "ʼNahSSig".toList ∧
      ∃ occurrence ∈ memberOccurrences ["team", "lead"] leadFields,
        (occurrence.definition ⟨"Api", true⟩).name = "ApiTeamLead" ++ "FIeld" := by
  obtain ⟨hsplit, -, hnested, hdot, hsame⟩ := typeName_laws "ŉah" ".ßig" "ŉah..ßig"
  have hspelled : typeName "ŉah" ++ typeName ".ßig" = "ʼNahSSig" := by decide +kernel
  have hkey : typeName "ŉah..ßig" = "ʼNahSSig" := hsplit.trans hspelled
  rw [hkey] at hdot hsame
  refine ⟨hkey, hsame, hdot, _, List.mem_cons_self, ?_⟩
  obtain ⟨between, hscope, hname⟩ := hnested "Api" ⟨"lead", ["team"], false, false⟩ leadFields _
    List.mem_cons_self
  obtain rfl : between = [] := List.self_eq_append_right.1 hscope
  refine hname.trans ?_
  decide +kernel

end Naming

end ProtoSchema
