import ProtoSchema.Proofs.Compile.Numbering
import ProtoSchema.Proofs.Compile.Precedence
import ProtoSchema.Proofs.Compile.Qualified
import ProtoSchema.Proofs.Inventory

/-!
# The types of fields

The fields of an object or a tuple are made of its parts, and what occurs inside it is what occurs
in the parts. Main statement: every name in the type of a field is the name of something that occurs
in the field, so that the fields of a message refer to what is inside its object or tuple.
-/

namespace ProtoSchema

variable {n : Nat}

/-- The names of the messages and the enums that a type is made of. -/
def FieldType.names : FieldType → List String
  | .scalar _ => []
  | .defined name => [name]
  | .map key value => key.names ++ value.names

namespace Outline

open ProtoSchema.Singular (singular)

section Inside

/-- What occurs in the fields of an object occurs in one of its parts. -/
theorem memberOccurrences_eq_flatMap (scope : List String) (members : List (String × Schema n)) :
    memberOccurrences scope members =
      (memberParts scope members).flatMap fun part => occurrences part.1 part.2 := by
  induction members with
  | nil => rfl
  | cons member rest ih =>
    rw [memberOccurrences, ih]
    rfl

/-- What occurs in the elements of a tuple occurs in one of its parts. -/
theorem elementOccurrences_eq_flatMap (place : Place) (position : Nat)
    (elements : List (Schema n)) :
    elementOccurrences place position elements =
      (elementParts place position elements).flatMap fun part => occurrences part.1 part.2 := by
  induction elements generalizing position with
  | nil => rfl
  | cons element rest ih =>
    rw [elementOccurrences, ih]
    rfl

/-- What is inside an occurrence occurs in one of its parts. -/
theorem Occurrence.inside_eq_flatMap (occurrence : Occurrence n) :
    occurrence.inside = occurrence.parts.flatMap fun part => occurrences part.1 part.2 := by
  cases occurrence with
  | object place members => exact memberOccurrences_eq_flatMap place.inner members
  | tuple place elements => exact elementOccurrences_eq_flatMap place 0 elements
  | enumeration place options => rfl

/-- What is inside an occurrence in the fields of an object occurs in the fields of the object. -/
theorem mem_memberOccurrences_of_inside {scope : List String} {members : List (String × Schema n)}
    {upper lower : Occurrence n} (hupper : upper ∈ memberOccurrences scope members)
    (hlower : lower ∈ upper.inside) : lower ∈ memberOccurrences scope members := by
  obtain ⟨earlier, later, hlist⟩ := isBlockIn_memberOccurrences scope members hupper
  rw [hlist]
  exact List.mem_append_right _ (List.mem_append_left _ hlower)

/-- A part of an occurrence stands right in it. -/
theorem mem_directPositions_of_mem_parts {occurrence : Occurrence n} {part : Place × Schema n}
    (h : part ∈ occurrence.parts) : ⟨part.2, false⟩ ∈ occurrence.schema.directPositions := by
  cases occurrence with
  | object place members =>
    obtain ⟨member, hmember, rfl⟩ := List.mem_map.1 h
    exact List.mem_map_of_mem hmember
  | tuple place elements =>
    obtain ⟨⟨element, position⟩, hentry, rfl⟩ := List.mem_map.1 h
    exact List.mem_map_of_mem (List.fst_mem_of_mem_zipIdx hentry)
  | enumeration place options => cases h

end Inside

section References

/-- A name in the type of a field is that of something that occurs in the field, if all that stands
in it has a mapping. -/
theorem exists_occurrence_of_mem_names (namer : Namer) (place : Place) : ∀ schema : Schema 0,
    (∀ part ∈ schema.subschemas, part.isUnmapped = false) →
      ∀ name ∈ (fieldType namer place.scope place.key schema).names,
        ∃ occurrence ∈ occurrences place schema, (occurrence.definition namer).name = name
  | .optional inner, h, name, hname =>
    exists_occurrence_of_mem_names namer { place with isOptional := true } inner
      (fun _ hpart => h _ (Schema.subschemas_of_mem_directPositions List.mem_cons_self hpart))
      name hname
  | .nullable inner, h, name, hname =>
    exists_occurrence_of_mem_names namer { place with isOptional := true } inner
      (fun _ hpart => h _ (Schema.subschemas_of_mem_directPositions List.mem_cons_self hpart))
      name hname
  | .array element, h, name, hname =>
    exists_occurrence_of_mem_names namer ⟨singular place.key, place.scope, false, true⟩ element
      (fun _ hpart => h _ (Schema.subschemas_of_mem_directPositions List.mem_cons_self hpart))
      name hname
  | .set element, h, name, hname =>
    exists_occurrence_of_mem_names namer ⟨singular place.key, place.scope, false, true⟩ element
      (fun _ hpart => h _ (Schema.subschemas_of_mem_directPositions List.mem_cons_self hpart))
      name hname
  | .map key value, h, name, hname => by
    rcases List.mem_append.1 hname with hkey | hvalue
    · obtain ⟨occurrence, hmem, hsame⟩ := exists_occurrence_of_mem_names namer
        ⟨place.key ++ "Key", place.scope, false, false⟩ key
        (fun _ hpart => h _ (Schema.subschemas_of_mem_directPositions List.mem_cons_self hpart))
        name hkey
      exact ⟨occurrence, List.mem_append_left _ hmem, hsame⟩
    · obtain ⟨occurrence, hmem, hsame⟩ := exists_occurrence_of_mem_names namer
        ⟨place.key ++ "Value", place.scope, false, false⟩ value
        (fun _ hpart => h _ (Schema.subschemas_of_mem_directPositions
          (List.mem_cons_of_mem _ List.mem_cons_self) hpart))
        name hvalue
      exact ⟨occurrence, List.mem_append_right _ hmem, hsame⟩
  | .object members, _, name, hname =>
    ⟨.object place members, List.mem_append_right _ List.mem_cons_self,
      (List.mem_singleton.1 hname).symm⟩
  | .tuple elements, _, name, hname =>
    ⟨.tuple place elements, List.mem_append_right _ List.mem_cons_self,
      (List.mem_singleton.1 hname).symm⟩
  | .enumeration options, _, name, hname =>
    ⟨.enumeration place options, List.mem_cons_self, (List.mem_singleton.1 hname).symm⟩
  | .shared index, _, _, _ => index.elim0
  | .unknown kind, h, _, _ => absurd (h _ (Schema.self_mem_subschemas _)) Bool.noConfusion
  | .foreign value, h, _, _ => absurd (h _ (Schema.self_mem_subschemas _)) Bool.noConfusion
  | .number integral, _, name, hname => by cases integral <;> cases hname
  | .string, _, _, hname => by cases hname
  | .boolean, _, _, hname => by cases hname
  | .date, _, _, hname => by cases hname
  | .bigInt, _, _, hname => by cases hname
termination_by structural schema => schema

/-- All names that the types of fields are made of. -/
def typeNames (fields : List NumberedField) : List String :=
  fields.flatMap (·.field.type.names)

variable {namer : Namer} {scope : List String} {members : List (String × Schema 0)}

/-- The names in the fields of parts are those of what occurs in the parts. -/
theorem exists_occurrence_of_mem_typeNames {parts : List (Place × Schema 0)}
    (h : ∀ part ∈ parts, ∀ inner ∈ part.2.subschemas, inner.isUnmapped = false) {name : String}
    (hname : name ∈ typeNames (NumberedField.consecutive 1 (partFields namer parts))) :
    ∃ occurrence ∈ parts.flatMap fun part => occurrences part.1 part.2,
      (occurrence.definition namer).name = name := by
  obtain ⟨numbered, hnumbered, hmem⟩ := List.mem_flatMap.1 hname
  have hfield := List.mem_map_of_mem (f := NumberedField.field) hnumbered
  rw [NumberedField.map_field_consecutive] at hfield
  obtain ⟨part, hpart, hdescriptor⟩ := List.mem_map.1 hfield
  rw [← hdescriptor] at hmem
  obtain ⟨occurrence, hoccurrence, hsame⟩ :=
    exists_occurrence_of_mem_names namer part.1 part.2 (h part hpart) name hmem
  exact ⟨occurrence, List.mem_flatMap.2 ⟨part, hpart, hoccurrence⟩, hsame⟩

/-- The names in the fields of an object are those of what occurs in the fields. -/
theorem exists_occurrence_of_mem_objectFields
    (h : ∀ part ∈ (Schema.object members).subschemas, part.isUnmapped = false) {name : String}
    (hname : name ∈
      typeNames (NumberedField.consecutive 1 (objectFields namer scope members))) :
    ∃ occurrence ∈ memberOccurrences scope members, (occurrence.definition namer).name = name := by
  rw [objectFields_eq_partFields] at hname
  rw [memberOccurrences_eq_flatMap]
  refine exists_occurrence_of_mem_typeNames (fun part hpart inner hinner => h inner ?_) hname
  obtain ⟨member, hmember, rfl⟩ := List.mem_map.1 hpart
  exact Schema.subschemas_of_mem_directPositions (List.mem_map_of_mem hmember) hinner

/-- The names in the fields of a message that is defined for the fields of an object are those of
what occurs in these fields. -/
theorem exists_occurrence_of_mem_lines
    (h : ∀ part ∈ (Schema.object members).subschemas, part.isUnmapped = false)
    {occurrence : Occurrence 0} (hmem : occurrence ∈ memberOccurrences scope members)
    {name : String}
    (hname : name ∈
      typeNames (NumberedField.consecutive 1 (partFields namer occurrence.parts))) :
    ∃ inner ∈ memberOccurrences scope members, (inner.definition namer).name = name := by
  have hparts : ∀ part ∈ occurrence.parts, ∀ inner ∈ part.2.subschemas,
      inner.isUnmapped = false := by
    intro part hpart inner hinner
    have hdirect := mem_directPositions_of_mem_parts hpart
    exact h inner (Schema.mem_subschemas_trans (schema_mem_subschemas hmem)
      (Schema.subschemas_of_mem_directPositions hdirect hinner))
  obtain ⟨inner, hinner, hsame⟩ := exists_occurrence_of_mem_typeNames hparts hname
  rw [← Occurrence.inside_eq_flatMap] at hinner
  exact ⟨inner, mem_memberOccurrences_of_inside hmem hinner, hsame⟩

end References

end Outline

end ProtoSchema
