import ProtoSchema.Proofs.Outline
import ProtoSchema.Proofs.Schema.Subschema

/-!
# What occurs in a schema

The occurrences of a schema are the objects, tuples and enumerations that stand in it. Main
statement: with their places left out, they are exactly the schemas of these kinds at the positions
of the schema, in the order of the traversal, so that none is passed over and none is listed twice.
-/

namespace ProtoSchema

variable {n : Nat}

namespace Schema

/-- Whether a message is defined where the schema stands: it is an object or a tuple. -/
def isMessage : Schema n → Bool
  | .object _ => true
  | .tuple _ => true
  | _ => false

/-- Whether an enum is defined where the schema stands. -/
def isEnumeration : Schema n → Bool
  | .enumeration _ => true
  | _ => false

/-- Whether anything is defined where the schema stands. -/
def isDefined (schema : Schema n) : Bool :=
  schema.isMessage || schema.isEnumeration

/-- A layer of optionality is no message. -/
theorem isMessage_of_isWrapped {schema : Schema n} (h : schema.isWrapped = true) :
    schema.isMessage = false := by
  cases schema <;> first | rfl | cases h

/-- A layer of optionality is no enumeration. -/
theorem isEnumeration_of_isWrapped {schema : Schema n} (h : schema.isWrapped = true) :
    schema.isEnumeration = false := by
  cases schema <;> first | rfl | cases h

/-- A schema may also be listed after all that stands inside it. -/
theorem perm_subschemas (schema : Schema n) :
    (schema.positions.map (·.schema) ++ [schema]).Perm schema.subschemas :=
  List.perm_append_singleton _ _

/-- Layers of optionality count for nothing among the schemas of a sort that they are not of. -/
theorem countP_subschemas_strip {sort : Schema n → Bool}
    (h : ∀ schema : Schema n, schema.isWrapped = true → sort schema = false) (schema : Schema n) :
    schema.subschemas.countP sort = schema.strip.subschemas.countP sort := by
  induction schema using Schema.strip.induct with
  | case1 inner ih =>
    rw [Schema.strip, ← ih, ← (perm_subschemas inner).countP_eq, subschemas, positions,
      List.map_append, List.countP_cons_of_neg (by simp [h (.optional inner) rfl])]
    rfl
  | case2 inner ih =>
    rw [Schema.strip, ← ih, ← (perm_subschemas inner).countP_eq, subschemas, positions,
      List.map_append, List.countP_cons_of_neg (by simp [h (.nullable inner) rfl])]
    rfl
  | case3 schema hoptional hnullable =>
    have hwrapped : schema.isWrapped = false := by
      cases schema with
      | optional inner => exact absurd rfl (hoptional inner)
      | nullable inner => exact absurd rfl (hnullable inner)
      | _ => rfl
    rw [strip_of_not_isWrapped hwrapped]

end Schema

namespace Outline

/-- What stands at an occurrence. -/
def Occurrence.schema : Occurrence n → Schema n
  | .object _ members => .object members
  | .tuple _ elements => .tuple elements
  | .enumeration _ options => .enumeration options

/-- A schema for which nothing is defined may be left out at the end of a list. -/
theorem filter_isDefined_concat (before : List (Schema n)) {last : Schema n}
    (h : last.isDefined = false) :
    (before ++ [last]).filter (·.isDefined) = before.filter (·.isDefined) := by
  simp [h]

/-- A schema for which something is defined stays at the end of a list. -/
theorem filter_isDefined_concat_self (before : List (Schema n)) {last : Schema n}
    (h : last.isDefined = true) :
    (before ++ [last]).filter (·.isDefined) = before.filter (·.isDefined) ++ [last] := by
  simp [h]

mutual

/-- What occurs in a schema is what is defined at its positions and for itself. -/
theorem map_schema_occurrences (place : Place) : ∀ schema : Schema n,
    (occurrences place schema).map Occurrence.schema =
      (schema.positions.map (·.schema) ++ [schema]).filter (·.isDefined)
  | .optional inner => by
    rw [filter_isDefined_concat _ rfl, Schema.positions, List.map_append]
    exact map_schema_occurrences _ inner
  | .nullable inner => by
    rw [filter_isDefined_concat _ rfl, Schema.positions, List.map_append]
    exact map_schema_occurrences _ inner
  | .array element => by
    rw [filter_isDefined_concat _ rfl, Schema.positions, List.map_append]
    exact map_schema_occurrences _ element
  | .set element => by
    rw [filter_isDefined_concat _ rfl, Schema.positions, List.map_append]
    exact map_schema_occurrences _ element
  | .map key value => by
    have hkey := map_schema_occurrences ⟨place.key ++ "Key", place.scope, false, false⟩ key
    have hvalue := map_schema_occurrences ⟨place.key ++ "Value", place.scope, false, false⟩ value
    rw [filter_isDefined_concat _ rfl, occurrences_map, Schema.positions, List.map_append, hkey,
      hvalue]
    simp only [List.map_append, List.filter_append, List.map_cons, List.map_nil]
  | .object members => by
    rw [filter_isDefined_concat_self _ rfl, occurrences_object, List.map_append,
      map_schema_memberOccurrences]
    rfl
  | .tuple elements => by
    rw [filter_isDefined_concat_self _ rfl, occurrences_tuple, List.map_append,
      map_schema_elementOccurrences]
    rfl
  | .enumeration _ => rfl
  | .shared _ => rfl
  | .string => rfl
  | .boolean => rfl
  | .date => rfl
  | .bigInt => rfl
  | .number _ => rfl
  | .unknown _ => rfl
  | .foreign _ => rfl
termination_by structural schema => schema

/-- What occurs in the fields of an object is what is defined at their positions. -/
theorem map_schema_memberOccurrences (scope : List String) :
    ∀ members : List (String × Schema n),
      (memberOccurrences scope members).map Occurrence.schema =
        ((Schema.fieldPositions members).map (·.schema)).filter (·.isDefined)
  | [] => rfl
  | (key, schema) :: rest => by
    rw [memberOccurrences, Schema.fieldPositions, List.map_append, List.map_append, List.map_append,
      List.filter_append, map_schema_occurrences, map_schema_memberOccurrences scope rest]
    rfl
termination_by structural members => members

/-- What occurs in the elements of a tuple is what is defined at their positions. -/
theorem map_schema_elementOccurrences (place : Place) :
    ∀ (position : Nat) (elements : List (Schema n)),
      (elementOccurrences place position elements).map Occurrence.schema =
        ((Schema.elementPositions elements).map (·.schema)).filter (·.isDefined)
  | _, [] => rfl
  | position, element :: rest => by
    rw [elementOccurrences, Schema.elementPositions, List.map_append, List.map_append,
      List.map_append, List.filter_append, map_schema_occurrences,
      map_schema_elementOccurrences place (position + 1) rest]
    rfl
termination_by structural _ elements => elements

end

/-- The objects that occur in the fields of an object are those that stand in one of the fields. -/
theorem exists_object_iff {scope : List String} {members inner : List (String × Schema n)} :
    (∃ place, Occurrence.object place inner ∈ memberOccurrences scope members) ↔
      ∃ member ∈ members, .object inner ∈ member.2.subschemas := by
  have hlisted : (Schema.object inner : Schema n) ∈
      (memberOccurrences scope members).map Occurrence.schema ↔
        .object inner ∈ (Schema.fieldPositions members).map (·.schema) := by
    rw [map_schema_memberOccurrences, List.mem_filter]
    exact and_iff_left rfl
  rw [← Schema.mem_map_fieldPositions_iff, ← hlisted, List.mem_map]
  constructor
  · rintro ⟨place, hoccurs⟩
    exact ⟨_, hoccurs, rfl⟩
  · rintro ⟨occurrence, hoccurs, hschema⟩
    cases occurrence <;> cases hschema
    exact ⟨_, hoccurs⟩

/-- What occurs in the fields of an object stands in the object. -/
theorem schema_mem_subschemas {scope : List String} {members : List (String × Schema n)}
    {occurrence : Occurrence n} (h : occurrence ∈ memberOccurrences scope members) :
    occurrence.schema ∈ (Schema.object members).subschemas := by
  have hmem := List.mem_map_of_mem (f := Occurrence.schema) h
  rw [map_schema_memberOccurrences] at hmem
  exact List.mem_cons_of_mem _ (List.mem_filter.1 hmem).1

/-- What occurs in the fields of an object is counted at their positions. -/
theorem countP_memberOccurrences {sort : Schema n → Bool}
    (h : ∀ schema : Schema n, sort schema = true → schema.isDefined = true) (scope : List String)
    (members : List (String × Schema n)) :
    (memberOccurrences scope members).countP (fun occurrence => sort occurrence.schema) =
      ((Schema.fieldPositions members).map (·.schema)).countP sort := by
  have hcounted : (memberOccurrences scope members).countP (fun occurrence => sort occurrence.schema) =
      ((memberOccurrences scope members).map Occurrence.schema).countP sort := by
    rw [List.countP_map]
    rfl
  rw [hcounted, map_schema_memberOccurrences, List.countP_filter]
  refine List.countP_congr fun schema _ => ?_
  rw [Bool.and_eq_true]
  exact and_iff_left_of_imp (h schema)

end Outline

end ProtoSchema
