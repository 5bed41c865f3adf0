import Mathlib.Data.List.Basic
import ProtoSchema.Proofs.Schema.Position

/-!
# What stands right inside a schema

The positions of a schema are those right inside it and those of what stands there. What stands in
a part of a schema stands in the schema, and every position is right inside some part. Only right
inside a map are there positions of map parts.
-/

namespace ProtoSchema.Schema

variable {n : Nat}

/-- The positions right inside a schema. -/
def directPositions : Schema n → List (Position n)
  | .object fields => fields.map fun field => ⟨field.2, false⟩
  | .array element => [⟨element, false⟩]
  | .set element => [⟨element, false⟩]
  | .tuple elements => elements.map (⟨·, false⟩)
  | .map key value => [⟨key, true⟩, ⟨value, true⟩]
  | .optional inner => [⟨inner, false⟩]
  | .nullable inner => [⟨inner, false⟩]
  | _ => []

/-- Whether the schema is a layer of optionality. -/
def isOptional : Schema n → Bool
  | .optional _ => true
  | _ => false

/-- What is not wrapped is no layer of optionality. -/
theorem isOptional_of_not_isWrapped {schema : Schema n} (h : schema.isWrapped = false) :
    schema.isOptional = false := by
  cases schema <;> first | rfl | cases h

section Direct

variable {schema : Schema n} {position : Position n}

/-- What stands right inside a schema is smaller. -/
theorem sizeOf_lt_of_mem_directPositions (h : position ∈ schema.directPositions) :
    sizeOf position.schema < sizeOf schema := by
  cases schema with
  | object fields =>
    obtain ⟨field, hfield, rfl⟩ := List.mem_map.1 h
    have hlt := List.sizeOf_lt_of_mem hfield
    obtain ⟨name, inner⟩ := field
    simp only [Schema.object.sizeOf_spec, Prod.mk.sizeOf_spec] at hlt ⊢
    omega
  | tuple elements =>
    obtain ⟨element, helement, rfl⟩ := List.mem_map.1 h
    have hlt := List.sizeOf_lt_of_mem helement
    simp only [Schema.tuple.sizeOf_spec]
    omega
  | map key value =>
    rcases List.mem_cons.1 h with rfl | hvalue
    · simp only [Schema.map.sizeOf_spec]
      omega
    · rw [List.mem_singleton.1 hvalue]
      simp only [Schema.map.sizeOf_spec]
      omega
  | array element =>
    rw [List.mem_singleton.1 h]
    simp only [Schema.array.sizeOf_spec]
    omega
  | set element =>
    rw [List.mem_singleton.1 h]
    simp only [Schema.set.sizeOf_spec]
    omega
  | optional inner =>
    rw [List.mem_singleton.1 h]
    simp only [Schema.optional.sizeOf_spec]
    omega
  | nullable inner =>
    rw [List.mem_singleton.1 h]
    simp only [Schema.nullable.sizeOf_spec]
    omega
  | _ => cases h

/-- The positions in the fields of an object are those inside the fields and the fields. -/
theorem mem_fieldPositions_iff {fields : List (String × Schema n)} :
    position ∈ fieldPositions fields ↔
      ∃ field ∈ fields, position ∈ field.2.positions ∨ position = ⟨field.2, false⟩ := by
  induction fields with
  | nil => simp [fieldPositions]
  | cons field rest ih =>
    obtain ⟨name, inner⟩ := field
    rw [fieldPositions, List.mem_append, List.mem_append, List.mem_singleton, ih,
      List.exists_mem_cons_iff]

/-- The positions in the elements of a tuple are those inside the elements and the elements. -/
theorem mem_elementPositions_iff {elements : List (Schema n)} :
    position ∈ elementPositions elements ↔
      ∃ element ∈ elements, position ∈ element.positions ∨ position = ⟨element, false⟩ := by
  induction elements with
  | nil => simp [elementPositions]
  | cons element rest ih =>
    rw [elementPositions, List.mem_append, List.mem_append, List.mem_singleton, ih,
      List.exists_mem_cons_iff]

/-- The positions of a schema are those inside what stands right in it and those of what does. -/
theorem mem_positions_iff :
    position ∈ schema.positions ↔
      ∃ direct ∈ schema.directPositions, position ∈ direct.schema.positions ∨ position = direct := by
  cases schema with
  | object fields =>
    simp only [positions, mem_fieldPositions_iff, directPositions, List.mem_map,
      exists_exists_and_eq_and]
  | tuple elements =>
    simp only [positions, mem_elementPositions_iff, directPositions, List.mem_map,
      exists_exists_and_eq_and]
  | map key value => simp [positions, directPositions, or_assoc]
  | _ => simp [positions, directPositions]

/-- A map alone has positions of map parts right inside it. -/
theorem exists_map_of_mem_directPositions (h : position ∈ schema.directPositions)
    (hpart : position.isMapPart = true) : ∃ key value, schema = .map key value := by
  cases schema with
  | map key value => exact ⟨key, value, rfl⟩
  | object fields =>
    obtain ⟨field, -, rfl⟩ := List.mem_map.1 h
    cases hpart
  | tuple elements =>
    obtain ⟨element, -, rfl⟩ := List.mem_map.1 h
    cases hpart
  | array element | set element | optional inner | nullable inner =>
    rw [List.mem_singleton.1 h] at hpart
    cases hpart
  | _ => cases h

end Direct

section Parts

variable {part inner : Schema n}

/-- A schema stands in itself. -/
theorem self_mem_subschemas (schema : Schema n) : schema ∈ schema.subschemas :=
  List.mem_cons_self

/-- What stands in something right inside a schema stands in the schema. -/
theorem subschemas_of_mem_directPositions {schema : Schema n} {direct : Position n}
    (hdirect : direct ∈ schema.directPositions) (h : part ∈ direct.schema.subschemas) :
    part ∈ schema.subschemas := by
  rcases List.mem_cons.1 h with rfl | hinside
  · exact List.mem_cons_of_mem _ (List.mem_map_of_mem
      (mem_positions_iff.2 ⟨direct, hdirect, .inr rfl⟩))
  · obtain ⟨position, hposition, rfl⟩ := List.mem_map.1 hinside
    exact List.mem_cons_of_mem _ (List.mem_map_of_mem
      (mem_positions_iff.2 ⟨direct, hdirect, .inl hposition⟩))

/-- What stands right in a schema stands in it. -/
theorem mem_subschemas_of_mem_directPositions {schema : Schema n} {isMapPart : Bool}
    (h : ⟨part, isMapPart⟩ ∈ schema.directPositions) : part ∈ schema.subschemas :=
  subschemas_of_mem_directPositions h (self_mem_subschemas part)

/-- What a field of an object holds stands in the object. -/
theorem mem_subschemas_of_mem_members {members : List (String × Schema n)}
    {member : String × Schema n} (h : member ∈ members) :
    member.2 ∈ (Schema.object members).subschemas := by
  have hdirect : ⟨member.2, false⟩ ∈ (Schema.object members).directPositions :=
    List.mem_map_of_mem h
  exact mem_subschemas_of_mem_directPositions hdirect

/-- What stands at the positions in the fields of an object is what stands in one of the fields. -/
theorem mem_map_fieldPositions_iff {members : List (String × Schema n)} :
    part ∈ (fieldPositions members).map (·.schema) ↔
      ∃ member ∈ members, part ∈ member.2.subschemas := by
  constructor
  · intro h
    obtain ⟨position, hposition, rfl⟩ := List.mem_map.1 h
    obtain ⟨member, hmember, hinside | rfl⟩ := mem_fieldPositions_iff.1 hposition
    · exact ⟨member, hmember, List.mem_cons_of_mem _ (List.mem_map_of_mem hinside)⟩
    · exact ⟨member, hmember, self_mem_subschemas _⟩
  · rintro ⟨member, hmember, hpart⟩
    rcases List.mem_cons.1 hpart with rfl | hinside
    · exact List.mem_map.2 ⟨_, mem_fieldPositions_iff.2 ⟨member, hmember, .inr rfl⟩, rfl⟩
    · obtain ⟨position, hposition, rfl⟩ := List.mem_map.1 hinside
      exact List.mem_map_of_mem
        (mem_fieldPositions_iff.2 ⟨member, hmember, .inl hposition⟩)

/-- What stands in a schema is the schema or stands in what is right inside it. -/
theorem mem_subschemas_iff {schema : Schema n} :
    part ∈ schema.subschemas ↔
      part = schema ∨ ∃ direct ∈ schema.directPositions, part ∈ direct.schema.subschemas := by
  constructor
  · intro h
    rcases List.mem_cons.1 h with rfl | hinside
    · exact .inl rfl
    · obtain ⟨position, hposition, rfl⟩ := List.mem_map.1 hinside
      obtain ⟨direct, hdirect, hdeeper | rfl⟩ := mem_positions_iff.1 hposition
      · exact .inr ⟨direct, hdirect, List.mem_cons_of_mem _ (List.mem_map_of_mem hdeeper)⟩
      · exact .inr ⟨position, hdirect, self_mem_subschemas _⟩
  · rintro (rfl | ⟨direct, hdirect, hpart⟩)
    · exact self_mem_subschemas part
    · exact subschemas_of_mem_directPositions hdirect hpart

/-- What stands in a part of a schema stands in the schema. -/
theorem mem_subschemas_trans {whole : Schema n} (hpart : part ∈ whole.subschemas)
    (hinner : inner ∈ part.subschemas) : inner ∈ whole.subschemas := by
  rcases mem_subschemas_iff.1 hpart with rfl | ⟨direct, hdirect, hinside⟩
  · exact hinner
  · exact subschemas_of_mem_directPositions hdirect (mem_subschemas_trans hinside hinner)
termination_by sizeOf whole
decreasing_by exact sizeOf_lt_of_mem_directPositions hdirect

/-- Every position of a schema is right inside something that stands in the schema. -/
theorem exists_part_of_mem_positions {whole : Schema n} {position : Position n}
    (h : position ∈ whole.positions) :
    ∃ part ∈ whole.subschemas, position ∈ part.directPositions := by
  obtain ⟨direct, hdirect, hinside | rfl⟩ := mem_positions_iff.1 h
  · obtain ⟨part, hpart, hposition⟩ := exists_part_of_mem_positions hinside
    exact ⟨part, subschemas_of_mem_directPositions hdirect hpart, hposition⟩
  · exact ⟨whole, self_mem_subschemas whole, hdirect⟩
termination_by sizeOf whole
decreasing_by exact sizeOf_lt_of_mem_directPositions hdirect

end Parts

end ProtoSchema.Schema
