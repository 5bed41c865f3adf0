import ProtoSchema.Proofs.Compile.Steps
import ProtoSchema.Session

/-!
# The shape of a compiled field

Whatever a schema is made of, it becomes a single field, under the key that it is compiled with. The
modifiers of the field follow from the layers that the schema begins with and from the two marks of
its place. So a sequence can always give its own key back to its element, whatever word the element
was compiled under, and a part of a map always is a single field. Main statement: this is the shape
of every field that is compiled in a session, and no field is both optional and repeated.
-/

namespace ProtoSchema

variable {n : Nat}

namespace Outline

/-- No field is both optional and repeated. -/
theorem not_optional_mem_and_repeated_mem (isOptional inArray : Bool) (schema : Schema n) :
    ¬(FieldDescriptor.optionalKeyword ∈ modifiers isOptional inArray schema ∧
      FieldDescriptor.repeatedKeyword ∈ modifiers isOptional inArray schema) := by
  have hkeywords : FieldDescriptor.optionalKeyword ≠ FieldDescriptor.repeatedKeyword := by decide
  rintro ⟨hoptional, hrepeated⟩
  unfold modifiers at hoptional hrepeated
  split at hoptional
  · exact hkeywords (List.eq_of_mem_replicate hoptional)
  · rename_i hsequence
    rw [if_neg hsequence] at hrepeated
    split at hoptional
    · cases hoptional
    · rename_i hmap
      rw [if_neg hmap] at hrepeated
      split at hoptional
      · rename_i hlayer
        rw [if_pos hlayer] at hrepeated
        exact hkeywords (List.mem_singleton.1 hrepeated).symm
      · cases hoptional

end Outline

namespace Compile

section Field

variable {shared : SharedCompiler n} {namer : Namer} {trail : List String} {place : Place}
  {schema : Schema n} {fields : List FieldDescriptor}

/-- A schema that compiles becomes the field of its outline and no other. -/
theorem eq_descriptor_of_ok (h : (field shared namer trail place schema).outcome = .ok fields) :
    fields = [Outline.descriptor namer place schema] := by
  rw [field_eq, Compilation.outcome_then_eq_ok_iff] at h
  exact (Except.ok.inj h.2).symm

/-- The single field of an element has the word that the element is compiled under for its name, so
that making it repeated gives it the key instead. -/
theorem map_asRepeated_of_ok (h : (field shared namer trail place schema).outcome = .ok fields)
    (key : String) :
    fields.map (·.asRepeated place.key key) =
      fields.map fun field =>
        { field with
          name := key
          modifiers := FieldDescriptor.repeatedKeyword :: field.modifiers } := by
  rw [eq_descriptor_of_ok h]
  simp [FieldDescriptor.asRepeated, Outline.descriptor]

/-- The fields of a part of a map are one, which is a type exactly if it has no modifiers. -/
theorem partType_of_ok (h : (field shared namer trail place schema).outcome = .ok fields) :
    fields.length = 1 ∧
      ((∃ type, (partType schema fields).outcome = .ok type) ↔
        ∀ field ∈ fields, field.modifiers = []) := by
  rw [eq_descriptor_of_ok h]
  obtain ⟨type, name, modifiers⟩ := Outline.descriptor namer place schema
  refine ⟨rfl, ?_⟩
  rw [List.forall_mem_singleton]
  cases modifiers with
  | nil => exact iff_of_true ⟨type, rfl⟩ rfl
  | cons first rest =>
    refine iff_of_false ?_ (List.cons_ne_nil first rest)
    rintro ⟨found, hfound⟩
    cases hfound

end Field

end Compile

namespace Session

/-- Where a schema compiles at a place in a session, it becomes exactly one field, which has the key
of the place for its name. If the schema is a sequence under its layers of optionality, the field is
repeated once for each sequence that the schema begins with; if it is a map, the field has no
modifiers; and otherwise the field is optional exactly if the place or a layer of the schema says so
and the place is not in a sequence. The field is never both optional and repeated. Wherever in a
compilation an element is compiled, and under whatever word, its fields are all renamed when they
are made repeated; and wherever a part of a map is compiled, it becomes one field, which is refused
exactly if it has modifiers. -/
theorem compileField_shape (session : Session n) (objects : Objects n) (namer : Namer) :
    (∀ place schema fields,
      (session.compileField objects namer place schema).outcome = .ok fields →
        ∃ field, fields = [field] ∧ field.name = place.key ∧
          (schema.strip.isSequence = true →
            field.modifiers =
              List.replicate (Outline.repetitions schema) FieldDescriptor.repeatedKeyword) ∧
          (schema.strip.isMap = true → field.modifiers = []) ∧
          (schema.strip.isSequence = false → schema.strip.isMap = false →
            field.modifiers =
              if (place.isOptional || schema.isWrapped) && !place.inArray then
                [FieldDescriptor.optionalKeyword]
              else []) ∧
          ¬(FieldDescriptor.optionalKeyword ∈ field.modifiers ∧
            FieldDescriptor.repeatedKeyword ∈ field.modifiers)) ∧
      (∀ (shared : Compile.SharedCompiler n) trail place element fields,
        (Compile.field shared namer trail place element).outcome = .ok fields →
          ∀ key, fields.map (·.asRepeated place.key key) =
            fields.map fun field =>
              { field with
                name := key
                modifiers := FieldDescriptor.repeatedKeyword :: field.modifiers }) ∧
      ∀ (shared : Compile.SharedCompiler n) trail place part fields,
        (Compile.field shared namer trail place part).outcome = .ok fields →
          fields.length = 1 ∧
            ((∃ type, (Compile.partType part fields).outcome = .ok type) ↔
              ∀ field ∈ fields, field.modifiers = []) := by
  refine ⟨?_, fun _ _ _ _ _ h key => Compile.map_asRepeated_of_ok h key,
    fun _ _ _ _ _ h => Compile.partType_of_ok h⟩
  intro place schema fields h
  refine ⟨Outline.descriptor namer place schema, Compile.eq_descriptor_of_ok h, rfl, ?_, ?_, ?_,
    Outline.not_optional_mem_and_repeated_mem place.isOptional place.inArray schema⟩
  · intro hsequence
    exact if_pos hsequence
  · intro hmap
    have hsequence : schema.strip.isSequence = false := by
      cases hstrip : schema.strip <;> rw [hstrip] at hmap <;> first | rfl | cases hmap
    simp [Outline.descriptor, Outline.modifiers, hsequence, hmap]
  · intro hsequence hmap
    simp [Outline.descriptor, Outline.modifiers, hsequence, hmap]

/-- The rows of a table under one more layer of optionality: sets that may be missing, of pairs. -/
def rows : Schema 0 :=
  .nullable (.array (.optional (.set (.nullable (.tuple [.optional .string, .number true])))))

/-- The rows become one field that is repeated twice, and a single row becomes an optional field. -/
theorem compileField_shape_rows :
    (∃ field, (({} : Session 0).compileField Schema.noObjects {} ⟨"rows", [], true, false⟩
          rows).outcome = .ok [field] ∧
        field.name = "rows" ∧ field.modifiers = ["repeated", "repeated"]) ∧
      ∃ field, (({} : Session 0).compileField Schema.noObjects {} ⟨"row", [], false, false⟩
          (.optional (.tuple [.optional .string, .number true]))).outcome = .ok [field] ∧
        field.name = "row" ∧ field.modifiers = ["optional"] := by
  obtain ⟨hshape, -, -⟩ := compileField_shape ({} : Session 0) Schema.noObjects {}
  constructor
  · obtain ⟨field, hfield, hname, hsequence, -⟩ := hshape ⟨"rows", [], true, false⟩ rows _ rfl
    exact ⟨field, hfield ▸ rfl, hname, hsequence rfl⟩
  · obtain ⟨field, hfield, hname, -, -, hplain, -⟩ := hshape ⟨"row", [], false, false⟩
      (.optional (.tuple [.optional .string, .number true])) _ rfl
    exact ⟨field, hfield ▸ rfl, hname, hplain rfl rfl⟩

end Session

end ProtoSchema
