import ProtoSchema.Proofs.Compile.Reference
import ProtoSchema.Proofs.Introspection.Derived
import ProtoSchema.Proofs.Inventory

/-!
# Presence of the fields of models

Two translations lie between the annotation of a field and the modifiers of its line: the one to a
schema, and the one of the schema to a field. What they come to can be read off the annotation. A
line is repeated as often as the annotation begins with a sequence or a set, and it is optional if
the field need not be given or may be null, unless it is a sequence, a set or a map. Main statement:
this holds in every message that is compiled for a model, the root or one that is reached from it,
and every object that is compiled is that of such a model.
-/

namespace ProtoSchema

open ProtoSchema.Introspection (Describes Meets Mentions StandsFor presence typeSchema)

namespace TypeForm

variable {k : Nat}

/-- Whether the annotation is that of a type or null, whatever its constraints are. -/
def isNullable : TypeForm k → Bool
  | .annotated inner _ => inner.isNullable
  | .union [first, second] => first.isNone != second.isNone
  | _ => false

mutual

/-- The number of sequences and sets that an annotation begins with, each an element of the one
before it. -/
def layers : TypeForm k → Nat
  | .annotated inner _ => inner.layers
  | .union members => unionLayers members
  | .generic type arguments =>
    match type.role with
    | .sequence => elementLayers arguments + 1
    | .set => elementLayers arguments + 1
    | .tuple => tupleLayers arguments
    | .dictionary => 0
    | .other => 0
  | _ => 0
termination_by structural form => form

/-- The sequences and sets that a union begins with: those of its only type beside null. -/
def unionLayers : List (TypeForm k) → Nat
  | [first, second] =>
    if first.isNone && !second.isNone then second.layers
    else if second.isNone && !first.isNone then first.layers
    else 0
  | _ => 0
termination_by structural members => members

/-- The sequences and sets that the first of some arguments begins with. -/
def elementLayers : List (TypeForm k) → Nat
  | [] => 0
  | first :: _ => first.layers
termination_by structural arguments => arguments

/-- The sequences and sets that a tuple begins with, which is a sequence itself if dots follow its
only type. -/
def tupleLayers : List (TypeForm k) → Nat
  | [first, .ellipsis] => first.layers + 1
  | _ => 0
termination_by structural arguments => arguments

end

end TypeForm

namespace ModelField

variable {k : Nat}

/-- Whether the type of the field is a type or null. -/
def isNullable (field : ModelField k) : Bool :=
  (field.form.map (·.isNullable)).getD false

/-- The number of sequences and sets that the type of the field begins with. -/
def layers (field : ModelField k) : Nat :=
  (field.form.map (·.layers)).getD 0

end ModelField

namespace Introspection

variable {k : Nat} {lookup : Fin k → Except SchemaError (Schema 0)}

/-- What is found for a plain class is neither wrapped nor a sequence. -/
theorem presence_plainSchema (type : PlainClass) (constraints : List Constraint) :
    (plainSchema type constraints).isWrapped = false ∧
      Outline.repetitions (plainSchema type constraints) = 0 := by
  unfold plainSchema
  cases type.lineage
  case integer => cases IntegerWidth.needs64 constraints <;> exact ⟨rfl, rfl⟩
  all_goals exact ⟨rfl, rfl⟩

/-- What is found for a leaf is wrapped and repeated as the leaf tells. -/
theorem presence_of_leaf {constraints : List Constraint} {form : TypeForm k} {schema : Schema 0}
    (h : leafSchema? constraints form = some schema) :
    schema.isWrapped = form.isNullable ∧ Outline.repetitions schema = form.layers := by
  cases form with
  | annotated inner more => cases h
  | model index => cases h
  | plain type =>
    cases h
    exact presence_plainSchema type constraints
  | union members =>
    match members with
    | [] | [_] | _ :: _ :: _ :: _ =>
      cases h
      exact ⟨rfl, rfl⟩
    | [first, second] =>
      rw [leafSchema?] at h
      split at h
      · rename_i hsame
        cases h
        rw [TypeForm.isNullable, TypeForm.layers, TypeForm.unionLayers, hsame]
        cases second.isNone <;> exact ⟨rfl, rfl⟩
      · cases h
  | generic type arguments =>
    rw [leafSchema?] at h
    rw [TypeForm.layers]
    cases hrole : type.role <;> rw [hrole] at h
    case dictionary =>
      dsimp only at h
      split at h
      · cases h
      · cases h
        exact ⟨rfl, rfl⟩
    case other =>
      cases h
      exact ⟨rfl, rfl⟩
    all_goals
      cases arguments with
      | nil =>
        cases h
        exact ⟨rfl, rfl⟩
      | cons first rest => cases h
  | _ =>
    cases h
    exact ⟨rfl, rfl⟩

/-- A tuple whose only type is not followed by dots is no sequence. -/
theorem tupleLayers_cons (first : TypeForm k) {rest : List (TypeForm k)} (h : rest ≠ [.ellipsis]) :
    TypeForm.tupleLayers (first :: rest) = 0 := by
  rw [TypeForm.tupleLayers]
  exact fun _ hdots => h (List.cons.inj hdots).2

/-- The schema that an annotation describes is wrapped and repeated as the annotation tells. -/
theorem Describes.presence {constraints : List Constraint} {form : TypeForm k} {schema : Schema 0}
    (hobject : ∀ index found, lookup index = .ok found → ∃ members, found = .object members)
    (h : Describes lookup constraints form schema) :
    schema.isWrapped = form.isNullable ∧ Outline.repetitions schema = form.layers := by
  induction h with
  | leaf hleaf => exact presence_of_leaf hleaf
  | model hlookup =>
    obtain ⟨members, rfl⟩ := hobject _ _ hlookup
    exact ⟨rfl, rfl⟩
  | annotated _ ih => exact ih
  | firstOrNull hfirst hsecond _ ih =>
    rw [TypeForm.isNullable, TypeForm.layers, TypeForm.unionLayers, hfirst, hsecond]
    exact ⟨rfl, ih.2⟩
  | nullOrSecond hfirst hsecond _ ih =>
    rw [TypeForm.isNullable, TypeForm.layers, TypeForm.unionLayers, hfirst, hsecond]
    exact ⟨rfl, ih.2⟩
  | sequence hrole _ ih =>
    rw [TypeForm.layers, hrole]
    exact ⟨rfl, congrArg (· + 1) ih.2⟩
  | set hrole _ ih =>
    rw [TypeForm.layers, hrole]
    exact ⟨rfl, congrArg (· + 1) ih.2⟩
  | variadic hrole _ ih =>
    rw [TypeForm.layers, hrole]
    exact ⟨rfl, congrArg (· + 1) ih.2⟩
  | tuple hrole hdots _ _ _ =>
    rw [TypeForm.layers, hrole]
    exact ⟨rfl, (tupleLayers_cons _ hdots).symm⟩
  | dictionary hrole _ _ _ _ =>
    rw [TypeForm.layers, hrole]
    exact ⟨rfl, rfl⟩

/-- The schema that is found for a field is wrapped and repeated as the field tells. -/
theorem presence_of_typeSchema {field : ModelField k} {schema : Schema 0}
    (hobject : ∀ index found, lookup index = .ok found → ∃ members, found = .object members)
    (h : typeSchema lookup field = .ok schema) :
    schema.isWrapped = field.isNullable ∧ Outline.repetitions schema = field.layers := by
  rw [ModelField.isNullable, ModelField.layers]
  rcases typeSchema_eq_ok_iff.1 h with ⟨hform, rfl⟩ | ⟨form, hform, hdescribes⟩
  · rw [hform]
    exact ⟨rfl, rfl⟩
  · rw [hform]
    exact hdescribes.presence hobject

end Introspection

namespace Outline

variable {n : Nat} {schema : Schema n}

/-- A field of an object is repeated once for each sequence that its schema begins with. -/
theorem count_repeated (schema : Schema n) :
    (modifiers false false schema).count FieldDescriptor.repeatedKeyword = repetitions schema := by
  unfold modifiers
  cases hsequence : schema.strip.isSequence with
  | true => exact List.count_replicate_self
  | false =>
    rw [repetitions_of_not_isSequence hsequence]
    cases schema.strip.isMap <;> cases schema.isWrapped <;> rfl

/-- A field of an object is optional exactly if its schema is wrapped, and neither a sequence nor a
map under its layers of optionality. -/
theorem optional_mem_modifiers_iff :
    FieldDescriptor.optionalKeyword ∈ modifiers false false schema ↔
      schema.isWrapped = true ∧ schema.strip.isSequence = false ∧ schema.strip.isMap = false := by
  have hkeywords : FieldDescriptor.optionalKeyword ≠ FieldDescriptor.repeatedKeyword := by decide
  unfold modifiers
  cases schema.strip.isSequence <;> cases schema.strip.isMap <;> cases schema.isWrapped <;>
    simp [hkeywords]

/-- No field of an object is both optional and repeated. -/
theorem not_optional_and_repeated :
    ¬(FieldDescriptor.optionalKeyword ∈ modifiers false false schema ∧
      FieldDescriptor.repeatedKeyword ∈ modifiers false false schema) := by
  rintro ⟨hoptional, hrepeated⟩
  obtain ⟨-, hsequence, -⟩ := optional_mem_modifiers_iff.1 hoptional
  have hcount := List.count_pos_iff.2 hrepeated
  rw [count_repeated, repetitions_of_not_isSequence hsequence] at hcount
  exact absurd hcount (Nat.lt_irrefl 0)

end Outline

section Fields

variable {k : Nat} {family : Family k}

/-- A numbered field declares a field of a model as it is present there. -/
structure Presents (family : Family k) (declared : String × ModelField k)
    (numbered : NumberedField) : Prop where
  /-- It has the name of the field. -/
  name : numbered.field.name = declared.1
  /-- It is optional exactly if the field need not be given or may be null, and the schema of the
  field is no sequence, set or map under its layers of optionality. -/
  optional : ∃ schema, typeSchema (modelSchema family) declared.2 = .ok schema ∧
    (FieldDescriptor.optionalKeyword ∈ numbered.field.modifiers ↔
      (declared.2.required = false ∨ declared.2.isNullable = true) ∧
        (presence declared.2.required schema).strip.isSequence = false ∧
          (presence declared.2.required schema).strip.isMap = false)
  /-- It is repeated as often as the annotation begins with a sequence or a set. -/
  repeated : numbered.field.modifiers.count FieldDescriptor.repeatedKeyword = declared.2.layers
  /-- It is never both optional and repeated. -/
  exclusive : ¬(FieldDescriptor.optionalKeyword ∈ numbered.field.modifiers ∧
    FieldDescriptor.repeatedKeyword ∈ numbered.field.modifiers)

/-- The fields of a message declare the fields of a model: one for each, in order, and numbered from
one. -/
structure PresentsModel (family : Family k) (index : Fin k) (fields : List NumberedField) :
    Prop where
  /-- The numbers run from one. -/
  numbers : fields.map (·.number) = List.range' 1 (family index).fields.length
  /-- Each field declares the field of the model in its place. -/
  presents : List.Forall₂ (Presents family) (family index).fields fields

/-- A schema with a layer of optionality for its field is wrapped if the field need not be given or
the schema is wrapped already. -/
theorem isWrapped_presence (required : Bool) (schema : Schema 0) :
    (presence required schema).isWrapped = true ↔ required = false ∨ schema.isWrapped = true := by
  have hlayer : (Schema.optional schema).isWrapped = true := rfl
  unfold presence
  cases required <;> cases hwrapped : schema.isWrapped <;> simp [hwrapped, hlayer]

/-- The layer of optionality of a field adds no sequence. -/
theorem repetitions_presence (required : Bool) (schema : Schema 0) :
    Outline.repetitions (presence required schema) = Outline.repetitions schema := by
  unfold presence
  split <;> rfl

/-- A field of an object that stands for a field of a model declares it. -/
theorem presents_of_standsFor {declared : String × ModelField k} {member : String × Schema 0}
    (h : StandsFor (modelSchema family) declared member) (namer : Namer) (scope : List String)
    (number : Nat) :
    Presents family declared
      ⟨Outline.descriptor namer ⟨member.1, scope, false, false⟩ member.2, number⟩ := by
  obtain ⟨schema, hschema, rfl⟩ := h
  obtain ⟨hwrapped, hrepetitions⟩ := Introspection.presence_of_typeSchema (fun index found hfound => by
    obtain ⟨members, hmembers, -⟩ := Introspection.exists_members_of_ok hfound
    exact ⟨members, hmembers⟩) hschema
  refine ⟨rfl, ⟨schema, hschema, ?_⟩, ?_, Outline.not_optional_and_repeated⟩
  · rw [← hwrapped, ← isWrapped_presence]
    exact Outline.optional_mem_modifiers_iff
  · rw [← hrepetitions, ← repetitions_presence declared.2.required]
    exact Outline.count_repeated _

/-- The fields of an object that stand for fields of a model declare them, whatever their numbers. -/
theorem forall₂_presents {fields : List (String × ModelField k)}
    {members : List (String × Schema 0)}
    (h : List.Forall₂ (StandsFor (modelSchema family)) fields members) (namer : Namer)
    (scope : List String) (start : Nat) :
    List.Forall₂ (Presents family) fields
      (NumberedField.consecutive start (Outline.objectFields namer scope members)) := by
  induction h generalizing start with
  | nil => exact .nil
  | cons hfirst _ ih => exact .cons (presents_of_standsFor hfirst namer scope start) (ih (start + 1))

/-- The fields of the object of a model declare the fields of the model, whatever the scope is. -/
theorem presentsModel_of_model {index : Fin k} {members : List (String × Schema 0)}
    (h : modelSchema family index = .ok (.object members)) (namer : Namer) (scope : List String) :
    PresentsModel family index
      (NumberedField.consecutive 1 (Outline.objectFields namer scope members)) := by
  obtain ⟨found, hfound, hfields⟩ := Introspection.exists_members_of_ok h
  cases hfound
  have hstands := Introspection.fieldSchemas_eq_ok_iff.1 hfields
  refine ⟨?_, forall₂_presents hstands namer scope 1⟩
  rw [NumberedField.map_number_consecutive, Outline.objectFields, List.length_map,
    hstands.length_eq]

end Fields

namespace Introspection

variable {k : Nat} {lookup : Fin k → Except SchemaError (Schema 0)} {family : Family k}

/-- A leaf leads to no model. -/
theorem not_meets_of_leaf {constraints : List Constraint} {form : TypeForm k} {schema : Schema 0}
    (h : leafSchema? constraints form = some schema) (index : Fin k) : ¬ Meets form index := by
  intro hmeets
  cases hmeets with
  | model => cases h
  | annotated _ => cases h
  | firstOrNull hfirst hsecond _ =>
    rw [leafSchema?, hfirst, hsecond] at h
    cases h
  | nullOrSecond hfirst hsecond _ =>
    rw [leafSchema?, hfirst, hsecond] at h
    cases h
  | sequence hrole _ =>
    rw [leafSchema?, hrole] at h
    cases h
  | set hrole _ =>
    rw [leafSchema?, hrole] at h
    cases h
  | tuple hrole hmem _ =>
    obtain ⟨first, rest, rfl⟩ := List.exists_cons_of_ne_nil (List.ne_nil_of_mem hmem)
    rw [leafSchema?, hrole] at h
    cases h
  | dictionaryKey hrole _ =>
    rw [leafSchema?, hrole] at h
    cases h
  | dictionaryValue hrole _ =>
    rw [leafSchema?, hrole] at h
    cases h

/-- The schema of a model that an annotation leads to stands in the schema that it describes. -/
theorem Describes.fromModel {constraints : List Constraint} {form : TypeForm k} {schema : Schema 0}
    (h : Describes lookup constraints form schema) {index : Fin k} (hmeets : Meets form index) :
    ∃ found, lookup index = .ok found ∧ found ∈ schema.subschemas := by
  induction h with
  | leaf hleaf => exact absurd hmeets (not_meets_of_leaf hleaf index)
  | @model _ _ schema hlookup =>
    cases hmeets
    exact ⟨schema, hlookup, Schema.self_mem_subschemas schema⟩
  | annotated _ ih =>
    cases hmeets with
    | annotated hinner => exact ih hinner
  | firstOrNull hfirst hsecond _ ih =>
    obtain ⟨found, hfound, hpart⟩ := ih ((meets_union_firstOrNull hfirst hsecond).1 hmeets)
    exact ⟨found, hfound, Schema.subschemas_of_mem_directPositions List.mem_cons_self hpart⟩
  | nullOrSecond hfirst hsecond _ ih =>
    obtain ⟨found, hfound, hpart⟩ := ih ((meets_union_nullOrSecond hfirst hsecond).1 hmeets)
    exact ⟨found, hfound, Schema.subschemas_of_mem_directPositions List.mem_cons_self hpart⟩
  | sequence hrole _ ih =>
    rw [meets_generic_iff, hrole] at hmeets
    obtain ⟨form, hform, hinner⟩ := hmeets
    rw [List.mem_singleton.1 hform] at hinner
    obtain ⟨found, hfound, hpart⟩ := ih hinner
    exact ⟨found, hfound, Schema.subschemas_of_mem_directPositions List.mem_cons_self hpart⟩
  | set hrole _ ih =>
    rw [meets_generic_iff, hrole] at hmeets
    obtain ⟨form, hform, hinner⟩ := hmeets
    rw [List.mem_singleton.1 hform] at hinner
    obtain ⟨found, hfound, hpart⟩ := ih hinner
    exact ⟨found, hfound, Schema.subschemas_of_mem_directPositions List.mem_cons_self hpart⟩
  | variadic hrole _ ih =>
    rw [meets_generic_iff, hrole] at hmeets
    rcases meetsAny_cons.1 hmeets with hfirst | ⟨form, hform, hdots⟩
    · obtain ⟨found, hfound, hpart⟩ := ih hfirst
      exact ⟨found, hfound, Schema.subschemas_of_mem_directPositions List.mem_cons_self hpart⟩
    · rw [List.mem_singleton.1 hform] at hdots
      cases hdots
  | tuple hrole _ hlength _ ih =>
    rw [meets_generic_iff, hrole] at hmeets
    obtain ⟨element, helement, hinner⟩ := hmeets
    rw [← List.map_fst_zip hlength.le] at helement
    obtain ⟨⟨_, schema⟩, hzip, rfl⟩ := List.mem_map.1 helement
    obtain ⟨found, hfound, hpart⟩ := ih _ schema hzip hinner
    exact ⟨found, hfound, Schema.subschemas_of_mem_directPositions
      (List.mem_map_of_mem (List.of_mem_zip hzip).2) hpart⟩
  | dictionary hrole _ _ ihkey ihvalue =>
    rw [meets_generic_iff, hrole] at hmeets
    rcases meetsAny_cons.1 hmeets.2 with hkey | ⟨form, hform, hvalue⟩
    · obtain ⟨found, hfound, hpart⟩ := ihkey hkey
      exact ⟨found, hfound, Schema.subschemas_of_mem_directPositions List.mem_cons_self hpart⟩
    · rw [List.mem_singleton.1 hform] at hvalue
      obtain ⟨found, hfound, hpart⟩ := ihvalue hvalue
      exact ⟨found, hfound, Schema.subschemas_of_mem_directPositions
        (List.mem_cons_of_mem _ List.mem_cons_self) hpart⟩

/-- A field that is found for a model is there for every field of the model. -/
theorem exists_member_of_mem {fields : List (String × ModelField k)}
    {members : List (String × Schema 0)} (h : fieldSchemas lookup fields = .ok members)
    {declared : String × ModelField k} (hdeclared : declared ∈ fields) :
    ∃ member ∈ members, StandsFor lookup declared member := by
  induction fieldSchemas_eq_ok_iff.1 h with
  | nil => cases hdeclared
  | cons hfirst hrest ih =>
    rcases List.mem_cons.1 hdeclared with rfl | hlater
    · exact ⟨_, List.mem_cons_self, hfirst⟩
    · obtain ⟨member, hmember, hstands⟩ := ih (fieldSchemas_eq_ok_iff.2 hrest) hlater
      exact ⟨member, List.mem_cons_of_mem _ hmember, hstands⟩

/-- What stands in the schema of a type stands in it with a layer of optionality, too. -/
theorem mem_presence {required : Bool} {part schema : Schema 0} (h : part ∈ schema.subschemas) :
    part ∈ (presence required schema).subschemas := by
  unfold presence
  split
  · exact h
  · exact Schema.subschemas_of_mem_directPositions List.mem_cons_self h

/-- The object of a model that a model refers to stands in one of the fields of the object. -/
theorem object_mem_of_mentions {i j : Fin k} {members : List (String × Schema 0)}
    (h : modelSchema family i = .ok (.object members)) (hmentions : Mentions family i j) :
    ∃ inner, modelSchema family j = .ok (.object inner) ∧
      ∃ member ∈ members, .object inner ∈ member.2.subschemas := by
  obtain ⟨found, hfound, hfields⟩ := exists_members_of_ok h
  cases hfound
  obtain ⟨name, field, form, hfield, hform, hmeets⟩ := hmentions
  obtain ⟨member, hmember, schema, hschema, rfl⟩ := exists_member_of_mem hfields hfield
  rcases typeSchema_eq_ok_iff.1 hschema with ⟨hnone, -⟩ | ⟨other, hother, hdescribes⟩
  · rw [hform] at hnone
    cases hnone
  · rw [hform] at hother
    cases hother
    obtain ⟨found, hfound, hpart⟩ := hdescribes.fromModel hmeets
    obtain ⟨inner, rfl, -⟩ := exists_members_of_ok hfound
    exact ⟨inner, hfound, _, hmember, mem_presence hpart⟩

end Introspection

open Introspection (exists_members_of_ok object_mem_of_mentions)

variable {k : Nat} {family : Family k}

/-- The object of a model that is reached occurs in the fields of the object where it starts. -/
theorem exists_occurrence_of_reached {start i : Fin k} {members : List (String × Schema 0)}
    (h : modelSchema family start = .ok (.object members))
    (hreached : Relation.TransGen (Mentions family) start i) (scope : List String) :
    ∃ inner, modelSchema family i = .ok (.object inner) ∧
      ∃ place, Outline.Occurrence.object place inner ∈ Outline.memberOccurrences scope members := by
  simp only [Outline.exists_object_iff]
  induction hreached with
  | single hmentions => exact object_mem_of_mentions h hmentions
  | tail _ hmentions ih =>
    obtain ⟨between, hbetween, outer, houter, haround⟩ := ih
    obtain ⟨inner, hinner, member, hmember, hpart⟩ := object_mem_of_mentions hbetween hmentions
    refine ⟨inner, hinner, outer, houter, Schema.mem_subschemas_trans haround ?_⟩
    exact Schema.subschemas_of_mem_directPositions (List.mem_map_of_mem hmember) hpart

namespace Source

/-- Presence of model fields is carried to the document. Where a model has a document, every model
that is reached from it has an object, which is the root or occurs in its fields, and every object
that occurs there is that of a model that is reached. In the root message and in every message that
is made of such an object, the lines declare the fields of the model, one for each and in order: a
line is optional exactly if the field need not be given or may be null, and its schema is no
sequence, set or map under its layers of optionality; it is repeated as often as the annotation
begins with a sequence or a set; and it is never both. -/
theorem presence_of_models (family : Family k) (start : Fin k) (options : Options) {text : String}
    (h : ((Source.model family start).generate options).document = .ok text) :
    ∃ members, modelSchema family start = .ok (.object members) ∧
      ((Source.model family start).generate options).definitions =
        Definitions.ofList (Outline.definitions options members) ∧
      (∃ fields, fields = NumberedField.consecutive 1
            (Outline.objectFields options.namer [] members) ∧
          Outline.rootLines options members = fields.map (·.line) ∧
            PresentsModel family start fields) ∧
      (∀ place inner, .object place inner ∈ Outline.memberOccurrences [] members →
        ∃ i, Relation.ReflTransGen (Mentions family) start i ∧
          modelSchema family i = .ok (.object inner)) ∧
      ∀ i, Relation.ReflTransGen (Mentions family) start i →
        ∃ inner, modelSchema family i = .ok (.object inner) ∧
          (i = start ∨ ∃ place, .object place inner ∈ Outline.memberOccurrences [] members) ∧
          ∀ place, .object place inner ∈ Outline.memberOccurrences [] members →
            ∃ name fields, fields = NumberedField.consecutive 1
                  (Outline.objectFields options.namer place.inner inner) ∧
                (Outline.Occurrence.object place inner).definition options.namer =
                  .message name (fields.map (·.line)) ∧ PresentsModel family i fields := by
  cases hmodel : modelSchema family start with
  | error cause =>
    rw [generate, graph, hmodel] at h
    cases h
  | ok schema =>
    obtain ⟨members, rfl, -⟩ := exists_members_of_ok hmodel
    rw [generate_of_model hmodel] at h ⊢
    obtain ⟨other, hother, hdefinitions⟩ := Generation.definitions_tree h
    cases hother
    refine ⟨members, rfl, hdefinitions,
      ⟨_, rfl, rfl, presentsModel_of_model hmodel options.namer []⟩, ?_, ?_⟩
    · intro place inner hoccurs
      obtain ⟨member, hmember, hpart⟩ := Outline.exists_object_iff.1 ⟨place, hoccurs⟩
      have hinside : .object inner ∈ (Schema.object members).subschemas :=
        Schema.subschemas_of_mem_directPositions (List.mem_map_of_mem hmember) hpart
      cases Introspection.arises_of_model hmodel _ hinside with
      | model hreached hfound => exact ⟨_, hreached, hfound⟩
      | bare hbare => cases hbare.notObject
    · intro i hreached
      obtain ⟨inner, hinner, hoccurs⟩ : ∃ inner, modelSchema family i = .ok (.object inner) ∧
          (i = start ∨ ∃ place, .object place inner ∈ Outline.memberOccurrences [] members) := by
        rcases Relation.reflTransGen_iff_eq_or_transGen.1 hreached with rfl | hproper
        · exact ⟨members, hmodel, .inl rfl⟩
        · obtain ⟨inner, hinner, hplace⟩ := exists_occurrence_of_reached hmodel hproper []
          exact ⟨inner, hinner, .inr hplace⟩
      exact ⟨inner, hinner, hoccurs, fun place _ => ⟨_, _, rfl, rfl,
        presentsModel_of_model hinner options.namer place.inner⟩⟩

/-- Two models, the first of which has fields of the second one and of sequences of it. -/
def order : Family 2 :=
  let person : TypeForm 2 := .model ⟨1, Nat.one_lt_two⟩
  let list (element : TypeForm 2) : TypeForm 2 := .generic ⟨"list", .concrete, .sequence⟩ [element]
  let text : TypeForm 2 := .plain ⟨"str", .text, true⟩
  fun index =>
    if index.val = 0 then
      ⟨"Order", [("number", { form := some (.plain ⟨"int", .integer, true⟩) }),
        ("note", { form := some (.annotated (.union [text, .none]) []) }),
        ("buyer", { required := false, form := some person }),
        ("payers", { required := false,
                     form := some (.union [.none, list (list (.union [person, .none]))]) }),
        ("prices", { required := false,
                     form := some (.generic ⟨"dict", .concrete, .dictionary⟩ [text, person]) })],
        false⟩
    else ⟨"Person", [("name", { required := false, form := some text })], false⟩

/-- The fields of the object of the first model. -/
def orderMembers : List (String × Schema 0) :=
  let person : Schema 0 := .object [("name", .optional .string)]
  [("number", .number true), ("note", .nullable .string), ("buyer", .optional person),
    ("payers", .nullable (.array (.array (.nullable person)))),
    ("prices", .optional (.map .string person))]

/-- The first model has an object with these fields, and the second one an object with one field. -/
theorem modelSchema_order :
    modelSchema order 0 = .ok (.object orderMembers) ∧
      modelSchema order 1 = .ok (.object [("name", .optional .string)]) := by
  have hdepth : Visit.unvisited ([] : List (Fin 2)) < 3 := by decide
  simp only [modelSchema, ← Introspection.modelWithin_eq (fun _ _ => .ok .string) hdepth]
  exact ⟨rfl, rfl⟩

/-- The lines of the two models declare their fields. -/
theorem presence_of_models_order :
    (∃ text, ((Source.model order 0).generate {}).document = .ok text) ∧
      (∃ fields, fields.map (·.line) = ["int32 number = 1;", "optional string note = 2;",
          "optional Buyer buyer = 3;", "repeated repeated Payer payers = 4;",
          "map<string, PricesValue> prices = 5;"] ∧ PresentsModel order 0 fields) ∧
      ∃ fields, fields.map (·.line) = ["optional string name = 1;"] ∧
        PresentsModel order 1 fields := by
  have hdocument : ∃ text, ((Source.model order 0).generate {}).document = .ok text := by
    rw [generate_of_model modelSchema_order.1]
    exact ⟨_, rfl⟩
  obtain ⟨text, htext⟩ := hdocument
  obtain ⟨members, hmembers, -, ⟨fields, rfl, -, hpresents⟩, -, hreached⟩ :=
    presence_of_models order 0 {} htext
  rw [modelSchema_order.1] at hmembers
  cases hmembers
  have hmentions : Mentions order 0 1 :=
    ⟨"buyer", _, .model 1, List.mem_cons_of_mem _ (List.mem_cons_of_mem _ List.mem_cons_self), rfl,
      .model 1⟩
  obtain ⟨inner, hinner, hoccurs | ⟨place, hplace⟩, hmessages⟩ := hreached 1 (.single hmentions)
  · cases hoccurs
  · obtain ⟨name, fields, rfl, -, hperson⟩ := hmessages place hplace
    rw [modelSchema_order.2] at hinner
    cases hinner
    -- the field has no definition of its own, so that it does not matter where the object stands
    have hfields : Outline.objectFields ({} : Options).namer place.inner
        [("name", (.optional .string : Schema 0))] = [⟨.scalar .string, "name", ["optional"]⟩] := rfl
    rw [hfields] at hperson
    exact ⟨⟨text, htext⟩, ⟨_, by decide, hpresents⟩, ⟨_, by decide, hperson⟩⟩

end Source

end ProtoSchema
