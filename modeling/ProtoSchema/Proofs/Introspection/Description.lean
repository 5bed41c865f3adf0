import Mathlib.Data.List.Forall2
import ProtoSchema.Proofs.Introspection.Cycles
import ProtoSchema.Proofs.Fallible

/-!
# What an annotation describes

An annotation describes a schema, given the schemas that are looked up for the models: layer by
layer, the schema follows from the form of the annotation. Finding the schema of an annotation
succeeds exactly with the schema that the annotation describes. What is found once stays found if
more models can be looked up, so that the schema of a model that is reached from others is the one
that is found for the model alone, and its fields are described by the schemas of other models.
-/

namespace ProtoSchema

open ProtoSchema.Visit (unvisited)

namespace Introspection

variable {k : Nat}

/-- The schema of an annotation that is found without that of another, if the annotation leads to
no other. -/
def leafSchema? (constraints : List Constraint) : TypeForm k → Option (Schema 0)
  | .annotated _ _ => none
  | .any => some (.unknown "Any")
  | .none => some (.unknown nullKind)
  | .nullValue => some (.unknown "None")
  | .ellipsis => some (.unknown "Ellipsis")
  | .plain type => some (plainSchema type constraints)
  | .enumeration type => some (.enumeration (type.members.map .text))
  | .model _ => none
  | .literal options => some (.enumeration options)
  | .union [first, second] =>
    if first.isNone = second.isNone then some (.unknown "Union") else none
  | .union _ => some (.unknown "Union")
  | .generic type arguments =>
    match type.role with
    | .sequence => if arguments.isEmpty then some (.array (.unknown "Any")) else none
    | .set => if arguments.isEmpty then some (.set (.unknown "Any")) else none
    | .tuple => if arguments.isEmpty then some (.unknown "tuple") else none
    | .dictionary => if arguments.length = 2 then none else some (.unknown "dict")
    | .other => some (.unknown type.name)
  | .named name _ => some (.unknown name)

/-- What schema an annotation with constraints describes, given the schemas of the models. -/
inductive Describes (lookup : Fin k → Except SchemaError (Schema 0)) :
    List Constraint → TypeForm k → Schema 0 → Prop where
  | leaf {constraints : List Constraint} {form : TypeForm k} {schema : Schema 0} :
    leafSchema? constraints form = some schema → Describes lookup constraints form schema
  | model {constraints : List Constraint} {index : Fin k} {schema : Schema 0} :
    lookup index = .ok schema → Describes lookup constraints (.model index) schema
  | annotated {constraints more : List Constraint} {inner : TypeForm k} {schema : Schema 0} :
    Describes lookup (constraints ++ more) inner schema →
    Describes lookup constraints (.annotated inner more) schema
  | firstOrNull {constraints : List Constraint} {first second : TypeForm k} {schema : Schema 0} :
    first.isNone = false → second.isNone = true → Describes lookup constraints first schema →
    Describes lookup constraints (.union [first, second]) (.nullable schema)
  | nullOrSecond {constraints : List Constraint} {first second : TypeForm k} {schema : Schema 0} :
    first.isNone = true → second.isNone = false → Describes lookup constraints second schema →
    Describes lookup constraints (.union [first, second]) (.nullable schema)
  | sequence {constraints : List Constraint} {type : Generic} {first : TypeForm k}
    {rest : List (TypeForm k)} {schema : Schema 0} :
    type.role = .sequence → Describes lookup [] first schema →
    Describes lookup constraints (.generic type (first :: rest)) (.array schema)
  | set {constraints : List Constraint} {type : Generic} {first : TypeForm k}
    {rest : List (TypeForm k)} {schema : Schema 0} :
    type.role = .set → Describes lookup [] first schema →
    Describes lookup constraints (.generic type (first :: rest)) (.set schema)
  | variadic {constraints : List Constraint} {type : Generic} {first : TypeForm k}
    {schema : Schema 0} :
    type.role = .tuple → Describes lookup [] first schema →
    Describes lookup constraints (.generic type [first, .ellipsis]) (.array schema)
  | tuple {constraints : List Constraint} {type : Generic} {first : TypeForm k}
    {rest : List (TypeForm k)} {schemas : List (Schema 0)} :
    type.role = .tuple → rest ≠ [.ellipsis] → (first :: rest).length = schemas.length →
    (∀ element schema, (element, schema) ∈ (first :: rest).zip schemas →
      Describes lookup [] element schema) →
    Describes lookup constraints (.generic type (first :: rest)) (.tuple schemas)
  | dictionary {constraints : List Constraint} {type : Generic} {key value : TypeForm k}
    {keySchema valueSchema : Schema 0} :
    type.role = .dictionary → Describes lookup [] key keySchema →
    Describes lookup [] value valueSchema →
    Describes lookup constraints (.generic type [key, value]) (.map keySchema valueSchema)

section Found

variable {lookup : Fin k → Except SchemaError (Schema 0)}

mutual

/-- The schema that is found for an annotation is the one that the annotation describes. -/
theorem describes_of_formSchema {constraints : List Constraint} : ∀ (form : TypeForm k)
    {schema : Schema 0}, formSchema lookup constraints form = .ok schema →
      Describes lookup constraints form schema
  | .annotated inner _, _, h => .annotated (describes_of_formSchema inner h)
  | .any, _, h => by cases h; exact .leaf rfl
  | .none, _, h => by cases h; exact .leaf rfl
  | .nullValue, _, h => by cases h; exact .leaf rfl
  | .ellipsis, _, h => by cases h; exact .leaf rfl
  | .plain _, _, h => by cases h; exact .leaf rfl
  | .enumeration _, _, h => by cases h; exact .leaf rfl
  | .model _, _, h => .model h
  | .literal _, _, h => by cases h; exact .leaf rfl
  | .union members, _, h => describes_of_unionSchema members h
  | .generic type arguments, _, h => by
    rw [formSchema] at h
    cases hrole : type.role with
    | sequence =>
      rw [hrole] at h
      obtain ⟨element, helement, hschema⟩ := bind_eq_ok_iff.1 h
      cases hschema
      rcases describes_of_elementSchema arguments helement with ⟨rfl, rfl⟩ | ⟨first, rest, rfl, hfirst⟩
      · exact .leaf (by rw [leafSchema?, hrole]; rfl)
      · exact .sequence hrole hfirst
    | set =>
      rw [hrole] at h
      obtain ⟨element, helement, hschema⟩ := bind_eq_ok_iff.1 h
      cases hschema
      rcases describes_of_elementSchema arguments helement with ⟨rfl, rfl⟩ | ⟨first, rest, rfl, hfirst⟩
      · exact .leaf (by rw [leafSchema?, hrole]; rfl)
      · exact .set hrole hfirst
    | tuple =>
      rw [hrole] at h
      exact describes_of_tupleSchema hrole arguments h
    | dictionary =>
      rw [hrole] at h
      exact describes_of_dictionarySchema hrole arguments h
    | other =>
      rw [hrole] at h
      cases h
      exact .leaf (by rw [leafSchema?, hrole])
  | .named _ _, _, h => by cases h; exact .leaf rfl
termination_by structural form => form

theorem describes_of_unionSchema {constraints : List Constraint} : ∀ (members : List (TypeForm k))
    {schema : Schema 0}, unionSchema lookup constraints members = .ok schema →
      Describes lookup constraints (.union members) schema
  | [], _, h => by cases h; exact .leaf rfl
  | [_], _, h => by cases h; exact .leaf rfl
  | _ :: _ :: _ :: _, _, h => by cases h; exact .leaf rfl
  | [first, second], _, h => by
    rw [unionSchema] at h
    cases hfirst : first.isNone <;> cases hsecond : second.isNone <;> rw [hfirst, hsecond] at h
    · cases h
      exact .leaf (by rw [leafSchema?, hfirst, hsecond, if_pos rfl])
    · obtain ⟨inner, hinner, hschema⟩ := bind_eq_ok_iff.1 h
      cases hschema
      exact .firstOrNull hfirst hsecond (describes_of_formSchema first hinner)
    · obtain ⟨inner, hinner, hschema⟩ := bind_eq_ok_iff.1 h
      cases hschema
      exact .nullOrSecond hfirst hsecond (describes_of_formSchema second hinner)
    · cases h
      exact .leaf (by rw [leafSchema?, hfirst, hsecond, if_pos rfl])
termination_by structural members => members

theorem describes_of_elementSchema : ∀ (arguments : List (TypeForm k)) {element : Schema 0},
    elementSchema lookup arguments = .ok element →
      (arguments = [] ∧ element = .unknown "Any") ∨
        ∃ first rest, arguments = first :: rest ∧ Describes lookup [] first element
  | [], _, h => by cases h; exact .inl ⟨rfl, rfl⟩
  | first :: rest, _, h => .inr ⟨first, rest, rfl, describes_of_formSchema first h⟩
termination_by structural arguments => arguments

theorem describes_of_tupleSchema {constraints : List Constraint} {type : Generic}
    (hrole : type.role = .tuple) : ∀ (arguments : List (TypeForm k)) {schema : Schema 0},
      tupleSchema lookup arguments = .ok schema →
        Describes lookup constraints (.generic type arguments) schema
  | [], _, h => by
    cases h
    exact .leaf (by rw [leafSchema?, hrole]; rfl)
  | first :: rest, _, h => by
    by_cases hdots : rest = [.ellipsis]
    · rw [hdots] at h ⊢
      obtain ⟨element, helement, hschema⟩ := bind_eq_ok_iff.1 h
      cases hschema
      exact .variadic hrole (describes_of_formSchema first helement)
    · rw [tupleSchema_cons lookup first hdots] at h
      obtain ⟨element, helement, hmore⟩ := bind_eq_ok_iff.1 h
      obtain ⟨elements, helements, hschema⟩ := bind_eq_ok_iff.1 hmore
      cases hschema
      obtain ⟨hlength, hzip⟩ := List.forall₂_iff_zip.1 (List.Forall₂.cons
        (describes_of_formSchema first helement) (describes_of_elementSchemas rest helements))
      exact .tuple hrole hdots hlength fun _ _ hmem => hzip hmem
termination_by structural arguments => arguments

theorem describes_of_dictionarySchema {constraints : List Constraint} {type : Generic}
    (hrole : type.role = .dictionary) : ∀ (arguments : List (TypeForm k)) {schema : Schema 0},
      dictionarySchema lookup arguments = .ok schema →
        Describes lookup constraints (.generic type arguments) schema
  | [], _, h => by
    cases h
    exact .leaf (by rw [leafSchema?, hrole]; rfl)
  | [_], _, h => by
    cases h
    exact .leaf (by rw [leafSchema?, hrole]; rfl)
  | _ :: _ :: _ :: _, _, h => by
    cases h
    exact .leaf (by rw [leafSchema?, hrole]; rfl)
  | [key, value], _, h => by
    obtain ⟨keySchema, hkey, hmore⟩ := bind_eq_ok_iff.1 h
    obtain ⟨valueSchema, hvalue, hschema⟩ := bind_eq_ok_iff.1 hmore
    cases hschema
    exact .dictionary hrole (describes_of_formSchema key hkey) (describes_of_formSchema value hvalue)
termination_by structural arguments => arguments

theorem describes_of_elementSchemas : ∀ (arguments : List (TypeForm k)) {elements : List (Schema 0)},
    elementSchemas lookup arguments = .ok elements →
      List.Forall₂ (Describes lookup []) arguments elements
  | [], _, h => by cases h; exact .nil
  | first :: rest, _, h => by
    obtain ⟨element, helement, hmore⟩ := bind_eq_ok_iff.1 h
    obtain ⟨elements, helements, hschemas⟩ := bind_eq_ok_iff.1 hmore
    cases hschemas
    exact .cons (describes_of_formSchema first helement)
      (describes_of_elementSchemas rest helements)
termination_by structural arguments => arguments

end

/-- A leaf describes what is found for it, whatever is looked up for the models. -/
theorem formSchema_of_leaf {constraints : List Constraint} {form : TypeForm k} {schema : Schema 0}
    (h : leafSchema? constraints form = some schema) :
    formSchema lookup constraints form = .ok schema := by
  cases form with
  | annotated inner more => cases h
  | model index => cases h
  | union members =>
    match members with
    | [] | [_] | _ :: _ :: _ :: _ =>
      cases h
      rfl
    | [first, second] =>
      rw [leafSchema?] at h
      rw [formSchema, unionSchema]
      cases hfirst : first.isNone <;> cases hsecond : second.isNone <;>
        simp [hfirst, hsecond] at h <;> subst h <;> rfl
  | generic type arguments =>
    rw [leafSchema?] at h
    rw [formSchema]
    cases hrole : type.role <;> rw [hrole] at h
    case dictionary =>
      match arguments with
      | [] | [_] | _ :: _ :: _ :: _ =>
        cases h
        rfl
      | [_, _] => cases h
    case other =>
      cases h
      rfl
    all_goals
      cases arguments with
      | nil =>
        cases h
        rfl
      | cons first rest => cases h
  | _ =>
    cases h
    rfl

/-- The elements of a tuple are found one by one. -/
theorem elementSchemas_of_forall₂ {arguments : List (TypeForm k)} {elements : List (Schema 0)}
    (h : List.Forall₂ (fun form schema => formSchema lookup [] form = .ok schema) arguments
      elements) : elementSchemas lookup arguments = .ok elements := by
  induction h with
  | nil => rfl
  | cons hfirst _ ih =>
    rw [elementSchemas, hfirst, ih]
    rfl

/-- The schema that an annotation describes is found for it. -/
theorem formSchema_of_describes {constraints : List Constraint} {form : TypeForm k}
    {schema : Schema 0} (h : Describes lookup constraints form schema) :
    formSchema lookup constraints form = .ok schema := by
  induction h with
  | leaf hleaf => exact formSchema_of_leaf hleaf
  | model hlookup => exact hlookup
  | annotated _ ih => exact ih
  | firstOrNull hfirst hsecond _ ih =>
    rw [formSchema, unionSchema, hfirst, hsecond, ih]
    rfl
  | nullOrSecond hfirst hsecond _ ih =>
    rw [formSchema, unionSchema, hfirst, hsecond, ih]
    rfl
  | sequence hrole _ ih =>
    rw [formSchema, hrole, elementSchema, ih]
    rfl
  | set hrole _ ih =>
    rw [formSchema, hrole, elementSchema, ih]
    rfl
  | variadic hrole _ ih =>
    rw [formSchema, hrole, tupleSchema, ih]
    rfl
  | tuple hrole hdots hlength _ ih =>
    have helements := elementSchemas_of_forall₂
      (List.forall₂_iff_zip.2 ⟨hlength, fun hmem => ih _ _ hmem⟩)
    obtain ⟨element, hfirst, hmore⟩ := bind_eq_ok_iff.1 helements
    obtain ⟨elements, hrest, hschemas⟩ := bind_eq_ok_iff.1 hmore
    cases hschemas
    rw [formSchema, hrole]
    exact (tupleSchema_cons lookup _ hdots).trans (by rw [hfirst, hrest]; rfl)
  | dictionary hrole _ _ ihkey ihvalue =>
    rw [formSchema, hrole, dictionarySchema, ihkey, ihvalue]
    rfl

/-- Finding the schema of an annotation succeeds exactly with the schema that it describes. -/
theorem formSchema_eq_ok_iff {constraints : List Constraint} {form : TypeForm k}
    {schema : Schema 0} :
    formSchema lookup constraints form = .ok schema ↔ Describes lookup constraints form schema :=
  ⟨describes_of_formSchema form, formSchema_of_describes⟩

/-- The schema that is found for a field is the one that its annotation describes, or of unknown kind
where it has none. -/
theorem typeSchema_eq_ok_iff {field : ModelField k} {schema : Schema 0} :
    typeSchema lookup field = .ok schema ↔
      (field.form = none ∧ schema = .unknown "None") ∨
        ∃ form, field.form = some form ∧
          Describes lookup (.field field.info :: field.info.markers.map .marker) form schema := by
  rw [typeSchema]
  cases hform : field.form with
  | none => simp [pure, Except.pure, eq_comm]
  | some form => simp [formSchema_eq_ok_iff]

/-- A field of an object stands for a field of a model: it has the name of the field, and the schema
that is found for the type of the field, with a layer of optionality where one is due. -/
def StandsFor (lookup : Fin k → Except SchemaError (Schema 0)) (declared : String × ModelField k)
    (member : String × Schema 0) : Prop :=
  ∃ schema, typeSchema lookup declared.2 = .ok schema ∧
    member = (declared.1, presence declared.2.required schema)

/-- The fields that are found for a model stand for the fields of the model, one for each. -/
theorem fieldSchemas_eq_ok_iff {fields : List (String × ModelField k)}
    {members : List (String × Schema 0)} :
    fieldSchemas lookup fields = .ok members ↔ List.Forall₂ (StandsFor lookup) fields members := by
  induction fields generalizing members with
  | nil =>
    rw [List.forall₂_nil_left_iff]
    constructor
    · intro h
      cases h
      rfl
    · rintro rfl
      rfl
  | cons declared rest ih =>
    rw [fieldSchemas, bind_eq_ok_iff, List.forall₂_cons_left_iff]
    constructor
    · rintro ⟨schema, hschema, hmore⟩
      obtain ⟨schemas, hschemas, hmembers⟩ := bind_eq_ok_iff.1 hmore
      cases hmembers
      exact ⟨_, _, ⟨schema, hschema, rfl⟩, ih.1 hschemas, rfl⟩
    · rintro ⟨member, schemas, ⟨schema, hschema, rfl⟩, hrest, rfl⟩
      exact ⟨schema, hschema, bind_eq_ok_iff.2 ⟨schemas, ih.2 hrest, rfl⟩⟩

/-- Every field that is found for a model stands for a field of it. -/
theorem exists_declared_of_mem {fields : List (String × ModelField k)}
    {members : List (String × Schema 0)} (h : fieldSchemas lookup fields = .ok members)
    {member : String × Schema 0} (hmember : member ∈ members) :
    ∃ declared ∈ fields, StandsFor lookup declared member := by
  induction fieldSchemas_eq_ok_iff.1 h with
  | nil => cases hmember
  | cons hfirst hrest ih =>
    rcases List.mem_cons.1 hmember with rfl | hlater
    · exact ⟨_, List.mem_cons_self, hfirst⟩
    · obtain ⟨declared, hdeclared, hstands⟩ := ih (fieldSchemas_eq_ok_iff.2 hrest) hlater
      exact ⟨declared, List.mem_cons_of_mem _ hdeclared, hstands⟩

end Found

section More

variable {lookup more : Fin k → Except SchemaError (Schema 0)}

/-- An annotation describes the same schema if more models can be looked up. -/
theorem Describes.mono {constraints : List Constraint} {form : TypeForm k} {schema : Schema 0}
    (hmore : ∀ index schema, lookup index = .ok schema → more index = .ok schema)
    (h : Describes lookup constraints form schema) : Describes more constraints form schema := by
  induction h with
  | leaf hleaf => exact .leaf hleaf
  | model hlookup => exact .model (hmore _ _ hlookup)
  | annotated _ ih => exact .annotated ih
  | firstOrNull hfirst hsecond _ ih => exact .firstOrNull hfirst hsecond ih
  | nullOrSecond hfirst hsecond _ ih => exact .nullOrSecond hfirst hsecond ih
  | sequence hrole _ ih => exact .sequence hrole ih
  | set hrole _ ih => exact .set hrole ih
  | variadic hrole _ ih => exact .variadic hrole ih
  | tuple hrole hdots hlength _ ih => exact .tuple hrole hdots hlength ih
  | dictionary hrole _ _ ihkey ihvalue => exact .dictionary hrole ihkey ihvalue

/-- The same fields are found for a model if more models can be looked up. -/
theorem fieldSchemas_mono
    (hmore : ∀ index schema, lookup index = .ok schema → more index = .ok schema)
    {fields : List (String × ModelField k)} {members : List (String × Schema 0)}
    (h : fieldSchemas lookup fields = .ok members) : fieldSchemas more fields = .ok members := by
  rw [fieldSchemas_eq_ok_iff] at h ⊢
  refine h.imp fun declared member hstands => ?_
  obtain ⟨schema, hschema, rfl⟩ := hstands
  refine ⟨schema, ?_, rfl⟩
  rw [typeSchema_eq_ok_iff] at hschema ⊢
  exact hschema.imp_right fun ⟨form, hform, hdescribes⟩ => ⟨form, hform, hdescribes.mono hmore⟩

end More

section Model

variable {family : Family k}

/-- The schema that is found for a model inside the models of a path is found inside fewer models,
too. -/
theorem modelSchemaFrom_mono {path fewer : List (Fin k)} {i : Fin k} {schema : Schema 0}
    (hfewer : ∀ j ∈ fewer, j ∈ path) (h : modelSchemaFrom family path i = .ok schema) :
    modelSchemaFrom family fewer i = .ok schema := by
  rw [modelSchemaFrom] at h ⊢
  by_cases hentered : i ∈ path
  · rw [dif_pos hentered] at h
    cases h
  · rw [dif_neg hentered] at h
    rw [dif_neg fun hmem => hentered (hfewer i hmem)]
    obtain ⟨members, hmembers, hschema⟩ := bind_eq_ok_iff.1 h
    refine bind_eq_ok_iff.2 ⟨members, fieldSchemas_mono (fun j found hfound => ?_) hmembers, hschema⟩
    refine modelSchemaFrom_mono (fun other hother => ?_) hfound
    rw [List.mem_append] at hother ⊢
    exact hother.imp_left (hfewer other)
termination_by unvisited path
decreasing_by exact unvisited_append_lt hentered

/-- The schema of a model is an object whose fields are found with the schemas of the models that its
annotations lead to. -/
theorem exists_members_of_ok {i : Fin k} {schema : Schema 0} (h : modelSchema family i = .ok schema) :
    ∃ members, schema = .object members ∧
      fieldSchemas (modelSchema family) (family i).fields = .ok members := by
  have hopen := h
  rw [modelSchema, modelSchemaFrom, dif_neg (List.not_mem_nil)] at hopen
  obtain ⟨members, hmembers, hschema⟩ := bind_eq_ok_iff.1 hopen
  cases hschema
  refine ⟨members, rfl, fieldSchemas_mono (fun j found hfound => ?_) hmembers⟩
  exact modelSchemaFrom_mono (fun _ hj => absurd hj List.not_mem_nil) hfound

/-- What holds of the schema of a model if it holds of those of the models that it refers to holds of
the schemas of all models. -/
theorem modelSchema_induction {P : Fin k → List (String × Schema 0) → Prop}
    (hstep : ∀ i members, modelSchema family i = .ok (.object members) →
      fieldSchemas (modelSchema family) (family i).fields = .ok members →
        (∀ j inner, Mentions family i j → modelSchema family j = .ok (.object inner) → P j inner) →
          P i members)
    {i : Fin k} {members : List (String × Schema 0)}
    (h : modelSchema family i = .ok (.object members)) : P i members := by
  induction acc_of_ok h generalizing members with
  | intro i _ ih =>
    obtain ⟨found, hschema, hfound⟩ := exists_members_of_ok h
    cases hschema
    exact hstep i members h hfound fun j inner hmentions hinner => ih j hmentions hinner

end Model

end Introspection

end ProtoSchema
