import ProtoSchema.Proofs.Compile.Acceptance
import ProtoSchema.Proofs.Introspection.Description
import ProtoSchema.Proofs.Schema.Subschema

/-!
# What is found for a model

Whatever stands in a schema that is found for an annotation or a model is the object of a model, the
layer of optionality of a field that need not be given, or a layer of an annotation, and no layer of
an annotation is one of optionality. A model for which a schema is found is therefore refused for one
reason only: something in it is of unknown kind, or a part of a map is a sequence, a set or may be
null.
-/

namespace ProtoSchema

open ProtoSchema.Introspection (Describes Meets Mentions)

namespace Schema

variable {n : Nat}

/-- What holds of every schema that is found for an annotation or a model. -/
structure IsDerived (schema : Schema n) : Prop where
  /-- Nothing but schemas stands in it. -/
  isSchema : ∀ part ∈ schema.subschemas, part.isSchema = true
  /-- It is no layer of optionality itself. -/
  root : schema.isOptional = false
  /-- Layers of optionality stand right inside objects alone. -/
  inObject : ∀ part ∈ schema.subschemas, ∀ direct ∈ part.directPositions,
    direct.schema.isOptional = true → ∃ members, part = .object members
  /-- No layer of optionality is around another one or around one of nullability. -/
  single : ∀ inner, .optional inner ∈ schema.subschemas → inner.isWrapped = false

/-- A cause for which a derived schema may be refused: the kind of something unknown in it, or that of
a sequence, a set or something nullable that is a part of a map. -/
inductive MayBeRefusedFor (schema : Schema n) : SchemaError → Prop where
  | unknown {kind : String} : .unknown kind ∈ schema.subschemas →
    MayBeRefusedFor schema (.unsupported kind)
  | mapPart {position : Position n} : position ∈ schema.positions → position.isMapPart = true →
    position.schema.kind ∈ ["ArrayNode", "SetNode", "NullableNode"] →
    MayBeRefusedFor schema (.unsupported position.schema.kind)

/-- What is unfit to be a part of a map is a sequence, a set or wrapped. -/
theorem kind_of_isUnfitPart {part : Schema n} (hunfit : part.isUnfitPart = true)
    (hoptional : part.isOptional = false) : part.kind ∈ ["ArrayNode", "SetNode", "NullableNode"] := by
  cases part with
  | array element => exact List.mem_cons_self
  | set element => exact List.mem_cons_of_mem _ List.mem_cons_self
  | nullable inner => exact List.mem_cons_of_mem _ (List.mem_cons_of_mem _ List.mem_cons_self)
  | optional inner => cases hoptional
  | _ => cases hunfit

/-- A position that offends in a derived schema gives one of the causes for which such a schema may be
refused. -/
theorem IsDerived.mayBeRefusedFor {schema : Schema n} (h : schema.IsDerived) {position : Position n}
    (hposition : position ∈ schema.positions) (hoffends : position.offends = true) :
    schema.MayBeRefusedFor (.unsupported position.schema.kind) := by
  have hpart : position.schema ∈ schema.subschemas :=
    List.mem_cons_of_mem _ (List.mem_map_of_mem hposition)
  rw [Position.offends, Bool.or_eq_true, Bool.and_eq_true] at hoffends
  rcases hoffends with hunmapped | ⟨hmapPart, hunfit⟩
  · cases hschema : position.schema with
    | unknown kind => exact .unknown (hschema ▸ hpart)
    | foreign value =>
      have hforeign := h.isSchema _ hpart
      rw [hschema] at hforeign
      cases hforeign
    | _ =>
      rw [hschema] at hunmapped
      cases hunmapped
  · refine .mapPart hposition hmapPart (kind_of_isUnfitPart hunfit ?_)
    -- a part of a map is right inside a map, and not right inside an object
    obtain ⟨around, haround, hdirect⟩ := exists_part_of_mem_positions hposition
    obtain ⟨key, value, rfl⟩ := exists_map_of_mem_directPositions hdirect hmapPart
    by_contra hoptional
    obtain ⟨members, hobject⟩ := h.inObject _ haround position hdirect (by simpa using hoptional)
    cases hobject

/-- Whether a schema can come from one layer of an annotation that leads to no model. -/
structure IsBare (part : Schema n) : Prop where
  /-- It is a schema. -/
  isSchema : part.isSchema = true
  /-- It is no object. -/
  notObject : part.isObject = false
  /-- It is no layer of optionality. -/
  notOptional : part.isOptional = false
  /-- No layer of optionality stands right inside it. -/
  inside : ∀ direct ∈ part.directPositions, direct.schema.isOptional = false

/-- What holds of a schema and of all that stands in what is right inside it holds of all that stands
in it. -/
theorem forall_mem_subschemas {P : Schema n → Prop} {schema : Schema n} (hself : P schema)
    (hdirect : ∀ direct ∈ schema.directPositions, ∀ part ∈ direct.schema.subschemas, P part) :
    ∀ part ∈ schema.subschemas, P part := by
  intro part hpart
  rcases mem_subschemas_iff.1 hpart with rfl | ⟨direct, hmem, hinside⟩
  · exact hself
  · exact hdirect direct hmem part hinside

/-- Nothing but a bare schema stands in a bare schema that nothing is inside of. -/
theorem IsBare.forall_mem {schema : Schema n} (h : schema.IsBare)
    (hnone : schema.directPositions = []) : ∀ part ∈ schema.subschemas, part.IsBare := by
  refine forall_mem_subschemas h fun direct hdirect => ?_
  rw [hnone] at hdirect
  cases hdirect

/-- Whether the one schema is a layer around the other that an annotation can add. -/
def IsLayer (layer inner : Schema n) : Prop :=
  layer = .nullable inner ∨ layer = .array inner ∨ layer = .set inner

/-- What holds of a layer and of all that stands in what it is around holds of all that stands in the
layer. -/
theorem IsLayer.forall_mem {P : Schema n → Prop} {layer inner : Schema n} (h : layer.IsLayer inner)
    (hself : P layer) (hinner : ∀ part ∈ inner.subschemas, P part) :
    ∀ part ∈ layer.subschemas, P part := by
  rcases h with rfl | rfl | rfl <;>
    exact forall_mem_subschemas hself (List.forall_mem_singleton.2 hinner)

/-- A layer is bare if it is not around a layer of optionality. -/
theorem IsLayer.isBare {layer inner : Schema n} (h : layer.IsLayer inner)
    (hinner : inner.isOptional = false) : layer.IsBare := by
  rcases h with rfl | rfl | rfl <;>
    exact ⟨rfl, rfl, rfl, List.forall_mem_singleton.2 hinner⟩

/-- A schema of unknown kind is bare. -/
theorem isBare_unknown (kind : String) : (.unknown kind : Schema n).IsBare where
  isSchema := rfl
  notObject := rfl
  notOptional := rfl
  inside := by
    intro direct hdirect
    cases hdirect

end Schema

namespace Introspection

variable {k : Nat} {lookup : Fin k → Except SchemaError (Schema 0)}

/-- What is found for a plain class is bare, and nothing is inside it. -/
theorem isBare_plainSchema (type : PlainClass) (constraints : List Constraint) :
    (plainSchema type constraints).IsBare ∧ (plainSchema type constraints).directPositions = [] := by
  unfold plainSchema
  cases type.lineage
  case integer =>
    cases IntegerWidth.needs64 constraints
    all_goals exact ⟨⟨rfl, rfl, rfl, List.forall_mem_nil _⟩, rfl⟩
  all_goals exact ⟨⟨rfl, rfl, rfl, List.forall_mem_nil _⟩, rfl⟩

/-- Nothing but bare schemas stand in what is found for a leaf. -/
theorem isBare_of_leaf {constraints : List Constraint} {form : TypeForm k} {schema : Schema 0}
    (h : leafSchema? constraints form = some schema) : ∀ part ∈ schema.subschemas, part.IsBare := by
  have hunknown : ∀ kind, ∀ part ∈ (.unknown kind : Schema 0).subschemas, part.IsBare :=
    fun kind => (Schema.isBare_unknown kind).forall_mem rfl
  cases form with
  | annotated inner more => cases h
  | model index => cases h
  | plain type =>
    cases h
    exact (isBare_plainSchema type constraints).1.forall_mem (isBare_plainSchema type constraints).2
  | enumeration type =>
    cases h
    exact Schema.IsBare.forall_mem ⟨rfl, rfl, rfl, List.forall_mem_nil _⟩ rfl
  | literal options =>
    cases h
    exact Schema.IsBare.forall_mem ⟨rfl, rfl, rfl, List.forall_mem_nil _⟩ rfl
  | union members =>
    match members with
    | [] | [_] | _ :: _ :: _ :: _ =>
      cases h
      exact hunknown _
    | [first, second] =>
      rw [leafSchema?] at h
      split at h
      · cases h
        exact hunknown _
      · cases h
  | generic type arguments =>
    -- a sequence or a set without arguments is around a schema of unknown kind
    have haround : ∀ {layer : Schema 0}, layer.IsLayer (.unknown "Any") →
        ∀ part ∈ layer.subschemas, part.IsBare :=
      fun hlayer => hlayer.forall_mem (hlayer.isBare rfl) (hunknown _)
    rw [leafSchema?] at h
    split at h
    · split at h
      · cases h
        exact haround (.inr (.inl rfl))
      · cases h
    · split at h
      · cases h
        exact haround (.inr (.inr rfl))
      · cases h
    · split at h
      · cases h
        exact hunknown _
      · cases h
    · split at h
      · cases h
      · cases h
        exact hunknown _
    · cases h
      exact hunknown _
  | _ =>
    cases h
    exact hunknown _

/-- Whether a schema stands in the schema of a model that is met. -/
def FromModel (lookup : Fin k → Except SchemaError (Schema 0)) (met : Fin k → Prop)
    (part : Schema 0) : Prop :=
  ∃ index schema, met index ∧ lookup index = .ok schema ∧ part ∈ schema.subschemas

/-- What stands in the schema of a model stands in it if more models are met, too. -/
theorem FromModel.imp {met more : Fin k → Prop} {part : Schema 0} (h : FromModel lookup met part)
    (hmore : ∀ index, met index → more index) : FromModel lookup more part := by
  obtain ⟨index, schema, hmet, hlookup, hpart⟩ := h
  exact ⟨index, schema, hmore index hmet, hlookup, hpart⟩

/-- The schema that an annotation describes is no layer of optionality. -/
theorem Describes.isOptional {constraints : List Constraint} {form : TypeForm k} {schema : Schema 0}
    (hobject : ∀ index found, lookup index = .ok found → found.isOptional = false)
    (h : Describes lookup constraints form schema) : schema.isOptional = false := by
  induction h with
  | leaf hleaf => exact (isBare_of_leaf hleaf _ (Schema.self_mem_subschemas _)).notOptional
  | model hlookup => exact hobject _ _ hlookup
  | annotated _ ih => exact ih
  | _ => rfl

/-- A layer around a schema adds nothing to what stands in it but itself. -/
theorem forall_mem_layer {met more : Fin k → Prop} {layer inner : Schema 0}
    (hlayer : layer.IsLayer inner) (hinner : inner.isOptional = false)
    (hmore : ∀ index, met index → more index)
    (h : ∀ part ∈ inner.subschemas, FromModel lookup met part ∨ part.IsBare) :
    ∀ part ∈ layer.subschemas, FromModel lookup more part ∨ part.IsBare :=
  hlayer.forall_mem (.inr (hlayer.isBare hinner)) fun part hpart =>
    (h part hpart).imp_left (·.imp hmore)

/-- What stands in a schema that an annotation describes stands in the schema of a model that the
annotation leads to, or it is bare. -/
theorem Describes.forall_mem {constraints : List Constraint} {form : TypeForm k} {schema : Schema 0}
    (hobject : ∀ index found, lookup index = .ok found → found.isOptional = false)
    (h : Describes lookup constraints form schema) :
    ∀ part ∈ schema.subschemas, FromModel lookup (Meets form) part ∨ part.IsBare := by
  induction h with
  | leaf hleaf => exact fun part hpart => .inr (isBare_of_leaf hleaf part hpart)
  | model hlookup => exact fun part hpart => .inl ⟨_, _, .model _, hlookup, hpart⟩
  | annotated _ ih =>
    exact fun part hpart => (ih part hpart).imp_left (·.imp fun _ => .annotated)
  | firstOrNull hfirst hsecond hinner ih =>
    exact forall_mem_layer (.inl rfl) (hinner.isOptional hobject)
      (fun _ => .firstOrNull hfirst hsecond) ih
  | nullOrSecond hfirst hsecond hinner ih =>
    exact forall_mem_layer (.inl rfl) (hinner.isOptional hobject)
      (fun _ => .nullOrSecond hfirst hsecond) ih
  | sequence hrole hinner ih =>
    exact forall_mem_layer (.inr (.inl rfl)) (hinner.isOptional hobject)
      (fun _ => .sequence hrole) ih
  | set hrole hinner ih =>
    exact forall_mem_layer (.inr (.inr rfl)) (hinner.isOptional hobject) (fun _ => .set hrole) ih
  | variadic hrole hinner ih =>
    exact forall_mem_layer (.inr (.inl rfl)) (hinner.isOptional hobject)
      (fun _ => .tuple hrole List.mem_cons_self) ih
  | @tuple constraints type first rest schemas hrole hdots hlength hinner ih =>
    -- every schema stands for one of the elements
    have helement : ∀ schema ∈ schemas, ∃ element, (element, schema) ∈ (first :: rest).zip schemas := by
      intro schema hschema
      rw [← List.map_snd_zip hlength.ge] at hschema
      obtain ⟨⟨element, _⟩, hzip, rfl⟩ := List.mem_map.1 hschema
      exact ⟨element, hzip⟩
    refine Schema.forall_mem_subschemas (.inr ⟨rfl, rfl, rfl, ?_⟩) ?_
    · refine List.forall_mem_map.2 fun schema hschema => ?_
      obtain ⟨element, hzip⟩ := helement schema hschema
      exact (hinner element schema hzip).isOptional hobject
    · refine List.forall_mem_map.2 fun schema hschema part hpart => ?_
      obtain ⟨element, hzip⟩ := helement schema hschema
      exact (ih element schema hzip part hpart).imp_left
        (·.imp fun _ => .tuple hrole (List.of_mem_zip hzip).1)
  | dictionary hrole hkey hvalue ihkey ihvalue =>
    refine Schema.forall_mem_subschemas (.inr ⟨rfl, rfl, rfl, ?_⟩) ?_
    · exact List.forall_mem_cons.2 ⟨hkey.isOptional hobject,
        List.forall_mem_singleton.2 (hvalue.isOptional hobject)⟩
    · refine List.forall_mem_cons.2 ⟨fun part hpart => ?_,
        List.forall_mem_singleton.2 fun part hpart => ?_⟩
      · exact (ihkey part hpart).imp_left (·.imp fun _ => .dictionaryKey hrole)
      · exact (ihvalue part hpart).imp_left (·.imp fun _ => .dictionaryValue hrole)

/-- What stands in the schema of a field that may be absent is what stands in the schema of its type,
and the layer of optionality, if there is one. -/
theorem mem_subschemas_presence {required : Bool} {part schema : Schema 0}
    (h : part ∈ (presence required schema).subschemas) :
    part ∈ schema.subschemas ∨ (part = .optional schema ∧ schema.isWrapped = false) := by
  unfold presence at h
  split at h
  · exact .inl h
  · rename_i hpresence
    have hwrapped : schema.isWrapped = false := by
      cases hcase : schema.isWrapped <;> simp [hcase] at hpresence ⊢
    rcases Schema.mem_subschemas_iff.1 h with rfl | ⟨direct, hdirect, hpart⟩
    · exact .inr ⟨rfl, hwrapped⟩
    · rw [List.mem_singleton.1 hdirect] at hpart
      exact .inl hpart

/-- How a schema comes to stand in a schema that is found: as the object of a model that is reached,
as the layer of optionality of a field, or as a bare schema. -/
inductive Arises (family : Family k) (reached : Fin k → Prop) : Schema 0 → Prop where
  | model {index : Fin k} {members : List (String × Schema 0)} : reached index →
    modelSchema family index = .ok (.object members) → Arises family reached (.object members)
  | absent {inner : Schema 0} : inner.isWrapped = false → Arises family reached (.optional inner)
  | bare {part : Schema 0} : part.IsBare → Arises family reached part

section Model

variable {family : Family k} {reached : Fin k → Prop}

/-- What arises from models that are reached arises if more models are reached, too. -/
theorem Arises.imp {more : Fin k → Prop} {part : Schema 0} (h : Arises family reached part)
    (hmore : ∀ index, reached index → more index) : Arises family more part := by
  cases h with
  | model hreached hmodel => exact .model (hmore _ hreached) hmodel
  | absent hwrapped => exact .absent hwrapped
  | bare hbare => exact .bare hbare

/-- The schema of a model is no layer of optionality. -/
theorem isOptional_of_model {index : Fin k} {schema : Schema 0}
    (h : modelSchema family index = .ok schema) : schema.isOptional = false := by
  obtain ⟨members, rfl, -⟩ := exists_members_of_ok h
  rfl

/-- Whatever stands in the schema of a model arises from the models that are reached from it. -/
theorem arises_of_model {i : Fin k} {members : List (String × Schema 0)}
    (h : modelSchema family i = .ok (.object members)) :
    ∀ part ∈ (Schema.object members).subschemas,
      Arises family (Relation.ReflTransGen (Mentions family) i) part := by
  refine modelSchema_induction (P := fun i members => ∀ part ∈ (Schema.object members).subschemas,
    Arises family (Relation.ReflTransGen (Mentions family) i) part) ?_ h
  intro i members hmodel hfields ih
  refine Schema.forall_mem_subschemas (.model .refl hmodel) (List.forall_mem_map.2 ?_)
  intro member hmember part hpart
  obtain ⟨⟨name, field⟩, hfield, schema, hschema, rfl⟩ := exists_declared_of_mem hfields hmember
  rcases mem_subschemas_presence hpart with hinside | ⟨rfl, hwrapped⟩
  · rcases typeSchema_eq_ok_iff.1 hschema with ⟨-, rfl⟩ | ⟨form, hform, hdescribes⟩
    · exact .bare ((Schema.isBare_unknown _).forall_mem rfl part hinside)
    · rcases hdescribes.forall_mem (fun _ _ => isOptional_of_model) part hinside with
        ⟨j, found, hmeets, hfound, hpart⟩ | hbare
      · obtain ⟨inner, rfl, -⟩ := exists_members_of_ok hfound
        have hmentions : Mentions family i j := ⟨name, field, form, hfield, hform, hmeets⟩
        exact (ih j inner hmentions hfound part hpart).imp fun _ hreached => .head hmentions hreached
      · exact .bare hbare
  · exact .absent hwrapped

/-- Whatever stands in the schema of an annotation arises from the models that are reached from those
that the annotation leads to. -/
theorem arises_of_form {constraints : List Constraint} {form : TypeForm k} {schema : Schema 0}
    (h : ProtoSchema.formSchema family form constraints = .ok schema) :
    ∀ part ∈ schema.subschemas, Arises family
      (fun j => ∃ i, Meets form i ∧ Relation.ReflTransGen (Mentions family) i j) part := by
  intro part hpart
  rcases (describes_of_formSchema form h).forall_mem (fun _ _ => isOptional_of_model) part hpart with
    ⟨i, found, hmeets, hfound, hinside⟩ | hbare
  · obtain ⟨inner, rfl, -⟩ := exists_members_of_ok hfound
    exact (arises_of_model hfound part hinside).imp fun j hreached => ⟨i, hmeets, hreached⟩
  · exact .bare hbare

/-- A schema that is no layer of optionality, and in which everything arises from models, is one of
those that can be found. -/
theorem isDerived_of_arises {schema : Schema 0} (hroot : schema.isOptional = false)
    (h : ∀ part ∈ schema.subschemas, Arises family reached part) : schema.IsDerived where
  isSchema := by
    intro part hpart
    cases h part hpart with
    | model _ _ => rfl
    | absent _ => rfl
    | bare hbare => exact hbare.isSchema
  root := hroot
  inObject := by
    intro part hpart direct hdirect hoptional
    cases h part hpart with
    | @model _ members _ _ => exact ⟨members, rfl⟩
    | absent hwrapped =>
      rw [List.mem_singleton.1 hdirect, Schema.isOptional_of_not_isWrapped hwrapped] at hoptional
      cases hoptional
    | bare hbare =>
      rw [hbare.inside direct hdirect] at hoptional
      cases hoptional
  single := by
    intro inner hpart
    cases h _ hpart with
    | absent hwrapped => exact hwrapped
    | bare hbare => cases hbare.notOptional

/-- The schema that is found for a model is derived. -/
theorem isDerived_of_model {i : Fin k} {schema : Schema 0} (h : modelSchema family i = .ok schema) :
    schema.IsDerived := by
  obtain ⟨members, rfl, -⟩ := exists_members_of_ok h
  exact isDerived_of_arises rfl (arises_of_model h)

/-- The schema that is found for an annotation is derived. -/
theorem isDerived_of_form {constraints : List Constraint} {form : TypeForm k} {schema : Schema 0}
    (h : ProtoSchema.formSchema family form constraints = .ok schema) : schema.IsDerived :=
  isDerived_of_arises ((describes_of_formSchema form h).isOptional fun _ _ => isOptional_of_model)
    (arises_of_form h)

end Model

end Introspection

open Introspection (isDerived_of_model isDerived_of_form)

variable {k : Nat}

/-- Where the schema of a model is found, the document of the model is that of the schema. -/
theorem Source.generate_of_model {family : Family k} {index : Fin k} {schema : Schema 0}
    (h : modelSchema family index = .ok schema) (options : Options) :
    (Source.model family index).generate options =
      ProtoSchema.generate Schema.noObjects schema options := by
  rw [Source.generate, Source.graph, h]
  rfl

/-- Every schema that is found for a model or an annotation is derived: nothing but schemas stands in
it, layers of optionality stand right inside objects alone, and none of them is around another one or
around one of nullability. Where the schema of a model is found, neither its document nor the
compilation of its object in any place fails for a cycle; if they fail, then for something of unknown
kind in the schema, or for a sequence, a set or something nullable that is a part of a map. -/
theorem refusals_of_models (family : Family k) :
    (∀ index schema, modelSchema family index = .ok schema → schema.IsDerived) ∧
      (∀ form constraints schema, formSchema family form constraints = .ok schema →
        schema.IsDerived) ∧
      ∀ index schema, modelSchema family index = .ok schema →
        (∀ options cause,
          ((Source.model family index).generate options).document = .error cause →
            schema.MayBeRefusedFor cause) ∧
          ∀ namer path scope cause,
            (compileObject Schema.noObjects namer path scope schema).outcome = .error cause →
              schema.MayBeRefusedFor cause := by
  refine ⟨fun _ _ => isDerived_of_model, fun _ _ _ => isDerived_of_form, ?_⟩
  intro index schema hmodel
  have hderived := isDerived_of_model hmodel
  obtain ⟨members, rfl, -⟩ := Introspection.exists_members_of_ok hmodel
  have hrefused : ∀ kind, Schema.firstOffence (Schema.fieldPositions members) = some kind →
      (Schema.object members).MayBeRefusedFor (.unsupported kind) := by
    intro kind hkind
    obtain ⟨before, position, after, hsplit, -, hoffends, rfl⟩ :=
      Schema.firstOffence_eq_some_iff.1 hkind
    have hposition : position ∈ (Schema.object members).positions := by
      rw [Schema.positions, hsplit]
      exact List.mem_append_right _ List.mem_cons_self
    exact hderived.mayBeRefusedFor hposition hoffends
  constructor
  · intro options cause hcause
    have hverdict := Generation.outcome_document_tree (.object members) options
    rw [← Source.generate_of_model hmodel, hcause, Schema.refusal_of_object rfl] at hverdict
    obtain ⟨kind, hkind, rfl⟩ := Compile.verdict_eq_error_iff.1 hverdict.symm
    exact hrefused kind hkind
  · intro namer path scope cause hcause
    cases hoffence : Schema.firstOffence (Schema.fieldPositions members) with
    | none =>
      rw [Compile.compileObject_accepted hoffence] at hcause
      cases hcause
    | some kind =>
      rw [Compile.compileObject_refused hoffence] at hcause
      cases hcause
      exact hrefused kind hoffence

/-- Two models, the first of which refers to the second in three places and has a dictionary of
sequences. -/
def team : Family 2 :=
  let person : TypeForm 2 := .model ⟨1, Nat.one_lt_two⟩
  let list (element : TypeForm 2) : TypeForm 2 := .generic ⟨"list", .concrete, .sequence⟩ [element]
  fun index =>
    if index.val = 0 then
      ⟨"Team", [("lead", { form := some (.union [person, .none]) }),
        ("deputy", { form := some person, required := false }),
        ("scores", { form := some (.generic ⟨"dict", .concrete, .dictionary⟩
          [.plain ⟨"str", .text, true⟩, list person]) })], false⟩
    else ⟨"Person", [("name", { form := some (.plain ⟨"str", .text, true⟩) })], false⟩

/-- The schema of the first model. -/
def teamSchema : Schema 0 :=
  let person : Schema 0 := .object [("name", .string)]
  .object [("lead", .nullable person), ("deputy", .optional person),
    ("scores", .map .string (.array person))]

/-- The first model has that schema. -/
theorem modelSchema_team : modelSchema team 0 = .ok teamSchema := by
  have hdepth : Visit.unvisited ([] : List (Fin 2)) < 3 := by decide
  rw [modelSchema, ← Introspection.modelWithin_eq (fun _ _ => .ok .string) hdepth]
  rfl

/-- The schema of the first model is derived, and it is refused for the sequence. -/
theorem refusals_of_models_team :
    modelSchema team 0 = .ok teamSchema ∧ teamSchema.IsDerived ∧
      ((Source.model team 0).generate {}).document = .error (.unsupported "ArrayNode") ∧
      teamSchema.MayBeRefusedFor (.unsupported "ArrayNode") := by
  have hdocument : ((Source.model team 0).generate {}).document =
      .error (.unsupported "ArrayNode") := by
    rw [Source.generate_of_model modelSchema_team]
    rfl
  obtain ⟨hderived, -, hrefused⟩ := refusals_of_models team
  exact ⟨modelSchema_team, hderived 0 teamSchema modelSchema_team, hdocument,
    (hrefused 0 teamSchema modelSchema_team).1 {} _ hdocument⟩

end ProtoSchema
