import ProtoSchema.Proofs.Compile.Acceptance
import ProtoSchema.Proofs.Schema.Normal

/-!
# Compiling a schema in normal form

A schema and its normal form become the same field at a place, whether that is the place of an
element of a sequence or another, and the occurrences in them are reported alike. Main statement: a
document is generated from a tree exactly if one is generated from the normal form of the tree, and
then it is the same document, with the same definitions and the same log.
-/

namespace ProtoSchema

variable {n : Nat}

namespace Outline

open Schema (layered layered_cases normal normalFields normalElements isSequence_strip_normal
  isMap_strip_normal isWrapped_normal length_normalFields)

section Field

variable (namer : Namer)

theorem fieldType_layered (scope : List String) (key : String) (inArray : Bool)
    (schema : Schema n) :
    fieldType namer scope key (layered inArray schema) = fieldType namer scope key schema := by
  rcases layered_cases inArray schema with h | h <;> rw [h]
  rfl

theorem repetitions_layered (inArray : Bool) (schema : Schema n) :
    repetitions (layered inArray schema) = repetitions schema := by
  rcases layered_cases inArray schema with h | h <;> rw [h]
  rfl

/-- A schema and its normal form become fields of the same type. -/
theorem fieldType_normal (scope : List String) (key : String) (inArray : Bool) :
    ∀ schema : Schema n,
      fieldType namer scope key (normal inArray schema) = fieldType namer scope key schema
  | .object _ => rfl
  | .shared _ => rfl
  | .string => rfl
  | .boolean => rfl
  | .date => rfl
  | .bigInt => rfl
  | .number _ => rfl
  | .enumeration _ => rfl
  | .array element => fieldType_normal scope (Singular.singular key) true element
  | .set element => fieldType_normal scope (Singular.singular key) true element
  | .tuple _ => rfl
  | .map keys values => by
    rw [normal, fieldType, fieldType, fieldType_normal scope (key ++ "Key") false keys,
      fieldType_normal scope (key ++ "Value") false values]
  | .optional inner => by
    rw [normal, fieldType_layered, fieldType_normal scope key inArray inner, fieldType]
  | .nullable inner => by
    rw [normal, fieldType_layered, fieldType_normal scope key inArray inner, fieldType]
  | .unknown _ => rfl
  | .foreign _ => rfl
termination_by structural schema => schema

/-- A schema and its normal form begin with equally many sequences. -/
theorem repetitions_normal (inArray : Bool) : ∀ schema : Schema n,
    repetitions (normal inArray schema) = repetitions schema
  | .object _ => rfl
  | .shared _ => rfl
  | .string => rfl
  | .boolean => rfl
  | .date => rfl
  | .bigInt => rfl
  | .number _ => rfl
  | .enumeration _ => rfl
  | .array element => congrArg (· + 1) (repetitions_normal true element)
  | .set element => congrArg (· + 1) (repetitions_normal true element)
  | .tuple _ => rfl
  | .map _ _ => rfl
  | .optional inner => by
    rw [normal, repetitions_layered, repetitions_normal inArray inner, repetitions]
  | .nullable inner => by
    rw [normal, repetitions_layered, repetitions_normal inArray inner, repetitions]
  | .unknown _ => rfl
  | .foreign _ => rfl
termination_by structural schema => schema

/-- A schema and its normal form become fields with the same modifiers. -/
theorem modifiers_normal (isOptional inArray : Bool) (schema : Schema n) :
    modifiers isOptional inArray (normal inArray schema) =
      modifiers isOptional inArray schema := by
  rw [modifiers, modifiers, isSequence_strip_normal, isMap_strip_normal, repetitions_normal]
  cases hsequence : schema.strip.isSequence with
  | true => rfl
  | false =>
    cases hmap : schema.strip.isMap with
    | true => rfl
    | false =>
      cases inArray with
      | true => simp
      | false => rw [isWrapped_normal hsequence hmap]

/-- A schema and its normal form become the same field. -/
theorem descriptor_normal (place : Place) (schema : Schema n) :
    descriptor namer place (normal place.inArray schema) = descriptor namer place schema := by
  rw [descriptor, descriptor, fieldType_normal, modifiers_normal]

/-- The fields of an object are the same in normal form. -/
theorem objectFields_normal (scope : List String) (members : List (String × Schema n)) :
    objectFields namer scope (normalFields members) = objectFields namer scope members := by
  induction members with
  | nil => rfl
  | cons member rest ih =>
    have hmember := descriptor_normal namer ⟨member.1, scope, false, false⟩ member.2
    rw [objectFields] at ih ⊢
    rw [normalFields, List.map_cons, ih, hmember]
    rfl

/-- The fields of a tuple are the same in normal form, and do not depend on a layer of optionality
around the tuple. -/
theorem tupleFields_normal (key : String) (scope : List String) (one other inArray : Bool)
    (position : Nat) (elements : List (Schema n)) :
    tupleFields namer ⟨key, scope, one, inArray⟩ position (normalElements inArray elements) =
      tupleFields namer ⟨key, scope, other, inArray⟩ position elements := by
  induction elements generalizing position with
  | nil => rfl
  | cons element rest ih =>
    have helement := descriptor_normal namer
      (elementPlace ⟨key, scope, other, inArray⟩ position) element
    rw [normalElements, tupleFields, tupleFields, ih, ← helement]
    rfl

/-- An object in normal form is reported as the object itself, with a layer of optionality around it
or without. -/
theorem events_object_normal (key : String) (scope : List String) (one other inArray : Bool)
    (members : List (String × Schema n)) :
    (Occurrence.object ⟨key, scope, one, inArray⟩ (normalFields members)).events namer =
      (Occurrence.object ⟨key, scope, other, inArray⟩ members).events namer := by
  rw [Occurrence.events, Occurrence.events, objectFields_normal, length_normalFields]
  rfl

/-- A tuple in normal form is reported as the tuple itself, with a layer of optionality around it or
without. -/
theorem events_tuple_normal (key : String) (scope : List String) (one other inArray : Bool)
    (elements : List (Schema n)) :
    (Occurrence.tuple ⟨key, scope, one, inArray⟩ (normalElements inArray elements)).events namer =
      (Occurrence.tuple ⟨key, scope, other, inArray⟩ elements).events namer := by
  rw [Occurrence.events, Occurrence.events,
    tupleFields_normal namer key scope one other inArray 0 elements]

end Field

end Outline

namespace Compile

open Outline (occurrences memberOccurrences elementOccurrences)
open Schema (layered_cases normal normalFields normalElements)

variable (namer : Namer)

theorem reports_singleton (occurrence : Outline.Occurrence n) :
    reports namer [occurrence] = occurrence.events namer :=
  List.append_nil _

theorem reports_append (list more : List (Outline.Occurrence n)) :
    reports namer (list ++ more) = reports namer list ++ reports namer more :=
  List.flatMap_append

/-- An added layer of optionality is not reported. -/
theorem reports_layered {key : String} {scope : List String} {inArray : Bool} {schema : Schema n}
    {events : List Event}
    (h : ∀ any, reports namer (occurrences ⟨key, scope, any, inArray⟩ schema) = events)
    (isOptional : Bool) :
    reports namer (occurrences ⟨key, scope, isOptional, inArray⟩ (Schema.layered inArray schema)) =
      events := by
  rcases layered_cases inArray schema with hlayered | hlayered <;> rw [hlayered]
  · exact h isOptional
  · exact h true

mutual

/-- What occurs in a schema and in its normal form is reported alike, whether there are layers of
optionality around them or not. -/
theorem reports_normal (key : String) (scope : List String) (inArray : Bool) :
    ∀ (schema : Schema n) (one other : Bool),
      reports namer (occurrences ⟨key, scope, one, inArray⟩ (normal inArray schema)) =
        reports namer (occurrences ⟨key, scope, other, inArray⟩ schema)
  | .optional inner, one, _ =>
    reports_layered namer (fun any => reports_normal key scope inArray inner any true) one
  | .nullable inner, one, _ =>
    reports_layered namer (fun any => reports_normal key scope inArray inner any true) one
  | .array element, _, _ =>
    reports_normal (Singular.singular key) scope true element false false
  | .set element, _, _ =>
    reports_normal (Singular.singular key) scope true element false false
  | .map keys values, _, _ => by
    have hkey := reports_normal (key ++ "Key") scope false keys false false
    have hvalue := reports_normal (key ++ "Value") scope false values false false
    rw [normal, Outline.occurrences_map, Outline.occurrences_map, reports_append, reports_append,
      hkey, hvalue]
  | .object members, one, other => by
    have hevents := Outline.events_object_normal namer key scope one other inArray members
    rw [normal, Outline.occurrences_object, Outline.occurrences_object, reports_append,
      reports_append, reports_singleton, reports_singleton, reports_normalFields _ members, hevents]
    rfl
  | .tuple elements, one, other => by
    have hevents := Outline.events_tuple_normal namer key scope one other inArray elements
    have helements := reports_normalElements key scope inArray elements one other 0
    rw [normal, Outline.occurrences_tuple, Outline.occurrences_tuple, reports_append,
      reports_append, reports_singleton, reports_singleton, helements, hevents]
  | .shared _, _, _ => rfl
  | .enumeration _, _, _ => rfl
  | .string, _, _ => rfl
  | .date, _, _ => rfl
  | .boolean, _, _ => rfl
  | .bigInt, _, _ => rfl
  | .number _, _, _ => rfl
  | .unknown _, _, _ => rfl
  | .foreign _, _, _ => rfl
termination_by structural schema => schema

theorem reports_normalFields (scope : List String) : ∀ members : List (String × Schema n),
    reports namer (memberOccurrences scope (normalFields members)) =
      reports namer (memberOccurrences scope members)
  | [] => rfl
  | (key, schema) :: rest => by
    rw [normalFields, memberOccurrences, memberOccurrences, reports_append, reports_append,
      reports_normal key scope false schema false false, reports_normalFields scope rest]
termination_by structural members => members

theorem reports_normalElements (key : String) (scope : List String) (inArray : Bool) :
    ∀ (elements : List (Schema n)) (one other : Bool) (position : Nat),
      reports namer (elementOccurrences ⟨key, scope, one, inArray⟩ position
          (normalElements inArray elements)) =
        reports namer (elementOccurrences ⟨key, scope, other, inArray⟩ position elements)
  | [], _, _, _ => rfl
  | element :: rest, one, other, position => by
    have helement := reports_normal (Outline.elementPlace ⟨key, scope, one, inArray⟩ position).key
      scope inArray element false false
    rw [normalElements, elementOccurrences, elementOccurrences, reports_append, reports_append,
      reports_normalElements key scope inArray rest one other (position + 1)]
    exact congrArg (· ++ _) helement
termination_by structural elements => elements

end

/-- An object where no position offends compiles as its normal form. -/
theorem compileObject_normalFields {members : List (String × Schema 0)}
    (h : Schema.firstOffence (Schema.fieldPositions members) = none)
    (path : List (OpenObject 0)) (scope : List String) :
    compileObject Schema.noObjects namer path scope (.object (normalFields members)) =
      compileObject Schema.noObjects namer path scope (.object members) := by
  have hnormal : Schema.firstOffence (Schema.fieldPositions (normalFields members)) = none := by
    rw [← Schema.isClear_iff, Schema.isClear_normalFields, Schema.isClear_iff]
    exact h
  rw [compileObject_accepted hnormal, compileObject_accepted h, reports_normalFields,
    Outline.objectFields_normal, Schema.length_normalFields]

end Compile

namespace Schema

/-- The normal form of a root has no layer of optionality. -/
theorem isWrapped_normalRoot (schema : Schema n) : schema.normalRoot.isWrapped = false :=
  isWrapped_normal_of_not_isWrapped false (isWrapped_strip schema)

/-- The normal form of an object at the root is the object with its fields in normal form. -/
theorem normalRoot_of_object {schema : Schema n} {members : List (String × Schema n)}
    (h : schema.strip = .object members) : schema.normalRoot = .object (normalFields members) := by
  rw [normalRoot, h, normal]

/-- A schema is refused as a root exactly if its normal form is. -/
theorem refusal_normalRoot (schema : Schema n) :
    schema.normalRoot.refusal = none ↔ schema.refusal = none := by
  have hstrip : schema.normalRoot.strip = normal false schema.strip :=
    strip_of_not_isWrapped (isWrapped_normalRoot schema)
  have hwrapped := isWrapped_strip schema
  cases h : schema.strip with
  | object members =>
    rw [h, normal] at hstrip
    rw [refusal_of_object hstrip, refusal_of_object h, ← isClear_iff, isClear_normalFields,
      isClear_iff]
  | optional inner =>
    rw [h] at hwrapped
    cases hwrapped
  | nullable inner =>
    rw [h] at hwrapped
    cases hwrapped
  | _ => simp [refusal, hstrip, h, normal, isObject]

end Schema

/-- The graph of a tree, with nothing shared. -/
def SchemaGraph.ofTree (tree : Schema 0) : SchemaGraph :=
  ⟨0, Schema.noObjects, tree⟩

namespace Source

/-- A schema is compiled as it is given, and a value that is no schema is refused as the compilation
refuses it. -/
theorem generate_schema (graph : SchemaGraph) (options : Options) :
    (Source.schema graph).generate options =
      ProtoSchema.generate graph.objects graph.root options := by
  obtain ⟨size, objects, root⟩ := graph
  cases root <;> rfl

/-- A graph has the document of the tree that it stands for. -/
theorem generate_of_expand {graph : SchemaGraph} {tree : Schema 0}
    (h : graph.root.expand graph.objects = some tree) (options : Options) :
    (Source.schema graph).generate options = (Source.schema (.ofTree tree)).generate options := by
  rw [generate_schema, generate_schema]
  exact Compile.generate_of_expand options h

/-- A tree that is refused has no document. -/
theorem document_of_refusal {tree : Schema 0} {kind : String} (h : tree.refusal = some kind)
    (options : Options) :
    ((Source.schema (.ofTree tree)).generate options).document = .error (.unsupported kind) := by
  have houtcome := outcome_schema (.ofTree tree) options (Schema.expand_tree _ tree)
  rw [h] at houtcome
  cases hdocument : ((Source.schema (.ofTree tree)).generate options).document with
  | ok text =>
    rw [hdocument] at houtcome
    cases houtcome
  | error cause =>
    rw [hdocument] at houtcome
    exact congrArg Except.error (Except.error.inj houtcome)

/-- A tree that is not refused has a document. -/
theorem exists_document_of_refusal {tree : Schema 0} (h : tree.refusal = none)
    (options : Options) :
    ∃ text, ((Source.schema (.ofTree tree)).generate options).document = .ok text := by
  have houtcome := outcome_schema (.ofTree tree) options (Schema.expand_tree _ tree)
  rw [h] at houtcome
  cases hdocument : ((Source.schema (.ofTree tree)).generate options).document with
  | ok text => exact ⟨text, rfl⟩
  | error cause =>
    rw [hdocument] at houtcome
    cases houtcome

/-- A tree that is not refused is compiled as its normal form. -/
theorem generate_ofTree_normalRoot {tree : Schema 0} (h : tree.refusal = none)
    (options : Options) :
    (Source.schema (.ofTree tree.normalRoot)).generate options =
      (Source.schema (.ofTree tree)).generate options := by
  obtain ⟨hobject, -⟩ := Schema.refusal_eq_none_iff.1 h
  cases hstrip : tree.strip with
  | object members =>
    have hroot := Schema.normalRoot_of_object hstrip
    have hclear : Schema.firstOffence (Schema.fieldPositions members) = none := by
      rw [← Schema.refusal_of_object hstrip]
      exact h
    have hcompile := Compile.compileObject_normalFields options.namer hclear [] []
    have hcompilation : Generation.compilation Schema.noObjects tree.normalRoot options =
        Generation.compilation Schema.noObjects tree options := by
      have hplain := Schema.strip_of_not_isWrapped tree.isWrapped_normalRoot
      rw [Generation.compilation, Generation.compilation, hplain, hroot, hstrip, hcompile]
    rw [generate_schema, generate_schema]
    change ProtoSchema.generate Schema.noObjects tree.normalRoot options =
      ProtoSchema.generate Schema.noObjects tree options
    rw [ProtoSchema.generate, ProtoSchema.generate, hcompilation]
  | shared index => exact index.elim0
  | _ =>
    rw [hstrip] at hobject
    cases hobject

/-- The normal form of a tree is normal and has no layer of optionality around it, and every graph
that stands for the tree has the document of the tree. Either the tree has a document, and all that
is generated from its normal form is what is generated from the tree, definitions, log and document;
or both are refused because something in them has no mapping. -/
theorem generate_normalRoot (tree : Schema 0) (options : Options) :
    tree.normalRoot.isNormal false = true ∧ tree.normalRoot.isWrapped = false ∧
      (∀ graph : SchemaGraph, graph.root.expand graph.objects = some tree →
        (Source.schema graph).generate options =
          (Source.schema (.ofTree tree)).generate options) ∧
      ((∃ text, ((Source.schema (.ofTree tree)).generate options).document = .ok text ∧
          (Source.schema (.ofTree tree.normalRoot)).generate options =
            (Source.schema (.ofTree tree)).generate options) ∨
        ∃ kind other,
          ((Source.schema (.ofTree tree)).generate options).document =
              .error (.unsupported kind) ∧
            ((Source.schema (.ofTree tree.normalRoot)).generate options).document =
              .error (.unsupported other)) := by
  refine ⟨Schema.isNormal_normal false _, tree.isWrapped_normalRoot,
    fun graph hgraph => generate_of_expand hgraph options, ?_⟩
  have hiff := tree.refusal_normalRoot
  cases hrefusal : tree.refusal with
  | none =>
    obtain ⟨text, htext⟩ := exists_document_of_refusal hrefusal options
    exact .inl ⟨text, htext, generate_ofTree_normalRoot hrefusal options⟩
  | some kind =>
    have hdocument := document_of_refusal hrefusal options
    cases hnormal : tree.normalRoot.refusal with
    | none =>
      rw [hiff.1 hnormal] at hrefusal
      cases hrefusal
    | some other => exact .inr ⟨kind, other, hdocument, document_of_refusal hnormal options⟩

/-- The graph of an object that refers to a shared one, with layers of optionality that say nothing
and some that do. -/
def layeredGraph : SchemaGraph where
  size := 1
  objects := fun _ => [("id", .nullable (.optional .string))]
  root := .nullable (.object
    [("owner", .optional (.nullable (.shared ⟨0, Nat.zero_lt_one⟩))),
      ("tags", .optional (.set (.nullable .string)))])

/-- The tree that the graph stands for. -/
def layeredTree : Schema 0 :=
  .nullable (.object
    [("owner", .optional (.nullable (.object [("id", .nullable (.optional .string))]))),
      ("tags", .optional (.set (.nullable .string)))])

/-- The graph has a document, and the normal form of its tree has the same. -/
theorem generate_normalRoot_layeredTree :
    layeredGraph.root.expand layeredGraph.objects = some layeredTree ∧
      layeredTree.normalRoot = .object
        [("owner", .optional (.object [("id", .optional .string)])), ("tags", .array .string)] ∧
      ∃ text, ((Source.schema layeredGraph).generate {}).document = .ok text ∧
        (Source.schema (.ofTree layeredTree.normalRoot)).generate {} =
          (Source.schema layeredGraph).generate {} := by
  have hexpand : layeredGraph.root.expand layeredGraph.objects = some layeredTree := by
    simp [Schema.expand, Schema.expandWith, Schema.expandFields, Schema.expandShared, layeredGraph,
      layeredTree]
  obtain ⟨-, -, hgraph, hdocument⟩ := generate_normalRoot layeredTree {}
  rw [hgraph layeredGraph hexpand]
  refine ⟨hexpand, rfl, ?_⟩
  rcases hdocument with haccepted | ⟨kind, other, hrefused, -⟩
  · exact haccepted
  · have hrefusal : layeredTree.refusal = none := rfl
    obtain ⟨text, htext⟩ := exists_document_of_refusal hrefusal {}
    rw [htext] at hrefused
    cases hrefused

end Source

end ProtoSchema
