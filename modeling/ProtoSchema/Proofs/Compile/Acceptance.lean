import ProtoSchema.Proofs.Compile.Tree
import ProtoSchema.Source

/-!
# Which schemas are accepted

A schema that stands for a finite tree is accepted exactly if the tree is an object under its layers
of optionality and no position in it offends. A schema that is not accepted is refused for the kind
of the tree, if the tree is no object, and otherwise for the kind at the first position that
offends. Whether a position offends does not depend on what is around it.
-/

namespace ProtoSchema

open Compile (verdict)
open Schema (Unfolds expandShared firstOffence IsTraversal)

namespace Generation

/-- The document of a tree is refused for what the tree is refused for, if it is. -/
theorem outcome_document_tree (tree : Schema 0) (options : Options) :
    ((generate Schema.noObjects tree options).document.map fun _ => ()) =
      verdict tree.refusal := by
  rw [outcome_document, outcome_compilation]
  cases hobject : tree.strip.isObject with
  | false =>
    have hrefusal : tree.refusal = some tree.strip.kind := by simp [Schema.refusal, hobject]
    rw [Compile.compileObject_of_not_isObject hobject, hrefusal]
    rfl
  | true =>
    cases hstrip : tree.strip with
    | object members =>
      rw [Schema.refusal_of_object hstrip]
      cases hoffence : firstOffence (Schema.fieldPositions members) with
      | none =>
        rw [Compile.compileObject_accepted hoffence]
        rfl
      | some kind =>
        rw [Compile.compileObject_refused hoffence]
        rfl
    | shared index => exact index.elim0
    | _ =>
      rw [hstrip] at hobject
      cases hobject

end Generation

namespace Source

/-- A graph that stands for a finite tree is refused for what the tree is refused for, if it is. -/
theorem outcome_schema (graph : SchemaGraph) (options : Options) {tree : Schema 0}
    (htree : graph.root.expand graph.objects = some tree) :
    (((Source.schema graph).generate options).document.map fun _ => ()) =
      verdict tree.refusal := by
  rw [generate, Source.graph]
  split
  · rename_i cause hcause
    split at hcause
    · rename_i value hroot
      rw [hroot] at htree
      cases hcause
      cases htree
      rfl
    · cases hcause
  · rename_i found hfound
    split at hfound
    · cases hfound
    · cases hfound
      rw [Compile.generate_of_expand options htree, Generation.outcome_document_tree]

/-- A graph that stands for a finite tree is accepted exactly if the tree is an object under its
layers of optionality and no position in the object offends. If it is not accepted, it is refused
for the kind of the stripped tree where that is no object, and otherwise for the kind at the first
offending position. Neither the compilation of a part of the graph nor the list of the positions
inside the part depends on what is around the part. -/
theorem document_schema_iff (graph : SchemaGraph) (options : Options) {tree : Schema 0}
    (htree : graph.root.expand graph.objects = some tree) :
    ((∃ text, ((Source.schema graph).generate options).document = .ok text) ↔
        tree.strip.isObject = true ∧
          ∀ position ∈ tree.strip.positions, position.offends = false) ∧
      (∀ cause, ((Source.schema graph).generate options).document = .error cause →
        (tree.strip.isObject = false ∧ cause = .unsupported tree.strip.kind) ∨
          (tree.strip.isObject = true ∧ ∃ before position after,
            tree.strip.positions = before ++ position :: after ∧
              (∀ earlier ∈ before, earlier.offends = false) ∧ position.offends = true ∧
                cause = .unsupported position.schema.kind)) ∧
      (∀ (namer : Namer) (path : List (OpenObject graph.size)) (place : Place)
        (part : Schema graph.size) (copy : Schema 0),
        Unfolds (expandShared graph.objects (OpenObject.indices path)) part copy →
          (compileField graph.objects namer path place part).outcome =
            (verdict (firstOffence (copy.positions ++ [⟨copy, false⟩]))).map fun _ =>
              [Outline.descriptor namer place copy]) ∧
      IsTraversal tree.strip.positions := by
  have houtcome := outcome_schema graph options htree
  refine ⟨?_, ?_, ?_, Schema.isTraversal_positions _⟩
  · rw [← Schema.refusal_eq_none_iff, ← Compile.verdict_eq_ok_iff, ← houtcome]
    cases ((Source.schema graph).generate options).document with
    | ok text => exact ⟨fun _ => rfl, fun _ => ⟨text, rfl⟩⟩
    | error cause =>
      constructor
      · rintro ⟨text, htext⟩
        cases htext
      · intro h
        cases h
  · intro cause hcause
    have hverdict : verdict tree.refusal = .error cause := by
      rw [← houtcome, hcause]
      rfl
    obtain ⟨kind, hkind, rfl⟩ := Compile.verdict_eq_error_iff.1 hverdict
    unfold Schema.refusal at hkind
    cases hobject : tree.strip.isObject with
    | false =>
      rw [hobject] at hkind
      cases hkind
      exact .inl ⟨rfl, rfl⟩
    | true =>
      rw [hobject] at hkind
      obtain ⟨before, position, after, hsplit, hbefore, hoffends, rfl⟩ :=
        Schema.firstOffence_eq_some_iff.1 hkind
      exact .inr ⟨rfl, before, position, after, hsplit, hbefore, hoffends, rfl⟩
  · intro namer path place part copy hcopy
    rw [Compile.compileField_of_unfolds (fun _ hi => hi) place hcopy fun _ _ i => i.elim0,
      Compile.outcome_field]

/-- The graph of an object that refers to a shared object twice, the second time as the values of a
map, and that has a map whose values are sequences. -/
def unfitValues : SchemaGraph where
  size := 1
  objects := fun _ => [("id", .number true)]
  root := .optional (.object
    [("owner", .shared 0), ("teams", .map .string (.shared 0)),
      ("groups", .nullable (.map .string (.array .boolean)))])

/-- The tree that the graph stands for. -/
def unfitTree : Schema 0 :=
  let shared : Schema 0 := .object [("id", .number true)]
  .optional (.object
    [("owner", shared), ("teams", .map .string shared),
      ("groups", .nullable (.map .string (.array .boolean)))])

/-- The graph stands for that tree. -/
theorem expand_unfitValues : unfitValues.root.expand unfitValues.objects = some unfitTree := by
  simp [Schema.expand, Schema.expandWith, Schema.expandFields, Schema.expandShared, unfitValues,
    unfitTree]

/-- The graph is refused for the sequence that is a part of a map. -/
theorem document_unfitValues :
    unfitValues.root.expand unfitValues.objects = some unfitTree ∧
      ((Source.schema unfitValues).generate {}).document = .error (.unsupported "ArrayNode") := by
  refine ⟨expand_unfitValues, ?_⟩
  obtain ⟨haccepted, hrefused, -, -⟩ := document_schema_iff unfitValues {} expand_unfitValues
  cases hdocument : ((Source.schema unfitValues).generate {}).document with
  | ok text =>
    have hclear := (haccepted.1 ⟨text, hdocument⟩).2 ⟨.array .boolean, true⟩ (by
      simp [unfitTree, Schema.strip, Schema.positions, Schema.fieldPositions])
    cases hclear
  | error cause =>
    rcases hrefused cause hdocument with
      ⟨hroot, -⟩ | ⟨-, before, position, after, hsplit, -, hoffends, rfl⟩
    · cases hroot
    · have hmem : position ∈ unfitTree.strip.positions := by
        rw [hsplit]
        exact List.mem_append_right _ List.mem_cons_self
      simp only [unfitTree, Schema.strip, Schema.positions, Schema.fieldPositions, List.nil_append,
        List.cons_append, List.append_nil, List.mem_cons, List.not_mem_nil, or_false] at hmem
      -- only one of the positions offends
      rcases hmem with rfl | rfl | rfl | rfl | rfl | rfl | rfl | rfl | rfl | rfl | rfl
      all_goals first | rfl | cases hoffends

end Source

end ProtoSchema
