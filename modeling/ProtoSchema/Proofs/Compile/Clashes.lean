import ProtoSchema.Proofs.Compile.Reference
import ProtoSchema.Proofs.Redefinition

/-!
# Names that clash

Messages and enums share one space of names in the language of the document, but each kind is looked
after on its own. A document without warnings has no two messages of one name and no two enums of
one name, and everything that occurs in the schema is defined in it. A clash between a message and
an enum goes without a warning, and it is the only one that does.
-/

namespace ProtoSchema.Source

/-- Where a document is generated, its definitions and the warnings about them are those of the
outline of a tree that the source stands for. -/
theorem outline_of_document (source : Source) (options : Options) {text : String}
    (h : (source.generate options).document = .ok text) :
    ∃ graph tree members, source.graph = .ok graph ∧
      graph.root.expand graph.objects = some tree ∧ tree.strip = .object members ∧
      (source.generate options).definitions =
        Definitions.ofList (Outline.definitions options members) ∧
      LogEntry.shown false (source.generate options).log =
        Definitions.warnings [] (Outline.definitions options members) ∧
      text = Document.render (source.generate options).definitions options.package := by
  cases hgraph : source.graph with
  | error cause =>
    rw [generate, hgraph] at h
    cases h
  | ok graph =>
    have hgenerate : source.generate options =
        ProtoSchema.generate graph.objects graph.root options := by
      rw [generate, hgraph]
    rw [hgenerate] at h ⊢
    obtain ⟨tree, htree⟩ := Compile.expand_of_generate h
    rw [Compile.generate_of_expand options htree] at h ⊢
    obtain ⟨members, hmembers, hevents⟩ := Generation.definitions_events h
    refine ⟨graph, tree, members, rfl, htree, hmembers, ?_, ?_,
      Generation.eq_render_of_document h⟩
    · rw [Generation.definitions_eq, Definitions.recordAll_empty, hevents]
    · rw [Generation.shown_log, ← hevents]
      exact Definitions.shown_recordAll_ofList [] _

/-- A document comes without a warning exactly if no two definitions of one kind share a name. All
definitions have different names exactly if, beyond that, no enum has the name of a message. -/
theorem distinct_names_iff (source : Source) (options : Options) {text : String}
    (h : (source.generate options).document = .ok text) :
    ∃ graph tree members, source.graph = .ok graph ∧
      graph.root.expand graph.objects = some tree ∧ tree.strip = .object members ∧
      (LogEntry.shown false (source.generate options).log = [] ↔
        ((Outline.definitions options members).map (·.key)).Nodup) ∧
      (((Outline.definitions options members).map (·.name)).Nodup ↔
        LogEntry.shown false (source.generate options).log = [] ∧
          ∀ name ∈ (source.generate options).definitions.enums.names,
            name ∉ (source.generate options).definitions.messages.names) := by
  obtain ⟨graph, tree, members, hgraph, htree, hmembers, hdefinitions, hwarnings, -⟩ :=
    outline_of_document source options h
  have hquiet : LogEntry.shown false (source.generate options).log = [] ↔
      ((Outline.definitions options members).map (·.key)).Nodup := by
    rw [hwarnings, Definitions.warnings_nil_iff]
  refine ⟨graph, tree, members, hgraph, htree, hmembers, hquiet, ?_⟩
  rw [hquiet, hdefinitions, Definitions.nodup_name_iff]

/-- The graph of an object whose enums, objects and tuples all have keys of their own. -/
def keysApart : SchemaGraph where
  size := 1
  objects := fun _ => [("name", .string), ("home", .tuple [.number false, .number false])]
  root := .object
    [("status", .enumeration [.text "ACTIVE", .text "CLOSED"]),
      ("teams", .array (.object [("lead", .optional (.shared ⟨0, Nat.zero_lt_one⟩))]))]

/-- The tree that the graph stands for. -/
theorem expand_keysApart :
    keysApart.root.expand keysApart.objects =
      some (.object
        [("status", .enumeration [.text "ACTIVE", .text "CLOSED"]),
          ("teams", .array (.object [("lead", .optional
            (.object [("name", .string), ("home", .tuple [.number false, .number false])]))]))]) := by
  simp [Schema.expand, Schema.expandWith, Schema.expandFields, Schema.expandElements,
    Schema.expandShared, keysApart]

/-- The graph has a document. -/
theorem document_keysApart : ∃ text, ((Source.schema keysApart).generate {}).document = .ok text := by
  have houtcome := outcome_schema keysApart {} expand_keysApart
  cases hdocument : ((Source.schema keysApart).generate {}).document with
  | error cause =>
    rw [hdocument] at houtcome
    cases houtcome
  | ok text => exact ⟨text, rfl⟩

/-- The names of the graph are distinct, and its document comes without a warning. -/
theorem distinct_names_keysApart :
    (∃ text, ((Source.schema keysApart).generate {}).document = .ok text) ∧
      LogEntry.shown false ((Source.schema keysApart).generate {}).log = [] ∧
      ∀ name ∈ ((Source.schema keysApart).generate {}).definitions.enums.names,
        name ∉ ((Source.schema keysApart).generate {}).definitions.messages.names := by
  obtain ⟨text, htext⟩ := document_keysApart
  obtain ⟨graph, tree, members, hgraph, htree, hmembers, -, hdistinct⟩ :=
    distinct_names_iff (.schema keysApart) {} htext
  cases hgraph
  rw [expand_keysApart] at htree
  cases htree
  cases hmembers
  exact ⟨⟨text, htext⟩, hdistinct.1 (by decide)⟩

/-- The graph of an object with an enum under a key that leads to an object elsewhere. -/
def statusTwice : SchemaGraph where
  size := 0
  objects := Schema.noObjects
  root := .object
    [("status", .enumeration [.text "ACTIVE", .text "CLOSED"]),
      ("order", .object [("status", .object [("code", .number true)])])]

/-- The enum and the message have one name, and no warning tells so. -/
theorem names_statusTwice :
    (∃ text, ((Source.schema statusTwice).generate {}).document = .ok text) ∧
      LogEntry.shown false ((Source.schema statusTwice).generate {}).log = [] ∧
      ¬ (((Source.schema statusTwice).generate {}).definitions.enums.names ++
          ((Source.schema statusTwice).generate {}).definitions.messages.names).Nodup := by
  refine ⟨⟨_, rfl⟩, by decide, by decide⟩

end ProtoSchema.Source
