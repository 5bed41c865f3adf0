import ProtoSchema.Proofs.Compile.Acceptance
import ProtoSchema.Proofs.Definitions

/-!
# The definitions of a document

The definitions of a document are read off the tree that its source stands for: one for each
occurrence of an enum, an object or a tuple, in post-order, and the root message at the end. Those
of equal name are merged, the messages and the enums apart.
-/

namespace ProtoSchema

namespace Outline

variable {n : Nat}

/-- The definition that an occurrence leads to. -/
def Occurrence.definition (namer : Namer) : Occurrence n → Definition
  | .object place members =>
    .message (namer.nameFor place.key place.scope)
      ((NumberedField.consecutive 1 (objectFields namer place.inner members)).map (·.line))
  | .tuple place elements =>
    .message (namer.nameFor place.key place.scope)
      ((NumberedField.consecutive 1 (tupleFields namer place 0 elements)).map (·.line))
  | .enumeration place options =>
    .enumeration (namer.nameFor place.key place.scope)
      (Definitions.enumText (namer.nameFor place.key place.scope) (options.map (·.spelling)))

/-- The name of the root message. -/
def rootName (options : Options) : String :=
  options.namer.rootName options.rootMessage

/-- The lines of the root message of an object. -/
def rootLines (options : Options) (members : List (String × Schema n)) : List String :=
  (NumberedField.consecutive 1 (objectFields options.namer [] members)).map (·.line)

/-- The definitions that the document of an object is made of: those of the occurrences in its
fields, each after those inside it, and that of the root message. -/
def definitions (options : Options) (members : List (String × Schema n)) : List Definition :=
  (memberOccurrences [] members).map (·.definition options.namer) ++
    [.message (rootName options) (rootLines options members)]

/-- An occurrence reports one definition. -/
theorem filterMap_events (namer : Namer) (occurrence : Occurrence n) :
    (occurrence.events namer).filterMap Event.definition? = [occurrence.definition namer] := by
  cases occurrence <;> rfl

/-- A list of occurrences reports their definitions, in the order of the occurrences. -/
theorem filterMap_reports (namer : Namer) (occurrences : List (Occurrence n)) :
    (Compile.reports namer occurrences).filterMap Event.definition? =
      occurrences.map (·.definition namer) := by
  induction occurrences with
  | nil => rfl
  | cons occurrence rest ih =>
    rw [Compile.reports] at ih ⊢
    rw [List.flatMap_cons, List.filterMap_append, filterMap_events, ih, List.map_cons,
      List.singleton_append]

/-- The message of the root name has the lines of the root message, whatever else has the name. -/
theorem lookup_rootName (options : Options) (members : List (String × Schema n)) :
    (Definitions.ofList (definitions options members)).messages.entries.lookup (rootName options) =
      some (rootLines options members) := by
  have hlast : (definitions options members).filterMap Definition.message? =
      ((memberOccurrences [] members).map (·.definition options.namer)).filterMap
        Definition.message? ++ [(rootName options, rootLines options members)] := by
    rw [definitions, List.filterMap_append]
    rfl
  change (Entries.merged _).lookup _ = _
  rw [hlast]
  exact Entries.lookup_merged_last _ _ _

example :
    let lead : Schema 0 := .object [("name", .string)]
    (definitions {} [("teams", .array (.object [("lead", .optional lead)]))]).filterMap
        Definition.message? =
      [("Lead", ["string name = 1;"]), ("Team", ["optional Lead lead = 1;"]),
        ("Message", ["repeated Team teams = 1;"])] := by decide

end Outline

namespace Compile

open Schema (Unfolds expandShared)

/-- Where an object compiles, the tree that it stands for is an object in which no position offends.
The fields are those of the outline, and what is defined are the definitions of the occurrences. -/
theorem outline_of_ok {n : Nat} {objects : Objects n} {namer : Namer} {path : List (OpenObject n)}
    {scope : List String} {schema : Schema n} {tree : Schema 0} {fields : List NumberedField}
    (htree : Unfolds (expandShared objects (OpenObject.indices path)) schema tree)
    (h : (compileObject objects namer path scope schema).outcome = .ok fields) :
    ∃ members, tree = .object members ∧
      Schema.firstOffence (Schema.fieldPositions members) = none ∧
      fields = NumberedField.consecutive 1 (Outline.objectFields namer scope members) ∧
      (compileObject objects namer path scope schema).events.filterMap Event.definition? =
        (Outline.memberOccurrences scope members).map (·.definition namer) := by
  have hcompile : compileObject objects namer path scope schema =
      compileObject Schema.noObjects namer [] scope tree :=
    compileObject_of_unfolds (fun _ hi => hi) scope htree
  rw [hcompile] at h ⊢
  obtain ⟨members, rfl, hoffence⟩ := exists_members_of_ok h
  rw [compileObject_accepted hoffence] at h ⊢
  refine ⟨members, rfl, hoffence, (Except.ok.inj h).symm, ?_⟩
  rw [List.filterMap_append, Outline.filterMap_reports]
  exact List.append_nil _

end Compile

namespace Generation

/-- What the compilation of a tree defines that has a document are the definitions of its outline. -/
theorem definitions_events {tree : Schema 0} {options : Options} {text : String}
    (h : (generate Schema.noObjects tree options).document = .ok text) :
    ∃ members, tree.strip = .object members ∧
      (compilation Schema.noObjects tree options).events.filterMap Event.definition? =
        Outline.definitions options members := by
  obtain ⟨fields, hfields⟩ := exists_fields_of_document h
  obtain ⟨members, hstrip, hoffence⟩ := Compile.exists_members_of_ok hfields
  refine ⟨members, hstrip, ?_⟩
  have hobject : compileObject Schema.noObjects options.namer [] [] (.object members) =
      ⟨Compile.reports options.namer (Outline.memberOccurrences [] members) ++
          [.objectCompiled (OpenObject.labelOf []) members.length],
        .ok (NumberedField.consecutive 1 (Outline.objectFields options.namer [] members))⟩ :=
    Compile.compileObject_accepted hoffence
  rw [← hstrip] at hobject
  have houtcome := congrArg Compilation.outcome hobject
  rw [events_compilation houtcome, hobject, List.filterMap_append, List.filterMap_append,
    Outline.filterMap_reports]
  simp [Outline.definitions, Event.definition?, Outline.rootName, Outline.rootLines]

/-- The definitions of a tree that has a document are those of its outline. -/
theorem definitions_tree {tree : Schema 0} {options : Options} {text : String}
    (h : (generate Schema.noObjects tree options).document = .ok text) :
    ∃ members, tree.strip = .object members ∧
      (generate Schema.noObjects tree options).definitions =
        Definitions.ofList (Outline.definitions options members) := by
  obtain ⟨members, hmembers, hevents⟩ := definitions_events h
  exact ⟨members, hmembers, by rw [definitions_eq, Definitions.recordAll_empty, hevents]⟩

end Generation

namespace Source

/-- Whatever a document is generated from stands for a finite tree that is an object under its
layers of optionality. The definitions are those of the occurrences in the tree, in post-order, with
the root message at the end and those of equal name merged; the document is their rendering, and
the message of the root name has the fields of the root. -/
theorem document_eq_reference (source : Source) (options : Options) {text : String}
    (h : (source.generate options).document = .ok text) :
    ∃ graph tree members, source.graph = .ok graph ∧
      graph.root.expand graph.objects = some tree ∧ tree.strip = .object members ∧
      (source.generate options).definitions =
        Definitions.ofList (Outline.definitions options members) ∧
      text = Document.render (Definitions.ofList (Outline.definitions options members))
        options.package ∧
      (source.generate options).definitions.messages.entries.lookup (Outline.rootName options) =
        some (Outline.rootLines options members) := by
  cases hgraph : source.graph with
  | error cause =>
    rw [generate, hgraph] at h
    cases h
  | ok graph =>
    have hgenerate : source.generate options =
        ProtoSchema.generate graph.objects graph.root options := by
      rw [generate, hgraph]
    rw [hgenerate] at h ⊢
    obtain ⟨tree, htree⟩ := Compile.expand_of_generate h
    rw [Compile.generate_of_expand options htree] at h ⊢
    obtain ⟨members, hmembers, hdefinitions⟩ := Generation.definitions_tree h
    have htext := Generation.eq_render_of_document h
    refine ⟨graph, tree, members, rfl, htree, hmembers, hdefinitions, ?_, ?_⟩
    · rw [htext, hdefinitions]
    · rw [hdefinitions]
      exact Outline.lookup_rootName options members

/-- The graph of an object whose only field leads to a message that has the name of the root. -/
def rootNamesake : SchemaGraph where
  size := 0
  objects := Schema.noObjects
  root := .object [("message", .object [("id", .number true)])]

/-- The root message replaces the message of its name. -/
theorem definitions_rootNamesake :
    ∃ text, ((Source.schema rootNamesake).generate {}).document = .ok text ∧
      ((Source.schema rootNamesake).generate {}).definitions.messages.entries =
        [("Message", ["Message message = 1;"])] := by
  have houtcome := outcome_schema rootNamesake {} rfl
  cases hdocument : ((Source.schema rootNamesake).generate {}).document with
  | error cause =>
    rw [hdocument] at houtcome
    cases houtcome
  | ok text =>
    obtain ⟨graph, tree, members, hgraph, htree, hmembers, hdefinitions, -, -⟩ :=
      document_eq_reference (.schema rootNamesake) {} hdocument
    cases hgraph
    cases htree
    cases hmembers
    refine ⟨text, rfl, ?_⟩
    rw [hdefinitions]
    decide

end Source

end ProtoSchema
