import ProtoSchema.Proofs.Blueprint
import ProtoSchema.Proofs.Compile.Naming
import ProtoSchema.Source

/-!
# The text in front of names

A namer puts the same text in front of every name that it gives, also in front of that of the root
message. Main statement: the text has no influence on whether a document is generated, and what is
defined and logged with a text in front is what is defined and logged without one, renamed. In
particular no names clash with a text in front that are different without it.
-/

namespace ProtoSchema

variable {n : Nat}

/-- The options with a text in front of names. -/
def Options.withLead (options : Options) (lead : String) : Options :=
  { options with typeLead := lead }

/-- A text in front of names is set by the last of several settings. -/
theorem Options.override_typeLead (options : Options) (settings : List Setting) (lead : String) :
    options.override (settings ++ [.typeLead lead]) =
      (options.override (settings ++ [.typeLead ""])).map (·.withLead lead) := by
  have hknown : ∀ text, (settings ++ [Setting.typeLead text]).findSome? Setting.unknownName? =
      settings.findSome? Setting.unknownName? := by
    intro text
    rw [List.findSome?_append]
    exact Option.or_none
  simp only [override, hknown, List.foldl_append, List.foldl_cons, List.foldl_nil, Draft.set, check]
  cases settings.findSome? Setting.unknownName? with
  | some name => rfl
  | none =>
    dsimp only
    split
    · rfl
    · split <;> rfl

/-- No two names become one when a text is put in front of them. -/
theorem lead_injective (lead : String) : Function.Injective (lead ++ ·) :=
  fun _ _ h => (String.append_right_inj lead).1 h

/-- The blueprint with a text put in front of all names of definitions. -/
def Blueprint.withLead (blueprint : Blueprint) (lead : String) : Blueprint :=
  blueprint.rename (lead ++ ·) (lead_injective lead)

namespace Generation

/-- The blueprint of what is defined for the document of a schema. -/
def blueprint (objects : Objects n) (schema : Schema n) (options : Options) : Blueprint :=
  .ofEvents (compilation objects schema options).events

/-- The compilations of a document without a text in front of names and with one correspond. -/
theorem corresponds_compilation (objects : Objects n) (schema : Schema n) (options : Options)
    (lead : String) :
    Compilation.Corresponds (fun name renamed => lead ++ name = renamed) Eq
      (compilation objects schema (options.withLead ""))
      (compilation objects schema (options.withLead lead)) := by
  have hnames : ∀ key scope, lead ++ (options.withLead "").namer.nameFor key scope =
      (options.withLead lead).namer.nameFor key scope := by
    intro key scope
    rw [Namer.nameFor, Namer.nameFor, ← String.append_assoc]
    exact congrArg (· ++ _) String.append_empty
  have hroot : lead ++ (options.withLead "").namer.rootName (options.withLead "").rootMessage =
      (options.withLead lead).namer.rootName (options.withLead lead).rootMessage := by
    rw [Namer.rootName, Namer.rootName, ← String.append_assoc]
    exact congrArg (· ++ _) String.append_empty
  refine (Compile.corresponds_compileObject hnames objects [] [] schema.strip).bind ?_
  exact fun fields others hfields => ⟨.cons (.message hroot hfields) .nil, .ok rfl⟩

variable (objects : Objects n) (schema : Schema n) (options : Options) (lead : String)

/-- With a text in front of names, the same happens under the other names. -/
theorem events_withLead :
    (compilation objects schema (options.withLead lead)).events =
      (compilation objects schema (options.withLead "")).events.map (·.rename (lead ++ ·)) :=
  (Event.map_rename_of_corresponds
    (corresponds_compilation objects schema options lead).events).symm

/-- With a text in front of names, a compilation ends alike. -/
theorem outcome_withLead :
    (compilation objects schema (options.withLead lead)).outcome =
      (compilation objects schema (options.withLead "")).outcome :=
  (corresponds_compilation objects schema options lead).outcome.eq.symm

/-- What is defined for a document is what its blueprint says. -/
theorem definitions_eq_blueprint :
    (generate objects schema options).definitions =
      (blueprint objects schema options).definitions := by
  rw [definitions_eq]
  exact Blueprint.recordAll_definitions .empty _

/-- With a text in front of names, the blueprint is the one without, renamed. -/
theorem blueprint_withLead :
    blueprint objects schema (options.withLead lead) =
      (blueprint objects schema (options.withLead "")).withLead lead := by
  rw [blueprint, events_withLead]
  exact Blueprint.foldl_record_rename (lead_injective lead) .empty _

/-- With a text in front of names, the same is logged under the other names. -/
theorem log_withLead :
    (generate objects schema (options.withLead lead)).log =
      (generate objects schema (options.withLead "")).log.map (·.rename (lead ++ ·)) := by
  have hevents := Blueprint.log_recordAll_rename (lead_injective lead) .empty
    (compilation objects schema (options.withLead "")).events
  rw [← events_withLead] at hevents
  have hsizes := (blueprint objects schema (options.withLead "")).size_rename (lead_injective lead)
  rw [log_eq, log_eq, List.map_append, outcome_withLead, definitions_eq_blueprint,
    definitions_eq_blueprint, blueprint_withLead, Blueprint.withLead, hsizes.1, hsizes.2]
  refine congrArg₂ _ hevents ?_
  cases (compilation objects schema (options.withLead "")).outcome <;> rfl

/-- With a text in front of names, there is a document exactly if there is one without. -/
theorem document_withLead :
    (generate objects schema (options.withLead lead)).document =
      (generate objects schema (options.withLead "")).document.map fun _ =>
        Document.render (generate objects schema (options.withLead lead)).definitions
          options.package := by
  rw [document_eq, document_eq, outcome_withLead]
  cases (compilation objects schema (options.withLead "")).outcome <;> rfl

end Generation

namespace Source

/-- The blueprint of what is defined for the document of a source. -/
def blueprint (source : Source) (options : Options) : Blueprint :=
  match source.graph with
  | .error _ => .empty
  | .ok graph => Generation.blueprint graph.objects graph.root options

/-- A text in front of names renames what is generated, and does nothing else. It is set beside any
other settings. With it and without it, a document is generated or refused for the same cause; its
definitions are the blueprint of the source in words, with the text put in front of all names of
definitions in it, and its log and the warnings in it are the same under these names. -/
theorem generate_withLead (source : Source) (options : Options) (lead : String) :
    let plain := source.generate (options.withLead "")
    let led := source.generate (options.withLead lead)
    let blueprint := source.blueprint (options.withLead "")
    (∀ settings, options.override (settings ++ [.typeLead lead]) =
        (options.override (settings ++ [.typeLead ""])).map (·.withLead lead)) ∧
      source.blueprint (options.withLead lead) = blueprint.withLead lead ∧
      plain.definitions = blueprint.definitions ∧
      led.definitions = (blueprint.withLead lead).definitions ∧
      led.log = plain.log.map (·.rename (lead ++ ·)) ∧
      LogEntry.shown false led.log =
        (LogEntry.shown false plain.log).map (·.rename (lead ++ ·)) ∧
      plain.document =
        plain.document.map (fun _ => Document.render plain.definitions options.package) ∧
      led.document =
        plain.document.map (fun _ => Document.render led.definitions options.package) := by
  intro plain led blueprint
  refine ⟨fun settings => options.override_typeLead settings lead, ?_⟩
  cases hgraph : source.graph with
  | error cause =>
    simp only [plain, led, blueprint, generate, Source.blueprint, hgraph]
    exact ⟨rfl, rfl, rfl, rfl, rfl, rfl, rfl⟩
  | ok graph =>
    have hblueprint := Generation.blueprint_withLead graph.objects graph.root options lead
    have hdefinitions :=
      Generation.definitions_eq_blueprint graph.objects graph.root (options.withLead lead)
    have hlog := Generation.log_withLead graph.objects graph.root options lead
    have hshown := LogEntry.shown_map_rename (lead ++ ·) false
      (ProtoSchema.generate graph.objects graph.root (options.withLead "")).log
    rw [← hlog] at hshown
    rw [hblueprint] at hdefinitions
    simp only [plain, led, blueprint, generate, Source.blueprint, hgraph]
    exact ⟨hblueprint, Generation.definitions_eq_blueprint _ _ _, hdefinitions, hlog, hshown,
      Generation.document_withLead _ _ options "", Generation.document_withLead _ _ options lead⟩

end Source

end ProtoSchema
