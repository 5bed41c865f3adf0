import Mathlib.Data.List.Nodup
import ProtoSchema.Definitions
import ProtoSchema.Proofs.Correspondence
import ProtoSchema.Proofs.Entries

/-!
# Blueprints

A blueprint holds what is defined before it is put into words: the fields of every message and the
options of every enum. Definitions in another naming come from the blueprint with other names in it,
in front of the messages and enums and wherever a field refers to one. Main statements: renamed events
lead to the renamed blueprint, and what is logged about them is the same under the other names, as
long as no two names become one.
-/

namespace ProtoSchema

section Rename

variable (convert : String → String)

/-- The type with other names of definitions. -/
def FieldType.rename : FieldType → FieldType
  | .scalar type => .scalar type
  | .defined name => .defined (convert name)
  | .map key value => .map key.rename value.rename

/-- The field with other names of definitions; its own name is no such name. -/
def FieldDescriptor.rename (field : FieldDescriptor) : FieldDescriptor :=
  { field with type := field.type.rename convert }

/-- The numbered field with other names of definitions. -/
def NumberedField.rename (numbered : NumberedField) : NumberedField :=
  { numbered with field := numbered.field.rename convert }

example :
    ((NumberedField.mk ⟨.map (.scalar .string) (.defined "Home"), "Home", []⟩ 1).rename
      ("Acme" ++ ·)).line = "map<string, AcmeHome> Home = 1;" := by decide

/-- The event with other names of definitions. -/
def Event.rename : Event → Event
  | .message name fields => .message (convert name) (fields.map (·.rename convert))
  | .enumeration name options => .enumeration (convert name) options
  | .objectCompiled label fieldCount => .objectCompiled label fieldCount

/-- The entry of the log with other names of definitions. -/
def LogEntry.rename : LogEntry → LogEntry
  | .messageRedefined name => .messageRedefined (convert name)
  | .messageDefined name fieldCount => .messageDefined (convert name) fieldCount
  | .enumRedefined name => .enumRedefined (convert name)
  | .enumDefined name => .enumDefined (convert name)
  | entry => entry

/-- Other names make a warning of a warning only. -/
theorem LogEntry.shown_map_rename (verbose : Bool) (entries : List LogEntry) :
    shown verbose (entries.map (rename convert)) = (shown verbose entries).map (rename convert) := by
  have hlevel : isWarning ∘ rename convert = isWarning := by
    funext entry
    cases entry <;> rfl
  cases verbose with
  | true => rfl
  | false => simp only [shown, Bool.false_eq_true, if_false, List.filter_map, hlevel]

variable {convert}

/-- A type that corresponds to another by a renaming is that type renamed. -/
theorem FieldType.Corresponds.eq_rename {type other : FieldType}
    (h : FieldType.Corresponds (fun name renamed => convert name = renamed) type other) :
    type.rename convert = other := by
  induction h with
  | scalar type => rfl
  | defined h => rw [rename, h]
  | map _ _ hkey hvalue => rw [rename, hkey, hvalue]

/-- A numbered field that corresponds to another by a renaming is that field renamed. -/
theorem NumberedField.Corresponds.eq_rename {numbered other : NumberedField}
    (h : NumberedField.Corresponds (fun name renamed => convert name = renamed) numbered other) :
    numbered.rename convert = other := by
  obtain ⟨⟨_, _, _⟩, _⟩ := numbered
  obtain ⟨⟨_, _, _⟩, _⟩ := other
  obtain ⟨⟨htype, rfl, rfl⟩, rfl⟩ := h
  rw [rename, FieldDescriptor.rename, htype.eq_rename]

/-- Numbered fields that correspond to others by a renaming are those fields renamed. -/
theorem NumberedField.map_rename_of_corresponds {fields others : List NumberedField}
    (h : List.Forall₂ (NumberedField.Corresponds fun name renamed => convert name = renamed) fields
      others) : fields.map (rename convert) = others := by
  rw [← List.forall₂_eq_eq_eq, List.forall₂_map_left_iff]
  exact h.imp fun _ _ => NumberedField.Corresponds.eq_rename

/-- An event that corresponds to another by a renaming is that event renamed. -/
theorem Event.Corresponds.eq_rename {event other : Event}
    (h : Event.Corresponds (fun name renamed => convert name = renamed) event other) :
    event.rename convert = other := by
  cases h with
  | message hname hfields => rw [rename, hname, NumberedField.map_rename_of_corresponds hfields]
  | enumeration hname options => rw [rename, hname]
  | objectCompiled label fieldCount => rfl

/-- Events that correspond to others by a renaming are those events renamed. -/
theorem Event.map_rename_of_corresponds {events others : List Event}
    (h : List.Forall₂ (Event.Corresponds fun name renamed => convert name = renamed) events
      others) : events.map (rename convert) = others := by
  rw [← List.forall₂_eq_eq_eq, List.forall₂_map_left_iff]
  exact h.imp fun _ _ => Event.Corresponds.eq_rename

end Rename

namespace Catalogue

variable {α β : Type} {convert : String → String}

/-- The catalogue with other names, no two of which become one, and other bodies, which may depend on
the name. -/
def translate (convert : String → String) (h : Function.Injective convert) (body : String → α → β)
    (catalogue : Catalogue α) : Catalogue β where
  entries := catalogue.entries.map fun entry => (convert entry.1, body entry.1 entry.2)
  distinct := by
    have hnames : Entries.names (catalogue.entries.map fun entry =>
        (convert entry.1, body entry.1 entry.2)) = catalogue.names.map convert := by
      simp [Entries.names, names]
    rw [hnames]
    exact catalogue.distinct.map h

/-- Something more may be defined before or after a translation. -/
theorem translate_define (h : Function.Injective convert) (body : String → α → β)
    (catalogue : Catalogue α) (name : String) (value : α) :
    (catalogue.define name value).translate convert h body =
      (catalogue.translate convert h body).define (convert name) (body name value) := by
  simp only [translate, define, Entries.map_put h body]

/-- A translation has the other name exactly if the name is in use. -/
theorem holds_translate (h : Function.Injective convert) (body : String → α → β)
    (catalogue : Catalogue α) (name : String) :
    (catalogue.translate convert h body).holds (convert name) = catalogue.holds name := by
  have hnames : (catalogue.translate convert h body).names = catalogue.names.map convert := by
    simp [translate, names, Entries.names]
  rw [Bool.eq_iff_iff, holds_iff, holds_iff, hnames, List.mem_map_of_injective h]

theorem size_translate (h : Function.Injective convert) (body : String → α → β)
    (catalogue : Catalogue α) : (catalogue.translate convert h body).size = catalogue.size :=
  List.length_map _

end Catalogue

/-- What is defined, before it is put into words. -/
structure Blueprint where
  /-- The messages, each with its fields. -/
  messages : Catalogue (List NumberedField)
  /-- The enums, each with the spellings of its options. -/
  enums : Catalogue (List String)

namespace Blueprint

/-- Nothing is defined. -/
def empty : Blueprint :=
  ⟨.empty, .empty⟩

/-- The blueprint after an event. -/
def record (blueprint : Blueprint) : Event → Blueprint
  | .message name fields => { blueprint with messages := blueprint.messages.define name fields }
  | .enumeration name options => { blueprint with enums := blueprint.enums.define name options }
  | .objectCompiled _ _ => blueprint

/-- The blueprint of what is defined by a list of events. -/
def ofEvents (events : List Event) : Blueprint :=
  events.foldl record empty

/-- The definitions in words: the lines of the messages and the texts of the enums. -/
def definitions (blueprint : Blueprint) : Definitions where
  messages := blueprint.messages.translate id Function.injective_id fun _ fields =>
    fields.map (·.line)
  enums := blueprint.enums.translate id Function.injective_id Definitions.enumText

/-- The blueprint with other names of definitions, no two of which become one. -/
def rename (convert : String → String) (h : Function.Injective convert) (blueprint : Blueprint) :
    Blueprint where
  messages := blueprint.messages.translate convert h fun _ fields => fields.map (·.rename convert)
  enums := blueprint.enums.translate convert h fun _ options => options

/-- Definitions are recorded as the blueprint says. -/
theorem record_definitions (blueprint : Blueprint) (event : Event) :
    (blueprint.definitions.record event).1 = (blueprint.record event).definitions := by
  cases event with
  | message name fields =>
    simp only [Definitions.record, Definitions.defineMessage, record, definitions,
      Catalogue.translate_define, id]
  | enumeration name options =>
    simp only [Definitions.record, Definitions.defineEnum, record, definitions,
      Catalogue.translate_define, id]
  | objectCompiled label fieldCount => rfl

theorem holds_messages (blueprint : Blueprint) (name : String) :
    blueprint.definitions.messages.holds name = blueprint.messages.holds name :=
  Catalogue.holds_translate Function.injective_id _ _ name

theorem holds_enums (blueprint : Blueprint) (name : String) :
    blueprint.definitions.enums.holds name = blueprint.enums.holds name :=
  Catalogue.holds_translate Function.injective_id _ _ name

variable {convert : String → String} (h : Function.Injective convert)

/-- An event may be recorded before or after a renaming. -/
theorem rename_record (blueprint : Blueprint) (event : Event) :
    (blueprint.record event).rename convert h =
      (blueprint.rename convert h).record (event.rename convert) := by
  cases event <;> simp only [record, rename, Event.rename, Catalogue.translate_define]

/-- A renaming does not change how many messages and enums there are. -/
theorem size_rename (blueprint : Blueprint) :
    (blueprint.rename convert h).definitions.messages.size = blueprint.definitions.messages.size ∧
      (blueprint.rename convert h).definitions.enums.size = blueprint.definitions.enums.size := by
  simp [definitions, rename, Catalogue.size_translate]

/-- The log of an event has the other names after a renaming. -/
theorem log_record_rename (blueprint : Blueprint) (event : Event) :
    ((blueprint.rename convert h).definitions.record (event.rename convert)).2 =
      (blueprint.definitions.record event).2.map (·.rename convert) := by
  cases event with
  | message name fields =>
    have hused : (blueprint.rename convert h).messages.holds (convert name) =
        blueprint.messages.holds name := Catalogue.holds_translate h _ _ name
    simp only [Event.rename, Definitions.record, Definitions.defineMessage, holds_messages, hused,
      List.length_map, List.map_append]
    split <;> rfl
  | enumeration name options =>
    have hused : (blueprint.rename convert h).enums.holds (convert name) =
        blueprint.enums.holds name := Catalogue.holds_translate h _ _ name
    simp only [Event.rename, Definitions.record, Definitions.defineEnum, holds_enums, hused,
      List.map_append]
    split <;> rfl
  | objectCompiled label fieldCount => rfl

/-- Renamed events lead from a renamed blueprint to the renamed blueprint of the events. -/
theorem foldl_record_rename (blueprint : Blueprint) (events : List Event) :
    (events.map (·.rename convert)).foldl record (blueprint.rename convert h) =
      (events.foldl record blueprint).rename convert h := by
  induction events generalizing blueprint with
  | nil => rfl
  | cons event rest ih => rw [List.map_cons, List.foldl_cons, List.foldl_cons, ← rename_record, ih]

/-- The log of renamed events has the other names where the blueprint is renamed. -/
theorem log_recordAll_rename (blueprint : Blueprint) (events : List Event) :
    ((blueprint.rename convert h).definitions.recordAll (events.map (·.rename convert))).2 =
      (blueprint.definitions.recordAll events).2.map (·.rename convert) := by
  induction events generalizing blueprint with
  | nil => rfl
  | cons event rest ih =>
    have hlog := log_record_rename h blueprint event
    simp only [List.map_cons, Definitions.recordAll, record_definitions, hlog, List.map_append]
    rw [← rename_record, ih]

/-- Recording events defines what their blueprint says. -/
theorem recordAll_definitions (blueprint : Blueprint) (events : List Event) :
    (blueprint.definitions.recordAll events).1 = (events.foldl record blueprint).definitions := by
  induction events generalizing blueprint with
  | nil => rfl
  | cons event rest ih => simp only [Definitions.recordAll, record_definitions, ih, List.foldl_cons]

end Blueprint

end ProtoSchema
