import ProtoSchema.Definitions
import ProtoSchema.Proofs.Entries

/-!
# Definitions as a list

The definitions of a document are given by a list of definitions, of which those of equal name are
merged, the messages and the enums apart. Recording the events of a compilation collects the
definitions of such a list.
-/

namespace ProtoSchema

/-- A definition of a message or of an enum. -/
inductive Definition where
  /-- A message with the lines that declare its fields. -/
  | message (name : String) (lines : List String)
  /-- An enum with its whole text. -/
  | enumeration (name : String) (text : String)

namespace Definition

/-- The name and the lines of the message that is defined, if it is one. -/
def message? : Definition → Option (String × List String)
  | .message name lines => some (name, lines)
  | .enumeration _ _ => none

/-- The name and the text of the enum that is defined, if it is one. -/
def enumeration? : Definition → Option (String × String)
  | .message _ _ => none
  | .enumeration name text => some (name, text)

end Definition

/-- What an event defines, if it defines something. -/
def Event.definition? : Event → Option Definition
  | .message name fields => some (.message name (fields.map (·.line)))
  | .enumeration name options => some (.enumeration name (Definitions.enumText name options))
  | .objectCompiled _ _ => none

namespace Catalogue

variable {α : Type}

/-- The catalogue of a list of definitions of one kind, those of equal name merged. -/
def ofList (entries : List (String × α)) : Catalogue α :=
  ⟨Entries.merged entries, Entries.nodup_names_merged entries⟩

/-- Defining one thing more is adding it to the end of the list. -/
theorem define_ofList (entries : List (String × α)) (name : String) (body : α) :
    (ofList entries).define name body = ofList (entries ++ [(name, body)]) := by
  simp only [ofList, define, Entries.merged_append_singleton]

end Catalogue

namespace Definitions

/-- The definitions of a list, those of equal name merged, the messages and the enums apart. -/
def ofList (list : List Definition) : Definitions :=
  ⟨.ofList (list.filterMap Definition.message?), .ofList (list.filterMap Definition.enumeration?)⟩

/-- Recording an event adds what it defines to the end of the list. -/
theorem record_ofList (list : List Definition) (event : Event) :
    ((ofList list).record event).1 = ofList (list ++ event.definition?.toList) := by
  cases event with
  | message name fields =>
    simp [record, defineMessage, ofList, Event.definition?, Definition.message?,
      Definition.enumeration?, Catalogue.define_ofList, List.filterMap_cons]
  | enumeration name options =>
    simp [record, defineEnum, ofList, Event.definition?, Definition.message?,
      Definition.enumeration?, Catalogue.define_ofList, List.filterMap_cons]
  | objectCompiled label fieldCount => simp [record, Event.definition?]

/-- Recording a list of events adds what they define to the end of the list. -/
theorem recordAll_ofList (list : List Definition) (events : List Event) :
    ((ofList list).recordAll events).1 = ofList (list ++ events.filterMap Event.definition?) := by
  induction events generalizing list with
  | nil => simp [recordAll]
  | cons event rest ih =>
    have hrest := ih (list ++ event.definition?.toList)
    have hlist : list ++ event.definition?.toList ++ rest.filterMap Event.definition? =
        list ++ (event :: rest).filterMap Event.definition? := by
      rw [List.filterMap_cons, List.append_assoc]
      cases event.definition? <;> rfl
    change (((ofList list).record event).1.recordAll rest).1 = _
    rw [record_ofList, hrest, hlist]

/-- What a list of events defines from the start on is what the list of its definitions holds. -/
theorem recordAll_empty (events : List Event) :
    (empty.recordAll events).1 = ofList (events.filterMap Event.definition?) :=
  recordAll_ofList [] events

/-- The definitions with one more made. -/
def add (definitions : Definitions) : Definition → Definitions
  | .message name lines => (definitions.defineMessage name lines).1
  | .enumeration name text => (definitions.defineEnum name text).1

/-- The definitions with those of a list made one after the other. -/
def addAll (definitions : Definitions) (list : List Definition) : Definitions :=
  list.foldl add definitions

/-- Recording a list of events makes the definitions of the list, whatever was defined before. -/
theorem recordAll_eq_addAll (definitions : Definitions) (events : List Event) :
    (definitions.recordAll events).1 = definitions.addAll (events.filterMap Event.definition?) := by
  induction events generalizing definitions with
  | nil => rfl
  | cons event rest ih =>
    change ((definitions.record event).1.recordAll rest).1 = _
    rw [ih, List.filterMap_cons]
    cases event <;> rfl

end Definitions

end ProtoSchema
