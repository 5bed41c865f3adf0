import Mathlib.Data.List.Forall2
import ProtoSchema.Proofs.Compilation

/-!
# Compilations that differ in names

Two compilations correspond if they take the same course and only the names of messages and enums in
them differ, where a relation says which name may stand for which. Field names, modifiers, numbers,
scalar types, the shape of maps, the options of enums and the labels of objects are the same in both.
Compilations that are put together from corresponding ones correspond.
-/

namespace ProtoSchema

variable {allowed : String → String → Prop}

section Types

variable (allowed)

/-- Two types differ in the names of definitions alone. -/
inductive FieldType.Corresponds : FieldType → FieldType → Prop where
  /-- Scalar types are the same. -/
  | scalar (type : Scalar) : Corresponds (.scalar type) (.scalar type)
  /-- The name of a definition stands for another. -/
  | defined {name other : String} (h : allowed name other) :
      Corresponds (.defined name) (.defined other)
  /-- Maps have corresponding parts. -/
  | map {key otherKey value otherValue : FieldType} (hkey : Corresponds key otherKey)
      (hvalue : Corresponds value otherValue) :
      Corresponds (.map key value) (.map otherKey otherValue)

/-- Two fields differ in the names of definitions alone. -/
structure FieldDescriptor.Corresponds (field other : FieldDescriptor) : Prop where
  /-- The types correspond. -/
  type : FieldType.Corresponds allowed field.type other.type
  /-- The fields have the same name. -/
  name : field.name = other.name
  /-- The fields have the same modifiers. -/
  modifiers : field.modifiers = other.modifiers

/-- Two numbered fields differ in the names of definitions alone. -/
structure NumberedField.Corresponds (numbered other : NumberedField) : Prop where
  /-- The fields correspond. -/
  field : FieldDescriptor.Corresponds allowed numbered.field other.field
  /-- The numbers are the same. -/
  number : numbered.number = other.number

/-- Two events are of one kind and differ in the names of definitions alone. -/
inductive Event.Corresponds : Event → Event → Prop where
  /-- Messages are defined by fields that correspond one by one. -/
  | message {name other : String} {fields others : List NumberedField} (hname : allowed name other)
      (hfields : List.Forall₂ (NumberedField.Corresponds allowed) fields others) :
      Corresponds (.message name fields) (.message other others)
  /-- Enums are defined by the same options. -/
  | enumeration {name other : String} (hname : allowed name other) (options : List String) :
      Corresponds (.enumeration name options) (.enumeration other options)
  /-- Objects have the same label and as many fields. -/
  | objectCompiled (label : String) (fieldCount : Nat) :
      Corresponds (.objectCompiled label fieldCount) (.objectCompiled label fieldCount)

/-- Two outcomes are values that are related, or errors for the same cause. -/
inductive Compilation.EndsAlike {α β : Type} (values : α → β → Prop) :
    Except SchemaError α → Except SchemaError β → Prop where
  /-- Both are values. -/
  | ok {value : α} {other : β} (h : values value other) : EndsAlike values (.ok value) (.ok other)
  /-- Both are errors. -/
  | error (cause : SchemaError) : EndsAlike values (.error cause) (.error cause)

/-- Two compilations take the same course: what happens in them corresponds step by step, and they
end alike. -/
structure Compilation.Corresponds {α β : Type} (values : α → β → Prop) (first : Compilation α)
    (second : Compilation β) : Prop where
  /-- The events correspond one by one. -/
  events : List.Forall₂ (Event.Corresponds allowed) first.events second.events
  /-- The outcomes are alike. -/
  outcome : EndsAlike values first.outcome second.outcome

end Types

/-- Corresponding fields are numbered alike. -/
theorem NumberedField.corresponds_consecutive {fields others : List FieldDescriptor}
    (h : List.Forall₂ (FieldDescriptor.Corresponds allowed) fields others) (start : Nat) :
    List.Forall₂ (NumberedField.Corresponds allowed) (consecutive start fields)
      (consecutive start others) := by
  induction h generalizing start with
  | nil => exact .nil
  | cons hfield _ ih => exact .cons ⟨hfield, rfl⟩ (ih (start + 1))

namespace Compilation

variable {α β γ δ : Type} {values : α → β → Prop} {results : γ → δ → Prop}

theorem corresponds_pure {value : α} {other : β} (h : values value other) :
    Corresponds allowed values (pure value) (pure other) :=
  ⟨.nil, .ok h⟩

theorem corresponds_fail (cause : SchemaError) :
    Corresponds allowed values (fail cause) (fail cause) :=
  ⟨.nil, .error cause⟩

/-- Outcomes with the same values are the same. -/
theorem EndsAlike.eq {outcome other : Except SchemaError α} (h : EndsAlike Eq outcome other) :
    outcome = other := by
  cases h with
  | ok h => rw [h]
  | error cause => rfl

/-- Where compilations correspond, so do those that go on from their values. -/
theorem Corresponds.bind {first : Compilation α} {second : Compilation β}
    (h : Corresponds allowed values first second) {next : α → Compilation γ}
    {other : β → Compilation δ}
    (hnext : ∀ value otherValue, values value otherValue →
      Corresponds allowed results (next value) (other otherValue)) :
    Corresponds allowed results (first >>= next) (second >>= other) := by
  obtain ⟨events, outcome⟩ := first
  obtain ⟨otherEvents, otherOutcome⟩ := second
  obtain ⟨hevents, houtcome⟩ := h
  cases houtcome with
  | error cause => exact ⟨hevents, .error cause⟩
  | ok hvalue =>
    have hrest := hnext _ _ hvalue
    exact ⟨List.rel_append hevents hrest.events, hrest.outcome⟩

end Compilation

end ProtoSchema
