import ProtoSchema.Field
import ProtoSchema.SchemaError

/-!
# Compilations

A compilation defines messages and enums on the way to its result. What it defines is kept as the
list of its events, in the order in which they happen, and that list is there also when the
compilation ends with an error. Where the definitions go is not its concern: the events are
recorded afterwards. One compilation after another has the events of both, and none of the second
if the first fails.
-/

namespace ProtoSchema

/-- Something that happens during a compilation. -/
inductive Event where
  /-- A message is defined by its fields. -/
  | message (name : String) (fields : List NumberedField)
  /-- An enum is defined by the spellings of its options. -/
  | enumeration (name : String) (options : List String)
  /-- An object, known by its label, is compiled into so many fields. -/
  | objectCompiled (label : String) (fieldCount : Nat)
  deriving DecidableEq

/-- A result or an error, and what happened until then. -/
structure Compilation (α : Type) where
  /-- What happened, in order. -/
  events : List Event
  /-- How it ended. -/
  outcome : Except SchemaError α

namespace Compilation

variable {α β : Type}

/-- The compilation in which nothing happens. -/
def done (value : α) : Compilation α :=
  ⟨[], .ok value⟩

/-- One compilation after another. -/
def andThen (first : Compilation α) (next : α → Compilation β) : Compilation β :=
  match first.outcome with
  | .ok value => ⟨first.events ++ (next value).events, (next value).outcome⟩
  | .error cause => ⟨first.events, .error cause⟩

instance : Monad Compilation where
  pure := done
  bind := andThen

/-- The compilation that consists of one event. -/
def emit (event : Event) : Compilation Unit :=
  ⟨[event], .ok ()⟩

/-- The compilation that fails at once. -/
def fail (cause : SchemaError) : Compilation α :=
  ⟨[], .error cause⟩

theorem pure_eq (value : α) : (pure value : Compilation α) = ⟨[], .ok value⟩ := rfl

theorem bind_of_ok {first : Compilation α} {value : α} (h : first.outcome = .ok value)
    (next : α → Compilation β) :
    first >>= next = ⟨first.events ++ (next value).events, (next value).outcome⟩ := by
  simp [bind, andThen, h]

theorem bind_of_error {first : Compilation α} {cause : SchemaError}
    (h : first.outcome = .error cause) (next : α → Compilation β) :
    first >>= next = ⟨first.events, .error cause⟩ := by
  simp [bind, andThen, h]

end Compilation

end ProtoSchema
