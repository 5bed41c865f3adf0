import ProtoSchema.Compile
import ProtoSchema.Document

/-!
# Sessions

A session collects the definitions of several compilations. It also knows the objects that are open
across calls: a caller may enter an object, compile something inside it, and leave it again.
Whether a call succeeds or fails, what it defined before it ended is recorded, and the objects that
are open afterwards are those that were open before.
-/

namespace ProtoSchema

variable {n : Nat}

/-- The state that calls share. -/
structure Session (n : Nat) where
  /-- What has been defined. -/
  definitions : Definitions := .empty
  /-- The objects that are open, outermost first. -/
  path : List (OpenObject n) := []

/-- What a call yields. -/
structure Reply (n : Nat) (α : Type) where
  /-- The session afterwards. -/
  session : Session n
  /-- What is logged. -/
  log : List LogEntry
  /-- The value of the call, or why there is none. -/
  outcome : Except SchemaError α

namespace Session

/-- Record what a compilation defined, and pass on how it ended. -/
def absorb {α : Type} (session : Session n) (compilation : Compilation α) : Reply n α :=
  let (definitions, log) := session.definitions.recordAll compilation.events
  ⟨{ session with definitions }, log, compilation.outcome⟩

/-- Compile a schema at a place. -/
def compileField (session : Session n) (objects : Objects n) (namer : Namer) (place : Place)
    (schema : Schema n) : Reply n (List FieldDescriptor) :=
  session.absorb (ProtoSchema.compileField objects namer session.path place schema)

/-- Compile the fields of an object. -/
def compileObject (session : Session n) (objects : Objects n) (namer : Namer)
    (scope : List String) (schema : Schema n) : Reply n (List NumberedField) :=
  session.absorb (ProtoSchema.compileObject objects namer session.path scope schema)

/-- Define a message by its lines. -/
def defineMessage (session : Session n) (name : String) (lines : List String) : Reply n Unit :=
  let (definitions, log) := session.definitions.defineMessage name lines
  ⟨{ session with definitions }, log, .ok ()⟩

/-- Define an enum by its text. -/
def defineEnum (session : Session n) (name : String) (text : String) : Reply n Unit :=
  let (definitions, log) := session.definitions.defineEnum name text
  ⟨{ session with definitions }, log, .ok ()⟩

/-- Enter an object under a scope, unless it is a shared one that is open already. -/
def enter (session : Session n) (schema : Schema n) (scope : List String) : Reply n Unit :=
  let label := OpenObject.labelOf scope
  let index := schema.index?
  if index.any (OpenObject.indices session.path).contains then
    ⟨session, [], .error (.cyclic (OpenObject.labels session.path ++ [label]))⟩
  else ⟨{ session with path := session.path ++ [⟨index, label⟩] }, [], .ok ()⟩

/-- Leave the object that was entered last. -/
def leave (session : Session n) : Session n :=
  { session with path := session.path.dropLast }

/-- The document of all that has been defined. -/
def render (session : Session n) (package : String) : String :=
  Document.render session.definitions package

/-- A compilation changes nothing about which objects are open. -/
theorem absorb_path {α : Type} (session : Session n) (compilation : Compilation α) :
    (session.absorb compilation).session.path = session.path := rfl

/-- Leaving undoes entering. -/
theorem leave_enter {session : Session n} {schema : Schema n} {scope : List String}
    (h : (session.enter schema scope).outcome = .ok ()) :
    (session.enter schema scope).session.leave = session := by
  unfold enter at h ⊢
  dsimp only at h ⊢
  split at h
  · cases h
  · rename_i hnew
    simp [hnew, leave]

end Session

end ProtoSchema
