import ProtoSchema.Proofs.Compile.InTurn

/-!
# Calls that share a session

A session may be used for any calls one after the other: schemas and objects are compiled, and
messages and enums are defined by hand, and a call may fail. What a call yields is what it yields in
a session of its own, and names that are in use keep their order, with new ones after them.
-/

namespace ProtoSchema

variable {n : Nat}

/-- The names that are in use before are in use afterwards, in the same order and in front of all
others. -/
structure Definitions.Extends (before after : Definitions) : Prop where
  /-- The names of messages go on from those before. -/
  messages : before.messages.names <+: after.messages.names
  /-- The names of enums go on from those before. -/
  enums : before.enums.names <+: after.enums.names

/-- A catalogue keeps the order of its names when something is defined. -/
theorem Catalogue.names_isPrefix_define {α : Type} (catalogue : Catalogue α) (name : String)
    (body : α) : catalogue.names <+: (catalogue.define name body).names := by
  rw [names_define]
  split
  · exact List.prefix_refl _
  · exact List.prefix_append _ _

namespace Definitions.Extends

theorem refl (definitions : Definitions) : Extends definitions definitions :=
  ⟨List.prefix_refl _, List.prefix_refl _⟩

theorem trans {first second third : Definitions} (h : Extends first second)
    (hnext : Extends second third) : Extends first third :=
  ⟨h.messages.trans hnext.messages, h.enums.trans hnext.enums⟩

/-- Defining a message adds its name at the end, if at all. -/
theorem defineMessage (definitions : Definitions) (name : String) (lines : List String) :
    Extends definitions (definitions.defineMessage name lines).1 :=
  ⟨definitions.messages.names_isPrefix_define name lines, List.prefix_refl _⟩

/-- Defining an enum adds its name at the end, if at all. -/
theorem defineEnum (definitions : Definitions) (name text : String) :
    Extends definitions (definitions.defineEnum name text).1 :=
  ⟨List.prefix_refl _, definitions.enums.names_isPrefix_define name text⟩

/-- An event adds a name at the end, if at all. -/
theorem record (definitions : Definitions) (event : Event) :
    Extends definitions (definitions.record event).1 := by
  cases event with
  | message name fields => exact defineMessage definitions name _
  | enumeration name options => exact defineEnum definitions name _
  | objectCompiled label fieldCount => exact refl definitions

/-- A list of events adds names at the end. -/
theorem recordAll (definitions : Definitions) (events : List Event) :
    Extends definitions (definitions.recordAll events).1 := by
  induction events generalizing definitions with
  | nil => exact refl definitions
  | cons event rest ih => exact (record definitions event).trans (ih _)

end Definitions.Extends

/-- Something that is done in a session. -/
inductive Action (n : Nat) where
  /-- Compile something. -/
  | compile (call : Call n)
  /-- Define a message by its lines. -/
  | defineMessage (name : String) (lines : List String)
  /-- Define an enum by its text. -/
  | defineEnum (name : String) (text : String)

namespace Session

/-- The session after an action. -/
def act (session : Session n) : Action n → Session n
  | .compile call => session.after call
  | .defineMessage name lines => (session.defineMessage name lines).session
  | .defineEnum name text => (session.defineEnum name text).session

/-- What an action yields: nothing, if something is defined by hand. -/
def respond (session : Session n) : Action n → Except SchemaError (Option Answer)
  | .compile call => (session.answer call).map some
  | .defineMessage name lines => (session.defineMessage name lines).outcome.map fun _ => none
  | .defineEnum name text => (session.defineEnum name text).outcome.map fun _ => none

/-- The session after a sequence of actions. -/
def perform (session : Session n) (actions : List (Action n)) : Session n :=
  actions.foldl act session

/-- What the actions of a sequence yield, each in the session that the ones before it leave. -/
def responses (session : Session n) : List (Action n) → List (Except SchemaError (Option Answer))
  | [] => []
  | action :: rest => session.respond action :: (session.act action).responses rest

/-- An action leaves the objects open that were open before. -/
theorem path_act (session : Session n) (action : Action n) :
    (session.act action).path = session.path := by
  cases action with
  | compile call => exact session.path_after call
  | defineMessage name lines => rfl
  | defineEnum name text => rfl

/-- What an action yields only depends on the objects that are open. -/
theorem respond_eq_of_path {session other : Session n} (h : session.path = other.path)
    (action : Action n) : session.respond action = other.respond action := by
  cases action with
  | compile call => simp only [respond, answer_eq_of_path h]
  | defineMessage name lines => rfl
  | defineEnum name text => rfl

/-- Names in use keep their order in an action. -/
theorem extends_act (session : Session n) (action : Action n) :
    session.definitions.Extends (session.act action).definitions := by
  cases action with
  | compile call => cases call <;> exact .recordAll session.definitions _
  | defineMessage name lines => exact .defineMessage session.definitions name lines
  | defineEnum name text => exact .defineEnum session.definitions name text

/-- Names in use keep their order in a sequence of actions. -/
theorem extends_perform (session : Session n) (actions : List (Action n)) :
    session.definitions.Extends (session.perform actions).definitions := by
  induction actions generalizing session with
  | nil => exact .refl session.definitions
  | cons action rest ih => exact (extends_act session action).trans (ih (session.act action))

/-- The actions of a sequence yield what they yield where the same objects are open. -/
theorem responses_eq_map {session other : Session n} (h : session.path = other.path)
    (actions : List (Action n)) : session.responses actions = actions.map other.respond := by
  induction actions generalizing session with
  | nil => rfl
  | cons action rest ih =>
    have hpath : (session.act action).path = other.path := (session.path_act action).trans h
    rw [responses, respond_eq_of_path h, ih hpath, List.map_cons]

/-- The compiler of sessions is the one that compiles what stands in a schema in turn, each part in
the session that the one before leaves, and that enters every object before its fields and leaves it
after them, however this ends. For all that, in a session where no object is open, every action of a
sequence yields what it yields in a new session, whatever is defined and whatever fails before it;
and the names that are in use after some actions keep their order in those that follow, in front of
new ones. -/
theorem responses_eq_fresh (objects : Objects n) (namer : Namer) (definitions : Definitions)
    (actions more : List (Action n)) :
    (∀ compiler : FieldCompiler n,
        (compiler = fun session => session.compileField objects namer) ↔
          ∀ session place schema,
            compiler session place schema =
              session.fieldInTurn compiler objects namer place schema) ∧
      (∀ (session : Session n) scope schema,
        session.compileObject objects namer scope schema =
          session.objectInTurn (fun next => next.compileField objects namer) objects scope
            schema) ∧
      (Session.mk definitions []).responses actions = actions.map ({} : Session n).respond ∧
      ((Session.mk definitions []).perform actions).definitions.messages.names <+:
        ((Session.mk definitions []).perform (actions ++ more)).definitions.messages.names ∧
      ((Session.mk definitions []).perform actions).definitions.enums.names <+:
        ((Session.mk definitions []).perform (actions ++ more)).definitions.enums.names := by
  have hnames := extends_perform ((Session.mk definitions []).perform actions) more
  have hperform : (Session.mk definitions []).perform (actions ++ more) =
      ((Session.mk definitions []).perform actions).perform more :=
    List.foldl_append
  rw [hperform]
  refine ⟨?_, ?_, responses_eq_map rfl actions, hnames.messages, hnames.enums⟩
  · exact eq_compileField_iff_inTurn objects namer
  · exact fun session scope schema => compileObject_eq_inTurn session objects namer scope schema

end Session

end ProtoSchema
