import ProtoSchema.Proofs.Compilation
import ProtoSchema.Session

/-!
# References lead to definitions

A field refers to messages and enums by their names, and a reference resolves if its name is in use.
Names are never given up, so that a reference that resolves once resolves for good. The invariant:
every line of every message declares a field whose type resolves. A compilation keeps it, whether it
succeeds or fails and whatever was defined before, because a composite type is defined before the
field that refers to it is passed on. Main statement: the invariant holds after any sequence of
calls of a session, and the fields that a call yields resolve after the call.
-/

namespace ProtoSchema

variable {n : Nat} {α β : Type}

/-- Whether a message or an enum has the name. -/
def Definitions.Knows (definitions : Definitions) (name : String) : Prop :=
  name ∈ definitions.messages.names ∨ name ∈ definitions.enums.names

/-- A type resolves if it is a scalar, the name of a definition, or a map between such types. -/
def FieldType.Resolves (definitions : Definitions) : FieldType → Prop
  | .scalar _ => True
  | .defined name => definitions.Knows name
  | .map key value => key.Resolves definitions ∧ value.Resolves definitions

/-- Whether all types of a list resolve. -/
def Definitions.ResolveAll (definitions : Definitions) (types : List FieldType) : Prop :=
  ∀ type ∈ types, type.Resolves definitions

/-- Whether every line of every message declares a field whose type resolves. -/
def Definitions.IsClosed (definitions : Definitions) : Prop :=
  ∀ message ∈ definitions.messages.entries, ∀ line ∈ message.2,
    ∃ field number, line = FieldDescriptor.line field number ∧ field.type.Resolves definitions

namespace Definitions

/-- A name that is in use stays in use when an event is recorded. -/
theorem Knows.record {definitions : Definitions} {name : String} (h : definitions.Knows name)
    (event : Event) : (definitions.record event).1.Knows name := by
  unfold Knows at h ⊢
  cases event with
  | message other fields =>
    refine h.imp_left fun hmem => ?_
    simp only [Definitions.record, defineMessage, Catalogue.names_define]
    split
    · exact hmem
    · exact List.mem_append_left _ hmem
  | enumeration other options =>
    refine h.imp_right fun hmem => ?_
    simp only [Definitions.record, defineEnum, Catalogue.names_define]
    split
    · exact hmem
    · exact List.mem_append_left _ hmem
  | objectCompiled label fieldCount => exact h

/-- The name that a message is defined under is in use afterwards. -/
theorem knows_record_message (definitions : Definitions) (name : String)
    (fields : List NumberedField) : (definitions.record (.message name fields)).1.Knows name := by
  refine .inl ?_
  simp only [record, defineMessage, Catalogue.names_define]
  split
  · assumption
  · exact List.mem_append_right _ List.mem_cons_self

/-- The name that an enum is defined under is in use afterwards. -/
theorem knows_record_enumeration (definitions : Definitions) (name : String)
    (options : List String) : (definitions.record (.enumeration name options)).1.Knows name := by
  refine .inr ?_
  simp only [record, defineEnum, Catalogue.names_define]
  split
  · assumption
  · exact List.mem_append_right _ List.mem_cons_self

end Definitions

/-- A type that resolves still does when an event is recorded. -/
theorem FieldType.Resolves.record {definitions : Definitions} (event : Event) :
    ∀ {type : FieldType}, type.Resolves definitions → type.Resolves (definitions.record event).1
  | .scalar _, _ => trivial
  | .defined _, h => Definitions.Knows.record h event
  | .map _ _, h => ⟨h.1.record event, h.2.record event⟩

namespace Definitions

/-- Types that resolve still do when an event is recorded. -/
theorem ResolveAll.record {definitions : Definitions} {types : List FieldType}
    (h : definitions.ResolveAll types) (event : Event) :
    (definitions.record event).1.ResolveAll types :=
  fun type hmem => (h type hmem).record event

/-- Types that resolve still do when a list of events is recorded. -/
theorem ResolveAll.recordAll {definitions : Definitions} {types : List FieldType}
    (h : definitions.ResolveAll types) (events : List Event) :
    (definitions.recordAll events).1.ResolveAll types := by
  induction events generalizing definitions with
  | nil => exact h
  | cons event rest ih => exact ih (h.record event)

theorem resolveAll_append {definitions : Definitions} {types more : List FieldType} :
    definitions.ResolveAll (types ++ more) ↔
      definitions.ResolveAll types ∧ definitions.ResolveAll more :=
  List.forall_mem_append

/-- No definitions have no lines. -/
theorem isClosed_empty : empty.IsClosed := by
  intro message hmessage
  cases hmessage

/-- The invariant is kept by an event unless that is a message with a field that does not resolve. -/
theorem IsClosed.record {definitions : Definitions} (h : definitions.IsClosed) {event : Event}
    (hevent : ∀ name fields, event = .message name fields →
      definitions.ResolveAll (fields.map (·.field.type))) :
    (definitions.record event).1.IsClosed := by
  intro message hmessage line hline
  have hold : message ∈ definitions.messages.entries →
      ∃ field number, line = FieldDescriptor.line field number ∧
        field.type.Resolves (definitions.record event).1 := by
    intro hmem
    obtain ⟨field, number, hfield, hresolves⟩ := h message hmem line hline
    exact ⟨field, number, hfield, hresolves.record event⟩
  cases event with
  | message name fields =>
    rcases Entries.mem_put hmessage with rfl | hmem
    · obtain ⟨numbered, hnumbered, rfl⟩ := List.mem_map.1 hline
      have hresolves := hevent name fields rfl numbered.field.type (List.mem_map_of_mem hnumbered)
      exact ⟨numbered.field, numbered.number, rfl, hresolves.record _⟩
    · exact hold hmem
  | enumeration name options => exact hold hmessage
  | objectCompiled label fieldCount => exact hold hmessage

end Definitions

/-- Where the known types resolve, a compilation keeps the invariant, and the types that it
establishes resolve if it succeeds. -/
def Compilation.Establishes (known : List FieldType) (compilation : Compilation α)
    (types : α → List FieldType) : Prop :=
  ∀ definitions : Definitions, definitions.IsClosed → definitions.ResolveAll known →
    (definitions.recordAll compilation.events).1.IsClosed ∧
      ∀ value, compilation.outcome = .ok value →
        (definitions.recordAll compilation.events).1.ResolveAll (types value)

namespace Compilation.Establishes

variable {known : List FieldType} {first : Compilation α} {next : α → Compilation β}
  {mid : α → List FieldType} {types : β → List FieldType}

/-- A value may be passed on if its types resolve where the known ones do. -/
theorem pure {value : β}
    (h : ∀ definitions : Definitions, definitions.ResolveAll known →
      definitions.ResolveAll (types value)) :
    Establishes known (pure value) types := by
  intro definitions hclosed hknown
  refine ⟨hclosed, ?_⟩
  rintro _ ⟨⟩
  exact h definitions hknown

/-- A value may be passed on if its types are known. -/
theorem pure_of_subset {value : β} (h : ∀ type ∈ types value, type ∈ known) :
    Establishes known (Pure.pure value) types :=
  pure fun _ hknown type hmem => hknown type (h type hmem)

/-- What fails at once changes nothing. -/
theorem fail (cause : SchemaError) : Establishes known (fail cause) types := by
  intro definitions hclosed _
  exact ⟨hclosed, fun _ h => by cases h⟩

/-- The types that a compilation establishes are known to the one that follows it. -/
theorem bind (hfirst : Establishes known first mid)
    (hnext : ∀ value, Establishes (known ++ mid value) (next value) types) :
    Establishes known (first >>= next) types := by
  intro definitions hclosed hknown
  obtain ⟨hmid, htypes⟩ := hfirst definitions hclosed hknown
  cases houtcome : first.outcome with
  | error cause =>
    rw [bind_of_error houtcome]
    exact ⟨hmid, fun _ h => by cases h⟩
  | ok value =>
    have hboth := Definitions.resolveAll_append.2
      ⟨hknown.recordAll first.events, htypes value houtcome⟩
    obtain ⟨hafter, hresult⟩ := hnext value _ hmid hboth
    rw [bind_of_ok houtcome]
    simp only [Definitions.recordAll_append]
    exact ⟨hafter, hresult⟩

/-- An event that keeps the invariant establishes what resolves after it. -/
theorem event {event : Event} {established : List FieldType}
    (hkeeps : ∀ name fields, event = .message name fields →
      ∀ numbered ∈ fields, numbered.field.type ∈ known)
    (hafter : ∀ definitions : Definitions,
      (definitions.record event).1.ResolveAll established) :
    Establishes known (emit event) fun _ => established := by
  intro definitions hclosed hknown
  have hrecord : (definitions.record event).1.IsClosed := by
    refine hclosed.record fun name fields hevent type hmem => ?_
    obtain ⟨numbered, hnumbered, rfl⟩ := List.mem_map.1 hmem
    exact hknown _ (hkeeps name fields hevent numbered hnumbered)
  exact ⟨hrecord, fun _ _ => hafter definitions⟩

/-- Defining a message of fields whose types are known establishes the type of its name. -/
theorem message {name : String} {fields : List NumberedField}
    (h : ∀ numbered ∈ fields, numbered.field.type ∈ known) :
    Establishes known (emit (.message name fields)) fun _ => [.defined name] := by
  refine event ?_ fun definitions type hmem => ?_
  · rintro _ _ ⟨⟩
    exact h
  · rw [List.mem_singleton.1 hmem]
    exact definitions.knows_record_message name fields

/-- Defining an enum establishes the type of its name. -/
theorem enumeration (name : String) (options : List String) :
    Establishes known (emit (.enumeration name options)) fun _ => [.defined name] := by
  refine event (fun _ _ h => by cases h) fun definitions type hmem => ?_
  rw [List.mem_singleton.1 hmem]
  exact definitions.knows_record_enumeration name options

/-- Reporting that an object is compiled establishes nothing. -/
theorem objectCompiled (label : String) (fieldCount : Nat) :
    Establishes known (emit (.objectCompiled label fieldCount)) fun _ => [] :=
  event (fun _ _ h => by cases h) fun _ _ hmem => by cases hmem

end Compilation.Establishes

namespace Compile

open Compilation (Establishes)

/-- The types of descriptors. -/
def types (fields : List FieldDescriptor) : List FieldType :=
  fields.map (·.type)

/-- The types of numbered fields. -/
def numberedTypes (fields : List NumberedField) : List FieldType :=
  types (fields.map (·.field))

theorem types_append (fields more : List FieldDescriptor) :
    types (fields ++ more) = types fields ++ types more :=
  List.map_append

theorem numberedTypes_append (fields more : List NumberedField) :
    numberedTypes (fields ++ more) = numberedTypes fields ++ numberedTypes more := by
  simp [numberedTypes, types]

/-- A number does not change the type of a field. -/
theorem numberedTypes_map (fields : List FieldDescriptor) (number : Nat) :
    numberedTypes (fields.map (⟨·, number⟩)) = types fields := by
  rw [numberedTypes, List.map_map]
  exact congrArg types (List.map_id fields)

theorem mem_numberedTypes {fields : List NumberedField} {numbered : NumberedField}
    (h : numbered ∈ fields) : numbered.field.type ∈ numberedTypes fields :=
  List.mem_map_of_mem (List.mem_map_of_mem h)

section Hoist

variable {known : List FieldType}

theorem establishes_hoistMessage (namer : Namer) (place : Place) {fields : List NumberedField}
    (h : ∀ type ∈ numberedTypes fields, type ∈ known) :
    Establishes known (hoistMessage namer place fields) types := by
  refine Establishes.bind (.message fun numbered hmem => h _ (mem_numberedTypes hmem)) fun _ => ?_
  exact .pure_of_subset fun type hmem => List.mem_append_right _ hmem

theorem establishes_hoistEnum (namer : Namer) (place : Place) (options : List Literal) :
    Establishes known (hoistEnum namer place options) types := by
  refine Establishes.bind (.enumeration _ _) fun _ => ?_
  exact .pure_of_subset fun type hmem => List.mem_append_right _ hmem

theorem establishes_finishObject (scope : List String) {fields : List FieldDescriptor}
    (h : ∀ type ∈ types fields, type ∈ known) :
    Establishes known (finishObject scope fields) numberedTypes := by
  refine Establishes.bind (.objectCompiled _ _) fun _ => .pure_of_subset fun type hmem => ?_
  rw [numberedTypes, NumberedField.map_field_consecutive] at hmem
  exact List.mem_append_left _ (h type hmem)

theorem establishes_partType (part : Schema n) {fields : List FieldDescriptor}
    (h : ∀ type ∈ types fields, type ∈ known) :
    Establishes known (partType part fields) fun type => [type] := by
  unfold partType
  split
  · exact .pure_of_subset h
  · exact .fail _

/-- A field of a scalar type needs no definition. -/
theorem establishes_scalar {field : FieldDescriptor} {scalar : Scalar}
    (h : field.type = .scalar scalar) :
    Establishes known (pure [field]) types := by
  refine .pure fun definitions _ type hmem => ?_
  rw [List.mem_singleton.1 hmem]
  change field.type.Resolves definitions
  rw [h]
  trivial

/-- A sequence has the types of its element. -/
theorem establishes_repeated (singular key : String) {first : Compilation (List FieldDescriptor)}
    (h : Establishes known first types) :
    Establishes known (first >>= fun fields => pure (fields.map (·.asRepeated singular key)))
      types := by
  refine h.bind fun fields => .pure_of_subset fun type hmem => ?_
  rw [types, List.map_map] at hmem
  exact List.mem_append_right _ hmem

end Hoist

section Field

variable (shared : SharedCompiler n) (namer : Namer)

/-- The compiler of shared objects establishes the types of the fields that it yields. -/
def EstablishesShared : Prop :=
  ∀ known trail scope index, Establishes known (shared trail scope index) numberedTypes

variable {shared}

mutual

/-- Compiling a schema establishes the types of its fields. -/
theorem establishes_field (hshared : EstablishesShared shared) (trail : List String)
    (place : Place) (known : List FieldType) : ∀ schema : Schema n,
    Establishes known (field shared namer trail place schema) types
  | .optional inner => establishes_field hshared trail _ known inner
  | .nullable inner => establishes_field hshared trail _ known inner
  | .array element =>
    establishes_repeated _ _ (establishes_field hshared trail _ known element)
  | .set element =>
    establishes_repeated _ _ (establishes_field hshared trail _ known element)
  | .map key value => by
    refine .bind (establishes_field hshared trail _ known key) fun keyFields => ?_
    refine .bind (establishes_partType key fun _ => List.mem_append_right _) fun keyType => ?_
    refine .bind (establishes_field hshared trail _ _ value) fun valueFields => ?_
    refine .bind (establishes_partType value fun _ => List.mem_append_right _) fun valueType => ?_
    refine .pure fun definitions hknown => ?_
    obtain ⟨hbefore, hvalue⟩ := Definitions.resolveAll_append.1 hknown
    obtain ⟨hbefore, -⟩ := Definitions.resolveAll_append.1 hbefore
    obtain ⟨-, hkey⟩ := Definitions.resolveAll_append.1 hbefore
    intro type hmem
    rw [List.mem_singleton.1 hmem]
    exact ⟨hkey keyType List.mem_cons_self, hvalue valueType List.mem_cons_self⟩
  | .object members => by
    refine .bind (establishes_objectFields hshared _ _ known members) fun fields => ?_
    refine .bind (establishes_finishObject _ fun _ => List.mem_append_right _) fun numbered => ?_
    exact establishes_hoistMessage namer place fun _ => List.mem_append_right _
  | .shared index => by
    refine .bind (hshared known trail place.inner index) fun numbered => ?_
    exact establishes_hoistMessage namer place fun _ => List.mem_append_right _
  | .tuple elements => by
    refine .bind (establishes_tupleFields hshared trail place known 0 elements) fun numbered => ?_
    exact establishes_hoistMessage namer place fun _ => List.mem_append_right _
  | .enumeration options => establishes_hoistEnum namer place options
  | .string => establishes_scalar rfl
  | .date => establishes_scalar rfl
  | .boolean => establishes_scalar rfl
  | .bigInt => establishes_scalar rfl
  | .number _ => establishes_scalar rfl
  | .unknown _ => .fail _
  | .foreign _ => .fail _
termination_by structural schema => schema

/-- Compiling the fields of an object establishes their types. -/
theorem establishes_objectFields (hshared : EstablishesShared shared) (trail : List String)
    (scope : List String) (known : List FieldType) : ∀ members : List (String × Schema n),
    Establishes known (objectFields shared namer trail scope members) types
  | [] => .pure_of_subset fun _ hmem => by cases hmem
  | (_, schema) :: rest => by
    refine .bind (establishes_field hshared trail _ known schema) fun fields => ?_
    refine .bind (establishes_objectFields hshared trail scope _ rest) fun more => .pure_of_subset ?_
    intro type hmem
    rw [types_append] at hmem
    rcases List.mem_append.1 hmem with hfirst | hrest
    · exact List.mem_append_left _ (List.mem_append_right _ hfirst)
    · exact List.mem_append_right _ hrest
termination_by structural members => members

/-- Compiling the elements of a tuple establishes the types of its fields. -/
theorem establishes_tupleFields (hshared : EstablishesShared shared) (trail : List String)
    (place : Place) (known : List FieldType) : ∀ (position : Nat) (elements : List (Schema n)),
    Establishes known (tupleFields shared namer trail place position elements) numberedTypes
  | _, [] => .pure_of_subset fun _ hmem => by cases hmem
  | position, element :: rest => by
    refine .bind (establishes_field hshared trail _ known element) fun fields => ?_
    refine .bind (establishes_tupleFields hshared trail place _ (position + 1) rest)
      fun more => .pure_of_subset ?_
    intro type hmem
    rw [numberedTypes_append, numberedTypes_map] at hmem
    rcases List.mem_append.1 hmem with hfirst | hrest
    · exact List.mem_append_left _ (List.mem_append_right _ hfirst)
    · exact List.mem_append_right _ hrest
termination_by structural _ elements => elements

end

end Field

section Graph

variable (objects : Objects n) (namer : Namer)

/-- Compiling a shared object establishes the types of its fields, wherever it is entered. -/
theorem establishes_sharedObject (path : List (OpenObject n)) (known : List FieldType)
    (scope : List String) (index : Fin n) :
    Establishes known (sharedObject objects namer path scope index) numberedTypes := by
  rw [sharedObject]
  by_cases hentered : index ∈ OpenObject.indices path
  · rw [dif_pos hentered]
    exact .fail _
  · rw [dif_neg hentered]
    have hinner : EstablishesShared fun trail inside j =>
        sharedObject objects namer
          (path ++ [⟨some index, OpenObject.labelOf scope⟩] ++ trail.map OpenObject.unshared)
          inside j :=
      fun known trail inside j => establishes_sharedObject _ known inside j
    refine .bind (establishes_objectFields namer hinner [] scope known (objects index))
      fun fields => ?_
    exact establishes_finishObject scope fun _ => List.mem_append_right _
termination_by Visit.unvisited (OpenObject.indices path)
decreasing_by
  rw [OpenObject.indices_append, OpenObject.indices_append, OpenObject.indices_map_unshared]
  exact Visit.unvisited_lt (fun i hi => by simp [hi]) (by simp [OpenObject.indices]) hentered

theorem establishesShared_of_path (path : List (OpenObject n)) :
    EstablishesShared fun trail scope index =>
      sharedObject objects namer (path ++ trail.map OpenObject.unshared) scope index :=
  fun known _ scope index => establishes_sharedObject objects namer _ known scope index

/-- A call that compiles a schema establishes the types of its fields. -/
theorem establishes_compileField (path : List (OpenObject n)) (place : Place)
    (schema : Schema n) : Establishes [] (compileField objects namer path place schema) types :=
  establishes_field namer (establishesShared_of_path objects namer path) [] place [] schema

/-- A call that compiles an object establishes the types of its fields. -/
theorem establishes_compileObject (path : List (OpenObject n)) (scope : List String)
    (schema : Schema n) :
    Establishes [] (compileObject objects namer path scope schema) numberedTypes := by
  cases schema with
  | object members =>
    refine .bind (establishes_objectFields namer (establishesShared_of_path objects namer path)
      _ scope [] members) fun fields => ?_
    exact establishes_finishObject scope fun _ => List.mem_append_right _
  | shared index => exact establishes_sharedObject objects namer path [] scope index
  | _ => exact .fail _

end Graph

end Compile

/-- A call of a session that compiles something. -/
inductive Call (n : Nat) where
  /-- Compile a schema at a place. -/
  | field (objects : Objects n) (namer : Namer) (place : Place) (schema : Schema n)
  /-- Compile the fields of an object. -/
  | object (objects : Objects n) (namer : Namer) (scope : List String) (schema : Schema n)

namespace Session

/-- The session after a call, whether the call succeeds or fails. -/
def after (session : Session n) : Call n → Session n
  | .field objects namer place schema =>
    (session.compileField objects namer place schema).session
  | .object objects namer scope schema =>
    (session.compileObject objects namer scope schema).session

/-- The session after a sequence of calls. -/
def run (session : Session n) (calls : List (Call n)) : Session n :=
  calls.foldl after session

/-- What is compiled in a session where the invariant holds leaves a session where it holds, and
yields types that resolve in it. -/
theorem absorb_isClosed {session : Session n} {compilation : Compilation α}
    {types : α → List FieldType} (h : session.definitions.IsClosed)
    (hcompilation : compilation.Establishes [] types) :
    (session.absorb compilation).session.definitions.IsClosed ∧
      ∀ value, (session.absorb compilation).outcome = .ok value →
        (session.absorb compilation).session.definitions.ResolveAll (types value) :=
  hcompilation session.definitions h fun _ hmem => by cases hmem

/-- A call keeps the invariant. -/
theorem after_isClosed {session : Session n} (h : session.definitions.IsClosed) (call : Call n) :
    (session.after call).definitions.IsClosed := by
  cases call with
  | field objects namer place schema =>
    exact (absorb_isClosed h (Compile.establishes_compileField objects namer _ place schema)).1
  | object objects namer scope schema =>
    exact (absorb_isClosed h (Compile.establishes_compileObject objects namer _ scope schema)).1

/-- A sequence of calls keeps the invariant. -/
theorem run_isClosed {session : Session n} (h : session.definitions.IsClosed)
    (calls : List (Call n)) : (session.run calls).definitions.IsClosed := by
  induction calls generalizing session with
  | nil => exact h
  | cons call rest ih => exact ih (after_isClosed h call)

/-- After any calls of a session that starts with no definitions, successful or not, every line of
every message declares a field whose type resolves, and what a further call yields are fields whose
types resolve after it. -/
theorem run_references_resolve (calls : List (Call n)) :
    (∀ message ∈ (({} : Session n).run calls).definitions.messages.entries, ∀ line ∈ message.2,
        ∃ field number, line = FieldDescriptor.line field number ∧
          field.type.Resolves (({} : Session n).run calls).definitions) ∧
      (∀ objects namer place schema fields,
        ((({} : Session n).run calls).compileField objects namer place schema).outcome = .ok fields →
          ∀ field ∈ fields, field.type.Resolves
            ((({} : Session n).run calls).compileField objects namer place schema).session.definitions) ∧
      (∀ objects namer scope schema fields,
        ((({} : Session n).run calls).compileObject objects namer scope schema).outcome = .ok fields →
          ∀ numbered ∈ fields, numbered.field.type.Resolves
            ((({} : Session n).run calls).compileObject objects namer scope schema).session.definitions) := by
  have hclosed : (({} : Session n).run calls).definitions.IsClosed :=
    run_isClosed Definitions.isClosed_empty calls
  refine ⟨hclosed, ?_, ?_⟩
  · intro objects namer place schema fields houtcome field hmem
    obtain ⟨-, hresolve⟩ :=
      absorb_isClosed hclosed (Compile.establishes_compileField objects namer _ place schema)
    exact hresolve fields houtcome _ (List.mem_map_of_mem hmem)
  · intro objects namer scope schema fields houtcome numbered hmem
    obtain ⟨-, hresolve⟩ :=
      absorb_isClosed hclosed (Compile.establishes_compileObject objects namer _ scope schema)
    exact hresolve fields houtcome _ (Compile.mem_numberedTypes hmem)

end Session

end ProtoSchema
