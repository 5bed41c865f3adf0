import ProtoSchema.Proofs.Compile.Resolution
import ProtoSchema.Proofs.Compile.Stops

/-!
# Calls of a session

A compilation is given the objects that are open around it, and a session keeps them between calls.
Both views agree: compiling an object in a session enters the object, compiles its fields one after
the other, each in the session that the one before has led to, and leaves the object however this
ends. So the objects that are open after a call are those that were open before, and nothing but
these has an influence on what a call yields.
-/

namespace ProtoSchema

variable {n : Nat} {α β : Type}

namespace Reply

/-- Go on in the session that a call leaves, unless the call fails. -/
def andThen (reply : Reply n α) (next : α → Session n → Reply n β) : Reply n β :=
  match reply.outcome with
  | .ok value =>
    let later := next value reply.session
    ⟨later.session, reply.log ++ later.log, later.outcome⟩
  | .error cause => ⟨reply.session, reply.log, .error cause⟩

/-- What follows a call only matters for the session that the call leaves. -/
theorem andThen_congr {reply : Reply n α} {next other : α → Session n → Reply n β}
    (h : ∀ value, next value reply.session = other value reply.session) :
    reply.andThen next = reply.andThen other := by
  unfold andThen
  cases reply.outcome with
  | ok value => simp only [h]
  | error cause => rfl

end Reply

namespace Compile

variable (shared : SharedCompiler n) (namer : Namer)

/-- The compiler of shared objects inside the unshared objects of a trail. -/
abbrev below (front : List String) : SharedCompiler n :=
  fun trail scope index => shared (front ++ trail) scope index

mutual

/-- A schema is compiled below a trail as it is when all of the trail is open already. -/
theorem field_below (front trail : List String) (place : Place) : ∀ schema : Schema n,
    field shared namer (front ++ trail) place schema =
      field (below shared front) namer trail place schema
  | .optional inner => field_below front trail _ inner
  | .nullable inner => field_below front trail _ inner
  | .array element => by
    simp only [field, field_below front trail _ element]
  | .set element => by
    simp only [field, field_below front trail _ element]
  | .map key value => by
    simp only [field, field_below front trail _ key, field_below front trail _ value]
  | .object members => by
    simp only [field, List.append_assoc, objectFields_below front _ place.inner members]
  | .shared _ => rfl
  | .tuple elements => by
    simp only [field, tupleFields_below front trail place 0 elements]
  | .enumeration _ => rfl
  | .string => rfl
  | .date => rfl
  | .boolean => rfl
  | .bigInt => rfl
  | .number _ => rfl
  | .unknown _ => rfl
  | .foreign _ => rfl
termination_by structural schema => schema

theorem objectFields_below (front trail : List String) (scope : List String) :
    ∀ members : List (String × Schema n),
      objectFields shared namer (front ++ trail) scope members =
        objectFields (below shared front) namer trail scope members
  | [] => rfl
  | (key, schema) :: rest => by
    simp only [objectFields, field_below front trail _ schema,
      objectFields_below front trail scope rest]
termination_by structural members => members

theorem tupleFields_below (front trail : List String) (place : Place) (position : Nat) :
    ∀ elements : List (Schema n),
      tupleFields shared namer (front ++ trail) place position elements =
        tupleFields (below shared front) namer trail place position elements
  | [] => rfl
  | element :: rest => by
    simp only [tupleFields, field_below front trail _ element,
      tupleFields_below front trail place (position + 1) rest]
termination_by structural elements => elements

end

/-- The objects of a trail are open as well as those of the path that it goes on from. -/
theorem below_sharedFrom (objects : Objects n) (path : List (OpenObject n)) (front : List String) :
    below (sharedFrom objects namer path) front =
      sharedFrom objects namer (path ++ front.map OpenObject.unshared) := by
  funext trail scope index
  simp only [below, sharedFrom, List.map_append, List.append_assoc]

end Compile

namespace Session

/-- What is compiled after something else is compiled in the session that this leaves. -/
theorem absorb_bind (session : Session n) (first : Compilation α) (next : α → Compilation β) :
    session.absorb (first >>= next) =
      (session.absorb first).andThen fun value after => after.absorb (next value) := by
  cases h : first.outcome with
  | ok value =>
    rw [Compilation.bind_of_ok h]
    simp [absorb, Reply.andThen, h, Definitions.recordAll_append]
  | error cause =>
    rw [Compilation.bind_of_error h]
    simp [absorb, Reply.andThen, h]

/-- A call that is absorbed may be followed by what is absorbed in turn where the same objects are
open. -/
theorem absorb_andThen {session : Session n} {first : Compilation α}
    {next : α → Session n → Reply n β} {later : α → Compilation β}
    (h : ∀ value (after : Session n), after.path = session.path →
      next value after = after.absorb (later value)) :
    (session.absorb first).andThen next = session.absorb (first >>= later) := by
  rw [absorb_bind]
  exact Reply.andThen_congr fun value => h value _ (absorb_path session first)

/-- Do something inside an object: enter the object, unless that fails, and leave it however what is
done inside ends. -/
def visiting (session : Session n) (schema : Schema n) (scope : List String)
    (inside : Session n → Reply n α) : Reply n α :=
  let entered := session.enter schema scope
  match entered.outcome with
  | .ok () =>
    let reply := inside entered.session
    { reply with session := reply.session.leave }
  | .error cause => ⟨session, [], .error cause⟩

end Session

/-- Something that compiles a schema at a place in a session. -/
abbrev FieldCompiler (n : Nat) :=
  Session n → Place → Schema n → Reply n (List FieldDescriptor)

namespace Session

section Layer

variable (compiler : FieldCompiler n)

/-- Compile the fields of an object, each in the session that the one before leaves. -/
def membersInTurn (session : Session n) (scope : List String) :
    List (String × Schema n) → Reply n (List FieldDescriptor)
  | [] => session.absorb (pure [])
  | (key, schema) :: rest =>
    (compiler session ⟨key, scope, false, false⟩ schema).andThen fun fields next =>
      (next.membersInTurn scope rest).andThen fun more last => last.absorb (pure (fields ++ more))

/-- Compile the elements of a tuple from a position on, each in the session that the one before
leaves. -/
def elementsInTurn (session : Session n) (place : Place) (position : Nat) :
    List (Schema n) → Reply n (List NumberedField)
  | [] => session.absorb (pure [])
  | element :: rest =>
    (compiler session (Outline.elementPlace place position) element).andThen fun fields next =>
      (next.elementsInTurn place (position + 1) rest).andThen fun more last =>
        last.absorb (pure (fields.map (⟨·, position + 1⟩) ++ more))

/-- Compile an object: enter it, compile its fields, leave it however this ends, and number the
fields. -/
def objectInTurn (objects : Objects n) (session : Session n) (scope : List String)
    (schema : Schema n) : Reply n (List NumberedField) :=
  match ObjectGraph.root? objects schema with
  | some root =>
    (session.visiting schema scope fun inside =>
      inside.membersInTurn compiler scope root.fields).andThen fun fields after =>
        after.absorb (Compile.finishObject scope fields)
  | none => session.absorb (Compilation.fail (.unsupported schema.kind))

/-- Compile a field that holds an object, and define the message of the object. -/
def messageInTurn (objects : Objects n) (namer : Namer) (session : Session n) (place : Place)
    (schema : Schema n) : Reply n (List FieldDescriptor) :=
  (session.objectInTurn compiler objects place.inner schema).andThen fun fields after =>
    after.absorb (Compile.hoistMessage namer place fields)

/-- Compile a field that holds a sequence. -/
def sequenceInTurn (session : Session n) (place : Place) (element : Schema n) :
    Reply n (List FieldDescriptor) :=
  let singular := Singular.singular place.key
  (compiler session ⟨singular, place.scope, false, true⟩ element).andThen fun fields after =>
    after.absorb (pure (fields.map (·.asRepeated singular place.key)))

/-- Compile a part of a map, which has to be a single field without modifiers. -/
def partInTurn (session : Session n) (place : Place) (part : Schema n) : Reply n FieldType :=
  (compiler session place part).andThen fun fields after =>
    after.absorb (Compile.partType part fields)

/-- Compile a schema at a place in a session, given what compiles the schemas in it. -/
def fieldInTurn (objects : Objects n) (namer : Namer) (session : Session n) (place : Place) :
    Schema n → Reply n (List FieldDescriptor)
  | .optional inner => compiler session { place with isOptional := true } inner
  | .nullable inner => compiler session { place with isOptional := true } inner
  | .array element => session.sequenceInTurn compiler place element
  | .set element => session.sequenceInTurn compiler place element
  | .map key value =>
    (session.partInTurn compiler ⟨place.key ++ "Key", place.scope, false, false⟩ key).andThen
      fun keyType next =>
        (next.partInTurn compiler ⟨place.key ++ "Value", place.scope, false, false⟩ value).andThen
          fun valueType last => last.absorb (pure [⟨.map keyType valueType, place.key, []⟩])
  | .object members => session.messageInTurn compiler objects namer place (.object members)
  | .shared index => session.messageInTurn compiler objects namer place (.shared index)
  | .tuple elements =>
    (session.elementsInTurn compiler place 0 elements).andThen fun fields after =>
      after.absorb (Compile.hoistMessage namer place fields)
  | .enumeration options => session.absorb (Compile.hoistEnum namer place options)
  | schema =>
    match schema.scalar? with
    | some type => session.absorb (pure [⟨.scalar type, place.key, place.modifiers⟩])
    | none => session.absorb (Compilation.fail (.unsupported schema.kind))

end Layer

section Fields

variable {session : Session n} {objects : Objects n} {namer : Namer} {scope : List String}

/-- Compiling the fields of an object in turn is compiling them at once. -/
theorem membersInTurn_eq (session : Session n) (objects : Objects n) (namer : Namer)
    (scope : List String) (members : List (String × Schema n)) :
    session.membersInTurn (fun next => next.compileField objects namer) scope members =
      session.absorb (Compile.objectFields (Compile.sharedFrom objects namer session.path) namer []
        scope members) := by
  induction members generalizing session with
  | nil => rfl
  | cons member rest ih =>
    obtain ⟨key, schema⟩ := member
    rw [membersInTurn, Compile.objectFields]
    refine absorb_andThen fun fields next hnext => ?_
    rw [ih, hnext]
    exact absorb_andThen fun more last _ => rfl

/-- Compiling the elements of a tuple in turn is compiling them at once. -/
theorem elementsInTurn_eq (session : Session n) (objects : Objects n) (namer : Namer)
    (place : Place) (position : Nat) (elements : List (Schema n)) :
    session.elementsInTurn (fun next => next.compileField objects namer) place position elements =
      session.absorb (Compile.tupleFields (Compile.sharedFrom objects namer session.path) namer []
        place position elements) := by
  induction elements generalizing session position with
  | nil => rfl
  | cons element rest ih =>
    rw [elementsInTurn, Compile.tupleFields]
    refine absorb_andThen fun fields next hnext => ?_
    rw [ih, hnext]
    exact absorb_andThen fun more last _ => rfl

/-- A part of a map is compiled and then checked. -/
theorem partInTurn_eq (session : Session n) (objects : Objects n) (namer : Namer) (place : Place)
    (part : Schema n) :
    session.partInTurn (fun next => next.compileField objects namer) place part =
      session.absorb (ProtoSchema.compileField objects namer session.path place part >>=
        Compile.partType part) :=
  absorb_andThen fun _ _ _ => rfl

/-- A shared object that is open is not entered. -/
theorem enter_open {index : Fin n} (h : index ∈ OpenObject.indices session.path) :
    session.enter (.shared index) scope =
      ⟨session, [],
        .error (.cyclic (OpenObject.labels session.path ++ [OpenObject.labelOf scope]))⟩ := by
  simp [enter, Schema.index?, h]

/-- An object that is not open is open when it is entered. -/
theorem enter_closed {schema : Schema n}
    (h : ∀ index, schema.index? = some index → index ∉ OpenObject.indices session.path) :
    session.enter schema scope =
      ⟨⟨session.definitions, session.path ++ [⟨schema.index?, OpenObject.labelOf scope⟩]⟩, [],
        .ok ()⟩ := by
  cases hindex : schema.index? with
  | none => simp [enter, hindex]
  | some index => simp [enter, hindex, h index hindex]

/-- What is compiled inside an object changes nothing about the objects that are open outside. -/
theorem visiting_closed {schema : Schema n}
    (h : ∀ index, schema.index? = some index → index ∉ OpenObject.indices session.path)
    {inside : Session n → Reply n α} {compilation : Compilation α}
    (hinside : ∀ entered : Session n,
      entered.path = session.path ++ [⟨schema.index?, OpenObject.labelOf scope⟩] →
        inside entered = entered.absorb compilation) :
    session.visiting schema scope inside = session.absorb compilation := by
  rw [visiting, enter_closed h]
  simp only
  rw [hinside _ rfl]
  simp [absorb, leave]

/-- Compiling an object in a session enters the object, compiles its fields in turn, leaves the
object however this ends, and numbers the fields. -/
theorem compileObject_eq_inTurn (session : Session n) (objects : Objects n) (namer : Namer)
    (scope : List String) (schema : Schema n) :
    session.compileObject objects namer scope schema =
      session.objectInTurn (fun next => next.compileField objects namer) objects scope schema := by
  rw [compileObject]
  cases schema with
  | object members =>
    have hunshared : ∀ other, (Schema.object members).index? = some other →
        other ∉ OpenObject.indices session.path := by
      rintro _ ⟨⟩
    rw [ProtoSchema.compileObject, absorb_bind]
    refine congrArg (Reply.andThen · _) (visiting_closed hunshared fun entered hentered => ?_).symm
    have hbelow := Compile.objectFields_below (Compile.sharedFrom objects namer session.path) namer
      [OpenObject.labelOf scope] [] scope members
    rw [Compile.below_sharedFrom] at hbelow
    rw [membersInTurn_eq, hentered]
    exact congrArg entered.absorb hbelow.symm
  | shared index =>
    rw [ProtoSchema.compileObject, Compile.sharedObject]
    by_cases hopen : index ∈ OpenObject.indices session.path
    · rw [dif_pos hopen, objectInTurn]
      simp only [ObjectGraph.root?, visiting, enter_open hopen]
      rfl
    · have hclosed : ∀ other, (Schema.shared index).index? = some other →
          other ∉ OpenObject.indices session.path := by
        rintro _ ⟨⟩
        exact hopen
      rw [dif_neg hopen, absorb_bind]
      refine congrArg (Reply.andThen · _) (visiting_closed hclosed fun entered hentered => ?_).symm
      rw [membersInTurn_eq, hentered]
      rfl
  | _ => rfl

/-- Compiling a schema in a session compiles what stands in it in turn, each part in the session
that the one before leaves. -/
theorem compileField_eq_inTurn (session : Session n) (objects : Objects n) (namer : Namer)
    (place : Place) (schema : Schema n) :
    session.compileField objects namer place schema =
      session.fieldInTurn (fun next => next.compileField objects namer) objects namer place
        schema := by
  cases schema with
  | array element => exact (absorb_andThen fun fields after _ => rfl).symm
  | set element => exact (absorb_andThen fun fields after _ => rfl).symm
  | map key value =>
    have hvalue : ∀ (keyType : FieldType) (next : Session n), next.path = session.path →
        ((next.partInTurn (fun next => next.compileField objects namer)
            ⟨place.key ++ "Value", place.scope, false, false⟩ value).andThen fun valueType last =>
              last.absorb (pure [FieldDescriptor.mk (.map keyType valueType) place.key []])) =
          next.absorb ((ProtoSchema.compileField objects namer session.path
                ⟨place.key ++ "Value", place.scope, false, false⟩ value >>=
              Compile.partType value) >>= fun valueType =>
                pure [FieldDescriptor.mk (.map keyType valueType) place.key []]) := by
      intro keyType next hnext
      rw [partInTurn_eq, hnext]
      exact absorb_andThen fun _ _ _ => rfl
    rw [fieldInTurn, partInTurn_eq, absorb_andThen hvalue, compileField]
    simp only [bind_assoc]
    rfl
  | object members =>
    rw [fieldInTurn, messageInTurn, ← compileObject_eq_inTurn]
    refine Eq.trans ?_ (absorb_andThen fun fields after _ => rfl).symm
    rw [ProtoSchema.compileObject, bind_assoc]
    rfl
  | shared index =>
    rw [fieldInTurn, messageInTurn, ← compileObject_eq_inTurn]
    refine Eq.trans ?_ (absorb_andThen fun fields after _ => rfl).symm
    rw [compileField, ProtoSchema.compileField, Compile.field, List.map_nil, List.append_nil]
    rfl
  | number integral => cases integral <;> rfl
  | tuple elements =>
    rw [fieldInTurn, elementsInTurn_eq]
    exact (absorb_andThen fun fields after _ => rfl).symm
  | _ => rfl

end Fields

end Session

/-- What a call yields. -/
inductive Answer where
  /-- The fields that a schema becomes. -/
  | fields (fields : List FieldDescriptor)
  /-- The numbered fields of an object. -/
  | object (fields : List NumberedField)

namespace Session

/-- How a call ends. -/
def answer (session : Session n) : Call n → Except SchemaError Answer
  | .field objects namer place schema =>
    (session.compileField objects namer place schema).outcome.map .fields
  | .object objects namer scope schema =>
    (session.compileObject objects namer scope schema).outcome.map .object

/-- A call that compiles a schema fails if the compilation does. -/
theorem answer_field_eq_error_iff {session : Session n} {objects : Objects n} {namer : Namer}
    {place : Place} {schema : Schema n} {cause : SchemaError} :
    session.answer (.field objects namer place schema) = .error cause ↔
      (ProtoSchema.compileField objects namer session.path place schema).outcome =
        .error cause := by
  change Except.map Answer.fields
    (ProtoSchema.compileField objects namer session.path place schema).outcome = _ ↔ _
  cases (ProtoSchema.compileField objects namer session.path place schema).outcome <;>
    simp [Except.map]

/-- A call that compiles an object fails if the compilation does. -/
theorem answer_object_eq_error_iff {session : Session n} {objects : Objects n} {namer : Namer}
    {scope : List String} {schema : Schema n} {cause : SchemaError} :
    session.answer (.object objects namer scope schema) = .error cause ↔
      (ProtoSchema.compileObject objects namer session.path scope schema).outcome =
        .error cause := by
  change Except.map Answer.object
    (ProtoSchema.compileObject objects namer session.path scope schema).outcome = _ ↔ _
  cases (ProtoSchema.compileObject objects namer session.path scope schema).outcome <;>
    simp [Except.map]

/-- A call leaves the objects open that were open before. -/
theorem path_after (session : Session n) (call : Call n) :
    (session.after call).path = session.path := by
  cases call <;> exact absorb_path session _

/-- How a call ends only depends on the objects that are open. -/
theorem answer_eq_of_path {session other : Session n} (h : session.path = other.path)
    (call : Call n) : session.answer call = other.answer call := by
  cases call with
  | field objects namer place schema =>
    simp only [answer, compileField, absorb, h]
  | object objects namer scope schema =>
    simp only [answer, compileObject, absorb, h]

end Session

end ProtoSchema
