import ProtoSchema.Proofs.Compile.Calls

/-!
# The compiler that works in turn

Compiling a schema in turn leaves open how the schemas in it are compiled. Only one compiler answers
this with itself: the one of sessions. A compiler that enters every object before its fields, leaves
it after them however they end, and hands on the session from each part to the next, therefore
compiles every schema in every session as is proved of that one.
-/

namespace ProtoSchema.Session

variable {n : Nat} {objects : Objects n} {namer : Namer} {compiler : FieldCompiler n}

/-- What is done inside an object only matters for the session in which the object is open. -/
theorem visiting_congr {α : Type} {session : Session n} {schema : Schema n} {scope : List String}
    {inside other : Session n → Reply n α}
    (h : ∀ entered : Session n,
      (∀ index, schema.index? = some index → index ∉ OpenObject.indices session.path) →
        entered.path = session.path ++ [⟨schema.index?, OpenObject.labelOf scope⟩] →
          inside entered = other entered) :
    session.visiting schema scope inside = session.visiting schema scope other := by
  by_cases hclosed : ∀ index, schema.index? = some index → index ∉ OpenObject.indices session.path
  · simp only [visiting, enter_closed hclosed]
    rw [h _ hclosed rfl]
  · obtain ⟨index, hindex, hopen⟩ : ∃ index, schema.index? = some index ∧
        index ∈ OpenObject.indices session.path := by simpa using hclosed
    cases schema with
    | shared other =>
      cases hindex
      simp only [visiting, enter_open hopen]
    | _ => cases hindex

/-- A compiler does the same with a schema as the one of sessions wherever the objects of a path are
open. -/
def AgreesOn (objects : Objects n) (namer : Namer) (compiler : FieldCompiler n)
    (path : List (OpenObject n)) (schema : Schema n) : Prop :=
  ∀ (session : Session n) (place : Place), session.path = path →
    compiler session place schema = session.compileField objects namer place schema

section Parts

variable {path : List (OpenObject n)} {session : Session n}

/-- The fields of an object are compiled alike if each of them is. -/
theorem membersInTurn_congr {members : List (String × Schema n)}
    (h : ∀ member ∈ members, AgreesOn objects namer compiler path member.2)
    (hpath : session.path = path) (scope : List String) :
    session.membersInTurn compiler scope members =
      session.membersInTurn (fun next => next.compileField objects namer) scope members := by
  induction members generalizing session with
  | nil => rfl
  | cons member rest ih =>
    obtain ⟨key, schema⟩ := member
    obtain ⟨hschema, hrest⟩ := List.forall_mem_cons.1 h
    rw [membersInTurn, membersInTurn, hschema session _ hpath, compileField]
    refine Reply.andThen_congr fun fields => ?_
    rw [ih hrest ((absorb_path session _).trans hpath)]

/-- The elements of a tuple are compiled alike if each of them is. -/
theorem elementsInTurn_congr {elements : List (Schema n)}
    (h : ∀ element ∈ elements, AgreesOn objects namer compiler path element)
    (hpath : session.path = path) (place : Place) (position : Nat) :
    session.elementsInTurn compiler place position elements =
      session.elementsInTurn (fun next => next.compileField objects namer) place position
        elements := by
  induction elements generalizing session position with
  | nil => rfl
  | cons element rest ih =>
    obtain ⟨helement, hrest⟩ := List.forall_mem_cons.1 h
    rw [elementsInTurn, elementsInTurn, helement session _ hpath, compileField]
    refine Reply.andThen_congr fun fields => ?_
    rw [ih hrest ((absorb_path session _).trans hpath)]

/-- A sequence is compiled alike if its element is. -/
theorem sequenceInTurn_congr {element : Schema n}
    (h : AgreesOn objects namer compiler path element) (hpath : session.path = path)
    (place : Place) :
    session.sequenceInTurn compiler place element =
      session.sequenceInTurn (fun next => next.compileField objects namer) place element := by
  rw [sequenceInTurn, sequenceInTurn, h session _ hpath]

/-- A part of a map is compiled alike if its schema is. -/
theorem partInTurn_congr {part : Schema n} (h : AgreesOn objects namer compiler path part)
    (hpath : session.path = path) (place : Place) :
    session.partInTurn compiler place part =
      session.partInTurn (fun next => next.compileField objects namer) place part := by
  rw [partInTurn, partInTurn, h session place hpath]

/-- A field that holds an object is compiled alike if, once the object is open, its fields are. -/
theorem messageInTurn_congr {schema : Schema n} {root : ObjectGraph.Node n}
    (hroot : ObjectGraph.root? objects schema = some root) (place : Place)
    (h : (∀ index, schema.index? = some index → index ∉ OpenObject.indices session.path) →
      ∀ member ∈ root.fields, AgreesOn objects namer compiler
        (session.path ++ [⟨schema.index?, OpenObject.labelOf place.inner⟩]) member.2) :
    session.messageInTurn compiler objects namer place schema =
      session.messageInTurn (fun next => next.compileField objects namer) objects namer place
        schema := by
  have hvisiting : session.visiting schema place.inner
        (fun inside => inside.membersInTurn compiler place.inner root.fields) =
      session.visiting schema place.inner fun inside =>
        inside.membersInTurn (fun next => next.compileField objects namer) place.inner
          root.fields :=
    visiting_congr fun entered hclosed hentered =>
      membersInTurn_congr (h hclosed) hentered place.inner
  simp only [messageInTurn, objectInTurn, hroot, hvisiting]

end Parts

section Tree

variable {known : List (Fin n)}

mutual

/-- A compiler that works in turn and agrees on the shared objects agrees on every schema, where the
same shared objects are open throughout. -/
theorem agreesOn_of_shared
    (hturn : ∀ session place schema,
      compiler session place schema = session.fieldInTurn compiler objects namer place schema)
    (hshared : ∀ path, OpenObject.indices path = known →
      ∀ index, AgreesOn objects namer compiler path (.shared index)) :
    ∀ (schema : Schema n) (path : List (OpenObject n)), OpenObject.indices path = known →
      AgreesOn objects namer compiler path schema
  | .optional inner, path, hknown => fun session place hpath => by
    rw [hturn, compileField_eq_inTurn]
    exact agreesOn_of_shared hturn hshared inner path hknown session _ hpath
  | .nullable inner, path, hknown => fun session place hpath => by
    rw [hturn, compileField_eq_inTurn]
    exact agreesOn_of_shared hturn hshared inner path hknown session _ hpath
  | .array element, path, hknown => fun session place hpath => by
    have helement := agreesOn_of_shared hturn hshared element path hknown
    rw [hturn, compileField_eq_inTurn]
    exact sequenceInTurn_congr helement hpath place
  | .set element, path, hknown => fun session place hpath => by
    have helement := agreesOn_of_shared hturn hshared element path hknown
    rw [hturn, compileField_eq_inTurn]
    exact sequenceInTurn_congr helement hpath place
  | .map key value, path, hknown => fun session place hpath => by
    have hkey := agreesOn_of_shared hturn hshared key path hknown
    have hvalue := agreesOn_of_shared hturn hshared value path hknown
    rw [hturn, compileField_eq_inTurn, fieldInTurn, fieldInTurn, partInTurn_congr hkey hpath,
      partInTurn_eq]
    refine Reply.andThen_congr fun keyType => ?_
    rw [partInTurn_congr hvalue ((absorb_path session _).trans hpath)]
  | .object members, path, hknown => fun session place hpath => by
    have hinside : OpenObject.indices (session.path ++
        [⟨none, OpenObject.labelOf place.inner⟩]) = known := by
      rw [OpenObject.indices_append, hpath, hknown]
      exact List.append_nil _
    have hroot : ObjectGraph.root? objects (.object members) = some ⟨.root, members⟩ := rfl
    rw [hturn, compileField_eq_inTurn]
    exact messageInTurn_congr hroot place fun _ =>
      agreesOn_members hturn hshared members _ hinside
  | .shared index, path, hknown => hshared path hknown index
  | .tuple elements, path, hknown => fun session place hpath => by
    have helements := agreesOn_elements hturn hshared elements path hknown
    rw [hturn, compileField_eq_inTurn, fieldInTurn, fieldInTurn,
      elementsInTurn_congr helements hpath]
  | .enumeration _, _, _ => fun session place _ => by rw [hturn, compileField_eq_inTurn]; rfl
  | .string, _, _ => fun session place _ => by rw [hturn, compileField_eq_inTurn]; rfl
  | .date, _, _ => fun session place _ => by rw [hturn, compileField_eq_inTurn]; rfl
  | .boolean, _, _ => fun session place _ => by rw [hturn, compileField_eq_inTurn]; rfl
  | .bigInt, _, _ => fun session place _ => by rw [hturn, compileField_eq_inTurn]; rfl
  | .number _, _, _ => fun session place _ => by rw [hturn, compileField_eq_inTurn]; rfl
  | .unknown _, _, _ => fun session place _ => by rw [hturn, compileField_eq_inTurn]; rfl
  | .foreign _, _, _ => fun session place _ => by rw [hturn, compileField_eq_inTurn]; rfl
termination_by structural schema => schema

theorem agreesOn_members
    (hturn : ∀ session place schema,
      compiler session place schema = session.fieldInTurn compiler objects namer place schema)
    (hshared : ∀ path, OpenObject.indices path = known →
      ∀ index, AgreesOn objects namer compiler path (.shared index)) :
    ∀ (members : List (String × Schema n)) (path : List (OpenObject n)),
      OpenObject.indices path = known →
        ∀ member ∈ members, AgreesOn objects namer compiler path member.2
  | [], _, _ => List.forall_mem_nil _
  | (_, schema) :: rest, path, hknown =>
    List.forall_mem_cons.2 ⟨agreesOn_of_shared hturn hshared schema path hknown,
      agreesOn_members hturn hshared rest path hknown⟩
termination_by structural members => members

theorem agreesOn_elements
    (hturn : ∀ session place schema,
      compiler session place schema = session.fieldInTurn compiler objects namer place schema)
    (hshared : ∀ path, OpenObject.indices path = known →
      ∀ index, AgreesOn objects namer compiler path (.shared index)) :
    ∀ (elements : List (Schema n)) (path : List (OpenObject n)),
      OpenObject.indices path = known →
        ∀ element ∈ elements, AgreesOn objects namer compiler path element
  | [], _, _ => List.forall_mem_nil _
  | schema :: rest, path, hknown =>
    List.forall_mem_cons.2 ⟨agreesOn_of_shared hturn hshared schema path hknown,
      agreesOn_elements hturn hshared rest path hknown⟩
termination_by structural elements => elements

end

end Tree

/-- A compiler that works in turn agrees on every schema. A shared object is compiled with one more
of them open, or fails, so the ones that are not open yet bound how deep shared objects nest. -/
theorem agreesOn_of_inTurn
    (hturn : ∀ session place schema,
      compiler session place schema = session.fieldInTurn compiler objects namer place schema)
    (path : List (OpenObject n)) (schema : Schema n) :
    AgreesOn objects namer compiler path schema := by
  refine agreesOn_of_shared hturn (fun other hother index => ?_) schema path rfl
  intro session place hpath
  have hroot : ObjectGraph.root? objects (.shared index) = some ⟨.shared index, objects index⟩ :=
    rfl
  rw [hturn, compileField_eq_inTurn]
  refine messageInTurn_congr hroot place fun hclosed member _ => ?_
  have hnew : index ∉ OpenObject.indices path := by
    rw [← hother, ← hpath]
    exact hclosed index rfl
  exact agreesOn_of_inTurn hturn _ member.2
termination_by Visit.unvisited (OpenObject.indices path)
decreasing_by
  rw [hpath, OpenObject.indices_append, hother]
  exact Visit.unvisited_lt (fun _ => List.mem_append_left _)
    (List.mem_append_right _ List.mem_cons_self) hnew

/-- The compiler of sessions is the only one that compiles every schema in turn, by itself. -/
theorem eq_compileField_iff_inTurn (objects : Objects n) (namer : Namer)
    (compiler : FieldCompiler n) :
    (compiler = fun session => session.compileField objects namer) ↔
      ∀ session place schema,
        compiler session place schema =
          session.fieldInTurn compiler objects namer place schema := by
  constructor
  · rintro rfl session place schema
    exact compileField_eq_inTurn session objects namer place schema
  · intro hturn
    funext session place schema
    exact agreesOn_of_inTurn hturn session.path schema session place rfl

end ProtoSchema.Session
