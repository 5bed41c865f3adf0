import ProtoSchema.Proofs.Compile.Steps
import ProtoSchema.Proofs.Generation
import ProtoSchema.Proofs.Schema.Unfolding

/-!
# Compiling what a graph stands for

A schema over shared objects that lead nowhere back into themselves is compiled like the finite tree
that it stands for: the same things happen, in the same order, and the outcome is the same.
Conversely, a compilation that succeeds has met no object inside itself, so that there is such a
tree.
-/

namespace ProtoSchema.Compile

open ProtoSchema.Visit (unvisited unvisited_lt)
open Schema (Unfolds UnfoldsFields UnfoldsElements expandShared)

variable {n : Nat}

/-- The compiler of shared objects compiles a shared object like an object of a tree that has the
given members, wherever the object stands. -/
def CompilesAs (shared : SharedCompiler n) (namer : Namer) (index : Fin n)
    (members : List (String × Schema 0)) : Prop :=
  ∀ (unused : SharedCompiler 0) (trail anyTrail scope : List String),
    shared trail scope index =
      objectFields unused namer anyTrail scope members >>= finishObject scope

/-- The compiler of shared objects compiles every shared object like its tree, where it has one. -/
def CompilesTrees (shared : SharedCompiler n) (namer : Namer)
    (tree? : Fin n → Option (Schema 0)) : Prop :=
  ∀ index tree, tree? index = some tree →
    ∃ members, tree = .object members ∧ CompilesAs shared namer index members

section Tree

variable {shared : SharedCompiler n} {namer : Namer} {tree? : Fin n → Option (Schema 0)}

/-- A tree is of the kind of what it stands for. -/
theorem kind_of_unfolds (hshared : CompilesTrees shared namer tree?) {schema : Schema n}
    {tree : Schema 0} (h : Unfolds tree? schema tree) : tree.kind = schema.kind := by
  cases h with
  | shared hindex =>
    obtain ⟨members, rfl, -⟩ := hshared _ _ hindex
    rfl
  | _ => rfl

/-- The type of a part of a map is looked at in the tree as it is in what the tree stands for. -/
theorem partType_of_unfolds (hshared : CompilesTrees shared namer tree?) {part : Schema n}
    {tree : Schema 0} (h : Unfolds tree? part tree) : partType part = partType tree := by
  have hkind := kind_of_unfolds hshared h
  funext fields
  unfold partType
  rw [hkind]

variable (unused : SharedCompiler 0)

mutual

/-- A schema is compiled like its tree. -/
theorem field_of_unfolds (hshared : CompilesTrees shared namer tree?)
    (trail anyTrail : List String) (place : Place) :
    ∀ {schema : Schema n} {tree : Schema 0}, Unfolds tree? schema tree →
      field shared namer trail place schema = field unused namer anyTrail place tree
  | _, _, .optional h => by
    rw [field, field, field_of_unfolds hshared trail anyTrail _ h]
  | _, _, .nullable h => by
    rw [field, field, field_of_unfolds hshared trail anyTrail _ h]
  | _, _, .array h => by
    rw [field, field, field_of_unfolds hshared trail anyTrail _ h]
  | _, _, .set h => by
    rw [field, field, field_of_unfolds hshared trail anyTrail _ h]
  | _, _, .map hkey hvalue => by
    rw [field, field, field_of_unfolds hshared trail anyTrail _ hkey,
      field_of_unfolds hshared trail anyTrail _ hvalue, partType_of_unfolds hshared hkey,
      partType_of_unfolds hshared hvalue]
  | _, _, .object h => by
    rw [field, field,
      objectFields_of_unfolds hshared _ (anyTrail ++ [OpenObject.labelOf place.inner]) _ h]
  | _, _, .shared h => by
    obtain ⟨members, rfl, hindex⟩ := hshared _ _ h
    rw [field, field, hindex unused trail (anyTrail ++ [OpenObject.labelOf place.inner])]
    simp only [bind_assoc]
  | _, _, .tuple h => by
    rw [field, field, tupleFields_of_unfolds hshared trail anyTrail place 0 h]
  | _, _, .enumeration options => by rw [field, field]
  | _, _, .string => by rw [field, field]
  | _, _, .date => by rw [field, field]
  | _, _, .boolean => by rw [field, field]
  | _, _, .bigInt => by rw [field, field]
  | _, _, .number integral => by rw [field, field]
  | _, _, .unknown kind => by rw [field, field]
  | _, _, .foreign value => by rw [field, field]

/-- The fields of an object are compiled like those of its tree. -/
theorem objectFields_of_unfolds (hshared : CompilesTrees shared namer tree?)
    (trail anyTrail : List String) (scope : List String) :
    ∀ {members : List (String × Schema n)} {trees : List (String × Schema 0)},
      UnfoldsFields tree? members trees →
        objectFields shared namer trail scope members =
          objectFields unused namer anyTrail scope trees
  | _, _, .nil => by rw [objectFields, objectFields]
  | _, _, .cons hfirst hrest => by
    rw [objectFields, objectFields, field_of_unfolds hshared trail anyTrail _ hfirst,
      objectFields_of_unfolds hshared trail anyTrail scope hrest]

/-- The elements of a tuple are compiled like those of its tree. -/
theorem tupleFields_of_unfolds (hshared : CompilesTrees shared namer tree?)
    (trail anyTrail : List String) (place : Place) (position : Nat) :
    ∀ {elements : List (Schema n)} {trees : List (Schema 0)},
      UnfoldsElements tree? elements trees →
        tupleFields shared namer trail place position elements =
          tupleFields unused namer anyTrail place position trees
  | _, _, .nil => by rw [tupleFields, tupleFields]
  | _, _, .cons hfirst hrest => by
    rw [tupleFields, tupleFields, field_of_unfolds hshared trail anyTrail _ hfirst,
      tupleFields_of_unfolds hshared trail anyTrail place (position + 1) hrest]

end

end Tree

section Graph

variable {objects : Objects n} {namer : Namer}

/-- Entering a shared object below a trail of unshared ones adds that object to the shared ones of a
path, and nothing else. -/
theorem indices_entered (path : List (OpenObject n)) (trail : List String) (index : Fin n)
    (label : String) :
    OpenObject.indices (path ++ trail.map OpenObject.unshared ++ [⟨some index, label⟩]) =
      OpenObject.indices path ++ [index] := by
  rw [OpenObject.indices_append, OpenObject.indices_append, OpenObject.indices_map_unshared,
    List.append_nil]
  rfl

/-- Inside the objects of a path, the compiler of shared objects compiles the trees that do not go
through these objects. -/
theorem compilesTrees_of_path {path : List (OpenObject n)} {entered : List (Fin n)}
    (hsub : ∀ i ∈ OpenObject.indices path, i ∈ entered) :
    CompilesTrees
      (fun trail scope index =>
        sharedObject objects namer (path ++ trail.map OpenObject.unshared) scope index)
      namer (expandShared objects entered) := by
  intro index tree h
  obtain ⟨hfresh, members, rfl, hmembers⟩ := Schema.expandShared_eq_some_iff.1 h
  refine ⟨members, rfl, ?_⟩
  intro unused trail anyTrail scope
  have hnew : index ∉ OpenObject.indices (path ++ trail.map OpenObject.unshared) := by
    rw [OpenObject.indices_append, OpenObject.indices_map_unshared, List.append_nil]
    exact fun hmem => hfresh (hsub index hmem)
  have hinside : ∀ i ∈ OpenObject.indices (path ++ trail.map OpenObject.unshared ++
      [⟨some index, OpenObject.labelOf scope⟩]), i ∈ index :: entered := by
    intro i hi
    rw [indices_entered] at hi
    rcases List.mem_append.1 hi with hpath | hindex
    · exact List.mem_cons_of_mem _ (hsub i hpath)
    · rw [List.mem_singleton.1 hindex]
      exact List.mem_cons_self
  have hinner := compilesTrees_of_path hinside
  change sharedObject objects namer (path ++ trail.map OpenObject.unshared) scope index = _
  rw [sharedObject, dif_neg hnew]
  exact congrArg (· >>= finishObject scope)
    (objectFields_of_unfolds unused hinner [] anyTrail scope hmembers)
termination_by unvisited entered
decreasing_by
  exact unvisited_lt (fun j hj => List.mem_cons_of_mem _ hj) List.mem_cons_self hfresh

/-- A schema that unfolds into a tree without going through the objects of a path is compiled like
that tree, from inside the objects of the path. -/
theorem compileField_of_unfolds {path : List (OpenObject n)} {entered : List (Fin n)}
    (hsub : ∀ i ∈ OpenObject.indices path, i ∈ entered) (place : Place) {schema : Schema n}
    {tree : Schema 0} (h : Unfolds (expandShared objects entered) schema tree)
    (unused : SharedCompiler 0) :
    compileField objects namer path place schema = field unused namer [] place tree :=
  field_of_unfolds unused (compilesTrees_of_path hsub) [] [] place h

/-- The same holds of an object that is compiled for its fields alone. -/
theorem compileObject_of_unfolds {path : List (OpenObject n)} {entered : List (Fin n)}
    (hsub : ∀ i ∈ OpenObject.indices path, i ∈ entered) (scope : List String) {schema : Schema n}
    {tree : Schema 0} (h : Unfolds (expandShared objects entered) schema tree) :
    compileObject objects namer path scope schema =
      compileObject Schema.noObjects namer [] scope tree := by
  have hshared : CompilesTrees
      (fun trail inside i =>
        sharedObject objects namer (path ++ trail.map OpenObject.unshared) inside i)
      namer (expandShared objects entered) :=
    compilesTrees_of_path hsub
  cases h with
  | object hmembers =>
    rw [compileObject, compileObject]
    exact congrArg (· >>= finishObject scope)
      (objectFields_of_unfolds _ hshared [OpenObject.labelOf scope] _ scope hmembers)
  | shared hindex =>
    obtain ⟨members, rfl, hcompiled⟩ := hshared _ _ hindex
    have hobject := hcompiled
      (fun trail inside i => sharedObject Schema.noObjects namer
        ([] ++ trail.map OpenObject.unshared) inside i) [] [OpenObject.labelOf scope] scope
    rw [compileObject, compileObject]
    simpa using hobject
  | _ => rfl

/-- Generating a document from a graph is generating it from the tree that the graph stands for. -/
theorem generate_of_expand {schema : Schema n} {tree : Schema 0} (options : Options)
    (h : schema.expand objects = some tree) :
    generate objects schema options = generate Schema.noObjects tree options := by
  have hstrip := (Schema.unfolds_of_expandWith h).strip fun _ _ hindex =>
    Schema.isWrapped_of_expandShared hindex
  have hobject : compileObject objects options.namer [] [] schema.strip =
      compileObject Schema.noObjects options.namer [] [] tree.strip :=
    compileObject_of_unfolds (fun _ hi => hi) [] hstrip
  rw [generate, generate, Generation.compilation, Generation.compilation, hobject]

end Graph

section Success

/-- Where the fields of an object are compiled successfully, so is each shared object that they
refer to. -/
theorem exists_shared_of_objectFields {shared : SharedCompiler n} {namer : Namer}
    {trail scope : List String} {members : List (String × Schema n)} {fields : List NumberedField}
    (h : (objectFields shared namer trail scope members >>= finishObject scope).outcome =
      .ok fields)
    {index : Fin n} (hindex : index ∈ Schema.fieldReferences members) :
    ∃ inner inside found, (shared inner inside index).outcome = .ok found := by
  obtain ⟨descriptors, hdescriptors, -⟩ := Compilation.outcome_bind_eq_ok_iff.1 h
  rw [objectFields_eq] at hdescriptors
  have hsteps := (Compilation.outcome_then_eq_ok_iff.1 hdescriptors).1
  rw [← (comprises_memberSteps trail scope members).entered, List.mem_filterMap] at hindex
  obtain ⟨step, hmem, hstep⟩ := hindex
  have hrun := runSteps_eq_ok_iff.1 hsteps step hmem
  cases step with
  | check position => cases hstep
  | define occurrence => cases hstep
  | enter inner place other =>
    obtain rfl : other = index := Option.some.inj hstep
    obtain ⟨found, hfound, -⟩ := Compilation.outcome_bind_eq_ok_iff.1 hrun
    exact ⟨inner, place.inner, found, hfound⟩

variable {objects : Objects n} {namer : Namer} {motive : List (Fin n) → Fin n → Prop}

/-- A statement about shared objects inside entered ones that carries over from the references of an
object to the object holds of every shared object that is compiled successfully. -/
theorem sharedObject_induction
    (hcarry : ∀ entered index, index ∉ entered →
      (∀ j ∈ Schema.fieldReferences (objects index), motive (entered ++ [index]) j) →
        motive entered index)
    {path : List (OpenObject n)} {scope : List String} {index : Fin n} {fields : List NumberedField}
    (h : (sharedObject objects namer path scope index).outcome = .ok fields) :
    motive (OpenObject.indices path) index := by
  rw [sharedObject] at h
  by_cases hentered : index ∈ OpenObject.indices path
  · rw [dif_pos hentered] at h
    cases h
  · rw [dif_neg hentered] at h
    refine hcarry _ index hentered fun j hj => ?_
    obtain ⟨inner, inside, found, hfound⟩ := exists_shared_of_objectFields h hj
    have hinner := sharedObject_induction hcarry hfound
    rw [OpenObject.indices_append, OpenObject.indices_map_unshared, List.append_nil,
      OpenObject.indices_append] at hinner
    exact hinner
termination_by unvisited (OpenObject.indices path)
decreasing_by
  rw [OpenObject.indices_append, OpenObject.indices_append, OpenObject.indices_map_unshared]
  exact unvisited_lt (fun j hj => by simp [hj]) (by simp [OpenObject.indices]) hentered

/-- Such a statement holds of every shared object to which an object refers that is compiled
successfully. -/
theorem compileObject_induction
    (hcarry : ∀ entered index, index ∉ entered →
      (∀ j ∈ Schema.fieldReferences (objects index), motive (entered ++ [index]) j) →
        motive entered index)
    {path : List (OpenObject n)} {scope : List String} {schema : Schema n}
    {fields : List NumberedField}
    (h : (compileObject objects namer path scope schema).outcome = .ok fields) :
    ∀ j ∈ schema.references, motive (OpenObject.indices path) j := by
  intro j hj
  cases schema with
  | object members =>
    obtain ⟨inner, inside, found, hfound⟩ := exists_shared_of_objectFields h hj
    have hinner := sharedObject_induction hcarry hfound
    rw [OpenObject.indices_append, OpenObject.indices_map_unshared, List.append_nil] at hinner
    exact hinner
  | shared index =>
    rw [List.mem_singleton.1 hj]
    exact sharedObject_induction hcarry h
  | _ => cases h

/-- Where an object is compiled successfully, it stands for a finite tree without the objects that
are open. -/
theorem expand_of_compileObject {path : List (OpenObject n)} {scope : List String}
    {schema : Schema n} {fields : List NumberedField}
    (h : (compileObject objects namer path scope schema).outcome = .ok fields) :
    ∃ tree, Unfolds (expandShared objects (OpenObject.indices path)) schema tree := by
  refine Schema.exists_unfolds (compileObject_induction
    (motive := fun entered j => ∃ tree, expandShared objects entered j = some tree) ?_ h)
  intro entered index hfresh hreferences
  have hsub : ∀ i ∈ index :: entered, i ∈ entered ++ [index] := by
    intro i hi
    rcases List.mem_cons.1 hi with rfl | hbefore
    · exact List.mem_append_right _ List.mem_cons_self
    · exact List.mem_append_left _ hbefore
  have htrees : ∀ j ∈ Schema.fieldReferences (objects index),
      ∃ tree, expandShared objects (index :: entered) j = some tree := by
    intro j hj
    obtain ⟨tree, htree⟩ := hreferences j hj
    exact ⟨tree, Schema.expandShared_mono hsub htree⟩
  obtain ⟨trees, hmembers⟩ := Schema.exists_unfoldsFields htrees
  exact ⟨_, Schema.expandShared_eq_some_iff.2 ⟨hfresh, trees, rfl, hmembers⟩⟩

/-- Where a document is generated from a graph, the graph stands for a finite tree. -/
theorem expand_of_generate {schema : Schema n} {options : Options} {text : String}
    (h : (generate objects schema options).document = .ok text) :
    ∃ tree, schema.expand objects = some tree := by
  obtain ⟨fields, hfields⟩ := Generation.exists_fields_of_document h
  obtain ⟨stripped, hstripped⟩ := expand_of_compileObject hfields
  obtain ⟨tree, htree⟩ := Schema.exists_unfolds_of_strip hstripped
  exact ⟨tree, Schema.expandWith_of_unfolds htree⟩

end Success

end ProtoSchema.Compile
