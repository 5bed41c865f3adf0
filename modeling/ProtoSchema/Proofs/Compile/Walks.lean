import ProtoSchema.Proofs.Compile.Expansion
import ProtoSchema.Proofs.Schema.ObjectGraph

/-!
# The walk of a compilation

A compilation of an object walks through the graph of the objects, and the objects that are open at
any time are those of the walk. Where the compilation fails, the walk has come to a position that
offends, or it would come back to an object that is open.
-/

namespace ProtoSchema.Compile

open ProtoSchema.Visit (unvisited unvisited_lt)
open ObjectGraph (Node ObjectId Target Refers Walk targets elementTargets fieldTargets nodes last
  root?)
open Schema (Position)

variable {n : Nat}

section Entering

/-- Whether a step that enters a shared object comes from targets that are met under a scope, below
a trail: it enters one of them, or it is a step in the fields of one. -/
inductive EntersFrom (trail scope : List String) (targets : List (String × Target n)) :
    Step n → Prop where
  | shared {place : Place} {index : Fin n} : place.scope = scope →
    (place.key, Target.shared index) ∈ targets →
    EntersFrom trail scope targets (.enter trail place index)
  | unshared {key : String} {fields : List (String × Schema n)} {step : Step n} :
    (key, Target.unshared fields) ∈ targets →
    step ∈ memberSteps (trail ++ [OpenObject.labelOf (scope ++ [key])]) (scope ++ [key]) fields →
    EntersFrom trail scope targets step

/-- A step comes from more targets if it comes from fewer. -/
theorem EntersFrom.mono {trail scope : List String} {targets more : List (String × Target n)}
    {step : Step n} (h : EntersFrom trail scope targets step)
    (hsub : ∀ entry ∈ targets, entry ∈ more) : EntersFrom trail scope more step := by
  cases h with
  | shared hscope hmem => exact .shared hscope (hsub _ hmem)
  | unshared hmem hstep => exact .unshared (hsub _ hmem) hstep

/-- A step that enters an object is none that enters nothing. -/
theorem mem_of_mem_append_singleton {list : List (Step n)} {step other : Step n} {index : Fin n}
    (h : step ∈ list ++ [other]) (hother : other.index? = none)
    (hindex : step.index? = some index) : step ∈ list := by
  rcases List.mem_append.1 h with hmem | hlast
  · exact hmem
  · rw [List.mem_singleton.1 hlast, hother] at hindex
    cases hindex

variable {step : Step n} {index : Fin n}

mutual

/-- Where the steps inside a schema enter a shared object, it is one that the schema leads to, or
that an unshared object of the schema leads to. -/
theorem entersFrom_of_mem_steps (hindex : step.index? = some index) (trail : List String)
    (place : Place) : ∀ schema : Schema n, step ∈ steps trail place schema →
      EntersFrom trail place.scope (targets place.key schema) step
  | .optional inner, h =>
    entersFrom_of_mem_steps hindex trail { place with isOptional := true } inner
      (mem_of_mem_append_singleton h rfl hindex)
  | .nullable inner, h =>
    entersFrom_of_mem_steps hindex trail { place with isOptional := true } inner
      (mem_of_mem_append_singleton h rfl hindex)
  | .array element, h =>
    entersFrom_of_mem_steps hindex trail _ element (mem_of_mem_append_singleton h rfl hindex)
  | .set element, h =>
    entersFrom_of_mem_steps hindex trail _ element (mem_of_mem_append_singleton h rfl hindex)
  | .map key value, h => by
    rcases List.mem_append.1 h with hkey | hvalue
    · have hsteps := mem_of_mem_append_singleton hkey rfl hindex
      exact (entersFrom_of_mem_steps hindex trail _ key hsteps).mono fun _ hmem =>
        List.mem_append_left _ hmem
    · have hsteps := mem_of_mem_append_singleton hvalue rfl hindex
      exact (entersFrom_of_mem_steps hindex trail _ value hsteps).mono fun _ hmem =>
        List.mem_append_right _ hmem
  | .object members, h =>
    .unshared List.mem_cons_self (mem_of_mem_append_singleton h rfl hindex)
  | .shared other, h => by
    rw [List.mem_singleton.1 h]
    exact .shared rfl List.mem_cons_self
  | .tuple elements, h =>
    entersFrom_of_mem_elementSteps hindex trail place 0 elements
      (mem_of_mem_append_singleton h rfl hindex)
  | .enumeration options, h => by
    rw [List.mem_singleton.1 h] at hindex
    cases hindex
  | .string, h => by cases h
  | .date, h => by cases h
  | .boolean, h => by cases h
  | .bigInt, h => by cases h
  | .number _, h => by cases h
  | .unknown _, h => by cases h
  | .foreign _, h => by cases h
termination_by structural schema => schema

theorem entersFrom_of_mem_elementSteps (hindex : step.index? = some index) (trail : List String)
    (place : Place) : ∀ (position : Nat) (elements : List (Schema n)),
      step ∈ elementSteps trail place position elements →
        EntersFrom trail place.scope (elementTargets place.key position elements) step
  | _, [], h => by cases h
  | position, element :: rest, h => by
    rcases List.mem_append.1 h with hfirst | hrest
    · have hsteps := mem_of_mem_append_singleton hfirst rfl hindex
      exact (entersFrom_of_mem_steps hindex trail _ element hsteps).mono fun _ hmem =>
        List.mem_append_left _ hmem
    · exact (entersFrom_of_mem_elementSteps hindex trail place (position + 1) rest hrest).mono
        fun _ hmem => List.mem_append_right _ hmem
termination_by structural _ elements => elements

end

/-- Where the steps in the fields of an object enter a shared object, it is one that the fields lead
to, or that an unshared object in them leads to. -/
theorem entersFrom_of_mem_memberSteps (hindex : step.index? = some index) (trail : List String)
    (scope : List String) {members : List (String × Schema n)}
    (h : step ∈ memberSteps trail scope members) :
    EntersFrom trail scope (fieldTargets members) step := by
  induction members with
  | nil => cases h
  | cons member rest ih =>
    obtain ⟨key, schema⟩ := member
    rcases List.mem_append.1 h with hfirst | hrest
    · have hsteps := mem_of_mem_append_singleton hfirst rfl hindex
      exact (entersFrom_of_mem_steps hindex trail _ schema hsteps).mono fun _ hmem =>
        List.mem_append_left _ hmem
    · exact (ih hrest).mono fun _ hmem => List.mem_append_right _ hmem

end Entering

section Open

/-- The objects that are open along a chain from an object that is entered under a scope. -/
def openObjects : List String → Node n → List (String × Node n) → List (OpenObject n)
  | scope, node, [] => [⟨node.id.index?, OpenObject.labelOf scope⟩]
  | scope, node, (key, next) :: rest =>
    ⟨node.id.index?, OpenObject.labelOf scope⟩ :: openObjects (scope ++ [key]) next rest

/-- The keys along a chain. -/
def keys (chain : List (String × Node n)) : List String :=
  chain.map (·.1)

variable {scope : List String} {root node : Node n} {chain : List (String × Node n)} {key : String}

theorem keys_append_singleton : keys (chain ++ [(key, node)]) = keys chain ++ [key] := by
  simp [keys]

/-- One more object on the chain is one more open object. -/
theorem openObjects_append_singleton :
    openObjects scope root (chain ++ [(key, node)]) =
      openObjects scope root chain ++
        [⟨node.id.index?, OpenObject.labelOf (scope ++ keys chain ++ [key])⟩] := by
  induction chain generalizing scope root with
  | nil => simp [openObjects, keys]
  | cons entry rest ih =>
    obtain ⟨other, next⟩ := entry
    rw [List.cons_append, openObjects, openObjects, ih]
    simp [keys]

/-- The label of each object on a chain is made of the keys that lead to it. -/
theorem labels_openObjects :
    OpenObject.labels (openObjects scope root chain) =
      (List.range (chain.length + 1)).map fun depth =>
        OpenObject.labelOf (scope ++ (keys chain).take depth) := by
  induction chain generalizing scope root with
  | nil => simp [openObjects, OpenObject.labels]
  | cons entry rest ih =>
    obtain ⟨other, next⟩ := entry
    rw [List.length_cons, List.range_succ_eq_map, List.map_cons, List.map_map]
    have hrest := @ih (scope ++ [other]) next
    rw [OpenObject.labels] at hrest ⊢
    rw [openObjects, List.map_cons, hrest]
    simp [keys, Function.comp_def]

/-- The shared objects that are open are those of the chain. -/
theorem mem_indices_openObjects {index : Fin n} :
    index ∈ OpenObject.indices (openObjects scope root chain) ↔
      ObjectId.shared index ∈ (nodes root chain).map (·.id) := by
  have hid : ∀ id : ObjectId n, id.index? = some index ↔ ObjectId.shared index = id := by
    intro id
    cases id <;> simp [ObjectId.index?, eq_comm]
  induction chain generalizing scope root with
  | nil => simp [openObjects, OpenObject.indices, nodes, hid]
  | cons entry rest ih =>
    obtain ⟨other, next⟩ := entry
    have hrest := @ih (scope ++ [other]) next
    rw [OpenObject.indices, List.mem_filterMap] at hrest ⊢
    rw [openObjects, nodes, List.map_cons, List.map_cons, List.mem_cons, ← hid root.id]
    simp only [List.mem_cons, exists_eq_or_imp]
    exact or_congr Iff.rfl hrest

end Open

section Walk

/-- Where a walk through the graph is while a compilation is at some fields: the objects of a path
and a trail are open, and the keys that lead there make the scope. -/
structure Stage (objects : Objects n) (start : List String) (root : Node n)
    (path : List (OpenObject n)) (trail scope : List String) (chain : List (String × Node n)) :
    Prop where
  /-- No object is open twice. -/
  walk : Walk objects root chain
  /-- The open objects are those of the chain. -/
  opened : path ++ trail.map OpenObject.unshared = openObjects start root chain
  /-- The scope is made of the keys of the chain. -/
  scope_eq : scope = start ++ keys chain

/-- What an error tells about the graph of the objects that are reached from a root. -/
def Explains (objects : Objects n) (start : List String) (root : Node n) : SchemaError → Prop
  | .unsupported kind =>
    ∃ node, Relation.ReflTransGen (Refers objects) root node ∧
      ∃ position ∈ Schema.fieldPositions node.fields,
        position.offends = true ∧ position.schema.kind = kind
  | .cyclic labels =>
    ∃ chain key node, Walk objects root chain ∧ (key, node) ∈ (last root chain).members objects ∧
      node ∈ nodes root chain ∧
      labels = OpenObject.labels (openObjects start root (chain ++ [(key, node)]))

namespace Stage

variable {objects : Objects n} {start : List String} {root : Node n} {path : List (OpenObject n)}
  {trail scope : List String} {chain : List (String × Node n)} {key : String}

/-- Entering an unshared object goes one step down the trail. -/
theorem unshared (h : Stage objects start root path trail scope chain)
    (hroot : root.id.isWithin = false) {fields : List (String × Schema n)}
    (htarget : (key, Target.unshared fields) ∈ fieldTargets (last root chain).fields) :
    ∃ node, node.fields = fields ∧
      Stage objects start root path (trail ++ [OpenObject.labelOf (scope ++ [key])])
        (scope ++ [key]) (chain ++ [(key, node)]) := by
  obtain ⟨position, hmem⟩ := ObjectGraph.mem_members_unshared objects htarget
  refine ⟨_, rfl, h.walk.enter hmem (h.walk.unshared_not_mem hroot position), ?_, ?_⟩
  · rw [List.map_append, ← List.append_assoc, h.opened, openObjects_append_singleton, ← h.scope_eq]
    rfl
  · rw [keys_append_singleton, ← List.append_assoc, ← h.scope_eq]

/-- Entering a shared object that is not open goes one step down the path. -/
theorem shared (h : Stage objects start root path trail scope chain) {index : Fin n}
    (htarget : (key, Target.shared index) ∈ fieldTargets (last root chain).fields)
    (hnew : index ∉ OpenObject.indices (path ++ trail.map OpenObject.unshared)) :
    Stage objects start root
      (path ++ trail.map OpenObject.unshared ++ [⟨some index, OpenObject.labelOf (scope ++ [key])⟩])
      [] (scope ++ [key]) (chain ++ [(key, ⟨.shared index, objects index⟩)]) := by
  rw [h.opened, mem_indices_openObjects] at hnew
  refine ⟨h.walk.enter (ObjectGraph.mem_members_shared htarget) hnew, ?_, ?_⟩
  · rw [List.map_nil, List.append_nil, h.opened, openObjects_append_singleton, ← h.scope_eq]
    rfl
  · rw [keys_append_singleton, ← List.append_assoc, ← h.scope_eq]

/-- Coming back to a shared object that is open explains the error of a cyclic schema. -/
theorem cyclic (h : Stage objects start root path trail scope chain)
    (hroot : ObjectGraph.IsOf objects root) {index : Fin n}
    (htarget : (key, Target.shared index) ∈ fieldTargets (last root chain).fields)
    (hopen : index ∈ OpenObject.indices (path ++ trail.map OpenObject.unshared)) :
    Explains objects start root
      (.cyclic (OpenObject.labels (path ++ trail.map OpenObject.unshared) ++
        [OpenObject.labelOf (scope ++ [key])])) := by
  rw [h.opened, mem_indices_openObjects] at hopen
  refine ⟨chain, key, ⟨.shared index, objects index⟩, h.walk,
    ObjectGraph.mem_members_shared htarget,
    ObjectGraph.mem_nodes_of_shared hroot h.walk.descends hopen, ?_⟩
  rw [h.opened, openObjects_append_singleton, ← h.scope_eq]
  simp [OpenObject.labels]

end Stage

variable {objects : Objects n} {namer : Namer}

/-- Where the fields of an object fail to compile, one of their steps fails for the same cause. -/
theorem exists_step_of_objectFields {shared : SharedCompiler n} {trail scope : List String}
    {members : List (String × Schema n)} {cause : SchemaError}
    (h : (objectFields shared namer trail scope members >>= finishObject scope).outcome =
      .error cause) :
    ∃ step ∈ memberSteps trail scope members, (step.run shared namer).outcome = .error cause := by
  rcases Compilation.outcome_bind_eq_error_iff.1 h with hfields | ⟨fields, -, hfinish⟩
  · rw [objectFields_eq, Compilation.outcome_bind_pure_eq_error_iff] at hfields
    exact exists_of_runSteps_eq_error hfields
  · cases hfinish

/-- Where a step in the fields of an object fails, the cause tells something about the graph. -/
theorem explains_of_step {start : List String} {root : Node n}
    (hroot : ObjectGraph.IsOf objects root) (houtermost : root.id.isWithin = false)
    {path : List (OpenObject n)} {trail scope : List String} {chain : List (String × Node n)}
    (h : Stage objects start root path trail scope chain) {step : Step n}
    (hstep : step ∈ memberSteps trail scope (last root chain).fields) {cause : SchemaError}
    (hrun : (step.run
      (fun inner inside i =>
        sharedObject objects namer (path ++ inner.map OpenObject.unshared) inside i)
      namer).outcome = .error cause) :
    Explains objects start root cause := by
  cases step with
  | check position =>
    by_cases hoffends : position.offends = true
    · simp only [Step.run, hoffends, if_true] at hrun
      cases hrun
      have hchecked := (comprises_memberSteps trail scope (last root chain).fields).checked
      have hposition : position ∈ Schema.fieldPositions (last root chain).fields := by
        rw [← hchecked, List.mem_filterMap]
        exact ⟨_, hstep, rfl⟩
      have hreach := ObjectGraph.reflTransGen_last h.walk.descends List.mem_cons_self
      exact ⟨_, hreach, position, hposition, hoffends, rfl⟩
    · rw [run_check (Bool.eq_false_iff.2 hoffends)] at hrun
      cases hrun
  | define occurrence => cases hrun
  | enter inner place index =>
    have hfrom := entersFrom_of_mem_memberSteps rfl trail scope hstep
    -- below an unshared object the fields get smaller, and below a shared one the path gets longer
    cases hfrom with
    | unshared htarget hinner =>
      obtain ⟨node, rfl, hstage⟩ := h.unshared houtermost htarget
      refine explains_of_step hroot houtermost hstage ?_ hrun
      rw [ObjectGraph.last_append_singleton]
      exact hinner
    | shared hscope htarget =>
      have hshared : (sharedObject objects namer (path ++ trail.map OpenObject.unshared)
          (scope ++ [place.key]) index).outcome = .error cause := by
        rcases Compilation.outcome_bind_eq_error_iff.1 hrun with hfailed | ⟨fields, -, hemit⟩
        · rw [Place.inner, hscope] at hfailed
          exact hfailed
        · cases hemit
      rw [sharedObject] at hshared
      by_cases hopen : index ∈ OpenObject.indices (path ++ trail.map OpenObject.unshared)
      · rw [dif_pos hopen] at hshared
        cases hshared
        exact h.cyclic hroot htarget hopen
      · rw [dif_neg hopen] at hshared
        obtain ⟨next, hnext, hfailed⟩ := exists_step_of_objectFields hshared
        refine explains_of_step hroot houtermost (h.shared htarget hopen) ?_ hfailed
        rw [ObjectGraph.last_append_singleton]
        exact hnext
termination_by (unvisited (OpenObject.indices path), sizeOf (last root chain).fields)
decreasing_by
  · have hclosed : index ∉ OpenObject.indices path := by
      intro hmem
      rw [OpenObject.indices_append] at hopen
      exact hopen (List.mem_append_left _ hmem)
    refine .left _ _ ?_
    rw [indices_entered]
    exact unvisited_lt (fun i hi => List.mem_append_left _ hi)
      (List.mem_append_right _ List.mem_cons_self) hclosed
  · rw [ObjectGraph.last_append_singleton]
    exact .right _ (ObjectGraph.partsOf_fieldTargets _ _ htarget).1

/-- Where an object fails to compile, the cause tells something about the graph. -/
theorem explains_of_compileObject {scope : List String} {schema : Schema n} {root : Node n}
    (hroot : root? objects schema = some root) {cause : SchemaError}
    (h : (compileObject objects namer [] scope schema).outcome = .error cause) :
    Explains objects scope root cause := by
  have hof := ObjectGraph.isOf_of_root? hroot
  have houtermost := ObjectGraph.isWithin_of_root? hroot
  have hscope : scope = scope ++ keys ([] : List (String × Node n)) := (List.append_nil _).symm
  cases schema with
  | object members =>
    cases hroot
    obtain ⟨step, hstep, hfailed⟩ := exists_step_of_objectFields h
    have hstage : Stage objects scope ⟨.root, members⟩ [] [OpenObject.labelOf scope] scope [] :=
      ⟨.start _, rfl, hscope⟩
    exact explains_of_step hof houtermost hstage hstep hfailed
  | shared index =>
    cases hroot
    have hopen : index ∉ OpenObject.indices ([] : List (OpenObject n)) := List.not_mem_nil
    rw [compileObject, sharedObject, dif_neg hopen] at h
    obtain ⟨step, hstep, hfailed⟩ := exists_step_of_objectFields h
    have hstage : Stage objects scope ⟨.shared index, objects index⟩
        [⟨some index, OpenObject.labelOf scope⟩] [] scope [] :=
      ⟨.start _, rfl, hscope⟩
    exact explains_of_step hof houtermost hstage hstep hfailed
  | _ => cases hroot

end Walk

end ProtoSchema.Compile
