import ProtoSchema.Proofs.Address
import ProtoSchema.Proofs.Compile.Expansion
import ProtoSchema.Proofs.Compile.Tree
import ProtoSchema.Proofs.Schema.ObjectGraph

/-!
# The stops of a compilation

A compilation runs through a tree: a schema stands at every node, references to shared objects lead
on into these objects, and a reference to an object that is open is a leaf. The nodes are listed in
the order in which the compilation is done with them, each after all that stands inside it, so that
the list is the same for a compilation that succeeds and for one that fails. Main statement: a
compilation goes from one node to the next, defines what occurs there, and ends at the first node
that fails.
-/

namespace ProtoSchema.Compile

open Compilation (emit fail)
open Outline (Occurrence elementPlace)
open ProtoSchema.Visit (unvisited unvisited_lt)
open Schema (Position)

variable {n : Nat}

/-- A node of the tree that a compilation runs through. -/
structure Stop (n : Nat) where
  /-- The branches that lead to the node from the top of the tree. -/
  address : List Nat
  /-- The objects that are open there, outermost first. -/
  opened : List (OpenObject n)
  /-- The place of the node in its message. -/
  place : Place
  /-- What stands there, and whether it is a part of a map. -/
  position : Position n

/-- The enum, the object or the tuple that a schema is at a place, if it is one. -/
def occurrenceAt (objects : Objects n) (place : Place) : Schema n → Option (Occurrence n)
  | .object members => some (.object place members)
  | .shared index => some (.object place (objects index))
  | .tuple elements => some (.tuple place elements)
  | .enumeration options => some (.enumeration place options)
  | _ => none

namespace Stop

/-- Why a compilation ends at the node, if it does: the object that stands there is open, or what
stands there has no mapping, or it is unfit to be a part of a map. -/
def failure? (stop : Stop n) : Option SchemaError :=
  match stop.position.schema.index? with
  | some index =>
    if (OpenObject.indices stop.opened).contains index then
      some (.cyclic (OpenObject.labels stop.opened ++ [OpenObject.labelOf stop.place.inner]))
    else none
  | none =>
    if stop.position.offends = true then some (.unsupported stop.position.schema.kind) else none

/-- The enum, the object or the tuple that occurs at the node, if there is one. -/
def occurrence? (objects : Objects n) (stop : Stop n) : Option (Occurrence n) :=
  occurrenceAt objects stop.place stop.position.schema

/-- What a compilation does at the node. -/
def run (objects : Objects n) (namer : Namer) (stop : Stop n) : Compilation Unit :=
  match stop.failure? with
  | some cause => fail cause
  | none => ⟨reports namer (stop.occurrence? objects).toList, .ok ()⟩

end Stop

/-- The nodes inside a shared object that stands below a trail of unshared ones at an address and is
entered under a scope. -/
abbrev SharedStops (n : Nat) :=
  List String → List Nat → List String → Fin n → List (Stop n)

section Listing

variable (path : List (OpenObject n)) (shared : SharedStops n)

mutual

/-- The nodes of a schema, given those inside shared objects: the nodes inside it and then its own.
The objects of a path and the unshared ones of a trail are open around it. -/
def stops (trail : List String) (address : List Nat) (place : Place) (isMapPart : Bool)
    (schema : Schema n) : List (Stop n) :=
  (match schema with
    | .optional inner =>
      stops trail (address ++ [0]) { place with isOptional := true } false inner
    | .nullable inner =>
      stops trail (address ++ [0]) { place with isOptional := true } false inner
    | .array element =>
      stops trail (address ++ [0]) ⟨Singular.singular place.key, place.scope, false, true⟩ false
        element
    | .set element =>
      stops trail (address ++ [0]) ⟨Singular.singular place.key, place.scope, false, true⟩ false
        element
    | .map key value =>
      stops trail (address ++ [0]) ⟨place.key ++ "Key", place.scope, false, false⟩ true key ++
        stops trail (address ++ [1]) ⟨place.key ++ "Value", place.scope, false, false⟩ true value
    | .object members =>
      memberStops (trail ++ [OpenObject.labelOf place.inner]) address place.inner 0 members
    | .shared index => shared trail address place.inner index
    | .tuple elements => elementStops trail address place 0 elements
    | _ => []) ++
    [⟨address, path ++ trail.map OpenObject.unshared, place, ⟨schema, isMapPart⟩⟩]
termination_by structural schema

/-- The nodes of the fields of an object that is entered under a scope, from a position on. -/
def memberStops (trail : List String) (address : List Nat) (scope : List String)
    (position : Nat) : List (String × Schema n) → List (Stop n)
  | [] => []
  | (key, schema) :: rest =>
    stops trail (address ++ [position]) ⟨key, scope, false, false⟩ false schema ++
      memberStops trail address scope (position + 1) rest
termination_by structural members => members

/-- The nodes of the elements of a tuple, from a position on. -/
def elementStops (trail : List String) (address : List Nat) (place : Place) (position : Nat) :
    List (Schema n) → List (Stop n)
  | [] => []
  | element :: rest =>
    stops trail (address ++ [position]) (elementPlace place position) false element ++
      elementStops trail address place (position + 1) rest
termination_by structural elements => elements

end

end Listing

/-- The nodes inside a shared object that is entered under a scope from inside the objects of a
path. There are none if it is one of these objects. -/
def sharedStops (objects : Objects n) (path : List (OpenObject n)) (address : List Nat)
    (scope : List String) (index : Fin n) : List (Stop n) :=
  if h : index ∈ OpenObject.indices path then []
  else
    let here : OpenObject n := ⟨some index, OpenObject.labelOf scope⟩
    memberStops (path ++ [here])
      (fun trail address scope other =>
        sharedStops objects (path ++ [here] ++ trail.map OpenObject.unshared) address scope other)
      [] address scope 0 (objects index)
termination_by unvisited (OpenObject.indices path)
decreasing_by
  rw [OpenObject.indices_append, OpenObject.indices_append, OpenObject.indices_map_unshared]
  exact unvisited_lt (i := index) (fun j hj => by simp [hj]) (by simp [OpenObject.indices]) h

section Run

variable {objects : Objects n} {namer : Namer}

/-- A schema with a definition of its own has a mapping and is fit to be a part of a map. -/
theorem offends_of_isHoisted {schema : Schema n} (h : Outline.isHoisted schema = true)
    (isMapPart : Bool) : Position.offends ⟨schema, isMapPart⟩ = false := by
  cases schema <;> cases isMapPart <;> first | rfl | cases h

namespace Stop

/-- At a node where nothing occurs, a compilation only sees whether the position offends. -/
theorem run_of_not_isHoisted (shared : SharedCompiler n) {address : List Nat}
    {opened : List (OpenObject n)} {place : Place} {schema : Schema n} {isMapPart : Bool}
    (h : Outline.isHoisted schema = false) :
    (Stop.mk address opened place ⟨schema, isMapPart⟩).run objects namer =
      (Step.check ⟨schema, isMapPart⟩).run shared namer := by
  have hindex : schema.index? = none := by cases schema <;> first | rfl | cases h
  have hnone : occurrenceAt objects place schema = none := by
    cases schema <;> first | rfl | cases h
  cases hoffends : Position.offends ⟨schema, isMapPart⟩ <;>
    simp [run, failure?, occurrence?, hindex, hnone, hoffends, Step.run, reports,
      Compilation.pure_eq]

/-- At an object, a tuple or an enum that is not open, a compilation defines what occurs there. -/
theorem run_of_occurrence {stop : Stop n} (hfailure : stop.failure? = none)
    {occurrence : Occurrence n} (h : stop.occurrence? objects = some occurrence) :
    stop.run objects namer = ⟨occurrence.events namer, .ok ()⟩ := by
  simp [run, hfailure, h, reports]

end Stop

/-- Go from one node to the next. -/
def runStops (objects : Objects n) (namer : Namer) (list : List (Stop n)) : Compilation Unit :=
  forM list (Stop.run objects namer)

@[simp]
theorem runStops_nil : runStops objects namer [] = pure () := rfl

@[simp]
theorem runStops_singleton (stop : Stop n) :
    runStops objects namer [stop] = stop.run objects namer := by
  simp [runStops]

/-- Going through the nodes of two lists is going through those of the first and then those of the
second. -/
@[simp]
theorem runStops_append (before after : List (Stop n)) :
    runStops objects namer (before ++ after) =
      runStops objects namer before >>= fun _ => runStops objects namer after := by
  simp [runStops]

section Walk

variable {path : List (OpenObject n)} {shared : SharedCompiler n} {inner : SharedStops n}

/-- The compiler of shared objects goes through the nodes of every shared object. -/
def GoesThrough (objects : Objects n) (namer : Namer) (path : List (OpenObject n))
    (shared : SharedCompiler n) (inner : SharedStops n) : Prop :=
  ∀ (trail : List String) (address : List Nat) (place : Place) (index : Fin n) (isMapPart : Bool),
    (Step.enter trail place index).run shared namer =
      runStops objects namer (inner trail address place.inner index ++
        [⟨address, path ++ trail.map OpenObject.unshared, place, ⟨.shared index, isMapPart⟩⟩])

variable {trail : List String} {address : List Nat} {opened : List (OpenObject n)} {place : Place}
  {schema : Schema n} {isMapPart : Bool} {before : List (Step n)} {nodes : List (Stop n)}

/-- Where nothing occurs at a node, its check goes through it. -/
theorem runSteps_check_leaf (h : Outline.isHoisted schema = false) :
    runSteps shared namer [.check ⟨schema, isMapPart⟩] =
      runStops objects namer [⟨address, opened, place, ⟨schema, isMapPart⟩⟩] := by
  rw [runSteps_singleton, runStops_singleton, Stop.run_of_not_isHoisted shared h]

/-- Where the steps before a check go through some nodes, and nothing occurs at the node of the
check, the steps go through these nodes and that one. -/
theorem runSteps_check_eq (h : Outline.isHoisted schema = false)
    (hbefore : runSteps shared namer before = runStops objects namer nodes) :
    runSteps shared namer (before ++ [.check ⟨schema, isMapPart⟩]) =
      runStops objects namer (nodes ++ [⟨address, opened, place, ⟨schema, isMapPart⟩⟩]) := by
  rw [runSteps_append, runStops_append, hbefore, runSteps_check_leaf h]

/-- Where the steps before a definition go through some nodes, the steps go on to the node of the
definition, and the check there does nothing. -/
theorem runSteps_define_eq (hindex : schema.index? = none) {occurrence : Occurrence n}
    (h : occurrenceAt objects place schema = some occurrence)
    (hbefore : runSteps shared namer before = runStops objects namer nodes) :
    runSteps shared namer (before ++ [.define occurrence] ++ [.check ⟨schema, isMapPart⟩]) =
      runStops objects namer (nodes ++ [⟨address, opened, place, ⟨schema, isMapPart⟩⟩]) := by
  have hhoisted : Outline.isHoisted schema = true := by cases schema <;> first | rfl | cases h
  have hclear := offends_of_isHoisted hhoisted isMapPart
  have hfailure : (Stop.mk address opened place ⟨schema, isMapPart⟩).failure? = none := by
    simp [Stop.failure?, hindex, hclear]
  rw [runSteps_append, runSteps_singleton, run_check hclear, runSteps_append, runSteps_singleton,
    runStops_append, runStops_singleton, hbefore, Stop.run_of_occurrence hfailure h]
  simp [Step.run]

mutual

/-- The steps in a schema and the check of the schema go through its nodes. -/
theorem runSteps_eq_runStops (hshared : GoesThrough objects namer path shared inner)
    (trail : List String) (address : List Nat) (place : Place) (isMapPart : Bool) :
    ∀ schema : Schema n,
      runSteps shared namer (steps trail place schema ++ [.check ⟨schema, isMapPart⟩]) =
        runStops objects namer (stops path inner trail address place isMapPart schema)
  | .optional schema =>
    runSteps_check_eq rfl (runSteps_eq_runStops hshared trail _ _ false schema)
  | .nullable schema =>
    runSteps_check_eq rfl (runSteps_eq_runStops hshared trail _ _ false schema)
  | .array element =>
    runSteps_check_eq rfl (runSteps_eq_runStops hshared trail _ _ false element)
  | .set element =>
    runSteps_check_eq rfl (runSteps_eq_runStops hshared trail _ _ false element)
  | .map key value => by
    have hkey := runSteps_eq_runStops hshared trail (address ++ [0])
      ⟨place.key ++ "Key", place.scope, false, false⟩ true key
    have hvalue := runSteps_eq_runStops hshared trail (address ++ [1])
      ⟨place.key ++ "Value", place.scope, false, false⟩ true value
    refine runSteps_check_eq rfl ?_
    rw [steps, runSteps_append, hkey, hvalue, ← runStops_append]
  | .object members =>
    runSteps_define_eq rfl rfl (runSteps_memberSteps hshared _ address place.inner 0 members)
  | .shared index => by
    have hclear := @offends_of_isHoisted _ (.shared index) rfl isMapPart
    rw [steps, runSteps_append, runSteps_singleton, runSteps_singleton, run_check hclear,
      hshared trail address place index isMapPart, stops]
    simp
  | .tuple elements =>
    runSteps_define_eq rfl rfl (runSteps_elementSteps hshared trail address place 0 elements)
  | .enumeration options => by
    have hnone : runSteps shared namer [] = runStops objects namer [] := rfl
    exact runSteps_define_eq rfl rfl hnone
  | .string => runSteps_check_leaf rfl
  | .date => runSteps_check_leaf rfl
  | .boolean => runSteps_check_leaf rfl
  | .bigInt => runSteps_check_leaf rfl
  | .number _ => runSteps_check_leaf rfl
  | .unknown _ => runSteps_check_leaf rfl
  | .foreign _ => runSteps_check_leaf rfl
termination_by structural schema => schema

/-- The steps in the fields of an object go through the nodes of the fields. -/
theorem runSteps_memberSteps (hshared : GoesThrough objects namer path shared inner)
    (trail : List String) (address : List Nat) (scope : List String) :
    ∀ (position : Nat) (members : List (String × Schema n)),
      runSteps shared namer (memberSteps trail scope members) =
        runStops objects namer (memberStops path inner trail address scope position members)
  | _, [] => rfl
  | position, (key, schema) :: rest => by
    rw [memberSteps, memberStops, runSteps_append, runStops_append,
      runSteps_eq_runStops hshared trail (address ++ [position]) _ false schema,
      runSteps_memberSteps hshared trail address scope (position + 1) rest]
termination_by structural _ members => members

/-- The steps in the elements of a tuple go through the nodes of the elements. -/
theorem runSteps_elementSteps (hshared : GoesThrough objects namer path shared inner)
    (trail : List String) (address : List Nat) (place : Place) :
    ∀ (position : Nat) (elements : List (Schema n)),
      runSteps shared namer (elementSteps trail place position elements) =
        runStops objects namer (elementStops path inner trail address place position elements)
  | _, [] => rfl
  | position, element :: rest => by
    rw [elementSteps, elementStops, runSteps_append, runStops_append,
      runSteps_eq_runStops hshared trail (address ++ [position]) _ false element,
      runSteps_elementSteps hshared trail address place (position + 1) rest]
termination_by structural _ elements => elements

end

end Walk

section Graph

variable (objects : Objects n) (namer : Namer)

/-- The compiler of shared objects inside the objects of a path. -/
abbrev sharedFrom (path : List (OpenObject n)) : SharedCompiler n :=
  fun trail scope index =>
    sharedObject objects namer (path ++ trail.map OpenObject.unshared) scope index

/-- The nodes inside shared objects inside the objects of a path. -/
abbrev sharedStopsFrom (path : List (OpenObject n)) : SharedStops n :=
  fun trail address scope index =>
    sharedStops objects (path ++ trail.map OpenObject.unshared) address scope index

/-- Compiling a shared object that is not open goes through the nodes inside it. -/
theorem sharedObject_eq_runStops {path : List (OpenObject n)} {scope : List String} {index : Fin n}
    (hclosed : index ∉ OpenObject.indices path)
    (hinner : GoesThrough objects namer (path ++ [⟨some index, OpenObject.labelOf scope⟩])
      (sharedFrom objects namer (path ++ [⟨some index, OpenObject.labelOf scope⟩]))
      (sharedStopsFrom objects (path ++ [⟨some index, OpenObject.labelOf scope⟩])))
    (address : List Nat) :
    sharedObject objects namer path scope index =
      runStops objects namer (sharedStops objects path address scope index) >>= fun _ =>
        finishObject scope (Outline.objectFields namer scope (objects index)) := by
  have hsteps := runSteps_memberSteps hinner [] address scope 0 (objects index)
  rw [sharedObject, sharedStops, dif_neg hclosed, dif_neg hclosed]
  simp only [objectFields_eq, hsteps, bind_assoc, pure_bind]

/-- From inside the objects of a path, the compiler of shared objects goes through the nodes inside
them, and stops at an object that is open. -/
theorem goesThrough_sharedFrom (path : List (OpenObject n)) :
    GoesThrough objects namer path (sharedFrom objects namer path)
      (sharedStopsFrom objects path) := by
  intro trail address place index isMapPart
  rw [Step.run, runStops_append, runStops_singleton]
  by_cases hopen : index ∈ OpenObject.indices (path ++ trail.map OpenObject.unshared)
  · have hobject : sharedFrom objects namer path trail place.inner index =
        fail (.cyclic (OpenObject.labels (path ++ trail.map OpenObject.unshared) ++
          [OpenObject.labelOf place.inner])) := by
      rw [sharedFrom, sharedObject, dif_pos hopen]
    have hstops : sharedStopsFrom objects path trail address place.inner index = [] := by
      rw [sharedStopsFrom, sharedStops, dif_pos hopen]
    rw [hobject, hstops]
    simp [Stop.run, Stop.failure?, Schema.index?, hopen]
  · have hfailure : (Stop.mk address (path ++ trail.map OpenObject.unshared) place
        ⟨.shared index, isMapPart⟩).failure? = none := by
      simp [Stop.failure?, Schema.index?, hopen]
    have hlength : (Outline.objectFields namer place.inner (objects index)).length =
        (objects index).length := by
      simp [Outline.objectFields]
    have hlonger : unvisited (OpenObject.indices (path ++ trail.map OpenObject.unshared ++
        [⟨some index, OpenObject.labelOf place.inner⟩])) < unvisited (OpenObject.indices path) := by
      have hindices : OpenObject.indices (path ++ trail.map OpenObject.unshared) =
          OpenObject.indices path := by
        rw [OpenObject.indices_append, OpenObject.indices_map_unshared, List.append_nil]
      rw [hindices] at hopen
      rw [indices_entered]
      exact unvisited_lt (fun i hi => List.mem_append_left _ hi)
        (List.mem_append_right _ List.mem_cons_self) hopen
    have hobject := sharedObject_eq_runStops objects namer hopen
      (goesThrough_sharedFrom
        (path ++ trail.map OpenObject.unshared ++ [⟨some index, OpenObject.labelOf place.inner⟩]))
      address
    change (sharedObject objects namer (path ++ trail.map OpenObject.unshared) place.inner index >>=
      _) = _
    rw [hobject, bind_assoc, Stop.run_of_occurrence hfailure rfl, finishObject, hlength]
    rfl
termination_by unvisited (OpenObject.indices path)
decreasing_by exact hlonger

/-- The nodes of a schema that is compiled at a place. -/
def fieldStops (path : List (OpenObject n)) (place : Place) (schema : Schema n) : List (Stop n) :=
  stops path (sharedStopsFrom objects path) [] [] place false schema

/-- The nodes inside an object that is compiled for its fields. -/
def objectStops (path : List (OpenObject n)) (scope : List String) : Schema n → List (Stop n)
  | .object members =>
    memberStops path (sharedStopsFrom objects path) [OpenObject.labelOf scope] [] scope 0 members
  | .shared index => sharedStops objects path [] scope index
  | _ => []

/-- Compiling a schema goes through its nodes and yields its descriptor. -/
theorem compileField_eq_runStops (path : List (OpenObject n)) (place : Place) (schema : Schema n) :
    compileField objects namer path place schema =
      runStops objects namer (fieldStops objects path place schema) >>= fun _ =>
        pure [Outline.descriptor namer place schema] := by
  rw [compileField, field_eq,
    runSteps_eq_runStops (goesThrough_sharedFrom objects namer path) [] [] place false schema]
  rfl

variable {objects namer}

/-- Why an object is refused before its fields are looked at: it is open, or it is no object. -/
def entryFailure? (path : List (OpenObject n)) (scope : List String) (schema : Schema n) :
    Option SchemaError :=
  match schema.index? with
  | some index =>
    if (OpenObject.indices path).contains index then
      some (.cyclic (OpenObject.labels path ++ [OpenObject.labelOf scope]))
    else none
  | none => if schema.isObject = true then none else some (.unsupported schema.kind)

/-- What is refused at once defines nothing. -/
theorem compileObject_of_entryFailure {path : List (OpenObject n)} {scope : List String}
    {schema : Schema n} {cause : SchemaError} (h : entryFailure? path scope schema = some cause) :
    compileObject objects namer path scope schema = fail cause := by
  cases schema with
  | object members => cases h
  | shared index =>
    by_cases hopen : index ∈ OpenObject.indices path
    · have hcontains := List.contains_iff_mem.2 hopen
      simp only [entryFailure?, Schema.index?, hcontains, if_true, Option.some.injEq] at h
      rw [compileObject, sharedObject, dif_pos hopen, h]
    · simp [entryFailure?, Schema.index?, hopen] at h
  | _ =>
    cases h
    rfl

/-- Compiling an object that is not refused at once goes through the nodes inside it and yields its
fields in a row. -/
theorem compileObject_eq_runStops (objects : Objects n) (namer : Namer)
    {path : List (OpenObject n)} {scope : List String} {schema : Schema n}
    (h : entryFailure? path scope schema = none) :
    ∃ root, ObjectGraph.root? objects schema = some root ∧
      compileObject objects namer path scope schema =
        runStops objects namer (objectStops objects path scope schema) >>= fun _ =>
          finishObject scope (Outline.objectFields namer scope root.fields) := by
  cases schema with
  | object members =>
    have hsteps := runSteps_memberSteps (goesThrough_sharedFrom objects namer path)
      [OpenObject.labelOf scope] [] scope 0 members
    refine ⟨_, rfl, ?_⟩
    rw [compileObject, objectFields_eq, hsteps]
    simp only [bind_assoc, pure_bind]
    rfl
  | shared index =>
    have hclosed : index ∉ OpenObject.indices path := by
      intro hopen
      simp [entryFailure?, Schema.index?, hopen] at h
    have hinner := goesThrough_sharedFrom objects namer
      (path ++ [⟨some index, OpenObject.labelOf scope⟩])
    exact ⟨_, rfl, sharedObject_eq_runStops objects namer hclosed hinner []⟩
  | _ => cases h

end Graph

/-- Where no node fails, everything that occurs is reported. -/
theorem runStops_of_clear {list : List (Stop n)} (h : ∀ stop ∈ list, stop.failure? = none) :
    runStops objects namer list =
      ⟨reports namer (list.filterMap (·.occurrence? objects)), .ok ()⟩ := by
  induction list with
  | nil => rfl
  | cons stop rest ih =>
    obtain ⟨hstop, hrest⟩ := List.forall_mem_cons.1 h
    have hrun : stop.run objects namer =
        ⟨reports namer (stop.occurrence? objects).toList, .ok ()⟩ := by
      rw [Stop.run, hstop]
    have hlist : (stop :: rest).filterMap (·.occurrence? objects) =
        (stop.occurrence? objects).toList ++ rest.filterMap (·.occurrence? objects) := by
      rw [List.filterMap_cons]
      cases stop.occurrence? objects <;> rfl
    rw [hlist, ← List.singleton_append, runStops_append, runStops_singleton, hrun, ih hrest]
    simp [bind, Compilation.andThen, reports]

/-- Where a node fails and none before it does, what occurs before it is reported, and nothing
else. -/
theorem runStops_of_failure {before after : List (Stop n)} {failing : Stop n} {cause : SchemaError}
    (hbefore : ∀ stop ∈ before, stop.failure? = none) (hfailing : failing.failure? = some cause) :
    runStops objects namer (before ++ failing :: after) =
      ⟨reports namer (before.filterMap (·.occurrence? objects)), .error cause⟩ := by
  have hrun : failing.run objects namer = fail cause := by
    rw [Stop.run, hfailing]
  rw [← List.singleton_append, runStops_append, runStops_append, runStops_singleton, hrun,
    runStops_of_clear hbefore]
  simp [bind, Compilation.andThen, fail]

/-- No node of a list fails, or one of them is the first that does. -/
theorem exists_first_failure (list : List (Stop n)) :
    (∀ stop ∈ list, stop.failure? = none) ∨
      ∃ before failing after cause, list = before ++ failing :: after ∧
        (∀ stop ∈ before, stop.failure? = none) ∧ failing.failure? = some cause := by
  induction list with
  | nil => exact .inl fun stop hstop => by cases hstop
  | cons stop rest ih =>
    cases hstop : stop.failure? with
    | some cause => exact .inr ⟨[], stop, rest, cause, rfl, List.forall_mem_nil _, hstop⟩
    | none =>
      rcases ih with hclear | ⟨before, failing, after, cause, rfl, hbefore, hfailing⟩
      · exact .inl (List.forall_mem_cons.2 ⟨hstop, hclear⟩)
      · exact .inr ⟨stop :: before, failing, after, cause, rfl,
          List.forall_mem_cons.2 ⟨hstop, hbefore⟩, hfailing⟩

/-- Where the nodes are gone through successfully, none of them fails. -/
theorem failure_of_runStops_ok {list : List (Stop n)}
    (h : (runStops objects namer list).outcome = .ok ()) : ∀ stop ∈ list, stop.failure? = none := by
  rcases exists_first_failure list with
    hclear | ⟨before, failing, after, cause, rfl, hbefore, hfailing⟩
  · exact hclear
  · rw [runStops_of_failure hbefore hfailing] at h
    cases h

/-- Where going through the nodes fails, it has come to the first one that fails, and reported what
occurs before it. -/
theorem exists_of_runStops_error {list : List (Stop n)} {cause : SchemaError}
    (h : (runStops objects namer list).outcome = .error cause) :
    ∃ before failing after, list = before ++ failing :: after ∧
      (∀ stop ∈ before, stop.failure? = none) ∧ failing.failure? = some cause ∧
      (runStops objects namer list).events =
        reports namer (before.filterMap (·.occurrence? objects)) := by
  rcases exists_first_failure list with
    hclear | ⟨before, failing, after, found, rfl, hbefore, hfailing⟩
  · rw [runStops_of_clear hclear] at h
    cases h
  · rw [runStops_of_failure hbefore hfailing] at h ⊢
    cases h
    exact ⟨before, failing, after, rfl, hbefore, hfailing, rfl⟩

/-- A field that fails to compile fails at the first of its nodes that fails. -/
theorem exists_of_compileField_error {path : List (OpenObject n)} {place : Place}
    {schema : Schema n} {cause : SchemaError}
    (h : (compileField objects namer path place schema).outcome = .error cause) :
    ∃ before failing after, fieldStops objects path place schema = before ++ failing :: after ∧
      (∀ stop ∈ before, stop.failure? = none) ∧ failing.failure? = some cause ∧
      (compileField objects namer path place schema).events =
        reports namer (before.filterMap (·.occurrence? objects)) := by
  rw [compileField_eq_runStops] at h ⊢
  rw [Compilation.outcome_bind_pure_eq_error_iff] at h
  rw [Compilation.bind_of_error h]
  exact exists_of_runStops_error h

/-- An object that fails to compile is refused at once, or fails at the first of the nodes inside it
that fails. -/
theorem exists_of_compileObject_error {path : List (OpenObject n)} {scope : List String}
    {schema : Schema n} {cause : SchemaError}
    (h : (compileObject objects namer path scope schema).outcome = .error cause) :
    (entryFailure? path scope schema = some cause ∧
        (compileObject objects namer path scope schema).events = []) ∨
      ∃ before failing after, objectStops objects path scope schema = before ++ failing :: after ∧
        (∀ stop ∈ before, stop.failure? = none) ∧ failing.failure? = some cause ∧
        (compileObject objects namer path scope schema).events =
          reports namer (before.filterMap (·.occurrence? objects)) := by
  cases hentry : entryFailure? path scope schema with
  | some refusal =>
    rw [compileObject_of_entryFailure hentry] at h ⊢
    cases h
    exact .inl ⟨rfl, rfl⟩
  | none =>
    obtain ⟨root, -, hcompile⟩ := compileObject_eq_runStops objects namer hentry
    rw [hcompile] at h ⊢
    have hstops : (runStops objects namer (objectStops objects path scope schema)).outcome =
        .error cause := by
      rcases Compilation.outcome_bind_eq_error_iff.1 h with hfailed | ⟨_, -, hfinish⟩
      · exact hfailed
      · cases hfinish
    rw [Compilation.bind_of_error hstops]
    exact .inr (exists_of_runStops_error hstops)

/-- An object that compiles reports all that occurs inside it and then itself, and yields its fields
in a row. -/
theorem compileObject_of_ok {path : List (OpenObject n)} {scope : List String} {schema : Schema n}
    {fields : List NumberedField}
    (h : (compileObject objects namer path scope schema).outcome = .ok fields) :
    ∃ root, ObjectGraph.root? objects schema = some root ∧
      (∀ stop ∈ objectStops objects path scope schema, stop.failure? = none) ∧
      fields = NumberedField.consecutive 1 (Outline.objectFields namer scope root.fields) ∧
      (compileObject objects namer path scope schema).events =
        reports namer ((objectStops objects path scope schema).filterMap (·.occurrence? objects)) ++
          [.objectCompiled (OpenObject.labelOf scope) fields.length] := by
  cases hentry : entryFailure? path scope schema with
  | some refusal =>
    rw [compileObject_of_entryFailure hentry] at h
    cases h
  | none =>
    obtain ⟨root, hroot, hcompile⟩ := compileObject_eq_runStops objects namer hentry
    rw [hcompile] at h ⊢
    have hstops := (Compilation.outcome_then_eq_ok_iff.1 h).1
    have hclear := failure_of_runStops_ok hstops
    have hfields : fields =
        NumberedField.consecutive 1 (Outline.objectFields namer scope root.fields) :=
      (Except.ok.inj (Compilation.outcome_then_eq_ok_iff.1 h).2).symm
    refine ⟨root, hroot, hclear, hfields, ?_⟩
    rw [hfields, NumberedField.length_consecutive, Compilation.bind_of_ok hstops,
      runStops_of_clear hclear]
    rfl

end Run

section Order

/-- The nodes of a list are in the order in which a traversal is done with them. -/
def IsOrdered (list : List (Stop n)) : Prop :=
  list.Pairwise fun stop other => Address.isBefore stop.address other.address = true

/-- The nodes of a list are in order, and stand at an address or inside it. -/
structure IsAt (address : List Nat) (list : List (Stop n)) : Prop where
  /-- The nodes are in order. -/
  ordered : IsOrdered list
  /-- Every node stands at the address or inside it. -/
  under : ∀ stop ∈ list, address <+: stop.address

/-- The nodes of a list are in order, and stand inside an address, on the branches from the first
one on. -/
structure IsInside (address : List Nat) (first : Nat) (list : List (Stop n)) : Prop where
  /-- The nodes are in order. -/
  ordered : IsOrdered list
  /-- Every node stands on one of the branches. -/
  under : ∀ stop ∈ list, ∃ branch rest, first ≤ branch ∧ stop.address = address ++ branch :: rest

variable {address : List Nat} {first : Nat} {list more : List (Stop n)}

theorem IsInside.nil : IsInside address first ([] : List (Stop n)) :=
  ⟨.nil, fun _ h => by cases h⟩

/-- The nodes on one branch come before those on later ones. -/
theorem IsAt.append (h : IsAt (address ++ [first]) list)
    (hmore : IsInside address (first + 1) more) : IsInside address first (list ++ more) where
  ordered := by
    refine List.pairwise_append.2 ⟨h.ordered, hmore.ordered, ?_⟩
    intro stop hstop other hother
    obtain ⟨rest, hrest⟩ := h.under stop hstop
    obtain ⟨branch, later, hbranch, hlater⟩ := hmore.under other hother
    rw [← hrest, hlater, List.append_assoc]
    exact Address.isBefore_of_lt address (by omega) rest later
  under := by
    intro stop hstop
    rcases List.mem_append.1 hstop with hlist | hlater
    · obtain ⟨rest, hrest⟩ := h.under stop hlist
      exact ⟨first, rest, Nat.le_refl first, by rw [← hrest, List.append_assoc]; rfl⟩
    · obtain ⟨branch, rest, hbranch, haddress⟩ := hmore.under stop hlater
      exact ⟨branch, rest, by omega, haddress⟩

/-- The nodes on a single branch. -/
theorem IsAt.inside (h : IsAt (address ++ [first]) list) : IsInside address first list := by
  have hlist := h.append .nil
  rwa [List.append_nil] at hlist

/-- A node comes after all that stands inside it. -/
theorem IsInside.close (h : IsInside address first list) {stop : Stop n}
    (hstop : stop.address = address) : IsAt address (list ++ [stop]) where
  ordered := by
    refine List.pairwise_append.2 ⟨h.ordered, List.pairwise_singleton _ _, ?_⟩
    intro other hother last hlast
    obtain ⟨branch, rest, -, haddress⟩ := h.under other hother
    rw [List.mem_singleton.1 hlast, hstop, haddress]
    exact Address.isBefore_inside address branch rest
  under := by
    intro other hother
    rcases List.mem_append.1 hother with hlist | hlast
    · obtain ⟨branch, rest, -, haddress⟩ := h.under other hlist
      rw [haddress]
      exact List.prefix_append _ _
    · cases List.mem_singleton.1 hlast
      exact hstop.symm ▸ List.prefix_refl address

/-- A node with nothing inside it. -/
theorem IsAt.single {stop : Stop n} (hstop : stop.address = address) : IsAt address [stop] :=
  have hnothing : IsInside address 0 ([] : List (Stop n)) := .nil
  hnothing.close hstop

variable {path : List (OpenObject n)} {shared : SharedStops n}

mutual

/-- The nodes of a schema are in order and stand at its address. -/
theorem isAt_stops (hshared : ∀ trail address scope index,
      IsInside address 0 (shared trail address scope index))
    (trail : List String) (address : List Nat) (place : Place) (isMapPart : Bool) :
    ∀ schema : Schema n, IsAt address (stops path shared trail address place isMapPart schema)
  | .optional inner => (isAt_stops hshared trail _ _ false inner).inside.close rfl
  | .nullable inner => (isAt_stops hshared trail _ _ false inner).inside.close rfl
  | .array element => (isAt_stops hshared trail _ _ false element).inside.close rfl
  | .set element => (isAt_stops hshared trail _ _ false element).inside.close rfl
  | .map key value =>
    ((isAt_stops hshared trail _ _ true key).append
      (isAt_stops hshared trail _ _ true value).inside).close rfl
  | .object members => (isInside_memberStops hshared _ address place.inner 0 members).close rfl
  | .shared index => (hshared trail address place.inner index).close rfl
  | .tuple elements => (isInside_elementStops hshared trail address place 0 elements).close rfl
  | .enumeration _ => .single rfl
  | .string => .single rfl
  | .date => .single rfl
  | .boolean => .single rfl
  | .bigInt => .single rfl
  | .number _ => .single rfl
  | .unknown _ => .single rfl
  | .foreign _ => .single rfl
termination_by structural schema => schema

theorem isInside_memberStops (hshared : ∀ trail address scope index,
      IsInside address 0 (shared trail address scope index))
    (trail : List String) (address : List Nat) (scope : List String) :
    ∀ (position : Nat) (members : List (String × Schema n)),
      IsInside address position (memberStops path shared trail address scope position members)
  | _, [] => .nil
  | position, (_, schema) :: rest =>
    (isAt_stops hshared trail _ _ false schema).append
      (isInside_memberStops hshared trail address scope (position + 1) rest)
termination_by structural _ members => members

theorem isInside_elementStops (hshared : ∀ trail address scope index,
      IsInside address 0 (shared trail address scope index))
    (trail : List String) (address : List Nat) (place : Place) :
    ∀ (position : Nat) (elements : List (Schema n)),
      IsInside address position (elementStops path shared trail address place position elements)
  | _, [] => .nil
  | position, element :: rest =>
    (isAt_stops hshared trail _ _ false element).append
      (isInside_elementStops hshared trail address place (position + 1) rest)
termination_by structural _ elements => elements

end

variable (objects : Objects n)

/-- The nodes inside a shared object are in order and stand inside its address. -/
theorem isInside_sharedStops (path : List (OpenObject n)) (address : List Nat)
    (scope : List String) (index : Fin n) :
    IsInside address 0 (sharedStops objects path address scope index) := by
  induction path, address, scope, index using sharedStops.induct with
  | case1 path address scope index hopen =>
    rw [sharedStops, dif_pos hopen]
    exact .nil
  | case2 path address scope index hclosed here ih =>
    rw [sharedStops, dif_neg hclosed]
    exact isInside_memberStops ih [] address scope 0 (objects index)

/-- A compilation of a schema is done with its nodes in their order. -/
theorem isOrdered_fieldStops (path : List (OpenObject n)) (place : Place) (schema : Schema n) :
    IsOrdered (fieldStops objects path place schema) :=
  (isAt_stops (fun _ address scope index => isInside_sharedStops objects _ address scope index)
    [] [] place false schema).ordered

/-- A compilation of an object is done with the nodes inside it in their order. -/
theorem isOrdered_objectStops (path : List (OpenObject n)) (scope : List String)
    (schema : Schema n) : IsOrdered (objectStops objects path scope schema) := by
  cases schema with
  | object members =>
    exact (isInside_memberStops
      (fun _ address scope index => isInside_sharedStops objects _ address scope index)
      [OpenObject.labelOf scope] [] scope 0 members).ordered
  | shared index => exact (isInside_sharedStops objects path [] scope index).ordered
  | _ => exact .nil

end Order

end ProtoSchema.Compile
