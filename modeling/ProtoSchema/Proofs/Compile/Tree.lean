import ProtoSchema.Proofs.Compile.Expansion

/-!
# Compiling a tree

A tree has no shared objects, so that every step of its compilation checks a position or defines an
occurrence. The compilation is refused at the first position that offends, and if there is none, it
reports the occurrences of the tree in their order and yields the outline of the tree.
-/

namespace ProtoSchema.Compile

open Schema (Position firstOffence)
open Outline (Occurrence)

/-- How a compilation ends that is refused for a kind, or that is not refused. -/
def verdict : Option String → Except SchemaError Unit
  | none => .ok ()
  | some kind => .error (.unsupported kind)

/-- A compilation that is not refused succeeds. -/
theorem verdict_eq_ok_iff {kind? : Option String} : verdict kind? = .ok () ↔ kind? = none := by
  cases kind? <;> simp [verdict]

/-- A compilation that is refused for a kind fails with that kind. -/
theorem verdict_eq_error_iff {kind? : Option String} {cause : SchemaError} :
    verdict kind? = .error cause ↔ ∃ kind, kind? = some kind ∧ cause = .unsupported kind := by
  cases kind? with
  | none => simp [verdict]
  | some kind => simp [verdict, eq_comm]

/-- What a list of occurrences reports, one occurrence after the other. -/
def reports (namer : Namer) {n : Nat} (occurrences : List (Occurrence n)) : List Event :=
  occurrences.flatMap (·.events namer)

section Steps

variable (shared : SharedCompiler 0) (namer : Namer)

/-- The steps in a tree are refused for the first position that offends. -/
theorem outcome_runSteps (list : List (Step 0)) :
    (runSteps shared namer list).outcome =
      verdict (firstOffence (list.filterMap Step.position?)) := by
  induction list with
  | nil => rfl
  | cons step rest ih =>
    rw [runSteps]
    cases step with
    | check position =>
      have hpositions : (Step.check position :: rest).filterMap Step.position? =
          [position] ++ rest.filterMap Step.position? := rfl
      rw [hpositions, Schema.firstOffence_append]
      by_cases hoffends : position.offends = true
      · have hfirst : firstOffence [position] = some position.schema.kind := by
          simp [firstOffence, hoffends]
        simp only [Step.run, hoffends, if_true, Compilation.fail_bind, hfirst, Option.some_or]
        rfl
      · have hclear : position.offends = false := Bool.eq_false_iff.2 hoffends
        have hfirst : firstOffence [position] = none := by
          simp [firstOffence, hclear]
        rw [run_check hclear, pure_bind, ih, hfirst, Option.none_or]
    | define occurrence =>
      have hdefined : (Step.run shared namer (.define occurrence)).outcome = .ok () := rfl
      rw [Compilation.bind_of_ok hdefined]
      exact ih
    | enter trail place index => exact index.elim0

/-- The steps in a tree where no position offends report the occurrences that they define. -/
theorem events_runSteps {list : List (Step 0)}
    (h : firstOffence (list.filterMap Step.position?) = none) :
    (runSteps shared namer list).events = reports namer (list.filterMap Step.occurrence?) := by
  have hclear := Schema.firstOffence_eq_none_iff.1 h
  induction list with
  | nil => rfl
  | cons step rest ih =>
    rw [runSteps]
    cases step with
    | check position =>
      have hposition := hclear position List.mem_cons_self
      have hrest : ∀ other ∈ rest.filterMap Step.position?, other.offends = false :=
        fun other hother => hclear other (List.mem_cons_of_mem _ hother)
      rw [run_check hposition, pure_bind]
      exact ih (Schema.firstOffence_eq_none_iff.2 hrest) hrest
    | define occurrence =>
      have hdefined : (Step.run shared namer (.define occurrence)).outcome = .ok () := rfl
      rw [Compilation.bind_of_ok hdefined]
      exact congrArg (occurrence.events namer ++ ·) (ih h hclear)
    | enter trail place index => exact index.elim0

end Steps

section Tree

variable (shared : SharedCompiler 0) (namer : Namer)

/-- A tree at a place is refused for the first offending position in it, itself included. -/
theorem outcome_field (trail : List String) (place : Place) (tree : Schema 0) :
    (field shared namer trail place tree).outcome =
      (verdict (firstOffence (tree.positions ++ [⟨tree, false⟩]))).map fun _ =>
        [Outline.descriptor namer place tree] := by
  have hsteps := (comprises_steps trail place tree).append_check ⟨tree, false⟩
  rw [field_eq, Compilation.outcome_then_pure, outcome_runSteps, hsteps.checked]

/-- A tree at a place where no position offends reports the occurrences in it. -/
theorem events_field (trail : List String) (place : Place) {tree : Schema 0}
    (h : firstOffence (tree.positions ++ [⟨tree, false⟩]) = none) :
    (field shared namer trail place tree).events =
      reports namer (Outline.occurrences place tree) := by
  have hsteps := (comprises_steps trail place tree).append_check ⟨tree, false⟩
  have hclear : firstOffence
      ((steps trail place tree ++ [Step.check ⟨tree, false⟩]).filterMap Step.position?) =
        none := by
    rw [hsteps.checked, h]
  rw [field_eq, Compilation.events_then_pure, events_runSteps shared namer hclear, hsteps.defined]

/-- The fields of an object are refused for the first offending position in them. -/
theorem outcome_objectFields (trail : List String) (scope : List String)
    (members : List (String × Schema 0)) :
    (objectFields shared namer trail scope members).outcome =
      (verdict (firstOffence (Schema.fieldPositions members))).map fun _ =>
        Outline.objectFields namer scope members := by
  have hsteps := comprises_memberSteps trail scope members
  rw [objectFields_eq, Compilation.outcome_then_pure, outcome_runSteps, hsteps.checked]

/-- The fields of an object where no position offends report the occurrences in them. -/
theorem events_objectFields (trail : List String) (scope : List String)
    {members : List (String × Schema 0)}
    (h : firstOffence (Schema.fieldPositions members) = none) :
    (objectFields shared namer trail scope members).events =
      reports namer (Outline.memberOccurrences scope members) := by
  have hsteps := comprises_memberSteps trail scope members
  have hclear : firstOffence ((memberSteps trail scope members).filterMap Step.position?) =
      none := by
    rw [hsteps.checked, h]
  rw [objectFields_eq, Compilation.events_then_pure, events_runSteps shared namer hclear,
    hsteps.defined]

end Tree

section Object

variable {namer : Namer} {path : List (OpenObject 0)} {scope : List String}

/-- Compiling an object where no position offends reports the occurrences in it and then the object,
and yields its fields in a row. -/
theorem compileObject_accepted {members : List (String × Schema 0)}
    (h : firstOffence (Schema.fieldPositions members) = none) :
    compileObject Schema.noObjects namer path scope (.object members) =
      ⟨reports namer (Outline.memberOccurrences scope members) ++
          [.objectCompiled (OpenObject.labelOf scope) members.length],
        .ok (NumberedField.consecutive 1 (Outline.objectFields namer scope members))⟩ := by
  let shared : SharedCompiler 0 := fun trail inside i =>
    sharedObject Schema.noObjects namer (path ++ trail.map OpenObject.unshared) inside i
  have houtcome := outcome_objectFields shared namer [OpenObject.labelOf scope] scope members
  have hevents := events_objectFields shared namer [OpenObject.labelOf scope] scope h
  have hlength : (Outline.objectFields namer scope members).length = members.length := by
    simp [Outline.objectFields]
  rw [h] at houtcome
  have hbind := Compilation.bind_of_ok houtcome (finishObject scope)
  rw [hevents] at hbind
  rw [compileObject, hbind, finishObject, hlength]
  rfl

/-- Compiling an object where some position offends is refused for the first that does. -/
theorem compileObject_refused {members : List (String × Schema 0)} {kind : String}
    (h : firstOffence (Schema.fieldPositions members) = some kind) :
    (compileObject Schema.noObjects namer path scope (.object members)).outcome =
      .error (.unsupported kind) := by
  let shared : SharedCompiler 0 := fun trail inside i =>
    sharedObject Schema.noObjects namer (path ++ trail.map OpenObject.unshared) inside i
  have houtcome := outcome_objectFields shared namer [OpenObject.labelOf scope] scope members
  rw [h] at houtcome
  rw [compileObject, Compilation.bind_of_error houtcome]

/-- Compiling anything but an object is refused for its kind. -/
theorem compileObject_of_not_isObject {n : Nat} {objects : Objects n}
    {path : List (OpenObject n)} {schema : Schema n} (h : schema.isObject = false) :
    compileObject objects namer path scope schema =
      Compilation.fail (.unsupported schema.kind) := by
  cases schema with
  | object members => cases h
  | shared index => cases h
  | _ => rfl

/-- A tree that compiles for its fields is an object where no position offends. -/
theorem exists_members_of_ok {tree : Schema 0} {fields : List NumberedField}
    (h : (compileObject Schema.noObjects namer path scope tree).outcome = .ok fields) :
    ∃ members, tree = .object members ∧
      firstOffence (Schema.fieldPositions members) = none := by
  cases hobject : tree.isObject with
  | false =>
    rw [compileObject_of_not_isObject hobject] at h
    cases h
  | true =>
    cases tree with
    | object members =>
      refine ⟨members, rfl, ?_⟩
      cases hoffence : firstOffence (Schema.fieldPositions members) with
      | none => rfl
      | some kind =>
        rw [compileObject_refused hoffence] at h
        cases h
    | shared index => exact index.elim0
    | _ => cases hobject

end Object

end ProtoSchema.Compile
