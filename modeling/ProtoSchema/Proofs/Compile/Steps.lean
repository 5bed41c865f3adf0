import ProtoSchema.Proofs.Compilation
import ProtoSchema.Proofs.Outline
import ProtoSchema.Proofs.Schema.Unfolding

/-!
# The steps of a compilation

Compiling a schema takes one step after another, and the steps can be read off the schema: each
position is checked after everything inside it is done, each occurrence of an enum, an object or a
tuple is defined after everything inside it, and each reference enters a shared object. Main
statement: a compilation runs through the steps of its schema, stops at the first step that fails,
and yields the descriptor of the schema if none does.
-/

namespace ProtoSchema.Compile

open Compilation (emit fail)
open Outline (Occurrence elementPlace)
open Schema (Position)

variable {n : Nat}

/-- A step of a compilation. -/
inductive Step (n : Nat) where
  /-- See whether a position offends. -/
  | check (position : Position n)
  /-- Define the type of an occurrence. -/
  | define (occurrence : Occurrence n)
  /-- Compile a shared object below a trail of unshared ones, and define its message for a place. -/
  | enter (trail : List String) (place : Place) (index : Fin n)

mutual

/-- The steps inside a schema at a place, below a trail of unshared objects. -/
def steps (trail : List String) (place : Place) : Schema n → List (Step n)
  | .optional inner =>
    steps trail { place with isOptional := true } inner ++ [.check ⟨inner, false⟩]
  | .nullable inner =>
    steps trail { place with isOptional := true } inner ++ [.check ⟨inner, false⟩]
  | .array element =>
    steps trail ⟨Singular.singular place.key, place.scope, false, true⟩ element ++
      [.check ⟨element, false⟩]
  | .set element =>
    steps trail ⟨Singular.singular place.key, place.scope, false, true⟩ element ++
      [.check ⟨element, false⟩]
  | .map key value =>
    steps trail ⟨place.key ++ "Key", place.scope, false, false⟩ key ++ [.check ⟨key, true⟩] ++
      (steps trail ⟨place.key ++ "Value", place.scope, false, false⟩ value ++
        [.check ⟨value, true⟩])
  | .object members =>
    memberSteps (trail ++ [OpenObject.labelOf place.inner]) place.inner members ++
      [.define (.object place members)]
  | .shared index => [.enter trail place index]
  | .tuple elements => elementSteps trail place 0 elements ++ [.define (.tuple place elements)]
  | .enumeration options => [.define (.enumeration place options)]
  | _ => []
termination_by structural schema => schema

/-- The steps in the fields of an object that is entered under a scope. -/
def memberSteps (trail : List String) (scope : List String) :
    List (String × Schema n) → List (Step n)
  | [] => []
  | (key, schema) :: rest =>
    steps trail ⟨key, scope, false, false⟩ schema ++ [.check ⟨schema, false⟩] ++
      memberSteps trail scope rest
termination_by structural members => members

/-- The steps in the elements of a tuple from a position on. -/
def elementSteps (trail : List String) (place : Place) (position : Nat) :
    List (Schema n) → List (Step n)
  | [] => []
  | element :: rest =>
    steps trail (elementPlace place position) element ++ [.check ⟨element, false⟩] ++
      elementSteps trail place (position + 1) rest
termination_by structural elements => elements

end

/-- Take one step, given the compiler of shared objects. -/
def Step.run (shared : SharedCompiler n) (namer : Namer) : Step n → Compilation Unit
  | .check position =>
    if position.offends = true then fail (.unsupported position.schema.kind) else pure ()
  | .define occurrence => ⟨occurrence.events namer, .ok ()⟩
  | .enter trail place index => do
    let fields ← shared trail place.inner index
    emit (.message (namer.nameFor place.key place.scope) fields)

/-- Take one step after another. -/
def runSteps (shared : SharedCompiler n) (namer : Namer) : List (Step n) → Compilation Unit
  | [] => pure ()
  | step :: rest => do
    step.run shared namer
    runSteps shared namer rest

section Run

variable {shared : SharedCompiler n} {namer : Namer}

@[simp]
theorem runSteps_nil : runSteps shared namer [] = pure () := rfl

@[simp]
theorem runSteps_singleton (step : Step n) :
    runSteps shared namer [step] = step.run shared namer := by
  simp [runSteps]

/-- Taking the steps of two lists is taking those of the first and then those of the second. -/
@[simp]
theorem runSteps_append (before after : List (Step n)) :
    runSteps shared namer (before ++ after) =
      runSteps shared namer before >>= fun _ => runSteps shared namer after := by
  induction before with
  | nil => simp
  | cons step rest ih => simp [runSteps, ih]

/-- Nothing happens at a position that does not offend. -/
theorem run_check {position : Position n} (h : position.offends = false) :
    (Step.check position).run shared namer = pure () := by
  simp [Step.run, h]

end Run

/-- A single field of the outline is a type exactly if its schema is fit to be a part of a map. -/
theorem partType_descriptor (namer : Namer) (key : String) (scope : List String)
    (part : Schema n) :
    partType part [Outline.descriptor namer ⟨key, scope, false, false⟩ part] =
      if part.isUnfitPart = true then fail (.unsupported part.kind)
      else pure (Outline.fieldType namer scope key part) := by
  have hmodifiers := Outline.modifiers_eq_nil_iff part
  cases hunfit : part.isUnfitPart with
  | false =>
    have hnil := hmodifiers.2 hunfit
    simp [Outline.descriptor, hnil, partType]
  | true =>
    have hcons : Outline.modifiers false false part ≠ [] := by
      intro hnil
      have hfit := hmodifiers.1 hnil
      simp [hunfit] at hfit
    obtain ⟨first, rest, hlist⟩ := List.exists_cons_of_ne_nil hcons
    simp [Outline.descriptor, hlist, partType]

/-- Looking at the type of a part of a map is checking its position as one of a part of a map. -/
theorem run_check_part (shared : SharedCompiler n) (namer : Namer) (key : String)
    (scope : List String) (part : Schema n) :
    ((Step.check ⟨part, false⟩).run shared namer >>= fun _ =>
        partType part [Outline.descriptor namer ⟨key, scope, false, false⟩ part]) =
      (Step.check ⟨part, true⟩).run shared namer >>= fun _ =>
        pure (Outline.fieldType namer scope key part) := by
  rw [partType_descriptor]
  cases hunmapped : part.isUnmapped <;> cases hunfit : part.isUnfitPart <;>
    simp [Step.run, Position.offends, hunmapped, hunfit]

/-- Numbering the fields of an object and defining its message is the step that defines it. -/
theorem define_object (shared : SharedCompiler n) (namer : Namer) (place : Place)
    (members : List (String × Schema n)) :
    (finishObject place.inner (Outline.objectFields namer place.inner members) >>=
        hoistMessage namer place) =
      (Step.define (.object place members)).run shared namer >>= fun _ =>
        pure (reference namer place) := by
  have hlength : (Outline.objectFields namer place.inner members).length = members.length := by
    simp [Outline.objectFields]
  rw [finishObject, hlength]
  rfl

section Field

variable (shared : SharedCompiler n) (namer : Namer)

/-- The check of a schema that has a mapping does nothing where the schema is no part of a map. -/
theorem runSteps_check {schema : Schema n} (h : schema.isUnmapped = false)
    (before : List (Step n)) :
    runSteps shared namer (before ++ [.check ⟨schema, false⟩]) = runSteps shared namer before := by
  have hclear : Position.offends ⟨schema, false⟩ = false := by simp [Position.offends, h]
  rw [runSteps_append, runSteps_singleton, run_check hclear]
  simp

/-- A scalar takes no step but the check of its own schema. -/
theorem pure_scalar (place : Place) {schema : Schema n} {type : Scalar}
    (h : schema.scalar? = some type) (hmapped : schema.isUnmapped = false) :
    (pure [⟨.scalar type, place.key, place.modifiers⟩] : Compilation (List FieldDescriptor)) =
      runSteps shared namer ([] ++ [.check ⟨schema, false⟩]) >>= fun _ =>
        pure [Outline.descriptor namer place schema] := by
  rw [runSteps_check shared namer hmapped, Outline.descriptor_scalar namer place h]
  rfl

/-- Compiling a part of a map runs through the same steps as compiling a field, but for the check of
the part, and yields a type. -/
theorem part_eq {trail : List String} {key : String} {scope : List String} {part : Schema n}
    (h : field shared namer trail ⟨key, scope, false, false⟩ part =
      runSteps shared namer
          (steps trail ⟨key, scope, false, false⟩ part ++ [.check ⟨part, false⟩]) >>= fun _ =>
        pure [Outline.descriptor namer ⟨key, scope, false, false⟩ part]) :
    (field shared namer trail ⟨key, scope, false, false⟩ part >>= partType part) =
      runSteps shared namer
          (steps trail ⟨key, scope, false, false⟩ part ++ [.check ⟨part, true⟩]) >>= fun _ =>
        pure (Outline.fieldType namer scope key part) := by
  rw [h]
  simp only [runSteps_append, runSteps_singleton, bind_assoc, pure_bind]
  rw [run_check_part]

mutual

/-- Compiling a schema runs through its steps, the check of the schema itself included, and then
yields the descriptor of the schema. -/
theorem field_eq (trail : List String) (place : Place) : ∀ schema : Schema n,
    field shared namer trail place schema =
      runSteps shared namer (steps trail place schema ++ [.check ⟨schema, false⟩]) >>= fun _ =>
        pure [Outline.descriptor namer place schema]
  | .optional inner => by
    rw [runSteps_check shared namer rfl, Outline.descriptor_optional]
    exact field_eq trail { place with isOptional := true } inner
  | .nullable inner => by
    rw [runSteps_check shared namer rfl, Outline.descriptor_nullable]
    exact field_eq trail { place with isOptional := true } inner
  | .array element => by
    rw [runSteps_check shared namer rfl, Outline.descriptor_array, field, field_eq, bind_assoc]
    simp only [pure_bind, List.map_cons, List.map_nil]
    rfl
  | .set element => by
    rw [runSteps_check shared namer rfl, Outline.descriptor_set, field, field_eq, bind_assoc]
    simp only [pure_bind, List.map_cons, List.map_nil]
    rfl
  | .map key value => by
    have hkey := part_eq shared namer
      (field_eq trail ⟨place.key ++ "Key", place.scope, false, false⟩ key)
    have hvalue := part_eq shared namer
      (field_eq trail ⟨place.key ++ "Value", place.scope, false, false⟩ value)
    have hfield : field shared namer trail place (.map key value) =
        (field shared namer trail ⟨place.key ++ "Key", place.scope, false, false⟩ key >>=
            partType key) >>= fun keyType =>
          (field shared namer trail ⟨place.key ++ "Value", place.scope, false, false⟩ value >>=
              partType value) >>= fun valueType =>
            pure [⟨.map keyType valueType, place.key, []⟩] := by
      rw [field]
      simp only [bind_assoc]
    rw [runSteps_check shared namer rfl, hfield, hkey, hvalue, steps]
    simp only [runSteps_append, bind_assoc, pure_bind]
    rfl
  | .object members => by
    rw [runSteps_check shared namer rfl, field, steps, objectFields_eq, runSteps_append]
    simp only [runSteps_singleton, bind_assoc, pure_bind]
    rw [define_object shared, Outline.descriptor_hoisted namer place rfl]
  | .shared index => by
    rw [runSteps_check shared namer rfl, field, steps]
    simp only [runSteps_singleton, Step.run, hoistMessage, bind_assoc]
    rw [Outline.descriptor_hoisted namer place rfl]
  | .tuple elements => by
    rw [runSteps_check shared namer rfl, field, steps, tupleFields_eq, runSteps_append]
    simp only [runSteps_singleton, bind_assoc, pure_bind]
    rw [Outline.descriptor_hoisted namer place rfl]
    rfl
  | .enumeration options => by
    rw [runSteps_check shared namer rfl, steps, runSteps_singleton,
      Outline.descriptor_hoisted namer place rfl]
    rfl
  | .string => pure_scalar shared namer place rfl rfl
  | .date => pure_scalar shared namer place rfl rfl
  | .boolean => pure_scalar shared namer place rfl rfl
  | .bigInt => pure_scalar shared namer place rfl rfl
  | .number integral => by
    rw [field]
    cases integral <;> exact pure_scalar shared namer place rfl rfl
  | .unknown kind => rfl
  | .foreign value => rfl
termination_by structural schema => schema

/-- Compiling the fields of an object runs through their steps. -/
theorem objectFields_eq (trail : List String) (scope : List String) :
    ∀ members : List (String × Schema n),
      objectFields shared namer trail scope members =
        runSteps shared namer (memberSteps trail scope members) >>= fun _ =>
          pure (Outline.objectFields namer scope members)
  | [] => rfl
  | (key, schema) :: rest => by
    rw [objectFields, field_eq trail ⟨key, scope, false, false⟩ schema, objectFields_eq,
      memberSteps]
    simp only [runSteps_append, bind_assoc, pure_bind]
    rfl
termination_by structural members => members

/-- Compiling the elements of a tuple runs through their steps and numbers them in a row. -/
theorem tupleFields_eq (trail : List String) (place : Place) :
    ∀ (position : Nat) (elements : List (Schema n)),
      tupleFields shared namer trail place position elements =
        runSteps shared namer (elementSteps trail place position elements) >>= fun _ =>
          pure (NumberedField.consecutive (position + 1)
            (Outline.tupleFields namer place position elements))
  | _, [] => rfl
  | position, element :: rest => by
    rw [tupleFields, ← elementPlace, field_eq, tupleFields_eq, elementSteps]
    simp only [runSteps_append, bind_assoc, pure_bind]
    rfl
termination_by structural _ elements => elements

end

end Field

/-- The position that a step checks. -/
def Step.position? : Step n → Option (Position n)
  | .check position => some position
  | _ => none

/-- The occurrence that a step defines. -/
def Step.occurrence? : Step n → Option (Occurrence n)
  | .define occurrence => some occurrence
  | _ => none

/-- The shared object that a step enters. -/
def Step.index? : Step n → Option (Fin n)
  | .enter _ _ index => some index
  | _ => none

/-- What the steps of a list check, define and enter, each in the order of the steps. -/
structure Comprises (list : List (Step n)) (positions : List (Position n))
    (occurrences : List (Occurrence n)) (references : List (Fin n)) : Prop where
  /-- The positions that are checked. -/
  checked : list.filterMap Step.position? = positions
  /-- The occurrences that are defined. -/
  defined : list.filterMap Step.occurrence? = occurrences
  /-- The shared objects that are entered. -/
  entered : list.filterMap Step.index? = references

namespace Comprises

variable {list more : List (Step n)} {positions morePositions : List (Position n)}
  {occurrences moreOccurrences : List (Occurrence n)} {references moreReferences : List (Fin n)}

/-- Two lists of steps comprise what each of them does. -/
theorem append (h : Comprises list positions occurrences references)
    (hmore : Comprises more morePositions moreOccurrences moreReferences) :
    Comprises (list ++ more) (positions ++ morePositions) (occurrences ++ moreOccurrences)
      (references ++ moreReferences) where
  checked := by rw [List.filterMap_append, h.checked, hmore.checked]
  defined := by rw [List.filterMap_append, h.defined, hmore.defined]
  entered := by rw [List.filterMap_append, h.entered, hmore.entered]

/-- One more check is one more position. -/
theorem append_check (h : Comprises list positions occurrences references)
    (position : Position n) :
    Comprises (list ++ [.check position]) (positions ++ [position]) occurrences references where
  checked := by rw [List.filterMap_append, h.checked]; rfl
  defined := by rw [List.filterMap_append, h.defined]; exact List.append_nil _
  entered := by rw [List.filterMap_append, h.entered]; exact List.append_nil _

/-- One more definition is one more occurrence. -/
theorem append_define (h : Comprises list positions occurrences references)
    (occurrence : Occurrence n) :
    Comprises (list ++ [.define occurrence]) positions (occurrences ++ [occurrence])
      references where
  checked := by rw [List.filterMap_append, h.checked]; exact List.append_nil _
  defined := by rw [List.filterMap_append, h.defined]; rfl
  entered := by rw [List.filterMap_append, h.entered]; exact List.append_nil _

end Comprises

mutual

/-- The steps inside a schema check its positions, define its occurrences and enter the shared
objects that it refers to. -/
theorem comprises_steps (trail : List String) (place : Place) : ∀ schema : Schema n,
    Comprises (steps trail place schema) schema.positions (Outline.occurrences place schema)
      schema.references
  | .optional inner => (comprises_steps trail _ inner).append_check _
  | .nullable inner => (comprises_steps trail _ inner).append_check _
  | .array element => (comprises_steps trail _ element).append_check _
  | .set element => (comprises_steps trail _ element).append_check _
  | .map key value =>
    ((comprises_steps trail _ key).append_check _).append
      ((comprises_steps trail _ value).append_check _)
  | .object members => (comprises_memberSteps _ _ members).append_define _
  | .tuple elements => (comprises_elementSteps trail place 0 elements).append_define _
  | .shared _ => ⟨rfl, rfl, rfl⟩
  | .enumeration _ => ⟨rfl, rfl, rfl⟩
  | .string => ⟨rfl, rfl, rfl⟩
  | .date => ⟨rfl, rfl, rfl⟩
  | .boolean => ⟨rfl, rfl, rfl⟩
  | .bigInt => ⟨rfl, rfl, rfl⟩
  | .number _ => ⟨rfl, rfl, rfl⟩
  | .unknown _ => ⟨rfl, rfl, rfl⟩
  | .foreign _ => ⟨rfl, rfl, rfl⟩
termination_by structural schema => schema

theorem comprises_memberSteps (trail : List String) (scope : List String) :
    ∀ members : List (String × Schema n),
      Comprises (memberSteps trail scope members) (Schema.fieldPositions members)
        (Outline.memberOccurrences scope members) (Schema.fieldReferences members)
  | [] => ⟨rfl, rfl, rfl⟩
  | (_, schema) :: rest =>
    ((comprises_steps trail _ schema).append_check _).append
      (comprises_memberSteps trail scope rest)
termination_by structural members => members

theorem comprises_elementSteps (trail : List String) (place : Place) :
    ∀ (position : Nat) (elements : List (Schema n)),
      Comprises (elementSteps trail place position elements) (Schema.elementPositions elements)
        (Outline.elementOccurrences place position elements) (Schema.elementReferences elements)
  | _, [] => ⟨rfl, rfl, rfl⟩
  | position, element :: rest =>
    ((comprises_steps trail _ element).append_check _).append
      (comprises_elementSteps trail place (position + 1) rest)
termination_by structural _ elements => elements

end

section Outcome

variable {shared : SharedCompiler n} {namer : Namer}

/-- The steps succeed together exactly if each of them does. -/
theorem runSteps_eq_ok_iff {list : List (Step n)} :
    (runSteps shared namer list).outcome = .ok () ↔
      ∀ step ∈ list, (step.run shared namer).outcome = .ok () := by
  induction list with
  | nil => simp
  | cons step rest ih =>
    rw [runSteps, Compilation.outcome_then_eq_ok_iff, List.forall_mem_cons, ih]

/-- Where the steps fail together, one of them fails for the same cause. -/
theorem exists_of_runSteps_eq_error {list : List (Step n)} {cause : SchemaError}
    (h : (runSteps shared namer list).outcome = .error cause) :
    ∃ step ∈ list, (step.run shared namer).outcome = .error cause := by
  induction list with
  | nil => cases h
  | cons step rest ih =>
    rw [runSteps, Compilation.outcome_bind_eq_error_iff] at h
    rcases h with hfirst | ⟨_, _, hrest⟩
    · exact ⟨step, List.mem_cons_self, hfirst⟩
    · obtain ⟨other, hmem, herror⟩ := ih hrest
      exact ⟨other, List.mem_cons_of_mem _ hmem, herror⟩

end Outcome

end ProtoSchema.Compile
