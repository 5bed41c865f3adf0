import ProtoSchema.Proofs.Compile.Stops
import ProtoSchema.Proofs.Correspondence
import ProtoSchema.Proofs.Definitions
import ProtoSchema.Session

/-!
# What a compilation owes to its namer

The nodes that a compilation goes through, and whether it fails at one of them, do not depend on the
namer; what occurs at a node is defined under the names that the namer gives. Main statement: two
compilations of one object with different namers correspond, by the names that the namers give to
one key in one scope, whatever is defined before.
-/

namespace ProtoSchema

variable {n : Nat} {allowed : String → String → Prop} {namer other : Namer}

namespace Outline

/-- The types of a field correspond. -/
theorem corresponds_fieldType
    (hnames : ∀ key scope, allowed (namer.nameFor key scope) (other.nameFor key scope))
    (scope : List String) (key : String) : ∀ schema : Schema n,
      FieldType.Corresponds allowed (fieldType namer scope key schema)
        (fieldType other scope key schema)
  | .optional inner => corresponds_fieldType hnames scope key inner
  | .nullable inner => corresponds_fieldType hnames scope key inner
  | .array element => corresponds_fieldType hnames scope (Singular.singular key) element
  | .set element => corresponds_fieldType hnames scope (Singular.singular key) element
  | .map keys values =>
    .map (corresponds_fieldType hnames scope (key ++ "Key") keys)
      (corresponds_fieldType hnames scope (key ++ "Value") values)
  | .object _ => .defined (hnames key scope)
  | .shared _ => .defined (hnames key scope)
  | .tuple _ => .defined (hnames key scope)
  | .enumeration _ => .defined (hnames key scope)
  | .unknown _ => .defined (hnames key scope)
  | .foreign _ => .defined (hnames key scope)
  | .string => .scalar .string
  | .date => .scalar .string
  | .boolean => .scalar .bool
  | .bigInt => .scalar .int64
  | .number true => .scalar .int32
  | .number false => .scalar .double

variable (hnames : ∀ key scope, allowed (namer.nameFor key scope) (other.nameFor key scope))

include hnames

/-- The fields that a schema becomes correspond. -/
theorem corresponds_descriptor (place : Place) (schema : Schema n) :
    FieldDescriptor.Corresponds allowed (descriptor namer place schema)
      (descriptor other place schema) :=
  ⟨corresponds_fieldType hnames place.scope place.key schema, rfl, rfl⟩

/-- The fields of an object correspond. -/
theorem corresponds_objectFields (scope : List String) (members : List (String × Schema n)) :
    List.Forall₂ (FieldDescriptor.Corresponds allowed) (objectFields namer scope members)
      (objectFields other scope members) := by
  rw [objectFields, objectFields, List.forall₂_map_left_iff, List.forall₂_map_right_iff,
    List.forall₂_same]
  exact fun member _ => corresponds_descriptor hnames _ member.2

/-- The fields of a tuple correspond. -/
theorem corresponds_tupleFields (place : Place) (position : Nat) (elements : List (Schema n)) :
    List.Forall₂ (FieldDescriptor.Corresponds allowed) (tupleFields namer place position elements)
      (tupleFields other place position elements) := by
  induction elements generalizing position with
  | nil => exact .nil
  | cons element rest ih => exact .cons (corresponds_descriptor hnames _ element) (ih (position + 1))

/-- What is reported of an occurrence corresponds. -/
theorem Occurrence.corresponds_events (occurrence : Occurrence n) :
    List.Forall₂ (Event.Corresponds allowed) (occurrence.events namer) (occurrence.events other) := by
  cases occurrence with
  | object place members =>
    have hfields := corresponds_objectFields hnames place.inner members
    exact .cons (.objectCompiled _ _)
      (.cons (.message (hnames _ _) (NumberedField.corresponds_consecutive hfields 1)) .nil)
  | tuple place elements =>
    have hfields := corresponds_tupleFields hnames place 0 elements
    exact .cons (.message (hnames _ _) (NumberedField.corresponds_consecutive hfields 1)) .nil
  | enumeration place options => exact .cons (.enumeration (hnames _ _) _) .nil

end Outline

namespace Compile

variable (hnames : ∀ key scope, allowed (namer.nameFor key scope) (other.nameFor key scope))

include hnames

/-- What is done at a node corresponds. -/
theorem corresponds_run (objects : Objects n) (stop : Stop n) :
    Compilation.Corresponds allowed Eq (stop.run objects namer) (stop.run objects other) := by
  rw [Stop.run, Stop.run]
  cases stop.failure? with
  | some cause => exact Compilation.corresponds_fail cause
  | none =>
    refine ⟨?_, .ok rfl⟩
    cases stop.occurrence? objects with
    | none => exact .nil
    | some occurrence =>
      simpa [reports] using Outline.Occurrence.corresponds_events hnames occurrence

/-- What is done along a list of nodes corresponds. -/
theorem corresponds_runStops (objects : Objects n) (list : List (Stop n)) :
    Compilation.Corresponds allowed Eq (runStops objects namer list)
      (runStops objects other list) := by
  induction list with
  | nil => exact Compilation.corresponds_pure rfl
  | cons stop rest ih =>
    rw [← List.singleton_append, runStops_append, runStops_append, runStops_singleton,
      runStops_singleton]
    exact (corresponds_run hnames objects stop).bind fun _ _ _ => ih

/-- Two compilations of an object correspond where the names do that their namers give. -/
theorem corresponds_compileObject (objects : Objects n) (path : List (OpenObject n))
    (scope : List String) (schema : Schema n) :
    Compilation.Corresponds allowed (List.Forall₂ (NumberedField.Corresponds allowed))
      (compileObject objects namer path scope schema)
      (compileObject objects other path scope schema) := by
  cases hentry : entryFailure? path scope schema with
  | some cause =>
    rw [compileObject_of_entryFailure hentry, compileObject_of_entryFailure hentry]
    exact Compilation.corresponds_fail cause
  | none =>
    obtain ⟨root, hroot, hfirst⟩ := compileObject_eq_runStops objects namer hentry
    obtain ⟨same, hsame, hsecond⟩ := compileObject_eq_runStops objects other hentry
    rw [hroot] at hsame
    cases hsame
    have hfields := Outline.corresponds_objectFields hnames scope root.fields
    rw [hfirst, hsecond]
    refine (corresponds_runStops hnames objects _).bind fun _ _ _ => ?_
    refine ⟨?_, .ok (NumberedField.corresponds_consecutive hfields 1)⟩
    change List.Forall₂ _ [Event.objectCompiled _ _] [Event.objectCompiled _ _]
    rw [hfields.length_eq]
    exact .cons (.objectCompiled _ _) .nil

end Compile

/-- Two names that two namers give to the field of one key in one scope. -/
def Namer.NameAlike (namer other : Namer) (name otherName : String) : Prop :=
  ∃ key scope, namer.nameFor key scope = name ∧ other.nameFor key scope = otherName

namespace Session

/-- An object is compiled from inside the same objects with two namers, in sessions that may have
defined different things. Both calls fail for the same cause, or both yield fields of which only the
names of definitions differ. In either case the two calls go through events that correspond one by
one, and each makes the definitions of its events, in their order, on top of those of its session.
The names that stand for one another are those that the two namers give to one key in one scope. -/
theorem compileObject_nameAlike (objects : Objects n) (path : List (OpenObject n))
    (definitions others : Definitions) (namer other : Namer) (scope : List String)
    (schema : Schema n) :
    let first := ProtoSchema.compileObject objects namer path scope schema
    let second := ProtoSchema.compileObject objects other path scope schema
    let reply := (Session.mk definitions path).compileObject objects namer scope schema
    let otherReply := (Session.mk others path).compileObject objects other scope schema
    Compilation.EndsAlike (List.Forall₂ (NumberedField.Corresponds (namer.NameAlike other)))
        reply.outcome otherReply.outcome ∧
      List.Forall₂ (Event.Corresponds (namer.NameAlike other)) first.events second.events ∧
      reply.session.definitions =
        definitions.addAll (first.events.filterMap Event.definition?) ∧
      otherReply.session.definitions =
        others.addAll (second.events.filterMap Event.definition?) := by
  intro first second reply otherReply
  have hnames : ∀ key scope,
      namer.NameAlike other (namer.nameFor key scope) (other.nameFor key scope) :=
    fun key scope => ⟨key, scope, rfl, rfl⟩
  have hcorresponds := Compile.corresponds_compileObject hnames objects path scope schema
  exact ⟨hcorresponds.outcome, hcorresponds.events, definitions.recordAll_eq_addAll first.events,
    others.recordAll_eq_addAll second.events⟩

end Session

end ProtoSchema
