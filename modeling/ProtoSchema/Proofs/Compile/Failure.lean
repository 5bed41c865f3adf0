import ProtoSchema.Proofs.Compile.Calls
import ProtoSchema.Proofs.Compile.Numbering

/-!
# What a failed call leaves behind

A call that fails ends at the first node that fails, and what it has defined until then stays
defined. These are the definitions of what occurs at the nodes that it is done with. Main statement:
the nodes that a call is done with are those that come before the failing one in the order of the
traversal, whichever node that is, and none of them encloses it, so that every definition is
complete.
-/

namespace ProtoSchema

open Compile (Stop IsOrdered fieldStops objectStops)
open Outline (Occurrence)

variable {n : Nat}

namespace Compile.Stop

/-- Whether a compilation is done with a node when it comes to another. -/
def isBefore (stop other : Stop n) : Bool :=
  Address.isBefore stop.address other.address

/-- Whether a node stands inside another, or is the other. -/
def encloses (stop other : Stop n) : Prop :=
  stop.address <+: other.address

/-- The definition of what occurs at the node, if something does. -/
def definition? (objects : Objects n) (namer : Namer) (stop : Stop n) : Option Definition :=
  (stop.occurrence? objects).map (·.definition namer)

end Compile.Stop

namespace Call

/-- The shared objects that a call is about. -/
def objects : Call n → Objects n
  | .field objects _ _ _ => objects
  | .object objects _ _ _ => objects

/-- What names the definitions that a call makes. -/
def namer : Call n → Namer
  | .field _ namer _ _ => namer
  | .object _ namer _ _ => namer

/-- Why a call fails before it comes to a node, if it does. -/
def entryFailure? (path : List (OpenObject n)) : Call n → Option SchemaError
  | .field _ _ _ _ => none
  | .object _ _ scope schema => Compile.entryFailure? path scope schema

/-- The nodes that a call goes through from inside the objects of a path. -/
def stops (path : List (OpenObject n)) : Call n → List (Stop n)
  | .field objects _ place schema => fieldStops objects path place schema
  | .object objects _ scope schema => objectStops objects path scope schema

/-- The nodes that a call is done with when it comes to a node. -/
def stopsBefore (path : List (OpenObject n)) (call : Call n) (stop : Stop n) : List (Stop n) :=
  (call.stops path).filter (·.isBefore stop)

/-- A call goes through its nodes in the order of the traversal. -/
theorem isOrdered_stops (path : List (OpenObject n)) (call : Call n) :
    IsOrdered (call.stops path) := by
  cases call with
  | field objects namer place schema => exact Compile.isOrdered_fieldStops objects path place schema
  | object objects namer scope schema =>
    exact Compile.isOrdered_objectStops objects path scope schema

/-- The nodes that a call is done with when it comes to a node are those in front of it. -/
theorem stopsBefore_eq {path : List (OpenObject n)} {call : Call n} {before after : List (Stop n)}
    {stop : Stop n} (h : call.stops path = before ++ stop :: after) :
    call.stopsBefore path stop = before :=
  Address.filter_isBefore (isOrdered_stops path call) h

end Call

namespace Session

/-- Recording what is reported of the nodes of a list makes the definitions of what occurs there. -/
theorem recordAll_reports (definitions : Definitions) (objects : Objects n) (namer : Namer)
    (list : List (Stop n)) :
    (definitions.recordAll
        (Compile.reports namer (list.filterMap (·.occurrence? objects)))).1 =
      definitions.addAll (list.filterMap (·.definition? objects namer)) := by
  rw [Definitions.recordAll_eq_addAll, Outline.filterMap_reports, List.map_filterMap]
  rfl

/-- A call that fails has made no definition, or those of what occurs in front of the first node
that fails. -/
theorem exists_of_answer_error {session : Session n} {call : Call n} {cause : SchemaError}
    (h : session.answer call = .error cause) :
    (call.entryFailure? session.path = some cause ∧
        (session.after call).definitions = session.definitions) ∨
      ∃ before failing after, call.stops session.path = before ++ failing :: after ∧
        (∀ stop ∈ before, stop.failure? = none) ∧ failing.failure? = some cause ∧
        (session.after call).definitions =
          session.definitions.addAll
            (before.filterMap (·.definition? call.objects call.namer)) := by
  cases call with
  | field objects namer place schema =>
    obtain ⟨before, failing, after, hstops, hbefore, hfailing, hevents⟩ :=
      Compile.exists_of_compileField_error (answer_field_eq_error_iff.1 h)
    refine .inr ⟨before, failing, after, hstops, hbefore, hfailing, ?_⟩
    change (session.definitions.recordAll _).1 = _
    rw [hevents]
    exact recordAll_reports _ _ _ _
  | object objects namer scope schema =>
    rcases Compile.exists_of_compileObject_error (answer_object_eq_error_iff.1 h) with
      ⟨hentry, hevents⟩ | ⟨before, failing, after, hstops, hbefore, hfailing, hevents⟩
    · refine .inl ⟨hentry, ?_⟩
      change (session.definitions.recordAll _).1 = _
      rw [hevents]
      rfl
    · refine .inr ⟨before, failing, after, hstops, hbefore, hfailing, ?_⟩
      change (session.definitions.recordAll _).1 = _
      rw [hevents]
      exact recordAll_reports _ _ _ _

/-- A call that fails leaves the objects open that were open before. If it fails at once, it defines
nothing. Otherwise it fails at one of its nodes, and it has made the definitions of what occurs at
the nodes before that one, none of which fails, in their order and on top of what was defined
before. No node that encloses the failing one is among these, and with a node all those inside it
are, so that every message that is defined has the lines of all its fields. -/
theorem after_of_failure (session : Session n) (call : Call n) {cause : SchemaError}
    (h : session.answer call = .error cause) :
    (session.after call).path = session.path ∧
      ((call.entryFailure? session.path = some cause ∧
          (session.after call).definitions = session.definitions) ∨
        ∃ failing ∈ call.stops session.path, failing.failure? = some cause ∧
          (session.after call).definitions =
            session.definitions.addAll ((call.stopsBefore session.path failing).filterMap
              (·.definition? call.objects call.namer)) ∧
          IsOrdered (call.stops session.path) ∧
          (∀ stop ∈ call.stopsBefore session.path failing,
            stop.failure? = none ∧ ¬ stop.encloses failing ∧
              ∀ inner ∈ call.stops session.path, stop.encloses inner →
                inner ∈ call.stopsBefore session.path failing) ∧
          ∀ stop ∈ call.stopsBefore session.path failing, ∀ occurrence,
            stop.occurrence? call.objects = some occurrence → ∀ name lines,
              occurrence.definition call.namer = .message name lines →
                lines = (NumberedField.consecutive 1
                  (Outline.partFields call.namer occurrence.parts)).map (·.line)) := by
  refine ⟨session.path_after call, ?_⟩
  rcases exists_of_answer_error h with
    hentry | ⟨before, failing, after, hstops, hbefore, hfailing, hdefinitions⟩
  · exact .inl hentry
  have hdone : call.stopsBefore session.path failing = before := Call.stopsBefore_eq hstops
  have hmem : failing ∈ call.stops session.path := by
    rw [hstops]
    exact List.mem_append_right _ List.mem_cons_self
  refine .inr ⟨failing, hmem, hfailing, ?_, call.isOrdered_stops session.path, ?_, ?_⟩
  · rw [hdone, hdefinitions]
  · intro stop hstop
    have hclear : stop.failure? = none := hbefore stop (hdone ▸ hstop)
    obtain ⟨-, hfirst⟩ := List.mem_filter.1 hstop
    refine ⟨hclear, ?_, ?_⟩
    · intro hencloses
      rw [Stop.isBefore, Address.isBefore_of_isPrefix hencloses] at hfirst
      cases hfirst
    · intro inner hinner hencloses
      exact List.mem_filter.2 ⟨hinner, Address.isBefore_of_isPrefix_of_isBefore hencloses hfirst⟩
  · intro stop _ occurrence _ name lines hdefinition
    exact Outline.lines_definition hdefinition

/-- A part is an object with a number. -/
def partObjects : Objects 1 := fun _ => [("id", .number true)]

/-- A box has a lid with lists of parts as the values of a map, where no list can stand. -/
def box : Schema 1 :=
  let part : Schema 1 := .shared ⟨0, Nat.zero_lt_one⟩
  .object [("owner", part), ("lid", .object [("parts", .map .string (.array part))]),
    ("maker", part)]

/-- A session where a message is defined already. -/
def ownerSession : Session 1 :=
  ⟨(Definitions.empty.defineMessage "Owner" ["string name = 1;"]).1, []⟩

/-- Compiling a box fails at the list. The owner and the elements of the list are defined by then,
but not the lid and what comes after it. -/
theorem after_of_failure_box :
    ownerSession.answer (.object partObjects {} [] box) = .error (.unsupported "ArrayNode") ∧
      (ownerSession.after (.object partObjects {} [] box)).path = [] ∧
      (ownerSession.after (.object partObjects {} [] box)).definitions.messages.entries =
        [("Owner", ["int32 id = 1;"]), ("PartsValue", ["int32 id = 1;"])] ∧
      ∃ failing ∈ objectStops partObjects [] [] box,
        failing.failure? = some (.unsupported "ArrayNode") := by
  have hcompile : Compile.objectBy (Compile.sharedWithin partObjects {}
      (fun _ _ _ => Compilation.fail (.cyclic [])) 2) {} [] [] box =
        ProtoSchema.compileObject partObjects {} [] [] box :=
    Compile.objectBy_sharedWithin _ (by decide) [] [] box
  have hanswer : ownerSession.answer (.object partObjects {} [] box) =
      .error (.unsupported "ArrayNode") := by
    rw [answer_object_eq_error_iff]
    change (ProtoSchema.compileObject partObjects {} [] [] box).outcome = _
    rw [← hcompile]
    rfl
  have hentries :
      (ownerSession.after (.object partObjects {} [] box)).definitions.messages.entries =
        [("Owner", ["int32 id = 1;"]), ("PartsValue", ["int32 id = 1;"])] := by
    change (ownerSession.definitions.recordAll
      (ProtoSchema.compileObject partObjects {} [] [] box).events).1.messages.entries = _
    rw [← hcompile]
    rfl
  obtain ⟨hpath, ⟨hentry, -⟩ | ⟨failing, hfailing, hcause, -⟩⟩ :=
    after_of_failure ownerSession _ hanswer
  · cases hentry
  · exact ⟨hanswer, hpath, hentries, failing, hfailing, hcause⟩

end Session

end ProtoSchema
