import ProtoSchema.Proofs.Compile.Cycles
import ProtoSchema.Proofs.Compile.Reference
import ProtoSchema.Proofs.Compile.Stops
import ProtoSchema.Proofs.WordPaths
import ProtoSchema.Session

/-!
# The numbers of fields

A message has one field for each part of what it is made for: for each field of an object, or for
each element of a tuple. The fields stand in the order of the parts, each under the key of its part,
and they are numbered from one without a gap. Main statement: this holds of every message that a
compilation defines, at any depth, and of the fields that it yields; numbers and names are read off
the object or the tuple alone.
-/

namespace ProtoSchema

variable {n : Nat}

namespace Schema

/-- Whether no key of an object is used twice. What is no object has no keys. -/
def hasDistinctKeys : Schema n → Bool
  | .object members => decide (members.map (·.1)).Nodup
  | _ => true

/-- No object has a key twice, neither one that stands in the schema nor a shared one nor one that
stands in a shared one. -/
def KeysDistinct (objects : Objects n) (schema : Schema n) : Prop :=
  (∀ part ∈ schema.subschemas, part.hasDistinctKeys = true) ∧
    ∀ index, ∀ part ∈ subschemas (.object (objects index)), part.hasDistinctKeys = true

end Schema

namespace Outline

/-- The parts of an object that is entered under a scope: its fields, each at its place. -/
def memberParts (scope : List String) (members : List (String × Schema n)) :
    List (Place × Schema n) :=
  members.map fun member => (⟨member.1, scope, false, false⟩, member.2)

/-- The parts of a tuple from a position on: its elements, each at its place. -/
def elementParts (place : Place) (position : Nat) (elements : List (Schema n)) :
    List (Place × Schema n) :=
  (elements.zipIdx position).map fun entry => (elementPlace place entry.2, entry.1)

/-- The parts of what occurs in a schema. -/
def Occurrence.parts : Occurrence n → List (Place × Schema n)
  | .object place members => memberParts place.inner members
  | .tuple place elements => elementParts place 0 elements
  | .enumeration _ _ => []

/-- The fields that parts become. -/
def partFields (namer : Namer) (parts : List (Place × Schema n)) : List FieldDescriptor :=
  parts.map fun part => descriptor namer part.1 part.2

theorem objectFields_eq_partFields (namer : Namer) (scope : List String)
    (members : List (String × Schema n)) :
    objectFields namer scope members = partFields namer (memberParts scope members) := by
  simp [objectFields, partFields, memberParts]

theorem tupleFields_eq_partFields (namer : Namer) (place : Place) (position : Nat)
    (elements : List (Schema n)) :
    tupleFields namer place position elements =
      partFields namer (elementParts place position elements) := by
  induction elements generalizing position with
  | nil => rfl
  | cons element rest ih =>
    rw [tupleFields, ih]
    rfl

/-- The message of an occurrence has the fields of its parts. -/
theorem lines_definition {namer : Namer} {occurrence : Occurrence n} {name : String}
    {lines : List String} (h : occurrence.definition namer = .message name lines) :
    lines = (NumberedField.consecutive 1 (partFields namer occurrence.parts)).map (·.line) := by
  cases occurrence with
  | object place members =>
    rw [Occurrence.definition, objectFields_eq_partFields] at h
    exact (Definition.message.inj h).2.symm
  | tuple place elements =>
    rw [Occurrence.definition, tupleFields_eq_partFields] at h
    exact (Definition.message.inj h).2.symm
  | enumeration place options => cases h

/-- The elements of a tuple have different names. -/
theorem nodup_elementParts (place : Place) (position : Nat) (elements : List (Schema n)) :
    ((elementParts place position elements).map (·.1.key)).Nodup := by
  have hkeys : (elementParts place position elements).map (·.1.key) =
      ((elements.zipIdx position).map (·.2)).map (elementWord place.key) := by
    rw [elementParts, List.map_map, List.map_map]
    rfl
  rw [hkeys, List.zipIdx_map_snd]
  refine List.Nodup.map ?_ (List.nodup_range' 1)
  intro one other hsame
  have hone : Grows (elementWord place.key one) (elementWord place.key one) := .refl _
  have hother : Grows (elementWord place.key other) (elementWord place.key one) := by
    rw [hsame]
    exact .refl _
  exact hone.position_eq hother

/-- Numbered fields declare parts: one field for each part, in the order of the parts. -/
structure Declares (namer : Namer) (parts : List (Place × Schema n)) (fields : List NumberedField) :
    Prop where
  /-- There is one field for each part. -/
  length : fields.length = parts.length
  /-- A field is written as its modifiers, its type, the key of its part and its number. -/
  line : ∀ position place schema, parts[position]? = some (place, schema) →
    fields[position]?.map (·.line) =
      some (" ".intercalate (modifiers place.isOptional place.inArray schema ++
          [(fieldType namer place.scope place.key schema).text]) ++
        " " ++ place.key ++ " = " ++ toString (position + 1) ++ ";")
  /-- The numbers run from one without a gap. -/
  numbers : fields.map (·.number) = List.range' 1 parts.length
  /-- The names are the keys of the parts. -/
  names : fields.map (·.field.name) = parts.map (·.1.key)
  /-- No two fields have one name. -/
  nodup : (fields.map (·.field.name)).Nodup

/-- The field at a position has the number after it. -/
theorem getElem?_consecutive (start position : Nat) (fields : List FieldDescriptor) :
    (NumberedField.consecutive start fields)[position]? =
      fields[position]?.map (⟨·, start + position⟩) := by
  induction fields generalizing start position with
  | nil => rfl
  | cons field rest ih =>
    cases position with
    | zero => rfl
    | succ position =>
      rw [NumberedField.consecutive, List.getElem?_cons_succ, List.getElem?_cons_succ, ih,
        Nat.add_assoc, Nat.add_comm 1 position]

/-- Parts with different keys are declared by their fields in a row. -/
theorem declares_partFields (namer : Namer) {parts : List (Place × Schema n)}
    (h : (parts.map (·.1.key)).Nodup) :
    Declares namer parts (NumberedField.consecutive 1 (partFields namer parts)) := by
  have hlength : (partFields namer parts).length = parts.length := by simp [partFields]
  have hnames : (NumberedField.consecutive 1 (partFields namer parts)).map (·.field.name) =
      parts.map (·.1.key) := by
    have hfields := congrArg (List.map FieldDescriptor.name)
      (NumberedField.map_field_consecutive 1 (partFields namer parts))
    rw [List.map_map] at hfields
    refine hfields.trans ?_
    rw [partFields, List.map_map]
    rfl
  refine ⟨?_, ?_, ?_, hnames, ?_⟩
  · rw [NumberedField.length_consecutive, hlength]
  · intro position place schema hpart
    rw [getElem?_consecutive, partFields, List.getElem?_map, hpart, Nat.add_comm 1 position]
    rfl
  · rw [NumberedField.map_number_consecutive, hlength]
  · rw [hnames]
    exact h

end Outline

namespace Compile

open Schema (subschemas KeysDistinct)

section Subschemas

variable {P : Schema n → Prop} {path : List (OpenObject n)} {shared : SharedStops n}

/-- What holds at the nodes of a list and of one more schema holds at the nodes of the list and the
node of the schema. -/
theorem forall_mem_close {list : List (Stop n)} {stop : Stop n}
    (hlist : ∀ other ∈ list, P other.position.schema) (hstop : P stop.position.schema) :
    ∀ other ∈ list ++ [stop], P other.position.schema := by
  intro other hother
  rcases List.mem_append.1 hother with hmem | hlast
  · exact hlist other hmem
  · rw [List.mem_singleton.1 hlast]
    exact hstop

mutual

/-- What holds of a schema and all that stands inside it holds at its nodes, if it holds at those
inside shared objects. -/
theorem forall_mem_stops
    (hshared : ∀ trail address scope index, ∀ stop ∈ shared trail address scope index,
      P stop.position.schema)
    (trail : List String) (address : List Nat) (place : Place) (isMapPart : Bool) :
    ∀ schema : Schema n, P schema → (∀ position ∈ schema.positions, P position.schema) →
      ∀ stop ∈ stops path shared trail address place isMapPart schema, P stop.position.schema
  | .optional inner, hself, h => by
    obtain ⟨hinside, hinner⟩ := List.forall_mem_append.1 h
    exact forall_mem_close (forall_mem_stops hshared trail _ _ false inner
      (hinner _ List.mem_cons_self) hinside) hself
  | .nullable inner, hself, h => by
    obtain ⟨hinside, hinner⟩ := List.forall_mem_append.1 h
    exact forall_mem_close (forall_mem_stops hshared trail _ _ false inner
      (hinner _ List.mem_cons_self) hinside) hself
  | .array element, hself, h => by
    obtain ⟨hinside, helement⟩ := List.forall_mem_append.1 h
    exact forall_mem_close (forall_mem_stops hshared trail _ _ false element
      (helement _ List.mem_cons_self) hinside) hself
  | .set element, hself, h => by
    obtain ⟨hinside, helement⟩ := List.forall_mem_append.1 h
    exact forall_mem_close (forall_mem_stops hshared trail _ _ false element
      (helement _ List.mem_cons_self) hinside) hself
  | .map key value, hself, h => by
    obtain ⟨hfirst, hsecond⟩ := List.forall_mem_append.1 h
    obtain ⟨hinsideKey, hkey⟩ := List.forall_mem_append.1 hfirst
    obtain ⟨hinsideValue, hvalue⟩ := List.forall_mem_append.1 hsecond
    refine forall_mem_close (List.forall_mem_append.2 ⟨?_, ?_⟩) hself
    · exact forall_mem_stops hshared trail _ _ true key (hkey _ List.mem_cons_self) hinsideKey
    · exact forall_mem_stops hshared trail _ _ true value (hvalue _ List.mem_cons_self) hinsideValue
  | .object members, hself, h =>
    forall_mem_close (forall_mem_memberStops hshared _ address place.inner 0 members h) hself
  | .shared index, hself, _ => forall_mem_close (hshared trail address place.inner index) hself
  | .tuple elements, hself, h =>
    forall_mem_close (forall_mem_elementStops hshared trail address place 0 elements h) hself
  | .enumeration _, hself, _ => List.forall_mem_singleton.2 hself
  | .string, hself, _ => List.forall_mem_singleton.2 hself
  | .date, hself, _ => List.forall_mem_singleton.2 hself
  | .boolean, hself, _ => List.forall_mem_singleton.2 hself
  | .bigInt, hself, _ => List.forall_mem_singleton.2 hself
  | .number _, hself, _ => List.forall_mem_singleton.2 hself
  | .unknown _, hself, _ => List.forall_mem_singleton.2 hself
  | .foreign _, hself, _ => List.forall_mem_singleton.2 hself
termination_by structural schema => schema

theorem forall_mem_memberStops
    (hshared : ∀ trail address scope index, ∀ stop ∈ shared trail address scope index,
      P stop.position.schema)
    (trail : List String) (address : List Nat) (scope : List String) :
    ∀ (position : Nat) (members : List (String × Schema n)),
      (∀ inner ∈ Schema.fieldPositions members, P inner.schema) →
        ∀ stop ∈ memberStops path shared trail address scope position members,
          P stop.position.schema
  | _, [], _ => List.forall_mem_nil _
  | position, (_, schema) :: rest, h => by
    obtain ⟨hfirst, hrest⟩ := List.forall_mem_append.1 h
    obtain ⟨hinside, hschema⟩ := List.forall_mem_append.1 hfirst
    refine List.forall_mem_append.2 ⟨?_, ?_⟩
    · exact forall_mem_stops hshared trail _ _ false schema (hschema _ List.mem_cons_self) hinside
    · exact forall_mem_memberStops hshared trail address scope (position + 1) rest hrest
termination_by structural _ members => members

theorem forall_mem_elementStops
    (hshared : ∀ trail address scope index, ∀ stop ∈ shared trail address scope index,
      P stop.position.schema)
    (trail : List String) (address : List Nat) (place : Place) :
    ∀ (position : Nat) (elements : List (Schema n)),
      (∀ inner ∈ Schema.elementPositions elements, P inner.schema) →
        ∀ stop ∈ elementStops path shared trail address place position elements,
          P stop.position.schema
  | _, [], _ => List.forall_mem_nil _
  | position, element :: rest, h => by
    obtain ⟨hfirst, hrest⟩ := List.forall_mem_append.1 h
    obtain ⟨hinside, helement⟩ := List.forall_mem_append.1 hfirst
    refine List.forall_mem_append.2 ⟨?_, ?_⟩
    · exact forall_mem_stops hshared trail _ _ false element (helement _ List.mem_cons_self) hinside
    · exact forall_mem_elementStops hshared trail address place (position + 1) rest hrest
termination_by structural _ elements => elements

end

variable {objects : Objects n}

/-- What holds of the schemas in all shared objects holds at the nodes inside a shared object. -/
theorem forall_mem_sharedStops
    (h : ∀ index, ∀ position ∈ Schema.fieldPositions (objects index), P position.schema)
    (path : List (OpenObject n)) (address : List Nat) (scope : List String) (index : Fin n) :
    ∀ stop ∈ sharedStops objects path address scope index, P stop.position.schema := by
  induction path, address, scope, index using sharedStops.induct with
  | case1 path address scope index hopen =>
    rw [sharedStops, dif_pos hopen]
    exact List.forall_mem_nil _
  | case2 path address scope index hclosed here ih =>
    rw [sharedStops, dif_neg hclosed]
    exact forall_mem_memberStops ih [] address scope 0 _ (h index)

/-- No object at a node inside an object has a key twice. -/
theorem hasDistinctKeys_of_mem_objectStops {path : List (OpenObject n)} {scope : List String}
    {schema : Schema n} (hkeys : schema.KeysDistinct objects) {stop : Stop n}
    (h : stop ∈ objectStops objects path scope schema) :
    stop.position.schema.hasDistinctKeys = true := by
  obtain ⟨hschema, hobjects⟩ := hkeys
  have hinside : ∀ index, ∀ position ∈ Schema.fieldPositions (objects index),
      position.schema.hasDistinctKeys = true :=
    fun index position hposition =>
      hobjects index _ (List.mem_cons_of_mem _ (List.mem_map_of_mem hposition))
  have hshared : ∀ path address scope index, ∀ stop ∈ sharedStops objects path address scope index,
      stop.position.schema.hasDistinctKeys = true :=
    fun path address scope index => forall_mem_sharedStops
      (P := fun part => part.hasDistinctKeys = true) hinside path address scope index
  cases schema with
  | object members =>
    refine forall_mem_memberStops (P := fun part => part.hasDistinctKeys = true)
      (fun trail address scope index => hshared _ address scope index)
      [OpenObject.labelOf scope] [] scope 0 members (fun position hposition => ?_) stop h
    exact hschema _ (List.mem_cons_of_mem _ (List.mem_map_of_mem hposition))
  | shared index => exact hshared path [] scope index stop h
  | _ => cases h

end Subschemas

section Messages

variable {objects : Objects n}

/-- The parts of what occurs at a node have different keys, if no object has a key twice. -/
theorem nodup_parts {path : List (OpenObject n)} {scope : List String} {schema : Schema n}
    (hkeys : schema.KeysDistinct objects) {stop : Stop n}
    (hstop : stop ∈ objectStops objects path scope schema) {occurrence : Outline.Occurrence n}
    (h : stop.occurrence? objects = some occurrence) :
    (occurrence.parts.map (·.1.key)).Nodup := by
  have hmembers : ∀ (inside : List String) (members : List (String × Schema n)),
      (Schema.object members).hasDistinctKeys = true →
        ((Outline.memberParts inside members).map (·.1.key)).Nodup := by
    intro inside members hdistinct
    rw [Outline.memberParts, List.map_map]
    exact of_decide_eq_true hdistinct
  have hdistinct := hasDistinctKeys_of_mem_objectStops hkeys hstop
  rw [Stop.occurrence?] at h
  cases hschema : stop.position.schema <;> rw [hschema] at h hdistinct <;> cases h
  case object members => exact hmembers _ members hdistinct
  case shared index => exact hmembers _ _ (hkeys.2 index _ List.mem_cons_self)
  case tuple elements => exact Outline.nodup_elementParts _ 0 elements
  case enumeration options => exact .nil

/-- The fields of a root object have different keys, if no object has a key twice. -/
theorem nodup_rootParts {schema : Schema n} (hkeys : schema.KeysDistinct objects)
    {root : ObjectGraph.Node n} (hroot : ObjectGraph.root? objects schema = some root)
    (scope : List String) : ((Outline.memberParts scope root.fields).map (·.1.key)).Nodup := by
  rw [Outline.memberParts, List.map_map]
  cases schema with
  | object members =>
    cases hroot
    exact of_decide_eq_true (hkeys.1 _ List.mem_cons_self)
  | shared index =>
    cases hroot
    exact of_decide_eq_true (hkeys.2 index _ List.mem_cons_self)
  | _ => cases hroot

end Messages

end Compile

namespace Session

open Compile (objectStops)
open Outline (Declares memberParts)

/-- Where an object compiles in a session, the session has the definitions of what occurs in it made
on top of those that it had. Every message among these has one field for each part of its object or
tuple, in order, under the keys of the parts and with the numbers from one on, and so has the list
of fields that the call yields. -/
theorem compileObject_numbering (session : Session n) (objects : Objects n) (namer : Namer)
    (scope : List String) (schema : Schema n) {fields : List NumberedField}
    (hkeys : schema.KeysDistinct objects)
    (h : (session.compileObject objects namer scope schema).outcome = .ok fields) :
    ∃ root occurrences, ObjectGraph.root? objects schema = some root ∧
      occurrences =
        (objectStops objects session.path scope schema).filterMap (·.occurrence? objects) ∧
      (session.compileObject objects namer scope schema).session.definitions =
        session.definitions.addAll (occurrences.map (·.definition namer)) ∧
      (∀ occurrence ∈ occurrences, ∀ name lines,
        occurrence.definition namer = .message name lines →
          ∃ numbered, lines = numbered.map (·.line) ∧
            Declares namer occurrence.parts numbered) ∧
      Declares namer (memberParts scope root.fields) fields := by
  obtain ⟨root, hroot, -, hfields, hevents⟩ := Compile.compileObject_of_ok h
  refine ⟨root, _, hroot, rfl, ?_, ?_, ?_⟩
  · change (session.definitions.recordAll
      (ProtoSchema.compileObject objects namer session.path scope schema).events).1 = _
    rw [Definitions.recordAll_eq_addAll, hevents, List.filterMap_append, Outline.filterMap_reports]
    exact congrArg session.definitions.addAll (List.append_nil _)
  · intro occurrence hoccurrence name lines hdefinition
    obtain ⟨stop, hstop, hoccurs⟩ := List.mem_filterMap.1 hoccurrence
    exact ⟨_, Outline.lines_definition hdefinition,
      Outline.declares_partFields namer (Compile.nodup_parts hkeys hstop hoccurs)⟩
  · rw [hfields, Outline.objectFields_eq_partFields]
    exact Outline.declares_partFields namer (Compile.nodup_rootParts hkeys hroot scope)

/-- A player is an object with a name and a pair of numbers. -/
def playerObjects : Objects 1 := fun _ =>
  [("name", .string), ("size", .tuple [.number true, .optional (.number false)])]

/-- A team refers to players as a field and as elements. -/
def team : Schema 1 :=
  let player : Schema 1 := .shared ⟨0, Nat.zero_lt_one⟩
  .object [("captain", .optional player), ("players", .array player),
    ("ranks", .map .string (.enumeration [.text "FIRST", .text "LAST"]))]

/-- The fields of a team are numbered from one. -/
theorem compileObject_numbering_team :
    team.KeysDistinct playerObjects ∧
      ∃ fields, (({} : Session 1).compileObject playerObjects {} [] team).outcome = .ok fields ∧
        fields.map (·.line) =
          ["optional Captain captain = 1;", "repeated Player players = 2;",
            "map<string, RanksValue> ranks = 3;"] ∧
        fields.map (·.number) = [1, 2, 3] := by
  have hkeys : team.KeysDistinct playerObjects := ⟨by decide, by decide⟩
  have houtcome : (({} : Session 1).compileObject playerObjects {} [] team).outcome =
      .ok [⟨⟨.defined "Captain", "captain", ["optional"]⟩, 1⟩,
        ⟨⟨.defined "Player", "players", ["repeated"]⟩, 2⟩,
        ⟨⟨.map (.scalar .string) (.defined "RanksValue"), "ranks", []⟩, 3⟩] := by
    change (ProtoSchema.compileObject playerObjects {} [] [] team).outcome = _
    have hdepth : 1 < 2 := by decide
    rw [← Compile.objectBy_sharedWithin (fun _ _ _ => Compilation.fail (.cyclic [])) hdepth]
    rfl
  obtain ⟨root, occurrences, hroot, -, -, -, hfields⟩ :=
    compileObject_numbering {} playerObjects {} [] team hkeys houtcome
  cases hroot
  exact ⟨hkeys, _, houtcome, by decide, hfields.numbers⟩

end Session

end ProtoSchema
