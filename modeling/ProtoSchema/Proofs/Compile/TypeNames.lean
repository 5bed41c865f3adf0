import ProtoSchema.Proofs.Compile.FieldTypes
import ProtoSchema.Proofs.Identifier

/-!
# The names of types

Where all keys are identifiers, so are the names of all definitions, but for those of which nothing
is left: the elements of a sequence under the key `s` or `S` have an empty key, and they have an
empty name if nothing else stands in front of it. Main statement: all names are identifiers exactly
if there is a text in front of them or no field of this kind has the first key in names. The types
that fields refer to have these names, too.
-/

namespace ProtoSchema

variable {n : Nat}

namespace Schema

/-- What is left of a schema without the layers of optionality and the sequences that it begins
with. -/
def innermost : Schema n → Schema n
  | .optional inner => innermost inner
  | .nullable inner => innermost inner
  | .array element => innermost element
  | .set element => innermost element
  | schema => schema
termination_by structural schema => schema

/-- The fields of all objects in a schema. -/
def allFields (schema : Schema n) : List (String × Schema n) :=
  schema.subschemas.flatMap fun part => (Outline.fields? part).getD []

theorem mem_allFields_iff {schema : Schema n} {field : String × Schema n} :
    field ∈ schema.allFields ↔
      ∃ members, .object members ∈ schema.subschemas ∧ field ∈ members := by
  rw [allFields, List.mem_flatMap]
  constructor
  · rintro ⟨part, hpart, hfield⟩
    cases part with
    | object members => exact ⟨members, hpart, hfield⟩
    | _ => cases hfield
  · rintro ⟨members, hmembers, hfield⟩
    exact ⟨.object members, hmembers, hfield⟩

/-- The fields of an object are among all fields in it. -/
theorem mem_allFields_object {members : List (String × Schema n)} {field : String × Schema n}
    (h : field ∈ members) : field ∈ (Schema.object members).allFields :=
  mem_allFields_iff.2 ⟨members, self_mem_subschemas _, h⟩

/-- The fields of what stands in a schema are among all fields in the schema. -/
theorem allFields_subset {schema part : Schema n} (h : part ∈ schema.subschemas) :
    part.allFields ⊆ schema.allFields := by
  intro field hfield
  obtain ⟨members, hmembers, hmem⟩ := mem_allFields_iff.1 hfield
  exact mem_allFields_iff.2 ⟨members, mem_subschemas_trans h hmembers, hmem⟩

end Schema

namespace Outline

open ProtoSchema.Naming (IsNameOrEmpty isName isName_iff)
open ProtoSchema.Singular (lone singular toList_singular isNameOrEmpty_singular singular_ne)

section Words

variable {word : String} {schema : Schema n}

/-- The sequences that a schema begins with leave something of a name, unless it is `s` or `S`. -/
theorem headWord_ne (hword : IsNameOrEmpty word.toList) (hne : word ≠ "")
    (hlone : word.toList ∉ lone) : headWord word schema ≠ "" := by
  induction word, schema using layered_induction with
  | optional word inner ih => exact ih hword hne hlone
  | nullable word inner ih => exact ih hword hne hlone
  | array word element ih =>
    obtain ⟨hleft, hother⟩ := singular_ne hword hne hlone
    exact ih (isNameOrEmpty_singular hword) hleft hother
  | set word element ih =>
    obtain ⟨hleft, hother⟩ := singular_ne hword hne hlone
    exact ih (isNameOrEmpty_singular hword) hleft hother
  | base word schema hbase => rwa [headWord_of_not_isLayered word hbase]

/-- Sequences leave nothing of an empty key. -/
theorem headWord_empty (schema : Schema n) : headWord "" schema = "" :=
  headWord_of_singular (by decide)

/-- A sequence leaves nothing of `s` and `S`. -/
theorem headWord_lone (hword : word.toList ∈ lone) (h : schema.strip.isSequence = true) :
    headWord word schema = "" := by
  have hsingular : singular word = "" := by
    have hlone : ∀ chars ∈ lone, Singular.singularChars chars = [] := by decide
    rw [← String.toList_eq_nil_iff, toList_singular, hlone _ hword]
  induction word, schema using layered_induction with
  | optional word inner ih => exact ih hword h hsingular
  | nullable word inner ih => exact ih hword h hsingular
  | array word element ih =>
    rw [headWord, hsingular]
    exact headWord_empty element
  | set word element ih =>
    rw [headWord, hsingular]
    exact headWord_empty element
  | base word schema hbase =>
    cases schema with
    | array element | set element | optional inner | nullable inner => cases hbase
    | _ => cases h

/-- Nothing is left of a name exactly if it is `s` or `S` and there is a sequence. -/
theorem headWord_eq_empty_iff (hword : isName word = true) :
    headWord word schema = "" ↔ word.toList ∈ lone ∧ schema.strip.isSequence = true := by
  obtain ⟨hne, hname⟩ := isName_iff.1 hword
  constructor
  · intro hempty
    have hlone : word.toList ∈ lone := by
      by_contra hother
      exact headWord_ne hname hne hother hempty
    refine ⟨hlone, ?_⟩
    by_contra hsequence
    rw [headWord_of_not_isSequence word (Bool.not_eq_true _ ▸ hsequence)] at hempty
    exact hne hempty
  · rintro ⟨hlone, hsequence⟩
    exact headWord_lone hlone hsequence

end Words

section Nameless

/-- Whether what a field holds is named by an empty key: the key is `s` or `S`, and the field is a
sequence of messages or enums. -/
def IsNameless (field : String × Schema n) : Prop :=
  field.1.toList ∈ lone ∧ field.2.strip.isSequence = true ∧ field.2.innermost.isDefined = true

instance (field : String × Schema n) : Decidable (IsNameless field) :=
  inferInstanceAs (Decidable (_ ∧ _ ∧ _))

/-- The fields of an object that is entered under a scope whose keys are the first ones, behind the
text in front of all names, in the names of what they hold: all fields if names are not qualified,
and otherwise those of the object itself if the scope is empty. -/
def leadingFields (namer : Namer) (scope : List String) (members : List (String × Schema n)) :
    List (String × Schema n) :=
  if namer.qualify then (if scope = [] then members else []) else (Schema.object members).allFields

/-- What is known of the key of a schema and of the keys around it and inside it. Where they leave
nothing of a name, a statement holds. -/
structure IsKeyed (namer : Namer) (P : Prop) (scope : List String) (key : String)
    (schema : Schema n) : Prop where
  /-- The key is an identifier, or nothing is left of it. -/
  keyed : IsNameOrEmpty key.toList
  /-- So are the keys of the enclosing objects. -/
  enclosing : ∀ outer ∈ scope, IsNameOrEmpty outer.toList
  /-- The keys of all fields inside are identifiers. -/
  fields : ∀ field ∈ schema.allFields, isName field.1 = true
  /-- The statement holds if the keys leave nothing of the name of what is defined first. -/
  lost : (namer.qualify = true → ∀ outer ∈ scope, outer = "") → headWord key schema = "" →
    schema.innermost.isDefined = true → P
  /-- It holds if there is a field inside whose key alone leaves nothing of a name. -/
  inside : namer.qualify = false → ∀ field ∈ schema.allFields, IsNameless field → P

namespace IsKeyed

variable {namer : Namer} {P : Prop} {scope : List String} {key : String}

/-- What is known of a schema is handed on to one right inside it, under a key that is known. -/
theorem direct {schema part : Schema n} {isMapPart : Bool} {word : String}
    (h : IsKeyed namer P scope key schema) (hdirect : ⟨part, isMapPart⟩ ∈ schema.directPositions)
    (hword : IsNameOrEmpty word.toList)
    (hlost : (namer.qualify = true → ∀ outer ∈ scope, outer = "") → headWord word part = "" →
      part.innermost.isDefined = true → P) :
    IsKeyed namer P scope word part := by
  have hfields := Schema.allFields_subset (Schema.mem_subschemas_of_mem_directPositions hdirect)
  exact ⟨hword, h.enclosing, fun field hfield => h.fields field (hfields hfield), hlost,
    fun hqualify field hfield => h.inside hqualify field (hfields hfield)⟩

theorem optional {inner : Schema n} (h : IsKeyed namer P scope key (.optional inner)) :
    IsKeyed namer P scope key inner :=
  h.direct List.mem_cons_self h.keyed h.lost

theorem nullable {inner : Schema n} (h : IsKeyed namer P scope key (.nullable inner)) :
    IsKeyed namer P scope key inner :=
  h.direct List.mem_cons_self h.keyed h.lost

theorem array {element : Schema n} (h : IsKeyed namer P scope key (.array element)) :
    IsKeyed namer P scope (singular key) element :=
  h.direct List.mem_cons_self (isNameOrEmpty_singular h.keyed) h.lost

theorem set {element : Schema n} (h : IsKeyed namer P scope key (.set element)) :
    IsKeyed namer P scope (singular key) element :=
  h.direct List.mem_cons_self (isNameOrEmpty_singular h.keyed) h.lost

/-- A key that is continued by two characters or more is never lost. -/
theorem grown {schema part : Schema n} {isMapPart : Bool} {word : String} {more : List Char}
    (h : IsKeyed namer P scope key schema) (hdirect : ⟨part, isMapPart⟩ ∈ schema.directPositions)
    (hword : word.toList = key.toList ++ more) (hmore : IsNameOrEmpty more)
    (hlong : 2 ≤ more.length) : IsKeyed namer P scope word part := by
  have hname : IsNameOrEmpty word.toList := by
    rw [hword]
    exact h.keyed.append hmore
  have htwo : 2 ≤ word.toList.length := by
    rw [hword, List.length_append]
    omega
  obtain ⟨hne, hlone⟩ := Singular.ne_of_two_le htwo
  refine h.direct hdirect hname fun _ hempty _ => ?_
  exact absurd hempty (headWord_ne hname (mt String.toList_eq_nil_iff.2 hne) hlone)

theorem mapKey {keys values : Schema n} (h : IsKeyed namer P scope key (.map keys values)) :
    IsKeyed namer P scope (key ++ "Key") keys :=
  h.grown List.mem_cons_self String.toList_append
    (.of_isAlpha (List.all_eq_true.1 (by decide))) (by decide)

theorem mapValue {keys values : Schema n} (h : IsKeyed namer P scope key (.map keys values)) :
    IsKeyed namer P scope (key ++ "Value") values :=
  h.grown (List.mem_cons_of_mem _ List.mem_cons_self) String.toList_append
    (.of_isAlpha (List.all_eq_true.1 (by decide))) (by decide)

/-- The key of an element of a tuple ends in its position. -/
theorem element {elements : List (Schema n)} (h : IsKeyed namer P scope key (.tuple elements))
    {element : Schema n} (helement : element ∈ elements) (position : Nat) :
    IsKeyed namer P scope (elementWord key position) element := by
  refine h.grown (List.mem_map_of_mem helement) (toList_elementWord key position) ⟨?_, ?_⟩ ?_
  · intro c hc
    rw [← Option.some.inj hc]
    rfl
  · refine List.forall_mem_cons.2 ⟨by decide, fun c hc => ?_⟩
    have hdigit : c.isDigit = true := Nat.isDigit_of_mem_toDigits (by decide) (by decide) hc
    simp [Naming.isNameChar, Char.isAlphanum, hdigit]
  · rw [List.length_cons]
    exact Nat.succ_le_succ (List.length_pos_of_ne_nil Nat.toDigits_ne_nil)

/-- The key of an object is one of the keys around its fields. -/
theorem member {members : List (String × Schema n)}
    (h : IsKeyed namer P scope key (.object members)) {member : String × Schema n}
    (hmember : member ∈ members) : IsKeyed namer P (scope ++ [key]) member.1 member.2 := by
  have hname := h.fields member (Schema.mem_allFields_object hmember)
  have hinner := Schema.allFields_subset (Schema.mem_subschemas_of_mem_members hmember)
  refine ⟨(isName_iff.1 hname).2, ?_, fun field hfield => h.fields field (hinner hfield), ?_,
    fun hqualify field hfield => h.inside hqualify field (hinner hfield)⟩
  · exact List.forall_mem_append.2 ⟨h.enclosing, List.forall_mem_singleton.2 h.keyed⟩
  · intro hscope hempty hdefined
    cases hqualify : namer.qualify with
    | true =>
      -- nothing is left of the name of the object either
      obtain ⟨houter, hkey⟩ := List.forall_mem_append.1 (hscope hqualify)
      exact h.lost (fun _ => houter) (hkey key List.mem_cons_self) rfl
    | false =>
      obtain ⟨hlone, hsequence⟩ := (headWord_eq_empty_iff hname).1 hempty
      exact h.inside hqualify member (Schema.mem_allFields_object hmember)
        ⟨hlone, hsequence, hdefined⟩

/-- The name of what is defined is an identifier, or it is empty, and then the statement holds and
there is no text in front of names. -/
theorem isName_nameFor {schema : Schema n} (h : IsKeyed namer P scope key schema)
    (hdefined : schema.isDefined = true) (hlead : IsNameOrEmpty namer.lead.toList) :
    isName (namer.nameFor key scope) = true ∨
      (namer.nameFor key scope = "" ∧ namer.lead = "" ∧ P) := by
  by_cases hempty : namer.nameFor key scope = ""
  · obtain ⟨hnone, hkey, hscope⟩ := (Namer.nameFor_eq_empty_iff h.keyed h.enclosing).1 hempty
    have hself : headWord key schema = key ∧ schema.innermost = schema := by
      cases schema with
      | object members => exact ⟨rfl, rfl⟩
      | tuple elements => exact ⟨rfl, rfl⟩
      | enumeration options => exact ⟨rfl, rfl⟩
      | _ => cases hdefined
    refine .inr ⟨hempty, hnone, h.lost hscope (hself.1.trans hkey) ?_⟩
    rw [hself.2, hdefined]
  · exact .inl (isName_iff.2 ⟨hempty, Namer.isNameOrEmpty_nameFor hlead h.keyed h.enclosing⟩)

end IsKeyed

section Occurrences

variable {namer : Namer} {P : Prop}

/-- What is known of the place of an occurrence and of what stands there. -/
def Occurrence.IsKeyed (namer : Namer) (P : Prop) (occurrence : Occurrence n) : Prop :=
  Outline.IsKeyed namer P occurrence.place.scope occurrence.place.key occurrence.schema

mutual

/-- What is known of a schema is known of all that occurs in it. -/
theorem isKeyed_of_mem_occurrences (place : Place) : ∀ schema : Schema n,
    IsKeyed namer P place.scope place.key schema →
      ∀ occurrence ∈ occurrences place schema, occurrence.IsKeyed namer P
  | .optional inner, h => isKeyed_of_mem_occurrences _ inner h.optional
  | .nullable inner, h => isKeyed_of_mem_occurrences _ inner h.nullable
  | .array element, h => isKeyed_of_mem_occurrences _ element h.array
  | .set element, h => isKeyed_of_mem_occurrences _ element h.set
  | .map key value, h =>
    List.forall_mem_append.2 ⟨isKeyed_of_mem_occurrences _ key h.mapKey,
      isKeyed_of_mem_occurrences _ value h.mapValue⟩
  | .object members, h =>
    List.forall_mem_append.2 ⟨isKeyed_of_mem_memberOccurrences _ members fun _ => h.member,
      List.forall_mem_singleton.2 h⟩
  | .tuple elements, h =>
    List.forall_mem_append.2
      ⟨isKeyed_of_mem_elementOccurrences place 0 elements fun _ => h.element,
        List.forall_mem_singleton.2 h⟩
  | .enumeration _, h => List.forall_mem_singleton.2 h
  | .shared _, _ => List.forall_mem_nil _
  | .string, _ => List.forall_mem_nil _
  | .boolean, _ => List.forall_mem_nil _
  | .date, _ => List.forall_mem_nil _
  | .bigInt, _ => List.forall_mem_nil _
  | .number _, _ => List.forall_mem_nil _
  | .unknown _, _ => List.forall_mem_nil _
  | .foreign _, _ => List.forall_mem_nil _
termination_by structural schema => schema

/-- What is known of the fields of an object is known of all that occurs in them. -/
theorem isKeyed_of_mem_memberOccurrences (scope : List String) :
    ∀ members : List (String × Schema n),
      (∀ member ∈ members, IsKeyed namer P scope member.1 member.2) →
        ∀ occurrence ∈ memberOccurrences scope members, occurrence.IsKeyed namer P
  | [], _ => List.forall_mem_nil _
  | (key, schema) :: rest, h => by
    obtain ⟨hfirst, hrest⟩ := List.forall_mem_cons.1 h
    exact List.forall_mem_append.2
      ⟨isKeyed_of_mem_occurrences ⟨key, scope, false, false⟩ schema hfirst,
        isKeyed_of_mem_memberOccurrences scope rest hrest⟩
termination_by structural members => members

/-- What is known of the elements of a tuple is known of all that occurs in them. -/
theorem isKeyed_of_mem_elementOccurrences (place : Place) :
    ∀ (position : Nat) (elements : List (Schema n)),
      (∀ element ∈ elements, ∀ number,
        IsKeyed namer P place.scope (elementWord place.key number) element) →
        ∀ occurrence ∈ elementOccurrences place position elements, occurrence.IsKeyed namer P
  | _, [], _ => List.forall_mem_nil _
  | position, element :: rest, h => by
    obtain ⟨hfirst, hrest⟩ := List.forall_mem_cons.1 h
    exact List.forall_mem_append.2
      ⟨isKeyed_of_mem_occurrences (elementPlace place position) element (hfirst position),
        isKeyed_of_mem_elementOccurrences place (position + 1) rest hrest⟩
termination_by structural _ elements => elements

end

/-- What is defined where the sequences end that a schema begins with is named by what they leave of
the key. -/
theorem exists_occurrence_of_innermost (place : Place) {schema : Schema n}
    (h : schema.innermost.isDefined = true) :
    ∃ occurrence ∈ occurrences place schema,
      occurrence.place.key = headWord place.key schema ∧
        occurrence.place.scope = place.scope := by
  induction schema using Schema.innermost.induct generalizing place with
  | case1 inner ih => exact ih { place with isOptional := true } h
  | case2 inner ih => exact ih { place with isOptional := true } h
  | case3 element ih => exact ih ⟨singular place.key, place.scope, false, true⟩ h
  | case4 element ih => exact ih ⟨singular place.key, place.scope, false, true⟩ h
  | case5 schema hoptional hnullable harray hset =>
    cases schema with
    | object members =>
      exact ⟨.object place members, List.mem_append_right _ List.mem_cons_self, rfl, rfl⟩
    | tuple elements =>
      exact ⟨.tuple place elements, List.mem_append_right _ List.mem_cons_self, rfl, rfl⟩
    | enumeration options => exact ⟨.enumeration place options, List.mem_cons_self, rfl, rfl⟩
    | optional inner => exact absurd rfl (hoptional inner)
    | nullable inner => exact absurd rfl (hnullable inner)
    | array element => exact absurd rfl (harray element)
    | set element => exact absurd rfl (hset element)
    | _ => cases h

variable {scope : List String} {members : List (String × Schema n)} {field : String × Schema n}

/-- What occurs in a field of an object occurs in the fields of the object. -/
theorem mem_memberOccurrences_of_member (scope : List String) (h : field ∈ members)
    {occurrence : Occurrence n}
    (hmem : occurrence ∈ occurrences ⟨field.1, scope, false, false⟩ field.2) :
    occurrence ∈ memberOccurrences scope members := by
  rw [memberOccurrences_eq_flatMap]
  exact List.mem_flatMap.2 ⟨_, List.mem_map_of_mem h, hmem⟩

/-- What occurs in a field of any object in an object occurs in the fields of the latter, under some
scope. -/
theorem exists_scope_of_mem_allFields (scope : List String)
    (h : field ∈ (Schema.object members).allFields) :
    ∃ inner, ∀ occurrence ∈ occurrences ⟨field.1, inner, false, false⟩ field.2,
      occurrence ∈ memberOccurrences scope members := by
  obtain ⟨fields, hfields, hfield⟩ := Schema.mem_allFields_iff.1 h
  rcases List.mem_cons.1 hfields with hself | hinside
  · rw [← Schema.object.inj hself]
    exact ⟨scope, fun _ => mem_memberOccurrences_of_member scope hfield⟩
  · obtain ⟨place, hupper⟩ := exists_object_iff.2 (Schema.mem_map_fieldPositions_iff.1 hinside)
    exact ⟨place.inner, fun _ hlower => mem_memberOccurrences_of_inside hupper
      (mem_memberOccurrences_of_member place.inner hfield hlower)⟩

theorem leadingFields_of_not_qualify (h : namer.qualify = false) :
    leadingFields namer scope members = (Schema.object members).allFields := by
  rw [leadingFields, h, if_neg Bool.false_ne_true]

theorem leadingFields_of_qualify (h : namer.qualify = true) :
    leadingFields namer [] members = members := by
  rw [leadingFields, h, if_pos rfl, if_pos rfl]

/-- What occurs in a field whose key is the first one in names occurs in the fields of the object,
under a scope that plays no part in the names. -/
theorem exists_scope_of_mem_leadingFields (h : field ∈ leadingFields namer scope members) :
    ∃ inner, (∀ occurrence ∈ occurrences ⟨field.1, inner, false, false⟩ field.2,
      occurrence ∈ memberOccurrences scope members) ∧
        ∀ key, namer.nameFor key inner = namer.lead ++ Naming.typeName key := by
  cases hqualify : namer.qualify with
  | false =>
    rw [leadingFields_of_not_qualify hqualify] at h
    obtain ⟨inner, hinner⟩ := exists_scope_of_mem_allFields scope h
    exact ⟨inner, hinner, fun key => Namer.nameFor_unqualified hqualify key inner⟩
  | true =>
    cases scope with
    | nil =>
      rw [leadingFields_of_qualify hqualify] at h
      exact ⟨[], fun _ => mem_memberOccurrences_of_member [] h, Namer.nameFor_nil namer⟩
    | cons outer more =>
      rw [leadingFields, hqualify, if_pos rfl, if_neg (List.cons_ne_nil _ _)] at h
      cases h

/-- Where nothing stands in front of names, something in a nameless field whose key is the first one
in names has an empty name. -/
theorem exists_empty_name (hlead : namer.lead = "") (h : field ∈ leadingFields namer scope members)
    (hnameless : IsNameless field) :
    ∃ occurrence ∈ memberOccurrences scope members, (occurrence.definition namer).name = "" := by
  obtain ⟨hlone, hsequence, hdefined⟩ := hnameless
  obtain ⟨inner, hinner, hname⟩ := exists_scope_of_mem_leadingFields h
  obtain ⟨occurrence, hoccurrence, hkey, hscope⟩ :=
    exists_occurrence_of_innermost ⟨field.1, inner, false, false⟩ hdefined
  refine ⟨occurrence, hinner occurrence hoccurrence, ?_⟩
  rw [Occurrence.name_definition, hkey, hscope, hname, headWord_lone hlone hsequence, hlead]
  rfl

section Identifiers

variable (hlead : namer.lead = "" ∨ isName namer.lead = true)
  (hscope : ∀ outer ∈ scope, isName outer = true)
  (hfields : ∀ field ∈ (Schema.object members).allFields, isName field.1 = true)

include hscope hfields

/-- What is known of the fields of an object whose keys are identifiers. -/
theorem isKeyed_of_member {member : String × Schema n} (hmember : member ∈ members) :
    IsKeyed namer (∃ field ∈ leadingFields namer scope members, IsNameless field) scope member.1
      member.2 := by
  have hinner := Schema.allFields_subset (Schema.mem_subschemas_of_mem_members hmember)
  have hmem := Schema.mem_allFields_object hmember
  have hname := hfields member hmem
  refine ⟨(isName_iff.1 hname).2, fun outer houter => (isName_iff.1 (hscope outer houter)).2,
    fun field hfield => hfields field (hinner hfield), ?_, ?_⟩
  · intro hempty hhead hdefined
    obtain ⟨hlone, hsequence⟩ := (headWord_eq_empty_iff hname).1 hhead
    refine ⟨member, ?_, hlone, hsequence, hdefined⟩
    cases hqualify : namer.qualify with
    | false =>
      rw [leadingFields_of_not_qualify hqualify]
      exact hmem
    | true =>
      -- no key of the scope is empty, so that there is none
      cases scope with
      | nil =>
        rw [leadingFields_of_qualify hqualify]
        exact hmember
      | cons outer more =>
        exact absurd (hempty hqualify outer List.mem_cons_self)
          (isName_iff.1 (hscope outer List.mem_cons_self)).1
  · intro hqualify field hfield hnameless
    refine ⟨field, ?_, hnameless⟩
    rw [leadingFields_of_not_qualify hqualify]
    exact hinner hfield

include hlead

/-- The names of what occurs in an object whose keys are identifiers are identifiers or empty. -/
theorem isName_or_empty {occurrence : Occurrence n}
    (h : occurrence ∈ memberOccurrences scope members) :
    isName (occurrence.definition namer).name = true ∨
      ((occurrence.definition namer).name = "" ∧ namer.lead = "" ∧
        ∃ field ∈ leadingFields namer scope members, IsNameless field) := by
  have hkeyed : occurrence.IsKeyed namer
      (∃ field ∈ leadingFields namer scope members, IsNameless field) :=
    isKeyed_of_mem_memberOccurrences scope members
      (fun _ hmember => isKeyed_of_member hscope hfields hmember) occurrence h
  have hdefined : occurrence.schema.isDefined = true := by cases occurrence <;> rfl
  have hempty : IsNameOrEmpty namer.lead.toList := by
    rcases hlead with hnone | hname
    · rw [hnone]
      exact .nil
    · exact (isName_iff.1 hname).2
  rw [Occurrence.name_definition]
  exact hkeyed.isName_nameFor hdefined hempty

/-- All names are identifiers exactly if there is a text in front of them, or no nameless field has
the first key in names. -/
theorem forall_isName_iff :
    (∀ occurrence ∈ memberOccurrences scope members,
        isName (occurrence.definition namer).name = true) ↔
      ¬(namer.lead = "" ∧ ∃ field ∈ leadingFields namer scope members, IsNameless field) := by
  constructor
  · rintro hnames ⟨hnone, field, hfield, hnameless⟩
    obtain ⟨occurrence, hoccurrence, hempty⟩ := exists_empty_name hnone hfield hnameless
    exact (isName_iff.1 (hnames occurrence hoccurrence)).1 hempty
  · intro hsafe occurrence hoccurrence
    rcases isName_or_empty hlead hscope hfields hoccurrence with hname | ⟨-, hnameless⟩
    · exact hname
    · exact absurd hnameless hsafe

end Identifiers

end Occurrences

end Nameless

end Outline

namespace Session

open Naming (isName)
open Outline (IsNameless leadingFields memberOccurrences partFields typeNames)

variable {objects : Objects n} {namer : Namer} {scope : List String} {schema : Schema n}
  {fields : List NumberedField}

/-- Where an object compiles in a session, it stands for a tree, and the definitions of what occurs
in the tree are made. The types that the fields of their messages refer to, and those that the
yielded fields refer to, have the names of such definitions. If all keys are identifiers, these names
are identifiers or empty; and all of them are identifiers exactly if there is a text in front of them
or no field with the first key in names is a sequence of messages or enums under the key `s` or
`S`. -/
theorem compileObject_typeNames (session : Session n)
    (hlead : namer.lead = "" ∨ isName namer.lead = true)
    (hscope : ∀ outer ∈ scope, isName outer = true)
    (h : (session.compileObject objects namer scope schema).outcome = .ok fields) :
    ∃ members definitions,
      Schema.Unfolds (Schema.expandShared objects (OpenObject.indices session.path)) schema
        (.object members) ∧
      definitions = (memberOccurrences scope members).map (·.definition namer) ∧
      (session.compileObject objects namer scope schema).session.definitions =
        session.definitions.addAll definitions ∧
      typeNames fields ⊆ definitions.map (·.name) ∧
      (∀ occurrence ∈ memberOccurrences scope members, ∀ name lines,
        occurrence.definition namer = .message name lines →
          ∃ numbered, numbered = NumberedField.consecutive 1 (partFields namer occurrence.parts) ∧
            lines = numbered.map (·.line) ∧ typeNames numbered ⊆ definitions.map (·.name)) ∧
      ((∀ field ∈ (Schema.object members).allFields, isName field.1 = true) →
        (∀ definition ∈ definitions, isName definition.name = true ∨ definition.name = "") ∧
        ((∀ definition ∈ definitions, isName definition.name = true) ↔
          ¬(namer.lead = "" ∧ ∃ field ∈ leadingFields namer scope members, IsNameless field))) := by
  have houtcome : (ProtoSchema.compileObject objects namer session.path scope schema).outcome =
      .ok fields := h
  obtain ⟨tree, htree⟩ := Compile.expand_of_compileObject houtcome
  obtain ⟨members, rfl, hoffence, hyields, hevents⟩ := Compile.outline_of_ok htree houtcome
  have hmapped : ∀ part ∈ (Schema.object members).subschemas, part.isUnmapped = false := by
    intro part hpart
    rcases List.mem_cons.1 hpart with rfl | hinside
    · rfl
    · obtain ⟨position, hposition, rfl⟩ := List.mem_map.1 hinside
      have hclear := Schema.firstOffence_eq_none_iff.1 hoffence position hposition
      exact (Bool.or_eq_false_iff.1 hclear).1
  refine ⟨members, _, htree, rfl, ?_, ?_, ?_, ?_⟩
  · change (session.definitions.recordAll
      (ProtoSchema.compileObject objects namer session.path scope schema).events).1 = _
    rw [Definitions.recordAll_eq_addAll, hevents]
  · intro name hname
    rw [hyields] at hname
    obtain ⟨occurrence, hoccurrence, rfl⟩ :=
      Outline.exists_occurrence_of_mem_objectFields hmapped hname
    exact List.mem_map_of_mem (List.mem_map_of_mem hoccurrence)
  · intro occurrence hoccurrence name lines hdefinition
    refine ⟨_, rfl, Outline.lines_definition hdefinition, fun type htype => ?_⟩
    obtain ⟨inner, hinner, rfl⟩ :=
      Outline.exists_occurrence_of_mem_lines hmapped hoccurrence htype
    exact List.mem_map_of_mem (List.mem_map_of_mem hinner)
  · intro hfields
    simp only [List.forall_mem_map]
    refine ⟨fun occurrence hoccurrence => ?_, Outline.forall_isName_iff hlead hscope hfields⟩
    exact (Outline.isName_or_empty hlead hscope hfields hoccurrence).imp_right And.left

/-- The fields of an object with a sequence of messages in which `s` is the key of a map. -/
def herd : List (String × Schema 0) :=
  [("classes", .array (.enumeration [.text "CALF", .text "COW"])),
    ("oxen", .optional (.set (.object [("s", .map .string (.tuple [.boolean]))])))]

/-- All names of what occurs in it are identifiers. -/
theorem compileObject_typeNames_herd :
    ∃ fields definitions,
      (({} : Session 0).compileObject Schema.noObjects {} [] (.object herd)).outcome = .ok fields ∧
      (({} : Session 0).compileObject Schema.noObjects {} [] (.object herd)).session.definitions =
        Definitions.empty.addAll definitions ∧
      definitions.map (·.name) = ["Class", "SValue", "Ox"] ∧
      typeNames fields ⊆ ["Class", "SValue", "Ox"] ∧
      ∀ definition ∈ definitions, isName definition.name = true := by
  obtain ⟨fields, hfields⟩ : ∃ fields,
      (({} : Session 0).compileObject Schema.noObjects {} [] (.object herd)).outcome = .ok fields :=
    ⟨_, rfl⟩
  obtain ⟨members, definitions, htree, rfl, hdefinitions, htypes, -, hnames⟩ :=
    compileObject_typeNames {} (.inl rfl) (List.forall_mem_nil _) hfields
  have hmembers : some (Schema.object herd) = some (.object members) :=
    Schema.expandWith_of_unfolds htree
  cases hmembers
  have hlist : ((memberOccurrences [] herd).map (·.definition {})).map (·.name) =
      ["Class", "SValue", "Ox"] := by decide
  refine ⟨fields, _, hfields, hdefinitions, hlist, hlist ▸ htypes, ?_⟩
  exact (hnames (by decide)).2.2 (by decide)

/-- The fields of an object with a sequence of enums under the key `s`. -/
def sizes : List (String × Schema 0) :=
  [("s", .array (.enumeration [.text "SMALL", .text "LARGE"]))]

/-- The enum is defined and referred to, but its name is empty. -/
theorem compileObject_typeNames_sizes :
    (∀ field ∈ (Schema.object sizes).allFields, isName field.1 = true) ∧
      (∃ fields,
        (({} : Session 0).compileObject Schema.noObjects {} [] (.object sizes)).outcome =
          .ok fields ∧ typeNames fields = [""]) ∧
      (({} : Session 0).compileObject Schema.noObjects {} []
          (.object sizes)).session.definitions.enums.names = [""] ∧
      isName "" = false := by
  exact ⟨by decide, ⟨_, rfl, by decide⟩, by decide, by decide⟩

end Session

end ProtoSchema
