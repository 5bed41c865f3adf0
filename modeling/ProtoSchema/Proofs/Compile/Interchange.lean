import ProtoSchema.Proofs.Compile.Conservation
import ProtoSchema.Proofs.Compile.FieldTypes
import ProtoSchema.Proofs.Compile.Normalization
import ProtoSchema.Proofs.Schema.Equality

/-!
# Equal schemas can be interchanged

Schemas that are alike become the same field, so the fields of alike objects are the same up to
their order, and so are the kinds and names of what is defined for them. The order decides what
comes first, but not what comes at all. Main statement: of two equal schemas without cycles, one has
a document exactly if the other has, and then both documents define the same names, and the fields
of their root messages are the same up to order.
-/

namespace ProtoSchema

open Schema (Alike AlikeFields AlikeElements)

namespace Outline

variable {n : Nat} {a b : Schema n}

/-- Alike schemas begin with as many sequences. -/
theorem repetitions_of_alike (h : Alike a b) : repetitions a = repetitions b := by
  induction a using repetitions.induct generalizing b with
  | case1 element ih =>
    cases h with
    | array h => rw [repetitions, repetitions, ih h]
  | case2 element ih =>
    cases h with
    | set h => rw [repetitions, repetitions, ih h]
  | case3 inner ih =>
    cases h with
    | optional h => rw [repetitions, repetitions, ih h]
  | case4 inner ih =>
    cases h with
    | nullable h => rw [repetitions, repetitions, ih h]
  | case5 schema harray hset hoptional hnullable =>
    cases h with
    | array => exact (harray _ rfl).elim
    | set => exact (hset _ rfl).elim
    | optional => exact (hoptional _ rfl).elim
    | nullable => exact (hnullable _ rfl).elim
    | _ => rfl

/-- Alike schemas become fields of one type. -/
theorem fieldType_of_alike (namer : Namer) (scope : List String) (key : String) (h : Alike a b) :
    fieldType namer scope key a = fieldType namer scope key b := by
  induction key, a using fieldType.induct generalizing b with
  | case1 key inner ih =>
    cases h with
    | optional h => rw [fieldType, fieldType, ih h]
  | case2 key inner ih =>
    cases h with
    | nullable h => rw [fieldType, fieldType, ih h]
  | case3 key element ih =>
    cases h with
    | array h => rw [fieldType, fieldType, ih h]
  | case4 key element ih =>
    cases h with
    | set h => rw [fieldType, fieldType, ih h]
  | case5 key keys values hkeys hvalues =>
    cases h with
    | map h h' => rw [fieldType, fieldType, hkeys h, hvalues h']
  | case6 key schema hoptional hnullable harray hset hmap
  | case7 key schema hoptional hnullable harray hset hmap =>
    cases h with
    | optional => exact (hoptional _ rfl).elim
    | nullable => exact (hnullable _ rfl).elim
    | array => exact (harray _ rfl).elim
    | set => exact (hset _ rfl).elim
    | map => exact (hmap _ _ rfl).elim
    | _ => rfl

/-- Alike schemas become the same field at a place. -/
theorem descriptor_of_alike (namer : Namer) (place : Place) (h : Alike a b) :
    descriptor namer place a = descriptor namer place b := by
  have hmodifiers : modifiers place.isOptional place.inArray a =
      modifiers place.isOptional place.inArray b := by
    rw [modifiers, modifiers, h.strip.isSequence_eq, h.strip.isMap_eq, h.isWrapped_eq,
      repetitions_of_alike h]
  rw [descriptor, descriptor, hmodifiers, fieldType_of_alike namer place.scope place.key h]

theorem objectFields_of_alike (namer : Namer) (scope : List String)
    {members others : List (String × Schema n)} (h : AlikeFields members others) :
    objectFields namer scope members = objectFields namer scope others := by
  induction members generalizing others with
  | nil =>
    cases h
    rfl
  | cons first rest ih =>
    cases h with
    | cons hfirst hrest =>
      have hlater := ih hrest
      unfold objectFields at hlater ⊢
      rw [List.map_cons, List.map_cons, descriptor_of_alike namer _ hfirst, hlater]

section Keys

variable (namer : Namer)

/-- The kinds and names of what occurs in a schema. -/
def keys (occurrences : List (Occurrence n)) : List (Bool × String) :=
  occurrences.map fun occurrence => (occurrence.definition namer).key

theorem keys_append (list more : List (Occurrence n)) :
    keys namer (list ++ more) = keys namer list ++ keys namer more :=
  List.map_append

/-- Fields define the same in any order. -/
theorem perm_keys_of_perm (scope : List String) {members others : List (String × Schema n)}
    (h : members.Perm others) :
    (keys namer (memberOccurrences scope members)).Perm
      (keys namer (memberOccurrences scope others)) := by
  rw [memberOccurrences_eq_flatMap, memberOccurrences_eq_flatMap]
  exact ((h.map _).flatMap_right _).map _

mutual

/-- What occurs in alike schemas has the same kinds and names, up to their order. -/
theorem perm_keys_of_alike : ∀ {a b : Schema n} (place : Place), Alike a b →
    (keys namer (occurrences place a)).Perm (keys namer (occurrences place b))
  | _, _, place, .optional h => perm_keys_of_alike { place with isOptional := true } h
  | _, _, place, .nullable h => perm_keys_of_alike { place with isOptional := true } h
  | _, _, place, .array h =>
    perm_keys_of_alike ⟨Singular.singular place.key, place.scope, false, true⟩ h
  | _, _, place, .set h =>
    perm_keys_of_alike ⟨Singular.singular place.key, place.scope, false, true⟩ h
  | _, _, place, .map hkey hvalue => by
    rw [occurrences_map, occurrences_map, keys_append, keys_append]
    exact (perm_keys_of_alike _ hkey).append (perm_keys_of_alike _ hvalue)
  | _, _, place, .object hmembers hperm => by
    rw [occurrences_object, occurrences_object, keys_append, keys_append]
    exact ((perm_keys_of_alikeFields place.inner hmembers).trans
      (perm_keys_of_perm namer place.inner hperm)).append (.refl _)
  | _, _, place, .tuple helements => by
    rw [occurrences_tuple, occurrences_tuple, keys_append, keys_append]
    exact (perm_keys_of_alikeElements place 0 helements).append (.refl _)
  | _, _, _, .enumeration _ _ => .refl _
  | _, _, _, .shared _ => .refl _
  | _, _, _, .string => .refl _
  | _, _, _, .boolean => .refl _
  | _, _, _, .date => .refl _
  | _, _, _, .bigInt => .refl _
  | _, _, _, .number _ => .refl _
  | _, _, _, .unknown _ => .refl _
  | _, _, _, .foreign _ => .refl _

theorem perm_keys_of_alikeFields : ∀ {members others : List (String × Schema n)}
    (scope : List String), AlikeFields members others →
      (keys namer (memberOccurrences scope members)).Perm
        (keys namer (memberOccurrences scope others))
  | _, _, _, .nil => .refl _
  | _, _, scope, .cons hfirst hrest => by
    rw [memberOccurrences, memberOccurrences, keys_append, keys_append]
    exact (perm_keys_of_alike _ hfirst).append (perm_keys_of_alikeFields scope hrest)

theorem perm_keys_of_alikeElements : ∀ {elements others : List (Schema n)} (place : Place)
    (position : Nat), AlikeElements elements others →
      (keys namer (elementOccurrences place position elements)).Perm
        (keys namer (elementOccurrences place position others))
  | _, _, _, _, .nil => .refl _
  | _, _, place, position, .cons hfirst hrest => by
    rw [elementOccurrences, elementOccurrences, keys_append, keys_append]
    exact (perm_keys_of_alike _ hfirst).append
      (perm_keys_of_alikeElements place (position + 1) hrest)

end

end Keys

section Root

variable {options : Options} {members others : List (String × Schema n)}

/-- The fields of alike objects are the same, up to their order. -/
theorem perm_objectFields_of_alike (namer : Namer) (scope : List String)
    (h : Alike (.object members) (.object others)) :
    (objectFields namer scope members).Perm (objectFields namer scope others) := by
  cases h with
  | object hmembers hperm =>
    rw [objectFields_of_alike namer scope hmembers]
    exact hperm.map _

theorem map_key_definitions (options : Options) (members : List (String × Schema n)) :
    (definitions options members).map (·.key) =
      keys options.namer (memberOccurrences [] members) ++ [(true, rootName options)] := by
  rw [definitions, List.map_append, List.map_map]
  rfl

/-- The definitions of alike objects have the same kinds and names, up to their order. -/
theorem perm_key_definitions_of_alike (options : Options)
    (h : Alike (.object members) (.object others)) :
    ((definitions options members).map (·.key)).Perm
      ((definitions options others).map (·.key)) := by
  rw [map_key_definitions, map_key_definitions]
  cases h with
  | object hmembers hperm =>
    exact ((perm_keys_of_alikeFields options.namer [] hmembers).trans
      (perm_keys_of_perm options.namer [] hperm)).append (.refl _)

/-- The documents of alike objects define the same messages and the same enums. -/
theorem mem_keys_iff_of_alike (options : Options) (h : Alike (.object members) (.object others))
    (key : Bool × String) :
    key ∈ (Definitions.ofList (definitions options members)).keys ↔
      key ∈ (Definitions.ofList (definitions options others)).keys := by
  rw [Definitions.mem_keys_ofList, Definitions.mem_keys_ofList,
    (perm_key_definitions_of_alike options h).mem_iff]

end Root

end Outline

namespace Source

variable {n : Nat} {objects : Objects n} {options : Options}

/-- A graph that stands for a finite tree has a document exactly if nothing in the tree is in the
way. -/
theorem exists_document_iff {schema : Schema n} {tree : Schema 0}
    (htree : schema.expand objects = some tree) :
    (∃ text, ((Source.schema ⟨n, objects, schema⟩).generate options).document = .ok text) ↔
      tree.refusal = none := by
  have houtcome := outcome_schema ⟨n, objects, schema⟩ options htree
  rw [← Compile.verdict_eq_ok_iff, ← houtcome]
  cases ((Source.schema ⟨n, objects, schema⟩).generate options).document with
  | ok text => exact ⟨fun _ => rfl, fun _ => ⟨text, rfl⟩⟩
  | error cause =>
    constructor
    · rintro ⟨text, htext⟩
      cases htext
    · intro h
      cases h

/-- That the root object of a schema compiles into fields, and the root message of its document has
their lines, numbered in a row. -/
structure HasRoot (objects : Objects n) (schema : Schema n) (options : Options)
    (fields : List FieldDescriptor) : Prop where
  outcome_eq : (compileObject objects options.namer [] [] schema.strip).outcome =
    .ok (NumberedField.consecutive 1 fields)
  lookup_eq :
    ((Source.schema ⟨n, objects, schema⟩).generate options).definitions.messages.entries.lookup
        (options.namer.rootName options.rootMessage) =
      some ((NumberedField.consecutive 1 fields).map (·.line))

/-- Where a graph that stands for a finite tree has a document, the root message has the fields of
the tree, and what is defined are the definitions of the tree. -/
theorem outline_of_expand {schema : Schema n} {tree : Schema 0}
    (htree : schema.expand objects = some tree)
    (h : ∃ text, ((Source.schema ⟨n, objects, schema⟩).generate options).document = .ok text) :
    ∃ members, tree.strip = .object members ∧
      HasRoot objects schema options (Outline.objectFields options.namer [] members) ∧
      ((Source.schema ⟨n, objects, schema⟩).generate options).definitions =
        Definitions.ofList (Outline.definitions options members) := by
  obtain ⟨text, htext⟩ := h
  have hgenerate : (Source.schema ⟨n, objects, schema⟩).generate options =
      ProtoSchema.generate Schema.noObjects tree options := by
    rw [generate_schema, Compile.generate_of_expand options htree]
  have hcompiles := htext
  rw [generate_schema] at hcompiles
  obtain ⟨fields, hfields⟩ := Generation.exists_fields_of_document hcompiles
  have hunfolds : Schema.Unfolds (Schema.expandShared objects []) schema.strip tree.strip :=
    (Schema.unfolds_of_expandWith htree).strip fun _ _ => Schema.isWrapped_of_expandShared
  obtain ⟨members, hmembers, -, rfl, -⟩ := Compile.outline_of_ok hunfolds hfields
  rw [hgenerate] at htext
  obtain ⟨same, hsame, hdefinitions⟩ := Generation.definitions_tree htext
  rw [hmembers] at hsame
  cases hsame
  rw [← hgenerate] at hdefinitions
  refine ⟨members, hmembers, ⟨hfields, ?_⟩, hdefinitions⟩
  rw [hdefinitions]
  exact Outline.lookup_rootName options members

/-- Schemas without cycles that a comparison of any depth finds equal can be interchanged: one has a
document exactly if the other has, whatever the options, and then both documents define the same
messages and the same enums by name, and the fields of the two root messages, with their modifiers,
types and names, are the same up to their order. -/
theorem generate_of_equal (objects : Objects n) {a b : Schema n} {depth : Nat} (options : Options)
    (hkeys : a.KeysDistinct objects) (ha : a.IsAcyclic objects) (hb : b.IsAcyclic objects)
    (hequal : Schema.equalWithin objects depth a b = some true) :
    ((∃ text, ((Source.schema ⟨n, objects, a⟩).generate options).document = .ok text) ↔
        ∃ text, ((Source.schema ⟨n, objects, b⟩).generate options).document = .ok text) ∧
      ((∃ text, ((Source.schema ⟨n, objects, a⟩).generate options).document = .ok text) →
        (∀ name,
          name ∈ ((Source.schema ⟨n, objects, a⟩).generate options).definitions.messages.names ↔
            name ∈ ((Source.schema ⟨n, objects, b⟩).generate options).definitions.messages.names) ∧
        (∀ name,
          name ∈ ((Source.schema ⟨n, objects, a⟩).generate options).definitions.enums.names ↔
            name ∈ ((Source.schema ⟨n, objects, b⟩).generate options).definitions.enums.names) ∧
        ∃ fields others, HasRoot objects a options fields ∧ HasRoot objects b options others ∧
          fields.Perm others) := by
  obtain ⟨tree, hcopy⟩ := Schema.exists_isCopy ha
  obtain ⟨other, hotherCopy⟩ := Schema.exists_isCopy hb
  have htree := Schema.expand_of_isCopy ha hcopy
  have hother := Schema.expand_of_isCopy hb hotherCopy
  have halike : Alike tree other := Schema.alike_of_expand hkeys hequal htree hother
  have haccepted :
      (∃ text, ((Source.schema ⟨n, objects, a⟩).generate options).document = .ok text) ↔
        ∃ text, ((Source.schema ⟨n, objects, b⟩).generate options).document = .ok text := by
    rw [exists_document_iff htree, exists_document_iff hother, halike.refusal_eq_none_iff]
  refine ⟨haccepted, fun hdocument => ?_⟩
  obtain ⟨members, hmembers, hfields, hdefinitions⟩ := outline_of_expand htree hdocument
  obtain ⟨others, hothers, hotherFields, hotherDefinitions⟩ :=
    outline_of_expand hother (haccepted.1 hdocument)
  -- the order of fields is all that the two root objects may still differ in
  have hroot : Alike (.object members) (.object others) := by
    rw [← hmembers, ← hothers]
    exact halike.strip
  rw [hdefinitions, hotherDefinitions]
  refine ⟨fun name => ?_, fun name => ?_, _, _, hfields, hotherFields,
    Outline.perm_objectFields_of_alike options.namer [] hroot⟩
  · rw [← Definitions.mem_keys_message, ← Definitions.mem_keys_message,
      Outline.mem_keys_iff_of_alike options hroot]
  · rw [← Definitions.mem_keys_enum, ← Definitions.mem_keys_enum,
      Outline.mem_keys_iff_of_alike options hroot]

/-- An address with a street and a level. -/
def addresses : Objects 1 := fun _ =>
  [("street", .string), ("level", .enumeration [.int 1, .text "attic"])]

/-- A visitor with an address and notes. -/
def visitor : Schema 1 :=
  .object [("home", .optional (.shared ⟨0, Nat.zero_lt_one⟩)),
    ("notes", .array (.object [("id", .number true), ("kind", .enumeration [.int 0])]))]

/-- The fields of a visitor in another order, with a copy of the address. -/
def reordered : List (String × Schema n) :=
  [("notes", .array (.object [("kind", .enumeration [.bool false]), ("id", .number true)])),
    ("home", .optional (.object [("level", .enumeration [.bool true, .text "attic"]),
      ("street", .string)]))]

/-- The order of the fields makes no difference to what is defined. -/
theorem generate_of_equal_visitor :
    Schema.equalOver addresses visitor (.object reordered) = some true ∧
      (∃ text, ((Source.schema ⟨1, addresses, visitor⟩).generate {}).document = .ok text) ∧
      (∀ name,
        name ∈ ((Source.schema ⟨1, addresses, visitor⟩).generate {}).definitions.messages.names ↔
          name ∈ ["Note", "Home", "Message"]) ∧
      ∀ name,
        name ∈ ((Source.schema ⟨1, addresses, visitor⟩).generate {}).definitions.enums.names ↔
          name ∈ ["Kind", "Level"] := by
  have hequal : Schema.equalOver addresses visitor (.object reordered) = some true := by decide
  have hkeys : visitor.KeysDistinct addresses := ⟨by decide, by decide⟩
  have hleads : ∀ index, ∀ next ∈ Schema.fieldReferences (addresses index), index < next := by
    decide
  have htree : (Schema.object reordered).expand addresses = some (.object reordered) := rfl
  obtain ⟨haccepted, hsame⟩ := generate_of_equal addresses {} hkeys
    (Schema.isAcyclic_of_lt hleads visitor) (Schema.isAcyclic_of_lt hleads _) hequal
  have hdocument :
      ∃ text, ((Source.schema ⟨1, addresses, .object reordered⟩).generate {}).document = .ok text :=
    (exists_document_iff htree).2 (by decide)
  obtain ⟨members, hmembers, -, hdefinitions⟩ := outline_of_expand htree hdocument
  cases hmembers
  obtain ⟨hmessages, henums, -⟩ := hsame (haccepted.2 hdocument)
  rw [hdefinitions] at hmessages henums
  exact ⟨hequal, haccepted.2 hdocument, hmessages, henums⟩

end Source

end ProtoSchema
