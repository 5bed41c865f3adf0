import ProtoSchema.Proofs.Compile.FieldTypes
import ProtoSchema.Proofs.Compile.Nesting
import ProtoSchema.Proofs.Schema.Alike

/-!
# Trees of words

A schema that is made of objects, enums, scalars and layers of optionality alone keeps the keys as
they are. Where they are words and no object has one of them twice, no two occurrences have the same
keys. With qualified names the keys can be read back from the names. Main statement: compiling such a
tree from the start on succeeds, and no definition overwrites another.
-/

namespace ProtoSchema

open ProtoSchema.Naming (IsWord spell)

variable {n : Nat}

namespace Outline

/-- A schema of objects, enums, scalars and layers of optionality, in which every key is a word and no
object has a key twice. -/
inductive IsWordTree : Schema n → Prop where
  /-- An object. -/
  | object {members : List (String × Schema n)} (distinct : (members.map (·.1)).Nodup)
    (words : ∀ member ∈ members, IsWord member.1)
    (inside : ∀ member ∈ members, IsWordTree member.2) : IsWordTree (.object members)
  /-- An enum. -/
  | enumeration (options : List Literal) : IsWordTree (.enumeration options)
  /-- A scalar. -/
  | scalar {schema : Schema n} {type : Scalar} (h : schema.scalar? = some type) : IsWordTree schema
  /-- A layer of optionality. -/
  | optional {inner : Schema n} (h : IsWordTree inner) : IsWordTree (.optional inner)
  /-- A layer of nullability. -/
  | nullable {inner : Schema n} (h : IsWordTree inner) : IsWordTree (.nullable inner)

/-- The keys that lead to occurrences go on from given ones with words, and no two of the occurrences
have the same keys. -/
structure AreApart (front : List String) (list : List (Occurrence n)) : Prop where
  /-- The keys go on with words. -/
  below : ∀ occurrence ∈ list, ∃ path, occurrence.keys = front ++ path ∧ ∀ word ∈ path, IsWord word
  /-- The keys are different. -/
  nodup : (list.map Occurrence.keys).Nodup

namespace AreApart

variable {front : List String} {list : List (Occurrence n)}

theorem nil (front : List String) : AreApart front ([] : List (Occurrence n)) where
  below := List.forall_mem_nil _
  nodup := List.nodup_nil

theorem single {occurrence : Occurrence n} (hkeys : occurrence.keys = front) :
    AreApart front [occurrence] where
  below := List.forall_mem_singleton.2
    ⟨[], by rw [hkeys, List.append_nil], List.forall_mem_nil _⟩
  nodup := List.nodup_singleton _

/-- One more occurrence is apart if its keys are others. -/
theorem concat (h : AreApart front list) {occurrence : Occurrence n} (hkeys : occurrence.keys = front)
    (hnew : ∀ other ∈ list, other.keys ≠ front) : AreApart front (list ++ [occurrence]) where
  below := List.forall_mem_append.2 ⟨h.below, (single hkeys).below⟩
  nodup := by
    rw [List.map_append, List.map_singleton, List.nodup_append_comm]
    refine List.nodup_cons.2 ⟨fun hmem => ?_, h.nodup⟩
    obtain ⟨other, hother, hsame⟩ := List.mem_map.1 hmem
    exact hnew other hother (hsame.trans hkeys)

/-- The keys of what is apart inside a field go on from the scope with the key of the field. -/
theorem exists_keys {scope : List String} {key : String} (h : AreApart (scope ++ [key]) list)
    {occurrence : Occurrence n} (hoccurrence : occurrence ∈ list) :
    ∃ path, occurrence.keys = scope ++ key :: path ∧ ∀ word ∈ path, IsWord word := by
  obtain ⟨path, hkeys, hwords⟩ := h.below occurrence hoccurrence
  rw [List.append_assoc, List.singleton_append] at hkeys
  exact ⟨path, hkeys, hwords⟩

/-- What occurs in the fields of an object is apart if what occurs in each field is and the keys of the
fields are different words. -/
theorem members {members : List (String × Schema n)} (distinct : (members.map (·.1)).Nodup)
    (words : ∀ member ∈ members, IsWord member.1)
    (inside : ∀ member ∈ members, ∀ place : Place,
      AreApart place.inner (occurrences place member.2)) (scope : List String) :
    AreApart scope (memberOccurrences scope members) := by
  rw [memberOccurrences_eq_flatMap]
  constructor
  · intro occurrence hoccurrence
    obtain ⟨part, hpart, hoccurs⟩ := List.mem_flatMap.1 hoccurrence
    obtain ⟨member, hmember, rfl⟩ := List.mem_map.1 hpart
    obtain ⟨path, hkeys, hwords⟩ := (inside member hmember _).exists_keys hoccurs
    exact ⟨member.1 :: path, hkeys, List.forall_mem_cons.2 ⟨words member hmember, hwords⟩⟩
  · rw [List.map_flatMap, List.nodup_flatMap]
    constructor
    · intro part hpart
      obtain ⟨member, hmember, rfl⟩ := List.mem_map.1 hpart
      exact (inside member hmember _).nodup
    · -- the keys of different fields part right behind the scope
      refine List.pairwise_map.2 ((List.pairwise_map.1 distinct).imp_of_mem ?_)
      intro first second hfirst hsecond hne keys hkeys hother
      obtain ⟨one, hone, rfl⟩ := List.mem_map.1 hkeys
      obtain ⟨two, htwo, hsame⟩ := List.mem_map.1 hother
      obtain ⟨path, hpath, -⟩ := (inside first hfirst _).exists_keys hone
      obtain ⟨other, hother, -⟩ := (inside second hsecond _).exists_keys htwo
      rw [hpath, hother] at hsame
      exact hne (List.cons.inj (List.append_cancel_left hsame)).1.symm

/-- Where names are qualified, the definitions of what is apart have different names. -/
theorem nodup_names (h : AreApart front list) {namer : Namer} (hqualify : namer.qualify = true) :
    ((list.map (·.definition namer)).map Definition.name).Nodup := by
  rw [List.map_map]
  refine List.pairwise_map.2 ((List.pairwise_map.1 h.nodup).imp_of_mem ?_)
  intro first second hfirst hsecond hne hname
  obtain ⟨path, hkeys, hwords⟩ := h.below first hfirst
  obtain ⟨other, hother, hwords'⟩ := h.below second hsecond
  have hspell : namer.lead.toList ++ spell first.keys = namer.lead.toList ++ spell second.keys :=
    (toList_name hqualify first).symm.trans
      ((congrArg String.toList hname).trans (toList_name hqualify second))
  rw [hkeys, hother, Naming.spell_append, Naming.spell_append] at hspell
  have hpaths : path = other := Naming.spell_injective hwords hwords'
    (List.append_cancel_left (List.append_cancel_left hspell))
  exact hne (by rw [hkeys, hother, hpaths])

end AreApart

namespace IsWordTree

variable {schema : Schema n}

/-- The schema is accepted, wherever it stands. -/
theorem isAccepted (h : IsWordTree schema) : schema.isAccepted = true := by
  induction h with
  | object distinct words inside ih =>
    rw [Schema.isAccepted_object, Schema.isClear_fieldPositions, List.all_eq_true]
    exact ih
  | enumeration options => rfl
  | @scalar schema type h => cases schema <;> first | rfl | cases h
  | optional h ih => rwa [Schema.isAccepted_optional]
  | nullable h ih => rwa [Schema.isAccepted_nullable]

/-- What occurs in the schema is apart. -/
theorem areApart (h : IsWordTree schema) (place : Place) :
    AreApart place.inner (occurrences place schema) := by
  induction h generalizing place with
  | @object members distinct words inside ih =>
    have hmembers := AreApart.members distinct words ih place.inner
    exact hmembers.concat rfl fun _ hoccurrence => keys_ne_of_mem_memberOccurrences hoccurrence
  | enumeration options => exact .single rfl
  | @scalar schema type h =>
    have hnone : occurrences place schema = [] := by cases schema <;> first | rfl | cases h
    rw [hnone]
    exact .nil _
  | optional h ih => exact ih { place with isOptional := true }
  | nullable h ih => exact ih { place with isOptional := true }

/-- What occurs in the fields of an object is apart inside any scope. -/
theorem areApart_members {members : List (String × Schema n)} (h : IsWordTree (.object members))
    (scope : List String) : AreApart scope (memberOccurrences scope members) := by
  cases h with
  | object distinct words inside =>
    exact .members distinct words (fun member hmember => (inside member hmember).areApart) scope
  | scalar h => cases h

end IsWordTree

end Outline

namespace Compile

open Schema (Unfolds expandShared)

variable {objects : Objects n} {path : List (OpenObject n)} {schema : Schema n} {tree : Schema 0}
  {members : List (String × Schema 0)}

/-- What stands for an accepted tree compiles at any place, and makes the definitions of what occurs in
the tree. -/
theorem compileField_of_isAccepted (namer : Namer)
    (htree : Unfolds (expandShared objects (OpenObject.indices path)) schema tree)
    (h : tree.isAccepted = true) (place : Place) :
    (compileField objects namer path place schema).outcome =
        .ok [Outline.descriptor namer place tree] ∧
      (compileField objects namer path place schema).events.filterMap Event.definition? =
        (Outline.occurrences place tree).map (·.definition namer) := by
  let unused : SharedCompiler 0 := fun _ _ index => index.elim0
  have hclear := Schema.isClear_iff.1 h
  rw [compileField_of_unfolds (fun _ hi => hi) place htree unused]
  constructor
  · rw [outcome_field, hclear]
    rfl
  · rw [events_field unused namer [] place hclear, Outline.filterMap_reports]

/-- What stands for an accepted object compiles for its fields, and makes the definitions of what occurs
in them. -/
theorem compileObject_of_isAccepted (namer : Namer)
    (htree : Unfolds (expandShared objects (OpenObject.indices path)) schema (.object members))
    (h : (Schema.object members).isAccepted = true) (scope : List String) :
    (compileObject objects namer path scope schema).outcome =
        .ok (NumberedField.consecutive 1 (Outline.objectFields namer scope members)) ∧
      (compileObject objects namer path scope schema).events.filterMap Event.definition? =
        (Outline.memberOccurrences scope members).map (·.definition namer) := by
  rw [Schema.isAccepted_object, Schema.isClear_iff] at h
  rw [compileObject_of_unfolds (fun _ hi => hi) scope htree, compileObject_accepted h]
  refine ⟨rfl, ?_⟩
  rw [List.filterMap_append, Outline.filterMap_reports]
  exact List.append_nil _

end Compile

/-- A call that starts from no definitions makes those of a list, and none of them overwrites another:
all have different names, there is no warning, and the messages and the enums are kept in order. -/
structure Reply.Keeps {α : Type} (reply : Reply n α) (made : List Definition) : Prop where
  /-- No two definitions have one name. -/
  distinct : (made.map Definition.name).Nodup
  /-- There is no warning. -/
  quiet : LogEntry.shown false reply.log = []
  /-- All messages are kept. -/
  messages : reply.session.definitions.messages.entries = made.filterMap Definition.message?
  /-- All enums are kept. -/
  enums : reply.session.definitions.enums.entries = made.filterMap Definition.enumeration?

namespace Session

open Outline (IsWordTree descriptor objectFields occurrences memberOccurrences)

/-- Definitions of different names are kept when they are made from the start on. -/
theorem keeps_absorb {α : Type} {compilation : Compilation α} {made : List Definition}
    (hmade : compilation.events.filterMap Event.definition? = made)
    (hdistinct : (made.map Definition.name).Nodup) :
    (({} : Session n).absorb compilation).Keeps made := by
  have hkeys := (Definitions.nodup_name_iff.1 hdistinct).1
  have hdefinitions : (({} : Session n).absorb compilation).session.definitions =
      Definitions.ofList made := by
    rw [← hmade]
    exact Definitions.recordAll_empty compilation.events
  have hwarnings : LogEntry.shown false (({} : Session n).absorb compilation).log =
      Definitions.warnings [] made := by
    rw [← hmade]
    exact Definitions.shown_recordAll_ofList [] compilation.events
  refine ⟨hdistinct, ?_, ?_, ?_⟩
  · rwa [hwarnings, Definitions.warnings_nil_iff]
  · rw [hdefinitions, Definitions.entries_messages hkeys]
  · rw [hdefinitions, Definitions.entries_enums hkeys]

/-- With qualified names, the keys that lead to a field can be read back from its name if all of them
are words. So whatever stands for a tree of objects, enums, scalars and layers of optionality, with
words for keys, compiles from the start on without overwriting anything: as a field at any place, and
as an object for its fields inside any scope. -/
theorem qualified_words_distinct {namer : Namer} (hqualify : namer.qualify = true) :
    (∀ (scope others : List String) (key other : String),
        (∀ word ∈ scope ++ [key], IsWord word) → (∀ word ∈ others ++ [other], IsWord word) →
          namer.nameFor key scope = namer.nameFor other others → scope = others ∧ key = other) ∧
      ∀ {n : Nat} (objects : Objects n) (schema : Schema n) (tree : Schema 0),
        schema.expand objects = some tree → IsWordTree tree →
          (∀ place : Place,
            (({} : Session n).compileField objects namer place schema).outcome =
                .ok [descriptor namer place tree] ∧
              (({} : Session n).compileField objects namer place schema).Keeps
                ((occurrences place tree).map (·.definition namer))) ∧
          ∀ (scope : List String) (members : List (String × Schema 0)), tree = .object members →
            (({} : Session n).compileObject objects namer scope schema).outcome =
                .ok (NumberedField.consecutive 1 (objectFields namer scope members)) ∧
              (({} : Session n).compileObject objects namer scope schema).Keeps
                ((memberOccurrences scope members).map (·.definition namer)) := by
  refine ⟨fun scope others key other => Namer.eq_of_nameFor_eq hqualify, ?_⟩
  intro n objects schema tree hexpand hwords
  have htree : Schema.Unfolds
      (Schema.expandShared objects (OpenObject.indices (({} : Session n).path))) schema tree :=
    Schema.unfolds_of_expandWith hexpand
  constructor
  · intro place
    obtain ⟨houtcome, hmade⟩ :=
      Compile.compileField_of_isAccepted namer htree hwords.isAccepted place
    exact ⟨houtcome, keeps_absorb hmade ((hwords.areApart place).nodup_names hqualify)⟩
  · rintro scope members rfl
    obtain ⟨houtcome, hmade⟩ :=
      Compile.compileObject_of_isAccepted namer htree hwords.isAccepted scope
    exact ⟨houtcome, keeps_absorb hmade ((hwords.areApart_members scope).nodup_names hqualify)⟩

/-- An address is an object with a street and a kind. -/
def orderObjects : Objects 1 := fun _ =>
  [("straße", .string), ("kind", .enumeration [.text "HOME", .text "WORK"])]

/-- An order refers to addresses twice, and has keys whose letters make one word in three ways. -/
def order : Schema 1 :=
  let address : Schema 1 := .shared ⟨0, Nat.zero_lt_one⟩
  .object [("billing", .optional address), ("shipping", .nullable address),
    ("kind", .enumeration [.text "RUSH"]), ("k", .object [("ind", .enumeration [.text "ONE"])]),
    ("ki", .object [("nd", .enumeration [.text "TWO"])])]

/-- The tree that an address stands for. -/
def address : Schema 0 :=
  .object [("straße", .string), ("kind", .enumeration [.text "HOME", .text "WORK"])]

/-- The fields of the tree that an order stands for. -/
def orderFields : List (String × Schema 0) :=
  [("billing", .optional address), ("shipping", .nullable address),
    ("kind", .enumeration [.text "RUSH"]), ("k", .object [("ind", .enumeration [.text "ONE"])]),
    ("ki", .object [("nd", .enumeration [.text "TWO"])])]

/-- An order stands for that tree. -/
theorem expand_order : order.expand orderObjects = some (.object orderFields) := by
  have haddress : ∀ index, Schema.expandShared orderObjects [] index = some address := by
    intro index
    rw [Schema.expandShared, dif_neg List.not_mem_nil]
    rfl
  simp [Schema.expand, order, orderFields, Schema.expandWith, Schema.expandFields, haddress]

theorem isWordTree_order : IsWordTree (.object orderFields) := by
  have hobject : ∀ (key : String) (options : List Literal), IsWord key →
      IsWordTree (.object [(key, (.enumeration options : Schema 0))]) := by
    intro key options hkey
    refine .object (List.nodup_singleton _) (List.forall_mem_singleton.2 hkey) ?_
    exact List.forall_mem_singleton.2 (.enumeration options)
  have haddress : IsWordTree address := by
    refine .object (by decide) (by decide +kernel) ?_
    exact List.forall_mem_cons.2 ⟨.scalar rfl, List.forall_mem_singleton.2 (.enumeration _)⟩
  refine .object (by decide) (by decide +kernel) ?_
  simp only [orderFields, List.forall_mem_cons]
  exact ⟨haddress.optional, haddress.nullable, .enumeration _, hobject _ _ (by decide),
    hobject _ _ (by decide), List.forall_mem_nil _⟩

/-- All definitions of an order are kept. -/
theorem qualified_words_distinct_order :
    (⟨"Api", true⟩ : Namer).nameFor "ind" ["k"] ≠ (⟨"Api", true⟩ : Namer).nameFor "nd" ["ki"] ∧
      LogEntry.shown false
        (({} : Session 1).compileObject orderObjects ⟨"Api", true⟩ [] order).log = [] ∧
      (({} : Session 1).compileObject orderObjects ⟨"Api", true⟩ []
          order).session.definitions.messages.names =
        ["ApiBilling", "ApiShipping", "ApiK", "ApiKi"] ∧
      (({} : Session 1).compileObject orderObjects ⟨"Api", true⟩ []
          order).session.definitions.enums.names =
        ["ApiBillingKind", "ApiShippingKind", "ApiKind", "ApiKInd", "ApiKiNd"] := by
  have hqualify : (⟨"Api", true⟩ : Namer).qualify = true := rfl
  obtain ⟨hread, hkeep⟩ := qualified_words_distinct hqualify
  obtain ⟨-, hkept⟩ := (hkeep orderObjects order _ expand_order isWordTree_order).2 [] _ rfl
  refine ⟨fun hsame => ?_, hkept.quiet, ?_, ?_⟩
  · have hkeys := (hread ["k"] ["ki"] "ind" "nd" (by decide) (by decide) hsame).2
    exact absurd hkeys (by decide)
  · rw [Catalogue.names, hkept.messages]
    decide
  · rw [Catalogue.names, hkept.enums]
    decide

end Session

end ProtoSchema
