import ProtoSchema.Proofs.Compile.Reference
import ProtoSchema.Proofs.Redefinition
import ProtoSchema.Proofs.WordPaths
import ProtoSchema.Session

/-!
# Qualified names

A qualified name spells the word path of the occurrence that it is made for. Where the fields of all
objects of a schema can be told apart, the paths are read back from the names, so that all
definitions have different names and none of them is replaced.
-/

namespace ProtoSchema

namespace Outline

open ProtoSchema.Naming (spell spell_append spell_cons spell_nil pascal pascal_append_of_not_mem
  IsWord)
open ProtoSchema.Singular (opensOxen opensOxen_append)

variable {n : Nat}

/-- The place of an occurrence. -/
def Occurrence.place : Occurrence n → Place
  | .object place _ => place
  | .tuple place _ => place
  | .enumeration place _ => place

/-- The name of a definition is made of the key of its occurrence. -/
theorem Occurrence.name_definition (namer : Namer) (occurrence : Occurrence n) :
    (occurrence.definition namer).name =
      namer.nameFor occurrence.place.key occurrence.place.scope := by
  cases occurrence <;> rfl

/-- The text that the keys of a place spell. -/
def Occurrence.spelling (occurrence : Occurrence n) : List Char :=
  spell occurrence.place.inner

/-- A key under a scope is spelled as a word behind a text, also if it is the key of a part of a map
or of an element of a tuple. -/
structure Reads (front : List Char) (scope : List String) (key word : String) : Prop where
  /-- The spelling is that of the word behind the text. -/
  same : spell (scope ++ [key]) = front ++ pascal true word.toList
  /-- The key is not empty. -/
  ne : key.toList ≠ []
  /-- The key has no dot. -/
  noDot : '.' ∉ key.toList
  /-- No singular changes the key once it has a position. -/
  steady : opensOxen key.toList = false

namespace Reads

variable {front : List Char} {scope : List String} {key word : String}

/-- A word stands for itself. -/
theorem of_isWord (hscope : spell scope = front) (hword : IsWord word)
    (hsteady : opensOxen word.toList = false) : Reads front scope word word where
  same := by rw [spell_append, hscope, spell_cons, spell_nil, List.append_nil]
  ne := hword.toList_ne_nil
  noDot := hword.noDot
  steady := hsteady

/-- A key may be continued by a text that has no dot and no letter of `oxen` at its start, where the
word is continued in the same way. -/
theorem extend (h : Reads front scope key word) {grown other : String} {text more : List Char}
    {c : Char} {rest : List Char} (hmore : more = c :: rest)
    (hgrown : grown.toList = key.toList ++ more) (hdot : '.' ∉ more)
    (hoxen : ∀ position ∈ Singular.spell "oxen", position.accepts c = false)
    (hother : text ++ pascal true other.toList = front ++ pascal true word.toList ++ more) :
    Reads text scope grown other where
  same := by
    have hsame := h.same
    rw [spell_append, spell_cons, spell_nil, List.append_nil] at hsame ⊢
    rw [hgrown, pascal_append_of_not_mem h.ne h.noDot hdot, ← List.append_assoc, hsame, hother]
  ne := by
    rw [hgrown]
    exact List.append_ne_nil_of_left_ne_nil h.ne _
  noDot := by
    rw [hgrown, List.mem_append]
    exact fun hmem => hmem.elim h.noDot hdot
  steady := by
    rw [hgrown, hmore]
    exact opensOxen_append h.steady hoxen

/-- The key of an element of a tuple is spelled as the word for the element. -/
theorem element (h : Reads front scope key word) (hword : IsWord word) (position : Nat) :
    Reads front scope (elementWord key position) (elementWord word position) := by
  have hdot : '.' ∉ '_' :: Nat.toDigits 10 position :=
    fun hmem => absurd (isIdentifierChar_of_mem_position hmem) (by decide)
  refine h.extend rfl (toList_elementWord key position) hdot (by decide) ?_
  rw [toList_elementWord, pascal_append_of_not_mem hword.toList_ne_nil hword.noDot hdot,
    List.append_assoc]

/-- The keys of a map are spelled as a word of their own. -/
theorem mapKey (h : Reads front scope key word) :
    Reads (front ++ pascal true word.toList) scope (key ++ "Key") "key" :=
  h.extend rfl String.toList_append (by decide) (by decide) rfl

/-- The values of a map are spelled as a word of their own. -/
theorem mapValue (h : Reads front scope key word) :
    Reads (front ++ pascal true word.toList) scope (key ++ "Value") "value" :=
  h.extend rfl String.toList_append (by decide) (by decide) rfl

/-- What stands under the key itself spells the path of the word alone. -/
theorem alone (h : Reads front scope key word) :
    [spell (scope ++ [key])] = [[word]].map (front ++ spell ·) := by
  rw [h.same, List.map_singleton, spell_cons, spell_nil, List.append_nil]

end Reads

mutual

/-- The occurrences in a schema spell the paths in it. Nothing is said of the key of a schema in which
nothing occurs, of which a singular may leave nothing. -/
theorem spelling_occurrences (front : List Char) (place : Place) (word : String) :
    ∀ (schema : Schema n), Legible word schema →
      (paths word schema ≠ [] →
        Reads front place.scope (headWord place.key schema) (headWord word schema)) →
      (occurrences place schema).map Occurrence.spelling =
        (paths word schema).map (front ++ spell ·)
  | .optional inner, h, hreads => spelling_occurrences front _ word inner h.optional hreads
  | .nullable inner, h, hreads => spelling_occurrences front _ word inner h.nullable hreads
  | .array element, h, hreads => spelling_occurrences front _ _ element h.array hreads
  | .set element, h, hreads => spelling_occurrences front _ _ element h.set hreads
  | .map key value, h, hreads => by
    -- both parts are spelled behind the word of the map
    have hkey : (occurrences ⟨place.key ++ "Key", place.scope, false, false⟩ key).map
        Occurrence.spelling = (paths "key" key).map (front ++ pascal true word.toList ++ spell ·) := by
      refine spelling_occurrences _ _ "key" key h.mapKey fun hpaths => ?_
      rw [h.headWord_mapKey, h.headWord_mapKey]
      exact (hreads (mt List.map_eq_nil_iff.1 (List.append_ne_nil_of_left_ne_nil hpaths _))).mapKey
    have hvalue : (occurrences ⟨place.key ++ "Value", place.scope, false, false⟩ value).map
        Occurrence.spelling =
          (paths "value" value).map (front ++ pascal true word.toList ++ spell ·) := by
      refine spelling_occurrences _ _ "value" value h.mapValue fun hpaths => ?_
      rw [h.headWord_mapValue, h.headWord_mapValue]
      exact (hreads (mt List.map_eq_nil_iff.1 (List.append_ne_nil_of_right_ne_nil _ hpaths))).mapValue
    rw [occurrences_map, paths_map, List.map_append, hkey, hvalue, ← List.map_append, List.map_map]
    exact List.map_congr_left fun path _ => List.append_assoc _ _ _
  | .object members, h, hreads => by
    -- the object itself occurs, so that its key is spelled, and its fields behind it
    have hself := hreads (List.append_ne_nil_of_right_ne_nil _ (List.cons_ne_nil _ _))
    have hinner := spelling_memberOccurrences _ hself.same members fun _ hmember => h.member hmember
    rw [occurrences_object, paths_object, List.map_append, List.map_append, List.map_map]
    refine congrArg₂ (· ++ ·) (hinner.trans ?_) hself.alone
    exact List.map_congr_left fun path _ => List.append_assoc _ _ _
  | .tuple elements, h, hreads => by
    have hself := hreads (List.append_ne_nil_of_right_ne_nil _ (List.cons_ne_nil _ _))
    have hinner := spelling_elementOccurrences front place word hself h.tuple.1 h.tuple.2 0 elements
      fun _ helement position => h.element helement position
    rw [occurrences_tuple, paths_tuple, List.map_append, List.map_append]
    exact congrArg₂ (· ++ ·) hinner hself.alone
  | .enumeration _, _, hreads => (hreads (List.cons_ne_nil _ _)).alone
  | .shared _, _, _ => rfl
  | .string, _, _ => rfl
  | .boolean, _, _ => rfl
  | .date, _, _ => rfl
  | .bigInt, _, _ => rfl
  | .number _, _, _ => rfl
  | .unknown _, _, _ => rfl
  | .foreign _, _, _ => rfl
termination_by structural schema => schema

/-- The occurrences in the fields of an object spell the paths in them. -/
theorem spelling_memberOccurrences (front : List Char) {scope : List String}
    (hscope : spell scope = front) : ∀ (members : List (String × Schema n)),
    (∀ member ∈ members, Legible member.1 member.2) →
      (memberOccurrences scope members).map Occurrence.spelling =
        (memberPaths members).map (front ++ spell ·)
  | [], _ => rfl
  | (key, schema) :: rest, h => by
    obtain ⟨hfirst, hrest⟩ := List.forall_mem_cons.1 h
    rw [memberOccurrences, memberPaths, List.map_append, List.map_append,
      spelling_memberOccurrences front hscope rest hrest]
    refine congrArg (· ++ _) (spelling_occurrences front _ key schema hfirst fun hpaths => ?_)
    obtain ⟨hword, hsteady⟩ := hfirst.head hpaths
    exact .of_isWord hscope hword hsteady
termination_by structural members => members

/-- The occurrences in the elements of a tuple spell the paths in them. -/
theorem spelling_elementOccurrences (front : List Char) (place : Place) (word : String)
    (hreads : Reads front place.scope place.key word) (hword : IsWord word)
    (hsteady : opensOxen word.toList = false) :
    ∀ (position : Nat) (elements : List (Schema n)),
    (∀ element ∈ elements, ∀ number, Legible (elementWord word number) element) →
      (elementOccurrences place position elements).map Occurrence.spelling =
        (elementPaths word position elements).map (front ++ spell ·)
  | _, [], _ => rfl
  | position, element :: rest, h => by
    obtain ⟨hfirst, hrest⟩ := List.forall_mem_cons.1 h
    rw [elementOccurrences, elementPaths, List.map_append, List.map_append,
      spelling_elementOccurrences front place word hreads hword hsteady (position + 1) rest hrest]
    refine congrArg (· ++ _)
      (spelling_occurrences front _ _ element (hfirst position) fun _ => ?_)
    -- a position at the end keeps the singular from changing the key and the word
    have hkey : headWord (elementPlace place position).key element =
        elementWord place.key position :=
      headWord_of_singular (singular_elementWord hreads.steady position)
    rw [hkey, headWord_of_singular (singular_elementWord hsteady position)]
    exact hreads.element hword position
termination_by structural _ elements => elements

end

section Names

variable {namer : Namer} {members : List (String × Schema n)}

/-- The name of the definition that an occurrence leads to, if names are qualified. -/
theorem toList_name (hqualify : namer.qualify = true) (occurrence : Occurrence n) :
    (occurrence.definition namer).name.toList = namer.lead.toList ++ occurrence.spelling := by
  rw [Occurrence.name_definition]
  exact Namer.toList_nameFor_of_qualify hqualify _ _

/-- Where fields can be told apart, the qualified names of all occurrences in them are different. -/
theorem nodup_names (hqualify : namer.qualify = true) (scope : List String)
    (h : ∀ member ∈ members, Legible member.1 member.2)
    (hapart : members.Pairwise fun first second =>
      ∀ head ∈ heads first.1 first.2, head ∉ heads second.1 second.2) :
    (((memberOccurrences scope members).map (·.definition namer)).map Definition.name).Nodup := by
  have hpaths : ((memberPaths members).map (spell scope ++ spell ·)).Nodup := by
    refine (nodup_memberPaths members h hapart).map_on fun path hpath other hother heq => ?_
    exact Naming.spell_injective (isWord_of_mem_memberPaths members h path hpath)
      (isWord_of_mem_memberPaths members h other hother) (List.append_cancel_left heq)
  rw [← spelling_memberOccurrences _ rfl members h] at hpaths
  have hnames : (((memberOccurrences scope members).map (·.definition namer)).map
      Definition.name).map String.toList =
        ((memberOccurrences scope members).map Occurrence.spelling).map (namer.lead.toList ++ ·) := by
    rw [List.map_map, List.map_map, List.map_map]
    exact List.map_congr_left fun occurrence _ => toList_name hqualify occurrence
  refine List.Nodup.of_map String.toList ?_
  rw [hnames]
  exact hpaths.map fun _ _ heq => List.append_cancel_left heq

end Names

end Outline

namespace Session

open Outline (memberOccurrences IsTidy Tidy Legible fields?)

variable {n : Nat} {objects : Objects n} {schema : Schema n} {tree : Schema 0} {namer : Namer}
  {scope : List String} {fields : List NumberedField}

/-- Where an object compiles from the start on, the definitions and the warnings are those of the
occurrences in the tree that it stands for. -/
theorem outline_of_compileObject (hexpand : schema.expand objects = some tree)
    (h : (({} : Session n).compileObject objects namer scope schema).outcome = .ok fields) :
    ∃ members, tree = .object members ∧
      Schema.firstOffence (Schema.fieldPositions members) = none ∧
      (({} : Session n).compileObject objects namer scope schema).session.definitions =
        Definitions.ofList ((memberOccurrences scope members).map (·.definition namer)) ∧
      LogEntry.shown false (({} : Session n).compileObject objects namer scope schema).log =
        Definitions.warnings [] ((memberOccurrences scope members).map (·.definition namer)) := by
  have htree : Schema.Unfolds
      (Schema.expandShared objects (OpenObject.indices (({} : Session n).path))) schema tree :=
    Schema.unfolds_of_expandWith hexpand
  obtain ⟨members, rfl, hoffence, -, hevents⟩ := Compile.outline_of_ok htree h
  refine ⟨members, rfl, hoffence, ?_, ?_⟩
  · rw [← hevents]
    exact Definitions.recordAll_empty _
  · rw [← hevents]
    exact Definitions.shown_recordAll_ofList [] _

/-- Compiling an object with qualified names from the start on replaces nothing where the fields of
all objects in it can be told apart: all definitions have different names, there is no warning, and
all messages and enums are kept in their order. -/
theorem qualified_names_distinct (hqualify : namer.qualify = true)
    (hexpand : schema.expand objects = some tree) (htidy : IsTidy tree)
    (h : (({} : Session n).compileObject objects namer scope schema).outcome = .ok fields) :
    ∃ members, tree = .object members ∧
      (((memberOccurrences scope members).map (·.definition namer)).map Definition.name).Nodup ∧
      LogEntry.shown false (({} : Session n).compileObject objects namer scope schema).log = [] ∧
      (({} : Session n).compileObject objects namer scope
          schema).session.definitions.messages.entries =
        ((memberOccurrences scope members).map (·.definition namer)).filterMap
          Definition.message? ∧
      (({} : Session n).compileObject objects namer scope
          schema).session.definitions.enums.entries =
        ((memberOccurrences scope members).map (·.definition namer)).filterMap
          Definition.enumeration? := by
  obtain ⟨members, rfl, hoffence, hdefinitions, hwarnings⟩ := outline_of_compileObject hexpand h
  have hclear := Schema.firstOffence_eq_none_iff.1 hoffence
  have htop : Tidy members :=
    htidy ⟨.object members, false⟩ (List.mem_append_right _ List.mem_cons_self) members rfl
  have hlegible : ∀ member ∈ members, Legible member.1 member.2 := fun _ hmember =>
    .of_tidy htop (fun position hposition =>
      ⟨hclear position hposition, htidy position (List.mem_append_left _ hposition)⟩) hmember
  have hnames := Outline.nodup_names hqualify scope hlegible htop.apart
  have hkeys := (Definitions.nodup_name_iff.1 hnames).1
  refine ⟨members, rfl, hnames, ?_, ?_, ?_⟩
  · rwa [hwarnings, Definitions.warnings_nil_iff]
  · rw [hdefinitions, Definitions.entries_messages hkeys]
  · rw [hdefinitions, Definitions.entries_enums hkeys]

/-- The fields of an object with enums of one key on several levels, in a sequence, a tuple and a
map. -/
def shelf : List (String × Schema 0) :=
  [("status", .enumeration [.text "OPEN", .text "SHUT"]),
    ("books", .array (.object
      [("status", .enumeration [.text "LENT"]),
        ("sizes", .tuple [.number true, .array (.tuple [.boolean])])])),
    ("owners", .map .string (.object [("status", .enumeration [.text "KNOWN"])]))]

/-- Their definitions have different names, and none of them is replaced. -/
theorem qualified_names_distinct_shelf :
    LogEntry.shown false
        (({} : Session 0).compileObject Schema.noObjects ⟨"Api", true⟩ [] (.object shelf)).log = [] ∧
      (({} : Session 0).compileObject Schema.noObjects ⟨"Api", true⟩ []
          (.object shelf)).session.definitions.messages.names =
        ["ApiBookSizes_1", "ApiBookSizes", "ApiBook", "ApiOwnersValue"] ∧
      (({} : Session 0).compileObject Schema.noObjects ⟨"Api", true⟩ []
          (.object shelf)).session.definitions.enums.names =
        ["ApiStatus", "ApiBookStatus", "ApiOwnersValueStatus"] := by
  have hexpand : (Schema.object shelf).expand Schema.noObjects = some (.object shelf) := rfl
  have hok : ∃ fields, (({} : Session 0).compileObject Schema.noObjects ⟨"Api", true⟩ []
      (.object shelf)).outcome = .ok fields := ⟨_, rfl⟩
  obtain ⟨fields, hfields⟩ := hok
  obtain ⟨members, htree, -, hquiet, hmessages, henums⟩ :=
    qualified_names_distinct rfl hexpand (by decide) hfields
  cases htree
  refine ⟨hquiet, ?_, ?_⟩
  · rw [Catalogue.names, hmessages]
    decide
  · rw [Catalogue.names, henums]
    decide

/-- Two fields of different keys, one of which is the plural of the other. -/
def tagTwice : List (String × Schema 0) :=
  [("tag", .object [("state", .enumeration [.text "ON", .text "OFF"])]),
    ("tags", .array (.object [("state", .enumeration [.text "NEW", .text "OLD"])]))]

/-- The singular of the one key is the other, so that the names of both objects clash, and so do
those of the enums inside. -/
theorem qualified_names_tagTwice :
    (∀ position ∈ (Schema.object tagTwice).positions ++ [⟨.object tagTwice, false⟩],
        ∀ members ∈ fields? position.schema, ∀ member ∈ members,
          Naming.isIdentifier member.1 = true) ∧
      (∃ fields, (({} : Session 0).compileObject Schema.noObjects ⟨"", true⟩ []
        (.object tagTwice)).outcome = .ok fields) ∧
      ¬(((memberOccurrences [] tagTwice).map (·.definition ⟨"", true⟩)).map
          Definition.name).Nodup ∧
      (({} : Session 0).compileObject Schema.noObjects ⟨"", true⟩ []
          (.object tagTwice)).session.definitions.messages.entries =
        [("Tag", ["TagState state = 1;"])] ∧
      LogEntry.shown false (({} : Session 0).compileObject Schema.noObjects ⟨"", true⟩ []
          (.object tagTwice)).log =
        [.enumRedefined "TagState", .messageRedefined "Tag"] := by
  exact ⟨by decide, ⟨_, rfl⟩, by decide, by decide, by decide⟩

end Session

end ProtoSchema
