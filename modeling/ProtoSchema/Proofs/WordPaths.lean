import Mathlib.Data.List.Nodup
import ProtoSchema.Proofs.Outline
import ProtoSchema.Proofs.Schema.Subschema
import ProtoSchema.Proofs.Singular

/-!
# Word paths

Every enum, object and tuple in a schema has a path of words, which are the keys that lead to it as
the names of definitions have them: a sequence turns the last word into its singular, an element of
a tuple adds its position to the last word, a part of a map is a word of its own, and an object
begins a new one.

Below one field no two paths are the same, whatever the field holds. Two fields of an object are kept
apart where their paths begin with different words.
-/

namespace ProtoSchema.Outline

open ProtoSchema.Naming (IsWord IsSnake isIdentifier isIdentifier_iff isIdentifierChar
  isUpper_of_isIdentifierChar isWord_of_isIdentifier)
open ProtoSchema.Singular (singular opensOxen opensOxen_append singularChars_of_digit
  isSnake_singularChars toList_singular)

section ElementWords

/-- The word for an element of a tuple. -/
def elementWord (word : String) (position : Nat) : String :=
  word ++ "_" ++ toString position

variable {word grown : String} {position other : Nat}

theorem toList_elementWord (word : String) (position : Nat) :
    (elementWord word position).toList = word.toList ++ '_' :: Nat.toDigits 10 position := by
  have hunderscore : "_".toList = ['_'] := rfl
  rw [elementWord, String.toList_append, String.toList_append, hunderscore,
    Nat.toString_eq_ofList_toDigits, String.toList_ofList, List.append_assoc]
  rfl

/-- What the word for an element adds may stand in an identifier. -/
theorem isIdentifierChar_of_mem_position {c : Char}
    (h : c ∈ '_' :: Nat.toDigits 10 position) : isIdentifierChar c = true := by
  rcases List.mem_cons.1 h with rfl | hdigits
  · decide
  · have hdigit : c.isDigit = true :=
      Nat.isDigit_of_mem_toDigits (by decide) (by decide) hdigits
    simp [isIdentifierChar, hdigit]

/-- The word for an element ends in a digit. -/
theorem getLast?_elementWord (word : String) (position : Nat) :
    ∃ c, (elementWord word position).toList.getLast? = some c ∧ c.isDigit = true := by
  have hne : Nat.toDigits 10 position ≠ [] := Nat.toDigits_ne_nil
  refine ⟨(Nat.toDigits 10 position).getLast hne, ?_,
    Nat.isDigit_of_mem_toDigits (by decide) (by decide) (List.getLast_mem hne)⟩
  rw [toList_elementWord, List.getLast?_append_cons, List.getLast?_cons,
    List.getLast?_eq_some_getLast hne]
  rfl

theorem opensOxen_elementWord (h : opensOxen word.toList = false) (position : Nat) :
    opensOxen (elementWord word position).toList = false := by
  rw [toList_elementWord]
  exact opensOxen_append h (by decide)

/-- The word for an element is its own singular. -/
theorem singular_elementWord (h : opensOxen word.toList = false) (position : Nat) :
    singular (elementWord word position) = elementWord word position := by
  obtain ⟨c, hlast, hdigit⟩ := getLast?_elementWord word position
  refine String.toList_injective ?_
  rw [toList_singular, singularChars_of_digit hlast hdigit (opensOxen_elementWord h position)]

/-- The word for an element is a word. -/
theorem isWord_elementWord (h : IsWord word) (position : Nat) :
    IsWord (elementWord word position) := by
  obtain ⟨c, rest, hword, hlower⟩ := h.opens
  refine ⟨⟨c, rest ++ '_' :: Nat.toDigits 10 position, ?_, hlower⟩, ?_, ?_⟩
  · rw [toList_elementWord, hword, List.cons_append]
  · rw [toList_elementWord, List.mem_append]
    exact fun hdot => hdot.elim h.noDot fun hdot =>
      absurd (isIdentifierChar_of_mem_position hdot) (by decide)
  · rw [toList_elementWord]
    exact fun d hd => (List.mem_append.1 hd).elim (h.noCapital d) fun hd =>
      isUpper_of_isIdentifierChar (isIdentifierChar_of_mem_position hd)

/-- A word with positions added to it. -/
def Grows (word grown : String) : Prop :=
  ∃ more, grown.toList = word.toList ++ more ∧ (more = [] ∨ ∃ rest, more = '_' :: rest)

theorem Grows.refl (word : String) : Grows word word :=
  ⟨[], (List.append_nil _).symm, .inl rfl⟩

/-- What grows out of the word for an element grows out of the word itself. -/
theorem Grows.of_elementWord (h : Grows (elementWord word position) grown) : Grows word grown := by
  obtain ⟨more, hgrown, -⟩ := h
  refine ⟨'_' :: Nat.toDigits 10 position ++ more, ?_, .inr ⟨_, rfl⟩⟩
  rw [hgrown, toList_elementWord, List.append_assoc]

/-- What grows out of the word for an element is not the word itself. -/
theorem Grows.ne_of_elementWord (h : Grows (elementWord word position) grown) : grown ≠ word := by
  rintro rfl
  obtain ⟨more, hgrown, -⟩ := h
  have hlength := congrArg List.length hgrown
  rw [toList_elementWord] at hlength
  simp only [List.length_append, List.length_cons] at hlength
  omega

/-- The position can be read back from what grows out of the word for an element. -/
theorem Grows.position_eq (h : Grows (elementWord word position) grown)
    (h' : Grows (elementWord word other) grown) : position = other := by
  have hread : ∀ {place : Nat}, Grows (elementWord word place) grown →
      ((grown.toList.drop (word.toList.length + 1)).takeWhile (· != '_')) =
        Nat.toDigits 10 place := by
    rintro place ⟨more, hgrown, hmore⟩
    have hdrop : grown.toList.drop (word.toList.length + 1) = Nat.toDigits 10 place ++ more := by
      rw [hgrown, toList_elementWord, List.append_assoc, List.cons_append,
        List.drop_length_add_append]
      rfl
    have hdigits : ∀ d ∈ Nat.toDigits 10 place, (d != '_') = true := by
      intro d hd
      rw [bne_iff_ne]
      rintro rfl
      exact Nat.underscore_not_in_toDigits hd
    have hend : more.takeWhile (· != '_') = [] := by
      rcases hmore with rfl | ⟨rest, rfl⟩ <;> rfl
    rw [hdrop, List.takeWhile_append_of_pos hdigits, hend, List.append_nil]
  have hdigits : Nat.toDigits 10 position = Nat.toDigits 10 other :=
    (hread h).symm.trans (hread h')
  rw [← Nat.ofDigitChars_ten_toDigits (n := position), hdigits, Nat.ofDigitChars_ten_toDigits]

/-- Nothing grows out of both the word for the keys and the word for the values of a map. -/
theorem Grows.not_value_of_key (h : Grows "key" grown) : ¬Grows "value" grown := by
  rintro ⟨more, hvalue, -⟩
  obtain ⟨rest, hkey, -⟩ := h
  have hfirst : 'k' = 'v' := (List.cons.inj (hkey.symm.trans hvalue)).1
  cases hfirst

end ElementWords

variable {n : Nat}

mutual

/-- The word paths of the occurrences in a schema under a word, in the order of the occurrences. -/
def paths (word : String) : Schema n → List (List String)
  | .optional inner => paths word inner
  | .nullable inner => paths word inner
  | .array element => paths (singular word) element
  | .set element => paths (singular word) element
  | .map key value => (paths "key" key ++ paths "value" value).map (word :: ·)
  | .object members => (memberPaths members).map (word :: ·) ++ [[word]]
  | .tuple elements => elementPaths word 0 elements ++ [[word]]
  | .enumeration _ => [[word]]
  | _ => []
termination_by structural schema => schema

/-- The word paths of the occurrences in the fields of an object. -/
def memberPaths : List (String × Schema n) → List (List String)
  | [] => []
  | (key, schema) :: rest => paths key schema ++ memberPaths rest
termination_by structural members => members

/-- The word paths of the occurrences in the elements of a tuple from a position on. -/
def elementPaths (word : String) (position : Nat) : List (Schema n) → List (List String)
  | [] => []
  | element :: rest =>
    paths (elementWord word position) element ++ elementPaths word (position + 1) rest
termination_by structural elements => elements

end

theorem paths_map (word : String) (key value : Schema n) :
    paths word (.map key value) = (paths "key" key ++ paths "value" value).map (word :: ·) := rfl

theorem paths_object (word : String) (members : List (String × Schema n)) :
    paths word (.object members) = (memberPaths members).map (word :: ·) ++ [[word]] := rfl

theorem paths_tuple (word : String) (elements : List (Schema n)) :
    paths word (.tuple elements) = elementPaths word 0 elements ++ [[word]] := rfl

example :
    let plain : Schema 0 := .object [("name", .string)]
    memberPaths [("tags", .array plain), ("sizes", .map .string (.tuple [.boolean, plain]))] =
      [["tag"], ["sizes", "value_1"], ["sizes", "value"]] := by decide

/-- The word under which the occurrences in a schema stand: the singular of the given word, once for
each sequence that the schema begins with. -/
def headWord (word : String) : Schema n → String
  | .optional inner => headWord word inner
  | .nullable inner => headWord word inner
  | .array element => headWord (singular word) element
  | .set element => headWord (singular word) element
  | _ => word
termination_by structural schema => schema

/-- The words with which the paths of a field begin. -/
def heads (key : String) (schema : Schema n) : List String :=
  (paths key schema).filterMap List.head?

/-- The fields of an object from which qualified names can be told apart. -/
structure Tidy (members : List (String × Schema n)) : Prop where
  /-- The keys are identifiers of small letters. -/
  named : ∀ member ∈ members, isIdentifier member.1 = true
  /-- No path begins with an empty word, nor with one that opens with `oxen`, whose singular loses
  letters however the word goes on. -/
  steady : ∀ member ∈ members, ∀ head ∈ heads member.1 member.2,
    head ≠ "" ∧ opensOxen head.toList = false
  /-- The paths of different fields begin with different words. -/
  apart : members.Pairwise fun first second =>
    ∀ head ∈ heads first.1 first.2, head ∉ heads second.1 second.2

instance (members : List (String × Schema n)) : Decidable (Tidy members) :=
  decidable_of_iff
    ((∀ member ∈ members, isIdentifier member.1 = true) ∧
      (∀ member ∈ members, ∀ head ∈ heads member.1 member.2,
        head ≠ "" ∧ opensOxen head.toList = false) ∧
      members.Pairwise fun first second =>
        ∀ head ∈ heads first.1 first.2, head ∉ heads second.1 second.2)
    ⟨fun h => ⟨h.1, h.2.1, h.2.2⟩, fun h => ⟨h.named, h.steady, h.apart⟩⟩

/-- The fields of an object. -/
def fields? : Schema n → Option (List (String × Schema n))
  | .object members => some members
  | _ => none

/-- A schema in which the fields of every object can be told apart. -/
def IsTidy (schema : Schema n) : Prop :=
  ∀ position ∈ schema.positions ++ [⟨schema, false⟩], ∀ members ∈ fields? position.schema,
    Tidy members

instance (schema : Schema n) : Decidable (IsTidy schema) :=
  inferInstanceAs (Decidable (∀ position ∈ schema.positions ++ [⟨schema, false⟩],
    ∀ members ∈ fields? position.schema, Tidy members))

/-- A position that does not offend, at which the fields of an object can be told apart. -/
def Sound (position : Schema.Position n) : Prop :=
  position.offends = false ∧ ∀ members ∈ fields? position.schema, Tidy members

/-- Whether the schema begins with a layer of optionality or with a sequence. -/
def isLayered : Schema n → Bool
  | .optional _ => true
  | .nullable _ => true
  | .array _ => true
  | .set _ => true
  | _ => false

/-- Induction on the layers in front of a schema, which go along with a word. -/
@[elab_as_elim]
theorem layered_induction {motive : String → Schema n → Prop}
    (optional : ∀ word inner, motive word inner → motive word (.optional inner))
    (nullable : ∀ word inner, motive word inner → motive word (.nullable inner))
    (array : ∀ word element, motive (singular word) element → motive word (.array element))
    (set : ∀ word element, motive (singular word) element → motive word (.set element))
    (base : ∀ word schema, isLayered schema = false → motive word schema)
    (word : String) (schema : Schema n) : motive word schema := by
  induction word, schema using headWord.induct with
  | case1 word inner ih => exact optional word inner ih
  | case2 word inner ih => exact nullable word inner ih
  | case3 word element ih => exact array word element ih
  | case4 word element ih => exact set word element ih
  | case5 schema word h1 h2 h3 h4 =>
    refine base word schema ?_
    cases schema with
    | optional inner => exact absurd rfl (h1 inner)
    | nullable inner => exact absurd rfl (h2 inner)
    | array element => exact absurd rfl (h3 element)
    | set element => exact absurd rfl (h4 element)
    | _ => rfl

section HeadWords

variable {word : String} {schema : Schema n}

theorem headWord_of_not_isLayered (word : String) (h : isLayered schema = false) :
    headWord word schema = word := by
  cases schema <;> first | rfl | cases h

/-- A schema that is no sequence leaves the word as it is. -/
theorem headWord_of_not_isSequence (word : String) (h : schema.strip.isSequence = false) :
    headWord word schema = word := by
  induction word, schema using layered_induction with
  | optional word inner ih => exact ih h
  | nullable word inner ih => exact ih h
  | array word element ih => cases h
  | set word element ih => cases h
  | base word schema hbase => exact headWord_of_not_isLayered word hbase

/-- A word that is its own singular stays as it is. -/
theorem headWord_of_singular (h : singular word = word) : headWord word schema = word := by
  induction word, schema using layered_induction with
  | optional word inner ih => exact ih h
  | nullable word inner ih => exact ih h
  | array word element ih => exact (ih (congrArg singular h)).trans h
  | set word element ih => exact (ih (congrArg singular h)).trans h
  | base word schema hbase => exact headWord_of_not_isLayered word hbase

/-- What sequences leave of an identifier is an identifier, or nothing. -/
theorem isSnake_headWord (h : IsSnake word.toList) : IsSnake (headWord word schema).toList := by
  have hsingular : ∀ {word : String}, IsSnake word.toList → IsSnake (singular word).toList := by
    intro word h
    rw [toList_singular]
    exact isSnake_singularChars h
  induction word, schema using layered_induction with
  | optional word inner ih => exact ih h
  | nullable word inner ih => exact ih h
  | array word element ih => exact ih (hsingular h)
  | set word element ih => exact ih (hsingular h)
  | base word schema hbase => rwa [headWord_of_not_isLayered word hbase]

/-- Where there is a path, some path begins with the head word. -/
theorem headWord_mem_heads (h : paths word schema ≠ []) :
    headWord word schema ∈ heads word schema := by
  induction word, schema using layered_induction with
  | optional word inner ih => exact ih h
  | nullable word inner ih => exact ih h
  | array word element ih => exact ih h
  | set word element ih => exact ih h
  | base word schema hbase =>
    rw [headWord_of_not_isLayered word hbase]
    have hpath : ∃ rest, word :: rest ∈ paths word schema := by
      cases schema with
      | map key value =>
        obtain ⟨path, hpath⟩ := List.exists_mem_of_ne_nil _ h
        obtain ⟨rest, -, rfl⟩ := List.mem_map.1 hpath
        exact ⟨rest, hpath⟩
      | object members => exact ⟨[], List.mem_append_right _ List.mem_cons_self⟩
      | tuple elements => exact ⟨[], List.mem_append_right _ List.mem_cons_self⟩
      | enumeration options => exact ⟨[], List.mem_cons_self⟩
      | optional inner => cases hbase
      | nullable inner => cases hbase
      | array element => cases hbase
      | set element => cases hbase
      | _ => exact absurd rfl h
    obtain ⟨rest, hrest⟩ := hpath
    exact List.mem_filterMap.2 ⟨word :: rest, hrest, rfl⟩

end HeadWords

/-- The positions of a field of an object are positions of the object. -/
theorem mem_fieldPositions {members : List (String × Schema n)} {member : String × Schema n}
    (hmember : member ∈ members) {position : Schema.Position n}
    (h : position ∈ member.2.positions ++ [⟨member.2, false⟩]) :
    position ∈ Schema.fieldPositions members := by
  rw [List.mem_append, List.mem_singleton] at h
  exact Schema.mem_fieldPositions_iff.2 ⟨member, hmember, h⟩

/-- The positions of an element of a tuple are positions of the tuple. -/
theorem mem_elementPositions {elements : List (Schema n)} {element : Schema n}
    (helement : element ∈ elements) {position : Schema.Position n}
    (h : position ∈ element.positions ++ [⟨element, false⟩]) :
    position ∈ Schema.elementPositions elements := by
  rw [List.mem_append, List.mem_singleton] at h
  exact Schema.mem_elementPositions_iff.2 ⟨element, helement, h⟩

/-- A schema under a word from which the paths in it can be read. -/
structure Legible (word : String) (schema : Schema n) : Prop where
  /-- If there is a path in the schema, the head word is a word that no singular changes once it has
  a position. -/
  head : paths word schema ≠ [] →
    IsWord (headWord word schema) ∧ opensOxen (headWord word schema).toList = false
  /-- The positions inside are sound. -/
  inside : ∀ position ∈ schema.positions, Sound position
  /-- If the schema is an object, its fields can be told apart. -/
  tidy : ∀ members ∈ fields? schema, Tidy members

namespace Legible

variable {word : String}

/-- A schema is legible if it and the positions inside it are sound. -/
theorem of_sound {schema : Schema n} {isMapPart : Bool}
    (hhead : paths word schema ≠ [] →
      IsWord (headWord word schema) ∧ opensOxen (headWord word schema).toList = false)
    (h : ∀ position ∈ schema.positions ++ [⟨schema, isMapPart⟩], Sound position) :
    Legible word schema where
  head := hhead
  inside position hposition := h position (List.mem_append_left _ hposition)
  tidy := (h ⟨schema, isMapPart⟩ (List.mem_append_right _ List.mem_cons_self)).2

theorem optional {inner : Schema n} (h : Legible word (.optional inner)) : Legible word inner :=
  of_sound h.head h.inside

theorem nullable {inner : Schema n} (h : Legible word (.nullable inner)) : Legible word inner :=
  of_sound h.head h.inside

theorem array {element : Schema n} (h : Legible word (.array element)) :
    Legible (singular word) element :=
  of_sound h.head h.inside

theorem set {element : Schema n} (h : Legible word (.set element)) :
    Legible (singular word) element :=
  of_sound h.head h.inside

/-- A part of a map is no sequence, so that its word is the one that the map gives it. -/
theorem headWord_of_mapPart {part : Schema n} (h : Sound ⟨part, true⟩) (word : String) :
    headWord word part = word := by
  have hoffends : Schema.Position.offends ⟨part, true⟩ = false := h.1
  rw [Schema.Position.offends, Bool.true_and, Bool.or_eq_false_iff, Schema.isUnfitPart,
    Bool.or_eq_false_iff] at hoffends
  exact headWord_of_not_isSequence word hoffends.2.1

/-- A part of a map is legible under a word. -/
theorem of_mapPart {part : Schema n} (hword : IsWord word) (hsteady : opensOxen word.toList = false)
    (h : ∀ position ∈ part.positions ++ [⟨part, true⟩], Sound position) : Legible word part := by
  refine of_sound (fun _ => ?_) h
  rw [headWord_of_mapPart (h _ (List.mem_append_right _ List.mem_cons_self))]
  exact ⟨hword, hsteady⟩

section Parts

variable {key value : Schema n} (h : Legible word (.map key value))

include h

theorem mapKey : Legible "key" key :=
  of_mapPart (isWord_of_isIdentifier (by decide)) (by decide) fun position hposition =>
    h.inside position (List.mem_append_left _ hposition)

theorem mapValue : Legible "value" value :=
  of_mapPart (isWord_of_isIdentifier (by decide)) (by decide) fun position hposition =>
    h.inside position (List.mem_append_right _ hposition)

theorem headWord_mapKey (word : String) : headWord word key = word :=
  headWord_of_mapPart
    (h.inside _ (List.mem_append_left _ (List.mem_append_right _ List.mem_cons_self))) word

theorem headWord_mapValue (word : String) : headWord word value = word :=
  headWord_of_mapPart
    (h.inside _ (List.mem_append_right _ (List.mem_append_right _ List.mem_cons_self))) word

end Parts

/-- A tuple is hoisted itself, so that its word is one. -/
theorem tuple {elements : List (Schema n)} (h : Legible word (.tuple elements)) :
    IsWord word ∧ opensOxen word.toList = false :=
  h.head (List.append_ne_nil_of_right_ne_nil _ (List.cons_ne_nil _ _))

/-- The elements of a tuple are legible under their own words. -/
theorem element {elements : List (Schema n)} (h : Legible word (.tuple elements))
    {element : Schema n} (helement : element ∈ elements) (position : Nat) :
    Legible (elementWord word position) element := by
  obtain ⟨hword, hsteady⟩ := h.tuple
  refine of_sound (fun _ => ?_) fun place hplace =>
    h.inside place (mem_elementPositions helement hplace)
  rw [headWord_of_singular (singular_elementWord hsteady position)]
  exact ⟨isWord_elementWord hword position, opensOxen_elementWord hsteady position⟩

/-- The fields of an object are legible where they can be told apart. -/
theorem of_tidy {members : List (String × Schema n)} (htidy : Tidy members)
    (h : ∀ position ∈ Schema.fieldPositions members, Sound position)
    {member : String × Schema n} (hmember : member ∈ members) : Legible member.1 member.2 := by
  refine of_sound (fun hpaths => ?_) fun position hposition =>
    h position (mem_fieldPositions hmember hposition)
  obtain ⟨hne, hsteady⟩ := htidy.steady member hmember _ (headWord_mem_heads hpaths)
  have hsnake : IsSnake (headWord member.1 member.2).toList :=
    isSnake_headWord (isIdentifier_iff.1 (htidy.named member hmember)).2
  exact ⟨isWord_of_isIdentifier (isIdentifier_iff.2 ⟨hne, hsnake⟩), hsteady⟩

theorem member {members : List (String × Schema n)} (h : Legible word (.object members))
    {member : String × Schema n} (hmember : member ∈ members) : Legible member.1 member.2 :=
  of_tidy (h.tidy members rfl) h.inside hmember

end Legible

mutual

/-- Every path begins with a word that grows out of the head word. -/
theorem exists_head_of_mem_paths (word : String) : ∀ (schema : Schema n),
    opensOxen (headWord word schema).toList = false → ∀ path ∈ paths word schema,
      ∃ head rest, path = head :: rest ∧ Grows (headWord word schema) head
  | .optional inner, h, path, hpath => exists_head_of_mem_paths word inner h path hpath
  | .nullable inner, h, path, hpath => exists_head_of_mem_paths word inner h path hpath
  | .array element, h, path, hpath => exists_head_of_mem_paths (singular word) element h path hpath
  | .set element, h, path, hpath => exists_head_of_mem_paths (singular word) element h path hpath
  | .map key value, _, path, hpath => by
    obtain ⟨rest, -, rfl⟩ := List.mem_map.1 hpath
    exact ⟨word, rest, rfl, .refl word⟩
  | .object members, _, path, hpath => by
    rcases List.mem_append.1 hpath with hinner | hself
    · obtain ⟨rest, -, rfl⟩ := List.mem_map.1 hinner
      exact ⟨word, rest, rfl, .refl word⟩
    · exact ⟨word, [], List.mem_singleton.1 hself, .refl word⟩
  | .tuple elements, h, path, hpath => by
    rcases List.mem_append.1 hpath with hinner | hself
    · obtain ⟨place, head, rest, -, hsplit, hgrows⟩ :=
        exists_head_of_mem_elementPaths word h 0 elements path hinner
      exact ⟨head, rest, hsplit, hgrows.of_elementWord⟩
    · exact ⟨word, [], List.mem_singleton.1 hself, .refl word⟩
  | .enumeration _, _, path, hpath => ⟨word, [], List.mem_singleton.1 hpath, .refl word⟩
termination_by structural schema => schema

/-- Every path in the elements of a tuple begins with a word that grows out of the word for one of
them. -/
theorem exists_head_of_mem_elementPaths (word : String) (h : opensOxen word.toList = false) :
    ∀ (position : Nat) (elements : List (Schema n)), ∀ path ∈ elementPaths word position elements,
      ∃ place head rest, position ≤ place ∧ path = head :: rest ∧
        Grows (elementWord word place) head
  | position, element :: rest, path, hpath => by
    have hword : headWord (elementWord word position) element = elementWord word position :=
      headWord_of_singular (singular_elementWord h position)
    rcases List.mem_append.1 hpath with hfirst | hrest
    · have hsteady : opensOxen (headWord (elementWord word position) element).toList = false := by
        rw [hword]
        exact opensOxen_elementWord h position
      obtain ⟨head, more, hsplit, hgrows⟩ :=
        exists_head_of_mem_paths (elementWord word position) element hsteady path hfirst
      rw [hword] at hgrows
      exact ⟨position, head, more, Nat.le_refl _, hsplit, hgrows⟩
    · obtain ⟨place, head, more, hplace, hsplit, hgrows⟩ :=
        exists_head_of_mem_elementPaths word h (position + 1) rest path hrest
      exact ⟨place, head, more, Nat.le_of_succ_le hplace, hsplit, hgrows⟩
termination_by structural _ elements => elements

end

mutual

/-- All that stands in a path is a word. -/
theorem isWord_of_mem_paths (word : String) : ∀ (schema : Schema n), Legible word schema →
    ∀ path ∈ paths word schema, ∀ other ∈ path, IsWord other
  | .optional inner, h, path, hpath => isWord_of_mem_paths word inner h.optional path hpath
  | .nullable inner, h, path, hpath => isWord_of_mem_paths word inner h.nullable path hpath
  | .array element, h, path, hpath => isWord_of_mem_paths (singular word) element h.array path hpath
  | .set element, h, path, hpath => isWord_of_mem_paths (singular word) element h.set path hpath
  | .map key value, h, path, hpath => by
    have hword : IsWord word := (h.head (List.ne_nil_of_mem hpath)).1
    obtain ⟨rest, hrest, rfl⟩ := List.mem_map.1 hpath
    have hinner : ∀ other ∈ rest, IsWord other := by
      rcases List.mem_append.1 hrest with hkey | hvalue
      · exact isWord_of_mem_paths "key" key h.mapKey rest hkey
      · exact isWord_of_mem_paths "value" value h.mapValue rest hvalue
    exact List.forall_mem_cons.2 ⟨hword, hinner⟩
  | .object members, h, path, hpath => by
    have hword : IsWord word := (h.head (List.ne_nil_of_mem hpath)).1
    rcases List.mem_append.1 hpath with hinner | hself
    · obtain ⟨rest, hrest, rfl⟩ := List.mem_map.1 hinner
      exact List.forall_mem_cons.2 ⟨hword,
        isWord_of_mem_memberPaths members (fun _ hmember => h.member hmember) rest hrest⟩
    · rw [List.mem_singleton.1 hself]
      exact List.forall_mem_singleton.2 hword
  | .tuple elements, h, path, hpath => by
    rcases List.mem_append.1 hpath with hinner | hself
    · exact isWord_of_mem_elementPaths word 0 elements
        (fun _ helement position => h.element helement position) path hinner
    · rw [List.mem_singleton.1 hself]
      exact List.forall_mem_singleton.2 h.tuple.1
  | .enumeration _, h, path, hpath => by
    rw [List.mem_singleton.1 hpath]
    exact List.forall_mem_singleton.2 (h.head (List.cons_ne_nil _ _)).1
termination_by structural schema => schema

/-- All that stands in a path in the fields of an object is a word. -/
theorem isWord_of_mem_memberPaths : ∀ (members : List (String × Schema n)),
    (∀ member ∈ members, Legible member.1 member.2) →
      ∀ path ∈ memberPaths members, ∀ other ∈ path, IsWord other
  | (key, schema) :: rest, h, path, hpath => by
    obtain ⟨hfirst, hrest⟩ := List.forall_mem_cons.1 h
    rcases List.mem_append.1 hpath with hpath | hpath
    · exact isWord_of_mem_paths key schema hfirst path hpath
    · exact isWord_of_mem_memberPaths rest hrest path hpath
termination_by structural members => members

/-- All that stands in a path in the elements of a tuple is a word. -/
theorem isWord_of_mem_elementPaths (word : String) : ∀ (position : Nat)
    (elements : List (Schema n)),
    (∀ element ∈ elements, ∀ place, Legible (elementWord word place) element) →
      ∀ path ∈ elementPaths word position elements, ∀ other ∈ path, IsWord other
  | position, element :: rest, h, path, hpath => by
    obtain ⟨hfirst, hrest⟩ := List.forall_mem_cons.1 h
    rcases List.mem_append.1 hpath with hpath | hpath
    · exact isWord_of_mem_paths _ element (hfirst position) path hpath
    · exact isWord_of_mem_elementPaths word (position + 1) rest hrest path hpath
termination_by structural _ elements => elements

end

/-- A path in a legible schema begins with a word that grows out of the head word. -/
theorem Legible.exists_head {word : String} {schema : Schema n} (h : Legible word schema)
    {path : List String} (hpath : path ∈ paths word schema) :
    ∃ head rest, path = head :: rest ∧ Grows (headWord word schema) head :=
  exists_head_of_mem_paths word schema (h.head (List.ne_nil_of_mem hpath)).2 path hpath

/-- A path in the fields of an object is a path in one of the fields. -/
theorem exists_member_of_mem_memberPaths {members : List (String × Schema n)} {path : List String}
    (h : path ∈ memberPaths members) : ∃ member ∈ members, path ∈ paths member.1 member.2 := by
  induction members with
  | nil => cases h
  | cons first rest ih =>
    rcases List.mem_append.1 h with hfirst | hrest
    · exact ⟨first, List.mem_cons_self, hfirst⟩
    · obtain ⟨member, hmember, hpath⟩ := ih hrest
      exact ⟨member, List.mem_cons_of_mem _ hmember, hpath⟩

/-- No path in the fields of an object is empty. -/
theorem ne_nil_of_mem_memberPaths {members : List (String × Schema n)}
    (h : ∀ member ∈ members, Legible member.1 member.2) {path : List String}
    (hpath : path ∈ memberPaths members) : path ≠ [] := by
  obtain ⟨member, hmember, hpath⟩ := exists_member_of_mem_memberPaths hpath
  obtain ⟨head, rest, rfl, -⟩ := (h member hmember).exists_head hpath
  exact List.cons_ne_nil _ _

mutual

/-- No two occurrences in a schema have the same path. -/
theorem nodup_paths (word : String) : ∀ (schema : Schema n), Legible word schema →
    (paths word schema).Nodup
  | .optional inner, h => nodup_paths word inner h.optional
  | .nullable inner, h => nodup_paths word inner h.nullable
  | .array element, h => nodup_paths (singular word) element h.array
  | .set element, h => nodup_paths (singular word) element h.set
  | .map key value, h => by
    refine List.Nodup.map (fun _ _ heq => List.tail_eq_of_cons_eq heq) ?_
    refine List.Nodup.append (nodup_paths "key" key h.mapKey) (nodup_paths "value" value h.mapValue) ?_
    intro path hkey hvalue
    obtain ⟨head, rest, rfl, hgrows⟩ := h.mapKey.exists_head hkey
    obtain ⟨other, more, heq, hgrows'⟩ := h.mapValue.exists_head hvalue
    cases heq
    rw [h.headWord_mapKey] at hgrows
    rw [h.headWord_mapValue] at hgrows'
    exact hgrows.not_value_of_key hgrows'
  | .object members, h => by
    have hinner : ((memberPaths members).map (word :: ·)).Nodup :=
      (nodup_memberPaths members (fun _ hmember => h.member hmember)
        (h.tidy members rfl).apart).map fun _ _ heq => List.tail_eq_of_cons_eq heq
    refine hinner.append (List.nodup_singleton _) (List.disjoint_singleton.2 fun hmem => ?_)
    -- the path of the object itself is shorter than those inside
    obtain ⟨rest, hrest, heq⟩ := List.mem_map.1 hmem
    have hne := ne_nil_of_mem_memberPaths (fun _ hmember => h.member hmember) hrest
    exact hne (List.tail_eq_of_cons_eq heq)
  | .tuple elements, h => by
    have hinner := nodup_elementPaths word h.tuple.2 0 elements
      fun _ helement position => h.element helement position
    refine hinner.append (List.nodup_singleton _) (List.disjoint_singleton.2 fun hmem => ?_)
    -- the word of an element is longer than that of the tuple
    obtain ⟨place, head, rest, -, heq, hgrows⟩ :=
      exists_head_of_mem_elementPaths word h.tuple.2 0 elements _ hmem
    cases heq
    exact hgrows.ne_of_elementWord rfl
  | .enumeration _, _ => List.nodup_singleton _
  | .shared _, _ => List.nodup_nil
  | .string, _ => List.nodup_nil
  | .boolean, _ => List.nodup_nil
  | .date, _ => List.nodup_nil
  | .bigInt, _ => List.nodup_nil
  | .number _, _ => List.nodup_nil
  | .unknown _, _ => List.nodup_nil
  | .foreign _, _ => List.nodup_nil
termination_by structural schema => schema

/-- No two occurrences in the fields of an object have the same path. -/
theorem nodup_memberPaths : ∀ (members : List (String × Schema n)),
    (∀ member ∈ members, Legible member.1 member.2) →
      members.Pairwise (fun first second =>
        ∀ head ∈ heads first.1 first.2, head ∉ heads second.1 second.2) →
        (memberPaths members).Nodup
  | [], _, _ => List.nodup_nil
  | (key, schema) :: rest, h, hapart => by
    obtain ⟨hfirst, hrest⟩ := List.forall_mem_cons.1 h
    obtain ⟨hnow, hlater⟩ := List.pairwise_cons.1 hapart
    refine List.Nodup.append (nodup_paths key schema hfirst) (nodup_memberPaths rest hrest hlater) ?_
    intro path hpath hother
    obtain ⟨member, hmember, hpath'⟩ := exists_member_of_mem_memberPaths hother
    obtain ⟨head, more, rfl, -⟩ := hfirst.exists_head hpath
    have hhead : head ∈ heads key schema := List.mem_filterMap.2 ⟨_, hpath, rfl⟩
    have hhead' : head ∈ heads member.1 member.2 := List.mem_filterMap.2 ⟨_, hpath', rfl⟩
    exact hnow member hmember head hhead hhead'
termination_by structural members => members

/-- No two occurrences in the elements of a tuple have the same path. -/
theorem nodup_elementPaths (word : String) (hsteady : opensOxen word.toList = false) :
    ∀ (position : Nat) (elements : List (Schema n)),
    (∀ element ∈ elements, ∀ place, Legible (elementWord word place) element) →
      (elementPaths word position elements).Nodup
  | _, [], _ => List.nodup_nil
  | position, element :: rest, h => by
    obtain ⟨hfirst, hrest⟩ := List.forall_mem_cons.1 h
    refine List.Nodup.append (nodup_paths _ element (hfirst position))
      (nodup_elementPaths word hsteady (position + 1) rest hrest) ?_
    intro path hpath hother
    obtain ⟨head, more, rfl, hgrows⟩ := (hfirst position).exists_head hpath
    obtain ⟨place, other, tail, hplace, heq, hgrows'⟩ :=
      exists_head_of_mem_elementPaths word hsteady (position + 1) rest _ hother
    cases heq
    rw [headWord_of_singular (singular_elementWord hsteady position)] at hgrows
    have hsame := hgrows.position_eq hgrows'
    omega
termination_by structural _ elements => elements

end

end ProtoSchema.Outline
