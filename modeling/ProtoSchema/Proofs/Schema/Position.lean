import ProtoSchema.Schema.Basic

/-!
# Positions in a schema

A schema holds other schemas at its positions, and a position is a part of a map or it is not. The
positions are listed in the order of a traversal that finishes all that is inside a position before
the position itself. A position offends if what stands there has no mapping at all, or if it is a
part of a map and is not a single plain type. The list of positions does not go through references
to shared objects.
-/

namespace ProtoSchema.Schema

variable {n : Nat}

/-- Whether the schema is an object, shared or not. -/
def isObject : Schema n → Bool
  | .object _ => true
  | .shared _ => true
  | _ => false

/-- Whether the schema is an array or a set. -/
def isSequence : Schema n → Bool
  | .array _ => true
  | .set _ => true
  | _ => false

/-- Whether the schema is a map. -/
def isMap : Schema n → Bool
  | .map _ _ => true
  | _ => false

/-- Whether the schema has no mapping, wherever it stands. -/
def isUnmapped : Schema n → Bool
  | .unknown _ => true
  | .foreign _ => true
  | _ => false

/-- A place at which a schema stands inside another. -/
structure Position (n : Nat) where
  /-- What stands there. -/
  schema : Schema n
  /-- Whether the place is that of the keys or of the values of a map. -/
  isMapPart : Bool

/-- Whether a schema cannot be a part of a map: it is a sequence under its layers of optionality,
or it has such a layer and is no map under them. -/
def isUnfitPart (schema : Schema n) : Bool :=
  schema.strip.isSequence || (schema.isWrapped && !schema.strip.isMap)

/-- Whether a position keeps the schema around it from being compiled. -/
def Position.offends (position : Position n) : Bool :=
  position.schema.isUnmapped || (position.isMapPart && position.schema.isUnfitPart)

mutual

/-- The positions strictly inside a schema, in the order of the traversal. -/
def positions : Schema n → List (Position n)
  | .object fields => fieldPositions fields
  | .array element => positions element ++ [⟨element, false⟩]
  | .set element => positions element ++ [⟨element, false⟩]
  | .tuple elements => elementPositions elements
  | .map key value => positions key ++ [⟨key, true⟩] ++ (positions value ++ [⟨value, true⟩])
  | .optional inner => positions inner ++ [⟨inner, false⟩]
  | .nullable inner => positions inner ++ [⟨inner, false⟩]
  | _ => []
termination_by structural schema => schema

/-- The positions of the fields of an object and inside them. -/
def fieldPositions : List (String × Schema n) → List (Position n)
  | [] => []
  | (_, schema) :: rest => positions schema ++ [⟨schema, false⟩] ++ fieldPositions rest
termination_by structural fields => fields

/-- The positions of the elements of a tuple and inside them. -/
def elementPositions : List (Schema n) → List (Position n)
  | [] => []
  | schema :: rest => positions schema ++ [⟨schema, false⟩] ++ elementPositions rest
termination_by structural elements => elements

end

/-- A schema and all that stands inside it. -/
def subschemas (schema : Schema n) : List (Schema n) :=
  schema :: schema.positions.map (·.schema)

/-- The kind at the first offending position of a list. -/
def firstOffence (listed : List (Position n)) : Option String :=
  (listed.find? Position.offends).map (·.schema.kind)

/-- The kind for which a schema is refused as the root of a document: its own if it is no object
under its layers of optionality, and otherwise that of the first offending position. -/
def refusal (schema : Schema n) : Option String :=
  if schema.strip.isObject then firstOffence schema.strip.positions else some schema.strip.kind

/-- The first offence of two lists is that of the first list, if there is one. -/
theorem firstOffence_append (listed more : List (Position n)) :
    firstOffence (listed ++ more) = (firstOffence listed).or (firstOffence more) := by
  rw [firstOffence, List.find?_append, Option.map_or]
  rfl

/-- There is no first offence exactly if no position offends. -/
theorem firstOffence_eq_none_iff {listed : List (Position n)} :
    firstOffence listed = none ↔ ∀ position ∈ listed, position.offends = false := by
  simp [firstOffence]

/-- The first offence is that of an offending position with none before it. -/
theorem firstOffence_eq_some_iff {listed : List (Position n)} {kind : String} :
    firstOffence listed = some kind ↔
      ∃ before position after, listed = before ++ position :: after ∧
        (∀ earlier ∈ before, earlier.offends = false) ∧ position.offends = true ∧
          kind = position.schema.kind := by
  rw [firstOffence, Option.map_eq_some_iff]
  constructor
  · rintro ⟨position, hposition, rfl⟩
    obtain ⟨hoffends, before, after, hlisted, hbefore⟩ :=
      List.find?_eq_some_iff_append.1 hposition
    refine ⟨before, position, after, hlisted, ?_, hoffends, rfl⟩
    intro earlier hearlier
    simpa using hbefore earlier hearlier
  · rintro ⟨before, position, after, hlisted, hbefore, hoffends, rfl⟩
    refine ⟨position, List.find?_eq_some_iff_append.2 ⟨hoffends, before, after, hlisted, ?_⟩, rfl⟩
    intro earlier hearlier
    simpa using hbefore earlier hearlier

/-- The refusal of an object is the first offence in its fields. -/
theorem refusal_of_object {schema : Schema n} {fields : List (String × Schema n)}
    (h : schema.strip = .object fields) :
    schema.refusal = firstOffence (fieldPositions fields) := by
  rw [refusal, h]
  rfl

/-- A schema is fit to be the root exactly if it is an object in which no position offends. -/
theorem refusal_eq_none_iff {schema : Schema n} :
    schema.refusal = none ↔
      schema.strip.isObject = true ∧
        ∀ position ∈ schema.strip.positions, position.offends = false := by
  unfold refusal
  split
  · rename_i hobject
    rw [firstOffence_eq_none_iff]
    exact ⟨fun h => ⟨hobject, h⟩, fun h => h.2⟩
  · rename_i hobject
    constructor
    · intro h
      cases h
    · intro h
      exact absurd h.1 hobject

/-- Every position of a list comes right after the positions inside it. -/
def IsTraversal (listed : List (Position n)) : Prop :=
  ∀ before position after, listed = before ++ position :: after →
    ∃ earlier, before = earlier ++ position.schema.positions

namespace IsTraversal

variable {listed more : List (Position n)}

theorem nil : IsTraversal ([] : List (Position n)) := by
  intro before position after h
  simp at h

/-- Two lists, each with every position after those inside it, can be put together. -/
theorem append (h : IsTraversal listed) (hmore : IsTraversal more) :
    IsTraversal (listed ++ more) := by
  intro before position after hsplit
  rcases List.append_eq_append_iff.1 hsplit with
    ⟨between, hbefore, hlater⟩ | ⟨between, hlisted, hlater⟩
  · obtain ⟨earlier, hearlier⟩ := hmore between position after hlater
    exact ⟨listed ++ earlier, by rw [hbefore, hearlier, List.append_assoc]⟩
  · cases between with
    | nil =>
      obtain ⟨earlier, hearlier⟩ := hmore [] position after hlater.symm
      obtain ⟨-, hnone⟩ := List.append_eq_nil_iff.1 hearlier.symm
      exact ⟨before, by rw [hnone, List.append_nil]⟩
    | cons first rest =>
      obtain ⟨rfl, -⟩ := List.cons.inj hlater
      exact h before position rest hlisted

/-- A schema may come right after the positions inside it. -/
theorem append_position {schema : Schema n} (h : IsTraversal schema.positions)
    (isMapPart : Bool) : IsTraversal (schema.positions ++ [⟨schema, isMapPart⟩]) := by
  intro before position after hsplit
  rcases List.eq_nil_or_concat after with rfl | ⟨rest, last, rfl⟩
  · obtain ⟨rfl, hlast⟩ := List.append_inj' hsplit rfl
    obtain ⟨rfl, -⟩ := List.cons.inj hlast
    exact ⟨[], rfl⟩
  · have hassoc : schema.positions ++ [⟨schema, isMapPart⟩] =
        (before ++ position :: rest) ++ [last] := by
      simp [hsplit]
    exact h before position rest (List.append_inj' hassoc rfl).1

end IsTraversal

mutual

/-- Wherever a schema stands, the positions inside it are listed as a block in front of it. -/
theorem isTraversal_positions : ∀ schema : Schema n, IsTraversal schema.positions
  | .object fields => isTraversal_fieldPositions fields
  | .array element => (isTraversal_positions element).append_position false
  | .set element => (isTraversal_positions element).append_position false
  | .tuple elements => isTraversal_elementPositions elements
  | .map key value =>
    ((isTraversal_positions key).append_position true).append
      ((isTraversal_positions value).append_position true)
  | .optional inner => (isTraversal_positions inner).append_position false
  | .nullable inner => (isTraversal_positions inner).append_position false
  | .shared _ => .nil
  | .string => .nil
  | .date => .nil
  | .boolean => .nil
  | .bigInt => .nil
  | .number _ => .nil
  | .enumeration _ => .nil
  | .unknown _ => .nil
  | .foreign _ => .nil
termination_by structural schema => schema

theorem isTraversal_fieldPositions : ∀ fields : List (String × Schema n),
    IsTraversal (fieldPositions fields)
  | [] => .nil
  | (_, schema) :: rest =>
    ((isTraversal_positions schema).append_position false).append (isTraversal_fieldPositions rest)
termination_by structural fields => fields

theorem isTraversal_elementPositions : ∀ elements : List (Schema n),
    IsTraversal (elementPositions elements)
  | [] => .nil
  | schema :: rest =>
    ((isTraversal_positions schema).append_position false).append
      (isTraversal_elementPositions rest)
termination_by structural elements => elements

end

end ProtoSchema.Schema
