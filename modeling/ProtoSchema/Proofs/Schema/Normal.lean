import ProtoSchema.Proofs.Schema.Position

/-!
# Normal forms of schemas

A schema can be written in several ways that mean the same: sets for arrays, nullability for
optionality, several layers of optionality for one, and layers where they say nothing, which is
around sequences and maps and on all that becomes an element of a sequence. The elements of a tuple
count as such if the tuple does. The normal form has one way to write each of them. Main statements:
a normal form is normal, a normal schema is its own normal form, and a schema is accepted exactly if
its normal form is.
-/

namespace ProtoSchema.Schema

variable {n : Nat}

/-- The schema with a layer of optionality, unless it has one or the layer says nothing. -/
def layered (inArray : Bool) (schema : Schema n) : Schema n :=
  if inArray || schema.isWrapped || schema.isSequence || schema.isMap then schema
  else .optional schema

mutual

/-- The normal form of a schema, given whether it becomes an element of a sequence. -/
def normal (inArray : Bool) : Schema n → Schema n
  | .optional inner => layered inArray (normal inArray inner)
  | .nullable inner => layered inArray (normal inArray inner)
  | .array element => .array (normal true element)
  | .set element => .array (normal true element)
  | .map key value => .map (normal false key) (normal false value)
  | .object fields => .object (normalFields fields)
  | .tuple elements => .tuple (normalElements inArray elements)
  | schema => schema
termination_by structural schema => schema

/-- The fields of an object in normal form. -/
def normalFields : List (String × Schema n) → List (String × Schema n)
  | [] => []
  | (key, schema) :: rest => (key, normal false schema) :: normalFields rest
termination_by structural fields => fields

/-- The elements of a tuple in normal form. -/
def normalElements (inArray : Bool) : List (Schema n) → List (Schema n)
  | [] => []
  | schema :: rest => normal inArray schema :: normalElements inArray rest
termination_by structural elements => elements

end

/-- The normal form of a schema that stands at the root. -/
def normalRoot (schema : Schema n) : Schema n :=
  normal false schema.strip

mutual

/-- Whether a schema is in normal form, given whether it becomes an element of a sequence. -/
def isNormal (inArray : Bool) : Schema n → Bool
  | .optional inner =>
    !(inArray || inner.isWrapped || inner.isSequence || inner.isMap) && isNormal inArray inner
  | .nullable _ => false
  | .array element => isNormal true element
  | .set _ => false
  | .map key value => isNormal false key && isNormal false value
  | .object fields => areNormalFields fields
  | .tuple elements => areNormalElements inArray elements
  | _ => true
termination_by structural schema => schema

/-- Whether the fields of an object are in normal form. -/
def areNormalFields : List (String × Schema n) → Bool
  | [] => true
  | (_, schema) :: rest => isNormal false schema && areNormalFields rest
termination_by structural fields => fields

/-- Whether the elements of a tuple are in normal form. -/
def areNormalElements (inArray : Bool) : List (Schema n) → Bool
  | [] => true
  | schema :: rest => isNormal inArray schema && areNormalElements inArray rest
termination_by structural elements => elements

end

theorem length_normalFields (fields : List (String × Schema n)) :
    (normalFields fields).length = fields.length := by
  induction fields with
  | nil => rfl
  | cons field rest ih => rw [normalFields, List.length_cons, List.length_cons, ih]

section Layers

variable {inArray : Bool} {schema : Schema n}

/-- There is a layer of optionality or there is none. -/
theorem layered_cases (inArray : Bool) (schema : Schema n) :
    layered inArray schema = schema ∨ layered inArray schema = .optional schema := by
  unfold layered
  split
  · exact .inl rfl
  · exact .inr rfl

theorem strip_layered (inArray : Bool) (schema : Schema n) :
    (layered inArray schema).strip = schema.strip := by
  rcases layered_cases inArray schema with h | h <;> rw [h]
  rfl

/-- What has no layer of optionality has none in its normal form. -/
theorem isWrapped_normal_of_not_isWrapped (inArray : Bool) (h : schema.isWrapped = false) :
    (normal inArray schema).isWrapped = false := by
  cases schema <;> first | rfl | cases h

/-- Layers of optionality do not matter for the normal form of what is under them. -/
theorem strip_normal (inArray : Bool) (schema : Schema n) :
    (normal inArray schema).strip = normal inArray schema.strip := by
  induction schema using strip.induct with
  | case1 inner ih => rw [normal, strip_layered, ih, strip]
  | case2 inner ih => rw [normal, strip_layered, ih, strip]
  | case3 schema h1 h2 =>
    have hwrapped : schema.isWrapped = false := by
      cases schema with
      | optional inner => exact absurd rfl (h1 inner)
      | nullable inner => exact absurd rfl (h2 inner)
      | _ => rfl
    rw [strip_of_not_isWrapped hwrapped,
      strip_of_not_isWrapped (isWrapped_normal_of_not_isWrapped inArray hwrapped)]

/-- The normal form of a sequence is one, and that of nothing else. -/
theorem isSequence_strip_normal (inArray : Bool) (schema : Schema n) :
    (normal inArray schema).strip.isSequence = schema.strip.isSequence := by
  have hwrapped := isWrapped_strip schema
  rw [strip_normal]
  cases h : schema.strip <;> rw [h] at hwrapped <;> first | rfl | cases hwrapped

/-- The normal form of a map is one, and that of nothing else. -/
theorem isMap_strip_normal (inArray : Bool) (schema : Schema n) :
    (normal inArray schema).strip.isMap = schema.strip.isMap := by
  have hwrapped := isWrapped_strip schema
  rw [strip_normal]
  cases h : schema.strip <;> rw [h] at hwrapped <;> first | rfl | cases hwrapped

/-- A layer of optionality around something else than a sequence or a map is kept. -/
theorem isWrapped_normal (hsequence : schema.strip.isSequence = false)
    (hmap : schema.strip.isMap = false) :
    (normal false schema).isWrapped = schema.isWrapped := by
  have hlayered : ∀ inner : Schema n, inner.strip.isSequence = false →
      inner.strip.isMap = false → (layered false (normal false inner)).isWrapped = true := by
    intro inner hsequence hmap
    cases hwrapped : (normal false inner).isWrapped with
    | true => simp [layered, hwrapped]
    | false =>
      have hstrip := strip_of_not_isWrapped hwrapped
      rw [← isSequence_strip_normal false, hstrip] at hsequence
      rw [← isMap_strip_normal false, hstrip] at hmap
      have hkept : layered false (normal false inner) = .optional (normal false inner) := by
        simp [layered, hwrapped, hsequence, hmap]
      rw [hkept]
      rfl
  cases schema with
  | optional inner => exact hlayered inner hsequence hmap
  | nullable inner => exact hlayered inner hsequence hmap
  | _ => rfl

end Layers

section Normal

variable {inArray : Bool}

/-- A layer that is added to a normal schema leaves it normal. -/
theorem isNormal_layered {schema : Schema n} (h : isNormal inArray schema = true) :
    isNormal inArray (layered inArray schema) = true := by
  unfold layered
  split
  · exact h
  · rename_i hlayer
    simp only [Bool.not_eq_true] at hlayer
    simp only [isNormal, hlayer, h, Bool.not_false, Bool.and_self]

mutual

/-- The normal form of a schema is normal. -/
theorem isNormal_normal (inArray : Bool) : ∀ schema : Schema n,
    isNormal inArray (normal inArray schema) = true
  | .optional inner => isNormal_layered (isNormal_normal inArray inner)
  | .nullable inner => isNormal_layered (isNormal_normal inArray inner)
  | .array element => isNormal_normal true element
  | .set element => isNormal_normal true element
  | .map key value => by
    simp only [normal, isNormal, isNormal_normal false key, isNormal_normal false value,
      Bool.and_self]
  | .object fields => areNormalFields_normalFields fields
  | .tuple elements => areNormalElements_normalElements inArray elements
  | .shared _ => rfl
  | .string => rfl
  | .boolean => rfl
  | .date => rfl
  | .bigInt => rfl
  | .number _ => rfl
  | .enumeration _ => rfl
  | .unknown _ => rfl
  | .foreign _ => rfl
termination_by structural schema => schema

theorem areNormalFields_normalFields : ∀ fields : List (String × Schema n),
    areNormalFields (normalFields fields) = true
  | [] => rfl
  | (_, schema) :: rest => by
    simp only [normalFields, areNormalFields, isNormal_normal false schema,
      areNormalFields_normalFields rest, Bool.and_self]
termination_by structural fields => fields

theorem areNormalElements_normalElements (inArray : Bool) : ∀ elements : List (Schema n),
    areNormalElements inArray (normalElements inArray elements) = true
  | [] => rfl
  | schema :: rest => by
    simp only [normalElements, areNormalElements, isNormal_normal inArray schema,
      areNormalElements_normalElements inArray rest, Bool.and_self]
termination_by structural elements => elements

end

mutual

/-- A normal schema is its own normal form. -/
theorem normal_of_isNormal (inArray : Bool) : ∀ schema : Schema n,
    isNormal inArray schema = true → normal inArray schema = schema
  | .optional inner, h => by
    obtain ⟨hlayer, hinner⟩ := Bool.and_eq_true_iff.1 h
    rw [normal, normal_of_isNormal inArray inner hinner, layered, if_neg]
    simpa using hlayer
  | .nullable _, h => by cases h
  | .array element, h => by rw [normal, normal_of_isNormal true element h]
  | .set _, h => by cases h
  | .map key value, h => by
    obtain ⟨hkey, hvalue⟩ := Bool.and_eq_true_iff.1 h
    rw [normal, normal_of_isNormal false key hkey, normal_of_isNormal false value hvalue]
  | .object fields, h => by rw [normal, normalFields_of_areNormalFields fields h]
  | .tuple elements, h => by rw [normal, normalElements_of_areNormalElements inArray elements h]
  | .shared _, _ => rfl
  | .string, _ => rfl
  | .boolean, _ => rfl
  | .date, _ => rfl
  | .bigInt, _ => rfl
  | .number _, _ => rfl
  | .enumeration _, _ => rfl
  | .unknown _, _ => rfl
  | .foreign _, _ => rfl
termination_by structural schema => schema

theorem normalFields_of_areNormalFields : ∀ fields : List (String × Schema n),
    areNormalFields fields = true → normalFields fields = fields
  | [], _ => rfl
  | (_, schema) :: rest, h => by
    obtain ⟨hschema, hrest⟩ := Bool.and_eq_true_iff.1 h
    rw [normalFields, normal_of_isNormal false schema hschema,
      normalFields_of_areNormalFields rest hrest]
termination_by structural fields => fields

theorem normalElements_of_areNormalElements (inArray : Bool) : ∀ elements : List (Schema n),
    areNormalElements inArray elements = true → normalElements inArray elements = elements
  | [], _ => rfl
  | schema :: rest, h => by
    obtain ⟨hschema, hrest⟩ := Bool.and_eq_true_iff.1 h
    rw [normalElements, normal_of_isNormal inArray schema hschema,
      normalElements_of_areNormalElements inArray rest hrest]
termination_by structural elements => elements

end

/-- Normalizing a schema again changes nothing. -/
theorem normal_normal (inArray : Bool) (schema : Schema n) :
    normal inArray (normal inArray schema) = normal inArray schema :=
  normal_of_isNormal inArray _ (isNormal_normal inArray schema)

example :
    let pair : Schema 0 := .tuple [.optional .string, .nullable (.nullable (.set .string))]
    let root : Schema 0 := .nullable (.object [("pair", .nullable pair), ("pairs", .set pair)])
    root.normalRoot = .object
      [("pair", .optional (.tuple [.optional .string, .array .string])),
        ("pairs", .array (.tuple [.string, .array .string]))] := rfl

end Normal

section Acceptance

/-- Whether no position of a list offends. -/
def isClear (listed : List (Position n)) : Bool :=
  listed.all fun position => !position.offends

/-- Whether a schema has a mapping where it stands alone, and so has all that stands in it. -/
def isAccepted (schema : Schema n) : Bool :=
  isClear (schema.positions ++ [⟨schema, false⟩])

theorem isClear_append (listed more : List (Position n)) :
    isClear (listed ++ more) = (isClear listed && isClear more) :=
  List.all_append

/-- No position offends exactly if there is no first offence. -/
theorem isClear_iff {listed : List (Position n)} :
    isClear listed = true ↔ firstOffence listed = none := by
  rw [firstOffence_eq_none_iff]
  simp [isClear]

/-- A part of a map has to be fit to be one besides. -/
theorem isClear_part (part : Schema n) :
    isClear (part.positions ++ [⟨part, true⟩]) = (part.isAccepted && !part.isUnfitPart) := by
  rw [isAccepted, isClear_append, isClear_append, Bool.and_assoc]
  simp [isClear, Position.offends]

/-- A schema that has a mapping is accepted exactly if what stands in it is. -/
theorem isAccepted_eq {schema : Schema n} (h : schema.isUnmapped = false) :
    schema.isAccepted = isClear schema.positions := by
  rw [isAccepted, isClear_append]
  simp [isClear, Position.offends, h]

theorem isAccepted_optional (inner : Schema n) :
    isAccepted (.optional inner) = inner.isAccepted :=
  isAccepted_eq rfl

theorem isAccepted_nullable (inner : Schema n) :
    isAccepted (.nullable inner) = inner.isAccepted :=
  isAccepted_eq rfl

theorem isAccepted_array (element : Schema n) :
    isAccepted (.array element) = element.isAccepted :=
  isAccepted_eq rfl

theorem isAccepted_set (element : Schema n) :
    isAccepted (.set element) = element.isAccepted :=
  isAccepted_eq rfl

theorem isAccepted_map (key value : Schema n) :
    isAccepted (.map key value) =
      (key.isAccepted && !key.isUnfitPart && (value.isAccepted && !value.isUnfitPart)) := by
  rw [isAccepted_eq rfl, positions, isClear_append, isClear_part, isClear_part]

theorem isAccepted_object (fields : List (String × Schema n)) :
    isAccepted (.object fields) = isClear (fieldPositions fields) :=
  isAccepted_eq rfl

theorem isAccepted_tuple (elements : List (Schema n)) :
    isAccepted (.tuple elements) = isClear (elementPositions elements) :=
  isAccepted_eq rfl

theorem isClear_fieldPositions_cons (key : String) (schema : Schema n)
    (rest : List (String × Schema n)) :
    isClear (fieldPositions ((key, schema) :: rest)) =
      (schema.isAccepted && isClear (fieldPositions rest)) :=
  isClear_append _ _

theorem isClear_elementPositions_cons (schema : Schema n) (rest : List (Schema n)) :
    isClear (elementPositions (schema :: rest)) =
      (schema.isAccepted && isClear (elementPositions rest)) :=
  isClear_append _ _

theorem isAccepted_layered (inArray : Bool) (schema : Schema n) :
    (layered inArray schema).isAccepted = schema.isAccepted := by
  rcases layered_cases inArray schema with h | h <;> rw [h]
  exact isAccepted_optional schema

/-- Whether a schema is fit to be a part of a map does not depend on how it is written. -/
theorem isUnfitPart_normal (schema : Schema n) :
    (normal false schema).isUnfitPart = schema.isUnfitPart := by
  rw [isUnfitPart, isUnfitPart, isSequence_strip_normal, isMap_strip_normal]
  cases hsequence : schema.strip.isSequence with
  | true => rfl
  | false =>
    cases hmap : schema.strip.isMap with
    | true => simp
    | false => rw [isWrapped_normal hsequence hmap]

mutual

/-- Whether a schema is accepted does not depend on how it is written. -/
theorem isAccepted_normal (inArray : Bool) : ∀ schema : Schema n,
    (normal inArray schema).isAccepted = schema.isAccepted
  | .optional inner => by
    rw [normal, isAccepted_layered, isAccepted_normal inArray inner, isAccepted_optional]
  | .nullable inner => by
    rw [normal, isAccepted_layered, isAccepted_normal inArray inner, isAccepted_nullable]
  | .array element => by
    rw [normal, isAccepted_array, isAccepted_array, isAccepted_normal true element]
  | .set element => by
    rw [normal, isAccepted_array, isAccepted_set, isAccepted_normal true element]
  | .map key value => by
    rw [normal, isAccepted_map, isAccepted_map, isAccepted_normal false key,
      isAccepted_normal false value, isUnfitPart_normal, isUnfitPart_normal]
  | .object fields => by
    rw [normal, isAccepted_object, isAccepted_object, isClear_normalFields fields]
  | .tuple elements => by
    rw [normal, isAccepted_tuple, isAccepted_tuple, isClear_normalElements inArray elements]
  | .shared _ => rfl
  | .string => rfl
  | .boolean => rfl
  | .date => rfl
  | .bigInt => rfl
  | .number _ => rfl
  | .enumeration _ => rfl
  | .unknown _ => rfl
  | .foreign _ => rfl
termination_by structural schema => schema

theorem isClear_normalFields : ∀ fields : List (String × Schema n),
    isClear (fieldPositions (normalFields fields)) = isClear (fieldPositions fields)
  | [] => rfl
  | (_, schema) :: rest => by
    rw [normalFields, isClear_fieldPositions_cons, isClear_fieldPositions_cons,
      isAccepted_normal false schema, isClear_normalFields rest]
termination_by structural fields => fields

theorem isClear_normalElements (inArray : Bool) : ∀ elements : List (Schema n),
    isClear (elementPositions (normalElements inArray elements)) =
      isClear (elementPositions elements)
  | [] => rfl
  | schema :: rest => by
    rw [normalElements, isClear_elementPositions_cons, isClear_elementPositions_cons,
      isAccepted_normal inArray schema, isClear_normalElements inArray rest]
termination_by structural elements => elements

end

end Acceptance

end ProtoSchema.Schema
